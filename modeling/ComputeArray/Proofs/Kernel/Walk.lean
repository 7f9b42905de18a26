import ComputeArray.Kernel.Elementwise
import ComputeArray.Proofs.Kernel.Stepping
import ComputeArray.Proofs.Layout.Index
import Mathlib.Data.List.GetD

/-!
# The walk over the axes

The strided form of an elementwise kernel takes the number of its lane apart from the last axis to
the first. Before the axis `s` is done, what is left of the number is a multiple of the stride of
that axis, and each offset is what the later axes contribute. In the end the offset of each input is
what its strides reach at the row-major index of the lane (`runAll_walk`), and nothing has wrapped.
-/

set_option autoImplicit false

namespace ComputeArray.Kernel.Elementwise

open Layout Machine Shape

variable {α : Type} {machine : Machine α} {rounds : Nat}

/-! ### Statements for each input -/

/-- The offsets of inputs, everything else being as in another state. -/
structure Offsets (names : List String) (base state : State α) (reached : String → Nat) : Prop where
  active : state.active = true
  arrays : state.arrays = base.arrays
  reached : ∀ name ∈ names, state.locals (offsetName name) = some (.word (reached name))
  others : ∀ other, other ∉ names.map offsetName →
    state.locals other = base.locals other

/-- Statements that each set the offset of one input. -/
theorem runAll_map {statement : String → Statement} {reached : String → Nat} {names : List String}
    (hnodup : (names.map offsetName).Nodup) {base : State α} (hactive : base.active = true)
    (hstep : ∀ name ∈ names, ∀ state : State α, state.arrays = base.arrays →
      (∀ other, other ∉ names.map offsetName → state.locals other = base.locals other) →
      state.locals (offsetName name) = base.locals (offsetName name) →
      machine.run rounds (statement name) state =
        some (state.set (offsetName name) (.word (reached name)))) :
    ∃ last, machine.runAll rounds (names.map statement) base = some last ∧
      Offsets names base last reached := by
  induction names generalizing base with
  | nil =>
    refine ⟨base, runAll_nil, hactive, rfl, fun _ h ↦ ?_, fun _ _ ↦ rfl⟩
    cases h
  | cons name rest ih =>
    rw [List.map_cons, List.nodup_cons] at hnodup
    set next := base.set (offsetName name) (.word (reached name)) with hnext
    have hfirst : machine.run rounds (statement name) base = some next :=
      hstep name (by simp) base rfl (fun _ _ ↦ rfl) rfl
    have hrest : ∀ later ∈ rest, ∀ state : State α, state.arrays = next.arrays →
        (∀ other, other ∉ rest.map offsetName → state.locals other = next.locals other) →
        state.locals (offsetName later) = next.locals (offsetName later) →
        machine.run rounds (statement later) state =
          some (state.set (offsetName later) (.word (reached later))) := by
      intro later hmem state harrays hothers hlater
      refine hstep later (List.mem_cons_of_mem name hmem) state harrays (fun other hother ↦ ?_) ?_
      · rw [List.map_cons, List.mem_cons, not_or] at hother
        rw [hothers other hother.2, hnext, State.locals_set_of_ne hother.1]
      · have hne : offsetName later ≠ offsetName name := by
          intro heq
          exact hnodup.1 (heq ▸ List.mem_map_of_mem hmem)
        rw [hlater, hnext, State.locals_set_of_ne hne]
    have hnextActive : next.active = true := hactive
    obtain ⟨last, hlast, hoffsets⟩ := ih hnodup.2 hnextActive hrest
    refine ⟨last, ?_, hoffsets.active, hoffsets.arrays, fun found hmem ↦ ?_, fun other hother ↦ ?_⟩
    · rw [List.map_cons, runAll_cons hfirst hactive, hlast]
    · rcases List.mem_cons.mp hmem with rfl | hmem
      · rw [hoffsets.others _ hnodup.1, hnext, State.locals_set_self]
      · exact hoffsets.reached found hmem
    · rw [List.map_cons, List.mem_cons, not_or] at hother
      rw [hoffsets.others other hother.2, hnext, State.locals_set_of_ne hother.1]

theorem runAll_forEach {statement : String → Statement} {reached : String → Nat}
    {names : List String} (hnodup : (names.map offsetName).Nodup) {base : State α}
    (hactive : base.active = true)
    (hstep : ∀ name ∈ names, ∀ state : State α, state.arrays = base.arrays →
      (∀ other, other ∉ names.map offsetName → state.locals other = base.locals other) →
      state.locals (offsetName name) = base.locals (offsetName name) →
      machine.run rounds (statement name) state =
        some (state.set (offsetName name) (.word (reached name)))) :
    ∃ last, machine.runAll rounds (forEach names statement) base = some last ∧
      Offsets names base last reached := by
  unfold forEach
  split
  · next hempty =>
    rw [List.isEmpty_iff] at hempty
    subst hempty
    refine ⟨base, ?_, hactive, rfl, fun _ h ↦ ?_, fun _ _ ↦ rfl⟩
    · rw [runAll_cons (by rw [run]) hactive, runAll_nil]
    · cases h
  · exact runAll_map hnodup hactive hstep

/-! ### Strides -/

/-- The arrays that hold the strides of the output and of the inputs. -/
structure Strided (names : List String) (shape : List Nat) (strides : String → List Nat)
    (arrays : String → Option (List (Datum α))) : Prop where
  out : arrays (stridesName "out") = some ((steps shape).map .word)
  inputs : ∀ name ∈ names, arrays (stridesName name) = some ((strides name).map .word)
  lengths : ∀ name ∈ names, (strides name).length = shape.length

theorem eval_stride {state : State α} {array : String} {position : Expression}
    {strides : List Nat} {s stride : Nat}
    (harray : state.arrays array = some (strides.map .word)) (hstride : strides[s]? = some stride)
    (hposition : machine.eval state position = some (.word s)) :
    machine.eval state (.index array position) = some (.word stride) := by
  rw [eval_index harray hposition, List.getElem?_map, hstride]
  rfl

/-- Moving all offsets by the same number of steps along an axis. -/
theorem runAll_advance (hfaithful : machine.arithmetic.Faithful) {names : List String}
    {shape : List Nat} {strides : String → List Nat} {base : State α} {count : String}
    {position : Expression} {k s : Nat} {reached : String → Nat}
    (hnodup : (names.map offsetName).Nodup) (hactive : base.active = true)
    (hstrided : Strided names shape strides base.arrays) (hs : s < shape.length)
    (hcount : base.locals count = some (.word k)) (hapart : count ∉ names.map offsetName)
    (hposition : ∀ state : State α,
      (∀ other, other ∉ names.map offsetName → state.locals other = base.locals other) →
      machine.eval state position = some (.word s))
    (hreached : ∀ name ∈ names,
      base.locals (offsetName name) = some (.word (reached name)))
    (hbound : ∀ name ∈ names, reached name + k * (strides name).getD s 0 < wordCount) :
    ∃ last, machine.runAll rounds (forEach names (advanceOffset count position)) base = some last ∧
      Offsets names base last fun name ↦ reached name + k * (strides name).getD s 0 := by
  refine runAll_forEach hnodup hactive fun name hmem state harrays hothers hname ↦ ?_
  have hold : machine.eval state (.name (offsetName name)) = some (.word (reached name)) := by
    rw [eval_name, hname, hreached name hmem]
  have hsteps : machine.eval state (.name count) = some (.word k) := by
    rw [eval_name, hothers count hapart, hcount]
  have hstride : machine.eval state (.index (stridesName name) position) =
      some (.word ((strides name).getD s 0)) := by
    have hlt : s < (strides name).length := by rw [hstrided.lengths name hmem]; exact hs
    refine eval_stride (by rw [harrays, hstrided.inputs name hmem]) ?_ (hposition state hothers)
    rw [List.getElem?_eq_getElem hlt, List.getD_eq_getElem _ _ hlt]
  have hle : k * (strides name).getD s 0 ≤ reached name + k * (strides name).getD s 0 :=
    Nat.le_add_left _ _
  have hproduct := (eval_binary_words hsteps hstride).trans
    (hfaithful.apply_mul (Nat.lt_of_le_of_lt hle (hbound name hmem)))
  have hsum := (eval_binary_words hold hproduct).trans (hfaithful.apply_add (hbound name hmem))
  refine run_update_name ?_ hsum
  rw [hname, hreached name hmem]
  rfl

/-! ### Rounds -/

/-- The variables of a strided kernel that are no offsets. -/
def walkNames : List String := ["i", "rest", "s", "r", "k", "k0"]

/-- The offsets of inputs have names of their own. -/
structure Apart (names : List String) : Prop where
  nodup : (names.map offsetName).Nodup
  walk : ∀ name ∈ walkNames, name ∉ names.map offsetName

/-- The walk before the axis `s` is done: what is left of the number of the lane, and the offsets
reached so far. -/
structure Walking (names : List String) (base state : State α) (s rest : Nat)
    (reached : String → Nat) : Prop where
  active : state.active = true
  arrays : state.arrays = base.arrays
  counter : state.locals "s" = some (.word s)
  rest : state.locals "rest" = some (.word rest)
  reached : ∀ name ∈ names, state.locals (offsetName name) = some (.word (reached name))
  others : ∀ other, other ∉ names.map offsetName → other ≠ "s" → other ≠ "rest" →
    state.locals other = base.locals other

theorem declared_walkRound (names : List String) : declared (walkRound names) = ["r", "k"] := by
  have hnone : declared (forEach names (advanceOffset "k" (.name "s"))) = [] := by
    unfold declared forEach
    rw [List.filterMap_eq_nil_iff]
    intro statement hmem
    split at hmem
    · rw [List.mem_singleton.mp hmem]
    · obtain ⟨name, -, rfl⟩ := List.mem_map.mp hmem
      rfl
  unfold declared at hnone ⊢
  rw [walkRound, List.filterMap_append, List.filterMap_append, hnone]
  rfl

theorem Apart.offsetName_ne {names : List String} (h : Apart names) {name other : String}
    (hname : name ∈ names) (hother : other ∈ walkNames) : offsetName name ≠ other :=
  fun heq ↦ h.walk other hother (List.mem_map.mpr ⟨name, hname, heq⟩)

theorem eval_outerAxis (hfaithful : machine.arithmetic.Faithful) {state : State α} {s : Nat}
    (hs : s + 1 < wordCount) (hcounter : state.locals "s" = some (.word (s + 1))) :
    machine.eval state outerAxis = some (.word s) := by
  have haxis : machine.eval state (.name "s") = some (.word (s + 1)) := by
    rw [eval_name, hcounter]
  have hone : machine.eval state (.word 1) = some (.word 1) :=
    eval_word (by decide) (by decide)
  exact (eval_binary_words haxis hone).trans (hfaithful.apply_sub hs (by omega))

/-- The two divisions of a round: what lies along the axis, and the steps that are in it. -/
theorem runAll_divisions (rounds : Nat) (hfaithful : machine.arithmetic.Faithful)
    {shape : List Nat} {state : State α} {s rest outer inner : Nat} (hactive : state.active = true)
    (hstrides : state.arrays (stridesName "out") = some ((steps shape).map .word))
    (hcounter : state.locals "s" = some (.word (s + 1)))
    (hlocal : state.locals "rest" = some (.word rest)) (hs : s + 1 < wordCount)
    (hrest : rest < wordCount) (houter : (steps shape)[s]? = some outer)
    (hinner : (steps shape)[s + 1]? = some inner) (hpos : 0 < outer) (hpos' : 0 < inner) :
    machine.runAll rounds
        [.define "r" (some "u32")
            (.binary "%" (.name "rest") (.index (stridesName "out") outerAxis)),
          .define "k" (some "u32")
            (.binary "/" (.name "r") (.index (stridesName "out") (.name "s")))] state =
      some ((state.set "r" (.word (rest % outer))).set "k" (.word (rest % outer / inner))) := by
  have hremainder : machine.eval state (.binary "%" (.name "rest")
      (.index (stridesName "out") outerAxis)) = some (.word (rest % outer)) := by
    have hleft : machine.eval state (.name "rest") = some (.word rest) := by
      rw [eval_name, hlocal]
    have hright := eval_stride hstrides houter (eval_outerAxis hfaithful hs hcounter)
    exact (eval_binary_words hleft hright).trans (hfaithful.apply_rem hrest hpos)
  set first := state.set "r" (.word (rest % outer)) with hfirst
  have hquotient : machine.eval first (.binary "/" (.name "r")
      (.index (stridesName "out") (.name "s"))) = some (.word (rest % outer / inner)) := by
    have hleft : machine.eval first (.name "r") = some (.word (rest % outer)) := by
      rw [eval_name, hfirst, State.locals_set_self]
    have haxis : machine.eval first (.name "s") = some (.word (s + 1)) := by
      rw [eval_name, hfirst, State.locals_set_of_ne (by decide), hcounter]
    have hright : machine.eval first (.index (stridesName "out") (.name "s")) =
        some (.word inner) :=
      eval_stride hstrides hinner haxis
    have hlt : rest % outer < wordCount := Nat.lt_of_le_of_lt (Nat.mod_le _ _) hrest
    exact (eval_binary_words hleft hright).trans (hfaithful.apply_div hlt hpos')
  rw [runAll_cons (run_define hremainder) hactive, runAll_cons (run_define hquotient) hactive,
    runAll_nil]

/-- The statements of a round move each offset along the axis `s + 1` and take the steps off the
rest. -/
theorem runAll_walkRound (rounds : Nat) (hfaithful : machine.arithmetic.Faithful)
    {names : List String} {shape : List Nat} {strides : String → List Nat} {base state : State α}
    {s rest : Nat} {outer inner : Nat} {reached : String → Nat} (hapart : Apart names)
    (hstrided : Strided names shape strides base.arrays)
    (hwalking : Walking names base state (s + 1) rest reached) (hs : s + 1 < shape.length)
    (hrank : shape.length < wordCount) (hrest : rest < wordCount)
    (houter : (steps shape)[s]? = some outer) (hinner : (steps shape)[s + 1]? = some inner)
    (hpos : 0 < outer) (hpos' : 0 < inner)
    (hbound : ∀ name ∈ names,
      reached name + rest % outer / inner * (strides name).getD (s + 1) 0 < wordCount) :
    ∃ last, machine.runAll rounds (walkRound names) state = some last ∧ last.active = true ∧
      last.arrays = state.arrays ∧ last.locals "rest" = some (.word (rest - rest % outer)) ∧
      (∀ name ∈ names, last.locals (offsetName name) =
        some (.word (reached name + rest % outer / inner * (strides name).getD (s + 1) 0))) ∧
      ∀ other, other ∉ names.map offsetName → other ≠ "rest" → other ∉ ["r", "k"] →
        last.locals other = state.locals other := by
  have hwalk : ∀ name ∈ walkNames, name ∉ names.map offsetName := hapart.walk
  rw [← hwalking.arrays] at hstrided
  have hdivisions := runAll_divisions rounds hfaithful hwalking.active hstrided.out
    hwalking.counter hwalking.rest (Nat.lt_trans hs hrank) hrest houter hinner hpos hpos'
  set r := rest % outer with hr
  set k := r / inner with hk
  set second := (state.set "r" (.word r)).set "k" (.word k) with hsecond
  have hunchanged : ∀ other, other ≠ "r" → other ≠ "k" →
      second.locals other = state.locals other := by
    intro other hother hother'
    rw [hsecond, State.locals_set_of_ne hother', State.locals_set_of_ne hother]
  obtain ⟨third, hthird, hoffsets⟩ : ∃ third,
      machine.runAll rounds (forEach names (advanceOffset "k" (.name "s"))) second = some third ∧
        Offsets names second third fun name ↦
          reached name + k * (strides name).getD (s + 1) 0 := by
    refine runAll_advance hfaithful hapart.nodup hwalking.active hstrided hs
      State.locals_set_self (hwalk "k" (by decide)) (fun current hcurrent ↦ ?_)
      (fun name hmem ↦ ?_) hbound
    · rw [eval_name, hcurrent "s" (hwalk "s" (by decide)), hunchanged "s" (by decide) (by decide),
        hwalking.counter]
    · rw [hunchanged _ (hapart.offsetName_ne hmem (by decide))
        (hapart.offsetName_ne hmem (by decide)), hwalking.reached name hmem]
  have hthirdRest : third.locals "rest" = some (.word rest) := by
    rw [hoffsets.others "rest" (hwalk "rest" (by decide)),
      hunchanged "rest" (by decide) (by decide), hwalking.rest]
  have hdifference : machine.eval third (.binary "-" (.name "rest") (.name "r")) =
      some (.word (rest - r)) := by
    have hleft : machine.eval third (.name "rest") = some (.word rest) := by
      rw [eval_name, hthirdRest]
    have hright : machine.eval third (.name "r") = some (.word r) := by
      rw [eval_name, hoffsets.others "r" (hwalk "r" (by decide)), hsecond,
        State.locals_set_of_ne (by decide), State.locals_set_self]
    exact (eval_binary_words hleft hright).trans (hfaithful.apply_sub hrest (Nat.mod_le _ _))
  have hupdate : machine.run rounds (.update "-" (.name "rest") (.name "r")) third =
      some (third.set "rest" (.word (rest - r))) :=
    run_update_name (by rw [hthirdRest]; rfl) hdifference
  refine ⟨third.set "rest" (.word (rest - r)), ?_, hoffsets.active, hoffsets.arrays,
    State.locals_set_self, fun name hmem ↦ ?_, fun other hother hother' hinside ↦ ?_⟩
  · rw [walkRound, List.append_assoc, runAll_append hdivisions hwalking.active,
      runAll_append hthird hoffsets.active, runAll_cons hupdate hoffsets.active, runAll_nil]
  · rw [State.locals_set_of_ne (hapart.offsetName_ne hmem (by decide)), hoffsets.reached name hmem]
  · simp only [List.mem_cons, List.not_mem_nil, or_false, not_or] at hinside
    rw [State.locals_set_of_ne hother', hoffsets.others other hother,
      hunchanged other hinside.1 hinside.2]

/-- One round does the axis `s + 1` and leaves the walk before the axis in front of it. -/
theorem walking_round (rounds : Nat) (hfaithful : machine.arithmetic.Faithful)
    {names : List String} {shape : List Nat} {strides : String → List Nat} {base state : State α}
    {s rest : Nat} {outer inner : Nat} {reached : String → Nat} (hapart : Apart names)
    (hstrided : Strided names shape strides base.arrays)
    (hwalking : Walking names base state (s + 1) rest reached) (hs : s + 1 < shape.length)
    (hrank : shape.length < wordCount) (hrest : rest < wordCount)
    (houter : (steps shape)[s]? = some outer) (hinner : (steps shape)[s + 1]? = some inner)
    (hpos : 0 < outer) (hpos' : 0 < inner)
    (hbound : ∀ name ∈ names,
      reached name + rest % outer / inner * (strides name).getD (s + 1) 0 < wordCount) :
    ∃ next, (do
        let last ← machine.runAll rounds (walkRound names) state
        let last := last.leave state (declared (walkRound names))
        (machine.eval last outerAxis).map (last.set "s")) = some next ∧
      Walking names base next s (rest - rest % outer) fun name ↦
        reached name + rest % outer / inner * (strides name).getD (s + 1) 0 := by
  obtain ⟨last, hlast, hactive, harrays, hleft, hreached, hothers⟩ := runAll_walkRound rounds
    hfaithful hapart hstrided hwalking hs hrank hrest houter hinner hpos hpos' hbound
  -- the variables of the round are gone after it
  set outside := last.leave state ["r", "k"] with houtside
  have hkept : ∀ other, other ∉ ["r", "k"] → outside.locals other = last.locals other :=
    fun other hother ↦ State.locals_leave_of_not_mem hother
  have hcounter : outside.locals "s" = some (.word (s + 1)) := by
    rw [hkept "s" (by decide), hothers "s" (hapart.walk "s" (by decide)) (by decide) (by decide),
      hwalking.counter]
  refine ⟨outside.set "s" (.word s), ?_, hactive, harrays.trans hwalking.arrays,
    State.locals_set_self, ?_, fun name hmem ↦ ?_, fun other hother hs' hrest' ↦ ?_⟩
  · rw [hlast, declared_walkRound]
    change (machine.eval outside outerAxis).map (outside.set "s") = _
    rw [eval_outerAxis hfaithful (Nat.lt_trans hs hrank) hcounter]
    rfl
  · rw [State.locals_set_of_ne (by decide), hkept "rest" (by decide), hleft]
  · have hround : offsetName name ∉ ["r", "k"] := by
      simp [hapart.offsetName_ne hmem (by decide : "r" ∈ walkNames),
        hapart.offsetName_ne hmem (by decide : "k" ∈ walkNames)]
    rw [State.locals_set_of_ne (hapart.offsetName_ne hmem (by decide)), hkept _ hround,
      hreached name hmem]
  · rw [State.locals_set_of_ne hs', ← hwalking.others other hother hs' hrest']
    by_cases hinside : other ∈ ["r", "k"]
    · exact State.locals_leave_of_mem hinside
    · rw [hkept other hinside, hothers other hother hrest' hinside]

/-! ### The whole walk -/

theorem Walking.congr {names : List String} {base state : State α} {s rest : Nat}
    {reached reached' : String → Nat} (h : Walking names base state s rest reached)
    (hsame : ∀ name ∈ names, reached' name = reached name) :
    Walking names base state s rest reached' :=
  ⟨h.active, h.arrays, h.counter, h.rest,
    fun name hmem ↦ by rw [h.reached name hmem, hsame name hmem], h.others⟩

/-- What a round takes off the rest, where the inner stride divides the outer one. -/
theorem rest_round {i inner outer : Nat} (hdvd : inner ∣ outer) (hpos : 0 < inner) :
    (i - i % inner) % outer / inner = i % outer / inner ∧
      i - i % inner - (i - i % inner) % outer = i - i % outer := by
  obtain ⟨extent, rfl⟩ := hdvd
  have hwhole : i - i % inner = inner * (i / inner) := by
    have := Nat.div_add_mod i inner
    omega
  have hcut : i % (inner * extent) = i % inner + inner * (i / inner % extent) := Nat.mod_mul
  have hlt : i % inner < inner := Nat.mod_lt i hpos
  rw [hwhole, Nat.mul_mod_mul_left, hcut, Nat.mul_div_cancel_left _ hpos]
  refine ⟨?_, by omega⟩
  rw [Nat.add_mul_div_left _ _ hpos, Nat.div_eq_of_lt hlt, Nat.zero_add]

/-- The loop of the walk does all axes but the first. -/
theorem iterate_walk (hfaithful : machine.arithmetic.Faithful) {names : List String}
    {shape : List Nat} {strides : String → List Nat} {base state : State α} {i s : Nat}
    (hapart : Apart names) (hstrided : Strided names shape strides base.arrays)
    (hextents : ∀ extent ∈ shape, 0 < extent) (hi : i < volume shape) (hword : i < wordCount)
    (hrank : shape.length < wordCount)
    (hbound : ∀ name ∈ names, offsetAt (strides name) (index shape i) < wordCount)
    (hs : s < shape.length) (hrounds : s < rounds)
    (hwalking : Walking names base state s (i - i % volume (shape.drop (s + 1))) fun name ↦
      offsetAt ((strides name).drop (s + 1)) ((index shape i).drop (s + 1))) (depth : Nat) :
    ∃ last, iterate (fun state ↦ machine.holds state (.binary ">" (.name "s") (.word 0)))
        (fun state ↦ do
          let inner ← machine.runAll depth (walkRound names) state
          let inner := inner.leave state (declared (walkRound names))
          (machine.eval inner outerAxis).map (inner.set "s")) rounds state = some last ∧
      Walking names base last 0 (i - i % volume (shape.drop 1)) fun name ↦
        offsetAt ((strides name).drop 1) ((index shape i).drop 1) := by
  have hcondition : ∀ {current : State α} {m : Nat}, current.locals "s" = some (.word m) →
      machine.holds current (.binary ">" (.name "s") (.word 0)) = some (decide (0 < m)) := by
    intro current m hcurrent
    refine holds_of_eval ((eval_binary_words (by rw [eval_name, hcurrent])
      (eval_word (Int.le_refl 0) (by decide))).trans ?_)
    simp [Arithmetic.apply]
  induction s generalizing state rounds with
  | zero =>
    refine ⟨state, iterate_of_not (hcondition hwalking.counter) hrounds, hwalking⟩
  | succ s ih =>
    obtain ⟨rounds, rfl⟩ : ∃ fewer, rounds = fewer + 1 := ⟨rounds - 1, by omega⟩
    have hdvd : volume (shape.drop (s + 2)) ∣ volume (shape.drop (s + 1)) := by
      have := volume_drop_dvd (shape.drop (s + 1)) 1
      rwa [List.drop_drop] at this
    obtain ⟨hsteps, hleft⟩ :=
      rest_round (i := i) hdvd (volume_drop_pos hextents (s + 2))
    have hreached : ∀ name ∈ names,
        offsetAt ((strides name).drop (s + 2)) ((index shape i).drop (s + 2)) +
            (i - i % volume (shape.drop (s + 2))) % volume (shape.drop (s + 1)) /
              volume (shape.drop (s + 2)) * (strides name).getD (s + 1) 0 =
          offsetAt ((strides name).drop (s + 1)) ((index shape i).drop (s + 1)) := by
      intro name hmem
      have hlt : s + 1 < (strides name).length := by rw [hstrided.lengths name hmem]; exact hs
      rw [offsetAt_drop (List.getElem?_eq_getElem hlt) (getElem?_index hextents hi hs), hsteps,
        List.getD_eq_getElem _ _ hlt, Nat.mul_comm, Nat.add_comm]
    obtain ⟨next, hnext, hwalking'⟩ := walking_round depth hfaithful hapart hstrided hwalking
      hs hrank (Nat.lt_of_le_of_lt (Nat.sub_le _ _) hword)
      (getElem?_steps (Nat.lt_of_succ_lt hs)) (getElem?_steps hs)
      (volume_drop_pos hextents (s + 1)) (volume_drop_pos hextents (s + 2)) (fun name hmem ↦ by
        rw [hreached name hmem]
        exact Nat.lt_of_le_of_lt (offsetAt_drop_le _ _ _) (hbound name hmem))
    rw [hleft] at hwalking'
    rw [iterate_of_holds (hcondition hwalking.counter) hnext]
    exact ih (Nat.lt_of_succ_lt hs) (Nat.lt_of_succ_lt_succ hrounds)
      (hwalking'.congr fun name hmem ↦ (hreached name hmem).symm)

/-- The walk outside its loop: what is left of the number of the lane, and the offsets reached. -/
structure Standing (names : List String) (base state : State α) (rest : Nat)
    (reached : String → Nat) : Prop where
  active : state.active = true
  arrays : state.arrays = base.arrays
  rest : state.locals "rest" = some (.word rest)
  reached : ∀ name ∈ names, state.locals (offsetName name) = some (.word (reached name))
  others : ∀ other, other ∉ names.map offsetName → other ≠ "rest" →
    state.locals other = base.locals other

theorem Standing.walking {names : List String} {base state : State α} {rest : Nat}
    {reached : String → Nat} (hapart : Apart names)
    (h : Standing names base state rest reached) (s : Nat) :
    Walking names base (state.set "s" (.word s)) s rest reached where
  active := h.active
  arrays := h.arrays
  counter := State.locals_set_self
  rest := by rw [State.locals_set_of_ne (by decide), h.rest]
  reached := fun name hmem ↦ by
    rw [State.locals_set_of_ne (hapart.offsetName_ne hmem (by decide)), h.reached name hmem]
  others := fun other hother hs hrest ↦ by
    rw [State.locals_set_of_ne hs, h.others other hother hrest]

/-- The counter of the loop is gone after it. -/
theorem Walking.standing {names : List String} {base state outer : State α} {s rest : Nat}
    {reached : String → Nat} (hapart : Apart names)
    (h : Walking names base state s rest reached) (houter : outer.locals "s" = base.locals "s") :
    Standing names base (state.leave outer ["s"]) rest reached := by
  have hkept : ∀ other, other ≠ "s" →
      (state.leave outer ["s"]).locals other = state.locals other :=
    fun other hother ↦ State.locals_leave_of_not_mem (by simp [hother])
  refine ⟨h.active, h.arrays, ?_, fun name hmem ↦ ?_, fun other hother hrest ↦ ?_⟩
  · rw [hkept "rest" (by decide), h.rest]
  · rw [hkept _ (hapart.offsetName_ne hmem (by decide)), h.reached name hmem]
  · by_cases hs : other = "s"
    · subst hs
      rw [State.locals_leave_of_mem (by simp), houter]
    · rw [hkept other hs, h.others other hother hs hrest]

/-- Before the loop the whole number of the lane is left and no input has moved. -/
theorem runAll_opening (machine : Machine α) (rounds : Nat) {names : List String}
    {state : State α} {i : Nat} (hapart : Apart names)
    (hactive : state.active = true) (hlane : state.locals "i" = some (.word i)) :
    ∃ last, machine.runAll rounds ([.blank, .declare "rest" (some "u32") lane] ++
        forEach names fun name ↦ .declare (offsetName name) (some "u32") (.word 0)) state =
          some last ∧
      Standing names state last i fun _ ↦ 0 := by
  set first := state.set "rest" (.word i) with hfirst
  have hdeclare : machine.run rounds (.declare "rest" (some "u32") lane) state = some first :=
    run_declare (by rw [lane, eval_name, hlane])
  have hopening : machine.runAll rounds [.blank, .declare "rest" (some "u32") lane] state =
      some first := by
    rw [runAll_cons (by rw [run]) hactive, runAll_cons hdeclare hactive, runAll_nil]
  obtain ⟨last, hlast, hzeros⟩ : ∃ last,
      machine.runAll rounds
          (forEach names fun name ↦ .declare (offsetName name) (some "u32") (.word 0)) first =
        some last ∧ Offsets names first last fun _ ↦ 0 := by
    refine runAll_forEach hapart.nodup hactive fun name hmem current _ _ _ ↦ run_declare ?_
    exact eval_word (Int.le_refl 0) (by decide)
  refine ⟨last, (runAll_append hopening hactive).trans hlast, hzeros.active, hzeros.arrays, ?_,
    hzeros.reached, fun other hother hrest ↦ ?_⟩
  · rw [hzeros.others "rest" (hapart.walk "rest" (by decide)), hfirst, State.locals_set_self]
  · rw [hzeros.others other hother, hfirst, State.locals_set_of_ne hrest]

/-- The loop over all axes but the first. -/
def walkLoop (names : List String) : Statement :=
  .loop "s" (.binary "-" (.arrayLength (stridesName "out")) (.word 1))
    (.binary ">" (.name "s") (.word 0)) outerAxis (walkRound names)

theorem run_walkLoop (hfaithful : machine.arithmetic.Faithful) {names : List String}
    {shape : List Nat} {strides : String → List Nat} {base state : State α} {i : Nat}
    (hapart : Apart names) (hstrided : Strided names shape strides base.arrays)
    (hnonempty : shape ≠ []) (hextents : ∀ extent ∈ shape, 0 < extent) (hi : i < volume shape)
    (hword : i < wordCount) (hrank : shape.length < wordCount)
    (hbound : ∀ name ∈ names, offsetAt (strides name) (index shape i) < wordCount)
    (hrounds : shape.length ≤ rounds) (hstanding : Standing names base state i fun _ ↦ 0) :
    ∃ last, machine.run rounds (walkLoop names) state = some last ∧
      Standing names base last (i - i % volume (shape.drop 1)) fun name ↦
        offsetAt ((strides name).drop 1) ((index shape i).drop 1) := by
  have hlength : 0 < shape.length := List.length_pos_of_ne_nil hnonempty
  have hstart : machine.eval state
      (.binary "-" (.arrayLength (stridesName "out")) (.word 1)) =
        some (.word (shape.length - 1)) := by
    have harray : state.arrays (stridesName "out") = some ((steps shape).map .word) := by
      rw [hstanding.arrays]
      exact hstrided.out
    have hrankOf : machine.eval state (.arrayLength (stridesName "out")) =
        some (.word shape.length) := by
      rw [eval_arrayLength harray, List.length_map, length_steps]
    exact (eval_binary_words hrankOf (eval_word (by decide) (by decide))).trans
      (hfaithful.apply_sub hrank hlength)
  -- nothing is done yet: no axis lies behind the last one
  have hbefore : Walking names base (state.set "s" (.word (shape.length - 1)))
      (shape.length - 1) (i - i % volume (shape.drop (shape.length - 1 + 1))) fun name ↦
        offsetAt ((strides name).drop (shape.length - 1 + 1))
          ((index shape i).drop (shape.length - 1 + 1)) := by
    rw [Nat.sub_add_cancel hlength, List.drop_length, volume_nil, Nat.mod_one, Nat.sub_zero]
    refine (hstanding.walking hapart _).congr fun name hmem ↦ ?_
    rw [← hstrided.lengths name hmem, List.drop_length, offsetAt_nil]
  obtain ⟨last, hlast, hwalking⟩ := iterate_walk hfaithful hapart hstrided hextents hi hword
    hrank hbound (Nat.sub_lt hlength Nat.one_pos)
    (Nat.lt_of_lt_of_le (Nat.sub_lt hlength Nat.one_pos) hrounds) hbefore rounds
  have hcounter : state.locals "s" = base.locals "s" :=
    hstanding.others "s" (hapart.walk "s" (by decide)) (by decide)
  refine ⟨last.leave state ["s"], ?_, hwalking.standing hapart hcounter⟩
  rw [walkLoop, run, hstart]
  change (iterate _ _ rounds (state.set "s" _)).bind _ = _
  rw [hlast]
  rfl

/-- After the loop what is left of the number lies along the first axis. -/
theorem runAll_firstAxis (rounds : Nat) (hfaithful : machine.arithmetic.Faithful)
    {names : List String} {shape : List Nat} {strides : String → List Nat} {base state : State α}
    {i : Nat}
    (hapart : Apart names) (hstrided : Strided names shape strides base.arrays)
    (hnonempty : shape ≠ []) (hextents : ∀ extent ∈ shape, 0 < extent) (hword : i < wordCount)
    (hbound : ∀ name ∈ names, offsetAt (strides name) (index shape i) < wordCount)
    (hstanding : Standing names base state (i - i % volume (shape.drop 1)) fun name ↦
      offsetAt ((strides name).drop 1) ((index shape i).drop 1)) :
    ∃ last, machine.runAll rounds (.define "k0" (some "u32")
          (.binary "/" (.name "rest") (.index (stridesName "out") (.literal "0"))) ::
        forEach names (advanceOffset "k0" (.literal "0"))) state = some last ∧
      last.active = true ∧ last.arrays = base.arrays ∧
      (∀ name ∈ names, last.locals (offsetName name) =
        some (.word (offsetAt (strides name) (index shape i)))) ∧
      ∀ other, other ∉ names.map offsetName → other ≠ "rest" → other ≠ "k0" →
        last.locals other = base.locals other := by
  obtain ⟨extent, rest, rfl⟩ := List.exists_cons_of_ne_nil hnonempty
  have hlength : 0 < (extent :: rest).length := Nat.succ_pos _
  have hpos : 0 < volume rest := volume_drop_pos hextents 1
  rw [← hstanding.arrays] at hstrided
  have hquotient : machine.eval state
      (.binary "/" (.name "rest") (.index (stridesName "out") (.literal "0"))) =
        some (.word (i / volume rest)) := by
    have hleft : machine.eval state (.name "rest") = some (.word (i - i % volume rest)) := by
      rw [eval_name, hstanding.rest]
      rfl
    have hright : machine.eval state (.index (stridesName "out") (.literal "0")) =
        some (.word (volume rest)) :=
      eval_stride hstrided.out (getElem?_steps hlength) (by rw [eval]; rfl)
    have hdivision : (i - i % volume rest) / volume rest = i / volume rest := by
      rw [← Nat.mul_div_self_eq_mod_sub_self, Nat.mul_div_cancel_left _ hpos]
    have hlt : i - i % volume rest < wordCount := Nat.lt_of_le_of_lt (Nat.sub_le _ _) hword
    rw [← hdivision]
    exact (eval_binary_words hleft hright).trans (hfaithful.apply_div hlt hpos)
  set next := state.set "k0" (.word (i / volume rest)) with hnext
  have hreached : ∀ name ∈ names,
      offsetAt ((strides name).drop 1) ((index (extent :: rest) i).drop 1) +
          i / volume rest * (strides name).getD 0 0 =
        offsetAt (strides name) (index (extent :: rest) i) := by
    intro name hmem
    have hlt : 0 < (strides name).length := by rw [hstrided.lengths name hmem]; exact hlength
    have hfirstAxis : (index (extent :: rest) i)[0]? = some (i / volume rest) := rfl
    have hsplit := offsetAt_drop (List.getElem?_eq_getElem hlt) hfirstAxis
    rw [List.drop_zero, List.drop_zero] at hsplit
    rw [hsplit, List.getD_eq_getElem _ _ hlt, Nat.mul_comm, Nat.add_comm]
  obtain ⟨last, hlast, hoffsets⟩ : ∃ last,
      machine.runAll rounds (forEach names (advanceOffset "k0" (.literal "0"))) next =
          some last ∧
        Offsets names next last fun name ↦
          offsetAt ((strides name).drop 1) ((index (extent :: rest) i).drop 1) +
            i / volume rest * (strides name).getD 0 0 := by
    refine runAll_advance hfaithful hapart.nodup hstanding.active hstrided hlength
      State.locals_set_self (hapart.walk "k0" (by decide)) (fun current _ ↦ by rw [eval]; rfl)
      (fun name hmem ↦ ?_) (fun name hmem ↦ ?_)
    · rw [State.locals_set_of_ne (hapart.offsetName_ne hmem (by decide)),
        hstanding.reached name hmem]
    · rw [hreached name hmem]
      exact hbound name hmem
  refine ⟨last, ?_, hoffsets.active, hoffsets.arrays.trans hstanding.arrays, fun name hmem ↦ ?_,
    fun other hother hrest hk0 ↦ ?_⟩
  · rw [runAll_cons (run_define hquotient) hstanding.active, hlast]
  · rw [hoffsets.reached name hmem, hreached name hmem]
  · rw [hoffsets.others other hother, hnext, State.locals_set_of_ne hk0,
      hstanding.others other hother hrest]

/-- The walk leaves the offset of each input: what its strides reach at the index of the lane. -/
theorem runAll_walk (hfaithful : machine.arithmetic.Faithful) {names : List String}
    {shape : List Nat} {strides : String → List Nat} {state : State α} {i : Nat}
    (hapart : Apart names) (hstrided : Strided names shape strides state.arrays)
    (hnonempty : shape ≠ []) (hextents : ∀ extent ∈ shape, 0 < extent) (hi : i < volume shape)
    (hword : i < wordCount) (hrank : shape.length < wordCount)
    (hbound : ∀ name ∈ names, offsetAt (strides name) (index shape i) < wordCount)
    (hrounds : shape.length ≤ rounds) (hactive : state.active = true)
    (hlane : state.locals "i" = some (.word i)) :
    ∃ last, machine.runAll rounds (walk names) state = some last ∧ last.active = true ∧
      last.arrays = state.arrays ∧
      (∀ name ∈ names, last.locals (offsetName name) =
        some (.word (offsetAt (strides name) (index shape i)))) ∧
      ∀ other, other ∉ names.map offsetName → other ≠ "rest" → other ≠ "k0" →
        last.locals other = state.locals other := by
  obtain ⟨opened, hopened, hbefore⟩ := runAll_opening machine rounds hapart hactive hlane
  obtain ⟨looped, hlooped, hafter⟩ := run_walkLoop hfaithful hapart hstrided hnonempty hextents hi
    hword hrank hbound hrounds hbefore
  obtain ⟨last, hlast, hlastActive, hresult⟩ := runAll_firstAxis rounds hfaithful
    hapart hstrided hnonempty hextents hword hbound hafter
  refine ⟨last, ?_, hlastActive, hresult⟩
  have hphases : walk names =
      ([.blank, .declare "rest" (some "u32") lane] ++
        forEach names fun name ↦ .declare (offsetName name) (some "u32") (.word 0)) ++
      walkLoop names :: ((.define "k0" (some "u32")
          (.binary "/" (.name "rest") (.index (stridesName "out") (.literal "0"))) ::
        forEach names (advanceOffset "k0" (.literal "0"))) ++ [.blank]) := by
    simp only [walk, walkLoop, List.append_assoc, List.cons_append, List.nil_append]
  rw [hphases, runAll_append hopened hbefore.active, runAll_cons hlooped hafter.active,
    runAll_append hlast hlastActive, runAll_cons (by rw [run]) hlastActive, runAll_nil]

end ComputeArray.Kernel.Elementwise
