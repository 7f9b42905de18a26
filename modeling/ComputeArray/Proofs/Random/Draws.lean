import ComputeArray.Proofs.Random.Books
import ComputeArray.Proofs.Random.Ready

/-!
# Draws in a row

A request adds one entry to the ledger of a generator, and its books stay right
(`enters_request`), so a row of requests is accounted for from its first one on
(`entered_of_requests`). What the ledger tells of second samples, of the words of the streams and of
the arrays that are released is put together at the end (`draws_accounted`).
-/

set_option autoImplicit false

namespace ComputeArray

open Engine Kernel ComputeArray.Random

/-- The word a stream gives after a number of others. -/
def Random.StreamState.word (s : StreamState) (k : Nat) : UInt32 := (StreamState.next^[k] s).output

namespace Generator

variable {generator : Generator} {state : Nat} {rows : List StreamState} {rounding : Rounding}
  {loose : List Nat} {past : List Entry} {ledger : Ledger} {engine start : Engine} {out : Nat}
  {element : ElementType}

/-- The entry had its pass run in a submission of its own, if it has one, and else the device had
nothing to do. -/
def Performs (generator : Generator) (state : Nat) (entry : Entry) (before after : Engine) : Prop :=
  match entry.pass? with
  | some pass => Launches generator state pass entry.made before after
  | none => after.device = before.device

/-- The books are right, every array is in one place, and account is kept of all buffers. -/
structure Audited (generator : Generator) (state : Nat) (rows : List StreamState)
    (rounding : Rounding) (loose : List Nat) (past : List Entry) (engine : Engine) : Prop where
  books : Books generator state rows rounding loose past (Ledger.of past) engine
  balanced : Balanced past
  custody : engine.Custody loose

/-- The device runs the kernels of draws. -/
def RunsDraws (engine : Engine) (rounding : Rounding) : Prop :=
  ∀ pass : Pass, pass.Drawable →
    engine.device.Runs (pass.kernel engine.workgroupSize) engine.workgroupSize rounding

/-- What the device runs in the end it has run before. -/
theorem RunsDraws.before {α : Type} {m : Action α} (hsetup : Moves SameSetup m)
    (hmade : MadeOf Primitive.Proper m) (hfaithful : engine.FaithfulCaches)
    (h : RunsDraws (stateAfter m engine) rounding) : RunsDraws engine rounding := by
  intro pass hdrawable
  obtain ⟨primitives, -, hstate⟩ := hmade engine
  obtain ⟨-, hgrow⟩ := caching_afterAll primitives engine hfaithful
  have hruns := h pass hdrawable
  rw [(hsetup engine).workgroupSize] at hruns
  exact hruns.of_grows (hstate ▸ hgrow.device) (hsetup engine).computing

theorem Audited.loose_lt (h : Audited generator state rows rounding loose past engine)
    (hactive : engine.lost = none) : ∀ buffer ∈ loose, buffer < engine.nextBuffer := by
  intro buffer hmem
  have hrange := (h.custody.accounts hactive).mem_iff.mpr (List.mem_append_right _ hmem)
  have := (List.mem_range'_1.mp hrange).2
  unfold nextBuffer
  omega

theorem Balanced.mem_made (h : Balanced past) {buffer : Nat}
    (hmem : buffer ∈ ((Ledger.of past).kept.map Prod.snd).toList ∨
      buffer ∈ (Ledger.of past).givenUp) : buffer ∈ past.flatMap Entry.made := by
  refine h.mem_iff.mp ?_
  rcases hmem with hkept | hgivenUp
  · exact List.mem_append_left _ (List.mem_append_right _ hkept)
  · exact List.mem_append_right _ hgivenUp

theorem custody_request {request : DrawRequest} {result : Option Nat}
    (hcustody : engine.Custody loose)
    (h : outcomeOf (Action.request state request) engine = .ok result) :
    (stateAfter (Action.request state request) engine).Custody loose := by
  have htidy : ∃ more, Tidy [] (Action.request state request) more := by
    cases request with
    | next name => exact ⟨_, (KeepsCustody.drawUniform state name).bind fun _ ↦ .done _⟩
    | skip => exact ⟨_, .after (KeepsCustody.preserves_skipDraw state) fun _ ↦ .done _⟩
    | normal name => exact ⟨_, (KeepsCustody.drawNormal state name).bind fun _ ↦ .done _⟩
  obtain ⟨more, htidy⟩ := htidy
  have hholding := htidy loose _ engine (hcustody.holding (List.nil_subset _))
  rw [h] at hholding
  exact hholding.custody

/-- What an entry tells of its request. -/
structure Enters (generator : Generator) (state : Nat) (rows : List StreamState)
    (rounding : Rounding) (loose : List Nat) (past : List Entry) (request : DrawRequest)
    (result : Option Nat) (entry : Entry) (before after : Engine) : Prop where
  answers : Entry.Answers request entry
  result : result = entry.answer
  follows : Follows past entry
  performs : Performs generator state entry before after
  books : Books generator state rows rounding loose (past ++ [entry])
    (Ledger.of (past ++ [entry])) after

variable {request : DrawRequest} {result : Option Nat}

/-- A uniform draw is entered with its output. -/
theorem enters_next {name : Value} (h : Audited generator state rows rounding loose past engine)
    (hsize : generator.size = rows.length) (hpos : 1 ≤ rows.length)
    (hruns : ∀ pass : Pass, pass.Drawable →
      (stateAfter (Action.drawUniform state name) engine).device.Runs
        (pass.kernel engine.workgroupSize) engine.workgroupSize rounding)
    (houtcome : outcomeOf (Action.drawUniform state name) engine = .ok out) :
    ∃ entry, Enters generator state rows rounding loose past (.next name) (some out) entry engine
      (stateAfter (Action.drawUniform state name) engine) := by
  obtain ⟨element, outs, hname, hdrawn, hpassed, rfl, hafter⟩ := Action.drawUniform_eq_ok houtcome
  have hdrawable : (Pass.uniform (some element)).Drawable := .uniform hdrawn
  have hruns' := hruns _ hdrawable
  rw [hafter] at hruns' ⊢
  have hpass : (Entry.drawn element (outs.headD 0)).pass? = some (.uniform (some element)) := rfl
  obtain ⟨hbooks, hlaunches⟩ := h.books.drawPass hsize hpos hdrawable h.loose_lt
    (fun _ hmem ↦ h.balanced.mem_made (.inr hmem)) hpass (fun hlength ↦ by
      obtain ⟨out, rfl⟩ := List.length_eq_one_iff.mp hlength
      rfl) hruns' hpassed
  exact ⟨_, .next _ hname, rfl, trivial, hlaunches, by rw [Ledger.of_snoc]; exact hbooks⟩

theorem enters_skip {done : Unit} (h : Audited generator state rows rounding loose past engine)
    (hsize : generator.size = rows.length) (hpos : 1 ≤ rows.length)
    (hruns : ∀ pass : Pass, pass.Drawable →
      (stateAfter (Action.skipDraw state) engine).device.Runs
        (pass.kernel engine.workgroupSize) engine.workgroupSize rounding)
    (houtcome : outcomeOf (Action.skipDraw state) engine = .ok done) :
    ∃ entry, Enters generator state rows rounding loose past .skip none entry engine
      (stateAfter (Action.skipDraw state) engine) := by
  obtain ⟨outs, hpassed, hafter⟩ := Action.skipDraw_eq_ok houtcome
  have hruns' := hruns _ .skip
  rw [hafter] at hruns' ⊢
  have hpass : Entry.skipped.pass? = some (.uniform none) := rfl
  obtain ⟨hbooks, hlaunches⟩ := h.books.drawPass hsize hpos .skip h.loose_lt
    (fun _ hmem ↦ h.balanced.mem_made (.inr hmem)) hpass
    (fun hlength ↦ (List.length_eq_zero_iff.mp hlength).symm) hruns' hpassed
  exact ⟨_, .skip, rfl, trivial, hlaunches, by rw [Ledger.of_snoc]; exact hbooks⟩

theorem Launches.of_device {pass : Pass} {outs : List Nat} {after : Engine}
    (hdevice : start.device = engine.device) (hwidth : start.workgroupSize = engine.workgroupSize)
    (h : Launches generator state pass outs start after) :
    Launches generator state pass outs engine after := by
  unfold Launches maxWorkgroups at h ⊢
  rwa [hdevice, hwidth] at h

/-- A normal draw is entered with the samples it recalls, or with the pair it draws. -/
theorem enters_normal {name : Value} (h : Audited generator state rows rounding loose past engine)
    (hsize : generator.size = rows.length) (hpos : 1 ≤ rows.length)
    (hruns : ∀ pass : Pass, pass.Drawable →
      (stateAfter (Action.drawNormal state name) engine).device.Runs
        (pass.kernel engine.workgroupSize) engine.workgroupSize rounding)
    (houtcome : outcomeOf (Action.drawNormal state name) engine = .ok out) :
    ∃ entry, Enters generator state rows rounding loose past (.normal name) (some out) entry engine
      (stateAfter (Action.drawNormal state name) engine) := by
  obtain ⟨element, hname, hfloat, hcases⟩ := Action.drawNormal_eq_ok houtcome
  dsimp only at hcases
  rw [h.books.generator_eq] at hcases
  have htaken := h.books.setKept none
  set taken := engine.setGenerator state { generator with kept := none }
  rcases hcases with ⟨hkept, hafter⟩ | ⟨start, hstart, hpair, hafter⟩
  · have hpast : past ≠ [] := by
      rintro rfl
      cases hkept
    rw [hafter]
    exact ⟨_, .reuse out hname, rfl, hkept, rfl, by
      rw [Ledger.of_snoc]
      exact htaken.reuse hpast⟩
  -- samples of another element type are given up before the pair is drawn
  obtain ⟨hbooks, hdevice, hlost, hwidth, hother⟩ :
      Books generator state rows rounding loose past
          ⟨none, (Ledger.of past).givenUp ++ ((Ledger.of past).kept.map Prod.snd).toList⟩ start ∧
        start.device = engine.device ∧ start.lost = engine.lost ∧
        start.workgroupSize = engine.workgroupSize ∧
        ∀ samples, (Ledger.of past).kept ≠ some (element, samples) := by
    rcases hstart with ⟨hkept, rfl⟩ | ⟨other, samples, hkept, hne, rfl⟩
    · change (Ledger.of past).kept = none at hkept
      rw [hkept, Option.map_none, Option.toList_none, List.append_nil]
      exact ⟨htaken, rfl, rfl, rfl, nofun⟩
    · change (Ledger.of past).kept = some (other, samples) at hkept
      have hmade : samples ∈ past.flatMap Entry.made :=
        h.balanced.mem_made (.inl (by simp [hkept]))
      rw [hkept]
      exact ⟨htaken.giveUp hmade, device_release samples taken, (lost_release samples taken).1,
        (sameFixture_release samples taken).workgroupSize, fun samples' heq ↦
          hne (congrArg Prod.fst (Option.some.inj heq))⟩
  have hruns' := hruns _ (.pair hfloat)
  rw [hafter, ← hwidth] at hruns'
  rw [hafter]
  obtain ⟨second, hdrawn, hlaunches⟩ := hbooks.drawNormalPair hsize hpos hfloat
    (fun hactive ↦ by
      rw [nextBuffer, hdevice]
      exact h.loose_lt (hlost ▸ hactive))
    (fun buffer hmem ↦ by
      rcases List.mem_append.mp hmem with hmem | hmem
      · exact h.balanced.mem_made (.inr hmem)
      · exact h.balanced.mem_made (.inl hmem)) hruns' hpair
  exact ⟨_, .launch out second hname, rfl, hother, hlaunches.of_device hdevice hwidth, by
    rw [Ledger.of_snoc]
    exact hdrawn⟩

/-- A request is entered. -/
theorem enters_request (h : Audited generator state rows rounding loose past engine)
    (hsize : generator.size = rows.length) (hpos : 1 ≤ rows.length)
    (hruns : RunsDraws (stateAfter (Action.request state request) engine) rounding)
    (houtcome : outcomeOf (Action.request state request) engine = .ok result) :
    ∃ entry, Enters generator state rows rounding loose past request result entry engine
      (stateAfter (Action.request state request) engine) := by
  have hruns' : ∀ pass : Pass, pass.Drawable →
      (stateAfter (Action.request state request) engine).device.Runs
        (pass.kernel engine.workgroupSize) engine.workgroupSize rounding := by
    rw [← (Moves.request state request engine).workgroupSize]
    exact hruns
  cases request with
  | next name =>
    obtain ⟨out, hdrawn, hpure⟩ := outcomeOf_bind_eq_ok.mp houtcome
    cases hpure
    have hafter : stateAfter (Action.request state (.next name)) engine =
        stateAfter (Action.drawUniform state name) engine := by
      rw [Action.request, stateAfter_bind_of_ok hdrawn, stateAfter_pure]
    rw [hafter] at hruns' ⊢
    exact enters_next h hsize hpos hruns' hdrawn
  | skip =>
    obtain ⟨done, hdrawn, hpure⟩ := outcomeOf_bind_eq_ok.mp houtcome
    cases hpure
    have hafter : stateAfter (Action.request state .skip) engine =
        stateAfter (Action.skipDraw state) engine := by
      rw [Action.request, stateAfter_bind_of_ok hdrawn, stateAfter_pure]
    rw [hafter] at hruns' ⊢
    exact enters_skip h hsize hpos hruns' hdrawn
  | normal name =>
    obtain ⟨out, hdrawn, hpure⟩ := outcomeOf_bind_eq_ok.mp houtcome
    cases hpure
    have hafter : stateAfter (Action.request state (.normal name)) engine =
        stateAfter (Action.drawNormal state name) engine := by
      rw [Action.request, stateAfter_bind_of_ok hdrawn, stateAfter_pure]
    rw [hafter] at hruns' ⊢
    exact enters_normal h hsize hpos hruns' hdrawn

/-! ### Runs -/

theorem Enters.audited {entry : Entry} {after : Engine}
    (h : Enters generator state rows rounding loose past request result entry engine after)
    (haudited : Audited generator state rows rounding loose past engine)
    (hcustody : after.Custody loose) :
    Audited generator state rows rounding loose (past ++ [entry]) after :=
  ⟨h.books, haudited.balanced.snoc h.follows, hcustody⟩

/-- The engine after the first requests of some. -/
def course (state : Nat) (requests : List DrawRequest) (engine : Engine) (k : Nat) : Engine :=
  stateAfter (Action.requests state (requests.take k)) engine

theorem stateAfter_requests_cons {rest : List DrawRequest}
    (h : outcomeOf (Action.request state request) engine = .ok result) :
    stateAfter (Action.requests state (request :: rest)) engine =
      stateAfter (Action.requests state rest)
        (stateAfter (Action.request state request) engine) := by
  rw [Action.requests, List.mapM_cons, stateAfter_bind_of_ok h, stateAfter_bind]
  split <;> rfl

/-- What a row of requests has done, after some that came before. -/
structure Entered (generator : Generator) (state : Nat) (rows : List StreamState)
    (rounding : Rounding) (loose : List Nat) (past : List Entry) (requests : List DrawRequest)
    (results : List (Option Nat)) (entries : List Entry) (engine : Engine) : Prop where
  answers : List.Forall₂ Entry.Answers requests entries
  results : results = entries.map Entry.answer
  follows : ∀ (j : Nat) entry, entries[j]? = some entry → Follows (past ++ entries.take j) entry
  performs : ∀ (j : Nat) entry, entries[j]? = some entry → Performs generator state entry
    (course state requests engine j) (course state requests engine (j + 1))
  audited : ∀ k, Audited generator state rows rounding loose (past ++ entries.take k)
    (course state requests engine k)

/-- Requests are entered one after the other. -/
theorem entered_of_requests {requests : List DrawRequest} {results : List (Option Nat)}
    (h : Audited generator state rows rounding loose past engine)
    (hsize : generator.size = rows.length) (hpos : 1 ≤ rows.length)
    (hruns : RunsDraws (stateAfter (Action.requests state requests) engine) rounding)
    (houtcome : outcomeOf (Action.requests state requests) engine = .ok results) :
    ∃ entries,
      Entered generator state rows rounding loose past requests results entries engine := by
  induction requests generalizing past engine results with
  | nil =>
    cases houtcome
    refine ⟨[], .nil, rfl, nofun, nofun, fun k ↦ ?_⟩
    rw [List.take_nil, List.append_nil, course, List.take_nil]
    exact h
  | cons request rest ih =>
    rw [Action.requests, List.mapM_cons] at houtcome
    simp only [outcomeOf_bind_eq_ok] at houtcome
    obtain ⟨result, hfirst, others, hothers, hpure⟩ := houtcome
    cases hpure
    set middle := stateAfter (Action.request state request) engine with hmiddle
    have hcourse (k : Nat) : course state (request :: rest) engine (k + 1) =
        course state rest middle k := stateAfter_requests_cons hfirst
    rw [stateAfter_requests_cons hfirst, ← hmiddle] at hruns
    have hfaithful : middle.FaithfulCaches :=
      (coherent_of_madeOf ((madeOf_request state request).mono fun _ _ h ↦
        h.mono fun _ ↦ Primitive.Computes.proper) h.books.coherent h.books.faithful).2
    have hsetup : Moves SameSetup (Action.requests state rest) :=
      .mapM _ fun request _ ↦ .request state request
    have hmade : MadeOf Primitive.Proper (Action.requests state rest) :=
      .mapM _ fun request _ ↦ (madeOf_request state request).mono fun _ _ h ↦
        h.mono fun _ ↦ Primitive.Computes.proper
    obtain ⟨entry, hentry⟩ :=
      enters_request h hsize hpos (hruns.before hsetup hmade hfaithful) hfirst
    obtain ⟨entries, hrest⟩ :=
      ih (hentry.audited h (custody_request h.custody hfirst)) hruns hothers
    refine ⟨entry :: entries, .cons hentry.answers hrest.answers, ?_, ?_, ?_, ?_⟩
    · rw [List.map_cons, ← hrest.results, ← hentry.result]
    · intro j later hlater
      cases j with
      | zero =>
        cases hlater
        rw [List.take_zero, List.append_nil]
        exact hentry.follows
      | succ j => simpa using hrest.follows j later hlater
    · intro j later hlater
      rw [hcourse]
      cases j with
      | zero =>
        cases hlater
        exact hentry.performs
      | succ j =>
        rw [hcourse]
        exact hrest.performs j later hlater
    · intro k
      cases k with
      | zero =>
        rw [List.take_zero, List.append_nil]
        exact h
      | succ k =>
        rw [hcourse]
        simpa using hrest.audited k

/-! ### Accounts -/

theorem Ready.audited (rounding : Rounding) (h : Ready generator state loose engine) :
    Audited generator state (engine.content state).streams rounding loose [] engine := by
  have hrows : advanced (engine.content state).streams (stepsOf []) =
      (engine.content state).streams := List.map_id _
  refine ⟨⟨h.coherent, h.faithful, fun hne ↦ absurd rfl hne, ?_, ?_, ?_, List.nodup_nil, nofun,
    nofun, nofun⟩, balanced_nil, h.custody⟩
  · rw [h.length_streams]
    exact h.fits
  · rw [h.record, show (Ledger.of []).kept = none from rfl, ← h.kept]
  · rw [hrows]
    exact ⟨h.found, rfl, by rw [h.length_streams, h.size]⟩

/-- What is told of a row of requests: `rows` are the streams before it, and `engineAt k` is the
engine after `k` of the requests. -/
structure Accounted (generator : Generator) (state : Nat) (rows : List StreamState)
    (rounding : Rounding) (requests : List DrawRequest) (results : List (Option Nat))
    (entries : List Entry) (engineAt : Nat → Engine) : Prop where
  answers : List.Forall₂ Entry.Answers requests entries
  answered : results = entries.map Entry.answer
  /-- The device runs one pass for each entry, but none for samples that are recalled. -/
  performs : ∀ (j : Nat) entry, entries[j]? = some entry →
    Performs generator state entry (engineAt j) (engineAt (j + 1))
  /-- A pair is launched exactly when no second samples of the type asked for are cached. -/
  launches : ∀ (j : Nat) name element, requests[j]? = some (.normal name) →
    ElementType.ofValue name = .ok element →
      ((∃ first second, entries[j]? = some (.launched element first second)) ↔
        ∀ samples, ¬ CachedAt entries j element samples)
  /-- The first samples of a pair are answered by its launch. -/
  firstAnswered : ∀ (i : Nat) element first second,
    entries[i]? = some (.launched element first second) → results[i]? = some (some first)
  /-- The second ones are answered by the next request for normal samples of their type. -/
  secondAnswered : ∀ (i j : Nat) element first second name,
    entries[i]? = some (.launched element first second) → NextNormal requests i j name →
      ElementType.ofValue name = .ok element → results[j]? = some (some second)
  /-- If that request is for another type, they are released with it, once, and never answered. -/
  givenUp : ∀ (i j : Nat) element other first second name,
    entries[i]? = some (.launched element first second) → NextNormal requests i j name →
      ElementType.ofValue name = .ok other → other ≠ element →
        some second ∉ results ∧ ∀ k, i < k → k ≤ requests.length →
          (engineAt k).releases second = if j < k then 1 else 0
  nodup : (results.filterMap id).Nodup
  /-- Every stream is advanced once for each uniform draw and each skip, and twice for each pair. -/
  streams : ((engineAt requests.length).content state).streams =
    advanced rows (requests.countP DrawRequest.isNext + requests.countP DrawRequest.isSkip +
      2 * entries.countP Entry.isLaunch)
  /-- Element `i` of a uniform draw is made of the next word of stream `i`. -/
  drawn : ∀ (j : Nat) element out, entries[j]? = some (.drawn element out) →
    ∀ (i : Nat) s, rows[i]? = some s →
      ((engineAt requests.length).content out).element element.size i =
        Register.bits rounding element
          (Stream.uniformCell element (s.word (stepsOf (entries.take j))))
  /-- Elements `i` of the samples of a pair are made of the next two words of stream `i`. -/
  paired : ∀ (j : Nat) element first second,
    entries[j]? = some (.launched element first second) → ∀ (i : Nat) s, rows[i]? = some s →
      let x := s.word (stepsOf (entries.take j))
      let y := s.word (stepsOf (entries.take j) + 1)
      ((engineAt requests.length).content first).element element.size i =
          Register.bits rounding element (Stream.normalCell element "cos" x y) ∧
        ((engineAt requests.length).content second).element element.size i =
          Register.bits rounding element (Stream.normalCell element "sin" x y)

theorem Books.stored_at (h : Books generator state rows rounding loose past ledger engine)
    {entry : Entry} {pass : Pass} {j k i : Nat} {s : StreamState}
    {output : String × ElementType × (StreamState → Register)} (hentry : past[j]? = some entry)
    (hpass : entry.pass? = some pass) (houtput : pass.outputs[k]? = some output)
    (hout : entry.made[k]? = some out) (hs : rows[i]? = some s) :
    (engine.content out).element output.2.1.size i = Register.bits rounding output.2.1
      (output.2.2 (StreamState.next^[stepsOf (past.take j)] s)) :=
  h.stored j entry pass hentry hpass k output out houtput hout i _ (by
    rw [advanced, List.getElem?_map, hs]
    rfl)

/-- The draws of a generator are accounted for. -/
theorem draws_accounted {requests : List DrawRequest} {results : List (Option Nat)}
    (hready : Ready generator state loose engine)
    (hruns : RunsDraws (stateAfter (Action.requests state requests) engine) rounding)
    (houtcome : outcomeOf (Action.requests state requests) engine = .ok results) :
    ∃ entries, Accounted generator state (engine.content state).streams rounding requests results
      entries (course state requests engine) := by
  have hlength := hready.length_streams
  obtain ⟨entries, hentered⟩ := entered_of_requests (hready.audited rounding) hlength.symm
    (hlength ▸ hready.pos) hruns houtcome
  have haudited (k : Nat) := hentered.audited k
  simp only [List.nil_append] at haudited
  have hall := haudited requests.length
  rw [List.take_of_length_le (Nat.le_of_eq hentered.answers.length_eq.symm)] at hall
  have hanswering : Answering requests entries := ⟨hentered.answers, fun j entry hentry ↦ by
    simpa using hentered.follows j entry hentry, hall.books.nodup, hall.balanced⟩
  refine ⟨entries, hentered.answers, hentered.results, hentered.performs,
    fun j name element ↦ hanswering.launched_iff, ?_, ?_, ?_, ?_, ?_, ?_, ?_⟩
  · intro i element first second hlaunch
    rw [hentered.results, List.getElem?_map, hlaunch]
    rfl
  · intro i j element first second name hlaunch hnext hname
    rw [hentered.results, List.getElem?_map, hanswering.recalled_of_next hlaunch hnext hname]
    rfl
  · intro i j element other first second name hlaunch hnext hname hother
    have hgivenUp (k : Nat) : second ∈ (Ledger.of (entries.take k)).givenUp ↔ j < k :=
      hanswering.mem_givenUp_iff_of_next hlaunch hnext hname hother
    constructor
    · rw [hentered.results]
      refine hanswering.not_mem_of_givenUp ?_
      have hj := (List.getElem?_eq_some_iff.mp hnext.normal).1
      rw [hentered.answers.length_eq] at hj
      rw [← List.take_length (l := entries)]
      exact (hgivenUp entries.length).mpr hj
    · intro k hik hk
      have hmade : second ∈ (entries.take k).flatMap Entry.made := by
        refine List.mem_flatMap.mpr ⟨.launched element first second, ?_, by simp [Entry.made]⟩
        exact List.mem_of_getElem? (by rw [List.getElem?_take_of_lt hik]; exact hlaunch)
      obtain ⟨array, hlookup, hreleased⟩ := (haudited k).books.released second hmade
      rw [releases_eq (haudited k).custody ((haudited k).books.active (by
        rintro hnil
        rw [hnil] at hmade
        cases hmade)) (haudited k).books.coherent hlookup
        ((haudited k).books.apart second hmade).2]
      simp only [hreleased, hgivenUp]
  · rw [hentered.results, List.filterMap_map]
    exact hanswering.nodup_answers
  · rw [← stepsOf_eq hentered.answers]
    exact hall.books.streams.streams
  · intro j element out hentry i s hs
    exact hall.books.stored_at (k := 0) hentry rfl rfl rfl hs
  · intro j element first second hentry i s hs
    simp only [StreamState.word, Function.iterate_succ_apply']
    exact ⟨hall.books.stored_at (k := 0) hentry rfl rfl rfl hs,
      hall.books.stored_at (k := 1) hentry rfl rfl rfl hs⟩

/-- The passes of a device by the pipelines that are made for them. -/
def passOf : Nat → Option Pass
  | 2 => some (.pair .f16)
  | 3 => some (.uniform (some .u32))
  | 4 => some (.pair .f32)
  | 5 => some (.uniform none)
  | _ => none

/-- What a pass leaves in buffers, each of them on its own. -/
def oneByOne (process : List Bytes → List Bytes) (held : List Bytes) : List Bytes :=
  (List.range held.length).map fun k ↦ (process held).getD k (.zeros 0)

theorem oneByOne_eq {process : List Bytes → List Bytes} {held : List Bytes}
    (h : (process held).length = held.length) : oneByOne process held = process held := by
  refine List.ext_getElem (by simp [oneByOne, h]) fun k hk hk' ↦ ?_
  simp [oneByOne, hk']

/-- An engine with workgroups of two invocations, whose device draws in the pipelines from the
second to the fifth, and derives streams in the first. -/
def drawingEngine : Engine :=
  .create (.createWith
    (fun _ command held ↦ match command with
      | .dispatch pipeline _ _ grid =>
        match passOf pipeline with
        | some pass => oneByOne
          ((pass.kernel 2).processGrid (fun _ _ ↦ 0) 0 (Invocation.all 2 grid)) held
        | none => oneByOne (deriveKernel.process 33) held
      | _ => held)
    [Device.halfFeature] ⟨256, 256, 65535⟩ none) ⟨.highPerformance, .bool true, 2, .none⟩

/-- The engine once a generator of three streams has been made. -/
def seededEngine : Engine :=
  stateAfter (Action.newGenerator (.int 3) (.int 7) .none) drawingEngine

/-- Normal samples of two types, with other draws in between. -/
def mixedRequests : List DrawRequest :=
  [.normal (.text "f16"), .next (.text "u32"), .normal (.text "f32"), .skip,
    .normal (.text "f32")]

/-- The source a pipeline was made of. -/
def sourceOf (device : Device) (pipeline : Nat) : Option String :=
  (numbered device.pipelines pipeline).bind fun parts ↦ numbered device.modules parts.module

theorem outcomeOf_newGenerator_seeded :
    outcomeOf (Action.newGenerator (.int 3) (.int 7) .none) drawingEngine = .ok 1 := by
  rw [Action.newGenerator_eq, eq_ok_iff]
  decide +kernel

theorem runsDraws_mixed :
    RunsDraws (stateAfter (Action.requests 1 mixedRequests) seededEngine) (fun _ _ ↦ 0) := by
  have hsetup : SameSetup seededEngine (stateAfter (Action.requests 1 mixedRequests)
      seededEngine) :=
    Moves.mapM mixedRequests (fun request _ ↦ Moves.request 1 request) seededEngine
  have hcomputing : seededEngine.device.computing = drawingEngine.device.computing := by
    have hmade := outcomeOf_newGenerator_seeded
    rw [Action.newGenerator_eq] at hmade
    rw [seededEngine, Action.newGenerator_eq]
    exact computing_of_newGeneratorBy (coherent_create _ _) (faithfulCaches_create _ _ _ _ _)
      (by decide) (by decide) rfl (by decide) (by decide) hmade
  have hwidth : seededEngine.workgroupSize = 2 := by
    rw [seededEngine, Action.newGenerator_eq]
    decide +kernel
  have hcount : (stateAfter (Action.requests 1 mixedRequests)
      seededEngine).device.pipelines.size = 5 := by
    rw [seededEngine, Action.newGenerator_eq]
    decide +kernel
  have hsources : ∀ pass ∈ [Pass.uniform none, .uniform (some .u32), .uniform (some .f16),
      .uniform (some .f32), .pair .f16, .pair .f32], ∀ pipeline ∈ List.range 6,
        sourceOf (stateAfter (Action.requests 1 mixedRequests) seededEngine).device pipeline =
          some (pass.kernel 2).source → passOf pipeline = some pass := by
    rw [seededEngine, Action.newGenerator_eq]
    decide +kernel
  intro pass hdrawable count pipeline layout buffers grid parts held hparts hmodule
  rw [hsetup.workgroupSize, hwidth] at hmodule ⊢
  have hsource : sourceOf (stateAfter (Action.requests 1 mixedRequests) seededEngine).device
      pipeline = some (pass.kernel 2).source := by
    rw [sourceOf, hparts]
    exact hmodule
  have hmem : pass ∈ [Pass.uniform none, .uniform (some .u32), .uniform (some .f16),
      .uniform (some .f32), .pair .f16, .pair .f32] := by
    cases hdrawable with
    | skip => decide
    | @uniform element h => cases element <;> first | decide | exact absurd rfl h
    | @pair element h => cases element <;> first | decide | cases h
  have hrange : pipeline < 6 := by
    cases pipeline with
    | zero => decide
    | succ k =>
      have hk := (Array.getElem?_eq_some_iff.mp hparts).1
      omega
  have hpass := hsources pass hmem pipeline (List.mem_range.mpr hrange) hsource
  refine ⟨Invocation.all 2 grid, 0, .refl _, ?_⟩
  rw [hsetup.computing, hcomputing]
  change (match passOf pipeline with
    | some pass => oneByOne
      ((pass.kernel 2).processGrid (fun _ _ ↦ 0) 0 (Invocation.all 2 grid)) held
    | none => oneByOne (deriveKernel.process 33) held) = _
  rw [hpass]
  exact oneByOne_eq (length_processGrid _ _ _ _ _)

/-- The half precision samples that are kept are given up for others; these are recalled after a
skip. -/
theorem draws_accounted_mixed :
    Ready ⟨3, 7, none⟩ 1 [] seededEngine ∧
      RunsDraws (stateAfter (Action.requests 1 mixedRequests) seededEngine) (fun _ _ ↦ 0) ∧
      outcomeOf (Action.requests 1 mixedRequests) seededEngine =
        .ok [some 3, some 5, some 6, none, some 7] ∧
      ∃ entries, Accounted ⟨3, 7, none⟩ 1 (seededEngine.content 1).streams (fun _ _ ↦ 0)
        mixedRequests [some 3, some 5, some 6, none, some 7] entries
        (course 1 mixedRequests seededEngine) := by
  have hcoherent : drawingEngine.Coherent := coherent_create _ _
  have hfaithful : drawingEngine.FaithfulCaches := faithfulCaches_create _ _ _ _ _
  have hcustody : drawingEngine.Custody [] := ⟨.nil, nofun, nofun, nofun, fun _ ↦ .refl _⟩
  obtain ⟨number, hnumber, hready⟩ := @ready_of_newGenerator drawingEngine 1 3 [] (.int 3) (.int 7)
    .none hcoherent hfaithful hcustody
    ⟨by decide, by decide, by decide, by decide, by decide⟩ rfl (by decide) rfl
    outcomeOf_newGenerator_seeded
  obtain rfl : 7 = number := Except.ok.inj hnumber
  have hdrawn : outcomeOf (Action.requests 1 mixedRequests) seededEngine =
      .ok [some 3, some 5, some 6, none, some 7] := by
    rw [eq_ok_iff, seededEngine, Action.newGenerator_eq]
    decide +kernel
  exact ⟨hready, runsDraws_mixed, hdrawn, draws_accounted hready runsDraws_mixed hdrawn⟩

end Generator

end ComputeArray
