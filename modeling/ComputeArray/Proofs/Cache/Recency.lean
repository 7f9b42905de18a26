import ComputeArray.Proofs.Cache.Trace
import Mathlib.Data.List.Dedup
import Mathlib.Data.List.DropRight
import Mathlib.Data.Finset.Card
import Mathlib.Data.Rat.Defs

/-!
# Recently used pipelines

An engine keeps the pipelines of the keys with constants that were used last. Keys are the same to
the cache exactly if they have one canonical form, unless a NaN is among their constants
(`TunedKey.same_iff`). Whatever requests a run makes, the keys kept are the last distinct ones among
those used with success, in the order of their last use (`recalls_afterAll`): a request finds the
pipeline of a key among them, makes a new one for any other key, and changes nothing if it fails.
-/

set_option autoImplicit false

namespace ComputeArray

open Engine

/-! ### Canonical forms of keys -/

/-- The value of a number. -/
inductive Magnitude where
  | infinite (negative : Bool)
  | finite (value : Rat)
  deriving DecidableEq

def Magnitude.ofDatum? : FloatDatum → Option Magnitude
  | .nan .. => none
  | .infinite negative => some (infinite negative)
  | .finite negative magnitude => some (finite (if negative then -magnitude else magnitude))

/-- What a constant is to the cache: numbers of all kinds count by their value. -/
inductive Canonical where
  | number (value : Magnitude)
  | text (s : String)
  | none
  | array (buffer : Nat)
  | cellClass (name : String)
  | descriptor (shown : String)
  deriving DecidableEq

/-- The form of a value that may be part of a key; a NaN has none. -/
def Canonical.ofValue? (value : Value) : Option Canonical :=
  match Scalar.ofValue? value with
  | some scalar => (Magnitude.ofDatum? scalar.datum).map number
  | Option.none =>
    match value with
    | .text s => some (text s)
    | .none => some none
    | .array buffer _ => some (array buffer)
    | .cellClass name => some (cellClass name)
    | .cellDescriptor kept => some (descriptor kept.shown)
    | _ => Option.none

/-- The form of a key. -/
structure CanonicalKey where
  source : String
  signature : String
  constants : List (String × Option Canonical)
  deriving DecidableEq

theorem Scalar.sameNumber_iff (a b : Scalar) :
    a.sameNumber b = true ↔
      ∃ value, Magnitude.ofDatum? a.datum = some value ∧
        Magnitude.ofDatum? b.datum = some value := by
  unfold Scalar.sameNumber
  generalize a.datum = x
  generalize b.datum = y
  cases x <;> cases y <;> simp [Magnitude.ofDatum?, FloatDatum.value?, eq_comm]

namespace TunedKey

theorem sameConstant_iff (a b : Value) :
    sameConstant a b = true ↔
      ∃ form, Canonical.ofValue? a = some form ∧ Canonical.ofValue? b = some form := by
  unfold sameConstant Canonical.ofValue?
  cases a <;> cases b <;> simp [Scalar.ofValue?, Scalar.sameNumber_iff] <;> exact eq_comm

/-- The form of constants, name by name. -/
def formsOf (constants : List (String × Value)) : List (String × Option Canonical) :=
  constants.map fun entry ↦ (entry.1, Canonical.ofValue? entry.2)

/-- Every constant has a form, so none of them is a NaN. -/
def Comparable (constants : List (String × Value)) : Prop :=
  ∀ entry ∈ constants, (Canonical.ofValue? entry.2).isSome

theorem sameConstants_iff (first second : List (String × Value)) :
    sameConstants first second = true ↔ formsOf first = formsOf second ∧ Comparable first := by
  induction first generalizing second with
  | nil => cases second <;> simp [sameConstants, formsOf, Comparable]
  | cons entry rest ih =>
    cases second with
    | nil => simp [sameConstants, formsOf]
    | cons other others =>
      have hforms : (∃ form, Canonical.ofValue? entry.2 = some form ∧
          Canonical.ofValue? other.2 = some form) ↔
            Canonical.ofValue? entry.2 = Canonical.ofValue? other.2 ∧
              (Canonical.ofValue? entry.2).isSome := by
        rw [Option.isSome_iff_exists]
        aesop
      simp only [sameConstants, Bool.and_eq_true, decide_eq_true_eq, sameConstant_iff, ih, hforms,
        formsOf, Comparable, List.map_cons, List.cons.injEq, Prod.mk.injEq, List.forall_mem_cons]
      tauto

def canonical (key : TunedKey) : CanonicalKey :=
  ⟨key.source, key.signature, formsOf key.constants⟩

/-- Keys are the same to the cache if they have one form, which has to be that of all constants. -/
theorem same_iff (a b : TunedKey) :
    a.same b = true ↔ a.canonical = b.canonical ∧ Comparable a.constants := by
  simp only [same, canonical, Bool.and_eq_true, decide_eq_true_eq, sameConstants_iff,
    CanonicalKey.mk.injEq]
  tauto

/-- Constants that may be part of a key have a form unless one of them is a NaN. -/
theorem comparable_of_check {constants : List (String × Value)} (hcheck : check constants = .ok ())
    (hnumbers : ∀ entry ∈ constants, ∀ x, entry.2 = .float x → x.isNaN = false) :
    Comparable constants := by
  induction constants with
  | nil => exact nofun
  | cons first rest ih =>
    obtain ⟨name, value⟩ := first
    have hvalue : (Canonical.ofValue? value).isSome ∧ check rest = .ok () := by
      cases value with
      | list items => cases hcheck
      | table kind shape cells => cases hcheck
      | float x =>
        have hnumber := hnumbers (name, .float x) List.mem_cons_self x rfl
        refine ⟨?_, hcheck⟩
        unfold Double.isNaN at hnumber
        cases hdatum : x.datum with
        | nan negative payload => simp [hdatum] at hnumber
        | _ => simp [Canonical.ofValue?, Scalar.ofValue?, Scalar.datum, hdatum, Magnitude.ofDatum?]
      | _ => exact ⟨rfl, hcheck⟩
    intro entry hmem
    rcases List.mem_cons.mp hmem with rfl | hmem
    · exact hvalue.1
    · exact ih hvalue.2 (fun entry hmem ↦ hnumbers entry (List.mem_cons_of_mem _ hmem)) entry hmem

end TunedKey

/-! ### Recent items -/

section Recent

variable {α : Type} [DecidableEq α]

/-- The last distinct items of a list, at most `limit` of them, in the order in which each occurs
last. -/
def recent (limit : Nat) (items : List α) : List α := items.dedup.rtake limit

theorem dedup_concat (items : List α) (x : α) :
    (items ++ [x]).dedup = items.dedup.filter (· != x) ++ [x] := by
  induction items with
  | nil => rfl
  | cons y rest ih =>
    rw [List.cons_append, List.dedup_cons, List.dedup_cons, ih]
    by_cases hmem : y ∈ rest
    · rw [if_pos hmem, if_pos (List.mem_append_left _ hmem)]
    · rw [if_neg hmem]
      by_cases hyx : y = x
      · rw [if_pos (by simp [hyx]), List.filter_cons_of_neg (by simp [hyx])]
      · rw [if_neg (by simp [hmem, hyx]), List.filter_cons_of_pos (by simp [hyx]),
          List.cons_append]

theorem nodup_recent (limit : Nat) (items : List α) : (recent limit items).Nodup :=
  (List.nodup_dedup items).sublist (List.drop_sublist _ _)

theorem length_recent (limit : Nat) (items : List α) :
    (recent limit items).length = min limit items.dedup.length := by
  rw [recent, List.rtake, List.length_drop]
  omega

/-- The distinct items are the older ones and the recent ones. -/
theorem dedup_eq_append_recent (limit : Nat) (items : List α) :
    ∃ older, items.dedup = older ++ recent limit items ∧
      older.length = items.dedup.length - limit := by
  refine ⟨items.dedup.take (items.dedup.length - limit), ?_, ?_⟩
  · exact (List.take_append_drop _ _).symm
  · rw [List.length_take]
    omega

/-- A recent item that occurs again moves to the end. -/
theorem recent_concat_of_mem {limit : Nat} {items : List α} {x : α}
    (hmem : x ∈ recent limit items) :
    recent limit (items ++ [x]) = (recent limit items).filter (· != x) ++ [x] := by
  obtain ⟨older, hdedup, holder⟩ := dedup_eq_append_recent limit items
  have hnodup := List.nodup_dedup items
  rw [hdedup] at hnodup
  have hapart : older.filter (· != x) = older :=
    List.filter_eq_self.mpr fun y hy ↦ by
      simpa using fun h ↦ (List.nodup_append.mp hnodup).2.2 y hy x hmem h
  have hlength :
      ((recent limit items).filter (· != x)).length + 1 = (recent limit items).length := by
    rw [← (nodup_recent limit items).erase_eq_filter, List.length_erase_of_mem hmem]
    have := List.length_pos_of_mem hmem
    omega
  rw [recent, dedup_concat, hdedup, List.filter_append, hapart, List.append_assoc, List.rtake]
  refine List.drop_left' ?_
  have htotal := congrArg List.length hdedup
  simp only [List.length_append, List.length_singleton] at htotal ⊢
  omega

/-- Any other item comes to the end, and the oldest of too many is dropped. -/
theorem recent_concat_of_not_mem {limit : Nat} {items : List α} {x : α}
    (hmem : x ∉ recent limit items) :
    recent limit (items ++ [x]) =
      if limit < (recent limit items ++ [x]).length then (recent limit items ++ [x]).drop 1
      else recent limit items ++ [x] := by
  obtain ⟨older, hdedup, holder⟩ := dedup_eq_append_recent limit items
  have hapart : (recent limit items).filter (· != x) = recent limit items :=
    List.filter_eq_self.mpr fun y hy ↦ by
      simpa using fun h : y = x ↦ hmem (h ▸ hy)
  have htotal := congrArg List.length hdedup
  have hlength := length_recent limit items
  have hfewer := List.length_filter_le (· != x) older
  have hlast : recent limit (items ++ [x]) =
      (older.filter (· != x) ++ (recent limit items ++ [x])).rtake limit := by
    rw [recent, dedup_concat, hdedup, List.filter_append, hapart, List.append_assoc]
  rw [hlast, List.rtake, List.drop_append]
  simp only [List.length_append, List.length_singleton] at htotal ⊢
  split
  · next hfull =>
    rw [List.drop_eq_nil_of_le (by omega), List.nil_append]
    congr 1
    omega
  · next hfits =>
    rw [List.drop_eq_nil_of_le (by omega), List.nil_append]
    have hzero : (older.filter (· != x)).length + ((recent limit items).length + 1) - limit
        - (older.filter (· != x)).length = 0 := by omega
    rw [hzero, List.drop_zero]

end Recent

/-! ### Keys used by requests -/

/-- Constants of a request are no NaN. -/
def Request.NumbersOnly : Request → Prop
  | pipeline _ _ constants => ∀ entry ∈ constants, ∀ x, entry.2 = .float x → x.isNaN = false
  | _ => True

namespace Asked

/-- The key with constants a request has used, if it has any and has not failed. -/
def usedKey? (asked : Asked) : Option TunedKey :=
  match asked.request with
  | .pipeline source modes constants =>
    match constants.isEmpty,
      outcomeOf (Action.createPipeline source modes constants) asked.engine with
    | false, .ok _ => some (.make source (signatureOf modes) constants)
    | _, _ => none
  | _ => none

end Asked

/-- The forms of the keys with constants that requests have used. -/
def usedKeys (history : List Asked) : List CanonicalKey :=
  (history.filterMap Asked.usedKey?).map TunedKey.canonical

namespace Engine

/-- The forms of the keys of the pipelines kept for their constants, in their order. -/
def tunedKeys (engine : Engine) : List CanonicalKey :=
  engine.tunedPipelines.map fun entry ↦ entry.1.canonical

/-- The keys kept are the last distinct ones of those used, each once. -/
structure Recalls (engine : Engine) (history : List Asked) : Prop where
  keys : engine.tunedKeys = recent tunedLimit (usedKeys history)
  comparable : ∀ entry ∈ engine.tunedPipelines, TunedKey.Comparable entry.1.constants

variable {engine : Engine} {history : List Asked}

theorem Recalls.nodup (h : engine.Recalls history) : engine.tunedKeys.Nodup := by
  rw [h.keys]
  exact nodup_recent _ _

theorem Recalls.length (h : engine.Recalls history) :
    engine.tunedPipelines.length = min tunedLimit (usedKeys history).toFinset.card := by
  rw [List.card_toFinset, ← length_recent, ← h.keys, tunedKeys, List.length_map]

/-- What is found for a key is the entry with its form. -/
theorem Recalls.same_iff (h : engine.Recalls history) (key : TunedKey)
    {entry : TunedKey × Nat} (hmem : entry ∈ engine.tunedPipelines) :
    entry.1.same key = true ↔ entry.1.canonical = key.canonical := by
  rw [TunedKey.same_iff]
  exact and_iff_left (h.comparable entry hmem)

theorem Recalls.find?_eq_none_iff (h : engine.Recalls history) (key : TunedKey) :
    engine.tunedPipelines.find? (fun (kept, _) ↦ kept.same key) = none ↔
      key.canonical ∉ engine.tunedKeys := by
  rw [List.find?_eq_none, tunedKeys, List.mem_map]
  refine ⟨fun hnone ⟨entry, hmem, hform⟩ ↦ hnone entry hmem ((h.same_iff key hmem).mpr hform),
    fun hnone entry hmem hsame ↦ hnone ⟨entry, hmem, (h.same_iff key hmem).mp hsame⟩⟩

theorem tunedPipelines_touch (engine : Engine) (key : TunedKey) :
    (engine.touch key).tunedPipelines =
      (engine.tunedPipelines.filter fun entry ↦ !entry.1.same key) ++
        engine.tunedPipelines.filter fun entry ↦ entry.1.same key := by
  simp only [touch, List.partition_eq_filter_filter]
  rfl

/-- Touching a kept key moves it to the end. -/
theorem Recalls.tunedKeys_touch (h : engine.Recalls history) {key : TunedKey}
    (hkept : key.canonical ∈ engine.tunedKeys) :
    (engine.touch key).tunedKeys =
      engine.tunedKeys.filter (· != key.canonical) ++ [key.canonical] := by
  have hused : (engine.tunedPipelines.filter fun entry ↦ entry.1.same key).map (·.1.canonical) =
      engine.tunedKeys.filter (· == key.canonical) := by
    rw [tunedKeys, List.filter_map]
    congr 1
    refine List.filter_congr fun entry hmem ↦ Bool.eq_iff_iff.mpr ?_
    simpa using h.same_iff key hmem
  have hothers : (engine.tunedPipelines.filter fun entry ↦ !entry.1.same key).map
      (·.1.canonical) = engine.tunedKeys.filter (· != key.canonical) := by
    rw [tunedKeys, List.filter_map]
    congr 1
    refine List.filter_congr fun entry hmem ↦ Bool.eq_iff_iff.mpr ?_
    simpa using not_congr (h.same_iff key hmem)
  have honce : engine.tunedKeys.filter (· == key.canonical) = [key.canonical] := by
    rw [List.filter_beq, List.count_eq_one_of_mem h.nodup hkept]
    rfl
  rw [tunedKeys, tunedPipelines_touch, List.map_append, hothers, hused, honce]

/-- Keeping a new key brings it to the end, and the oldest of too many is dropped. -/
theorem tunedKeys_keepTuned (engine : Engine) (key : TunedKey) (pipeline : Nat) :
    (engine.keepTuned key pipeline).tunedKeys =
      if tunedLimit < (engine.tunedKeys ++ [key.canonical]).length then
        (engine.tunedKeys ++ [key.canonical]).drop 1
      else engine.tunedKeys ++ [key.canonical] := by
  have hkept : (engine.tunedPipelines ++ [(key, pipeline)]).map (·.1.canonical) =
      engine.tunedKeys ++ [key.canonical] := by
    rw [List.map_append, tunedKeys]
    rfl
  have hlength : (engine.tunedKeys ++ [key.canonical]).length =
      (engine.tunedPipelines ++ [(key, pipeline)]).length := by
    rw [← hkept, List.length_map]
  by_cases hfull : tunedLimit < (engine.tunedPipelines ++ [(key, pipeline)]).length
  · have hdropped : (engine.keepTuned key pipeline).tunedPipelines =
        (engine.tunedPipelines ++ [(key, pipeline)]).drop 1 := if_pos hfull
    rw [if_pos (hlength ▸ hfull), tunedKeys, hdropped, List.map_drop, hkept]
  · have hall : (engine.keepTuned key pipeline).tunedPipelines =
        engine.tunedPipelines ++ [(key, pipeline)] := if_neg hfull
    rw [if_neg (hlength ▸ hfull), tunedKeys, hall, hkept]

/-! ### What a request does to the keys kept -/

/-- Requests that use no key, and leave the pipelines kept for their constants as they are. -/
theorem Recalls.of_unused (h : engine.Recalls history) {asked : Asked} {after : Engine}
    (hunused : asked.usedKey? = none) (hsame : after.tunedPipelines = engine.tunedPipelines) :
    after.Recalls (history ++ [asked]) := by
  have hkeys : usedKeys (history ++ [asked]) = usedKeys history := by
    simp [usedKeys, hunused]
  refine ⟨?_, ?_⟩
  · rw [hkeys, ← h.keys, tunedKeys, hsame]
    rfl
  · rw [hsame]
    exact h.comparable

theorem usedKeys_concat {asked : Asked} {key : TunedKey} (hused : asked.usedKey? = some key) :
    usedKeys (history ++ [asked]) = usedKeys history ++ [key.canonical] := by
  simp [usedKeys, hused]

theorem Recalls.of_touched (h : engine.Recalls history) {asked : Asked} {key : TunedKey}
    {after : Engine} (hused : asked.usedKey? = some key) (hkept : key.canonical ∈ engine.tunedKeys)
    (hafter : after.tunedPipelines = (engine.touch key).tunedPipelines) :
    after.Recalls (history ++ [asked]) := by
  have hkeys : after.tunedKeys = (engine.touch key).tunedKeys := congrArg (List.map _) hafter
  refine ⟨?_, fun entry hmem ↦ ?_⟩
  · rw [hkeys, h.tunedKeys_touch hkept, usedKeys_concat hused, h.keys]
    exact (recent_concat_of_mem (h.keys ▸ hkept)).symm
  · rw [hafter, tunedPipelines_touch] at hmem
    rcases List.mem_append.mp hmem with hmem | hmem
    · exact h.comparable entry (List.mem_of_mem_filter hmem)
    · exact h.comparable entry (List.mem_of_mem_filter hmem)

theorem Recalls.of_kept (h : engine.Recalls history) {asked : Asked} {key : TunedKey}
    {after : Engine} {pipeline : Nat} (hused : asked.usedKey? = some key)
    (hnew : key.canonical ∉ engine.tunedKeys) (hcomparable : TunedKey.Comparable key.constants)
    (hafter : after.tunedPipelines = (engine.keepTuned key pipeline).tunedPipelines) :
    after.Recalls (history ++ [asked]) := by
  have hkeys : after.tunedKeys = (engine.keepTuned key pipeline).tunedKeys :=
    congrArg (List.map _) hafter
  refine ⟨?_, fun entry hmem ↦ ?_⟩
  · rw [hkeys, tunedKeys_keepTuned, usedKeys_concat hused, h.keys]
    exact (recent_concat_of_not_mem (h.keys ▸ hnew)).symm
  · have hmem' : entry ∈ engine.tunedPipelines ++ [(key, pipeline)] := by
      rw [hafter] at hmem
      simp only [keepTuned] at hmem
      split at hmem
      · exact List.mem_of_mem_drop hmem
      · exact hmem
    rcases List.mem_append.mp hmem' with hold | hnew
    · exact h.comparable entry hold
    · obtain rfl := List.mem_singleton.mp hnew
      exact hcomparable

/-- How a request for a pipeline with constants is met when certain keys have been used before: it
changes nothing if it fails, finds the pipeline of a recent key, and makes a new one for any other
key. -/
structure Retrieves (engine : Engine) (history : List Asked) (source : String) (modes : List Mode)
    (constants : List (String × Value)) : Prop where
  failed : ∀ failure,
    outcomeOf (Action.createPipeline source modes constants) engine = .error failure →
      SamePipelines engine (stateAfter (Action.createPipeline source modes constants) engine)
  found : ∀ pipeline layout,
    outcomeOf (Action.createPipeline source modes constants) engine = .ok (pipeline, layout) →
      (TunedKey.make source (signatureOf modes) constants).canonical ∈
          recent tunedLimit (usedKeys history) →
        (stateAfter (Action.createPipeline source modes constants) engine).device.pipelines =
            engine.device.pipelines ∧
          ∃ kept, (kept, pipeline) ∈ engine.tunedPipelines ∧
            kept.canonical = (TunedKey.make source (signatureOf modes) constants).canonical
  made : ∀ pipeline layout,
    outcomeOf (Action.createPipeline source modes constants) engine = .ok (pipeline, layout) →
      (TunedKey.make source (signatureOf modes) constants).canonical ∉
          recent tunedLimit (usedKeys history) →
        pipeline = engine.device.pipelines.size + 1 ∧ ∃ module,
          (stateAfter (Action.createPipeline source modes constants) engine).device.pipelines =
            engine.device.pipelines.push ⟨layout, module, constants⟩

theorem usedKey?_of_ok {source : String} {modes : List Mode} {constants : List (String × Value)}
    {created : Nat × Nat} (hconstants : constants ≠ [])
    (h : outcomeOf (Action.createPipeline source modes constants) engine = .ok created) :
    (⟨engine, .pipeline source modes constants⟩ : Asked).usedKey? =
      some (.make source (signatureOf modes) constants) := by
  have hsome : constants.isEmpty = false := by simpa using hconstants
  simp only [Asked.usedKey?, hsome, h]

theorem usedKey?_of_error {source : String} {modes : List Mode} {constants : List (String × Value)}
    {failure : Failure}
    (h : outcomeOf (Action.createPipeline source modes constants) engine = .error failure) :
    (⟨engine, .pipeline source modes constants⟩ : Asked).usedKey? = none := by
  simp only [Asked.usedKey?, h]
  cases constants.isEmpty <;> rfl

theorem Recalls.of_failed (h : engine.Recalls history) {source : String} {modes : List Mode}
    {constants : List (String × Value)} {failure : Failure}
    (hfailed : outcomeOf (Action.createPipeline source modes constants) engine = .error failure)
    (hsame :
      SamePipelines engine (stateAfter (Action.createPipeline source modes constants) engine)) :
    (stateAfter (Action.createPipeline source modes constants) engine).Recalls
        (history ++ [⟨engine, .pipeline source modes constants⟩]) ∧
      engine.Retrieves history source modes constants := by
  refine ⟨h.of_unused (usedKey?_of_error hfailed) hsame.tunedPipelines, fun _ _ ↦ hsame,
    fun _ _ hok ↦ ?_, fun _ _ hok ↦ ?_⟩
  · rw [hfailed] at hok
    cases hok
  · rw [hfailed] at hok
    cases hok

/-- A request for a pipeline with constants is met as the keys used before tell, and the keys kept
are again the last ones used. -/
theorem Recalls.createPipeline (h : engine.Recalls history) {source : String} {modes : List Mode}
    {constants : List (String × Value)} (hconstants : constants ≠ [])
    (hnumbers : (Request.pipeline source modes constants).NumbersOnly) :
    (stateAfter (Action.createPipeline source modes constants) engine).Recalls
        (history ++ [⟨engine, .pipeline source modes constants⟩]) ∧
      engine.Retrieves history source modes constants := by
  set key := TunedKey.make source (signatureOf modes) constants with hkey
  have hcomparable : TunedKey.check constants = .ok () → TunedKey.Comparable key.constants := by
    intro hcheck entry hmem
    exact TunedKey.comparable_of_check hcheck hnumbers entry
      ((List.mergeSort_perm constants _).mem_iff.mp hmem)
  rcases createPipeline_cases source modes constants engine with
    ⟨failure, hfailed, hstate⟩ | ⟨layout, middle, -, hmiddle, houtcome, hstate⟩
  · refine h.of_failed hfailed ?_
    rw [hstate]
    exact refl_of SamePipelines engine
  have hsame := samePipelines_createLayout modes engine
  rw [← hmiddle] at hsame
  have htuned := hsame.tunedPipelines
  have hmade := hsame.devicePipelines
  have hsome : ¬ constants.isEmpty = true := by simpa using hconstants
  simp only [Action.pipelineFor, if_neg hsome] at houtcome hstate
  rcases tunedPipeline_cases source (signatureOf modes) layout constants middle with
    ⟨failure, hfailed, hafter⟩ | ⟨entry, hcheck, hfind, hfound, hafter⟩ |
      ⟨module, hcheck, hfind, hnew, hafter, hplain', hpushed⟩
  · rw [hfailed] at houtcome
    refine h.of_failed houtcome ?_
    rw [hstate]
    exact trans_of SamePipelines hsame hafter
  · rw [hfound] at houtcome
    rw [htuned] at hfind
    have hentry := List.mem_of_find?_eq_some hfind
    have hform := (h.same_iff key hentry).mp (by simpa using List.find?_some hfind)
    have hkept : key.canonical ∈ engine.tunedKeys := List.mem_map.mpr ⟨entry, hentry, hform⟩
    refine ⟨h.of_touched (usedKey?_of_ok hconstants houtcome) hkept ?_, fun _ hfailed ↦ ?_,
      fun pipeline _ hok _ ↦ ?_, fun _ _ _ hnew ↦ ?_⟩
    · rw [hstate, hafter, tunedPipelines_touch, tunedPipelines_touch, htuned]
    · rw [houtcome] at hfailed
      cases hfailed
    · rw [houtcome] at hok
      cases hok
      refine ⟨?_, entry.1, hentry, hform⟩
      rw [hstate, hafter]
      exact hmade
    · exact absurd (h.keys ▸ hkept) hnew
  · rw [hnew] at houtcome
    rw [htuned] at hfind
    have hout : key.canonical ∉ engine.tunedKeys := (h.find?_eq_none_iff key).mp hfind
    have hnext : (stateAfter (Action.createPipeline source modes constants) engine).tunedPipelines =
        (engine.keepTuned key (middle.device.pipelines.size + 1)).tunedPipelines := by
      rw [hstate, hafter]
      simp only [keepTuned, htuned, hkey]
    refine ⟨h.of_kept (usedKey?_of_ok hconstants houtcome) hout (hcomparable hcheck) hnext,
      fun _ hfailed ↦ ?_, fun _ _ _ hkept ↦ ?_, fun pipeline _ hok _ ↦ ?_⟩
    · rw [houtcome] at hfailed
      cases hfailed
    · exact absurd (h.keys ▸ hkept) hout
    · rw [houtcome] at hok
      cases hok
      refine ⟨by rw [hmade], module, ?_⟩
      rw [hstate, hpushed, hmade]

/-- Without constants the pipelines kept for constants stay as they are. -/
theorem tunedPipelines_createPipeline_nil (source : String) (modes : List Mode) (engine : Engine) :
    (stateAfter (Action.createPipeline source modes []) engine).tunedPipelines =
      engine.tunedPipelines := by
  rcases createPipeline_cases source modes [] engine with
    ⟨_, -, hstate⟩ | ⟨layout, middle, -, hmiddle, -, hstate⟩
  · rw [hstate]
  have hsame := samePipelines_createLayout modes engine
  rw [← hmiddle] at hsame
  rw [hstate, ← hsame.tunedPipelines]
  rcases plainPipeline_cases source (signatureOf modes) layout middle with
    ⟨_, -, hafter⟩ | ⟨_, -, -, hafter⟩ | ⟨_, -, -, -, -, hafter, -⟩
  · exact hafter.tunedPipelines
  · exact congrArg Engine.tunedPipelines hafter
  · exact hafter

/-- Every request leaves the last keys used, if no constant is a NaN. -/
theorem Recalls.ask {asked : Asked} (h : asked.engine.Recalls history)
    (hnumbers : asked.request.NumbersOnly) : asked.after.Recalls (history ++ [asked]) := by
  obtain ⟨engine, request⟩ := asked
  cases request with
  | layout modes =>
    have hsame : Moves SamePipelines (Primitive.createLayout modes).action :=
      .bind (samePipelines_createLayout modes) fun _ ↦ .pure _
    exact h.of_unused rfl (hsame engine).tunedPipelines
  | module source =>
    have hsame : Moves SamePipelines (Primitive.createModule source).action :=
      .bind (samePipelines_createModule source) fun _ ↦ .pure _
    exact h.of_unused rfl (hsame engine).tunedPipelines
  | pipeline source modes constants =>
    rw [Asked.after_pipeline]
    by_cases hconstants : constants = []
    · subst hconstants
      exact h.of_unused rfl (tunedPipelines_createPipeline_nil source modes engine)
    · exact (h.createPipeline hconstants hnumbers).1

/-- On a new engine no keys are kept, and none have been used. -/
theorem recalls_create (device : Device) (options : Options) :
    (create device options).Recalls [] :=
  ⟨rfl, nofun⟩

/-- The pipelines kept for their constants are those of the last distinct keys used, in the order of
their last use, each once. -/
structure KeepsRecent (engine : Engine) (history : List Asked) : Prop where
  keys : engine.tunedKeys = recent tunedLimit (usedKeys history)
  once : engine.tunedKeys.Nodup
  count : engine.tunedPipelines.length = min tunedLimit (usedKeys history).toFinset.card

theorem Recalls.keepsRecent (h : engine.Recalls history) : engine.KeepsRecent history :=
  ⟨h.keys, h.nodup, h.length⟩

/-- Along any run without NaNs among the constants requested, submissions included, the pipelines
kept for their constants are those of the last keys used with success, before each request, after it
and at the end. A request finds the pipeline of such a key and makes one for any other, and if it
fails it leaves the pipelines and their order as they are. -/
theorem keepsRecent_afterAll (device : Device) (options : Options) (primitives : List Primitive)
    (hnumbers : ∀ asked ∈ (create device options).asked primitives, asked.request.NumbersOnly) :
    ((create device options).afterAll primitives).KeepsRecent
        ((create device options).asked primitives) ∧
      ∀ earlier asked later,
        (create device options).asked primitives = earlier ++ asked :: later →
          asked.engine.KeepsRecent earlier ∧ asked.after.KeepsRecent (earlier ++ [asked]) ∧
            ∀ source modes constants, asked.request = .pipeline source modes constants →
              constants ≠ [] → asked.engine.Retrieves earlier source modes constants := by
  have hsame : ∀ {history before after}, SameCaches before after → Recalls before history →
      Recalls after history := by
    intro history before after hsame h
    have htuned := hsame.samePipelines.tunedPipelines
    exact ⟨(congrArg (List.map _) htuned).trans h.keys, htuned ▸ h.comparable⟩
  obtain ⟨hlast, hrequests⟩ := (traced_afterAll primitives (create device options)).invariant
    (I := fun history engine ↦ engine.Recalls history) hsame
    (fun asked hmem history h ↦ h.ask (hnumbers asked hmem)) (recalls_create device options)
  refine ⟨hlast.keepsRecent, fun earlier asked later hsplit ↦ ?_⟩
  have hfound : asked.engine.Recalls earlier := hrequests earlier asked later hsplit
  have hmem : asked ∈ (create device options).asked primitives := by simp [hsplit]
  have hasked := hnumbers asked hmem
  refine ⟨hfound.keepsRecent, (hfound.ask hasked).keepsRecent, ?_⟩
  intro source modes constants hrequest hconstants
  rw [hrequest] at hasked
  exact (hfound.createPipeline hconstants hasked).2

/-- One pipeline serves the number one and the truth value that counts as one. It is still there
after a source has been refused. -/
theorem keepsRecent_equal_constants :
    let engine := create (Device.create [] ⟨256, 256, 65535⟩ none)
      ⟨.highPerformance, .bool true, 256, .none⟩
    let primitives := [.createPipeline "kernel" [.read] [("n", .int 1)],
      .createPipeline "kernel" [.read] [("n", .bool true)], .setCompiler (.refusing "no memory"),
      .createPipeline "other" [.read] [("n", .int 2)]]
    (∀ asked ∈ engine.asked primitives, asked.request.NumbersOnly) ∧
      (engine.afterAll primitives).tunedKeys =
        [⟨"kernel", "r", [("n", some (.number (.finite 1)))]⟩] := by
  intro engine primitives
  have hnumbers : ∀ asked ∈ engine.asked primitives, asked.request.NumbersOnly := by
    intro asked hmem
    simp only [primitives, Engine.asked, Primitive.asked, List.cons_append, List.nil_append,
      List.mem_cons, List.not_mem_nil, or_false] at hmem
    rcases hmem with rfl | rfl | rfl <;> simp [Request.NumbersOnly]
  refine ⟨hnumbers, ?_⟩
  rw [(keepsRecent_afterAll _ _ primitives hnumbers).1.keys]
  decide +kernel

end Engine

end ComputeArray
