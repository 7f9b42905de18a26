import ComputeArray.Options
import ComputeArray.Proofs.Run.Outcome

/-!
# Settings and the environment

Explicit settings go before those the environment makes. Two environments that differ in variables
of overridden fields only give the same options, or the same failure, as long as both variables for
the workgroup size can be read: a malformed one is refused though its field is overridden
(`outcome_of_agreeBeside`). Options that come out are the settings that were chosen, checked.
-/

set_option autoImplicit false

namespace ComputeArray

/-- Of all values, only the text of a power preference is taken for it. -/
theorem PowerPreference.ofValue_eq_ok_iff {value : Value} {power : PowerPreference} :
    ofValue value = .ok power ↔ value = .text power.text := by
  constructor
  · intro h
    unfold ofValue at h
    split at h
    · cases h
      rfl
    · cases h
      rfl
    · obtain ⟨cell, -, h⟩ := bind_eq_ok.mp h
      cases h
    · cases h
  · rintro rfl
    cases power <;> rfl

namespace Options

variable {overrides settings : Settings} {environment first second : Environment} {field : String}

/-- The variable an environment sets a field by. -/
def variableOf? : String → Option String
  | "power_preference" => some "WGPU_ARRAY_POWER_PREFERENCE"
  | "enable_f16" => some "WGPU_ARRAY_DISABLE_F16"
  | "workgroup_size" => some "WGPU_ARRAY_WORKGROUP_SIZE"
  | _ => none

/-- Two environments that differ in variables of overridden fields only. -/
def AgreeBeside (overrides : Settings) (first second : Environment) : Prop :=
  ∀ name, first.lookup name = second.lookup name ∨
    ∃ field, variableOf? field = some name ∧ (overrides.lookup field).isSome

/-- The text the variable for the workgroup size is set to, if it cannot be read. -/
def malformedSize? (environment : Environment) : Option String :=
  (nonEmpty? environment "WGPU_ARRAY_WORKGROUP_SIZE").filter fun text =>
    (Text.integer? text).isNone

/-- What an environment sets a field to. -/
def environmental? (environment : Environment) : String → Option Value
  | "power_preference" => (nonEmpty? environment "WGPU_ARRAY_POWER_PREFERENCE").map .text
  | "enable_f16" =>
    if isOn environment "WGPU_ARRAY_DISABLE_F16" then some (.bool false) else none
  | "workgroup_size" =>
    ((nonEmpty? environment "WGPU_ARRAY_WORKGROUP_SIZE").bind Text.integer?).map .int
  | _ => none

/-- The settings an environment makes, as far as they can be read. -/
def readable (environment : Environment) : Settings :=
  fields.filterMap fun field => (environmental? environment field).map (field, ·)

/-- The value a field gets: an override, or what the environment sets it to, or its default. -/
def chosen (overrides : Settings) (environment : Environment) (field : String) (default : Value) :
    Value :=
  ((overrides.lookup field).or (environmental? environment field)).getD default

/-! ### What the environment sets -/

/-- Environments are read by their variables. -/
theorem environmental?_congr
    (h : ∀ name, variableOf? field = some name → first.lookup name = second.lookup name) :
    environmental? first field = environmental? second field := by
  unfold variableOf? at h
  unfold environmental? nonEmpty? isOn
  split <;> simp_all

theorem malformedSize?_congr
    (h : first.lookup "WGPU_ARRAY_WORKGROUP_SIZE" = second.lookup "WGPU_ARRAY_WORKGROUP_SIZE") :
    malformedSize? first = malformedSize? second := by
  unfold malformedSize? nonEmpty?
  rw [h]

/-- A variable stands for one field. -/
theorem variableOf?_injective {other name : String} (hfield : variableOf? field = some name)
    (hother : variableOf? other = some name) : field = other := by
  unfold variableOf? at hfield hother
  split at hfield <;> cases hfield <;> split at hother <;> simp_all

/-- The variables of fields that are not overridden are the same. -/
theorem AgreeBeside.lookup_eq (h : AgreeBeside overrides first second)
    (hfield : overrides.lookup field = none) {name : String}
    (hname : variableOf? field = some name) : first.lookup name = second.lookup name := by
  rcases h name with h | ⟨other, hother, hoverridden⟩
  · exact h
  · rw [← variableOf?_injective hname hother, hfield] at hoverridden
    cases hoverridden

/-- A field is found with its value among the fields that have one. -/
theorem lookup_filterMap_field (value? : String → Option Value) (names : List String) :
    (names.filterMap fun name => (value? name).map (name, ·)).lookup field =
      if field ∈ names then value? field else none := by
  induction names with
  | nil => rfl
  | cons name rest ih =>
    cases hvalue : value? name with
    | none =>
      rw [List.filterMap_cons_none (by rw [hvalue]; rfl), ih]
      by_cases hname : field = name
      · rw [hname, hvalue, ite_self, ite_self]
      · simp only [List.mem_cons, hname, false_or]
    | some value =>
      rw [List.filterMap_cons_some (by rw [hvalue]; rfl), List.lookup_cons, ih]
      by_cases hname : field = name
      · subst hname
        simp only [beq_self_eq_true, List.mem_cons_self, if_true, hvalue]
      · have hbeq : (field == name) = false := by simpa using hname
        simp only [hbeq, List.mem_cons, hname, false_or]

/-- What the environment sets is found under the fields. -/
theorem lookup_readable (environment : Environment) (field : String) :
    (readable environment).lookup field = environmental? environment field := by
  rw [readable, lookup_filterMap_field]
  split
  · rfl
  · next hmem =>
    unfold environmental?
    split <;> simp_all [fields]

/-- The variable for the workgroup size decides whether an environment can be read. -/
theorem settingsOf_eq (environment : Environment) :
    settingsOf environment =
      (malformedSize? environment).elim (.ok (readable environment))
        fun text => .error (.badInteger text .given) := by
  have htext (text : String) : Value.toInt (.text text) = Value.textToInt .given text := rfl
  unfold settingsOf malformedSize? readable fields
  simp only [List.filterMap_cons, List.filterMap_nil, environmental?]
  cases hsize : nonEmpty? environment "WGPU_ARRAY_WORKGROUP_SIZE" with
  | none =>
    cases nonEmpty? environment "WGPU_ARRAY_POWER_PREFERENCE" <;>
      cases isOn environment "WGPU_ARRAY_DISABLE_F16" <;> rfl
  | some text =>
    simp only [Option.mapM_some, htext, Value.textToInt, Option.filter_some, Option.bind_some]
    cases hinteger : Text.integer? text with
    | none => rfl
    | some size =>
      cases nonEmpty? environment "WGPU_ARRAY_POWER_PREFERENCE" <;>
        cases isOn environment "WGPU_ARRAY_DISABLE_F16" <;> rfl

/-! ### Overrides before the environment -/

/-- Only the variables that are set have to be looked at. -/
theorem agreeBeside_of_names
    (h : ∀ name ∈ first.map Prod.fst ++ second.map Prod.fst,
      ∃ field, variableOf? field = some name ∧ (overrides.lookup field).isSome) :
    AgreeBeside overrides first second := by
  intro name
  by_cases hmem : name ∈ first.map Prod.fst ++ second.map Prod.fst
  · exact .inr (h name hmem)
  · left
    rw [List.mem_append, not_or, ← List.contains_iff_mem, ← List.contains_iff_mem,
      ← isSome_lookup, ← isSome_lookup, Option.not_isSome_iff_eq_none,
      Option.not_isSome_iff_eq_none] at hmem
    rw [hmem.1, hmem.2]

/-- Options are made from what is found under the fields, unless another name is set. -/
theorem ofSettings_congr {other : Settings}
    (hnames : (settings.find? fun entry => !fields.contains entry.1) =
      other.find? fun entry => !fields.contains entry.1)
    (hlookup : ∀ field, settings.lookup field = other.lookup field) :
    ofSettings settings = ofSettings other := by
  unfold ofSettings
  simp only [hnames, hlookup]

/-- What the environment sets has the names of fields. -/
theorem find?_readable (environment : Environment) :
    ((readable environment).find? fun entry => !fields.contains entry.1) = none := by
  rw [List.find?_eq_none]
  intro entry hentry
  obtain ⟨field, hfield, hvalue⟩ := List.mem_filterMap.mp hentry
  obtain ⟨value, -, rfl⟩ := Option.map_eq_some_iff.mp hvalue
  simpa using hfield

theorem ofSettings_readable_congr (h : AgreeBeside overrides first second) :
    ofSettings (overrides ++ readable first) = ofSettings (overrides ++ readable second) := by
  refine ofSettings_congr ?_ fun field ↦ ?_
  · rw [List.find?_append, List.find?_append, find?_readable, find?_readable]
  · rw [List.lookup_append, List.lookup_append, lookup_readable, lookup_readable]
    cases hfield : overrides.lookup field with
    | some value => rfl
    | none => rw [environmental?_congr fun name ↦ h.lookup_eq hfield]

/-- Options come out of settings that pass the checks. -/
theorem ofSettings_eq_ok {options : Options} (h : ofSettings settings = .ok options) :
    (settings.lookup "power_preference").getD (.text "high-performance") =
        .text options.power.text ∧
      ((settings.lookup "workgroup_size").getD (.int 256)).toInt = .ok options.workgroupSize ∧
      0 < options.workgroupSize ∧
      options.halfPrecision = (settings.lookup "enable_f16").getD (.bool true) ∧
      options.label = (settings.lookup "label").getD (.text "wgpu_array") := by
  unfold ofSettings at h
  dsimp only at h
  split at h
  · cases h
  · obtain ⟨power, hpower, h⟩ := bind_eq_ok.mp h
    obtain ⟨size, hsize, h⟩ := bind_eq_ok.mp h
    obtain ⟨hpositive, h⟩ := guarded_eq_ok.mp h
    cases h
    exact ⟨PowerPreference.ofValue_eq_ok_iff.mp hpower, hsize, Int.not_le.mp hpositive, rfl, rfl⟩

/-- Explicit settings and an environment give options as the checks allow; a variable for the
workgroup size that cannot be read is refused before. -/
theorem ofEnvironment_eq (environment : Environment) (overrides : Settings) :
    ofEnvironment environment overrides =
      if (overrides.lookup "cls").isSome then
        .error (.repeatedArgument "BackendOptions.from_env" "cls")
      else
        (malformedSize? environment).elim (ofSettings (overrides ++ readable environment))
          fun text => .error (.badInteger text .given) := by
  unfold ofEnvironment
  rw [settingsOf_eq]
  split
  · rfl
  · cases malformedSize? environment <;> rfl

/-- Options come out of an environment that can be read only. -/
theorem ofSettings_of_ofEnvironment {options : Options}
    (h : ofEnvironment environment overrides = .ok options) :
    ofSettings (overrides ++ readable environment) = .ok options := by
  rw [ofEnvironment_eq] at h
  split at h
  · cases h
  · cases hmalformed : malformedSize? environment with
    | some text =>
      rw [hmalformed] at h
      cases h
    | none => rwa [hmalformed] at h

/-- Let two environments differ in variables of overridden fields only. If the same can be said of
their variables for the workgroup size, that they can be read or which text cannot, the outcome is
the same; and it can if the workgroup size is not overridden. A text that cannot be read is the
outcome, whatever is overridden. Options that come out are the chosen settings: one of the two power
preferences, and at least one lane in a workgroup. -/
theorem outcome_of_agreeBeside (h : AgreeBeside overrides first second) :
    (malformedSize? first = malformedSize? second →
      ofEnvironment first overrides = ofEnvironment second overrides) ∧
    (overrides.lookup "workgroup_size" = none →
      malformedSize? first = malformedSize? second) ∧
    (∀ text, malformedSize? first = some text → overrides.lookup "cls" = none →
      ofEnvironment first overrides = .error (.badInteger text .given)) ∧
    ∀ options, ofEnvironment first overrides = .ok options →
      options.power.text ∈ ["high-performance", "low-power"] ∧ 1 ≤ options.workgroupSize ∧
      chosen overrides first "power_preference" (.text "high-performance") =
        .text options.power.text ∧
      (chosen overrides first "workgroup_size" (.int 256)).toInt = .ok options.workgroupSize ∧
      options.halfPrecision = chosen overrides first "enable_f16" (.bool true) ∧
      options.label = chosen overrides first "label" (.text "wgpu_array") := by
  refine ⟨fun hsame ↦ ?_, fun hsize ↦ ?_, fun text hmalformed hclass ↦ ?_,
    fun options hoptions ↦ ?_⟩
  · rw [ofEnvironment_eq, ofEnvironment_eq, hsame, ofSettings_readable_congr h]
  · exact malformedSize?_congr (h.lookup_eq hsize rfl)
  · rw [ofEnvironment_eq, hclass, hmalformed]
    rfl
  · have hsettings := ofSettings_of_ofEnvironment hoptions
    obtain ⟨hpower, hsize, hpositive, hhalf, hlabel⟩ := ofSettings_eq_ok hsettings
    simp only [List.lookup_append, lookup_readable] at hpower hsize hhalf hlabel
    refine ⟨?_, hpositive, hpower, hsize, hhalf, hlabel⟩
    cases options.power <;> decide

/-- The overrides of a caller who asks for little. -/
def modestOverrides : Settings :=
  [("power_preference", .text "low-power"), ("workgroup_size", .int 32)]

/-- An environment whose variables are refused where they are heeded. -/
def refusedEnvironment : Environment :=
  [("WGPU_ARRAY_POWER_PREFERENCE", "fastest"), ("WGPU_ARRAY_WORKGROUP_SIZE", "0")]

theorem agreeBeside_refusedEnvironment :
    AgreeBeside modestOverrides refusedEnvironment [] := by
  refine agreeBeside_of_names fun name hmem ↦ ?_
  simp only [refusedEnvironment, List.map_cons, List.map_nil, List.append_nil, List.mem_cons,
    List.not_mem_nil, or_false] at hmem
  rcases hmem with rfl | rfl
  · exact ⟨"power_preference", rfl, rfl⟩
  · exact ⟨"workgroup_size", rfl, rfl⟩

/-- A preference and a size that would be refused do no harm where they are overridden. -/
theorem outcome_of_agreeBeside_refused :
    AgreeBeside modestOverrides refusedEnvironment [] ∧
      malformedSize? refusedEnvironment = malformedSize? [] ∧
      ofEnvironment refusedEnvironment modestOverrides = ofEnvironment [] modestOverrides := by
  have hsame : malformedSize? refusedEnvironment = malformedSize? [] := by decide +kernel
  exact ⟨agreeBeside_refusedEnvironment, hsame,
    (outcome_of_agreeBeside agreeBeside_refusedEnvironment).1 hsame⟩

/-- A size that cannot be read is refused, though it is overridden and no environment at all would
do. -/
theorem malformed_size_heeded :
    AgreeBeside [("workgroup_size", .int 32)] [("WGPU_ARRAY_WORKGROUP_SIZE", "abc")] [] ∧
      ofEnvironment [("WGPU_ARRAY_WORKGROUP_SIZE", "abc")] [("workgroup_size", .int 32)] =
        .error (.badInteger "abc" .given) ∧
      ofEnvironment [] [("workgroup_size", .int 32)] =
        .ok ⟨.highPerformance, .bool true, 32, .text "wgpu_array"⟩ := by
  have hoff : isOn [] "WGPU_ARRAY_DISABLE_F16" = false := by decide +kernel
  refine ⟨agreeBeside_of_names fun name hmem ↦ ⟨"workgroup_size", ?_, rfl⟩, rfl, ?_⟩
  · rw [List.mem_singleton.mp hmem]
    rfl
  · rw [ofEnvironment, settingsOf, hoff]
    rfl

end Options

end ComputeArray
