import Mathlib.Data.List.Forall2

/-!
# Association lists

What is found under a key after an entry is added at the end, or all entries of a key are replaced.
-/

set_option autoImplicit false

namespace ComputeArray

variable {κ ν : Type} [BEq κ]

/-- Something is found under the keys of the entries, and under no other. -/
theorem isSome_lookup (entries : List (κ × ν)) (key : κ) :
    (entries.lookup key).isSome = (entries.map Prod.fst).contains key := by
  induction entries with
  | nil => rfl
  | cons entry rest ih =>
    rw [List.lookup_cons, List.map_cons, List.contains_cons, ← ih]
    cases key == entry.1 <;> rfl

theorem exists_lookup_of_mem [LawfulBEq κ] {entries : List (κ × ν)} {key : κ}
    (h : key ∈ entries.map Prod.fst) : ∃ value, entries.lookup key = some value := by
  rwa [← Option.isSome_iff_exists, isSome_lookup, List.contains_iff_mem]

/-- What is found is an entry. -/
theorem mem_of_lookup [LawfulBEq κ] {entries : List (κ × ν)} {key : κ} {value : ν}
    (h : entries.lookup key = some value) : (key, value) ∈ entries := by
  obtain ⟨before, after, rfl, -⟩ := List.lookup_eq_some_iff.mp h
  simp

/-- Entries related one by one have the same keys if related entries do. -/
theorem names_of_forall₂ {κ ν μ : Type} {R : κ × ν → κ × μ → Prop} {entries : List (κ × ν)}
    {others : List (κ × μ)} (h : List.Forall₂ R entries others)
    (hkeys : ∀ entry other, R entry other → other.1 = entry.1) :
    others.map Prod.fst = entries.map Prod.fst := by
  induction h with
  | nil => rfl
  | cons hfirst _ ih => rw [List.map_cons, List.map_cons, hkeys _ _ hfirst, ih]

/-- What is related one by one is related to something. -/
theorem exists_of_forall₂ {β γ : Type} {R : β → γ → Prop} {items : List β} {results : List γ}
    (h : List.Forall₂ R items results) {result : γ} (hmem : result ∈ results) :
    ∃ item ∈ items, R item result := by
  induction h with
  | nil => cases hmem
  | @cons item found items results hfirst _ ih =>
    rcases List.mem_cons.mp hmem with rfl | hmem
    · exact ⟨item, List.mem_cons_self, hfirst⟩
    · obtain ⟨other, hother, hR⟩ := ih hmem
      exact ⟨other, List.mem_cons_of_mem item hother, hR⟩

/-- An entry is found if all keys are different. -/
theorem lookup_of_mem [LawfulBEq κ] {entries : List (κ × ν)} {key : κ} {value : ν}
    (hnodup : (entries.map Prod.fst).Nodup) (hmem : (key, value) ∈ entries) :
    entries.lookup key = some value := by
  obtain ⟨before, after, rfl⟩ := List.append_of_mem hmem
  refine List.lookup_eq_some_iff.mpr ⟨before, after, rfl, fun entry hentry ↦ ?_⟩
  rw [List.map_append, List.map_cons] at hnodup
  have hne := (List.nodup_append.mp hnodup).2.2 entry.1 (List.mem_map_of_mem hentry) key (by simp)
  exact bne_iff_ne.mpr (Ne.symm hne)

/-- An entry added behind the others is found if no other is. -/
theorem lookup_append_singleton [LawfulBEq κ] {entries : List (κ × ν)}
    {key : κ} (value : ν) (h : entries.lookup key = none) :
    (entries ++ [(key, value)]).lookup key = some value := by
  rw [List.lookup_append, h]
  simp

/-- What is found with an entry added at the end is found among the others or is that entry. -/
theorem lookup_of_lookup_append_singleton [LawfulBEq κ]
    {entries : List (κ × ν)} {key wanted : κ} {value found : ν}
    (h : (entries ++ [(key, value)]).lookup wanted = some found) :
    entries.lookup wanted = some found ∨ wanted = key ∧ found = value := by
  rw [List.lookup_append, Option.or_eq_some_iff] at h
  rcases h with h | ⟨-, h⟩
  · exact .inl h
  · by_cases hkey : wanted = key
    · subst hkey
      simp only [List.lookup_cons, beq_self_eq_true, Option.some.injEq] at h
      exact .inr ⟨rfl, h.symm⟩
    · have hbeq : (wanted == key) = false := by simpa using hkey
      simp [List.lookup_cons, hbeq] at h

/-- Replacing the entries of a key changes what is found under it, and nothing else. -/
theorem lookup_map_replace [LawfulBEq κ] [DecidableEq κ] (entries : List (κ × ν))
    (key wanted : κ) (value : ν) :
    (entries.map fun entry ↦ (entry.1, if entry.1 = key then value else entry.2)).lookup wanted =
      (entries.lookup wanted).map fun old ↦ if wanted = key then value else old := by
  induction entries with
  | nil => rfl
  | cons entry rest ih =>
    obtain ⟨found, old⟩ := entry
    rw [List.map_cons, List.lookup_cons, List.lookup_cons, ih]
    by_cases hfound : wanted = found
    · subst hfound
      simp
    · have hbeq : (wanted == found) = false := by simpa using hfound
      rw [hbeq]

/-- A key is still found in the entries left by a condition that holds of the key. -/
theorem lookup_filter_of_key [LawfulBEq κ] (entries : List (κ × ν)) {keep : κ → Bool} {key : κ}
    (h : keep key = true) :
    (entries.filter fun entry ↦ keep entry.1).lookup key = entries.lookup key := by
  induction entries with
  | nil => rfl
  | cons entry rest ih =>
    obtain ⟨found, value⟩ := entry
    by_cases hkeep : keep found = true
    · rw [List.filter_cons_of_pos (by exact hkeep), List.lookup_cons, List.lookup_cons, ih]
    · have hne : (key == found) = false := by
        rw [beq_eq_false_iff_ne]
        rintro rfl
        exact hkeep h
      rw [List.filter_cons_of_neg (by exact hkeep), List.lookup_cons, hne, ih]

/-- What is found in a part of the entries left by a condition on keys is found in all. -/
theorem lookup_of_lookup_filter [LawfulBEq κ] {entries : List (κ × ν)} {keep : κ → Bool} {key : κ}
    {value : ν} (h : (entries.filter fun entry ↦ keep entry.1).lookup key = some value) :
    entries.lookup key = some value := by
  by_cases hkeep : keep key = true
  · rwa [lookup_filter_of_key entries hkeep] at h
  · exact absurd (List.mem_filter.mp (mem_of_lookup h)).2 hkeep

end ComputeArray
