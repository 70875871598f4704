/-
# Lists of entries

A dictionary as the bare list of its entries, for data that nest dictionaries in
one another and cannot carry the distinctness of the keys in the type.  `assign`
stores under a key where it stands, or last; it and `List.lookup` agree with each
other on any list, and where a list is read entry by entry its keys have to be
distinct.
-/

import Mathlib.Data.List.Nodup

namespace TtsPool
namespace Entries

variable {α β : Type*} [DecidableEq α] {entries : List (α × β)} {key other : α} {value : β}

/-- Store a value under a key: in place when the key is present, last when it is
not. -/
def assign (key : α) (value : β) : List (α × β) → List (α × β)
  | [] => [(key, value)]
  | entry :: rest => if entry.1 = key then (key, value) :: rest else entry :: assign key value rest

theorem lookup_cons_self : ((key, value) :: entries).lookup key = some value := List.lookup_cons_self

theorem lookup_cons_of_ne (h : key ≠ other) : ((other, value) :: entries).lookup key = entries.lookup key := by
  rw [List.lookup_cons, beq_eq_false_iff_ne.mpr h]

@[simp] theorem lookup_assign_self : (assign key value entries).lookup key = some value := by
  induction entries with
  | nil => exact lookup_cons_self
  | cons entry rest ih =>
    rw [assign]
    split_ifs with h
    · exact lookup_cons_self
    · rw [lookup_cons_of_ne (Ne.symm h), ih]

theorem lookup_assign_of_ne (h : other ≠ key) : (assign key value entries).lookup other = entries.lookup other := by
  induction entries with
  | nil => rw [assign, lookup_cons_of_ne h]
  | cons entry rest ih =>
    obtain ⟨first, stored⟩ := entry
    rw [assign]
    split_ifs with hfirst
    · obtain rfl : first = key := hfirst
      rw [lookup_cons_of_ne h, lookup_cons_of_ne h]
    · by_cases hother : other = first
      · subst hother
        rw [lookup_cons_self, lookup_cons_self]
      · rw [lookup_cons_of_ne hother, lookup_cons_of_ne hother, ih]

theorem keys_assign : (assign key value entries).map Prod.fst =
    if key ∈ entries.map Prod.fst then entries.map Prod.fst else entries.map Prod.fst ++ [key] := by
  induction entries with
  | nil => rfl
  | cons entry rest ih =>
    rw [assign]
    by_cases hfirst : entry.1 = key
    · simp [hfirst]
    · rw [if_neg hfirst, List.map_cons, ih, List.map_cons]
      by_cases hrest : key ∈ rest.map Prod.fst
      · rw [if_pos hrest, if_pos (List.mem_cons_of_mem _ hrest)]
      · have hnot : key ∉ entry.1 :: rest.map Prod.fst := by
          rw [List.mem_cons, not_or]
          exact ⟨Ne.symm hfirst, hrest⟩
        rw [if_neg hrest, if_neg hnot, List.cons_append]

/-- Distinct keys stay distinct. -/
theorem nodup_assign (h : (entries.map Prod.fst).Nodup) : ((assign key value entries).map Prod.fst).Nodup := by
  rw [keys_assign]
  split_ifs with hkey
  · exact h
  · rw [List.nodup_append]
    refine ⟨h, List.nodup_singleton key, ?_⟩
    rintro first hfirst last hlast rfl
    exact hkey (List.mem_singleton.mp hlast ▸ hfirst)

/-- An entry is the one stored, or an old one. -/
theorem mem_assign {entry : α × β} (h : entry ∈ assign key value entries) :
    entry = (key, value) ∨ entry ∈ entries := by
  induction entries with
  | nil => exact .inl (List.mem_singleton.mp h)
  | cons first rest ih =>
    rw [assign] at h
    split_ifs at h
    · exact (List.mem_cons.mp h).imp_right (List.mem_cons_of_mem _)
    · rcases List.mem_cons.mp h with rfl | h
      · exact .inr List.mem_cons_self
      · exact (ih h).imp_right (List.mem_cons_of_mem _)

/-- Storing what is there changes nothing. -/
theorem assign_of_lookup (h : entries.lookup key = some value) : assign key value entries = entries := by
  induction entries with
  | nil => cases h
  | cons entry rest ih =>
    obtain ⟨first, stored⟩ := entry
    rw [assign]
    split_ifs with hfirst
    · obtain rfl : first = key := hfirst
      rw [lookup_cons_self] at h
      rw [Option.some.inj h]
    · rw [lookup_cons_of_ne (Ne.symm hfirst)] at h
      rw [ih h]

/-- Where keys are distinct, an entry is what its key holds. -/
theorem lookup_of_mem (hnodup : (entries.map Prod.fst).Nodup) (hmem : (key, value) ∈ entries) :
    entries.lookup key = some value := by
  induction entries with
  | nil => cases hmem
  | cons entry rest ih =>
    obtain ⟨first, stored⟩ := entry
    rw [List.map_cons, List.nodup_cons] at hnodup
    rcases List.mem_cons.mp hmem with heq | hrest
    · cases heq
      exact lookup_cons_self
    · have hne : key ≠ first := by
        rintro rfl
        exact hnodup.1 (List.mem_map.mpr ⟨_, hrest, rfl⟩)
      rw [lookup_cons_of_ne hne, ih hnodup.2 hrest]

/-- What a key holds is an entry. -/
theorem mem_of_lookup (h : entries.lookup key = some value) : (key, value) ∈ entries := by
  induction entries with
  | nil => cases h
  | cons entry rest ih =>
    obtain ⟨first, stored⟩ := entry
    by_cases hfirst : key = first
    · subst hfirst
      rw [lookup_cons_self] at h
      rw [Option.some.inj h]
      exact List.mem_cons_self
    · rw [lookup_cons_of_ne hfirst] at h
      exact List.mem_cons_of_mem _ (ih h)

end Entries
end TtsPool
