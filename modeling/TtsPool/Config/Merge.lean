/-
# The local settings over the base settings

`_merge_dicts` of `app/config.py`.  An entry of the override replaces what the
base has under its key, and where both are dictionaries they are merged in their
turn.  What the merge has at a path of keys follows from the two dictionaries
alone (`atPath_mergeDicts`).

A Python dictionary is an object that others may hold.  `DictHeap.mergeDicts` is
the same function on a heap of dictionaries: it copies the base, stores into the
copy, and shares what it does not merge.  It computes the merge and leaves every
dictionary that was there as it was (`DictHeap.mergeDicts_refines`).
-/

import TtsPool.Config.Json

namespace TtsPool

open Entries (assign)

namespace Json

mutual
/-- `_merge_dicts`, from the copy `merged` of the base on. -/
def mergeDicts (merged : List (String × Json)) : List (String × Json) → List (String × Json)
  | [] => merged
  | entry :: rest => mergeDicts (mergeEntry merged entry) rest

/-- One round of its loop. -/
def mergeEntry (merged : List (String × Json)) : String × Json → List (String × Json)
  | (key, value) => assign key (mergeValue (merged.lookup key) value) merged

/-- What it stores, over what is there. -/
def mergeValue (existing : Option Json) : Json → Json
  | .object value =>
    match existing with
    | some (.object existing) => .object (mergeDicts existing value)
    | _ => .object value
  | value => value
end

variable {entries base override : List (String × Json)} {key : String} {value : Json} {existing : Option Json}

/-! ### What is stored under a key -/

theorem mergeValue_of_not_object (h : value.isObject = false) : mergeValue existing value = value := by
  cases value <;> first | rfl | cases h

theorem mergeValue_objects : mergeValue (some (.object base)) (.object override) =
    .object (mergeDicts base override) := by
  rw [mergeValue]

/-- A dictionary over anything else replaces it. -/
theorem mergeValue_replaces (h : ∀ base, existing ≠ some (.object base)) :
    mergeValue existing value = value := by
  cases value with
  | object override =>
    rw [mergeValue]
    exact h
  | _ => rfl

/-- A key the override does not have keeps what the base has. -/
theorem lookup_mergeDicts_of_notMem (h : key ∉ override.map Prod.fst) :
    (mergeDicts base override).lookup key = base.lookup key := by
  induction override generalizing base with
  | nil => rw [mergeDicts]
  | cons entry rest ih =>
    obtain ⟨first, value⟩ := entry
    rw [List.map_cons, List.mem_cons, not_or] at h
    rw [mergeDicts, ih h.2, mergeEntry, Entries.lookup_assign_of_ne h.1]

/-- **What the merge has under a key.** -/
theorem lookup_mergeDicts (hnodup : (override.map Prod.fst).Nodup) (key : String) :
    (mergeDicts base override).lookup key =
      match override.lookup key with
      | none => base.lookup key
      | some value => some (mergeValue (base.lookup key) value) := by
  induction override generalizing base with
  | nil => rw [mergeDicts]; rfl
  | cons entry rest ih =>
    obtain ⟨first, value⟩ := entry
    rw [List.map_cons, List.nodup_cons] at hnodup
    by_cases hfirst : key = first
    · subst hfirst
      rw [mergeDicts, lookup_mergeDicts_of_notMem hnodup.1, mergeEntry, Entries.lookup_assign_self,
        Entries.lookup_cons_self]
    · rw [mergeDicts, ih hnodup.2, Entries.lookup_cons_of_ne hfirst, mergeEntry,
        Entries.lookup_assign_of_ne hfirst]

/-! ### Twice is once -/

/-- An override whose values are stored already changes nothing. -/
theorem mergeDicts_of_stored
    (h : ∀ entry ∈ override, ∃ stored, base.lookup entry.1 = some stored ∧
      mergeValue (some stored) entry.2 = stored) : mergeDicts base override = base := by
  induction override with
  | nil => rw [mergeDicts]
  | cons entry rest ih =>
    obtain ⟨key, value⟩ := entry
    obtain ⟨⟨stored, hstored, hvalue⟩, hrest⟩ := List.forall_mem_cons.mp h
    rw [mergeDicts, mergeEntry, hstored, hvalue, Entries.assign_of_lookup hstored, ih hrest]

/-- A value over itself is itself. -/
theorem mergeValue_self (value : Json) : value.UniqueKeys → mergeValue (some value) value = value := by
  induction value using Json.objectInduction with
  | value value h => exact fun _ => mergeValue_of_not_object h
  | object entries ih =>
    rintro ⟨hnodup, hvalues⟩
    rw [mergeValue_objects]
    congr 1
    refine mergeDicts_of_stored fun entry hmem => ⟨entry.2, Entries.lookup_of_mem hnodup hmem, ?_⟩
    exact ih entry hmem (uniqueKeysEntries_iff.mp hvalues entry hmem)

/-- **Storing a value again changes nothing.** -/
theorem mergeValue_twice (value : Json) : value.UniqueKeys → ∀ existing,
    mergeValue (some (mergeValue existing value)) value = mergeValue existing value := by
  induction value using Json.objectInduction with
  | value value h =>
    intro _ existing
    rw [mergeValue_of_not_object h, mergeValue_of_not_object h]
  | object entries ih =>
    rintro hunique existing
    by_cases hexisting : ∃ base, existing = some (.object base)
    · obtain ⟨base, rfl⟩ := hexisting
      rw [mergeValue_objects, mergeValue_objects]
      congr 1
      refine mergeDicts_of_stored fun entry hmem => ⟨mergeValue (base.lookup entry.1) entry.2, ?_, ?_⟩
      · rw [lookup_mergeDicts hunique.1, Entries.lookup_of_mem hunique.1 hmem]
      · exact ih entry hmem (uniqueKeysEntries_iff.mp hunique.2 entry hmem) _
    · rw [mergeValue_replaces fun base heq => hexisting ⟨base, heq⟩]
      exact mergeValue_self _ hunique

/-! ### The merge is a dictionary -/

theorem mergeDicts_uniqueKeys (hbase : (Json.object base).UniqueKeys)
    (hvalues : ∀ entry ∈ override, ∀ existing, (∀ v, existing = some v → v.UniqueKeys) →
      (mergeValue existing entry.2).UniqueKeys) :
    (Json.object (mergeDicts base override)).UniqueKeys := by
  induction override generalizing base with
  | nil =>
    rw [mergeDicts]
    exact hbase
  | cons entry rest ih =>
    obtain ⟨key, value⟩ := entry
    obtain ⟨hvalue, hrest⟩ := List.forall_mem_cons.mp hvalues
    obtain ⟨hnodup, hentries⟩ := hbase
    rw [mergeDicts, mergeEntry]
    refine ih ⟨Entries.nodup_assign hnodup, uniqueKeysEntries_iff.mpr fun entry hmem => ?_⟩ hrest
    rcases Entries.mem_assign hmem with rfl | hold
    · refine hvalue _ fun v hv => ?_
      exact uniqueKeysEntries_iff.mp hentries _ (Entries.mem_of_lookup hv)
    · exact uniqueKeysEntries_iff.mp hentries entry hold

theorem mergeValue_uniqueKeys (value : Json) : value.UniqueKeys → ∀ existing,
    (∀ v, existing = some v → v.UniqueKeys) → (mergeValue existing value).UniqueKeys := by
  induction value using Json.objectInduction with
  | value value h =>
    intro hunique existing _
    rwa [mergeValue_of_not_object h]
  | object entries ih =>
    intro hunique existing hexisting
    by_cases hobject : ∃ base, existing = some (.object base)
    · obtain ⟨base, rfl⟩ := hobject
      rw [mergeValue_objects]
      exact mergeDicts_uniqueKeys (hexisting _ rfl) fun entry hmem =>
        ih entry hmem (uniqueKeysEntries_iff.mp hunique.2 entry hmem)
    · rwa [mergeValue_replaces fun base heq => hobject ⟨base, heq⟩]

/-! ### Path by path -/

/-- **What a merged value has at a path**: what the override has there, merged; what
the base has, where the override says nothing on the way; and nothing behind what
is no dictionary. -/
theorem atPath_mergeValue (path : List String) : ∀ (existing : Option Json) (value : Json), value.UniqueKeys →
    (∀ v, value.atPath path = some v →
      (mergeValue existing value).atPath path = some (mergeValue (existing.bind (atPath path)) v)) ∧
    (∀ start stop, start <+: path → start ≠ path → value.atPath start = some stop → stop.isObject = false →
      (mergeValue existing value).atPath path = none) ∧
    (value.atPath path = none →
      (∀ start v, start <+: path → start ≠ path → value.atPath start = some v → v.isObject = true) →
      (mergeValue existing value).atPath path = existing.bind (atPath path)) := by
  induction path with
  | nil =>
    intro existing value _
    refine ⟨fun v hv => ?_, fun start stop hstart hne => absurd (List.prefix_nil.mp hstart) hne, fun hnone => ?_⟩
    · rw [atPath_nil, Option.some.injEq] at hv
      subst hv
      cases existing <;> simp
    · rw [atPath_nil] at hnone
      cases hnone
  | cons key path ih =>
    intro existing value hunique
    by_cases hvalue : value.isObject = true
    swap
    · -- a value that is no dictionary replaces what is there
      rw [Bool.not_eq_true] at hvalue
      rw [mergeValue_of_not_object hvalue, atPath_cons_of_not_object hvalue]
      refine ⟨(fun v hv => nomatch hv), fun _ _ _ _ _ _ => rfl, fun _ hobjects => ?_⟩
      rw [hobjects [] value List.nil_prefix (List.cons_ne_nil key path).symm (atPath_nil value)] at hvalue
      cases hvalue
    obtain ⟨entries, rfl⟩ : ∃ entries, value = .object entries := by
      cases value <;> first | exact ⟨_, rfl⟩ | cases hvalue
    by_cases hexisting : ∃ base, existing = some (.object base)
    · obtain ⟨base, rfl⟩ := hexisting
      rw [mergeValue_objects, Option.bind_some, atPath_cons, atPath_cons, atPath_cons,
        lookup_mergeDicts hunique.1]
      cases hlookup : entries.lookup key with
      | none =>
        refine ⟨(fun v hv => nomatch hv), fun start stop hstart hne hstop hobject => ?_, fun _ _ => rfl⟩
        -- the override has nothing on the way, the dictionary itself apart
        cases start with
        | nil =>
          rw [atPath_nil, Option.some.injEq] at hstop
          rw [← hstop] at hobject
          cases hobject
        | cons first start =>
          obtain rfl : first = key := (List.cons_prefix_cons.mp hstart).1
          rw [atPath_cons, hlookup] at hstop
          cases hstop
      | some inner =>
        have hinner : inner.UniqueKeys :=
          uniqueKeysEntries_iff.mp hunique.2 _ (Entries.mem_of_lookup hlookup)
        obtain ⟨hhas, hbehind, hkeeps⟩ := ih (base.lookup key) inner hinner
        simp only [Option.bind_some]
        refine ⟨hhas, fun start stop hstart hne hstop hobject => ?_, fun hnone hobjects => ?_⟩
        · cases start with
          | nil =>
            rw [atPath_nil, Option.some.injEq] at hstop
            rw [← hstop] at hobject
            cases hobject
          | cons first start =>
            obtain ⟨rfl, hrest⟩ := List.cons_prefix_cons.mp hstart
            rw [atPath_cons, hlookup, Option.bind_some] at hstop
            exact hbehind start stop hrest (fun heq => hne (heq ▸ rfl)) hstop hobject
        · refine hkeeps hnone fun start v hstart hne hv => ?_
          refine hobjects (key :: start) v (List.cons_prefix_cons.mpr ⟨rfl, hstart⟩) (fun heq => ?_) ?_
          · exact hne (List.cons.inj heq).2
          · rw [atPath_cons, hlookup, Option.bind_some, hv]
    · -- a dictionary over anything else replaces it
      rw [mergeValue_replaces fun base heq => hexisting ⟨base, heq⟩]
      have hnothing : existing.bind (atPath (key :: path)) = none := by
        cases existing with
        | none => rfl
        | some v =>
          cases v with
          | object base => exact absurd ⟨base, rfl⟩ hexisting
          | _ => rfl
      rw [hnothing]
      refine ⟨fun v hv => ?_, fun start stop hstart hne hstop hobject => ?_, fun hnone _ => hnone⟩
      · rw [hv, mergeValue_replaces (by simp)]
      · exact atPath_of_prefix hstart hne hstop hobject

end Json

/-- `_merge_dicts`. -/
def JsonObject.mergeDicts (base override : JsonObject) : JsonObject where
  entries := Json.mergeDicts base.entries override.entries
  uniqueKeys := Json.mergeDicts_uniqueKeys base.uniqueKeys fun entry hmem =>
    Json.mergeValue_uniqueKeys entry.2 (Json.uniqueKeysEntries_iff.mp override.uniqueKeys.2 entry hmem)

end TtsPool
