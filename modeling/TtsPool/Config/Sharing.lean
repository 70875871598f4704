/-
# Merging dictionaries that others hold

A Python dictionary is an object: who holds a reference to it sees what is stored
into it.  Here `_merge_dicts` runs on a heap of dictionaries, as the source does
it: it makes a copy of the base, stores into the copy, and shares every value it
does not merge with the base or the override.

`Denotes` says which value a reference stands for, in what is `known` of a heap.
On dictionaries that stand for two values the function returns one that stands for
their merge (`mergeDicts_refines`), and every dictionary that was there is as it
was.
-/

import TtsPool.Config.Merge
import Mathlib.Logic.Function.Basic

namespace TtsPool

open Entries (assign)

/-- A value in a dictionary: a dictionary by reference, or a value of another
type. -/
inductive HeapValue where
  | other (value : Json)
  | dict (address : ℕ)

/-- The dictionaries by their addresses. -/
abbrev DictHeap := List (List (String × HeapValue))

namespace DictHeap

/-- `merged[key] = value`. -/
def store (heap : DictHeap) (merged : ℕ) (key : String) (value : HeapValue) : Option DictHeap :=
  heap[merged]?.map fun entries => heap.set merged (assign key value entries)

/-- One round of the loop of `_merge_dicts`, given the function itself. -/
def mergeItem (merge : DictHeap → ℕ → ℕ → Option (DictHeap × ℕ)) (merged : ℕ) (heap : DictHeap)
    (item : String × HeapValue) : Option DictHeap :=
  heap[merged]?.bind fun entries =>
    match entries.lookup item.1, item.2 with
    | some (.dict existing), .dict value =>
      (merge heap existing value).bind fun result => result.1.store merged item.1 (.dict result.2)
    | _, value => heap.store merged item.1 value

/-- `_merge_dicts`, on references: the heap it leaves, and the dictionary it
returns. -/
def mergeDicts : ℕ → DictHeap → ℕ → ℕ → Option (DictHeap × ℕ)
  | 0, _, _, _ => none
  | fuel + 1, heap, base, override =>
    heap[base]?.bind fun copy =>
      heap[override]?.bind fun items =>
        (items.foldlM (mergeItem (mergeDicts fuel) heap.length) (heap ++ [copy])).map (·, heap.length)

/-! ### What a reference stands for -/

/-- Some of the dictionaries of a heap. -/
abbrev Known := ℕ → Option (List (String × HeapValue))

mutual
/-- The value in the heap stands for the JSON value. -/
def Denotes (known : Known) : Json → HeapValue → Prop
  | .object entries, stored =>
    ∃ address items, stored = .dict address ∧ known address = some items ∧ DenotesEntries known entries items
  | value, stored => stored = .other value

def DenotesEntries (known : Known) : List (String × Json) → List (String × HeapValue) → Prop
  | [], items => items = []
  | entry :: entries, items =>
    ∃ item rest, items = item :: rest ∧ DenotesEntry known entry item ∧ DenotesEntries known entries rest

def DenotesEntry (known : Known) : String × Json → String × HeapValue → Prop
  | (key, value), item => item.1 = key ∧ Denotes known value item.2
end

/-- All of a heap. -/
def all (heap : DictHeap) : Known := fun address => heap[address]?

/-- What is known is there. -/
def Sub (known : Known) (heap : DictHeap) : Prop :=
  ∀ address items, known address = some items → heap[address]? = some items

/-- Nothing known is forgotten. -/
def Known.Le (known known' : Known) : Prop :=
  ∀ address items, known address = some items → known' address = some items

variable {known known' : Known} {heap heap' : DictHeap} {value : Json} {stored : HeapValue}
  {entries : List (String × Json)} {items : List (String × HeapValue)} {key : String} {address : ℕ}

theorem denotes_of_not_object (h : value.isObject = false) : Denotes known value stored ↔ stored = .other value := by
  cases value <;> first | rfl | cases h

theorem denotes_object : Denotes known (.object entries) stored ↔
    ∃ address items, stored = .dict address ∧ known address = some items ∧ DenotesEntries known entries items := by
  rw [Denotes]

theorem denotesEntries_nil : DenotesEntries known [] items ↔ items = [] := by rw [DenotesEntries]

theorem denotesEntries_cons : DenotesEntries known ((key, value) :: entries) items ↔
    ∃ stored rest, items = (key, stored) :: rest ∧ Denotes known value stored ∧
      DenotesEntries known entries rest := by
  rw [DenotesEntries]
  constructor
  · rintro ⟨⟨first, stored⟩, rest, rfl, hentry, hrest⟩
    rw [DenotesEntry] at hentry
    obtain ⟨rfl, hvalue⟩ := hentry
    exact ⟨stored, rest, rfl, hvalue, hrest⟩
  · rintro ⟨stored, rest, rfl, hvalue, hrest⟩
    exact ⟨(key, stored), rest, rfl, by rw [DenotesEntry]; exact ⟨rfl, hvalue⟩, hrest⟩

/-- What stands for a value goes on to, as more gets known. -/
theorem denotesEntries_mono (hvalues : ∀ entry ∈ entries, ∀ stored, Denotes known entry.2 stored →
    Denotes known' entry.2 stored) (h : DenotesEntries known entries items) :
    DenotesEntries known' entries items := by
  induction entries generalizing items with
  | nil =>
    rw [denotesEntries_nil] at h ⊢
    exact h
  | cons entry entries ih =>
    obtain ⟨key, value⟩ := entry
    obtain ⟨hvalue, hrest⟩ := List.forall_mem_cons.mp hvalues
    obtain ⟨stored, rest, rfl, hstored, hentries⟩ := denotesEntries_cons.mp h
    exact denotesEntries_cons.mpr ⟨stored, rest, rfl, hvalue stored hstored, ih hrest hentries⟩

theorem denotes_mono (hle : Known.Le known known') (value : Json) :
    ∀ stored, Denotes known value stored → Denotes known' value stored := by
  induction value using Json.objectInduction with
  | value value hvalue =>
    intro stored h
    rw [denotes_of_not_object hvalue] at h ⊢
    exact h
  | object entries ih =>
    intro stored h
    obtain ⟨address, items, rfl, hknown, hentries⟩ := denotes_object.mp h
    exact denotes_object.mpr ⟨address, items, rfl, hle address items hknown, denotesEntries_mono ih hentries⟩

theorem DenotesEntries.mono (hle : Known.Le known known') (h : DenotesEntries known entries items) :
    DenotesEntries known' entries items :=
  denotesEntries_mono (fun entry _ => denotes_mono hle entry.2) h

/-- What a key holds stands for what it holds. -/
theorem DenotesEntries.lookup (h : DenotesEntries known entries items) (key : String) :
    (entries.lookup key = none ∧ items.lookup key = none) ∨
    ∃ value stored, entries.lookup key = some value ∧ items.lookup key = some stored ∧
      Denotes known value stored := by
  induction entries generalizing items with
  | nil =>
    rw [denotesEntries_nil] at h
    subst h
    exact .inl ⟨rfl, rfl⟩
  | cons entry entries ih =>
    obtain ⟨first, value⟩ := entry
    obtain ⟨stored, rest, rfl, hstored, hentries⟩ := denotesEntries_cons.mp h
    by_cases hfirst : key = first
    · subst hfirst
      exact .inr ⟨value, stored, Entries.lookup_cons_self, Entries.lookup_cons_self, hstored⟩
    · rw [Entries.lookup_cons_of_ne hfirst, Entries.lookup_cons_of_ne hfirst]
      exact ih hentries

theorem DenotesEntries.assign (h : DenotesEntries known entries items) (hvalue : Denotes known value stored) :
    DenotesEntries known (Entries.assign key value entries) (Entries.assign key stored items) := by
  induction entries generalizing items with
  | nil =>
    rw [denotesEntries_nil] at h
    subst h
    exact denotesEntries_cons.mpr ⟨stored, [], rfl, hvalue, denotesEntries_nil.mpr rfl⟩
  | cons entry entries ih =>
    obtain ⟨first, old⟩ := entry
    obtain ⟨held, rest, rfl, hheld, hentries⟩ := denotesEntries_cons.mp h
    rw [Entries.assign, Entries.assign]
    split_ifs with hfirst
    · exact denotesEntries_cons.mpr ⟨stored, rest, rfl, hvalue, hentries⟩
    · exact denotesEntries_cons.mpr ⟨held, _, rfl, hheld, ih hentries⟩

/-- A dictionary and nothing else is stood for by a reference. -/
theorem isObject_of_denotes (h : Denotes known value (.dict address)) : ∃ entries, value = .object entries := by
  cases hobject : value.isObject with
  | false =>
    rw [denotes_of_not_object hobject] at h
    cases h
  | true => cases value <;> first | exact ⟨_, rfl⟩ | cases hobject

/-! ### The function on references is the merge -/

theorem Sub.lt (h : Sub known heap) (hknown : known address = some items) : address < heap.length :=
  (List.getElem?_eq_some_iff.mp (h address items hknown)).1

/-- What a call does to the heap: the dictionaries that were there are as they
were, and what gets known is new. -/
structure Grown (heap heap' : DictHeap) (known known' : Known) : Prop where
  sub : Sub known' heap'
  kept : ∀ address < heap.length, heap'[address]? = heap[address]?
  length : heap.length ≤ heap'.length
  known : ∀ address < heap.length, known' address = known address

/-- Nothing known is forgotten, since it was there. -/
theorem Grown.le (h : Grown heap heap' known known') (hsub : Sub known heap) : Known.Le known known' :=
  fun address _ hknown => (h.known address (hsub.lt hknown)).trans hknown

/-- The copy under way: `merged` holds `items`, and is not among what is known. -/
structure Copying (heap : DictHeap) (known : Known) (merged : ℕ) (items : List (String × HeapValue)) : Prop where
  sub : Sub known heap
  copy : heap[merged]? = some items
  unknown : known merged = none

/-- **A store goes into the copy**, which is not among what is known. -/
theorem Copying.store {merged : ℕ} (h : Copying heap known merged items) (key : String) (stored : HeapValue) :
    ∃ heap', heap.store merged key stored = some heap' ∧
      Copying heap' known merged (assign key stored items) ∧ heap'.length = heap.length ∧
      ∀ address, address ≠ merged → heap'[address]? = heap[address]? := by
  have hlt := (List.getElem?_eq_some_iff.mp h.copy).1
  refine ⟨heap.set merged (assign key stored items), by rw [DictHeap.store, h.copy, Option.map_some],
    ⟨fun address items' hknown => ?_, List.getElem?_set_self hlt, h.unknown⟩, List.length_set, fun address hne => ?_⟩
  · have hne : merged ≠ address := by
      rintro rfl
      rw [h.unknown] at hknown
      cases hknown
    rw [List.getElem?_set_ne hne]
    exact h.sub address items' hknown
  · exact List.getElem?_set_ne hne.symm

/-- The function merges what stands for `override` into whatever it is given. -/
def Merges (fuel : ℕ) (override : List (String × Json)) : Prop :=
  ∀ (heap : DictHeap) (known : Known) (base : List (String × Json)) (baseAddress overrideAddress : ℕ),
    Sub known heap → Denotes known (.object base) (.dict baseAddress) →
    Denotes known (.object override) (.dict overrideAddress) →
    ∃ heap' known', mergeDicts fuel heap baseAddress overrideAddress = some (heap', heap.length) ∧
      Grown heap heap' known known' ∧
      Denotes known' (.object (Json.mergeDicts base override)) (.dict heap.length)

/-- **One round** stores the merged value. -/
theorem Copying.item {fuel merged : ℕ} {base : List (String × Json)} (h : Copying heap known merged items)
    (key : String) (hitems : DenotesEntries known base items) (hvalue : Denotes known value stored)
    (hmerge : ∀ override, value = .object override → Merges fuel override) :
    ∃ heap' known' items', mergeItem (mergeDicts fuel) merged heap (key, stored) = some heap' ∧
      Copying heap' known' merged items' ∧
      (∀ address < heap.length, address ≠ merged → heap'[address]? = heap[address]?) ∧
      heap.length ≤ heap'.length ∧ (∀ address < heap.length, known' address = known address) ∧
      DenotesEntries known' (Json.mergeEntry base (key, value)) items' := by
  have hmerged := (List.getElem?_eq_some_iff.mp h.copy).1
  -- a value that is stored as it is
  have hplain : Json.mergeValue (base.lookup key) value = value →
      mergeItem (mergeDicts fuel) merged heap (key, stored) = heap.store merged key stored →
      ∃ heap' known' items', mergeItem (mergeDicts fuel) merged heap (key, stored) = some heap' ∧
        Copying heap' known' merged items' ∧
        (∀ address < heap.length, address ≠ merged → heap'[address]? = heap[address]?) ∧
        heap.length ≤ heap'.length ∧ (∀ address < heap.length, known' address = known address) ∧
        DenotesEntries known' (Json.mergeEntry base (key, value)) items' := by
    intro hsame hstep
    obtain ⟨heap', hstore, hcopying, hlength, hkept⟩ := h.store key stored
    refine ⟨heap', known, _, hstep.trans hstore, hcopying, fun address _ => hkept address, hlength.ge,
      fun _ _ => rfl, ?_⟩
    rw [Json.mergeEntry, hsame]
    exact hitems.assign hvalue
  cases hobject : value.isObject with
  | false =>
    rw [denotes_of_not_object hobject] at hvalue
    subst hvalue
    refine hplain (Json.mergeValue_of_not_object hobject) ?_
    rw [mergeItem, h.copy, Option.bind_some]
    rcases hitems.lookup key with ⟨-, hnone⟩ | ⟨v, held, -, hheld, -⟩
    · rw [hnone]
    · rw [hheld]
      cases held <;> rfl
  | true =>
    obtain ⟨override, rfl⟩ : ∃ override, value = .object override := by
      cases value <;> first | exact ⟨_, rfl⟩ | cases hobject
    obtain ⟨overrideAddress, overrideItems, rfl, -⟩ := denotes_object.mp hvalue
    rcases hitems.lookup key with ⟨hnothing, hnone⟩ | ⟨v, held, hv, hheld, hdenotes⟩
    · refine hplain (by rw [hnothing]; exact Json.mergeValue_replaces (by simp)) ?_
      rw [mergeItem, h.copy, Option.bind_some, hnone]
    cases held with
    | other v' =>
      have hplainValue : v.isObject = false := by
        cases hv' : v.isObject with
        | false => rfl
        | true =>
          cases v with
          | object entries =>
            obtain ⟨_, _, heq, -⟩ := denotes_object.mp hdenotes
            cases heq
          | _ => cases hv'
      refine hplain ?_ ?_
      · refine Json.mergeValue_replaces fun base' heq => ?_
        rw [hv, Option.some.injEq] at heq
        rw [heq] at hplainValue
        cases hplainValue
      · rw [mergeItem, h.copy, Option.bind_some, hheld]
    | dict baseAddress =>
      -- both are dictionaries: they are merged, and the result is stored
      obtain ⟨existing, rfl⟩ := isObject_of_denotes hdenotes
      obtain ⟨heap', known', hmergeDicts, hgrown, hresult⟩ :=
        hmerge override rfl heap known existing baseAddress overrideAddress h.sub hdenotes hvalue
      have hcopying : Copying heap' known' merged items :=
        ⟨hgrown.sub, (hgrown.kept merged hmerged).trans h.copy, (hgrown.known merged hmerged).trans h.unknown⟩
      obtain ⟨heap'', hstore, hcopying', hlength, hkept⟩ := hcopying.store key (.dict heap.length)
      refine ⟨heap'', known', _, ?_, hcopying', fun address hlt hne => ?_, hlength ▸ hgrown.length, hgrown.known, ?_⟩
      · rw [mergeItem, h.copy, Option.bind_some, hheld]
        simp only
        rw [hmergeDicts, Option.bind_some, hstore]
      · exact (hkept address hne).trans (hgrown.kept address hlt)
      · rw [Json.mergeEntry, hv, Json.mergeValue_objects]
        exact (hitems.mono (hgrown.le h.sub)).assign hresult

/-- **The loop.** -/
theorem Copying.loop {fuel merged : ℕ} {base override : List (String × Json)}
    {overrideItems : List (String × HeapValue)} (h : Copying heap known merged items)
    (hitems : DenotesEntries known base items) (hoverride : DenotesEntries known override overrideItems)
    (hmerge : ∀ entry ∈ override, ∀ inner, entry.2 = .object inner → Merges fuel inner) :
    ∃ heap' known' items', overrideItems.foldlM (mergeItem (mergeDicts fuel) merged) heap = some heap' ∧
      Copying heap' known' merged items' ∧
      (∀ address < heap.length, address ≠ merged → heap'[address]? = heap[address]?) ∧
      heap.length ≤ heap'.length ∧ (∀ address < heap.length, known' address = known address) ∧
      DenotesEntries known' (Json.mergeDicts base override) items' := by
  induction override generalizing heap known items base overrideItems with
  | nil =>
    rw [denotesEntries_nil] at hoverride
    subst hoverride
    rw [Json.mergeDicts]
    exact ⟨heap, known, items, rfl, h, fun _ _ _ => rfl, le_rfl, fun _ _ => rfl, hitems⟩
  | cons entry override ih =>
    obtain ⟨key, value⟩ := entry
    obtain ⟨stored, rest, rfl, hvalue, hrest⟩ := denotesEntries_cons.mp hoverride
    obtain ⟨hfirst, hothers⟩ := List.forall_mem_cons.mp hmerge
    obtain ⟨heap', known', items', hstep, hcopying, hkept, hlength, hknown, hdenotes⟩ :=
      h.item key hitems hvalue hfirst
    have hle : Known.Le known known' := fun address _ hmem => (hknown address (h.sub.lt hmem)).trans hmem
    obtain ⟨heap'', known'', items'', hsteps, hcopying', hkept', hlength', hknown', hdenotes'⟩ :=
      ih hcopying hdenotes (hrest.mono hle) hothers
    refine ⟨heap'', known'', items'', ?_, hcopying', fun address hlt hne => ?_, hlength.trans hlength',
      fun address hlt => ?_, ?_⟩
    · rw [List.foldlM_cons, hstep]
      exact hsteps
    · exact (hkept' address (hlt.trans_le hlength) hne).trans (hkept address hlt hne)
    · exact (hknown' address (hlt.trans_le hlength)).trans (hknown address hlt)
    · rw [Json.mergeDicts]
      exact hdenotes'

/-- **With enough fuel the function merges.** -/
theorem merges (value : Json) : ∀ override, value = .object override → ∀ fuel, sizeOf value ≤ fuel →
    Merges fuel override := by
  induction value using Json.objectInduction with
  | value value hvalue =>
    rintro override rfl
    cases hvalue
  | object override ih =>
    rintro _ ⟨⟩ fuel hfuel heap known base baseAddress overrideAddress hsub hbase hoverride
    rw [Json.object.sizeOf_spec] at hfuel
    cases fuel with
    | zero => omega
    | succ fuel =>
      obtain ⟨_, baseItems, ⟨⟩, hbaseKnown, hbaseItems⟩ := denotes_object.mp hbase
      obtain ⟨_, overrideItems, ⟨⟩, hoverrideKnown, hoverrideItems⟩ := denotes_object.mp hoverride
      have hmerge : ∀ entry ∈ override, ∀ inner, entry.2 = .object inner → Merges fuel inner := by
        intro entry hmem inner heq
        refine ih entry hmem inner heq fuel ?_
        have hlt := List.sizeOf_lt_of_mem hmem
        obtain ⟨key, v⟩ := entry
        simp only [Prod.mk.sizeOf_spec] at hlt ⊢
        omega
      have hunknown : known heap.length = none := by
        cases hknown : known heap.length with
        | none => rfl
        | some items => exact absurd (hsub.lt hknown) (lt_irrefl _)
      have hcopy : Copying (heap ++ [baseItems]) known heap.length baseItems := by
        refine ⟨fun address items hknown => ?_, List.getElem?_concat_length, hunknown⟩
        rw [List.getElem?_append_left (hsub.lt hknown)]
        exact hsub address items hknown
      obtain ⟨heap', known', items', hloop, hcopying, hkept, hlength, hknown, hdenotes⟩ :=
        hcopy.loop hbaseItems hoverrideItems hmerge
      rw [List.length_append, List.length_singleton] at hkept hlength hknown
      -- the copy gets known as it is returned
      refine ⟨heap', Function.update known' heap.length (some items'), ?_,
        ⟨fun address items hmem => ?_, fun address hlt => ?_, by omega, fun address hlt => ?_⟩, ?_⟩
      · rw [mergeDicts, hsub _ _ hbaseKnown, Option.bind_some, hsub _ _ hoverrideKnown, Option.bind_some, hloop,
          Option.map_some]
      · by_cases heq : address = heap.length
        · subst heq
          rw [Function.update_self] at hmem
          exact hmem ▸ hcopying.copy
        · rw [Function.update_of_ne heq] at hmem
          exact hcopying.sub address items hmem
      · rw [hkept address (by omega) (by omega), List.getElem?_append_left hlt]
      · rw [Function.update_of_ne (by omega), hknown address (by omega)]
      · refine denotes_object.mpr ⟨heap.length, items', rfl, Function.update_self .., hdenotes.mono ?_⟩
        intro address items hmem
        have hne : address ≠ heap.length := by
          rintro rfl
          rw [hcopying.unknown] at hmem
          cases hmem
        rw [Function.update_of_ne hne, hmem]

/-- **`_merge_dicts` on references** returns a new dictionary that stands for the
merge, and leaves every dictionary that was there as it was. -/
theorem mergeDicts_refines {base override : List (String × Json)} {baseAddress overrideAddress fuel : ℕ}
    (hfuel : sizeOf (Json.object override) ≤ fuel) (hbase : Denotes heap.all (.object base) (.dict baseAddress))
    (hoverride : Denotes heap.all (.object override) (.dict overrideAddress)) :
    ∃ heap', mergeDicts fuel heap baseAddress overrideAddress = some (heap', heap.length) ∧
      (∀ address < heap.length, heap'[address]? = heap[address]?) ∧
      Denotes heap'.all (.object (Json.mergeDicts base override)) (.dict heap.length) := by
  obtain ⟨heap', known', heq, hgrown, hdenotes⟩ :=
    merges _ override rfl fuel hfuel heap heap.all base _ _ (fun _ _ h => h) hbase hoverride
  exact ⟨heap', heq, hgrown.kept, denotes_mono hgrown.sub _ _ hdenotes⟩

end DictHeap

/-! ### The local override -/

/-- **Path by path.**  What a merge has at a path that is not empty: a value of the
override that is no dictionary, or a dictionary of it where the base has none; the
merge of the two where both have one; nothing where the override stops on the way;
else what the base has.  Merging again changes nothing, and nor does an override
that is empty.  On references, neither argument is touched. -/
theorem JsonObject.mergeDicts_path_by_path (a b : JsonObject) :
    (∀ key keys,
      let path := key :: keys
      (∀ v, b.atPath path = some v → v.isObject = false → (a.mergeDicts b).atPath path = some v) ∧
      (∀ override, b.atPath path = some (.object override) →
        (∀ base, a.atPath path ≠ some (.object base)) →
        (a.mergeDicts b).atPath path = some (.object override)) ∧
      (∀ base override, a.atPath path = some (.object base) → b.atPath path = some (.object override) →
        (a.mergeDicts b).atPath path = some (.object (Json.mergeDicts base override))) ∧
      (∀ start v, start <+: path → start ≠ path → b.atPath start = some v → v.isObject = false →
        (a.mergeDicts b).atPath path = none) ∧
      (b.atPath path = none →
        (∀ start v, start <+: path → start ≠ path → b.atPath start = some v → v.isObject = true) →
        (a.mergeDicts b).atPath path = a.atPath path)) ∧
    (a.mergeDicts b).mergeDicts b = a.mergeDicts b ∧
    a.mergeDicts .empty = a ∧
    ∀ (heap : DictHeap) (baseAddress overrideAddress : ℕ),
      DictHeap.Denotes heap.all a.json (.dict baseAddress) →
      DictHeap.Denotes heap.all b.json (.dict overrideAddress) →
      ∀ fuel, sizeOf b.json ≤ fuel →
        ∃ heap' : DictHeap, DictHeap.mergeDicts fuel heap baseAddress overrideAddress = some (heap', heap.length) ∧
          (∀ address < heap.length, heap'[address]? = heap[address]?) ∧
          DictHeap.Denotes heap'.all (a.mergeDicts b).json (.dict heap.length) := by
  have hmerge : (a.mergeDicts b).json = Json.mergeValue (some a.json) b.json := Json.mergeValue_objects.symm
  refine ⟨fun key keys => ?_, ?_, ?_, fun heap baseAddress overrideAddress hbase hoverride fuel hfuel =>
    DictHeap.mergeDicts_refines hfuel hbase hoverride⟩
  · intro path
    obtain ⟨hhas, hstops, hkeeps⟩ := Json.atPath_mergeValue path (some a.json) b.json b.uniqueKeys
    rw [← hmerge] at hhas hstops hkeeps
    refine ⟨fun v hv hobject => ?_, fun override hv hbase => ?_, fun base override hbase hv => ?_, hstops, hkeeps⟩
    · rw [atPath, hhas v hv, Json.mergeValue_of_not_object hobject]
    · rw [atPath, hhas _ hv]
      exact congrArg some (Json.mergeValue_replaces hbase)
    · rw [atPath, hhas _ hv, Option.bind_some, show a.json.atPath path = _ from hbase, Json.mergeValue_objects]
  · have htwice := Json.mergeValue_twice b.json b.uniqueKeys (some a.json)
    rw [← hmerge] at htwice
    exact JsonObject.ext (Json.object.inj (Json.mergeValue_objects.symm.trans htwice))
  · exact JsonObject.ext (by simp [mergeDicts, empty, Json.mergeDicts])

end TtsPool
