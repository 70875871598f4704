/-
# Dictionaries in insertion order

A finite map kept as the list of its entries, oldest key first, with the keys
pairwise distinct.  Storing under a present key replaces the value where it
stands; storing under an absent key puts it last; `filter` and `mapValues`
keep the order.  The distinctness of the keys is a field, so a dictionary
holding a key twice cannot be built and no lemma has to assume it away.

Beside the lookup laws, `Dict.sum` adds up a function of the entries in any
commutative monoid.  `sum_set`, `sum_set_new` and `sum_erase` say how one
update moves such a sum, which is what an accounting invariant over a
dictionary needs: a count in `ℕ`, a potential in an ordered field and the
multiset of everything stored are the same three lemmas.
-/

import Mathlib.Algebra.BigOperators.Group.List.Basic
import Mathlib.Algebra.Order.BigOperators.Group.List
import Mathlib.Algebra.Order.Group.Multiset
import Mathlib.Data.List.Nodup
import Mathlib.Tactic.Abel

namespace TtsPool

/-- A finite map as the list of its entries, in insertion order. -/
structure Dict (α β : Type*) where
  entries : List (α × β)
  nodup : (entries.map Prod.fst).Nodup

namespace Dict

variable {α β γ M : Type*}

@[ext] theorem ext {d e : Dict α β} (h : d.entries = e.entries) : d = e := by
  cases d
  cases e
  simp_all

/-- The dictionary with no entry. -/
def empty : Dict α β := ⟨[], List.nodup_nil⟩

@[simp] theorem entries_empty : (empty : Dict α β).entries = [] := rfl

/-- The keys, oldest first. -/
def keys (d : Dict α β) : List α := d.entries.map Prod.fst

/-- The values, in the order of their keys. -/
def values (d : Dict α β) : List β := d.entries.map Prod.snd

/-- The number of entries. -/
def size (d : Dict α β) : ℕ := d.entries.length

/-- No entry at all. -/
def isEmpty (d : Dict α β) : Bool := d.entries.isEmpty

/-- The entries whose key and value pass the test. -/
def filter (p : α → β → Bool) (d : Dict α β) : Dict α β :=
  ⟨d.entries.filter fun e => p e.1 e.2,
    d.nodup.sublist (List.Sublist.map _ List.filter_sublist)⟩

/-- Every value replaced by its image, the keys where they stand. -/
def mapValues (f : β → γ) (d : Dict α β) : Dict α γ :=
  ⟨d.entries.map fun e => (e.1, f e.2), by simpa [Function.comp_def] using d.nodup⟩

/-- The sum of a function of the entries. -/
def sum [AddCommMonoid M] (f : α → β → M) (d : Dict α β) : M :=
  (d.entries.map fun e => f e.1 e.2).sum

/-! ### Lookup and update -/

variable [DecidableEq α]

/-- The value stored under a key. -/
def get? (d : Dict α β) (k : α) : Option β :=
  (d.entries.find? fun e => e.1 = k).map Prod.snd

/-- Store a value under a key: in place when the key is present, last when it
is not. -/
def set (d : Dict α β) (k : α) (v : β) : Dict α β :=
  if h : k ∈ d.entries.map Prod.fst then
    ⟨d.entries.map fun e => if e.1 = k then (k, v) else e, by
      have : (d.entries.map fun e => if e.1 = k then (k, v) else e).map Prod.fst =
          d.entries.map Prod.fst := by
        rw [List.map_map]
        refine List.map_congr_left fun e _ => ?_
        by_cases he : e.1 = k <;> simp [he]
      exact this ▸ d.nodup⟩
  else
    ⟨d.entries ++ [(k, v)], by
      rw [List.map_append, List.nodup_append]
      refine ⟨d.nodup, by simp, ?_⟩
      rintro a ha b hb rfl
      obtain rfl : a = k := List.mem_singleton.mp hb
      exact h ha⟩

/-- Remove a key, if it is there. -/
def erase (d : Dict α β) (k : α) : Dict α β := d.filter fun a _ => a ≠ k

/-- Replace the value under a key by its image, if the key is there. -/
def modify (d : Dict α β) (k : α) (f : β → β) : Dict α β :=
  match d.get? k with
  | none => d
  | some v => d.set k (f v)

/-- A key holds a value iff the pair is an entry. -/
theorem get?_eq_some_iff {d : Dict α β} {k : α} {v : β} :
    d.get? k = some v ↔ (k, v) ∈ d.entries := by
  obtain ⟨es, hes⟩ := d
  simp only [get?]
  induction es with
  | nil => simp
  | cons e es ih =>
    obtain ⟨a, b⟩ := e
    simp only [List.map_cons, List.nodup_cons] at hes
    by_cases ha : a = k
    · subst ha
      have hnot : (a, v) ∉ es := fun hm => hes.1 (List.mem_map.mpr ⟨_, hm, rfl⟩)
      simp [hnot, eq_comm]
    · have hne : (k, v) ≠ (a, b) := fun he => ha (congrArg Prod.fst he).symm
      simp [ha, ih hes.2, hne]

/-- A key holds nothing iff it is in no entry. -/
theorem get?_eq_none_iff {d : Dict α β} {k : α} :
    d.get? k = none ↔ ∀ v, (k, v) ∉ d.entries := by
  rw [Option.eq_none_iff_forall_ne_some]
  exact forall_congr' fun v => not_congr get?_eq_some_iff

theorem mem_keys_iff {d : Dict α β} {k : α} : k ∈ d.entries.map Prod.fst ↔ ∃ v, d.get? k = some v := by
  simp only [get?_eq_some_iff, List.mem_map, Prod.exists, exists_and_right, exists_eq_right]

@[simp] theorem get?_empty (k : α) : (empty : Dict α β).get? k = none := rfl

/-- What an update stores, and what it leaves. -/
theorem mem_entries_set {d : Dict α β} {k a : α} {v b : β} :
    (a, b) ∈ (d.set k v).entries ↔ a = k ∧ b = v ∨ a ≠ k ∧ (a, b) ∈ d.entries := by
  unfold set
  split_ifs with h
  · obtain ⟨e, he, hek⟩ := List.mem_map.mp h
    simp only [List.mem_map]
    constructor
    · rintro ⟨e', he', heq⟩
      by_cases hk : e'.1 = k
      · simp only [hk, if_true, Prod.mk.injEq] at heq
        exact .inl ⟨heq.1.symm, heq.2.symm⟩
      · simp only [hk, if_false] at heq
        subst heq
        exact .inr ⟨hk, he'⟩
    · rintro (⟨rfl, rfl⟩ | ⟨hne, hm⟩)
      · exact ⟨e, he, by simp [hek]⟩
      · exact ⟨(a, b), hm, by simp [hne]⟩
  · simp only [List.mem_append, List.mem_singleton, Prod.mk.injEq]
    constructor
    · rintro (hm | heq)
      · exact .inr ⟨fun hk => h (List.mem_map.mpr ⟨_, hm, hk⟩), hm⟩
      · exact .inl heq
    · rintro (heq | ⟨-, hm⟩)
      · exact .inr heq
      · exact .inl hm

@[simp] theorem get?_set_self (d : Dict α β) (k : α) (v : β) : (d.set k v).get? k = some v :=
  get?_eq_some_iff.mpr (mem_entries_set.mpr (.inl ⟨rfl, rfl⟩))

theorem get?_set_of_ne (d : Dict α β) {k a : α} (h : a ≠ k) (v : β) :
    (d.set k v).get? a = d.get? a := by
  ext b
  simp [get?_eq_some_iff, mem_entries_set, h]

theorem modify_of_get?_eq_none {d : Dict α β} {k : α} (h : d.get? k = none) (f : β → β) :
    d.modify k f = d := by
  simp [modify, h]

theorem modify_of_get?_eq_some {d : Dict α β} {k : α} {v : β} (h : d.get? k = some v) (f : β → β) :
    d.modify k f = d.set k (f v) := by
  simp [modify, h]

theorem get?_modify (d : Dict α β) (k a : α) (f : β → β) :
    (d.modify k f).get? a = if a = k then (d.get? k).map f else d.get? a := by
  cases h : d.get? k with
  | none =>
    rw [modify_of_get?_eq_none h]
    split_ifs with hk
    · rw [hk, h, Option.map_none]
    · rfl
  | some v =>
    rw [modify_of_get?_eq_some h]
    split_ifs with hk
    · rw [hk, get?_set_self, Option.map_some]
    · rw [get?_set_of_ne d hk]

theorem get?_filter {d : Dict α β} {p : α → β → Bool} {k : α} {v : β} :
    (d.filter p).get? k = some v ↔ d.get? k = some v ∧ p k v = true := by
  simp [get?_eq_some_iff, filter]

theorem get?_mapValues (d : Dict α β) (f : β → γ) (k : α) :
    (d.mapValues f).get? k = (d.get? k).map f := by
  ext c
  simp only [get?_eq_some_iff, mapValues, List.mem_map, Prod.mk.injEq, Option.map_eq_some_iff]
  constructor
  · rintro ⟨e, he, rfl, rfl⟩
    exact ⟨e.2, he, rfl⟩
  · rintro ⟨b, hb, rfl⟩
    exact ⟨(k, b), hb, rfl, rfl⟩

@[simp] theorem get?_erase_self (d : Dict α β) (k : α) : (d.erase k).get? k = none := by
  rw [get?_eq_none_iff]
  simp [erase, filter]

theorem get?_erase_of_ne (d : Dict α β) {k a : α} (h : a ≠ k) : (d.erase k).get? a = d.get? a := by
  ext b
  simp [erase, get?_filter, h]

/-- Removing an absent key changes nothing. -/
theorem erase_of_get?_eq_none {d : Dict α β} {k : α} (h : d.get? k = none) : d.erase k = d := by
  refine Dict.ext (List.filter_eq_self.mpr fun e he => ?_)
  have hk : e.1 ≠ k := by
    rintro rfl
    exact get?_eq_none_iff.mp h e.2 he
  simpa using hk

/-! ### How an update moves a sum -/

/-- The entry of a present key splits the entries in two parts without it. -/
theorem exists_split {d : Dict α β} {k : α} {v : β} (h : d.get? k = some v) :
    ∃ pre post, d.entries = pre ++ (k, v) :: post ∧
      (∀ e ∈ pre, e.1 ≠ k) ∧ ∀ e ∈ post, e.1 ≠ k := by
  obtain ⟨pre, post, he⟩ := List.append_of_mem (get?_eq_some_iff.mp h)
  have hn := d.nodup
  rw [he, List.map_append, List.map_cons, List.nodup_append, List.nodup_cons] at hn
  obtain ⟨-, ⟨hpost, -⟩, hpre⟩ := hn
  refine ⟨pre, post, he, fun e hm hk => ?_, fun e hm hk => ?_⟩
  · exact hpre e.1 (List.mem_map_of_mem hm) k (List.mem_cons_self ..) hk
  · exact hpost (List.mem_map.mpr ⟨e, hm, hk⟩)

/-- Storing under a present key replaces the value where it stands. -/
theorem entries_set_of_split {d : Dict α β} {k : α} {v : β} {pre post : List (α × β)}
    (he : d.entries = pre ++ (k, v) :: post) (hpre : ∀ e ∈ pre, e.1 ≠ k)
    (hpost : ∀ e ∈ post, e.1 ≠ k) (w : β) :
    (d.set k w).entries = pre ++ (k, w) :: post := by
  have hmem : k ∈ d.entries.map Prod.fst := by simp [he]
  have hkeep : ∀ es : List (α × β), (∀ e ∈ es, e.1 ≠ k) →
      es.map (fun e => if e.1 = k then (k, w) else e) = es := by
    intro es hes
    exact (List.map_congr_left fun e hm => by simp [hes e hm]).trans (List.map_id es)
  unfold set
  rw [dif_pos hmem]
  simp only [he, List.map_append, List.map_cons, if_true]
  rw [hkeep pre hpre, hkeep post hpost]

/-- Storing under an absent key appends the entry. -/
theorem entries_set_of_get?_eq_none {d : Dict α β} {k : α} (h : d.get? k = none) (v : β) :
    (d.set k v).entries = d.entries ++ [(k, v)] := by
  have hmem : k ∉ d.entries.map Prod.fst := by
    rw [mem_keys_iff]
    simp [h]
  unfold set
  rw [dif_neg hmem]

/-- Removing a present key leaves the two parts around its entry. -/
theorem entries_erase_of_split {d : Dict α β} {k : α} {v : β} {pre post : List (α × β)}
    (he : d.entries = pre ++ (k, v) :: post) (hpre : ∀ e ∈ pre, e.1 ≠ k)
    (hpost : ∀ e ∈ post, e.1 ≠ k) : (d.erase k).entries = pre ++ post := by
  have hkeep : ∀ es : List (α × β), (∀ e ∈ es, e.1 ≠ k) →
      es.filter (fun e => decide (e.1 ≠ k)) = es := by
    intro es hes
    exact List.filter_eq_self.mpr fun e hm => by simpa using hes e hm
  simp only [erase, filter, he, List.filter_append, List.filter_cons, ne_eq, not_true_eq_false,
    decide_false, Bool.false_eq_true, if_false]
  exact congrArg₂ _ (hkeep pre hpre) (hkeep post hpost)

variable [AddCommMonoid M]

/-- **Replacing a value** moves a sum by the difference of the two. -/
theorem sum_set {d : Dict α β} {k : α} {v : β} (h : d.get? k = some v) (f : α → β → M) (w : β) :
    (d.set k w).sum f + f k v = d.sum f + f k w := by
  obtain ⟨pre, post, he, hpre, hpost⟩ := exists_split h
  simp only [sum, entries_set_of_split he hpre hpost, he, List.map_append, List.map_cons,
    List.sum_append, List.sum_cons]
  abel

/-- **A new key** adds its own summand. -/
theorem sum_set_new {d : Dict α β} {k : α} (h : d.get? k = none) (f : α → β → M) (v : β) :
    (d.set k v).sum f = d.sum f + f k v := by
  simp [sum, entries_set_of_get?_eq_none h]

/-- **Removing a key** takes its summand away. -/
theorem sum_erase {d : Dict α β} {k : α} {v : β} (h : d.get? k = some v) (f : α → β → M) :
    (d.erase k).sum f + f k v = d.sum f := by
  obtain ⟨pre, post, he, hpre, hpost⟩ := exists_split h
  simp only [sum, entries_erase_of_split he hpre hpost, he, List.map_append, List.map_cons,
    List.sum_append, List.sum_cons]
  abel

theorem size_erase {d : Dict α β} {k : α} {v : β} (h : d.get? k = some v) :
    (d.erase k).size + 1 = d.size := by
  obtain ⟨pre, post, he, hpre, hpost⟩ := exists_split h
  simp only [size, entries_erase_of_split he hpre hpost, he, List.length_append, List.length_cons]
  omega

omit [DecidableEq α] in
/-- Entries worth nothing may be dropped. -/
theorem sum_filter_of_eq_zero (d : Dict α β) {p : α → β → Bool} (f : α → β → M)
    (h : ∀ e ∈ d.entries, p e.1 e.2 = false → f e.1 e.2 = 0) : (d.filter p).sum f = d.sum f := by
  obtain ⟨es, hes⟩ := d
  simp only [sum, filter] at h ⊢
  clear hes
  induction es with
  | nil => rfl
  | cons e es ih =>
    have ih := ih fun a ha => h a (List.mem_cons_of_mem _ ha)
    by_cases he : p e.1 e.2 = true
    · simp [he, ih]
    · have hz := h e (List.mem_cons_self ..) (by simpa using he)
      simp [he, ih, hz]

/-- A sum in which only one key counts. -/
theorem sum_eq_of_others_zero {d : Dict α β} {k : α} {v : β} (h : d.get? k = some v) (f : α → β → M)
    (hzero : ∀ a b, d.get? a = some b → a ≠ k → f a b = 0) : d.sum f = f k v := by
  have hrest : (d.erase k).sum f = 0 := by
    refine List.sum_eq_zero fun x hx => ?_
    obtain ⟨e, he, rfl⟩ := List.mem_map.mp hx
    obtain ⟨hm, hne⟩ := List.mem_filter.mp he
    exact hzero e.1 e.2 (get?_eq_some_iff.mpr hm) (of_decide_eq_true hne)
  rw [← sum_erase h, hrest, zero_add]

omit [DecidableEq α] in
/-- Dropping entries does not raise a sum of nonnegative terms. -/
theorem sum_filter_le [PartialOrder M] [IsOrderedAddMonoid M] (d : Dict α β) {p : α → β → Bool}
    (f : α → β → M) (h : ∀ e ∈ d.entries, 0 ≤ f e.1 e.2) : (d.filter p).sum f ≤ d.sum f := by
  refine List.Sublist.sum_le_sum (List.filter_sublist.map _) fun x hx => ?_
  obtain ⟨e, he, rfl⟩ := List.mem_map.mp hx
  exact h e he

omit [DecidableEq α] in
theorem sum_mapValues (d : Dict α β) (g : β → γ) (f : α → γ → M) :
    (d.mapValues g).sum f = d.sum fun a b => f a (g b) := by
  simp [sum, mapValues, Function.comp_def]

omit [DecidableEq α] in
/-- The entries themselves, as a sum. -/
theorem sum_singleton (d : Dict α β) : (d.sum fun k v => ({(k, v)} : Multiset (α × β))) = d.entries := by
  obtain ⟨es, hes⟩ := d
  simp only [sum]
  clear hes
  induction es with
  | nil => rfl
  | cons e es ih =>
    rw [List.map_cons, List.sum_cons, ih, Multiset.singleton_add, Multiset.cons_coe]

omit [DecidableEq α] in
/-- The size of a sum of multisets. -/
theorem card_sum (d : Dict α β) (f : α → β → Multiset γ) :
    (d.sum f).card = d.sum fun k v => (f k v).card := by
  simp only [sum]
  induction d.entries with
  | nil => rfl
  | cons e es ih => rw [List.map_cons, List.sum_cons, Multiset.card_add, ih, List.map_cons, List.sum_cons]

omit [DecidableEq α] in
/-- How many of a sum of multisets there are of one kind. -/
theorem countP_sum (d : Dict α β) (f : α → β → Multiset γ) (p : γ → Prop) [DecidablePred p] :
    (d.sum f).countP p = d.sum fun k v => (f k v).countP p := by
  simp only [sum]
  induction d.entries with
  | nil => rfl
  | cons e es ih => rw [List.map_cons, List.sum_cons, Multiset.countP_add, ih, List.map_cons, List.sum_cons]

/-- What a sum of multisets holds. -/
theorem mem_sum {d : Dict α β} {f : α → β → Multiset γ} {x : γ} :
    x ∈ d.sum f ↔ ∃ k v, d.get? k = some v ∧ x ∈ f k v := by
  have hlist : ∀ es : List (α × β), x ∈ (es.map fun e => f e.1 e.2).sum ↔ ∃ e ∈ es, x ∈ f e.1 e.2 := by
    intro es
    induction es with
    | nil => simp
    | cons e es ih => simp [ih]
  simp only [sum, hlist, Prod.exists, get?_eq_some_iff]

end Dict
end TtsPool
