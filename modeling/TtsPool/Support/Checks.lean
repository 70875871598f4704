/-
# Sequences of checks

A validator reads the values of a document one after the other and stops at the
first that it cannot take.  What becomes of each value is its `Fate`: it is taken;
it is taken although it should not have been (it leaks); it is refused in the way
the callers expect; or it escapes as an error they do not.  `Follows` says that a
computation goes as a list of fates does, and the rules put the list together as
the computation is put together, one value after another.

What is gained is `Follows.acceptable_iff`: such a computation fails as expected or
gives a result that fits, if and only if the first value that stops it is refused, or
none does and none leaks.
-/

import Mathlib.Logic.Basic
import Mathlib.Tactic.Common

namespace TtsPool

/-- What becomes of a value that is checked. -/
inductive Fate where
  | taken
  | leaks
  | refused
  | escapes
deriving DecidableEq

namespace Fate

/-- The computation ends at the value. -/
def stops : Fate → Bool
  | .taken | .leaks => false
  | .refused | .escapes => true

/-- The first value that stops the computation is refused; or none stops it, and none
leaks. -/
def Sound (fates : List Fate) : Prop :=
  match fates.find? stops with
  | some fate => fate = .refused
  | none => .leaks ∉ fates

instance (fates : List Fate) : Decidable (Sound fates) := by
  unfold Sound
  split <;> infer_instance

end Fate

universe u v

variable {E : Type u} {α β γ : Type v} {expected : E → Prop} {clean : Prop} {x : Except E α} {Fits : α → Prop}
  {fates : List Fate}

theorem ok_of_bind {k : α → Except E β} {b : β} (h : x >>= k = .ok b) : ∃ a, x = .ok a ∧ k a = .ok b := by
  cases x with
  | error e => cases h
  | ok a => exact ⟨a, rfl, h⟩

/-- A computation goes as the checks of its values do.  `clean` says that nothing
leaked before it. -/
def Follows (expected : E → Prop) (clean : Prop) (x : Except E α) (Fits : α → Prop) (fates : List Fate) : Prop :=
  match fates.find? Fate.stops with
  | some fate => ∃ e, x = .error e ∧ (expected e ↔ fate = .refused)
  | none => ∃ a, x = .ok a ∧ (Fits a ↔ clean ∧ .leaks ∉ fates)

/-- It fails as expected, or it gives a result that fits. -/
def Acceptable (expected : E → Prop) (Fits : α → Prop) : Except E α → Prop
  | .error e => expected e
  | .ok a => Fits a

namespace Follows

/-- **When a computation is acceptable**: when its checks are sound. -/
theorem acceptable_iff (h : Follows expected True x Fits fates) : Acceptable expected Fits x ↔ Fate.Sound fates := by
  unfold Follows at h
  unfold Fate.Sound
  split at h
  · obtain ⟨e, rfl, hiff⟩ := h
    exact hiff
  · obtain ⟨a, rfl, hiff⟩ := h
    exact hiff.trans (by rw [true_and])

/-- Where nothing can leak, every result fits. -/
theorem fits (h : Follows expected True x Fits fates) (hleaks : .leaks ∉ fates) {a : α} (hx : x = .ok a) :
    Fits a := by
  unfold Follows at h
  split at h
  · obtain ⟨e, he, -⟩ := h
    cases hx.symm.trans he
  · obtain ⟨b, hb, hiff⟩ := h
    obtain rfl := Except.ok.inj (hb.symm.trans hx)
    exact hiff.mpr ⟨trivial, hleaks⟩

theorem congr {Fits' : α → Prop} (h : Follows expected clean x Fits fates)
    (hfits : ∀ a, x = .ok a → (Fits' a ↔ Fits a)) : Follows expected clean x Fits' fates := by
  unfold Follows at h ⊢
  split at h
  · exact h
  · obtain ⟨a, ha, hiff⟩ := h
    exact ⟨a, ha, (hfits a ha).trans hiff⟩

/-- After values none of which leaked. -/
theorem after (h : Follows expected True x Fits fates) (hclean : clean) : Follows expected clean x Fits fates := by
  rwa [eq_true hclean]

/-- Nothing is checked. -/
theorem done {a : α} (h : Fits a ↔ clean) : Follows expected clean (.ok a) Fits [] :=
  ⟨a, rfl, h.trans (by simp)⟩

/-- A value that is taken. -/
theorem taken {a : α} (h : Fits a ↔ clean) : Follows expected clean (.ok a) Fits [.taken] :=
  ⟨a, rfl, h.trans (by simp)⟩

/-- A value that is taken before the rest. -/
theorem skip (h : Follows expected clean x Fits fates) : Follows expected clean x Fits (.taken :: fates) := by
  unfold Follows at h ⊢
  rw [List.find?_cons_of_neg (by simp [Fate.stops])]
  simpa using h

/-- A value that leaks. -/
theorem leaks {a : α} (h : ¬ Fits a) : Follows expected clean (.ok a) Fits [.leaks] :=
  ⟨a, rfl, iff_of_false h (by simp)⟩

/-- A value that is refused. -/
theorem refused {e : E} (h : expected e) {rest : List Fate} :
    Follows expected clean (.error e) Fits (.refused :: rest) :=
  ⟨e, rfl, iff_of_true h rfl⟩

/-- A value that escapes. -/
theorem escapes {e : E} (h : ¬ expected e) {rest : List Fate} :
    Follows expected clean (.error e) Fits (.escapes :: rest) :=
  ⟨e, rfl, iff_of_false h (by simp)⟩

/-- **One computation after another.** -/
theorem andThen {k : α → Except E β} {Good : β → Prop} {rest : List Fate}
    (hx : Follows expected True x Fits fates)
    (hk : ∀ a, x = .ok a → Follows expected (clean ∧ Fits a) (k a) Good rest) :
    Follows expected clean (x >>= k) Good (fates ++ rest) := by
  unfold Follows at hx
  split at hx
  next fate hfind =>
    obtain ⟨e, rfl, hiff⟩ := hx
    unfold Follows
    rw [List.find?_append, hfind]
    exact ⟨e, rfl, hiff⟩
  next hfind =>
    obtain ⟨a, rfl, hiff⟩ := hx
    have hrest := hk a rfl
    unfold Follows at hrest ⊢
    rw [List.find?_append, hfind, Option.none_or]
    split at hrest
    · exact hrest
    · obtain ⟨b, heq, hgood⟩ := hrest
      refine ⟨b, heq, hgood.trans ?_⟩
      rw [hiff, List.mem_append, not_or]
      tauto

/-- One value, and a computation after it. -/
theorem first {k : α → Except E β} {Good : β → Prop} {fate : Fate} {rest : List Fate}
    (hx : Follows expected True x Fits [fate])
    (hk : ∀ a, x = .ok a → Follows expected (clean ∧ Fits a) (k a) Good rest) :
    Follows expected clean (x >>= k) Good (fate :: rest) :=
  hx.andThen hk

/-- A computation, and what is made of its result. -/
theorem last {k : α → Except E β} {Good : β → Prop} (hx : Follows expected True x Fits fates)
    (hk : ∀ a, x = .ok a → ∃ b, k a = .ok b ∧ (Good b ↔ clean ∧ Fits a)) :
    Follows expected clean (x >>= k) Good fates := by
  rw [← List.append_nil fates]
  refine hx.andThen fun a ha => ?_
  obtain ⟨b, hb, hgood⟩ := hk a ha
  exact hb ▸ done hgood

/-- The values of a list. -/
theorem mapM {f : γ → Except E α} {fates : γ → List Fate}
    (h : ∀ c, Follows expected True (f c) Fits (fates c)) (cs : List γ) :
    Follows expected True (cs.mapM f) (fun as => ∀ a ∈ as, Fits a) (cs.flatMap fates) := by
  induction cs with
  | nil => exact done (by simp)
  | cons c cs ih =>
    rw [List.mapM_cons, List.flatMap_cons]
    refine andThen (h c) fun a _ => ?_
    exact last ih fun as _ => ⟨a :: as, rfl, by simp⟩

end Follows
end TtsPool
