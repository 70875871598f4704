/-
# Runs of a step function under a side condition

A run is a `foldl` of a step function over the list of actions taken.  A
scheduler or a protocol is rarely right for every list of actions: its callers
promise something at each step, about the state they find and the action they
take.  `Along step P s as` is that promise kept at every step of the run, and
`Along.foldl_of` the induction it allows: what one promised step preserves, a
promised run preserves.  `trace` lists what is to be told of the steps of a run, of
each what it is told by the state it starts from.  Where that is a step of another
system, and every step is seen there as the step it tells of, the run is seen as the
run it tells of (`foldl_trace`), and keeps the promises made there (`Along.trace`).
-/

import Mathlib.Data.List.Basic
import Mathlib.Data.List.Induction
import Mathlib.Order.Bounds.Basic
import Mathlib.Order.MinMax

namespace TtsPool
namespace Run

variable {σ α : Type*} {step : σ → α → σ} {P Q : σ → α → Prop}

/-- `P` holds of every state and the action taken there, along a run. -/
def Along (step : σ → α → σ) (P : σ → α → Prop) : σ → List α → Prop
  | _, [] => True
  | s, a :: as => P s a ∧ Along step P (step s a) as

instance [∀ s a, Decidable (P s a)] : ∀ s as, Decidable (Along step P s as)
  | _, [] => isTrue trivial
  | s, a :: as =>
    have := instDecidableAlong (step s a) as
    inferInstanceAs (Decidable (P s a ∧ _))

/-- **The run rule.**  What one promised step preserves, a promised run
preserves. -/
theorem Along.foldl_of {I : σ → Prop} {s : σ} {as : List α} (h : Along step P s as) (hs : I s)
    (hstep : ∀ s a, I s → P s a → I (step s a)) : I (as.foldl step s) := by
  induction as generalizing s with
  | nil => exact hs
  | cons a as ih => exact ih h.2 (hstep s a hs h.1)

/-- A promise nobody can break. -/
theorem along_of_forall (h : ∀ s a, P s a) (s : σ) (as : List α) : Along step P s as := by
  induction as generalizing s with
  | nil => trivial
  | cons a as ih => exact ⟨h s a, ih (step s a)⟩

theorem along_append {s : σ} {as bs : List α} :
    Along step P s (as ++ bs) ↔ Along step P s as ∧ Along step P (as.foldl step s) bs := by
  induction as generalizing s with
  | nil => simp [Along]
  | cons a as ih => simp [Along, ih, and_assoc]

/-- The promise read at one step of the run. -/
theorem along_iff {s : σ} {as : List α} :
    Along step P s as ↔ ∀ pre a post, as = pre ++ a :: post → P (pre.foldl step s) a := by
  constructor
  · rintro h pre a post rfl
    exact (along_append.mp h).2.1
  · intro h
    induction as generalizing s with
    | nil => trivial
    | cons a as ih =>
      exact ⟨h [] a as rfl, ih fun pre b post hsplit => h (a :: pre) b post (by simp [hsplit])⟩

/-- **The high-water rule.**  A mark that every step raises to the value it finds
afterwards is the greatest value of the run. -/
theorem isGreatest_mark {β : Type*} [LinearOrder β] {I : σ → Prop} {f m : σ → β} {s : σ} (hs : I s)
    (hinit : m s = f s) (hkeep : ∀ s a, I s → I (step s a))
    (hstep : ∀ s a, I s → m (step s a) = max (m s) (f (step s a))) (as : List α) :
    IsGreatest {b | ∃ early, early <+: as ∧ b = f (early.foldl step s)} (m (as.foldl step s)) := by
  have hreach : ∀ as : List α, I (as.foldl step s) := fun as =>
    (along_of_forall (P := fun _ _ => True) (fun _ _ => trivial) s as).foldl_of hs fun s a h _ => hkeep s a h
  induction as using List.reverseRecOn with
  | nil => exact ⟨⟨[], List.prefix_rfl, hinit⟩, fun b ⟨early, hprefix, hb⟩ => by
      rw [hb, List.prefix_nil.mp hprefix]
      exact hinit.ge⟩
  | append_singleton as a ih =>
    obtain ⟨⟨best, hbest, hmark⟩, hupper⟩ := ih
    rw [List.foldl_append, List.foldl_cons, List.foldl_nil, hstep _ a (hreach as)]
    refine ⟨?_, fun b ⟨early, hprefix, hb⟩ => ?_⟩
    · rcases max_choice (m (as.foldl step s)) (f (step (as.foldl step s) a)) with hmax | hmax
      · exact ⟨best, hbest.trans (List.prefix_append _ _), hmax.trans hmark⟩
      · exact ⟨as ++ [a], List.prefix_rfl, hmax.trans (by simp)⟩
    · rcases List.prefix_concat_iff.mp hprefix with rfl | hshort
      · exact hb ▸ le_max_of_le_right (by simp)
      · exact le_max_of_le_left (hupper ⟨early, hshort, hb⟩)

theorem Along.and {s : σ} {as : List α} (hP : Along step P s as) (hQ : Along step Q s as) :
    Along step (fun s a => P s a ∧ Q s a) s as := by
  induction as generalizing s with
  | nil => trivial
  | cons a as ih => exact ⟨⟨hP.1, hQ.1⟩, ih hP.2 hQ.2⟩

theorem Along.mono {s : σ} {as : List α} (h : Along step P s as) (hPQ : ∀ s a, P s a → Q s a) :
    Along step Q s as := by
  induction as generalizing s with
  | nil => trivial
  | cons a as ih => exact ⟨hPQ s a h.1, ih h.2⟩

/-- What is told of the steps of a run, in order. -/
def trace {β : Type*} (step : σ → α → σ) (tells : σ → α → Option β) : σ → List α → List β
  | _, [] => []
  | s, a :: as => (tells s a).toList ++ trace step tells (step s a) as

section Projection

variable {ρ β : Type*} (see : σ → ρ) (step' : ρ → β → ρ) {tells : σ → α → Option β} {I : σ → Prop}
  {P' : ρ → β → Prop} {s : σ} {as : List α}

/-- **A run seen in another system.**  Where every step is seen as the step it tells
of, or as none, a run is seen as the run it tells of. -/
theorem foldl_trace (hkeep : ∀ s a, I s → I (step s a))
    (hsee : ∀ s a, I s → see (step s a) = (tells s a).elim (see s) (step' (see s))) (hs : I s) :
    see (as.foldl step s) = (trace step tells s as).foldl step' (see s) := by
  induction as generalizing s with
  | nil => rfl
  | cons a as ih =>
    rw [List.foldl_cons, ih (hkeep s a hs), hsee s a hs, trace]
    cases tells s a <;> rfl

/-- What is promised of the steps that tell is promised of the run they tell of. -/
theorem Along.trace (hkeep : ∀ s a, I s → I (step s a))
    (hsee : ∀ s a, I s → see (step s a) = (tells s a).elim (see s) (step' (see s))) (hs : I s)
    (h : Along step P s as) (hP : ∀ s a, I s → P s a → ∀ b ∈ tells s a, P' (see s) b) :
    Along step' P' (see s) (trace step tells s as) := by
  induction as generalizing s with
  | nil => trivial
  | cons a as ih =>
    obtain ⟨ha, hrest⟩ := h
    have hlater := ih (hkeep s a hs) hrest
    have hone := hsee s a hs
    rw [Run.trace]
    cases htells : tells s a with
    | none => rwa [hone, htells] at hlater
    | some b =>
      refine ⟨hP s a hs ha b htells, ?_⟩
      rwa [hone, htells] at hlater

end Projection

end Run
end TtsPool
