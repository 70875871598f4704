/-
# A component seen by itself

A program of threads may have another one inside it: some of its tasks are the
inner program's, on a part of its state, and the others only call on it from time to
time.  What the inner program does there is a run of its own.  Its threads are not
the outer ones, which go on with other things when a call returns and come back
later.  But a thread that has nothing left to do for the inner program is nothing to
it, and the order in which threads were started means nothing, so the two agree on
the `live` threads.

`Shows` is the relation between the inner program by itself and what is seen of it
from outside, up to the threads in `held`, which the outer program has yet to start.
Each way in which the outer program can move is an action of the inner one or none.
-/

import TtsPool.Support.Threads
import Mathlib.Data.Multiset.Bind

namespace TtsPool
namespace Threads

variable {σ τ ι : Type*}

/-- The threads that have something left to do, in any order. -/
def live (threads : List (List τ)) : Multiset (List τ) := ↑(threads.filter fun tasks => !tasks.isEmpty)

@[simp] theorem live_nil : live ([] : List (List τ)) = 0 := rfl

@[simp] theorem live_append (threads threads' : List (List τ)) :
    live (threads ++ threads') = live threads + live threads' := by
  rw [live, List.filter_append, ← Multiset.coe_add, live, live]

@[simp] theorem live_done (threads : List (List τ)) : live ([] :: threads) = live threads := rfl

@[simp] theorem live_cons (task : τ) (rest : List τ) (threads : List (List τ)) :
    live ((task :: rest) :: threads) = (task :: rest) ::ₘ live threads := rfl

/-- One thread and the others. -/
theorem live_thread (tasks : List τ) (threads : List (List τ)) :
    live (tasks :: threads) = live [tasks] + live threads := live_append [tasks] threads

theorem mem_live {tasks : List τ} {threads : List (List τ)} :
    tasks ∈ live threads ↔ tasks ∈ threads ∧ tasks ≠ [] := by
  simp [live]

/-- The tasks of threads in any order. -/
def tasks (threads : Multiset (List τ)) : Multiset τ := threads.bind fun tasks => ↑tasks

@[simp] theorem tasks_add (threads threads' : Multiset (List τ)) :
    tasks (threads + threads') = tasks threads + tasks threads' := Multiset.add_bind _ _ _

/-- The tasks of the live threads are all the tasks. -/
theorem tasks_live (threads : List (List τ)) : tasks (live threads) = ↑threads.flatten := by
  induction threads with
  | nil => rfl
  | cons first threads ih =>
    rw [List.flatten_cons, ← Multiset.coe_add, ← ih, live_thread, tasks_add]
    cases first with
    | nil => rfl
    | cons task rest => simp [tasks]

/-- The inner program's state and live threads, by itself and as seen from outside. -/
structure Shows (c : Config σ τ) (s : σ) (threads : List (List τ)) (held : Multiset (List τ)) : Prop where
  state : c.state = s
  threads : live c.threads = live threads + held

namespace Shows

variable {p : Program σ τ ι} {c : Config σ τ} {s : σ} {threads threads' pre post : List (List τ)}
  {held : Multiset (List τ)} {task : τ} {rest : List τ} {e : Effect σ τ} {input : ι}

/-- Nothing happens to the inner program. -/
theorem congr (h : Shows c s threads held) (hlive : live threads' = live threads) : Shows c s threads' held :=
  ⟨h.state, hlive ▸ h.threads⟩

/-- A task of its own is run. -/
theorem run (input : ι) (h : Shows c s (pre ++ (task :: rest) :: post) held)
    (hrun : p.run s task input = some e) : ∃ thread,
      Shows (p.step c (.run thread input)) e.state (pre ++ (e.next ++ rest) :: post ++ e.spawned) held := by
  have hmem : (task :: rest) ∈ live c.threads := by simp [h.threads]
  obtain ⟨pre', post', hthreads⟩ := List.append_of_mem (mem_live.mp hmem).1
  have hget : c.threads[pre'.length]? = some (task :: rest) := by simp [hthreads]
  have hstep : p.step c (.run pre'.length input) =
      ⟨e.state, pre' ++ (e.next ++ rest) :: post' ++ e.spawned⟩ := by
    simp only [Program.step, hget, h.state, hrun]
    simp [hthreads]
  have hlive := h.threads
  rw [hthreads] at hlive
  simp only [live_append, live_cons, Multiset.add_cons, Multiset.cons_add, Multiset.cons_inj_right] at hlive
  refine ⟨pre'.length, ?_, ?_⟩
  · rw [hstep]
  · have hpost := live_thread (e.next ++ rest) post
    have hpost' := live_thread (e.next ++ rest) post'
    rw [hstep, live_append, live_append, hpost', live_append, live_append, hpost]
    calc live pre' + (live [e.next ++ rest] + live post') + live e.spawned
        = live pre' + live post' + live [e.next ++ rest] + live e.spawned := by abel
      _ = live pre + (live [e.next ++ rest] + live post) + live e.spawned + held := by
        rw [hlive]
        abel

/-- It is called from outside. -/
theorem call (h : Shows c s threads held) (hentry : p.entry task = true)
    (hlive : live threads' = [task] ::ₘ live threads) : Shows (p.step c (.call task)) s threads' held := by
  have hstep : p.step c (.call task) = ⟨c.state, c.threads ++ [[task]]⟩ := by simp [Program.step, hentry]
  refine ⟨?_, ?_⟩
  · rw [hstep]
    exact h.state
  · rw [hstep, live_append, h.threads, hlive, live_cons, live_nil, Multiset.cons_zero]
    rw [← Multiset.singleton_add]
    abel

/-- A thread held back is started. -/
theorem starts {tasks : List τ} (h : Shows c s threads (tasks ::ₘ held))
    (hlive : live threads' = tasks ::ₘ live threads) : Shows c s threads' held := by
  refine ⟨h.state, ?_⟩
  rw [h.threads, hlive, Multiset.add_cons, Multiset.cons_add]

/-- It is called by all the threads there are. -/
theorem exists_calls (p : Program σ τ ι) (h : Shows c s [] held)
    (hentry : ∀ tasks ∈ live threads, ∃ task, tasks = [task] ∧ p.entry task = true) :
    ∃ actions, Shows (p.runs c actions) s threads held := by
  induction threads with
  | nil => exact ⟨[], h⟩
  | cons tasks threads ih =>
    obtain ⟨actions, hactions⟩ := ih fun tasks' htasks => hentry tasks' (by
      rw [live_thread]
      exact Multiset.mem_add.mpr (.inr htasks))
    cases tasks with
    | nil => exact ⟨actions, hactions.congr (live_done threads)⟩
    | cons first rest =>
      obtain ⟨task, heq, htask⟩ := hentry (first :: rest) (by simp)
      refine ⟨actions ++ [.call task], ?_⟩
      rw [Program.runs_snoc]
      exact hactions.call htask (by rw [heq, live_cons])

/-- The tasks of both. -/
theorem bag (h : Shows c s threads held) : c.bag = ↑threads.flatten + tasks held := by
  rw [Config.bag, ← tasks_live, h.threads, tasks_add, tasks_live]

/-- Where nothing is held back, it is at rest when no thread seen of it can go on. -/
theorem atRest {A : Action τ ι → Prop} (h : Shows c s threads 0)
    (hrest : ∀ thread input task rest, A (.run thread input) → (task :: rest) ∈ threads →
      p.run s task input = none) : p.AtRest A c := by
  intro thread input task hallowed hnext
  obtain ⟨tasks, hthread, hhead⟩ := Option.bind_eq_some_iff.mp hnext
  obtain ⟨rest, rfl⟩ := List.head?_eq_some_iff.mp hhead
  have hmem : (task :: rest) ∈ live c.threads := mem_live.mpr ⟨List.mem_of_getElem? hthread, by simp⟩
  rw [h.threads, add_zero] at hmem
  rw [h.state]
  exact hrest thread input task rest hallowed (mem_live.mp hmem).1

end Shows
end Threads
end TtsPool
