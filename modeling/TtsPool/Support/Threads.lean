/-
# Threads over one shared state

A program of threads that share a state and take it one task at a time.  A
task is what a thread does between two points where another thread can come in:
a section under a lock, or a call to code outside.  Running a task gives the
new state, the tasks the thread turns to next, before what it had left, and the
threads it starts.  A task may be disabled, as one that waits for a lock is;
then nothing happens.  Calls from outside start threads of their own, with an
`entry` task.

What an invariant of such a program can speak of is the state and the tasks
still to be run, whoever runs them: the `bag`.  A step takes one task out of
the bag and puts in the tasks it leaves behind, and nothing else (`step_cases`).
`Program.runs_of` is the rule that follows: an invariant of state and bag that
every entry and every task keeps holds after any schedule of any calls.  Where
the tasks keep it under a condition on the state and the input they find
(`Meets`), it holds after the schedules that meet it (`runs_of_meets`).  Two
states in which every task goes on alike are kept alike (`step_alike`).  That
something comes to happen follows from a measure: every schedule comes to rest
(`length_le_of_measure`), and a fair one reaches its goal (`exists_of_fair`).
That there is a schedule which does something is put together from single steps
(`Leads`).
-/

import TtsPool.Support.Run
import Mathlib.Algebra.Order.Group.Multiset
import Mathlib.Tactic.Abel

namespace TtsPool
namespace Threads

variable {σ τ ι : Type*}

/-- What running a task does. -/
structure Effect (σ τ : Type*) where
  state : σ
  next : List τ := []
  spawned : List (List τ) := []

namespace Effect

/-- The tasks a task leaves behind, its own thread's and the new ones'. -/
def left (e : Effect σ τ) : Multiset τ := ↑(e.next ++ e.spawned.flatten)

/-- What is seen of it. -/
def map {σ' τ' : Type*} (f : σ → σ') (g : τ → τ') (e : Effect σ τ) : Effect σ' τ' where
  state := f e.state
  next := e.next.map g
  spawned := e.spawned.map (List.map g)

/-- The same tasks left behind, and states alike. -/
structure Alike (R : σ → σ → Prop) (e e' : Effect σ τ) : Prop where
  state : R e.state e'.state
  next : e.next = e'.next
  spawned : e.spawned = e'.spawned

/-- A task that starts no thread. -/
theorem left_of_next {e : Effect σ τ} (h : e.spawned = []) : e.left = ↑e.next := by
  rw [left, h, List.flatten_nil, List.append_nil]

end Effect

/-- The tasks, what each does on an input from outside, and which of them a
caller may enter with. -/
structure Program (σ τ ι : Type*) where
  run : σ → τ → ι → Option (Effect σ τ)
  entry : τ → Bool

/-- The shared state, and of every thread the tasks it has left, next one
first. -/
structure Config (σ τ : Type*) where
  state : σ
  threads : List (List τ) := []

/-- What is seen of a configuration. -/
def Config.map {σ' τ' : Type*} (f : σ → σ') (g : τ → τ') (c : Config σ τ) : Config σ' τ' where
  state := f c.state
  threads := c.threads.map (List.map g)

/-- One step of a schedule: a call comes in, or a thread runs its next task. -/
inductive Action (τ ι : Type*) where
  | call (task : τ)
  | run (thread : ℕ) (input : ι)

/-- All the tasks still to be run. -/
def Config.bag (c : Config σ τ) : Multiset τ := ↑c.threads.flatten

/-- The task a thread runs next. -/
def Config.next? (c : Config σ τ) (thread : ℕ) : Option τ := c.threads[thread]?.bind List.head?

theorem mem_bag_of_next? {c : Config σ τ} {thread : ℕ} {task : τ} (h : c.next? thread = some task) :
    task ∈ c.bag := by
  obtain ⟨tasks, hthread, hhead⟩ := Option.bind_eq_some_iff.mp h
  exact Multiset.mem_coe.mpr (List.mem_flatten.mpr
    ⟨tasks, List.mem_of_getElem? hthread, List.mem_of_mem_head? hhead⟩)

/-- A task that has its thread to itself is the next of it. -/
theorem exists_next?_of_alone {c : Config σ τ} {task : τ} (hmem : task ∈ c.bag)
    (halone : ∀ tasks ∈ c.threads, task ∈ tasks → tasks = [task]) : ∃ thread, c.next? thread = some task := by
  obtain ⟨tasks, htasks, hin⟩ := List.mem_flatten.mp (Multiset.mem_coe.mp hmem)
  obtain ⟨thread, hthread⟩ := List.mem_iff_getElem?.mp htasks
  refine ⟨thread, ?_⟩
  rw [Config.next?, hthread, halone tasks htasks hin]
  rfl

/-- The condition `P` on the state, the task and the input, where an action runs
a task. -/
def Meets (P : σ → τ → ι → Prop) (c : Config σ τ) : Action τ ι → Prop
  | .call _ => True
  | .run thread input => ∀ task ∈ c.next? thread, P c.state task input

instance {P : σ → τ → ι → Prop} [∀ s task input, Decidable (P s task input)] (c : Config σ τ) :
    ∀ a, Decidable (Meets P c a)
  | .call _ => isTrue trivial
  | .run thread _ => inferInstanceAs (Decidable (∀ task ∈ c.next? thread, _))

/-- The same with the tasks that are left to be run, that task among them. -/
def MeetsIn (P : σ → Multiset τ → τ → ι → Prop) (c : Config σ τ) : Action τ ι → Prop
  | .call _ => True
  | .run thread input => ∀ task ∈ c.next? thread, P c.state c.bag task input

instance {P : σ → Multiset τ → τ → ι → Prop} [∀ s bag task input, Decidable (P s bag task input)]
    (c : Config σ τ) : ∀ a, Decidable (MeetsIn P c a)
  | .call _ => isTrue trivial
  | .run thread _ => inferInstanceAs (Decidable (∀ task ∈ c.next? thread, _))

theorem Meets.meetsIn {P : σ → τ → ι → Prop} {c : Config σ τ} {a : Action τ ι} (h : Meets P c a) :
    MeetsIn (fun s _ task input => P s task input) c a := by
  cases a with
  | call task => trivial
  | run thread input => exact h

namespace Program

variable (p : Program σ τ ι)

/-- One step; a call that is no entry, a thread that has ended and a disabled
task change nothing. -/
def step (c : Config σ τ) : Action τ ι → Config σ τ
  | .call task => if p.entry task then { c with threads := c.threads ++ [[task]] } else c
  | .run thread input =>
    match c.threads[thread]? with
    | some (task :: rest) =>
      match p.run c.state task input with
      | some e => ⟨e.state, c.threads.set thread (e.next ++ rest) ++ e.spawned⟩
      | none => c
    | _ => c

/-- A schedule. -/
def runs (c : Config σ τ) (actions : List (Action τ ι)) : Config σ τ := actions.foldl p.step c

theorem runs_append (c : Config σ τ) (actions later : List (Action τ ι)) :
    p.runs c (actions ++ later) = p.runs (p.runs c actions) later := List.foldl_append

theorem runs_snoc (c : Config σ τ) (actions : List (Action τ ι)) (a : Action τ ι) :
    p.runs c (actions ++ [a]) = p.step (p.runs c actions) a := p.runs_append c actions [a]

variable {p}

/-- A thread that runs its next task. -/
theorem step_run_threads {c : Config σ τ} {thread : ℕ} {input : ι} {task : τ} {e : Effect σ τ}
    (hnext : c.next? thread = some task) (hrun : p.run c.state task input = some e) :
    ∃ rest pre post, c.threads = pre ++ (task :: rest) :: post ∧
      p.step c (.run thread input) = ⟨e.state, pre ++ (e.next ++ rest) :: post ++ e.spawned⟩ := by
  obtain ⟨tasks, hthread, hhead⟩ := Option.bind_eq_some_iff.mp hnext
  obtain ⟨rest, rfl⟩ := List.head?_eq_some_iff.mp hhead
  obtain ⟨hlt, hget⟩ := List.getElem?_eq_some_iff.mp hthread
  refine ⟨rest, c.threads.take thread, c.threads.drop (thread + 1), ?_, ?_⟩
  · rw [← hget, ← List.drop_eq_getElem_cons hlt, List.take_append_drop]
  · simp only [step, hthread, hrun]
    rw [List.set_eq_take_append_cons_drop, if_pos hlt]

/-- The state after a turn of a thread. -/
theorem state_turn (c : Config σ τ) (thread : ℕ) (input : ι) :
    (p.step c (.run thread input)).state =
      ((c.next? thread).bind fun task => p.run c.state task input).elim c.state Effect.state := by
  unfold Config.next?
  cases hthread : c.threads[thread]? with
  | none => simp [step, hthread]
  | some tasks =>
    cases tasks with
    | nil => simp [step, hthread]
    | cons task rest => cases hrun : p.run c.state task input <;> simp [step, hthread, hrun]

/-- A call changes no state. -/
theorem state_call (c : Config σ τ) (task : τ) : (p.step c (.call task : Action τ ι)).state = c.state := by
  by_cases hentry : p.entry task = true <;> simp [step, hentry]

/-- What it turns to next comes before what it had left. -/
theorem step_run_thread {c : Config σ τ} {thread : ℕ} {input : ι} {task : τ} {e : Effect σ τ}
    (hnext : c.next? thread = some task) (hrun : p.run c.state task input = some e) :
    ∃ rest, (p.step c (.run thread input)).threads[thread]? = some (e.next ++ rest) := by
  obtain ⟨tasks, hthread, hhead⟩ := Option.bind_eq_some_iff.mp hnext
  obtain ⟨rest, rfl⟩ := List.head?_eq_some_iff.mp hhead
  obtain ⟨hlt, -⟩ := List.getElem?_eq_some_iff.mp hthread
  refine ⟨rest, ?_⟩
  simp only [step, hthread, hrun]
  rw [List.getElem?_append_left (by rwa [List.length_set]), List.getElem?_set_self hlt]

/-- **What a step does to the threads**: nothing at all, or one thread comes in,
or one thread's next task gives way to what it turns to next, and new threads
start. -/
theorem step_threads (c : Config σ τ) (a : Action τ ι) :
    p.step c a = c ∨
    (∃ task, a = .call task ∧ p.entry task = true ∧ p.step c a = ⟨c.state, c.threads ++ [[task]]⟩) ∨
    ∃ thread input task rest pre post e, a = .run thread input ∧ c.next? thread = some task ∧
      p.run c.state task input = some e ∧ c.threads = pre ++ (task :: rest) :: post ∧
      p.step c a = ⟨e.state, pre ++ (e.next ++ rest) :: post ++ e.spawned⟩ := by
  cases a with
  | call task =>
    by_cases hentry : p.entry task = true
    · exact .inr (.inl ⟨task, rfl, hentry, by simp [step, hentry]⟩)
    · exact .inl (by simp [step, hentry])
  | run thread input =>
    cases hthread : c.threads[thread]? with
    | none => exact .inl (by simp [step, hthread])
    | some tasks =>
      cases tasks with
      | nil => exact .inl (by simp [step, hthread])
      | cons task rest =>
        cases hrun : p.run c.state task input with
        | none => exact .inl (by simp [step, hthread, hrun])
        | some e =>
          have hnext : c.next? thread = some task := by rw [Config.next?, hthread, Option.bind_some, List.head?_cons]
          obtain ⟨rest, pre, post, hthreads, hstep⟩ := step_run_threads hnext hrun
          exact .inr (.inr ⟨thread, input, task, rest, pre, post, e, rfl, hnext, hrun, hthreads, hstep⟩)

/-- The bag once a call has come in. -/
theorem bag_call (s : σ) (threads : List (List τ)) (task : τ) :
    (⟨s, threads ++ [[task]]⟩ : Config σ τ).bag = task ::ₘ (⟨s, threads⟩ : Config σ τ).bag := by
  simp only [Config.bag, List.flatten_append, ← Multiset.coe_add]
  exact add_comm _ _

/-- The bag around the next task of a thread. -/
theorem bag_split {c : Config σ τ} {task : τ} {rest : List τ} {pre post : List (List τ)}
    (h : c.threads = pre ++ (task :: rest) :: post) :
    c.bag = task ::ₘ (↑rest + (↑pre.flatten + ↑post.flatten)) := by
  rw [Config.bag, h, List.flatten_append, List.flatten_cons, ← Multiset.coe_add, ← Multiset.coe_add,
    ← Multiset.cons_coe, Multiset.cons_add, Multiset.add_cons]
  abel_nf

/-- The bag once the task is run. -/
theorem bag_run {e : Effect σ τ} {rest : List τ} {pre post : List (List τ)} :
    (⟨e.state, pre ++ (e.next ++ rest) :: post ++ e.spawned⟩ : Config σ τ).bag =
      e.left + (↑rest + (↑pre.flatten + ↑post.flatten)) := by
  simp only [Config.bag, List.flatten_append, List.flatten_cons, ← Multiset.coe_add, Effect.left]
  abel

/-- **What a step does to the bag**: nothing at all, or one entry task comes
in, or one task is run and gives way to what it leaves behind. -/
theorem step_cases (c : Config σ τ) (a : Action τ ι) :
    p.step c a = c ∨
    (∃ task, a = .call task ∧ p.entry task = true ∧ (p.step c a).state = c.state ∧
      (p.step c a).bag = task ::ₘ c.bag) ∨
    ∃ thread input task e others, a = .run thread input ∧ c.next? thread = some task ∧
      p.run c.state task input = some e ∧ c.bag = task ::ₘ others ∧ (p.step c a).state = e.state ∧
      (p.step c a).bag = e.left + others := by
  rcases step_threads c a (p := p) with heq | ⟨task, rfl, hentry, heq⟩ |
    ⟨thread, input, task, rest, pre, post, e, rfl, hnext, hrun, hthreads, heq⟩
  · exact .inl heq
  · refine .inr (.inl ⟨task, rfl, hentry, by rw [heq], ?_⟩)
    rw [heq, bag_call]
  · refine .inr (.inr ⟨thread, input, task, e, _, rfl, hnext, hrun, bag_split hthreads, ?_, ?_⟩)
    · rw [heq]
    · rw [heq, bag_run]

/-- A run of a task, seen on the state. -/
theorem step_run {c : Config σ τ} {thread : ℕ} {input : ι} {task : τ} {e : Effect σ τ}
    (hnext : c.next? thread = some task) (hrun : p.run c.state task input = some e) :
    (p.step c (.run thread input)).state = e.state := by
  obtain ⟨rest, pre, post, -, hstep⟩ := step_run_threads hnext hrun
  rw [hstep]

/-- And on the bag. -/
theorem step_run_bag {c : Config σ τ} {thread : ℕ} {input : ι} {task : τ} {e : Effect σ τ}
    (hnext : c.next? thread = some task) (hrun : p.run c.state task input = some e) :
    ∃ others, c.bag = task ::ₘ others ∧ (p.step c (.run thread input)).bag = e.left + others := by
  obtain ⟨rest, pre, post, hthreads, hstep⟩ := step_run_threads hnext hrun
  exact ⟨_, bag_split hthreads, by rw [hstep, bag_run]⟩

variable {I : σ → Multiset τ → Prop} {P : σ → τ → ι → Prop} {c : Config σ τ}

/-- **The invariant rule.**  What the entries keep, and the tasks where the
condition is met, every step that meets it keeps. -/
theorem step_of_meetsIn {Q : σ → Multiset τ → τ → ι → Prop} (h : I c.state c.bag)
    (hentry : ∀ s bag task, p.entry task = true → I s bag → I s (task ::ₘ bag))
    (hrun : ∀ s bag task input e, Q s (task ::ₘ bag) task input → p.run s task input = some e →
      I s (task ::ₘ bag) → I e.state (e.left + bag)) {a : Action τ ι} (hmeets : MeetsIn Q c a) :
    I (p.step c a).state (p.step c a).bag := by
  rcases step_cases c a (p := p) with heq | ⟨task, -, hin, hstate, hbag⟩ |
    ⟨thread, input, task, e, others, rfl, hnext, heffect, hold, hstate, hbag⟩
  · rw [heq]
    exact h
  · rw [hstate, hbag]
    exact hentry _ _ _ hin h
  · rw [hstate, hbag]
    exact hrun _ _ _ _ _ (hold ▸ hmeets task hnext) heffect (hold ▸ h)

/-- **Over a whole schedule.** -/
theorem runs_of_meetsIn {Q : σ → Multiset τ → τ → ι → Prop} (h : I c.state c.bag)
    (hentry : ∀ s bag task, p.entry task = true → I s bag → I s (task ::ₘ bag))
    (hrun : ∀ s bag task input e, Q s (task ::ₘ bag) task input → p.run s task input = some e →
      I s (task ::ₘ bag) → I e.state (e.left + bag)) {actions : List (Action τ ι)}
    (hmeets : Run.Along p.step (MeetsIn Q) c actions) :
    I (p.runs c actions).state (p.runs c actions).bag :=
  hmeets.foldl_of (I := fun c => I c.state c.bag) h fun _ _ h hmeets => step_of_meetsIn h hentry hrun hmeets

theorem runs_of_meets (h : I c.state c.bag)
    (hentry : ∀ s bag task, p.entry task = true → I s bag → I s (task ::ₘ bag))
    (hrun : ∀ s bag task input e, P s task input → p.run s task input = some e → I s (task ::ₘ bag) →
      I e.state (e.left + bag)) {actions : List (Action τ ι)}
    (hmeets : Run.Along p.step (Meets P) c actions) :
    I (p.runs c actions).state (p.runs c actions).bag :=
  runs_of_meetsIn h hentry hrun (hmeets.mono fun _ _ hmeets => hmeets.meetsIn)

/-- **The invariant rule for threads**, where the order of a thread's tasks
matters. -/
theorem runs_of_threads {I : σ → List (List τ) → Prop} (h : I c.state c.threads)
    (hentry : ∀ s threads task, p.entry task = true → I s threads → I s (threads ++ [[task]]))
    (hrun : ∀ s pre task rest post input e, p.run s task input = some e → I s (pre ++ (task :: rest) :: post) →
      I e.state (pre ++ (e.next ++ rest) :: post ++ e.spawned)) (actions : List (Action τ ι)) :
    I (p.runs c actions).state (p.runs c actions).threads := by
  induction actions generalizing c with
  | nil => exact h
  | cons a actions ih =>
    refine ih (c := p.step c a) ?_
    rcases step_threads c a (p := p) with heq | ⟨task, -, hin, heq⟩ |
      ⟨thread, input, task, rest, pre, post, e, -, -, heffect, hthreads, heq⟩ <;> rw [heq]
    · exact h
    · exact hentry _ _ _ hin h
    · exact hrun _ _ _ _ _ _ _ heffect (hthreads ▸ h)

/-- A condition that is always met. -/
theorem along_true (c : Config σ τ) (actions : List (Action τ ι)) :
    Run.Along p.step (Meets fun _ _ _ => True) c actions := by
  refine Run.along_of_forall (fun c a => ?_) c actions
  cases a with
  | call task => trivial
  | run thread input => exact fun _ _ => trivial

/-- What the entries and the tasks keep holds after every schedule. -/
theorem runs_of (h : I c.state c.bag)
    (hentry : ∀ s bag task, p.entry task = true → I s bag → I s (task ::ₘ bag))
    (hrun : ∀ s bag task input e, p.run s task input = some e → I s (task ::ₘ bag) →
      I e.state (e.left + bag)) (actions : List (Action τ ι)) :
    I (p.runs c actions).state (p.runs c actions).bag :=
  runs_of_meets h hentry (fun s bag task input e _ => hrun s bag task input e) (along_true c actions)

/-- What every task keeps of the state stays, whatever is done. -/
theorem runs_keep {Q : σ → Prop} (h : Q c.state)
    (hrun : ∀ s task input e, p.run s task input = some e → Q s → Q e.state) (actions : List (Action τ ι)) :
    Q (p.runs c actions).state :=
  runs_of (I := fun s _ => Q s) h (fun _ _ _ _ h => h) (fun s _ task input e => hrun s task input e) actions

/-- **A kind of task that has its thread to itself** keeps it, where such a task
comes of one alone. -/
theorem runs_alone {q : τ → Bool} (h : ∀ tasks ∈ c.threads, ∀ task ∈ tasks, q task = true → tasks = [task])
    (hrun : ∀ s task input e, p.run s task input = some e →
      (∀ t ∈ e.next, q t = true → q task = true ∧ e.next = [t]) ∧
        ∀ tasks ∈ e.spawned, ∀ t ∈ tasks, q t = true → tasks = [t]) (actions : List (Action τ ι)) :
    ∀ tasks ∈ (p.runs c actions).threads, ∀ task ∈ tasks, q task = true → tasks = [task] := by
  refine runs_of_threads (I := fun _ threads => ∀ tasks ∈ threads, ∀ task ∈ tasks, q task = true → tasks = [task])
    h ?_ ?_ actions
  · intro s threads task hentry hthreads tasks hmem
    rcases List.mem_append.mp hmem with hold | hnew
    · exact hthreads tasks hold
    · rw [List.mem_singleton.mp hnew]
      exact List.forall_mem_singleton.mpr fun _ => rfl
  · intro s pre task rest post input e heffect hthreads tasks hmem t ht hq
    obtain ⟨hnext, hspawned⟩ := hrun s task input e heffect
    rcases List.mem_append.mp hmem with hmem | hmem
    · rcases List.mem_append.mp hmem with hpre | hmem
      · exact hthreads tasks (List.mem_append_left _ hpre) t ht hq
      rcases List.mem_cons.mp hmem with rfl | hpost
      · have hself := hthreads (task :: rest) (List.mem_append_right _ (List.mem_cons_self ..))
        rcases List.mem_append.mp ht with hturned | hrest
        · obtain ⟨htask, hone⟩ := hnext t hturned hq
          rw [hone, (List.cons.inj (hself task (List.mem_cons_self ..) htask)).2, List.append_nil]
        · -- a thread that has the task to itself has nothing after it
          obtain ⟨rfl, rfl⟩ := List.cons.inj (hself t (List.mem_cons_of_mem _ hrest) hq)
          cases hrest
      · exact hthreads tasks (List.mem_append_right _ (List.mem_cons_of_mem _ hpost)) t ht hq
    · exact hspawned tasks hmem t ht hq

/-! ### Two programs seen alike -/

/-- **The unwinding rule.**  Two programs whose tasks do the same to all that can
be seen of a state and of a task take what is seen alike to what is seen
alike. -/
theorem step_map_eq {σ' τ' : Type*} {f : σ → σ'} {g : τ → τ'} {q : Program σ τ ι} {c₁ c₂ : Config σ τ}
    (hentry : ∀ task, p.entry task = q.entry task)
    (hrun : ∀ s₁ s₂ task₁ task₂ input, f s₁ = f s₂ → g task₁ = g task₂ →
      (p.run s₁ task₁ input).map (Effect.map f g) = (q.run s₂ task₂ input).map (Effect.map f g))
    (h : c₁.map f g = c₂.map f g) (a : Action τ ι) : (p.step c₁ a).map f g = (q.step c₂ a).map f g := by
  obtain ⟨hstate, hthreads⟩ : f c₁.state = f c₂.state ∧
      c₁.threads.map (List.map g) = c₂.threads.map (List.map g) := by simpa [Config.map] using h
  cases a with
  | call task =>
    simp only [step, hentry]
    split_ifs
    · simp [Config.map, hstate, hthreads]
    · exact h
  | run thread input =>
    have hthread : c₁.threads[thread]?.map (List.map g) = c₂.threads[thread]?.map (List.map g) := by
      rw [← List.getElem?_map, ← List.getElem?_map, hthreads]
    cases h₁ : c₁.threads[thread]? with
    | none =>
      rw [h₁, Option.map_none, eq_comm, Option.map_eq_none_iff] at hthread
      simp only [step, h₁, hthread]
      exact h
    | some tasks₁ =>
      rw [h₁, Option.map_some, eq_comm, Option.map_eq_some_iff] at hthread
      obtain ⟨tasks₂, h₂, htasks⟩ := hthread
      cases tasks₁ with
      | nil =>
        obtain rfl := List.map_eq_nil_iff.mp htasks
        simp only [step, h₁, h₂]
        exact h
      | cons task₁ rest₁ =>
        obtain ⟨task₂, rest₂, rfl, htask, hrest⟩ := List.map_eq_cons_iff.mp htasks
        have heffect := hrun c₁.state c₂.state task₁ task₂ input hstate htask.symm
        cases he₁ : p.run c₁.state task₁ input with
        | none =>
          rw [he₁, Option.map_none, eq_comm, Option.map_eq_none_iff] at heffect
          simp only [step, h₁, h₂, he₁, heffect]
          exact h
        | some e₁ =>
          rw [he₁, Option.map_some, eq_comm, Option.map_eq_some_iff] at heffect
          obtain ⟨e₂, he₂, heq⟩ := heffect
          obtain ⟨hs, hnext, hspawned⟩ : f e₂.state = f e₁.state ∧ e₂.next.map g = e₁.next.map g ∧
              e₂.spawned.map (List.map g) = e₁.spawned.map (List.map g) := by simpa [Effect.map] using heq
          simp [step, h₁, h₂, he₁, he₂, Config.map, List.map_set, hs, hnext, hspawned, hrest, hthreads]

/-- **Over a whole schedule.** -/
theorem runs_map_eq {σ' τ' : Type*} {f : σ → σ'} {g : τ → τ'} {q : Program σ τ ι} {c₁ c₂ : Config σ τ}
    (hentry : ∀ task, p.entry task = q.entry task)
    (hrun : ∀ s₁ s₂ task₁ task₂ input, f s₁ = f s₂ → g task₁ = g task₂ →
      (p.run s₁ task₁ input).map (Effect.map f g) = (q.run s₂ task₂ input).map (Effect.map f g))
    (h : c₁.map f g = c₂.map f g) (actions : List (Action τ ι)) :
    (p.runs c₁ actions).map f g = (q.runs c₂ actions).map f g := by
  induction actions generalizing c₁ c₂ with
  | nil => exact h
  | cons a actions ih => exact ih (step_map_eq hentry hrun h a)

/-- **The rule for two states.**  Where a task does alike in both, so does the step
that runs it. -/
theorem step_alike {R : σ → σ → Prop} {c c' : Config σ τ} {a : Action τ ι} (h : R c.state c'.state)
    (hthreads : c.threads = c'.threads)
    (hrun : ∀ thread input task, a = .run thread input → c.next? thread = some task →
      Option.Rel (Effect.Alike R) (p.run c.state task input) (p.run c'.state task input)) :
    R (p.step c a).state (p.step c' a).state ∧ (p.step c a).threads = (p.step c' a).threads := by
  cases a with
  | call task =>
    simp only [step]
    split_ifs
    · exact ⟨h, by rw [hthreads]⟩
    · exact ⟨h, hthreads⟩
  | run thread input =>
    simp only [step, ← hthreads]
    match hthread : c.threads[thread]? with
    | none => exact ⟨h, hthreads⟩
    | some [] => exact ⟨h, hthreads⟩
    | some (task :: rest) =>
      have hnext : c.next? thread = some task := by rw [Config.next?, hthread, Option.bind_some, List.head?_cons]
      have hrel := hrun thread input task rfl hnext
      match he : p.run c.state task input, he' : p.run c'.state task input, hrel with
      | none, none, _ =>
        simp only [he, he']
        exact ⟨h, hthreads⟩
      | some e, some e', .some halike =>
        simp only [he, he']
        exact ⟨halike.state, by rw [halike.next, halike.spawned]⟩

/-! ### Coming to rest -/

variable {A : Action τ ι → Prop}

/-- What the entries that are allowed keep, and the tasks on the inputs that are,
every schedule of allowed actions keeps. -/
theorem runs_of_forall (h : I c.state c.bag)
    (hentry : ∀ s bag task, A (.call task) → p.entry task = true → I s bag → I s (task ::ₘ bag))
    (hrun : ∀ s bag task thread input e, A (.run thread input) → p.run s task input = some e →
      I s (task ::ₘ bag) → I e.state (e.left + bag)) {actions : List (Action τ ι)}
    (hallowed : ∀ a ∈ actions, A a) : I (p.runs c actions).state (p.runs c actions).bag := by
  induction actions generalizing c with
  | nil => exact h
  | cons a actions ih =>
    obtain ⟨ha, hactions⟩ := List.forall_mem_cons.mp hallowed
    refine ih (c := p.step c a) ?_ hactions
    rcases step_cases c a (p := p) with heq | ⟨task, rfl, hin, hstate, hbag⟩ |
      ⟨thread, input, task, e, others, rfl, -, heffect, hold, hstate, hbag⟩
    · rw [heq]
      exact h
    · rw [hstate, hbag]
      exact hentry _ _ _ ha hin h
    · rw [hstate, hbag]
      exact hrun _ _ _ _ _ _ ha heffect (hold ▸ h)

/-- No allowed action gets a thread any further. -/
def AtRest (p : Program σ τ ι) (A : Action τ ι → Prop) (c : Config σ τ) : Prop :=
  ∀ thread input task, A (.run thread input) → c.next? thread = some task → p.run c.state task input = none

/-- The action gets a thread further. -/
def Moves (p : Program σ τ ι) (c : Config σ τ) : Action τ ι → Prop
  | .call _ => False
  | .run thread input => ∃ task e, c.next? thread = some task ∧ p.run c.state task input = some e

/-- **The measure rule.**  Where every step takes something off a measure, threads
can be got further only so often. -/
theorem length_le_of_measure {m : σ → Multiset τ → ℕ} (h : I c.state c.bag)
    (hrun : ∀ s bag task thread input e, A (.run thread input) → p.run s task input = some e →
      I s (task ::ₘ bag) → I e.state (e.left + bag) ∧ m e.state (e.left + bag) < m s (task ::ₘ bag))
    {actions : List (Action τ ι)} (hallowed : ∀ a ∈ actions, A a)
    (hmoves : Run.Along p.step p.Moves c actions) : actions.length ≤ m c.state c.bag := by
  induction actions generalizing c with
  | nil => exact Nat.zero_le _
  | cons a actions ih =>
    obtain ⟨ha, hactions⟩ := List.forall_mem_cons.mp hallowed
    cases a with
    | call task => exact hmoves.1.elim
    | run thread input =>
      obtain ⟨task, e, hnext, heffect⟩ := hmoves.1
      obtain ⟨others, hold, hbag⟩ := step_run_bag hnext heffect
      obtain ⟨hkeep, hless⟩ := hrun _ _ _ _ _ _ ha heffect (hold ▸ h)
      rw [← step_run hnext heffect, ← hbag] at hkeep hless
      rw [← hold] at hless
      have hlater := ih hkeep hactions hmoves.2
      rw [List.length_cons]
      omega

/-! ### Fair schedules -/

/-- A schedule without end that keeps to the allowed runs, and in which every thread
has its turn again and again. -/
structure Fair (A : Action τ ι → Prop) (schedule : ℕ → ℕ × ι) : Prop where
  allowed : ∀ n, A (.run (schedule n).1 (schedule n).2)
  turns : ∀ thread n, ∃ m ≥ n, (schedule m).1 = thread

/-- The actions of its first turns. -/
def turns (schedule : ℕ → ℕ × ι) (n : ℕ) : List (Action τ ι) :=
  (List.range n).map fun i => .run (schedule i).1 (schedule i).2

theorem runs_turns_succ (p : Program σ τ ι) (c : Config σ τ) (schedule : ℕ → ℕ × ι) (n : ℕ) :
    p.runs c (turns schedule (n + 1)) =
      p.step (p.runs c (turns schedule n)) (.run (schedule n).1 (schedule n).2) := by
  rw [turns, List.range_succ, List.map_append, List.map_singleton, runs_snoc]
  rfl

theorem forall_turns {schedule : ℕ → ℕ × ι} (h : Fair A schedule) (n : ℕ) : ∀ a ∈ turns schedule n, A a := by
  intro a hmem
  obtain ⟨i, -, rfl⟩ := List.mem_map.mp hmem
  exact h.allowed i

/-- **The fairness rule.**  Where a step that changes anything takes something off a
measure, and short of the goal there is a thread whose next step changes something,
a fair schedule reaches the goal. -/
theorem exists_of_fair {G : Config σ τ → Prop} {m : Config σ τ → ℕ} {schedule : ℕ → ℕ × ι}
    (hfair : Fair A schedule)
    (hless : ∀ n, ¬ G (p.runs c (turns schedule n)) → ¬ G (p.runs c (turns schedule (n + 1))) →
      p.runs c (turns schedule (n + 1)) = p.runs c (turns schedule n) ∨
        m (p.runs c (turns schedule (n + 1))) < m (p.runs c (turns schedule n)))
    (hmoves : ∀ n, ¬ G (p.runs c (turns schedule n)) → ∃ thread, ∀ input, A (.run thread input) →
      p.step (p.runs c (turns schedule n)) (.run thread input) ≠ p.runs c (turns schedule n)) :
    ∃ n, G (p.runs c (turns schedule n)) := by
  by_contra hnever
  push Not at hnever
  have hle : ∀ n k, m (p.runs c (turns schedule (n + k))) ≤ m (p.runs c (turns schedule n)) := by
    intro n k
    induction k with
    | zero => exact le_rfl
    | succ k ih =>
      rcases hless (n + k) (hnever _) (hnever _) with heq | hlt
      · exact (congrArg m heq).le.trans ih
      · exact hlt.le.trans ih
  -- until the thread in question has its turn either nothing changes, or something has
  have hdrops : ∀ n, ∃ k, m (p.runs c (turns schedule k)) < m (p.runs c (turns schedule n)) := by
    intro n
    obtain ⟨thread, hthread⟩ := hmoves n (hnever n)
    obtain ⟨i, hi, hturn⟩ := hfair.turns thread n
    by_contra hstays
    push Not at hstays
    have hsame : ∀ k, p.runs c (turns schedule (n + k)) = p.runs c (turns schedule n) := by
      intro k
      induction k with
      | zero => rfl
      | succ k ih =>
        rcases hless (n + k) (hnever _) (hnever _) with heq | hlt
        · exact heq.trans ih
        · exact absurd (hlt.trans_le (hle n k)) (hstays _).not_gt
    obtain ⟨k, rfl⟩ := Nat.exists_eq_add_of_le hi
    have hnext := hsame (k + 1)
    rw [← Nat.add_assoc, runs_turns_succ, hsame k, hturn] at hnext
    exact hthread _ (hturn ▸ hfair.allowed (n + k)) hnext
  have hnone : ∀ v n, m (p.runs c (turns schedule n)) ≤ v → False := by
    intro v
    induction v with
    | zero =>
      intro n hzero
      obtain ⟨k, hk⟩ := hdrops n
      omega
    | succ v ih =>
      intro n hv
      obtain ⟨k, hk⟩ := hdrops n
      exact ih k (by omega)
  exact hnone _ 0 le_rfl

/-! ### Schedules that exist -/

/-- An action that runs a task, the condition met. -/
def Takes (P : σ → τ → ι → Prop) (c : Config σ τ) : Action τ ι → Prop
  | .call _ => False
  | .run thread input => ∃ task, c.next? thread = some task ∧ P c.state task input

theorem Takes.meets {Q : σ → τ → ι → Prop} (hPQ : ∀ s task input, P s task input → Q s task input)
    {a : Action τ ι} (h : Takes P c a) : Meets Q c a := by
  cases a with
  | call task => trivial
  | run thread input =>
    obtain ⟨task, hnext, hP⟩ := h
    intro task' hnext'
    obtain rfl := Option.some.inj (hnext.symm.trans hnext')
    exact hPQ _ _ _ hP

/-- A schedule of tasks that meet the condition leads from one configuration to
another; no call comes in. -/
def Leads (p : Program σ τ ι) (P : σ → τ → ι → Prop) (c c' : Config σ τ) : Prop :=
  ∃ actions, Run.Along p.step (Takes P) c actions ∧ p.runs c actions = c'

theorem Leads.trans {c₁ c₂ c₃ : Config σ τ} (h : p.Leads P c₁ c₂) (h' : p.Leads P c₂ c₃) : p.Leads P c₁ c₃ := by
  obtain ⟨actions, htakes, rfl⟩ := h
  obtain ⟨later, htakes', rfl⟩ := h'
  exact ⟨actions ++ later, Run.along_append.mpr ⟨htakes, htakes'⟩, p.runs_append c₁ actions later⟩

/-- A thread runs its next task. -/
theorem leads_run {s : σ} {task : τ} {input : ι} {e : Effect σ τ} (pre : List (List τ)) {rest : List τ}
    {post : List (List τ)} (hP : P s task input) (hrun : p.run s task input = some e) :
    p.Leads P ⟨s, pre ++ (task :: rest) :: post⟩ ⟨e.state, pre ++ (e.next ++ rest) :: post ++ e.spawned⟩ := by
  have hthread : (pre ++ (task :: rest) :: post)[pre.length]? = some (task :: rest) := by simp
  have hnext : Config.next? ⟨s, pre ++ (task :: rest) :: post⟩ pre.length = some task := by
    simp only [Config.next?, hthread, Option.bind_some, List.head?_cons]
  refine ⟨[.run pre.length input], ⟨⟨task, hnext, hP⟩, trivial⟩, ?_⟩
  simp [runs, step, hrun]

end Program

end Threads
end TtsPool
