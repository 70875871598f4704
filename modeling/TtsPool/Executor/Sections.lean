/-
# The sections of `_cond`

Most tasks take `_cond` once, or not at all, and are done with it.  Two kinds
are not: `enqueue_stream`, which holds it from the registration of the cancel
callback to its end, and the dispatcher, which gives it up by waiting.  `Turn`
sorts the tasks by this; a `Bystander` is any other task, and what matters of it
here is that it wakes the dispatcher whenever it changes what the dispatcher
looks at.

Holding `_cond` over several tasks is a matter of their order, so `Sections`
speaks of threads: a thread that is inside still has its `leaveEnqueue` ahead of
it, and there is one such thread exactly while `locked` is set.  So at most one
callback is being registered at any time, and never while `_cond` is free
(`Sections.inSection_le`).
-/

import TtsPool.Executor.Runs

namespace TtsPool

open Threads (Effect Config)

namespace ExecutorTask

/-- The tasks of `enqueue_stream` inside its section, before the notification. -/
def inSection : ExecutorTask → Bool
  | .setCancelCallback _ | .cancelStreamJob _ true => true
  | _ => false

/-- The end of that section. -/
def leaves : ExecutorTask → Bool
  | .leaveEnqueue => true
  | _ => false

/-- The tasks of `_run_loop`, and whether it is at `_cond.wait`. -/
def looping : ExecutorTask → Option Bool
  | .runLoop => some false
  | .parked => some true
  | _ => none

/-- No task of the section, of its end, or of the dispatcher. -/
def Outside (task : ExecutorTask) : Prop :=
  task.inSection = false ∧ task.leaves = false ∧ task.looping = none

end ExecutorTask

/-- A task inside the section is the next of its thread, and the end of the
section comes after it. -/
def Sectioned : List ExecutorTask → Prop
  | [] => True
  | task :: rest => (task.inSection = true → ∃ last ∈ rest, last.leaves = true) ∧
      ∀ later ∈ rest, later.inSection = false

theorem Sectioned.of_none {tasks : List ExecutorTask} (h : ∀ task ∈ tasks, task.inSection = false) :
    Sectioned tasks := by
  cases tasks with
  | nil => trivial
  | cons first rest =>
    refine ⟨fun hin => ?_, fun later hlater => h later (List.mem_cons_of_mem _ hlater)⟩
    rw [h first (List.mem_cons_self ..)] at hin
    cases hin

theorem Sectioned.countP_le {tasks : List ExecutorTask} (h : Sectioned tasks) :
    tasks.countP ExecutorTask.inSection ≤ tasks.countP ExecutorTask.leaves := by
  cases tasks with
  | nil => exact le_rfl
  | cons first rest =>
    have hrest : rest.countP ExecutorTask.inSection = 0 :=
      List.countP_eq_zero.mpr fun later hlater => by simp [h.2 later hlater]
    rw [List.countP_cons, List.countP_cons, hrest]
    cases hin : first.inSection with
    | false => simp
    | true =>
      obtain ⟨last, hlast, hleaves⟩ := h.1 hin
      have hpos : 0 < rest.countP ExecutorTask.leaves := List.countP_pos_iff.mpr ⟨last, hlast, hleaves⟩
      simp only [if_true]
      omega

namespace ExecutorState

/-- A task that neither holds `_cond` on, nor waits on it, nor takes a pending
job out by name. -/
structure Bystander (s : ExecutorState) (task : ExecutorTask) (e : Step) : Prop where
  own : task.Outside
  tasks : ∀ task' ∈ e.left, task'.Outside
  locked : e.state.locked = s.locked
  held : s.locked = true → e.state.executor = s.executor
  wakes : e.state.dispatcher = s.notifyAll.dispatcher ∨
    e.state.dispatcher = s.dispatcher ∧ e.state.queue.pendingCount = s.queue.pendingCount ∧
      e.state.executor.runtimeInflight = s.executor.runtimeInflight ∧
      e.state.executor.stopRequested = s.executor.stopRequested
  stop : s.executor.stopRequested = true → e.state.executor.stopRequested = true
  settled : s.queue.pendingCount = 0 → s.executor.runtimeInflight = 0 →
    e.state.queue.pendingCount = 0 ∧ e.state.executor.runtimeInflight = 0

/-- **Every run of a task, by what it does with `_cond`.** -/
inductive Turn (s : ExecutorState) : ExecutorTask → Step → Prop
  | bystander {task : ExecutorTask} {e : Step} (h : Bystander s task e) : Turn s task e
  | entered (request : ResponseRequest) (h : HandleId) (now : ℚ) (hfree : s.locked = false) :
    Turn s (.enqueueStream request h) (s.enqueueStream request h now)
  | registered (job : SchedulerJob) : Turn s (.setCancelCallback job) (s.setCancelCallback job)
  | left : Turn s .leaveEnqueue s.leaveEnqueue
  | withdrew (job : SchedulerJob) (holding : Bool) (now : ℚ) (hheld : s.locked = true → holding = true) :
    Turn s (.cancelStreamJob job holding) (s.cancelStreamJob job now)
  | looped (now : ℚ) (hfree : s.locked = false) : Turn s .runLoop (s.runLoop now)
  | woken (now : ℚ) (hfree : s.locked = false) (hnotified : s.dispatcher = .notified) :
    Turn s .parked (({ s with dispatcher := .running } : ExecutorState).runLoop now)

variable {s : ExecutorState} {task : ExecutorTask} {bag : Multiset ExecutorTask} {e : Step}
  {input : ExecutorInput}

/-! ### The bystanders -/

/-- A task that leaves the executor, the lock and the dispatcher alone. -/
theorem Bystander.of_same (hown : task.Outside)
    (htasks : ∀ task' ∈ e.left, task'.Outside)
    (hexecutor : e.state.executor = s.executor) (hlocked : e.state.locked = s.locked)
    (hdispatcher : e.state.dispatcher = s.dispatcher) : Bystander s task e where
  own := hown
  tasks := htasks
  locked := hlocked
  held := fun _ => hexecutor
  wakes := .inr (by simp only [ExecutorState.queue, hexecutor, hdispatcher, and_self])
  stop := by simp only [hexecutor, imp_self]
  settled := by
    simp only [ExecutorState.queue, hexecutor]
    exact .intro

/-- A thread that has nothing more to do. -/
theorem Bystander.ends (hown : task.Outside) (hleft : e.left = 0) (hexecutor : e.state.executor = s.executor)
    (hlocked : e.state.locked = s.locked) (hdispatcher : e.state.dispatcher = s.dispatcher) : Bystander s task e :=
  .of_same hown (by simp [hleft]) hexecutor hlocked hdispatcher

/-- A task that gives way to another. -/
theorem Bystander.goes (next : ExecutorTask) (hown : task.Outside) (hnext : next.Outside) (hleft : e.left = {next})
    (hexecutor : e.state.executor = s.executor) (hlocked : e.state.locked = s.locked)
    (hdispatcher : e.state.dispatcher = s.dispatcher) : Bystander s task e :=
  .of_same hown (by simpa [hleft] using hnext) hexecutor hlocked hdispatcher

/-- A slot given back. -/
theorem Bystander.of_releaseSlot {job : SchedulerJob} {queue : FairPendingQueue} {next : List ExecutorTask}
    (hfree : s.locked = false) (hcount : queue.pendingCount = s.queue.pendingCount)
    (hown : task.Outside)
    (htasks : ∀ task' ∈ next, task'.Outside) :
    Bystander s task { state := (s.releaseSlot job queue).notifyAll, next := next } where
  own := hown
  tasks := by simpa [Effect.left] using htasks
  locked := rfl
  held := by simp [hfree]
  wakes := .inl rfl
  stop := id
  settled := fun hpending hinflight => by
    refine ⟨hcount.trans hpending, ?_⟩
    simp [notifyAll, releaseSlot, hinflight]

theorem pendingCount_complete (q : FairPendingQueue) (job : SchedulerJob) (serviceMs now : ℚ) :
    (q.complete job serviceMs now).pendingCount = q.pendingCount := by
  unfold FairPendingQueue.complete
  split
  · rfl
  · split <;> rfl

/-- What a backend emits goes to a handle. -/
theorem emit_bystander {h : HandleId} {handle : Except EngineError (Option SynthesisHandle)}
    (hown : task.Outside) :
    Bystander s task (s.emit task h handle) := by
  have htasks : ∀ task' ∈ (s.emit task h handle).left,
      task'.Outside := by
    intro task' htask
    obtain rfl : task' = task := by simpa [emit, Effect.left] using htask
    exact hown
  rcases handle with _ | _ | _ <;> exact .of_same hown htasks rfl rfl rfl

theorem runBackend_bystander {job : SchedulerJob} {backendStartedAt : ℚ}
    (hown : task.Outside)
    (hrun : s.runBackend task job backendStartedAt input = some e) : Bystander s task e := by
  cases input with
  | returns result now =>
    obtain rfl := Option.some.inj hrun
    exact .goes _ hown ⟨rfl, rfl, rfl⟩ rfl rfl rfl rfl
  | raises error now =>
    obtain rfl := Option.some.inj hrun
    exact .goes _ hown ⟨rfl, rfl, rfl⟩ rfl rfl rfl rfl
  | emitStarted sampleRateHz channelCount =>
    obtain rfl := Option.some.inj hrun
    exact emit_bystander hown
  | emitAudio event remaining =>
    obtain rfl := Option.some.inj hrun
    exact emit_bystander hown
  | _ => simp [runBackend] at hrun

theorem beginShutdown_bystander (hfree : s.locked = false) (now : ℚ) :
    Bystander s .beginShutdown (s.beginShutdown now) where
  own := ⟨rfl, rfl, rfl⟩
  tasks := fun task' htask => by
    simp only [beginShutdown, Effect.left, List.flatten_nil, List.append_nil, Multiset.mem_coe] at htask
    rcases List.mem_append.mp htask with htask | htask
    · obtain ⟨job, -, rfl⟩ := List.mem_map.mp htask
      exact ⟨rfl, rfl, rfl⟩
    · obtain ⟨h, -, rfl⟩ := List.mem_map.mp htask
      exact ⟨rfl, rfl, rfl⟩
  locked := rfl
  held := by simp [hfree]
  wakes := .inl rfl
  stop := fun _ => rfl
  settled := fun _ hinflight => ⟨rfl, hinflight⟩

/-- **The inversion of `run`, seen from `_cond`.** -/
theorem turn_of_run (hrun : s.run task input = some e) : Turn s task e := by
  cases fires_of_run hrun with
  | enqueueStream request h now hfree => exact .entered request h now hfree
  | setCancelCallback job => exact .registered job
  | leaveEnqueue => exact .left
  | cancelStreamJob job holding now hheld => exact .withdrew job holding now hheld
  | runLoop now hfree => exact .looped now hfree
  | parked now hfree hnotified => exact .woken now hfree hnotified
  | openStream | finish | runJob | startWorker | cannotStart | returnsAudio | combineMetrics =>
    exact .bystander (.goes _ ⟨rfl, rfl, rfl⟩ ⟨rfl, rfl, rfl⟩ rfl rfl rfl rfl)
  | raised | readEvent | calledBack => exact .bystander (.ends ⟨rfl, rfl, rfl⟩ rfl rfl rfl rfl)
  | snapshot now hfree =>
    exact .bystander ⟨⟨rfl, rfl, rfl⟩, by simp [Effect.left], rfl, by simp_all, .inr ⟨rfl, rfl, rfl, rfl⟩, id,
      fun hpending hinflight => ⟨hpending, hinflight⟩⟩
  | beginShutdown now hfree => exact .bystander (beginShutdown_bystander hfree now)
  | cancel h =>
    refine .bystander (.of_same ⟨rfl, rfl, rfl⟩ (fun task' htask => ?_) rfl rfl rfl)
    simp only [cancel, Effect.left, List.flatten_nil, List.append_nil, Multiset.mem_coe, Option.mem_toList,
      Option.map_eq_some_iff] at htask
    obtain ⟨job, -, rfl⟩ := htask
    exact ⟨rfl, rfl, rfl⟩
  | addTerminalCallback h callback =>
    refine .bystander (.of_same ⟨rfl, rfl, rfl⟩ (fun task' htask => ?_) rfl rfl rfl)
    simp only [addTerminalCallback, Effect.left] at htask
    split_ifs at htask
    · obtain rfl : task' = .runTerminalCallbacks h [callback] := by simpa using htask
      exact ⟨rfl, rfl, rfl⟩
    · simp at htask
  | callBack h callback callbacks =>
    refine .bystander (.goes _ ⟨rfl, rfl, rfl⟩ ⟨rfl, rfl, rfl⟩ rfl ?_ ?_ ?_) <;> cases callback <;> rfl
  | abandonJob job error now hfree =>
    exact .bystander (.of_releaseSlot hfree rfl ⟨rfl, rfl, rfl⟩ (by simpa using ⟨rfl, rfl, rfl⟩))
  | checkCancelled job backendStartedAt now =>
    unfold checkCancelled
    split_ifs <;> exact .bystander (.goes _ ⟨rfl, rfl, rfl⟩ ⟨rfl, rfl, rfl⟩ rfl rfl rfl rfl)
  | backend _ job backendStartedAt _ _ htask hbackend =>
    refine .bystander (runBackend_bystander ?_ hbackend)
    rcases htask with rfl | rfl <;> exact ⟨rfl, rfl, rfl⟩
  | release job backendStartedAt backendFinishedAt outcome _ hfree =>
    refine .bystander (.of_releaseSlot hfree (pendingCount_complete ..) ⟨rfl, rfl, rfl⟩ ?_)
    cases outcome <;> simpa using ⟨rfl, rfl, rfl⟩
  | complete h result metrics =>
    unfold complete
    split_ifs <;> exact .bystander (.goes _ ⟨rfl, rfl, rfl⟩ ⟨rfl, rfl, rfl⟩ rfl rfl rfl rfl)

/-! ### One thread inside at a time -/

/-- How many sections are open. -/
def openSections (threads : List (List ExecutorTask)) : ℕ := threads.flatten.countP ExecutorTask.leaves

/-- **The invariant of the sections.**  Inside a section its end is still ahead,
and a section is open exactly while `locked` is set. -/
structure Sections (s : ExecutorState) (threads : List (List ExecutorTask)) : Prop where
  shape : ∀ tasks ∈ threads, Sectioned tasks
  lock : openSections threads = if s.locked then 1 else 0

/-- **No two threads register a callback at once**, and none does while `_cond`
is free. -/
theorem Sections.inSection_le {threads : List (List ExecutorTask)} (h : Sections s threads) :
    threads.flatten.countP ExecutorTask.inSection ≤ if s.locked then 1 else 0 := by
  rw [← h.lock, openSections]
  have hshape := h.shape
  clear h
  induction threads with
  | nil => exact le_rfl
  | cons tasks threads ih =>
    rw [List.flatten_cons, List.countP_append, List.countP_append]
    exact Nat.add_le_add (hshape tasks (List.mem_cons_self ..)).countP_le
      (ih fun other hother => hshape other (List.mem_cons_of_mem _ hother))

section Step

variable {pre post : List (List ExecutorTask)} {rest : List ExecutorTask}

/-- The threads once a task has been run. -/
abbrev ran (pre : List (List ExecutorTask)) (e : Step) (rest : List ExecutorTask)
    (post : List (List ExecutorTask)) : List (List ExecutorTask) :=
  pre ++ (e.next ++ rest) :: post ++ e.spawned

theorem openSections_split : openSections (pre ++ (task :: rest) :: post) =
    openSections pre + (if task.leaves = true then 1 else 0) + rest.countP ExecutorTask.leaves +
      openSections post := by
  simp only [openSections, List.flatten_append, List.flatten_cons, List.countP_append, List.countP_cons]
  omega

theorem openSections_ran : openSections (ran pre e rest post) =
    openSections pre + e.next.countP ExecutorTask.leaves + rest.countP ExecutorTask.leaves +
      openSections post + openSections e.spawned := by
  simp only [openSections, ran, List.flatten_append, List.flatten_cons, List.countP_append]
  omega

/-- A task outside that leaves tasks outside behind. -/
theorem Sections.outside (h : Sections s (pre ++ (task :: rest) :: post)) (hleaves : task.leaves = false)
    (hlocked : e.state.locked = s.locked)
    (hleft : ∀ task' ∈ e.left, task'.inSection = false ∧ task'.leaves = false) :
    Sections e.state (ran pre e rest post) := by
  have hnext : ∀ task' ∈ e.next, task'.inSection = false ∧ task'.leaves = false := fun task' htask =>
    hleft task' (Multiset.mem_coe.mpr (List.mem_append_left _ htask))
  have hspawned : ∀ task' ∈ e.spawned.flatten, task'.inSection = false ∧ task'.leaves = false :=
    fun task' htask => hleft task' (Multiset.mem_coe.mpr (List.mem_append_right _ htask))
  have hown : Sectioned (task :: rest) := h.shape _ (by simp)
  refine ⟨fun tasks htasks => ?_, ?_⟩
  · simp only [ran, List.mem_append, List.mem_cons] at htasks
    rcases htasks with (htasks | rfl | htasks) | htasks
    · exact h.shape tasks (by simp [htasks])
    · refine .of_none fun task' htask => ?_
      rcases List.mem_append.mp htask with htask | htask
      · exact (hnext task' htask).1
      · exact hown.2 task' htask
    · exact h.shape tasks (by simp [htasks])
    · exact .of_none fun task' htask => (hspawned task' (List.mem_flatten.mpr ⟨tasks, htasks, htask⟩)).1
  · have hzero : e.next.countP ExecutorTask.leaves = 0 :=
      List.countP_eq_zero.mpr fun task' htask => by simp [(hnext task' htask).2]
    have hzero' : openSections e.spawned = 0 :=
      List.countP_eq_zero.mpr fun task' htask => by simp [(hspawned task' htask).2]
    have hlock := h.lock
    rw [openSections_split, hleaves] at hlock
    rw [openSections_ran, hlocked, hzero, hzero', ← hlock]
    simp

/-- The thread that goes on inside the section. -/
theorem Sections.inside (h : Sections s (pre ++ (task :: rest) :: post)) {state : ExecutorState}
    {next : List ExecutorTask} (hshape : Sectioned (next ++ rest))
    (hlock : next.countP ExecutorTask.leaves + (if s.locked then 1 else 0) =
      (if task.leaves = true then 1 else 0) + if state.locked then 1 else 0) :
    Sections state (ran pre { state := state, next := next } rest post) := by
  refine ⟨fun tasks htasks => ?_, ?_⟩
  · simp only [ran, List.mem_append, List.mem_cons, List.not_mem_nil, or_false] at htasks
    rcases htasks with htasks | rfl | htasks
    · exact h.shape tasks (by simp [htasks])
    · exact hshape
    · exact h.shape tasks (by simp [htasks])
  · have hold := h.lock
    rw [openSections_split] at hold
    have hspawned : openSections ([] : List (List ExecutorTask)) = 0 := rfl
    rw [openSections_ran, hspawned]
    simp only
    omega

/-- One pass of the dispatcher enters no section. -/
theorem runLoop_left (s : ExecutorState) (now : ℚ) : (s.runLoop now).state.locked = s.locked ∧
    ∀ task' ∈ (s.runLoop now).left, task'.inSection = false ∧ task'.leaves = false := by
  unfold runLoop
  split_ifs
  · exact ⟨rfl, by simp [Effect.left]⟩
  · split
    · exact ⟨rfl, by simp [Effect.left, ExecutorTask.inSection, ExecutorTask.leaves]⟩
    · exact ⟨rfl, by simp [Effect.left, ExecutorTask.inSection, ExecutorTask.leaves]⟩
  · exact ⟨rfl, by simp [Effect.left, ExecutorTask.inSection, ExecutorTask.leaves]⟩

/-- **Every task keeps the sections.** -/
theorem Sections.run (h : Sections s (pre ++ (task :: rest) :: post)) (hrun : s.run task input = some e) :
    Sections e.state (ran pre e rest post) := by
  have hown : Sectioned (task :: rest) := h.shape _ (by simp)
  cases turn_of_run hrun with
  | bystander hb =>
    exact h.outside hb.own.2.1 hb.locked fun task' htask => ⟨(hb.tasks task' htask).1, (hb.tasks task' htask).2.1⟩
  | entered request k now hfree =>
    unfold enqueueStream
    split_ifs
    · exact h.outside rfl rfl (by simp [Effect.left, ExecutorTask.inSection, ExecutorTask.leaves])
    · split
      · exact h.outside rfl rfl (by simp [Effect.left, ExecutorTask.inSection, ExecutorTask.leaves])
      · refine h.inside ⟨fun _ => ⟨.leaveEnqueue, by simp, rfl⟩, ?_⟩ ?_
        · intro later hlater
          rcases List.mem_cons.mp hlater with rfl | hlater
          · rfl
          · exact hown.2 later hlater
        · simp [ExecutorTask.leaves, hfree]
  | registered job =>
    unfold setCancelCallback
    refine h.inside ?_ ?_
    · split_ifs
      · exact ⟨fun _ => hown.1 rfl, hown.2⟩
      · exact .of_none hown.2
    · split_ifs <;> simp_all [ExecutorTask.leaves, setHandle]
  | left =>
    -- its own end is counted, so `locked` is set
    have hlocked : s.locked = true := by
      have hlock := h.lock
      rw [openSections_split] at hlock
      by_contra hfree
      simp only [if_neg hfree, ExecutorTask.leaves, if_true] at hlock
      omega
    refine h.inside (.of_none hown.2) ?_
    simp [ExecutorTask.leaves, hlocked, leaveEnqueue]
  | withdrew job holding now hheld =>
    unfold cancelStreamJob
    split
    · exact h.outside rfl rfl (by simp [Effect.left, ExecutorTask.inSection, ExecutorTask.leaves])
    · exact h.outside rfl rfl (by simp [Effect.left])
  | looped now hfree => exact h.outside rfl (runLoop_left s now).1 (runLoop_left s now).2
  | woken now hfree hnotified => exact h.outside rfl (runLoop_left _ now).1 (runLoop_left _ now).2

end Step

/-- A call that comes in is in no section. -/
theorem Sections.entry {threads : List (List ExecutorTask)} (h : Sections s threads)
    (hentry : task.entry = true) : Sections s (threads ++ [[task]]) := by
  have hout : task.inSection = false ∧ task.leaves = false := by
    cases task <;> first | exact ⟨rfl, rfl⟩ | cases hentry
  refine ⟨fun tasks htasks => ?_, ?_⟩
  · rcases List.mem_append.mp htasks with htasks | htasks
    · exact h.shape tasks htasks
    · obtain rfl := List.mem_singleton.mp htasks
      exact .of_none (by simpa using hout.1)
  · rw [← h.lock]
    simp [openSections, hout.2]

/-- **The run rule of the executor.**  What is true of a new executor, and what
every task keeps where the requests are accounted for and the sections of
`_cond` respected, is true after any schedule. -/
theorem after_of {I : ExecutorState → List (List ExecutorTask) → Prop} (modelName : String) (streaming : Bool)
    (configuredTargetInflight : ℤ) (settings : FairnessSettings) (runtimeCapability : ℤ)
    (hstart : I (.init (.new modelName streaming configuredTargetInflight settings runtimeCapability)) [[.runLoop]])
    (hentry : ∀ s threads task, ExecutorTask.entry task = true → I s threads → I s (threads ++ [[task]]))
    (hrun : ∀ s pre task rest post input e, ExecutorState.run s task input = some e →
      Ok s (task ::ₘ (↑rest + (↑pre.flatten + ↑post.flatten))) → Sections s (pre ++ (task :: rest) :: post) →
      I s (pre ++ (task :: rest) :: post) → I e.state (ran pre e rest post)) (actions : List ExecutorAction) :
    let c := after modelName streaming configuredTargetInflight settings runtimeCapability actions
    Sections c.state c.threads ∧ I c.state c.threads := by
  let J (s : ExecutorState) (threads : List (List ExecutorTask)) : Prop :=
    Ok s (Config.bag ⟨s, threads⟩) ∧ Sections s threads ∧ I s threads
  have hok : Ok (.init _) {.runLoop} :=
    (Ok.init modelName streaming configuredTargetInflight settings runtimeCapability).spawn ⟨rfl, rfl, rfl, rfl⟩
  have hsections : Sections (.init (.new modelName streaming configuredTargetInflight settings runtimeCapability))
      [[.runLoop]] := ⟨by simp [Sectioned, ExecutorTask.inSection], rfl⟩
  refine (Threads.Program.runs_of_threads (p := executorProgram) (I := J) ⟨hok, hsections, hstart⟩ ?_ ?_ actions).2
  · intro s threads task hin h
    refine ⟨?_, h.2.1.entry hin, hentry s threads task hin h.2.2⟩
    rw [Threads.Program.bag_call]
    exact h.1.spawn (.of_entry hin)
  · intro s pre task rest post input e heffect h
    have hold := h.1
    rw [Threads.Program.bag_split rfl] at hold
    refine ⟨?_, h.2.1.run heffect, hrun s pre task rest post input e heffect hold h.2.1 h.2.2⟩
    rw [Threads.Program.bag_run]
    exact hold.run heffect

end ExecutorState
end TtsPool
