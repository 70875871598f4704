/-
# What each task does

`Fires` lists the tasks with the inputs they run on, the guards they find open and
the function that does the work.  `fires_of_run` says that the list is complete, so
that whoever proves something of every step has these cases and unfolds `run` no
more.

Most tasks hand nothing over: they move a handle's buffer, wake a thread, or
pass on what they hold to the task that follows (`Quiet`).  `Ran` has the others
one by one (`ran_of_run`).
-/

import TtsPool.Executor.Custody

namespace TtsPool

open Threads (Effect)

/-- The router's own callback among the terminal ones. -/
def TerminalCallback.isStreamFinished : TerminalCallback → Bool
  | .streamFinished _ => true
  | .other _ => false

/-- How often `_stream_finished` is among the callbacks. -/
def streamCalls (callbacks : List TerminalCallback) : ℕ :=
  callbacks.countP TerminalCallback.isStreamFinished

/-- The calls of `_stream_finished` a task has still to make, each under its
handle: out of a terminal callback, or by the caller whose enqueue raised. -/
def ExecutorTask.calls : ExecutorTask → Multiset HandleId
  | .raised h _ => {h}
  | .runTerminalCallbacks h callbacks => Multiset.replicate (streamCalls callbacks) h
  | _ => 0

/-- The calls of `_stream_finished` still to be made. -/
def calls (bag : Multiset ExecutorTask) : Multiset HandleId := (bag.map ExecutorTask.calls).sum

/-- The tasks that know a terminal callback, or make up for one. -/
def ExecutorTask.callsBack : ExecutorTask → Bool
  | .openStream _ _ | .raised _ _ | .addTerminalCallback _ _ | .runTerminalCallbacks _ _ => true
  | _ => false

/-- No task of the bag has to do with the terminal callbacks. -/
def Plain (bag : Multiset ExecutorTask) : Prop := ∀ task ∈ bag, task.callsBack = false

theorem Plain.nil : Plain 0 := fun _ h => absurd h (Multiset.notMem_zero _)

theorem Plain.single {task : ExecutorTask} (h : task.callsBack = false) : Plain {task} := fun _ hmem =>
  Multiset.mem_singleton.mp hmem ▸ h

namespace ExecutorState

/-- The tasks left behind hold what the task held. -/
structure PassesOn (s : ExecutorState) (task : ExecutorTask) (left : Multiset ExecutorTask) : Prop where
  slots : slots left = slots {task}
  owned : owned left = owned {task}
  undecided : undecided left = undecided {task}
  named : ∀ task' ∈ left, ∀ job, task'.named = some job →
    task.named = some job ∨ ∃ h < s.nextHandle, (s.handles h).cancelCallback = some job

/-- A task that hands nothing over. -/
structure Still (s : ExecutorState) (task : ExecutorTask) (e : Step) : Prop where
  executor : e.state.executor = { s.executor with pendingQueue := e.state.queue }
  queue : s.queue.Ok → s.queue.Flow 0 0 0 0 e.state.queue
  nextJobId : e.state.queue.nextJobId = s.queue.nextJobId
  nextHandle : e.state.nextHandle = s.nextHandle
  accepted : e.state.accepted = s.accepted
  rejected : e.state.rejected = s.rejected
  finished : e.state.finished = s.finished
  terminal : ∀ h, (e.state.handles h).terminal = (s.handles h).terminal
  callbacks : ∀ h job, (e.state.handles h).cancelCallback = some job →
    (s.handles h).cancelCallback = some job ∨ task.named = some job ∧ job.streamHandle = h
  tasks : PassesOn s task e.left

/-- A task that hands nothing over and has nothing to do with the terminal
callbacks. -/
structure Quiet (s : ExecutorState) (task : ExecutorTask) (e : Step) : Prop extends Still s task e where
  terminalCallbacks : ∀ h, (e.state.handles h).terminalCallbacks = (s.handles h).terminalCallbacks
  streamsFinished : e.state.streamsFinished = s.streamsFinished
  calls : task.calls = 0
  opens : task.opens = false
  plain : Plain e.left

/-- **The inversion of `run`.** -/
inductive Fires (s : ExecutorState) : ExecutorTask → ExecutorInput → Step → Prop
  | openStream (request : ResponseRequest) (spec : HandleSpec) (now : ℚ) :
    Fires s (.openStream request spec) (.clock now) (s.openStream request spec now)
  | enqueueStream (request : ResponseRequest) (h : HandleId) (now : ℚ) (hfree : s.locked = false) :
    Fires s (.enqueueStream request h) (.clock now) (s.enqueueStream request h now)
  | setCancelCallback (job : SchedulerJob) (input : ExecutorInput) :
    Fires s (.setCancelCallback job) input (s.setCancelCallback job)
  | leaveEnqueue (input : ExecutorInput) : Fires s .leaveEnqueue input s.leaveEnqueue
  | raised (h : HandleId) (error : EngineError) (input : ExecutorInput) :
    Fires s (.raised h error) input { state := s.callBack h (.streamFinished s.executor.modelName) }
  | snapshot (now : ℚ) (hfree : s.locked = false) :
    Fires s .snapshot (.clock now) { state := (s.snapshot now).1 }
  | beginShutdown (now : ℚ) (hfree : s.locked = false) :
    Fires s .beginShutdown (.clock now) (s.beginShutdown now)
  | cancel (h : HandleId) (input : ExecutorInput) (hlt : h < s.nextHandle) : Fires s (.cancel h) input (s.cancel h)
  | addTerminalCallback (h : HandleId) (callback : TerminalCallback) (input : ExecutorInput)
    (hlt : h < s.nextHandle) : Fires s (.addTerminalCallback h callback) input (s.addTerminalCallback h callback)
  | readEvent (h : HandleId) (input : ExecutorInput) (hread : (s.handles h).Readable) :
    Fires s (.readEvent h) input (s.readEvent h)
  | cancelStreamJob (job : SchedulerJob) (holding : Bool) (now : ℚ) (hheld : s.locked = true → holding = true) :
    Fires s (.cancelStreamJob job holding) (.clock now) (s.cancelStreamJob job now)
  | finish (h : HandleId) (event : Option StreamEvent) (error : Option EngineError) (input : ExecutorInput) :
    Fires s (.finish h event error) input (s.finish h event error)
  | calledBack (h : HandleId) (input : ExecutorInput) : Fires s (.runTerminalCallbacks h []) input { state := s }
  | callBack (h : HandleId) (callback : TerminalCallback) (callbacks : List TerminalCallback)
    (input : ExecutorInput) : Fires s (.runTerminalCallbacks h (callback :: callbacks)) input
      { state := s.callBack h callback, next := [.runTerminalCallbacks h callbacks] }
  | runLoop (now : ℚ) (hfree : s.locked = false) : Fires s .runLoop (.clock now) (s.runLoop now)
  | parked (now : ℚ) (hfree : s.locked = false) (hnotified : s.dispatcher = .notified) :
    Fires s .parked (.clock now) (({ s with dispatcher := .running } : ExecutorState).runLoop now)
  | startWorker (job : SchedulerJob) (dequeuedAt now : ℚ) :
    Fires s (.startWorker job dequeuedAt) (.clock now) { state := s, spawned := [[.runJob job dequeuedAt]] }
  | cannotStart (job : SchedulerJob) (dequeuedAt : ℚ) (error : EngineError) (now : ℚ) :
    Fires s (.startWorker job dequeuedAt) (.raises error now) { state := s, next := [.abandonJob job error] }
  | abandonJob (job : SchedulerJob) (error : EngineError) (now : ℚ) (hfree : s.locked = false) :
    Fires s (.abandonJob job error) (.clock now) (s.abandonJob job error now)
  | runJob (job : SchedulerJob) (dequeuedAt now : ℚ) :
    Fires s (.runJob job dequeuedAt) (.clock now) (s.runJob job dequeuedAt now)
  | checkCancelled (job : SchedulerJob) (backendStartedAt now : ℚ) :
    Fires s (.checkCancelled job backendStartedAt) (.clock now) (s.checkCancelled job backendStartedAt now)
  | returnsAudio (job : SchedulerJob) (backendStartedAt : ℚ) : Fires s (.backend job backendStartedAt) .returnsAudio
      { state := s, next := [.emitCompleteResult job backendStartedAt] }
  | backend (task : ExecutorTask) (job : SchedulerJob) (backendStartedAt : ℚ) (input : ExecutorInput) (e : Step)
    (htask : task = .backend job backendStartedAt ∨ task = .emitCompleteResult job backendStartedAt)
    (hrun : s.runBackend task job backendStartedAt input = some e) : Fires s task input e
  | release (job : SchedulerJob) (backendStartedAt backendFinishedAt : ℚ)
    (outcome : Except EngineError RuntimeStreamResult) (input : ExecutorInput) (hfree : s.locked = false) :
    Fires s (.release job backendStartedAt backendFinishedAt outcome) input
      (s.release job backendStartedAt backendFinishedAt outcome)
  | complete (h : HandleId) (result : RuntimeStreamResult) (metrics : Dict String (Option ℚ))
    (input : ExecutorInput) : Fires s (.complete h result metrics) input (s.complete h result metrics)
  | combineMetrics (h : HandleId) (result : RuntimeStreamResult) (metrics : Dict String (Option ℚ))
    (input : ExecutorInput) : Fires s (.combineMetrics h result metrics) input
      { state := s, next := [.finish h (some ((s.handles h).completedEvent result metrics)) none] }

/-- A quiet task, or one of these. -/
inductive Ran (s : ExecutorState) : ExecutorTask → Step → Prop
  | quiet {task : ExecutorTask} {e : Step} (h : Quiet s task e) : Ran s task e
  | openStream (request : ResponseRequest) (spec : HandleSpec) (now : ℚ) :
    Ran s (.openStream request spec) (s.openStream request spec now)
  | enqueueStream (request : ResponseRequest) (h : HandleId) (now : ℚ) :
    Ran s (.enqueueStream request h) (s.enqueueStream request h now)
  | raised (h : HandleId) (error : EngineError) :
    Ran s (.raised h error) { state := s.callBack h (.streamFinished s.executor.modelName) }
  | beginShutdown (now : ℚ) : Ran s .beginShutdown (s.beginShutdown now)
  | addTerminalCallback (h : HandleId) (callback : TerminalCallback) :
    Ran s (.addTerminalCallback h callback) (s.addTerminalCallback h callback)
  | cancelStreamJob (job : SchedulerJob) (holding : Bool) (now : ℚ) :
    Ran s (.cancelStreamJob job holding) (s.cancelStreamJob job now)
  | finish (h : HandleId) (event : Option StreamEvent) (error : Option EngineError) :
    Ran s (.finish h event error) (s.finish h event error)
  | runTerminalCallbacks (h : HandleId) (callback : TerminalCallback) (callbacks : List TerminalCallback) :
    Ran s (.runTerminalCallbacks h (callback :: callbacks))
      { state := s.callBack h callback, next := [.runTerminalCallbacks h callbacks] }
  | runLoop (dispatcher : Dispatcher) (task : ExecutorTask) (htask : task = .runLoop ∨ task = .parked) (now : ℚ) :
    Ran s task (({ s with dispatcher := dispatcher } : ExecutorState).runLoop now)
  | abandonJob (job : SchedulerJob) (error : EngineError) (now : ℚ) :
    Ran s (.abandonJob job error) (s.abandonJob job error now)
  | release (job : SchedulerJob) (backendStartedAt backendFinishedAt : ℚ)
    (outcome : Except EngineError RuntimeStreamResult) :
    Ran s (.release job backendStartedAt backendFinishedAt outcome)
      (s.release job backendStartedAt backendFinishedAt outcome)

variable {s : ExecutorState} {task : ExecutorTask} {bag : Multiset ExecutorTask} {e : Step} {t : Transfer}
  {input : ExecutorInput}

/-- **Every run of a task is in the list.** -/
theorem fires_of_run (hrun : s.run task input = some e) : Fires s task input e := by
  cases task with
  | setCancelCallback job => cases hrun; exact .setCancelCallback job input
  | leaveEnqueue => cases hrun; exact .leaveEnqueue input
  | raised h error => cases hrun; exact .raised h error input
  | finish h event error => cases hrun; exact .finish h event error input
  | complete h result metrics => cases hrun; exact .complete h result metrics input
  | combineMetrics h result metrics => cases hrun; exact .combineMetrics h result metrics input
  | runTerminalCallbacks h callbacks =>
    cases callbacks with
    | nil => cases hrun; exact .calledBack h input
    | cons callback callbacks => cases hrun; exact .callBack h callback callbacks input
  | cancel h =>
    obtain ⟨hlt, heq⟩ := Option.ite_none_right_eq_some.mp hrun
    cases heq
    exact .cancel h input hlt
  | addTerminalCallback h callback =>
    obtain ⟨hlt, heq⟩ := Option.ite_none_right_eq_some.mp hrun
    cases heq
    exact .addTerminalCallback h callback input hlt
  | readEvent h =>
    obtain ⟨hread, heq⟩ := Option.ite_none_right_eq_some.mp hrun
    cases heq
    exact .readEvent h input hread
  | release job backendStartedAt backendFinishedAt outcome =>
    obtain ⟨hfree, heq⟩ := Option.ite_none_left_eq_some.mp hrun
    cases heq
    exact .release job backendStartedAt backendFinishedAt outcome input (by simpa using hfree)
  | emitCompleteResult job backendStartedAt => exact .backend _ job backendStartedAt input e (.inr rfl) hrun
  | backend job backendStartedAt =>
    cases input with
    | returnsAudio =>
      obtain ⟨-, heq⟩ := Option.ite_none_left_eq_some.mp hrun
      cases heq
      exact .returnsAudio job backendStartedAt
    | _ =>
      simp only [run] at hrun
      exact .backend _ job backendStartedAt _ e (.inl rfl) hrun
  | startWorker job dequeuedAt =>
    cases input with
    | clock now => cases hrun; exact .startWorker job dequeuedAt now
    | raises error now => cases hrun; exact .cannotStart job dequeuedAt error now
    | _ => simp [run] at hrun
  | openStream request spec =>
    cases input with
    | clock now => cases hrun; exact .openStream request spec now
    | _ => simp [run] at hrun
  | runJob job dequeuedAt =>
    cases input with
    | clock now => cases hrun; exact .runJob job dequeuedAt now
    | _ => simp [run] at hrun
  | checkCancelled job backendStartedAt =>
    cases input with
    | clock now => cases hrun; exact .checkCancelled job backendStartedAt now
    | _ => simp [run] at hrun
  | enqueueStream request h =>
    cases input with
    | clock now =>
      obtain ⟨hfree, heq⟩ := Option.ite_none_left_eq_some.mp hrun
      cases heq
      exact .enqueueStream request h now (by simpa using hfree)
    | _ => simp [run] at hrun
  | snapshot =>
    cases input with
    | clock now =>
      obtain ⟨hfree, heq⟩ := Option.ite_none_left_eq_some.mp hrun
      cases heq
      exact .snapshot now (by simpa using hfree)
    | _ => simp [run] at hrun
  | beginShutdown =>
    cases input with
    | clock now =>
      obtain ⟨hfree, heq⟩ := Option.ite_none_left_eq_some.mp hrun
      cases heq
      exact .beginShutdown now (by simpa using hfree)
    | _ => simp [run] at hrun
  | cancelStreamJob job holding =>
    cases input with
    | clock now =>
      obtain ⟨hheld, heq⟩ := Option.ite_none_left_eq_some.mp hrun
      cases heq
      exact .cancelStreamJob job holding now (by simpa using hheld)
    | _ => simp [run] at hrun
  | runLoop =>
    cases input with
    | clock now =>
      obtain ⟨hfree, heq⟩ := Option.ite_none_left_eq_some.mp hrun
      cases heq
      exact .runLoop now (by simpa using hfree)
    | _ => simp [run] at hrun
  | parked =>
    cases input with
    | clock now =>
      obtain ⟨hguard, heq⟩ := Option.ite_none_left_eq_some.mp hrun
      cases heq
      rw [not_or, Bool.not_eq_true, not_not] at hguard
      exact .parked now hguard.1 hguard.2
    | _ => simp [run] at hrun
  | abandonJob job error =>
    cases input with
    | clock now =>
      obtain ⟨hfree, heq⟩ := Option.ite_none_left_eq_some.mp hrun
      cases heq
      exact .abandonJob job error now (by simpa using hfree)
    | _ => simp [run] at hrun

/-! ### The quiet tasks -/

/-- Beside the executor and the ledgers, a still task may change how one handle
is buffered and cancelled, and wake or lock. -/
theorem Still.of_handles (hexecutor : e.state.executor = s.executor)
    (hledgers : e.state.nextHandle = s.nextHandle ∧ e.state.accepted = s.accepted ∧
      e.state.rejected = s.rejected ∧ e.state.finished = s.finished)
    (hhandles : ∀ h, (e.state.handles h).terminal = (s.handles h).terminal ∧
      ∀ job, (e.state.handles h).cancelCallback = some job →
        (s.handles h).cancelCallback = some job ∨ task.named = some job ∧ job.streamHandle = h)
    (htasks : PassesOn s task e.left) : Still s task e := by
  obtain ⟨hnext, haccepted, hrejected, hfinished⟩ := hledgers
  have hqueue : e.state.queue = s.queue := by rw [ExecutorState.queue, hexecutor]
  refine ⟨?_, ?_, by rw [hqueue], hnext, haccepted, hrejected, hfinished, fun h => (hhandles h).1,
    fun h => (hhandles h).2, htasks⟩
  · rw [hqueue, hexecutor]
  · intro hok
    rw [hqueue]
    exact .refl hok

/-- A handle put back with the same ending. -/
theorem ending_setHandle {h : HandleId} {handle : SynthesisHandle} (hsame : (s.handles h).SameEnding handle)
    (k : HandleId) : (s.handles k).SameEnding ((s.setHandle h handle).handles k) := by
  by_cases hk : k = h
  · subst hk
    simpa [setHandle] using hsame
  · simpa [setHandle, hk] using SynthesisHandle.SameEnding.refl (s.handles k)

/-- A task that changes one handle, and not how it ends. -/
theorem Quiet.of_setHandle {h : HandleId} {handle : SynthesisHandle} (hstate : e.state = s.setHandle h handle)
    (hsame : (s.handles h).SameEnding handle) (htasks : PassesOn s task e.left)
    (hcalls : task.calls = 0) (hopens : task.opens = false) (hplain : Plain e.left) : Quiet s task e := by
  have hending := ending_setHandle hsame
  rw [← hstate] at hending
  refine ⟨.of_handles (by rw [hstate]; rfl) (by rw [hstate]; exact ⟨rfl, rfl, rfl, rfl⟩)
    (fun k => ⟨(hending k).terminal, fun job hjob => .inl ?_⟩) htasks,
    fun k => (hending k).terminalCallbacks, by rw [hstate]; rfl, hcalls, hopens, hplain⟩
  rwa [← (hending k).cancelCallback]

/-- A task that only goes on. -/
theorem Quiet.of_state (hstate : e.state = s) (htasks : PassesOn s task e.left)
    (hcalls : task.calls = 0) (hopens : task.opens = false) (hplain : Plain e.left) : Quiet s task e := by
  refine .of_setHandle (h := 0) ?_ (.refl _) htasks hcalls hopens hplain
  rw [hstate, setHandle, Function.update_eq_self]

theorem filterMap_singleton {α β : Type*} (f : α → Option β) (a : α) :
    Multiset.filterMap f {a} = (↑(f a).toList : Multiset β) := by
  cases h : f a with
  | none => exact Multiset.filterMap_cons_none a 0 h
  | some b => exact Multiset.filterMap_cons_some f a 0 h

/-- A thread that has nothing more to do, and held nothing. -/
theorem PassesOn.nil (hslot : task.slotJob = none) (howner : task.owner = none)
    (hundecided : task.undecided = none) : PassesOn s task 0 where
  slots := by simp [filterMap_singleton, hslot]
  owned := by simp [filterMap_singleton, howner]
  undecided := by simp [filterMap_singleton, hundecided]
  named := by simp

/-- One task that gives way to another. -/
theorem PassesOn.single {task' : ExecutorTask} (hslot : task'.slotJob = task.slotJob)
    (howner : task'.owner = task.owner) (hundecided : task'.undecided = task.undecided)
    (hnamed : ∀ job, task'.named = some job →
      task.named = some job ∨ ∃ h < s.nextHandle, (s.handles h).cancelCallback = some job) :
    PassesOn s task {task'} where
  slots := by simp only [filterMap_singleton, hslot]
  owned := by simp only [filterMap_singleton, howner]
  undecided := by simp only [filterMap_singleton, hundecided]
  named := by simpa using hnamed

/-- A task that only goes on as another. -/
theorem Quiet.pass {task' : ExecutorTask} (hstate : e.state = s) (hleft : e.left = {task'})
    (hslot : task'.slotJob = task.slotJob) (howner : task'.owner = task.owner)
    (hundecided : task'.undecided = task.undecided) (hnamed : task'.named = task.named)
    (hcalls : task.calls = 0) (hopens : task.opens = false) (hplain : task'.callsBack = false) :
    Quiet s task e :=
  .of_state hstate (hleft ▸ .single hslot howner hundecided fun _ hjob => .inl (hnamed ▸ hjob)) hcalls
    hopens (hleft ▸ .single hplain)

/-- A cancel callback put in place is the job's own. -/
theorem setCancelCallback_quiet (job : SchedulerJob) :
    Quiet s (.setCancelCallback job) (s.setCancelCallback job) := by
  have hspec := SynthesisHandle.setCancelCallback_spec (s.handles job.streamHandle) job
  have hhandle : ∀ k, ((s.setCancelCallback job).state.handles k).terminal = (s.handles k).terminal ∧
      ((s.setCancelCallback job).state.handles k).terminalCallbacks = (s.handles k).terminalCallbacks ∧
      ∀ other, ((s.setCancelCallback job).state.handles k).cancelCallback = some other →
        (s.handles k).cancelCallback = some other ∨ other = job ∧ job.streamHandle = k := by
    intro k
    by_cases hk : k = job.streamHandle
    · subst hk
      simpa [setCancelCallback, setHandle] using hspec
    · simpa [setCancelCallback, setHandle, hk] using fun _ => .inl
  have htasks : PassesOn s (.setCancelCallback job) (s.setCancelCallback job).left ∧
      Plain (s.setCancelCallback job).left := by
    simp only [setCancelCallback, Effect.left]
    split_ifs
    · exact ⟨.single rfl rfl rfl fun other => .inl, .single rfl⟩
    · exact ⟨.nil rfl rfl rfl, .nil⟩
  refine ⟨.of_handles rfl ⟨rfl, rfl, rfl, rfl⟩ (fun k => ⟨(hhandle k).1, fun other hother => ?_⟩) htasks.1,
    fun k => (hhandle k).2.1, rfl, rfl, rfl, htasks.2⟩
  rcases (hhandle k).2.2 other hother with hother | ⟨rfl, hk⟩
  · exact .inl hother
  · exact .inr ⟨rfl, hk⟩

/-- An event the backend emits goes into the buffer or nowhere. -/
theorem emit_quiet {h : HandleId} {handle : Except EngineError (Option SynthesisHandle)}
    (hemit : ∀ handle', handle = .ok (some handle') → (s.handles h).SameEnding handle')
    (htask : task.calls = 0 ∧ task.opens = false ∧ task.callsBack = false) :
    Quiet s task (s.emit task h handle) := by
  obtain ⟨hcalls, hopens, hplain⟩ := htask
  have htasks : PassesOn s task (s.emit task h handle).left := .single rfl rfl rfl fun _ => .inl
  have hplain : Plain (s.emit task h handle).left := .single hplain
  match handle, hemit, htasks, hplain with
  | .ok (some handle'), hemit, htasks, hplain =>
    exact .of_setHandle rfl (hemit handle' rfl) htasks hcalls hopens hplain
  | .ok none, _, htasks, hplain => exact .of_state rfl htasks hcalls hopens hplain
  | .error _, _, htasks, hplain => exact .of_state rfl htasks hcalls hopens hplain

/-- The backend's inputs. -/
theorem runBackend_quiet {job : SchedulerJob} {backendStartedAt : ℚ}
    (htask : task = .backend job backendStartedAt ∨ task = .emitCompleteResult job backendStartedAt)
    (hrun : s.runBackend task job backendStartedAt input = some e) : Quiet s task e := by
  have hcalls : task.calls = 0 := by rcases htask with rfl | rfl <;> rfl
  have hnamed : task.named = none := by rcases htask with rfl | rfl <;> rfl
  have hslot : task.slotJob = some job := by rcases htask with rfl | rfl <;> rfl
  have howner : task.owner = none := by rcases htask with rfl | rfl <;> rfl
  have hundecided : task.undecided = none := by rcases htask with rfl | rfl <;> rfl
  have hopens : task.opens = false := by rcases htask with rfl | rfl <;> rfl
  have hplain : task.callsBack = false := by rcases htask with rfl | rfl <;> rfl
  cases input with
  | returns result now =>
    obtain rfl := Option.some.inj hrun
    exact .pass rfl rfl hslot.symm howner.symm hundecided.symm hnamed.symm hcalls hopens rfl
  | raises error now =>
    obtain rfl := Option.some.inj hrun
    exact .pass rfl rfl hslot.symm howner.symm hundecided.symm hnamed.symm hcalls hopens rfl
  | emitStarted sampleRateHz channelCount =>
    obtain rfl := Option.some.inj hrun
    refine emit_quiet (fun handle' hok => ?_) ⟨hcalls, hopens, hplain⟩
    cases hstarted : (s.handles job.streamHandle).emitStarted sampleRateHz channelCount with
    | error error => simp [hstarted, Except.map] at hok
    | ok handle =>
      simp only [hstarted, Except.map, Except.ok.injEq, Option.some.injEq] at hok
      exact hok ▸ SynthesisHandle.emitStarted_ending hstarted
  | emitAudio event remaining =>
    obtain rfl := Option.some.inj hrun
    exact emit_quiet (fun handle' hok => SynthesisHandle.emitAudio_ending hok)
      ⟨hcalls, hopens, hplain⟩
  | _ => simp [runBackend] at hrun

/-- **Every run of a task**, by what it hands over. -/
theorem ran_of_run (hrun : s.run task input = some e) : Ran s task e := by
  cases fires_of_run hrun with
  | openStream request spec now => exact .openStream request spec now
  | enqueueStream request h now => exact .enqueueStream request h now
  | setCancelCallback job => exact .quiet (setCancelCallback_quiet job)
  | leaveEnqueue =>
    exact .quiet ⟨.of_handles rfl ⟨rfl, rfl, rfl, rfl⟩ (fun _ => ⟨rfl, fun _ => .inl⟩) (.nil rfl rfl rfl),
      fun _ => rfl, rfl, rfl, rfl, .nil⟩
  | raised h error => exact .raised h error
  | snapshot now =>
    exact .quiet ⟨⟨rfl, fun hok => FairPendingQueue.expireIdleStates_flow hok now, rfl, rfl, rfl, rfl, rfl,
      fun _ => rfl, fun _ _ => .inl, .nil rfl rfl rfl⟩, fun _ => rfl, rfl, rfl, rfl, .nil⟩
  | beginShutdown now => exact .beginShutdown now
  | cancel h _ hlt =>
    have htasks : PassesOn s (.cancel h) (s.cancel h).left ∧ Plain (s.cancel h).left := by
      cases hcallback : (s.handles h).cancel.2 with
      | none =>
        simp only [cancel, hcallback, Effect.left]
        exact ⟨.nil rfl rfl rfl, .nil⟩
      | some job =>
        simp only [cancel, hcallback, Effect.left]
        refine ⟨.single rfl rfl rfl fun other hother => .inr ⟨h, hlt, ?_⟩, .single rfl⟩
        rw [SynthesisHandle.cancel_callback hcallback]
        exact hother
    exact .quiet (.of_setHandle rfl (SynthesisHandle.cancel_ending _) htasks.1 rfl rfl htasks.2)
  | addTerminalCallback h callback => exact .addTerminalCallback h callback
  | readEvent h =>
    exact .quiet (.of_setHandle rfl (SynthesisHandle.popEvent_ending _) (.nil rfl rfl rfl) rfl rfl .nil)
  | cancelStreamJob job holding now => exact .cancelStreamJob job holding now
  | finish h event error => exact .finish h event error
  | calledBack h => exact .quiet (.of_state rfl (.nil rfl rfl rfl) rfl rfl .nil)
  | callBack h callback callbacks => exact .runTerminalCallbacks h callback callbacks
  | runLoop now => exact .runLoop s.dispatcher .runLoop (.inl rfl) now
  | parked now => exact .runLoop .running .parked (.inr rfl) now
  | startWorker job dequeuedAt now => exact .quiet (.pass rfl rfl rfl rfl rfl rfl rfl rfl rfl)
  | cannotStart job dequeuedAt error now => exact .quiet (.pass rfl rfl rfl rfl rfl rfl rfl rfl rfl)
  | abandonJob job error now => exact .abandonJob job error now
  | runJob job dequeuedAt now =>
    exact .quiet (.of_setHandle rfl (SynthesisHandle.markDispatched_ending _ _)
      (.single rfl rfl rfl fun _ => .inl) rfl rfl (.single rfl))
  | checkCancelled job backendStartedAt now =>
    unfold checkCancelled
    split_ifs <;> exact .quiet (.pass rfl rfl rfl rfl rfl rfl rfl rfl rfl)
  | returnsAudio job backendStartedAt => exact .quiet (.pass rfl rfl rfl rfl rfl rfl rfl rfl rfl)
  | backend _ job backendStartedAt _ _ htask hbackend => exact .quiet (runBackend_quiet htask hbackend)
  | release job backendStartedAt backendFinishedAt outcome =>
    exact .release job backendStartedAt backendFinishedAt outcome
  | complete h result metrics =>
    unfold complete
    split_ifs <;> exact .quiet (.pass rfl rfl rfl rfl rfl rfl rfl rfl rfl)
  | combineMetrics h result metrics => exact .quiet (.pass rfl rfl rfl rfl rfl rfl rfl rfl rfl)

end ExecutorState
end TtsPool
