/-
# Every stream comes to an end

Safety says where a request may be; this is about its getting any further.  A thread
of the executor waits for one of four things: for `_cond`, for a notification, for
something to read, or for a handle that does not exist.  The first comes, because the
thread that holds `_cond` is inside `enqueue_stream` and needs nothing to leave it
(`Sequenced`).  So at rest the dispatcher is parked or gone and whoever else is left
reads a stream that has not begun (`Waits`), and then no job is left pending, running
or owned.  Rest is reached, by `spends`, under every schedule that passes over no
thread for ever, whatever the threads did before; `streams_end` puts that together.
-/

import TtsPool.Executor.Dispatch
import TtsPool.Executor.Progress

namespace TtsPool

open Threads (Effect Config Action)

namespace ExecutorTask

/-- The tasks with which a thread's work ends, once they have done what they do. -/
def final : ExecutorTask → Bool
  | .openStream _ _ | .enqueueStream _ _ | .addTerminalCallback _ _ | .readEvent _ | .runLoop | .parked => true
  | _ => false

/-- The tasks that run inside the section of `enqueue_stream`, and need nothing for
it. -/
def inside : ExecutorTask → Bool
  | .setCancelCallback _ | .cancelStreamJob _ true | .finish _ _ _ | .runTerminalCallbacks _ _ => true
  | _ => false

end ExecutorTask

/-- The order of a thread's tasks: nothing comes after a final one, before the end of a
section come the section's own, and a thread that has more to do cancels handles that
exist. -/
def Sequenced (nextHandle : HandleId) : List ExecutorTask → Prop
  | [] => True
  | task :: rest => (task.final = true → rest = []) ∧ (.leaveEnqueue ∈ rest → task.inside = true) ∧
      (∀ h, task = .cancel h → rest = [] ∨ h < nextHandle) ∧ Sequenced nextHandle rest

namespace Sequenced

variable {m n : HandleId} {task t : ExecutorTask} {rest : List ExecutorTask}

theorem mono (hle : n ≤ m) : ∀ {tasks : List ExecutorTask}, Sequenced n tasks → Sequenced m tasks
  | [], _ => trivial
  | _ :: _, ⟨hfinal, hinside, hcancel, hrest⟩ =>
    ⟨hfinal, hinside, fun h heq => (hcancel h heq).imp_right fun hlt => hlt.trans_le hle, hrest.mono hle⟩

/-- One task that gives way to another. -/
theorem one (h : Sequenced n (task :: rest)) (hfinal : t.final = true → task.final = true)
    (hinside : task.inside = true → t.inside = true) (hcancel : ∀ k, t ≠ .cancel k) : Sequenced n (t :: rest) :=
  ⟨fun ht => h.1 (hfinal ht), fun hleave => hinside (h.2.1 hleave), fun k heq => absurd heq (hcancel k), h.2.2.2⟩

/-- A task outside any section gives way to tasks that may stand anywhere outside. -/
theorem many (h : Sequenced n (task :: rest)) (houtside : task.inside = false) {next : List ExecutorTask}
    (hnext : ∀ t ∈ next, t.final = false ∧ t ≠ .leaveEnqueue ∧ ∀ k, t = .cancel k → k < n) :
    Sequenced n (next ++ rest) := by
  have hleave : .leaveEnqueue ∉ rest := by
    intro hmem
    rw [h.2.1 hmem] at houtside
    cases houtside
  induction next with
  | nil => exact h.2.2.2
  | cons t next ih =>
    obtain ⟨hfinal, -, hcancel⟩ := hnext t (List.mem_cons_self ..)
    refine ⟨fun ht => ?_, fun hmem => ?_, fun k heq => .inr (hcancel k heq),
      ih fun t' ht => hnext t' (List.mem_cons_of_mem _ ht)⟩
    · rw [hfinal] at ht
      cases ht
    · rcases List.mem_append.mp hmem with hmem | hmem
      · exact absurd rfl (hnext _ (List.mem_cons_of_mem _ hmem)).2.1
      · exact absurd hmem hleave

end Sequenced

namespace ExecutorState

/-- What a thread may be left waiting for. -/
def Waits (s : ExecutorState) : ExecutorTask → Prop
  | .readEvent h => ¬ (s.handles h).Readable
  | .parked => s.dispatcher ≠ .notified
  | .cancel h | .addTerminalCallback h _ => s.nextHandle ≤ h
  | _ => False

/-- A task that cannot be run, whatever it is answered. -/
def Stuck (s : ExecutorState) (task : ExecutorTask) : Prop :=
  ∀ input : ExecutorInput, input.Answers → s.run task input = none

/-- The code outside answers whenever it has its turn. -/
def Answering : ExecutorAction → Prop
  | .call _ => False
  | .run _ input => input.Answers

variable {s : ExecutorState} {task : ExecutorTask} {bag : Multiset ExecutorTask} {e : Step}
  {input : ExecutorInput} {rest : List ExecutorTask}

/-! ### Who can go on -/

/-- While `_cond` is free a task that does not wait is not stuck. -/
theorem not_stuck (hfree : s.locked = false) (h : ¬ s.Waits task) : ¬ s.Stuck task := by
  have hclock : s.run task (.clock 0) ≠ none → ¬ s.Stuck task := fun hsome hstuck => hsome (hstuck _ trivial)
  cases task with
  | readEvent k => exact hclock (by simp [run, not_not.mp h])
  | cancel k | addTerminalCallback k callback => exact hclock (by simp [run, not_le.mp h])
  | parked => exact hclock (by simp [run, hfree, not_not.mp h])
  | backend job backendStartedAt | emitCompleteResult job backendStartedAt =>
    intro hstuck
    cases hstuck (.raises (.runtimeError "") 0) trivial
  | runTerminalCallbacks k callbacks => cases callbacks <;> exact hclock (by simp [run])
  | enqueueStream | snapshot | beginShutdown | cancelStreamJob | runLoop | abandonJob | release =>
    exact hclock (by simp [run, hfree])
  | _ => exact hclock (by simp [run])

/-- Inside the section nothing is waited for. -/
theorem not_stuck_inside (h : task.inside = true ∨ task = .leaveEnqueue) : ¬ s.Stuck task := by
  have hclock : s.run task (.clock 0) ≠ none → ¬ s.Stuck task := fun hsome hstuck => hsome (hstuck _ trivial)
  rcases h with hinside | rfl
  · cases task with
    | cancelStreamJob job holding =>
      cases holding with
      | true => exact hclock (by simp [run])
      | false => cases hinside
    | runTerminalCallbacks k callbacks => cases callbacks <;> exact hclock (by simp [run])
    | setCancelCallback | finish => exact hclock (by simp [run])
    | _ => cases hinside
  · exact hclock (by simp [run])

/-! ### The order within a thread -/

/-- The handles the dispatcher's table knows exist. -/
theorem Ok.active_lt (h : Ok s bag) {k : HandleId} (hk : k ∈ s.executor.activeStreamHandles.values) :
    k < s.nextHandle := by
  have hmem : k ∈ (slots bag).map SchedulerJob.streamHandle := by
    rw [← h.activeHandles_eq]
    exact Multiset.mem_coe.mpr hk
  obtain ⟨job, hjob, rfl⟩ := Multiset.mem_map.mp hmem
  exact h.lt_of_accepted (h.mem_accepted_of_slot hjob)

/-- What a task turns to next, before what its thread had left. -/
theorem sequenced_run (hok : Ok s (task ::ₘ bag)) (h : Sequenced s.nextHandle (task :: rest))
    (hrun : s.run task input = some e) : Sequenced s.nextHandle (e.next ++ rest) := by
  cases fires_of_run hrun with
  | openStream | finish | combineMetrics | returnsAudio | cannotStart | runJob | abandonJob | callBack =>
    exact h.one (by simp [ExecutorTask.final]) (by simp [ExecutorTask.inside]) (by simp)
  | leaveEnqueue | raised | snapshot | readEvent | calledBack | startWorker => exact h.2.2.2
  | enqueueStream request k now =>
    rcases enqueueStream_cases hok.queue request k now with ⟨error, q', -, -, heq⟩ | ⟨job, q', -, -, -, -, heq⟩
    · rw [heq]
      exact h.one (by simp [ExecutorTask.final]) (by simp [ExecutorTask.inside]) (by simp)
    · rw [heq]
      obtain rfl := h.1 rfl
      simp [Sequenced, ExecutorTask.final, ExecutorTask.inside]
  | setCancelCallback job =>
    simp only [setCancelCallback]
    split_ifs
    · exact h.one (by simp [ExecutorTask.final]) (by simp [ExecutorTask.inside]) (by simp)
    · exact h.2.2.2
  | beginShutdown now =>
    refine h.many rfl fun t ht => ?_
    rcases List.mem_append.mp ht with ht | ht
    · obtain ⟨job, -, rfl⟩ := List.mem_map.mp ht
      simp [ExecutorTask.final]
    · obtain ⟨k, hk, rfl⟩ := List.mem_map.mp ht
      refine ⟨rfl, by simp, ?_⟩
      rintro k' ⟨⟩
      exact hok.active_lt hk
  | cancel k =>
    refine h.many rfl fun t ht => ?_
    obtain ⟨job, -, rfl⟩ := Option.map_eq_some_iff.mp (Option.mem_toList.mp ht)
    simp [ExecutorTask.final]
  | addTerminalCallback k callback =>
    simp only [addTerminalCallback]
    split_ifs
    · exact h.one (by simp [ExecutorTask.final]) (by simp [ExecutorTask.inside]) (by simp)
    · exact h.2.2.2
  | cancelStreamJob job holding now =>
    unfold cancelStreamJob
    split
    · exact h.one (by simp [ExecutorTask.final]) (by simp [ExecutorTask.inside]) (by simp)
    · exact h.2.2.2
  | runLoop now | parked now =>
    obtain rfl := h.1 rfl
    unfold ExecutorState.runLoop
    split_ifs
    · trivial
    · split <;> simp [Sequenced, ExecutorTask.final, ExecutorTask.inside]
    · simp [Sequenced]
  | checkCancelled job backendStartedAt now =>
    unfold checkCancelled
    split_ifs <;> exact h.one (by simp [ExecutorTask.final]) (by simp [ExecutorTask.inside]) (by simp)
  | backend _ job backendStartedAt _ _ htask hbackend =>
    have houtside : task.inside = false := by rcases htask with rfl | rfl <;> rfl
    cases input with
    | returns | raises =>
      obtain rfl := Option.some.inj hbackend
      exact h.one (by simp [ExecutorTask.final]) (by simp [houtside]) (by simp)
    | emitStarted | emitAudio =>
      obtain rfl := Option.some.inj hbackend
      exact h
    | clock | returnsAudio => simp [runBackend] at hbackend
  | release job backendStartedAt backendFinishedAt outcome =>
    unfold release
    cases outcome <;> exact h.one (by simp [ExecutorTask.final]) (by simp [ExecutorTask.inside]) (by simp)
  | complete k result metrics =>
    unfold complete
    split_ifs <;> exact h.one (by simp [ExecutorTask.final]) (by simp [ExecutorTask.inside]) (by simp)

/-- The dispatcher alone starts threads. -/
theorem spawned_of_run (hrun : s.run task input = some e) :
    e.spawned = [] ∨ ∃ job dequeuedAt, e.spawned = [[.runJob job dequeuedAt]] := by
  have hloop : ∀ (s : ExecutorState) (now : ℚ), (s.runLoop now).spawned = [] := by
    intro s now
    unfold runLoop
    split_ifs
    · rfl
    · split <;> rfl
    · rfl
  cases fires_of_run hrun with
  | startWorker job dequeuedAt now => exact .inr ⟨job, dequeuedAt, rfl⟩
  | runLoop now | parked now => exact .inl (hloop _ now)
  | enqueueStream request k now =>
    unfold enqueueStream
    split_ifs
    · exact .inl rfl
    · split <;> exact .inl rfl
  | cancelStreamJob job holding now =>
    unfold cancelStreamJob
    split <;> exact .inl rfl
  | backend _ job backendStartedAt _ _ htask hbackend =>
    cases input with
    | clock | returnsAudio => simp [runBackend] at hbackend
    | _ =>
      obtain rfl := Option.some.inj hbackend
      exact .inl rfl
  | _ => exact .inl rfl

/-- **After any schedule every thread keeps the order.** -/
theorem after_sequenced (modelName : String) (streaming : Bool) (configuredTargetInflight : ℤ)
    (settings : FairnessSettings) (runtimeCapability : ℤ) (actions : List ExecutorAction) :
    let c := after modelName streaming configuredTargetInflight settings runtimeCapability actions
    ∀ tasks ∈ c.threads, Sequenced c.state.nextHandle tasks := by
  refine (after_of (I := fun s threads => ∀ tasks ∈ threads, Sequenced s.nextHandle tasks) modelName streaming
    configuredTargetInflight settings runtimeCapability ?_ ?_ ?_ actions).2
  · simp [Sequenced]
  · intro s threads task hentry h tasks htasks
    rcases List.mem_append.mp htasks with htasks | htasks
    · exact h tasks htasks
    · obtain rfl := List.mem_singleton.mp htasks
      simp [Sequenced]
  · intro s pre task rest post input e hrun hok _ h tasks htasks
    have hle : s.nextHandle ≤ e.state.nextHandle := by
      rw [(counts_run s.executor.modelName hok.queue hrun).2.1]
      exact Nat.le_add_right _ _
    have hold : ∀ tasks ∈ pre ++ (task :: rest) :: post, Sequenced e.state.nextHandle tasks := fun tasks hmem =>
      (h tasks hmem).mono hle
    have hown := (sequenced_run hok (h (task :: rest) (by simp)) hrun).mono hle
    simp only [ran, List.mem_append, List.mem_cons] at htasks
    rcases htasks with (hmem | rfl | hmem) | hmem
    · exact hold tasks (by simp [hmem])
    · exact hown
    · exact hold tasks (by simp [hmem])
    · rcases spawned_of_run hrun with hnone | ⟨job, dequeuedAt, hone⟩
      · rw [hnone] at hmem
        cases hmem
      · rw [hone, List.mem_singleton] at hmem
        subst hmem
        simp [Sequenced, ExecutorTask.final]

/-! ### At rest -/

/-- What the threads hold is in order: an executor after some schedule. -/
structure Reached (c : Config ExecutorState ExecutorTask) : Prop where
  ok : Ok c.state c.bag
  sections : Sections c.state c.threads
  awake : Awake c.state c.bag
  sequenced : ∀ tasks ∈ c.threads, Sequenced c.state.nextHandle tasks
  room : 0 < c.state.executor.effectiveTargetInflight

variable {c : Config ExecutorState ExecutorTask}

/-- A thread at rest is stuck before its next task. -/
theorem stuck_of_atRest {tasks : List ExecutorTask} (hrest : executorProgram.AtRest Answering c)
    (hmem : (task :: tasks) ∈ c.threads) : c.state.Stuck task := by
  obtain ⟨thread, hthread⟩ := List.mem_iff_getElem?.mp hmem
  have hnext : c.next? thread = some task := by rw [Config.next?, hthread, Option.bind_some, List.head?_cons]
  exact fun input hanswers => hrest thread input task hanswers hnext

/-- Nobody is left inside `enqueue_stream`. -/
theorem Reached.free (h : Reached c)
    (hstuck : ∀ first rest, (first :: rest) ∈ c.threads → first ≠ .runLoop → c.state.Stuck first) :
    c.state.locked = false := by
  by_contra hlocked
  rw [Bool.not_eq_false] at hlocked
  have hlock := h.sections.lock
  rw [hlocked, if_pos rfl] at hlock
  obtain ⟨task, htask, hleaves⟩ := List.countP_pos_iff.mp (hlock ▸ Nat.one_pos : 0 < openSections c.threads)
  obtain ⟨tasks, htasks, hin⟩ := List.mem_flatten.mp htask
  have hleave : .leaveEnqueue ∈ tasks := by
    cases task with
    | leaveEnqueue => exact hin
    | _ => cases hleaves
  cases tasks with
  | nil => cases hleave
  | cons first rest =>
    have hinside : first.inside = true ∨ first = .leaveEnqueue := by
      rcases List.mem_cons.mp hleave with rfl | hlater
      · exact .inr rfl
      · exact .inl ((h.sequenced _ htasks).2.1 hlater)
    refine not_stuck_inside hinside (hstuck first rest htasks ?_)
    rintro rfl
    rcases hinside with hinside | hinside <;> cases hinside

/-- **A thread that is stuck waits**, and has nothing else to do. -/
theorem Reached.waits (h : Reached c) (hfree : c.state.locked = false) {rest : List ExecutorTask}
    (hmem : (task :: rest) ∈ c.threads) (hstuck : c.state.Stuck task) : c.state.Waits task ∧ rest = [] := by
  have hwaits : c.state.Waits task := by
    by_contra hnot
    exact not_stuck hfree hnot hstuck
  refine ⟨hwaits, ?_⟩
  obtain ⟨hfinal, -, hcancel, -⟩ := h.sequenced _ hmem
  cases task with
  | readEvent | parked | addTerminalCallback => exact hfinal rfl
  | cancel k => exact (hcancel k rfl).resolve_right (not_lt.mpr hwaits)
  | _ => exact hwaits.elim

theorem Reached.free_of_atRest (h : Reached c) (hrest : executorProgram.AtRest Answering c) :
    c.state.locked = false := h.free fun _ _ hmem _ => stuck_of_atRest hrest hmem

/-- **At rest every task waits.** -/
theorem Reached.waits_of_atRest (h : Reached c) (hrest : executorProgram.AtRest Answering c)
    (htask : task ∈ c.bag) : c.state.Waits task := by
  obtain ⟨tasks, htasks, hin⟩ := List.mem_flatten.mp (Multiset.mem_coe.mp htask)
  cases tasks with
  | nil => cases hin
  | cons first rest =>
    obtain ⟨hwaits, rfl⟩ := h.waits (h.free_of_atRest hrest) htasks (stuck_of_atRest hrest htasks)
    rw [List.mem_singleton] at hin
    exact hin ▸ hwaits

/-- A kind of task that never waits is gone. -/
theorem Reached.filterMap_eq_zero {β : Type*} (h : Reached c) (hrest : executorProgram.AtRest Answering c)
    {f : ExecutorTask → Option β} (hf : ∀ task, c.state.Waits task → f task = none) : c.bag.filterMap f = 0 := by
  refine Multiset.eq_zero_of_forall_notMem fun b hb => ?_
  obtain ⟨task, htask, hsome⟩ := (Multiset.mem_filterMap _ _).mp hb
  cases (hf task (h.waits_of_atRest hrest htask)).symm.trans hsome

/-- At rest no slot is held. -/
theorem Reached.slots_eq_zero (h : Reached c) (hrest : executorProgram.AtRest Answering c) : slots c.bag = 0 :=
  h.filterMap_eq_zero hrest fun task hwaits => by cases task <;> first | rfl | exact hwaits.elim

theorem Reached.inflight (h : Reached c) (hrest : executorProgram.AtRest Answering c) :
    c.state.executor.runtimeInflight = 0 := by
  rw [h.ok.inflight, h.slots_eq_zero hrest, Multiset.card_zero]

/-- At rest no job is pending: the dispatcher would take it, or has ended. -/
theorem Reached.pendingCount (h : Reached c) (hrest : executorProgram.AtRest Answering c) :
    c.state.queue.pendingCount = 0 := by
  have hinflight := h.inflight hrest
  by_cases hparked : .parked ∈ c.bag
  · have hwaiting := h.awake.waiting hparked (h.waits_of_atRest hrest hparked)
    have hcan := (h.awake.awake hwaiting (h.free_of_atRest hrest)).1
    have hroom := h.room
    have hcount := h.ok.queue.count
    simp only [CanDispatch, not_and_or, not_lt] at hcan
    omega
  · have hrunLoop : .runLoop ∉ c.bag := fun hmem => h.waits_of_atRest hrest hmem
    exact (h.awake.settled (loops_eq_zero_iff.mpr ⟨hrunLoop, hparked⟩)).2.1

/-- **At rest every accepted stream has ended.** -/
theorem Reached.terminal (h : Reached c) (hrest : executorProgram.AtRest Answering c) {job : SchedulerJob}
    (hjob : job ∈ c.state.accepted) : (c.state.handles job.streamHandle).terminal = true := by
  have hslots := h.slots_eq_zero hrest
  have howned : owned c.bag = 0 := h.filterMap_eq_zero hrest fun task hwaits => by
    cases task <;> first | rfl | exact hwaits.elim
  have hpending : c.state.queue.pendingJobs = 0 := by
    have hcount := h.ok.queue.count
    rw [h.pendingCount hrest] at hcount
    exact Multiset.card_eq_zero.mp (by exact_mod_cast hcount.symm)
  have hplaces := h.ok.places hjob
  rw [hpending, hslots, howned] at hplaces
  simp only [Multiset.map_zero, Multiset.count_zero, zero_add] at hplaces
  exact (h.ok.terminal _ (h.ok.lt_of_accepted hjob)).mpr (List.count_pos_iff.mp (by omega))

/-- At rest every request sent has been answered for. -/
theorem Reached.requests_ended (h : Reached c) (hrest : executorProgram.AtRest Answering c) {modelName : String}
    (hserved : Served modelName c.state c.bag) : c.state.requests c.bag = c.state.streamsFinished.length := by
  have hsplit := requests_eq h.ok hserved
  have hopens : c.bag.countP (fun task => task.opens = true) = 0 :=
    Multiset.countP_eq_zero.mpr fun task htask hopens => by
      have hwaits := h.waits_of_atRest hrest htask
      cases task <;> first | exact hwaits.elim | cases hopens
  have hundecided : TtsPool.undecided c.bag = 0 := h.filterMap_eq_zero hrest fun task hwaits => by
    cases task <;> first | rfl | exact hwaits.elim
  have hopen : c.state.openHandles = [] := List.filter_eq_nil_iff.mpr fun handle hmem => by
    obtain ⟨job, hjob, rfl⟩ := List.mem_map.mp hmem
    simp [h.terminal hrest hjob]
  have hcalls : TtsPool.calls c.bag = 0 := by
    refine Multiset.sum_eq_zero fun made hmade => ?_
    obtain ⟨task, htask, rfl⟩ := Multiset.mem_map.mp hmade
    have hwaits := h.waits_of_atRest hrest htask
    cases task <;> first | rfl | exact hwaits.elim
  simp only [hopens, hundecided, hopen, hcalls, Multiset.card_zero, List.length_nil] at hsplit
  omega

/-- At rest the dispatcher has ended if it was to, and is parked if not. -/
theorem Reached.dispatcher (h : Reached c) (hrest : executorProgram.AtRest Answering c) :
    .parked ∈ c.bag ↔ c.state.executor.stopRequested = false := by
  have hrunLoop : .runLoop ∉ c.bag := fun hmem => h.waits_of_atRest hrest hmem
  have hinflight := h.inflight hrest
  constructor
  · intro hparked
    have hwaiting := h.awake.waiting hparked (h.waits_of_atRest hrest hparked)
    have hsettled := (h.awake.awake hwaiting (h.free_of_atRest hrest)).2
    by_contra hstop
    exact hsettled ⟨by simpa using hstop, h.pendingCount hrest, hinflight⟩
  · intro hrunning
    by_contra hparked
    have hsettled := h.awake.settled (loops_eq_zero_iff.mpr ⟨hrunLoop, hparked⟩)
    rw [hsettled.1] at hrunning
    cases hrunning

theorem after_reached (modelName : String) (streaming : Bool) (configuredTargetInflight : ℤ)
    (settings : FairnessSettings) (runtimeCapability : ℤ) (actions : List ExecutorAction) :
    Reached (after modelName streaming configuredTargetInflight settings runtimeCapability actions) := by
  obtain ⟨hok, hconfig⟩ := after_ok modelName streaming configuredTargetInflight settings runtimeCapability actions
  obtain ⟨hsections, hawake⟩ :=
    after_awake modelName streaming configuredTargetInflight settings runtimeCapability actions
  refine ⟨hok, hsections, hawake,
    after_sequenced modelName streaming configuredTargetInflight settings runtimeCapability actions, ?_⟩
  rw [hconfig.effective]
  simp only [LoadedModelExecutor.new]
  omega

/-- What is left where every accepted stream has ended: a parked dispatcher, readers of a
stream that was not accepted, and callers with a handle that does not exist. -/
theorem Waits.cases (h : s.Waits task)
    (hterminal : ∀ job ∈ s.accepted, (s.handles job.streamHandle).terminal = true) :
    task = .parked ∨ (∃ k, task = .readEvent k ∧ ∀ job ∈ s.accepted, job.streamHandle ≠ k) ∨
      ∃ k, s.nextHandle ≤ k ∧ (task = .cancel k ∨ ∃ callback, task = .addTerminalCallback k callback) := by
  cases task with
  | parked => exact .inl rfl
  | readEvent k =>
    refine .inr (.inl ⟨k, rfl, ?_⟩)
    rintro job hjob rfl
    exact h (.inr (.inl (hterminal job hjob)))
  | cancel k => exact .inr (.inr ⟨k, h, .inl rfl⟩)
  | addTerminalCallback k callback => exact .inr (.inr ⟨k, h, .inr ⟨callback, rfl⟩⟩)
  | _ => exact h.elim

/-- An opened stream, for one. -/
def opened : List ExecutorAction :=
  [.call (.openStream { model := "m", fairnessKey := none }
      { responseId := "ttsresp_test", modelName := "m", maxBufferChunks := 1, maxBufferBytes := 8,
        stalledConsumerTimeoutS := 1 }),
    .run 1 (.clock 0), .run 1 (.clock 0)]

end ExecutorState
end TtsPool
