/-
# An executor that is looked at

`snapshot` and `score` are reads, but `_expire_idle_states` runs in them, so an
executor that is looked at forgets some idle keys earlier than one that is not.
Its run is otherwise the same.  An `ObservedAction` is a step of the run itself or
such a look from outside, put in anywhere; the run without it is the run of the
actions that are left.

The two states are the same but for the queue, and the queues differ in what `Seen`
says: as long as requests come in, in the keys expired at the last reading of the
clock; once shutdown has drained the queue, in idle keys.  Where the tasks that
hand a reading to `enqueue`, `pop_next`, `remove` or `snapshots` read a clock that
does not go back, every task does alike in both.
-/

import TtsPool.Executor.Runs
import TtsPool.Fair.Observed

namespace TtsPool

open Threads (Effect Action Config)

/-- A step of a run that is observed. -/
inductive ObservedAction where
  | act (a : ExecutorAction)
  | snapshot (now : ℚ)
  | score (key : FairnessKey) (now : ℚ)

/-- What the executor decides about a request. -/
inductive Decision where
  | accepts (job : SchedulerJob)
  | rejects (handle : HandleId) (error : EngineError)
  | pops (job : SchedulerJob)
  | drains (jobs : List SchedulerJob)
deriving DecidableEq

/-- The tasks that hand a reading of the clock to `enqueue`, `pop_next`, `remove`
or `snapshots`. -/
def ExecutorTask.reads (s : ExecutorState) : ExecutorTask → Bool
  | .enqueueStream _ _ => s.executor.acceptingNewRequests && !s.executor.stopRequested
  | .snapshot | .cancelStreamJob _ _ => true
  | .runLoop | .parked =>
    0 < s.queue.pendingCount && s.executor.runtimeInflight < s.executor.effectiveTargetInflight
  | _ => false

/-- The tasks that touch the queue. -/
def ExecutorTask.queues : ExecutorTask → Bool
  | .enqueueStream _ _ | .snapshot | .beginShutdown | .cancelStreamJob _ _ | .runLoop | .parked
  | .abandonJob _ _ | .release _ _ _ _ => true
  | _ => false

namespace ExecutorState

/-- The reading a task hands over, if it runs. -/
def reading (s : ExecutorState) (task : ExecutorTask) : ExecutorInput → Option ℚ
  | .clock now => if task.reads s && (s.run task (.clock now)).isSome then some now else none
  | _ => none

/-- What a task decides, as its thread goes on: `enqueue_stream` raises or
registers the cancel callback, the dispatcher starts a worker, and
`begin_shutdown` has its jobs from `drain`. -/
def decision (s : ExecutorState) (task : ExecutorTask) (input : ExecutorInput) : Option Decision :=
  match task, input, (s.run task input).map Effect.next with
  | .enqueueStream _ _, _, some (.raised h error :: _) => some (.rejects h error)
  | .enqueueStream _ _, _, some (.setCancelCallback job :: _) => some (.accepts job)
  | .runLoop, _, some (.startWorker job _ :: _) => some (.pops job)
  | .parked, _, some (.startWorker job _ :: _) => some (.pops job)
  | .beginShutdown, .clock now, some _ => some (.drains (s.queue.drain now).2)
  | _, _, _ => none

end ExecutorState

/-- What an action decides. -/
def decisionOf (c : Config ExecutorState ExecutorTask) : ExecutorAction → Option Decision
  | .call _ => none
  | .run thread input => (c.next? thread).bind fun task => c.state.decision task input

/-- What is decided along a run. -/
def decisionsOf (c : Config ExecutorState ExecutorTask) (actions : List ExecutorAction) : List Decision :=
  Run.trace executorProgram.step decisionOf c actions

namespace ObservedAction

/-- The action of the run itself, if it is one. -/
def action? : ObservedAction → Option ExecutorAction
  | .act a => some a
  | _ => none

/-- A snapshot waits for `_cond`; where it cannot have it, it does not happen
here. -/
def step (c : Config ExecutorState ExecutorTask) : ObservedAction → Config ExecutorState ExecutorTask
  | .act a => executorProgram.step c a
  | .snapshot now => if c.state.locked then c else { c with state := (c.state.snapshot now).1 }
  | .score key now => { c with state := c.state.setQueue (c.state.queue.score key now).1 }

/-- The reading of the clock it hands over. -/
def reading (c : Config ExecutorState ExecutorTask) : ObservedAction → Option ℚ
  | .act (.call _) => none
  | .act (.run thread input) => (c.next? thread).bind fun task => c.state.reading task input
  | .snapshot now => if c.state.locked then none else some now
  | .score _ now => some now

/-- What it decides: a look decides nothing. -/
def decision (c : Config ExecutorState ExecutorTask) (w : ObservedAction) : Option Decision :=
  w.action?.bind (decisionOf c)

/-- The readings handed over along a run, in order. -/
def readings (c : Config ExecutorState ExecutorTask) (ws : List ObservedAction) : List ℚ :=
  Run.trace step reading c ws

/-- What is decided along it. -/
def decisions (c : Config ExecutorState ExecutorTask) (ws : List ObservedAction) : List Decision :=
  Run.trace step decision c ws

end ObservedAction

namespace ExecutorState

variable {s s' : ExecutorState} {task : ExecutorTask} {bag : Multiset ExecutorTask} {input : ExecutorInput}
  {job : SchedulerJob} {error : EngineError} {started finished t now : ℚ}
  {outcome : Except EngineError RuntimeStreamResult}

/-- The two states, the second of them looked at more often. -/
structure Seen (t : ℚ) (s s' : ExecutorState) : Prop where
  rest : s' = s.setQueue s'.queue
  queue : (s.executor.stopRequested = false ∧ s.queue.SameFrom t s'.queue) ∨
    s.executor.stopRequested = true ∧ s.queue.pendingCount = 0 ∧ s.queue.SameBusy s'.queue

@[simp] theorem setQueue_queue (s : ExecutorState) (q : FairPendingQueue) : (s.setQueue q).queue = q := rfl

/-! ### Tasks that leave the queue alone -/

/-- Two branches on one condition. -/
theorem rel_ite {α β : Type*} {R : α → β → Prop} {P Q : Prop} [Decidable P] [Decidable Q] {a₁ b₁ : α}
    {a₂ b₂ : β} (hiff : P ↔ Q) (ha : P → R a₁ a₂) (hb : ¬P → R b₁ b₂) :
    R (if P then a₁ else b₁) (if Q then a₂ else b₂) := by
  by_cases h : P
  · rw [if_pos h, if_pos (hiff.mp h)]
    exact ha h
  · rw [if_neg h, if_neg (mt hiff.mpr h)]
    exact hb h

/-- The executor as it was, and another queue. -/
structure KeepsExecutor (s : ExecutorState) (q : FairPendingQueue) (s₁ s₂ : ExecutorState) : Prop where
  executor : s₁.executor = s.executor
  rest : s₂ = s₁.setQueue q

theorem KeepsExecutor.seen {s₁ s₂ : ExecutorState} (h : Seen t s s')
    (hkeeps : KeepsExecutor s s'.queue s₁ s₂) : Seen t s₁ s₂ := by
  obtain ⟨hexecutor, rfl⟩ := hkeeps
  refine ⟨rfl, ?_⟩
  have hqueue := h.queue
  simp only [queue, hexecutor] at hqueue ⊢
  exact hqueue

theorem runBackend_alike (s : ExecutorState) (q : FairPendingQueue) (task : ExecutorTask) (job : SchedulerJob)
    (backendStartedAt : ℚ) (input : ExecutorInput) :
    Option.Rel (Effect.Alike (KeepsExecutor s q)) (s.runBackend task job backendStartedAt input)
      ((s.setQueue q).runBackend task job backendStartedAt input) := by
  have hemit : ∀ handle, Effect.Alike (KeepsExecutor s q) (s.emit task job.streamHandle handle)
      ((s.setQueue q).emit task job.streamHandle handle) := by
    intro handle
    match handle with
    | .ok (some handle) => exact ⟨⟨rfl, rfl⟩, rfl, rfl⟩
    | .ok none => exact ⟨⟨rfl, rfl⟩, rfl, rfl⟩
    | .error _ => exact ⟨⟨rfl, rfl⟩, rfl, rfl⟩
  cases input with
  | returns result now => exact .some ⟨⟨rfl, rfl⟩, rfl, rfl⟩
  | raises error now => exact .some ⟨⟨rfl, rfl⟩, rfl, rfl⟩
  | emitStarted sampleRateHz channelCount => exact .some (hemit _)
  | emitAudio event remaining => exact .some (hemit _)
  | clock now => exact .none
  | returnsAudio => exact .none

/-- A task that does not look at the queue does alike whatever the queue. -/
theorem run_alike (s : ExecutorState) (q : FairPendingQueue) (hqueues : task.queues = false)
    (input : ExecutorInput) :
    Option.Rel (Effect.Alike (KeepsExecutor s q)) (s.run task input) ((s.setQueue q).run task input) := by
  cases task with
  | enqueueStream | snapshot | beginShutdown | cancelStreamJob | runLoop | parked | abandonJob | release =>
    cases hqueues
  | setCancelCallback | leaveEnqueue | raised | finish | complete | combineMetrics =>
    exact .some ⟨⟨rfl, rfl⟩, rfl, rfl⟩
  | cancel | addTerminalCallback | readEvent =>
    exact rel_ite .rfl (fun _ => .some ⟨⟨rfl, rfl⟩, rfl, rfl⟩) fun _ => .none
  | runTerminalCallbacks h callbacks =>
    match callbacks with
    | [] => exact .some ⟨⟨rfl, rfl⟩, rfl, rfl⟩
    | .streamFinished _ :: _ => exact .some ⟨⟨rfl, rfl⟩, rfl, rfl⟩
    | .other _ :: _ => exact .some ⟨⟨rfl, rfl⟩, rfl, rfl⟩
  | openStream | runJob | checkCancelled =>
    cases input with
    | clock now => exact .some ⟨⟨rfl, rfl⟩, rfl, rfl⟩
    | _ => exact .none
  | startWorker job dequeuedAt =>
    cases input with
    | clock now | raises error now => exact .some ⟨⟨rfl, rfl⟩, rfl, rfl⟩
    | _ => exact .none
  | backend job backendStartedAt =>
    cases input with
    | returnsAudio => exact rel_ite .rfl (fun _ => .none) fun _ => .some ⟨⟨rfl, rfl⟩, rfl, rfl⟩
    | _ =>
      simp only [run]
      exact runBackend_alike s q _ job backendStartedAt _
  | emitCompleteResult job backendStartedAt => exact runBackend_alike s q _ job backendStartedAt _

/-! ### Tasks of the queue -/

theorem Seen.pendingCount (h : Seen t s s') : s.queue.pendingCount = s'.queue.pendingCount :=
  h.queue.elim (fun ⟨_, hfrom⟩ => FairPendingQueue.SameOn.pendingCount hfrom)
    fun ⟨_, _, hbusy⟩ => FairPendingQueue.SameOn.pendingCount hbusy

/-- Nothing comes to be pending where no job comes in. -/
theorem pendingCount_of_flow {q q' : FairPendingQueue} {left : Multiset SchedulerJob}
    {started stopped : Multiset Ticket} (hok : q.Ok) (h : q.Flow 0 left started stopped q')
    (hzero : q.pendingCount = 0) : q'.pendingCount = 0 := by
  have hnone : q.pendingJobs = 0 := by
    rw [← Multiset.card_eq_zero]
    have hcount := hok.count
    omega
  have hpending := h.pending
  rw [hnone, zero_add] at hpending
  rw [h.ok.count, (add_eq_zero.mp hpending).1]
  rfl

/-- What does the same on any test that spares busy states, and takes no job in. -/
theorem Seen.keep (h : Seen t s s') (hok : s.queue.Ok) (hok' : s'.queue.Ok) {s₁ s₂ : ExecutorState}
    {left : Multiset SchedulerJob} {started stopped : Multiset Ticket}
    (hflow : s.queue.Flow 0 left started stopped s₁.queue)
    (hstop : s₁.executor.stopRequested = s.executor.stopRequested) (hrest : s₂ = s₁.setQueue s₂.queue)
    (hsame : ∀ p, s.queue.Spares p → s'.queue.Spares p → s.queue.SameOn p s'.queue →
      s₁.queue.SameOn p s₂.queue) : Seen t s₁ s₂ := by
  refine ⟨hrest, ?_⟩
  rw [hstop]
  rcases h.queue with ⟨hrunning, hfrom⟩ | ⟨hstopped, hzero, hbusy⟩
  · refine .inl ⟨hrunning, ?_⟩
    rw [FairPendingQueue.SameFrom, hflow.grows.settings]
    exact hsame _ (hok.spares rfl t) (hok'.spares (FairPendingQueue.SameOn.settings hfrom) t) hfrom
  · exact .inr ⟨hstopped, pendingCount_of_flow hok hflow hzero,
      hsame _ (FairPendingQueue.spares_busy _) (FairPendingQueue.spares_busy _) hbusy⟩

/-- Some test that spares busy states leaves out what the queues differ in. -/
theorem Seen.sameOn (h : Seen t s s') (hok : s.queue.Ok) (hok' : s'.queue.Ok) :
    ∃ p, s.queue.Spares p ∧ s'.queue.Spares p ∧ s.queue.SameOn p s'.queue := by
  rcases h.queue with ⟨-, hfrom⟩ | ⟨-, -, hbusy⟩
  · exact ⟨_, hok.spares rfl t, hok'.spares (FairPendingQueue.SameOn.settings hfrom) t, hfrom⟩
  · exact ⟨_, FairPendingQueue.spares_busy _, FairPendingQueue.spares_busy _, hbusy⟩

theorem cancelStreamJob_alike (h : Seen t s s') (hok : s.queue.Ok) (hok' : s'.queue.Ok) (job : SchedulerJob)
    (now : ℚ) : Effect.Alike (Seen t) (s.cancelStreamJob job now) (s'.cancelStreamJob job now) := by
  obtain ⟨q', rfl⟩ : ∃ q', s' = s.setQueue q' := ⟨_, h.rest⟩
  obtain ⟨p, hspare, hspare', hsame⟩ := h.sameOn hok hok'
  have hfound : (s.queue.remove job now).2 = (q'.remove job now).2 := (hsame.remove hspare hspare' job now).1
  obtain ⟨left, hflow⟩ : ∃ left, s.queue.Flow 0 left 0 0 (s.queue.remove job now).1 := by
    rcases FairPendingQueue.remove_flow hok job now with ⟨heq, -⟩ | ⟨found, removed, heq, -, hflow, -⟩
    · exact ⟨0, heq ▸ .refl hok⟩
    · exact ⟨{found}, heq ▸ hflow⟩
  have hcases : ∀ s : ExecutorState, s.cancelStreamJob job now = if (s.queue.remove job now).2 then
      { state := (s.setQueue (s.queue.remove job now).1).notifyAll
        next := [.fail job.streamHandle (.synthesisCancelled "synthesis was cancelled while queued")] }
      else { state := s.setQueue (s.queue.remove job now).1 } := by
    intro s
    unfold cancelStreamJob
    match s.queue.remove job now with
    | (_, true) | (_, false) => rfl
  have hkept : Seen t (s.setQueue (s.queue.remove job now).1)
      ((s.setQueue q').setQueue (q'.remove job now).1) :=
    h.keep hok hok' hflow rfl rfl fun _ hspare hspare' hsame => (hsame.remove hspare hspare' job now).2
  rw [hcases, hcases, setQueue_queue, ← hfound]
  split_ifs
  · exact ⟨⟨congrArg notifyAll hkept.rest, hkept.queue⟩, rfl, rfl⟩
  · exact ⟨hkept, rfl, rfl⟩

theorem abandonJob_alike (h : Seen t s s') (hok : Ok s (.abandonJob job error ::ₘ bag)) (hok' : s'.queue.Ok)
    (now : ℚ) : Effect.Alike (Seen t) (s.abandonJob job error now) (s'.abandonJob job error now) := by
  have hticket : job.ticket ∈ s.queue.activeTickets := hok.ticket_mem (by simp [slots, ExecutorTask.slotJob])
  obtain ⟨-, hflow⟩ := (FairPendingQueue.abandon_flow hok.queue job now).resolve_right
    fun hno => hno.1 hticket
  obtain ⟨q', rfl⟩ : ∃ q', s' = s.setQueue q' := ⟨_, h.rest⟩
  exact ⟨h.keep hok.queue hok' hflow rfl rfl fun _ hspare _ hsame => hsame.abandon hspare hticket now,
    rfl, rfl⟩

theorem release_alike (h : Seen t s s') (hok : Ok s (.release job started finished outcome ::ₘ bag))
    (hok' : s'.queue.Ok) : Effect.Alike (Seen t) (s.release job started finished outcome)
      (s'.release job started finished outcome) := by
  have hticket : job.ticket ∈ s.queue.activeTickets := hok.ticket_mem (by simp [slots, ExecutorTask.slotJob])
  obtain ⟨-, hflow⟩ := (FairPendingQueue.complete_flow hok.queue job (max 0 ((finished - started) * 1000))
    finished).resolve_right fun hno => hno.1 hticket
  obtain ⟨q', rfl⟩ : ∃ q', s' = s.setQueue q' := ⟨_, h.rest⟩
  exact ⟨h.keep hok.queue hok' hflow rfl rfl fun _ hspare hspare' hsame =>
    hsame.complete hspare hspare' job _ finished, rfl, rfl⟩

theorem beginShutdown_alike (h : Seen t s s') (hok : s.queue.Ok) (hok' : s'.queue.Ok) (now : ℚ) :
    (s.queue.drain now).2 = (s'.queue.drain now).2 ∧
      Effect.Alike (Seen t) (s.beginShutdown now) (s'.beginShutdown now) := by
  obtain ⟨q', rfl⟩ : ∃ q', s' = s.setQueue q' := ⟨_, h.rest⟩
  obtain ⟨p, hspare, hspare', hsame⟩ := h.sameOn hok hok'
  obtain ⟨hjobs, hdrained⟩ := (hsame.busy hspare hspare').drain now
  have hnext : ∀ s : ExecutorState, (s.beginShutdown now).next =
      (s.queue.drain now).2.map (fun job =>
        .fail job.streamHandle (.modelState s.executor.modelName "model_unloading")) ++
      s.executor.activeStreamHandles.values.map .cancel := fun _ => rfl
  refine ⟨hjobs, ⟨rfl, .inr ⟨rfl, rfl, hdrained⟩⟩, ?_, rfl⟩
  rw [hnext, hnext, ← hjobs]
  rfl

/-- A look at both. -/
theorem Seen.snapshot (h : Seen t s s') (hok : s.queue.Ok) (hok' : s'.queue.Ok) :
    Seen t (s.snapshot t).1 (s'.snapshot t).1 := by
  obtain ⟨q', rfl⟩ : ∃ q', s' = s.setQueue q' := ⟨_, h.rest⟩
  refine ⟨rfl, h.queue.imp (fun ⟨hrunning, hfrom⟩ => ⟨hrunning, ?_⟩) fun ⟨hstopped, hzero, hbusy⟩ =>
    ⟨hstopped, hzero, hbusy.expire hok hok' t⟩⟩
  show (s.queue.expireIdleStates t).SameFrom t (q'.expireIdleStates t)
  rw [hfrom.expire]
  exact .refl _ _

/-- A request comes in at the reading `t`: the keys the queues differ in are forgotten
first. -/
theorem enqueueStream_alike (h : Seen t s s') (request : ResponseRequest) (k : HandleId)
    (hnow : (ExecutorTask.enqueueStream request k).reads s' = true → now = t) :
    Effect.Alike (Seen t) (s.enqueueStream request k now) (s'.enqueueStream request k now) := by
  obtain ⟨q', rfl⟩ : ∃ q', s' = s.setQueue q' := ⟨_, h.rest⟩
  refine rel_ite .rfl (fun _ => ⟨⟨rfl, h.queue⟩, rfl, rfl⟩) fun hopen => ?_
  obtain ⟨haccepting, hrunning⟩ : s.executor.acceptingNewRequests = true ∧
      s.executor.stopRequested = false := by simpa using hopen
  obtain rfl := hnow (by simp [ExecutorTask.reads, setQueue, haccepting, hrunning])
  obtain ⟨-, hfrom⟩ := h.queue.resolve_right fun hstopped => by simp [hrunning] at hstopped
  have henqueue : s.queue.enqueue request k now = q'.enqueue request k now :=
    FairPendingQueue.SameFrom.enqueue hfrom request k
  rw [setQueue_queue, ← henqueue]
  rcases s.queue.enqueue request k now with ⟨q, _ | _⟩ <;>
    exact ⟨⟨rfl, .inl ⟨hrunning, .refl _ _⟩⟩, rfl, rfl⟩

/-- So they are where the dispatcher takes a job; once the queue is drained it takes
none. -/
theorem runLoop_alike (h : Seen t s s') (hnow : ExecutorTask.runLoop.reads s' = true → now = t) :
    Effect.Alike (Seen t) (s.runLoop now) (s'.runLoop now) := by
  have hpending := h.pendingCount
  obtain ⟨q', rfl⟩ : ∃ q', s' = s.setQueue q' := ⟨_, h.rest⟩
  refine rel_ite (by rw [hpending]; rfl) (fun _ => ⟨h, rfl, rfl⟩) fun _ => ?_
  refine rel_ite (by rw [hpending]; rfl) (fun hslot => ?_) fun _ => ⟨⟨rfl, h.queue⟩, rfl, rfl⟩
  rw [hpending] at hslot
  obtain rfl := hnow (Bool.and_eq_true_iff.mpr ⟨decide_eq_true hslot.1, decide_eq_true hslot.2⟩)
  obtain ⟨hrunning, hfrom⟩ := h.queue.resolve_right fun ⟨_, hzero, _⟩ => by
    rw [hpending] at hzero
    omega
  have hpop : s.queue.popNext now = q'.popNext now := FairPendingQueue.SameFrom.popNext hfrom
  rw [setQueue_queue, ← hpop]
  match s.queue.popNext now with
  | (q, none) => exact ⟨⟨rfl, .inl ⟨hrunning, .refl _ _⟩⟩, rfl, rfl⟩
  | (q, some job) => exact ⟨⟨rfl, .inl ⟨hrunning, .refl _ _⟩⟩, rfl, rfl⟩

/-- The reading of a task that runs. -/
theorem reading_of_run {e : Step} (hrun : s.run task (.clock now) = some e) (hreads : task.reads s = true) :
    s.reading task (.clock now) = some now := by
  simp [reading, hrun, hreads]

/-- **Every task does alike.** -/
theorem run_seen (h : Seen t s s') (hok : Ok s (task ::ₘ bag)) (hok' : s'.queue.Ok)
    (hnow : ∀ now ∈ s'.reading task input, now = t) :
    Option.Rel (Effect.Alike (Seen t)) (s.run task input) (s'.run task input) := by
  obtain ⟨q', rfl⟩ : ∃ q', s' = s.setQueue q' := ⟨_, h.rest⟩
  by_cases hqueues : task.queues = true
  · cases task with
    | enqueueStream request k =>
      cases input with
      | clock now =>
        refine rel_ite .rfl (fun _ => .none) fun hfree => ?_
        refine .some (enqueueStream_alike h request k fun hreads => ?_)
        exact hnow now (reading_of_run (if_neg hfree) hreads)
      | _ => exact .none
    | snapshot =>
      cases input with
      | clock now =>
        refine rel_ite .rfl (fun _ => .none) fun hfree => ?_
        obtain rfl := hnow now (reading_of_run (if_neg hfree) rfl)
        exact .some ⟨h.snapshot hok.queue hok', rfl, rfl⟩
      | _ => exact .none
    | beginShutdown =>
      cases input with
      | clock now =>
        exact rel_ite .rfl (fun _ => .none) fun _ => .some (beginShutdown_alike h hok.queue hok' now).2
      | _ => exact .none
    | cancelStreamJob job holding =>
      cases input with
      | clock now =>
        exact rel_ite .rfl (fun _ => .none) fun _ => .some (cancelStreamJob_alike h hok.queue hok' job now)
      | _ => exact .none
    | runLoop =>
      cases input with
      | clock now =>
        refine rel_ite .rfl (fun _ => .none) fun hfree => ?_
        refine .some (runLoop_alike h fun hreads => ?_)
        exact hnow now (reading_of_run (if_neg hfree) hreads)
      | _ => exact .none
    | parked =>
      cases input with
      | clock now =>
        refine rel_ite .rfl (fun _ => .none) fun hfree => ?_
        refine .some (runLoop_alike ⟨rfl, h.queue⟩ fun hreads => ?_)
        exact hnow now (reading_of_run (if_neg hfree) hreads)
      | _ => exact .none
    | abandonJob job error =>
      cases input with
      | clock now => exact rel_ite .rfl (fun _ => .none) fun _ => .some (abandonJob_alike h hok hok' now)
      | _ => exact .none
    | release job started finished outcome =>
      exact rel_ite .rfl (fun _ => .none) fun _ => .some (release_alike h hok hok')
    | _ => cases hqueues
  · match s.run task input, (s.setQueue q').run task input,
      run_alike s q' (Bool.not_eq_true _ ▸ hqueues) input with
    | none, none, _ => exact .none
    | some _, some _, .some halike => exact .some ⟨halike.state.seen h, halike.next, halike.spawned⟩

theorem decision_seen (h : Seen t s s') (hok : Ok s (task ::ₘ bag)) (hok' : s'.queue.Ok)
    (hnow : ∀ now ∈ s'.reading task input, now = t) : s.decision task input = s'.decision task input := by
  have hnext : (s.run task input).map Effect.next = (s'.run task input).map Effect.next := by
    match s.run task input, s'.run task input, run_seen h hok hok' hnow with
    | none, none, _ => rfl
    | some _, some _, .some halike => exact congrArg some halike.next
  have hdrain : ∀ now, (s.queue.drain now).2 = (s'.queue.drain now).2 := fun now =>
    (beginShutdown_alike h hok.queue hok' now).1
  simp only [decision, hnext, hdrain]

/-- The busy keys are the same. -/
theorem Seen.busy (h : Seen t s s') (hok : s.queue.Ok) (hok' : s'.queue.Ok) : s.queue.SameBusy s'.queue := by
  obtain ⟨p, hspare, hspare', hsame⟩ := h.sameOn hok hok'
  exact hsame.busy hspare hspare'

/-- **Snapshots tell the same.** -/
theorem Seen.snapshots (h : Seen t s s') (hok : s.queue.Ok) (hok' : s'.queue.Ok) (now : ℚ) :
    (s.snapshot now).2 = (s'.snapshot now).2 := by
  have hbusy := h.busy hok hok'
  have hpending := h.pendingCount
  have hperKey := congrArg FairPendingQueue.rejectedPerKeyLimit hbusy.rest
  have hexecutor := congrArg FairPendingQueue.rejectedExecutorLimit hbusy.rest
  obtain ⟨q', rfl⟩ : ∃ q', s' = s.setQueue q' := ⟨_, h.rest⟩
  have hkeys := hbusy.snapshots hok hok' now
  rw [ExecutorSnapshot.mk.injEq]
  exact ⟨hpending, rfl, rfl, rfl, rfl, hkeys, hperKey, hexecutor⟩

/-- A reading later. -/
theorem Seen.later (h : Seen t s s') (hle : t ≤ now) : Seen now s s' :=
  ⟨h.rest, h.queue.imp_left fun ⟨hrunning, hfrom⟩ => ⟨hrunning, hfrom.later hle⟩⟩

/-- A look at the second. -/
theorem Seen.observed (h : Seen t s s') (hok' : s'.queue.Ok) :
    Seen t s (s'.setQueue (s'.queue.expireIdleStates t)) := by
  obtain ⟨q', rfl⟩ : ∃ q', s' = s.setQueue q' := ⟨_, h.rest⟩
  exact ⟨rfl, h.queue.imp (fun ⟨hrunning, hfrom⟩ => ⟨hrunning, hfrom.observed⟩)
    fun ⟨hstopped, hzero, hbusy⟩ => ⟨hstopped, hzero, hbusy.observed hok' t⟩⟩

/-! ### Whole runs -/

variable {c c' : Config ExecutorState ExecutorTask}

/-- The run and the one that is observed, at the same place. -/
structure Abreast (t : ℚ) (c c' : Config ExecutorState ExecutorTask) : Prop where
  ok : Ok c.state c.bag
  ok' : Ok c'.state c'.bag
  seen : Seen t c.state c'.state
  threads : c.threads = c'.threads

theorem Ok.observed (h : Ok s bag) (now : ℚ) : Ok (s.setQueue (s.queue.expireIdleStates now)) bag := by
  have hstill : Still s .snapshot { state := (s.snapshot now).1 } :=
    ⟨rfl, fun hok => FairPendingQueue.expireIdleStates_flow hok now, rfl, rfl, rfl, rfl, rfl, fun _ => rfl,
      fun _ _ => .inl, .nil rfl rfl rfl⟩
  have hspawned : Ok s (.snapshot ::ₘ bag) := h.spawn (.of_entry rfl)
  have hlooked := hspawned.step (hstill.moved h.queue)
  rw [Effect.left_of_next rfl, Multiset.coe_nil, zero_add] at hlooked
  exact hlooked

theorem Ok.stepped (h : Ok c.state c.bag) (a : ExecutorAction) :
    Ok (executorProgram.step c a).state (executorProgram.step c a).bag :=
  Threads.Program.runs_of (p := executorProgram) h (fun _ _ _ hentry h => h.spawn (.of_entry hentry))
    (fun _ _ _ _ _ hrun h => h.run hrun) [a]

/-- **A step of the run**, taken in both. -/
theorem Abreast.act (h : Abreast t c c') (a : ExecutorAction)
    (hnow : ∀ now ∈ (ObservedAction.act a).reading c', now = t) :
    Abreast t (executorProgram.step c a) (executorProgram.step c' a) ∧ decisionOf c a = decisionOf c' a := by
  have hnext : ∀ thread, c.next? thread = c'.next? thread := fun thread => by
    rw [Config.next?, Config.next?, h.threads]
  have htask : ∀ thread input task, a = .run thread input → c.next? thread = some task →
      (∃ bag, Ok c.state (task ::ₘ bag)) ∧ ∀ now ∈ c'.state.reading task input, now = t := by
    rintro thread input task rfl htask
    obtain ⟨bag, hbag⟩ := Multiset.exists_cons_of_mem (Threads.mem_bag_of_next? htask)
    refine ⟨⟨bag, hbag ▸ h.ok⟩, fun now hreading => hnow now ?_⟩
    rw [hnext] at htask
    simpa [ObservedAction.reading, htask] using hreading
  have hstep := Threads.Program.step_alike (p := executorProgram) h.seen h.threads (a := a)
    fun thread input task ha hthread => by
      obtain ⟨⟨bag, hok⟩, hreading⟩ := htask thread input task ha hthread
      exact run_seen h.seen hok h.ok'.queue hreading
  refine ⟨⟨h.ok.stepped a, h.ok'.stepped a, hstep.1, hstep.2⟩, ?_⟩
  cases a with
  | call task => rfl
  | run thread input =>
    simp only [decisionOf, ← hnext]
    cases hthread : c.next? thread with
    | none => rfl
    | some task =>
      obtain ⟨⟨bag, hok⟩, hreading⟩ := htask thread input task rfl hthread
      exact decision_seen h.seen hok h.ok'.queue hreading

/-- A look, at the second alone. -/
theorem Abreast.look (h : Abreast t c c') :
    Abreast t c { c' with state := c'.state.setQueue (c'.state.queue.expireIdleStates t) } :=
  ⟨h.ok, h.ok'.observed t, h.seen.observed h.ok'.queue, h.threads⟩

/-- **Over a whole run**, the readings from `t` on. -/
theorem Abreast.runs (h : Abreast t c c') (ws : List ObservedAction)
    (hclock : (ObservedAction.readings c' ws).Pairwise (· ≤ ·))
    (hfrom : ∀ now ∈ ObservedAction.readings c' ws, t ≤ now) :
    (∃ t', Abreast t' (executorProgram.runs c (ws.filterMap ObservedAction.action?))
      (ws.foldl ObservedAction.step c')) ∧
    ObservedAction.decisions c' ws = decisionsOf c (ws.filterMap ObservedAction.action?) := by
  induction ws generalizing t c c' with
  | nil => exact ⟨⟨t, h⟩, rfl⟩
  | cons w ws ih =>
    simp only [ObservedAction.readings, Run.trace] at hclock hfrom
    -- the mark moves up to the reading of this step, which the later ones do not go below
    obtain ⟨t, h, hnow, hfrom⟩ : ∃ t, Abreast t c c' ∧ (∀ now ∈ w.reading c', now = t) ∧
        ∀ now ∈ ObservedAction.readings (w.step c') ws, t ≤ now := by
      cases hreading : w.reading c' with
      | none => exact ⟨t, h, by simp, fun now hmem => hfrom now (List.mem_append_right _ hmem)⟩
      | some now =>
        simp only [hreading, Option.toList_some, List.singleton_append] at hclock hfrom
        exact ⟨now, { h with seen := h.seen.later (hfrom now (List.mem_cons_self ..)) }, by simp,
          (List.pairwise_cons.mp hclock).1⟩
    have hclock := (List.pairwise_append.mp hclock).2.1
    cases w with
    | act a =>
      obtain ⟨hstep, hdecision⟩ := h.act a hnow
      obtain ⟨hend, htrace⟩ := ih hstep hclock hfrom
      refine ⟨hend, ?_⟩
      simp only [ObservedAction.decisions, decisionsOf, Run.trace, List.filterMap_cons,
        ObservedAction.action?, hdecision]
      exact congrArg _ htrace
    | snapshot now =>
      by_cases hlocked : c'.state.locked = true
      · have hstep : ObservedAction.step c' (.snapshot now) = c' := if_pos hlocked
        rw [hstep] at hclock hfrom
        simp only [ObservedAction.decisions, Run.trace, List.foldl_cons, hstep]
        exact ih h hclock hfrom
      · obtain rfl := hnow now (if_neg hlocked)
        have hstep : ObservedAction.step c' (.snapshot now) =
            { c' with state := c'.state.setQueue (c'.state.queue.expireIdleStates now) } := if_neg hlocked
        rw [hstep] at hclock hfrom
        simp only [ObservedAction.decisions, Run.trace, List.foldl_cons, hstep]
        exact ih h.look hclock hfrom
    | score key now =>
      obtain rfl := hnow now rfl
      exact ih h.look hclock hfrom

/-- **Observing the executor does not change it.**  Put any number of looks into a
run, at readings of the clock that do not go back.  The same requests are accepted,
and rejected with the same errors, the same jobs are taken in the same order, and
shutdown drains the same jobs.  The threads and all of the state but the idle keys
stay the same: so do the score of every busy key, the rejections counted, and what
every snapshot tells. -/
theorem observing_changes_nothing (modelName : String) (streaming : Bool) (configuredTargetInflight : ℤ)
    (settings : FairnessSettings) (runtimeCapability : ℤ) (ws : List ObservedAction)
    (hclock : (ObservedAction.readings
      (start (.new modelName streaming configuredTargetInflight settings runtimeCapability)) ws).Pairwise
        (· ≤ ·)) :
    let started := start (.new modelName streaming configuredTargetInflight settings runtimeCapability)
    let actions := ws.filterMap ObservedAction.action?
    let c := after modelName streaming configuredTargetInflight settings runtimeCapability actions
    let observed := ws.foldl ObservedAction.step started
    ObservedAction.decisions started ws = decisionsOf started actions ∧
    observed.threads = c.threads ∧ observed.state = c.state.setQueue observed.state.queue ∧
    (∀ key state, state.Busy →
      (observed.state.queue.states.get? key = some state ↔ c.state.queue.states.get? key = some state)) ∧
    (∀ key state, state.Busy → c.state.queue.states.get? key = some state → ∀ now,
      (observed.state.queue.score key now).2 = (c.state.queue.score key now).2) ∧
    observed.state.queue.rejectedPerKeyLimit = c.state.queue.rejectedPerKeyLimit ∧
    observed.state.queue.rejectedExecutorLimit = c.state.queue.rejectedExecutorLimit ∧
    ∀ now, (observed.state.snapshot now).2 = (c.state.snapshot now).2 := by
  intro started actions c observed
  obtain ⟨t, ht⟩ : ∃ t, ∀ now ∈ ObservedAction.readings started ws, t ≤ now := by
    match ObservedAction.readings started ws, hclock with
    | [], _ => exact ⟨0, by simp⟩
    | now :: later, hclock =>
      exact ⟨now, List.forall_mem_cons.mpr ⟨le_rfl, (List.pairwise_cons.mp hclock).1⟩⟩
  have hok : Ok started.state started.bag :=
    (Ok.init modelName streaming configuredTargetInflight settings runtimeCapability).spawn
      ⟨rfl, rfl, rfl, rfl⟩
  have habreast : Abreast t started started :=
    ⟨hok, hok, ⟨rfl, .inl ⟨rfl, .refl _ _⟩⟩, rfl⟩
  obtain ⟨⟨t', h⟩, hdecisions⟩ := habreast.runs ws hclock ht
  have hbusy := h.seen.busy h.ok.queue h.ok'.queue
  refine ⟨hdecisions, h.threads.symm, h.seen.rest, fun key state hb => (hbusy.get? hb).symm,
    fun key state hb hs now => (hbusy.score h.ok.queue h.ok'.queue hs hb now).symm, ?_, ?_,
    fun now => (h.seen.snapshots h.ok.queue h.ok'.queue now).symm⟩
  · exact (congrArg FairPendingQueue.rejectedPerKeyLimit hbusy.rest).symm
  · exact (congrArg FairPendingQueue.rejectedExecutorLimit hbusy.rest).symm

/-- A stream cancelled while it is queued leaves an idle key, which `score` still finds
and a snapshot at the end of its time to live forgets. -/
def forgotten : List ObservedAction :=
  [.act (.call (.openStream { model := "m", fairnessKey := some "a" }
      { responseId := "ttsresp_test", modelName := "m", maxBufferChunks := 1, maxBufferBytes := 8,
        stalledConsumerTimeoutS := 1 })),
    .act (.run 1 (.clock 0)), .act (.run 1 (.clock 0)), .act (.run 1 (.clock 0)), .act (.run 1 (.clock 0)),
    .act (.call (.cancel 0)), .act (.run 2 (.clock 1)), .act (.run 2 (.clock 1)),
    .score (some "a") 2, .snapshot 301]

/-- Nothing else tells the two runs apart. -/
theorem observing_changes_nothing_forgotten :
    let started := start (.new "m" true 1 .pair 1)
    let actions := forgotten.filterMap ObservedAction.action?
    let c := after "m" true 1 .pair 1 actions
    let observed := forgotten.foldl ObservedAction.step started
    c.state.queue.states.keys = [some "a"] ∧ observed.state.queue.states.keys = [] ∧
    ObservedAction.decisions started forgotten = decisionsOf started actions ∧
    observed.threads = c.threads ∧ observed.state = c.state.setQueue observed.state.queue ∧
    ∀ now, (observed.state.snapshot now).2 = (c.state.snapshot now).2 := by
  obtain ⟨hdecisions, hthreads, hstate, -, -, -, -, hsnapshots⟩ :=
    observing_changes_nothing "m" true 1 .pair 1 forgotten (by decide +kernel)
  exact ⟨by decide +kernel, by decide +kernel, hdecisions, hthreads, hstate, hsnapshots⟩

end ExecutorState
end TtsPool
