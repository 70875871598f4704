/-
# What a step takes off the work

Every task is a finite piece of work, and what it leaves behind is less of it.
`ExecutorTask.weight` says how much: more for a task than for all it can turn into,
down to the last callback.  Beside the tasks there is a `stock` of work in the state:
a pending job has still to go through a slot, a notified dispatcher to wake up, and
the callbacks of the open handles have still to be called.

The one task whose work is not bounded beforehand is `begin_shutdown`, which cancels
every running job.  No more jobs can run than requests were sent, so the weights are
taken relative to a bound `n` of these.

A backend that goes on emitting is not at an end.  So `spends` is about the inputs
that are answers: the backend returns or raises.
-/

import TtsPool.Executor.Calls
import TtsPool.Support.Fairness

namespace TtsPool

open Threads (Effect)

/-- Code outside answers, and emits no more. -/
def ExecutorInput.Answers : ExecutorInput → Prop
  | .emitStarted _ _ | .emitAudio _ _ => False
  | _ => True

instance : DecidablePred ExecutorInput.Answers
  | .emitStarted _ _ | .emitAudio _ _ => isFalse id
  | .clock _ | .returns _ _ | .returnsAudio | .raises _ _ => isTrue trivial

/-- How much there is to a task, where `n` requests have been sent. -/
def ExecutorTask.weight (n : ℕ) : ExecutorTask → ℕ
  | .openStream _ spec => 18 + spec.terminalCallbacks.length
  | .enqueueStream _ _ => 17
  | .setCancelCallback _ => 2
  | .leaveEnqueue => 2
  | .raised _ _ => 1
  | .snapshot => 1
  | .beginShutdown => 2 + 2 * n
  | .cancel _ => 2
  | .addTerminalCallback _ _ => 3
  | .readEvent _ => 1
  | .cancelStreamJob _ _ => 1
  | .finish _ _ _ => 2
  | .runTerminalCallbacks _ callbacks => 1 + callbacks.length
  | .runLoop => 1
  | .parked => 0
  | .startWorker _ _ => 11
  | .abandonJob _ _ => 4
  | .runJob _ _ => 10
  | .checkCancelled _ _ => 9
  | .backend _ _ => 8
  | .emitCompleteResult _ _ => 7
  | .release _ _ _ _ => 6
  | .complete _ _ _ => 4
  | .combineMetrics _ _ _ => 3

/-- How much there is to all the tasks. -/
abbrev weights (n : ℕ) (bag : Multiset ExecutorTask) : ℕ := Threads.total (ExecutorTask.weight n) bag

namespace ExecutorState

/-- The terminal callbacks the handles hold. -/
def heldCallbacks (s : ExecutorState) : ℕ :=
  ∑ h ∈ Finset.range s.nextHandle, (s.handles h).terminalCallbacks.length

/-- The work that no task has taken up. -/
def stock (s : ExecutorState) : ℕ :=
  12 * s.queue.pendingJobs.card + (if s.dispatcher = .notified then 1 else 0) + s.heldCallbacks

variable {s s' : ExecutorState} {task : ExecutorTask} {bag : Multiset ExecutorTask} {e : Step}
  {input : ExecutorInput} {n : ℕ}

/-! ### The stock -/

theorem heldCallbacks_congr (hnext : s'.nextHandle = s.nextHandle)
    (hcallbacks : ∀ h, (s'.handles h).terminalCallbacks = (s.handles h).terminalCallbacks) :
    s'.heldCallbacks = s.heldCallbacks := by
  simp only [heldCallbacks, hnext, hcallbacks]

/-- One handle is put back. -/
theorem heldCallbacks_setHandle {h : HandleId} (hlt : h < s.nextHandle) (handle : SynthesisHandle) :
    (s.setHandle h handle).heldCallbacks + (s.handles h).terminalCallbacks.length =
      s.heldCallbacks + handle.terminalCallbacks.length := by
  have hsum := Threads.sum_range_change (f := fun k => ((s.setHandle h handle).handles k).terminalCallbacks.length)
    (g := fun k => (s.handles k).terminalCallbacks.length) hlt fun k hk => by simp [setHandle, hk]
  simpa [heldCallbacks, setHandle] using hsum

/-- A new handle holds what it was made with. -/
theorem heldCallbacks_openStream (request : ResponseRequest) (spec : HandleSpec) (now : ℚ) :
    (s.openStream request spec now).state.heldCallbacks = s.heldCallbacks + spec.terminalCallbacks.length := by
  have hothers : ∀ k ∈ Finset.range s.nextHandle,
      ((s.openStream request spec now).state.handles k).terminalCallbacks.length =
        (s.handles k).terminalCallbacks.length := by
    intro k hk
    simp [openStream, setHandle, (Finset.mem_range.mp hk).ne]
  rw [heldCallbacks, show (s.openStream request spec now).state.nextHandle = s.nextHandle + 1 from rfl,
    Finset.sum_range_succ, Finset.sum_congr rfl hothers]
  simp [openStream, setHandle, HandleSpec.handle, heldCallbacks]

/-- A task that neither moves a pending job nor notifies nor touches a callback. -/
theorem stock_congr (hpending : s'.queue.pendingJobs = s.queue.pendingJobs)
    (hdispatcher : s'.dispatcher = s.dispatcher) (hnext : s'.nextHandle = s.nextHandle)
    (hcallbacks : ∀ h, (s'.handles h).terminalCallbacks = (s.handles h).terminalCallbacks) :
    s'.stock = s.stock := by
  rw [stock, stock, hpending, hdispatcher, heldCallbacks_congr hnext hcallbacks]

/-- A handle put back with the same ending. -/
theorem stock_setHandle {h : HandleId} {handle : SynthesisHandle} (hsame : (s.handles h).SameEnding handle) :
    (s.setHandle h handle).stock = s.stock :=
  stock_congr rfl rfl rfl fun k => (ending_setHandle hsame k).terminalCallbacks

/-- A notification, where the handles are left alone. -/
theorem stock_le_of_notified {k : ℕ} (hpending : s'.queue.pendingJobs.card + k = s.queue.pendingJobs.card)
    (hnext : s'.nextHandle = s.nextHandle)
    (hcallbacks : ∀ h, (s'.handles h).terminalCallbacks = (s.handles h).terminalCallbacks) :
    s'.stock + 12 * k ≤ s.stock + 1 := by
  have hheld := heldCallbacks_congr hnext hcallbacks
  simp only [stock]
  split_ifs <;> omega

/-! ### The tasks one by one -/

/-- No more jobs run than requests have been sent. -/
theorem Ok.length_active_le (h : Ok s bag) : s.executor.activeStreamHandles.values.length ≤ s.requests bag := by
  have hactive := congrArg Multiset.card h.activeHandles_eq
  have hcustody := congrArg Multiset.card h.custody
  have hdecided := congrArg Multiset.card h.decided
  simp only [Multiset.coe_card, Multiset.card_map, Multiset.card_add, Multiset.card_range]
    at hactive hcustody hdecided
  rw [requests]
  omega

theorem pendingJobs_of_still {q q' : FairPendingQueue} (hf : q.Flow 0 0 0 0 q') :
    q'.pendingJobs = q.pendingJobs := by simpa using hf.pending

theorem pendingJobs_complete {q : FairPendingQueue} (h : q.Ok) (job : SchedulerJob) (serviceMs now : ℚ) :
    (q.complete job serviceMs now).pendingJobs = q.pendingJobs := by
  rcases FairPendingQueue.complete_flow h job serviceMs now with ⟨-, hf⟩ | ⟨-, heq⟩
  · simpa using hf.pending
  · rw [heq]

theorem pendingJobs_abandon {q : FairPendingQueue} (h : q.Ok) (job : SchedulerJob) (now : ℚ) :
    (q.abandon job now).pendingJobs = q.pendingJobs := by
  rcases FairPendingQueue.abandon_flow h job now with ⟨-, hf⟩ | ⟨-, hf⟩
  · simpa using hf.pending
  · simpa using hf.pending

/-- A pass of the dispatcher. -/
theorem runLoop_spends (hok : s.queue.Ok) (now : ℚ) :
    weights n (s.runLoop now).left + (s.runLoop now).state.stock < 1 + s.stock := by
  unfold runLoop
  split_ifs with hend hroom
  · simp [Effect.left]
  · rcases FairPendingQueue.popNext_flow hok now with ⟨q', heq, hnone, -⟩ | ⟨job, q', heq, hflow, -⟩
    · rw [hok.count, hnone] at hroom
      simp at hroom
    · have hcard := congrArg Multiset.card hflow.pending
      simp only [Multiset.card_add, Multiset.card_singleton, add_zero] at hcard
      rw [heq]
      have hstock : ({ s with
          executor := { s.executor with
            pendingQueue := q'
            runtimeInflight := s.executor.runtimeInflight + 1
            activeStreamHandles := s.executor.activeStreamHandles.set job.jobId job.streamHandle } } :
          ExecutorState).stock =
          12 * q'.pendingJobs.card + (if s.dispatcher = .notified then 1 else 0) + s.heldCallbacks := rfl
      simp only [Effect.left, List.flatten_nil, List.append_nil, Threads.total_coe_cons, Threads.total_coe_nil,
        ExecutorTask.weight]
      rw [hstock, stock]
      omega
  · have hstock : ({ s with dispatcher := .waiting } : ExecutorState).stock =
        12 * s.queue.pendingJobs.card + 0 + s.heldCallbacks := rfl
    simp only [Effect.left, List.flatten_nil, List.append_nil, Threads.total_coe_cons, Threads.total_coe_nil,
      ExecutorTask.weight]
    rw [hstock, stock]
    omega

theorem enqueueStream_spends (hok : s.queue.Ok) (request : ResponseRequest) (h : HandleId) (now : ℚ) :
    weights n (s.enqueueStream request h now).left + (s.enqueueStream request h now).state.stock <
      17 + s.stock := by
  rcases enqueueStream_cases hok request h now with ⟨error, q', hflow, -, heq⟩ | ⟨job, q', hflow, -, -, -, heq⟩
  · have hstock : ({ s.setQueue q' with rejected := s.rejected ++ [h] } : ExecutorState).stock = s.stock :=
      stock_congr (pendingJobs_of_still hflow) rfl rfl fun _ => rfl
    rw [heq, hstock]
    simp [Effect.left, ExecutorTask.weight]
  · have hcard := congrArg Multiset.card hflow.pending
    simp only [Multiset.card_add, Multiset.card_singleton, add_zero] at hcard
    have hstock : ({ s.setQueue q' with locked := true, accepted := s.accepted ++ [job] } : ExecutorState).stock =
        12 * q'.pendingJobs.card + (if s.dispatcher = .notified then 1 else 0) + s.heldCallbacks := rfl
    rw [heq]
    simp only [Effect.left, List.flatten_nil, List.append_nil, Threads.total_coe_cons, Threads.total_coe_nil,
      ExecutorTask.weight]
    rw [hstock, stock]
    omega

/-- The pending jobs are failed and the running ones cancelled: two for each, and no
more jobs run than the weight is relative to. -/
theorem beginShutdown_spends (hok : Ok s bag) (hn : s.requests bag ≤ n) (now : ℚ) :
    weights n (s.beginShutdown now).left + (s.beginShutdown now).state.stock < 2 + 2 * n + s.stock := by
  obtain ⟨hflow, hempty, -⟩ := FairPendingQueue.drain_flow hok.queue now
  have hcard := congrArg Multiset.card hflow.pending
  have hactive := hok.length_active_le
  simp only [hempty, zero_add, add_zero, Multiset.coe_card] at hcard
  have hstock : (s.beginShutdown now).state.stock + 12 * (s.queue.drain now).2.length ≤ s.stock + 1 := by
    refine stock_le_of_notified ?_ rfl fun _ => rfl
    show (s.queue.drain now).1.pendingJobs.card + _ = _
    rw [hempty, Multiset.card_zero]
    omega
  have hleft : weights n (s.beginShutdown now).left =
      2 * (s.queue.drain now).2.length + 2 * s.executor.activeStreamHandles.values.length := by
    simp only [beginShutdown, Effect.left, List.flatten_nil, List.append_nil, Threads.total_coe_append]
    rw [Threads.total_coe_const _ (v := 2) (by simp [ExecutorTask.weight]),
      Threads.total_coe_const _ (v := 2) (by simp [ExecutorTask.weight]), List.length_map, List.length_map]
  omega

theorem addTerminalCallback_spends {h : HandleId} (hlt : h < s.nextHandle) (callback : TerminalCallback) :
    weights n (s.addTerminalCallback h callback).left + (s.addTerminalCallback h callback).state.stock <
      3 + s.stock := by
  have hheld := heldCallbacks_setHandle hlt ((s.handles h).addTerminalCallback callback).1
  have hstock : (s.addTerminalCallback h callback).state.stock = 12 * s.queue.pendingJobs.card +
      (if s.dispatcher = .notified then 1 else 0) +
      (s.setHandle h ((s.handles h).addTerminalCallback callback).1).heldCallbacks := rfl
  rw [hstock, stock]
  unfold addTerminalCallback SynthesisHandle.addTerminalCallback at *
  split_ifs at * <;> simp [Effect.left, ExecutorTask.weight] at * <;> omega

theorem finish_spends {h : HandleId} (hlt : h < s.nextHandle) (event : Option StreamEvent)
    (error : Option EngineError) :
    weights n (s.finish h event error).left + (s.finish h event error).state.stock < 2 + s.stock := by
  have hheld := heldCallbacks_setHandle hlt ((s.handles h).finish event error).1
  have hstock : (s.finish h event error).state.stock = 12 * s.queue.pendingJobs.card +
      (if s.dispatcher = .notified then 1 else 0) +
      (s.setHandle h ((s.handles h).finish event error).1).heldCallbacks := rfl
  have hleft : weights n (s.finish h event error).left = 1 + ((s.handles h).finish event error).2.length := by
    simp [finish, Effect.left, ExecutorTask.weight]
  rw [hstock, stock, hleft]
  unfold SynthesisHandle.finish at *
  split_ifs at * <;> simp at * <;> omega

theorem cancelStreamJob_spends (hok : s.queue.Ok) (job : SchedulerJob) (now : ℚ) :
    weights n (s.cancelStreamJob job now).left + (s.cancelStreamJob job now).state.stock < 1 + s.stock := by
  unfold cancelStreamJob
  rcases FairPendingQueue.remove_flow hok job now with ⟨heq, -⟩ | ⟨found, q', heq, -, hflow, -⟩
  · rw [heq]
    simp only [Effect.left, List.flatten_nil, List.append_nil, Threads.total_coe_nil]
    have hstock : (s.setQueue s.queue).stock = s.stock := rfl
    omega
  · have hcard := congrArg Multiset.card hflow.pending
    simp only [Multiset.card_add, Multiset.card_singleton, add_zero] at hcard
    have hstock : (s.setQueue q').notifyAll.stock + 12 * 1 ≤ s.stock + 1 :=
      stock_le_of_notified hcard rfl fun _ => rfl
    rw [heq]
    simp only [Effect.left, List.flatten_nil, List.append_nil, Threads.total_coe_cons, Threads.total_coe_nil,
      ExecutorTask.weight]
    omega

/-- A slot given back. -/
theorem stock_releaseSlot {job : SchedulerJob} {queue : FairPendingQueue}
    (hpending : queue.pendingJobs = s.queue.pendingJobs) :
    (s.releaseSlot job queue).notifyAll.stock ≤ s.stock + 1 := by
  refine (Nat.le_add_right _ (12 * 0)).trans (stock_le_of_notified (k := 0) ?_ rfl fun _ => rfl)
  rw [add_zero]
  exact congrArg Multiset.card hpending

/-- **Every task spends some of the work**, once the backend answers. -/
theorem spends (hok : Ok s (task ::ₘ bag)) (hn : s.requests (task ::ₘ bag) ≤ n) (hanswers : input.Answers)
    (hrun : s.run task input = some e) : weights n e.left + e.state.stock < task.weight n + s.stock := by
  -- a task that leaves the stock alone and goes on as lighter ones
  have hlighter : e.state.stock = s.stock → weights n e.left < task.weight n →
      weights n e.left + e.state.stock < task.weight n + s.stock := by omega
  cases fires_of_run hrun with
  | openStream request spec now =>
    have hheld := heldCallbacks_openStream (s := s) request spec now
    have hstock : (s.openStream request spec now).state.stock = 12 * s.queue.pendingJobs.card +
        (if s.dispatcher = .notified then 1 else 0) + (s.openStream request spec now).state.heldCallbacks := rfl
    have hleft : weights n (s.openStream request spec now).left = 17 := rfl
    rw [hstock, hheld, hleft, stock, ExecutorTask.weight]
    omega
  | enqueueStream request h now => exact enqueueStream_spends hok.queue request h now
  | setCancelCallback job =>
    refine hlighter (stock_congr rfl rfl rfl fun k => ?_) ?_
    · by_cases hk : k = job.streamHandle
      · subst hk
        simpa [setCancelCallback, setHandle] using ((s.handles job.streamHandle).setCancelCallback_spec job).2.1
      · simp [setCancelCallback, setHandle, hk]
    · simp only [setCancelCallback, Effect.left]
      split_ifs <;> simp [ExecutorTask.weight]
  | leaveEnqueue =>
    have hstock : s.leaveEnqueue.state.stock + 12 * 0 ≤ s.stock + 1 :=
      stock_le_of_notified (by simp [leaveEnqueue, notifyAll]) rfl fun _ => rfl
    have hleft : weights n s.leaveEnqueue.left = 0 := rfl
    rw [hleft, ExecutorTask.weight]
    omega
  | raised h error => exact hlighter rfl (by simp [Effect.left, ExecutorTask.weight])
  | snapshot now =>
    refine hlighter (stock_congr ?_ rfl rfl fun _ => rfl) (by simp [Effect.left, ExecutorTask.weight])
    exact pendingJobs_of_still (FairPendingQueue.expireIdleStates_flow hok.queue now)
  | beginShutdown now => exact beginShutdown_spends hok hn now
  | cancel h =>
    refine hlighter (stock_setHandle (SynthesisHandle.cancel_ending _)) ?_
    simp only [cancel, Effect.left]
    cases (s.handles h).cancel.2 <;> simp [ExecutorTask.weight]
  | addTerminalCallback h callback _ hlt => exact addTerminalCallback_spends hlt callback
  | readEvent h =>
    refine hlighter (stock_setHandle (SynthesisHandle.popEvent_ending _)) ?_
    simp [readEvent, Effect.left, ExecutorTask.weight]
  | cancelStreamJob job holding now => exact cancelStreamJob_spends hok.queue job now
  | finish h event error =>
    have howned : h ∈ owned (.finish h event error ::ₘ bag) + s.finished :=
      Multiset.mem_add.mpr (.inl (by simp [ExecutorTask.owner]))
    obtain ⟨job, hjob, rfl⟩ := hok.exists_job howned
    exact finish_spends (hok.lt_of_accepted hjob) event error
  | calledBack h => exact hlighter rfl (by simp [Effect.left, ExecutorTask.weight])
  | callBack h callback callbacks =>
    refine hlighter ?_ (by simp [Effect.left, ExecutorTask.weight])
    cases callback <;> rfl
  | runLoop now hfree => exact runLoop_spends hok.queue now
  | parked now hfree hnotified =>
    -- to be notified was its weight
    have hstock : ({ s with dispatcher := .running } : ExecutorState).stock + 1 = s.stock := by
      show 12 * s.queue.pendingJobs.card + 0 + s.heldCallbacks + 1 = _
      rw [stock, if_pos hnotified]
      omega
    have hspends := runLoop_spends (s := { s with dispatcher := .running }) (n := n) hok.queue now
    rw [ExecutorTask.weight, ← hstock]
    omega
  | startWorker | cannotStart | returnsAudio | combineMetrics =>
    exact hlighter rfl (by simp [Effect.left, ExecutorTask.weight])
  | runJob job dequeuedAt now =>
    refine hlighter (stock_setHandle (SynthesisHandle.markDispatched_ending _ _)) ?_
    simp [runJob, Effect.left, ExecutorTask.weight]
  | abandonJob job error now =>
    have hstock : (s.abandonJob job error now).state.stock ≤ s.stock + 1 :=
      stock_releaseSlot (pendingJobs_abandon hok.queue job now)
    have hleft : weights n (s.abandonJob job error now).left = 2 := rfl
    rw [hleft, ExecutorTask.weight]
    omega
  | checkCancelled job backendStartedAt now =>
    refine hlighter rfl ?_
    simp only [checkCancelled, Effect.left]
    split_ifs <;> simp [ExecutorTask.weight]
  | backend _ job backendStartedAt _ _ htask hbackend =>
    have hweight : 7 ≤ task.weight n := by rcases htask with rfl | rfl <;> simp [ExecutorTask.weight]
    cases input with
    | returns result now =>
      obtain rfl := Option.some.inj hbackend
      exact hlighter rfl (lt_of_eq_of_lt (b := 6) rfl (by omega))
    | raises error now =>
      obtain rfl := Option.some.inj hbackend
      exact hlighter rfl (lt_of_eq_of_lt (b := 6) rfl (by omega))
    | emitStarted | emitAudio => exact hanswers.elim
    | clock | returnsAudio => simp [runBackend] at hbackend
  | release job backendStartedAt backendFinishedAt outcome =>
    have hstock : (s.release job backendStartedAt backendFinishedAt outcome).state.stock ≤ s.stock + 1 :=
      stock_releaseSlot (pendingJobs_complete hok.queue job _ _)
    have hleft : weights n (s.release job backendStartedAt backendFinishedAt outcome).left ≤ 4 := by
      simp only [release, Effect.left]
      cases outcome <;> simp [ExecutorTask.weight]
    rw [ExecutorTask.weight]
    omega
  | complete h result metrics =>
    refine hlighter rfl ?_
    simp only [complete, Effect.left]
    split_ifs <;> simp [ExecutorTask.weight]

end ExecutorState
end TtsPool
