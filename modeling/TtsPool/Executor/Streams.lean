/-
# The executor seen by its handles

To a handle every task of the executor is one of the operations of `StreamOp`,
or none: `streamOp` names it, and which handle it is for.  `handles_of_run` is
the step lemma: but for the task that makes a new handle, a task leaves every
handle as its operation leaves it.  What the operations do to a handle by itself
is known from `Delivery`; here it is read off for the flag, the cancel callback
and the events, as facts about the executor's tasks.
-/

import TtsPool.Executor.Sections
import TtsPool.Stream.Delivery

namespace TtsPool

open Threads (Effect)

/-- The operation of a task, and the handle it is for. -/
def ExecutorTask.streamOp : ExecutorTask → ExecutorInput → Option (HandleId × StreamOp)
  | .setCancelCallback job, _ => some (job.streamHandle, .setCancelCallback job)
  | .cancel h, _ => some (h, .cancel)
  | .addTerminalCallback h callback, _ => some (h, .addTerminalCallback callback)
  | .readEvent h, _ => some (h, .read)
  | .finish h event error, _ => some (h, .finish event error)
  | .runJob job dequeuedAt, _ =>
    some (job.streamHandle, .markDispatched (max 0 ((dequeuedAt - job.enqueuedAt) * 1000)))
  | .backend job _, .emitStarted sampleRateHz channelCount
  | .emitCompleteResult job _, .emitStarted sampleRateHz channelCount =>
    some (job.streamHandle, .emitStarted sampleRateHz channelCount)
  | .backend job _, .emitAudio event remaining | .emitCompleteResult job _, .emitAudio event remaining =>
    some (job.streamHandle, .emitAudio event remaining)
  | _, _ => none

namespace SynthesisHandle

/-! ### One operation -/

theorem after_cancelled {handle : SynthesisHandle} (h : handle.cancelled = true) (op : StreamOp) :
    (handle.after op).cancelled = true :=
  (Delivery.perform_later { handle := handle } op).cancelled h

/-- Only `cancel` sets the flag. -/
theorem cancelled_of_after {handle : SynthesisHandle} {op : StreamOp} (h : (handle.after op).cancelled = true) :
    handle.cancelled = true ∨ op = .cancel := by
  cases op with
  | cancel => exact .inr rfl
  | setCancelCallback callback =>
    simp only [after, setCancelCallback] at h
    split_ifs at h <;> exact .inl h
  | addTerminalCallback callback =>
    simp only [after, addTerminalCallback] at h
    split_ifs at h <;> exact .inl h
  | emitStarted sampleRateHz channelCount =>
    rcases handle.emitStarted_cases sampleRateHz channelCount with ⟨-, -, heq⟩ | ⟨error, -, heq⟩ <;>
      rw [after, heq] at h <;> exact .inl h
  | emitAudio event remaining =>
    rcases handle.emitAudio_cases event remaining with ⟨-, -, -, heq⟩ | ⟨-, heq⟩ | ⟨error, heq⟩ <;>
      rw [after, heq] at h <;> exact .inl h
  | finish event error =>
    simp only [after, finish] at h
    split_ifs at h <;> exact .inl h
  | read =>
    rw [after] at h
    split_ifs at h
    · rcases handle.popEvent_cases with ⟨hcancelled, -⟩ | ⟨-, -, heq⟩ | ⟨event, events, -, -, heq⟩
      · exact .inl hcancelled
      · rw [heq] at h
        exact .inl h
      · rw [heq] at h
        cases event <;> exact .inl h
    · exact .inl h
  | markDispatched queueWaitMs => exact .inl h

/-- Only `set_cancel_callback` moves the cancel callback, and not on a cancelled
handle. -/
theorem after_cancelCallback (handle : SynthesisHandle) (op : StreamOp) :
    (handle.after op).cancelCallback = handle.cancelCallback ∨
      ∃ callback, op = .setCancelCallback callback ∧ handle.cancelled = false ∧
        (handle.after op).cancelCallback = some callback := by
  cases op with
  | setCancelCallback callback =>
    by_cases hcancelled : handle.cancelled = true
    · exact .inl (by simp [after, setCancelCallback, hcancelled])
    · exact .inr ⟨callback, rfl, by simpa using hcancelled, by simp [after, setCancelCallback, hcancelled]⟩
  | cancel => exact .inl handle.cancel_ending.cancelCallback
  | addTerminalCallback callback => exact .inl (handle.addTerminalCallback_spec callback).2
  | finish event error => exact .inl (handle.finish_spec event error).2
  | emitStarted sampleRateHz channelCount =>
    rcases handle.emitStarted_cases sampleRateHz channelCount with ⟨-, -, heq⟩ | ⟨error, -, heq⟩ <;>
      exact .inl (by rw [after, heq])
  | emitAudio event remaining =>
    rcases handle.emitAudio_cases event remaining with ⟨-, -, -, heq⟩ | ⟨-, heq⟩ | ⟨error, heq⟩
    · exact .inl (by rw [after, heq, appendAudio])
    · exact .inl (by rw [after, heq])
    · exact .inl (by rw [after, heq])
  | read =>
    refine .inl ?_
    rw [after]
    split_ifs
    · exact handle.popEvent_ending.cancelCallback
    · rfl
  | markDispatched queueWaitMs => exact .inl rfl

/-- What is buffered was buffered before or is appended now. -/
theorem events_after {handle : SynthesisHandle} {op : StreamOp} (h : handle.events = [])
    (happends : handle.appends op = []) : (handle.after op).events = [] := by
  have hfifo : (({ handle := handle } : Delivery).perform op).Fifo :=
    Delivery.perform_fifo (by simp [Delivery.Fifo, Delivery.returned, h]) op
  simp only [Delivery.Fifo, Delivery.perform, happends, List.append_nil] at hfifo
  exact (List.append_eq_nil_iff.mp hfifo.symm).2

end SynthesisHandle

namespace ExecutorState

/-- The handles after an operation on one of them. -/
def operate (s : ExecutorState) : Option (HandleId × StreamOp) → HandleId → SynthesisHandle
  | some (h, op) => Function.update s.handles h ((s.handles h).after op)
  | none => s.handles

variable {s : ExecutorState} {task : ExecutorTask} {bag : Multiset ExecutorTask} {e : Step}
  {input : ExecutorInput}

/-! ### One task -/

theorem runLoop_handles (s : ExecutorState) (now : ℚ) : (s.runLoop now).state.handles = s.handles := by
  unfold runLoop
  split_ifs
  · rfl
  · split <;> rfl
  · rfl

theorem runBackend_handles {job : SchedulerJob} {backendStartedAt : ℚ}
    (htask : task = .backend job backendStartedAt ∨ task = .emitCompleteResult job backendStartedAt)
    (hrun : s.runBackend task job backendStartedAt input = some e) :
    e.state.handles = s.operate (task.streamOp input) := by
  cases input with
  | emitStarted sampleRateHz channelCount =>
    obtain rfl := Option.some.inj hrun
    have hop : task.streamOp (.emitStarted sampleRateHz channelCount) =
        some (job.streamHandle, .emitStarted sampleRateHz channelCount) := by rcases htask with rfl | rfl <;> rfl
    rw [hop]
    rcases (s.handles job.streamHandle).emitStarted_cases sampleRateHz channelCount with
      ⟨-, -, heq⟩ | ⟨error, -, heq⟩
    · simp only [emit, operate, SynthesisHandle.after, heq, Except.map, setHandle]
    · simp only [emit, operate, SynthesisHandle.after, heq, Except.map, Function.update_eq_self]
  | emitAudio event remaining =>
    obtain rfl := Option.some.inj hrun
    have hop : task.streamOp (.emitAudio event remaining) =
        some (job.streamHandle, .emitAudio event remaining) := by rcases htask with rfl | rfl <;> rfl
    rw [hop]
    rcases (s.handles job.streamHandle).emitAudio_cases event remaining with
      ⟨-, -, -, heq⟩ | ⟨-, heq⟩ | ⟨error, heq⟩
    · simp only [emit, operate, SynthesisHandle.after, heq, setHandle]
    · simp only [emit, operate, SynthesisHandle.after, heq, Function.update_eq_self]
    · simp only [emit, operate, SynthesisHandle.after, heq, Function.update_eq_self]
  | returns result now =>
    obtain rfl := Option.some.inj hrun
    rcases htask with rfl | rfl <;> rfl
  | raises error now =>
    obtain rfl := Option.some.inj hrun
    rcases htask with rfl | rfl <;> rfl
  | _ => simp [runBackend] at hrun

/-- **Every task leaves the handles as its operation does**, but for the one that
makes a new handle. -/
theorem handles_of_run (hrun : s.run task input = some e) (hopens : task.opens = false) :
    e.state.handles = s.operate (task.streamOp input) := by
  cases fires_of_run hrun with
  | openStream request spec now => cases hopens
  | enqueueStream request h now =>
    unfold enqueueStream
    split_ifs
    · rfl
    · split <;> rfl
  | cancelStreamJob job holding now =>
    unfold cancelStreamJob
    split <;> rfl
  | callBack h callback callbacks => cases callback <;> rfl
  | readEvent h _ hread =>
    simp only [readEvent, ExecutorTask.streamOp, operate, SynthesisHandle.after, if_pos hread, setHandle]
  | runLoop now => exact runLoop_handles s now
  | parked now => exact runLoop_handles _ now
  | backend _ job backendStartedAt _ _ htask hbackend => exact runBackend_handles htask hbackend
  | _ => rfl

/-- **What becomes of one handle**: nothing, an operation of the task, or it is
new. -/
theorem handle_of_run (hrun : s.run task input = some e) (k : HandleId) :
    e.state.handles k = s.handles k ∨
    (∃ op, task.streamOp input = some (k, op) ∧ e.state.handles k = (s.handles k).after op) ∨
    k = s.nextHandle ∧ (e.state.handles k).events = [] := by
  cases hopens : task.opens with
  | true =>
    cases task <;> cases hopens
    cases fires_of_run hrun with
    | openStream request spec now =>
      by_cases hk : k = s.nextHandle
      · subst hk
        refine .inr (.inr ⟨rfl, ?_⟩)
        simp [openStream, setHandle, HandleSpec.handle, SynthesisHandle.new]
      · exact .inl (Function.update_of_ne hk _ _)
    | backend _ _ _ _ _ htask => rcases htask with htask | htask <;> cases htask
  | false =>
    rw [handles_of_run hrun hopens]
    cases hop : task.streamOp input with
    | none => exact .inl rfl
    | some acts =>
      obtain ⟨h, op⟩ := acts
      by_cases hk : k = h
      · subst hk
        exact .inr (.inl ⟨op, rfl, Function.update_self ..⟩)
      · exact .inl (Function.update_of_ne hk _ _)

/-- A task that appends an event to a handle runs the backend in its slot, or is
about to finish it. -/
theorem appends_of_run {k : HandleId} {op : StreamOp} (hop : task.streamOp input = some (k, op))
    (happends : (s.handles k).appends op ≠ []) :
    (∃ job, task.slotJob = some job ∧ job.streamHandle = k) ∨ task.owner = some k := by
  cases task with
  | backend job backendStartedAt | emitCompleteResult job backendStartedAt =>
    cases input <;> cases hop <;> exact .inl ⟨job, rfl, rfl⟩
  | finish h event error =>
    cases hop
    exact .inr rfl
  | _ => cases hop <;> exact absurd rfl happends

end ExecutorState
end TtsPool
