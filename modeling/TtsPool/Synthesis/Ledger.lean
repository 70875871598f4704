/-
# The counters and the log of an RPC

A cancelled RPC is counted by its handler, and logged by `log_release` once the
runtime has released its handle.  Until then the entry is on its way: the handler
is to register it, or the handle has it among its callbacks, or a thread that runs
them is to come to it.  A step beside the handler takes it from one place to the
next, and enters it in the log where it is called (`Aside`).

The handler counts once, and what it then does was settled by what it counted.
`RpcClass` lists what that can be, and `Ledger` says of each what stands in the
counters, what stands in the log, and what is on its way.  Four things spoil it.  A
worker marks the handle dispatched while an entry is on its way that was counted as
queued: the entry then says `active`.  A client cancels while an event is sent to it:
its RPC is not counted.  It cancels while the handler waits for `context.abort`: its
RPC is counted as failed.  And an exception without a text is counted but not logged.
`SynthesisTask.Orderly` excludes them, and under it the ledger is kept
(`runs_ledger`).
-/

import TtsPool.Synthesis.Steps
import Mathlib.Algebra.BigOperators.Group.Multiset.Basic

namespace TtsPool

open Threads (Effect Config Action)

namespace SynthesisTask

/-- The entries of `log_release` that a task leads to. -/
def awaits : SynthesisTask → ℕ
  | .handle (.addTerminalCallback callback) => [callback].count logRelease
  | .handle (.runTerminalCallbacks callbacks) => callbacks.count logRelease
  | _ => 0

/-- Of the methods of the handle, one that somebody calls. -/
def Called : SynthesisTask → Prop
  | .handle (.markDispatched _) | .handle (.emitStarted ..) | .handle (.emitAudio _) | .handle .readEvent => False
  | .handle (.finish event error) => (StreamOp.finish event error).Ends
  | _ => True

/-- A task that leads to no entry. -/
structure Plain (task : SynthesisTask) : Prop where
  called : task.Called
  awaits : task.awaits = 0

/-- As long as the handler reads on, it has read no Completed event. -/
def ReadsOn (d : Delivery) : SynthesisTask → Prop
  | .readEvent => ∀ event ∈ d.returned, event.isCompleted = false
  | .send event | .resume event =>
    event.isCompleted = false → ∀ event ∈ d.returned, event.isCompleted = false
  | .returnEmpty => False
  | _ => True

end SynthesisTask

namespace SynthesisState

/-- The entries that the handle leads to. -/
def held (s : SynthesisState) : ℕ := s.handle.terminalCallbacks.count logRelease

/-- The entries on their way. -/
def awaited (s : SynthesisState) (bag : Multiset SynthesisTask) : ℕ :=
  s.held + (bag.map SynthesisTask.awaits).sum

end SynthesisState

/-- Nobody marks a handle dispatched while the entry of its cancellation is on its
way; no client cancels while an event is sent to it, or its failure reported; and an
exception has a text. -/
def SynthesisTask.Orderly (s : SynthesisState) (bag : Multiset SynthesisTask) (task : SynthesisTask)
    (input : SynthesisInput) : Prop :=
  match task with
  | .runJob _ => s.awaited bag = 0
  | .resume _ => input.cancelled = false
  | .classify error => error.Printable
  | .abort status _ _ => status ≠ .cancelled → input.cancelled = false
  | _ => True

instance (s : SynthesisState) (bag : Multiset SynthesisTask) (task : SynthesisTask) (input : SynthesisInput) :
    Decidable (task.Orderly s bag input) := by
  unfold SynthesisTask.Orderly
  split <;> infer_instance

/-- What the handler has counted. -/
inductive RpcClass where
  | undecided
  | completed (native : Bool)
  | failed (status : StatusCode) (code error : String) (stalled : Bool)
  | cancelled (dispatched : Bool)

namespace RpcClass

def counters : RpcClass → List String
  | .undecided => ["requests_total"]
  | .completed native =>
    ["requests_total", "status_ok", if native then "native_streaming_completed" else "complete_runtime_completed"]
  | .failed status _ _ stalled =>
    ["requests_total", status.counter] ++ if stalled then ["stalled_consumers"] else []
  | .cancelled dispatched =>
    ["requests_total", "status_cancelled", if dispatched then "active_cancellations" else "queued_cancellations"]

/-- The tasks the handler may have left. -/
def Fits : RpcClass → SynthesisTask → Prop
  | .undecided, .raiseCancelled | .undecided, .abort .. => False
  | .undecided, _ => True
  | .failed status code _ _, .abort status' _ code' => status' = status ∧ code' = code
  | .cancelled _, .raiseCancelled => True
  | .cancelled _, .abort status _ _ => status = .cancelled
  | _, task => task.handles = false

/-- How the RPC may have ended. -/
def Ends : RpcClass → Option RpcOutcome → Prop
  | .undecided, outcome => outcome = none
  | .completed _, outcome => outcome = some .ok
  | .failed status code _ _, outcome => status ≠ .cancelled ∧
    (outcome = none ∨ ∃ detail, outcome = some (.aborted status detail code))
  | .cancelled _, outcome =>
    outcome = none ∨ outcome = some .cancelled ∨ ∃ detail code, outcome = some (.aborted .cancelled detail code)

/-- What stands in the log, and how many entries are on their way. -/
def Logged (dispatched : Bool) (logs : List RpcLog) (awaited : ℕ) : RpcClass → Prop
  | .undecided => logs = [] ∧ awaited = 0
  | .completed _ => logs = [.completed] ∧ awaited = 0
  | .failed status code error _ => logs = [.failed status code error] ∧ awaited = 0
  | .cancelled counted =>
    logs = [] ∧ awaited = 1 ∧ dispatched = counted ∨
      logs = [.cancelled (if counted then "active" else "queued")] ∧ awaited = 0

/-- Who is not the handler may have any tasks left. -/
theorem fits_of_idle {cls : RpcClass} {task : SynthesisTask} (hidle : task.handles = false) : cls.Fits task := by
  cases cls <;> cases task <;> first | exact hidle | trivial

end RpcClass

/-- An operation that neither marks the handle dispatched nor touches its callbacks. -/
def StreamOp.quiet : StreamOp → Bool
  | .markDispatched _ | .addTerminalCallback _ | .finish .. => false
  | _ => true

namespace SynthesisHandle

/-- Only `mark_dispatched` marks a handle dispatched. -/
theorem after_dispatched (handle : SynthesisHandle) {op : StreamOp}
    (hop : ∀ queueWaitMs, op ≠ .markDispatched queueWaitMs) : (handle.after op).dispatched = handle.dispatched := by
  cases op with
  | markDispatched queueWaitMs => exact absurd rfl (hop queueWaitMs)
  | setCancelCallback callback => simp only [after, setCancelCallback]; split_ifs <;> rfl
  | addTerminalCallback callback => simp only [after, addTerminalCallback]; split_ifs <;> rfl
  | cancel => simp only [after, cancel]; split_ifs <;> rfl
  | finish event error => simp only [after, finish]; split_ifs <;> rfl
  | emitStarted sampleRateHz channelCount =>
    rcases handle.emitStarted_cases sampleRateHz channelCount with ⟨-, -, heq⟩ | ⟨error, -, heq⟩ <;>
      simp only [after, heq]
  | emitAudio event remaining =>
    rcases handle.emitAudio_cases event remaining with ⟨-, -, -, heq⟩ | ⟨-, heq⟩ | ⟨error, heq⟩ <;>
      simp only [after, heq, appendAudio]
  | read =>
    simp only [after]
    split_ifs
    · rcases handle.popEvent_cases with ⟨-, heq⟩ | ⟨-, -, heq⟩ | ⟨event, events, -, -, heq⟩ <;> rw [heq]
      cases event <;> rfl
    · rfl

/-- Callbacks come in by `add_terminal_callback` and go with `_finish`. -/
theorem after_callbacks (handle : SynthesisHandle) {op : StreamOp}
    (hadd : ∀ callback, op ≠ .addTerminalCallback callback) (hfinish : ∀ event error, op ≠ .finish event error) :
    (handle.after op).terminalCallbacks = handle.terminalCallbacks := by
  cases op with
  | markDispatched queueWaitMs => rfl
  | setCancelCallback callback => exact (handle.setCancelCallback_spec callback).2.1
  | addTerminalCallback callback => exact absurd rfl (hadd callback)
  | cancel => exact handle.cancel_ending.terminalCallbacks
  | finish event error => exact absurd rfl (hfinish event error)
  | emitStarted sampleRateHz channelCount =>
    simp only [after]
    split
    · next h => exact (emitStarted_ending h).terminalCallbacks
    · rfl
  | emitAudio event remaining =>
    simp only [after]
    split
    · next h => exact (emitAudio_ending h).terminalCallbacks
    · rfl
  | read =>
    simp only [after]
    split_ifs
    · exact handle.popEvent_ending.terminalCallbacks
    · rfl

theorem after_quiet (handle : SynthesisHandle) {op : StreamOp} (hop : op.quiet = true) :
    (handle.after op).dispatched = handle.dispatched ∧
      (handle.after op).terminalCallbacks = handle.terminalCallbacks := by
  cases op with
  | markDispatched | addTerminalCallback | finish => cases hop
  | _ => exact ⟨handle.after_dispatched (by simp), handle.after_callbacks (by simp) (by simp)⟩

/-- A terminal handle holds no callbacks. -/
theorem after_waiting {handle : SynthesisHandle} (h : handle.terminal = true → handle.terminalCallbacks = [])
    (op : StreamOp) (hend : (handle.after op).terminal = true) : (handle.after op).terminalCallbacks = [] := by
  rcases Delivery.after_terminal handle op with hsame | ⟨event, error, rfl⟩
  · have hold := h (hsame ▸ hend)
    cases op with
    | addTerminalCallback callback =>
      simp only [after, addTerminalCallback, if_pos (hsame ▸ hend)]
      exact hold
    | finish event error =>
      simp only [after, finish, if_pos (hsame ▸ hend)]
      exact hold
    | _ => rw [after_callbacks handle (by simp) (by simp), hold]
  · simp only [after, finish]
    split_ifs with hterminal
    · exact h hterminal
    · rfl

end SynthesisHandle

namespace SynthesisState

open SynthesisTask

variable {backend : Backend} {s : SynthesisState} {task : SynthesisTask} {input : SynthesisInput} {e : Step}
  {others : Multiset SynthesisTask} {cls : RpcClass}

theorem awaited_cons (s : SynthesisState) (task : SynthesisTask) (others : Multiset SynthesisTask) :
    s.awaited (task ::ₘ others) = s.held + task.awaits + (others.map awaits).sum := by
  rw [awaited, Multiset.map_cons, Multiset.sum_cons, Nat.add_assoc]

theorem awaited_left (hst : Stepped s task input e) :
    e.state.awaited (e.left + others) = e.state.held + (e.next.map awaits).sum + (others.map awaits).sum := by
  rw [awaited, Effect.left_of_next hst.spawned, Multiset.map_add, Multiset.sum_add, Nat.add_assoc,
    Multiset.map_coe, Multiset.sum_coe]

/-! ### Beside the handler -/

/-- What a step beside the handler does to the ledger. -/
structure Aside (s : SynthesisState) (task : SynthesisTask) (e : Step) : Prop where
  called : ∀ t ∈ e.next, t.Called
  counters : e.state.counters = s.counters
  dispatched : e.state.handle.dispatched = s.handle.dispatched ∨
    (∃ queueWaitMs, task = .runJob queueWaitMs) ∧ e.state.handle.dispatched = true
  /-- What has been on its way still is, or has been logged. -/
  balance : ∃ n, e.state.logs = s.logs ++ List.replicate n (.cancelled s.scope) ∧
    e.state.held + (e.next.map awaits).sum + n = s.held + task.awaits

/-- A step that has nothing to do with the callbacks. -/
theorem Aside.plain (hst : Stepped s task input e) (hop : ∀ op, task.streamOp s input = some op → op.quiet = true)
    (hawaits : task.awaits = 0) (hledger : e.state.counters = s.counters ∧ e.state.logs = s.logs)
    (hnext : ∀ t ∈ e.next, t.Plain) : Aside s task e := by
  have hsame : e.state.handle.dispatched = s.handle.dispatched ∧
      e.state.handle.terminalCallbacks = s.handle.terminalCallbacks := by
    show e.state.delivery.handle.dispatched = _ ∧ e.state.delivery.handle.terminalCallbacks = _
    rw [hst.delivery]
    cases hstream : task.streamOp s input with
    | none => exact ⟨rfl, rfl⟩
    | some op => exact s.handle.after_quiet (hop op hstream)
  have hzero : (e.next.map awaits).sum = 0 := by
    refine List.sum_eq_zero fun n hmem => ?_
    obtain ⟨t, ht, rfl⟩ := List.mem_map.mp hmem
    exact (hnext t ht).awaits
  refine ⟨fun t hmem => (hnext t hmem).called, hledger.1, .inl hsame.1, 0, by simp [hledger.2], ?_⟩
  rw [held, hsame.2, hzero, hawaits]
  rfl

/-- The handle's own methods. -/
theorem runHandle_aside {task : StreamTask} (h : s.runHandle task input.remaining = some e)
    (hcalled : (SynthesisTask.handle task).Called) : Aside s (.handle task) e := by
  have hst := runHandle_stepped h
  obtain ⟨e', hrun, rfl⟩ := Option.map_eq_some_iff.mp h
  cases task with
  | markDispatched queueWaitMs => exact hcalled.elim
  | emitStarted sampleRateHz channelCount => exact hcalled.elim
  | emitAudio event => exact hcalled.elim
  | readEvent => exact hcalled.elim
  | setCancelCallback callback =>
    cases hrun
    exact .plain hst (by rintro _ ⟨⟩; rfl) rfl ⟨rfl, List.append_nil _⟩ (List.forall_mem_nil _)
  | cancel =>
    cases hrun
    exact .plain hst (by rintro _ ⟨⟩; rfl) rfl ⟨rfl, List.append_nil _⟩ (List.forall_mem_nil _)
  | complete result metrics =>
    cases hrun
    refine .plain hst (by rintro _ ⟨⟩) rfl ⟨rfl, List.append_nil _⟩ ?_
    simp only [StreamState.complete]
    split_ifs <;> exact List.forall_mem_singleton.mpr ⟨trivial, rfl⟩
  | combineMetrics result metrics =>
    cases hrun
    exact .plain hst (by rintro _ ⟨⟩) rfl ⟨rfl, List.append_nil _⟩
      (List.forall_mem_singleton.mpr ⟨StreamOp.ends_completed _, rfl⟩)
  | fail error =>
    cases hrun
    exact .plain hst (by rintro _ ⟨⟩) rfl ⟨rfl, List.append_nil _⟩
      (List.forall_mem_singleton.mpr ⟨StreamOp.ends_failed error, rfl⟩)
  | addTerminalCallback callback =>
    cases hrun
    have hsame := s.handle.after_dispatched
      (show ∀ q, StreamOp.addTerminalCallback callback ≠ .markDispatched q by simp)
    refine ⟨?_, rfl, .inl hsame, 0, by simp [log], ?_⟩
    · simp only [StreamState.addTerminalCallback]
      split_ifs <;> simp [Called]
    · show (s.handle.addTerminalCallback callback).1.terminalCallbacks.count logRelease + _ + 0 = _
      cases hend : s.handle.terminal <;>
        simp [StreamState.addTerminalCallback, SynthesisHandle.addTerminalCallback, held, awaits, hend]
  | finish event error =>
    cases hrun
    have hsame := s.handle.after_dispatched (show ∀ q, StreamOp.finish event error ≠ .markDispatched q by simp)
    refine ⟨by simp [StreamState.finish, Called], rfl, .inl hsame, 0, by simp [log], ?_⟩
    show (s.handle.finish event error).1.terminalCallbacks.count logRelease + _ + 0 = _
    cases hend : s.handle.terminal <;> simp [StreamState.finish, SynthesisHandle.finish, held, awaits, hend]
  | runTerminalCallbacks callbacks =>
    cases callbacks with
    | nil =>
      cases hrun
      exact ⟨List.forall_mem_nil _, rfl, .inl rfl, 0, by simp [log], by simp [awaits, held, log]⟩
    | cons callback callbacks =>
      cases hrun
      refine ⟨by simp [Called], rfl, .inl rfl, [callback].count logRelease, ?_, ?_⟩
      · by_cases hcallback : callback = logRelease <;> simp [log, hcallback]
      · show s.held + (callbacks.count logRelease + 0) + _ = s.held + (callback :: callbacks).count logRelease
        simp only [List.count_cons, List.count_nil]
        omega

/-- The operations of a worker and of the handler, but for the worker's first. -/
theorem quiet_of_streamOp {op : StreamOp} (hop : task.streamOp s input = some op) (hhandle : ∀ t, task ≠ .handle t)
    (hjob : ∀ queueWaitMs, task ≠ .runJob queueWaitMs) : op.quiet = true := by
  cases task with
  | handle t => exact absurd rfl (hhandle t)
  | runJob queueWaitMs => exact absurd rfl (hjob queueWaitMs)
  | emitResult result =>
    simp only [streamOp] at hop
    split at hop <;> cases hop
    rfl
  | readEvent =>
    simp only [streamOp] at hop
    split_ifs at hop
    cases hop
    rfl
  | _ => cases hop <;> rfl

theorem callServer_books (s : SynthesisState) (call : ModelCall) (raises : Option LibraryError)
    {task' : SynthesisTask} :
    (s.callServer call raises task').state.counters = s.counters ∧
      (s.callServer call raises task').state.logs = s.logs := by
  cases raises <;> exact ⟨rfl, rfl⟩

/-- A worker writes in neither book. -/
theorem plain_of_run (h : SynthesisState.run backend s task input = some e) (hidle : task.handles = false)
    (hhandle : ∀ t, task ≠ .handle t) :
    (e.state.counters = s.counters ∧ e.state.logs = s.logs) ∧ ∀ t ∈ e.next, t.Plain := by
  have hrelease : ∀ outcome, (SynthesisTask.release outcome).Plain := fun _ => ⟨trivial, rfl⟩
  cases task with
  | handle t => exact absurd rfl (hhandle t)
  | runJob queueWaitMs => cases h; exact ⟨⟨rfl, rfl⟩, List.forall_mem_singleton.mpr ⟨trivial, rfl⟩⟩
  | checkDispatch =>
    cases h
    exact ⟨⟨rfl, rfl⟩, forall_unlessCancelled (fun _ => hrelease _) ⟨trivial, rfl⟩⟩
  | runBackend =>
    cases h
    cases backend with
    | nanovllm call => exact ⟨⟨rfl, rfl⟩, forall_proceed (fun _ => hrelease _) fun _ _ => ⟨trivial, rfl⟩⟩
    | voxcpm2 call => exact ⟨⟨rfl, rfl⟩, forall_proceed (fun _ => hrelease _) fun _ _ => ⟨trivial, rfl⟩⟩
    | kokoro call => exact ⟨⟨rfl, rfl⟩, forall_proceed (fun _ => hrelease _) fun _ _ => ⟨trivial, rfl⟩⟩
    | completeOnly result => exact ⟨⟨rfl, rfl⟩, forall_proceed (fun _ => hrelease _) fun _ _ => ⟨trivial, rfl⟩⟩
  | release outcome =>
    cases h
    rcases outcome with _ | error | result
    · exact ⟨⟨rfl, rfl⟩, List.forall_mem_nil _⟩
    · exact ⟨⟨rfl, rfl⟩, List.forall_mem_singleton.mpr ⟨trivial, rfl⟩⟩
    · exact ⟨⟨rfl, rfl⟩, List.forall_mem_singleton.mpr ⟨trivial, rfl⟩⟩
  | checkPrepared sampleRateHz =>
    cases h
    exact ⟨⟨rfl, rfl⟩, forall_unlessCancelled (fun _ => hrelease _) ⟨trivial, rfl⟩⟩
  | checkGeneration sampleRateHz =>
    cases h
    exact ⟨⟨rfl, rfl⟩, forall_unlessCancelled (fun _ => hrelease _) ⟨trivial, rfl⟩⟩
  | startedSink sampleRateHz =>
    cases h
    exact ⟨⟨rfl, rfl⟩, forall_emitStarted (fun _ => hrelease _) ⟨trivial, rfl⟩⟩
  | encodeLatents sampleRateHz =>
    obtain ⟨call, -, rfl⟩ := Option.map_eq_some_iff.mp h
    exact ⟨s.callServer_books _ _, forall_callServer (fun _ => hrelease _) ⟨trivial, rfl⟩⟩
  | checkEncoded sampleRateHz =>
    cases h
    exact ⟨⟨rfl, rfl⟩, forall_unlessCancelled (fun _ => hrelease _) ⟨trivial, rfl⟩⟩
  | generate sampleRateHz =>
    obtain ⟨call, -, rfl⟩ := Option.map_eq_some_iff.mp h
    exact ⟨s.callServer_books _ _, forall_callServer (fun _ => hrelease _) ⟨trivial, rfl⟩⟩
  | nextChunk sampleRateHz chunkCount totalSampleCount chunks =>
    obtain ⟨call, -, rfl⟩ := Option.map_eq_some_iff.mp h
    cases chunks with
    | cons samples chunks => exact ⟨⟨rfl, rfl⟩, List.forall_mem_singleton.mpr ⟨trivial, rfl⟩⟩
    | nil =>
      simp only [SynthesisState.nextChunk]
      split
      · exact ⟨⟨rfl, rfl⟩, List.forall_mem_singleton.mpr (hrelease _)⟩
      · exact ⟨s.callServer_books _ _, forall_callServer (fun _ => hrelease _) (hrelease _)⟩
  | checkChunk sampleRateHz chunkCount totalSampleCount samples chunks =>
    cases h
    exact ⟨⟨rfl, rfl⟩, forall_unlessCancelled (fun _ => hrelease _) ⟨trivial, rfl⟩⟩
  | chunkSink sampleRateHz chunkCount totalSampleCount samples chunks =>
    cases h
    exact ⟨⟨rfl, rfl⟩, forall_emitAudio (fun _ => hrelease _) ⟨trivial, rfl⟩ ⟨trivial, rfl⟩⟩
  | emitResult result =>
    cases h
    simp only [SynthesisState.emitResult]
    split
    · exact ⟨⟨rfl, rfl⟩, List.forall_mem_singleton.mpr (hrelease _)⟩
    · exact ⟨⟨rfl, rfl⟩, forall_emitStarted (fun _ => hrelease _) ⟨trivial, rfl⟩⟩
  | readFrames emission sequenceNumber firstSample frames =>
    cases h
    refine ⟨⟨rfl, rfl⟩, ?_⟩
    simp only [SynthesisState.readFrames]
    split_ifs
    · exact List.forall_mem_singleton.mpr (hrelease _)
    · exact List.forall_mem_singleton.mpr ⟨trivial, rfl⟩
  | emitFrames emission sequenceNumber firstSample pcm frames =>
    cases h
    exact ⟨⟨rfl, rfl⟩, forall_emitAudio (fun _ => hrelease _) ⟨trivial, rfl⟩ ⟨trivial, rfl⟩⟩
  | _ => cases hidle

/-- **Every step beside the handler** keeps the books. -/
theorem aside_of_run (h : SynthesisState.run backend s task input = some e) (hidle : task.handles = false)
    (hcalled : task.Called) : Aside s task e := by
  have hst := stepped_of_run h
  by_cases hhandle : ∃ t, task = .handle t
  · obtain ⟨t, rfl⟩ := hhandle
    exact runHandle_aside h hcalled
  · simp only [not_exists] at hhandle
    obtain ⟨hledger, hnext⟩ := plain_of_run h hidle hhandle
    by_cases hjob : ∃ queueWaitMs, task = .runJob queueWaitMs
    · obtain ⟨queueWaitMs, rfl⟩ := hjob
      cases h
      exact ⟨fun t hmem => (hnext t hmem).called, rfl, .inr ⟨⟨queueWaitMs, rfl⟩, rfl⟩, 0,
        (List.append_nil _).symm, rfl⟩
    · simp only [not_exists] at hjob
      refine .plain hst (fun op hop => quiet_of_streamOp hop hhandle hjob) ?_ hledger hnext
      cases task with
      | handle t => exact absurd rfl (hhandle t)
      | _ => rfl

/-! ### The ledger -/

/-- What the handler has counted stands in the counters, and what goes with it in the
log or on its way there. -/
structure Stands (s : SynthesisState) (bag : Multiset SynthesisTask) (cls : RpcClass) : Prop where
  counters : s.counters = cls.counters
  fits : ∀ task ∈ bag, cls.Fits task
  ends : cls.Ends s.outcome
  logged : cls.Logged s.handle.dispatched s.logs (s.awaited bag)

/-- **A step beside the handler** leaves what was counted as it is. -/
theorem Stands.aside (h : s.Stands (task ::ₘ others) cls) (hst : Stepped s task input e) (haside : Aside s task e)
    (hidle : task.handles = false) (horderly : task.Orderly s (task ::ₘ others) input) :
    e.state.Stands (e.left + others) cls := by
  have hnext : ∀ t ∈ e.next, t.handles = false := by
    have hnone : e.next.countP handles = 0 := by simpa [hidle] using hst.handled
    simpa using List.countP_eq_zero.mp hnone
  refine ⟨haside.counters.trans h.counters, fun t hmem => ?_, (hst.quiet hidle).2 ▸ h.ends, ?_⟩
  · rw [Effect.left_of_next hst.spawned] at hmem
    rcases Multiset.mem_add.mp hmem with hmem | hmem
    · exact RpcClass.fits_of_idle (hnext t hmem)
    · exact h.fits t (Multiset.mem_cons_of_mem hmem)
  · obtain ⟨n, hlogs, hbalance⟩ := haside.balance
    have hsum : e.state.awaited (e.left + others) + n = s.awaited (task ::ₘ others) := by
      rw [awaited_left hst, awaited_cons]
      omega
    have hlogged := h.logged
    -- where nothing is on its way, nothing is logged
    have hnone : s.awaited (task ::ₘ others) = 0 →
        e.state.logs = s.logs ∧ e.state.awaited (e.left + others) = 0 := by
      intro hzero
      obtain rfl : n = 0 := by omega
      exact ⟨by simpa using hlogs, by omega⟩
    cases cls with
    | undecided => exact ⟨(hnone hlogged.2).1.trans hlogged.1, (hnone hlogged.2).2⟩
    | completed native => exact ⟨(hnone hlogged.2).1.trans hlogged.1, (hnone hlogged.2).2⟩
    | failed status code error stalled => exact ⟨(hnone hlogged.2).1.trans hlogged.1, (hnone hlogged.2).2⟩
    | cancelled counted =>
      rcases hlogged with ⟨hempty, hone, hdispatched⟩ | ⟨hentry, hzero⟩
      · rw [hempty, List.nil_append] at hlogs
        cases n with
        | zero =>
          refine .inl ⟨hlogs, by omega, ?_⟩
          rcases haside.dispatched with hsame | ⟨⟨queueWaitMs, rfl⟩, hmarked⟩
          · exact hsame.trans hdispatched
          · -- the worker marks the handle while the entry is on its way
            cases counted with
            | true => exact hmarked
            | false =>
              have hspoilt : s.awaited (.runJob queueWaitMs ::ₘ others) = 0 := horderly
              omega
        | succ n =>
          obtain rfl : n = 0 := by omega
          refine .inr ⟨?_, by omega⟩
          rw [hlogs, scope, hdispatched]
          rfl
      · exact .inr ⟨(hnone hzero).1.trans hentry, (hnone hzero).2⟩

/-! ### The handler -/

/-- The handler does not touch the callbacks itself. -/
theorem awaited_turn (hst : Stepped s task input e) (hhandles : task.handles = true) :
    e.state.awaited (e.left + others) = s.awaited (task ::ₘ others) + (e.next.map awaits).sum := by
  have hheld : e.state.held = s.held := by
    show e.state.delivery.handle.terminalCallbacks.count logRelease = _
    rw [hst.delivery]
    cases hop : task.streamOp s input with
    | none => rfl
    | some op =>
      have hquiet : op.quiet = true := by
        refine quiet_of_streamOp hop ?_ ?_ <;> rintro _ rfl <;> cases hhandles
      exact congrArg (List.count logRelease) (s.handle.after_quiet hquiet).2
  have hawaits : task.awaits = 0 := by
    cases task <;> first | rfl | cases hhandles
  rw [awaited_left hst, awaited_cons, hheld, hawaits]
  omega

/-- What stands after a step of the handler. -/
theorem Stands.turn (hst : Stepped s task input e) (hhandles : task.handles = true)
    (hothers : ∀ t ∈ others, t.handles = false) (hcounters : e.state.counters = cls.counters)
    (hfits : ∀ t ∈ e.next, cls.Fits t) (hends : cls.Ends e.state.outcome)
    (hlogged : cls.Logged e.state.handle.dispatched e.state.logs
      (s.awaited (task ::ₘ others) + (e.next.map awaits).sum)) : e.state.Stands (e.left + others) cls := by
  refine ⟨hcounters, fun t hmem => ?_, hends, awaited_turn hst hhandles ▸ hlogged⟩
  rw [Effect.left_of_next hst.spawned] at hmem
  rcases Multiset.mem_add.mp hmem with hmem | hmem
  · exact hfits t hmem
  · exact RpcClass.fits_of_idle (hothers t hmem)

/-- A handler that has not counted yet goes on so. -/
theorem Stands.on (h : s.Stands (task ::ₘ others) .undecided) (hst : Stepped s task input e)
    (hhandles : task.handles = true) (hothers : ∀ t ∈ others, t.handles = false)
    (hsame : e.state.counters = s.counters ∧ e.state.logs = s.logs ∧ e.state.outcome = s.outcome)
    (hnext : ∀ t ∈ e.next, t.Plain ∧ RpcClass.undecided.Fits t) : e.state.Stands (e.left + others) .undecided := by
  refine .turn hst hhandles hothers (hsame.1.trans h.counters) (fun t hmem => (hnext t hmem).2)
    (hsame.2.2.trans h.ends) ⟨hsame.2.1.trans h.logged.1, ?_⟩
  rw [h.logged.2, Nat.zero_add]
  refine List.sum_eq_zero fun n hmem => ?_
  obtain ⟨t, ht, rfl⟩ := List.mem_map.mp hmem
  exact (hnext t ht).1.awaits

/-- Which it has not as long as it reads, sends or classifies. -/
theorem undecided_of_fits (h : cls.Fits task) (hhandles : task.handles = true) (hcancelled : task ≠ .raiseCancelled)
    (habort : ∀ status detail code, task ≠ .abort status detail code) : cls = .undecided := by
  cases cls with
  | undecided => rfl
  | completed native => cases h.symm.trans hhandles
  | failed status code error stalled =>
    cases task with
    | abort status detail code => exact absurd rfl (habort status detail code)
    | _ => cases h.symm.trans hhandles
  | cancelled dispatched =>
    cases task with
    | abort status detail code => exact absurd rfl (habort status detail code)
    | raiseCancelled => exact absurd rfl hcancelled
    | _ => cases h.symm.trans hhandles

/-- The status of a cancellation. -/
theorem statusForError_cancelled (error : EngineError) :
    (statusForError error).1 = .cancelled ↔ error.isSynthesisCancelled = true := by
  cases error with
  | unprintable className raisedClassName raisedMessage =>
    simp only [statusForError, EngineError.isSynthesisCancelled]
    split_ifs <;> simp
  | _ => simp [statusForError, EngineError.isSynthesisCancelled]

/-- What is read is sent, or reported, or is a Completed event's end. -/
theorem readEvent_on (h : s.Stands (.readEvent ::ₘ others) .undecided)
    (hrun : SynthesisState.run backend s .readEvent input = some e) (hothers : ∀ t ∈ others, t.handles = false) :
    e.state.Stands (e.left + others) .undecided := by
  have hst := stepped_of_run hrun
  simp only [run, SynthesisState.readEvent] at hrun
  split_ifs at hrun
  · cases hrun
    exact h.on hst rfl hothers ⟨rfl, rfl, rfl⟩ (List.forall_mem_singleton.mpr ⟨⟨trivial, rfl⟩, trivial⟩)
  · cases hrun
    refine h.on hst rfl hothers ⟨rfl, rfl, rfl⟩ ?_
    simp only
    split <;> exact List.forall_mem_singleton.mpr ⟨⟨trivial, rfl⟩, trivial⟩

/-- The handler that has caught an exception counts and logs a failure, or counts a
cancellation and is to register its entry. -/
theorem classify_stands (backend : Backend) (input : SynthesisInput) {error : EngineError}
    (h : s.Stands (.classify error ::ₘ others) .undecided) (hothers : ∀ t ∈ others, t.handles = false)
    (hprintable : error.Printable) : ∃ cls, (s.classify error).state.Stands ((s.classify error).left + others) cls := by
  obtain ⟨text, htext⟩ := hprintable.str
  have hrun : SynthesisState.run backend s (.classify error) input = some (s.classify error) := rfl
  have hst := stepped_of_run hrun
  rw [classify_eq htext] at hst ⊢
  by_cases hcancelled : error.isSynthesisCancelled = true
  · obtain ⟨message, rfl⟩ : ∃ message, error = .synthesisCancelled message := by
      cases error with
      | synthesisCancelled message => exact ⟨message, rfl⟩
      | _ => cases hcancelled
    refine ⟨.cancelled s.handle.dispatched, .turn hst rfl hothers ?_ ?_ (.inl h.ends) (.inl ⟨?_, ?_, rfl⟩)⟩
    · show s.counters ++ _ = _
      rw [h.counters]
      rfl
    · simp [EngineError.isSynthesisCancelled, RpcClass.Fits, handles, statusForError]
    · show s.logs ++ _ = _
      rw [h.logged.1]
      rfl
    · rw [h.logged.2]
      rfl
  · have hstatus : (statusForError error).1 ≠ .cancelled := fun heq =>
      hcancelled ((statusForError_cancelled error).mp heq)
    simp only [hcancelled, Bool.false_eq_true, if_false, List.nil_append, List.append_nil] at hst ⊢
    refine ⟨.failed (statusForError error).1 (statusForError error).2 text error.isStreamConsumerStalled,
      .turn hst rfl hothers ?_ ?_ ⟨hstatus, .inl h.ends⟩ ⟨?_, ?_⟩⟩
    · show s.counters ++ _ = _
      rw [h.counters]
      rfl
    · exact List.forall_mem_singleton.mpr ⟨rfl, rfl⟩
    · show s.logs ++ _ = _
      rw [h.logged.1]
      rfl
    · rw [h.logged.2]
      rfl

/-- **A step of the handler** counts, once, or keeps to what it has counted. -/
theorem stands_of_handler (h : s.Stands (task ::ₘ others) cls)
    (hrun : SynthesisState.run backend s task input = some e) (hhandles : task.handles = true)
    (hothers : ∀ t ∈ others, t.handles = false) (hreads : task.ReadsOn s.delivery)
    (horderly : task.Orderly s (task ::ₘ others) input) : ∃ cls, e.state.Stands (e.left + others) cls := by
  have hst := stepped_of_run hrun
  have hfits := h.fits task (Multiset.mem_cons_self ..)
  cases task with
  | readEvent =>
    obtain rfl := undecided_of_fits hfits rfl (by simp) (by simp)
    exact ⟨_, readEvent_on h hrun hothers⟩
  | returnEmpty => exact hreads.elim
  | send event =>
    obtain rfl := undecided_of_fits hfits rfl (by simp) (by simp)
    cases hrun
    refine ⟨_, h.on hst rfl hothers ?_ ?_⟩ <;> unfold SynthesisState.send <;> split
    · exact ⟨rfl, rfl, rfl⟩
    · exact ⟨rfl, rfl, rfl⟩
    · exact List.forall_mem_singleton.mpr ⟨⟨trivial, rfl⟩, trivial⟩
    · exact List.forall_mem_singleton.mpr ⟨⟨trivial, rfl⟩, trivial⟩
  | resume event =>
    obtain rfl := undecided_of_fits hfits rfl (by simp) (by simp)
    cases hrun
    have hsent : input.cancelled = false := horderly
    simp only [SynthesisState.resume, hsent, Bool.false_eq_true, if_false] at hst ⊢
    cases event with
    | started event =>
      exact ⟨_, h.on hst rfl hothers ⟨rfl, rfl, rfl⟩ (List.forall_mem_singleton.mpr ⟨⟨trivial, rfl⟩, trivial⟩)⟩
    | audio event =>
      exact ⟨_, h.on hst rfl hothers ⟨rfl, rfl, rfl⟩ (List.forall_mem_singleton.mpr ⟨⟨trivial, rfl⟩, trivial⟩)⟩
    | completed event =>
      refine ⟨.completed (nativeStreaming event.metadata),
        .turn hst rfl hothers ?_ (List.forall_mem_nil _) rfl ⟨?_, ?_⟩⟩
      · show s.counters ++ _ = _
        rw [h.counters]
        rfl
      · show s.logs ++ _ = _
        rw [h.logged.1]
        rfl
      · rw [h.logged.2]
        rfl
  | clientCancelled =>
    obtain rfl := undecided_of_fits hfits rfl (by simp) (by simp)
    cases hrun
    refine ⟨.cancelled s.handle.dispatched, .turn hst rfl hothers ?_ ?_ (.inl h.ends) (.inl ⟨h.logged.1, ?_, rfl⟩)⟩
    · show s.counters ++ _ = _
      rw [h.counters]
      rfl
    · simp [SynthesisState.clientCancelled, RpcClass.Fits, handles]
    · rw [h.logged.2]
      rfl
  | failRpc error =>
    obtain rfl := undecided_of_fits hfits rfl (by simp) (by simp)
    cases hrun
    refine ⟨_, h.on hst rfl hothers ⟨rfl, rfl, rfl⟩ fun t hmem => ?_⟩
    rcases List.mem_pair.mp hmem with rfl | rfl <;> exact ⟨⟨trivial, rfl⟩, trivial⟩
  | classify error =>
    obtain rfl := undecided_of_fits hfits rfl (by simp) (by simp)
    cases hrun
    exact classify_stands backend input h hothers horderly
  | raiseCancelled =>
    cases hrun
    cases cls with
    | undecided => exact hfits.elim
    | cancelled counted =>
      exact ⟨_, .turn hst rfl hothers h.counters (List.forall_mem_nil _) (.inr (.inl rfl)) h.logged⟩
    | _ => cases hfits
  | abort status detail code =>
    cases hrun
    cases cls with
    | undecided => exact hfits.elim
    | completed native => cases hfits
    | failed status' code' error stalled =>
      obtain ⟨rfl, rfl⟩ := hfits
      have hreported : input.cancelled = false := horderly h.ends.1
      refine ⟨_, .turn hst rfl hothers h.counters (List.forall_mem_nil _) ⟨h.ends.1, .inr ⟨detail, ?_⟩⟩ h.logged⟩
      simp [hreported]
    | cancelled counted =>
      obtain rfl := hfits
      refine ⟨_, .turn hst rfl hothers h.counters (List.forall_mem_nil _) (.inr ?_) h.logged⟩
      simp only
      split_ifs
      · exact .inl rfl
      · exact .inr ⟨detail, code, rfl⟩
  | _ => cases hhandles

theorem called_of_handles (hhandles : task.handles = true) : task.Called := by
  cases task <;> trivial

/-- What the handler turns to is called. -/
theorem called_of_handler (hrun : SynthesisState.run backend s task input = some e)
    (hhandles : task.handles = true) : ∀ t ∈ e.next, t.Called :=
  forall_handler hrun hhandles (fun _ ht => called_of_handles ht) trivial trivial

/-! ### What keeps the ledger -/

/-- **The ledger**, with what it takes that `event is None` is never reached. -/
structure Ledger (s : SynthesisState) (bag : Multiset SynthesisTask) : Prop where
  handler : bag.countP (·.handles = true) ≤ 1
  called : ∀ task ∈ bag, task.Called
  waiting : s.handle.terminal = true → s.handle.terminalCallbacks = []
  fifo : s.delivery.Fifo
  completed : s.handle.terminal = true → s.handle.error = none →
    ∃ event ∈ s.delivery.appended, event.isCompleted = true
  reads : ∀ task ∈ bag, task.ReadsOn s.delivery
  stands : ∃ cls, s.Stands bag cls

/-- The others do not read. -/
theorem readsOn_of_idle {d : Delivery} (hidle : task.handles = false) : task.ReadsOn d := by
  cases task <;> trivial

theorem readsOn_of_returned {d d' : Delivery} (hsame : d'.returned = d.returned) (h : task.ReadsOn d) :
    task.ReadsOn d' := by
  cases task with
  | readEvent | send | resume => simpa only [ReadsOn, hsame] using h
  | returnEmpty => exact h
  | _ => trivial

/-- **The handler reads on** until it has read the Completed event, and no further. -/
theorem readsOn_of_run (h : Ledger s (task ::ₘ others)) (hrun : SynthesisState.run backend s task input = some e)
    (hhandles : task.handles = true) : ∀ t ∈ e.next, t.ReadsOn e.state.delivery := by
  have hreads := h.reads task (Multiset.mem_cons_self ..)
  cases task with
  | readEvent =>
    simp only [run, SynthesisState.readEvent] at hrun
    split_ifs at hrun with hcancelled hreadable <;> cases hrun
    · exact List.forall_mem_singleton.mpr trivial
    · rcases read_unfinished h.fifo hreadable h.completed hreads with ⟨error, heq⟩ |
        ⟨event, heq, hreturned⟩ <;> simp only [heq]
      · exact List.forall_mem_singleton.mpr trivial
      · have hall : event.isCompleted = false →
            ∀ event ∈ (s.perform .read).delivery.returned, event.isCompleted = false := by
          intro hevent event' hmem
          rw [hreturned] at hmem
          rcases List.mem_append.mp hmem with hmem | hmem
          · exact hreads event' hmem
          · exact List.mem_singleton.mp hmem ▸ hevent
        cases event with
        | completed event => exact List.forall_mem_singleton.mpr fun hevent => Bool.noConfusion hevent
        | started event => exact List.forall_mem_singleton.mpr hall
        | audio event => exact List.forall_mem_singleton.mpr hall
  | send event =>
    cases hrun
    simp only [SynthesisState.send]
    split
    · exact List.forall_mem_singleton.mpr trivial
    · exact List.forall_mem_singleton.mpr hreads
  | resume event =>
    cases hrun
    simp only [SynthesisState.resume]
    split_ifs
    · exact List.forall_mem_nil _
    · cases event with
      | started event => exact List.forall_mem_singleton.mpr (hreads rfl)
      | audio event => exact List.forall_mem_singleton.mpr (hreads rfl)
      | completed event => exact List.forall_mem_nil _
  | clientCancelled => cases hrun; simp [SynthesisState.clientCancelled, ReadsOn]
  | failRpc error => cases hrun; simp [ReadsOn]
  | classify error => cases hrun; exact forall_classify trivial fun _ _ => trivial
  | returnEmpty | raiseCancelled | abort => cases hrun; exact List.forall_mem_nil _
  | _ => cases hhandles

/-- A finishing task that is called ends the stream as `complete` and `fail` do. -/
theorem ends_of_called {op : StreamOp} (hcalled : task.Called) (hop : task.streamOp s input = some op) :
    op.Ends := by
  refine ends_of_streamOp (fun t ht => ?_) hop
  subst ht
  cases t <;> first | exact hcalled | trivial

/-- **The ledger, step by step.** -/
theorem Ledger.run (h : Ledger s (task ::ₘ others)) (horderly : task.Orderly s (task ::ₘ others) input)
    (hrun : SynthesisState.run backend s task input = some e) : Ledger e.state (e.left + others) := by
  have hst := stepped_of_run hrun
  have hleft : e.left = ↑e.next := Effect.left_of_next hst.spawned
  have hcalled := h.called task (Multiset.mem_cons_self ..)
  obtain ⟨cls, hstands⟩ := h.stands
  have hothers : task.handles = true → ∀ t ∈ others, t.handles = false := others_of_countP h.handler
  refine ⟨(countP_step hst hst.handled).trans h.handler, fun t hmem => ?_, ?_, ?_, ?_, fun t hmem => ?_, ?_⟩
  · rw [hleft] at hmem
    rcases Multiset.mem_add.mp hmem with hmem | hmem
    · cases hhandles : task.handles with
      | true => exact called_of_handler hrun hhandles t hmem
      | false => exact (aside_of_run hrun hhandles hcalled).called t hmem
    · exact h.called t (Multiset.mem_cons_of_mem hmem)
  · show e.state.delivery.handle.terminal = true → e.state.delivery.handle.terminalCallbacks = []
    rw [hst.delivery]
    cases hop : task.streamOp s input with
    | none => exact h.waiting
    | some op => exact SynthesisHandle.after_waiting h.waiting op
  · rw [hst.delivery]
    cases hop : task.streamOp s input with
    | none => exact h.fifo
    | some op => exact Delivery.perform_fifo h.fifo op
  · show e.state.delivery.handle.terminal = true → e.state.delivery.handle.error = none →
      ∃ event ∈ e.state.delivery.appended, event.isCompleted = true
    rw [hst.delivery]
    cases hop : task.streamOp s input with
    | none => exact h.completed
    | some op => exact Delivery.perform_completed (ends_of_called hcalled hop) h.completed
  · rw [hleft] at hmem
    rcases Multiset.mem_add.mp hmem with hmem | hmem
    · cases hhandles : task.handles with
      | true => exact readsOn_of_run h hrun hhandles t hmem
      | false =>
        have hnone : e.next.countP handles = 0 := by simpa [hhandles] using hst.handled
        exact readsOn_of_idle (by simpa using List.countP_eq_zero.mp hnone t hmem)
    · cases hhandles : task.handles with
      | true => exact readsOn_of_idle (hothers hhandles t hmem)
      | false =>
        have hreader : task ≠ .handle .readEvent := by
          rintro rfl
          exact hcalled
        exact readsOn_of_returned (returned_of_run hst hhandles hreader) (h.reads t (Multiset.mem_cons_of_mem hmem))
  · cases hhandles : task.handles with
    | true =>
      exact stands_of_handler hstands hrun hhandles (hothers hhandles)
        (h.reads task (Multiset.mem_cons_self ..)) horderly
    | false => exact ⟨cls, hstands.aside hst (aside_of_run hrun hhandles hcalled) hhandles horderly⟩

/-- What callers do to the handle is in nobody's book. -/
theorem Ledger.entry (h : Ledger s others) (hentry : task.entry = true) : Ledger s (task ::ₘ others) := by
  have hidle : task.handles = false ∧ task.Plain := by
    cases task with
    | handle task =>
      cases task with
      | cancel | fail | setCancelCallback => exact ⟨rfl, trivial, rfl⟩
      | _ => cases hentry
    | _ => cases hentry
  obtain ⟨hhandles, hplain⟩ := hidle
  obtain ⟨cls, hstands⟩ := h.stands
  refine ⟨?_, Multiset.forall_mem_cons.mpr ⟨hplain.called, h.called⟩, h.waiting, h.fifo, h.completed,
    Multiset.forall_mem_cons.mpr ⟨readsOn_of_idle hhandles, h.reads⟩, cls, hstands.counters,
    Multiset.forall_mem_cons.mpr ⟨RpcClass.fits_of_idle hhandles, hstands.fits⟩, hstands.ends, ?_⟩
  · rw [Multiset.countP_cons_of_neg _ (by simp [hhandles])]
    exact h.handler
  · rw [awaited_cons, hplain.awaits, Nat.add_zero]
    exact hstands.logged

/-- Before the first step. -/
theorem start_ledger (spec : HandleSpec) (hfresh : logRelease ∉ spec.terminalCallbacks)
    (createdAt queueWaitMs receivedAt : ℚ) :
    let c := start (spec.handle createdAt) queueWaitMs receivedAt
    Ledger c.state c.bag := by
  intro c
  have hbag : c.bag = {.runJob queueWaitMs, .readEvent} := rfl
  have hawaited : c.state.awaited c.bag = 0 := by
    rw [hbag]
    show spec.terminalCallbacks.count logRelease + 0 = 0
    rw [List.count_eq_zero.mpr hfresh]
  refine ⟨le_rfl, ?_, fun hend => Bool.noConfusion hend, rfl, fun hend => Bool.noConfusion hend, ?_,
    .undecided, rfl, ?_, rfl, rfl, hawaited⟩
  · rw [hbag]
    simp [Called]
  · rw [hbag]
    simp only [Multiset.insert_eq_cons, Multiset.forall_mem_cons, Multiset.mem_singleton, forall_eq]
    exact ⟨trivial, fun _ hmem => absurd hmem List.not_mem_nil⟩
  · rw [hbag]
    simp [RpcClass.Fits]

/-- **The ledger under every orderly interleaving.** -/
theorem runs_ledger (backend : Backend) (spec : HandleSpec) (hfresh : logRelease ∉ spec.terminalCallbacks)
    (createdAt queueWaitMs receivedAt : ℚ) {actions : List (Action SynthesisTask SynthesisInput)}
    (horderly : Run.Along (synthesisProgram backend).step (Threads.MeetsIn Orderly)
      (start (spec.handle createdAt) queueWaitMs receivedAt) actions) :
    let c := (synthesisProgram backend).runs (start (spec.handle createdAt) queueWaitMs receivedAt) actions
    Ledger c.state c.bag :=
  Threads.Program.runs_of_meetsIn (start_ledger spec hfresh createdAt queueWaitMs receivedAt)
    (fun _ _ _ hentry h => h.entry hentry) (fun _ _ _ _ _ horderly hrun h => h.run horderly hrun) horderly

end SynthesisState
end TtsPool
