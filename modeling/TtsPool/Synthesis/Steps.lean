/-
# Steps of a synthesis

What one step of `synthesisProgram` does to the handle is at most one operation
of `StreamOp` (`delivery_of_run`).  Of the tasks, some may still append to the
stream (`produces`), some are the handler's (`handles`).  A step of neither kind
leaves the stream, the messages and the outcome alone, and no task turns into
two of a kind; so there is one producer and one handler as long as one of each
begins.
-/

import TtsPool.Synthesis.Program
import Mathlib.Data.Multiset.Count

namespace TtsPool

open Threads (Effect Config Action)

namespace SynthesisTask

/-- A worker that may still append to the stream. -/
def produces : SynthesisTask → Bool
  | .handle (.complete ..) | .handle (.combineMetrics ..) | .handle (.finish (some _) _) => true
  | .runJob _ | .checkDispatch | .runBackend | .release _ | .checkPrepared _ | .checkGeneration _
  | .startedSink _ | .encodeLatents _ | .checkEncoded _ | .generate _ | .nextChunk .. | .checkChunk ..
  | .chunkSink .. | .emitResult _ | .readFrames .. | .emitFrames .. => true
  | _ => false

/-- A task of the handler `Synthesize`. -/
def handles : SynthesisTask → Bool
  | .readEvent | .returnEmpty | .send _ | .resume _ | .clientCancelled | .raiseCancelled | .failRpc _
  | .classify _ | .abort .. => true
  | _ => false

/-- What a task does under the handle's lock, when it takes it. -/
def streamOp (s : SynthesisState) (input : SynthesisInput) : SynthesisTask → Option StreamOp
  | .handle task => task.op input.remaining
  | .runJob queueWaitMs => some (.markDispatched queueWaitMs)
  | .startedSink sampleRateHz => some (.emitStarted sampleRateHz 1)
  | .chunkSink _ chunkCount totalSampleCount samples _ =>
    some (.emitAudio ⟨chunkCount, totalSampleCount, pcmBytes samples⟩ input.remaining)
  | .emitResult result =>
    match openResult result s.handle.maxBufferBytes with
    | .ok (emission, _) => some (.emitStarted emission.sampleRateHz emission.channelCount)
    | .error _ => none
  | .emitFrames _ sequenceNumber firstSample pcm _ =>
    some (.emitAudio ⟨sequenceNumber, firstSample, pcm⟩ input.remaining)
  | .readEvent => if input.cancelled then none else some .read
  | _ => none

end SynthesisTask

namespace SynthesisState

open SynthesisTask

variable {backend : Backend} {s : SynthesisState} {task : SynthesisTask} {input : SynthesisInput} {e : Step}
  {others : Multiset SynthesisTask}

/-- What every step has in common. -/
structure Stepped (s : SynthesisState) (task : SynthesisTask) (input : SynthesisInput) (e : Step) : Prop where
  /-- The step is the operation of its task, or leaves handle and ledgers alone. -/
  delivery : e.state.delivery = (task.streamOp s input).elim s.delivery s.delivery.perform
  spawned : e.spawned = []
  quiet : task.handles = false → e.state.sent = s.sent ∧ e.state.outcome = s.outcome
  produced : e.next.countP produces ≤ task.produces.toNat
  handled : e.next.countP handles ≤ task.handles.toNat

/-- A worker's step that touches no handle and turns to a task of the worker. -/
theorem Stepped.work {task' : SynthesisTask} {s' : SynthesisState} (hop : task.streamOp s input = none)
    (hproduces : task.produces = true) (hnext : task'.handles = false)
    (hs : s'.delivery = s.delivery ∧ s'.sent = s.sent ∧ s'.outcome = s.outcome) :
    Stepped s task input { state := s', next := [task'] } where
  delivery := by rw [hop]; exact hs.1
  spawned := rfl
  quiet := fun _ => hs.2
  produced := by
    rw [hproduces]
    exact List.countP_le_length
  handled := by simp [hnext]

/-- A section of the worker under the handle's lock. -/
theorem Stepped.section {task' : SynthesisTask} {op : StreamOp} (hop : task.streamOp s input = some op)
    (hproduces : task.produces = true) (hnext : task'.handles = false) :
    Stepped s task input { state := s.perform op, next := [task'] } where
  delivery := by rw [hop]; rfl
  spawned := rfl
  quiet := fun _ => ⟨rfl, rfl⟩
  produced := by
    rw [hproduces]
    exact List.countP_le_length
  handled := by simp [hnext]

theorem callServer_stepped {call : ModelCall} {raises : Option LibraryError} {task' : SynthesisTask}
    (hop : task.streamOp s input = none) (hproduces : task.produces = true)
    (hnext : task'.handles = false) : Stepped s task input (s.callServer call raises task') := by
  cases raises with
  | none => exact .work hop hproduces hnext ⟨rfl, rfl, rfl⟩
  | some error => exact .work hop hproduces rfl ⟨rfl, rfl, rfl⟩

theorem unlessCancelled_stepped {message : String} {task' : SynthesisTask} (hop : task.streamOp s input = none)
    (hproduces : task.produces = true) (hnext : task'.handles = false) :
    Stepped s task input (s.unlessCancelled message task') := by
  unfold unlessCancelled
  split_ifs
  · exact .work hop hproduces rfl ⟨rfl, rfl, rfl⟩
  · exact .work hop hproduces hnext ⟨rfl, rfl, rfl⟩

theorem proceed_stepped {α : Type} {s' : SynthesisState} {value : Except EngineError α} {next : α → SynthesisTask}
    (hop : task.streamOp s input = none) (hproduces : task.produces = true)
    (hnext : ∀ a, (next a).handles = false)
    (hs : s'.delivery = s.delivery ∧ s'.sent = s.sent ∧ s'.outcome = s.outcome) :
    Stepped s task input (s'.proceed value next) := by
  cases value with
  | error error => exact .work hop hproduces rfl hs
  | ok a => exact .work hop hproduces (hnext a) hs

theorem emitStarted_stepped {sampleRateHz channelCount : ℤ} {task' : SynthesisTask}
    (hop : task.streamOp s input = some (.emitStarted sampleRateHz channelCount)) (hproduces : task.produces = true)
    (hnext : task'.handles = false) : Stepped s task input (s.emitStarted sampleRateHz channelCount task') := by
  unfold SynthesisState.emitStarted
  split
  · exact .section hop hproduces hnext
  · exact .section hop hproduces rfl

theorem emitAudio_stepped {event : StreamAudioChunk} {again task' : SynthesisTask}
    (hop : task.streamOp s input = some (.emitAudio event input.remaining)) (hproduces : task.produces = true)
    (hagain : again.handles = false) (hnext : task'.handles = false) :
    Stepped s task input (s.emitAudio event input.remaining again task') := by
  unfold SynthesisState.emitAudio
  split
  · exact .section hop hproduces hnext
  · exact .section hop hproduces hagain
  · exact .section hop hproduces rfl

/-- The parts of the handle's methods that may still append come one by one. -/
theorem runHandle_stepped {task : StreamTask} (h : s.runHandle task input.remaining = some e) :
    Stepped s (.handle task) input e := by
  obtain ⟨e', hrun, rfl⟩ := Option.map_eq_some_iff.mp h
  have hspawned := StreamState.run_spawned hrun
  refine ⟨StreamState.run_perform hrun, by simp [hspawned], fun _ => ⟨rfl, rfl⟩, ?_, ?_⟩
  · cases task with
    | readEvent =>
      simp only [StreamState.run] at hrun
      split_ifs at hrun
      cases hrun
      exact le_rfl
    | emitAudio event =>
      cases hrun
      simp only [StreamState.emitAudio]
      split <;> exact le_rfl
    | addTerminalCallback callback =>
      cases hrun
      simp only [StreamState.addTerminalCallback]
      split_ifs <;> exact le_rfl
    | complete result metrics =>
      cases hrun
      simp only [StreamState.complete]
      split_ifs <;> simp [produces]
    | runTerminalCallbacks callbacks => cases callbacks <;> cases hrun <;> exact le_rfl
    | finish event error => cases hrun; simp [produces, StreamState.finish]
    | _ => cases hrun; exact le_rfl
  · simp [handles, List.countP_map, Function.comp_def]

/-- **What every step has in common.** -/
theorem stepped_of_run (h : SynthesisState.run backend s task input = some e) : Stepped s task input e := by
  cases task with
  | handle task => exact runHandle_stepped h
  | runJob queueWaitMs => cases h; exact ⟨rfl, rfl, fun _ => ⟨rfl, rfl⟩, le_rfl, le_rfl⟩
  | checkDispatch => cases h; exact unlessCancelled_stepped rfl rfl rfl
  | runBackend =>
    cases h
    cases backend with
    | nanovllm call => exact proceed_stepped rfl rfl (fun _ => rfl) ⟨rfl, rfl, rfl⟩
    | voxcpm2 call => exact proceed_stepped rfl rfl (fun _ => rfl) ⟨rfl, rfl, rfl⟩
    | kokoro call => exact proceed_stepped rfl rfl (fun _ => rfl) ⟨rfl, rfl, rfl⟩
    | completeOnly result => exact proceed_stepped rfl rfl (fun _ => rfl) ⟨rfl, rfl, rfl⟩
  | release outcome =>
    cases h
    rcases outcome with _ | error | result
    · exact ⟨rfl, rfl, fun _ => ⟨rfl, rfl⟩, Nat.zero_le _, le_rfl⟩
    · exact .work rfl rfl rfl ⟨rfl, rfl, rfl⟩
    · exact .work rfl rfl rfl ⟨rfl, rfl, rfl⟩
  | checkPrepared sampleRateHz => cases h; exact unlessCancelled_stepped rfl rfl rfl
  | checkGeneration sampleRateHz => cases h; exact unlessCancelled_stepped rfl rfl rfl
  | startedSink sampleRateHz => cases h; exact emitStarted_stepped rfl rfl rfl
  | encodeLatents sampleRateHz =>
    obtain ⟨call, -, rfl⟩ := Option.map_eq_some_iff.mp h
    exact callServer_stepped rfl rfl rfl
  | checkEncoded sampleRateHz => cases h; exact unlessCancelled_stepped rfl rfl rfl
  | generate sampleRateHz =>
    obtain ⟨call, -, rfl⟩ := Option.map_eq_some_iff.mp h
    exact callServer_stepped rfl rfl rfl
  | nextChunk sampleRateHz chunkCount totalSampleCount chunks =>
    obtain ⟨call, -, rfl⟩ := Option.map_eq_some_iff.mp h
    cases chunks with
    | cons samples chunks => exact .work rfl rfl rfl ⟨rfl, rfl, rfl⟩
    | nil =>
      simp only [SynthesisState.nextChunk]
      split
      · exact .work rfl rfl rfl ⟨rfl, rfl, rfl⟩
      · exact callServer_stepped rfl rfl rfl
  | checkChunk sampleRateHz chunkCount totalSampleCount samples chunks =>
    cases h
    exact unlessCancelled_stepped rfl rfl rfl
  | chunkSink sampleRateHz chunkCount totalSampleCount samples chunks =>
    cases h
    exact emitAudio_stepped rfl rfl rfl rfl
  | emitResult result =>
    cases h
    simp only [SynthesisState.emitResult]
    cases hopen : openResult result s.handle.maxBufferBytes with
    | error error => exact .work (by simp [streamOp, hopen]) rfl rfl ⟨rfl, rfl, rfl⟩
    | ok emission => exact emitStarted_stepped (by simp [streamOp, hopen]) rfl rfl
  | readFrames emission sequenceNumber firstSample frames =>
    cases h
    simp only [SynthesisState.readFrames]
    split_ifs <;> exact .work rfl rfl rfl ⟨rfl, rfl, rfl⟩
  | emitFrames emission sequenceNumber firstSample pcm frames =>
    cases h
    exact emitAudio_stepped rfl rfl rfl rfl
  | readEvent =>
    simp only [run, SynthesisState.readEvent] at h
    split_ifs at h with hcancelled
    · cases h
      exact ⟨by simp [streamOp, hcancelled], rfl, fun hnot => Bool.noConfusion hnot, le_rfl, le_rfl⟩
    · cases h
      refine ⟨by simp [streamOp, hcancelled, SynthesisState.perform, StreamState.perform], rfl,
        fun hnot => Bool.noConfusion hnot, ?_, ?_⟩
      · simp only
        split <;> exact le_rfl
      · simp only
        split <;> exact le_rfl
  | returnEmpty => cases h; exact ⟨rfl, rfl, fun hnot => Bool.noConfusion hnot, le_rfl, Nat.zero_le _⟩
  | send event =>
    cases h
    simp only [SynthesisState.send]
    split <;> exact ⟨rfl, rfl, fun hnot => Bool.noConfusion hnot, le_rfl, le_rfl⟩
  | resume event =>
    cases h
    simp only [SynthesisState.resume]
    split_ifs
    · exact ⟨rfl, rfl, fun hnot => Bool.noConfusion hnot, Nat.zero_le _, Nat.zero_le _⟩
    · cases event <;> exact ⟨rfl, rfl, fun hnot => Bool.noConfusion hnot, Nat.zero_le _, by simp [handles]⟩
  | clientCancelled => cases h; exact ⟨rfl, rfl, fun hnot => Bool.noConfusion hnot, le_rfl, le_rfl⟩
  | raiseCancelled => cases h; exact ⟨rfl, rfl, fun hnot => Bool.noConfusion hnot, le_rfl, Nat.zero_le _⟩
  | failRpc error => cases h; exact ⟨rfl, rfl, fun hnot => Bool.noConfusion hnot, le_rfl, le_rfl⟩
  | classify error =>
    cases h
    simp only [SynthesisState.classify]
    split
    · exact ⟨rfl, rfl, fun hnot => Bool.noConfusion hnot, Nat.zero_le _, Nat.zero_le _⟩
    · refine ⟨rfl, rfl, fun hnot => Bool.noConfusion hnot, ?_, ?_⟩
      · dsimp only
        split_ifs <;> exact le_rfl
      · dsimp only
        split_ifs <;> exact le_rfl
  | abort status detail code =>
    cases h
    exact ⟨rfl, rfl, fun hnot => Bool.noConfusion hnot, le_rfl, Nat.zero_le _⟩

/-! ### One of a kind -/

/-- Where there is at most one of a kind, the others are of another. -/
theorem others_of_countP {f : SynthesisTask → Bool} (hcount : (task ::ₘ others).countP (f · = true) ≤ 1)
    (hf : f task = true) : ∀ t ∈ others, f t = false := by
  intro t hmem
  rw [Multiset.countP_cons_of_pos (p := (f · = true)) _ hf] at hcount
  have hzero : others.countP (f · = true) = 0 := by omega
  simpa using Multiset.countP_eq_zero.mp hzero t hmem

/-- A kind of task of which a step leaves no more than it takes. -/
theorem countP_step {f : SynthesisTask → Bool} (hst : Stepped s task input e)
    (hcount : e.next.countP f ≤ (f task).toNat) :
    (e.left + others).countP (f · = true) ≤ (task ::ₘ others).countP (f · = true) := by
  have hlist : (↑e.next : Multiset SynthesisTask).countP (f · = true) = e.next.countP f := by
    simp [Multiset.coe_countP]
  rw [Effect.left_of_next hst.spawned, Multiset.countP_add, hlist, Multiset.countP_cons, add_comm]
  cases hf : f task with
  | false =>
    rw [hf] at hcount
    simpa using hcount
  | true =>
    rw [hf] at hcount
    simpa using hcount

/-! ### What a task turns to -/

/-- A look at the cancelled flag goes on, or leaves the job. -/
theorem forall_unlessCancelled {P : SynthesisTask → Prop} {message : String} {task' : SynthesisTask}
    (hrelease : ∀ error, P (.release (some (.error error)))) (h : P task') :
    ∀ t ∈ (s.unlessCancelled message task').next, P t := by
  simp only [unlessCancelled]
  split_ifs
  · exact List.forall_mem_singleton.mpr (hrelease _)
  · exact List.forall_mem_singleton.mpr h

theorem forall_callServer {P : SynthesisTask → Prop} {call : ModelCall} {raises : Option LibraryError}
    {task' : SynthesisTask} (hrelease : ∀ error : Option EngineError, P (.release (error.map .error)))
    (h : P task') : ∀ t ∈ (s.callServer call raises task').next, P t := by
  cases raises with
  | none => exact List.forall_mem_singleton.mpr h
  | some error => exact List.forall_mem_singleton.mpr (hrelease error.throughLoop)

theorem forall_proceed {P : SynthesisTask → Prop} {α : Type} {value : Except EngineError α}
    {next : α → SynthesisTask} (hrelease : ∀ error, P (.release (some (.error error))))
    (h : ∀ a, value = .ok a → P (next a)) : ∀ t ∈ (s.proceed value next).next, P t := by
  cases value with
  | error error => exact List.forall_mem_singleton.mpr (hrelease error)
  | ok a => exact List.forall_mem_singleton.mpr (h a rfl)

theorem forall_emitStarted {P : SynthesisTask → Prop} {sampleRateHz channelCount : ℤ} {task' : SynthesisTask}
    (hrelease : ∀ error, P (.release (some (.error error)))) (h : P task') :
    ∀ t ∈ (s.emitStarted sampleRateHz channelCount task').next, P t := by
  simp only [SynthesisState.emitStarted]
  split
  · exact List.forall_mem_singleton.mpr h
  · exact List.forall_mem_singleton.mpr (hrelease _)

theorem forall_emitAudio {P : SynthesisTask → Prop} {event : StreamAudioChunk} {remaining : ℚ}
    {again task' : SynthesisTask} (hrelease : ∀ error, P (.release (some (.error error)))) (hagain : P again)
    (h : P task') : ∀ t ∈ (s.emitAudio event remaining again task').next, P t := by
  simp only [SynthesisState.emitAudio]
  split
  · exact List.forall_mem_singleton.mpr h
  · exact List.forall_mem_singleton.mpr hagain
  · exact List.forall_mem_singleton.mpr (hrelease _)

/-- The handler that has sent an event reads on, if at all. -/
theorem forall_resume {P : SynthesisTask → Prop} {event : StreamEvent} (hread : P .readEvent) :
    ∀ t ∈ (s.resume event input).next, P t := by
  simp only [SynthesisState.resume]
  split_ifs
  · exact List.forall_mem_nil _
  · cases event with
    | started | audio => exact List.forall_mem_singleton.mpr hread
    | completed => exact List.forall_mem_nil _

/-- The handler that has caught an exception aborts, if at all. -/
theorem forall_classify {P : SynthesisTask → Prop} {error : EngineError}
    (hcallback : P (.handle (.addTerminalCallback logRelease)))
    (habort : ∀ text, error.str = .ok text →
      P (.abort (statusForError error).1 (publicErrorDetail text (statusForError error).2) (statusForError error).2)) :
    ∀ t ∈ (s.classify error).next, P t := by
  simp only [SynthesisState.classify]
  cases hstr : error.str with
  | error raised => exact List.forall_mem_nil _
  | ok text =>
    dsimp only
    split_ifs
    · exact List.forall_mem_cons.mpr ⟨hcallback, List.forall_mem_singleton.mpr (habort text hstr)⟩
    · exact List.forall_mem_singleton.mpr (habort text hstr)

/-- **The handler turns to its own tasks**, and to two methods of the handle. -/
theorem forall_handler {P : SynthesisTask → Prop} (h : SynthesisState.run backend s task input = some e)
    (hhandles : task.handles = true) (hP : ∀ t : SynthesisTask, t.handles = true → P t)
    (hcancel : P (.handle .cancel)) (hcallback : P (.handle (.addTerminalCallback logRelease))) :
    ∀ t ∈ e.next, P t := by
  cases task with
  | readEvent =>
    simp only [run, SynthesisState.readEvent] at h
    split_ifs at h
    · cases h
      exact List.forall_mem_singleton.mpr (hP _ rfl)
    · cases h
      simp only
      split <;> exact List.forall_mem_singleton.mpr (hP _ rfl)
  | send event =>
    cases h
    simp only [SynthesisState.send]
    split <;> exact List.forall_mem_singleton.mpr (hP _ rfl)
  | resume event => cases h; exact forall_resume (hP _ rfl)
  | clientCancelled =>
    cases h
    refine List.forall_mem_cons.mpr ⟨hcancel, List.forall_mem_cons.mpr ⟨hcallback, ?_⟩⟩
    exact List.forall_mem_singleton.mpr (hP _ rfl)
  | failRpc error =>
    cases h
    exact List.forall_mem_cons.mpr ⟨hcancel, List.forall_mem_singleton.mpr (hP _ rfl)⟩
  | classify error => cases h; exact forall_classify hcallback fun _ _ => hP _ rfl
  | returnEmpty | raiseCancelled | abort => cases h; exact List.forall_mem_nil _
  | _ => cases hhandles

/-- It counts and logs, and where the exception has no text the RPC is over. -/
theorem classify_state (s : SynthesisState) (error : EngineError) : ∃ counters logs outcome,
    (s.classify error).state = { s with counters := counters, logs := logs, outcome := outcome } ∧
      (outcome = s.outcome ∨ ∃ raised, outcome = some (.raised raised)) := by
  simp only [SynthesisState.classify]
  split
  · exact ⟨_, _, _, rfl, .inr ⟨_, rfl⟩⟩
  · exact ⟨_, _, _, rfl, .inl rfl⟩

/-- Of an exception that has a text. -/
theorem classify_eq {error : EngineError} {text : String} (htext : error.str = .ok text) :
    s.classify error =
      { state := (s.count ([(statusForError error).1.counter] ++
            (if error.isSynthesisCancelled then [s.scopeCounter] else []) ++
            (if error.isStreamConsumerStalled then ["stalled_consumers"] else []))).log
          (if error.isSynthesisCancelled then []
            else [.failed (statusForError error).1 (statusForError error).2 text])
        next := (if error.isSynthesisCancelled then [.handle (.addTerminalCallback logRelease)] else []) ++
          [.abort (statusForError error).1 (publicErrorDetail text (statusForError error).2)
            (statusForError error).2] } := by
  simp only [SynthesisState.classify, htext]

/-- An operation finishes as `complete` and `fail` do, if the handle's own tasks
do. -/
theorem ends_of_streamOp {op : StreamOp} (hends : ∀ t, task = .handle t → t.Ends)
    (hop : task.streamOp s input = some op) : op.Ends := by
  cases task with
  | handle t => exact StreamState.op_ends (hends t rfl) hop
  | emitResult result =>
    simp only [streamOp] at hop
    split at hop <;> cases hop
    trivial
  | readEvent =>
    simp only [streamOp] at hop
    split_ifs at hop
    cases hop
    trivial
  | _ => cases hop <;> trivial

/-! ### What has been read -/

/-- Only the handler reads. -/
theorem returned_of_run (hst : Stepped s task input e) (hidle : task.handles = false)
    (hreader : task ≠ .handle .readEvent) : e.state.delivery.returned = s.delivery.returned := by
  rw [hst.delivery]
  cases hop : task.streamOp s input with
  | none => rfl
  | some op =>
    have hanswers : s.handle.answers op = [] := by
      cases task with
      | handle task =>
        cases task with
        | readEvent => exact absurd rfl hreader
        | _ => cases hop <;> rfl
      | emitResult result =>
        simp only [streamOp] at hop
        split at hop <;> cases hop
        rfl
      | readEvent => exact Bool.noConfusion hidle
      | _ => cases hop <;> rfl
    simp [Delivery.returned, Delivery.perform, hanswers]

theorem returned_read (hreadable : s.handle.Readable) : (s.perform .read).delivery.returned =
    s.delivery.returned ++ (StreamAnswer.event s.handle.popEvent.2).toList := by
  simp only [Delivery.returned, SynthesisState.perform, StreamState.perform, Delivery.perform,
    SynthesisHandle.answers, if_pos hreadable, List.filterMap_append]
  rcases s.handle.popEvent.2 with _ | _ | _ <;> rfl

/-- **A read that is not done** raises, or returns an event: a stream that has ended
without an error and is read to its end has given its Completed event. -/
theorem read_unfinished (hfifo : s.delivery.Fifo) (hreadable : s.handle.Readable)
    (hcompleted : s.handle.terminal = true → s.handle.error = none →
      ∃ event ∈ s.delivery.appended, event.isCompleted = true)
    (hnone : ∀ event ∈ s.delivery.returned, event.isCompleted = false) :
    (∃ error, s.handle.popEvent.2 = .error error) ∨
      ∃ event, s.handle.popEvent.2 = .ok (some event) ∧
        (s.perform .read).delivery.returned = s.delivery.returned ++ [event] := by
  have hreturned := returned_read hreadable
  rcases s.handle.popEvent_cases with ⟨-, heq⟩ | ⟨hopen, hempty, heq⟩ | ⟨event, events, -, -, heq⟩
  · exact .inl ⟨_, by rw [heq]; rfl⟩
  · -- nothing is buffered, so the handle is terminal
    have hend : s.handle.terminal = true := by
      rcases hreadable with hevents | hend | hcancelled
      · simp [hempty] at hevents
      · exact hend
      · simp [hopen] at hcancelled
    cases herror : s.handle.error with
    | none =>
      obtain ⟨event, hmem, hevent⟩ := hcompleted hend herror
      rw [Delivery.Fifo, show s.delivery.handle.events = [] from hempty, List.append_nil] at hfifo
      simp [hnone event (hfifo ▸ hmem)] at hevent
    | some error => exact .inl ⟨error, by rw [heq, SynthesisHandle.final, herror]⟩
  · rw [heq] at hreturned
    exact .inr ⟨event, by rw [heq], hreturned⟩

end SynthesisState
end TtsPool
