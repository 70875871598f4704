/-
# An RPC that ends OK has sent a whole stream

The producer counts the chunks and the frames it has emitted; the handle keeps
what it is given in order; the handler sends what it reads.  `Protocol` says at
every moment how far each of them is.  The one worker that may still append
knows what the stream has said so far (`Knows`).  The one handler has sent what
it has read, but for the event in its hand (`Follows`).  A Completed event is
appended on what the stream has said, and by then the stream is whole.

So the handler that has sent a Completed event has sent a whole stream, which
the client's checker accepts.  And it reads `None` only from a stream that has
ended without an error and that it has read to the end; then it has read the
Completed event, and does not read again.
-/

import TtsPool.Synthesis.Client
import TtsPool.Synthesis.Steps

namespace TtsPool

open Threads (Effect Config Action)
open SynthesisHandle (appends answers)

/-- The frames of a mono 16-bit file are whole. -/
def EngineResult.WholeFrames (result : EngineResult) : Prop :=
  ∀ source, result.audio = some source → source.frames.length % 2 = 0

/-- A runtime without a `synthesize_stream` returns whole frames. -/
def Backend.WholeFrames (backend : Backend) : Prop :=
  ∀ result, backend.completeFn = some (.ok result) → result.WholeFrames

/-- The messages of the events appended. -/
def SynthesisState.messages (s : SynthesisState) : List SynthesisEvent := s.delivery.appended.map eventToProto

/-- What a task that may still append takes the stream to have said; a method of
the handle that nobody calls is excluded. -/
def SynthesisTask.Knows (messages : List SynthesisEvent) : SynthesisTask → Prop
  | .runJob _ | .checkDispatch | .runBackend | .checkPrepared _ | .checkGeneration _ | .startedSink _ =>
    messages = []
  | .encodeLatents _ | .checkEncoded _ | .generate _ => Said 2 messages 0 0
  | .nextChunk _ chunkCount totalSampleCount _ | .checkChunk _ chunkCount totalSampleCount _ _
  | .chunkSink _ chunkCount totalSampleCount _ _ => Said 2 messages chunkCount totalSampleCount
  | .emitResult result => messages = [] ∧ result.WholeFrames
  | .readFrames emission sequenceNumber firstSample frames =>
    Said 2 messages sequenceNumber firstSample ∧ emission.frameBytes = 2 ∧ frames.length % 2 = 0
  | .emitFrames emission sequenceNumber firstSample pcm frames =>
    Said 2 messages sequenceNumber firstSample ∧ emission.frameBytes = 2 ∧ frames.length % 2 = 0 ∧
      pcm.length % 2 = 0
  | .release (some (.ok result)) | .handle (.complete result _) | .handle (.combineMetrics result _)
  | .handle (.finish (some (.completed result)) none) =>
    Said 2 messages result.chunkCount result.totalSampleCount
  | .handle (.finish none (some _)) => True
  | .handle (.finish ..) | .handle (.emitStarted ..) | .handle (.emitAudio _) | .handle .readEvent => False
  | _ => True

/-- An event and the one that is sent for it, which may have other metrics. -/
def Stamped (event sent : StreamEvent) : Prop :=
  sent = event ∨ ∃ result metrics, event = .completed result ∧ sent = .completed { result with metrics := metrics }

/-- What a task of the handler takes to have been read and sent. -/
def SynthesisTask.Follows (s : SynthesisState) : SynthesisTask → Prop
  | .readEvent =>
    s.sent = s.delivery.returned.map eventToProto ∧ ∀ event ∈ s.delivery.returned, event.isCompleted = false
  | .send event =>
    ∃ earlier last, s.delivery.returned = earlier ++ [last] ∧ Stamped last event ∧
      s.sent = earlier.map eventToProto ∧ ∀ event ∈ earlier, event.isCompleted = false
  | .resume event =>
    ∃ earlier last, s.delivery.returned = earlier ++ [last] ∧ Stamped last event ∧
      s.sent = earlier.map eventToProto ++ [eventToProto event] ∧ ∀ event ∈ earlier, event.isCompleted = false
  | .returnEmpty => False
  | _ => True

/-- How far producer and handler are. -/
structure Protocol (s : SynthesisState) (bag : Multiset SynthesisTask) : Prop where
  concluded : s.delivery.Concluded
  completed : s.handle.terminal = true → s.handle.error = none →
    ∃ event ∈ s.delivery.appended, event.isCompleted = true
  whole : ∀ event ∈ s.delivery.appended, event.isCompleted = true → Whole s.messages
  producer : bag.countP (·.produces = true) ≤ 1
  knows : ∀ task ∈ bag, task.Knows s.messages
  handler : bag.countP (·.handles = true) ≤ 1
  follows : ∀ task ∈ bag, task.Follows s
  accepted : s.outcome = some .ok → bag.countP (·.handles = true) = 0 ∧ Whole s.sent

namespace SynthesisState

open SynthesisTask

variable {backend : Backend} {s : SynthesisState} {task : SynthesisTask} {input : SynthesisInput} {e : Step}
  {bag others : Multiset SynthesisTask}

/-! ### The producer -/

/-- The messages after an operation. -/
theorem messages_perform (s : SynthesisState) (op : StreamOp) :
    (s.perform op).messages = s.messages ++ (s.handle.appends op).map eventToProto := List.map_append

theorem messages_of_run (h : Stepped s task input e) : e.state.messages =
    s.messages ++ ((task.streamOp s input).elim [] s.handle.appends).map eventToProto := by
  rw [messages, h.delivery]
  cases task.streamOp s input with
  | none => exact (List.append_nil _).symm
  | some op => exact messages_perform s op

/-- What `emit_started` has said. -/
theorem emitStarted_said {sampleRateHz : ℤ} {handle : SynthesisHandle} (hempty : s.messages = [])
    (hemit : s.handle.emitStarted sampleRateHz 1 = .ok handle) :
    Said 2 (s.perform (.emitStarted sampleRateHz 1)).messages 0 0 := by
  rw [messages_perform, hempty]
  simp only [appends, hemit]
  let started : Started := ⟨s.handle.responseId, s.handle.modelName, sampleRateHz, 1, .pcmS16le,
    s.handle.schedulerQueueWaitMs⟩
  exact said_started (rfl : started.encoding = .pcmS16le)

/-- What `emit_audio` has said once it returns. -/
theorem emitAudio_said (event : StreamAudioChunk) {remaining : ℚ} {handle : SynthesisHandle}
    (hsaid : Said 2 s.messages event.sequenceNumber event.firstSample)
    (hemit : s.handle.emitAudio event remaining = .ok (some handle)) (hwhole : event.pcm.length % 2 = 0) :
    Said 2 (s.perform (.emitAudio event remaining)).messages (event.sequenceNumber + 1)
      (event.firstSample + (event.pcm.length / 2 : ℕ)) := by
  rw [messages_perform]
  simp only [appends, hemit]
  have hlength : ((event.pcm.length : ℕ) : ℤ) % 2 = 0 := by exact_mod_cast hwhole
  let chunk : AudioChunk := ⟨event.sequenceNumber, event.firstSample, event.pcm⟩
  have hnext := hsaid.chunk (rfl : chunk.sequenceNumber = event.sequenceNumber) rfl hlength
  exact_mod_cast hnext

/-- While `emit_audio` waits, nothing is said. -/
theorem emitAudio_waits {event : StreamAudioChunk} {remaining : ℚ}
    (hemit : s.handle.emitAudio event remaining = .ok none) :
    (s.perform (.emitAudio event remaining)).messages = s.messages := by
  rw [messages_perform]
  simp [appends, hemit]

/-- A call of the server hands on what the worker knows, or fails. -/
theorem knows_of_callServer {call : ModelCall} {raises : Option LibraryError} {task' : SynthesisTask}
    (h : task'.Knows s.messages) :
    ∀ t ∈ (s.callServer call raises task').next, t.Knows (s.callServer call raises task').state.messages := by
  cases raises with
  | none => exact List.forall_mem_singleton.mpr h
  | some error =>
    refine List.forall_mem_singleton.mpr ?_
    cases error.throughLoop <;> trivial

/-- A task of the worker that is not its last releases it with a result whose
counts are those of what was said. -/
theorem knows_of_result {result : Except EngineError RuntimeStreamResult} {chunkCount totalSampleCount : ℕ}
    {messages : List SynthesisEvent} (h : Said 2 messages chunkCount totalSampleCount)
    (hcounts : ∀ r, result = .ok r → r.chunkCount = chunkCount ∧ r.totalSampleCount = totalSampleCount) :
    (SynthesisTask.release (some result)).Knows messages := by
  cases result with
  | error error => trivial
  | ok r =>
    obtain ⟨hcount, htotal⟩ := hcounts r rfl
    simpa only [SynthesisTask.Knows, hcount, htotal] using h

theorem knows_of_emitAudio {event : StreamAudioChunk} {again task' : SynthesisTask}
    (hagain : again.Knows s.messages)
    (hnext : ∀ handle, s.handle.emitAudio event input.remaining = .ok (some handle) →
      task'.Knows (s.perform (.emitAudio event input.remaining)).messages) :
    ∀ t ∈ (s.emitAudio event input.remaining again task').next,
      t.Knows (s.perform (.emitAudio event input.remaining)).messages := by
  simp only [SynthesisState.emitAudio]
  cases hemit : s.handle.emitAudio event input.remaining with
  | error error => exact List.forall_mem_singleton.mpr trivial
  | ok handle =>
    cases handle with
    | none => exact List.forall_mem_singleton.mpr ((emitAudio_waits hemit).symm ▸ hagain)
    | some handle => exact List.forall_mem_singleton.mpr (hnext handle hemit)

theorem knows_of_emitStarted {sampleRateHz : ℤ} {task' : SynthesisTask} (hempty : s.messages = [])
    (hnext : ∀ messages, Said 2 messages 0 0 → task'.Knows messages) :
    ∀ t ∈ (s.emitStarted sampleRateHz 1 task').next,
      t.Knows (s.perform (.emitStarted sampleRateHz 1)).messages := by
  simp only [SynthesisState.emitStarted]
  cases hemit : s.handle.emitStarted sampleRateHz 1 with
  | error error => exact List.forall_mem_singleton.mpr trivial
  | ok handle => exact List.forall_mem_singleton.mpr (hnext _ (emitStarted_said hempty hemit))

/-- The parts of the handle's methods. -/
theorem knows_of_runHandle {task : StreamTask} (h : s.runHandle task input.remaining = some e)
    (hknows : (SynthesisTask.handle task).Knows s.messages) : ∀ t ∈ e.next, t.Knows e.state.messages := by
  obtain ⟨e', hrun, rfl⟩ := Option.map_eq_some_iff.mp h
  cases task with
  | complete result metrics =>
    cases hrun
    simp only [StreamState.complete]
    split_ifs
    · exact List.forall_mem_singleton.mpr trivial
    · exact List.forall_mem_singleton.mpr hknows
  | combineMetrics result metrics =>
    cases hrun
    exact List.forall_mem_singleton.mpr hknows
  | addTerminalCallback callback =>
    cases hrun
    simp only [StreamState.addTerminalCallback]
    split_ifs <;> simp [SynthesisTask.Knows]
  | runTerminalCallbacks callbacks => cases callbacks <;> cases hrun <;> simp [SynthesisTask.Knows]
  | finish event error =>
    cases hrun
    simp [StreamState.finish, SynthesisTask.Knows]
  | emitStarted sampleRateHz channelCount => exact hknows.elim
  | emitAudio event => exact hknows.elim
  | readEvent => exact hknows.elim
  | _ => cases hrun; simp [SynthesisTask.Knows]

/-- The handler knows nothing of what was said. -/
theorem knows_of_handles {messages : List SynthesisEvent} (hhandles : task.handles = true) : task.Knows messages := by
  cases task <;> trivial

/-- The runtime is called before anything is said. -/
theorem knows_of_runBackend (hwhole : backend.WholeFrames) (hempty : s.messages = []) :
    ∀ t ∈ (s.runBackend backend).next, t.Knows s.messages := by
  cases backend with
  | nanovllm call => exact forall_proceed (P := (·.Knows s.messages)) (fun _ => trivial) fun _ _ => hempty
  | voxcpm2 call =>
    exact forall_proceed (P := (·.Knows s.messages)) (fun _ => trivial) fun result hresult =>
      ⟨hempty, hwhole result (by rw [← hresult]; rfl)⟩
  | kokoro call =>
    exact forall_proceed (P := (·.Knows s.messages)) (fun _ => trivial) fun result hresult =>
      ⟨hempty, hwhole result (by rw [← hresult]; rfl)⟩
  | completeOnly result =>
    exact forall_proceed (P := (·.Knows s.messages)) (fun _ => trivial) fun result hresult =>
      ⟨hempty, hwhole result (by rw [← hresult]; rfl)⟩

/-- The loop over the arrays. -/
theorem knows_of_nextChunk {call : NanoVLLMCall} {sampleRateHz : ℤ} {chunkCount totalSampleCount : ℕ}
    {chunks : List (List ℚ)} (hsaid : Said 2 s.messages chunkCount totalSampleCount) :
    ∀ t ∈ (s.nextChunk call sampleRateHz chunkCount totalSampleCount chunks).next,
      t.Knows (s.nextChunk call sampleRateHz chunkCount totalSampleCount chunks).state.messages := by
  cases chunks with
  | cons samples chunks => exact List.forall_mem_singleton.mpr hsaid
  | nil =>
    have hcounts : ∀ r, call.result sampleRateHz chunkCount totalSampleCount = .ok r →
        r.chunkCount = chunkCount ∧ r.totalSampleCount = totalSampleCount := fun _ => NanoVLLMCall.result_counts
    have hresult := knows_of_result hsaid hcounts
    simp only [SynthesisState.nextChunk]
    split
    · exact List.forall_mem_singleton.mpr hresult
    · exact knows_of_callServer hresult

/-- A complete result opened. -/
theorem knows_of_emitResult {result : EngineResult} (hempty : s.messages = [])
    (hframes : ∀ source, result.audio = some source → source.frames.length % 2 = 0) :
    ∀ t ∈ (s.emitResult result).next, t.Knows (s.emitResult result).state.messages := by
  simp only [SynthesisState.emitResult]
  cases hopen : openResult result s.handle.maxBufferBytes with
  | error error => exact List.forall_mem_singleton.mpr trivial
  | ok opened =>
    obtain ⟨emission, frames⟩ := opened
    obtain ⟨⟨source, hsource, rfl⟩, hchannel, hframe, -⟩ := openResult_spec hopen
    simp only [hchannel, Nat.cast_one]
    exact knows_of_emitStarted hempty fun _ hsaid => ⟨hsaid, hframe, hframes source hsource⟩

/-- Its next piece. -/
theorem knows_of_readFrames {emission : WaveEmission} {sequenceNumber firstSample : ℕ} {frames : List UInt8}
    (hsaid : Said 2 s.messages sequenceNumber firstSample) (hframe : emission.frameBytes = 2)
    (heven : frames.length % 2 = 0) :
    ∀ t ∈ (s.readFrames emission sequenceNumber firstSample frames).next, t.Knows s.messages := by
  simp only [SynthesisState.readFrames]
  split_ifs
  · exact List.forall_mem_singleton.mpr (knows_of_result hsaid fun _ => WaveEmission.finish_counts)
  · refine List.forall_mem_singleton.mpr ⟨hsaid, hframe, ?_, ?_⟩
    · rw [List.length_drop, hframe]
      omega
    · rw [List.length_take, hframe]
      omega

/-- **What the producer knows, it knows after each step of its own.** -/
theorem knows_of_run (hwhole : backend.WholeFrames) (h : SynthesisState.run backend s task input = some e)
    (hknows : task.Knows s.messages) : ∀ t ∈ e.next, t.Knows e.state.messages := by
  have hlook : ∀ {message : String} {task' : SynthesisTask}, task'.Knows s.messages →
      ∀ t ∈ (s.unlessCancelled message task').next, t.Knows s.messages :=
    fun hnext => forall_unlessCancelled (P := (·.Knows s.messages)) (fun _ => trivial) hnext
  cases task with
  | handle task => exact knows_of_runHandle h hknows
  | runJob queueWaitMs =>
    cases h
    have hsame : (s.runJob queueWaitMs input.now).state.messages = s.messages := by
      exact (messages_perform s _).trans (List.append_nil _)
    exact List.forall_mem_singleton.mpr (hsame.trans hknows)
  | runBackend =>
    cases h
    cases backend <;> exact knows_of_runBackend hwhole hknows
  | release outcome =>
    cases h
    rcases outcome with _ | error | result
    · exact List.forall_mem_nil _
    · exact List.forall_mem_singleton.mpr trivial
    · exact List.forall_mem_singleton.mpr hknows
  | checkDispatch => cases h; exact hlook hknows
  | checkPrepared sampleRateHz => cases h; exact hlook hknows
  | checkGeneration sampleRateHz => cases h; exact hlook hknows
  | checkEncoded sampleRateHz => cases h; exact hlook hknows
  | checkChunk sampleRateHz chunkCount totalSampleCount samples chunks => cases h; exact hlook hknows
  | startedSink sampleRateHz => cases h; exact knows_of_emitStarted hknows fun _ hsaid => hsaid
  | encodeLatents sampleRateHz =>
    obtain ⟨call, -, rfl⟩ := Option.map_eq_some_iff.mp h
    exact knows_of_callServer hknows
  | generate sampleRateHz =>
    obtain ⟨call, -, rfl⟩ := Option.map_eq_some_iff.mp h
    exact knows_of_callServer hknows
  | nextChunk sampleRateHz chunkCount totalSampleCount chunks =>
    obtain ⟨call, -, rfl⟩ := Option.map_eq_some_iff.mp h
    exact knows_of_nextChunk hknows
  | chunkSink sampleRateHz chunkCount totalSampleCount samples chunks =>
    cases h
    refine knows_of_emitAudio hknows fun handle hemit => ?_
    have hsaid := emitAudio_said ⟨chunkCount, totalSampleCount, pcmBytes samples⟩ hknows hemit (by simp)
    simpa [SynthesisTask.Knows] using hsaid
  | emitResult result => cases h; exact knows_of_emitResult hknows.1 hknows.2
  | readFrames emission sequenceNumber firstSample frames =>
    cases h
    exact knows_of_readFrames hknows.1 hknows.2.1 hknows.2.2
  | emitFrames emission sequenceNumber firstSample pcm frames =>
    cases h
    obtain ⟨hsaid, hframe, heven, hpcm⟩ := hknows
    refine knows_of_emitAudio ⟨hsaid, hframe, heven, hpcm⟩ fun handle hemit => ⟨?_, hframe, heven⟩
    have hnext := emitAudio_said ⟨sequenceNumber, firstSample, pcm⟩ hsaid hemit hpcm
    simpa [hframe] using hnext
  | _ => exact forall_handler (P := (·.Knows e.state.messages)) h rfl (fun t ht => knows_of_handles ht) trivial trivial

/-- An operation of the program's threads finishes as `complete` and `fail` do. -/
theorem ends_of_knows {op : StreamOp} (hknows : task.Knows s.messages) (hop : task.streamOp s input = some op) :
    op.Ends := by
  refine ends_of_streamOp (fun t ht => ?_) hop
  subst ht
  cases t with
  | finish event error =>
    rcases event with _ | _ | _ | result <;> rcases error with _ | error
    all_goals first | exact hknows.elim | exact StreamOp.ends_completed _ | exact StreamOp.ends_failed _
  | _ => trivial

/-- A Completed event comes from a worker that has counted the stream. -/
theorem said_of_finish {result : StreamCompleted} (hknows : task.Knows s.messages)
    (hop : task.streamOp s input = some (.finish (some (.completed result)) none)) :
    Said 2 s.messages result.chunkCount result.totalSampleCount := by
  cases task with
  | handle task =>
    cases task with
    | finish event error => cases hop; exact hknows
    | _ => cases hop
  | emitResult result =>
    simp only [streamOp] at hop
    split at hop <;> cases hop
  | readEvent =>
    simp only [streamOp] at hop
    split_ifs at hop
    cases hop
  | _ => cases hop

/-- The others append nothing. -/
theorem appends_of_idle {op : StreamOp} (hidle : task.produces = false) (hknows : task.Knows s.messages)
    (hop : task.streamOp s input = some op) : s.handle.appends op = [] := by
  cases task with
  | handle task =>
    cases task with
    | finish event error =>
      cases hop
      cases event with
      | none => simp [appends]
      | some event => exact Bool.noConfusion hidle
    | emitStarted sampleRateHz channelCount => exact hknows.elim
    | emitAudio event => exact hknows.elim
    | _ => cases hop <;> rfl
  | readEvent =>
    simp only [streamOp] at hop
    split_ifs at hop
    cases hop
    rfl
  | _ => first | cases hop; done | exact Bool.noConfusion hidle

/-- What they know does not depend on the stream. -/
theorem knows_of_idle {messages messages' : List SynthesisEvent} (hidle : task.produces = false)
    (hknows : task.Knows messages) : task.Knows messages' := by
  cases task with
  | handle task =>
    cases task with
    | finish event error =>
      rcases event with _ | _ | _ | result <;> rcases error with _ | error
      all_goals first | exact hknows.elim | exact hknows | exact Bool.noConfusion hidle
    | _ => first | exact hknows.elim | trivial
  | _ => trivial

/-! ### The handler -/

/-- Nobody calls the synchronous `read_event`. -/
theorem reader_of_knows {messages : List SynthesisEvent} (hknows : task.Knows messages) :
    task ≠ .handle .readEvent := by
  rintro rfl
  exact hknows

/-- What a task follows stays as long as nothing is read or sent. -/
theorem follows_same {s' : SynthesisState} (hsent : s'.sent = s.sent)
    (hreturned : s'.delivery.returned = s.delivery.returned) (h : task.Follows s) : task.Follows s' := by
  cases task with
  | readEvent => exact ⟨by rw [hsent, hreturned]; exact h.1, by rw [hreturned]; exact h.2⟩
  | send event =>
    obtain ⟨earlier, last, heq, hstamp, hs, hnone⟩ := h
    exact ⟨earlier, last, hreturned.trans heq, hstamp, hsent.trans hs, hnone⟩
  | resume event =>
    obtain ⟨earlier, last, heq, hstamp, hs, hnone⟩ := h
    exact ⟨earlier, last, hreturned.trans heq, hstamp, hsent.trans hs, hnone⟩
  | returnEmpty => exact h
  | _ => trivial

/-- **The handler follows.**  It never reads `None`: by the time the stream has
nothing more to say it has taken the Completed event. -/
theorem follows_of_readEvent (h : Protocol s (.readEvent ::ₘ others)) (hrun : s.readEvent input = some e) :
    ∀ t ∈ e.next, t.Follows e.state := by
  obtain ⟨hsent, hnone⟩ := h.follows .readEvent (Multiset.mem_cons_self _ _)
  simp only [SynthesisState.readEvent] at hrun
  split_ifs at hrun with hcancelled hreadable
  · cases hrun
    exact List.forall_mem_singleton.mpr trivial
  · cases hrun
    rcases read_unfinished h.concluded.fifo hreadable h.completed hnone with ⟨error, heq⟩ |
      ⟨event, heq, hreturned⟩ <;> simp only [heq]
    · exact List.forall_mem_singleton.mpr trivial
    · cases event with
      | completed event =>
        exact List.forall_mem_singleton.mpr
          ⟨_, _, hreturned, .inr ⟨event, _, rfl, rfl⟩, hsent, hnone⟩
      | started event =>
        exact List.forall_mem_singleton.mpr ⟨_, _, hreturned, .inl rfl, hsent, hnone⟩
      | audio event =>
        exact List.forall_mem_singleton.mpr ⟨_, _, hreturned, .inl rfl, hsent, hnone⟩

/-- What the handler knows, it knows after each step of its own. -/
theorem follows_of_run (h : Protocol s (task ::ₘ others)) (hrun : SynthesisState.run backend s task input = some e)
    (hst : Stepped s task input e) : ∀ t ∈ e.next, t.Follows e.state := by
  have hfollows := h.follows task (Multiset.mem_cons_self _ _)
  cases hhandles : task.handles with
  | false =>
    intro t hmem
    have hnot : t.handles ≠ true := by
      refine List.countP_eq_zero.mp (Nat.le_zero.mp ?_) t hmem
      simpa [hhandles] using hst.handled
    cases t <;> trivial
  | true =>
    cases task with
    | readEvent => exact follows_of_readEvent h hrun
    | send event =>
      cases hrun
      simp only [SynthesisState.send]
      split
      · exact List.forall_mem_singleton.mpr trivial
      · obtain ⟨earlier, last, heq, hstamp, hs, hnone⟩ := hfollows
        exact List.forall_mem_singleton.mpr ⟨earlier, last, heq, hstamp, by rw [hs], hnone⟩
    | resume event =>
      cases hrun
      obtain ⟨earlier, last, heq, hstamp, hs, hnone⟩ := hfollows
      -- any event but a Completed one was sent as it was read
      have hread : event.isCompleted = false → ∀ s' : SynthesisState, s'.sent = s.sent →
          s'.delivery.returned = s.delivery.returned → SynthesisTask.readEvent.Follows s' := by
        intro hevent s' hsent' hreturned'
        refine follows_same hsent' hreturned' ⟨?_, ?_⟩
        · rcases hstamp with rfl | ⟨result, metrics, -, rfl⟩
          · rw [hs, heq, List.map_append, List.map_singleton]
          · exact Bool.noConfusion hevent
        · intro event' hmem
          rw [heq] at hmem
          rcases List.mem_append.mp hmem with hmem | hmem
          · exact hnone event' hmem
          · rcases hstamp with rfl | ⟨result, metrics, -, rfl⟩
            · exact List.mem_singleton.mp hmem ▸ hevent
            · exact Bool.noConfusion hevent
      simp only [SynthesisState.resume]
      split_ifs
      · exact List.forall_mem_nil _
      · cases event with
        | started event => exact List.forall_mem_singleton.mpr (hread rfl _ rfl rfl)
        | audio event => exact List.forall_mem_singleton.mpr (hread rfl _ rfl rfl)
        | completed event => exact List.forall_mem_nil _
    | returnEmpty => exact hfollows.elim
    | clientCancelled => cases hrun; simp [SynthesisState.clientCancelled, SynthesisTask.Follows]
    | raiseCancelled => cases hrun; exact List.forall_mem_nil _
    | failRpc error => cases hrun; simp [SynthesisTask.Follows]
    | classify error => cases hrun; exact forall_classify trivial fun _ _ => trivial
    | abort status detail code => cases hrun; exact List.forall_mem_nil _
    | _ => exact Bool.noConfusion hhandles

/-- A whole stream is whole whatever the metrics of its end. -/
theorem whole_stamped {earlier : List StreamEvent} {last event : StreamEvent} (hstamp : Stamped last event)
    (h : Whole ((earlier ++ [last]).map eventToProto)) :
    Whole (earlier.map eventToProto ++ [eventToProto event]) := by
  rw [List.map_append, List.map_singleton] at h
  rcases hstamp with rfl | ⟨result, metrics, rfl, rfl⟩
  · exact h
  · obtain ⟨frameBytes, said, completed, hpos, heq, hsaid⟩ := h
    obtain ⟨rfl, hlast⟩ := List.append_inj' heq rfl
    cases hlast
    exact ⟨frameBytes, _, _, hpos, rfl, hsaid⟩

/-- The RPC ends OK with a whole stream. -/
theorem accepted_of_run (h : Protocol s (task ::ₘ others)) (hrun : SynthesisState.run backend s task input = some e)
    (hst : Stepped s task input e) (hok : e.state.outcome = some .ok) :
    s.outcome = some .ok ∧ task.handles = false ∨ task.handles = true ∧ e.next = [] ∧ Whole e.state.sent := by
  have hfollows := h.follows task (Multiset.mem_cons_self _ _)
  have hnot : task.handles = true → s.outcome ≠ some .ok := by
    intro hhandles hold
    exact absurd hhandles (Multiset.countP_eq_zero.mp (h.accepted hold).1 task (Multiset.mem_cons_self _ _))
  cases hhandles : task.handles with
  | false => exact .inl ⟨(hst.quiet hhandles).2 ▸ hok, rfl⟩
  | true =>
    have hold := hnot hhandles
    cases task with
    | resume event =>
      cases hrun
      simp only [SynthesisState.resume] at hok ⊢
      split_ifs at hok ⊢
      · cases hok
      · cases event with
        | started event => exact absurd hok hold
        | audio event => exact absurd hok hold
        | completed event =>
          obtain ⟨earlier, last, heq, hstamp, hs, hnone⟩ := hfollows
          refine .inr ⟨trivial, rfl, ?_⟩
          have hlast : last.isCompleted = true := by
            rcases hstamp with rfl | ⟨result, metrics, rfl, -⟩ <;> rfl
          have hmem : last ∈ s.delivery.returned := by simp [heq]
          -- what follows a Completed event in the stream is nothing
          have hall := h.concluded.fifo
          have hempty : s.delivery.handle.events = [] := by
            refine List.eq_nil_iff_forall_not_mem.mpr fun later hlater => ?_
            have hpairs := h.concluded.last
            rw [hall] at hpairs
            have := (List.pairwise_append.mp hpairs).2.2 last hmem later hlater
            simp [hlast] at this
          rw [Delivery.Fifo, hempty, List.append_nil, heq] at hall
          have hwhole := h.whole last (by rw [hall]; simp) hlast
          rw [messages, hall] at hwhole
          have hsent : Whole s.sent := by
            rw [hs]
            exact whole_stamped hstamp hwhole
          exact hsent
    | readEvent =>
      simp only [run, SynthesisState.readEvent] at hrun
      split_ifs at hrun <;> cases hrun <;> exact absurd hok hold
    | send event =>
      cases hrun
      simp only [SynthesisState.send] at hok
      split at hok <;> exact absurd hok hold
    | returnEmpty => exact hfollows.elim
    | raiseCancelled => cases hrun; simp at hok
    | abort status detail code =>
      cases hrun
      simp only at hok
      split_ifs at hok <;> cases hok
    | clientCancelled => cases hrun; exact absurd hok hold
    | failRpc error => cases hrun; exact absurd hok hold
    | classify error =>
      cases hrun
      obtain ⟨counters, logs, outcome, hstate, hsame | ⟨raised, hraised⟩⟩ := s.classify_state error
      · rw [hstate] at hok
        exact absurd (hsame.symm.trans hok) hold
      · rw [hstate] at hok
        cases hraised.symm.trans hok
    | _ => exact Bool.noConfusion hhandles

/-- What the others know of the handler's doings: nothing. -/
theorem follows_of_idle {s' : SynthesisState} (hidle : task.handles = false) : task.Follows s' := by
  cases task <;> trivial

/-- The messages stay where the producer does not step. -/
theorem messages_of_idle (hst : Stepped s task input e) (hidle : task.produces = false)
    (hknows : task.Knows s.messages) : e.state.messages = s.messages := by
  rw [messages_of_run hst]
  cases hop : task.streamOp s input with
  | none => exact List.append_nil _
  | some op => simp [appends_of_idle hidle hknows hop]

/-- **The Completed event ends a whole stream.** -/
theorem whole_of_run (h : Protocol s (task ::ₘ others)) (hst : Stepped s task input e) :
    ∀ event ∈ e.state.delivery.appended, event.isCompleted = true → Whole e.state.messages := by
  intro event hmem hcompleted
  have hknows := h.knows task (Multiset.mem_cons_self _ _)
  rw [messages_of_run hst]
  rw [hst.delivery] at hmem
  cases hop : task.streamOp s input with
  | none =>
    rw [hop] at hmem
    simpa using h.whole event hmem hcompleted
  | some op =>
    rw [hop] at hmem
    rcases List.mem_append.mp hmem with hmem | hmem
    · -- the stream has ended before
      have hend := (h.concluded.ended event hmem hcompleted).1
      have hsame := ((s.delivery.perform_later op).terminal hend).2.2.1
      have happends : s.handle.appends op = [] := List.self_eq_append_right.mp hsame.symm
      simpa [happends] using h.whole event hmem hcompleted
    · have hends := ends_of_knows hknows hop
      obtain ⟨result, rfl, happends⟩ := Delivery.appends_completed hends hmem hcompleted
      have hsaid := said_of_finish hknows hop
      simp only [Option.elim_some, happends, List.map_singleton]
      exact ⟨2, s.messages, _, by norm_num, rfl, hsaid⟩

/-- **The protocol, step by step.** -/
theorem Protocol.run (hwhole : backend.WholeFrames) (h : Protocol s (task ::ₘ others))
    (hrun : SynthesisState.run backend s task input = some e) : Protocol e.state (e.left + others) := by
  have hst := stepped_of_run hrun
  have hleft : e.left = ↑e.next := Effect.left_of_next hst.spawned
  have hknows := h.knows task (Multiset.mem_cons_self _ _)
  have hothers : ∀ t ∈ others, t.Knows s.messages := fun t hmem => h.knows t (Multiset.mem_cons_of_mem hmem)
  refine ⟨?_, ?_, ?_, ?_, ?_, ?_, ?_, ?_⟩
  · rw [hst.delivery]
    cases hop : task.streamOp s input with
    | none => exact h.concluded
    | some op => exact Delivery.perform_concluded h.concluded (ends_of_knows hknows hop)
  · change e.state.delivery.handle.terminal = true → e.state.delivery.handle.error = none →
      ∃ event ∈ e.state.delivery.appended, event.isCompleted = true
    rw [hst.delivery]
    cases hop : task.streamOp s input with
    | none => exact h.completed
    | some op => exact Delivery.perform_completed (ends_of_knows hknows hop) h.completed
  · intro event hmem hcompleted
    exact whole_of_run h hst event hmem hcompleted
  · exact (countP_step hst hst.produced).trans h.producer
  · intro t hmem
    rw [hleft] at hmem
    rcases Multiset.mem_add.mp hmem with hmem | hmem
    · exact knows_of_run hwhole hrun hknows t hmem
    · cases hproduces : task.produces with
      | true => exact knows_of_idle (others_of_countP h.producer hproduces t hmem) (hothers t hmem)
      | false => exact messages_of_idle hst hproduces hknows ▸ hothers t hmem
  · exact (countP_step hst hst.handled).trans h.handler
  · intro t hmem
    rw [hleft] at hmem
    rcases Multiset.mem_add.mp hmem with hmem | hmem
    · exact follows_of_run h hrun hst t hmem
    · have hfollows := h.follows t (Multiset.mem_cons_of_mem hmem)
      cases hhandles : task.handles with
      | true => exact follows_of_idle (others_of_countP h.handler hhandles t hmem)
      | false =>
        have hreturned := returned_of_run hst hhandles (reader_of_knows hknows)
        exact follows_same (hst.quiet hhandles).1 hreturned hfollows
  · intro hok
    rcases accepted_of_run h hrun hst hok with ⟨hold, hhandles⟩ | ⟨hhandles, hnext, hwhole'⟩
    · obtain ⟨hcount, hsent⟩ := h.accepted hold
      refine ⟨Nat.le_zero.mp ((countP_step hst hst.handled).trans hcount.le), ?_⟩
      rw [(hst.quiet hhandles).1]
      exact hsent
    · refine ⟨?_, hwhole'⟩
      rw [hleft, hnext, Multiset.countP_add]
      simp only [Multiset.coe_nil, Multiset.countP_zero, zero_add]
      exact Multiset.countP_eq_zero.mpr fun t hmem => by simp [others_of_countP h.handler hhandles t hmem]

/-- Before the first step. -/
theorem start_protocol (spec : HandleSpec) (createdAt queueWaitMs receivedAt : ℚ) :
    let c := start (spec.handle createdAt) queueWaitMs receivedAt
    Protocol c.state c.bag := by
  intro c
  have hbag : c.bag = {.runJob queueWaitMs, .readEvent} := rfl
  refine ⟨⟨rfl, List.Pairwise.nil, fun _ hmem => absurd hmem List.not_mem_nil,
      fun _ hmem => absurd hmem List.not_mem_nil⟩, fun hend => Bool.noConfusion hend,
    fun _ hmem => absurd hmem List.not_mem_nil, le_rfl, fun task hmem => ?_, le_rfl, fun task hmem => ?_,
    fun hok => by cases hok⟩
  · rw [hbag] at hmem
    rcases Multiset.mem_cons.mp hmem with rfl | hmem
    · rfl
    · rw [Multiset.mem_singleton.mp hmem]
      trivial
  · rw [hbag] at hmem
    rcases Multiset.mem_cons.mp hmem with rfl | hmem
    · trivial
    · rw [Multiset.mem_singleton.mp hmem]
      exact ⟨rfl, fun _ hmem => absurd hmem List.not_mem_nil⟩

/-- What callers do to the handle is neither the producer's nor the handler's. -/
theorem Protocol.entry (h : Protocol s bag) (hentry : task.entry = true) : Protocol s (task ::ₘ bag) := by
  have hidle : task.produces = false ∧ task.handles = false ∧ (∀ messages, task.Knows messages) ∧
      task.Follows s := by
    cases task with
    | handle task =>
      cases task <;> first | exact Bool.noConfusion hentry | exact ⟨rfl, rfl, fun _ => trivial, trivial⟩
    | _ => exact Bool.noConfusion hentry
  obtain ⟨hproduces, hhandles, hknows, hfollows⟩ := hidle
  have hcount : ∀ {f : SynthesisTask → Bool}, f task = false →
      (task ::ₘ bag).countP (f · = true) = bag.countP (f · = true) := fun hf =>
    Multiset.countP_cons_of_neg _ (by simp [hf])
  refine ⟨h.concluded, h.completed, h.whole, ?_, fun t hmem => ?_, ?_, fun t hmem => ?_, fun hok => ?_⟩
  · exact (hcount hproduces).le.trans h.producer
  · rcases Multiset.mem_cons.mp hmem with rfl | hmem
    · exact hknows _
    · exact h.knows t hmem
  · exact (hcount hhandles).le.trans h.handler
  · rcases Multiset.mem_cons.mp hmem with rfl | hmem
    · exact hfollows
    · exact h.follows t hmem
  · exact ⟨(hcount hhandles).trans (h.accepted hok).1, (h.accepted hok).2⟩

/-- **The RPC and the client's checker.**  Under every interleaving an RPC that
ends OK has sent a whole stream, which the checker accepts, and `event is None`
is never reached. -/
theorem sent_accepted (backend : Backend) (hwhole : backend.WholeFrames) (spec : HandleSpec)
    (createdAt queueWaitMs receivedAt : ℚ) (actions : List (Action SynthesisTask SynthesisInput)) :
    let c := (synthesisProgram backend).runs (start (spec.handle createdAt) queueWaitMs receivedAt) actions
    (c.state.outcome = some .ok →
      Whole c.state.sent ∧ ∃ result, GrpcClient.synthesize c.state.sent = .ok result) ∧
      SynthesisTask.returnEmpty ∉ c.bag := by
  intro c
  have h : Protocol c.state c.bag :=
    Threads.Program.runs_of (start_protocol spec createdAt queueWaitMs receivedAt)
      (fun _ _ _ hentry h => Protocol.entry h hentry) (fun _ _ _ _ _ hrun h => Protocol.run hwhole h hrun) actions
  refine ⟨fun hok => ?_, fun hmem => h.follows _ hmem⟩
  have hsent := (h.accepted hok).2
  exact ⟨hsent, GrpcClient.synthesize_whole hsent⟩

/-- Two frames, over a buffer that holds one. -/
def twoFrames : Backend := .completeOnly (.ok { audio := some { sampleRateHz := 16000, frames := [1, 2, 3, 4] } })

/-- The worker emits the first frame, the handler sends it, and so on. -/
def turnByTurn : List (Action SynthesisTask SynthesisInput) :=
  [(0, 6), (1, 6), (0, 9), (1, 6)].flatMap fun turn => List.replicate turn.2 (.run turn.1 {})

theorem sent_accepted_two_frames :
    let c := (synthesisProgram twoFrames).runs (start
      (HandleSpec.handle ⟨"ttsresp_test", "test-model", 4, 2, 1, []⟩ 0) 0 0) turnByTurn
    c.state.sent.length = 4 ∧ Whole c.state.sent ∧ ∃ result, GrpcClient.synthesize c.state.sent = .ok result := by
  have hwhole : twoFrames.WholeFrames := by
    rintro result ⟨⟩ source ⟨⟩
    rfl
  exact ⟨by decide +kernel, (sent_accepted twoFrames hwhole _ _ _ _ turnByTurn).1 (by decide +kernel)⟩

end SynthesisState
end TtsPool
