/-
# A schedule, step by step

That something can happen to a synthesis is shown by a schedule in which it does.
The steps of such schedules are put together here (`Leads`).  Nothing comes in from
outside, the consumer has emptied the buffer whenever the producer looks at it, and
worker and handler take turns.  The worker gets from its start to the runtime, and to
each call of NanoVLLM's server, the handler meanwhile sending what there is to send;
and an exception it has in hand gets to the handler and, where it is not a
cancellation, to the client (`leads_answer`).
-/

import TtsPool.Stream.Buffer
import TtsPool.Synthesis.Steps

namespace TtsPool

open Threads (Effect Config Action)

/-- The consumer has emptied the buffer before a look of `emit_audio` at it. -/
def SynthesisTask.Drained (s : SynthesisState) (task : SynthesisTask) (_ : SynthesisInput) : Prop :=
  match task with
  | .chunkSink .. | .emitFrames .. => s.handle.bufferedAudioChunks = 0 ∧ s.handle.bufferedAudioBytes = 0
  | _ => True

/-- Nothing comes from outside. -/
def SynthesisTask.Calm (s : SynthesisState) (task : SynthesisTask) (input : SynthesisInput) : Prop :=
  task.Drained s input ∧ input = {}

/-- The end of the RPC that the handler makes of an exception. -/
def EngineError.answer (error : EngineError) : RpcOutcome :=
  match error.str with
  | .error raised => .raised raised
  | .ok text =>
    .aborted (statusForError error).1 (publicErrorDetail text (statusForError error).2) (statusForError error).2

namespace SynthesisState

open SynthesisTask

variable {backend : Backend} {s : SynthesisState} {task : SynthesisTask} {e : Step} {maxBufferBytes : ℕ}

/-- An RPC under way, over an open handle with an empty buffer. -/
structure Emptied (maxBufferBytes : ℕ) (s : SynthesisState) : Prop where
  underway : s.outcome = none
  buffered : s.handle.Buffered
  events : s.handle.events = []
  cancelled : s.handle.cancelled = false
  opened : s.handle.terminal = false
  bytes : s.handle.maxBufferBytes = maxBufferBytes

/-- The buffer of such a handle is drained. -/
theorem Emptied.drained (h : Emptied maxBufferBytes s) :
    s.handle.bufferedAudioChunks = 0 ∧ s.handle.bufferedAudioBytes = 0 := by
  rw [h.buffered.chunks, h.buffered.bytes, h.events]
  exact ⟨rfl, rfl⟩

/-- Schedules into which nothing comes from outside. -/
abbrev Leads (backend : Backend) := (synthesisProgram backend).Leads Calm

/-- The worker takes a step. -/
theorem leads_worker (task : SynthesisTask) {tasks : List (List SynthesisTask)} (hdrained : task.Drained s {})
    (hrun : SynthesisState.run backend s task {} = some e) (hspawned : e.spawned = []) :
    Leads backend ⟨s, [task] :: tasks⟩ ⟨e.state, e.next :: tasks⟩ := by
  have h : Leads backend ⟨s, [] ++ [task] :: tasks⟩ ⟨e.state, [] ++ (e.next ++ []) :: tasks ++ e.spawned⟩ :=
    Threads.Program.leads_run [] ⟨hdrained, rfl⟩ hrun
  simpa [hspawned] using h

/-- The worker looks at the cancelled flag and goes on. -/
theorem leads_unlessCancelled (task : SynthesisTask) {tasks : List (List SynthesisTask)} {message : String}
    {task' : SynthesisTask} (hdrained : task.Drained s {}) (hcancelled : s.handle.cancelled = false)
    (hrun : SynthesisState.run backend s task {} = some (s.unlessCancelled message task')) :
    Leads backend ⟨s, [task] :: tasks⟩ ⟨s, [task'] :: tasks⟩ := by
  have h : Leads backend ⟨s, [task] :: tasks⟩ ⟨s, (s.unlessCancelled message task').next :: tasks⟩ :=
    leads_worker task hdrained hrun rfl
  simpa [unlessCancelled, hcancelled] using h

/-- The handler takes a step. -/
theorem leads_handler (task : SynthesisTask) {worker rest : List SynthesisTask} (hdrained : task.Drained s {})
    (hrun : SynthesisState.run backend s task {} = some e) (hspawned : e.spawned = []) :
    Leads backend ⟨s, [worker, task :: rest]⟩ ⟨e.state, [worker, e.next ++ rest]⟩ := by
  have h : Leads backend ⟨s, [worker] ++ (task :: rest) :: []⟩
      ⟨e.state, [worker] ++ (e.next ++ rest) :: [] ++ e.spawned⟩ :=
    Threads.Program.leads_run [worker] ⟨hdrained, rfl⟩ hrun
  simpa [hspawned] using h

/-- The one event of a buffer read. -/
theorem emptied_read {event : StreamEvent} (hunderway : s.outcome = none) (hbuffered : s.handle.Buffered)
    (hevents : s.handle.events = [event])
    (hcancelled : s.handle.cancelled = false) (hopen : s.handle.terminal = false) :
    s.handle.Readable ∧ s.handle.popEvent.2 = .ok (some event) ∧
      Emptied s.handle.maxBufferBytes (s.perform .read) := by
  have hreadable : s.handle.Readable := .inl (by rw [hevents]; rfl)
  have hlater : (s.perform .read).handle = s.handle.after .read := rfl
  rcases s.handle.popEvent_cases with ⟨hstop, -⟩ | ⟨-, hempty, -⟩ | ⟨event', events, -, heq, hpop⟩
  · cases hcancelled.symm.trans hstop
  · cases hevents.symm.trans hempty
  · obtain ⟨rfl, rfl⟩ := List.cons.inj (hevents.symm.trans heq)
    have hafter : s.handle.after .read = s.handle.popped event [] := by
      rw [SynthesisHandle.after, if_pos hreadable, hpop]
    refine ⟨hreadable, by rw [hpop], ⟨hunderway, ?_, ?_, ?_, ?_, ?_⟩⟩
    · exact hbuffered.after (show StreamOp.Ends .read from trivial)
    · rw [hlater, hafter, SynthesisHandle.popped_events]
    · rw [hlater, hafter]
      cases event <;> exact hcancelled
    · rw [hlater, hafter]
      cases event <;> exact hopen
    · exact (s.handle.after_limits .read).2

/-- The handler reads the one event there is, and sends it. -/
theorem leads_read {worker : List SynthesisTask} {event : StreamEvent} (hunderway : s.outcome = none)
    (hbuffered : s.handle.Buffered) (hevents : s.handle.events = [event]) (hnot : event.isCompleted = false)
    (hcancelled : s.handle.cancelled = false) (hopen : s.handle.terminal = false) :
    ∃ s', Emptied s.handle.maxBufferBytes s' ∧
      Leads backend ⟨s, [worker, [.readEvent]]⟩ ⟨s', [worker, [.readEvent]]⟩ := by
  obtain ⟨hreadable, hpop, hempty⟩ := emptied_read hunderway hbuffered hevents hcancelled hopen
  have hread : s.readEvent {} = some { state := s.perform .read, next := [.send event] } := by
    simp only [readEvent, Bool.false_eq_true, if_false, if_pos hreadable, hpop]
    cases event <;> first | rfl | cases hnot
  let sent : SynthesisState := { s.perform .read with sent := s.sent ++ [eventToProto event] }
  obtain ⟨s', hstream, houtcome, hresume⟩ : ∃ s' : SynthesisState, s'.stream = (s.perform .read).stream ∧
      s'.outcome = s.outcome ∧ sent.resume event {} = { state := s', next := [.readEvent] } := by
    cases event with
    | started event => exact ⟨sent, rfl, rfl, rfl⟩
    | audio event =>
      exact ⟨{ sent with firstChunkWrittenAt := sent.firstChunkWrittenAt <|> some 0 }, rfl, rfl, rfl⟩
    | completed event => cases hnot
  have hreads : Leads backend ⟨s, [worker, [.readEvent]]⟩ ⟨s.perform .read, [worker, [.send event]]⟩ :=
    leads_handler .readEvent trivial hread rfl
  have hsends : Leads backend ⟨s.perform .read, [worker, [.send event]]⟩ ⟨sent, [worker, [.resume event]]⟩ :=
    leads_handler (.send event) trivial rfl rfl
  have hresumes : Leads backend ⟨sent, [worker, [.resume event]]⟩ ⟨s', [worker, [.readEvent]]⟩ :=
    leads_handler (.resume event) trivial (congrArg some hresume) rfl
  refine ⟨s', ?_, (hreads.trans hsends).trans hresumes⟩
  have hhandle : s'.handle = (s.perform .read).handle := congrArg StreamState.handle hstream
  exact ⟨houtcome.trans hunderway, hhandle ▸ hempty.buffered, hhandle ▸ hempty.events,
    hhandle ▸ hempty.cancelled, hhandle ▸ hempty.opened, hhandle ▸ hempty.bytes⟩

/-! ### To the calls of a model -/

/-- A new handle is empty. -/
theorem start_emptied (spec : HandleSpec) (createdAt queueWaitMs receivedAt : ℚ) :
    Emptied (max 1 spec.maxBufferBytes).toNat (start (spec.handle createdAt) queueWaitMs receivedAt).state := by
  refine ⟨rfl, ?_, rfl, rfl, rfl, rfl⟩
  have hnew := SynthesisHandle.new_buffered spec.responseId spec.modelName createdAt spec.maxBufferChunks
    spec.maxBufferBytes spec.stalledConsumerTimeoutS
  exact ⟨hnew.chunks, hnew.bytes, hnew.chunks_le, hnew.bytes_le, hnew.chunks_peak, hnew.bytes_peak,
    hnew.limit_pos⟩

/-- The worker marks its handle and comes to the runtime. -/
theorem leads_backend (backend : Backend) (queueWaitMs : ℚ) (h : Emptied maxBufferBytes s) :
    ∃ s', Emptied maxBufferBytes s' ∧
      Leads backend ⟨s, [[.runJob queueWaitMs], [.readEvent]]⟩ ⟨s', [[.runBackend], [.readEvent]]⟩ := by
  let marked : SynthesisState := { s.perform (.markDispatched queueWaitMs) with backendStartedAt := 0 }
  have hmarked : Emptied maxBufferBytes marked :=
    ⟨h.underway, h.buffered.after (show StreamOp.Ends (.markDispatched queueWaitMs) from trivial), h.events,
      h.cancelled, h.opened, h.bytes⟩
  have hmark : Leads backend ⟨s, [[.runJob queueWaitMs], [.readEvent]]⟩
      ⟨marked, [[.checkDispatch], [.readEvent]]⟩ :=
    leads_worker (e := s.runJob queueWaitMs 0) _ trivial rfl rfl
  exact ⟨marked, hmarked, hmark.trans (leads_unlessCancelled .checkDispatch trivial hmarked.cancelled rfl)⟩

/-- NanoVLLM's worker comes to its first call, and the handler sends the Started
event. -/
theorem leads_started (call : NanoVLLMCall) (sampleRateHz : ℤ) (hprepared : call.prepareSynthesis = .ok sampleRateHz)
    (h : Emptied maxBufferBytes s) :
    ∃ s', Emptied maxBufferBytes s' ∧ Leads (.nanovllm call) ⟨s, [[.runBackend], [.readEvent]]⟩
      ⟨s', [[.encodeLatents sampleRateHz], [.readEvent]]⟩ := by
  let backend : Backend := .nanovllm call
  let started : SynthesisState := s.perform (.emitStarted sampleRateHz 1)
  have hemit : s.handle.emitStarted sampleRateHz 1 =
      .ok { s.handle with events := s.handle.events ++ [s.handle.startedEvent sampleRateHz 1] } := by
    rcases s.handle.emitStarted_cases sampleRateHz 1 with ⟨-, -, heq⟩ | ⟨error, hstop, -⟩
    · exact heq
    · cases (SynthesisHandle.raiseIfStopped_eq_none.mpr ⟨h.cancelled, h.opened⟩).symm.trans hstop
  have hhandle : started.handle = { s.handle with events := [s.handle.startedEvent sampleRateHz 1] } := by
    show s.handle.after (.emitStarted sampleRateHz 1) = _
    rw [SynthesisHandle.after, hemit, h.events]
    rfl
  have hprepare : Leads backend ⟨s, [[.runBackend], [.readEvent]]⟩
      ⟨s, [[.checkPrepared sampleRateHz], [.readEvent]]⟩ := by
    refine leads_worker (e := { state := s, next := [.checkPrepared sampleRateHz] }) .runBackend trivial ?_ rfl
    simp [run, runBackend, proceed, hprepared, backend]
  have hchecks : Leads backend ⟨s, [[.checkPrepared sampleRateHz], [.readEvent]]⟩
      ⟨s, [[.startedSink sampleRateHz], [.readEvent]]⟩ :=
    (leads_unlessCancelled (.checkPrepared sampleRateHz) trivial h.cancelled rfl).trans
      (leads_unlessCancelled (.checkGeneration sampleRateHz) trivial h.cancelled rfl)
  have hstarts : Leads backend ⟨s, [[.startedSink sampleRateHz], [.readEvent]]⟩
      ⟨started, [[.encodeLatents sampleRateHz], [.readEvent]]⟩ := by
    refine leads_worker (e := { state := started, next := [.encodeLatents sampleRateHz] })
      (.startedSink sampleRateHz) trivial ?_ rfl
    simp only [run, SynthesisState.emitStarted, hemit, started]
  obtain ⟨s', hempty, hread⟩ : ∃ s', Emptied started.handle.maxBufferBytes s' ∧
      Leads backend ⟨started, [[.encodeLatents sampleRateHz], [.readEvent]]⟩
        ⟨s', [[.encodeLatents sampleRateHz], [.readEvent]]⟩ :=
    leads_read h.underway (h.buffered.after (show StreamOp.Ends (.emitStarted sampleRateHz 1) from trivial))
      (congrArg _ hhandle) rfl (hhandle ▸ h.cancelled) (hhandle ▸ h.opened)
  refine ⟨s', ?_, ((hprepare.trans hchecks).trans hstarts).trans hread⟩
  have hbytes : started.handle.maxBufferBytes = maxBufferBytes := hhandle ▸ h.bytes
  exact hbytes ▸ hempty

/-- The reference encoded, if there is one, it comes to the second. -/
theorem leads_encoded (call : NanoVLLMCall) (sampleRateHz : ℤ)
    (hencode : (if call.referenceWav then call.encodeLatents else none) = none) (h : Emptied maxBufferBytes s) :
    Leads (.nanovllm call) ⟨s, [[.encodeLatents sampleRateHz], [.readEvent]]⟩
      ⟨s, [[.generate sampleRateHz], [.readEvent]]⟩ := by
  have hencodes : Leads (.nanovllm call) ⟨s, [[.encodeLatents sampleRateHz], [.readEvent]]⟩
      ⟨s, [[.checkEncoded sampleRateHz], [.readEvent]]⟩ := by
    refine leads_worker (e := { state := s, next := [.checkEncoded sampleRateHz] }) (.encodeLatents sampleRateHz)
      trivial ?_ rfl
    simp only [run, Backend.streamFn, Option.map_some, callServer, hencode]
  exact hencodes.trans (leads_unlessCancelled (.checkEncoded sampleRateHz) trivial h.cancelled rfl)

/-- And to the loop over the arrays. -/
theorem leads_generated (call : NanoVLLMCall) (sampleRateHz : ℤ) (hgenerate : call.generate = none) :
    Leads (.nanovllm call) ⟨s, [[.generate sampleRateHz], [.readEvent]]⟩
      ⟨s, [[.nextChunk sampleRateHz 0 0 call.chunks], [.readEvent]]⟩ := by
  refine leads_worker (e := { state := s, next := [.nextChunk sampleRateHz 0 0 call.chunks] })
    (.generate sampleRateHz) trivial ?_ rfl
  simp only [run, Backend.streamFn, Option.map_some, callServer, hgenerate]

/-! ### From an exception to the client -/

/-- A handle that has failed, and has no events. -/
structure Failed (error : EngineError) (s : SynthesisState) : Prop where
  cancelled : s.handle.cancelled = false
  terminal : s.handle.terminal = true
  events : s.handle.events = []
  error : s.handle.error = some error

/-- The worker fails its handle. -/
theorem leads_failed (backend : Backend) (error : EngineError) (h : Emptied maxBufferBytes s) :
    ∃ s' callbacks, Failed error s' ∧ s'.modelRaised = s.modelRaised ∧
      Leads backend ⟨s, [[.release (some (.error error))], [.readEvent]]⟩
        ⟨s', [[.handle (.runTerminalCallbacks callbacks)], [.readEvent]]⟩ := by
  let failing : SynthesisState := { s with jobError := some error }
  let failed : SynthesisState := ((failing.log []).perform (.finish none (some error))).log []
  have hrelease : Leads backend ⟨s, [[.release (some (.error error))], [.readEvent]]⟩
      ⟨failing, [[.handle (.fail error)], [.readEvent]]⟩ :=
    leads_worker (.release (some (.error error))) trivial rfl rfl
  have hfail : Leads backend ⟨failing, [[.handle (.fail error)], [.readEvent]]⟩
      ⟨failing.log [], [[.handle (.finish none (some error))], [.readEvent]]⟩ :=
    leads_worker (.handle (.fail error)) trivial rfl rfl
  have hfinish : Leads backend ⟨failing.log [], [[.handle (.finish none (some error))], [.readEvent]]⟩
      ⟨failed, [[.handle (.runTerminalCallbacks (s.handle.finish none (some error)).2)], [.readEvent]]⟩ :=
    leads_worker (.handle (.finish none (some error))) trivial rfl rfl
  refine ⟨failed, _, ?_, rfl, (hrelease.trans hfail).trans hfinish⟩
  have hhandle : failed.handle =
      { s.handle with events := [], error := some error, terminal := true, terminalCallbacks := [] } := by
    show (s.handle.finish none (some error)).1 = _
    rw [SynthesisHandle.finish, if_neg (by simp [h.opened]), h.events]
    rfl
  exact ⟨hhandle ▸ h.cancelled, by rw [hhandle], by rw [hhandle], by rw [hhandle]⟩

/-- **The handler's answer.** -/
theorem leads_answer (backend : Backend) {worker : List SynthesisTask} {error : EngineError} (h : Failed error s)
    (hnot : error.throughCoroutine.isSynthesisCancelled = false) :
    ∃ s', s'.outcome = some error.throughCoroutine.answer ∧ s'.modelRaised = s.modelRaised ∧
      Leads backend ⟨s, [worker, [.readEvent]]⟩ ⟨s', [worker, []]⟩ := by
  have hreadable : s.handle.Readable := .inr (.inl h.terminal)
  have hpop : s.handle.popEvent.2 = .error error := by
    rw [SynthesisHandle.popEvent, if_neg (by simp [h.cancelled])]
    simp only [h.events, h.error]
  let read : SynthesisState := s.perform .read
  let caught : SynthesisState := (read.perform .cancel).log []
  have hread : Leads backend ⟨s, [worker, [.readEvent]]⟩ ⟨read, [worker, [.failRpc error.throughCoroutine]]⟩ := by
    refine leads_handler (e := { state := read, next := [.failRpc error.throughCoroutine] }) .readEvent trivial ?_ rfl
    simp only [run, readEvent, Bool.false_eq_true, if_false, if_pos hreadable, hpop, read]
  have hcancel : Leads backend ⟨read, [worker, [.failRpc error.throughCoroutine]]⟩
      ⟨caught, [worker, [.classify error.throughCoroutine]]⟩ :=
    (leads_handler (.failRpc error.throughCoroutine) trivial rfl rfl).trans
      (leads_handler (.handle .cancel) trivial rfl rfl)
  have hrun : SynthesisState.run backend caught (.classify error.throughCoroutine) {} =
      some (caught.classify error.throughCoroutine) := rfl
  have hclassify : Leads backend ⟨caught, [worker, [.classify error.throughCoroutine]]⟩
      ⟨(caught.classify error.throughCoroutine).state,
        [worker, (caught.classify error.throughCoroutine).next ++ []]⟩ :=
    leads_handler (.classify error.throughCoroutine) trivial hrun (stepped_of_run hrun).spawned
  have hanswered := (hread.trans hcancel).trans hclassify
  cases hstr : error.throughCoroutine.str with
  | error raised =>
    have hended : caught.classify error.throughCoroutine =
        { state := (caught.classify error.throughCoroutine).state } := by
      simp only [SynthesisState.classify, hstr]
    rw [hended] at hanswered
    refine ⟨_, ?_, ?_, hanswered⟩
    · simp only [SynthesisState.classify, EngineError.answer, hstr]
    · simp only [SynthesisState.classify, hstr]
      rfl
  | ok text =>
    rw [classify_eq hstr] at hanswered
    simp only [hnot, Bool.false_eq_true, if_false, List.nil_append, List.append_nil] at hanswered
    refine ⟨_, ?_, ?_, hanswered.trans (leads_handler (.abort ..) trivial rfl rfl)⟩
    · simp only [EngineError.answer, hstr]
      rfl
    · rfl

end SynthesisState
end TtsPool
