/-
# A consumer that keeps draining

While the client reads on, nobody cancels or fails the handle, and `emit_audio` is
never out of time when it finds the buffer full, a worker does what its script
says.  A piece that finds the buffer full waits for the reader, and there is
something to read; every other step is one of finitely many (`Open.worker`,
`Open.handler`).  So under a fair schedule the stream comes to its end, and has
told the whole script (`told_of_fair`).
-/

import TtsPool.Synthesis.Answers
import TtsPool.Synthesis.Script

namespace TtsPool

open Threads (Effect Config Action)
open Threads.Program (Fair turns)
open SynthesisHandle (appends)

/-- The consumer keeps draining: the client does not cancel, every event makes a
message, no look at a full buffer comes too late, and nothing comes in from outside
but the executor's cancel callback. -/
def Draining : Action SynthesisTask SynthesisInput → Prop
  | .call task => ∃ callback, task = .handle (.setCancelCallback callback)
  | .run _ input => input.cancelled = false ∧ input.refused = none ∧ 0 < input.remaining

/-- The one who brings the stream to its end. -/
def SynthesisTask.works : SynthesisTask → Bool
  | .handle (.fail _) | .handle (.finish ..) => true
  | task => task.produces

/-- A task of a stream that is drained. -/
def SynthesisTask.Drains : SynthesisTask → Prop
  | .handle (.setCancelCallback _) | .readEvent => True
  | .send event | .resume event => event.isCompleted = false
  | task => task.works = true

/-- A piece that finds the buffer full. -/
def SynthesisTask.Waits (s : SynthesisState) : SynthesisTask → Prop
  | .chunkSink _ _ _ samples _ => s.handle.Full (pcmBytes samples).length
  | .emitFrames _ _ _ pcm _ => s.handle.Full pcm.length
  | _ => False

/-- The bytes of a result. -/
def EngineResult.size (result : EngineResult) : ℕ := (result.audio.map fun source => source.frames.length).getD 0

/-- As many pieces there are at most. -/
def Backend.size (backend : Backend) : ℕ :=
  match backend.streamFn, backend.completeFn with
  | some call, _ => call.chunks.length
  | none, some (.ok result) => result.size
  | none, _ => 0

/-- What a task may still cost: three steps of the handler for every event. -/
def SynthesisTask.cost (backend : Backend) : SynthesisTask → ℕ
  | .runJob _ => 10 * backend.size + 19
  | .checkDispatch => 10 * backend.size + 18
  | .runBackend => 10 * backend.size + 17
  | .checkPrepared _ => 10 * backend.size + 16
  | .checkGeneration _ => 10 * backend.size + 15
  | .startedSink _ => 10 * backend.size + 14
  | .encodeLatents _ => 10 * backend.size + 9
  | .checkEncoded _ => 10 * backend.size + 8
  | .generate _ => 10 * backend.size + 7
  | .nextChunk _ _ _ chunks => 10 * chunks.length + 6
  | .checkChunk _ _ _ _ chunks => 10 * chunks.length + 15
  | .chunkSink _ _ _ _ chunks => 10 * chunks.length + 14
  | .emitResult result => 10 * result.size + 14
  | .readFrames _ _ _ frames => 10 * frames.length + 6
  | .emitFrames _ _ _ _ frames => 10 * frames.length + 14
  | .release _ => 5
  | .handle (.complete ..) => 4
  | .handle (.combineMetrics ..) | .handle (.fail _) => 3
  | .handle (.finish ..) | .send _ => 2
  | .resume _ | .handle (.setCancelCallback _) => 1
  | _ => 0

namespace SynthesisState

open SynthesisTask

variable {backend : Backend} {script : Script} {s : SynthesisState} {task : SynthesisTask} {input : SynthesisInput}
  {e : Step} {others bag : Multiset SynthesisTask}

/-- What there is still to do. -/
def cost (backend : Backend) (s : SynthesisState) (bag : Multiset SynthesisTask) : ℕ :=
  3 * s.handle.events.length + (bag.map (SynthesisTask.cost backend)).sum

/-- A stream that goes on. -/
structure Live (s : SynthesisState) : Prop where
  opened : s.handle.terminal = false
  uncancelled : s.handle.cancelled = false
  events : ∀ event ∈ s.handle.events, event.isCompleted = false
  buffered : s.handle.Buffered

/-- A stream that has ended as its script does. -/
structure Told (script : Script) (s : SynthesisState) : Prop where
  terminal : s.handle.terminal = true
  sounds : s.said = script.sounds
  outcome : (∃ error, script.outcome = .error error ∧ s.handle.error = some error) ∨
    ∃ completed, script.outcome = .ok completed.totalSampleCount ∧ s.handle.error = none ∧
      .completed completed ∈ s.delivery.appended

/-- A drained stream on its way. -/
structure Open (backend : Backend) (script : Script) (s : SynthesisState) (bag : Multiset SynthesisTask) : Prop where
  live : s.Live
  plays : ∀ task ∈ bag, task.Plays backend script s.handle.maxBufferBytes s.said
  drains : ∀ task ∈ bag, task.Drains
  worker : bag.countP (·.works = true) = 1
  handler : bag.countP (·.loops = true) = 1

/-! ### The worker's steps -/

/-- The worker waits, or has less left to do. -/
def Worked (backend : Backend) (s : SynthesisState) (task : SynthesisTask) (e : Step) : Prop :=
  ∃ t, e.next = [t] ∧ t.works = true ∧
    (task.Waits s ∧ e.state = s ∧ t = task ∨
      Live e.state ∧
        3 * e.state.handle.events.length + t.cost backend < 3 * s.handle.events.length + task.cost backend)

theorem Worked.on {s' : SynthesisState} {t : SynthesisTask} (h : s.Live) (hs : s'.handle = s.handle)
    (ht : t.works = true) (hcost : t.cost backend < task.cost backend) :
    Worked backend s task { state := s', next := [t] } := by
  refine ⟨t, rfl, ht, .inr ⟨⟨?_, ?_, ?_, ?_⟩, ?_⟩⟩
  · exact hs ▸ h.opened
  · exact hs ▸ h.uncancelled
  · exact hs ▸ h.events
  · exact hs ▸ h.buffered
  · show 3 * s'.handle.events.length + _ < _
    rw [hs]
    omega

theorem unlessCancelled_worked {message : String} {t : SynthesisTask} (h : s.Live) (ht : t.works = true)
    (hcost : t.cost backend < task.cost backend) : Worked backend s task (s.unlessCancelled message t) := by
  rw [unlessCancelled, h.uncancelled]
  exact .on h rfl ht hcost

theorem callServer_worked {call : ModelCall} {raises : Option LibraryError} {t : SynthesisTask} (h : s.Live)
    (hraises : raises = none) (ht : t.works = true) (hcost : t.cost backend < task.cost backend) :
    Worked backend s task (s.callServer call raises t) := by
  rw [hraises]
  exact .on h rfl ht hcost

theorem proceed_worked {α : Type} {s' : SynthesisState} {value : Except EngineError α} {next : α → SynthesisTask}
    (h : s.Live) (hs : s'.handle = s.handle) (hrelease : 5 < task.cost backend)
    (hnext : ∀ a, value = .ok a → (next a).works = true ∧ (next a).cost backend < task.cost backend) :
    Worked backend s task (s'.proceed value next) := by
  cases value with
  | error error => exact .on h hs rfl hrelease
  | ok a => exact .on h hs (hnext a rfl).1 (hnext a rfl).2

theorem emitStarted_worked {sampleRateHz channelCount : ℤ} {t : SynthesisTask} (h : s.Live) (ht : t.works = true)
    (hcost : t.cost backend + 3 < task.cost backend) :
    Worked backend s task (s.emitStarted sampleRateHz channelCount t) := by
  rcases s.handle.emitStarted_cases sampleRateHz channelCount with ⟨-, -, heq⟩ | ⟨error, hstop, -⟩
  · have hhandle : (s.perform (.emitStarted sampleRateHz channelCount)).handle =
        { s.handle with events := s.handle.events ++ [s.handle.startedEvent sampleRateHz channelCount] } := by
      show s.handle.after (.emitStarted sampleRateHz channelCount) = _
      rw [SynthesisHandle.after, heq]
    refine ⟨t, by simp only [SynthesisState.emitStarted, heq], ht, .inr ⟨⟨?_, ?_, ?_, ?_⟩, ?_⟩⟩
    · exact (congrArg SynthesisHandle.terminal hhandle).trans h.opened
    · exact (congrArg SynthesisHandle.cancelled hhandle).trans h.uncancelled
    · intro event hmem
      simp only [SynthesisState.emitStarted, hhandle] at hmem
      rcases List.mem_append.mp hmem with hmem | hmem
      · exact h.events event hmem
      · rw [List.mem_singleton.mp hmem]
        rfl
    · exact h.buffered.after (show StreamOp.Ends (.emitStarted sampleRateHz channelCount) from trivial)
    · simp only [SynthesisState.emitStarted, hhandle, List.length_append, List.length_singleton]
      omega
  · rw [SynthesisHandle.raiseIfStopped_eq_none.mpr ⟨h.uncancelled, h.opened⟩] at hstop
    cases hstop

/-- A section that waits leaves everything as it was. -/
theorem perform_waits {event : StreamAudioChunk} {remaining : ℚ}
    (h : s.handle.emitAudio event remaining = .ok none) : s.perform (.emitAudio event remaining) = s := by
  have hdelivery : s.delivery.perform (.emitAudio event remaining) = s.delivery := by
    simp [Delivery.perform, SynthesisHandle.after, appends, SynthesisHandle.answers, h]
  rw [perform, StreamState.perform, hdelivery]

theorem emitAudio_worked {event : StreamAudioChunk} {t : SynthesisTask} (h : s.Live)
    (hfits : event.pcm.length ≤ s.handle.maxBufferBytes) (hremaining : 0 < input.remaining)
    (hwaits : s.handle.Full event.pcm.length → task.Waits s) (htask : task.works = true) (ht : t.works = true)
    (hcost : t.cost backend + 3 < task.cost backend) :
    Worked backend s task (s.emitAudio event input.remaining task t) := by
  rcases s.handle.emitAudio_cases event input.remaining with ⟨-, -, hroom, heq⟩ | ⟨hfull, heq⟩ | ⟨error, heq⟩
  · have hhandle : (s.perform (.emitAudio event input.remaining)).handle = s.handle.appendAudio event := by
      show s.handle.after (.emitAudio event input.remaining) = _
      rw [SynthesisHandle.after, heq]
    refine ⟨t, by simp only [SynthesisState.emitAudio, heq], ht, .inr ⟨⟨?_, ?_, ?_, ?_⟩, ?_⟩⟩
    · exact (congrArg SynthesisHandle.terminal hhandle).trans h.opened
    · exact (congrArg SynthesisHandle.cancelled hhandle).trans h.uncancelled
    · intro event' hmem
      simp only [SynthesisState.emitAudio, hhandle] at hmem
      rcases List.mem_append.mp hmem with hmem | hmem
      · exact h.events event' hmem
      · rw [List.mem_singleton.mp hmem]
        rfl
    · exact h.buffered.after (show StreamOp.Ends (.emitAudio event input.remaining) from trivial)
    · simp only [SynthesisState.emitAudio, hhandle, SynthesisHandle.appendAudio, List.length_append,
        List.length_singleton]
      omega
  · refine ⟨task, by simp only [SynthesisState.emitAudio, heq], htask, .inl ⟨hwaits hfull, ?_, rfl⟩⟩
    exact perform_waits heq
  · exact absurd (emitAudio_error heq h.uncancelled h.opened hremaining) hfits.not_gt

/-- The stream ends as the worker's task says. -/
theorem Told.finish {event : Option StreamEvent} {error : Option EngineError} {s' : SynthesisState} (h : s.Live)
    (hs : s'.delivery = s.delivery.perform (.finish event error))
    (hplays : (SynthesisTask.handle (.finish event error)).Plays backend script s.handle.maxBufferBytes s.said) :
    Told script s' := by
  have hhandle : s'.handle = (s.handle.finish event error).1 := congrArg Delivery.handle hs
  have happended : s'.delivery.appended = s.delivery.appended ++ event.toList := by
    rw [hs]
    show _ ++ s.handle.appends _ = _
    rw [appends, h.opened]
    rfl
  have hterminal : s'.handle.terminal = true := hhandle ▸ (SynthesisHandle.finish_spec _ _ _).1
  have herror : s'.handle.error = error := by
    rw [hhandle, SynthesisHandle.finish, h.opened]
    rfl
  have hsaid : s'.said = s.said ++ TtsPool.sounds event.toList := by rw [said, happended, sounds_append]; rfl
  cases event with
  | none =>
    cases error with
    | none => exact hplays.elim
    | some error =>
      obtain ⟨hsounds, houtcome⟩ := Script.ending_after_inj hplays
      exact ⟨hterminal, by rw [hsaid, hsounds]; exact List.append_nil _, .inl ⟨error, houtcome, herror⟩⟩
  | some event =>
    cases event with
    | started event => exact hplays.elim
    | audio event => exact hplays.elim
    | completed completed =>
      cases error with
      | some error => exact hplays.elim
      | none =>
        obtain ⟨hsounds, houtcome⟩ := Script.ending_after_inj hplays
        refine ⟨hterminal, by rw [hsaid, hsounds]; exact List.append_nil _, .inr ⟨completed, houtcome, herror, ?_⟩⟩
        rw [happended]
        exact List.mem_append_right _ (List.mem_singleton_self _)

/-- Its methods of the handle: `complete`, its two parts, and `fail`. -/
theorem Live.handle_worker {task : StreamTask} (h : s.Live) (input : SynthesisInput)
    (hworks : (SynthesisTask.handle task).works = true)
    (hplays : (SynthesisTask.handle task).Plays backend script s.handle.maxBufferBytes s.said) :
    ∃ e, SynthesisState.run backend s (.handle task) input = some e ∧
      (Worked backend s (.handle task) e ∨ Told script e.state) := by
  cases task with
  | complete result metrics =>
    refine ⟨_, rfl, .inl ?_⟩
    simp only [StreamState.complete, h.uncancelled]
    exact .on h rfl rfl (show 3 < 4 by decide)
  | combineMetrics result metrics => exact ⟨_, rfl, .inl (.on h rfl rfl (show 2 < 3 by decide))⟩
  | fail error => exact ⟨_, rfl, .inl (.on h rfl rfl (show 2 < 3 by decide))⟩
  | finish event error => exact ⟨_, rfl, .inr (Told.finish h rfl hplays)⟩
  | _ => cases hworks

theorem Live.runJob_worker {queueWaitMs now : ℚ} (h : s.Live) :
    Worked backend s (.runJob queueWaitMs) (s.runJob queueWaitMs now) := by
  refine ⟨.checkDispatch, rfl, rfl, .inr ⟨⟨h.opened, h.uncancelled, h.events, ?_⟩, ?_⟩⟩
  · exact h.buffered.after (show StreamOp.Ends (.markDispatched queueWaitMs) from trivial)
  · exact Nat.add_lt_add_left (Nat.lt_succ_self _) _

/-- A complete result has all its pieces still to come. -/
theorem Live.runBackend_worker (h : s.Live) : Worked backend s .runBackend (s.runBackend backend) := by
  have hrelease : 5 < SynthesisTask.runBackend.cost backend := by simp only [SynthesisTask.cost]; omega
  have hresult : ∀ result, backend.completeFn = some (.ok result) → backend.streamFn = none →
      (SynthesisTask.emitResult result).cost backend < SynthesisTask.runBackend.cost backend := by
    intro result hcomplete hstream
    have hsize : backend.size = result.size := by simp only [Backend.size, hcomplete, hstream]
    simp only [SynthesisTask.cost, hsize]
    omega
  cases backend with
  | nanovllm call => exact proceed_worked h rfl hrelease fun _ _ => ⟨rfl, Nat.lt_succ_self _⟩
  | voxcpm2 call =>
    exact proceed_worked h rfl hrelease fun result heq => ⟨rfl, hresult result (congrArg some heq) rfl⟩
  | kokoro call =>
    exact proceed_worked h rfl hrelease fun result heq => ⟨rfl, hresult result (congrArg some heq) rfl⟩
  | completeOnly result =>
    exact proceed_worked h rfl hrelease fun result heq => ⟨rfl, hresult result (congrArg some heq) rfl⟩

theorem Live.release_worker {outcome : JobOutcome} {now : ℚ} (h : s.Live)
    (hplays : (SynthesisTask.release outcome).Plays backend script s.handle.maxBufferBytes s.said) :
    Worked backend s (.release outcome) (s.release outcome now) := by
  rcases outcome with _ | error | result
  · exact hplays.elim
  · exact .on h rfl rfl (show 3 < 5 by decide)
  · exact .on h rfl rfl (show 4 < 5 by decide)

/-- The loop over the arrays, whose end costs less than one of them. -/
theorem Live.nextChunk_worker {call : NanoVLLMCall} {sampleRateHz : ℤ} {chunkCount totalSampleCount : ℕ}
    {chunks : List (List ℚ)} (h : s.Live)
    (hending : ∀ error ∈ call.ending, ∃ message, error = .stopAsyncIteration message) :
    Worked backend s (.nextChunk sampleRateHz chunkCount totalSampleCount chunks)
      (s.nextChunk call sampleRateHz chunkCount totalSampleCount chunks) := by
  cases chunks with
  | cons samples chunks =>
    refine .on h rfl rfl ?_
    simp only [SynthesisTask.cost, List.length_cons]
    omega
  | nil =>
    simp only [SynthesisState.nextChunk]
    split
    · exact .on h rfl rfl (show 5 < 6 by decide)
    · rename_i hnot
      refine callServer_worked h ?_ rfl (show 5 < 6 by decide)
      refine Option.eq_none_iff_forall_not_mem.mpr fun error herror => ?_
      obtain ⟨message, rfl⟩ := hending error herror
      exact hnot message herror

/-- A result is opened, with a piece at most for each byte of it. -/
theorem Live.emitResult_worker {result : EngineResult} (h : s.Live) :
    Worked backend s (.emitResult result) (s.emitResult result) := by
  simp only [SynthesisState.emitResult]
  cases hopen : openResult result s.handle.maxBufferBytes with
  | error error =>
    refine .on h rfl rfl ?_
    simp only [SynthesisTask.cost]
    omega
  | ok opened =>
    obtain ⟨emission, frames⟩ := opened
    obtain ⟨⟨source, haudio, rfl⟩, -⟩ := openResult_spec hopen
    refine emitStarted_worked h rfl ?_
    simp only [SynthesisTask.cost, EngineResult.size, haudio, Option.map_some, Option.getD_some]
    omega

theorem Live.readFrames_worker {emission : WaveEmission} {sequenceNumber firstSample : ℕ} {frames : List UInt8}
    (h : s.Live) : Worked backend s (.readFrames emission sequenceNumber firstSample frames)
      (s.readFrames emission sequenceNumber firstSample frames) := by
  simp only [SynthesisState.readFrames]
  split_ifs with hdone
  · refine .on h rfl rfl ?_
    simp only [SynthesisTask.cost]
    omega
  · refine .on h rfl rfl ?_
    have hlength := congrArg List.length
      (List.take_append_drop (emission.framesPerChunk * emission.frameBytes) frames)
    have hpos := List.length_pos_iff.mpr hdone
    rw [List.length_append] at hlength
    simp only [SynthesisTask.cost]
    omega

/-- **A worker's step** waits, gets further, or ends the stream. -/
theorem Live.worker (h : s.Live) (input : SynthesisInput) (hworks : task.works = true)
    (hplays : task.Plays backend script s.handle.maxBufferBytes s.said) (hfits : ¬ task.Oversize s)
    (hyields : backend.Yields) (hremaining : 0 < input.remaining) :
    ∃ e, SynthesisState.run backend s task input = some e ∧ (Worked backend s task e ∨ Told script e.state) := by
  cases task with
  | handle task => exact h.handle_worker input hworks hplays
  | runJob queueWaitMs => exact ⟨_, rfl, .inl h.runJob_worker⟩
  | runBackend => exact ⟨_, rfl, .inl h.runBackend_worker⟩
  | release outcome => exact ⟨_, rfl, .inl (h.release_worker hplays)⟩
  | checkDispatch => exact ⟨_, rfl, .inl (unlessCancelled_worked h rfl (Nat.lt_succ_self _))⟩
  | checkPrepared sampleRateHz => exact ⟨_, rfl, .inl (unlessCancelled_worked h rfl (Nat.lt_succ_self _))⟩
  | checkGeneration sampleRateHz => exact ⟨_, rfl, .inl (unlessCancelled_worked h rfl (Nat.lt_succ_self _))⟩
  | checkEncoded sampleRateHz => exact ⟨_, rfl, .inl (unlessCancelled_worked h rfl (Nat.lt_succ_self _))⟩
  | checkChunk sampleRateHz chunkCount totalSampleCount samples chunks =>
    exact ⟨_, rfl, .inl (unlessCancelled_worked h rfl (Nat.lt_succ_self _))⟩
  | startedSink sampleRateHz =>
    refine ⟨_, rfl, .inl (emitStarted_worked h rfl ?_)⟩
    simp only [SynthesisTask.cost]
    omega
  | encodeLatents sampleRateHz =>
    obtain ⟨call, hcall, -⟩ := hplays
    obtain ⟨hencode, -, -⟩ := NanoVLLMCall.raises_eq_none.mp (hyields call hcall)
    exact ⟨_, by rw [run, hcall]; rfl, .inl (callServer_worked h hencode rfl (Nat.lt_succ_self _))⟩
  | generate sampleRateHz =>
    obtain ⟨call, hcall, -⟩ := hplays
    obtain ⟨-, hgenerate, -⟩ := NanoVLLMCall.raises_eq_none.mp (hyields call hcall)
    refine ⟨_, by rw [run, hcall]; rfl, .inl (callServer_worked h hgenerate rfl ?_)⟩
    have hsize : backend.size = call.chunks.length := by simp only [Backend.size, hcall]
    simp only [SynthesisTask.cost, hsize]
    omega
  | nextChunk sampleRateHz chunkCount totalSampleCount chunks =>
    obtain ⟨call, hcall, -⟩ := hplays
    obtain ⟨-, -, hending⟩ := NanoVLLMCall.raises_eq_none.mp (hyields call hcall)
    exact ⟨_, by rw [run, hcall]; rfl, .inl (h.nextChunk_worker hending)⟩
  | chunkSink sampleRateHz chunkCount totalSampleCount samples chunks =>
    refine ⟨_, rfl, .inl (emitAudio_worked h (Nat.le_of_not_lt hfits) hremaining id rfl rfl ?_)⟩
    simp only [SynthesisTask.cost]
    omega
  | emitResult result => exact ⟨_, rfl, .inl h.emitResult_worker⟩
  | readFrames emission sequenceNumber firstSample frames => exact ⟨_, rfl, .inl h.readFrames_worker⟩
  | emitFrames emission sequenceNumber firstSample pcm frames =>
    refine ⟨_, rfl, .inl (emitAudio_worked h (Nat.le_of_not_lt hfits) hremaining id rfl rfl ?_)⟩
    simp only [SynthesisTask.cost]
    omega
  | _ => cases hworks

/-! ### The handler's steps -/

/-- **A handler's step** reads on, as long as there is something to read. -/
theorem Live.handler (backend : Backend) (h : s.Live) (hloops : task.loops = true) (hdrains : task.Drains)
    (hcancelled : input.cancelled = false) (hrefused : input.refused = none) :
    (s.handle.events = [] ∧ SynthesisState.run backend s task input = none) ∨
    ∃ e t, SynthesisState.run backend s task input = some e ∧ e.next = [t] ∧ t.loops = true ∧ t.Drains ∧
      Live e.state ∧
        3 * e.state.handle.events.length + t.cost backend < 3 * s.handle.events.length + task.cost backend := by
  cases task with
  | readEvent =>
    rcases s.handle.popEvent_cases with ⟨hstop, -⟩ | ⟨-, hempty, -⟩ | ⟨event, events, -, hevents, hpop⟩
    · cases h.uncancelled.symm.trans hstop
    · refine .inl ⟨hempty, ?_⟩
      have hwait : ¬ s.handle.Readable := by
        simp [SynthesisHandle.Readable, hempty, h.opened, h.uncancelled]
      simp [run, SynthesisState.readEvent, hcancelled, hwait]
    · have hreadable : s.handle.Readable := .inl (by rw [hevents]; rfl)
      have hnot := h.events event (hevents ▸ List.mem_cons_self ..)
      have hhandle : (s.perform .read).handle = s.handle.popped event events := by
        show s.handle.after .read = _
        rw [SynthesisHandle.after, if_pos hreadable, hpop]
      have hfields : (s.handle.popped event events).terminal = s.handle.terminal ∧
          (s.handle.popped event events).cancelled = s.handle.cancelled := by
        cases event <;> exact ⟨rfl, rfl⟩
      refine .inr ⟨{ state := s.perform .read, next := [.send event] }, .send event, ?_, rfl, rfl, hnot,
        ⟨?_, ?_, ?_, ?_⟩, ?_⟩
      · simp only [run, SynthesisState.readEvent, hcancelled, Bool.false_eq_true, if_false, if_pos hreadable, hpop]
        cases event <;> first | rfl | cases hnot
      · rw [hhandle, hfields.1]
        exact h.opened
      · rw [hhandle, hfields.2]
        exact h.uncancelled
      · rw [hhandle, SynthesisHandle.popped_events]
        exact fun event' hmem => h.events event' (hevents ▸ List.mem_cons_of_mem _ hmem)
      · exact h.buffered.after (show StreamOp.Ends .read from trivial)
      · rw [hhandle, SynthesisHandle.popped_events, hevents, List.length_cons]
        simp only [SynthesisTask.cost]
        omega
  | send event =>
    refine .inr ⟨_, .resume event, rfl, ?_, rfl, hdrains, ?_, ?_⟩
    · simp only [SynthesisState.send, hrefused]
    · simp only [SynthesisState.send, hrefused]
      exact ⟨h.opened, h.uncancelled, h.events, h.buffered⟩
    · simp only [SynthesisState.send, hrefused]
      exact Nat.lt_succ_self _
  | resume event =>
    refine .inr ⟨_, .readEvent, rfl, ?_, rfl, trivial, ?_, ?_⟩
    all_goals simp only [SynthesisState.resume, hcancelled]
    · cases event <;> first | rfl | cases hdrains
    · cases event <;> exact ⟨h.opened, h.uncancelled, h.events, h.buffered⟩
    · cases event <;> exact Nat.lt_succ_self _
  | _ => cases hloops

/-! ### Every step -/

theorem loops_of_works (h : task.works = true) : task.loops = false := by
  cases task <;> first | rfl | cases h

theorem works_of_givesUp (h : task.givesUp = true) : task.works = true := by
  cases task with
  | handle task => cases task <;> first | rfl | cases h
  | release outcome => rfl
  | _ => cases h

theorem works_of_produces (h : task.produces = true) : task.works = true := by
  cases task with
  | handle task => cases task <;> first | rfl | cases h
  | _ => exact h

/-- The tasks of a drained stream. -/
theorem Drains.cases (h : task.Drains) :
    task.works = true ∨ task.loops = true ∨ ∃ callback, task = .handle (.setCancelCallback callback) := by
  cases task with
  | readEvent => exact .inr (.inl rfl)
  | send event => exact .inr (.inl rfl)
  | resume event => exact .inr (.inl rfl)
  | handle task =>
    cases task with
    | setCancelCallback callback => exact .inr (.inr ⟨callback, rfl⟩)
    | _ => exact .inl h
  | _ => exact .inl h

theorem drains_of_works (h : task.works = true) : task.Drains := by
  cases task with
  | handle task => cases task <;> first | exact h | cases h
  | _ => first | exact h | cases h

theorem cost_add (s : SynthesisState) (next : List SynthesisTask) (others : Multiset SynthesisTask) :
    s.cost backend (↑next + others) = 3 * s.handle.events.length + (next.map (SynthesisTask.cost backend)).sum +
      (others.map (SynthesisTask.cost backend)).sum := by
  simp only [cost, Multiset.map_add, Multiset.sum_add, Multiset.map_coe, Multiset.sum_coe]
  omega

theorem cost_cons (s : SynthesisState) (task : SynthesisTask) (others : Multiset SynthesisTask) :
    s.cost backend (task ::ₘ others) = 3 * s.handle.events.length + task.cost backend +
      (others.map (SynthesisTask.cost backend)).sum := by
  simp only [cost, Multiset.map_cons, Multiset.sum_cons]
  omega

/-- One task has given way to one of its kind. -/
theorem Open.on (h : Open backend script s (task ::ₘ others)) (hst : Stepped s task input e) {t : SynthesisTask}
    (hnext : e.next = [t]) (hlive : e.state.Live) (hkind : t.works = task.works ∧ t.loops = task.loops)
    (hplays : t.Plays backend script e.state.handle.maxBufferBytes e.state.said) (hdrains : t.Drains) :
    Open backend script e.state (e.left + others) := by
  have hleft : e.left + others = t ::ₘ others := by
    rw [Effect.left_of_next hst.spawned, hnext, Multiset.coe_singleton, Multiset.singleton_add]
  have hcount : ∀ f : SynthesisTask → Bool, f t = f task →
      (t ::ₘ others).countP (f · = true) = (task ::ₘ others).countP (f · = true) := by
    intro f hf
    rw [Multiset.countP_cons, Multiset.countP_cons, hf]
  rw [hleft]
  refine ⟨hlive, Multiset.forall_mem_cons.mpr ⟨hplays, fun t' hmem => ?_⟩,
    Multiset.forall_mem_cons.mpr ⟨hdrains, fun t' hmem => h.drains t' (Multiset.mem_cons_of_mem hmem)⟩,
    (hcount _ hkind.1).trans h.worker, (hcount _ hkind.2).trans h.handler⟩
  have hold := h.plays t' (Multiset.mem_cons_of_mem hmem)
  rw [bytes_of_run hst]
  cases hworks : task.works with
  | true =>
    -- the others know nothing of what is said
    have hother : t'.works = false := others_of_countP h.worker.le hworks t' hmem
    have hidle : t'.produces = false := by
      by_contra hmore
      rw [works_of_produces (Bool.eq_true_of_not_eq_false hmore)] at hother
      cases hother
    rcases plays_of_idle hidle hold with hgives | hplays'
    · rw [works_of_givesUp hgives] at hother
      cases hother
    · exact hplays'
  | false =>
    have hidle : task.produces = false := by
      by_contra hmore
      rw [works_of_produces (Bool.eq_true_of_not_eq_false hmore)] at hworks
      cases hworks
    have hsame : e.state.said = s.said := by
      rw [said_of_run hst]
      cases hop : task.streamOp s input with
      | none => exact List.append_nil _
      | some op => simp [sounds_of_idle (.inl hidle) (.inr (h.plays task (Multiset.mem_cons_self ..))) hop]
    exact hsame ▸ hold

/-- The executor sets its callback. -/
theorem Open.setCancelCallback {callback : SchedulerJob}
    (h : Open backend script s (.handle (.setCancelCallback callback) ::ₘ others))
    (hrun : SynthesisState.run backend s (.handle (.setCancelCallback callback)) input = some e) :
    Open backend script e.state (e.left + others) ∧
      e.state.cost backend (e.left + others) < s.cost backend (.handle (.setCancelCallback callback) ::ₘ others) := by
  have hst := stepped_of_run hrun
  cases hrun
  have hhandle : (s.perform (.setCancelCallback callback)).handle =
      { s.handle with cancelCallback := some callback } := by
    show (s.handle.setCancelCallback callback).1 = _
    rw [SynthesisHandle.setCancelCallback, if_neg (by simp [h.live.uncancelled])]
  have hleft : ∀ e : Step, e.next = [] → e.spawned = [] → e.left + others = others := by
    intro e hnext hspawned
    rw [Effect.left_of_next hspawned, hnext, Multiset.coe_nil, zero_add]
  have hsaid : (s.perform (.setCancelCallback callback)).said = s.said :=
    (said_perform s _).trans (List.append_nil _)
  obtain ⟨-, hplays⟩ := Multiset.forall_mem_cons.mp h.plays
  obtain ⟨-, hdrains⟩ := Multiset.forall_mem_cons.mp h.drains
  have hworker := h.worker
  have hhandler := h.handler
  rw [Multiset.countP_cons_of_neg _ (by simp [works, produces])] at hworker
  rw [Multiset.countP_cons_of_neg _ (by simp [SynthesisTask.loops])] at hhandler
  rw [hleft _ rfl rfl]
  refine ⟨⟨⟨?_, ?_, ?_, ?_⟩, ?_, hdrains, hworker, hhandler⟩, ?_⟩
  · exact (congrArg SynthesisHandle.terminal hhandle).trans h.live.opened
  · exact (congrArg SynthesisHandle.cancelled hhandle).trans h.live.uncancelled
  · exact fun event hmem => h.live.events event (by rwa [← congrArg SynthesisHandle.events hhandle])
  · exact h.live.buffered.after (show StreamOp.Ends (.setCancelCallback callback) from trivial)
  · intro t hmem
    show t.Plays backend script (s.perform (.setCancelCallback callback)).handle.maxBufferBytes
      (s.perform (.setCancelCallback callback)).said
    rw [hsaid, hhandle]
    exact hplays t hmem
  · rw [cost_cons]
    show 3 * (s.perform (.setCancelCallback callback)).handle.events.length + _ < _
    rw [hhandle]
    simp only [SynthesisTask.cost]
    omega

/-- **A step of a drained stream** ends it as its script does, or waits, or leaves
less to do. -/
theorem Open.run (h : Open backend script s (task ::ₘ others)) (hfits : ¬ task.Oversize s)
    (hyields : backend.Yields) (hinput : input.cancelled = false ∧ input.refused = none ∧ 0 < input.remaining)
    (hrun : SynthesisState.run backend s task input = some e) :
    Told script e.state ∨ Open backend script e.state (e.left + others) ∧
      (task.Waits s ∧ e.state = s ∧ e.next = [task] ∨
        e.state.cost backend (e.left + others) < s.cost backend (task ::ₘ others)) := by
  obtain ⟨hcancelled, hrefused, hremaining⟩ := hinput
  have hst := stepped_of_run hrun
  have hplays := h.plays task (Multiset.mem_cons_self ..)
  have hdrains := h.drains task (Multiset.mem_cons_self ..)
  have hless : ∀ {t}, e.next = [t] →
      3 * e.state.handle.events.length + t.cost backend < 3 * s.handle.events.length + task.cost backend →
      e.state.cost backend (e.left + others) < s.cost backend (task ::ₘ others) := by
    intro t hnext hcost
    rw [Effect.left_of_next hst.spawned, hnext, cost_add, cost_cons]
    simp only [List.map_singleton, List.sum_singleton]
    omega
  rcases Drains.cases hdrains with hworks | hloops | ⟨callback, rfl⟩
  · obtain ⟨e', hrun', hworked | htold⟩ :=
      h.live.worker input hworks hplays hfits hyields hremaining
    · obtain rfl := Option.some.inj (hrun.symm.trans hrun')
      obtain ⟨t, hnext, htworks, hcases⟩ := hworked
      have hkind : t.works = task.works ∧ t.loops = task.loops :=
        ⟨htworks.trans hworks.symm, (loops_of_works htworks).trans (loops_of_works hworks).symm⟩
      have hkeeps := plays_of_run hrun hplays t (hnext ▸ List.mem_singleton_self t)
      have hfree : task.Unstopped backend s input := ⟨h.live.uncancelled, h.live.opened, hremaining, hfits, hyields⟩
      have htplays : t.Plays backend script e.state.handle.maxBufferBytes e.state.said := by
        rw [bytes_of_run hst]
        exact hkeeps.resolve_right fun hgives => hgives.2 hfree
      rcases hcases with ⟨hwaits, hsame, rfl⟩ | ⟨hlive, hcost⟩
      · exact .inr ⟨h.on hst hnext (hsame ▸ h.live) hkind htplays (drains_of_works htworks),
          .inl ⟨hwaits, hsame, hnext⟩⟩
      · exact .inr ⟨h.on hst hnext hlive hkind htplays (drains_of_works htworks), .inr (hless hnext hcost)⟩
    · exact .inl (Option.some.inj (hrun.symm.trans hrun') ▸ htold)
  · rcases h.live.handler backend hloops hdrains hcancelled hrefused with ⟨-, hnone⟩ |
      ⟨e', t, hrun', hnext, htloops, htdrains, hlive, hcost⟩
    · cases hrun.symm.trans hnone
    · obtain rfl := Option.some.inj (hrun.symm.trans hrun')
      have hworks : ∀ {t : SynthesisTask}, t.loops = true → t.works = false := by
        intro t hloops
        by_contra hworks
        rw [loops_of_works (Bool.eq_true_of_not_eq_false hworks)] at hloops
        cases hloops
      have htplays : t.Plays backend script e.state.handle.maxBufferBytes e.state.said := by
        cases t <;> trivial
      exact .inr ⟨h.on hst hnext hlive ⟨(hworks htloops).trans (hworks hloops).symm, htloops.trans hloops.symm⟩
        htplays htdrains, .inr (hless hnext hcost)⟩
  · exact .inr ((h.setCancelCallback hrun).imp_right .inr)

/-- What has been told stays told. -/
theorem Told.run (h : Told script s) (hrun : SynthesisState.run backend s task input = some e) :
    Told script e.state := by
  obtain ⟨hterminal, herror, happended⟩ := terminal_of_run (stepped_of_run hrun) h.terminal
  refine ⟨hterminal, ?_, ?_⟩
  · rw [said, happended]
    exact h.sounds
  · rw [herror, happended]
    exact h.outcome

/-! ### One step at a time -/

/-- The worker turns to one task at most. -/
theorem length_next_of_works (hworks : task.works = true) (hrun : SynthesisState.run backend s task input = some e) :
    e.next.length ≤ 1 := by
  have hunless : ∀ {message t}, (s.unlessCancelled message t).next.length ≤ 1 := by
    intro message t
    simp only [unlessCancelled]
    split_ifs <;> exact le_rfl
  have hserver : ∀ {call raises t}, (s.callServer call raises t).next.length ≤ 1 := by
    intro call raises t
    cases raises <;> exact le_rfl
  have hproceed : ∀ {s' : SynthesisState} {α} {value : Except EngineError α} {next : α → SynthesisTask},
      (s'.proceed value next).next.length ≤ 1 := by
    intro s' α value next
    cases value <;> exact le_rfl
  have hstarted : ∀ {rate channels t}, (s.emitStarted rate channels t).next.length ≤ 1 := by
    intro rate channels t
    simp only [SynthesisState.emitStarted]
    split <;> exact le_rfl
  have haudio : ∀ {event remaining again t}, (s.emitAudio event remaining again t).next.length ≤ 1 := by
    intro event remaining again t
    simp only [SynthesisState.emitAudio]
    split <;> exact le_rfl
  cases task with
  | handle task =>
    obtain ⟨e', hstream, rfl⟩ := Option.map_eq_some_iff.mp hrun
    cases task with
    | complete result metrics =>
      cases hstream
      simp only [StreamState.complete]
      split_ifs <;> exact le_rfl
    | combineMetrics | fail | finish => cases hstream; exact le_rfl
    | _ => cases hworks
  | runJob queueWaitMs => cases hrun; exact le_rfl
  | checkDispatch | checkPrepared | checkGeneration | checkEncoded | checkChunk => cases hrun; exact hunless
  | runBackend => cases hrun; cases backend <;> exact hproceed
  | release outcome =>
    cases hrun
    rcases outcome with _ | error | result
    · exact Nat.zero_le _
    · exact le_rfl
    · exact le_rfl
  | startedSink sampleRateHz => cases hrun; exact hstarted
  | encodeLatents | generate =>
    obtain ⟨call, -, rfl⟩ := Option.map_eq_some_iff.mp hrun
    exact hserver
  | nextChunk sampleRateHz chunkCount totalSampleCount chunks =>
    obtain ⟨call, -, rfl⟩ := Option.map_eq_some_iff.mp hrun
    cases chunks with
    | cons samples chunks => exact le_rfl
    | nil =>
      simp only [SynthesisState.nextChunk]
      split
      · exact le_rfl
      · exact hserver
  | chunkSink | emitFrames => cases hrun; exact haudio
  | emitResult result =>
    cases hrun
    simp only [SynthesisState.emitResult]
    split
    · exact le_rfl
    · exact hstarted
  | readFrames emission sequenceNumber firstSample frames =>
    cases hrun
    simp only [SynthesisState.readFrames]
    split_ifs <;> exact le_rfl
  | _ => cases hworks

theorem works_of_handles (h : task.handles = true) : task.works = false := by
  cases task <;> first | rfl | cases h

/-- No other method of the handle leads to one of the worker's. -/
theorem idle_of_runHandle {task : StreamTask} {remaining : ℚ} (hidle : (SynthesisTask.handle task).works = false)
    (hrun : s.runHandle task remaining = some e) : ∀ t ∈ e.next, t.works = false := by
  obtain ⟨e', hstream, rfl⟩ := Option.map_eq_some_iff.mp hrun
  rw [List.forall_mem_map]
  cases task with
  | addTerminalCallback callback =>
    cases hstream
    simp only [StreamState.addTerminalCallback]
    split_ifs
    · exact List.forall_mem_singleton.mpr rfl
    · exact List.forall_mem_nil _
  | emitAudio event =>
    cases hstream
    simp only [StreamState.emitAudio]
    split
    · exact List.forall_mem_singleton.mpr rfl
    · exact List.forall_mem_nil _
  | runTerminalCallbacks callbacks =>
    cases callbacks <;> cases hstream
    · exact List.forall_mem_nil _
    · exact List.forall_mem_singleton.mpr rfl
  | readEvent =>
    simp only [StreamState.run] at hstream
    split_ifs at hstream
    cases hstream
    exact List.forall_mem_nil _
  | complete | combineMetrics | fail | finish => cases hidle
  | _ => cases hstream; exact List.forall_mem_nil _

/-- And nobody else turns to a task of the worker's. -/
theorem works_of_next (hrun : SynthesisState.run backend s task input = some e) {t : SynthesisTask}
    (hmem : t ∈ e.next) (ht : t.works = true) : task.works = true := by
  by_contra hnot
  rw [Bool.not_eq_true] at hnot
  refine Bool.false_ne_true (Eq.trans (Eq.symm ?_) ht)
  cases task with
  | handle task => exact idle_of_runHandle hnot hrun t hmem
  | readEvent | returnEmpty | send | resume | clientCancelled | raiseCancelled | failRpc | classify | abort =>
    exact forall_handler (P := (·.works = false)) hrun rfl (fun t h => works_of_handles h) rfl rfl t hmem
  | _ => cases hnot

/-- The worker has its thread to itself. -/
theorem works_alone (backend : Backend) (handle : SynthesisHandle) (queueWaitMs receivedAt : ℚ)
    (actions : List (Action SynthesisTask SynthesisInput)) :
    ∀ tasks ∈ ((synthesisProgram backend).runs (start handle queueWaitMs receivedAt) actions).threads,
      ∀ task ∈ tasks, task.works = true → tasks = [task] := by
  refine Threads.Program.runs_alone (p := synthesisProgram backend) ?_ (fun s task input e hrun => ?_) actions
  · simp [start, SynthesisTask.works, SynthesisTask.produces]
  · rw [(stepped_of_run hrun).spawned]
    refine ⟨fun t hmem ht => ?_, List.forall_mem_nil _⟩
    have hworks := works_of_next hrun hmem ht
    refine ⟨hworks, ?_⟩
    have hlength := length_next_of_works hworks hrun
    obtain ⟨t', hnext⟩ := List.length_eq_one_iff.mp (le_antisymm hlength (List.length_pos_of_mem hmem))
    rw [hnext] at hmem ⊢
    rw [List.mem_singleton.mp hmem]

/-! ### To the end -/

/-- Where a piece waits there is something to read. -/
theorem Live.events_ne_nil {n : ℕ} (h : s.Live) (hfull : s.handle.Full n) (hfits : n ≤ s.handle.maxBufferBytes) :
    s.handle.events ≠ [] := by
  intro hempty
  have hlimit := h.buffered.limit_pos
  rw [SynthesisHandle.Full, h.buffered.chunks, h.buffered.bytes, hempty] at hfull
  simp only [audioBytes, audioChunks, List.filterMap_nil, List.length_nil, List.map_nil, List.sum_nil] at hfull
  omega

theorem events_ne_nil_of_waits (h : s.Live) (hwaits : task.Waits s) (hfits : ¬ task.Oversize s) :
    s.handle.events ≠ [] := by
  cases task with
  | chunkSink sampleRateHz chunkCount totalSampleCount samples chunks =>
    exact h.events_ne_nil hwaits (Nat.le_of_not_lt hfits)
  | emitFrames emission sequenceNumber firstSample pcm frames =>
    exact h.events_ne_nil hwaits (Nat.le_of_not_lt hfits)
  | _ => exact hwaits.elim

/-- A step that does not wait changes something. -/
theorem Open.step_ne {c : Config SynthesisState SynthesisTask} (h : Open backend script c.state c.bag) {thread : ℕ}
    (hnext : c.next? thread = some task) (hwaits : ¬ task.Waits c.state) (hfits : ¬ task.Oversize c.state)
    (hyields : backend.Yields) (hinput : input.cancelled = false ∧ input.refused = none ∧ 0 < input.remaining)
    (hrun : SynthesisState.run backend c.state task input = some e) :
    (synthesisProgram backend).step c (.run thread input) ≠ c := by
  intro hsame
  have hstate := Threads.Program.step_run (p := synthesisProgram backend) hnext hrun
  obtain ⟨others, hold, hbag⟩ := Threads.Program.step_run_bag (p := synthesisProgram backend) hnext hrun
  rw [hsame] at hstate hbag
  rcases (hold ▸ h).run hfits hyields hinput hrun with htold | ⟨-, ⟨hwait, -⟩ | hless⟩
  · have hopen := h.live.opened
    rw [hstate, htold.terminal] at hopen
    cases hopen
  · exact hwaits hwait
  · rw [← hstate, ← hbag, ← hold] at hless
    exact lt_irrefl _ hless

/-- **Somebody gets further**: the worker, or the one it waits for. -/
theorem Open.moves {c : Config SynthesisState SynthesisTask} (h : Open backend script c.state c.bag)
    (hfits : ∀ task ∈ c.bag, ¬ task.Oversize c.state) (hyields : backend.Yields)
    (hworks : ∀ tasks ∈ c.threads, ∀ task ∈ tasks, task.works = true → tasks = [task])
    (hloops : ∀ tasks ∈ c.threads, ∀ task ∈ tasks, task.loops = true → tasks = [task]) :
    ∃ thread, ∀ input, Draining (.run thread input) → (synthesisProgram backend).step c (.run thread input) ≠ c := by
  obtain ⟨worker, hworker, hw⟩ := Multiset.countP_pos.mp (h.worker.symm ▸ Nat.one_pos)
  by_cases hwaits : worker.Waits c.state
  · -- the handler has something to read
    obtain ⟨handler, hhandler, hh⟩ := Multiset.countP_pos.mp (h.handler.symm ▸ Nat.one_pos)
    obtain ⟨thread, hnext⟩ := Threads.exists_next?_of_alone hhandler
      fun tasks hmem hin => hloops tasks hmem handler hin hh
    have hevents := events_ne_nil_of_waits h.live hwaits (hfits worker hworker)
    refine ⟨thread, fun input hinput => ?_⟩
    rcases h.live.handler backend hh (h.drains handler hhandler) hinput.1 hinput.2.1 with
      ⟨hempty, -⟩ | ⟨e, t, hrun, -⟩
    · exact absurd hempty hevents
    · refine h.step_ne hnext ?_ (hfits handler hhandler) hyields hinput hrun
      cases handler <;> first | exact id | cases hh
  · obtain ⟨thread, hnext⟩ := Threads.exists_next?_of_alone hworker
      fun tasks hmem hin => hworks tasks hmem worker hin hw
    refine ⟨thread, fun input hinput => ?_⟩
    obtain ⟨e, hrun, -⟩ := h.live.worker input hw (h.plays worker hworker) (hfits worker hworker) hyields hinput.2.2
    exact h.step_ne hnext hwaits (hfits worker hworker) hyields hinput hrun

/-- The executor's callback may come in. -/
theorem Open.entry (h : Open backend script s bag) (callback : SchedulerJob) :
    Open backend script s (.handle (.setCancelCallback callback) ::ₘ bag) where
  live := h.live
  plays := Multiset.forall_mem_cons.mpr ⟨trivial, h.plays⟩
  drains := Multiset.forall_mem_cons.mpr ⟨trivial, h.drains⟩
  worker := by
    rw [Multiset.countP_cons_of_neg _ (by simp [works, produces])]
    exact h.worker
  handler := by
    rw [Multiset.countP_cons_of_neg _ (by simp [SynthesisTask.loops])]
    exact h.handler

theorem start_open (backend : Backend) (spec : HandleSpec) (createdAt queueWaitMs receivedAt : ℚ) :
    let handle := spec.handle createdAt
    let c := start handle queueWaitMs receivedAt
    Open backend (backend.script handle.maxBufferBytes) c.state c.bag := by
  intro handle c
  have hbag : c.bag = {.runJob queueWaitMs, .readEvent} := rfl
  refine ⟨⟨rfl, rfl, List.forall_mem_nil _, ?_⟩, ?_, ?_, rfl, rfl⟩
  · obtain ⟨h₁, h₂, h₃, h₄, h₅, h₆, h₇⟩ := SynthesisHandle.new_buffered spec.responseId spec.modelName createdAt
      spec.maxBufferChunks spec.maxBufferBytes spec.stalledConsumerTimeoutS
    exact ⟨h₁, h₂, h₃, h₄, h₅, h₆, h₇⟩
  · rw [hbag]
    simp [SynthesisTask.Plays, c, start, said, sounds]
  · rw [hbag]
    simp [SynthesisTask.Drains, SynthesisTask.works, SynthesisTask.produces]

/-- A drained stream has told its script, or is on its way. -/
theorem runs_drained (hyields : backend.Yields) (spec : HandleSpec) (createdAt queueWaitMs receivedAt : ℚ)
    (htwo : 2 ≤ (spec.handle createdAt).maxBufferBytes)
    (hchunks : ChunksWithin backend (spec.handle createdAt).maxBufferBytes)
    {actions : List (Action SynthesisTask SynthesisInput)} (hdraining : ∀ a ∈ actions, Draining a) :
    let handle := spec.handle createdAt
    let c := (synthesisProgram backend).runs (start handle queueWaitMs receivedAt) actions
    Sized handle.maxBufferBytes handle.maxBufferBytes c.state c.bag ∧
      (Told (backend.script handle.maxBufferBytes) c.state ∨
        Open backend (backend.script handle.maxBufferBytes) c.state c.bag) := by
  intro handle c
  refine Threads.Program.runs_of_forall (p := synthesisProgram backend) (A := Draining)
    (I := fun s bag => Sized handle.maxBufferBytes handle.maxBufferBytes s bag ∧
      (Told (backend.script handle.maxBufferBytes) s ∨ Open backend (backend.script handle.maxBufferBytes) s bag))
    ⟨start_sized _ spec createdAt queueWaitMs receivedAt,
      .inr (start_open backend spec createdAt queueWaitMs receivedAt)⟩ ?_ ?_ hdraining
  · rintro s bag task ⟨callback, rfl⟩ hentry ⟨hsized, hcases⟩
    exact ⟨hsized.entry hentry, hcases.imp_right fun hopen => hopen.entry callback⟩
  · rintro s bag task thread input e hinput hrun ⟨hsized, hcases⟩
    refine ⟨hsized.run hchunks (min_le_left _ _) hrun, ?_⟩
    rcases hcases with htold | hopen
    · exact .inl (htold.run hrun)
    · have hfits := hsized.fits htwo le_rfl task (Multiset.mem_cons_self ..)
      exact (hopen.run hfits hyields hinput hrun).imp_right And.left

/-- **A stream that is drained comes to its end**, and tells its whole script. -/
theorem told_of_fair (hyields : backend.Yields) (spec : HandleSpec) (createdAt queueWaitMs receivedAt : ℚ)
    (htwo : 2 ≤ (spec.handle createdAt).maxBufferBytes)
    (hchunks : ChunksWithin backend (spec.handle createdAt).maxBufferBytes)
    {actions : List (Action SynthesisTask SynthesisInput)} (hdraining : ∀ a ∈ actions, Draining a)
    {schedule : ℕ → ℕ × SynthesisInput} (hfair : Fair Draining schedule) :
    ∃ n, Told (backend.script (spec.handle createdAt).maxBufferBytes)
      ((synthesisProgram backend).runs (start (spec.handle createdAt) queueWaitMs receivedAt)
        (actions ++ turns schedule n)).state := by
  set c := (synthesisProgram backend).runs (start (spec.handle createdAt) queueWaitMs receivedAt) actions with hc
  have hstands : ∀ n, _ := fun n =>
    runs_drained hyields spec createdAt queueWaitMs receivedAt htwo hchunks
      (List.forall_mem_append.mpr ⟨hdraining, Threads.Program.forall_turns hfair n⟩)
  simp only [Threads.Program.runs_append, ← hc] at hstands ⊢
  refine Threads.Program.exists_of_fair (p := synthesisProgram backend) (c := c)
    (G := fun c => Told (backend.script (spec.handle createdAt).maxBufferBytes) c.state)
    (m := fun c => c.state.cost backend c.bag) hfair (fun n hnot hnot' => ?_) fun n hnot => ?_
  · obtain ⟨hsized, hcases⟩ := hstands n
    have hopen := hcases.resolve_left hnot
    rw [Threads.Program.runs_turns_succ] at hnot' ⊢
    set cₙ := (synthesisProgram backend).runs c (turns schedule n)
    rcases Threads.Program.step_threads cₙ (.run (schedule n).1 (schedule n).2) (p := synthesisProgram backend) with
      heq | ⟨task, hcall, -⟩ | ⟨thread, input, task, rest, pre, post, e, hact, hnext, hrun, hthreads, heq⟩
    · exact .inl heq
    · cases hcall
    · cases hact
      obtain ⟨others, hold, hbag⟩ := Threads.Program.step_run_bag (p := synthesisProgram backend) hnext hrun
      have hstate := Threads.Program.step_run (p := synthesisProgram backend) hnext hrun
      have hfits := hsized.fits htwo le_rfl task (Threads.mem_bag_of_next? hnext)
      rw [hstate] at hnot'
      rcases ((hold ▸ hopen).run hfits hyields (hfair.allowed n) hrun).resolve_left hnot' with
        ⟨-, ⟨-, hsame, hnexts⟩ | hless⟩
      · left
        rw [heq, hsame, hnexts, (stepped_of_run hrun).spawned, List.append_nil, List.singleton_append, ← hthreads]
      · right
        rw [hstate, hbag, hold]
        exact hless
  · obtain ⟨hsized, hcases⟩ := hstands n
    have hworks := works_alone backend (spec.handle createdAt) queueWaitMs receivedAt (actions ++ turns schedule n)
    have hloops := loops_alone backend spec createdAt queueWaitMs receivedAt (actions ++ turns schedule n)
    rw [Threads.Program.runs_append, ← hc] at hworks hloops
    exact (hcases.resolve_left hnot).moves (hsized.fits htwo le_rfl) hyields hworks hloops

end SynthesisState
end TtsPool
