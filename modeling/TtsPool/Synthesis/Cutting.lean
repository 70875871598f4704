/-
# How audio is cut for the buffer

`emit_audio` refuses a chunk that is larger than the whole buffer, however empty
it is, and `_emit_complete_result` a buffer that holds no frame.  What the two
paths emit is cut differently.  A complete result goes out in pieces of at most
the buffer and 64 KiB, whatever its length.  NanoVLLM declares 64 KiB as its
largest chunk, which `load_model` compares with the buffer; but its chunks are
whatever arrays `generate` yields, and nothing cuts them.

`buffer_suffices_iff`: on a model that is loaded no synthesis fails for the size
of the buffer, and no piece is longer than declared, exactly when no array has
more than 32768 samples, or, where a complete result is cut, the buffer has two
bytes.
-/

import TtsPool.Router.Buffers
import TtsPool.Synthesis.Schedules

namespace TtsPool

open Threads (Effect Config Action Meets)
open SynthesisHandle (appends)

/-- `NanoVLLMVoxCPMTTSRuntime.max_stream_chunk_bytes`. -/
def maxStreamChunkBytes : ℕ := 64 * 1024

/-- What a model gives for a request: the arrays that NanoVLLM's `generate`
yields, or the mono 16-bit WAV of a complete-only runtime. -/
inductive Waveform where
  | native (chunks : List (List ℚ))
  | complete (sampleRateHz : ℕ) (frames : List UInt8)

namespace Waveform

/-- What a runtime that gives such audio declares. -/
def declared : Waveform → Option ℤ
  | .native _ => some (maxStreamChunkBytes : ℤ)
  | .complete .. => none

/-- Such audio comes from a runtime of this kind. -/
structure From (waveform : Waveform) (spec : RuntimeSpec) : Prop where
  streaming : spec.streaming = match waveform with | .native _ => true | .complete .. => false
  maxStreamChunkBytes : spec.maxStreamChunkBytes = waveform.declared

/-- A run of the backend has this audio in it. -/
def Of (waveform : Waveform) (backend : Backend) : Prop :=
  match waveform with
  | .native chunks => ∃ call, backend = .nanovllm call ∧ call.chunks = chunks
  | .complete sampleRateHz frames =>
    ∃ result, backend.completeFn = some (.ok result) ∧
      result.audio = some { sampleRateHz := sampleRateHz, frames := frames }

/-- The audio can be cut for a buffer of so many bytes: an array as it is, a
complete result into frames. -/
def Fits (waveform : Waveform) (streamBufferBytes : ℤ) : Prop :=
  match waveform with
  | .native chunks => ∀ samples ∈ chunks, 2 * samples.length ≤ maxStreamChunkBytes
  | .complete .. => 2 ≤ streamBufferBytes

end Waveform

/-- A task that fails for the size of the buffer, be the buffer empty or not. -/
def SynthesisTask.Oversize (s : SynthesisState) : SynthesisTask → Prop
  | .chunkSink _ _ _ samples _ => s.handle.maxBufferBytes < (pcmBytes samples).length
  | .emitFrames _ _ _ pcm _ => s.handle.maxBufferBytes < pcm.length
  | .emitResult result =>
    openResult result s.handle.maxBufferBytes = .error (.valueError "stream buffer is smaller than one PCM frame")
  | _ => False

/-- The pieces a task has in hand, or will cut, are not longer than `limit`. -/
def SynthesisTask.Cut (limit : ℕ) : SynthesisTask → Prop
  | .nextChunk _ _ _ chunks => ∀ samples ∈ chunks, 2 * samples.length ≤ limit
  | .checkChunk _ _ _ samples chunks | .chunkSink _ _ _ samples chunks =>
    2 * samples.length ≤ limit ∧ ∀ samples ∈ chunks, 2 * samples.length ≤ limit
  | .readFrames emission _ _ _ => emission.framesPerChunk * emission.frameBytes ≤ limit
  | .emitFrames emission _ _ pcm _ =>
    emission.framesPerChunk * emission.frameBytes ≤ limit ∧ pcm.length ≤ limit
  | .handle (.emitAudio _) => False
  | .handle task => task.Ends
  | _ => True

namespace SynthesisState

open SynthesisTask

variable {backend : Backend} {s : SynthesisState} {task : SynthesisTask} {input : SynthesisInput} {e : Step}
  {bag : Multiset SynthesisTask} {limit maxBufferBytes : ℕ}

/-- What a task fails with for the size of the buffer. -/
def sizeErrors : List EngineError :=
  [.streamConsumerStalled "one audio chunk exceeds the configured stream buffer",
    .valueError "stream buffer is smaller than one PCM frame"]

/-- **Such a task fails**, with one of the two errors. -/
theorem oversize_raises (backend : Backend) (s : SynthesisState) (task : SynthesisTask) (input : SynthesisInput)
    (h : task.Oversize s) :
    ∃ error ∈ sizeErrors, ∃ e, SynthesisState.run backend s task input = some e ∧
      e.next = [.release (some (.error error))] := by
  have hemit : ∀ event : StreamAudioChunk, s.handle.maxBufferBytes < event.pcm.length →
      s.handle.emitAudio event input.remaining =
        .error (.streamConsumerStalled "one audio chunk exceeds the configured stream buffer") :=
    fun event hsize => if_pos hsize
  cases task with
  | chunkSink sampleRateHz chunkCount totalSampleCount samples chunks =>
    refine ⟨_, List.mem_cons_self, _, rfl, ?_⟩
    simp only [SynthesisState.emitAudio, hemit ⟨chunkCount, totalSampleCount, pcmBytes samples⟩ h]
  | emitFrames emission sequenceNumber firstSample pcm frames =>
    refine ⟨_, List.mem_cons_self, _, rfl, ?_⟩
    simp only [SynthesisState.emitAudio, hemit ⟨sequenceNumber, firstSample, pcm⟩ h]
  | emitResult result =>
    refine ⟨_, List.mem_cons_of_mem _ List.mem_cons_self, _, rfl, ?_⟩
    simp only [SynthesisState.emitResult, show openResult result s.handle.maxBufferBytes = _ from h]
  | _ => exact h.elim

/-! ### What fits -/

/-- Every array of a backend has at most so many bytes of PCM. -/
def ChunksWithin (backend : Backend) (limit : ℕ) : Prop :=
  ∀ call, backend.streamFn = some call → ∀ samples ∈ call.chunks, 2 * samples.length ≤ limit

/-- A method of the handle goes on as its tasks do. -/
theorem cut_of_runHandle {task : StreamTask} (h : s.runHandle task input.remaining = some e)
    (hcut : (SynthesisTask.handle task).Cut limit) : ∀ t ∈ e.next, t.Cut limit := by
  obtain ⟨e', hrun, rfl⟩ := Option.map_eq_some_iff.mp h
  intro t hmem
  obtain ⟨task', hmem', rfl⟩ := List.mem_map.mp hmem
  have hends := StreamState.run_ends hrun task' hmem'
  cases task' with
  | emitAudio event =>
    obtain rfl := StreamState.run_emitAudio hrun hmem'
    exact hcut
  | _ => exact hends

/-- The handler has nothing to cut. -/
theorem cut_of_handles (hhandles : task.handles = true) : task.Cut limit := by
  cases task <;> trivial

/-- **What a task leaves to be cut**: no more than it had. -/
theorem cut_of_run (hchunks : ChunksWithin backend limit)
    (hlimit : min s.handle.maxBufferBytes (64 * 1024) ≤ limit)
    (h : SynthesisState.run backend s task input = some e) (hcut : task.Cut limit) :
    ∀ t ∈ e.next, t.Cut limit := by
  have hrelease : ∀ error : Option EngineError, (SynthesisTask.release (error.map .error)).Cut limit :=
    fun _ => trivial
  cases task with
  | handle task => exact cut_of_runHandle h hcut
  | release outcome =>
    cases h
    rcases outcome with _ | error | result
    · exact List.forall_mem_nil _
    · exact List.forall_mem_singleton.mpr trivial
    · exact List.forall_mem_singleton.mpr trivial
  | runBackend =>
    cases h
    cases backend <;> exact forall_proceed (fun _ => trivial) fun _ _ => trivial
  | checkDispatch | checkPrepared | checkGeneration | checkEncoded =>
    cases h
    exact forall_unlessCancelled (fun _ => trivial) trivial
  | checkChunk =>
    cases h
    exact forall_unlessCancelled (fun _ => trivial) hcut
  | startedSink sampleRateHz =>
    cases h
    exact forall_emitStarted (fun _ => trivial) trivial
  | encodeLatents sampleRateHz =>
    obtain ⟨call, -, rfl⟩ := Option.map_eq_some_iff.mp h
    exact forall_callServer hrelease trivial
  | generate sampleRateHz =>
    obtain ⟨call, hcall, rfl⟩ := Option.map_eq_some_iff.mp h
    exact forall_callServer hrelease (hchunks call hcall)
  | nextChunk sampleRateHz chunkCount totalSampleCount chunks =>
    obtain ⟨call, -, rfl⟩ := Option.map_eq_some_iff.mp h
    cases chunks with
    | cons samples chunks => exact List.forall_mem_singleton.mpr (List.forall_mem_cons.mp hcut)
    | nil =>
      simp only [SynthesisState.nextChunk]
      split
      · exact List.forall_mem_singleton.mpr trivial
      · exact forall_callServer hrelease trivial
  | chunkSink =>
    cases h
    exact forall_emitAudio (fun _ => trivial) hcut hcut.2
  | emitResult result =>
    cases h
    simp only [SynthesisState.emitResult]
    cases hopen : openResult result s.handle.maxBufferBytes with
    | error error => exact List.forall_mem_singleton.mpr trivial
    | ok opened =>
      have hspec := openResult_spec hopen
      exact forall_emitStarted (fun _ => trivial) (hspec.2.2.2.2.trans hlimit)
  | readFrames emission sequenceNumber firstSample frames =>
    cases h
    simp only [SynthesisState.readFrames]
    split_ifs
    · exact List.forall_mem_singleton.mpr trivial
    · exact List.forall_mem_singleton.mpr ⟨hcut, (List.length_take_le _ _).trans hcut⟩
  | emitFrames =>
    cases h
    exact forall_emitAudio (fun _ => trivial) hcut hcut.1
  | runJob queueWaitMs => cases h; exact List.forall_mem_singleton.mpr trivial
  | _ => exact forall_handler h rfl (fun _ ht => cut_of_handles ht) trivial trivial

/-- The handle's limit, and the pieces in hand and appended. -/
structure Sized (limit maxBufferBytes : ℕ) (s : SynthesisState) (bag : Multiset SynthesisTask) : Prop where
  bytes : s.handle.maxBufferBytes = maxBufferBytes
  cut : ∀ task ∈ bag, task.Cut limit
  pieces : ∀ event, .audio event ∈ s.delivery.appended → event.pcm.length ≤ limit

/-- **A step emits pieces of the size it may.** -/
theorem Sized.run (hchunks : ChunksWithin backend limit) (hlimit : min maxBufferBytes (64 * 1024) ≤ limit)
    (h : Sized limit maxBufferBytes s (task ::ₘ bag)) (hrun : SynthesisState.run backend s task input = some e) :
    Sized limit maxBufferBytes e.state (e.left + bag) := by
  have hst := stepped_of_run hrun
  have hcut := h.cut task (Multiset.mem_cons_self _ _)
  have hends : ∀ op, task.streamOp s input = some op → op.Ends := fun op hop => by
    refine ends_of_streamOp (fun t ht => ?_) hop
    subst ht
    cases t <;> first | exact hcut | exact hcut.elim
  have hdelivery := hst.delivery
  refine ⟨?_, fun t hmem => ?_, fun event hmem => ?_⟩
  · show e.state.delivery.handle.maxBufferBytes = maxBufferBytes
    rw [hdelivery]
    cases hop : task.streamOp s input with
    | none => exact h.bytes
    | some op => exact (s.handle.after_limits op).2.trans h.bytes
  · rw [Effect.left_of_next hst.spawned] at hmem
    rcases Multiset.mem_add.mp hmem with hmem | hmem
    · exact cut_of_run hchunks (h.bytes ▸ hlimit) hrun hcut t hmem
    · exact h.cut t (Multiset.mem_cons_of_mem hmem)
  · rw [hdelivery] at hmem
    cases hop : task.streamOp s input with
    | none =>
      rw [hop] at hmem
      exact h.pieces event hmem
    | some op =>
      rw [hop] at hmem
      rcases List.mem_append.mp hmem with hmem | hmem
      · exact h.pieces event hmem
      · -- the task has the piece in hand
        obtain ⟨remaining, rfl⟩ := SynthesisHandle.mem_appends_audio (hends op hop) hmem
        cases task with
        | handle t => cases t <;> cases hop; exact hcut.elim
        | chunkSink sampleRateHz chunkCount totalSampleCount samples chunks =>
          cases hop
          rw [length_pcmBytes]
          exact hcut.1
        | emitFrames emission sequenceNumber firstSample pcm frames =>
          cases hop
          exact hcut.2
        | emitResult result =>
          simp only [streamOp] at hop
          split at hop <;> cases hop
        | readEvent =>
          simp only [streamOp] at hop
          split_ifs at hop
          cases hop
        | _ => cases hop

/-- What callers do to the handle cuts nothing. -/
theorem Sized.entry (h : Sized limit maxBufferBytes s bag) (hentry : task.entry = true) :
    Sized limit maxBufferBytes s (task ::ₘ bag) := by
  refine ⟨h.bytes, fun t hmem => ?_, h.pieces⟩
  rcases Multiset.mem_cons.mp hmem with rfl | hmem
  · cases t with
    | handle t => cases t <;> first | exact Bool.noConfusion hentry | trivial
    | _ => exact Bool.noConfusion hentry
  · exact h.cut t hmem

/-- Before the first step. -/
theorem start_sized (limit : ℕ) (spec : HandleSpec) (createdAt queueWaitMs receivedAt : ℚ) :
    let c := start (spec.handle createdAt) queueWaitMs receivedAt
    Sized limit (max 1 spec.maxBufferBytes).toNat c.state c.bag := by
  intro c
  have hbag : c.bag = {.runJob queueWaitMs, .readEvent} := rfl
  refine ⟨rfl, fun task hmem => ?_, fun _ hmem => absurd hmem List.not_mem_nil⟩
  rw [hbag] at hmem
  rcases Multiset.mem_cons.mp hmem with rfl | hmem
  · trivial
  · rw [Multiset.mem_singleton.mp hmem]
    trivial

/-- A buffer of two bytes holds a frame. -/
theorem openResult_of_two {result : EngineResult} (h : 2 ≤ maxBufferBytes) :
    openResult result maxBufferBytes ≠ .error (.valueError "stream buffer is smaller than one PCM frame") := by
  intro hopen
  unfold openResult at hopen
  split_ifs at hopen with hmime
  · simp at hopen
  · cases haudio : result.audio with
    | none => simp [haudio] at hopen
    | some source =>
      simp only [haudio] at hopen
      split_ifs at hopen with hformat hsmall
      · simp at hopen
      · push Not at hformat
        obtain ⟨hchannel, hwidth, -⟩ := hformat
        simp only [hchannel, hwidth, Nat.one_mul] at hsmall
        omega

/-- **Pieces that fit do not fail for their size.** -/
theorem Sized.fits (h : Sized limit maxBufferBytes s bag) (htwo : 2 ≤ maxBufferBytes)
    (hlimit : limit ≤ maxBufferBytes) : ∀ task ∈ bag, ¬ task.Oversize s := by
  intro task hmem hover
  have hcut := h.cut task hmem
  cases task with
  | chunkSink sampleRateHz chunkCount totalSampleCount samples chunks =>
    have hover : s.handle.maxBufferBytes < (pcmBytes samples).length := hover
    rw [length_pcmBytes, h.bytes] at hover
    have hcut := hcut.1
    omega
  | emitFrames emission sequenceNumber firstSample pcm frames =>
    have hover : s.handle.maxBufferBytes < pcm.length := hover
    rw [h.bytes] at hover
    have hcut := hcut.2
    omega
  | emitResult result => exact openResult_of_two (h.bytes ▸ htwo) hover
  | _ => exact hover

/-! ### What does not fit -/

/-- The worker takes the next array, and comes to the sink with it. -/
theorem leads_chunk (call : NanoVLLMCall) {sampleRateHz : ℤ} {chunkCount totalSampleCount : ℕ} {samples : List ℚ}
    {chunks : List (List ℚ)} (h : Emptied maxBufferBytes s) :
    Leads (.nanovllm call)
      ⟨s, [[.nextChunk sampleRateHz chunkCount totalSampleCount (samples :: chunks)], [.readEvent]]⟩
      ⟨s, [[.chunkSink sampleRateHz chunkCount totalSampleCount samples chunks], [.readEvent]]⟩ := by
  have hnext : Leads (.nanovllm call)
      ⟨s, [[.nextChunk sampleRateHz chunkCount totalSampleCount (samples :: chunks)], [.readEvent]]⟩
      ⟨s, [[.checkChunk sampleRateHz chunkCount totalSampleCount samples chunks], [.readEvent]]⟩ :=
    leads_worker (e := s.nextChunk call sampleRateHz chunkCount totalSampleCount (samples :: chunks)) _ trivial
      rfl rfl
  exact hnext.trans (leads_unlessCancelled (.checkChunk ..) trivial h.cancelled rfl)

/-- A chunk that fits comes into the empty buffer. -/
theorem Emptied.emits (h : Emptied maxBufferBytes s) {event : StreamAudioChunk}
    (hfits : event.pcm.length ≤ maxBufferBytes) :
    s.handle.emitAudio event 0 = .ok (some (s.handle.appendAudio event)) ∧
      (s.perform (.emitAudio event 0)).handle = s.handle.appendAudio event ∧
      .audio event ∈ (s.perform (.emitAudio event 0)).delivery.appended := by
  have hroom : s.handle.emitAudio event 0 = .ok (some (s.handle.appendAudio event)) :=
    h.buffered.room h.cancelled h.opened (by rw [h.events]; rfl) (h.bytes ▸ hfits) 0
  refine ⟨hroom, ?_, List.mem_append_right _ ?_⟩
  · show s.handle.after (.emitAudio event 0) = _
    rw [SynthesisHandle.after, hroom]
  · rw [appends, show s.delivery.handle.emitAudio event 0 = _ from hroom]
    exact List.mem_singleton_self _

/-- The sink emits it. -/
theorem leads_emit {sampleRateHz : ℤ} {chunkCount totalSampleCount : ℕ} {samples : List ℚ}
    {chunks : List (List ℚ)} {event : StreamAudioChunk} (h : Emptied maxBufferBytes s)
    (hevent : event = ⟨chunkCount, totalSampleCount, pcmBytes samples⟩)
    (hfits : event.pcm.length ≤ maxBufferBytes) :
    Leads backend ⟨s, [[.chunkSink sampleRateHz chunkCount totalSampleCount samples chunks], [.readEvent]]⟩
      ⟨s.perform (.emitAudio event 0),
        [[.nextChunk sampleRateHz (chunkCount + 1) (totalSampleCount + samples.length) chunks],
          [.readEvent]]⟩ := by
  let task : SynthesisTask := .chunkSink sampleRateHz chunkCount totalSampleCount samples chunks
  let next : SynthesisTask :=
    .nextChunk sampleRateHz (chunkCount + 1) (totalSampleCount + samples.length) chunks
  have hlook : Leads backend ⟨s, [[task], [.readEvent]]⟩
      ⟨s.perform (.emitAudio event 0), [(s.emitAudio event 0 task next).next, [.readEvent]]⟩ :=
    leads_worker (e := s.emitAudio event 0 task next) task h.drained (by rw [hevent]; rfl) rfl
  have hnext : (s.emitAudio event 0 task next).next = [next] := by
    simp only [SynthesisState.emitAudio, (h.emits hfits).1]
  rw [hnext] at hlook
  exact hlook

/-- The audio does not fit: a task fails for the size of the buffer, or a piece is
longer than declared. -/
def Misfit (waveform : Waveform) (c : Config SynthesisState SynthesisTask) : Prop :=
  (∃ task ∈ c.bag, task.Oversize c.state) ∨
    ∃ event, .audio event ∈ c.state.delivery.appended ∧ ∃ bytes ∈ waveform.declared, bytes < event.pcm.length

/-- **An array that nothing cuts** is refused, or longer than declared, once those
before it are emitted. -/
theorem leads_misfit (call : NanoVLLMCall) (sampleRateHz : ℤ) (whole : List (List ℚ)) {chunks : List (List ℚ)}
    (hlarge : ∃ samples ∈ chunks, maxStreamChunkBytes < 2 * samples.length) (chunkCount totalSampleCount : ℕ)
    (h : Emptied maxBufferBytes s) :
    ∃ c, Misfit (.native whole) c ∧ Leads (.nanovllm call)
      ⟨s, [[.nextChunk sampleRateHz chunkCount totalSampleCount chunks], [.readEvent]]⟩ c := by
  induction chunks generalizing s chunkCount totalSampleCount with
  | nil =>
    obtain ⟨samples, hmem, -⟩ := hlarge
    cases hmem
  | cons samples chunks ih =>
    let task : SynthesisTask := .chunkSink sampleRateHz chunkCount totalSampleCount samples chunks
    have hlook : Leads (.nanovllm call)
        ⟨s, [[.nextChunk sampleRateHz chunkCount totalSampleCount (samples :: chunks)], [.readEvent]]⟩
        ⟨s, [[task], [.readEvent]]⟩ := leads_chunk call h
    by_cases hfits : 2 * samples.length ≤ maxBufferBytes
    · let event : StreamAudioChunk := ⟨chunkCount, totalSampleCount, pcmBytes samples⟩
      have hsize : event.pcm.length = 2 * samples.length := length_pcmBytes samples
      obtain ⟨-, hhandle, happended⟩ := h.emits (hsize.trans_le hfits)
      have hemit := hlook.trans (leads_emit h rfl (hsize.trans_le hfits))
      by_cases hlarge' : maxStreamChunkBytes < 2 * samples.length
      · refine ⟨_, .inr ⟨event, happended, _, rfl, ?_⟩, hemit⟩
        exact_mod_cast hsize ▸ hlarge'
      · have hrest : ∃ samples ∈ chunks, maxStreamChunkBytes < 2 * samples.length := by
          simpa [hlarge'] using hlarge
        let after : SynthesisState := s.perform (.emitAudio event 0)
        have hbuffered : after.handle.Buffered :=
          h.buffered.after (show StreamOp.Ends (.emitAudio event 0) from trivial)
        have hevents : after.handle.events = [.audio event] := by
          rw [hhandle, SynthesisHandle.appendAudio, h.events]
          rfl
        have hunderway : after.outcome = none := h.underway
        obtain ⟨s', hempty, hread⟩ :=
          leads_read hunderway hbuffered hevents rfl (hhandle ▸ h.cancelled) (hhandle ▸ h.opened)
        have hbytes : after.handle.maxBufferBytes = maxBufferBytes := hhandle ▸ h.bytes
        obtain ⟨c, hmisfit, hleads⟩ :=
          ih hrest (chunkCount + 1) (totalSampleCount + samples.length) (hbytes ▸ hempty)
        exact ⟨c, hmisfit, (hemit.trans hread).trans hleads⟩
    · refine ⟨_, .inl ⟨task, List.mem_cons_self .., ?_⟩, hlook⟩
      show s.handle.maxBufferBytes < (pcmBytes samples).length
      rw [h.bytes, length_pcmBytes]
      exact not_le.mp hfits

/-- **The buffer suffices** for this audio: whatever the runtime's call and the
schedule, as long as each look of `emit_audio` finds the buffer empty, nothing
fails for the size of the buffer, and no piece is longer than declared. -/
def BufferSuffices (spec : HandleSpec) (waveform : Waveform) : Prop :=
  ∀ backend, waveform.Of backend → ∀ createdAt queueWaitMs receivedAt actions,
    Run.Along (synthesisProgram backend).step (Meets Drained)
      (start (spec.handle createdAt) queueWaitMs receivedAt) actions →
    ¬ Misfit waveform
      ((synthesisProgram backend).runs (start (spec.handle createdAt) queueWaitMs receivedAt) actions)

/-- A schedule to where the audio does not fit. -/
theorem not_bufferSuffices {spec : HandleSpec} {waveform : Waveform} {c : Config SynthesisState SynthesisTask}
    (hof : waveform.Of backend) (hleads : Leads backend (start (spec.handle 0) 0 0) c)
    (hmisfit : Misfit waveform c) : ¬ BufferSuffices spec waveform := by
  intro hsuffices
  obtain ⟨actions, htakes, rfl⟩ := hleads
  have hmeets := htakes.mono fun c a h => h.meets (Q := Drained) fun _ _ _ hcalm => hcalm.1
  exact hsuffices backend hof 0 0 0 actions hmeets hmisfit

/-- What fits is cut to size in every run. -/
theorem runs_sized (spec : HandleSpec) (hchunks : ChunksWithin backend limit)
    (hlimit : min (max 1 spec.maxBufferBytes).toNat (64 * 1024) ≤ limit) (createdAt queueWaitMs receivedAt : ℚ)
    (actions : List (Action SynthesisTask SynthesisInput)) :
    let c := (synthesisProgram backend).runs (start (spec.handle createdAt) queueWaitMs receivedAt) actions
    Sized limit (max 1 spec.maxBufferBytes).toNat c.state c.bag :=
  Threads.Program.runs_of (start_sized limit spec createdAt queueWaitMs receivedAt)
    (fun _ _ _ hentry h => Sized.entry h hentry) (fun _ _ _ _ _ hrun h => Sized.run hchunks hlimit h hrun) actions

/-- NanoVLLM's arrays, on a buffer that has passed the check. -/
theorem native_suffices {spec : HandleSpec} {chunks : List (List ℚ)}
    (hdeclared : (maxStreamChunkBytes : ℤ) ≤ spec.maxBufferBytes) :
    BufferSuffices spec (.native chunks) ↔ ∀ samples ∈ chunks, 2 * samples.length ≤ maxStreamChunkBytes := by
  constructor
  · intro hsuffices
    by_contra hlarge
    push Not at hlarge
    let call : NanoVLLMCall := { prepared := .ok 16000, chunks := chunks }
    have hempty := start_emptied spec 0 0 0
    obtain ⟨s₁, hempty₁, hbackend⟩ := leads_backend (.nanovllm call) 0 hempty
    obtain ⟨s₂, hempty₂, hstarted⟩ := leads_started call 16000 rfl hempty₁
    obtain ⟨c, hmisfit, hleads⟩ := leads_misfit call 16000 chunks hlarge 0 0 hempty₂
    have hgenerate := (leads_encoded call 16000 rfl hempty₂).trans (leads_generated call 16000 rfl)
    have hof : (Waveform.native chunks).Of (.nanovllm call) := ⟨call, rfl, rfl⟩
    exact not_bufferSuffices hof (((hbackend.trans hstarted).trans hgenerate).trans hleads) hmisfit hsuffices
  · rintro hfits backend ⟨call, rfl, rfl⟩ createdAt queueWaitMs receivedAt actions - hmisfit
    have hchunks : ChunksWithin (.nanovllm call) maxStreamChunkBytes :=
      fun _ hcall => Option.some.inj hcall ▸ hfits
    have hsized := runs_sized spec hchunks (min_le_right _ _) createdAt queueWaitMs receivedAt actions
    rcases hmisfit with ⟨task, hmem, hover⟩ | ⟨event, hmem, bytes, hbytes, hlong⟩
    · refine hsized.fits ?_ ?_ task hmem hover <;> simp only [maxStreamChunkBytes] at hdeclared ⊢ <;> omega
    · have hpiece := hsized.pieces event hmem
      cases hbytes
      omega

/-- A complete result, on any buffer. -/
theorem complete_suffices {spec : HandleSpec} {sampleRateHz : ℕ} {frames : List UInt8} :
    BufferSuffices spec (.complete sampleRateHz frames) ↔ 2 ≤ spec.maxBufferBytes := by
  constructor
  · intro hsuffices
    by_contra hsmall
    let result : EngineResult := { audio := some { sampleRateHz := sampleRateHz, frames := frames } }
    let backend : Backend := .completeOnly (.ok result)
    have hempty := start_emptied spec 0 0 0
    obtain ⟨s', hempty', hbackend⟩ := leads_backend backend 0 hempty
    have hrun : Leads backend ⟨s', [[.runBackend], [.readEvent]]⟩
        ⟨{ s' with modelRaised := none }, [[.emitResult result], [.readEvent]]⟩ :=
      leads_worker (e := { state := { s' with modelRaised := none }, next := [.emitResult result] }) _
        trivial rfl rfl
    have hof : (Waveform.complete sampleRateHz frames).Of backend := ⟨result, rfl, rfl⟩
    refine not_bufferSuffices hof (hbackend.trans hrun)
      (.inl ⟨.emitResult result, List.mem_cons_self .., ?_⟩) hsuffices
    have hone : s'.handle.maxBufferBytes = 1 := by
      rw [hempty'.bytes]
      omega
    show openResult result s'.handle.maxBufferBytes = _
    rw [hone]
    rfl
  · rintro hfits backend ⟨result, hresult, haudio⟩ createdAt queueWaitMs receivedAt actions - hmisfit
    let limit := min (max 1 spec.maxBufferBytes).toNat (64 * 1024)
    have hchunks : ChunksWithin backend limit := by
      intro call hcall
      cases backend <;> first | cases hcall; done | cases hresult
    have hsized := runs_sized spec hchunks le_rfl createdAt queueWaitMs receivedAt actions
    rcases hmisfit with ⟨task, hmem, hover⟩ | ⟨event, hmem, bytes, hbytes, hlong⟩
    · exact hsized.fits (by omega) (min_le_left _ _) task hmem hover
    · cases hbytes

/-- **Where the buffer is large enough.**  What the runtime of a loaded model
declares fits the buffer.  With a consumer that empties it before each look,
nothing fails for the size of the buffer and no piece is longer than declared,
exactly when no array of NanoVLLM's is longer than declared, or, for a complete
result, the buffer holds a frame.  To fail so is to raise one of two errors. -/
theorem buffer_suffices_iff (settings : AppSettings) (loads : List RouterAction) (m hex : String) (r : RuntimeId)
    (waveform : Waveform)
    (hregistered : (RouterState.after settings loads).state.engine.runtimes.get? m = some r)
    (hfrom : waveform.From ((RouterState.after settings loads).state.runtimeTable r).toRuntimeSpec) :
    (∀ bytes ∈ waveform.declared, bytes ≤ settings.grpc.streamBufferBytes) ∧
      (BufferSuffices ((RouterState.after settings loads).state.handleSpec m hex) waveform ↔
        waveform.Fits settings.grpc.streamBufferBytes) ∧
      ∀ backend s task input, task.Oversize s →
        ∃ error ∈ sizeErrors, ∃ e, SynthesisState.run backend s task input = some e ∧
          e.next = [.release (some (.error error))] := by
  obtain ⟨hsettings, hchecked⟩ := RouterState.registered_checked settings loads
  have hbytes : ((RouterState.after settings loads).state.handleSpec m hex).maxBufferBytes =
      settings.grpc.streamBufferBytes := by rw [RouterState.handleSpec, hsettings]
  have hdeclared : ∀ bytes ∈ waveform.declared, bytes ≤ settings.grpc.streamBufferBytes := by
    intro bytes hmem
    by_contra hsmall
    refine hchecked m r hregistered ⟨bytes, hfrom.maxStreamChunkBytes ▸ hmem, ?_⟩
    rw [hsettings]
    exact not_le.mp hsmall
  refine ⟨hdeclared, ?_, oversize_raises⟩
  cases waveform with
  | native chunks => exact native_suffices (hbytes ▸ hdeclared _ rfl)
  | complete sampleRateHz frames => exact hbytes ▸ complete_suffices

/-- A load of the one model, whose runtime is of the given kind. -/
def loadOf (spec : RuntimeSpec) : List RouterAction :=
  [.call (.loadModel "m" none), .run 1 .returns, .run 1 (.subprocess (.ok none)), .run 1 (.built spec),
    .run 1 .returns, .run 1 .returns, .run 1 .returns, .run 1 .returns, .run 1 (.subprocess (.ok none)),
    .run 1 .returns]

/-- NanoVLLM's. -/
def nativeLoad : List RouterAction := loadOf { maxStreamChunkBytes := some 65536 }

/-- A runtime's without a `synthesize_stream`. -/
def completeLoad : List RouterAction := loadOf { streaming := false }

/-- Two samples, on the default buffer. -/
theorem buffer_suffices_two_samples : BufferSuffices
    ((RouterState.after RouterState.oneModel nativeLoad).state.handleSpec "m" "test") (.native [[1, 1 / 2]]) :=
  (buffer_suffices_iff RouterState.oneModel nativeLoad "m" "test" 0 (.native [[1, 1 / 2]]) (by decide +kernel)
    ⟨by decide +kernel, by decide +kernel⟩).2.1.mpr (List.forall_mem_singleton.mpr (by decide))

/-- A document that asks for a buffer of one byte. -/
def smallBuffer : JsonDocument where
  value := .object [("service", .object [("grpc", .object [("stream_buffer_bytes", .int 1)])])]
  uniqueKeys := by simp [Json.UniqueKeys, Json.UniqueKeysEntries, Json.UniqueKeysEntry]

/-- Settings with such a buffer. -/
def oneByte : AppSettings := { RouterState.oneModel with grpc := { streamBufferBytes := 1 } }

/-- `load_settings` accepts it. -/
theorem loadSettings_smallBuffer : ∃ settings, Settings.loadSettings (some smallBuffer) none = .ok settings ∧
    settings.service.grpc.router? = some oneByte.grpc := by
  have hrouter : (Settings.loadSettings (some smallBuffer) none).toOption.map (·.service.grpc.router?) =
      some (some oneByte.grpc) := by decide +kernel
  cases hload : Settings.loadSettings (some smallBuffer) none with
  | error e => simp [hload, Except.toOption] at hrouter
  | ok settings => exact ⟨settings, rfl, by simpa [hload, Except.toOption] using hrouter⟩

/-- **A model is loaded on a buffer that holds no frame**, and every WAV fails for
it; and an array of 32769 samples does not fit the largest chunk that NanoVLLM
declares, nor a buffer of that size. -/
theorem buffer_does_not_suffice :
    ((∃ settings, Settings.loadSettings (some smallBuffer) none = .ok settings ∧
        settings.service.grpc.router? = some oneByte.grpc) ∧
      (RouterState.after oneByte completeLoad).state.lifecycle? "m" = some .loaded ∧
      ¬ BufferSuffices ((RouterState.after oneByte completeLoad).state.handleSpec "m" "test")
        (.complete 16000 [0, 0])) ∧
    (RouterState.after RouterState.oneModel nativeLoad).state.lifecycle? "m" = some .loaded ∧
      ¬ BufferSuffices ((RouterState.after RouterState.oneModel nativeLoad).state.handleSpec "m" "test")
        (.native [List.replicate 32769 0]) := by
  refine ⟨⟨loadSettings_smallBuffer, by decide +kernel, ?_⟩, by decide +kernel, ?_⟩
  · rw [complete_suffices]
    decide +kernel
  · rw [native_suffices (by decide +kernel)]
    intro hfits
    have hlong := hfits _ (List.mem_singleton_self _)
    rw [List.length_replicate] at hlong
    exact absurd hlong (by decide)

end SynthesisState
end TtsPool
