/-
# Complete results stream without loss, and as native streams do

A complete result is one WAV file, which `_emit_complete_result` cuts for the buffer
on its way into the stream; NanoVLLM's `synthesize_stream` sends the arrays that
`generate` yields as they come.  Either way the stream's script (`Synthesis.Script`)
is the sample rate, the audio in its order, and its number of samples.

`complete_stream_lossless`: under a consumer that keeps draining, a mono 16-bit file
goes out frame by frame, in pieces as long as the buffer and 64 KiB allow; and what
NanoVLLM's `synthesize` returns, sent that way, is what `synthesize_stream` sends,
the same audio at the same rate with the same count, or the same failure.
-/

import TtsPool.Synthesis.Draining
import Mathlib.Data.Nat.Pairing

namespace TtsPool

open Threads (Effect Config Action)
open Threads.Program (Fair turns)

/-- The result is a mono 16-bit PCM file of so many frames. -/
structure EngineResult.Mono (result : EngineResult) (source : WaveRead) (frameCount : ℕ) : Prop where
  mimeType : result.mimeType = "audio/wav" ∨ result.mimeType = "audio/x-wav"
  audio : result.audio = some source
  channelCount : source.channelCount = 1
  sampleWidth : source.sampleWidth = 2
  compressionType : source.compressionType = "NONE"
  frames : source.frames.length = 2 * frameCount

/-- The longest piece of whole frames for a buffer of so many bytes. -/
def longestPiece (maxBufferBytes : ℕ) : ℕ := min maxBufferBytes (64 * 1024) / 2 * 2

/-- What is seen of a stream that has come to a good end: its rate, its chunks, and
the count of samples it reports. -/
structure Delivers (s : SynthesisState) (sampleRateHz : ℤ) (chunks : List (List UInt8)) (totalSampleCount : ℤ) :
    Prop where
  error : s.handle.error = none
  said : s.said = .started sampleRateHz :: chunks.map .audio
  completed : ∃ completed, .completed completed ∈ s.delivery.appended ∧
    completed.totalSampleCount = totalSampleCount

/-- A synthesis whose consumer keeps draining, from a handle of two bytes or more. -/
structure DrainedRun where
  spec : HandleSpec
  createdAt : ℚ
  queueWaitMs : ℚ
  receivedAt : ℚ
  actions : List (Action SynthesisTask SynthesisInput)
  schedule : ℕ → ℕ × SynthesisInput
  two : 2 ≤ (spec.handle createdAt).maxBufferBytes
  draining : ∀ a ∈ actions, Draining a
  fair : Fair Draining schedule

namespace DrainedRun

def maxBufferBytes (run : DrainedRun) : ℕ := (run.spec.handle run.createdAt).maxBufferBytes

/-- Where the synthesis is after so many turns of the schedule. -/
def after (run : DrainedRun) (backend : Backend) (n : ℕ) : SynthesisState :=
  ((synthesisProgram backend).runs (SynthesisState.start (run.spec.handle run.createdAt) run.queueWaitMs run.receivedAt)
    (run.actions ++ turns run.schedule n)).state

theorem told (run : DrainedRun) {backend : Backend} (hyields : backend.Yields)
    (hchunks : SynthesisState.ChunksWithin backend run.maxBufferBytes) :
    ∃ n, SynthesisState.Told (backend.script run.maxBufferBytes) (run.after backend n) :=
  SynthesisState.told_of_fair hyields run.spec run.createdAt run.queueWaitMs run.receivedAt run.two hchunks
    run.draining run.fair

/-- A complete result has no calls of the server to wait for. -/
theorem told_complete (run : DrainedRun) (result : Except EngineError EngineResult) :
    ∃ n, SynthesisState.Told (completeScript run.maxBufferBytes result) (run.after (.completeOnly result) n) :=
  have hyields : (Backend.completeOnly result).Yields := fun _ hcall => nomatch hcall
  run.told hyields (fun _ hcall => nomatch hcall)

end DrainedRun

/-- A script told to its good end. -/
theorem SynthesisState.Told.delivers {s : SynthesisState} {script : Script} {sampleRateHz totalSampleCount : ℤ}
    {chunks : List (List UInt8)} (h : Told script s)
    (hsounds : script.sounds = .started sampleRateHz :: chunks.map .audio)
    (houtcome : script.outcome = .ok totalSampleCount) : Delivers s sampleRateHz chunks totalSampleCount := by
  rcases h.outcome with ⟨error, herror, -⟩ | ⟨completed, hcompleted, herror, hmem⟩
  · cases houtcome.symm.trans herror
  · refine ⟨herror, h.sounds.trans hsounds, completed, hmem, ?_⟩
    exact (Except.ok.inj (houtcome.symm.trans hcompleted)).symm

/-- A script told to its bad end. -/
theorem SynthesisState.Told.fails {s : SynthesisState} {script : Script} {error : EngineError} (h : Told script s)
    (houtcome : script.outcome = .error error) : s.handle.error = some error := by
  rcases h.outcome with ⟨error', herror, heq⟩ | ⟨completed, hcompleted, -, -⟩
  · obtain rfl := Except.error.inj (houtcome.symm.trans herror)
    exact heq
  · cases houtcome.symm.trans hcompleted

/-! ### The script of a WAV file -/

namespace EngineResult

variable {result : EngineResult} {source : WaveRead} {frameCount maxBufferBytes : ℕ}

/-- The file is opened and cut into whole frames. -/
theorem Mono.openResult (h : result.Mono source frameCount) (htwo : 2 ≤ maxBufferBytes) :
    ∃ emission : WaveEmission, openResult result maxBufferBytes = .ok (emission, source.frames) ∧
      emission.result = result ∧ emission.sampleRateHz = source.sampleRateHz ∧ emission.frameBytes = 2 ∧
      emission.framesPerChunk * emission.frameBytes = longestPiece maxBufferBytes := by
  have hmime : ¬ (result.mimeType ≠ "audio/wav" ∧ result.mimeType ≠ "audio/x-wav") := by
    rcases h.mimeType with heq | heq <;> simp [heq]
  have hformat : ¬ (source.channelCount ≠ 1 ∨ source.sampleWidth ≠ 2 ∨ source.compressionType ≠ "NONE") := by
    simp [h.channelCount, h.sampleWidth, h.compressionType]
  refine ⟨⟨result, source.sampleRateHz, source.channelCount, source.channelCount * source.sampleWidth,
    (min maxBufferBytes (64 * 1024) - min maxBufferBytes (64 * 1024) % (source.channelCount * source.sampleWidth)) /
      (source.channelCount * source.sampleWidth)⟩, ?_, rfl, rfl, ?_, ?_⟩
  · simp only [TtsPool.openResult, if_neg hmime, h.audio, if_neg hformat]
    rw [if_neg]
    simp only [h.channelCount, h.sampleWidth]
    omega
  · simp only [h.channelCount, h.sampleWidth]
  · simp only [h.channelCount, h.sampleWidth, longestPiece]
    omega

/-- **The script of a WAV file**: its frames in pieces, and their number. -/
theorem Mono.script (h : result.Mono source frameCount) (htwo : 2 ≤ maxBufferBytes) :
    (result.script maxBufferBytes).sounds =
        .started source.sampleRateHz :: (pieces (longestPiece maxBufferBytes) source.frames).map .audio ∧
      (0 < source.sampleRateHz ∨ result.durationMs.isSome →
        (result.script maxBufferBytes).outcome = .ok (frameCount : ℤ)) := by
  obtain ⟨emission, hopen, hresult, hrate, hframe, hlongest⟩ := h.openResult htwo
  have hpieces : emission.pieces source.frames = pieces (longestPiece maxBufferBytes) source.frames := by
    rw [WaveEmission.pieces, hlongest]
  have hscript : result.script maxBufferBytes =
      (emission.rest 0 0 source.frames).after [.started source.sampleRateHz] := by
    rw [EngineResult.script, hopen, ← hrate]
  have htotal :
      ((pieces (longestPiece maxBufferBytes) source.frames).map fun pcm => pcm.length / 2).sum = frameCount := by
    rw [sum_units_pieces (by unfold longestPiece; omega)
      (show 2 ∣ longestPiece maxBufferBytes from Nat.dvd_mul_left ..)
      ⟨frameCount, h.frames⟩, h.frames]
    omega
  rw [hscript]
  constructor
  · simp [Script.after, WaveEmission.rest, hpieces]
  · intro hrated
    simp only [Script.after, WaveEmission.rest, hpieces, hframe, htotal, zero_add]
    have hcounts : ∀ completed, emission.finish (pieces (longestPiece maxBufferBytes) source.frames).length frameCount =
        .ok completed → completed.totalSampleCount = frameCount := fun completed hok =>
      (WaveEmission.finish_counts hok).2
    cases hfinish : emission.finish (pieces (longestPiece maxBufferBytes) source.frames).length frameCount with
    | ok completed => exact congrArg Except.ok (hcounts completed hfinish)
    | error error =>
      -- a rate that is not zero, or a duration that is known, leaves nothing to fail
      unfold WaveEmission.finish at hfinish
      rw [hresult, hrate] at hfinish
      rcases hrated with hpos | hduration
      · cases hms : result.durationMs with
        | some ms => simp [hms] at hfinish
        | none => simp [hms, hpos.ne'] at hfinish
      · obtain ⟨ms, hms⟩ := Option.isSome_iff_exists.mp hduration
        simp [hms] at hfinish

end EngineResult

/-! ### The two deliveries of NanoVLLM -/

namespace NanoVLLMCall

variable {call : NanoVLLMCall} {sampleRateHz : ℤ} {error : EngineError}

theorem prepareSynthesis_pos (h : call.prepareSynthesis = .ok sampleRateHz) : 0 < sampleRateHz := by
  unfold prepareSynthesis at h
  cases hprepared : call.prepared with
  | error error => simp [hprepared] at h
  | ok rate =>
    simp only [hprepared] at h
    split_ifs at h with hrate
    cases h
    omega

theorem script_eq (call : NanoVLLMCall) (sampleRateHz : ℤ) : call.script sampleRateHz =
    ⟨.started sampleRateHz :: (call.chunks.map pcmBytes).map .audio,
      (call.result sampleRateHz call.chunks.length call.chunks.flatten.length).map
        RuntimeStreamResult.totalSampleCount⟩ := by
  simp [script, rest, Script.after, Function.comp_def]

theorem length_flatten_pcmBytes (chunks : List (List ℚ)) :
    (chunks.map pcmBytes).flatten.length = 2 * chunks.flatten.length := by
  induction chunks with
  | nil => rfl
  | cons samples chunks ih => simp [ih, Nat.mul_add]

/-- **Two chunkings of the same samples**: what `synthesize` returns has, as a
complete result, the rate, the audio and the count of the stream. -/
theorem scripts_agree (hprepare : call.prepareSynthesis = .ok sampleRateHz) (hraises : call.raises = none)
    (hchunks : call.chunks ≠ []) :
    ∃ result, call.synthesize = some (.ok result) ∧
      (call.script sampleRateHz).sounds = .started sampleRateHz :: (call.chunks.map pcmBytes).map .audio ∧
      (call.script sampleRateHz).outcome = .ok (call.chunks.flatten.length : ℤ) ∧
      ∀ maxBufferBytes, 2 ≤ maxBufferBytes → ∃ chunks : List (List UInt8),
        (result.script maxBufferBytes).sounds = .started sampleRateHz :: chunks.map .audio ∧
        (result.script maxBufferBytes).outcome = .ok (call.chunks.flatten.length : ℤ) ∧
        chunks.flatten = (call.chunks.map pcmBytes).flatten := by
  have hlength : call.chunks.length ≠ 0 := fun h => hchunks (List.length_eq_zero_iff.mp h)
  have hpos := prepareSynthesis_pos hprepare
  set frames := (call.chunks.map pcmBytes).flatten with hframes
  set source : WaveRead := { sampleRateHz := sampleRateHz.toNat, frames := frames } with hsource
  set result : EngineResult :=
    { audio := some source
      sampleRateHz := some sampleRateHz
      durationMs := some (durationMs call.chunks.flatten.length sampleRateHz)
      metrics := call.metrics.set "nanovllm_chunks" (some call.chunks.length)
      metadata := call.metadata.set "native_streaming" (.bool true) } with hresult
  have hsynthesize : call.synthesize = some (.ok result) := by
    rw [synthesize, hprepare]
    simp only [hraises, NanoVLLMCall.result, if_neg hlength, hresult, hsource, hframes]
  have hmono : result.Mono source call.chunks.flatten.length :=
    ⟨.inl rfl, rfl, rfl, rfl, rfl, length_flatten_pcmBytes call.chunks⟩
  refine ⟨result, hsynthesize, ?_, ?_, fun maxBufferBytes htwo => ?_⟩
  · rw [script_eq]
  · rw [script_eq, NanoVLLMCall.result, if_neg hlength]
    rfl
  · obtain ⟨hsounds, houtcome⟩ := hmono.script htwo
    refine ⟨pieces (longestPiece maxBufferBytes) frames, ?_, houtcome (.inr rfl), ?_⟩
    · rw [hsounds, hsource]
      simp only [Int.toNat_of_nonneg hpos.le]
    · exact flatten_pieces (by unfold longestPiece; omega) frames

/-- A call that fails without an exception of the server's. -/
theorem synthesize_fails (hraises : call.raises = none)
    (h : call.prepareSynthesis = .error error ∨
      (∃ sampleRateHz, call.prepareSynthesis = .ok sampleRateHz) ∧ call.chunks = [] ∧
        error = .valueError "NanoVLLM VoxCPM returned no audio chunks") (maxBufferBytes : ℕ) :
    call.synthesize = some (.error error) ∧ ((Backend.nanovllm call).script maxBufferBytes).outcome = .error error := by
  rcases h with hprepare | ⟨⟨sampleRateHz, hprepare⟩, hchunks, rfl⟩
  · rw [synthesize, Backend.script, hprepare]
    exact ⟨rfl, rfl⟩
  · constructor
    · rw [synthesize, hprepare]
      simp [hraises, result, hchunks]
    · rw [Backend.script, hprepare]
      simp only [script_eq, result, hchunks, List.length_nil, if_true]
      rfl

end NanoVLLMCall

/-! ### Both together -/

/-- **Complete results stream without loss, and as native streams do.**  A drained
complete result comes to its end with the frames of its file sent in order, in whole
frames, none empty, all but the last as long as buffer and 64 KiB allow; and it
reports their number, unless a file of no rate leaves no duration to report.  And what
NanoVLLM's `synthesize` returns, sent so, ends with the audio, the rate and the count
of its stream, or with the same exception, as it does where there are no chunks. -/
theorem complete_stream_lossless :
    (∀ (run : DrainedRun) (result : EngineResult) (source : WaveRead) (frameCount : ℕ),
      result.Mono source frameCount → ∃ n, ∃ chunks : List (List UInt8),
        let s := run.after (.completeOnly (.ok result)) n
        (s.handle.terminal = true ∧ s.said = .started source.sampleRateHz :: chunks.map .audio) ∧
        chunks.flatten = source.frames ∧
        (∀ pcm ∈ chunks, pcm ≠ [] ∧ pcm.length % 2 = 0 ∧ pcm.length ≤ min run.maxBufferBytes (64 * 1024)) ∧
        (∀ pcm ∈ chunks.dropLast, pcm.length = longestPiece run.maxBufferBytes) ∧
        (0 < source.sampleRateHz ∨ result.durationMs.isSome →
          Delivers s source.sampleRateHz chunks frameCount)) ∧
    ∀ (native complete : DrainedRun) (call : NanoVLLMCall) (result : Except EngineError EngineResult),
      call.raises = none → call.synthesize = some result →
      (∀ samples ∈ call.chunks, (pcmBytes samples).length ≤ native.maxBufferBytes) → ∃ n m,
        let s := native.after (.nanovllm call) n
        let s' := complete.after (.completeOnly result) m
        (s.handle.terminal = true ∧ s'.handle.terminal = true) ∧
        (call.chunks ≠ [] → ∀ sampleRateHz, call.prepareSynthesis = .ok sampleRateHz →
          Delivers s sampleRateHz (call.chunks.map pcmBytes) call.chunks.flatten.length ∧
            ∃ chunks, Delivers s' sampleRateHz chunks call.chunks.flatten.length ∧
              chunks.flatten = (call.chunks.map pcmBytes).flatten) ∧
        (call.chunks = [] ∨ (∃ error, call.prepareSynthesis = .error error) →
          ∃ error, s.handle.error = some error ∧ s'.handle.error = some error) := by
  constructor
  · intro run result source frameCount hmono
    obtain ⟨n, htold⟩ := run.told_complete (.ok result)
    obtain ⟨hsounds, houtcome⟩ := hmono.script run.two
    have hlongest : 0 < longestPiece run.maxBufferBytes := by
      have := run.two
      unfold longestPiece DrainedRun.maxBufferBytes
      omega
    have htwo : 2 ∣ longestPiece run.maxBufferBytes := Nat.dvd_mul_left ..
    refine ⟨n, pieces (longestPiece run.maxBufferBytes) source.frames, ⟨htold.terminal, htold.sounds.trans hsounds⟩,
      flatten_pieces hlongest _, fun pcm hmem => ⟨ne_nil_of_mem_pieces hmem, ?_, ?_⟩,
      fun pcm hmem => length_of_mem_dropLast_pieces hmem, fun hrated => ?_⟩
    · exact Nat.mod_eq_zero_of_dvd (dvd_length_of_mem_pieces htwo ⟨frameCount, hmono.frames⟩ hmem)
    · exact (length_le_of_mem_pieces hmem).trans (Nat.div_mul_le_self ..)
    · exact htold.delivers hsounds (houtcome hrated)
  · intro native complete call result hraises hresult hfits
    have hyields : (Backend.nanovllm call).Yields := by
      rintro call' ⟨⟩
      exact hraises
    have hchunks : SynthesisState.ChunksWithin (.nanovllm call) native.maxBufferBytes := by
      rintro call' ⟨⟩ samples hmem
      exact (length_pcmBytes samples).symm.trans_le (hfits samples hmem)
    obtain ⟨n, htold⟩ := native.told hyields hchunks
    obtain ⟨m, htold'⟩ := complete.told_complete result
    refine ⟨n, m, ⟨htold.terminal, htold'.terminal⟩, fun hne sampleRateHz hprepare => ?_, fun hfails => ?_⟩
    · obtain ⟨result', hresult', hsounds, houtcome, hcomplete⟩ := NanoVLLMCall.scripts_agree hprepare hraises hne
      obtain rfl := Option.some.inj (hresult'.symm.trans hresult)
      obtain ⟨chunks, hsounds', houtcome', hflatten⟩ := hcomplete complete.maxBufferBytes complete.two
      rw [Backend.script, hprepare] at htold
      exact ⟨htold.delivers hsounds houtcome, chunks, htold'.delivers hsounds' houtcome', hflatten⟩
    · -- without an error of its preparation there are no chunks
      have hcases : ∃ error, call.prepareSynthesis = .error error ∨
          (∃ sampleRateHz, call.prepareSynthesis = .ok sampleRateHz) ∧ call.chunks = [] ∧
            error = .valueError "NanoVLLM VoxCPM returned no audio chunks" := by
        cases hprepare : call.prepareSynthesis with
        | error error => exact ⟨error, .inl rfl⟩
        | ok sampleRateHz =>
          rcases hfails with hnone | ⟨error, herror⟩
          · exact ⟨_, .inr ⟨⟨sampleRateHz, rfl⟩, hnone, rfl⟩⟩
          · cases hprepare.symm.trans herror
      obtain ⟨error, hcase⟩ := hcases
      obtain ⟨hresult', houtcome⟩ := NanoVLLMCall.synthesize_fails hraises hcase native.maxBufferBytes
      obtain rfl := Option.some.inj (hresult'.symm.trans hresult)
      exact ⟨error, htold.fails houtcome, htold'.fails rfl⟩

/-- Every thread has its turn again and again, over a buffer of four bytes. -/
def takingTurns : DrainedRun where
  spec := ⟨"ttsresp_test", "test-model", 1, 4, 1, []⟩
  createdAt := 0
  queueWaitMs := 0
  receivedAt := 0
  actions := []
  schedule := fun n => ((Nat.unpair n).1, { remaining := 1 })
  two := by decide
  draining := List.forall_mem_nil _
  fair :=
    { allowed := fun _ => ⟨rfl, rfl, one_pos⟩
      turns := fun thread n => ⟨Nat.pair thread n, Nat.right_le_pair thread n, by rw [Nat.unpair_pair]⟩ }

/-- Three frames, as one file and as two arrays. -/
theorem complete_stream_lossless_three_frames :
    (∃ n, ∃ chunks : List (List UInt8), chunks.flatten = [1, 2, 3, 4, 5, 6] ∧
      Delivers (takingTurns.after (.completeOnly (.ok
        { audio := some { sampleRateHz := 16000, frames := [1, 2, 3, 4, 5, 6] } })) n) 16000 chunks 3) ∧
    let call : NanoVLLMCall := { prepared := .ok 16000, chunks := [[1 / 2], [0, 1]] }
    ∃ n, Delivers (takingTurns.after (.nanovllm call) n) 16000 [[255, 63], [0, 0, 255, 127]] 3 := by
  obtain ⟨hcomplete, hagree⟩ := complete_stream_lossless
  constructor
  · obtain ⟨n, chunks, -, hflatten, -, -, hdelivers⟩ := hcomplete takingTurns
      { audio := some { sampleRateHz := 16000, frames := [1, 2, 3, 4, 5, 6] } } _ 3
      ⟨.inl rfl, rfl, rfl, rfl, rfl, rfl⟩
    exact ⟨n, chunks, hflatten, hdelivers (.inl (by decide))⟩
  · intro call
    obtain ⟨n, m, -, hdelivers, -⟩ := hagree takingTurns takingTurns call _ rfl rfl (by decide +kernel)
    have hpcm : call.chunks.map pcmBytes = [[255, 63], [0, 0, 255, 127]] := by decide +kernel
    exact ⟨n, hpcm ▸ (hdelivers (by decide) 16000 rfl).1⟩

end TtsPool
