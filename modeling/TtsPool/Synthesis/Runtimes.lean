/-
# What the runtimes do with a model

The four runtimes of `app/engine`, as far as a synthesis goes through them: the
calls they make of a model, what they make of its samples, and the exceptions
they pass on.  A model is a third party's code.  What its calls return or raise
is recorded in a structure per runtime, together with what the runtime does
before them, which reads the request and the settings and may raise as well;
of its own it is read as one outcome.  The texts and the conditions are the
source's.

A sample is a rational number for NumPy's `float32`, durations are computed in
doubles, and what the clock and the settings put into metrics and metadata comes
with the call.  Bytes of a WAV file are read as `wave.open` reads them.
-/

import TtsPool.Stream.Handle
import TtsPool.Support.Rounding
import Mathlib.Algebra.Order.Floor.Ring
import Mathlib.Data.Rat.Floor

namespace TtsPool

/-! ### Exceptions of other people's code -/

/-- What `str` makes of an exception: its text, or it raises one itself, of that class
and with that text. -/
inductive ErrorText where
  | text (message : String)
  | raises (className message : String)
deriving DecidableEq

instance : Coe String ErrorText := ⟨.text⟩

/-- `str` does not raise. -/
def ErrorText.Printable : ErrorText → Prop
  | .text _ => True
  | .raises _ _ => False

/-- An exception out of the standard library or a third party's code, by what an
`except` clause, a coroutine or an event loop tells apart.  Nobody asks for the text of
a `StopIteration`: it ends a loop, or a coroutine replaces it. -/
inductive LibraryError where
  /-- `ValueError`, or a class derived from it. -/
  | valueError (message : ErrorText)
  | stopIteration (message : String)
  | stopAsyncIteration (message : ErrorText)
  /-- `concurrent.futures.CancelledError` itself. -/
  | futuresCancelled (message : String)
  | other (className : String) (message : ErrorText)
deriving DecidableEq

/-- An exception of that class, of which nothing else is known. -/
def ErrorText.toEngineError (className : String) : ErrorText → EngineError
  | .text message => .other className message
  | .raises raisedClassName raisedMessage => .unprintable className raisedClassName raisedMessage

/-- The exception among those the engine knows. -/
def LibraryError.toEngineError : LibraryError → EngineError
  | .valueError (.text message) => .valueError message
  | .valueError message => message.toEngineError "ValueError"
  | .stopIteration message => .other "StopIteration" message
  | .stopAsyncIteration message => message.toEngineError "StopAsyncIteration"
  | .futuresCancelled message => .other "CancelledError" message
  | .other className message => message.toEngineError className

/-- The exception a coroutine ends with when its body raises one. -/
def EngineError.throughCoroutine : EngineError → EngineError
  | .other "StopIteration" _ => .runtimeError "coroutine raised StopIteration"
  | error => error

/-- What `_run_on_loop` raises for an exception of the coroutine's body: the
future turns `concurrent.futures.CancelledError` into asyncio's, which is no
`Exception` (`none`). -/
def LibraryError.throughLoop : LibraryError → Option EngineError
  | .futuresCancelled _ => none
  | error => some error.toEngineError.throughCoroutine

/-- The calls of a model that a runtime makes. -/
inductive ModelCall where
  | encodeLatents
  | generate
  | nextChunk
  | voxcpm2Generate
  | kokoroPipeline
  | kokoroNext
deriving DecidableEq

/-- The call is made in a coroutine on NanoVLLM's loop. -/
def ModelCall.onLoop : ModelCall → Bool
  | .encodeLatents | .generate | .nextChunk => true
  | .voxcpm2Generate | .kokoroPipeline | .kokoroNext => false

/-! ### Samples and WAV files -/

/-- `(samples * 32767.0).astype("<i2")` of a clipped sample: the cast cuts the
fraction off.  The product is exact here; NumPy's is rounded to a `float32`, which may
be an integer where the product is not, and then comes out one away from this. -/
def quantize (sample : ℚ) : ℤ :=
  let scaled := max (-1) (min 1 sample) * 32767
  scaled.num.tdiv scaled.den

/-- `tobytes` of a 16-bit integer, the low byte first. -/
def int16Bytes (value : ℤ) : List UInt8 :=
  [UInt8.ofNat (value % 256).toNat, UInt8.ofNat (value / 256 % 256).toNat]

/-- The PCM of an array of samples. -/
def pcmBytes (samples : List ℚ) : List UInt8 := samples.flatMap fun sample => int16Bytes (quantize sample)

@[simp] theorem length_pcmBytes (samples : List ℚ) : (pcmBytes samples).length = 2 * samples.length := by
  induction samples with
  | nil => rfl
  | cons sample samples ih => simpa [pcmBytes, int16Bytes, Nat.mul_succ] using ih

/-- What `wave.open` reads of a file. -/
structure WaveRead where
  channelCount : ℕ := 1
  sampleWidth : ℕ := 2
  sampleRateHz : ℕ
  compressionType : String := "NONE"
  frames : List UInt8

/-- `EngineResult`; `audio` as `wave.open` reads it, `none` where that raises
`EOFError` or `wave.Error`. -/
structure EngineResult where
  audio : Option WaveRead
  mimeType : String := "audio/wav"
  sampleRateHz : Option ℤ := none
  durationMs : Option ℤ := none
  metrics : Dict String (Option ℚ) := Dict.empty
  metadata : Dict String MetadataValue := Dict.empty

/-- `int(sample_count / sample_rate_hz * 1000)`, a quotient and a product of doubles, of
numbers that are doubles themselves. -/
def durationMs (sampleCount : ℕ) (sampleRateHz : ℤ) : ℤ :=
  ⌊binary64.round (binary64.round (sampleCount / sampleRateHz) * 1000)⌋

/-- The WAV file written of an array of samples. -/
def wavOf (samples : List ℚ) (sampleRateHz : ℕ) : WaveRead where
  sampleRateHz := sampleRateHz
  frames := pcmBytes samples

/-! ### NanoVLLM -/

/-- A call of `synthesize_stream`, by what it meets: the sample rate
`_prepare_synthesis` finds in the model's info, or what it raises; whether there
is reference audio to encode; the arrays `generate` yields; and of each call of
the server what it raises, if it does. -/
structure NanoVLLMCall where
  prepared : Except EngineError ℤ
  referenceWav : Bool := false
  encodeLatents : Option LibraryError := none
  generate : Option LibraryError := none
  chunks : List (List ℚ)
  ending : Option LibraryError := none
  metrics : Dict String (Option ℚ) := Dict.empty
  metadata : Dict String MetadataValue := Dict.empty

namespace NanoVLLMCall

/-- `_prepare_synthesis`. -/
def prepareSynthesis (call : NanoVLLMCall) : Except EngineError ℤ :=
  match call.prepared with
  | .error error => .error error
  | .ok sampleRateHz =>
    if sampleRateHz ≤ 0 then .error (.valueError "NanoVLLM VoxCPM model did not expose a valid sample rate")
    else .ok sampleRateHz

/-- What follows the loop over the chunks in `_generate_pcm_async`. -/
def result (call : NanoVLLMCall) (sampleRateHz : ℤ) (chunkCount totalSampleCount : ℕ) :
    Except EngineError RuntimeStreamResult :=
  if chunkCount = 0 then .error (.valueError "NanoVLLM VoxCPM returned no audio chunks")
  else .ok
    { totalSampleCount := totalSampleCount
      durationMs := durationMs totalSampleCount sampleRateHz
      chunkCount := chunkCount
      metrics := call.metrics.set "nanovllm_chunks" (some chunkCount)
      metadata := call.metadata.set "native_streaming" (.bool true) }

/-- The exception that ends `_generate_pcm_async` before its result; for the loop over
the chunks a `StopAsyncIteration` is the end. -/
def raises (call : NanoVLLMCall) : Option LibraryError :=
  (if call.referenceWav then call.encodeLatents else none) <|> call.generate <|>
    match call.ending with
    | some (.stopAsyncIteration _) => none
    | ending => ending

/-- `synthesize`, on what `synthesize_stream` would meet; `none` for an exception that
`_run_job` does not catch.  Three more metrics are the clock's. -/
def synthesize (call : NanoVLLMCall) : Option (Except EngineError EngineResult) :=
  match call.prepareSynthesis with
  | .error error => some (.error error)
  | .ok sampleRateHz =>
    match call.raises with
    | some error => error.throughLoop.map .error
    | none =>
      match call.result sampleRateHz call.chunks.length call.chunks.flatten.length with
      | .error error => some (.error error)
      | .ok result => some (.ok
        { audio := some { sampleRateHz := sampleRateHz.toNat, frames := (call.chunks.map pcmBytes).flatten }
          sampleRateHz := some sampleRateHz
          durationMs := some result.durationMs
          metrics := result.metrics
          metadata := result.metadata })

theorem result_counts {call : NanoVLLMCall} {sampleRateHz : ℤ} {chunkCount totalSampleCount : ℕ}
    {result : RuntimeStreamResult} (h : call.result sampleRateHz chunkCount totalSampleCount = .ok result) :
    result.chunkCount = chunkCount ∧ result.totalSampleCount = totalSampleCount := by
  unfold NanoVLLMCall.result at h
  split_ifs at h
  cases h
  exact ⟨rfl, rfl⟩

end NanoVLLMCall

/-! ### Complete-only runtimes -/

/-- A call of VoxCPM2's `synthesize`: what its preparation raises, if it does,
the array `generate` returns (`none` for one of another shape) or the exception
it raises, and the model's sample rate. -/
structure VoxCPM2Call where
  prepared : Option EngineError := none
  generate : Except LibraryError (Option (List ℚ))
  sampleRateHz : ℕ
  metrics : Dict String (Option ℚ) := Dict.empty
  metadata : Dict String MetadataValue := Dict.empty

namespace VoxCPM2Call

/-- `synthesize`. -/
def synthesize (call : VoxCPM2Call) : Except EngineError EngineResult :=
  match call.prepared, call.generate with
  | some error, _ => .error error
  | none, .error error => .error error.toEngineError
  | none, .ok audio =>
    if call.sampleRateHz = 0 then .error (.valueError "VoxCPM2 model did not expose a valid sample rate")
    else
      match audio with
      | none => .error (.valueError "VoxCPM2 returned unsupported audio shape")
      | some samples => .ok
        { audio := some (wavOf samples call.sampleRateHz)
          sampleRateHz := some call.sampleRateHz
          durationMs := some (durationMs samples.length call.sampleRateHz)
          metrics := call.metrics
          metadata := call.metadata }

/-- The call of the model that raises. -/
def modelRaised (call : VoxCPM2Call) : Option ModelCall :=
  match call.prepared, call.generate with
  | none, .error _ => some .voxcpm2Generate
  | _, _ => none

end VoxCPM2Call

/-- A call of Kokoro's `synthesize`: what its preparation and the call of the
pipeline raise, if they do, what `next` gives of audio each time, and what it
raises at last where that is not the iterator's own end. -/
structure KokoroCall where
  prepared : Option EngineError := none
  pipeline : Option LibraryError := none
  results : List (Option (List ℚ))
  ending : Option LibraryError := none
  metrics : Dict String (Option ℚ) := Dict.empty
  metadata : Dict String MetadataValue := Dict.empty

namespace KokoroCall

/-- `synthesize`; the loop takes any `StopIteration` for the iterator's end. -/
def synthesize (call : KokoroCall) : Except EngineError EngineResult :=
  match call.prepared, call.pipeline with
  | some error, _ => .error error
  | none, some error => .error error.toEngineError
  | none, none =>
    match call.ending with
    | some (.valueError message) => .error (LibraryError.valueError message).toEngineError
    | some (.stopAsyncIteration message) => .error (LibraryError.stopAsyncIteration message).toEngineError
    | some (.futuresCancelled message) => .error (LibraryError.futuresCancelled message).toEngineError
    | some (.other className message) => .error (LibraryError.other className message).toEngineError
    | some (.stopIteration _) | none =>
      let chunks := call.results.filterMap id
      if chunks = [] then .error (.valueError "Kokoro returned no audio")
      else .ok
        { audio := some (wavOf chunks.flatten 24000)
          sampleRateHz := some 24000
          durationMs := some (durationMs chunks.flatten.length 24000)
          metrics := call.metrics.set "kokoro_chunks" (some chunks.length)
          metadata := call.metadata }

/-- The call of the model that raises. -/
def modelRaised (call : KokoroCall) : Option ModelCall :=
  match call.prepared, call.pipeline with
  | some _, _ => none
  | none, some _ => some .kokoroPipeline
  | none, none => call.ending.map fun _ => .kokoroNext

end KokoroCall

/-- The runtime that serves a synthesis; `completeOnly` for the stub, and for any
other that has no `synthesize_stream`. -/
inductive Backend where
  | nanovllm (call : NanoVLLMCall)
  | voxcpm2 (call : VoxCPM2Call)
  | kokoro (call : KokoroCall)
  | completeOnly (result : Except EngineError EngineResult)

namespace Backend

/-- `synthesize_stream`, where the runtime has one. -/
def streamFn : Backend → Option NanoVLLMCall
  | .nanovllm call => some call
  | _ => none

/-- What a runtime without a `synthesize_stream` returns as its complete result. -/
def completeFn : Backend → Option (Except EngineError EngineResult)
  | .nanovllm _ => none
  | .voxcpm2 call => some call.synthesize
  | .kokoro call => some call.synthesize
  | .completeOnly result => some result

/-- The same runtime on the same request, but that one call of the model raises. -/
def raising (backend : Backend) (call : ModelCall) (error : LibraryError) : Backend :=
  match backend, call with
  | .nanovllm nano, .encodeLatents => .nanovllm { nano with encodeLatents := some error }
  | .nanovllm nano, .generate => .nanovllm { nano with generate := some error }
  | .nanovllm nano, .nextChunk => .nanovllm { nano with ending := some error }
  | .voxcpm2 vox, .voxcpm2Generate => .voxcpm2 { vox with generate := .error error }
  | .kokoro pipe, .kokoroPipeline => .kokoro { pipe with pipeline := some error }
  | .kokoro pipe, .kokoroNext => .kokoro { pipe with ending := some error }
  | backend, _ => backend

end Backend

/-! ### A complete result as a stream -/

/-- `round`, to even where two integers are equally near. -/
def pyRound (q : ℚ) : ℤ :=
  let below := ⌊q⌋
  if q - below < 1 / 2 then below
  else if 1 / 2 < q - below then below + 1
  else if below % 2 = 0 then below
  else below + 1

/-- `round(first_sample * 1000 / sample_rate_hz)`, of a quotient of doubles. -/
def roundedDurationMs (firstSample sampleRateHz : ℕ) : ℤ :=
  pyRound (binary64.round (firstSample * 1000 / sampleRateHz))

/-- A WAV file on its way into a stream. -/
structure WaveEmission where
  result : EngineResult
  sampleRateHz : ℕ
  channelCount : ℕ
  frameBytes : ℕ
  framesPerChunk : ℕ

/-- `_emit_complete_result`, up to the call of `emit_started`, and the frames of
the file. -/
def openResult (result : EngineResult) (maxAudioChunkBytes : ℕ) : Except EngineError (WaveEmission × List UInt8) :=
  if result.mimeType ≠ "audio/wav" ∧ result.mimeType ≠ "audio/x-wav" then
    .error (.valueError "complete-only runtime must return WAV audio")
  else
    match result.audio with
    | none => .error (.valueError "complete-only runtime returned invalid WAV audio")
    | some source =>
      if source.channelCount ≠ 1 ∨ source.sampleWidth ≠ 2 ∨ source.compressionType ≠ "NONE" then
        .error (.valueError "complete-only runtime must return mono PCM S16LE WAV audio")
      else
        let frameBytes := source.channelCount * source.sampleWidth
        let chunkBytes := min maxAudioChunkBytes (64 * 1024)
        let chunkBytes := chunkBytes - chunkBytes % frameBytes
        if chunkBytes ≤ 0 then .error (.valueError "stream buffer is smaller than one PCM frame")
        else .ok
          ({ result := result
             sampleRateHz := source.sampleRateHz
             channelCount := source.channelCount
             frameBytes := frameBytes
             framesPerChunk := chunkBytes / frameBytes }, source.frames)

/-- **A result that is emitted** is mono 16-bit audio, and goes out in pieces of at
least one frame that are no longer than a buffer, or 64 KiB. -/
theorem openResult_spec {result : EngineResult} {maxAudioChunkBytes : ℕ} {emission : WaveEmission}
    {frames : List UInt8} (h : openResult result maxAudioChunkBytes = .ok (emission, frames)) :
    (∃ source, result.audio = some source ∧ source.frames = frames) ∧ emission.channelCount = 1 ∧
      emission.frameBytes = 2 ∧ 0 < emission.framesPerChunk ∧
      emission.framesPerChunk * emission.frameBytes ≤ min maxAudioChunkBytes (64 * 1024) := by
  unfold openResult at h
  split_ifs at h
  cases haudio : result.audio with
  | none => simp [haudio] at h
  | some source =>
    simp only [haudio] at h
    split_ifs at h with hformat hsmall
    push Not at hformat
    obtain ⟨hchannel, hwidth, -⟩ := hformat
    rw [Nat.not_le] at hsmall
    cases h
    simp only [hchannel, hwidth, Nat.one_mul] at hsmall ⊢
    exact ⟨⟨source, rfl, rfl⟩, trivial, trivial, by omega, by omega⟩

/-- What follows the loop over the frames in `_emit_complete_result`. -/
def WaveEmission.finish (emission : WaveEmission) (sequenceNumber firstSample : ℕ) :
    Except EngineError RuntimeStreamResult :=
  let completed (durationMs : ℤ) : RuntimeStreamResult :=
    { totalSampleCount := firstSample
      durationMs := durationMs
      chunkCount := sequenceNumber
      metrics := emission.result.metrics
      metadata := emission.result.metadata.set "native_streaming" (.bool false) }
  match emission.result.durationMs with
  | some durationMs => .ok (completed durationMs)
  | none =>
    if emission.sampleRateHz = 0 then .error (.other "ZeroDivisionError" "division by zero")
    else .ok (completed (roundedDurationMs firstSample emission.sampleRateHz))

theorem WaveEmission.finish_counts {emission : WaveEmission} {sequenceNumber firstSample : ℕ}
    {result : RuntimeStreamResult} (h : emission.finish sequenceNumber firstSample = .ok result) :
    result.chunkCount = sequenceNumber ∧ result.totalSampleCount = firstSample := by
  unfold finish at h
  cases hduration : emission.result.durationMs with
  | some durationMs =>
    simp only [hduration] at h
    cases h
    exact ⟨rfl, rfl⟩
  | none =>
    simp only [hduration] at h
    split_ifs at h
    cases h
    exact ⟨rfl, rfl⟩

end TtsPool
