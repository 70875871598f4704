/-
# Preparing the reference audio of a request

`_reference_path` of `app/engine/voxcpm2.py` and `_reference_wav` of
`app/engine/nanovllm_voxcpm.py`: how long the WAV file of a request lasts, whether
the limit lets it pass whole, and the tail that is cut off it when it does not.
The two differ only in the setting they take the limit from and in whether they
hand over a path or the bytes behind it.

A `Wav` is what the `wave` module makes of a file: `getnframes` is the count the
header declares, and `readframes` gives the frames that are there, which may be
fewer.  Frames are opaque.  A header's numbers have 32 bits.

Durations are computed in doubles.  `FiniteFloat` holds the values such a
computation can have; the numbers formed here stay far from the upper end of the
format, so that no operation overflows (`FiniteFloat.quotient_lt`).
-/

import TtsPool.Common
import TtsPool.Support.Rounding

namespace TtsPool

/-- A finite Python `float`. -/
@[ext]
structure FiniteFloat where
  value : ℚ
  representable : binary64.round value = value

namespace FiniteFloat

/-- The `float` nearest to a number: a literal, or the result of an operation. -/
def nearest (x : ℚ) : FiniteFloat := ⟨binary64.round x, binary64.round_round x⟩

/-- `a / b` on integers. -/
def quotient (a b : ℕ) : FiniteFloat := nearest (a / b)

/-- `x * n` with an integer. -/
def times (x : FiniteFloat) (n : ℕ) : FiniteFloat := nearest (x.value * n)

/-- `int(x)` of a `float` that is not negative. -/
def int (x : FiniteFloat) : ℕ := ⌊x.value⌋₊

end FiniteFloat

/-- A limit on the duration of the reference, in seconds: what
`_bounded_float(…, minimum=1.0, maximum=60.0)` leaves of a setting. -/
structure DurationLimit extends FiniteFloat where
  one_le : 1 ≤ value
  le_sixty : value ≤ 60

/-- `max(1.0, min(60.0, float(x)))`. -/
def FiniteFloat.clamped (x : FiniteFloat) : DurationLimit :=
  if hlow : x.value < 1 then ⟨.nearest 1, by decide +kernel, by decide +kernel⟩
  else if hhigh : 60 < x.value then ⟨.nearest 60, by decide +kernel, by decide +kernel⟩
  else ⟨x, not_lt.mp hlow, not_lt.mp hhigh⟩

/-- A WAV file. -/
structure Wav (Frame : Type) where
  nchannels : ℕ
  sampwidth : ℕ
  framerate : ℕ
  /-- The number of frames the header declares. -/
  nframes : ℕ
  /-- The frames in the file. -/
  frames : List Frame
  length_frames : frames.length ≤ nframes
  framerate_lt : framerate < 2 ^ 32
  nframes_lt : nframes < 2 ^ 32

/-- The fields of `ReferenceAudio` (`app/schemas.py`) that are read here. -/
structure ReferenceAudio (Frame : Type) where
  mimeType : String
  data : Wav Frame
  maxDurationS : Option FiniteFloat
  promptText : Option String
  maxDurationS_bounds : ∀ m ∈ maxDurationS, 0 < m.value ∧ m.value ≤ 60

/-- The limits among the `ModelSettings` of `app/config.py`. -/
structure ReferenceSettings where
  voxcpm2ReferenceMaxDurationS : DurationLimit
  nanovllmReferenceMaxDurationS : DurationLimit

/-- The metadata of a reference that a request brings. -/
structure ReferenceMetadata where
  referenceMimeType : String
  referenceMaxDurationS : DurationLimit
  referenceSourceDurationMs : ℕ
  referenceClipped : Bool
  referenceDurationMs : ℕ
  referenceClipSkippedForPromptText : Bool

variable {Frame : Type}

/-- `decode_reference_audio`. -/
def decodeReferenceAudio (referenceAudio : ReferenceAudio Frame) : Except EngineError (Wav Frame) :=
  if (pyStrip referenceAudio.mimeType).toLower ∈ ["audio/wav", "audio/x-wav", "audio/wave"] then
    .ok referenceAudio.data
  else
    .error (.valueError s!"unsupported reference_audio mime_type: {pyRepr referenceAudio.mimeType}")

/-- `_prompt_text_for_request`. -/
def promptTextForRequest (referenceAudio : ReferenceAudio Frame) : Option String :=
  let text := pyStrip (referenceAudio.promptText.getD "")
  if text = "" then none else some text

/-- `int((frames / framerate) * 1000)`. -/
def frameDurationMs (frames framerate : ℕ) : ℕ := ((FiniteFloat.quotient frames framerate).times 1000).int

/-- `int(max_duration_s * 1000)`. -/
def DurationLimit.ms (limit : DurationLimit) : ℕ := (limit.times 1000).int

/-- `int(max_duration_s * framerate)`. -/
def DurationLimit.frames (limit : DurationLimit) (framerate : ℕ) : ℕ := (limit.times framerate).int

/-- `_wav_duration_ms`. -/
def wavDurationMs (wav : Wav Frame) : Except EngineError ℕ :=
  if wav.framerate = 0 then .error (.valueError "reference wav has invalid framerate")
  else .ok (frameDurationMs wav.nframes wav.framerate)

/-- `readframes` after `setpos`. -/
def Wav.readframes (wav : Wav Frame) (pos count : ℕ) : List Frame := (wav.frames.drop pos).take count

theorem Wav.length_readframes (wav : Wav Frame) (pos count : ℕ) :
    (wav.readframes pos count).length = min count (wav.frames.length - pos) := by
  rw [readframes, List.length_take, List.length_drop]

/-- `writeframes` under the parameters of another file: the header of the new one
declares what is written. -/
def Wav.written (params : Wav Frame) (pos count : ℕ) : Wav Frame where
  nchannels := params.nchannels
  sampwidth := params.sampwidth
  framerate := params.framerate
  nframes := (params.readframes pos count).length
  frames := params.readframes pos count
  length_frames := le_rfl
  framerate_lt := params.framerate_lt
  nframes_lt := by
    have hlength := params.length_readframes pos count
    have hframes := params.length_frames
    have hbound := params.nframes_lt
    omega

/-- `keep_frames` of `_copy_wav_tail`. -/
def Wav.keepFrames (wav : Wav Frame) (limit : DurationLimit) : ℕ :=
  min wav.nframes (max 1 (limit.frames wav.framerate))

/-- `_copy_wav_tail`: the new file and the duration that is reported for it. -/
def copyWavTail (source : Wav Frame) (limit : DurationLimit) : Except EngineError (Wav Frame × ℕ) :=
  if source.framerate = 0 then .error (.valueError "reference wav has invalid framerate")
  else
    let keepFrames := source.keepFrames limit
    let startFrame := source.nframes - keepFrames
    -- `setparams` refuses the widths that no WAV file is written with, and the error of
    -- the close at the end of the `with` block takes the place of its own
    if 4 < source.sampwidth then .error (.other "Error" "sample width not specified")
    else .ok (source.written startFrame keepFrames, frameDurationMs keepFrames source.framerate)

/-- The effective `max_duration_s`. -/
def ReferenceAudio.limit (referenceAudio : ReferenceAudio Frame) (configured : DurationLimit) : DurationLimit :=
  match referenceAudio.maxDurationS with
  | none => configured
  | some m => m.clamped

/-- What both runtimes do, with the limit their settings give. -/
def prepareReference (configured : DurationLimit) (referenceAudio : Option (ReferenceAudio Frame)) :
    Except EngineError (Option (Wav Frame × ReferenceMetadata)) :=
  match referenceAudio with
  | none => .ok none
  | some referenceAudio => do
    let source ← decodeReferenceAudio referenceAudio
    let originalDurationMs ← wavDurationMs source
    let limit := referenceAudio.limit configured
    let promptText := (promptTextForRequest referenceAudio).isSome
    if originalDurationMs ≤ limit.ms ∨ promptText = true then
      return some (source,
        { referenceMimeType := referenceAudio.mimeType
          referenceMaxDurationS := limit
          referenceSourceDurationMs := originalDurationMs
          referenceClipped := false
          referenceDurationMs := originalDurationMs
          referenceClipSkippedForPromptText := promptText && decide (limit.ms < originalDurationMs) })
    else
      let (clipped, clippedDurationMs) ← copyWavTail source limit
      return some (clipped,
        { referenceMimeType := referenceAudio.mimeType
          referenceMaxDurationS := limit
          referenceSourceDurationMs := originalDurationMs
          referenceClipped := true
          referenceDurationMs := clippedDurationMs
          referenceClipSkippedForPromptText := false })

/-- `VoxCPM2TTSRuntime._reference_path`; `none` is `(None, {"reference_audio": False})`. -/
def VoxCPM2TTSRuntime.referencePath (settings : ReferenceSettings) (referenceAudio : Option (ReferenceAudio Frame)) :
    Except EngineError (Option (Wav Frame × ReferenceMetadata)) :=
  prepareReference settings.voxcpm2ReferenceMaxDurationS referenceAudio

/-- `NanoVLLMVoxCPMTTSRuntime._reference_wav`. -/
def NanoVLLMVoxCPMTTSRuntime.referenceWav (settings : ReferenceSettings)
    (referenceAudio : Option (ReferenceAudio Frame)) : Except EngineError (Option (Wav Frame × ReferenceMetadata)) :=
  prepareReference settings.nanovllmReferenceMaxDurationS referenceAudio

end TtsPool
