/-
# Clipping a reference, on bytes

`_wav_duration_ms`, `_copy_wav_tail` and what `_reference_wav` and `_reference_path`
do with them, on the bytes of a request.  `Reference.Model` has the same on what a
file holds; here are the files.

`copyWavTail_ok_iff` says for which bytes a tail is written at all: apart from files
that do not open, it fails on a position the RIFF chunk does not reach
(`RuntimeError`), on a width that no file is written with (`wave.Error`), and where a
number has no room in the header of the new file, whose frame count is at first the
old one's (`struct.error`).  What is written opens again, with the old format and the
last frames (`copyWavTail_opens`).
-/

import TtsPool.Reference.Clipping
import TtsPool.Wave.Streaming

namespace TtsPool

/-- `_wav_duration_ms`. -/
def wavBytesDurationMs (source : List UInt8) : Except EngineError ℕ :=
  match waveOpen source with
  | .error error => .error error.toEngineError
  | .ok reader =>
    if reader.format.framerate = 0 then .error (.valueError "reference wav has invalid framerate")
    else .ok (frameDurationMs reader.nframes reader.format.framerate)

/-- `_copy_wav_tail`, of a file that is open. -/
def copyOpenedTail (reader : WaveReader) (limit : DurationLimit) : Except EngineError (List UInt8 × ℕ) :=
  let format := reader.format
  if format.framerate = 0 then .error (.valueError "reference wav has invalid framerate")
  else
    let totalFrames := reader.nframes
    let keepFrames := min totalFrames (max 1 (limit.frames format.framerate))
    let startFrame := totalFrames - keepFrames
    match (reader.setpos startFrame).bind fun reader => reader.readframes keepFrames with
    | .error error => .error error.toEngineError
    | .ok (_, frames) =>
      let written := withWriter (do
        WaveWriter.setparams format.nchannels format.sampwidth format.framerate totalFrames
        WriteCall.runAll [.writeframes frames])
      match written with
      | .error error => .error error.toEngineError
      | .ok bytes => .ok (bytes, frameDurationMs keepFrames format.framerate)

/-- `_copy_wav_tail`: the bytes of the new file, and the duration that is reported. -/
def copyWavBytesTail (source : List UInt8) (limit : DurationLimit) : Except EngineError (List UInt8 × ℕ) :=
  match waveOpen source with
  | .error error => .error error.toEngineError
  | .ok reader => copyOpenedTail reader limit

namespace WaveReader

/-- `keep_frames`. -/
def keepFrames (reader : WaveReader) (limit : DurationLimit) : ℕ :=
  min reader.nframes (max 1 (limit.frames reader.format.framerate))

/-- The first byte that is kept. -/
def tailStart (reader : WaveReader) (limit : DurationLimit) : ℕ :=
  (reader.nframes - reader.keepFrames limit) * reader.format.framesize

/-- The bytes that are kept. -/
def tail (reader : WaveReader) (limit : DurationLimit) : List UInt8 :=
  (reader.frames.drop (reader.tailStart limit)).take (reader.keepFrames limit * reader.format.framesize)

/-- A file whose tail can be written. -/
structure Clippable (reader : WaveReader) (limit : DurationLimit) : Prop where
  framerate_pos : 0 < reader.format.framerate
  reaches : reader.Reaches (reader.tailStart limit)
  sampwidth_le : reader.format.sampwidth ≤ 4
  fits : WaveWriter.Fits reader.format.nchannels reader.format.sampwidth reader.format.framerate reader.nframes
    (reader.tail limit)

end WaveReader

/-! ### The new file -/

/-- A format, written with the frame count of another file. -/
theorem withParams_eq (format : WaveFormat) (nframes : ℕ) (frames : List UInt8) (hrate : 0 < format.framerate) :
    let written := withWriter (do
      WaveWriter.setparams format.nchannels format.sampwidth format.framerate nframes
      WriteCall.runAll [.writeframes frames])
    let fits := WaveWriter.Fits format.nchannels format.sampwidth format.framerate nframes frames
    (4 < format.sampwidth → written = .error (.error "sample width not specified")) ∧
      (format.sampwidth ≤ 4 → fits →
        written = .ok (waveBytes format.nchannels format.sampwidth format.framerate frames)) ∧
      (format.sampwidth ≤ 4 → ¬ fits → ∃ message, written = .error (.structError message)) := by
  intro written fits
  have hchannels := format.nchannels_pos
  have hwidth := format.sampwidth_pos
  rcases Nat.lt_or_ge 4 format.sampwidth with hwide | hnarrow
  · refine ⟨fun _ => ?_, fun h => absurd h (not_le.mpr hwide), fun h => absurd h (not_le.mpr hwide)⟩
    obtain ⟨w, hsetup, hclose⟩ := WaveWriter.setparams_wide format.framerate nframes hchannels hwide
    have hbody : Raising.call (do
        WaveWriter.setparams format.nchannels format.sampwidth format.framerate nframes
        WriteCall.runAll [.writeframes frames]) {} = (.error (.error "bad sample width"), w) :=
      Raising.call_bind_error hsetup
    show withWriter _ = _
    rw [withWriter, hbody]
    simp only [hclose]
  · have hsetup := WaveWriter.setparams_call {} nframes hchannels hwidth hnarrow hrate rfl
    have hready : WaveWriter.Ready format.nchannels format.sampwidth format.framerate nframes
        { nchannels := format.nchannels, sampwidth := format.sampwidth, framerate := format.framerate
          nframes := nframes } :=
      ⟨rfl, rfl, rfl, rfl, hchannels, hwidth, hrate, rfl⟩
    obtain ⟨hok, herror⟩ := hready.withWriter hsetup rfl rfl [.writeframes frames]
    have hframes : ([WriteCall.writeframes frames].map WriteCall.data).flatten = frames := by
      simp [WriteCall.data]
    rw [hframes] at hok herror
    exact ⟨fun h => absurd h (not_lt.mpr hnarrow), fun _ => hok, fun _ => herror⟩

section Copy

variable {source bytes : List UInt8} {reader : WaveReader} {limit : DurationLimit} {durationMs : ℕ}

/-- Seeking the tail and reading it. -/
theorem readTail (hopen : waveOpen source = .ok reader) (limit : DurationLimit) :
    (¬ reader.Reaches (reader.tailStart limit) ∧
      ((reader.setpos (reader.nframes - reader.keepFrames limit)).bind fun reader' =>
        reader'.readframes (reader.keepFrames limit)) = .error .runtimeError) ∨
    (reader.Reaches (reader.tailStart limit) ∧ ∃ reader',
      ((reader.setpos (reader.nframes - reader.keepFrames limit)).bind fun reader' =>
        reader'.readframes (reader.keepFrames limit)) = .ok (reader', reader.tail limit)) := by
  obtain ⟨hreads, -⟩ := waveOpen_spec hopen
  obtain ⟨reader₁, hset, hreads₁, hchunk, -, hneeded⟩ :=
    hreads.setpos (Nat.sub_le reader.nframes (reader.keepFrames limit))
  have hreaches : ∀ pos, reader₁.Reaches pos ↔ reader.Reaches pos := fun pos => by
    rw [WaveReader.Reaches, WaveReader.Reaches, hchunk]
  rw [hset]
  obtain ⟨-, hfar, hread⟩ | ⟨hreach, reader₂, data, hread, hdata, -, -⟩ :=
    hreads₁.readframes (reader.keepFrames limit)
  · exact .inl ⟨fun h => hfar ((hreaches _).mpr h), hread⟩
  · have htail : data = reader.tail limit := hdata
    exact .inr ⟨(hreaches _).mp (hreach hneeded), reader₂, htail ▸ hread⟩

/-- **The tail of an open file** is written exactly if it is clippable. -/
theorem copyOpenedTail_spec (hopen : waveOpen source = .ok reader) (limit : DurationLimit) :
    let format := reader.format
    (reader.Clippable limit → copyOpenedTail reader limit =
      .ok (waveBytes format.nchannels format.sampwidth format.framerate (reader.tail limit),
        frameDurationMs (reader.keepFrames limit) format.framerate)) ∧
    (¬ reader.Clippable limit → ∃ error, copyOpenedTail reader limit = .error error ∧
      (error = .valueError "reference wav has invalid framerate" ∨ error = .runtimeError "" ∨
        error = .other "Error" "sample width not specified" ∨ ∃ message, error = .other "error" message)) := by
  intro format
  rcases Nat.eq_zero_or_pos format.framerate with hzero | hpos
  · exact ⟨fun h => absurd hzero h.framerate_pos.ne', fun _ => ⟨_, if_pos hzero, .inl rfl⟩⟩
  obtain ⟨hwide, hok, herror⟩ := withParams_eq format reader.nframes (reader.tail limit) hpos
  have hcopy : ∀ result, ((reader.setpos (reader.nframes - reader.keepFrames limit)).bind fun reader' =>
      reader'.readframes (reader.keepFrames limit)) = result → copyOpenedTail reader limit =
      match result with
      | .error error => .error error.toEngineError
      | .ok (_, frames) =>
        match withWriter (do
          WaveWriter.setparams format.nchannels format.sampwidth format.framerate reader.nframes
          WriteCall.runAll [.writeframes frames]) with
        | .error error => .error error.toEngineError
        | .ok bytes => .ok (bytes, frameDurationMs (reader.keepFrames limit) format.framerate) := by
    rintro result rfl
    exact if_neg hpos.ne'
  obtain ⟨hfar, hread⟩ | ⟨hreach, reader', hread⟩ := readTail hopen limit
  · exact ⟨fun h => absurd h.reaches hfar, fun _ => ⟨_, hcopy _ hread, .inr (.inl rfl)⟩⟩
  · have hwritten := hcopy _ hread
    simp only at hwritten
    by_cases hnarrow : format.sampwidth ≤ 4
    · by_cases hfits : WaveWriter.Fits format.nchannels format.sampwidth format.framerate reader.nframes
          (reader.tail limit)
      · rw [hok hnarrow hfits] at hwritten
        exact ⟨fun _ => hwritten, fun h => absurd ⟨hpos, hreach, hnarrow, hfits⟩ h⟩
      · obtain ⟨message, herror⟩ := herror hnarrow hfits
        rw [herror] at hwritten
        exact ⟨fun h => absurd h.fits hfits, fun _ => ⟨_, hwritten, .inr (.inr (.inr ⟨message, rfl⟩))⟩⟩
    · rw [hwide (not_le.mp hnarrow)] at hwritten
      exact ⟨fun h => absurd h.sampwidth_le hnarrow, fun _ => ⟨_, hwritten, .inr (.inr (.inl rfl))⟩⟩

theorem length_tail_le (reader : WaveReader) (limit : DurationLimit) :
    (reader.tail limit).length ≤ reader.keepFrames limit * reader.format.framesize := List.length_take_le _ _

/-- A width that is written has room in its field. -/
theorem WaveReader.Clippable.bits_lt (h : reader.Clippable limit) : reader.format.sampwidth * 8 < 2 ^ 16 :=
  h.fits.format.bits_lt

/-- **What is written opens again**, with the old format and the tail. -/
theorem WaveReader.Clippable.opens (h : reader.Clippable limit) :
    waveOpen
        (waveBytes reader.format.nchannels reader.format.sampwidth reader.format.framerate (reader.tail limit)) =
      .ok (writtenReader reader.format (reader.tail limit)) :=
  waveOpen_waveBytes _ h.bits_lt h.fits.data_lt

theorem nframes_writtenReader (format : WaveFormat) (data : List UInt8) :
    (writtenReader format data).nframes = data.length / format.framesize := rfl

/-- **A tail within the limit** is kept as it is, as far as its frames are whole. -/
theorem copy_again (h : reader.Clippable limit) :
    let again := writtenReader reader.format (reader.tail limit)
    copyWavBytesTail
        (waveBytes reader.format.nchannels reader.format.sampwidth reader.format.framerate (reader.tail limit))
        limit =
      .ok (waveBytes reader.format.nchannels reader.format.sampwidth reader.format.framerate
          ((reader.tail limit).take (again.nframes * reader.format.framesize)),
        frameDurationMs again.nframes reader.format.framerate) := by
  intro again
  have hframesize := reader.format.framesize_pos
  have hopen := h.opens
  have hmul : again.nframes * reader.format.framesize ≤ (reader.tail limit).length := Nat.div_mul_le_self _ _
  have hfew : again.nframes ≤ reader.keepFrames limit := by
    refine Nat.le_of_mul_le_mul_right (hmul.trans (length_tail_le reader limit)) hframesize
  have hkeep : again.keepFrames limit = again.nframes :=
    min_eq_left (hfew.trans (min_le_right _ _))
  have hstart : again.tailStart limit = 0 := by rw [WaveReader.tailStart, hkeep, Nat.sub_self, Nat.zero_mul]
  have hframes : again.frames = reader.tail limit := (reads_writtenReader _ _).1.frames_eq
  have htail : again.tail limit = (reader.tail limit).take (again.nframes * reader.format.framesize) := by
    rw [WaveReader.tail, hstart, hkeep, hframes, List.drop_zero]
    rfl
  have hclippable : again.Clippable limit := by
    refine ⟨h.framerate_pos, ?_, h.sampwidth_le, h.fits.format, ?_, ?_⟩
    · rw [hstart]
      exact (reads_writtenReader _ _).2.2 0 (Nat.zero_le _)
    · have hroom := h.fits.data_lt
      rw [mul_assoc]
      exact (Nat.add_le_add_left hmul 36).trans_lt hroom
    · have hroom := h.fits.data_lt
      rw [htail, List.length_take]
      omega
  have hcopy := (copyOpenedTail_spec hopen limit).1 hclippable
  rw [copyWavBytesTail, hopen]
  refine hcopy.trans ?_
  rw [htail, hkeep]
  rfl

/-- **`_copy_wav_tail` on any bytes.**  It writes a file exactly if the bytes open as one
that is clippable.  The file opens, with the same format and the last frames of the
source, a part of its bytes, no more of them than the limit allows; the duration that is
reported is that of the frames that were to be kept; and where they are whole, clipping
the new file to the same limit gives it back. -/
theorem copyWavTail_bytes (source : List UInt8) (limit : DurationLimit) :
    ((∃ copied, copyWavBytesTail source limit = .ok copied) ↔
      ∃ reader, waveOpen source = .ok reader ∧ reader.Clippable limit) ∧
    ∀ bytes durationMs, copyWavBytesTail source limit = .ok (bytes, durationMs) →
      ∃ reader reader', waveOpen source = .ok reader ∧ waveOpen bytes = .ok reader' ∧
        reader'.format = reader.format ∧
        reader'.frames = (reader.frames.drop (reader.tailStart limit)).take
          (reader.keepFrames limit * reader.format.framesize) ∧
        reader'.frames <:+: source ∧
        reader'.nframes ≤ reader.keepFrames limit ∧
        durationMs = frameDurationMs (reader.keepFrames limit) reader.format.framerate ∧
        (reader.format.framesize ∣ reader'.frames.length →
          copyWavBytesTail bytes limit = .ok (bytes, frameDurationMs reader'.nframes reader.format.framerate)) := by
  cases hopen : waveOpen source with
  | error error =>
    have hcopy : copyWavBytesTail source limit = .error error.toEngineError := by rw [copyWavBytesTail, hopen]
    rw [hcopy]
    refine ⟨⟨?_, ?_⟩, fun _ _ h => ?_⟩
    · rintro ⟨_, h⟩
      cases h
    · rintro ⟨_, h, -⟩
      cases h
    · cases h
  | ok reader =>
    have hcopy : copyWavBytesTail source limit = copyOpenedTail reader limit := by rw [copyWavBytesTail, hopen]
    obtain ⟨hok, herror⟩ := copyOpenedTail_spec hopen limit
    rw [hcopy]
    by_cases hclippable : reader.Clippable limit
    · refine ⟨⟨fun _ => ⟨reader, rfl, hclippable⟩, fun _ => ⟨_, hok hclippable⟩⟩, fun bytes durationMs h => ?_⟩
      obtain ⟨rfl, rfl⟩ := Prod.mk.inj (Except.ok.inj ((hok hclippable).symm.trans h))
      have hframes : (writtenReader reader.format (reader.tail limit)).frames = reader.tail limit :=
        (reads_writtenReader _ _).1.frames_eq
      refine ⟨reader, _, rfl, hclippable.opens, rfl, hframes, ?_, ?_, rfl, fun hwhole => ?_⟩
      · rw [hframes]
        have hinfix := (waveOpen_spec hopen).2.2.1
        exact ((List.take_prefix _ _).isInfix.trans (List.drop_suffix _ _).isInfix).trans hinfix
      · rw [nframes_writtenReader]
        exact Nat.div_le_of_le_mul (by rw [Nat.mul_comm]; exact length_tail_le reader limit)
      · rw [hframes] at hwhole
        rw [copy_again hclippable, nframes_writtenReader, Nat.div_mul_cancel hwhole, List.take_length]
    · obtain ⟨error, hcopied, -⟩ := herror hclippable
      rw [hcopied]
      refine ⟨⟨?_, ?_⟩, fun _ _ h => ?_⟩
      · rintro ⟨_, h⟩
        cases h
      · rintro ⟨reader', hreader, hclippable'⟩
        obtain rfl := Except.ok.inj hreader
        exact absurd hclippable' hclippable
      · cases h

end Copy

/-- A limit of one second. -/
def oneSecond : DurationLimit := (FiniteFloat.nearest 1).clamped

/-- Three frames of a second each. -/
def threeSeconds : List UInt8 := [1, 2, 3, 4, 5, 6]

/-- The reader of the file with these frames. -/
def threeSecondsReader : WaveReader := writtenReader (monoFormat 1 (by decide)) threeSeconds

theorem waveOpen_threeSeconds : waveOpen (waveBytes 1 2 1 threeSeconds) = .ok threeSecondsReader := by
  have hbits : (monoFormat 1 (by decide)).sampwidth * 8 < 2 ^ 16 := by decide
  have hopen := waveOpen_waveBytes threeSeconds hbits (by decide)
  exact hopen

theorem clippable_threeSeconds : threeSecondsReader.Clippable oneSecond where
  framerate_pos := by decide
  reaches := by decide +kernel
  sampwidth_le := by decide
  fits := ⟨⟨by decide, by decide, by decide, by decide, by decide⟩, by decide +kernel, by decide +kernel⟩

theorem copied_threeSeconds :
    copyWavBytesTail (waveBytes 1 2 1 threeSeconds) oneSecond = .ok (waveBytes 1 2 1 [5, 6], 1000) := by
  have htail : threeSecondsReader.tail oneSecond = [5, 6] := by decide +kernel
  have hms : frameDurationMs (threeSecondsReader.keepFrames oneSecond) threeSecondsReader.format.framerate =
      1000 := by decide +kernel
  have hcopy := (copyOpenedTail_spec waveOpen_threeSeconds oneSecond).1 clippable_threeSeconds
  rw [htail, hms] at hcopy
  rw [copyWavBytesTail, waveOpen_threeSeconds]
  exact hcopy

/-- Of the three the last is kept. -/
theorem copyWavTail_bytes_three_seconds :
    ∃ reader reader', waveOpen (waveBytes 1 2 1 threeSeconds) = .ok reader ∧
      waveOpen (waveBytes 1 2 1 [5, 6]) = .ok reader' ∧ reader'.format = reader.format ∧
      reader'.nframes ≤ reader.keepFrames oneSecond ∧ reader'.frames <:+: waveBytes 1 2 1 threeSeconds := by
  obtain ⟨reader, reader', hreader, hreader', hformat, -, hinfix, hfew, -⟩ :=
    (copyWavTail_bytes (waveBytes 1 2 1 threeSeconds) oneSecond).2 (waveBytes 1 2 1 [5, 6]) 1000 copied_threeSeconds
  exact ⟨reader, reader', hreader, hreader', hformat, hfew, hinfix⟩

/-! ### The reference of a request -/

/-- The fields of `ReferenceAudio` (`app/schemas.py`) that are read, with the bytes that
are sent. -/
structure ReferenceUpload where
  mimeType : String
  data : List UInt8
  maxDurationS : Option FiniteFloat
  promptText : Option String
  maxDurationS_bounds : ∀ m ∈ maxDurationS, 0 < m.value ∧ m.value ≤ 60

namespace ReferenceUpload

/-- The request with its file read. -/
def opened {Frame : Type} (upload : ReferenceUpload) (wav : Wav Frame) : ReferenceAudio Frame where
  mimeType := upload.mimeType
  data := wav
  maxDurationS := upload.maxDurationS
  promptText := upload.promptText
  maxDurationS_bounds := upload.maxDurationS_bounds

/-- `decode_reference_audio`. -/
def decode (upload : ReferenceUpload) : Except EngineError (List UInt8) :=
  if (pyStrip upload.mimeType).toLower ∈ ["audio/wav", "audio/x-wav", "audio/wave"] then .ok upload.data
  else .error (.valueError s!"unsupported reference_audio mime_type: {pyRepr upload.mimeType}")

/-- The effective `max_duration_s`. -/
def limit (upload : ReferenceUpload) (configured : DurationLimit) : DurationLimit :=
  match upload.maxDurationS with
  | none => configured
  | some m => m.clamped

/-- `_prompt_text_for_request` gives a text. -/
def hasPromptText (upload : ReferenceUpload) : Bool := pyStrip (upload.promptText.getD "") ≠ ""

end ReferenceUpload

/-- `_reference_wav`, and `_reference_path` but for the path. -/
def prepareUpload (configured : DurationLimit) (upload : Option ReferenceUpload) :
    Except EngineError (Option (List UInt8 × ReferenceMetadata)) :=
  match upload with
  | none => .ok none
  | some upload => do
    let source ← upload.decode
    let originalDurationMs ← wavBytesDurationMs source
    let limit := upload.limit configured
    if originalDurationMs ≤ limit.ms ∨ upload.hasPromptText = true then
      return some (source,
        { referenceMimeType := upload.mimeType
          referenceMaxDurationS := limit
          referenceSourceDurationMs := originalDurationMs
          referenceClipped := false
          referenceDurationMs := originalDurationMs
          referenceClipSkippedForPromptText := upload.hasPromptText && decide (limit.ms < originalDurationMs) })
    else
      let (clipped, clippedDurationMs) ← copyWavBytesTail source limit
      return some (clipped,
        { referenceMimeType := upload.mimeType
          referenceMaxDurationS := limit
          referenceSourceDurationMs := originalDurationMs
          referenceClipped := true
          referenceDurationMs := clippedDurationMs
          referenceClipSkippedForPromptText := false })

/-- What a reader finds in a file is this WAV. -/
structure WaveReader.Holds (reader : WaveReader) (wav : Wav (List UInt8)) : Prop where
  nchannels : wav.nchannels = reader.format.nchannels
  sampwidth : wav.sampwidth = reader.format.sampwidth
  framerate : wav.framerate = reader.format.framerate
  nframes : wav.nframes = reader.nframes
  frames : wav.frames = pieces reader.format.framesize
    (reader.frames.take (reader.nframes * reader.format.framesize))

/-- A preparation of bytes does what one of what they hold does. -/
def Matches : Except EngineError (Option (List UInt8 × ReferenceMetadata)) →
    Except EngineError (Option (Wav (List UInt8) × ReferenceMetadata)) → Prop
  | .error error, .error error' => error = error'
  | .ok none, .ok none => True
  | .ok (some (bytes, metadata)), .ok (some (wav, metadata')) =>
    metadata = metadata' ∧ ∃ reader, waveOpen bytes = .ok reader ∧ reader.Holds wav
  | _, _ => False

section Holds

variable {reader : WaveReader} {wav : Wav (List UInt8)} {source : List UInt8} {upload : ReferenceUpload}

/-- The tail of whole frames. -/
theorem WaveReader.Holds.written (h : reader.Holds wav) (limit : DurationLimit)
    (hwhole : reader.format.framesize ∣ reader.frames.length) :
    (writtenReader reader.format (reader.tail limit)).Holds
      (wav.written (wav.nframes - wav.keepFrames limit) (wav.keepFrames limit)) := by
  have hframesize := reader.format.framesize_pos
  have hkeep : wav.keepFrames limit = reader.keepFrames limit := by
    rw [Wav.keepFrames, WaveReader.keepFrames, h.nframes, h.framerate]
  have hle : reader.keepFrames limit ≤ reader.nframes := min_le_left _ _
  have htail : reader.format.framesize ∣ (reader.tail limit).length := by
    rw [WaveReader.tail, List.length_take, List.length_drop]
    rcases min_choice (reader.keepFrames limit * reader.format.framesize)
      (reader.frames.length - reader.tailStart limit) with hmin | hmin <;> rw [hmin]
    · exact Nat.dvd_mul_left _ _
    · exact Nat.dvd_sub hwhole (Nat.dvd_mul_left _ _)
  have hframes : wav.readframes (wav.nframes - wav.keepFrames limit) (wav.keepFrames limit) =
      pieces reader.format.framesize (reader.tail limit) := by
    rw [Wav.readframes, h.frames, hkeep, h.nframes, pieces_take, WaveReader.tail, WaveReader.tailStart, pieces_take,
      pieces_drop, List.drop_take, List.take_take, Nat.sub_sub_self hle, min_self]
  have hlength : (reader.tail limit).length / reader.format.framesize * reader.format.framesize =
      (reader.tail limit).length := Nat.div_mul_cancel htail
  refine ⟨h.nchannels, h.sampwidth, h.framerate, ?_, ?_⟩
  · show (wav.readframes _ _).length = _
    rw [hframes, length_pieces hframesize htail]
    rfl
  · show wav.readframes _ _ = _
    rw [hframes, nframes_writtenReader, (reads_writtenReader _ _).1.frames_eq,
      show (writtenReader reader.format (reader.tail limit)).format = reader.format from rfl, hlength,
      List.take_length]

theorem wavBytesDurationMs_holds (hopen : waveOpen source = .ok reader) (h : reader.Holds wav) :
    wavBytesDurationMs source = wavDurationMs wav := by
  rw [wavBytesDurationMs, hopen, wavDurationMs, h.framerate, h.nframes]

theorem copyWavBytesTail_holds (hopen : waveOpen source = .ok reader) (h : reader.Holds wav) {limit : DurationLimit}
    (hclippable : reader.Clippable limit) :
    copyWavBytesTail source limit =
        .ok (waveBytes reader.format.nchannels reader.format.sampwidth reader.format.framerate (reader.tail limit),
          frameDurationMs (wav.keepFrames limit) wav.framerate) ∧
      copyWavTail wav limit = .ok (wav.written (wav.nframes - wav.keepFrames limit) (wav.keepFrames limit),
        frameDurationMs (wav.keepFrames limit) wav.framerate) := by
  have hrate : wav.framerate ≠ 0 := h.framerate ▸ hclippable.framerate_pos.ne'
  have hnarrow : ¬ 4 < wav.sampwidth := h.sampwidth ▸ not_lt.mpr hclippable.sampwidth_le
  have hkeep : wav.keepFrames limit = reader.keepFrames limit := by
    rw [Wav.keepFrames, WaveReader.keepFrames, h.nframes, h.framerate]
  constructor
  · rw [copyWavBytesTail, hopen, hkeep, h.framerate]
    exact (copyOpenedTail_spec hopen limit).1 hclippable
  · rw [copyWavTail, if_neg hrate]
    simp only [if_neg hnarrow]

/-- **The model of what a file holds is one of files.**  On bytes that open as a file of
whole frames, whose tail can be written if it has to be, preparing the bytes does what
preparing what they hold does: the same exception, or the same metadata and a file that
holds the same frames. -/
theorem prepareUpload_matches (configured : DurationLimit) (hopen : waveOpen upload.data = .ok reader)
    (h : reader.Holds wav) (hwhole : reader.format.framesize ∣ reader.frames.length)
    (hclippable : 0 < wav.framerate → ¬ (upload.opened wav).PassesWhole configured →
      reader.Clippable (upload.limit configured)) :
    Matches (prepareUpload configured (some upload)) (prepareReference configured (some (upload.opened wav))) := by
  have hlimit : (upload.opened wav).limit configured = upload.limit configured := rfl
  have hprompt : (promptTextForRequest (upload.opened wav)).isSome = upload.hasPromptText := by
    have hopened : (upload.opened wav).promptText = upload.promptText := rfl
    rw [promptTextForRequest, ReferenceUpload.hasPromptText, hopened]
    by_cases hempty : pyStrip (upload.promptText.getD "") = "" <;> simp [hempty]
  have hduration := wavBytesDurationMs_holds hopen h
  by_cases hmime : (pyStrip upload.mimeType).toLower ∈ ["audio/wav", "audio/x-wav", "audio/wave"]
  · have hdecode : upload.decode = .ok upload.data := if_pos hmime
    have hdecode' : decodeReferenceAudio (upload.opened wav) = .ok wav := if_pos hmime
    simp only [prepareUpload, prepareReference, hdecode, hdecode', hduration, hlimit, hprompt, bind, Except.bind,
      pure, Except.pure]
    cases hms : wavDurationMs wav with
    | error error => rfl
    | ok ms =>
      have hpos : 0 < wav.framerate ∧ frameDurationMs wav.nframes wav.framerate = ms := by
        unfold wavDurationMs at hms
        split_ifs at hms with hzero
        exact ⟨Nat.pos_of_ne_zero hzero, Except.ok.inj hms⟩
      simp only
      by_cases hpasses : ms ≤ (upload.limit configured).ms ∨ upload.hasPromptText = true
      · rw [if_pos hpasses, if_pos hpasses]
        exact ⟨rfl, reader, hopen, h⟩
      · have hcut : ¬ (upload.opened wav).PassesWhole configured := by
          rw [ReferenceAudio.PassesWhole, hlimit, hprompt]
          exact hpos.2 ▸ hpasses
        have hclip := hclippable hpos.1 hcut
        obtain ⟨hcopy, hcopy'⟩ := copyWavBytesTail_holds hopen h hclip
        rw [if_neg hpasses, if_neg hpasses, hcopy, hcopy']
        exact ⟨rfl, _, hclip.opens, h.written _ hwhole⟩
  · have hdecode : upload.decode =
        .error (.valueError s!"unsupported reference_audio mime_type: {pyRepr upload.mimeType}") := if_neg hmime
    have hdecode' : decodeReferenceAudio (upload.opened wav) =
        .error (.valueError s!"unsupported reference_audio mime_type: {pyRepr upload.mimeType}") := if_neg hmime
    simp only [prepareUpload, prepareReference, hdecode, hdecode', bind, Except.bind]
    exact rfl

end Holds

/-- The file with the three frames, sent as a reference. -/
def threeSecondsUpload : ReferenceUpload where
  mimeType := "audio/wav"
  data := waveBytes 1 2 1 threeSeconds
  maxDurationS := none
  promptText := none
  maxDurationS_bounds := by rintro m ⟨⟩

/-- What it holds. -/
def threeSecondsWav : Wav (List UInt8) where
  nchannels := 1
  sampwidth := 2
  framerate := 1
  nframes := 3
  frames := [[1, 2], [3, 4], [5, 6]]
  length_frames := by decide
  framerate_lt := by decide
  nframes_lt := by decide

/-- It is clipped to a second, on bytes as in the model. -/
theorem prepareUpload_matches_three_seconds :
    Matches (prepareUpload oneSecond (some threeSecondsUpload))
      (prepareReference oneSecond (some (threeSecondsUpload.opened threeSecondsWav))) := by
  have hframes : threeSecondsReader.frames = threeSeconds := (reads_writtenReader _ _).1.frames_eq
  have hholds : threeSecondsReader.Holds threeSecondsWav := by
    refine ⟨rfl, rfl, rfl, rfl, ?_⟩
    rw [hframes]
    show [[1, 2], [3, 4], [5, 6]] = pieces 2 [1, 2, 3, 4, 5, 6]
    rw [pieces_of_ne (by decide), pieces_of_ne (by decide), pieces_of_ne (by decide), pieces_of_nil (by decide)]
    rfl
  refine prepareUpload_matches oneSecond waveOpen_threeSeconds hholds ?_ fun _ _ => clippable_threeSeconds
  rw [hframes]
  decide

end TtsPool
