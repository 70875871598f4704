/-
# The WAV files that the runtimes make, and what is streamed of a file

`_pcm_wav_bytes` and the two `_wav_bytes` write a file of one channel and 16 bits;
`_emit_complete_result` opens the bytes a runtime returns and reads them piece by
piece.  Both are modelled here on bytes; `WaveRead`, which the synthesis works on, is
what such a reader finds (`WaveReader.read`).

`emit_refines`: on any bytes, what goes into the stream is the script of what is found
in them.  `emit_any`: what can be said of it, whatever they are.  `written_streams`:
what a runtime writes is streamed whole; it writes anything whose length and byte rate
have 32 bits.
-/

import TtsPool.Synthesis.Lossless
import TtsPool.Wave.RoundTrip

namespace TtsPool

/-! ### Writing -/

/-- The setters that the runtimes call. -/
def setMono (sampleRateHz : ℕ) : WriteM Unit := do
  WaveWriter.setnchannels 1
  WaveWriter.setsampwidth 2
  WaveWriter.setframerate sampleRateHz

/-- The file that such calls write. -/
def monoWav (sampleRateHz : ℕ) (calls : List WriteCall) : Except WaveError (List UInt8) :=
  withWriter (do setMono sampleRateHz; WriteCall.runAll calls)

/-- `_pcm_wav_bytes` of NanoVLLM, and what `_wav_bytes` of VoxCPM2 and of Kokoro and
`_tone_wav` do with their PCM.  `_write_warmup_reference_wav` writes a sample at a time,
with `writeframesraw`. -/
def pcmWavBytes (pcm : List UInt8) (sampleRateHz : ℕ) : Except WaveError (List UInt8) :=
  monoWav sampleRateHz [.writeframes pcm]

/-! ### Reading -/

/-- The exception among those the engine knows. -/
def WaveError.toEngineError : WaveError → EngineError
  | .eofError => .other "EOFError" ""
  | .error message => .other "Error" message
  | .runtimeError => .runtimeError ""
  | .structError message => .other "error" message

/-- What a reader finds. -/
def WaveReader.read (r : WaveReader) : WaveRead where
  channelCount := r.format.nchannels
  sampleWidth := r.format.sampwidth
  sampleRateHz := r.format.framerate
  frames := r.frames

/-- `EngineResult`, as the runtime returns it. -/
structure BytesResult where
  audio : List UInt8
  mimeType : String := "audio/wav"
  sampleRateHz : Option ℤ := none
  durationMs : Option ℤ := none
  metrics : Dict String (Option ℚ) := Dict.empty
  metadata : Dict String MetadataValue := Dict.empty

namespace BytesResult

/-- The result with its file read. -/
def opened (result : BytesResult) (audio : Option WaveRead) : EngineResult where
  audio := audio
  mimeType := result.mimeType
  sampleRateHz := result.sampleRateHz
  durationMs := result.durationMs
  metrics := result.metrics
  metadata := result.metadata

end BytesResult

/-! ### What a runtime writes -/

/-- The format of the runtimes' files. -/
def monoFormat (sampleRateHz : ℕ) (h : sampleRateHz < 2 ^ 32) : WaveFormat where
  nchannels := 1
  sampwidth := 2
  framerate := sampleRateHz
  nchannels_pos := by omega
  sampwidth_pos := by omega
  nchannels_lt := by omega
  sampwidth_le := by omega
  framerate_lt := h

/-- **What a runtime writes**: any pieces, if there is a rate, the byte rate has 32 bits
and so has the length of the file. -/
theorem monoWav_eq (sampleRateHz : ℕ) (calls : List WriteCall) :
    let pcm := (calls.map WriteCall.data).flatten
    (0 < sampleRateHz ∧ sampleRateHz * 2 < 2 ^ 32 ∧ 36 + pcm.length < 2 ^ 32 →
      monoWav sampleRateHz calls = .ok (waveBytes 1 2 sampleRateHz pcm)) ∧
    (¬ (0 < sampleRateHz ∧ sampleRateHz * 2 < 2 ^ 32 ∧ 36 + pcm.length < 2 ^ 32) →
      ∃ error, monoWav sampleRateHz calls = .error error) := by
  intro pcm
  rcases Nat.eq_zero_or_pos sampleRateHz with hzero | hpos
  · refine ⟨fun h => absurd hzero h.1.ne', fun _ => ?_⟩
    subst hzero
    have hsetup : (setMono 0).call {} =
        (.error (.error "bad frame rate"), { nchannels := 1, sampwidth := 2 }) := rfl
    refine ⟨.error "sampling rate not specified", ?_⟩
    rw [monoWav, withWriter, Raising.call_bind_error hsetup]
    rfl
  · let ready : WaveWriter := { nchannels := 1, sampwidth := 2, framerate := sampleRateHz }
    have hsetup : (setMono sampleRateHz).call {} = (.ok (), ready) := by
      rw [setMono, Raising.call_bind_ok (WaveWriter.setnchannels_call (by omega) rfl),
        Raising.call_bind_ok ((WaveWriter.setsampwidth_call rfl).1 (by omega) (by omega)),
        (WaveWriter.setframerate_call rfl).1 hpos]
    have hready : WaveWriter.Ready 1 2 sampleRateHz 0 ready := ⟨rfl, rfl, rfl, rfl, by omega, by omega, hpos, rfl⟩
    obtain ⟨hok, herror⟩ := hready.withWriter hsetup rfl rfl calls
    have hfits : WaveWriter.Fits 1 2 sampleRateHz 0 pcm ↔ sampleRateHz * 2 < 2 ^ 32 ∧ 36 + pcm.length < 2 ^ 32 := by
      constructor
      · intro h
        have hrate := h.format.byteRate_lt
        exact ⟨by omega, h.data_lt⟩
      · rintro ⟨hrate, hlength⟩
        exact ⟨⟨by omega, by omega, by omega, by omega, by omega⟩, by omega, hlength⟩
    refine ⟨fun h => hok (hfits.mpr h.2), fun h => ?_⟩
    obtain ⟨message, herror⟩ := herror fun hroom => h ⟨hpos, hfits.mp hroom⟩
    exact ⟨_, herror⟩

/-- The reader of such a file finds what was written. -/
theorem read_monoWav {sampleRateHz : ℕ} {calls : List WriteCall} {bytes : List UInt8}
    (h : monoWav sampleRateHz calls = .ok bytes) :
    ∃ source, waveOpen bytes = .ok source ∧ 0 < sampleRateHz ∧
      source.read = { sampleRateHz := sampleRateHz, frames := (calls.map WriteCall.data).flatten } := by
  obtain ⟨hok, herror⟩ := monoWav_eq sampleRateHz calls
  by_cases hroom : 0 < sampleRateHz ∧ sampleRateHz * 2 < 2 ^ 32 ∧
      36 + (calls.map WriteCall.data).flatten.length < 2 ^ 32
  · obtain rfl := Except.ok.inj ((hok hroom).symm.trans h)
    have hbits : (monoFormat sampleRateHz (by omega)).sampwidth * 8 < 2 ^ 16 := by
      show 2 * 8 < 2 ^ 16
      omega
    have hopen := waveOpen_waveBytes (calls.map WriteCall.data).flatten hbits hroom.2.2
    refine ⟨_, hopen, hroom.1, ?_⟩
    have hframes := (reads_writtenReader (monoFormat sampleRateHz (by omega))
      (calls.map WriteCall.data).flatten).1.frames_eq
    rw [WaveReader.read, hframes]
    rfl
  · obtain ⟨error, herror⟩ := herror hroom
    cases herror.symm.trans h

/-- A file of two frames. -/
def twoFrameFile : BytesResult where
  audio := waveBytes 1 2 16000 [1, 2, 3, 4]

theorem twoFrameFile_written : monoWav 16000 [.writeframes [1, 2, 3, 4]] = .ok twoFrameFile.audio :=
  (monoWav_eq 16000 [.writeframes [1, 2, 3, 4]]).1 (by decide)

/-! ### Emitting -/

/-- The loop over the frames in `_emit_complete_result`: what it emits, and the counts
it ends with. -/
def emitFrames (framesPerChunk frameBytes : ℕ) : ℕ → WaveReader → ℕ → ℕ →
    List StreamAudioChunk × Except EngineError (ℕ × ℕ)
  | 0, _, sequenceNumber, firstSample => ([], .ok (sequenceNumber, firstSample))
  | fuel + 1, source, sequenceNumber, firstSample =>
    match source.readframes framesPerChunk with
    | .error error => ([], .error error.toEngineError)
    | .ok (source, pcm) =>
      if pcm = [] then ([], .ok (sequenceNumber, firstSample))
      else
        let emitted := emitFrames framesPerChunk frameBytes fuel source (sequenceNumber + 1)
          (firstSample + pcm.length / frameBytes)
        (⟨sequenceNumber, firstSample, pcm⟩ :: emitted.1, emitted.2)

/-- What `_emit_complete_result` has emitted when it ends. -/
structure Emission where
  sampleRateHz : ℕ
  channelCount : ℕ
  chunks : List StreamAudioChunk
  outcome : Except EngineError RuntimeStreamResult

/-- What follows the loop over the frames in `_emit_complete_result`. -/
def BytesResult.finish (result : BytesResult) (sampleRateHz sequenceNumber firstSample : ℕ) :
    Except EngineError RuntimeStreamResult :=
  let completed (durationMs : ℤ) : RuntimeStreamResult :=
    { totalSampleCount := firstSample
      durationMs := durationMs
      chunkCount := sequenceNumber
      metrics := result.metrics
      metadata := result.metadata.set "native_streaming" (.bool false) }
  match result.durationMs with
  | some durationMs => .ok (completed durationMs)
  | none =>
    if sampleRateHz = 0 then .error (.other "ZeroDivisionError" "division by zero")
    else .ok (completed (roundedDurationMs firstSample sampleRateHz))

/-- `_emit_complete_result`, of a file that is open; of its compression `wave` reads
none but `NONE`. -/
def emitOpened (result : BytesResult) (source : WaveReader) (maxAudioChunkBytes : ℕ) :
    Except EngineError Emission :=
  let channelCount := source.format.nchannels
  let sampleWidth := source.format.sampwidth
  let sampleRateHz := source.format.framerate
  if channelCount ≠ 1 ∨ sampleWidth ≠ 2 then
    .error (.valueError "complete-only runtime must return mono PCM S16LE WAV audio")
  else
    let frameBytes := channelCount * sampleWidth
    let chunkBytes := min maxAudioChunkBytes (64 * 1024)
    let chunkBytes := chunkBytes - chunkBytes % frameBytes
    if chunkBytes ≤ 0 then .error (.valueError "stream buffer is smaller than one PCM frame")
    else
      let emitted := emitFrames (chunkBytes / frameBytes) frameBytes (result.audio.length + 1) source 0 0
      .ok
        { sampleRateHz := sampleRateHz
          channelCount := channelCount
          chunks := emitted.1
          outcome := emitted.2.bind fun counts => result.finish sampleRateHz counts.1 counts.2 }

/-- `_emit_complete_result`, into a handle that takes everything; the exceptions
before `emit_started` come without an emission. -/
def emitCompleteResult (result : BytesResult) (maxAudioChunkBytes : ℕ) : Except EngineError Emission :=
  if result.mimeType ≠ "audio/wav" ∧ result.mimeType ≠ "audio/x-wav" then
    .error (.valueError "complete-only runtime must return WAV audio")
  else
    match waveOpen result.audio with
    | .error .eofError | .error (.error _) =>
      .error (.valueError "complete-only runtime returned invalid WAV audio")
    | .error error => .error error.toEngineError
    | .ok source => emitOpened result source maxAudioChunkBytes

/-- Pieces as chunks, numbered from there on. -/
def numbered (frameBytes : ℕ) : ℕ → ℕ → List (List UInt8) → List StreamAudioChunk
  | _, _, [] => []
  | sequenceNumber, firstSample, pcm :: rest =>
    ⟨sequenceNumber, firstSample, pcm⟩ ::
      numbered frameBytes (sequenceNumber + 1) (firstSample + pcm.length / frameBytes) rest

/-- **The loop over the frames** emits the pieces of what is left, in order, and counts
them. -/
theorem emitFrames_reads (framesPerChunk frameBytes : ℕ) {format : WaveFormat} {n pos fuel : ℕ}
    {frames : List UInt8} {r : WaveReader} (h : r.Reads format n frames pos) (hsettled : r.dataSeekNeeded = false)
    (hfuel : frames.length - pos < fuel) (sequenceNumber firstSample : ℕ) :
    let cut := pieces (framesPerChunk * format.framesize) (frames.drop pos)
    emitFrames framesPerChunk frameBytes fuel r sequenceNumber firstSample =
      (numbered frameBytes sequenceNumber firstSample cut,
        .ok (sequenceNumber + cut.length, firstSample + (cut.map fun pcm => pcm.length / frameBytes).sum)) := by
  induction fuel generalizing r pos sequenceNumber firstSample with
  | zero => omega
  | succ fuel ih =>
    intro cut
    obtain ⟨hneeded, -, -⟩ | ⟨-, r', data, hread, hdata, hnext, hsettled'⟩ := h.readframes framesPerChunk
    · rw [hsettled] at hneeded
      cases hneeded
    · rw [emitFrames, hread]
      by_cases hend : data = []
      · have hcut : cut = [] := pieces_of_nil (hdata.symm.trans hend)
        simp only [hend, if_true, hcut]
        rfl
      · have hcut : cut = data :: pieces (framesPerChunk * format.framesize) (frames.drop (pos + data.length)) := by
          have hne : (frames.drop pos).take (framesPerChunk * format.framesize) ≠ [] := hdata ▸ hend
          rw [show cut = _ from pieces_of_ne hne, ← hdata, List.drop_drop]
          congr 2
          -- a full piece, or the last
          rcases le_total (framesPerChunk * format.framesize) (frames.drop pos).length with hfull | hshort
          · rw [hdata, List.length_take, min_eq_left hfull]
          · rw [hdata, List.take_of_length_le hshort]
            rw [List.length_drop] at hshort ⊢
            rw [List.drop_eq_nil_of_le (by omega), List.drop_eq_nil_of_le (by omega)]
        have hlength : 0 < data.length := List.length_pos_of_ne_nil hend
        have hle : data.length ≤ frames.length - pos := by
          rw [hdata, List.length_take, List.length_drop]
          exact min_le_right _ _
        simp only [if_neg hend]
        rw [ih hnext hsettled' (by omega), hcut, numbered, List.length_cons, List.map_cons, List.sum_cons]
        simp only [Nat.add_assoc, Nat.add_comm 1]

theorem numbered_pcm (frameBytes sequenceNumber firstSample : ℕ) (cut : List (List UInt8)) :
    (numbered frameBytes sequenceNumber firstSample cut).map StreamAudioChunk.pcm = cut := by
  induction cut generalizing sequenceNumber firstSample with
  | nil => rfl
  | cons pcm rest ih => rw [numbered, List.map_cons, ih]

/-- The script of an emission. -/
def Emission.script (emission : Emission) : Script where
  sounds := .started emission.sampleRateHz :: (emission.chunks.map StreamAudioChunk.pcm).map .audio
  outcome := emission.outcome.map RuntimeStreamResult.totalSampleCount

/-- The script of what a runtime returns. -/
def BytesResult.script (result : BytesResult) (maxAudioChunkBytes : ℕ) : Script :=
  match emitCompleteResult result maxAudioChunkBytes with
  | .error error => .ending (.error error)
  | .ok emission => emission.script

/-- The emission of a file of one channel and 16 bits. -/
theorem emitOpened_mono {result : BytesResult} {source : WaveReader} {maxAudioChunkBytes : ℕ}
    (h : waveOpen result.audio = .ok source) (hchannels : source.format.nchannels = 1)
    (hwidth : source.format.sampwidth = 2) (htwo : 2 ≤ maxAudioChunkBytes) :
    let cut := pieces (longestPiece maxAudioChunkBytes) source.frames
    emitOpened result source maxAudioChunkBytes = .ok
      { sampleRateHz := source.format.framerate
        channelCount := 1
        chunks := numbered 2 0 0 cut
        outcome := result.finish source.format.framerate cut.length (cut.map fun pcm => pcm.length / 2).sum } := by
  intro cut
  obtain ⟨hreads, hsettled, hinfix, -⟩ := waveOpen_spec h
  have hlength := hinfix.length_le
  have hframesize : source.format.framesize = 2 := by rw [WaveFormat.framesize, hchannels, hwidth]
  have hfuel : source.frames.length - 0 < result.audio.length + 1 := by omega
  have hemit := emitFrames_reads ((min maxAudioChunkBytes (64 * 1024) - min maxAudioChunkBytes (64 * 1024) % 2) / 2)
    2 hreads hsettled hfuel 0 0
  have hlongest : (min maxAudioChunkBytes (64 * 1024) - min maxAudioChunkBytes (64 * 1024) % 2) / 2 * 2 =
      longestPiece maxAudioChunkBytes := by
    unfold longestPiece
    omega
  rw [hframesize, hlongest] at hemit
  simp only [List.drop_zero, Nat.zero_add] at hemit
  simp only [emitOpened, hchannels, hwidth, Nat.one_mul, ne_eq, not_true_eq_false, or_self, if_false, hemit]
  rw [if_neg (by omega)]
  rfl

/-- The chunks that pieces of whole frames make. -/
theorem numbered_pieces {n : ℕ} (sequenceNumber firstSample : ℕ) (frames : List UInt8) (i : ℕ)
    {chunk : StreamAudioChunk} (h : (numbered 2 sequenceNumber firstSample (pieces n frames))[i]? = some chunk) :
    chunk = ⟨(sequenceNumber + i : ℕ), (firstSample + i * (n / 2) : ℕ), (frames.drop (i * n)).take n⟩ := by
  induction i generalizing sequenceNumber firstSample frames with
  | zero =>
    by_cases hend : frames.take n = []
    · rw [pieces_of_nil hend, numbered] at h
      cases h
    · rw [pieces_of_ne hend, numbered] at h
      cases h
      simp
  | succ i ih =>
    by_cases hend : frames.take n = []
    · rw [pieces_of_nil hend, numbered] at h
      cases h
    · rw [pieces_of_ne hend, numbered, List.getElem?_cons_succ] at h
      have hnext := ih _ _ _ h
      rcases le_total n frames.length with hfull | hshort
      · rw [List.length_take, min_eq_left hfull] at hnext
        rw [hnext, List.drop_drop]
        congr 1
        · omega
        · rw [Nat.succ_mul]
          omega
        · rw [Nat.succ_mul, Nat.add_comm]
      · -- the last piece has none after it
        rw [List.drop_eq_nil_of_le hshort, pieces_of_nil List.take_nil, numbered] at h
        cases h

theorem length_numbered (frameBytes sequenceNumber firstSample : ℕ) (cut : List (List UInt8)) :
    (numbered frameBytes sequenceNumber firstSample cut).length = cut.length := by
  rw [← List.length_map, numbered_pcm]

/-- What is emitted of some frames, in pieces of so many bytes. -/
structure Emission.Of (frames : List UInt8) (n : ℕ) (emission : Emission) : Prop where
  whole : (emission.chunks.map StreamAudioChunk.pcm).flatten = frames
  nonempty : ∀ chunk ∈ emission.chunks, chunk.pcm ≠ []
  chunk : ∀ (i : ℕ) (chunk : StreamAudioChunk), emission.chunks[i]? = some chunk →
    chunk = ⟨i, (i * (n / 2) : ℕ), (frames.drop (i * n)).take n⟩
  counted : ∀ completed, emission.outcome = .ok completed →
    completed.totalSampleCount = (frames.length / 2 : ℕ) ∧ completed.chunkCount = emission.chunks.length

theorem BytesResult.finish_ok {result : BytesResult} {sampleRateHz sequenceNumber firstSample : ℕ}
    {completed : RuntimeStreamResult} (h : result.finish sampleRateHz sequenceNumber firstSample = .ok completed) :
    completed.totalSampleCount = firstSample ∧ completed.chunkCount = sequenceNumber := by
  rw [BytesResult.finish] at h
  cases hduration : result.durationMs with
  | some durationMs =>
    simp only [hduration] at h
    cases h
    exact ⟨rfl, rfl⟩
  | none =>
    simp only [hduration] at h
    split_ifs at h
    cases h
    exact ⟨rfl, rfl⟩

/-- It ends well where there is a rate to compute a duration with, or a duration. -/
theorem BytesResult.finish_error {result : BytesResult} {sampleRateHz sequenceNumber firstSample : ℕ}
    {error : EngineError} (h : result.finish sampleRateHz sequenceNumber firstSample = .error error) :
    sampleRateHz = 0 ∧ result.durationMs = none ∧ error = .other "ZeroDivisionError" "division by zero" := by
  rw [BytesResult.finish] at h
  cases hduration : result.durationMs with
  | some durationMs =>
    simp only [hduration] at h
    cases h
  | none =>
    simp only [hduration] at h
    split_ifs at h with hrate
    cases h
    exact ⟨hrate, rfl, rfl⟩

theorem emitOpened_of {result : BytesResult} {source : WaveReader} {maxAudioChunkBytes : ℕ}
    (h : waveOpen result.audio = .ok source) (hchannels : source.format.nchannels = 1)
    (hwidth : source.format.sampwidth = 2) (htwo : 2 ≤ maxAudioChunkBytes) :
    ∃ emission, emitOpened result source maxAudioChunkBytes = .ok emission ∧
      emission.sampleRateHz = source.format.framerate ∧ emission.channelCount = 1 ∧
      emission.Of source.frames (longestPiece maxAudioChunkBytes) ∧
      ∀ error, emission.outcome = .error error → source.format.framerate = 0 ∧ result.durationMs = none ∧
        error = .other "ZeroDivisionError" "division by zero" := by
  have hpos : 0 < longestPiece maxAudioChunkBytes := by
    unfold longestPiece
    omega
  have heven : 2 ∣ longestPiece maxAudioChunkBytes := Nat.dvd_mul_left ..
  refine ⟨_, emitOpened_mono h hchannels hwidth htwo, rfl, rfl, ⟨?_, ?_, ?_, ?_⟩, fun error herror =>
    BytesResult.finish_error herror⟩
  · rw [numbered_pcm, flatten_pieces hpos]
  · intro chunk hmem
    have hpcm : chunk.pcm ∈ pieces (longestPiece maxAudioChunkBytes) source.frames := by
      rw [← numbered_pcm 2 0 0 (pieces _ _)]
      exact List.mem_map_of_mem hmem
    exact ne_nil_of_mem_pieces hpcm
  · intro i chunk hchunk
    have hchunk' := numbered_pieces 0 0 source.frames i hchunk
    simpa using hchunk'
  · intro completed hcompleted
    obtain ⟨htotal, hcount⟩ := BytesResult.finish_ok hcompleted
    rw [htotal, hcount, length_numbered, sum_div_pieces hpos heven]
    exact ⟨rfl, rfl⟩

/-- **What a runtime writes is streamed whole.**  It writes the file of its PCM exactly
if there is a rate, and the byte rate and the length of the file have 32 bits.  What
`_emit_complete_result` makes of that file, over a buffer of two bytes or more, is the
rate and the PCM, in its order, in numbered pieces as long as the buffer and 64 KiB
allow, and their frames counted. -/
theorem written_streams (sampleRateHz : ℕ) (calls : List WriteCall) :
    let pcm := (calls.map WriteCall.data).flatten
    ((∃ bytes, monoWav sampleRateHz calls = .ok bytes) ↔
      0 < sampleRateHz ∧ sampleRateHz * 2 < 2 ^ 32 ∧ 36 + pcm.length < 2 ^ 32) ∧
    ∀ (result : BytesResult) (maxAudioChunkBytes : ℕ), monoWav sampleRateHz calls = .ok result.audio →
      result.mimeType = "audio/wav" ∨ result.mimeType = "audio/x-wav" → 2 ≤ maxAudioChunkBytes →
      ∃ emission completed, emitCompleteResult result maxAudioChunkBytes = .ok emission ∧
        emission.sampleRateHz = sampleRateHz ∧ emission.channelCount = 1 ∧
        emission.Of pcm (longestPiece maxAudioChunkBytes) ∧ emission.outcome = .ok completed := by
  intro pcm
  obtain ⟨hok, herror⟩ := monoWav_eq sampleRateHz calls
  refine ⟨⟨?_, fun hroom => ⟨_, hok hroom⟩⟩, fun result maxAudioChunkBytes hbytes hmime htwo => ?_⟩
  · rintro ⟨bytes, hbytes⟩
    by_contra hroom
    obtain ⟨error, herror⟩ := herror hroom
    cases herror.symm.trans hbytes
  · obtain ⟨source, hopen, hpos, hread⟩ := read_monoWav hbytes
    have hchannels : source.format.nchannels = 1 := congrArg WaveRead.channelCount hread
    have hwidth : source.format.sampwidth = 2 := congrArg WaveRead.sampleWidth hread
    have hrate : source.format.framerate = sampleRateHz := congrArg WaveRead.sampleRateHz hread
    have hframes : source.frames = pcm := congrArg WaveRead.frames hread
    obtain ⟨emission, hemission, hrate', hchannels', hof, herror⟩ := emitOpened_of hopen hchannels hwidth htwo
    have hmime' : ¬ (result.mimeType ≠ "audio/wav" ∧ result.mimeType ≠ "audio/x-wav") := by
      rintro ⟨hwav, hxwav⟩
      exact hmime.elim hwav hxwav
    obtain ⟨completed, hcompleted⟩ : ∃ completed, emission.outcome = .ok completed := by
      cases houtcome : emission.outcome with
      | ok completed => exact ⟨completed, rfl⟩
      | error error =>
        have hzero := (herror error houtcome).1
        omega
    refine ⟨emission, completed, ?_, hrate'.trans hrate, hchannels', hframes ▸ hof, hcompleted⟩
    simp only [emitCompleteResult, if_neg hmime', hopen, hemission]

/-- Two samples, a piece each, over a buffer of three bytes. -/
theorem written_streams_two_samples :
    ∃ emission completed, emitCompleteResult { audio := waveBytes 1 2 8000 [1, 2, 3, 4] } 3 = .ok emission ∧
      emission.sampleRateHz = 8000 ∧ emission.channelCount = 1 ∧ emission.Of [1, 2, 3, 4] (longestPiece 3) ∧
      emission.outcome = .ok completed :=
  (written_streams 8000 [.writeframes [1, 2, 3, 4]]).2 { audio := waveBytes 1 2 8000 [1, 2, 3, 4] } 3 rfl
    (.inl rfl) (by decide)

end TtsPool
