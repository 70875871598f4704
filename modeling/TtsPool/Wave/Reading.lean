/-
# Opening a WAV file

`Wave_read` of Python's `wave` module.  It takes the bytes of a file for a RIFF chunk,
and looks in there for a chunk `data` after a chunk `fmt `; the others it skips.
The sizes are the file's own: a chunk may announce more than there is, and the RIFF
chunk less than it holds.  `_nframes` is what the data chunk announces.

Opening ends in any case, with a reader or with `EOFError`, `wave.Error` or
`RuntimeError`, the last where a skipped chunk reaches past the RIFF chunk
(`scan_fuel`).  What a reader reads is one list of bytes, a
part of the file (`WaveReader.frames`); `readframes` takes the next of it, and
`setpos` goes to a frame (`WaveReader.Reads`).
-/

import TtsPool.Wave.Chunks

namespace TtsPool

/-- The exceptions of `wave`, and of `struct` under it. -/
inductive WaveError where
  | eofError
  /-- `wave.Error`. -/
  | error (message : String)
  /-- `RuntimeError()`, of a position outside a chunk. -/
  | runtimeError
  /-- `struct.error`. -/
  | structError (message : String)
deriving DecidableEq

/-- `b'RIFF'`. -/
def riffId : List UInt8 := [82, 73, 70, 70]

/-- `b'WAVE'`. -/
def waveId : List UInt8 := [87, 65, 86, 69]

/-- `b'fmt '`. -/
def fmtId : List UInt8 := [102, 109, 116, 32]

/-- `b'data'`. -/
def dataId : List UInt8 := [100, 97, 116, 97]

/-! ### The format -/

/-- `struct.unpack_from` of one unsigned integer. -/
def unpackFrom (bytes : List UInt8) (pos width : ℕ) : ℕ := leNat ((bytes.drop pos).take width)

theorem unpackFrom_lt (bytes : List UInt8) (pos width : ℕ) : unpackFrom bytes pos width < 256 ^ width :=
  (leNat_lt _).trans_le (Nat.pow_le_pow_right (by omega) (List.length_take_le _ _))

/-- What `_read_fmt_chunk` takes of a format. -/
@[ext]
structure WaveFormat where
  nchannels : ℕ
  sampwidth : ℕ
  framerate : ℕ
  nchannels_pos : 0 < nchannels
  sampwidth_pos : 0 < sampwidth
  nchannels_lt : nchannels < 2 ^ 16
  sampwidth_le : sampwidth ≤ 2 ^ 13
  framerate_lt : framerate < 2 ^ 32

namespace WaveFormat

/-- `_framesize`. -/
def framesize (format : WaveFormat) : ℕ := format.nchannels * format.sampwidth

theorem framesize_pos (format : WaveFormat) : 0 < format.framesize :=
  Nat.mul_pos format.nchannels_pos format.sampwidth_pos

end WaveFormat

section readFmtChunk

variable {F : Type} [FileObject F]

/-- `_read_fmt_chunk`. -/
def readFmtChunk (chunk : Chunk F) : Except WaveError (WaveFormat × Chunk F) :=
  let head := chunk.read 14
  if head.2.length < 14 then .error .eofError
  else
    let wFormatTag := unpackFrom head.2 0 2
    let nchannels := unpackFrom head.2 2 2
    let framerate := unpackFrom head.2 4 4
    if wFormatTag ≠ 1 then .error (.error s!"unknown format: {wFormatTag}")
    else
      let bits := head.1.read 2
      if bits.2.length < 2 then .error .eofError
      else
        let sampwidth := (unpackFrom bits.2 0 2 + 7) / 8
        if hwidth : sampwidth = 0 then .error (.error "bad sample width")
        else if hchannels : nchannels = 0 then .error (.error "bad # of channels")
        else .ok
          ({ nchannels := nchannels
             sampwidth := sampwidth
             framerate := framerate
             nchannels_pos := Nat.pos_of_ne_zero hchannels
             sampwidth_pos := Nat.pos_of_ne_zero hwidth
             nchannels_lt := unpackFrom_lt head.2 2 2
             sampwidth_le := by
               have := unpackFrom_lt bits.2 0 2
               show (unpackFrom bits.2 0 2 + 7) / 8 ≤ 2 ^ 13
               omega
             framerate_lt := unpackFrom_lt head.2 4 4 }, bits.1)

end readFmtChunk

/-! ### The reader -/

/-- `Wave_read`, opened. -/
structure WaveReader where
  format : WaveFormat
  dataChunk : Chunk (Chunk BytesFile)
  soundpos : ℕ := 0
  dataSeekNeeded : Bool := false

/-- The loop over the chunks in `initfp`. -/
def scan : ℕ → Option WaveFormat → Chunk BytesFile → Except WaveError WaveReader
  | 0, _, _ => .error (.error "fmt chunk and/or data chunk missing")
  | fuel + 1, format, file =>
    match Chunk.new? file with
    | none => .error (.error "fmt chunk and/or data chunk missing")
    | some chunk =>
      if chunk.chunkname = fmtId then
        match readFmtChunk chunk with
        | .error error => .error error
        | .ok (format, chunk) =>
          match chunk.skip with
          | none => .error .runtimeError
          | some file => scan fuel (some format) file
      else if chunk.chunkname = dataId then
        match format with
        | none => .error (.error "data chunk before fmt chunk")
        | some format => .ok { format := format, dataChunk := chunk }
      else
        match chunk.skip with
        | none => .error .runtimeError
        | some file => scan fuel format file

/-- `wave.open` of the bytes of a file. -/
def waveOpen (bytes : List UInt8) : Except WaveError WaveReader :=
  match Chunk.new? ({ bytes := bytes } : BytesFile) with
  | none => .error .eofError
  | some file =>
    if file.chunkname ≠ riffId then .error (.error "file does not start with RIFF id")
    else
      let form := file.read 4
      if form.2 ≠ waveId then .error (.error "not a WAVE file")
      else scan (bytes.length + 1) none form.1

namespace WaveReader

/-- `getnframes`. -/
def nframes (r : WaveReader) : ℕ := r.dataChunk.chunksize / r.format.framesize

/-- `setpos`. -/
def setpos (r : WaveReader) (pos : ℕ) : Except WaveError WaveReader :=
  if r.nframes < pos then .error (.error "position not in range")
  else .ok { r with soundpos := pos, dataSeekNeeded := true }

/-- The position that `setpos` has left to be sought. -/
def seekData (r : WaveReader) : Except WaveError WaveReader :=
  if r.dataSeekNeeded then
    match r.dataChunk.seek 0 with
    | none => .error .runtimeError
    | some chunk =>
      let pos := r.soundpos * r.format.framesize
      if pos = 0 then .ok { r with dataChunk := chunk, dataSeekNeeded := false }
      else
        match chunk.seek pos with
        | none => .error .runtimeError
        | some chunk => .ok { r with dataChunk := chunk, dataSeekNeeded := false }
  else .ok r

/-- `readframes`. -/
def readframes (r : WaveReader) (nframes : ℕ) : Except WaveError (WaveReader × List UInt8) :=
  match r.seekData with
  | .error error => .error error
  | .ok r =>
    if nframes = 0 then .ok (r, [])
    else
      let got := r.dataChunk.read (nframes * r.format.framesize)
      .ok ({ r with dataChunk := got.1, soundpos := r.soundpos + got.2.length / r.format.framesize }, got.2)

/-- What the data chunk holds of the file. -/
def frames (r : WaveReader) : List UInt8 := LawfulFile.content r.dataChunk

/-- A reader of these frames, at a byte of them. -/
structure Reads (format : WaveFormat) (nframes : ℕ) (frames : List UInt8) (pos : ℕ) (r : WaveReader) : Prop where
  format_eq : r.format = format
  nframes_eq : r.nframes = nframes
  frames_eq : r.frames = frames
  left : r.dataSeekNeeded = false → Chunk.At r.dataChunk pos
  sought : r.dataSeekNeeded = true → pos = r.soundpos * format.framesize

variable {format : WaveFormat} {n pos count : ℕ} {bytes : List UInt8} {r r' : WaveReader}

/-- A position that can be sought, in bytes. -/
def Reaches (r : WaveReader) (pos : ℕ) : Prop :=
  pos ≤ r.dataChunk.chunksize ∧ r.dataChunk.offset + pos ≤ r.dataChunk.file.chunksize

instance (r : WaveReader) (pos : ℕ) : Decidable (r.Reaches pos) := inferInstanceAs (Decidable (_ ∧ _))

theorem Reads.setpos (h : Reads format n bytes pos r) (hcount : count ≤ n) :
    ∃ r', r.setpos count = .ok r' ∧ Reads format n bytes (count * format.framesize) r' ∧
      r'.dataChunk = r.dataChunk ∧ r'.soundpos = count ∧ r'.dataSeekNeeded = true := by
  refine ⟨{ r with soundpos := count, dataSeekNeeded := true }, if_neg ?_,
    ⟨h.format_eq, h.nframes_eq, h.frames_eq, fun h => Bool.noConfusion h, fun _ => rfl⟩, rfl, rfl, rfl⟩
  rw [h.nframes_eq]
  omega

/-- What a seek leaves of the chunk. -/
theorem Reads.of_seek (h : Reads format n bytes pos r) {chunk chunk' : Chunk (Chunk BytesFile)} {pos' : ℕ}
    (hcontent : LawfulFile.content chunk = bytes) (hsize : chunk.chunksize = r.dataChunk.chunksize)
    (hseek : chunk.seek pos' = some chunk') :
    Reads format n bytes pos' { r with dataChunk := chunk', dataSeekNeeded := false } := by
  have hsought := Chunk.seek_spec hseek
  have hrest := LawfulFile.rest_seek _ _ _ (show FileObject.seek chunk pos' = _ from hseek)
  have hcontent' := LawfulFile.content_seek _ _ _ (show FileObject.seek chunk pos' = _ from hseek)
  refine ⟨h.format_eq, ?_, hcontent'.trans hcontent, fun _ => ?_, fun h => Bool.noConfusion h⟩
  · rw [← h.nframes_eq, WaveReader.nframes, WaveReader.nframes, hsought.1, hsize]
  · rw [Chunk.At, hcontent', hrest]

/-- **Seeking** finds the frame that `setpos` has chosen, if the file's own sizes let
it. -/
theorem Reads.seekData (h : Reads format n bytes pos r) :
    (r.dataSeekNeeded = true ∧ ¬ r.Reaches pos ∧ r.seekData = .error .runtimeError) ∨
      (r.dataSeekNeeded = true → r.Reaches pos) ∧
        ∃ r', r.seekData = .ok r' ∧ Reads format n bytes pos r' ∧ r'.dataSeekNeeded = false := by
  unfold WaveReader.seekData
  by_cases hneeded : r.dataSeekNeeded = true
  · have hpos := h.sought hneeded
    have hframe : r.soundpos * r.format.framesize = pos := by rw [hpos, h.format_eq]
    rw [if_pos hneeded, hframe]
    cases hzero : r.dataChunk.seek 0 with
    | none =>
      refine .inl ⟨hneeded, fun hreach => ?_, rfl⟩
      have hsome := (Chunk.seek_isSome_iff r.dataChunk 0).mpr ⟨by omega, by have := hreach.2; omega⟩
      rw [hzero] at hsome
      cases hsome
    | some chunk =>
      have hzeroth := Chunk.seek_spec hzero
      have houter := Chunk.seek_file hzero
      have hcontent : LawfulFile.content chunk = bytes :=
        (LawfulFile.content_seek _ _ _ (show FileObject.seek r.dataChunk 0 = _ from hzero)).trans h.frames_eq
      have hstart := (Chunk.seek_isSome_iff _ _).mp (Option.isSome_of_eq_some hzero)
      simp only
      split_ifs with hfirst
      · refine .inr ⟨fun _ => ⟨by omega, by omega⟩, _, rfl, ?_, rfl⟩
        rw [hfirst]
        exact h.of_seek h.frames_eq rfl hzero
      · cases hthen : chunk.seek pos with
        | none =>
          refine .inl ⟨hneeded, fun hreach => ?_, rfl⟩
          have hsome := (Chunk.seek_isSome_iff chunk pos).mpr
            ⟨hzeroth.1 ▸ hreach.1, houter ▸ hzeroth.2.1 ▸ hreach.2⟩
          rw [hthen] at hsome
          cases hsome
        | some chunk' =>
          have hreach := (Chunk.seek_isSome_iff _ _).mp (Option.isSome_of_eq_some hthen)
          rw [hzeroth.1, hzeroth.2.1, houter] at hreach
          exact .inr ⟨fun _ => hreach, _, rfl, h.of_seek hcontent hzeroth.1 hthen, rfl⟩
  · refine .inr ⟨fun h => absurd h hneeded, r, if_neg hneeded, h, ?_⟩
    simpa using hneeded

/-- **`readframes` takes the next bytes**, whole frames as long as there are any. -/
theorem Reads.readframes (h : Reads format n bytes pos r) (count : ℕ) :
    (r.dataSeekNeeded = true ∧ ¬ r.Reaches pos ∧ r.readframes count = .error .runtimeError) ∨
      (r.dataSeekNeeded = true → r.Reaches pos) ∧
        ∃ r' data, r.readframes count = .ok (r', data) ∧ data = (bytes.drop pos).take (count * format.framesize) ∧
          Reads format n bytes (pos + data.length) r' ∧ r'.dataSeekNeeded = false := by
  obtain ⟨hneeded, hfar, hseek⟩ | ⟨hreach, r', hseek, h', hsettled⟩ := h.seekData
  · refine .inl ⟨hneeded, hfar, ?_⟩
    rw [WaveReader.readframes, hseek]
  · refine .inr ⟨hreach, ?_⟩
    have hat := h'.left hsettled
    rw [WaveReader.readframes, hseek]
    simp only
    split_ifs with hcount
    · refine ⟨r', [], rfl, ?_, h', hsettled⟩
      rw [hcount, Nat.zero_mul, List.take_zero]
    · have hdata : (r'.dataChunk.read (count * r'.format.framesize)).2 =
          (bytes.drop pos).take (count * format.framesize) := by
        rw [h'.format_eq, ← h'.frames_eq]
        exact (LawfulFile.read_data r'.dataChunk _).trans (congrArg _ hat)
      refine ⟨_, _, rfl, hdata, ⟨h'.format_eq, ?_, ?_, fun _ => hat.read _, fun h => ?_⟩, hsettled⟩
      · rw [← h'.nframes_eq, WaveReader.nframes, WaveReader.nframes, (r'.dataChunk.read_sizes _).1]
      · exact (LawfulFile.content_read r'.dataChunk _).trans h'.frames_eq
      · rw [hsettled] at h
        cases h

end WaveReader

/-! ### Opening -/

theorem readFmtChunk_ok {F : Type} [FileObject F] {chunk chunk' : Chunk F} {format : WaveFormat}
    (h : readFmtChunk chunk = .ok (format, chunk')) : chunk' = ((chunk.read 14).1.read 2).1 := by
  simp only [readFmtChunk] at h
  split_ifs at h
  cases h
  rfl

theorem readFmtChunk_error {F : Type} [FileObject F] {chunk : Chunk F} {error : WaveError}
    (h : readFmtChunk chunk = .error error) (message : String) : error ≠ .structError message := by
  simp only [readFmtChunk] at h
  split_ifs at h <;> cases h <;> exact WaveError.noConfusion

/-- A reader just opened inside a RIFF chunk. -/
structure Fresh (file : Chunk BytesFile) (r : WaveReader) : Prop where
  inStep : r.dataChunk.InStep
  sizeRead : r.dataChunk.sizeRead = 0
  content : LawfulFile.content r.dataChunk.file = LawfulFile.content file
  chunksize_lt : r.dataChunk.chunksize < 2 ^ 32
  settled : r.dataSeekNeeded = false

/-- A chunk that is skipped: the loop goes on behind it. -/
structure Skips (file file' : Chunk BytesFile) : Prop where
  inStep : file'.InStep
  content : LawfulFile.content file' = LawfulFile.content file
  shorter : (LawfulFile.rest file').length < (LawfulFile.rest file).length

theorem skips_of_skip {file file' : Chunk BytesFile} {chunk chunk' : Chunk (Chunk BytesFile)}
    (hopened : Chunk.Opened file chunk) (hfile : chunk'.file.InStep)
    (hcontent : LawfulFile.content chunk'.file = LawfulFile.content chunk.file)
    (hrest : (LawfulFile.rest chunk'.file).length ≤ (LawfulFile.rest chunk.file).length)
    (hskip : chunk'.skip = some file') : Skips file file' := by
  obtain ⟨hstep, hcontent', hrest'⟩ := Chunk.skip_spec hfile hskip
  refine ⟨hstep, hcontent'.trans (hcontent.trans hopened.content), ?_⟩
  rw [hopened.rest, List.length_drop] at hrest
  rw [hrest', List.length_drop]
  have := hopened.header
  omega

/-- **One turn of the loop** fails, finds the data, or goes on behind a chunk. -/
theorem scan_cases {file : Chunk BytesFile} (h : file.InStep) (format : Option WaveFormat) :
    (∃ error, (∀ message, error ≠ .structError message) ∧ ∀ fuel, scan (fuel + 1) format file = .error error) ∨
      (∃ r, Fresh file r ∧ ∀ fuel, scan (fuel + 1) format file = .ok r) ∨
      ∃ format' file', Skips file file' ∧ ∀ fuel, scan (fuel + 1) format file = scan fuel format' file' := by
  cases hnew : Chunk.new? file with
  | none => exact .inl ⟨_, fun _ => WaveError.noConfusion, fun fuel => by rw [scan, hnew]⟩
  | some chunk =>
    have hopened := Chunk.opened_of_new hnew
    obtain ⟨hfile, hchunk⟩ := Chunk.inStep_of_new h hnew
    simp only [scan, hnew]
    split_ifs with hfmt hdata
    · cases hread : readFmtChunk chunk with
      | error error => exact .inl ⟨error, readFmtChunk_error hread, fun _ => rfl⟩
      | ok read =>
        obtain ⟨format', chunk'⟩ := read
        have hchunk' := readFmtChunk_ok hread
        cases hskip : chunk'.skip with
        | none => exact .inl ⟨.runtimeError, fun _ => WaveError.noConfusion, fun _ => by simp only [hskip]⟩
        | some file' =>
          refine .inr (.inr ⟨some format', file', skips_of_skip hopened ?_ ?_ ?_ hskip, fun _ => by
            simp only [hskip]⟩)
          · rw [hchunk']
            exact Chunk.InStep.file_read (Chunk.InStep.file_read hfile 14) 2
          · rw [hchunk', Chunk.content_file_read, Chunk.content_file_read]
          · rw [hchunk']
            exact (Chunk.length_rest_file_read _ 2).trans (Chunk.length_rest_file_read _ 14)
    · cases format with
      | none => exact .inl ⟨_, fun _ => WaveError.noConfusion, fun _ => rfl⟩
      | some format =>
        refine .inr (.inl ⟨_, ⟨hchunk, hopened.sizeRead, hopened.content, hopened.chunksize_lt, rfl⟩, fun _ => rfl⟩)
    · cases hskip : chunk.skip with
      | none => exact .inl ⟨_, fun _ => WaveError.noConfusion, fun _ => rfl⟩
      | some file' => exact .inr (.inr ⟨format, file', skips_of_skip hopened hfile rfl le_rfl hskip, fun _ => rfl⟩)

/-- **The loop ends**: with as many turns as bytes are left, more make no
difference. -/
theorem scan_fuel {fuel fuel' : ℕ} {file : Chunk BytesFile} (h : file.InStep) (format : Option WaveFormat)
    (hfuel : (LawfulFile.rest file).length < fuel) (hfuel' : (LawfulFile.rest file).length < fuel') :
    scan fuel format file = scan fuel' format file := by
  induction fuel generalizing fuel' format file with
  | zero => omega
  | succ fuel ih =>
    obtain _ | fuel' := fuel'
    · omega
    · obtain ⟨error, -, herror⟩ | ⟨r, -, hr⟩ | ⟨format', file', hskips, hnext⟩ := scan_cases h format
      · rw [herror, herror]
      · rw [hr, hr]
      · have := hskips.shorter
        rw [hnext, hnext]
        exact ih hskips.inStep format' (by omega) (by omega)

/-- What the loop ends with. -/
theorem scan_spec (fuel : ℕ) {file : Chunk BytesFile} (h : file.InStep) (format : Option WaveFormat) :
    (∃ error, (∀ message, error ≠ .structError message) ∧ scan fuel format file = .error error) ∨
      ∃ r, Fresh file r ∧ scan fuel format file = .ok r := by
  induction fuel generalizing format file with
  | zero => exact .inl ⟨_, fun _ => WaveError.noConfusion, rfl⟩
  | succ fuel ih =>
    obtain ⟨error, herror, hscan⟩ | ⟨r, hr, hscan⟩ | ⟨format', file', hskips, hnext⟩ := scan_cases h format
    · exact .inl ⟨error, herror, hscan fuel⟩
    · exact .inr ⟨r, hr, hscan fuel⟩
    · obtain ⟨error, herror, hscan⟩ | ⟨r, hr, hscan⟩ := ih hskips.inStep format'
      · exact .inl ⟨error, herror, (hnext fuel).trans hscan⟩
      · exact .inr ⟨r, ⟨hr.inStep, hr.sizeRead, hr.content.trans hskips.content, hr.chunksize_lt, hr.settled⟩,
          (hnext fuel).trans hscan⟩

/-- **A file that opens** is read from its beginning: the frames are a part of the
file, no more than the data chunk announces. -/
theorem waveOpen_spec {bytes : List UInt8} {r : WaveReader} (h : waveOpen bytes = .ok r) :
    r.Reads r.format r.nframes r.frames 0 ∧ r.dataSeekNeeded = false ∧ r.frames <:+: bytes ∧
      r.frames.length ≤ r.dataChunk.chunksize ∧ r.dataChunk.chunksize < 2 ^ 32 := by
  unfold waveOpen at h
  cases hnew : Chunk.new? ({ bytes := bytes } : BytesFile) with
  | none =>
    rw [hnew] at h
    cases h
  | some file =>
    simp only [hnew] at h
    split_ifs at h
    have hstep := (Chunk.inStep_of_new_bytes hnew).read 4
    obtain ⟨error, -, hscan⟩ | ⟨r', hr, hscan⟩ := scan_spec (bytes.length + 1) hstep none
    · cases hscan.symm.trans h
    · cases hscan.symm.trans h
      have hframes : r.frames = ((((bytes.drop file.offset).take file.chunksize).drop r.dataChunk.offset).take
          r.dataChunk.chunksize) := by
        show ((LawfulFile.content r.dataChunk.file).drop _).take _ = _
        rw [hr.content]
        have hsizes := file.read_sizes 4
        show (((((LawfulFile.content (file.read 4).1.file).drop (file.read 4).1.offset).take
          (file.read 4).1.chunksize).drop _).take _) = _
        rw [hsizes.1, hsizes.2, Chunk.content_file_read, (Chunk.opened_of_new hnew).content]
        rfl
      refine ⟨⟨rfl, rfl, rfl, fun _ => ?_, fun h => ?_⟩, hr.settled, ?_, ?_, hr.chunksize_lt⟩
      · have hat := hr.inStep.at
        rwa [hr.sizeRead] at hat
      · rw [hr.settled] at h
        cases h
      · rw [hframes]
        refine (List.take_prefix _ _).isInfix.trans ((List.drop_suffix _ _).isInfix.trans ?_)
        exact (List.take_prefix _ _).isInfix.trans (List.drop_suffix _ _).isInfix
      · exact List.length_take_le _ _

end TtsPool
