/-
# Writing a WAV file

`Wave_write` of Python's `wave` module, in a `with` block.  The header goes out with
the first frames, with the frame count that was set or the one those frames make,
and is patched when more is written; `close`, which the `with` block calls however it
ends, writes it if nothing was written, and what `close` raises takes the place of
what the block has raised.

`withWriter_writes`: whatever pieces are written, the file is the header of their
length and the pieces one after the other, unless a number is too large for its
field, in which case it ends in `struct.error`.
-/

import TtsPool.Support.Raising
import TtsPool.Wave.Reading

namespace TtsPool

/-- `write` of a file that is open for writing, or of an `io.BytesIO`. -/
def BytesFile.write (f : BytesFile) (data : List UInt8) : BytesFile where
  bytes :=
    f.bytes.take f.pos ++ List.replicate (f.pos - f.bytes.length) 0 ++ data ++ f.bytes.drop (f.pos + data.length)
  pos := f.pos + data.length

/-- What `struct.pack` raises for a number that does not fit in four bytes. -/
def structErrorL : WaveError := .structError "'L' format requires 0 <= number <= 4294967295"

/-- `struct.pack('<L', n)`. -/
def packL (n : ℕ) : Except WaveError (List UInt8) :=
  if n < 2 ^ 32 then .ok (leBytes 4 n) else .error structErrorL

/-- `struct.pack('<H', n)`. -/
def packH (n : ℕ) : Except WaveError (List UInt8) :=
  if n < 2 ^ 16 then .ok (leBytes 2 n) else .error (.structError "ushort format requires 0 <= number <= 65535")

/-- `Wave_write`. -/
structure WaveWriter where
  file : BytesFile := { bytes := [] }
  nchannels : ℕ := 0
  sampwidth : ℕ := 0
  framerate : ℕ := 0
  nframes : ℕ := 0
  nframeswritten : ℕ := 0
  datawritten : ℕ := 0
  datalength : ℕ := 0
  headerwritten : Bool := false
  formLengthPos : ℕ := 0
  dataLengthPos : ℕ := 0

/-- A method of the writer. -/
abbrev WriteM := Raising WaveError WaveWriter

namespace WaveWriter

def write (w : WaveWriter) (data : List UInt8) : WaveWriter := { w with file := w.file.write data }

def seek (w : WaveWriter) (pos : ℕ) : WaveWriter := { w with file := { w.file with pos := pos } }

/-- What `_write_header` packs behind the length of the form. -/
def packFormat (w : WaveWriter) : Except WaveError (List UInt8) := do
  let size ← packL 16
  let tag ← packH 1
  let nchannels ← packH w.nchannels
  let framerate ← packL w.framerate
  let byteRate ← packL (w.nchannels * w.framerate * w.sampwidth)
  let blockAlign ← packH (w.nchannels * w.sampwidth)
  let bits ← packH (w.sampwidth * 8)
  return waveId ++ fmtId ++ size ++ tag ++ nchannels ++ framerate ++ byteRate ++ blockAlign ++ bits ++ dataId

/-- `_write_header`, up to what it packs. -/
def beginHeader (initlength : ℕ) (w : WaveWriter) : WaveWriter :=
  let w := w.write riffId
  let nframes := if w.nframes = 0 then initlength / (w.nchannels * w.sampwidth) else w.nframes
  { w with
    nframes := nframes
    datalength := nframes * w.nchannels * w.sampwidth
    formLengthPos := w.file.pos }

/-- What `_write_header` packs in one call goes out. -/
def describe (format : List UInt8) (w : WaveWriter) : WaveWriter :=
  let w := w.write format
  { w with dataLengthPos := w.file.pos }

/-- `_write_header`. -/
def writeHeader (initlength : ℕ) : WriteM Unit := do
  modify (beginHeader initlength)
  let w ← get
  let formLength ← packL (36 + w.datalength)
  let format ← w.packFormat
  modify (describe (formLength ++ format))
  let dataLength ← packL w.datalength
  modify fun w => { w.write dataLength with headerwritten := true }

/-- `_ensure_header_written`. -/
def ensureHeaderWritten (datasize : ℕ) : WriteM Unit := do
  let w ← get
  if w.headerwritten = false then
    if w.nchannels = 0 then throw (.error "# channels not specified")
    if w.sampwidth = 0 then throw (.error "sample width not specified")
    if w.framerate = 0 then throw (.error "sampling rate not specified")
    writeHeader datasize

/-- `_patchheader`. -/
def patchheader : WriteM Unit := do
  let w ← get
  if w.datawritten ≠ w.datalength then
    let curpos := w.file.pos
    modify (·.seek w.formLengthPos)
    let formLength ← packL (36 + w.datawritten)
    modify (·.write formLength)
    modify (·.seek w.dataLengthPos)
    let dataLength ← packL w.datawritten
    modify (·.write dataLength)
    modify (·.seek curpos)
    modify fun w => { w with datalength := w.datawritten }

/-- `setnchannels`. -/
def setnchannels (nchannels : ℕ) : WriteM Unit := do
  let w ← get
  if w.datawritten ≠ 0 then throw (.error "cannot change parameters after starting to write")
  if nchannels < 1 then throw (.error "bad # of channels")
  set { w with nchannels := nchannels }

/-- `setsampwidth`. -/
def setsampwidth (sampwidth : ℕ) : WriteM Unit := do
  let w ← get
  if w.datawritten ≠ 0 then throw (.error "cannot change parameters after starting to write")
  if sampwidth < 1 ∨ 4 < sampwidth then throw (.error "bad sample width")
  set { w with sampwidth := sampwidth }

/-- `setframerate`. -/
def setframerate (framerate : ℕ) : WriteM Unit := do
  let w ← get
  if w.datawritten ≠ 0 then throw (.error "cannot change parameters after starting to write")
  if framerate = 0 then throw (.error "bad frame rate")
  set { w with framerate := framerate }

/-- `setnframes`. -/
def setnframes (nframes : ℕ) : WriteM Unit := do
  let w ← get
  if w.datawritten ≠ 0 then throw (.error "cannot change parameters after starting to write")
  set { w with nframes := nframes }

/-- `setparams`, of uncompressed audio. -/
def setparams (nchannels sampwidth framerate nframes : ℕ) : WriteM Unit := do
  setnchannels nchannels
  setsampwidth sampwidth
  setframerate framerate
  setnframes nframes

/-- `writeframesraw`, behind the header. -/
def addFrames (data : List UInt8) (w : WaveWriter) : WaveWriter :=
  { w.write data with
    datawritten := w.datawritten + data.length
    nframeswritten := w.nframeswritten + data.length / (w.sampwidth * w.nchannels) }

/-- `writeframesraw`. -/
def writeframesraw (data : List UInt8) : WriteM Unit := do
  ensureHeaderWritten data.length
  modify (addFrames data)

/-- `writeframes`. -/
def writeframes (data : List UInt8) : WriteM Unit := do
  writeframesraw data
  let w ← get
  if w.datalength ≠ w.datawritten then patchheader

/-- `close`. -/
def close : WriteM Unit := do
  ensureHeaderWritten 0
  let w ← get
  if w.datalength ≠ w.datawritten then patchheader

end WaveWriter

/-- `with wave.open(f, "wb") as writer: …`, and the bytes it leaves in the file. -/
def withWriter (body : WriteM Unit) : Except WaveError (List UInt8) :=
  let left := body.call {}
  let closed := WaveWriter.close.call left.2
  match closed.1, left.1 with
  | .error error, _ => .error error
  | .ok (), .error error => .error error
  | .ok (), .ok () => .ok closed.2.file.bytes

/-! ### The header -/

/-- The numbers of a format have room in their fields. -/
structure FormatFits (nchannels sampwidth framerate : ℕ) : Prop where
  nchannels_lt : nchannels < 2 ^ 16
  framerate_lt : framerate < 2 ^ 32
  byteRate_lt : nchannels * framerate * sampwidth < 2 ^ 32
  blockAlign_lt : nchannels * sampwidth < 2 ^ 16
  bits_lt : sampwidth * 8 < 2 ^ 16

/-- What stands between the two lengths of a header. -/
def formatBytes (nchannels sampwidth framerate : ℕ) : List UInt8 :=
  waveId ++ fmtId ++ leBytes 4 16 ++ leBytes 2 1 ++ leBytes 2 nchannels ++ leBytes 4 framerate ++
    leBytes 4 (nchannels * framerate * sampwidth) ++ leBytes 2 (nchannels * sampwidth) ++
    leBytes 2 (sampwidth * 8) ++ dataId

theorem length_formatBytes (nchannels sampwidth framerate : ℕ) :
    (formatBytes nchannels sampwidth framerate).length = 32 := by
  simp [formatBytes, waveId, fmtId, dataId]

/-- The 44 bytes before the frames. -/
def headerBytes (nchannels sampwidth framerate datalength : ℕ) : List UInt8 :=
  riffId ++ leBytes 4 (36 + datalength) ++ formatBytes nchannels sampwidth framerate ++ leBytes 4 datalength

theorem length_headerBytes (nchannels sampwidth framerate datalength : ℕ) :
    (headerBytes nchannels sampwidth framerate datalength).length = 44 := by
  simp [headerBytes, riffId, length_formatBytes]

/-- A whole file. -/
def waveBytes (nchannels sampwidth framerate : ℕ) (data : List UInt8) : List UInt8 :=
  headerBytes nchannels sampwidth framerate data.length ++ data

/-- Writing at the end of a file. -/
theorem BytesFile.write_end {f : BytesFile} (h : f.pos = f.bytes.length) (data : List UInt8) :
    f.write data = { bytes := f.bytes ++ data, pos := (f.bytes ++ data).length } := by
  simp [BytesFile.write, h]

/-- Writing over as many bytes. -/
theorem BytesFile.write_over {f : BytesFile} (before old after : List UInt8) (h : f.bytes = before ++ old ++ after)
    (hpos : f.pos = before.length) {data : List UInt8} (hlength : data.length = old.length) :
    f.write data = { bytes := before ++ data ++ after, pos := (before ++ data).length } := by
  have hskip : f.bytes.drop (f.pos + data.length) = after := by
    rw [h, hpos, hlength, ← List.length_append, List.drop_left]
  have hkeep : f.bytes.take f.pos = before := by rw [h, hpos, List.append_assoc, List.take_left]
  have hfill : f.pos - f.bytes.length = 0 := by
    rw [hpos, h, List.length_append, List.length_append]
    omega
  rw [BytesFile.write, hskip, hkeep, hfill, hpos]
  simp

namespace WaveWriter

variable {w w' : WaveWriter} {nchannels sampwidth framerate nframes initlength : ℕ} {data piece : List UInt8}

theorem packFormat_ok (h : FormatFits w.nchannels w.sampwidth w.framerate) :
    w.packFormat = .ok (formatBytes w.nchannels w.sampwidth w.framerate) := by
  obtain ⟨hchannels, hrate, hbyteRate, halign, hbits⟩ := h
  simp only [packFormat, packL, packH, if_pos hchannels, if_pos hrate, if_pos hbyteRate, if_pos halign,
    if_pos hbits]
  rfl

theorem packFormat_error (h : ¬ FormatFits w.nchannels w.sampwidth w.framerate) :
    ∃ message, w.packFormat = .error (.structError message) := by
  simp only [packFormat, packL, packH]
  split_ifs with h16 h1 hchannels hrate hbyteRate halign hbits
  · exact absurd ⟨hchannels, hrate, hbyteRate, halign, hbits⟩ h
  all_goals exact ⟨_, rfl⟩

/-- A writer with a format, before its header. -/
structure Ready (nchannels sampwidth framerate nframes : ℕ) (w : WaveWriter) : Prop where
  nchannels_eq : w.nchannels = nchannels
  sampwidth_eq : w.sampwidth = sampwidth
  framerate_eq : w.framerate = framerate
  nframes_eq : w.nframes = nframes
  nchannels_pos : 0 < nchannels
  sampwidth_pos : 0 < sampwidth
  framerate_pos : 0 < framerate
  headerwritten : w.headerwritten = false

/-- A writer that has put its header and these bytes into the file; the header may
still count others. -/
structure Written (nchannels sampwidth framerate : ℕ) (data : List UInt8) (w : WaveWriter) : Prop where
  headerwritten : w.headerwritten = true
  bytes : w.file.bytes = headerBytes nchannels sampwidth framerate w.datalength ++ data
  pos : w.file.pos = w.file.bytes.length
  datawritten : w.datawritten = data.length
  datalength_lt : 36 + w.datalength < 2 ^ 32
  formLengthPos : w.formLengthPos = 4
  dataLengthPos : w.dataLengthPos = 40

/-- The frames a header counts before any is written. -/
def announced (nchannels sampwidth nframes initlength : ℕ) : ℕ :=
  if nframes = 0 then initlength / (nchannels * sampwidth) else nframes

theorem announced_again : announced nchannels sampwidth (announced nchannels sampwidth nframes initlength) 0 =
    announced nchannels sampwidth nframes initlength := by
  unfold announced
  split_ifs with hnone hagain
  · rw [hagain, Nat.zero_div]
  · rfl
  · rfl

theorem Ready.ensureHeaderWritten (h : Ready nchannels sampwidth framerate nframes w) (datasize : ℕ) :
    (ensureHeaderWritten datasize).call w = (writeHeader datasize).call w := by
  have hchannels : w.nchannels ≠ 0 := by have := h.nchannels_pos; have := h.nchannels_eq; omega
  have hwidth : w.sampwidth ≠ 0 := by have := h.sampwidth_pos; have := h.sampwidth_eq; omega
  have hrate : w.framerate ≠ 0 := by have := h.framerate_pos; have := h.framerate_eq; omega
  simp [WaveWriter.ensureHeaderWritten, h.headerwritten, hchannels, hwidth, hrate]

theorem Ready.beginHeader (h : Ready nchannels sampwidth framerate nframes w) (initlength : ℕ) :
    Ready nchannels sampwidth framerate (announced nchannels sampwidth nframes initlength)
        (w.beginHeader initlength) ∧
      (w.beginHeader initlength).datalength =
        announced nchannels sampwidth nframes initlength * nchannels * sampwidth := by
  obtain ⟨rfl, rfl, rfl, rfl, hchannels, hwidth, hrate, hnone⟩ := h
  exact ⟨⟨rfl, rfl, rfl, rfl, hchannels, hwidth, hrate, hnone⟩, rfl⟩

/-- **A header that has room** is written. -/
theorem Ready.writeHeader_ok (h : Ready nchannels sampwidth framerate nframes w) (hfile : w.file = { bytes := [] })
    (hempty : w.datawritten = 0) (hformat : FormatFits nchannels sampwidth framerate)
    (hlength : 36 + announced nchannels sampwidth nframes initlength * nchannels * sampwidth < 2 ^ 32) :
    ∃ w', (writeHeader initlength).call w = (.ok (), w') ∧ Written nchannels sampwidth framerate [] w' := by
  obtain ⟨⟨hchannels, hwidth, hrate, -⟩, hdatalength⟩ := h.beginHeader initlength
  rw [← hdatalength] at hlength
  have hstart : (w.beginHeader initlength).file = { bytes := riffId, pos := 4 } := by
    show w.file.write riffId = _
    rw [hfile]
    rfl
  have hpack := packFormat_ok (w := w.beginHeader initlength) (by rwa [hchannels, hwidth, hrate])
  rw [hchannels, hwidth, hrate] at hpack
  have hbytes := length_formatBytes nchannels sampwidth framerate
  obtain ⟨described, hdescribed⟩ : ∃ described, described = (w.beginHeader initlength).describe
      (leBytes 4 (36 + (w.beginHeader initlength).datalength) ++ formatBytes nchannels sampwidth framerate) :=
    ⟨_, rfl⟩
  have hfile' : described.file =
      { bytes := riffId ++ (leBytes 4 (36 + (w.beginHeader initlength).datalength) ++
          formatBytes nchannels sampwidth framerate), pos := 40 } := by
    rw [hdescribed]
    show (w.beginHeader initlength).file.write _ = _
    rw [hstart, BytesFile.write_end rfl]
    simp [hbytes, riffId]
  have hlength' : described.datalength = (w.beginHeader initlength).datalength := by rw [hdescribed]; rfl
  have hwritten : described.file.write (leBytes 4 described.datalength) =
      { bytes := headerBytes nchannels sampwidth framerate described.datalength, pos := 44 } := by
    rw [hfile', BytesFile.write_end (by simp [hbytes, riffId]), hlength']
    simp [hbytes, riffId, headerBytes]
  refine ⟨{ described.write (leBytes 4 described.datalength) with headerwritten := true }, ?_, ?_⟩
  · rw [writeHeader, Raising.call_modify_bind, Raising.call_get_bind, packL, if_pos hlength, Raising.call_lift_ok,
      hpack, Raising.call_lift_ok, Raising.call_modify_bind, ← hdescribed, packL, if_pos (by omega),
      Raising.call_lift_ok, Raising.call_modify, hlength']
  · refine ⟨rfl, ?_, ?_, ?_, ?_, ?_, ?_⟩
    · show (described.file.write (leBytes 4 described.datalength)).bytes = _ ++ []
      rw [hwritten, List.append_nil]
      rfl
    · show (described.file.write _).pos = (described.file.write _).bytes.length
      rw [hwritten]
      exact (length_headerBytes _ _ _ _).symm
    · show described.datawritten = 0
      rw [hdescribed]
      exact hempty
    · show 36 + described.datalength < 2 ^ 32
      rw [hlength']
      exact hlength
    · show described.formLengthPos = 4
      rw [hdescribed]
      show (w.file.write riffId).pos = 4
      rw [hfile]
      rfl
    · show described.dataLengthPos = 40
      rw [hdescribed, show (describe _ _).dataLengthPos = (describe _ _).file.pos from rfl, ← hdescribed, hfile']

/-- **A header that has no room** raises, and will raise again. -/
theorem Ready.writeHeader_error (h : Ready nchannels sampwidth framerate nframes w)
    (hroom : ¬ (FormatFits nchannels sampwidth framerate ∧
      36 + announced nchannels sampwidth nframes initlength * nchannels * sampwidth < 2 ^ 32)) :
    ∃ message w', (writeHeader initlength).call w = (.error (.structError message), w') ∧
      Ready nchannels sampwidth framerate (announced nchannels sampwidth nframes initlength) w' := by
  obtain ⟨hready, hdatalength⟩ := h.beginHeader initlength
  rw [← hdatalength] at hroom
  suffices hcall : ∃ message,
      (writeHeader initlength).call w = (.error (.structError message), w.beginHeader initlength) by
    obtain ⟨message, hcall⟩ := hcall
    exact ⟨message, _, hcall, hready⟩
  rw [writeHeader, Raising.call_modify_bind, Raising.call_get_bind]
  by_cases hlength : 36 + (w.beginHeader initlength).datalength < 2 ^ 32
  · obtain ⟨message, hpack⟩ := packFormat_error (w := w.beginHeader initlength) fun hfits => by
      rw [hready.nchannels_eq, hready.sampwidth_eq, hready.framerate_eq] at hfits
      exact hroom ⟨hfits, hlength⟩
    refine ⟨message, ?_⟩
    rw [packL, if_pos hlength, Raising.call_lift_ok, hpack, Raising.call_lift_error]
  · rw [packL, if_neg hlength]
    exact ⟨_, Raising.call_lift_error _ _ _⟩

/-! ### Frames -/

/-- What a patch writes over. -/
theorem Written.patched (h : Written nchannels sampwidth framerate data w) :
    ((((w.file.bytes.length = 44 + data.length) ∧
      (((w.seek w.formLengthPos).write (leBytes 4 (36 + data.length))).seek w.dataLengthPos).write
        (leBytes 4 data.length) = { w with file :=
          { bytes := headerBytes nchannels sampwidth framerate data.length ++ data, pos := 44 } }))) := by
  have hbytes := h.bytes
  have hformat := length_formatBytes nchannels sampwidth framerate
  have hriff : riffId.length = 4 := rfl
  rw [headerBytes] at hbytes
  have hform : ({ w.file with pos := 4 } : BytesFile).write (leBytes 4 (36 + data.length)) =
      { bytes := riffId ++ leBytes 4 (36 + data.length) ++
          (formatBytes nchannels sampwidth framerate ++ leBytes 4 w.datalength ++ data), pos := 8 } := by
    rw [BytesFile.write_over riffId (leBytes 4 (36 + w.datalength))
      (formatBytes nchannels sampwidth framerate ++ leBytes 4 w.datalength ++ data) (by simp [hbytes]) rfl
      (by simp)]
    simp [hriff]
  refine ⟨?_, ?_⟩
  · rw [h.bytes, List.length_append, length_headerBytes]
  · simp only [seek, write, h.formLengthPos, h.dataLengthPos, hform]
    rw [BytesFile.write_over
      (riffId ++ leBytes 4 (36 + data.length) ++ formatBytes nchannels sampwidth framerate)
      (leBytes 4 w.datalength) data (by simp) (by simp [hriff, hformat]) (by simp)]
    simp [headerBytes, hriff, hformat]

/-- **A patch** makes the header count what is written, if there is room for it. -/
theorem Written.patchheader (h : Written nchannels sampwidth framerate data w) :
    (36 + data.length < 2 ^ 32 ∧ ∃ w', patchheader.call w = (.ok (), w') ∧
      Written nchannels sampwidth framerate data w' ∧ w'.datalength = data.length) ∨
    (2 ^ 32 ≤ 36 + data.length ∧ ∃ w', patchheader.call w = (.error structErrorL, w') ∧
      w'.headerwritten = true ∧ w'.datawritten = data.length ∧ 36 + w'.datalength < 2 ^ 32) := by
  have hlt := h.datalength_lt
  by_cases hsame : w.datawritten ≠ w.datalength
  · rw [WaveWriter.patchheader, Raising.call_get_bind, if_pos hsame, h.datawritten]
    by_cases hroom : 36 + data.length < 2 ^ 32
    · obtain ⟨hlength, hpatched⟩ := h.patched
      refine .inl ⟨hroom, { w with
          file :=
            { bytes := headerBytes nchannels sampwidth framerate data.length ++ data, pos := 44 + data.length }
          datalength := data.length }, ?_, ⟨h.headerwritten, rfl, ?_, h.datawritten, hroom, h.formLengthPos,
        h.dataLengthPos⟩, rfl⟩
      · rw [Raising.call_modify_bind, packL, if_pos hroom, Raising.call_lift_ok, Raising.call_modify_bind,
          Raising.call_modify_bind, packL, if_pos (by omega), Raising.call_lift_ok, Raising.call_modify_bind,
          hpatched, Raising.call_modify_bind, Raising.call_modify, h.pos, hlength]
        simp only [seek, h.datawritten]
      · simp [length_headerBytes]
    · refine .inr ⟨not_lt.mp hroom, w.seek w.formLengthPos, ?_, h.headerwritten, h.datawritten, hlt⟩
      rw [Raising.call_modify_bind, packL, if_neg hroom, Raising.call_lift_error]
  · push Not at hsame
    rw [h.datawritten] at hsame
    refine .inl ⟨by omega, w, ?_, h, hsame.symm⟩
    rw [WaveWriter.patchheader, Raising.call_get_bind, if_neg (by rw [h.datawritten]; simpa using hsame),
      Raising.call_pure]

/-- A writer whose `close` raises: a number does not fit. -/
def Doomed (w : WaveWriter) : Prop := ∃ message w', close.call w = (.error (.structError message), w')

/-- Too much is written for the header to count. -/
theorem doomed_of_patch (hheader : w.headerwritten = true) (hmany : 2 ^ 32 ≤ 36 + w.datawritten)
    (hlt : 36 + w.datalength < 2 ^ 32) : w.Doomed := by
  have hensure : (ensureHeaderWritten 0).call w = (.ok (), w) := by simp [ensureHeaderWritten, hheader]
  have hclose : close.call w = (.error structErrorL, w.seek w.formLengthPos) := by
    rw [close, Raising.call_bind_ok hensure, Raising.call_get_bind, if_pos (by omega), WaveWriter.patchheader,
      Raising.call_get_bind, if_pos (by omega), Raising.call_modify_bind, packL, if_neg (by omega),
      Raising.call_lift_error]
  exact ⟨_, _, hclose⟩

/-- The header has no room, with frames or without. -/
theorem Ready.doomed (h : Ready nchannels sampwidth framerate nframes w)
    (hroom : ¬ (FormatFits nchannels sampwidth framerate ∧
      36 + announced nchannels sampwidth nframes 0 * nchannels * sampwidth < 2 ^ 32)) : w.Doomed := by
  obtain ⟨message, w', hcall, -⟩ := h.writeHeader_error hroom
  refine ⟨message, w', ?_⟩
  rw [close, Raising.call_bind_error ((h.ensureHeaderWritten 0).trans hcall)]

theorem Written.ensureHeaderWritten (h : Written nchannels sampwidth framerate data w) (datasize : ℕ) :
    (ensureHeaderWritten datasize).call w = (.ok (), w) := by
  simp [WaveWriter.ensureHeaderWritten, h.headerwritten]

/-- **`close`** leaves a file whose header counts its frames. -/
theorem Written.close (h : Written nchannels sampwidth framerate data w) :
    (36 + data.length < 2 ^ 32 ∧ ∃ w', close.call w = (.ok (), w') ∧
      w'.file.bytes = waveBytes nchannels sampwidth framerate data) ∨
    (2 ^ 32 ≤ 36 + data.length ∧ w.Doomed) := by
  rcases lt_or_ge (36 + data.length) (2 ^ 32) with hroom | hmany
  · refine .inl ⟨hroom, ?_⟩
    rw [WaveWriter.close, Raising.call_bind_ok (h.ensureHeaderWritten 0), Raising.call_get_bind]
    by_cases hsame : w.datalength ≠ w.datawritten
    · obtain ⟨-, w', hcall, hwritten, hlength⟩ | ⟨hmany, -⟩ := h.patchheader
      · rw [if_pos hsame]
        refine ⟨w', hcall, ?_⟩
        rw [hwritten.bytes, hlength, waveBytes]
      · omega
    · push Not at hsame
      rw [if_neg (by simpa using hsame)]
      refine ⟨w, rfl, ?_⟩
      rw [h.bytes, hsame, h.datawritten, waveBytes]
  · refine .inr ⟨hmany, doomed_of_patch h.headerwritten ?_ h.datalength_lt⟩
    rw [h.datawritten]
    exact hmany

end WaveWriter

/-- A call that writes frames. -/
inductive WriteCall where
  | writeframes (data : List UInt8)
  | writeframesraw (data : List UInt8)

namespace WriteCall

def data : WriteCall → List UInt8
  | .writeframes data | .writeframesraw data => data

def run : WriteCall → WriteM Unit
  | .writeframes data => WaveWriter.writeframes data
  | .writeframesraw data => WaveWriter.writeframesraw data

/-- One call after the other. -/
def runAll : List WriteCall → WriteM Unit
  | [] => pure ()
  | call :: calls => do
    call.run
    runAll calls

end WriteCall

namespace WaveWriter

open WriteCall (runAll)

variable {w w' : WaveWriter} {nchannels sampwidth framerate nframes : ℕ} {data : List UInt8}

/-- **A call that writes** adds its bytes, or ends in a patch that has no room. -/
theorem Written.call (h : Written nchannels sampwidth framerate data w) (call : WriteCall) :
    (∃ w', call.run.call w = (.ok (), w') ∧ Written nchannels sampwidth framerate (data ++ call.data) w') ∨
      (2 ^ 32 ≤ 36 + (data ++ call.data).length ∧
        ∃ w', call.run.call w = (.error structErrorL, w') ∧ w'.Doomed) := by
  have hraw : ∀ piece, ∃ w', (writeframesraw piece).call w = (.ok (), w') ∧
      Written nchannels sampwidth framerate (data ++ piece) w' := by
    intro piece
    refine ⟨w.addFrames piece, ?_, h.headerwritten, ?_, ?_, ?_, h.datalength_lt, h.formLengthPos, h.dataLengthPos⟩
    · rw [writeframesraw, Raising.call_bind_ok (h.ensureHeaderWritten _), Raising.call_modify]
    · show (w.file.write piece).bytes = _
      rw [BytesFile.write_end h.pos, h.bytes, List.append_assoc]
      rfl
    · show (w.file.write piece).pos = (w.file.write piece).bytes.length
      rw [BytesFile.write_end h.pos]
    · show w.datawritten + piece.length = _
      rw [h.datawritten, List.length_append]
  cases call with
  | writeframesraw piece => exact .inl (hraw piece)
  | writeframes piece =>
    obtain ⟨w₁, hcall, hwritten⟩ := hraw piece
    show (∃ w', (writeframes piece).call w = _ ∧ _) ∨ _ ∧ ∃ w', (writeframes piece).call w = _ ∧ _
    rw [writeframes, Raising.call_bind_ok hcall, Raising.call_get_bind]
    by_cases hsame : w₁.datalength ≠ w₁.datawritten
    · rw [if_pos hsame]
      obtain ⟨-, w', hpatch, hwritten', -⟩ | ⟨hmany, w', hpatch, hheader, hdatawritten, hlt⟩ := hwritten.patchheader
      · exact .inl ⟨w', hpatch, hwritten'⟩
      · exact .inr ⟨hmany, w', hpatch, doomed_of_patch hheader (hdatawritten ▸ hmany) hlt⟩
    · rw [if_neg hsame]
      exact .inl ⟨w₁, rfl, hwritten⟩

/-- Any calls that write. -/
theorem Written.runAll (h : Written nchannels sampwidth framerate data w) (calls : List WriteCall) :
    (∃ w', (runAll calls).call w = (.ok (), w') ∧
      Written nchannels sampwidth framerate (data ++ (calls.map WriteCall.data).flatten) w') ∨
      (2 ^ 32 ≤ 36 + (data ++ (calls.map WriteCall.data).flatten).length ∧
        ∃ w', (runAll calls).call w = (.error structErrorL, w') ∧ w'.Doomed) := by
  induction calls generalizing data w with
  | nil => exact .inl ⟨w, rfl, by simpa using h⟩
  | cons call calls ih =>
    rw [List.map_cons, List.flatten_cons, ← List.append_assoc]
    obtain ⟨w₁, hcall, hwritten⟩ | ⟨hmany, w₁, hcall, hdoomed⟩ := h.call call
    · rw [WriteCall.runAll, Raising.call_bind_ok hcall]
      exact ih hwritten
    · refine .inr ⟨?_, w₁, ?_, hdoomed⟩
      · rw [List.length_append]
        omega
      · rw [WriteCall.runAll, Raising.call_bind_error hcall]

/-! ### The setters -/

theorem setnchannels_call (h : 0 < nchannels) (hempty : w.datawritten = 0) :
    (setnchannels nchannels).call w = (.ok (), { w with nchannels := nchannels }) := by
  simp [setnchannels, hempty, h.ne']

theorem setsampwidth_call (hempty : w.datawritten = 0) :
    (0 < sampwidth → sampwidth ≤ 4 →
      (setsampwidth sampwidth).call w = (.ok (), { w with sampwidth := sampwidth })) ∧
    (4 < sampwidth → (setsampwidth sampwidth).call w = (.error (.error "bad sample width"), w)) := by
  constructor
  · intro hpos hle
    simp [setsampwidth, hempty, hpos.ne', not_lt.mpr hle]
  · intro hwide
    simp [setsampwidth, hempty, hwide]

theorem setframerate_call (hempty : w.datawritten = 0) :
    (0 < framerate → (setframerate framerate).call w = (.ok (), { w with framerate := framerate })) ∧
    (framerate = 0 → (setframerate framerate).call w = (.error (.error "bad frame rate"), w)) := by
  constructor
  · intro hpos
    simp [setframerate, hempty, hpos.ne']
  · intro hzero
    simp [setframerate, hempty, hzero]

theorem setnframes_call (hempty : w.datawritten = 0) :
    (setnframes nframes).call w = (.ok (), { w with nframes := nframes }) := by
  simp [setnframes, hempty]

/-- The parameters of a file that can be written. -/
theorem setparams_call (w : WaveWriter) (nframes : ℕ) (hchannels : 0 < nchannels) (hwidth : 0 < sampwidth)
    (hnarrow : sampwidth ≤ 4) (hrate : 0 < framerate) (hempty : w.datawritten = 0) :
    (setparams nchannels sampwidth framerate nframes).call w = (.ok (), { w with
      nchannels := nchannels, sampwidth := sampwidth, framerate := framerate, nframes := nframes }) := by
  rw [setparams, Raising.call_bind_ok (setnchannels_call hchannels hempty),
    Raising.call_bind_ok ((setsampwidth_call (by exact hempty)).1 hwidth hnarrow),
    Raising.call_bind_ok ((setframerate_call (by exact hempty)).1 hrate), setnframes_call (by exact hempty)]

/-- The parameters of a file that is too wide: `close` finds that no width is set. -/
theorem setparams_wide (framerate nframes : ℕ) (hchannels : 0 < nchannels) (hwide : 4 < sampwidth) :
    ∃ w, (setparams nchannels sampwidth framerate nframes).call {} = (.error (.error "bad sample width"), w) ∧
      close.call w = (.error (.error "sample width not specified"), w) := by
  refine ⟨{ nchannels := nchannels }, ?_, ?_⟩
  · rw [setparams, Raising.call_bind_ok (setnchannels_call hchannels rfl),
      Raising.call_bind_error ((setsampwidth_call rfl).2 hwide)]
  · have hensure : (ensureHeaderWritten 0).call ({ nchannels := nchannels } : WaveWriter) =
        (.error (.error "sample width not specified"), { nchannels := nchannels }) := by
      simp [ensureHeaderWritten, hchannels.ne']
    rw [close, Raising.call_bind_error hensure]

/-! ### The whole block -/

/-- Every number has room in its field: those of the format, the frame count that was
set, and the bytes that are written. -/
structure Fits (nchannels sampwidth framerate nframes : ℕ) (data : List UInt8) : Prop where
  format : FormatFits nchannels sampwidth framerate
  nframes_lt : 36 + nframes * nchannels * sampwidth < 2 ^ 32
  data_lt : 36 + data.length < 2 ^ 32

theorem announced_mul_le (nchannels sampwidth nframes : ℕ) (hfew : initlength ≤ data.length) :
    announced nchannels sampwidth nframes initlength * nchannels * sampwidth ≤
      max (nframes * nchannels * sampwidth) data.length := by
  unfold announced
  split_ifs with hnone
  · rw [mul_assoc]
    exact (Nat.div_mul_le_self _ _).trans (hfew.trans (le_max_right _ _))
  · exact le_max_left _ _

theorem le_announced_mul (nchannels sampwidth nframes initlength : ℕ) :
    nframes * nchannels * sampwidth ≤ announced nchannels sampwidth nframes initlength * nchannels * sampwidth := by
  unfold announced
  split_ifs with hnone
  · rw [hnone]
    simp
  · exact le_rfl

/-- The first attempt at a header. -/
theorem Ready.attempt (h : Ready nchannels sampwidth framerate nframes w) (hfile : w.file = { bytes := [] })
    (hempty : w.datawritten = 0) (initlength : ℕ) (data : List UInt8) (hfew : initlength ≤ data.length) :
    (FormatFits nchannels sampwidth framerate ∧ 36 + nframes * nchannels * sampwidth < 2 ^ 32 ∧
      ∃ w', (WaveWriter.ensureHeaderWritten initlength).call w = (.ok (), w') ∧
        Written nchannels sampwidth framerate [] w') ∨
    (¬ Fits nchannels sampwidth framerate nframes data ∧
      ∃ message w', (WaveWriter.ensureHeaderWritten initlength).call w = (.error (.structError message), w') ∧
        w'.Doomed) := by
  rw [h.ensureHeaderWritten]
  by_cases hroom : FormatFits nchannels sampwidth framerate ∧
      36 + announced nchannels sampwidth nframes initlength * nchannels * sampwidth < 2 ^ 32
  · have hle := le_announced_mul nchannels sampwidth nframes initlength
    exact .inl ⟨hroom.1, by omega, h.writeHeader_ok hfile hempty hroom.1 hroom.2⟩
  · obtain ⟨message, w', hcall, hready⟩ := h.writeHeader_error hroom
    refine .inr ⟨fun hfits => hroom ⟨hfits.format, ?_⟩, message, w', hcall, hready.doomed ?_⟩
    · have hle := announced_mul_le nchannels sampwidth nframes hfew
      have := hfits.nframes_lt
      have := hfits.data_lt
      omega
    · rwa [announced_again]

theorem withWriter_ok {body : WriteM Unit} (hbody : body.call {} = (.ok (), w))
    (hclose : close.call w = (.ok (), w')) :
    withWriter body = .ok w'.file.bytes := by
  rw [withWriter, hbody]
  simp only [hclose]

theorem withWriter_doomed {body : WriteM Unit} {result : Except WaveError Unit} (hbody : body.call {} = (result, w))
    (h : w.Doomed) : ∃ message, withWriter body = .error (.structError message) := by
  obtain ⟨message, w', hclose⟩ := h
  refine ⟨message, ?_⟩
  rw [withWriter, hbody]
  simp only [hclose]

/-- Nothing happens before the header. -/
theorem run_after_header {call : WriteCall}
    (hheader : (WaveWriter.ensureHeaderWritten call.data.length).call w = (.ok (), w'))
    (hwritten : Written nchannels sampwidth framerate data w') : call.run.call w = call.run.call w' := by
  have hraw : ∀ piece, (WaveWriter.ensureHeaderWritten piece.length).call w = (.ok (), w') →
      (writeframesraw piece).call w = (writeframesraw piece).call w' := by
    intro piece hpiece
    rw [writeframesraw, Raising.call_bind_ok hpiece, Raising.call_bind_ok (hwritten.ensureHeaderWritten _)]
  cases call with
  | writeframesraw piece => exact hraw piece hheader
  | writeframes piece =>
    show (writeframes piece).call w = (writeframes piece).call w'
    rw [writeframes, Raising.call_bind, Raising.call_bind, hraw piece hheader]

/-- A call that finds no room for the header. -/
theorem run_no_header {call : WriteCall} {error : WaveError}
    (hheader : (WaveWriter.ensureHeaderWritten call.data.length).call w = (.error error, w')) :
    call.run.call w = (.error error, w') := by
  have hraw : ∀ piece, (WaveWriter.ensureHeaderWritten piece.length).call w = (.error error, w') →
      (writeframesraw piece).call w = (.error error, w') := by
    intro piece hpiece
    rw [writeframesraw, Raising.call_bind_error hpiece]
  cases call with
  | writeframesraw piece => exact hraw piece hheader
  | writeframes piece =>
    show (writeframes piece).call w = _
    rw [writeframes, Raising.call_bind_error (hraw piece hheader)]

/-- A block whose calls all find the header written. -/
theorem Written.withWriter {body : WriteM Unit} {calls : List WriteCall}
    (hbody : body.call {} = (WriteCall.runAll calls).call w) (h : Written nchannels sampwidth framerate [] w) :
    let data := (calls.map WriteCall.data).flatten
    (36 + data.length < 2 ^ 32 → TtsPool.withWriter body = .ok (waveBytes nchannels sampwidth framerate data)) ∧
    (2 ^ 32 ≤ 36 + data.length → ∃ message, TtsPool.withWriter body = .error (.structError message)) := by
  intro data
  obtain ⟨w₁, hcalls, hwritten⟩ | ⟨hmany, w₁, hcalls, hdoomed⟩ := h.runAll calls
  · rw [hcalls] at hbody
    obtain ⟨hroom, w₂, hclose, hbytes⟩ | ⟨hmany, hdoomed⟩ := hwritten.close
    · refine ⟨fun _ => ?_, fun hmany => absurd hroom (not_lt.mpr hmany)⟩
      rw [withWriter_ok hbody hclose, hbytes, List.nil_append]
    · exact ⟨fun hroom => absurd hroom (not_lt.mpr hmany), fun _ => withWriter_doomed hbody hdoomed⟩
  · rw [hcalls] at hbody
    exact ⟨fun hroom => absurd hroom (not_lt.mpr hmany), fun _ => withWriter_doomed hbody hdoomed⟩

/-- **What a block leaves in its file.**  After any calls that write, from a writer
with its format set: the header of their bytes and the bytes, if every number has
room; else `struct.error`. -/
theorem Ready.withWriter {setup : WriteM Unit} (hsetup : setup.call {} = (.ok (), w))
    (h : Ready nchannels sampwidth framerate nframes w) (hfile : w.file = { bytes := [] })
    (hempty : w.datawritten = 0) (calls : List WriteCall) :
    let data := (calls.map WriteCall.data).flatten
    (Fits nchannels sampwidth framerate nframes data →
      TtsPool.withWriter (do setup; WriteCall.runAll calls) = .ok (waveBytes nchannels sampwidth framerate data)) ∧
    (¬ Fits nchannels sampwidth framerate nframes data →
      ∃ message, TtsPool.withWriter (do setup; WriteCall.runAll calls) = .error (.structError message)) := by
  intro data
  have hbody : Raising.call (do setup; WriteCall.runAll calls) {} = (WriteCall.runAll calls).call w :=
    Raising.call_bind_ok hsetup
  cases calls with
  | nil =>
    have hzero : 36 + data.length < 2 ^ 32 := by
      show 36 + 0 < 2 ^ 32
      omega
    obtain ⟨hformat, hnframes, w₁, hheader, hwritten⟩ | ⟨hroom, message, w₁, hheader, -⟩ :=
      h.attempt hfile hempty 0 data (Nat.zero_le _)
    · refine ⟨fun _ => ?_, fun hfits => absurd ⟨hformat, hnframes, hzero⟩ hfits⟩
      obtain ⟨-, w₂, hclose, hbytes⟩ | ⟨hmany, -⟩ := hwritten.close
      · rw [WaveWriter.close, Raising.call_bind_ok (hwritten.ensureHeaderWritten 0)] at hclose
        rw [withWriter_ok hbody ((Raising.call_bind_ok hheader).trans hclose), hbytes]
        rfl
      · exact absurd hzero (not_lt.mpr hmany)
    · exact ⟨fun hfits => absurd hfits hroom, fun _ => withWriter_doomed hbody
        ⟨message, w₁, Raising.call_bind_error hheader⟩⟩
  | cons call calls =>
    obtain ⟨hformat, hnframes, w₁, hheader, hwritten⟩ | ⟨hroom, message, w₁, hheader, hdoomed⟩ :=
      h.attempt hfile hempty call.data.length data (by simp [data])
    · have hcalls : (WriteCall.runAll (call :: calls)).call w = (WriteCall.runAll (call :: calls)).call w₁ := by
        rw [WriteCall.runAll, Raising.call_bind, Raising.call_bind, run_after_header hheader hwritten]
      obtain ⟨hok, herror⟩ := hwritten.withWriter (hbody.trans hcalls)
      refine ⟨fun hfits => hok hfits.data_lt, fun hfits => herror ?_⟩
      by_contra hlt
      exact hfits ⟨hformat, hnframes, not_le.mp hlt⟩
    · rw [WriteCall.runAll, Raising.call_bind_error (run_no_header hheader)] at hbody
      exact ⟨fun hfits => absurd hfits hroom, fun _ => withWriter_doomed hbody hdoomed⟩

end WaveWriter

end TtsPool
