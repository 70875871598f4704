/-
# A file that was written opens again

`waveOpen` of the bytes that a `Wave_write` has left finds the format they were
written with, and as frames the pieces that were written, one after the other, in
any position (`opens_written`).
-/

import TtsPool.Wave.Writing

namespace TtsPool

variable (nchannels sampwidth framerate : ℕ) {format : WaveFormat} (data : List UInt8)

theorem length_waveBytes : (waveBytes nchannels sampwidth framerate data).length = 44 + data.length := by
  rw [waveBytes, List.length_append, length_headerBytes]

/-- Reading what is there. -/
theorem BytesFile.read_eq (bytes : List UInt8) {pos n : ℕ} (h : pos + n ≤ bytes.length) :
    FileObject.read ({ bytes := bytes, pos := pos } : BytesFile) n =
      ({ bytes := bytes, pos := pos + n }, (bytes.drop pos).take n) := by
  show (({ bytes := bytes, pos := pos + ((bytes.drop pos).take n).length } : BytesFile), _) = _
  rw [List.length_take, List.length_drop, show min n (bytes.length - pos) = n by omega]

/-- The RIFF chunk of a file that was written, at a position. -/
def formAt (pos : ℕ) : Chunk BytesFile where
  chunkname := riffId
  file := { bytes := waveBytes nchannels sampwidth framerate data, pos := 8 + pos }
  offset := 8
  chunksize := 36 + data.length
  sizeRead := pos

/-- In the header the RIFF chunk is read as the file is. -/
theorem formAt_read {pos n : ℕ} (h : pos + n ≤ 36) (hn : 0 < n) :
    FileObject.read (formAt nchannels sampwidth framerate data pos) n =
      (formAt nchannels sampwidth framerate data (pos + n),
        ((waveBytes nchannels sampwidth framerate data).drop (8 + pos)).take n) := by
  obtain ⟨bytes, hbytes⟩ : ∃ bytes, bytes = waveBytes nchannels sampwidth framerate data := ⟨_, rfl⟩
  have hlength : bytes.length = 44 + data.length := hbytes ▸ length_waveBytes nchannels sampwidth framerate data
  have htake : ((bytes.drop (8 + pos)).take n).length = n := by
    rw [List.length_take, List.length_drop]
    omega
  have hread : FileObject.read ({ bytes := bytes, pos := 8 + pos } : BytesFile) n = _ :=
    BytesFile.read_eq bytes (by omega)
  have hmin : min n (36 + data.length - pos) = n := by omega
  show Chunk.read _ n = _
  simp only [formAt, ← hbytes]
  rw [Chunk.read, if_neg (by show ¬ 36 + data.length ≤ pos; omega)]
  simp only [hmin, hread, htake, Nat.add_assoc]
  rw [if_neg (by omega)]

/-- The header of a chunk in the header. -/
theorem formAt_new {pos : ℕ} (h : pos + 8 ≤ 36) :
    Chunk.new? (formAt nchannels sampwidth framerate data pos) = some
      { chunkname := ((waveBytes nchannels sampwidth framerate data).drop (8 + pos)).take 4
        file := formAt nchannels sampwidth framerate data (pos + 8)
        offset := pos + 8
        chunksize := leNat (((waveBytes nchannels sampwidth framerate data).drop (12 + pos)).take 4) } := by
  have hlength := length_waveBytes nchannels sampwidth framerate data
  have hname : FileObject.read (formAt nchannels sampwidth framerate data pos) 4 = _ :=
    formAt_read nchannels sampwidth framerate data (by omega) (by omega)
  have hsize : FileObject.read (formAt nchannels sampwidth framerate data (pos + 4)) 4 = _ :=
    formAt_read nchannels sampwidth framerate data (by omega) (by omega)
  rw [Chunk.new?, hname]
  simp only [hsize, List.length_take, List.length_drop]
  rw [if_neg (by omega), show 8 + (pos + 4) = 12 + pos by omega]
  rfl

/-- The reader of a file that was written. -/
def writtenReader (format : WaveFormat) (data : List UInt8) : WaveReader where
  format := format
  dataChunk :=
    { chunkname := dataId
      file := formAt format.nchannels format.sampwidth format.framerate data 36
      offset := 36
      chunksize := data.length }

/-- The header of the format's chunk, at a position in it. -/
def formatAt (pos : ℕ) : Chunk (Chunk BytesFile) where
  chunkname := fmtId
  file := formAt nchannels sampwidth framerate data (12 + pos)
  offset := 12
  chunksize := 16
  sizeRead := pos

theorem formatAt_read {pos n : ℕ} (h : pos + n ≤ 16) (hn : 0 < n) :
    (formatAt nchannels sampwidth framerate data pos).read n =
      (formatAt nchannels sampwidth framerate data (pos + n),
        ((waveBytes nchannels sampwidth framerate data).drop (20 + pos)).take n) := by
  have hlength := length_waveBytes nchannels sampwidth framerate data
  have hread : FileObject.read (formAt nchannels sampwidth framerate data (12 + pos)) n = _ :=
    formAt_read nchannels sampwidth framerate data (by omega) hn
  have hmin : min n (16 - pos) = n := by omega
  rw [Chunk.read, if_neg (by show ¬ 16 ≤ pos; omega)]
  simp only [formatAt, hmin, hread, List.length_take, List.length_drop]
  rw [if_neg (by omega), show 8 + (12 + pos) = 20 + pos by omega, Nat.add_assoc, show min n _ = n by omega]

/-- The format that was written is read. -/
theorem readFmtChunk_written (hbits : format.sampwidth * 8 < 2 ^ 16) :
    readFmtChunk (formatAt format.nchannels format.sampwidth format.framerate data 0) =
      .ok (format, formatAt format.nchannels format.sampwidth format.framerate data 16) := by
  have hhead : (formatAt format.nchannels format.sampwidth format.framerate data 0).read 14 = _ :=
    formatAt_read format.nchannels format.sampwidth format.framerate data (by omega) (by omega)
  have hbits' : (formatAt format.nchannels format.sampwidth format.framerate data (0 + 14)).read 2 = _ :=
    formatAt_read format.nchannels format.sampwidth format.framerate data (by omega) (by omega)
  have htag : leNat (leBytes 2 1) = 1 := rfl
  have hchannels : leNat (leBytes 2 format.nchannels) = format.nchannels := leNat_leBytes format.nchannels_lt
  have hrate : leNat (leBytes 4 format.framerate) = format.framerate := leNat_leBytes format.framerate_lt
  have hwidth : (leNat (leBytes 2 (format.sampwidth * 8)) + 7) / 8 = format.sampwidth := by
    rw [leNat_leBytes hbits]
    omega
  have hpos := format.sampwidth_pos
  have hpos' := format.nchannels_pos
  obtain ⟨head, hfields⟩ : ∃ head, head = ((waveBytes format.nchannels format.sampwidth format.framerate data).drop
      20).take 14 := ⟨_, rfl⟩
  obtain ⟨bits, hfield⟩ : ∃ bits, bits = ((waveBytes format.nchannels format.sampwidth format.framerate data).drop
      34).take 2 := ⟨_, rfl⟩
  have htag' : unpackFrom head 0 2 = 1 := hfields ▸ htag
  have hchannels' : unpackFrom head 2 2 = format.nchannels := hfields ▸ hchannels
  have hrate' : unpackFrom head 4 4 = format.framerate := hfields ▸ hrate
  have hwidth' : (unpackFrom bits 0 2 + 7) / 8 = format.sampwidth := hfield ▸ hwidth
  have hlong : head.length = 14 := hfields ▸ rfl
  have hshort : bits.length = 2 := hfield ▸ rfl
  rw [readFmtChunk]
  simp only [hhead, ← hfields, hbits', ← hfield, hlong, hshort, htag', hwidth', hchannels', hrate']
  simp only [lt_irrefl, if_false, ne_eq, not_true_eq_false, dif_neg hpos.ne', dif_neg hpos'.ne']

/-- The chunk of a file that was written. -/
theorem new_waveBytes (hroom : 36 + data.length < 2 ^ 32) :
    Chunk.new? ({ bytes := waveBytes nchannels sampwidth framerate data } : BytesFile) =
      some (formAt nchannels sampwidth framerate data 0) := by
  have hlength := length_waveBytes nchannels sampwidth framerate data
  have hsize : leNat (leBytes 4 (36 + data.length)) = 36 + data.length := leNat_leBytes hroom
  have hsize' : leNat (((waveBytes nchannels sampwidth framerate data).drop 4).take 4) = 36 + data.length := hsize
  rw [Chunk.new?, BytesFile.read_eq _ (by omega)]
  simp only
  rw [BytesFile.read_eq _ (by omega)]
  simp only [List.length_take, List.length_drop]
  rw [if_neg (by omega), Nat.zero_add, hsize']
  rfl

/-- **A file that was written opens.** -/
theorem waveOpen_waveBytes (hbits : format.sampwidth * 8 < 2 ^ 16) (hroom : 36 + data.length < 2 ^ 32) :
    waveOpen (waveBytes format.nchannels format.sampwidth format.framerate data) =
      .ok (writtenReader format data) := by
  have hlength := length_waveBytes format.nchannels format.sampwidth format.framerate data
  have hform : (formAt format.nchannels format.sampwidth format.framerate data 0).read 4 =
      (formAt format.nchannels format.sampwidth format.framerate data 4, waveId) :=
    formAt_read format.nchannels format.sampwidth format.framerate data (by omega) (by omega)
  have hfmt : Chunk.new? (formAt format.nchannels format.sampwidth format.framerate data 4) =
      some (formatAt format.nchannels format.sampwidth format.framerate data 0) :=
    formAt_new format.nchannels format.sampwidth format.framerate data (by omega)
  have hskip : (formatAt format.nchannels format.sampwidth format.framerate data 16).skip =
      some (formAt format.nchannels format.sampwidth format.framerate data 28) := by
    have hseek : Chunk.seek (formAt format.nchannels format.sampwidth format.framerate data 28) 28 =
        some (formAt format.nchannels format.sampwidth format.framerate data 28) := by
      rw [Chunk.seek, if_neg (by show ¬ 36 + data.length < 28; omega)]
      rfl
    obtain ⟨chunk, hchunk⟩ : ∃ chunk, chunk = formatAt format.nchannels format.sampwidth format.framerate data 16 :=
      ⟨_, rfl⟩
    have hfile : chunk.file = formAt format.nchannels format.sampwidth format.framerate data 28 := hchunk ▸ rfl
    have hsizes : chunk.chunksize = 16 ∧ chunk.sizeRead = 16 := hchunk ▸ ⟨rfl, rfl⟩
    have htell : tell chunk.file = 28 := hfile ▸ rfl
    rw [← hchunk, Chunk.skip, hsizes.1, hsizes.2, htell, hfile]
    exact hseek
  have hdata : Chunk.new? (formAt format.nchannels format.sampwidth format.framerate data 28) =
      some (writtenReader format data).dataChunk := by
    have hsize : leNat (leBytes 4 data.length) = data.length := leNat_leBytes (by omega)
    have hsize' : leNat (((waveBytes format.nchannels format.sampwidth format.framerate data).drop
        (12 + 28)).take 4) = data.length := hsize
    rw [formAt_new format.nchannels format.sampwidth format.framerate data (by omega), hsize']
    rfl
  have hfuel : (waveBytes format.nchannels format.sampwidth format.framerate data).length + 1 =
      (43 + data.length) + 1 + 1 := by omega
  have hfirst : (formatAt format.nchannels format.sampwidth format.framerate data 0).chunkname = fmtId := rfl
  have hsecond : (writtenReader format data).dataChunk.chunkname = dataId := rfl
  have hne : dataId ≠ fmtId := by decide
  rw [waveOpen, new_waveBytes format.nchannels format.sampwidth format.framerate data hroom]
  simp only
  rw [if_neg (by simp [formAt]), hform, if_neg (by simp), hfuel, scan, hfmt]
  simp only
  rw [if_pos hfirst, readFmtChunk_written data hbits]
  simp only
  rw [hskip]
  simp only
  rw [scan, hdata]
  simp only
  rw [hsecond, if_neg hne, if_pos rfl]
  rfl

/-- What the reader of a file that was written reads. -/
theorem reads_writtenReader (format : WaveFormat) (data : List UInt8) :
    (writtenReader format data).Reads format (data.length / format.framesize) data 0 ∧
      (writtenReader format data).dataSeekNeeded = false ∧
      ∀ pos ≤ data.length, (writtenReader format data).Reaches pos := by
  have hall : ((waveBytes format.nchannels format.sampwidth format.framerate data).drop 8).take (36 + data.length) =
      (waveBytes format.nchannels format.sampwidth format.framerate data).drop 8 :=
    List.take_of_length_le (by rw [List.length_drop, length_waveBytes]; omega)
  have hframes : (writtenReader format data).frames = data := by
    show (((((waveBytes format.nchannels format.sampwidth format.framerate data).drop 8).take
      (36 + data.length)).drop 36).take data.length) = data
    rw [hall]
    exact List.take_length
  refine ⟨⟨rfl, rfl, hframes, fun _ => ?_, fun h => Bool.noConfusion h⟩, rfl, fun pos hpos => ⟨hpos, ?_⟩⟩
  · have hstep : (writtenReader format data).dataChunk.InStep := by
      show ((waveBytes format.nchannels format.sampwidth format.framerate data).drop 44).take
          (36 + data.length - 36) =
        (((waveBytes format.nchannels format.sampwidth format.framerate data).drop 8).take
          (36 + data.length)).drop 36
      rw [hall, Nat.add_sub_cancel_left]
      exact List.take_length
    exact hstep.at
  · show 36 + pos ≤ 36 + data.length
    omega

end TtsPool
