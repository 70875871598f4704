/-
# Files read through chunks

`_Chunk` of Python's `wave` module: a part of a file that is read like a file
itself.  It announces its size, reads no further, skips the pad byte after an odd
size, and may be opened inside another chunk.  What it works on is any object with
`read`, `seek` and `tell` (`FileObject`): the file, or the chunk around it.

What a file still has to give is a list of bytes, `rest`, and what it holds in all
another, `content`.  A read takes a prefix off the first and leaves the second
alone (`LawfulFile`), and a chunk of a lawful file is one again.  As long as only
the chunk is read, what it has to give is what it holds from its position on
(`Chunk.InStep`).
-/

import TtsPool.Support.LittleEndian

namespace TtsPool

/-- What `_Chunk` asks of a file; `seek` is `none` where it raises
`RuntimeError`. -/
class FileObject (F : Type) where
  read : F → ℕ → F × List UInt8
  seek : F → ℕ → Option F
  tell : F → ℕ

/-- A file whose bytes do not change while it is read: what is left of it, and what
it holds. -/
class LawfulFile (F : Type) extends FileObject F where
  rest : F → List UInt8
  content : F → List UInt8
  read_data : ∀ f n, (read f n).2 = (rest f).take n
  rest_read : ∀ f n, rest (read f n).1 = (rest f).drop n
  content_read : ∀ f n, content (read f n).1 = content f
  rest_seek : ∀ f p f', seek f p = some f' → rest f' = (content f).drop p
  content_seek : ∀ f p f', seek f p = some f' → content f' = content f

export FileObject (read seek tell)
export LawfulFile (rest content read_data rest_read content_read rest_seek content_seek)

/-! ### The file itself -/

/-- A file opened for reading, or an `io.BytesIO`. -/
structure BytesFile where
  bytes : List UInt8
  pos : ℕ := 0

instance : LawfulFile BytesFile where
  read f n :=
    let data := (f.bytes.drop f.pos).take n
    ({ f with pos := f.pos + data.length }, data)
  seek f p := some { f with pos := p }
  tell f := f.pos
  rest f := f.bytes.drop f.pos
  content f := f.bytes
  read_data _ _ := rfl
  rest_read f n := by
    simp only [List.length_take, List.drop_drop, List.length_drop]
    rcases le_total n (f.bytes.length - f.pos) with h | h
    · rw [min_eq_left h]
    · rw [min_eq_right h, List.drop_eq_nil_of_le (by omega), List.drop_eq_nil_of_le (by omega)]
  content_read _ _ := rfl
  rest_seek f p f' h := by
    obtain rfl := Option.some.inj h
    rfl
  content_seek f p f' h := by
    obtain rfl := Option.some.inj h
    rfl

/-! ### A chunk of it -/

/-- `_Chunk`. -/
structure Chunk (F : Type) where
  chunkname : List UInt8
  file : F
  offset : ℕ
  chunksize : ℕ
  sizeRead : ℕ := 0

namespace Chunk

variable {F : Type}

section Methods

variable [FileObject F]

/-- The constructor, which reads the name and the size; `none` where it raises
`EOFError`. -/
def new? (file : F) : Option (Chunk F) :=
  let named := FileObject.read file 4
  let sized := FileObject.read named.1 4
  if named.2.length < 4 ∨ sized.2.length < 4 then none
  else some { chunkname := named.2, file := sized.1, offset := tell sized.1, chunksize := leNat sized.2 }

/-- `read`; at the end of an odd chunk the pad byte goes with it. -/
def read (c : Chunk F) (size : ℕ) : Chunk F × List UInt8 :=
  if c.chunksize ≤ c.sizeRead then (c, [])
  else
    let got := FileObject.read c.file (min size (c.chunksize - c.sizeRead))
    let sizeRead := c.sizeRead + got.2.length
    if sizeRead = c.chunksize ∧ c.chunksize % 2 = 1 then
      let dummy := FileObject.read got.1 1
      ({ c with file := dummy.1, sizeRead := sizeRead + dummy.2.length }, got.2)
    else ({ c with file := got.1, sizeRead := sizeRead }, got.2)

/-- `seek`, to a position in the chunk. -/
def seek (c : Chunk F) (pos : ℕ) : Option (Chunk F) :=
  if c.chunksize < pos then none
  else (FileObject.seek c.file (c.offset + pos)).map fun file => { c with file := file, sizeRead := pos }

/-- `skip`: the file after the rest of the chunk, and after the pad byte of an odd
one. -/
def skip (c : Chunk F) : Option F :=
  let n := c.chunksize + c.chunksize % 2 - c.sizeRead
  FileObject.seek c.file (n + tell c.file)

end Methods

variable [LawfulFile F]

/-- A read of a chunk: nothing at its end; else a read of the file, and maybe the
pad byte with what ends the chunk. -/
theorem read_cases (c : Chunk F) (n : ℕ) :
    (c.chunksize ≤ c.sizeRead ∧ c.read n = (c, [])) ∨
      (c.sizeRead < c.chunksize ∧ ∃ c', c' = (c.read n).1 ∧ c'.chunksize = c.chunksize ∧ c'.offset = c.offset ∧
        content c'.file = content c.file ∧
        (c.read n).2 = (rest c.file).take (min n (c.chunksize - c.sizeRead)) ∧
        (c.chunksize ≤ c'.sizeRead ∧ c.chunksize ≤ c.sizeRead + (c.read n).2.length ∨
          c'.sizeRead = c.sizeRead + (c.read n).2.length ∧
            rest c'.file = (rest c.file).drop (min n (c.chunksize - c.sizeRead)))) := by
  rcases Nat.lt_or_ge c.sizeRead c.chunksize with hless | hdone
  · refine .inr ⟨hless, _, rfl, ?_⟩
    simp only [read, if_neg (not_le.mpr hless)]
    split_ifs with hodd
    · refine ⟨rfl, rfl, ?_, LawfulFile.read_data _ _, .inl ⟨?_, ?_⟩⟩
      · simp only [LawfulFile.content_read]
      · simp only
        omega
      · exact hodd.1.ge
    · exact ⟨rfl, rfl, LawfulFile.content_read _ _, LawfulFile.read_data _ _, .inr ⟨rfl, LawfulFile.rest_read _ _⟩⟩
  · exact .inl ⟨hdone, if_pos hdone⟩

theorem read_data (c : Chunk F) (n : ℕ) :
    (c.read n).2 = ((rest c.file).take (c.chunksize - c.sizeRead)).take n := by
  obtain ⟨hdone, hread⟩ | ⟨-, c', -, -, -, -, hdata, -⟩ := c.read_cases n
  · rw [hread, Nat.sub_eq_zero_of_le hdone, List.take_zero, List.take_nil]
  · rw [hdata, List.take_take]

theorem rest_read (c : Chunk F) (n : ℕ) :
    (rest (c.read n).1.file).take ((c.read n).1.chunksize - (c.read n).1.sizeRead) =
      ((rest c.file).take (c.chunksize - c.sizeRead)).drop n := by
  obtain ⟨hdone, hread⟩ | ⟨-, c', hc', hsize, -, -, hdata, hend | ⟨hcount, hrest⟩⟩ := c.read_cases n
  · rw [hread, Nat.sub_eq_zero_of_le hdone, List.take_zero, List.drop_nil]
  · rw [← hc', hsize, Nat.sub_eq_zero_of_le hend.1, List.take_zero, List.drop_eq_nil_of_le]
    have hlength := congrArg List.length hdata
    rw [List.length_take] at hlength ⊢
    omega
  · have hlength := congrArg List.length hdata
    rw [List.length_take] at hlength
    rw [← hc', hsize, hcount, hrest]
    rcases le_total (rest c.file).length (min n (c.chunksize - c.sizeRead)) with hshort | hfull
    · rw [List.drop_eq_nil_of_le hshort, List.take_nil, List.drop_eq_nil_of_le]
      rw [List.length_take]
      omega
    · rw [hlength, min_eq_left hfull, List.take_drop]
      rcases le_total n (c.chunksize - c.sizeRead) with h | h
      · rw [min_eq_left h, show n + (c.chunksize - (c.sizeRead + n)) = c.chunksize - c.sizeRead by omega]
      · rw [min_eq_right h, List.drop_eq_nil_of_le, List.drop_eq_nil_of_le]
        · exact (List.length_take_le _ _).trans h
        · rw [List.length_take]
          omega

/-- **A chunk is read like a file.** -/
instance : LawfulFile (Chunk F) where
  read := read
  seek := seek
  tell c := c.sizeRead
  rest c := (rest c.file).take (c.chunksize - c.sizeRead)
  content c := ((content c.file).drop c.offset).take c.chunksize
  read_data := read_data
  rest_read := rest_read
  content_read c n := by
    obtain ⟨-, hread⟩ | ⟨-, c', hc', hsize, hoffset, hcontent, -⟩ := c.read_cases n
    · rw [hread]
    · rw [← hc', hsize, hoffset, hcontent]
  rest_seek c p c' h := by
    rw [seek] at h
    split_ifs at h
    obtain ⟨file, hseek, rfl⟩ := Option.map_eq_some_iff.mp h
    rw [LawfulFile.rest_seek _ _ _ hseek, List.drop_take, List.drop_drop]
  content_seek c p c' h := by
    rw [seek] at h
    split_ifs at h
    obtain ⟨file, hseek, rfl⟩ := Option.map_eq_some_iff.mp h
    simp only [LawfulFile.content_seek _ _ _ hseek]

/-! ### The position in a chunk -/

/-- What is left of the file is what it holds from a position on. -/
def At (f : F) (pos : ℕ) : Prop := rest f = (content f).drop pos

theorem At.read {f : F} {pos : ℕ} (h : At f pos) (n : ℕ) :
    At (FileObject.read f n).1 (pos + (FileObject.read f n).2.length) := by
  rw [At, LawfulFile.rest_read, LawfulFile.content_read, LawfulFile.read_data, ← List.drop_drop,
    ← show rest f = _ from h, List.length_take]
  rcases le_total n (rest f).length with hfull | hshort
  · rw [min_eq_left hfull]
  · rw [min_eq_right hshort, List.drop_eq_nil_of_le hshort, List.drop_length]

/-- The file stands where the chunk says. -/
def InStep (c : Chunk F) : Prop := At c.file (c.offset + c.sizeRead)

/-- **A chunk in step** has yet to give what it holds from its position on. -/
theorem InStep.at {c : Chunk F} (h : c.InStep) : At c c.sizeRead := by
  show (rest c.file).take _ = (((content c.file).drop c.offset).take c.chunksize).drop c.sizeRead
  rw [show rest c.file = _ from h, List.drop_take, List.drop_drop]

theorem InStep.read {c : Chunk F} (h : c.InStep) (n : ℕ) : (c.read n).1.InStep := by
  have hgot := At.read h (min n (c.chunksize - c.sizeRead))
  rw [Chunk.read]
  split_ifs with hdone
  · exact h
  · dsimp only
    split_ifs with hodd
    · simpa only [InStep, Nat.add_assoc] using hgot.read 1
    · simpa only [InStep, Nat.add_assoc] using hgot

theorem inStep_seek {c c' : Chunk F} {pos : ℕ} (h : c.seek pos = some c') : c'.InStep := by
  rw [seek] at h
  split_ifs at h
  obtain ⟨file, hseek, rfl⟩ := Option.map_eq_some_iff.mp h
  simp only [InStep, At, LawfulFile.rest_seek _ _ _ hseek, LawfulFile.content_seek _ _ _ hseek]

theorem seek_spec {c c' : Chunk F} {pos : ℕ} (h : c.seek pos = some c') :
    c'.chunksize = c.chunksize ∧ c'.offset = c.offset ∧ c'.InStep := by
  have hstep := inStep_seek h
  rw [seek] at h
  split_ifs at h
  obtain ⟨file, hseek, rfl⟩ := Option.map_eq_some_iff.mp h
  exact ⟨rfl, rfl, hstep⟩

theorem read_sizes (c : Chunk F) (n : ℕ) :
    (c.read n).1.chunksize = c.chunksize ∧ (c.read n).1.offset = c.offset := by
  rw [Chunk.read]
  split_ifs with hdone
  · exact ⟨rfl, rfl⟩
  · dsimp only
    split_ifs <;> exact ⟨rfl, rfl⟩

theorem content_file_read (c : Chunk F) (n : ℕ) : content (c.read n).1.file = content c.file := by
  rw [Chunk.read]
  split_ifs with hdone
  · rfl
  · dsimp only
    split_ifs <;> simp only [LawfulFile.content_read]

/-- Reading takes the file no way back. -/
theorem length_rest_file_read (c : Chunk F) (n : ℕ) :
    (rest (c.read n).1.file).length ≤ (rest c.file).length := by
  rw [Chunk.read]
  split_ifs with hdone
  · exact le_rfl
  · dsimp only
    split_ifs <;> simp only [LawfulFile.rest_read, List.length_drop] <;> omega

/-! ### Opening a chunk, and leaving it -/

/-- What the constructor makes of a file: eight bytes of it name and size the chunk. -/
structure Opened (file : F) (c : Chunk F) : Prop where
  header : 8 ≤ (rest file).length
  chunkname : c.chunkname = (rest file).take 4
  chunksize : c.chunksize = leNat (((rest file).drop 4).take 4)
  content : content c.file = content file
  rest : rest c.file = (rest file).drop 8
  sizeRead : c.sizeRead = 0
  offset : c.offset = tell c.file

theorem opened_of_new {file : F} {c : Chunk F} (h : new? file = some c) : Opened file c := by
  simp only [new?, LawfulFile.read_data, LawfulFile.rest_read] at h
  split_ifs at h with hshort
  obtain rfl := Option.some.inj h
  simp only [List.length_take, List.length_drop] at hshort
  refine ⟨by omega, rfl, rfl, ?_, ?_, rfl, rfl⟩
  · simp only [LawfulFile.content_read]
  · simp only [LawfulFile.rest_read, List.drop_drop]

theorem Opened.chunksize_lt {file : F} {c : Chunk F} (h : Opened file c) : c.chunksize < 2 ^ 32 := by
  have hlength : (((LawfulFile.rest file).drop 4).take 4).length ≤ 4 := List.length_take_le _ _
  have hlt := leNat_lt (((LawfulFile.rest file).drop 4).take 4)
  rw [h.chunksize]
  calc _ < 256 ^ (((LawfulFile.rest file).drop 4).take 4).length := hlt
    _ ≤ 256 ^ 4 := Nat.pow_le_pow_right (by omega) hlength
    _ = 2 ^ 32 := by norm_num

/-- The outermost chunk of a file is in step with it. -/
theorem inStep_of_new_bytes {file : BytesFile} {c : Chunk BytesFile} (h : new? file = some c) : c.InStep := by
  have hopened := opened_of_new h
  rw [InStep, hopened.sizeRead, hopened.offset]
  rfl

/-- A chunk inside one that is in step is in step too, and leaves the outer one so. -/
theorem inStep_of_new {outer : Chunk F} {c : Chunk (Chunk F)} (houter : outer.InStep) (h : new? outer = some c) :
    c.file.InStep ∧ c.InStep := by
  have hopened := opened_of_new h
  have hfile : c.file.InStep := by
    simp only [new?] at h
    split_ifs at h
    obtain rfl := Option.some.inj h
    exact (houter.read 4).read 4
  refine ⟨hfile, ?_⟩
  rw [InStep, hopened.sizeRead, hopened.offset]
  exact hfile.at

/-- Reading the inner chunk leaves the outer one in step. -/
theorem InStep.file_read {c : Chunk (Chunk F)} (h : c.file.InStep) (n : ℕ) : (c.read n).1.file.InStep := by
  rw [Chunk.read]
  split_ifs with hdone
  · exact h
  · dsimp only
    split_ifs with hodd
    · exact (InStep.read h _).read 1
    · exact InStep.read h _

theorem seek_file {c c' : Chunk (Chunk F)} {pos : ℕ} (h : c.seek pos = some c') :
    c'.file.chunksize = c.file.chunksize := by
  rw [seek] at h
  split_ifs at h
  obtain ⟨file, hseek, rfl⟩ := Option.map_eq_some_iff.mp h
  exact (seek_spec (show c.file.seek _ = some file from hseek)).1

/-- A position in a chunk of a chunk of a file can be sought if the outer one has it,
too. -/
theorem seek_isSome_iff (c : Chunk (Chunk BytesFile)) (pos : ℕ) :
    (c.seek pos).isSome ↔ pos ≤ c.chunksize ∧ c.offset + pos ≤ c.file.chunksize := by
  have houter : (FileObject.seek c.file (c.offset + pos)).isSome ↔ c.offset + pos ≤ c.file.chunksize := by
    show (Chunk.seek c.file (c.offset + pos)).isSome ↔ _
    rw [seek]
    split_ifs with hover
    · simpa using hover
    · simpa [FileObject.seek] using not_lt.mp hover
  rw [seek]
  split_ifs with hover
  · simpa using fun h => absurd h (not_le.mpr hover)
  · simpa [not_lt.mp hover] using houter

/-- **What a chunk leaves of the chunk around it** is a part of what it finds. -/
theorem skip_spec {c : Chunk (Chunk F)} {outer : Chunk F} (h : c.file.InStep) (hskip : c.skip = some outer) :
    outer.InStep ∧ content outer = content c.file ∧
      rest outer = (rest c.file).drop (c.chunksize + c.chunksize % 2 - c.sizeRead) := by
  have hseek : c.file.seek (c.chunksize + c.chunksize % 2 - c.sizeRead + c.file.sizeRead) = some outer := hskip
  refine ⟨inStep_seek hseek, content_seek _ _ _ hseek, ?_⟩
  rw [rest_seek c.file _ _ hseek, show rest c.file = _ from h.at, List.drop_drop, Nat.add_comm]

end Chunk

end TtsPool
