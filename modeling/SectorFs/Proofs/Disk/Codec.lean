/-
# SectorFs.Proofs.Disk.Codec — inodes and index blocks as sectors store them

Every field of an inode has four bytes of its own (`InodeField.offset`), and 424 bytes have no field.
What the accessors say is the number in those bytes, with two exceptions: a length of 2 ^ 31 or more
counts as zero, and a pointer of zero is none (`Inode.ReadsAs`). A setter overwrites the bytes of its
field (`encode_setField`). So inodes and index blocks are stored faithfully, whatever bytes they are
read from and in whatever order they are edited, and they come back from a store as they went there
(`codec_faithful`).
-/
import SectorFs.Proofs.Disk.Overwrite
import SectorFs.Proofs.File.Layout
import SectorFs.Console.Tables

namespace SectorFs

set_option autoImplicit false

/-! ## What numbers mean -/

/-- A pointer: zero stands for none. -/
def pointerOf (n : Nat) : Option Sector := if n = 0 then none else some (Sector.ofNat n)

/-- The pointer that is read back where a pointer was stored. -/
def readBack (s : Option Sector) : Option Sector := s.filter fun t => t.index ≠ 0

/-- A length: those with the sign bit set count as zero. -/
def lengthOf (n : Nat) : Nat := if n < 0x80000000 then n else 0

theorem lengthOf_word {n : Nat} (fits : n ≤ maxFileBytes) : lengthOf (UInt32.ofNat n).toNat = n := by
  have limit : maxFileBytes = 8460288 := rfl
  have short : n < 0x80000000 := by omega
  have word : (UInt32.ofNat n).toNat = n :=
    UInt32.toNat_ofNat_of_lt' (show n < 0x100000000 by omega)
  rw [lengthOf, word, if_pos short]

theorem ofPointer_eq (w : UInt32) : Sector.ofPointer w = pointerOf w.toNat := by
  rw [Sector.ofPointer, pointerOf, Sector.ofNat, UInt32.ofNat_toNat]
  refine if_congr ?_ rfl rfl
  rw [← UInt32.toNat_inj]
  rfl

theorem pointerOf_toPointer (s : Option Sector) :
    pointerOf (Sector.toPointer s).toNat = readBack s := by
  cases s with
  | none => rfl
  | some t =>
    rw [← ofPointer_eq, Sector.ofPointer_toPointer_some, readBack, Option.filter_some]
    by_cases zero : t.number = 0
    · rw [if_pos zero, if_neg]
      simp [Sector.index, zero]
    · have other : t.index ≠ 0 := fun same => zero (UInt32.toNat_inj.1 same)
      rw [if_neg zero, if_pos (decide_eq_true other)]

/-! ## The fields of an inode -/

inductive InodeField where
  | length
  | magic
  | blockCount
  | cursor
  | groupLeft
  | pointer (slot : Fin 15)
  | kind
  | parent
deriving DecidableEq

namespace InodeField

/-- The place of a field among the words of the sector. -/
def word : InodeField → Nat
  | length => 0
  | magic => 1
  | blockCount => 2
  | cursor => 3
  | groupLeft => 4
  | pointer slot => 5 + slot.val
  | kind => 20
  | parent => 21

/-- The first of the four bytes of a field. -/
def offset (f : InodeField) : Nat := 4 * f.word

/-- The word in a field of an inode. -/
def get (d : Inode) : InodeField → UInt32
  | length => d.lengthWord
  | magic => d.magic
  | blockCount => d.countWord
  | cursor => d.cursorWord
  | groupLeft => d.leftWord
  | pointer slot => d.pointers.get slot
  | kind => d.kindWord
  | parent => d.parentWord

/-- The inode with another word in a field. -/
def set (d : Inode) (x : UInt32) : InodeField → Inode
  | length => { d with lengthWord := x }
  | magic => { d with magic := x }
  | blockCount => { d with countWord := x }
  | cursor => { d with cursorWord := x }
  | groupLeft => { d with leftWord := x }
  | pointer slot => d.withPointer slot (some ⟨x⟩)
  | kind => { d with kindWord := x }
  | parent => { d with parentWord := x }

/-- What is put in place of the bytes of a field to set it. -/
def bytes (f : InodeField) (x : UInt32) : Overwrite := ⟨f.offset, bytesOfWord x⟩

variable {f g : InodeField} {d d' : Inode}

/-- What follows the fields is unused. -/
theorem word_lt (f : InodeField) : f.word < 22 := by
  cases f with
  | pointer slot => exact Nat.lt_of_lt_of_le (Nat.add_lt_add_left slot.isLt 5) (by decide)
  | _ => decide

theorem word_inj (same : f.word = g.word) : f = g := by
  cases f with
  | pointer slot =>
    cases g with
    | pointer slot' => exact congrArg pointer (Fin.ext (Nat.add_left_cancel same))
    | _ => simp only [word] at same; omega
  | _ =>
    cases g with
    | pointer slot' => simp only [word] at same; omega
    | _ => first | rfl | cases same

/-- Different fields have no byte in common. -/
theorem apart (other : f ≠ g) (x y : UInt32) : (f.bytes x).Apart (g.bytes y) := by
  have words : f.word ≠ g.word := fun same => other (word_inj same)
  rintro i ⟨⟨lo, hi⟩, lo', hi'⟩
  simp only [bytes, offset, length_bytesOfWord] at lo hi lo' hi'
  omega

theorem get_set (x : UInt32) : g.get (f.set d x) = if f = g then x else g.get d := by
  cases f with
  | pointer slot =>
    cases g with
    | pointer slot' =>
      refine (Vector.getElem_set slot.isLt slot'.isLt).trans (if_congr ?_ rfl rfl)
      rw [Fin.val_inj, pointer.injEq]
    | _ => rfl
  | _ => cases g <;> rfl

theorem unused_set (x : UInt32) : (f.set d x).unused = d.unused := by
  cases f <;> rfl

/-- An inode is its fields and what is unused. -/
theorem ext_get (fields : ∀ f : InodeField, f.get d = f.get d') (unused : d.unused = d'.unused) :
    d = d' := by
  cases d
  cases d'
  have pointers := Vector.ext fun slot h => fields (.pointer ⟨slot, h⟩)
  simp only [Inode.mk.injEq]
  exact ⟨fields length, fields magic, fields blockCount, fields cursor, fields groupLeft, pointers,
    fields kind, fields parent, unused⟩

theorem inside (f : InodeField) : f.word < 128 := Nat.lt_trans f.word_lt (by decide)

theorem get_ofWords (w : Vector UInt32 128) (inside : f.word < 128) :
    f.get (.ofWords w) = w[f.word] := by
  cases f with
  | pointer slot => exact Vector.getElem_ofFn ..
  | _ => rfl

theorem set_ofWords (w : Vector UInt32 128) (x : UInt32) :
    f.set (.ofWords w) x = .ofWords (w.set f.word x f.inside) := by
  refine ext_get (fun g => ?_) ?_
  · rw [get_set, get_ofWords _ g.inside, get_ofWords _ g.inside, Vector.getElem_set]
    exact if_congr ⟨congrArg word, word_inj⟩ rfl rfl
  · rw [unused_set]
    refine Vector.ext fun i h => ?_
    have below := f.word_lt
    simp only [Inode.ofWords, Vector.getElem_ofFn]
    exact (Vector.getElem_set_ne _ _ (by omega)).symm

/-- To set a field is to overwrite its bytes. -/
theorem encode_set (x : UInt32) : (f.set d x).encode =
    d.encode.patch (f.bytes x).off (f.bytes x).data := by
  have below := f.word_lt
  have whole : f.set d x = .ofWords (d.toWords.set f.word x (by omega)) := by
    rw [← set_ofWords, Inode.ofWords_toWords]
  rw [whole, Inode.encode, Inode.toWords_ofWords]
  exact Block.ofWords_set d.toWords (by omega) x

/-- The word in a field is the number in its bytes. -/
theorem number_encode (d : Inode) (f : InodeField) : d.encode.number f.offset = (f.get d).toNat := by
  have below := f.word_lt
  have word : f.get d = d.toWords[f.word] := by
    rw [← get_ofWords _ f.inside, Inode.ofWords_toWords]
  rw [offset, Block.number_word d.encode (by omega), word]
  simp only [Inode.encode, Block.toWords_ofWords]

/-- The bytes of a field. -/
def Owns (f : InodeField) (i : Nat) : Prop := f.offset ≤ i ∧ i < f.offset + 4

theorem owns_inj {i : Nat} (own : f.Owns i) (own' : g.Owns i) : f = g := by
  refine word_inj ?_
  simp only [Owns, offset] at own own'
  omega

theorem lt_of_owns {i : Nat} (own : f.Owns i) : i < 88 := by
  have below := f.word_lt
  simp only [Owns, offset] at own
  omega

end InodeField

/-! ## What the accessors say -/

/-- What an inode says is what the numbers in a sector mean. -/
structure Inode.ReadsAs (d : Inode) (b : Block 512) : Prop where
  length : d.length = lengthOf (b.number 0)
  magic : d.magic.toNat = b.number 4
  isMarked : d.isMarked = true ↔ b.number 4 = 0x494e4f44
  blockCount : d.blockCount = b.number 8
  cursor : d.cursor = pointerOf (b.number 12)
  groupLeft : d.groupLeft = b.number 16
  pointer (slot : Fin 15) : d.pointer slot = pointerOf (b.number (20 + 4 * slot.val))
  isDirectory : d.isDirectory = true ↔ b.number 80 ≠ 0
  parent : d.parent.index = b.number 84

theorem Inode.readsAs_encode (d : Inode) : d.ReadsAs d.encode := by
  have numbers := InodeField.number_encode d
  have length := numbers .length
  have magic := numbers .magic
  have cursor := numbers .cursor
  have kind := numbers .kind
  have zero (w : UInt32) : w ≠ 0 ↔ w.toNat ≠ 0 := not_congr UInt32.toNat_inj.symm
  constructor
  case length => exact congrArg lengthOf length.symm
  case magic => exact magic.symm
  case isMarked =>
    change (d.magic == inodeMark) = true ↔ d.encode.number 4 = inodeMark.toNat
    rw [beq_iff_eq, ← UInt32.toNat_inj]
    exact Eq.congr_left magic.symm
  case blockCount => exact (numbers .blockCount).symm
  case cursor => exact (ofPointer_eq _).trans (congrArg pointerOf cursor.symm)
  case groupLeft => exact (numbers .groupLeft).symm
  case pointer =>
    intro slot
    have here := numbers (.pointer slot)
    have offset : (InodeField.pointer slot).offset = 20 + 4 * slot.val := Nat.mul_add 4 5 slot.val
    rw [offset] at here
    exact (ofPointer_eq _).trans (congrArg pointerOf here.symm)
  case isDirectory =>
    change (d.kindWord != 0) = true ↔ d.encode.number 80 ≠ 0
    rw [bne_iff_ne, zero]
    exact not_congr (Eq.congr_left kind.symm)
  case parent => exact (numbers .parent).symm

/-! ## Edits of inodes -/

/-- Ways to edit an inode: to overwrite any of its bytes, or to set one of its fields. -/
inductive InodeEdit where
  | overwrite (off : Nat) (data : List UInt8)
  | setLength (n : Nat)
  | setBlockCount (n : Nat)
  | setCursor (s : Option Sector)
  | setGroupLeft (n : Nat)
  | setPointer (slot : Fin 15) (s : Option Sector)

namespace InodeEdit

def apply (d : Inode) : InodeEdit → Except Violation Inode
  | overwrite off data => return .decode (← patchSector d.encode off data)
  | setLength n => d.withLength n
  | setBlockCount n => d.withBlockCount n
  | setCursor s => return d.withCursor s
  | setGroupLeft n => d.withGroupLeft n
  | setPointer slot s => return d.withPointer slot s

/-- What an edit asks for has its place in the sector, and fits into its word. -/
def Fits : InodeEdit → Prop
  | overwrite off data => off + data.length ≤ 512
  | setLength n => n ≤ maxFileBytes
  | setBlockCount n | setGroupLeft n => n < 0x100000000
  | setCursor _ | setPointer .. => True

/-- The field that an edit sets. -/
def field? : InodeEdit → Option InodeField
  | overwrite .. => none
  | setLength _ => some .length
  | setBlockCount _ => some .blockCount
  | setCursor _ => some .cursor
  | setGroupLeft _ => some .groupLeft
  | setPointer slot _ => some (.pointer slot)

def written : InodeEdit → Overwrite
  | overwrite off data => ⟨off, data⟩
  | setLength n => InodeField.length.bytes (UInt32.ofNat n)
  | setBlockCount n => InodeField.blockCount.bytes (UInt32.ofNat n)
  | setCursor s => InodeField.cursor.bytes (Sector.toPointer s)
  | setGroupLeft n => InodeField.groupLeft.bytes (UInt32.ofNat n)
  | setPointer slot s => (InodeField.pointer slot).bytes (Sector.toPointer s)

/-- An inode says what an edit asked for. -/
def Shows (d : Inode) : InodeEdit → Prop
  | overwrite off data => d.encode.slice off data.length = data
  | setLength n => d.length = n
  | setBlockCount n => d.blockCount = n
  | setCursor s => d.cursor = readBack s
  | setGroupLeft n => d.groupLeft = n
  | setPointer slot s => d.pointer slot = readBack s

/-- A setter covers the bytes of its field. -/
theorem covers_iff {e : InodeEdit} {f : InodeField} (sets : e.field? = some f) (i : Nat) :
    e.written.Covers i ↔ f.Owns i := by
  cases e <;> cases sets <;> exact Iff.rfl

end InodeEdit

/-- Inodes are tables that fill a sector. -/
def inodeTable : Table Inode InodeEdit where
  decode := Inode.decode
  encode := Inode.encode
  apply := InodeEdit.apply
  Fits := InodeEdit.Fits
  written := InodeEdit.written
  Shows e d := e.Shows d

theorem patchSector_eq {b : Block 512} {off : Nat} {data : List UInt8}
    (fits : off + data.length ≤ 512) : patchSector b off data = .ok (b.patch off data) :=
  if_pos fits

theorem patchSector_refused {b : Block 512} {off : Nat} {data : List UInt8}
    (outside : ¬ off + data.length ≤ 512) : patchSector b off data = .error .badIndex :=
  if_neg outside

/-- The number that was put into a field. -/
theorem number_of_slice {b : Block 512} {f : InodeField} {x : UInt32}
    (there : b.slice (f.bytes x).off (f.bytes x).data.length = (f.bytes x).data) :
    b.number f.offset = x.toNat := by
  have slice : b.slice f.offset 4 = bytesOfWord x := there
  rw [Block.number, slice, littleEndian_bytesOfWord]

theorem InodeEdit.applies (d : Inode) (e : InodeEdit) (fits : e.Fits) : ∃ d', e.apply d = .ok d' ∧
    d'.encode = d.encode.patch e.written.off e.written.data := by
  cases e with
  | overwrite off data =>
    refine ⟨.decode (d.encode.patch off data), ?_, Inode.encode_decode _⟩
    rw [apply, patchSector_eq fits]
    rfl
  | setLength n => exact ⟨_, if_pos fits, InodeField.encode_set (f := .length) _⟩
  | setBlockCount n =>
    exact ⟨_, Inode.withBlockCount_eq fits d, InodeField.encode_set (f := .blockCount) _⟩
  | setCursor s => exact ⟨_, rfl, InodeField.encode_set (f := .cursor) _⟩
  | setGroupLeft n =>
    exact ⟨_, Inode.withGroupLeft_eq fits d, InodeField.encode_set (f := .groupLeft) _⟩
  | setPointer slot s => exact ⟨_, rfl, InodeField.encode_set (f := .pointer slot) _⟩

theorem InodeEdit.refuses (d : Inode) (e : InodeEdit) (unfit : ¬ e.Fits) :
    ∃ v, e.apply d = .error v := by
  have wide {n : Nat} (beyond : ¬ n < 0x100000000) : word32 n = .error .wideNumber := if_neg beyond
  cases e with
  | overwrite off data =>
    refine ⟨.badIndex, ?_⟩
    rw [apply, patchSector_refused unfit]
    rfl
  | setLength n => exact ⟨.lengthLimit, if_neg unfit⟩
  | setBlockCount n =>
    refine ⟨.wideNumber, ?_⟩
    rw [apply, Inode.withBlockCount, wide unfit]
    rfl
  | setGroupLeft n =>
    refine ⟨.wideNumber, ?_⟩
    rw [apply, Inode.withGroupLeft, wide unfit]
    rfl
  | setCursor s => exact absurd trivial unfit
  | setPointer slot s => exact absurd trivial unfit

theorem InodeEdit.inside (e : InodeEdit) (fits : e.Fits) :
    e.written.off + e.written.data.length ≤ 512 := by
  have field (f : InodeField) (x : UInt32) : (f.bytes x).off + (f.bytes x).data.length ≤ 512 := by
    have below := f.word_lt
    simp only [InodeField.bytes, InodeField.offset, length_bytesOfWord]
    omega
  cases e with
  | overwrite off data => exact fits
  | _ => exact field ..

theorem InodeEdit.shows (d : Inode) (e : InodeEdit) (fits : e.Fits)
    (there : d.encode.slice e.written.off e.written.data.length = e.written.data) : e.Shows d := by
  have reads := d.readsAs_encode
  have word {n : Nat} (below : n < 0x100000000) : (UInt32.ofNat n).toNat = n :=
    UInt32.toNat_ofNat_of_lt' below
  cases e with
  | overwrite off data => exact there
  | setLength n =>
    have number := number_of_slice (f := .length) there
    exact (reads.length.trans (congrArg lengthOf number)).trans (lengthOf_word fits)
  | setBlockCount n =>
    have number := number_of_slice (f := .blockCount) there
    exact reads.blockCount.trans (number.trans (word fits))
  | setCursor s =>
    have number := number_of_slice (f := .cursor) there
    exact (reads.cursor.trans (congrArg pointerOf number)).trans (pointerOf_toPointer s)
  | setGroupLeft n =>
    have number := number_of_slice (f := .groupLeft) there
    exact reads.groupLeft.trans (number.trans (word fits))
  | setPointer slot s =>
    have number := number_of_slice (f := .pointer slot) there
    have offset : (InodeField.pointer slot).offset = 20 + 4 * slot.val := Nat.mul_add 4 5 slot.val
    rw [offset] at number
    exact ((reads.pointer slot).trans (congrArg pointerOf number)).trans (pointerOf_toPointer s)

theorem inodeTable_lawful : inodeTable.Lawful where
  decode_encode := Inode.decode_encode
  encode_decode := Inode.encode_decode
  applies := InodeEdit.applies
  refuses := InodeEdit.refuses
  inside := InodeEdit.inside
  shows := InodeEdit.shows

/-! ## New inodes -/

/-- A new inode has what it was made with; every other byte of its sector is zero. -/
structure Inode.IsNew (d : Inode) (length : Nat) (isDirectory : Bool) (parent : Sector) : Prop where
  length : d.length = length
  isDirectory : d.isDirectory = isDirectory
  parent : d.parent = parent
  isMarked : d.isMarked = true
  zeros {i : Nat} (h : i < 512) :
    (∀ f ∈ [InodeField.length, .magic, .kind, .parent], ¬ f.Owns i) → d.encode[i] = 0

theorem Inode.encode_zero : Inode.zero.encode = Block.zero 512 := by
  have words : (Block.zero 512).toWords = Vector.replicate 128 0 := by
    refine Vector.ext fun i h => ?_
    simp only [Block.getElem_toWords, Block.zero, Block.filled, Vector.getElem_replicate]
    rfl
  have decoded : Inode.decode (Block.zero 512) = Inode.zero := by
    rw [Inode.decode, words]
    refine InodeField.ext_get (fun f => ?_) ?_
    · rw [InodeField.get_ofWords _ f.inside, Vector.getElem_replicate]
      cases f with
      | pointer slot => exact (Vector.getElem_replicate slot.isLt).symm
      | _ => rfl
    · refine Vector.ext fun i h => ?_
      simp only [Inode.ofWords, Inode.zero, Vector.getElem_ofFn, Vector.getElem_replicate]
  rw [← decoded, Inode.encode_decode]

theorem Inode.isNew_new {length : Nat} {isDirectory : Bool} {parent : Sector}
    (fits : length ≤ maxFileBytes) :
    ∃ d, Inode.new length isDirectory parent = .ok d ∧ d.IsNew length isDirectory parent := by
  let kind : UInt32 := if isDirectory then 1 else 0
  let marked := InodeField.magic.set Inode.zero inodeMark
  let empty := InodeField.parent.set (InodeField.kind.set marked kind) parent.number
  let d := InodeField.length.set empty (UInt32.ofNat length)
  have made : Inode.new length isDirectory parent = .ok d := if_pos fits
  let written := [InodeField.magic.bytes inodeMark, InodeField.kind.bytes kind,
    InodeField.parent.bytes parent.number, InodeField.length.bytes (UInt32.ofNat length)]
  have bytes : d.encode = Inode.zero.encode.overwrite written := by
    simp only [d, empty, marked, written, InodeField.encode_set, Block.overwrite, List.foldl_cons,
      List.foldl_nil]
  refine ⟨d, made, lengthOf_word fits, ?_, rfl, rfl, fun {i} h outside => ?_⟩
  · cases isDirectory <;> rfl
  · simp only [List.forall_mem_cons] at outside
    obtain ⟨in_length, in_magic, in_kind, in_parent, -⟩ := outside
    have untouched : ∀ o ∈ written, ¬ o.Covers i := by
      simp only [written, List.forall_mem_cons]
      exact ⟨in_magic, in_kind, in_parent, in_length, fun o mem => absurd mem List.not_mem_nil⟩
    simp only [bytes]
    rw [Block.getElem_overwrite h untouched]
    simp only [Inode.encode_zero, Block.zero, Block.filled, Vector.getElem_replicate]

/-! ## Index blocks -/

/-- Ways to edit an index block: to overwrite any of its bytes, or to set one of its entries. -/
inductive IndexEdit where
  | overwrite (off : Nat) (data : List UInt8)
  | set (i : Fin 128) (s : Option Sector)

namespace IndexEdit

def apply (x : IndexBlock) : IndexEdit → Except Violation IndexBlock
  | overwrite off data => return .decode (← patchSector x.encode off data)
  | set i s => return x.set i s

def Fits : IndexEdit → Prop
  | overwrite off data => off + data.length ≤ 512
  | set .. => True

def written : IndexEdit → Overwrite
  | overwrite off data => ⟨off, data⟩
  | set i s => ⟨4 * i.val, bytesOfWord (Sector.toPointer s)⟩

def Shows (x : IndexBlock) : IndexEdit → Prop
  | overwrite off data => x.encode.slice off data.length = data
  | set i s => x.get i = readBack s

end IndexEdit

/-- Index blocks are tables that fill a sector. -/
def indexTable : Table IndexBlock IndexEdit where
  decode := IndexBlock.decode
  encode := IndexBlock.encode
  apply := IndexEdit.apply
  Fits := IndexEdit.Fits
  written := IndexEdit.written
  Shows e x := e.Shows x

/-- An entry is the number in its bytes. -/
theorem IndexBlock.get_eq (x : IndexBlock) (i : Fin 128) :
    x.get i = pointerOf (x.encode.number (4 * i.val)) := by
  rw [Block.number_word x.encode i.isLt, IndexBlock.get, ofPointer_eq]
  simp only [IndexBlock.encode, Block.toWords_ofWords, Fin.getElem_fin]

theorem IndexEdit.applies (x : IndexBlock) (e : IndexEdit) (fits : e.Fits) : ∃ x',
    e.apply x = .ok x' ∧ x'.encode = x.encode.patch e.written.off e.written.data := by
  cases e with
  | overwrite off data =>
    refine ⟨.decode (x.encode.patch off data), ?_, IndexBlock.encode_decode _⟩
    rw [apply, patchSector_eq fits]
    rfl
  | set i s => exact ⟨x.set i s, rfl, Block.ofWords_set x.words i.isLt _⟩

theorem IndexEdit.refuses (x : IndexBlock) (e : IndexEdit) (unfit : ¬ e.Fits) :
    ∃ v, e.apply x = .error v := by
  cases e with
  | overwrite off data =>
    refine ⟨.badIndex, ?_⟩
    rw [apply, patchSector_refused unfit]
    rfl
  | set i s => exact absurd trivial unfit

theorem IndexEdit.inside (e : IndexEdit) (fits : e.Fits) :
    e.written.off + e.written.data.length ≤ 512 := by
  cases e with
  | overwrite off data => exact fits
  | set i s =>
    change 4 * i.val + 4 ≤ 512
    omega

theorem IndexEdit.shows (x : IndexBlock) (e : IndexEdit)
    (there : x.encode.slice e.written.off e.written.data.length = e.written.data) : e.Shows x := by
  cases e with
  | overwrite off data => exact there
  | set i s =>
    have slice : x.encode.slice (4 * i.val) 4 = bytesOfWord (Sector.toPointer s) := there
    rw [Shows, x.get_eq, Block.number, slice, littleEndian_bytesOfWord, pointerOf_toPointer]

theorem indexTable_lawful : indexTable.Lawful where
  decode_encode := IndexBlock.decode_encode
  encode_decode := IndexBlock.encode_decode
  applies := IndexEdit.applies
  refuses := IndexEdit.refuses
  inside := IndexEdit.inside
  shows x e _ := IndexEdit.shows x e

/-! ## From and to a store -/

/-- A table that is stored at a sector and loaded from there is the same again, unless a request
fails. -/
structure Reloads {k m : Nat} (c : Cache k m 512) (s : Sector) : Prop where
  inode (d : Inode) : ∃ r c', (do Action.writeInode s d; Action.readInode s : Action Unit Inode).run
    () c = .ok ((r, ()), c') ∧ (r = .ok d ∨ c.MayFail ∧ r = .error .io)
  index (x : IndexBlock) : ∃ r c', (do Action.writeIndex s x; Action.readIndex s :
    Action Unit IndexBlock).run () c = .ok ((r, ()), c') ∧ (r = .ok x ∨ c.MayFail ∧ r = .error .io)

theorem Cache.Ready.reloads {k m : Nat} {c : Cache k m 512} {s : Sector} (ready : c.Ready)
    (inside : s.index < m) : Reloads c s where
  inode d := by
    have loads : (do Action.writeInode s d; Action.readInode s : Action Unit Inode).Ensures m
        c.MayFail () c.image fun r _ _ => r = .ok d ∨ c.MayFail ∧ r = .error .io := by
      simp [inside]
    obtain ⟨⟨r, ⟨⟩⟩, c', ran, -, -, holds⟩ := Cache.run_of_ensures ready id loads
    exact ⟨r, c', ran, holds⟩
  index x := by
    have loads : (do Action.writeIndex s x; Action.readIndex s : Action Unit IndexBlock).Ensures m
        c.MayFail () c.image fun r _ _ => r = .ok x ∨ c.MayFail ∧ r = .error .io := by
      simp [inside]
    obtain ⟨⟨r, ⟨⟩⟩, c', ran, -, -, holds⟩ := Cache.run_of_ensures ready id loads
    exact ⟨r, c', ran, holds⟩

/-! ## The whole layout -/

/-- Inodes are stored faithfully: byte by byte and in whatever order they are edited, each field in
its own bytes, and what is new is zero elsewhere. -/
structure InodesFaithful : Prop where
  faithful : inodeTable.Faithful
  reads (d : Inode) : d.ReadsAs d.encode
  covers {e : InodeEdit} {f : InodeField} :
    e.field? = some f → ∀ i, e.written.Covers i ↔ f.Owns i
  apart {f g : InodeField} {i : Nat} : f.Owns i → g.Owns i → f = g
  unused {f : InodeField} {i : Nat} : f.Owns i → i < 88
  new {length : Nat} (isDirectory : Bool) (parent : Sector) : length ≤ maxFileBytes →
    ∃ d, Inode.new length isDirectory parent = .ok d ∧ d.IsNew length isDirectory parent

/-- Index blocks are stored faithfully. -/
structure IndexFaithful : Prop where
  faithful : indexTable.Faithful
  reads (x : IndexBlock) (i : Fin 128) : x.get i = pointerOf (x.encode.number (4 * i.val))

/-- **Tables are stored faithfully.** For all bytes of a sector, all edits of the inode or the index
block in it and all orders of them, and on every cache. -/
theorem codec_faithful : InodesFaithful ∧ IndexFaithful ∧
    ∀ {k m : Nat} {c : Cache k m 512} {s : Sector}, c.Ready → s.index < m → Reloads c s where
  left := {
    faithful := inodeTable_lawful.faithful
    reads := Inode.readsAs_encode
    covers := InodeEdit.covers_iff
    apart := InodeField.owns_inj
    unused := InodeField.lt_of_owns
    new := fun _ _ fits => Inode.isNew_new fits }
  right := ⟨⟨indexTable_lawful.faithful, IndexBlock.get_eq⟩, Cache.Ready.reloads⟩

/-- In a sector of 255s the length is negative and counts as zero. A pointer to sector 0 that is set
there is read back as none, and after it the number of blocks as it was set; from a cache of one
slot the inode comes back. -/
theorem codec_faithful_one_slot : (Inode.decode (Block.filled 512 255)).length = 0 ∧
    ∃ (d : Inode) (c c' : Cache 1 1 512),
      inodeTable.edit (.decode (Block.filled 512 255))
        [.setPointer 3 (some ⟨0⟩), .setBlockCount 7] = .ok d ∧
      d.pointer 3 = none ∧ d.blockCount = 7 ∧
      Cache.new (Device.filled 1 512 7) { slots := 1 } = .ok c ∧
      (do Action.writeInode ⟨0⟩ d; Action.readInode ⟨0⟩ : Action Unit Inode).run () c =
        .ok ((.ok d, ()), c') := by
  obtain ⟨inodes, -, reloads⟩ := codec_faithful
  have fit : ∀ e ∈ [InodeEdit.setPointer 3 (some ⟨0⟩), .setBlockCount 7], inodeTable.Fits e := by
    simp [inodeTable, InodeEdit.Fits]
  obtain ⟨d, edited⟩ := (inodes.faithful.succeeds (.decode (Block.filled 512 255)) _).2 fit
  have pointer : d.pointer 3 = none := by
    have first : inodeTable.edit (.decode (Block.filled 512 255))
        ([] ++ .setPointer 3 (some ⟨0⟩) :: [.setBlockCount 7]) = .ok d := edited
    refine inodes.faithful.last first fun e mem => ?_
    rw [List.mem_singleton.1 mem]
    exact InodeField.apart (by decide) _ _
  have count : d.blockCount = 7 := by
    have second : inodeTable.edit (.decode (Block.filled 512 255))
        ([.setPointer 3 (some ⟨0⟩)] ++ .setBlockCount 7 :: []) = .ok d := edited
    exact inodes.faithful.last second nofun
  obtain ⟨c, made⟩ : ∃ c, Cache.new (Device.filled 1 512 7) { slots := 1 } = .ok c := ⟨_, rfl⟩
  obtain ⟨ready, on_device, -⟩ := Cache.ready_new made
  obtain ⟨r, c', ran, loaded⟩ := (reloads (s := ⟨0⟩) ready Nat.one_pos).inode d
  have never : ¬ c.MayFail := by
    rw [Cache.MayFail, on_device]
    exact fun may => may fun _ _ _ => rfl
  obtain rfl : r = .ok d := loaded.resolve_right fun may => never may.1
  refine ⟨?_, d, c, c', edited, pointer, count, made, ran⟩
  rw [(inodes.reads _).length, Inode.encode_decode, Block.number, Block.slice_eq, Block.filled,
    Vector.toList_replicate, List.drop_zero, List.take_replicate]
  rfl

end SectorFs
