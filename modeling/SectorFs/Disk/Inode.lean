/-
# SectorFs.Disk.Inode — the inode as a sector stores it

An inode fills one sector. `Inode` has a field for every word of it, the
unused ones included, so `encode` and `decode` are inverse to each other
(`decode_encode`, `encode_decode`): a sector is an inode record and nothing is
lost on the way. The accessors give the words their meaning: a pointer word of
zero is no pointer, and a length word with its sign bit set counts as zero. The
setters refuse what their word cannot hold.
-/
import SectorFs.Geometry
import SectorFs.Block.Words

namespace SectorFs

set_option autoImplicit false

/-- The word that marks a sector as an inode. -/
def inodeMark : UInt32 := 0x494e4f44

/-- The 128 words of an inode sector. -/
structure Inode where
  /-- The file length, as a signed word. -/
  lengthWord : UInt32
  magic : UInt32
  /-- The number of data blocks. -/
  countWord : UInt32
  /-- The next sector of the current allocation group. -/
  cursorWord : UInt32
  /-- The sectors left in the current allocation group. -/
  leftWord : UInt32
  pointers : Vector UInt32 15
  /-- Nonzero for a directory. -/
  kindWord : UInt32
  parentWord : UInt32
  unused : Vector UInt32 106

namespace Inode

/-- The inode in a table of words. -/
def ofWords (w : Vector UInt32 128) : Inode where
  lengthWord := w[0]
  magic := w[1]
  countWord := w[2]
  cursorWord := w[3]
  leftWord := w[4]
  pointers := Vector.ofFn fun i => w[5 + i.val]
  kindWord := w[20]
  parentWord := w[21]
  unused := Vector.ofFn fun i => w[22 + i.val]

/-- The words of an inode, in the order of the sector. -/
def toWords (d : Inode) : Vector UInt32 128 :=
  Vector.ofFn fun i =>
    if tail : 22 ≤ i.val then d.unused[i.val - 22]
    else if list : 5 ≤ i.val ∧ i.val < 20 then d.pointers[i.val - 5]
    else match i.val with
      | 0 => d.lengthWord
      | 1 => d.magic
      | 2 => d.countWord
      | 3 => d.cursorWord
      | 4 => d.leftWord
      | 20 => d.kindWord
      | _ => d.parentWord

/-- The inode that a sector holds. -/
def decode (b : Block 512) : Inode := ofWords b.toWords

/-- The sector that holds an inode. -/
def encode (d : Inode) : Block 512 := Block.ofWords d.toWords

theorem ofWords_toWords (d : Inode) : ofWords d.toWords = d := by
  obtain ⟨_, _, _, _, _, pointers, _, _, unused⟩ := d
  simp only [ofWords, toWords, Vector.getElem_ofFn, mk.injEq]
  refine ⟨rfl, rfl, rfl, rfl, rfl, ?_, rfl, rfl, ?_⟩
  · apply Vector.ext
    intro i h
    have hi : ¬ 22 ≤ 5 + i := by omega
    have hj : 5 ≤ 5 + i ∧ 5 + i < 20 := by omega
    simp only [Vector.getElem_ofFn, hi, hj, dite_false, dite_true, and_self]
    congr 1
    omega
  · apply Vector.ext
    intro i h
    have hi : 22 ≤ 22 + i := by omega
    simp only [Vector.getElem_ofFn, hi, dite_true]
    congr 1
    omega

theorem toWords_ofWords (w : Vector UInt32 128) : (ofWords w).toWords = w := by
  apply Vector.ext
  intro i h
  simp only [toWords, ofWords, Vector.getElem_ofFn]
  split
  · congr 1; omega
  · split
    · congr 1; omega
    · have small : i < 5 ∨ i = 20 ∨ i = 21 := by omega
      rcases small with small | rfl | rfl
      · have cases : i = 0 ∨ i = 1 ∨ i = 2 ∨ i = 3 ∨ i = 4 := by omega
        rcases cases with rfl | rfl | rfl | rfl | rfl <;> rfl
      · rfl
      · rfl

@[simp] theorem decode_encode (d : Inode) : decode d.encode = d := by
  rw [decode, encode, Block.toWords_ofWords, ofWords_toWords]

@[simp] theorem encode_decode (b : Block 512) : (decode b).encode = b := by
  rw [decode, encode, toWords_ofWords, Block.ofWords_toWords]

/-! ## What the words mean -/

/-- The inode whose words are all zero. -/
def zero : Inode := ⟨0, 0, 0, 0, 0, Vector.replicate 15 0, 0, 0, Vector.replicate 106 0⟩

def isMarked (d : Inode) : Bool := d.magic == inodeMark

/-- The file length in bytes. -/
def length (d : Inode) : Nat :=
  if d.lengthWord.toNat < 0x80000000 then d.lengthWord.toNat else 0

/-- The number of data blocks. -/
def blockCount (d : Inode) : Nat := d.countWord.toNat

/-- The next sector of the current allocation group. -/
def cursor (d : Inode) : Option Sector := Sector.ofPointer d.cursorWord

/-- The sectors left in the current allocation group. -/
def groupLeft (d : Inode) : Nat := d.leftWord.toNat

/-- A pointer of the inode. -/
def pointer (d : Inode) (slot : Fin 15) : Option Sector := Sector.ofPointer d.pointers[slot]

def isDirectory (d : Inode) : Bool := d.kindWord != 0

/-- The inode of the directory above. -/
def parent (d : Inode) : Sector := ⟨d.parentWord⟩

/-! ## Changing them -/

def withLength (d : Inode) (n : Nat) : Except Violation Inode :=
  if n ≤ maxFileBytes then .ok { d with lengthWord := UInt32.ofNat n } else .error .lengthLimit

def withBlockCount (d : Inode) (n : Nat) : Except Violation Inode := do
  return { d with countWord := ← word32 n }

def withGroupLeft (d : Inode) (n : Nat) : Except Violation Inode := do
  return { d with leftWord := ← word32 n }

def withCursor (d : Inode) (s : Option Sector) : Inode :=
  { d with cursorWord := Sector.toPointer s }

def withPointer (d : Inode) (slot : Fin 15) (s : Option Sector) : Inode :=
  { d with pointers := d.pointers.set slot (Sector.toPointer s) }

/-- An inode of no bytes that owns no block yet. -/
def empty (isDirectory : Bool) (parent : Sector) : Inode :=
  { zero with
    magic := inodeMark
    kindWord := if isDirectory then 1 else 0
    parentWord := parent.number }

/-- An inode of `length` bytes that owns no block yet. -/
def new (length : Nat) (isDirectory : Bool) (parent : Sector) : Except Violation Inode :=
  (empty isDirectory parent).withLength length

end Inode

end SectorFs
