/-
# SectorFs.Geometry — sectors, and where a file's blocks are listed

A disk is an array of 512-byte sectors. An inode lists the sectors of its file
in order: the first 12 in the inode itself, the next 128 in one indirect block,
and 128 × 128 more through a doubly-indirect block. `Place.of` gives the place
in that tree of the `n`-th block of a file; it is defined exactly for the 16524
blocks that a file can have (`Place.of_eq_none_iff`).
-/
import SectorFs.Violation

namespace SectorFs

set_option autoImplicit false

/-- Bytes in a sector. -/
abbrev bytesPerSector : Nat := 512

/-- Sector pointers in an index block: the 32-bit words of a sector. -/
abbrev pointersPerSector : Nat := 128

/-- Sector pointers in an inode. -/
abbrev inodePointers : Nat := 15

/-- Blocks that the inode lists itself. -/
abbrev directCount : Nat := 12

/-- The inode pointer to the indirect block. -/
def indirectPointer : Fin 15 := 12

/-- The inode pointer to the doubly-indirect block. -/
def doublyPointer : Fin 15 := 13

/-- The inode pointer that is kept for a third level and never set. -/
def triplyPointer : Fin 15 := 14

/-- The most blocks that a file can have. -/
def maxBlocks : Nat := directCount + pointersPerSector + pointersPerSector * pointersPerSector

theorem maxBlocks_eq : maxBlocks = 16524 := rfl

/-- The most bytes that a file can have. -/
def maxFileBytes : Nat := maxBlocks * bytesPerSector

/-- Sectors that a file takes from the free map at once. -/
def groupSize : Nat := 8

/-- The number of sectors that hold `len` bytes. -/
def sectorsFor (len : Nat) : Nat := (len + 511) / 512

/-- The number as a 32-bit word, if it fits. -/
def word32 (n : Nat) : Except Violation UInt32 :=
  if n < 0x100000000 then .ok (UInt32.ofNat n) else .error .wideNumber

/-- The number of a sector on the disk. -/
structure Sector where
  number : UInt32
deriving DecidableEq

namespace Sector

/-- The sector number as a plain number. -/
def index (s : Sector) : Nat := s.number.toNat

/-- The sector with a number that is known to fit. -/
def ofNat (n : Nat) : Sector := ⟨UInt32.ofNat n⟩

instance : Ord Sector := ⟨fun s t => compare s.number t.number⟩

/-- The sector `n` places further on. -/
def offset (s : Sector) (n : Nat) : Except Violation Sector := do
  let distance ← word32 n
  if s.index + n < 0x100000000 then .ok ⟨s.number + distance⟩ else .error .numberOverflow

/-- A stored pointer: zero stands for none. -/
def ofPointer (raw : UInt32) : Option Sector := if raw = 0 then none else some ⟨raw⟩

/-- How a pointer is stored: none as zero. -/
def toPointer : Option Sector → UInt32
  | none => 0
  | some s => s.number

@[simp] theorem ofPointer_toPointer_none : ofPointer (toPointer none) = none := rfl

theorem ofPointer_toPointer_some (s : Sector) :
    ofPointer (toPointer (some s)) = if s.number = 0 then none else some s := rfl

/-- The sector with the inode of the file that holds the free map. -/
def freeMap : Sector := ⟨0⟩

/-- The sector with the inode of the root directory. -/
def root : Sector := ⟨1⟩

end Sector

/-- Where an inode lists one of its blocks. -/
inductive Place where
  /-- In the inode itself. -/
  | direct (i : Fin 12)
  /-- In the indirect block. -/
  | indirect (i : Fin 128)
  /-- In the indirect block that entry `outer` of the doubly-indirect block names. -/
  | doubly (outer inner : Fin 128)
deriving DecidableEq

/-- Where the `n`-th block of a file is listed; `none` beyond the last one. -/
def Place.of (n : Nat) : Option Place :=
  if h : n < 12 then some (.direct ⟨n, h⟩)
  else if h : n - 12 < 128 then some (.indirect ⟨n - 12, h⟩)
  else if h : n - 140 < 128 * 128 then
    some (.doubly ⟨(n - 140) / 128, by omega⟩ ⟨(n - 140) % 128, by omega⟩)
  else none

theorem Place.of_eq_none_iff (n : Nat) : Place.of n = none ↔ maxBlocks ≤ n := by
  rw [maxBlocks_eq, Place.of]
  split
  · simp only [reduceCtorEq, false_iff]; omega
  · split
    · simp only [reduceCtorEq, false_iff]; omega
    · split
      · simp only [reduceCtorEq, false_iff]; omega
      · simp only [true_iff]; omega

theorem Place.lt_of_of {n : Nat} {place : Place} (found : Place.of n = some place) :
    n < maxBlocks := by
  refine Nat.lt_of_not_le fun beyond => ?_
  rw [(Place.of_eq_none_iff n).2 beyond] at found
  cases found

end SectorFs
