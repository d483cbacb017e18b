/-
# SectorFs.FreeMap — which sectors are in use

A free map has one bit per sector. Runs of sectors are handed out first fit:
`allocate` takes the lowest run that is long enough. The count of used sectors
is kept beside the bits, so `countFree` needs no scan.

The stored form packs eight sectors into a byte, the lowest sector in the lowest
bit. The last byte may have bits beyond the last sector; they are kept as they
were loaded and mean nothing.
-/
import SectorFs.Geometry

namespace SectorFs

set_option autoImplicit false

/-- Bytes that hold `n` bits. -/
def bytesFor (n : Nat) : Nat := (n + 7) / 8

/-- One in-use bit for each of `n` sectors, and those that fill the last byte. -/
structure FreeMap (n : Nat) where
  bits : Vector Bool (8 * bytesFor n)
  /-- How many of the `n` sectors are in use. -/
  used : Nat

/-- The byte with the given bits, the first of them lowest. -/
def byteOfBits (bit : Nat → Bool) : UInt8 :=
  UInt8.ofNat ((List.range 8).foldr (fun i rest => (bit i).toNat <<< i + rest) 0)

/-- Bit `i` of a byte. -/
def bitOfByte (byte : UInt8) (i : Nat) : Bool := byte.toNat.testBit i

/-- The lowest start of `count` places in a row that are free. `run` free places end just before
`pos`, and `left` places are still to be looked at. -/
def firstRun (free : Nat → Bool) (count : Nat) : (left pos run : Nat) → Option Nat
  | 0, _, _ => none
  | left + 1, pos, run =>
      if free pos then
        if run + 1 = count then some (pos + 1 - count)
        else firstRun free count left (pos + 1) (run + 1)
      else firstRun free count left (pos + 1) 0

/-- The bits with `count` of them from `start` on set to `value`. -/
def setRun {k : Nat} (value : Bool) : (count start : Nat) → Vector Bool k → Vector Bool k
  | 0, _, bits => bits
  | count + 1, start, bits => setRun value count (start + 1) (bits.setIfInBounds start value)

namespace FreeMap

variable {n : Nat}

theorem lt_bits {i : Nat} (h : i < n) : i < 8 * bytesFor n := by
  unfold bytesFor; omega

/-- The map of `n` sectors that are all free. -/
def empty (n : Nat) : FreeMap n := ⟨Vector.replicate _ false, 0⟩

/-- Whether sector `i` is in use; places beyond the last sector count as used. -/
def inUse (m : FreeMap n) (i : Nat) : Bool :=
  if h : i < n then m.bits.get ⟨i, lt_bits h⟩ else true

def countFree (m : FreeMap n) : Nat := n - m.used

/-- Whether a sector of the disk is in use. -/
def usage (m : FreeMap n) (i : Nat) : Except Violation Bool :=
  if i < n then .ok (m.inUse i) else .error (.sectorRange i)

/-- Marks one free sector as in use. -/
def reserve (m : FreeMap n) (i : Nat) : Except Violation (FreeMap n) := do
  if ← m.usage i then .error (.sectorInUse i)
  else .ok ⟨m.bits.setIfInBounds i true, m.used + 1⟩

/-- Marks one used sector as free. -/
def free (m : FreeMap n) (i : Nat) : Except Violation (FreeMap n) := do
  if ← m.usage i then .ok ⟨m.bits.setIfInBounds i false, m.used - 1⟩
  else .error (.sectorFree i)

/-- Takes the lowest `count` free sectors in a row; `none` if there is no such run. -/
def allocate (m : FreeMap n) (count : Nat) : Except Violation (Option Sector × FreeMap n) := do
  if count = 0 then .error .emptyRun
  else match firstRun (fun i => !m.inUse i) count n 0 0 with
    | none => .ok (none, m)
    | some start =>
        let number ← word32 start
        .ok (some ⟨number⟩, ⟨setRun true count start m.bits, m.used + count⟩)

/-- Gives back `count` sectors one after another. -/
def releaseFrom (m : FreeMap n) : (count start : Nat) → Except Violation (FreeMap n)
  | 0, _ => .ok m
  | count + 1, start => do (← m.free start).releaseFrom count (start + 1)

/-- Gives back `count` sectors from `start` on. -/
def release (m : FreeMap n) (start : Sector) (count : Nat) : Except Violation (FreeMap n) :=
  if start.index + count < 0x10000000000000000 then m.releaseFrom count start.index
  else .error .numberOverflow

/-- The stored form. -/
def toBytes (m : FreeMap n) : List UInt8 :=
  (List.range (bytesFor n)).map fun j => byteOfBits fun i => m.bits[8 * j + i]?.getD false

/-- The map with a given stored form, which must be of the right size. -/
def ofBytes (n : Nat) (bytes : List UInt8) : Except Violation (FreeMap n) :=
  if bytes.length = bytesFor n then
    let stored := bytes.toArray
    let bits := Vector.ofFn fun i : Fin (8 * bytesFor n) =>
      bitOfByte (stored[i.val / 8]?.getD 0) (i.val % 8)
    .ok ⟨bits, (bits.toList.take n).count true⟩
  else .error .mapSize

end FreeMap

end SectorFs
