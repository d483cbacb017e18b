/-
# SectorFs.Block — blocks of bytes

A block is a fixed number of bytes. `slice` copies a range out of it and `patch`
writes a range into it. The two are pinned down byte by byte: `getElem_patch`
says that a patch changes the bytes of its range and no other, and
`getElem?_slice` that a slice holds the block's bytes in order, so that
`slice_patch` gives back what was written.
-/

namespace SectorFs

set_option autoImplicit false

/-- A block of `n` bytes. -/
abbrev Block (n : Nat) := Vector UInt8 n

namespace Block

variable {n : Nat}

/-- A block of one byte over and over. -/
def filled (n : Nat) (byte : UInt8) : Block n := Vector.replicate n byte

/-- The block of zero bytes. -/
def zero (n : Nat) : Block n := filled n 0

/-- The bytes from `off` on, at most `len` of them. -/
def slice (b : Block n) (off len : Nat) : List UInt8 :=
  (b.toArray.extract off (off + len)).toList

/-- The block with `data` written over it from `off` on; what does not fit is dropped. -/
def patch (b : Block n) (off : Nat) (data : List UInt8) : Block n :=
  let bytes := data.toArray
  Vector.ofFn fun i =>
    if h : off ≤ i.val ∧ i.val - off < bytes.size then bytes[i.val - off] else b[i]

/-- The block that starts with `data` and goes on with zeros. -/
def ofList (n : Nat) (data : List UInt8) : Block n := (zero n).patch 0 data

/-- The block's bytes. -/
def bytes (b : Block n) : List UInt8 := b.toList

theorem getElem_patch (b : Block n) (off : Nat) (data : List UInt8) (i : Nat) (h : i < n) :
    (b.patch off data)[i] =
      if h : off ≤ i ∧ i - off < data.length then data[i - off] else b[i] := by
  simp [patch]

/-- A byte inside the written range is the one written there. -/
theorem getElem_patch_inside (b : Block n) (off : Nat) (data : List UInt8) (i : Nat) (h : i < n)
    (lo : off ≤ i) (hi : i - off < data.length) :
    (b.patch off data)[i] = data[i - off] := by
  rw [getElem_patch, dif_pos ⟨lo, hi⟩]

/-- A byte outside the written range stays. -/
theorem getElem_patch_outside (b : Block n) (off : Nat) (data : List UInt8) (i : Nat) (h : i < n)
    (out : i < off ∨ off + data.length ≤ i) :
    (b.patch off data)[i] = b[i] := by
  rw [getElem_patch, dif_neg (by omega)]

theorem slice_eq (b : Block n) (off len : Nat) :
    b.slice off len = (b.toList.drop off).take len := by
  simp only [slice, Array.toList_extract, List.extract_eq_take_drop, Nat.add_sub_cancel_left]
  rfl

theorem getElem?_slice (b : Block n) (off len i : Nat) :
    (b.slice off len)[i]? = if i < len then b[off + i]? else none := by
  rw [slice_eq, List.getElem?_take]
  split
  · rw [List.getElem?_drop]; simp
  · rfl

/-- Reading the range just written gives back what was written. -/
theorem slice_patch (b : Block n) (off : Nat) (data : List UInt8) (fits : off + data.length ≤ n) :
    (b.patch off data).slice off data.length = data := by
  apply List.ext_getElem?
  intro i
  rw [getElem?_slice]
  split
  case isTrue inside =>
    rw [Vector.getElem?_eq_getElem (by omega), getElem_patch_inside _ _ _ _ _ (by omega) (by omega),
      List.getElem?_eq_getElem inside]
    simp
  case isFalse outside => rw [List.getElem?_eq_none (by omega)]

/-- The whole block, read as a slice. -/
theorem slice_all (b : Block n) : b.slice 0 n = b.bytes := by
  rw [slice_eq, bytes, List.drop_zero, List.take_of_length_le (by simp)]

/-- A block read from its own bytes is itself. -/
theorem ofList_bytes (b : Block n) : ofList n b.bytes = b := by
  apply Vector.ext
  intro i h
  rw [ofList, getElem_patch_inside _ _ _ _ _ (by omega) (by simpa [bytes] using h)]
  simp [bytes]

end Block

end SectorFs
