/-
# SectorFs.Disk.Index — index blocks

An index block is a sector of 128 sector pointers. Setting one entry leaves the
others alone (`get_set`), and a block read back from its sector is the block
that was stored (`decode_encode`).
-/
import SectorFs.Geometry
import SectorFs.Block.Words

namespace SectorFs

set_option autoImplicit false

/-- The pointer words of an index block. -/
structure IndexBlock where
  words : Vector UInt32 128

namespace IndexBlock

/-- The index block without a pointer. -/
def zero : IndexBlock := ⟨Vector.replicate 128 0⟩

/-- The index block that a sector holds. -/
def decode (b : Block 512) : IndexBlock := ⟨b.toWords⟩

/-- The sector that holds an index block. -/
def encode (x : IndexBlock) : Block 512 := Block.ofWords x.words

def get (x : IndexBlock) (i : Fin 128) : Option Sector := Sector.ofPointer x.words[i]

def set (x : IndexBlock) (i : Fin 128) (s : Option Sector) : IndexBlock :=
  ⟨x.words.set i (Sector.toPointer s)⟩

/-- The entries that hold a pointer, in order. -/
def entries (x : IndexBlock) : List (Fin 128 × Sector) :=
  (List.finRange 128).filterMap fun i => (x.get i).map (i, ·)

@[simp] theorem decode_encode (x : IndexBlock) : decode x.encode = x := by
  rw [decode, encode, Block.toWords_ofWords]

@[simp] theorem encode_decode (b : Block 512) : (decode b).encode = b := by
  rw [decode, encode, Block.ofWords_toWords]

/-- The entry that was set holds the new pointer, and the others what they held. -/
theorem get_set (x : IndexBlock) (i j : Fin 128) (s : Option Sector) :
    (x.set i s).get j = if i = j then Sector.ofPointer (Sector.toPointer s) else x.get j := by
  simp only [get, set, Fin.getElem_fin, Vector.getElem_set, Fin.val_inj]
  split <;> rfl

end IndexBlock

end SectorFs
