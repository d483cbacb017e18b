/-
# SectorFs.File.Chunk — a byte range cut at sector bounds

A range of a file is read and written sector by sector. `chunks off len` cuts
the `len` bytes from `off` on into pieces that each stay inside one block of the
file, in order.
-/
import SectorFs.Geometry

namespace SectorFs

set_option autoImplicit false

/-- A piece of a file inside one block. -/
structure Chunk where
  /-- The place in the file of its first byte. -/
  start : Nat
  length : Nat

/-- The place of a chunk's first byte in its sector. -/
def Chunk.offset (c : Chunk) : Nat := c.start % bytesPerSector

/-- The piece inside block `block` of the `len` bytes from `off` on. -/
def chunkIn (off len block : Nat) : Chunk where
  start := max off (block * bytesPerSector)
  length := min (off + len) ((block + 1) * bytesPerSector) - max off (block * bytesPerSector)

/-- The `len` bytes from `off` on, cut at sector bounds. -/
def chunks (off len : Nat) : List Chunk :=
  let first := off / bytesPerSector
  (List.range' first (sectorsFor (off + len) - first)).map (chunkIn off len)

end SectorFs
