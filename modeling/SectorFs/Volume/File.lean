/-
# SectorFs.Volume.File — reading and writing files

A read stops at the end of the file. It then asks for the block behind the last
byte it read, and does not care whether that works. A write beyond the end
first extends the file and stores the inode; what lies between the old end and
the first byte written is zeros. A write that is denied, or of nothing, writes
nothing and is no failure.
-/
import SectorFs.Volume.Basic
import SectorFs.File.Chunk

namespace SectorFs

set_option autoImplicit false

namespace Volume

variable {m : Nat}

/-- Reads one chunk of a file. -/
def readChunk (disk : Inode) (chunk : Chunk) : VolumeAction m (List UInt8) := do
  match ← disk.sectorOfByte chunk.start with
  | some s => Action.read s chunk.offset chunk.length
  | none => Action.check (.error (.readHole chunk.start disk.length))

/-- Asks for the sector of the byte at `off`, which will be read soon. -/
def readAhead (disk : Inode) (off : Nat) : VolumeAction m Unit := do
  match ← disk.sectorOfByte off with
  | some s => Action.prefetch s
  | none => return

/-- Reads `len` bytes from `off` on, which the file has, and asks for what follows. -/
def readWithin (disk : Inode) (off len : Nat) : VolumeAction m (List UInt8) := do
  let parts ← (chunks off len).mapM (readChunk disk)
  Action.ignoreError (readAhead disk (sectorsFor (off + len) * bytesPerSector))
  return parts.flatten

/-- Reads up to `len` bytes from `off` on. -/
def readBytes (h : Handle) (off len : Nat) : VolumeAction m (List UInt8) := do
  let disk := (← node h).disk
  if disk.length ≤ off ∨ len = 0 then return []
  else readWithin disk off (min len (disk.length - off))

/-- Writes one chunk of a file, where the file reaches to `limit` at least. -/
def writeChunk (disk : Inode) (limit : Nat) (chunk : Chunk) (data : List UInt8) :
    VolumeAction m Unit := do
  match ← disk.sectorOfByte chunk.start with
  | some s => Action.write s chunk.offset data
  | none => Action.check (.error (.writeHole chunk.start limit))

/-- Writes data chunk by chunk. -/
def writeChunks (disk : Inode) (limit : Nat) : List Chunk → List UInt8 → VolumeAction m Unit
  | [], _ => pure ()
  | chunk :: rest, data => do
      writeChunk disk limit chunk (data.take chunk.length)
      writeChunks disk limit rest (data.drop chunk.length)

/-- Extends an open file to `length` bytes and stores its inode. -/
def grow (node : LoadedInode) (length : Nat) : VolumeAction m Inode := do
  let (result, disk) ← onBlocks node.disk (FileBlocks.growTo length)
  modify fun v => v.put { node with disk }
  liftExcept result
  Action.writeInode node.sector disk
  return disk

/-- Makes an open file at least `length` bytes long. Nothing is stored if it is already. -/
def reach (node : LoadedInode) (length : Nat) : VolumeAction m Inode :=
  if node.disk.length < length then grow node length else return node.disk

/-- Writes `data` at `off`, and gives the number of bytes written. -/
def writeBytes (h : Handle) (off : Nat) (data : List UInt8) : VolumeAction m Nat := do
  let node ← node h
  if 0 < node.denials ∨ data = [] then return 0
  else do
    let disk ← reach node (off + data.length)
    writeChunks disk (off + data.length) (chunks off data.length) data
    return data.length

end Volume

end SectorFs
