/-
# SectorFs.Volume.Basic — open inodes and the handles to them

A volume is what a mounted file system keeps in memory: the free map and the
inodes that are open. An inode is open while it has handles, and all its handles
share one entry. Closing the last handle of a removed inode deletes it: its
sector is cleared first, so that it no longer opens as an inode, then its blocks
and last the sector itself go back to the free map.
-/
import SectorFs.File.Blocks

namespace SectorFs

set_option autoImplicit false

/-- An inode in memory, shared by its handles. -/
structure LoadedInode where
  sector : Sector
  /-- The number of handles. -/
  openers : Nat
  /-- Whether the inode goes when its last handle is closed. -/
  removed : Bool
  /-- The number of handles that deny writes. -/
  denials : Nat
  disk : Inode

/-- What a mounted file system keeps in memory. -/
structure Volume (m : Nat) where
  free : FreeMap m
  /-- The open inodes, each sector at most once. -/
  inodes : List LoadedInode

/-- An operation on a file system. -/
abbrev VolumeAction (m : Nat) := Action (Volume m)

/-- A handle to an open inode. -/
structure Handle where
  sector : Sector
  deniesWrite : Bool := false

/-- The text that shows a handle. -/
def Handle.describe (h : Handle) : String :=
  s!"Inode \x7b sector: SectorNo({h.sector.index}), denies_write: {h.deniesWrite}, .. \x7d"

namespace Volume

variable {m : Nat}

/-- The volume with nothing in use and nothing open. -/
def empty (m : Nat) : Volume m := ⟨.empty m, []⟩

/-- The open inode at a sector. -/
def find? (v : Volume m) (s : Sector) : Option LoadedInode :=
  v.inodes.find? fun node => node.sector = s

/-- The volume with the open inode at a sector replaced. -/
def put (v : Volume m) (node : LoadedInode) : Volume m :=
  { v with inodes := v.inodes.map fun old => if old.sector = node.sector then node else old }

/-- The volume with the inode at a sector no longer open. -/
def erase (v : Volume m) (s : Sector) : Volume m :=
  { v with inodes := v.inodes.filter fun node => node.sector ≠ s }

/-- Takes `count` sectors in a row. -/
def take (count : Nat) : VolumeAction m (Option Sector) := do
  let (s, free) ← Action.check ((← get).free.allocate count)
  modify fun v => { v with free }
  return s

/-- Gives `count` sectors back. -/
def give (s : Sector) (count : Nat) : VolumeAction m Unit := do
  let free ← Action.check ((← get).free.release s count)
  modify fun v => { v with free }

/-- Runs an operation on the blocks of an inode: its result, failed or not, and the inode as far
as it came. -/
def onBlocks {α : Type} (disk : Inode) (x : BlockAction m α) :
    VolumeAction m (Except Failure α × Inode) := do
  let (result, blocks) ← (x.program ⟨disk, (← get).free⟩ : SectorProgram _)
  modify fun v => { v with free := blocks.free }
  return (result, blocks.disk)

/-- The inode behind a handle. -/
def node (h : Handle) : VolumeAction m LoadedInode := do
  match (← get).find? h.sector with
  | some node => return node
  | none => Action.check (.error (.closedInode h.sector.index))

/-! ## Opening and closing -/

/-- Reads the inode at a sector and puts it among the open ones. -/
def load (s : Sector) : VolumeAction m Unit := do
  let disk ← Action.readInode s
  Action.ensure disk.isMarked (.notAnInode s)
  let node : LoadedInode := { sector := s, openers := 1, removed := false, denials := 0, disk }
  modify fun v => { v with inodes := node :: v.inodes }

/-- Counts one handle more for the inode at a sector. -/
def share (s : Sector) : VolumeAction m Unit := do
  match (← get).find? s with
  | some node => modify fun v => v.put { node with openers := node.openers + 1 }
  | none => load s

/-- Opens the inode at a sector. -/
def openAt (s : Sector) : VolumeAction m Handle := do
  share s
  return { sector := s }

/-- Clears the sector of an inode and gives all its sectors back. -/
def delete (node : LoadedInode) : VolumeAction m Unit := do
  Action.writeInode node.sector .zero
  let (result, _) ← onBlocks node.disk FileBlocks.dissolve
  liftExcept result
  give node.sector 1

/-- Counts one denial less for the inode behind a handle. -/
def undeny (h : Handle) : VolumeAction m Unit := do
  let node ← node h
  Action.require (0 < node.denials) .noDenial
  modify fun v => v.put { node with denials := node.denials - 1 }

/-- Lifts the write denial of a handle. -/
def allow (h : Handle) : VolumeAction m Handle :=
  if h.deniesWrite then do
    undeny h
    return { h with deniesWrite := false }
  else return h

/-- Denies writes to the inode until this handle allows them again or is closed. -/
def deny (h : Handle) : VolumeAction m Handle :=
  if h.deniesWrite then return h
  else do
    let node ← node h
    Action.require (node.denials + 1 ≤ node.openers) .tooManyDenials
    modify fun v => v.put { node with denials := node.denials + 1 }
    return { h with deniesWrite := true }

/-- Forgets an inode without handles, and deletes it first if it was removed. -/
def unload (node : LoadedInode) : VolumeAction m Unit := do
  let forget : VolumeAction m Unit := modify fun v => v.erase node.sector
  (if node.removed then delete node else pure ()).onFailure forget
  forget

/-- Closes a handle. -/
def close (h : Handle) : VolumeAction m Unit := do
  let h ← allow h
  let node ← node h
  Action.require (0 < node.openers) (.closedInode h.sector.index)
  modify fun v => v.put { node with openers := node.openers - 1 }
  if node.openers = 1 then unload node

/-- Closes a handle and lets a failure pass. -/
def drop (h : Handle) : VolumeAction m Unit := Action.ignoreError (close h)

/-- Marks an inode to be deleted when its last handle is closed. -/
def remove (h : Handle) : VolumeAction m Unit := do
  let node ← node h
  modify fun v => v.put { node with removed := true }

end Volume

end SectorFs
