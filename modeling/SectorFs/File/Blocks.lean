/-
# SectorFs.File.Blocks — the sectors behind the blocks of a file

A file takes its data sectors from the free map in groups of eight in a row and
uses them up in order; the inode keeps the next sector and how many are left.
Index blocks are taken one at a time when the first pointer needs them.
`append` adds a block and `pop` takes the last one away again, back into its
group; when the group is whole it goes back to the free map.

Both leave inode and free map alone when they fail: `append` gives back what it
had taken, and `pop` reads all it needs before it changes anything. `growTo`
takes its blocks away again when the last of them cannot be had.
-/
import SectorFs.Store.Program
import SectorFs.FreeMap

namespace SectorFs

set_option autoImplicit false

/-- The inode of a file in memory, and the free map that its sectors come from. -/
structure FileBlocks (m : Nat) where
  disk : Inode
  free : FreeMap m

/-- An operation on the blocks of one file. -/
abbrev BlockAction (m : Nat) := Action (FileBlocks m)

/-! ## Looking blocks up -/

namespace Inode

variable {σ : Type}

/-- The pointer to a block that the inode lists itself. -/
def directPointer (i : Fin 12) : Fin 15 := i.castLE (by decide)

def readPointer (index : Sector) (i : Fin 128) : Action σ (Option Sector) := do
  return (← Action.readIndex index).get i

def writePointer (index : Sector) (i : Fin 128) (s : Sector) : Action σ Unit := do
  Action.writeIndex index ((← Action.readIndex index).set i (some s))

/-- The sector of the `n`-th block, if the file has that block. -/
def sectorOfBlock (d : Inode) (n : Nat) : Action σ (Option Sector) := do
  if d.blockCount ≤ n then return none
  match Place.of n with
  | none => return none
  | some (.direct i) => return d.pointer (directPointer i)
  | some (.indirect i) =>
      let some indirect := d.pointer indirectPointer | return none
      readPointer indirect i
  | some (.doubly outer inner) =>
      let some doubly := d.pointer doublyPointer | return none
      let some indirect ← readPointer doubly outer | return none
      readPointer indirect inner

/-- The sector of the byte at `off`, if the file has that byte. -/
def sectorOfByte (d : Inode) (off : Nat) : Action σ (Option Sector) := do
  if d.length ≤ off then return none
  d.sectorOfBlock (off / bytesPerSector)

end Inode

namespace FileBlocks

variable {m : Nat}

/-! ## Sectors from and to the free map -/

/-- Takes `count` sectors in a row. -/
def take (count : Nat) : BlockAction m (Option Sector) := do
  let (s, free) ← Action.check ((← get).free.allocate count)
  modify fun b => { b with free }
  return s

/-- Takes one sector, if it is needed. -/
def takeIf (needed : Bool) : BlockAction m (Option Sector) :=
  if needed then take 1 else pure none

/-- Gives `count` sectors back. -/
def give (s : Sector) (count : Nat) : BlockAction m Unit := do
  let free ← Action.check ((← get).free.release s count)
  modify fun b => { b with free }

/-- Puts a changed inode in place. -/
def setDisk (disk : Except Violation Inode) : BlockAction m Unit := do
  let disk ← Action.check disk
  modify fun b => { b with disk }

/-- The sectors that are taken for one new block and not linked yet. -/
structure NewSectors where
  group : Option Sector := none
  indirect : Option Sector := none
  doubly : Option Sector := none

namespace NewSectors

/-- The index blocks among them. -/
def indexBlocks (r : NewSectors) : List Sector := r.indirect.toList ++ r.doubly.toList

def giveBack (r : NewSectors) : BlockAction m Unit := do
  r.indexBlocks.forM fun s => give s 1
  match r.group with
  | none => pure ()
  | some group => give group groupSize

end NewSectors

/-! ## Adding a block -/

/-- Whether a block at a place needs an index block, and a doubly-indirect block, of its own. -/
def needs (d : Inode) : Place → Bool × Bool
  | .direct _ => (false, false)
  | .indirect _ => ((d.pointer indirectPointer).isNone, false)
  | .doubly _ inner => (inner.val == 0, (d.pointer doublyPointer).isNone)

/-- The next data sector, how many its group has left with it, and the group if it is new. -/
def nextSector (d : Inode) : BlockAction m (Sector × Nat × Option Sector) :=
  if d.groupLeft = 0 then do
    let some group ← take groupSize | throw .noSpace
    return (group, groupSize, some group)
  else match d.cursor with
    | some next => return (next, d.groupLeft, none)
    | none => Action.check (.error (.groupCursor d.groupLeft))

/-- Clears the new sectors and writes the pointers that stand in index blocks. -/
def link (d : Inode) (place : Place) (data : Sector) (r : NewSectors) : BlockAction m Unit := do
  Action.clear data
  r.indexBlocks.forM fun s => Action.writeIndex s .zero
  match place with
  | .direct _ => return
  | .indirect i =>
      let some indirect := r.indirect <|> d.pointer indirectPointer
        | Action.check (.error (.linkIndirect i))
      Inode.writePointer indirect i data
  | .doubly outer inner =>
      let some doubly := r.doubly <|> d.pointer doublyPointer
        | Action.check (.error (.linkDoubly outer))
      match r.indirect with
      | some indirect =>
          Inode.writePointer doubly outer indirect
          Inode.writePointer indirect inner data
      | none =>
          let some indirect ← Inode.readPointer doubly outer
            | Action.check (.error (.linkInner outer doubly.index))
          Inode.writePointer indirect inner data

/-- The inode with one block more, where `left` sectors of the group were left with it. -/
def attach (d : Inode) (place : Place) (data : Sector) (left : Nat) (r : NewSectors) :
    Except Violation Inode := do
  let linked := match place, r with
    | .direct i, _ => d.withPointer (Inode.directPointer i) (some data)
    | .indirect _, { indirect := some s, .. } => d.withPointer indirectPointer (some s)
    | .doubly _ _, { doubly := some s, .. } => d.withPointer doublyPointer (some s)
    | _, _ => d
  let counted ← (← linked.withBlockCount (d.blockCount + 1)).withGroupLeft (left - 1)
  if 0 < left - 1 then return counted.withCursor (some (← data.offset 1))
  else return counted.withCursor none

/-- Adds a block of zeros at the place that comes next. -/
def appendAt (d : Inode) (place : Place) : BlockAction m Unit := do
  let (needIndirect, needDoubly) := needs d place
  let (data, left, group) ← nextSector d
  let indirect ← takeIf needIndirect
  let doubly ← takeIf needDoubly
  let taken : NewSectors := { group, indirect, doubly }
  Action.onFailure (do
    Action.ensure (indirect.isSome == needIndirect && doubly.isSome == needDoubly) .noSpace
    link d place data taken) taken.giveBack
  setDisk (attach d place data left taken)

/-- Adds a block of zeros after the last one. -/
def append : BlockAction m Unit := do
  let d := (← get).disk
  match Place.of d.blockCount with
  | none => throw .fileTooLarge
  | some place => appendAt d place

/-! ## Taking the last block away -/

/-- The last block's sector, and the index blocks that are empty without it, each with the inode
pointer to it if there is one. -/
def lastSector (d : Inode) (block : Nat) :
    Place → BlockAction m (Option Sector × List (Option (Fin 15) × Sector))
  | .direct i => return (d.pointer (Inode.directPointer i), [])
  | .indirect i => do
      let some indirect := d.pointer indirectPointer | Action.check (.error (.lostIndirect block))
      let data ← Inode.readPointer indirect i
      return (data, if i.val = 0 then [(some indirectPointer, indirect)] else [])
  | .doubly outer inner => do
      let some doubly := d.pointer doublyPointer | Action.check (.error (.lostDoubly block))
      let some indirect ← Inode.readPointer doubly outer
        | Action.check (.error (.lostInner block outer))
      let data ← Inode.readPointer indirect inner
      return (data,
        if inner.val = 0 then
          (none, indirect) :: if outer.val = 0 then [(some doublyPointer, doubly)] else []
        else [])

/-- Whether a data sector is the one before the next sector of the inode's group, if there is
one. -/
def checkCursor (d : Inode) (data : Sector) : Except Violation Unit :=
  match d.cursor with
  | none => .ok ()
  | some next => do if (← data.offset 1) = next then .ok () else .error .strayCursor

/-- Puts a data sector back into the inode's group, and the group back into the free map once it
is whole. -/
def regroup (d : Inode) (data : Sector) : BlockAction m Inode := do
  Action.check (checkCursor d data)
  if d.groupLeft + 1 = groupSize then
    give data groupSize
    return (← Action.check (d.withGroupLeft 0)).withCursor none
  else return (← Action.check (d.withGroupLeft (d.groupLeft + 1))).withCursor (some data)

/-- The inode without the pointer to a block that it lists itself. -/
def detach (d : Inode) : Place → Inode
  | .direct i => d.withPointer (Inode.directPointer i) none
  | _ => d

/-- Gives an empty index block back and clears the inode's pointer to it. -/
def giveIndex (d : Inode) (emptied : Option (Fin 15) × Sector) : BlockAction m Inode := do
  give emptied.2 1
  match emptied.1 with
  | none => return d
  | some slot => return d.withPointer slot none

/-- Takes the last block away, which is at a given place. -/
def popAt (d : Inode) (place : Place) : BlockAction m Unit := do
  let block := d.blockCount - 1
  let (some data, emptied) ← lastSector d block place | Action.check (.error (.lostSector block))
  let d ← regroup (detach d place) data
  let d ← emptied.foldlM giveIndex d
  setDisk (d.withBlockCount block)

/-- Takes the last block away. -/
def pop : BlockAction m Unit := do
  let d := (← get).disk
  Action.require (0 < d.blockCount) .emptyInode
  match Place.of (d.blockCount - 1) with
  | none => Action.check (.error (.blockLimit d.blockCount))
  | some place => popAt d place

/-! ## Many blocks at once -/

def appendMany : Nat → BlockAction m Unit
  | 0 => pure ()
  | count + 1 => do append; appendMany count

def popMany : Nat → BlockAction m Unit
  | 0 => pure ()
  | count + 1 => do pop; popMany count

/-- Takes blocks away until `blocks` are left. -/
def trimTo (blocks : Nat) : BlockAction m Unit := do
  popMany ((← get).disk.blockCount - blocks)

/-- Makes the length at least `length`, where the blocks for it are there. -/
def lengthen (length : Nat) : BlockAction m Unit := do
  let d := (← get).disk
  setDisk (if d.length < length then d.withLength length else .ok d)

/-- Makes the file at least `length` bytes long, with all the blocks that takes or none. -/
def growTo (length : Nat) : BlockAction m Unit := do
  Action.ensure (length ≤ maxFileBytes) .fileTooLarge
  let before := (← get).disk.blockCount
  (appendMany (sectorsFor length - before)).onFailure (Action.ignoreError (trimTo before))
  lengthen length

/-- Gives back every sector of the file. -/
def dissolve : BlockAction m Unit := do
  trimTo 0
  setDisk ((← get).disk.withLength 0)

end FileBlocks

end SectorFs
