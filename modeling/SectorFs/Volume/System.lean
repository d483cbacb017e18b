/-
# SectorFs.Volume.System — file systems

A file system keeps its free map in a file of its own: the inode in sector 0 is
that file's, the inode in sector 1 the root directory's. `format` makes both on
a store of sectors; `mount` reads the free map back; `sync` writes it out and
makes every write last.

`FileSystem` puts the volume in memory together with the store that it runs on.
-/
import SectorFs.Volume.File
import SectorFs.Store.Basic

namespace SectorFs

set_option autoImplicit false

namespace Volume

variable {m : Nat}

/-- Stores a new inode with `length` bytes of zeros at a sector. -/
def createAt (s : Sector) (length : Nat) (isDirectory : Bool) (parent : Sector) :
    VolumeAction m Unit := do
  Action.ensure (length ≤ maxFileBytes) .fileTooLarge
  let (result, disk) ← onBlocks (.empty isDirectory parent) (FileBlocks.growTo length)
  liftExcept result
  (Action.writeInode s disk).onFailure (discard (onBlocks disk FileBlocks.dissolve))

/-- Makes a new inode with `length` bytes of zeros. -/
def create (length : Nat) (isDirectory : Bool) (parent : Sector) : VolumeAction m Sector := do
  let some s ← take 1 | throw .noSpace
  (createAt s length isDirectory parent).onFailure (give s 1)
  return s

/-- Stores the free map and makes every write last. -/
def sync : VolumeAction m Unit := do
  let bytes := (← get).free.toBytes
  let file ← openAt Sector.freeMap
  let written ← (writeBytes file 0 bytes).onFailure (drop file)
  close file
  Action.require (written = bytes.length) .mapProtected
  Action.flush

/-- Marks a well-known sector as in use. -/
def reserve (s : Sector) : VolumeAction m Unit := do
  let free ← Action.check ((← get).free.reserve s.index)
  modify fun v => { v with free }

/-- Makes an empty file system. -/
def format : VolumeAction m Unit := do
  reserve Sector.freeMap
  reserve Sector.root
  createAt Sector.freeMap (bytesFor m) false Sector.root
  createAt Sector.root 0 true Sector.root
  sync

/-- Opens an inode that every file system has. -/
def openKnown (s : Sector) : VolumeAction m Handle :=
  tryCatch (openAt s) fun e =>
    match e with
    | .notAnInode _ => throw .notFormatted
    | e => throw e

/-- Reads the free map back. -/
def mount : VolumeAction m Unit := do
  let file ← openKnown Sector.freeMap
  Action.ensure ((← node file).disk.length = bytesFor m) .notFormatted
  let bytes ← readBytes file 0 (bytesFor m)
  close file
  let free ← Action.check (FreeMap.ofBytes m bytes)
  modify fun v => { v with free }
  close (← openKnown Sector.root)

end Volume

/-- The settings of a file system. -/
structure SystemSettings where
  cache : CacheSettings := {}
deriving DecidableEq

/-- A file system in use, on a store `τ` of `m` sectors. -/
structure FileSystem (τ : Type) (m : Nat) where
  volume : Volume m
  store : τ

namespace FileSystem

variable {τ : Type} [SectorStore τ] {m : Nat} {α : Type}

/-- Carries out an operation. -/
def perform (fs : FileSystem τ m) (x : VolumeAction m α) :
    Except Violation (Except Failure α × FileSystem τ m) := do
  let ((result, volume), store) ← x.run fs.volume fs.store
  return (result, ⟨volume, store⟩)

/-- Starts a file system on a store. A disk without the two well-known sectors is refused before
the store is made. -/
def start (refusal : Failure) (x : VolumeAction m Unit) (store : Except Violation τ) :
    Except Violation (Except Failure Unit × Option (FileSystem τ m)) := do
  if m ≤ Sector.root.index then return (.error refusal, none)
  let (result, fs) ← perform ⟨.empty m, ← store⟩ x
  return (result, some fs)

/-- Makes an empty file system on a store. -/
def format (store : Except Violation τ) :
    Except Violation (Except Failure Unit × Option (FileSystem τ m)) :=
  start .noSpace Volume.format store

/-- Takes up the file system that a store has. -/
def mount (store : Except Violation τ) :
    Except Violation (Except Failure Unit × Option (FileSystem τ m)) :=
  start .notFormatted Volume.mount store

end FileSystem

end SectorFs
