/-
# SectorFs.Console.Disk — a console for a disk and its file system

A disk has at most one file system in use at a time. The console keeps named
handles to open inodes, and names for the sectors of inodes made before. Handles
outlive the file system they came from: after a shutdown they still work, on the
memory that it left behind. `crash` forgets everything in memory, and so do
`format` and `mount` before they start.
-/
import SectorFs.Console.Device
import SectorFs.Volume.System

namespace SectorFs

set_option autoImplicit false

/-- A sector, by its number or by a name it was given. -/
inductive SectorRef where
  | number (s : Sector)
  | name (name : String)

/-- A command to the file system in use. -/
inductive SystemCommand where
  | create (length : Nat) (isDirectory : Bool) (parent : SectorRef) (name : Option String)
  | open (name : String)
  | root (name : String)
  | sync
  | shutdown
  | counts
  | residents
  | inode
  | index
  | put (data : List UInt8)
  | read (off len : Nat)
  | write (off : Nat) (data : List UInt8)
  | clear
  | prefetch
  | flush

/-- A command to a handle. -/
inductive HandleCommand where
  | read (off len : Nat)
  | write (off : Nat) (data : List UInt8)
  | reopen (name : String)
  | remove
  | deny
  | allow
  | info
  | describe
  | close
  | drop

inductive DiskCommand where
  | device (c : DeviceCommand)
  | handle (name : String) (c : HandleCommand)
  | format
  | mount
  | crash
  /-- A command about a sector, if it names one. -/
  | system (sector : Option SectorRef) (c : SystemCommand)

/-- The caches that file systems of `m` sectors run on here. -/
abbrev DiskCache (config : SystemSettings) (m : Nat) := Cache config.cache.slots m 512

/-- Where the disk is. -/
inductive Medium (config : SystemSettings) (m : Nat) where
  | idle (d : Device m 512)
  | attached (fs : FileSystem (DiskCache config m) m)

namespace Medium

variable {config : SystemSettings} {m : Nat}

def device : Medium config m → Device m 512
  | .idle d => d
  | .attached fs => fs.store.device

def setDevice (d : Device m 512) : Medium config m → Medium config m
  | .idle _ => .idle d
  | .attached fs => .attached { fs with store := { fs.store with device := d } }

end Medium

structure DiskConsole (config : SystemSettings) (m : Nat) where
  medium : Medium config m
  /-- Whether the file system that is attached is in use. -/
  mounted : Bool
  handles : List (String × Handle)
  names : List (String × Sector)
  plan : FaultPlan m
  fill : UInt8

/-- What a command answered, and what can be seen after it. -/
structure DiskStep (m : Nat) where
  reply : Reply
  /-- The numbers of free sectors and of open inodes, while a file system is in use. -/
  mounted : Option (Nat × Nat)
  calls : List (IoCall m)

namespace DiskConsole

variable {config : SystemSettings} {m : Nat}

/-- The console of a new disk. -/
def new (config : SystemSettings) (m : Nat) (fill : UInt8) : DiskConsole config m :=
  ⟨.idle (.filled m 512 fill), false, [], [], .none m, fill⟩

/-- Carries out an operation on the attached file system. -/
def perform {α : Type} (c : DiskConsole config m) (x : VolumeAction m α) :
    Except Violation (Except Failure α × DiskConsole config m) :=
  match c.medium with
  | .idle _ => .ok (.error .notFormatted, c)
  | .attached fs => do
      let (result, fs) ← fs.perform x
      return (result, { c with medium := .attached fs })

/-- Carries out an operation that answers with a reply. -/
def answer (c : DiskConsole config m) (x : VolumeAction m Reply) :
    Except Violation (Reply × DiskConsole config m) := do
  match ← c.perform x with
  | (.ok reply, c) => return (reply, c)
  | (.error e, c) => return (.failed e, c)

/-- The console with everything in memory forgotten. -/
def forget (c : DiskConsole config m) : DiskConsole config m :=
  { c with medium := .idle c.medium.device, mounted := false, handles := [] }

/-- Forgets everything in memory and then starts a file system. -/
def begin (c : DiskConsole config m)
    (start : Except Violation (DiskCache config m) →
      Except Violation (Except Failure Unit × Option (FileSystem (DiskCache config m) m))) :
    Except Violation (Reply × DiskConsole config m) := do
  let c := c.forget
  match ← start (Cache.new c.medium.device { toCacheSettings := config.cache }) with
  | (.ok (), some fs) => return (.done, { c with medium := .attached fs, mounted := true })
  | (.ok (), none) => return (.done, c)
  | (.error e, some fs) => return (.failed e, { c with medium := .idle fs.store.device })
  | (.error e, none) => return (.failed e, c)

/-- The console with the handle of a name changed. -/
def keepHandle (c : DiskConsole config m) (name : String) (h : Handle) : DiskConsole config m :=
  { c with handles := c.handles.map fun entry => if entry.1 = name then (name, h) else entry }

/-- The console without the handle of a name. -/
def withoutHandle (c : DiskConsole config m) (name : String) : DiskConsole config m :=
  { c with handles := c.handles.filter fun entry => entry.1 ≠ name }

/-- Stores a handle under a name. The handle that had the name is dropped. -/
def setHandle (c : DiskConsole config m) (name : String) (h : Handle) :
    Except Violation (DiskConsole config m) := do
  let named := { c with handles := (name, h) :: (c.withoutHandle name).handles }
  match c.handles.lookup name with
  | none => return named
  | some old =>
      let (_, c) ← named.perform (Volume.drop old)
      return c

/-- Opens the inode at a sector and stores the handle under a name. -/
def openAs (c : DiskConsole config m) (s : Sector) (name : String) :
    Except Violation (Reply × DiskConsole config m) := do
  match ← c.perform (Volume.openAt s) with
  | (.ok h, c) => return (.number s.index, ← c.setHandle name h)
  | (.error e, c) => return (.failed e, c)

/-- The sector that is meant. -/
def resolve (c : DiskConsole config m) : SectorRef → Option Sector
  | .number s => some s
  | .name name => c.names.lookup name

/-- Carries out a command to the file system in use, about sector `s`. -/
def systemStep (c : DiskConsole config m) (s : Sector) :
    SystemCommand → Except Violation (Reply × DiskConsole config m)
  | .create length isDirectory parent name =>
      match c.resolve parent with
      | none => return (.noName, c)
      | some parent => do
          match ← c.perform (Volume.create length isDirectory parent), name with
          | (.error e, c), _ => return (.failed e, c)
          | (.ok made, c), none => return (.number made.index, c)
          | (.ok made, c), some name =>
              return (.number made.index, { c with names := (name, made) :: c.names })
  | .open name => c.openAs s name
  | .root name => c.openAs Sector.root name
  | .sync => c.answer do Volume.sync; return .done
  | .shutdown => do
      let (reply, c) ← c.answer do Volume.sync; return .done
      return (reply, { c with mounted := false })
  | .counts =>
      match c.medium with
      | .idle _ => return (.noFileSystem, c)
      | .attached fs =>
          let counts := fs.store.counts
          return (.numbers [counts.hits, counts.misses, counts.evictions, counts.writebacks], c)
  | .residents =>
      match c.medium with
      | .idle _ => return (.noFileSystem, c)
      | .attached fs => return (.numbers (fs.store.directory.residents.map Fin.val), c)
  | .inode => c.answer do return .inode (← Action.readInode s)
  | .index => c.answer do return .index (← Action.readIndex s)
  | .put data => c.answer do Action.writeSector s (Block.ofList 512 data); return .done
  | .read off len => c.answer do return .bytes (← Action.read s off len)
  | .write off data => c.answer do Action.write s off data; return .done
  | .clear => c.answer do Action.clear s; return .done
  | .prefetch => c.answer do Action.prefetch s; return .done
  | .flush => c.answer do Action.flush; return .done

/-- Carries out a command to a handle. -/
def handleStep (c : DiskConsole config m) (name : String) (h : Handle) :
    HandleCommand → Except Violation (Reply × DiskConsole config m)
  | .read off len => c.answer do return .contents (← Volume.readBytes h off len)
  | .write off data => c.answer do return .number (← Volume.writeBytes h off data)
  | .reopen as => do
      match ← c.perform (Volume.openAt h.sector) with
      | (.ok h, c) => return (.number h.sector.index, ← c.setHandle as h)
      | (.error e, c) => return (.failed e, c)
  | .remove => c.answer do Volume.remove h; return .done
  | .deny => do
      match ← c.perform (Volume.deny h) with
      | (.ok h, c) => return (.done, c.keepHandle name h)
      | (.error e, c) => return (.failed e, c)
  | .allow => do
      match ← c.perform (Volume.allow h) with
      | (.ok h, c) => return (.done, c.keepHandle name h)
      | (.error e, c) => return (.failed e, c)
  | .info => c.answer do
      let node ← Volume.node h
      return .info {
        sector := h.sector
        length := node.disk.length
        isDirectory := node.disk.isDirectory
        parent := node.disk.parent
        openers := node.openers
        removed := node.removed }
  | .describe => return (.text h.describe, c)
  | .close => (c.withoutHandle name).answer do Volume.close h; return .done
  | .drop => (c.withoutHandle name).answer do Volume.drop h; return .done

/-- Carries out a command. -/
def answerTo (c : DiskConsole config m) :
    DiskCommand → Except Violation (Reply × DiskConsole config m)
  | .device command => do
      let (reply, plan, d) ← command.step c.fill c.plan c.medium.device
      return (reply, { c with plan, medium := c.medium.setDevice d })
  | .handle name command =>
      match c.handles.lookup name with
      | none => return (.noHandle, c)
      | some h => c.handleStep name h command
  | .format => c.begin FileSystem.format
  | .mount => c.begin FileSystem.mount
  | .crash => return (.done, c.forget)
  | .system sector command =>
      match c.resolve (sector.getD (.number ⟨0⟩)) with
      | none => return (.noName, c)
      | some s => if c.mounted then c.systemStep s command else return (.noFileSystem, c)

/-- Carries out a command and shows what it did. -/
def step (c : DiskConsole config m) (command : DiskCommand) :
    Except Violation (DiskStep m × DiskConsole config m) := do
  let (reply, c) ← c.answerTo command
  let mounted := match c.mounted, c.medium with
    | true, .attached fs => some (fs.volume.free.countFree, fs.volume.inodes.length)
    | _, _ => none
  let d := c.medium.device
  return (⟨reply, mounted, d.calls.reverse⟩,
    { c with medium := c.medium.setDevice d.forgetCalls })

/-- Runs commands one after another, as long as none breaks a condition. Gives the steps, and the
broken condition or else the console after the last step. -/
def run (c : DiskConsole config m) :
    List DiskCommand → List (DiskStep m) × Except Violation (DiskConsole config m)
  | [] => ([], .ok c)
  | command :: rest =>
      match c.step command with
      | .error v => ([], .error v)
      | .ok (shown, c) =>
          let (steps, last) := c.run rest
          (shown :: steps, last)

end DiskConsole

end SectorFs
