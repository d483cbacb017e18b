/-
# SectorFs.Console.Tables — consoles for the stored tables

Three small consoles, each on one value: the inode of a sector, an index block,
and a free map. A command that breaks a condition ends its console.
-/
import SectorFs.Console.Reply
import SectorFs.FreeMap

namespace SectorFs

set_option autoImplicit false

/-- Runs commands one after another, as long as none breaks a condition. Each step gives its reply
and the value after it. -/
def runCommands {σ ι : Type} (step : σ → ι → Except Violation (Reply × σ)) :
    σ → List ι → List (Reply × Option σ)
  | _, [] => []
  | s, i :: rest =>
      match step s i with
      | .error v => [(.violated v, none)]
      | .ok (reply, s) => (reply, some s) :: runCommands step s rest

/-- An entry of a table of `n` entries. -/
def entryOf (n : Nat) (i : Nat) : Except Violation (Fin n) :=
  if h : i < n then .ok ⟨i, h⟩ else .error .badIndex

/-- The bytes of a sector, if the range lies in it. -/
def rangeOf (b : Block 512) (off len : Nat) : Except Violation (List UInt8) :=
  if off + len ≤ 512 then .ok (b.slice off len) else .error .badIndex

/-- The sector with bytes written over it, if they lie in it. -/
def patchSector (b : Block 512) (off : Nat) (data : List UInt8) : Except Violation (Block 512) :=
  if off + data.length ≤ 512 then .ok (b.patch off data) else .error .badIndex

/-! ## Inodes -/

inductive InodeCommand where
  | new (length : Nat) (isDirectory : Bool) (parent : Sector)
  | zero
  | overwrite (off : Nat) (data : List UInt8)
  | putLength (n : Nat)
  | putBlockCount (n : Nat)
  | putCursor (s : Option Sector)
  | putGroupLeft (n : Nat)
  | putPointer (slot : Nat) (s : Option Sector)
  | pointer (slot : Nat)
  | bytes (off len : Nat)
  | describe

/-- The text that shows a pointer. -/
def describePointer : Option Sector → String
  | none => "None"
  | some s => s!"Some(SectorNo({s.index}))"

/-- The text that shows an inode. -/
def Inode.describe (d : Inode) : String :=
  let pointers := ", ".intercalate (d.pointers.toList.map fun w => toString w.toNat)
  s!"DiskInode \x7b length: {d.length}, magic: {d.magic.toNat}, blocks_used: {d.blockCount}, " ++
  s!"next_block: {describePointer d.cursor}, group_blocks_free: {d.groupLeft}, " ++
  s!"blocks: [{pointers}], is_dir: {d.isDirectory}, parent: SectorNo({d.parent.index}), .. \x7d"

def InodeCommand.step (d : Inode) : InodeCommand → Except Violation (Reply × Inode)
  | .new length isDirectory parent => return (.done, ← Inode.new length isDirectory parent)
  | .zero => return (.done, .zero)
  | .overwrite off data => return (.done, .decode (← patchSector d.encode off data))
  | .putLength n => return (.done, ← d.withLength n)
  | .putBlockCount n => return (.done, ← d.withBlockCount n)
  | .putCursor s => return (.done, d.withCursor s)
  | .putGroupLeft n => return (.done, ← d.withGroupLeft n)
  | .putPointer slot s => return (.done, d.withPointer (← entryOf 15 slot) s)
  | .pointer slot => return (.ofSector (d.pointer (← entryOf 15 slot)), d)
  | .bytes off len => return (.bytes (← rangeOf d.encode off len), d)
  | .describe => return (.text d.describe, d)

/-! ## Index blocks -/

inductive IndexCommand where
  | set (i : Nat) (s : Option Sector)
  | get (i : Nat)
  | overwrite (off : Nat) (data : List UInt8)

def IndexCommand.step (x : IndexBlock) : IndexCommand → Except Violation (Reply × IndexBlock)
  | .set i s => return (.done, x.set (← entryOf 128 i) s)
  | .get i => return (.ofSector (x.get (← entryOf 128 i)), x)
  | .overwrite off data => return (.done, .decode (← patchSector x.encode off data))

/-! ## Free maps -/

inductive MapCommand where
  | allocate (count : Nat)
  | release (s : Sector) (count : Nat)
  | reserve (s : Sector)
  | inUse (s : Sector)
  | restore (data : List UInt8)
  | size

def MapCommand.step {n : Nat} (m : FreeMap n) : MapCommand → Except Violation (Reply × FreeMap n)
  | .allocate count => do
      let (s, m) ← m.allocate count
      return (.ofSector s, m)
  | .release s count => return (.done, ← m.release s count)
  | .reserve s => return (.done, ← m.reserve s.index)
  | .inUse s => return (.flag (← m.usage s.index), m)
  | .restore data => return (.done, ← FreeMap.ofBytes n data)
  | .size => return (.numbers [n, bytesFor n], m)

end SectorFs
