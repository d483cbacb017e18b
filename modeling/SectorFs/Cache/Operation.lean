/-
# SectorFs.Cache.Operation — the operations of a cache, one at a time

An operation names its block and its bytes by plain numbers. `Operation.start`
checks them and gives the task to run; `Cache.call` runs that task to its end
with no other task in between. `steps` bounds the steps of one call: a flush
takes two for each slot, and a use of a block takes more than a few only while
slots are locked from outside.
-/
import SectorFs.Cache.Task

namespace SectorFs

set_option autoImplicit false

/-- A call to a cache. -/
inductive Operation where
  /-- Copy out `len` bytes of a block from `off` on. -/
  | read (block off len : Nat)
  /-- Write `data` into a block at `off`. -/
  | write (block off : Nat) (data : List UInt8)
  /-- Load a block if it is not there yet. -/
  | prefetch (block : Nat)
  /-- Store every block that was written. -/
  | flush
  /-- Ask how many slots and how many blocks there are, which never changes. -/
  | size

namespace Operation

/-- Copy out a whole block of `n` bytes. -/
def readWhole (n block : Nat) : Operation := .read block 0 n

/-- Write a whole block. -/
def writeWhole {n : Nat} (block : Nat) (data : Block n) : Operation := .write block 0 data.bytes

/-- Store what was written before the device goes away. -/
def shutdown : Operation := .flush

variable {k m : Nat}

/-- The task that uses a block, if there is such a block. -/
def seekBlock (block : Nat) (use : Use) : Except Violation (Task k m) :=
  if h : block < m then .ok (.seek ⟨⟨block, h⟩, use⟩) else .error (.blockRange block)

/-- The task that runs an operation on blocks of `n` bytes. The byte range is checked first, then
the block; loading ahead beyond the device does nothing, and asking for the size takes no step. -/
def start (n : Nat) : Operation → Except Violation (Task k m)
  | .read block off len =>
      if off + len ≤ n then seekBlock block (.read off len) else .error (.byteRange off len n)
  | .write block off data =>
      if off + data.length ≤ n then seekBlock block (.write off data)
      else .error (.byteRange off data.length n)
  | .prefetch block => if h : block < m then .ok (.probe ⟨block, h⟩) else .ok (.done (.ok []))
  | .flush => .ok (.visit 0)
  | .size => .ok (.done (.ok []))

end Operation

namespace Cache

variable {k m n : Nat}

/-- The steps that a call may take. -/
def steps (k : Nat) : Nat := 2 * k + 0x10000

/-- Runs an operation to its end: the bytes copied out or the device call that failed, and the
cache after it. -/
def call (c : Cache k m n) (op : Operation) :
    Except Violation (Except (DeviceError m) (List UInt8) × Cache k m n) := do
  match (← op.start n : Task k m).run (steps k) c with
  | (.done result, c) => .ok (result, c)
  | (.halted v, _) => .error v
  | _ => .error .noProgress

/-- The cache with the lock of a slot taken from outside. -/
def hold (c : Cache k m n) (s : Fin k) : Cache k m n := c.setLock s .outside

/-- The cache with the lock of a slot given up from outside. -/
def unhold (c : Cache k m n) (s : Fin k) : Cache k m n := c.setLock s .free

end Cache

end SectorFs
