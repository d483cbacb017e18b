/-
# SectorFs.Cache.Task — one operation on a cache, step by step

A running operation is a `Task`: the point where it stands. `Task.step` goes on
to the next point. The steps are cut where another thread can come in between:
at a device call, which is made without any lock on the directory, and where a
task has to wait for the lock of a slot. All that a step does, it does at once.

A task waits without keeping the directory, and looks its block up again when it
wakes: the slot may have gone to another block in the meantime. A slot that a
task of the cache has locked makes others sleep (`step` gives no next point); a
slot that is locked from outside is given up when a task waits for it.
-/
import SectorFs.Cache.Basic

namespace SectorFs

set_option autoImplicit false

/-- What is done with a block once its slot is locked. -/
inductive Use where
  /-- Copy out `len` bytes from `off` on. -/
  | read (off len : Nat)
  /-- Write `data` at `off`. -/
  | write (off : Nat) (data : List UInt8)
  /-- Nothing: the block only has to be there. -/
  | touch

namespace Use

variable {m n : Nat}

/-- Whether the whole block is written, so that it need not be loaded first. -/
def overwrites (n : Nat) : Use → Bool
  | .write _ data => decide (data.length = n)
  | _ => false

/-- The bytes copied out of a slot, and the slot after the use. -/
def apply (use : Use) (slot : Slot m n) : List UInt8 × Slot m n :=
  match use, slot.content with
  | .read off len, some (_, data) => (data.slice off len, slot)
  | .write off bytes, some (b, data) => ([], .dirty b (data.patch off bytes))
  | _, _ => ([], slot)

end Use

/-- A use of a block. -/
structure Access (m : Nat) where
  block : Fin m
  use : Use

/-- The point where an operation on a cache of `k` slots and `m` blocks stands. -/
inductive Task (k m : Nat) where
  /-- About to see whether a block has to be loaded ahead. -/
  | probe (b : Fin m)
  /-- About to look a block up. -/
  | seek (a : Access m)
  /-- Waiting for the slot that was found to have the block. -/
  | awaitHit (a : Access m) (s : Fin k)
  /-- Waiting for a slot, to look the block up again. -/
  | awaitSlot (a : Access m) (s : Fin k)
  /-- About to store the block `old` from slot `s`, which is taken for another. -/
  | storing (a : Access m) (s : Fin k) (old : Fin m)
  /-- About to load the block into slot `s`. -/
  | loading (a : Access m) (s : Fin k)
  /-- About to visit slot `i` on the way through all slots. -/
  | visit (i : Nat)
  /-- About to store block `b` from slot `s`, which keeps it. -/
  | flushing (s : Fin k) (b : Fin m)
  /-- At the end, with the bytes copied out or the device call that failed. -/
  | done (result : Except (DeviceError m) (List UInt8))
  | halted (v : Violation)

namespace Task

variable {k m n : Nat}

/-- The device call that a task is about to make. -/
def pending : Task k m → Option (IoKind × Fin m)
  | .storing _ _ old => some (.write, old)
  | .loading a _ => some (.read, a.block)
  | .flushing _ b => some (.write, b)
  | _ => none

/-- Uses the locked slot `s`, unlocks it and ends. -/
def finish (a : Access m) (s : Fin k) (c : Cache k m n) : Task k m × Cache k m n :=
  let (bytes, slot) := a.use.apply (c.slots.get s)
  (.done (.ok bytes), (c.setSlot s slot).setLock s .free)

/-- Goes on with slot `s`, taken for the block and free to be filled. -/
def load (a : Access m) (s : Fin k) (c : Cache k m n) : Task k m × Cache k m n :=
  let c := c.countMiss
  if a.use.overwrites n then finish a s (c.setSlot s (.inUse a.block (Block.zero n)))
  else (.loading a s, c.setSlot s .unused)

/-- Unlocks slot `s` and ends with a failed device call. -/
def fail (kind : IoKind) (b : Fin m) (s : Fin k) (c : Cache k m n) : Task k m × Cache k m n :=
  (.done (.error ⟨kind, b⟩), c.setLock s .free)

/-- Looks the block up. -/
def seekStep (a : Access m) (c : Cache k m n) : Task k m × Cache k m n :=
  match c.directory.find a.block with
  | .resident s =>
      let c := c.setEntry s { c.directory.entries.get s with accessed := true }
      if c.locks.get s = .free then
        if (c.slots.get s).holds a.block then finish a s c.countHit else (.halted .strangeSlot, c)
      else (.awaitHit a s, c)
  | .evicting s => (.awaitSlot a s, c)
  | .absent =>
      match c.takeSlot a.block with
      | (none, c) =>
          let (s, directory) := c.directory.propose
          (.awaitSlot a s, { c with directory })
      | (some ⟨s, none⟩, c) => load a s c
      | (some ⟨s, some old⟩, c) => (.storing a s old, c)

/-- Stores the old block of a slot. If that fails, the slot stays with it. -/
def storeStep (a : Access m) (s : Fin k) (old : Fin m) (c : Cache k m n) :
    Task k m × Cache k m n :=
  match c.device.write old (c.slots.get s).data with
  | (false, device) =>
      let c := { c with device }
      fail .write old s (c.setEntry s { Entry.holding old with accessed := false })
  | (true, device) =>
      let c := { c with device }.countWriteback
      load a s (c.setEntry s { c.directory.entries.get s with evicting := none })

/-- Loads the block into a slot. If that fails, the slot goes back to the unused ones. -/
def loadStep (a : Access m) (s : Fin k) (c : Cache k m n) : Task k m × Cache k m n :=
  match c.device.read a.block with
  | (none, device) => fail .read a.block s ({ c with device }.setEntry s {})
  | (some data, device) => finish a s ({ c with device }.setSlot s (.inUse a.block data))

/-- Visits slot `i`: it has to be stored if it was written. -/
def visitStep (i : Nat) (c : Cache k m n) : Option (Task k m × Cache k m n) :=
  if h : i < k then
    let s : Fin k := ⟨i, h⟩
    if c.locks.get s = .busy then none
    else match (c.slots.get s).unsaved with
      | none => some (.visit (i + 1), c.setLock s .free)
      | some b => some (.flushing s b, c.setLock s .busy)
  else some (.done (.ok []), c)

/-- Stores a slot that keeps its block. -/
def flushStep (s : Fin k) (b : Fin m) (c : Cache k m n) : Task k m × Cache k m n :=
  match c.device.write b (c.slots.get s).data with
  | (false, device) => fail .write b s { c with device }
  | (true, device) =>
      let c := { c with device }.setSlot s (.inUse b (c.slots.get s).data)
      (.visit (s.val + 1), c.countWriteback.setLock s .free)

/-- The next point of a task; `none` if it sleeps or is at its end. -/
def step (c : Cache k m n) : Task k m → Option (Task k m × Cache k m n)
  | .probe b =>
      match c.directory.find b with
      | .absent => some (.seek ⟨b, .touch⟩, c)
      | _ => some (.done (.ok []), c)
  | .seek a => some (seekStep a c)
  | .awaitHit a s =>
      if c.locks.get s = .busy then none
      else
        let c := c.setLock s .free
        if (c.slots.get s).holds a.block then some (finish a s c.countHit) else some (.seek a, c)
  | .awaitSlot a s => if c.locks.get s = .busy then none else some (.seek a, c.setLock s .free)
  | .storing a s old => some (storeStep a s old c)
  | .loading a s => some (loadStep a s c)
  | .visit i => visitStep i c
  | .flushing s b => some (flushStep s b c)
  | .done _ | .halted _ => none

/-- Goes on for at most `steps` steps. -/
def run : (steps : Nat) → Task k m → Cache k m n → Task k m × Cache k m n
  | 0, t, c => (t, c)
  | steps + 1, t, c =>
      match t.step c with
      | none => (t, c)
      | some (t, c) => run steps t c

/-- Goes on for at most `steps` steps, but stops before a device call of that kind and block. -/
def runTo (kind : IoKind) (b : Nat) : (steps : Nat) → Task k m → Cache k m n →
    Task k m × Cache k m n
  | 0, t, c => (t, c)
  | steps + 1, t, c =>
      if t.pending.any fun call => call.1 = kind ∧ call.2.val = b then (t, c)
      else match t.step c with
        | none => (t, c)
        | some (t, c) => runTo kind b steps t c

end Task

end SectorFs
