/-
# SectorFs.Cache.Basic — the state of a block cache

A cache keeps up to `k` blocks of a device in slots. Each slot has a lock of its
own, and the directory says which slot is whose. `Cache.takeSlot` takes a slot
for a block that has none: one without a block if its lock can be had, else one
that the directory proposes. It leaves the slot locked, and says which block the
slot still has to store.

The content of a block is what its slot has, else what the device has
(`Cache.content`).
-/
import SectorFs.Cache.Directory
import SectorFs.Device
import SectorFs.Violation

namespace SectorFs

set_option autoImplicit false

/-- What a slot has. -/
inductive Slot (m n : Nat) where
  | unused
  /-- A block as the device has it. -/
  | inUse (b : Fin m) (data : Block n)
  /-- A block that was written since it was loaded or stored. -/
  | dirty (b : Fin m) (data : Block n)

namespace Slot

variable {m n : Nat}

/-- The block that a slot has, with its bytes. -/
def content : Slot m n → Option (Fin m × Block n)
  | .unused => none
  | .inUse b data | .dirty b data => some (b, data)

def holds (slot : Slot m n) (b : Fin m) : Bool :=
  match slot.content with
  | none => false
  | some (b', _) => decide (b' = b)

/-- The bytes of a slot; zeros if it has no block. -/
def data (slot : Slot m n) : Block n :=
  match slot.content with
  | none => Block.zero n
  | some (_, data) => data

/-- The block that a slot has to store before it can be given up. -/
def unsaved : Slot m n → Option (Fin m)
  | .dirty b _ => some b
  | _ => none

end Slot

/-- The names of what a slot can be in, in the order of the constructors. -/
def slotStateNames : List String := ["Unused", "InUse", "Dirty"]

/-- Who has the lock of a slot. -/
inductive SlotLock where
  | free
  /-- Someone who does nothing with the slot and gives it up when asked to. -/
  | outside
  /-- A task of the cache. -/
  | busy
deriving DecidableEq

/-- Counters of what a cache did. They are numbers without a bound; kept in machine words of 64 bits
they would start again at zero after 2^64 events, and say the same before that. -/
structure CacheCounts where
  /-- Look-ups that found their block. -/
  hits : Nat := 0
  /-- Look-ups that gave their block a slot. -/
  misses : Nat := 0
  /-- Slots taken from one block for another. -/
  evictions : Nat := 0
  /-- Blocks stored on the device. -/
  writebacks : Nat := 0

/-- A cache of `k` slots on a device of `m` blocks of `n` bytes. -/
structure Cache (k m n : Nat) where
  directory : Directory k m
  slots : Vector (Slot m n) k
  locks : Vector SlotLock k
  counts : CacheCounts
  device : Device m n

namespace Cache

variable {k m n : Nat}

/-- A cache without a block on a device. -/
def new (device : Device m n) (config : CacheSetup) :
    Except Violation (Cache config.slots m n) :=
  if hk : 0 < config.slots then .ok {
    directory := .empty hk config
    slots := Vector.replicate _ .unused
    locks := Vector.replicate _ .free
    counts := {}
    device }
  else .error .noSlots

/-- The bytes of a block as a reader of the cache sees them: those of the slot that has the
block, else those of the device. -/
def content (c : Cache k m n) (b : Fin m) : Block n :=
  match (List.finRange k).find? fun s => (c.slots.get s).holds b with
  | none => c.device.blocks.get b
  | some s => (c.slots.get s).data

def setEntry (c : Cache k m n) (s : Fin k) (e : Entry m) : Cache k m n :=
  { c with directory := c.directory.set s e }

def setSlot (c : Cache k m n) (s : Fin k) (slot : Slot m n) : Cache k m n :=
  { c with slots := c.slots.set s slot s.isLt }

def setLock (c : Cache k m n) (s : Fin k) (lock : SlotLock) : Cache k m n :=
  { c with locks := c.locks.set s lock s.isLt }

def countHit (c : Cache k m n) : Cache k m n :=
  { c with counts := { c.counts with hits := c.counts.hits + 1 } }

def countMiss (c : Cache k m n) : Cache k m n :=
  { c with counts := { c.counts with misses := c.counts.misses + 1 } }

def countEviction (c : Cache k m n) : Cache k m n :=
  { c with counts := { c.counts with evictions := c.counts.evictions + 1 } }

def countWriteback (c : Cache k m n) : Cache k m n :=
  { c with counts := { c.counts with writebacks := c.counts.writebacks + 1 } }

/-- A slot taken for a block, and the block that it has to store first. -/
structure TakenSlot (k m : Nat) where
  slot : Fin k
  unsaved : Option (Fin m)

/-- The first slot without a block whose lock can be had. -/
def unusedSlot (c : Cache k m n) : Option (Fin k) :=
  (List.finRange k).find? fun s =>
    (c.directory.entries.get s).isFree && decide (c.locks.get s = .free)

/-- Takes the first of `attempts` proposed slots that is not storing a block and whose lock can
be had. -/
def evict (b : Fin m) : (attempts : Nat) → Cache k m n → Option (TakenSlot k m) × Cache k m n
  | 0, c => (none, c)
  | attempts + 1, c =>
      let (s, directory) := c.directory.propose
      let c := { c with directory }
      if (c.directory.entries.get s).evicting.isSome then evict b attempts c
      else if c.locks.get s ≠ .free then evict b attempts c
      else
        let unsaved := (c.slots.get s).unsaved
        let c := if (c.directory.entries.get s).resident.isSome then c.countEviction else c
        (some ⟨s, unsaved⟩,
          (c.setEntry s { Entry.holding b with evicting := unsaved }).setLock s .busy)

/-- Takes a slot for block `b`. -/
def takeSlot (c : Cache k m n) (b : Fin m) : Option (TakenSlot k m) × Cache k m n :=
  match c.unusedSlot with
  | some s => (some ⟨s, none⟩, (c.setEntry s (.holding b)).setLock s .busy)
  | none => evict b c.directory.attempts c

end Cache

end SectorFs
