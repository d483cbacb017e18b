/-
# SectorFs.Violation — what stops a run for good

Some calls are only defined under a condition that the caller has to meet: a
block number inside the device, a sector that is in use when it is released.
When the condition fails there is no result and no later state; the run is over.
`Violation` names each such condition and `Violation.message` gives the line
that reports it. A condition without a line of its own has no message.
-/

namespace SectorFs

set_option autoImplicit false

/-- A condition that a caller broke. -/
inductive Violation where
  /-- A number that does not fit in 32 bits. -/
  | wideNumber
  /-- A sum of sector numbers that leaves its range. -/
  | numberOverflow
  /-- An entry index beyond its table. -/
  | badIndex
  /-- An inode length above the file size limit. -/
  | lengthLimit
  /-- A request for no sectors at all. -/
  | emptyRun
  /-- A last sector that is not the one before its group's cursor. -/
  | strayCursor
  /-- A slot found for a block that it does not hold. -/
  | strangeSlot
  /-- A task that used up its steps while waiting for a slot. -/
  | noProgress
  /-- A byte range that leaves its block. -/
  | byteRange (off len size : Nat)
  | blockRange (block : Nat)
  | noSlots
  | sectorRange (sector : Nat)
  | sectorInUse (sector : Nat)
  | sectorFree (sector : Nat)
  | mapSize
  | mapProtected
  /-- An allocation group with sectors left but no next sector. -/
  | groupCursor (free : Nat)
  | emptyInode
  | blockLimit (blocks : Nat)
  | linkIndirect (entry : Nat)
  | linkDoubly (entry : Nat)
  | linkInner (entry : Nat) (doubly : Nat)
  | lostIndirect (block : Nat)
  | lostDoubly (block : Nat)
  | lostInner (block entry : Nat)
  | lostSector (block : Nat)
  | readHole (off length : Nat)
  | writeHole (off length : Nat)
  | tooManyDenials
  | noDenial
  /-- A handle whose inode is no longer open. -/
  | closedInode (sector : Nat)

/-- The line that reports a violation, for those that have one. -/
def Violation.message : Violation → Option String
  | .wideNumber | .numberOverflow | .badIndex | .lengthLimit | .emptyRun
  | .strayCursor | .strangeSlot | .noProgress => none
  | .byteRange off len size => some s!"range {off}+{len} exceeds block size {size}"
  | .blockRange block => some s!"block {block} out of range"
  | .noSlots => some "size must be greater than 0"
  | .sectorRange sector => some s!"sector {sector} out of range"
  | .sectorInUse sector => some s!"sector {sector} already in use"
  | .sectorFree sector => some s!"freeing free sector {sector}"
  | .mapSize => some "free map size mismatch"
  | .mapProtected => some "free map file is write-protected"
  | .groupCursor free => some s!"allocation group with {free} free sectors has no cursor"
  | .emptyInode => some "no sector to remove"
  | .blockLimit blocks => some s!"block count {blocks} exceeds the file size limit"
  | .linkIndirect entry => some s!"indirect block missing for entry {entry}"
  | .linkDoubly entry => some s!"doubly-indirect block missing for entry {entry}"
  | .linkInner entry doubly => some s!"indirect block {entry} of sector {doubly} missing"
  | .lostIndirect block => some s!"block {block} is in use but there is no indirect block"
  | .lostDoubly block => some s!"block {block} is in use but there is no doubly-indirect block"
  | .lostInner block entry =>
      some s!"block {block} is in use but indirect block {entry} is missing"
  | .lostSector block => some s!"block {block} within the file has no sector"
  | .readHole off length => some s!"offset {off} within length {length} has no sector"
  | .writeHole off length => some s!"offset {off} not covered after extending to {length}"
  | .tooManyDenials => some "more write denials than openers"
  | .noDenial => some "allow_write without deny_write"
  | .closedInode sector => some s!"inode {sector} closed too often"

end SectorFs
