/-
# SectorFs.Cache.Directory — which slot has which block

The directory says for every slot which block it has or is about to get
(`resident`) and which block it still has to store before that (`evicting`).
`find` looks a block up. `propose` picks a slot to give up: the one that is
drawn, or one found by a hand that goes round the slots, passes over those used
since it last came by, and clears their mark. One round clears every mark, so
the search ends after at most one round and the next slot.
-/
import SectorFs.Cache.Policy

namespace SectorFs

set_option autoImplicit false

/-- What the directory knows of one slot. -/
structure Entry (m : Nat) where
  /-- The block that the slot has or is being loaded with. -/
  resident : Option (Fin m) := none
  /-- The block that the slot is storing before it is loaded. -/
  evicting : Option (Fin m) := none
  /-- Whether the slot was used since the hand last passed it. -/
  accessed : Bool := false

namespace Entry

variable {m : Nat}

/-- A slot that was just given to a block. -/
def holding (b : Fin m) : Entry m := { resident := some b, accessed := true }

def isFree (e : Entry m) : Bool := e.resident.isNone && e.evicting.isNone

/-- Whether the slot has the block or is storing it. -/
def names (e : Entry m) (b : Fin m) : Bool :=
  decide (e.resident = some b) || decide (e.evicting = some b)

end Entry

/-- Where a block is. -/
inductive Residence (k : Nat) where
  /-- In a slot, or on its way there. -/
  | resident (s : Fin k)
  /-- Still being stored from a slot. -/
  | evicting (s : Fin k)
  | absent

/-- The directory of `k` slots for the blocks of a device of `m` blocks. -/
structure Directory (k m : Nat) where
  entries : Vector (Entry m) k
  policy : Policy
  /-- The slot that the hand looks at next. -/
  hand : Fin k
  /-- Draws a slot under the random rule. -/
  draw : Random → Fin k × Random
  random : Random

namespace Directory

variable {k m : Nat}

/-- The directory of a cache that has no block yet. -/
def empty (hk : 0 < k) (config : CacheSetup) : Directory k m where
  entries := Vector.replicate k {}
  policy := config.policy
  hand := ⟨0, hk⟩
  draw := fun random => config.generator.below random hk
  random := config.generator.ofSeed config.seed

def find (d : Directory k m) (b : Fin m) : Residence k :=
  match (List.finRange k).find? fun s => (d.entries.get s).names b with
  | none => .absent
  | some s => if (d.entries.get s).resident = some b then .resident s else .evicting s

/-- The directory with one entry replaced. -/
def set (d : Directory k m) (s : Fin k) (e : Entry m) : Directory k m :=
  { d with entries := d.entries.set s e s.isLt }

/-- The directory with the hand moved on by one slot. -/
def advance (d : Directory k m) : Directory k m :=
  { d with hand := ⟨(d.hand.val + 1) % k, Nat.mod_lt _ d.hand.pos⟩ }

/-- Moves the hand to the first slot that was not used since it last came by, passing over at
most `steps` slots, and takes that slot. -/
def sweep : Nat → Directory k m → Fin k × Directory k m
  | 0, d => (d.hand, d.advance)
  | steps + 1, d =>
      if (d.entries.get d.hand).accessed then
        sweep steps (d.set d.hand { d.entries.get d.hand with accessed := false }).advance
      else (d.hand, d.advance)

/-- Picks a slot to give up. -/
def propose (d : Directory k m) : Fin k × Directory k m :=
  match d.policy with
  | .random =>
      let (s, random) := d.draw d.random
      (s, { d with random })
  | .clock => d.sweep k

/-- How many slots are proposed before a caller waits for one. -/
def attempts (d : Directory k m) : Nat :=
  match d.policy with
  | .random => k
  | .clock => 2 * k

/-- The blocks that have a slot, in the order of the slots. -/
def residents (d : Directory k m) : List (Fin m) := d.entries.toList.filterMap Entry.resident

end Directory

end SectorFs
