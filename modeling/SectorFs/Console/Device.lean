/-
# SectorFs.Console.Device — setting up a device by hand

Commands that reach past a cache to the device under it: break and mend blocks,
set a fuse, look at blocks and change them. None of them is a device call.
-/
import SectorFs.Console.Reply
import SectorFs.Device

namespace SectorFs

set_option autoImplicit false

inductive DeviceCommand where
  /-- Break or mend a block, for reads, for writes or for both. -/
  | fault (block : Nat) (reads writes : Bool) (broken : Bool)
  /-- Let so many calls go on as before, and all later ones fail. -/
  | fuse (calls : Option Nat)
  | poke (block off : Nat) (data : List UInt8)
  /-- Look at a block. -/
  | look (block : Nat)
  /-- Show the blocks that are not all one byte. -/
  | dump

namespace Device

variable {m n : Nat}

/-- The blocks of a device that are not entirely the byte `fill`, in order. -/
def dump (d : Device m n) (fill : UInt8) : List (Nat × List UInt8) :=
  (List.finRange m).filterMap fun b =>
    if (d.blocks.get b).all (· == fill) then none else some (b.val, (d.blocks.get b).bytes)

/-- The device with a plan of failures in force. -/
def withPlan (d : Device m n) (plan : FaultPlan m) : Device m n := { d with fails := plan.fails }

end Device

/-- Carries out a device command, on a device that was filled with the byte `fill`. -/
def DeviceCommand.step {m n : Nat} (fill : UInt8) (plan : FaultPlan m) (d : Device m n) :
    DeviceCommand → Except Violation (Reply × FaultPlan m × Device m n)
  | .fault block reads writes broken =>
      let plan := plan.setBroken block reads writes broken
      return (.done, plan, d.withPlan plan)
  | .fuse calls =>
      let plan := { plan with deadline := calls.map (d.made + ·) }
      return (.done, plan, d.withPlan plan)
  | .poke block off data =>
      if h : block < m ∧ off + data.length ≤ n then
        return (.done, plan, d.poke ⟨block, h.1⟩ off data)
      else .error .badIndex
  | .look block =>
      if h : block < m then return (.bytes d.blocks[block].bytes, plan, d) else .error .badIndex
  | .dump => return (.blocks (d.dump fill), plan, d)

end SectorFs
