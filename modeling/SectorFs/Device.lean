/-
# SectorFs.Device — a block device that may fail

A device is an array of blocks with a record of the calls made to it. Which
calls fail is a parameter, `fails`: it may depend on the number of the call, its
kind and its block, so every pattern of failures is some `fails`. A failing call
changes no block (`blocks_read`, `write_of_fails`); it is counted and recorded
like any other.

`FaultPlan` is the part of these patterns that can be set by hand: blocks that
are broken for reading or for writing, and a call number from which on
everything fails.
-/
import SectorFs.Block

namespace SectorFs

set_option autoImplicit false

inductive IoKind where
  | read
  | write
deriving DecidableEq

/-- One call to a device of `m` blocks. -/
structure IoCall (m : Nat) where
  kind : IoKind
  block : Fin m
  failed : Bool

/-- A device call that failed. -/
structure DeviceError (m : Nat) where
  kind : IoKind
  block : Fin m

/-- A device of `m` blocks of `n` bytes. -/
structure Device (m n : Nat) where
  blocks : Vector (Block n) m
  /-- Whether the call of that number, kind and block fails. -/
  fails : Nat → IoKind → Fin m → Bool
  /-- The number of calls made so far. -/
  made : Nat
  /-- The calls made so far, the last one first. -/
  calls : List (IoCall m)

namespace Device

variable {m n : Nat}

/-- A device that is full of one byte and never fails. -/
def filled (m n : Nat) (byte : UInt8) : Device m n where
  blocks := Vector.replicate m (Block.filled n byte)
  fails := fun _ _ _ => false
  made := 0
  calls := []

/-- Whether the next call fails, if it is of that kind and block. -/
def failsNext (d : Device m n) (kind : IoKind) (b : Fin m) : Bool := d.fails d.made kind b

/-- The device after a call is counted and recorded. -/
def record (d : Device m n) (kind : IoKind) (b : Fin m) : Device m n :=
  { d with
    made := d.made + 1
    calls := ⟨kind, b, d.failsNext kind b⟩ :: d.calls }

/-- Reads a block; `none` if the call fails. -/
def read (d : Device m n) (b : Fin m) : Option (Block n) × Device m n :=
  (if d.failsNext .read b then none else some (d.blocks.get b), d.record .read b)

/-- Writes a block; the answer is whether it worked. -/
def write (d : Device m n) (b : Fin m) (data : Block n) : Bool × Device m n :=
  if d.failsNext .write b then (false, d.record .write b)
  else (true, { d.record .write b with blocks := d.blocks.set b data b.isLt })

/-- The device with some bytes of a block replaced, by no call. -/
def poke (d : Device m n) (b : Fin m) (off : Nat) (data : List UInt8) : Device m n :=
  { d with blocks := d.blocks.set b ((d.blocks.get b).patch off data) b.isLt }

/-- The device with the record of its calls forgotten, but not their number. -/
def forgetCalls (d : Device m n) : Device m n := { d with calls := [] }

@[simp] theorem blocks_read (d : Device m n) (b : Fin m) : (d.read b).2.blocks = d.blocks := rfl

theorem write_of_fails (d : Device m n) (b : Fin m) (data : Block n)
    (fail : d.failsNext .write b = true) :
    (d.write b data).1 = false ∧ (d.write b data).2.blocks = d.blocks := by
  simp [write, fail, record]

theorem write_of_not_fails (d : Device m n) (b : Fin m) (data : Block n)
    (works : d.failsNext .write b = false) :
    (d.write b data).1 = true ∧ (d.write b data).2.blocks = d.blocks.set b data b.isLt := by
  simp [write, works]

end Device

/-- Failures set by hand on a device of `m` blocks. -/
structure FaultPlan (m : Nat) where
  brokenReads : Vector Bool m
  brokenWrites : Vector Bool m
  /-- The number of the first call that fails whatever it is. -/
  deadline : Option Nat

namespace FaultPlan

variable {m : Nat}

/-- No failure at all. -/
def none (m : Nat) : FaultPlan m := ⟨Vector.replicate m false, Vector.replicate m false, .none⟩

/-- The pattern of failures of a plan. -/
def fails (p : FaultPlan m) (number : Nat) (kind : IoKind) (b : Fin m) : Bool :=
  (match p.deadline with
    | .none => false
    | some deadline => decide (deadline ≤ number)) ||
  (match kind with
    | .read => p.brokenReads.get b
    | .write => p.brokenWrites.get b)

/-- The plan with a block broken or mended, for the given kinds of call. -/
def setBroken (p : FaultPlan m) (b : Nat) (reads writes : Bool) (broken : Bool) : FaultPlan m :=
  { p with
    brokenReads := if reads then p.brokenReads.setIfInBounds b broken else p.brokenReads
    brokenWrites := if writes then p.brokenWrites.setIfInBounds b broken else p.brokenWrites }

end FaultPlan

end SectorFs
