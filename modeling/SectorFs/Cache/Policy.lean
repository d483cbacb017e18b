/-
# SectorFs.Cache.Policy — how a cache is set up

A cache has a number of slots, a rule by which it picks the slot to give up when
all are taken, and a seed for the generator that the random rule draws from.
`Policy.parse` reads back exactly what `Policy.name` writes.
-/
import SectorFs.Random

namespace SectorFs

set_option autoImplicit false

/-- How the slot to give up is picked. -/
inductive Policy where
  /-- The slot that a generator draws. -/
  | random
  /-- The next slot that was not used since the hand last passed it. -/
  | clock
deriving DecidableEq

namespace Policy

def name : Policy → String
  | .random => "random"
  | .clock => "clock"

def parse (s : String) : Option Policy :=
  if s = "random" then some .random else if s = "clock" then some .clock else none

theorem parse_eq_some_iff (s : String) (p : Policy) : parse s = some p ↔ s = p.name := by
  unfold parse
  cases p <;> simp only [name] <;> split <;> simp_all

end Policy

/-- The settings of a cache. -/
structure CacheSettings where
  slots : Nat := 64
  policy : Policy := .random
  seed : UInt64 := 0x5eed
deriving DecidableEq

/-- What a cache is made from: its settings, and where the draws of the random rule come from. -/
structure CacheSetup extends CacheSettings where
  generator : Generator := .xoshiro

end SectorFs
