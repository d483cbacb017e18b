/-
# SectorFs.Random — the generator behind random eviction

A `Generator` is any way to start from a seed and to draw numbers under a bound
from a state of four 64-bit words. Its type says that a draw is under its bound,
and nothing else is known of a draw where a cache uses one.

The generator of a cache that is set up with no other is xoshiro256++, seeded by
four outputs of SplitMix64. `Random.below` draws from the upper half of one
output, scaled by multiplication; a second output only decides the rounding at
the upper end.
-/

namespace SectorFs

set_option autoImplicit false

/-- The state of a generator. -/
structure Random where
  s0 : UInt64
  s1 : UInt64
  s2 : UInt64
  s3 : UInt64

/-- Where the draws of a random rule come from. -/
structure Generator where
  /-- The state that a seed stands for. -/
  ofSeed : UInt64 → Random
  /-- A number under a bound, and the state after the draw. -/
  below : Random → {n : Nat} → 0 < n → Fin n × Random

namespace Random

/-- Output `i` of SplitMix64 from a seed. -/
def splitMix (seed : UInt64) (i : UInt64) : UInt64 :=
  let x := seed + 0x9e3779b97f4a7c15 * (i + 1)
  let x := (x ^^^ (x >>> 30)) * 0xbf58476d1ce4e5b9
  let x := (x ^^^ (x >>> 27)) * 0x94d049bb133111eb
  x ^^^ (x >>> 31)

def ofSeed (seed : UInt64) : Random :=
  ⟨splitMix seed 0, splitMix seed 1, splitMix seed 2, splitMix seed 3⟩

def rotateLeft (x : UInt64) (k : UInt64) : UInt64 := (x <<< k) ||| (x >>> (64 - k))

/-- One output and the state after it. -/
def next (r : Random) : UInt64 × Random :=
  let out := rotateLeft (r.s0 + r.s3) 23 + r.s0
  let s2 := r.s2 ^^^ r.s0
  let s3 := r.s3 ^^^ r.s1
  (out, ⟨r.s0 ^^^ s3, r.s1 ^^^ s2, s2 ^^^ (r.s1 <<< 17), rotateLeft s3 45⟩)

/-- The upper half of an output. -/
def next32 (r : Random) : Nat × Random :=
  let (out, r) := r.next
  ((out >>> 32).toNat, r)

theorem next32_lt (r : Random) : r.next32.1 < 0x100000000 := by
  simp only [next32, UInt64.toNat_shiftRight]
  have := r.next.1.toNat_lt
  simp only [UInt64.reduceToNat, Nat.shiftRight_eq_div_pow, Nat.reduceMod, Nat.reducePow]
  omega

/-- A draw of 32 bits, scaled to a bound, stays under it. -/
theorem scaled_lt {u n : Nat} (hu : u < 0x100000000) (hn : 0 < n) : u * n / 0x100000000 < n := by
  rw [Nat.div_lt_iff_lt_mul (by decide), Nat.mul_comm n]
  exact Nat.mul_lt_mul_of_pos_right hu hn

/-- A scaled draw that is close to the next number can go up to it. -/
theorem scaled_succ_lt {u n : Nat} (hu : u < 0x100000000)
    (high : 0x100000000 - n < u * n % 0x100000000) : u * n / 0x100000000 + 1 < n := by
  have le : u * n ≤ (0x100000000 - 1) * n := Nat.mul_le_mul_right n (by omega)
  have split := Nat.div_add_mod (u * n) (0x100000000)
  have bound := Nat.mod_lt (u * n) (show 0x100000000 > 0 by decide)
  generalize u * n / 0x100000000 = q at *
  generalize u * n % 0x100000000 = r at *
  generalize u * n = p at *
  omega

/-- A number below `n`, and the state after the draw. -/
def below (r : Random) {n : Nat} (hn : 0 < n) : Fin n × Random :=
  let high := r.next32.1 * n / 0x100000000
  if close : 0x100000000 - n < r.next32.1 * n % 0x100000000 then
    let again := r.next32.2.next32
    (if 0x100000000 ≤ r.next32.1 * n % 0x100000000 + again.1 * n / 0x100000000
      then ⟨high + 1, scaled_succ_lt r.next32_lt close⟩
      else ⟨high, scaled_lt r.next32_lt hn⟩,
     again.2)
  else (⟨high, scaled_lt r.next32_lt hn⟩, r.next32.2)

end Random

/-- The generator by default. -/
def Generator.xoshiro : Generator := ⟨Random.ofSeed, Random.below⟩

end SectorFs
