/-
# SectorFs.Block.Words — a sector as 128 little-endian words

Inodes and index blocks are tables of 32-bit words, stored least significant
byte first. `toWords` and `ofWords` are inverse to each other
(`toWords_ofWords`, `ofWords_toWords`), so a sector and its table of words carry
the same information.
-/
import SectorFs.Block

namespace SectorFs

set_option autoImplicit false

/-- The word with the given bytes, least significant first. -/
def wordOfBytes (a b c d : UInt8) : UInt32 :=
  UInt32.ofNat (a.toNat + 256 * b.toNat + 65536 * c.toNat + 16777216 * d.toNat)

/-- Byte `i` of a word, the least significant being byte 0. -/
def byteOfWord (w : UInt32) (i : Nat) : UInt8 := UInt8.ofNat (w.toNat >>> (8 * i))

namespace Block

/-- The words of a sector, in order. -/
def toWords (b : Block 512) : Vector UInt32 128 :=
  Vector.ofFn fun i =>
    wordOfBytes b[4 * i.val] b[4 * i.val + 1] b[4 * i.val + 2] b[4 * i.val + 3]

/-- The sector with the given words. -/
def ofWords (w : Vector UInt32 128) : Block 512 :=
  Vector.ofFn fun i => byteOfWord w[i.val / 4] (i.val % 4)

end Block

theorem wordOfBytes_byteOfWord (w : UInt32) :
    wordOfBytes (byteOfWord w 0) (byteOfWord w 1) (byteOfWord w 2) (byteOfWord w 3) = w := by
  have below := w.toNat_lt
  apply UInt32.toNat_inj.1
  simp only [wordOfBytes, byteOfWord, UInt32.toNat_ofNat', UInt8.toNat_ofNat',
    Nat.shiftRight_eq_div_pow, Nat.reduceMul, Nat.reducePow]
  omega

theorem byteOfWord_wordOfBytes (a b c d : UInt8) :
    byteOfWord (wordOfBytes a b c d) 0 = a ∧ byteOfWord (wordOfBytes a b c d) 1 = b ∧
      byteOfWord (wordOfBytes a b c d) 2 = c ∧ byteOfWord (wordOfBytes a b c d) 3 = d := by
  have ha := a.toNat_lt
  have hb := b.toNat_lt
  have hc := c.toNat_lt
  have hd := d.toNat_lt
  refine ⟨?_, ?_, ?_, ?_⟩ <;> apply UInt8.toNat_inj.1 <;>
    simp only [wordOfBytes, byteOfWord, UInt32.toNat_ofNat', UInt8.toNat_ofNat',
    Nat.shiftRight_eq_div_pow, Nat.reduceMul, Nat.reducePow] <;>
    omega

namespace Block

theorem getElem_toWords (b : Block 512) (i : Nat) (h : i < 128) :
    b.toWords[i] = wordOfBytes b[4 * i] b[4 * i + 1] b[4 * i + 2] b[4 * i + 3] := by
  simp [toWords]

theorem getElem_ofWords (w : Vector UInt32 128) (i : Nat) (h : i < 512) :
    (ofWords w)[i] = byteOfWord w[i / 4] (i % 4) := by
  simp [ofWords]

@[simp] theorem toWords_ofWords (w : Vector UInt32 128) : (ofWords w).toWords = w := by
  apply Vector.ext
  intro i h
  rw [getElem_toWords, getElem_ofWords, getElem_ofWords, getElem_ofWords, getElem_ofWords]
  simp only [Nat.mul_add_mod, Nat.mul_mod_right, Nat.one_mod, Nat.reduceMod]
  have h0 : 4 * i / 4 = i := by omega
  have h1 : (4 * i + 1) / 4 = i := by omega
  have h2 : (4 * i + 2) / 4 = i := by omega
  have h3 : (4 * i + 3) / 4 = i := by omega
  simp only [h0, h1, h2, h3]
  exact wordOfBytes_byteOfWord w[i]

@[simp] theorem ofWords_toWords (b : Block 512) : ofWords b.toWords = b := by
  apply Vector.ext
  intro i h
  rw [getElem_ofWords, getElem_toWords]
  obtain ⟨e0, e1, e2, e3⟩ := byteOfWord_wordOfBytes b[4 * (i / 4)] b[4 * (i / 4) + 1]
    b[4 * (i / 4) + 2] b[4 * (i / 4) + 3]
  have cases : i % 4 = 0 ∨ i % 4 = 1 ∨ i % 4 = 2 ∨ i % 4 = 3 := by omega
  rcases cases with r | r | r | r <;> rw [r]
  · rw [e0]; congr 1; omega
  · rw [e1]; congr 1; omega
  · rw [e2]; congr 1; omega
  · rw [e3]; congr 1; omega

end Block

end SectorFs
