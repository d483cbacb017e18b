/-
# SectorFs.Proofs.Disk.Overwrite — tables that are edited byte by byte

Inodes and index blocks are tables of little-endian words (`Block.number`). An edit of such a table
puts a few bytes in place of others and leaves the rest of the sector alone (`Table.Lawful`); to set
a field is to overwrite its four bytes (`Block.ofWords_set`). Then nothing else needs to be known of
the edits: a byte that none of them covers stays, and what the last one to cover a range put there
is found there, whatever was done to other bytes in between (`Table.Lawful.faithful`).
-/
import SectorFs.Violation
import SectorFs.Block.Words

namespace SectorFs

set_option autoImplicit false

/-! ## Words among bytes -/

/-- The number with the given bytes, least significant first. -/
def littleEndian : List UInt8 → Nat
  | [] => 0
  | byte :: rest => byte.toNat + 256 * littleEndian rest

/-- The bytes of a word, least significant first. -/
def bytesOfWord (w : UInt32) : List UInt8 :=
  [byteOfWord w 0, byteOfWord w 1, byteOfWord w 2, byteOfWord w 3]

@[simp] theorem length_bytesOfWord (w : UInt32) : (bytesOfWord w).length = 4 := rfl

theorem getElem_bytesOfWord (w : UInt32) {i : Nat} (h : i < (bytesOfWord w).length) :
    (bytesOfWord w)[i] = byteOfWord w i := by
  rw [length_bytesOfWord] at h
  have cases : i = 0 ∨ i = 1 ∨ i = 2 ∨ i = 3 := by omega
  rcases cases with rfl | rfl | rfl | rfl <;> rfl

theorem littleEndian_bytesOfWord (w : UInt32) : littleEndian (bytesOfWord w) = w.toNat := by
  have below := w.toNat_lt
  simp only [bytesOfWord, littleEndian, byteOfWord, UInt8.toNat_ofNat', Nat.shiftRight_eq_div_pow]
  omega

namespace Block

/-- The number whose four bytes begin at `off`. -/
def number (b : Block 512) (off : Nat) : Nat := littleEndian (b.slice off 4)

theorem slice_word (b : Block 512) {i : Nat} (h : i < 128) :
    b.slice (4 * i) 4 = bytesOfWord b.toWords[i] := by
  obtain ⟨e0, e1, e2, e3⟩ :=
    byteOfWord_wordOfBytes b[4 * i] b[4 * i + 1] b[4 * i + 2] b[4 * i + 3]
  have word := b.getElem_toWords i h
  refine List.ext_getElem? fun j => ?_
  rw [getElem?_slice]
  split
  case isTrue inside =>
    have cases : j = 0 ∨ j = 1 ∨ j = 2 ∨ j = 3 := by omega
    rw [bytesOfWord, word, e0, e1, e2, e3]
    rcases cases with rfl | rfl | rfl | rfl <;> simp
  case isFalse outside => rw [List.getElem?_eq_none (by rw [length_bytesOfWord]; omega)]

/-- The words of a sector are its numbers. -/
theorem number_word (b : Block 512) {i : Nat} (h : i < 128) :
    b.number (4 * i) = b.toWords[i].toNat := by
  rw [number, slice_word b h, littleEndian_bytesOfWord]

/-- To set a word is to overwrite its bytes. -/
theorem ofWords_set (w : Vector UInt32 128) {i : Nat} (h : i < 128) (x : UInt32) :
    ofWords (w.set i x) = (ofWords w).patch (4 * i) (bytesOfWord x) := by
  refine Vector.ext fun j inside => ?_
  rw [getElem_ofWords, Vector.getElem_set, getElem_patch]
  by_cases here : i = j / 4
  · have offset : j - 4 * i = j % 4 := by omega
    rw [if_pos here, dif_pos (by rw [length_bytesOfWord]; omega), getElem_bytesOfWord, offset]
  · rw [if_neg here, dif_neg (by rw [length_bytesOfWord]; omega), getElem_ofWords]

end Block

/-! ## Overwriting -/

/-- Bytes that are put in place of others. -/
structure Overwrite where
  off : Nat
  data : List UInt8

namespace Overwrite

def Covers (o : Overwrite) (i : Nat) : Prop := o.off ≤ i ∧ i < o.off + o.data.length

/-- Two overwrites have no byte in common. -/
def Apart (o p : Overwrite) : Prop := ∀ i, ¬ (o.Covers i ∧ p.Covers i)

end Overwrite

namespace Block

variable {n : Nat} {b : Block n} {os : List Overwrite} {o : Overwrite}

/-- Overwrites one after another. -/
def overwrite (b : Block n) (os : List Overwrite) : Block n :=
  os.foldl (fun b o => b.patch o.off o.data) b

theorem getElem_overwrite {i : Nat} (h : i < n) (outside : ∀ o ∈ os, ¬ o.Covers i) :
    (b.overwrite os)[i] = b[i] := by
  induction os generalizing b with
  | nil => rfl
  | cons o os ih =>
    obtain ⟨first, rest⟩ := List.forall_mem_cons.1 outside
    unfold Overwrite.Covers at first
    rw [overwrite, List.foldl_cons]
    refine (ih rest).trans ?_
    rw [getElem_patch_outside _ _ _ _ _ (by omega)]

/-- What an overwrite put in place is there until its bytes are overwritten again. -/
theorem slice_overwrite (before : List Overwrite) {after : List Overwrite}
    (fits : o.off + o.data.length ≤ n) (apart : ∀ p ∈ after, o.Apart p) :
    (b.overwrite (before ++ o :: after)).slice o.off o.data.length = o.data := by
  have stays : (b.overwrite (before ++ o :: after)).slice o.off o.data.length =
      ((b.overwrite before).patch o.off o.data).slice o.off o.data.length := by
    rw [overwrite, List.foldl_append, List.foldl_cons]
    refine List.ext_getElem? fun i => ?_
    rw [getElem?_slice, getElem?_slice]
    split
    case isTrue inside =>
      have h : o.off + i < n := by omega
      rw [Vector.getElem?_eq_getElem h, Vector.getElem?_eq_getElem h]
      refine congrArg some (getElem_overwrite h fun p mem covers => ?_)
      exact apart p mem (o.off + i) ⟨⟨by omega, by omega⟩, covers⟩
    case isFalse => rfl
  rw [stays, slice_patch _ _ _ fits]

end Block

/-! ## Tables -/

/-- A table that fills a sector, and the edits of it. -/
structure Table (σ ε : Type) where
  decode : Block 512 → σ
  encode : σ → Block 512
  apply : σ → ε → Except Violation σ
  /-- What an edit asks for has to fit into its bytes. -/
  Fits : ε → Prop
  /-- The bytes that an edit puts in place of others. -/
  written : ε → Overwrite
  /-- What the table shows of an edit after it. -/
  Shows : ε → σ → Prop

namespace Table

variable {σ ε : Type} {t : Table σ ε} {s s' : σ} {edits : List ε}

/-- Carries out edits one after another, as long as none breaks a condition. -/
def edit (t : Table σ ε) (s : σ) (edits : List ε) : Except Violation σ := edits.foldlM t.apply s

/-- A table is its bytes, an edit overwrites some of them, and shows as long as they stay. -/
structure Lawful (t : Table σ ε) : Prop where
  decode_encode (s : σ) : t.decode (t.encode s) = s
  encode_decode (b : Block 512) : t.encode (t.decode b) = b
  applies (s : σ) (e : ε) : t.Fits e → ∃ s', t.apply s e = .ok s' ∧
    t.encode s' = (t.encode s).patch (t.written e).off (t.written e).data
  refuses (s : σ) (e : ε) : ¬ t.Fits e → ∃ v, t.apply s e = .error v
  inside (e : ε) : t.Fits e → (t.written e).off + (t.written e).data.length ≤ 512
  shows (s : σ) (e : ε) : t.Fits e →
    (t.encode s).slice (t.written e).off (t.written e).data.length = (t.written e).data → t.Shows e s

/-- A table stores faithfully: no byte is lost, edits succeed exactly if they fit, only the bytes
that they cover change, and what was put into bytes last is what the table shows. -/
structure Faithful (t : Table σ ε) : Prop where
  decode_encode (s : σ) : t.decode (t.encode s) = s
  encode_decode (b : Block 512) : t.encode (t.decode b) = b
  succeeds (s : σ) (edits : List ε) : (∃ s', t.edit s edits = .ok s') ↔ ∀ e ∈ edits, t.Fits e
  untouched {s s' : σ} {edits : List ε} {i : Nat} (h : i < 512) : t.edit s edits = .ok s' →
    (∀ e ∈ edits, ¬ (t.written e).Covers i) → (t.encode s')[i] = (t.encode s)[i]
  last {s s' : σ} {before after : List ε} {e : ε} : t.edit s (before ++ e :: after) = .ok s' →
    (∀ e' ∈ after, (t.written e).Apart (t.written e')) → t.Shows e s'

theorem edit_cons (s : σ) (e : ε) (edits : List ε) :
    t.edit s (e :: edits) = t.apply s e >>= fun s => t.edit s edits := List.foldlM_cons

variable (lawful : t.Lawful)
include lawful

/-- Edits that succeeded fitted, and overwrote their bytes one after another. -/
theorem Lawful.edited (edited : t.edit s edits = .ok s') :
    (∀ e ∈ edits, t.Fits e) ∧ t.encode s' = (t.encode s).overwrite (edits.map t.written) := by
  induction edits generalizing s with
  | nil =>
    cases edited
    exact ⟨fun e mem => absurd mem List.not_mem_nil, rfl⟩
  | cons e edits ih =>
    rw [edit_cons] at edited
    by_cases fits : t.Fits e
    · obtain ⟨s₁, applied, bytes⟩ := lawful.applies s e fits
      rw [applied] at edited
      obtain ⟨rest, after⟩ := ih edited
      refine ⟨List.forall_mem_cons.2 ⟨fits, rest⟩, ?_⟩
      rw [after, bytes, List.map_cons, Block.overwrite, Block.overwrite, List.foldl_cons]
    · obtain ⟨v, refused⟩ := lawful.refuses s e fits
      rw [refused] at edited
      cases edited

theorem Lawful.exists_edited (fit : ∀ e ∈ edits, t.Fits e) : ∃ s', t.edit s edits = .ok s' := by
  induction edits generalizing s with
  | nil => exact ⟨s, rfl⟩
  | cons e edits ih =>
    obtain ⟨fits, rest⟩ := List.forall_mem_cons.1 fit
    obtain ⟨s₁, applied, -⟩ := lawful.applies s e fits
    rw [edit_cons, applied]
    exact ih rest

theorem Lawful.faithful : t.Faithful where
  decode_encode := lawful.decode_encode
  encode_decode := lawful.encode_decode
  succeeds s edits :=
    ⟨fun ⟨_, edited⟩ => (lawful.edited edited).1, fun fit => lawful.exists_edited fit⟩
  untouched {s s' edits i} h edited outside := by
    simp only [(lawful.edited edited).2]
    exact Block.getElem_overwrite h (List.forall_mem_map.2 outside)
  last {s s' before after e} edited apart := by
    obtain ⟨fit, bytes⟩ := lawful.edited edited
    have fits : t.Fits e := fit e (List.mem_append_right _ List.mem_cons_self)
    refine lawful.shows s' e fits ?_
    rw [bytes, List.map_append, List.map_cons]
    exact Block.slice_overwrite _ (lawful.inside e fits) (List.forall_mem_map.2 apart)

end Table

end SectorFs
