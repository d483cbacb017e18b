/-
# SectorFs.Proofs.Disk.Marks — a free map and the sectors it marks

`FreeMap.Marks f owned`: the sectors in use are those of the list `owned`, each
of them once. The order of the list does not matter (`Marks.perm`). Taking
sectors puts them in front of the list (`allocate_spec`, `reserve_spec`), giving
them back takes them away (`release_spec`), and from its stored form a map is
loaded as it was (`ofBytes_toBytes`).

The bits beyond the last sector are never touched (`padding_allocate`,
`padding_release`); with them the sectors in use determine the map
(`Marks.unique`).
-/
import SectorFs.FreeMap
import Mathlib.Data.List.Nodup

namespace SectorFs

set_option autoImplicit false

variable {n : Nat}

theorem Sector.index_inj {s t : Sector} : s.index = t.index ↔ s = t := by
  constructor
  · intro same
    cases s
    cases t
    exact congrArg Sector.mk (UInt32.toNat_inj.1 same)
  · exact congrArg Sector.index

/-! ## Runs of places -/

theorem firstRun_sound {free : Nat → Bool} {count left pos run start : Nat}
    (before : ∀ i, pos - run ≤ i → i < pos → free i = true) (le : run ≤ pos) (short : run < count)
    (found : firstRun free count left pos run = some start) :
    start + count ≤ pos + left ∧ ∀ i, start ≤ i → i < start + count → free i = true := by
  induction left generalizing pos run with
  | zero => cases found
  | succ left ih =>
    unfold firstRun at found
    split at found
    case isTrue here =>
      have upto : ∀ i, pos - run ≤ i → i < pos + 1 → free i = true := fun i lo hi => by
        rcases Nat.lt_succ_iff_lt_or_eq.1 hi with hi | rfl
        · exact before i lo hi
        · exact here
      split at found
      case isTrue enough =>
        cases found
        exact ⟨by omega, fun i lo hi => upto i (by omega) (by omega)⟩
      case isFalse more =>
        have := ih (fun i lo hi => upto i (by omega) hi) (by omega) (by omega) found
        exact ⟨by omega, this.2⟩
    case isFalse =>
      have := ih (fun i lo hi => by omega) (by omega) (by omega) found
      exact ⟨by omega, this.2⟩

theorem getElem?_setRun {k : Nat} (value : Bool) (count start : Nat) (bits : Vector Bool k)
    (i : Nat) : (setRun value count start bits)[i]? =
      if start ≤ i ∧ i < start + count ∧ i < k then some value else bits[i]? := by
  induction count generalizing start bits with
  | zero =>
    rw [setRun, if_neg (by omega)]
  | succ count ih =>
    rw [setRun, ih, Vector.getElem?_setIfInBounds]
    by_cases here : start = i
    · subst here
      by_cases inside : start < k
      · simp [inside]
      · simp [inside]
    · rw [if_neg here]
      exact if_congr (by omega) rfl rfl

namespace FreeMap

theorem getElem?_bits (f : FreeMap n) {i : Nat} (h : i < n) : f.bits[i]? = some (f.inUse i) := by
  rw [inUse, dif_pos h, Vector.getElem?_eq_getElem (lt_bits h)]
  rfl

theorem inUse_of_getElem? {f : FreeMap n} {i : Nat} {value : Bool} (h : i < n)
    (bit : f.bits[i]? = some value) : f.inUse i = value := by
  rw [getElem?_bits f h] at bit
  exact Option.some.inj bit

/-- The sectors in use are those of a list, each of them once. -/
structure Marks (f : FreeMap n) (owned : List Nat) : Prop where
  nodup : owned.Nodup
  inside : ∀ i ∈ owned, i < n
  inUse {i : Nat} : i < n → (f.inUse i = true ↔ i ∈ owned)
  used : f.used = owned.length

variable {f : FreeMap n} {owned owned' : List Nat}

theorem Marks.perm (marks : f.Marks owned) (same : owned.Perm owned') : f.Marks owned' where
  nodup := same.nodup_iff.1 marks.nodup
  inside i mem := marks.inside i (same.mem_iff.2 mem)
  inUse h := (marks.inUse h).trans same.mem_iff
  used := marks.used.trans same.length_eq

theorem marks_empty : (empty n).Marks [] where
  nodup := List.nodup_nil
  inside := by simp
  inUse {i} h := by
    rw [inUse_of_getElem? h (show (empty n).bits[i]? = some false by simp [empty, lt_bits h])]
    simp
  used := rfl

/-- The sectors in use, counted. -/
theorem Marks.length_eq_count (marks : f.Marks owned) :
    owned.length = ((List.range n).filter f.inUse).length := by
  refine List.Perm.length_eq ((List.perm_ext_iff_of_nodup marks.nodup ?_).2 fun i => ?_)
  · exact List.nodup_range.filter _
  · rw [List.mem_filter, List.mem_range]
    exact ⟨fun mem => ⟨marks.inside i mem, (marks.inUse (marks.inside i mem)).2 mem⟩,
      fun mem => (marks.inUse mem.1).1 mem.2⟩

/-- The count of used sectors is right. -/
def Counted (f : FreeMap n) : Prop := f.used = ((List.range n).filter f.inUse).length

theorem Marks.counted (marks : f.Marks owned) : f.Counted :=
  marks.used.trans marks.length_eq_count

theorem Counted.marks (counted : f.Counted) : f.Marks ((List.range n).filter f.inUse) where
  nodup := List.nodup_range.filter _
  inside i mem := List.mem_range.1 (List.mem_of_mem_filter mem)
  inUse h := by rw [List.mem_filter, List.mem_range, and_iff_right h]
  used := counted

/-- The sectors in use are some of them and the others. -/
theorem Counted.marks_append {mine : List Nat} (counted : f.Counted) (nodup : mine.Nodup)
    (inside : ∀ i ∈ mine, i < n) (inUse : ∀ i ∈ mine, f.inUse i = true) :
    f.Marks (((List.range n).filter f.inUse).filter (· ∉ mine) ++ mine) := by
  refine counted.marks.perm ((List.perm_ext_iff_of_nodup counted.marks.nodup ?_).2 fun i => ?_)
  · refine List.nodup_append'.2 ⟨counted.marks.nodup.filter _, nodup, fun i mem own => ?_⟩
    exact of_decide_eq_true (List.mem_filter.1 mem).2 own
  · by_cases own : i ∈ mine
    · simp [own, inside i own, inUse i own]
    · simp [own]

theorem Marks.length_le (marks : f.Marks owned) : owned.length ≤ n := by
  rw [marks.length_eq_count]
  exact Nat.le_trans (List.length_filter_le _ _) (Nat.le_of_eq List.length_range)

theorem Marks.countFree (marks : f.Marks owned) : f.countFree = n - owned.length := by
  rw [FreeMap.countFree, marks.used]

/-! ## Taking sectors -/

/-- The map after `count` sectors from `start` on were marked. -/
theorem Marks.setRun (marks : f.Marks owned) {count start : Nat} (inside : start + count ≤ n)
    (unused : ∀ i, start ≤ i → i < start + count → i ∉ owned) :
    (⟨setRun true count start f.bits, f.used + count⟩ : FreeMap n).Marks
      (List.range' start count ++ owned) where
  nodup := by
    rw [List.nodup_append']
    refine ⟨List.nodup_range', marks.nodup, fun i mem => ?_⟩
    rw [List.mem_range'_1] at mem
    exact unused i mem.1 mem.2
  inside i mem := by
    rcases List.mem_append.1 mem with mem | mem
    · rw [List.mem_range'_1] at mem
      omega
    · exact marks.inside i mem
  inUse {i} h := by
    rw [List.mem_append, List.mem_range'_1, ← marks.inUse h]
    by_cases new : start ≤ i ∧ i < start + count
    · have bit : (SectorFs.setRun true count start f.bits)[i]? = some true := by
        rw [getElem?_setRun, if_pos ⟨new.1, new.2, lt_bits h⟩]
      rw [inUse_of_getElem? h bit]
      simp [new]
    · have bit : (SectorFs.setRun true count start f.bits)[i]? = some (f.inUse i) := by
        rw [getElem?_setRun, if_neg fun h => new ⟨h.1, h.2.1⟩, getElem?_bits f h]
      rw [inUse_of_getElem? h bit]
      simp [new]
  used := by
    simp [marks.used, Nat.add_comm]

theorem allocate_spec (marks : f.Marks owned) (small : n ≤ 0x100000000) {count : Nat}
    (some_count : 0 < count) :
    f.allocate count = .ok (none, f) ∨
    ∃ s f', f.allocate count = .ok (some s, f') ∧ s.index + count ≤ n ∧
      f'.Marks (List.range' s.index count ++ owned) := by
  unfold allocate
  rw [if_neg (by omega)]
  cases found : firstRun (fun i => !f.inUse i) count n 0 0 with
  | none => exact .inl rfl
  | some start =>
    obtain ⟨inside, unused⟩ := firstRun_sound (by omega) (Nat.le_refl 0) some_count found
    have fits : start < 0x100000000 := by omega
    refine .inr ⟨⟨UInt32.ofNat start⟩, ⟨setRun true count start f.bits, f.used + count⟩, ?_, ?_, ?_⟩
    · simp only [word32, if_pos fits]
      rfl
    · rw [Sector.index, UInt32.toNat_ofNat_of_lt' (by simpa [UInt32.size] using fits)]
      omega
    · rw [Sector.index, UInt32.toNat_ofNat_of_lt' (by simpa [UInt32.size] using fits)]
      refine marks.setRun (by omega) fun i lo hi mem => ?_
      have := unused i lo hi
      rw [(marks.inUse (by omega)).2 mem] at this
      cases this

theorem reserve_spec (marks : f.Marks owned) {i : Nat} (inside : i < n) (unused : i ∉ owned) :
    ∃ f', f.reserve i = .ok f' ∧ f'.Marks (i :: owned) := by
  have off : f.inUse i = false := by
    rw [Bool.eq_false_iff, ne_eq, marks.inUse inside]
    exact unused
  refine ⟨⟨f.bits.setIfInBounds i true, f.used + 1⟩, ?_, ?_⟩
  · simp only [reserve, usage, if_pos inside, off, bind, Except.bind]
    rfl
  · have alone : ∀ j, i ≤ j → j < i + 1 → j ∉ owned := fun j lo hi => by
      obtain rfl : j = i := by omega
      exact unused
    exact marks.setRun inside alone

/-! ## Giving sectors back -/

theorem free_spec {i : Nat} (marks : f.Marks (i :: owned)) :
    ∃ f', f.free i = .ok f' ∧ f'.Marks owned := by
  have inside := marks.inside i List.mem_cons_self
  have on : f.inUse i = true := (marks.inUse inside).2 List.mem_cons_self
  obtain ⟨fresh, nodup⟩ := List.nodup_cons.1 marks.nodup
  refine ⟨⟨f.bits.setIfInBounds i false, f.used - 1⟩, ?_, ?_⟩
  · simp only [FreeMap.free, usage, if_pos inside, on, bind, Except.bind]
    rfl
  · refine ⟨nodup, fun j mem => marks.inside j (List.mem_cons_of_mem i mem), fun {j} h => ?_, ?_⟩
    · by_cases same : j = i
      · subst same
        have bit : (f.bits.setIfInBounds j false)[j]? = some false := by simp [lt_bits h]
        rw [inUse_of_getElem? h bit]
        simp [fresh]
      · have bit : (f.bits.setIfInBounds i false)[j]? = some (f.inUse j) := by
          rw [Vector.getElem?_setIfInBounds, if_neg (Ne.symm same), getElem?_bits f h]
        rw [inUse_of_getElem? h bit, marks.inUse h]
        simp [same]
    · simp [marks.used]

theorem releaseFrom_spec {count start : Nat}
    (marks : f.Marks (List.range' start count ++ owned)) :
    ∃ f', f.releaseFrom count start = .ok f' ∧ f'.Marks owned := by
  induction count generalizing f start with
  | zero => exact ⟨f, rfl, marks⟩
  | succ count ih =>
    rw [List.range'_succ, List.cons_append] at marks
    obtain ⟨f₁, freed, marks₁⟩ := free_spec marks
    obtain ⟨f', released, marks'⟩ := ih marks₁
    refine ⟨f', ?_, marks'⟩
    rw [releaseFrom, freed]
    exact released

theorem release_spec {s : Sector} {count : Nat} (small : n ≤ 0x100000000) (some_count : 0 < count)
    (marks : f.Marks (List.range' s.index count ++ owned)) :
    ∃ f', f.release s count = .ok f' ∧ f'.Marks owned := by
  have last := marks.inside (s.index + (count - 1))
    (List.mem_append_left _ (List.mem_range'_1.2 (by omega)))
  rw [release, if_pos (by omega)]
  exact releaseFrom_spec marks

/-! ## The stored form -/

theorem length_toBytes (f : FreeMap n) : f.toBytes.length = bytesFor n := by
  simp [toBytes]

/-- The byte with eight given bits. -/
def byteOf (b₀ b₁ b₂ b₃ b₄ b₅ b₆ b₇ : Bool) : UInt8 :=
  UInt8.ofNat (b₀.toNat <<< 0 + (b₁.toNat <<< 1 + (b₂.toNat <<< 2 + (b₃.toNat <<< 3 +
    (b₄.toNat <<< 4 + (b₅.toNat <<< 5 + (b₆.toNat <<< 6 + (b₇.toNat <<< 7 + 0))))))))

theorem bitOfByte_byteOf : ∀ b₀ b₁ b₂ b₃ b₄ b₅ b₆ b₇ : Bool, ∀ i : Fin 8,
    bitOfByte (byteOf b₀ b₁ b₂ b₃ b₄ b₅ b₆ b₇) i = [b₀, b₁, b₂, b₃, b₄, b₅, b₆, b₇][i.val]! := by
  decide +kernel

theorem bitOfByte_byteOfBits (bit : Nat → Bool) {i : Nat} (h : i < 8) :
    bitOfByte (byteOfBits bit) i = bit i := by
  have eight : byteOfBits bit =
      byteOf (bit 0) (bit 1) (bit 2) (bit 3) (bit 4) (bit 5) (bit 6) (bit 7) := rfl
  rw [eight, bitOfByte_byteOf _ _ _ _ _ _ _ _ ⟨i, h⟩]
  have cases : i = 0 ∨ i = 1 ∨ i = 2 ∨ i = 3 ∨ i = 4 ∨ i = 5 ∨ i = 6 ∨ i = 7 := by omega
  rcases cases with rfl | rfl | rfl | rfl | rfl | rfl | rfl | rfl <;> rfl

/-- A map is loaded again as it was stored, and its used sectors are counted anew. -/
theorem ofBytes_toBytes (marks : f.Marks owned) : ofBytes n f.toBytes = .ok f := by
  have bits : (Vector.ofFn fun i : Fin (8 * bytesFor n) =>
      bitOfByte (f.toBytes.toArray[i.val / 8]?.getD 0) (i.val % 8)) = f.bits := by
    apply Vector.ext
    intro i inside
    have byte : i / 8 < bytesFor n := by omega
    simp only [Vector.getElem_ofFn, List.getElem?_toArray, toBytes, List.getElem?_map,
      List.getElem?_range byte, Option.map_some, Option.getD_some]
    rw [bitOfByte_byteOfBits _ (Nat.mod_lt _ (by decide)), Nat.div_add_mod,
      Vector.getElem?_eq_getElem inside, Option.getD_some]
  have shown : f.bits.toList.take n = (List.range n).map f.inUse := by
    apply List.ext_getElem?
    intro i
    rw [List.getElem?_take]
    split
    case isTrue h => simpa [h] using getElem?_bits f h
    case isFalse h => simp [h]
  have used : (f.bits.toList.take n).count true = f.used := by
    rw [shown, List.count, List.countP_map, List.countP_eq_length_filter, marks.used,
      marks.length_eq_count]
    congr 1
    exact List.filter_congr fun i _ => by simp
  rw [ofBytes, if_pos f.length_toBytes]
  dsimp only
  rw [bits, used]

/-! ## The bits beyond the last sector -/

/-- The bits beyond the last sector. -/
def padding (f : FreeMap n) (i : Nat) : Option Bool := f.bits[n + i]?

/-- The sectors in use and the bits beyond the last sector are all there is to a map. -/
theorem Marks.unique {f' : FreeMap n} (marks : f.Marks owned) (marks' : f'.Marks owned)
    (padding : f'.padding = f.padding) : f' = f := by
  have bits : f'.bits = f.bits := by
    refine Vector.ext fun i place => Option.some.inj ?_
    rw [← Vector.getElem?_eq_getElem place, ← Vector.getElem?_eq_getElem place]
    by_cases inside : i < n
    · rw [getElem?_bits f' inside, getElem?_bits f inside]
      exact congrArg some (Bool.eq_iff_iff.2 ((marks'.inUse inside).trans (marks.inUse inside).symm))
    · have beyond := congrFun padding (i - n)
      rwa [FreeMap.padding, FreeMap.padding, Nat.add_sub_cancel' (Nat.le_of_not_lt inside)] at beyond
  have used : f'.used = f.used := marks'.used.trans marks.used.symm
  cases f
  cases f'
  cases bits
  cases used
  rfl

theorem padding_allocate {f' : FreeMap n} {count : Nat} {o : Option Sector}
    (taken : f.allocate count = .ok (o, f')) : f'.padding = f.padding := by
  unfold allocate at taken
  split at taken
  · cases taken
  · split at taken
    · cases taken
      rfl
    case h_2 some_count _ start found =>
      obtain ⟨inside, -⟩ := firstRun_sound (by omega) (Nat.le_refl 0) (by omega) found
      cases number : word32 start with
      | error v =>
        rw [number] at taken
        cases taken
      | ok =>
        rw [number] at taken
        cases taken
        funext i
        exact (getElem?_setRun ..).trans (if_neg (by omega))

theorem padding_reserve {f' : FreeMap n} {i : Nat} (taken : f.reserve i = .ok f') :
    f'.padding = f.padding := by
  unfold reserve usage at taken
  split at taken
  case isFalse => cases taken
  case isTrue inside =>
    change (if f.inUse i = true then _ else _) = _ at taken
    split at taken
    · cases taken
    · cases taken
      funext j
      exact Vector.getElem?_setIfInBounds_ne (by omega)

theorem padding_free {f' : FreeMap n} {i : Nat} (freed : f.free i = .ok f') :
    f'.padding = f.padding := by
  unfold FreeMap.free usage at freed
  split at freed
  case isFalse => cases freed
  case isTrue inside =>
    change (if f.inUse i = true then _ else _) = _ at freed
    split at freed
    · cases freed
      funext j
      exact Vector.getElem?_setIfInBounds_ne (by omega)
    · cases freed

theorem padding_release {f' : FreeMap n} {s : Sector} {count : Nat}
    (released : f.release s count = .ok f') : f'.padding = f.padding := by
  unfold release at released
  split at released
  case isFalse => cases released
  case isTrue fits =>
    clear fits
    generalize s.index = start at released
    induction count generalizing f start with
    | zero =>
      cases released
      rfl
    | succ count ih =>
      rw [releaseFrom] at released
      cases freed : f.free start with
      | error v =>
        rw [freed] at released
        cases released
      | ok f₁ =>
        rw [freed] at released
        exact (ih _ released).trans (padding_free freed)

end FreeMap

end SectorFs
