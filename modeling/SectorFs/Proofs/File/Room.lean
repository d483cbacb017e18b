/-
# SectorFs.Proofs.File.Room — files on a map without gaps

As long as nothing is given back, the sectors in use are the first ones (`FreeMap.Packed`), and a
run of any length can be had as long as that many sectors are left. So an append succeeds if the
longer file has room (`append_packed`): it takes its group and its index blocks one after another,
and what each of them needs is counted by the layout (`wanted_add`). Growth is many appends, and
what a file of `n` blocks needs does not fall when `n` grows (`growTo_packed`).
-/
import SectorFs.Proofs.File.Retry
import SectorFs.Proofs.Disk.FirstFit

namespace SectorFs

set_option autoImplicit false

/-! ## Maps without gaps -/

namespace FreeMap

variable {n : Nat} {f : FreeMap n} {owned : List Nat} {count : Nat}

/-- The sectors in use are the first ones. -/
structure Packed (f : FreeMap n) : Prop where
  counted : f.Counted
  inUse {i : Nat} : i < n → (f.inUse i = true ↔ i < f.used)

theorem Marks.packed (marks : f.Marks owned) (first : ∀ i, i ∈ owned ↔ i < owned.length) :
    f.Packed where
  counted := marks.counted
  inUse inside := by rw [marks.inUse inside, first, marks.used]

/-- All that is left is one run. -/
theorem Packed.freeRun (packed : f.Packed) (room : f.used + count ≤ n) :
    f.FreeRun f.used count := by
  refine ⟨room, fun i lo hi => ?_⟩
  rw [Bool.eq_false_iff, ne_eq, packed.inUse (by omega)]
  omega

/-- A run that is taken begins where the sectors in use end, and leaves no gap. -/
theorem Packed.allocate (packed : f.Packed) (small : n ≤ 0x100000000) (positive : 0 < count)
    (room : f.used + count ≤ n) :
    ∃ s f', f.allocate count = .ok (some s, f') ∧ s.index = f.used ∧ f'.Packed ∧
      f'.used = f.used + count := by
  have marks := packed.counted.marks
  have run := packed.freeRun room
  obtain ⟨lowest, found, le⟩ := run.found positive
  rcases allocate_cases (f := f) small positive with ⟨nowhere, -⟩ | ⟨s, f', found', taken⟩
  · rw [nowhere] at found
    cases found
  · obtain rfl : s.index = lowest := Option.some.inj (found'.symm.trans found)
    have free := (freeRun_of_firstRun positive found').2 s.index (Nat.le_refl _) (by omega)
    have start : s.index = f.used := by
      by_contra other
      rw [(packed.inUse (by omega)).2 (by omega)] at free
      cases free
    obtain ⟨-, marks'⟩ := marks.allocate small positive taken
    have used : f'.used = f.used + count := by
      rw [marks'.used, List.length_append, List.length_range', ← marks.used, Nat.add_comm]
    refine ⟨s, f', taken, start, ⟨marks'.counted, fun {i} inside => ?_⟩, used⟩
    rw [marks.inUse_allocate small positive taken inside, packed.inUse inside, used]
    omega

/-- A run that is longer than all that is left is refused. -/
theorem Marks.refuses (marks : f.Marks owned) (small : n ≤ 0x100000000) (positive : 0 < count)
    (full : n < owned.length + count) : f.allocate count = .ok (none, f) := by
  rcases allocate_spec marks small positive with refused | ⟨s, f', -, -, marks'⟩
  · exact refused
  · have le := marks'.length_le
    rw [List.length_append, List.length_range'] at le
    omega

end FreeMap

namespace FileBlocks

variable {m : Nat} {image : Image} {l : Layout} {others : List Nat} {b : FileBlocks m}

theorem Holds.used (holds : b.Holds image l others) :
    b.free.used = others.length + (8 * groupsFor l.count + indexFor l.count) := by
  rw [holds.marks.used, List.length_append, Layout.length_owned holds.stored.whole]

/-! ## The sectors for one more block -/

/-- How many sectors are taken for one more block. -/
def wanted (d : Inode) (place : Place) : Nat :=
  (if d.groupLeft = 0 then groupSize else 0) + ((needs d place).1.toNat + (needs d place).2.toNat)

/-- The sectors that are taken are those that a file with one block more needs. -/
theorem wanted_add {place : Place} (stored : l.Stored m b.disk image)
    (found : Place.of l.count = some place) :
    8 * groupsFor l.count + indexFor l.count + wanted b.disk place =
      8 * groupsFor (l.count + 1) + indexFor (l.count + 1) := by
  have group : (if b.disk.groupLeft = 0 then groupSize else 0) =
      8 * if l.count % 8 = 0 then 1 else 0 := by
    rw [stored.describes.groupLeft, Layout.left, groupSize]
    split <;> split <;> omega
  have as_number (P : Prop) [Decidable P] : (decide P).toNat = if P then 1 else 0 := by
    by_cases holds : P
    · rw [decide_eq_true holds, if_pos holds, Bool.toNat_true]
    · rw [decide_eq_false holds, if_neg holds, Bool.toNat_false]
  rw [wanted, group, needs_eq stored found, Layout.groupsFor_succ, Layout.indexFor_succ, as_number,
    as_number]
  omega

section

variable {S : Type} {c : Contract S} {state : S}
  {Q : Except Failure (Option Sector) → FileBlocks m → S → Prop}

theorem take_packed {count : Nat} (packed : b.free.Packed) (small : m ≤ 0x100000000)
    (positive : 0 < count) (room : b.free.used + count ≤ m)
    (taken : ∀ t free, t.index = b.free.used → free.Packed → free.used = b.free.used + count →
      Q (.ok (some t)) { b with free } state) :
    (take count : BlockAction m _).Under c b state Q := by
  obtain ⟨t, free, same, first, packed', used⟩ := packed.allocate small positive room
  simp only [take, Action.under_bind, Action.under_get, Action.then_ok]
  rw [same]
  exact taken t free first packed' used

theorem takeIf_packed {needed : Bool} (packed : b.free.Packed) (small : m ≤ 0x100000000)
    (room : b.free.used + needed.toNat ≤ m)
    (taken : ∀ o free, Option.isSome o = needed → free.Packed →
      free.used = b.free.used + needed.toNat → Q (.ok o) { b with free } state) :
    (takeIf needed : BlockAction m _).Under c b state Q := by
  cases needed with
  | false => exact taken none b.free rfl packed rfl
  | true =>
    exact take_packed packed small Nat.one_pos room fun t free _ packed' used =>
      taken (some t) free rfl packed' used

end

/-- Where as many sectors are left, all that one more block needs can be had. -/
theorem takeSectors_packed {Q : Except Failure (Sector × Nat × NewSectors × Bool) → FileBlocks m →
      Unit → Prop} {d : Inode} {place : Place} (packed : b.free.Packed) (small : m ≤ 0x100000000)
    (room : b.free.used + wanted d place ≤ m)
    (taken : ∀ data left r free, free.Packed → Q (.ok (data, left, r, true)) { b with free } ()) :
    (takeSectors d place : BlockAction m _).Under .anything b () Q := by
  unfold wanted at room
  have rest (next : Sector × Nat × Option Sector) {free : FreeMap m} (packed₁ : free.Packed)
      (used : free.used = b.free.used + if d.groupLeft = 0 then groupSize else 0) :
      (do
        let indirect ← takeIf (needs d place).1
        let doubly ← takeIf (needs d place).2
        return (next.1, next.2.1, { group := next.2.2, indirect, doubly },
          indirect.isSome == (needs d place).1 && doubly.isSome == (needs d place).2) :
        BlockAction m _).Under .anything { b with free } () Q := by
    rw [Action.under_bind]
    refine takeIf_packed packed₁ small (by dsimp only; omega) fun indirect free₁ one packed₂ used₁ => ?_
    rw [Action.then_ok, Action.under_bind]
    refine takeIf_packed packed₂ small (by dsimp only at used₁ ⊢; omega)
      fun doubly free₂ two packed₃ _ => ?_
    rw [Action.then_ok, Action.under_pure, one, two, beq_self_eq_true, beq_self_eq_true]
    exact taken _ _ _ free₂ packed₃
  unfold takeSectors nextSector
  rw [Action.under_bind]
  by_cases none_left : d.groupLeft = 0
  · rw [if_pos none_left] at room rest ⊢
    rw [Action.under_bind]
    refine take_packed packed small (by decide) (by omega) fun t free _ packed₁ used => ?_
    exact rest (t, groupSize, some t) packed₁ used
  · rw [if_neg none_left] at rest ⊢
    cases d.cursor with
    | none => trivial
    | some t => exact rest (t, d.groupLeft, none) packed rfl

/-! ## Files that have room -/

/-- One more block can be added where there is room for all its sectors. -/
theorem append_packed (holds : b.Holds image l others) (packed : b.free.Packed)
    (lt : l.count < maxBlocks)
    (room : others.length + (8 * groupsFor (l.count + 1) + indexFor (l.count + 1)) ≤ m) :
    (append : BlockAction m _).Ensures m False b image fun r b' image' => r = .ok () ∧
      b'.free.Packed ∧ ∃ l', Extended b b' image image' l l' others ∧ l'.count = l.count + 1 := by
  have stored := holds.stored
  obtain ⟨place, found⟩ := Place.exists_of lt
  have enough : b.free.used + wanted b.disk place ≤ m := by
    have wants := wanted_add stored found
    have used := holds.used
    omega
  have starts : (takeSectors b.disk place : BlockAction m _).Ensures m False b image
      fun taken b₁ image₁ => image₁ = image ∧ (taken = .error .noSpace ∨ ∃ r free enough,
        (enough = true → r.Suits l) ∧ free.Marks (r.sectors ++ (others ++ l.owned)) ∧
        b₁ = ⟨b.disk, free⟩ ∧
        taken = .ok (Sector.ofNat ((l.push r).block l.count), leftWith l, r, enough)) :=
    takeSectors_spec holds found ⟨rfl, .inl rfl⟩
      fun r free enough suits marks => ⟨rfl, .inr ⟨r, free, enough, suits, marks, rfl, rfl⟩⟩
  have works : (takeSectors b.disk place : BlockAction m _).Under .anything b ()
      fun taken b₁ _ => b₁.free.Packed ∧ ∃ data left r, taken = .ok (data, left, r, true) :=
    takeSectors_packed packed stored.small enough
      fun data left r free packed' => ⟨packed', data, left, r, rfl⟩
  simp only [append, Action.ensures_bind, Action.ensures_get, Action.onward_ok,
    stored.describes.blockCount stored.whole, found, appendAt_eq]
  refine (starts.and_anything works).mono ?_
  rintro taken b₁ image₁ ⟨⟨rfl, ends⟩, packed', data, left, r, rfl⟩
  obtain ends | ⟨r', free, enough', suits, marks, rfl, same⟩ := ends
  · cases ends
  · cases same
    obtain ⟨d', attached⟩ := attach_determined holds lt found (suits rfl) marks
    rw [Action.onward_ok]
    refine (attached image₁ holds).mono ?_
    rintro end_ b₂ image₂ ⟨rfl, rfl, extended⟩
    exact ⟨rfl, packed', _, extended, rfl⟩

/-- Many blocks can be added where there is room for all of them. -/
theorem appendMany_packed {count : Nat} (holds : b.Holds image l others) (packed : b.free.Packed)
    (le : l.count + count ≤ maxBlocks)
    (room : others.length + (8 * groupsFor (l.count + count) + indexFor (l.count + count)) ≤ m) :
    (appendMany count : BlockAction m _).Ensures m False b image fun r b' image' => r = .ok () ∧
      b'.free.Packed ∧ ∃ l', Extended b b' image image' l l' others ∧
        l'.count = l.count + count := by
  induction count generalizing b image l with
  | zero => exact ⟨rfl, packed, l, .refl holds, rfl⟩
  | succ count ih =>
    -- a shorter file needs no more
    have groups := Layout.groupsFor_mono (show l.count + 1 ≤ l.count + (count + 1) by omega)
    have index := Layout.indexFor_mono (show l.count + 1 ≤ l.count + (count + 1) by omega)
    rw [appendMany, Action.ensures_bind]
    refine (append_packed holds packed (by omega) (by omega)).mono ?_
    rintro r b₁ image₁ ⟨rfl, packed₁, l₁, extended, more⟩
    have rest : l₁.count + count = l.count + (count + 1) := by omega
    rw [Action.onward_ok]
    refine (ih extended.holds packed₁ (rest.trans_le le) (by rwa [rest])).mono ?_
    rintro r b₂ image₂ ⟨rfl, packed₂, l₂, extended₂, more₂⟩
    exact ⟨rfl, packed₂, l₂, extended.trans extended₂, more₂.trans rest⟩

theorem sectorsFor_le {length : Nat} (fits : length ≤ maxFileBytes) :
    sectorsFor length ≤ maxBlocks := by
  have limit : maxFileBytes = 8460288 := rfl
  rw [sectorsFor, maxBlocks_eq]
  omega

/-- A file can grow where there is room for all its blocks. -/
theorem growTo_packed {length : Nat} (holds : b.Holds image l others) (packed : b.free.Packed)
    (fits : length ≤ maxFileBytes)
    (room : others.length + (8 * groupsFor (max l.count (sectorsFor length)) +
      indexFor (max l.count (sectorsFor length))) ≤ m) :
    (growTo length : BlockAction m _).Ensures m False b image fun r b' _ => r = .ok () ∧
      b'.free.Packed ∧ b'.free.used = others.length +
        (8 * groupsFor (max l.count (sectorsFor length)) +
          indexFor (max l.count (sectorsFor length))) := by
  have blocks : l.count + (sectorsFor length - l.count) = max l.count (sectorsFor length) := by omega
  have le := holds.stored.whole.le
  have le' := sectorsFor_le fits
  simp only [growTo, Action.ensures_bind, Action.ensures_ensure, decide_eq_true fits, if_true,
    Action.onward_ok, Action.ensures_get, holds.stored.describes.blockCount holds.stored.whole]
  refine Action.Ensures.onFailure
    (appendMany_packed holds packed (by omega) (blocks.symm ▸ room)) ?_ ?_
  · rintro a b' image' ⟨-, packed', l', extended, more⟩
    have used := extended.holds.used
    rw [more, blocks] at used
    rw [Action.onward_ok]
    exact lengthen_spec fits ⟨rfl, packed', used⟩
  · rintro e b' image' ⟨failed, -⟩
    cases failed

/-! ## Files that have none -/

/-- The block that begins a group cannot be had where no group is left. -/
theorem append_refused {mayFail : Prop} {Q : Except Failure Unit → FileBlocks m → Image → Prop}
    (stored : l.Stored m b.disk image) (lt : l.count < maxBlocks) (begins : l.count % 8 = 0)
    (none_free : b.free.allocate groupSize = .ok (none, b.free))
    (full : Q (.error .noSpace) b image) :
    (append : BlockAction m _).Ensures m mayFail b image Q := by
  obtain ⟨place, found⟩ := Place.exists_of lt
  have left : b.disk.groupLeft = 0 := by
    rw [stored.describes.groupLeft, Layout.left]
    omega
  simp [append, stored.describes.blockCount stored.whole, found, appendAt, nextSector, left, take,
    none_free, full]

theorem appendMany_add (k n : Nat) :
    (appendMany (k + n) : BlockAction m _) = appendMany k >>= fun _ => appendMany n := by
  induction k with
  | zero => rw [Nat.zero_add, appendMany, pure_bind]
  | succ k ih => rw [Nat.succ_add, appendMany, ih, appendMany, bind_assoc]

/-- A file that has room for `k` blocks, but not for the group that comes next, does not grow beyond
them. They were there for a while: what they held is lost. -/
theorem growTo_refused {length k : Nat} (holds : b.Holds image l others) (packed : b.free.Packed)
    (fits : length ≤ maxFileBytes) (le : l.count ≤ k) (begins : k % 8 = 0)
    (more : k < sectorsFor length)
    (room : others.length + (8 * groupsFor k + indexFor k) ≤ m)
    (full : m < others.length + (8 * groupsFor k + indexFor k) + groupSize) :
    (growTo length : BlockAction m _).Ensures m False b image fun r _ image' =>
      r = .error .noSpace ∧ ∃ b₁ l', b₁.free.Packed ∧ Extended b b₁ image image' l l' others ∧
        l'.count = k := by
  have most := sectorsFor_le fits
  have blocks : l.count + (k - l.count) = k := by omega
  obtain ⟨rest, parts⟩ : ∃ rest, sectorsFor length - l.count = (k - l.count) + (rest + 1) :=
    ⟨sectorsFor length - k - 1, by omega⟩
  simp only [growTo, Action.ensures_bind, Action.ensures_ensure, decide_eq_true fits, if_true,
    Action.onward_ok, Action.ensures_get, holds.stored.describes.blockCount holds.stored.whole]
  rw [parts, appendMany_add]
  refine Action.Ensures.onFailure (P := fun r b' image' => r = .error .noSpace ∧
    ∃ l', b'.free.Packed ∧ Extended b b' image image' l l' others ∧ l'.count = k) ?_ ?_ ?_
  · rw [Action.ensures_bind]
    refine (appendMany_packed holds packed (by omega) (blocks.symm ▸ room)).mono ?_
    rintro r b' image' ⟨rfl, packed', l', extended, count⟩
    rw [blocks] at count
    have none_free : b'.free.allocate groupSize = .ok (none, b'.free) := by
      refine extended.holds.marks.refuses holds.stored.small (by decide) ?_
      rwa [← extended.holds.marks.used, extended.holds.used, count]
    rw [Action.onward_ok, appendMany, Action.ensures_bind]
    refine append_refused extended.holds.stored (by omega) (by omega) none_free ?_
    exact ⟨rfl, l', packed', extended, count⟩
  · rintro a b' image' ⟨failed, -⟩
    cases failed
  · rintro e b' image' ⟨failed, l', packed', extended, count⟩
    cases failed
    rw [Action.ensures_ignoreError]
    exact trimTo_spec extended.holds extended.le
      (fun _ _ => ⟨rfl, b', l', packed', extended, count⟩) False.elim

/-- Where a file has taken all that was left, and has no index block, all of it was cleared. -/
theorem Extended.cleared {b₁ : FileBlocks m} {image' : Image} {l' : Layout}
    (extended : Extended b b₁ image image' .nothing l' others) (packed : b₁.free.Packed)
    (full : b₁.free.used = m) (groups : l'.count % 8 = 0) (direct : l'.count ≤ 12) {t : Nat}
    (inside : t < m) (other : t ∉ others) : image' t = Block.zero 512 := by
  have whole := extended.holds.stored.whole
  have used := (packed.inUse inside).2 (inside.trans_eq full.symm)
  rw [extended.holds.marks.inUse inside, List.mem_append, or_iff_right other] at used
  have bare : l'.index = [] := by
    rw [← List.length_eq_zero_iff, Layout.length_index whole, indexFor, if_pos direct]
  rw [Layout.owned, bare, List.append_nil, List.mem_iff_getElem?] at used
  obtain ⟨i, at_i⟩ := used
  have short := (List.getElem?_eq_some_iff.1 at_i).1
  rw [Layout.length_data, whole.groups, groupsFor] at short
  have block : i < l'.count := by omega
  rw [Layout.data_getElem? (Layout.lt_of_whole whole block)] at at_i
  exact Option.some.inj at_i ▸ extended.zeros i (Nat.zero_le _) block

end FileBlocks

end SectorFs
