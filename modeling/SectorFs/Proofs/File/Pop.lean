/-
# SectorFs.Proofs.File.Pop — taking the last block of a file away

`pop_spec`: the layout is trimmed by one block, and the sectors that the file
does not need any more are free. A pop writes no sector, and one that fails has
changed nothing. It asks for sectors only where index blocks lead to the last
block, which is so from the thirteenth block on.
-/
import SectorFs.Proofs.File.Append

namespace SectorFs

set_option autoImplicit false

variable {m : Nat} {mayFail : Prop} {image : Image} {l : Layout} {d : Inode}
  {others rest : List Nat}

namespace Layout

variable {n : Nat}

/-- The group that is whole again when the file has only `n` blocks left. -/
def lastGroup (l : Layout) (n : Nat) : List Nat :=
  if n % 8 = 0 then List.range' (l.block n) 8 else []

theorem data_trim (whole : l.Whole) (count : l.count = n + 1) :
    l.data = (l.trim n).data ++ l.lastGroup n := by
  have length := whole.groups
  rw [count, groupsFor] at length
  by_cases first : n % 8 = 0
  · have here : groupsFor n = n / 8 := by
      unfold groupsFor
      omega
    obtain ⟨g, found⟩ : ∃ g, l.groups[n / 8]? = some g :=
      ⟨_, List.getElem?_eq_getElem (by omega)⟩
    have split : l.groups = l.groups.take (n / 8) ++ [g] := by
      have all := List.take_of_length_le (show l.groups.length ≤ n / 8 + 1 by omega)
      rw [List.take_add_one, found] at all
      exact all.symm
    rw [lastGroup, if_pos first, data, data, trim, here, block, found, first]
    conv_lhs => rw [split]
    simp
  · have all : l.groups.take (groupsFor n) = l.groups :=
      List.take_of_length_le (by rw [length, groupsFor]; omega)
    rw [lastGroup, if_neg first, List.append_nil, data, data, trim, all]

/-- What the inode says of the group of its last block when that is taken away. -/
theorem next_trim : (l.trim n).next = if n % 8 = 0 then none else some (l.block n) := by
  have left : (l.trim n).left = 0 ↔ n % 8 = 0 := by
    change (8 - n % 8) % 8 = 0 ↔ _
    omega
  rw [next]
  by_cases first : n % 8 = 0
  · rw [if_pos first, if_pos (left.2 first)]
  · rw [if_neg first, if_neg (mt left.1 first)]
    change some ((l.trim n).block n) = _
    rw [block_trim_group]
    unfold groupsFor
    omega

theorem indirect_trim (whole : l.Whole) (count : l.count = n + 1) (other : n ≠ 12) :
    (l.trim n).indirect = l.indirect := by
  simp only [trim]
  split
  · rfl
  · exact (eq_none_of_iff whole.indirect (by omega)).symm

theorem doubly_trim (whole : l.Whole) (count : l.count = n + 1) (other : n ≠ 140) :
    (l.trim n).doubly = l.doubly := by
  simp only [trim]
  split
  · rfl
  · exact (eq_none_of_iff whole.doubly (by omega)).symm

theorem inner_trim (whole : l.Whole) (count : l.count = n + 1)
    (other : n < 140 ∨ (n - 140) % 128 ≠ 0) : (l.trim n).inner = l.inner := by
  refine List.take_of_length_le ?_
  rw [whole.inner, count]
  unfold innerFor
  omega

/-- A pointer of the inode stays unless it is the one to the block or to an index block. -/
theorem pointer_trim (count : l.count = n + 1) {slot : Nat} (direct : slot < 12 → slot ≠ n)
    (one : slot = 12 → (l.trim n).indirect = l.indirect)
    (two : slot = 13 → (l.trim n).doubly = l.doubly) :
    (l.trim n).pointer slot = l.pointer slot := by
  simp only [pointer]
  split
  · have := direct (by assumption)
    change (if slot < n then _ else _) = _
    by_cases old : slot < n
    · rw [if_pos old, if_pos (by omega), block_trim old]
    · rw [if_neg old, if_neg (by omega)]
  · split
    · rw [one (by assumption)]
    · split
      · rw [two (by assumption)]
      · rfl

end Layout

namespace FileBlocks

open Layout

variable {b : FileBlocks m} {n : Nat}

/-- The inode with its last group as it is when only `n` blocks are left. -/
def regrouped (l : Layout) (d : Inode) (n : Nat) : Inode :=
  { d with
    leftWord := UInt32.ofNat (l.trim n).left
    cursorWord := UInt32.ofNat ((l.trim n).next.getD 0) }

theorem checkCursor_eq (stored : l.Stored m b.disk image) (count : l.count = n + 1)
    (cursor : d.cursor = b.disk.cursor) :
    checkCursor d (Sector.ofNat (l.block n)) = .ok () := by
  rw [checkCursor, cursor, stored.describes.cursor stored.whole stored.proper, Layout.next]
  split
  case h_1 => rfl
  case h_2 next found =>
    split at found
    · cases found
    case isFalse more =>
      have own := stored.inside _ (next_mem_owned stored.whole more)
      have small := stored.small
      have following : l.block l.count = l.block n + 1 := by
        unfold Layout.left at more
        have group : (n + 1) / 8 = n / 8 := by omega
        rw [count, block, block, group]
        omega
      cases found
      rw [Sector.offset_one (by omega), following]
      exact if_pos rfl

theorem regroup_spec {Q : Except Failure Inode → FileBlocks m → Image → Prop}
    (stored : l.Stored m b.disk image) (count : l.count = n + 1)
    (cursor : d.cursor = b.disk.cursor) (left : d.groupLeft = b.disk.groupLeft)
    (marks : b.free.Marks (l.lastGroup n ++ rest))
    (ok : ∀ free, free.Marks rest → Q (.ok (regrouped l d n)) { b with free } image) :
    (regroup d (Sector.ofNat (l.block n)) : BlockAction m _).Ensures m mayFail b image Q := by
  have own := stored.index_ofNat (block_mem_owned (i := n)
    (lt_of_whole stored.whole (by omega)))
  have left_eq : l.left = (8 - (n + 1) % 8) % 8 := by rw [Layout.left, count]
  have next := next_trim (l := l) (n := n)
  unfold regroup
  rw [checkCursor_eq stored count cursor, left, stored.describes.groupLeft, Action.ensures_bind,
    Action.ensures_check_ok, Action.onward_ok]
  by_cases first : n % 8 = 0
  · have whole : l.left + 1 = groupSize := by
      rw [left_eq, groupSize]
      omega
    rw [if_pos whole, Action.ensures_bind]
    rw [lastGroup, if_pos first, ← own] at marks
    refine give_spec marks stored.small (by decide) fun free marks' => ?_
    have := ok free marks'
    rw [regrouped, next, if_pos first] at this
    rw [Action.onward_ok, Inode.withGroupLeft_eq (by decide)]
    have none : (l.trim n).left = 0 := by
      change (8 - n % 8) % 8 = 0
      omega
    rw [none] at this
    exact this
  · have more : l.left + 1 = (l.trim n).left := by
      rw [left_eq]
      change _ = (8 - n % 8) % 8
      omega
    have small : (l.trim n).left < 8 := left_lt
    rw [if_neg (by rw [more, groupSize]; omega), more, Inode.withGroupLeft_eq (by omega)]
    rw [lastGroup, if_neg first] at marks
    have := ok b.free marks
    rw [regrouped, next, if_neg first] at this
    exact this

/-! ## Index blocks that are not needed any more -/

/-- The pointers of an inode without those to the index blocks of a list. -/
def cleared (pointers : Vector UInt32 15) : List (Option (Fin 15) × Sector) → Vector UInt32 15
  | [] => pointers
  | (none, _) :: emptied => cleared pointers emptied
  | (some slot, _) :: emptied => cleared (pointers.setIfInBounds slot 0) emptied

theorem giveIndexes_spec {Q : Except Failure Inode → FileBlocks m → Image → Prop}
    {emptied : List (Option (Fin 15) × Sector)} (small : m ≤ 0x100000000)
    (marks : b.free.Marks (emptied.map (fun e => e.2.index) ++ rest))
    (ok : ∀ free, free.Marks rest →
      Q (.ok { d with pointers := cleared d.pointers emptied }) { b with free } image) :
    (emptied.foldlM giveIndex d : BlockAction m _).Ensures m mayFail b image Q := by
  induction emptied generalizing b d with
  | nil => exact ok b.free marks
  | cons e emptied ih =>
    obtain ⟨slot, s⟩ := e
    rw [List.foldlM_cons, Action.ensures_bind, giveIndex, Action.ensures_bind]
    refine give_spec marks small Nat.one_pos fun free marks' => ?_
    cases slot with
    | none => exact ih marks' ok
    | some slot =>
      refine ih marks' fun free' marks'' => ?_
      have same : (d.withPointer slot none).pointers = d.pointers.setIfInBounds slot 0 := by
        apply Vector.ext
        intro i h
        rw [Inode.withPointer, Vector.getElem_set, Vector.getElem_setIfInBounds]
        rfl
      rw [same]
      exact ok free' marks''

/-- What `emptied` says about a file that has `n + 1` blocks and gets `n`. -/
structure Empties (l : Layout) (n : Nat) (pointers : Vector UInt32 15)
    (emptied : List (Option (Fin 15) × Sector)) : Prop where
  index : l.index.Perm (emptied.map (fun e => e.2.index) ++ (l.trim n).index)
  pointers {slot : Nat} : slot < 15 →
    (cleared pointers emptied)[slot]? = some (UInt32.ofNat ((l.trim n).pointer slot))

/-- A file with one block less. -/
structure Popped (b b' : FileBlocks m) (image : Image) (l : Layout) (others : List Nat) :
    Prop where
  holds : b'.Holds image (l.trim (l.count - 1)) others
  bare : b'.disk.bare = b.disk.bare

theorem popRest_spec {Q : Except Failure Unit → FileBlocks m → Image → Prop}
    {emptied : List (Option (Fin 15) × Sector)} (holds : b.Holds image l others)
    (count : l.count = n + 1) (same : { d with pointers := b.disk.pointers } = b.disk)
    (empties : Empties l n d.pointers emptied)
    (ok : ∀ b', Popped b b' image l others → Q (.ok ()) b' image) :
    (do let d ← regroup d (Sector.ofNat (l.block n))
        let d ← emptied.foldlM giveIndex d
        setDisk (d.withBlockCount n) : BlockAction m _).Ensures m mayFail b image Q := by
  have stored := holds.stored
  have whole := stored.whole
  have le := whole.le
  rw [maxBlocks_eq] at le
  have marks : b.free.Marks (l.lastGroup n ++ (emptied.map (fun e => e.2.index) ++
      (others ++ (l.trim n).owned))) := by
    refine holds.marks.perm (List.perm_iff_count.2 fun s => ?_)
    have := List.perm_iff_count.1 empties.index s
    rw [owned, data_trim whole count, owned]
    simp only [List.count_append] at this ⊢
    omega
  have cursor : d.cursor = b.disk.cursor := by rw [← same]; rfl
  have left : d.groupLeft = b.disk.groupLeft := by rw [← same]; rfl
  have bare : d.bare = b.disk.bare := by rw [← same]; rfl
  rw [Action.ensures_bind]
  refine regroup_spec stored count cursor left marks fun free marks₁ => ?_
  rw [Action.onward_ok, Action.ensures_bind]
  refine giveIndexes_spec stored.small marks₁ fun free' marks₂ => ?_
  rw [Action.onward_ok]
  refine setDisk_spec (Inode.withBlockCount_eq (by omega) _) (ok _ ?_)
  have shorter : l.count - 1 = n := by omega
  refine ⟨?_, ?_⟩
  · rw [shorter]
    refine .of (trim_whole whole (by omega)) ⟨rfl, rfl, rfl, empties.pointers⟩
      (stored.indexed.trim (by omega)) marks₂ holds.reserved stored.small
  · exact bare

theorem empties_direct (whole : l.Whole) (describes : l.Describes d) (count : l.count = n + 1)
    (i : Fin 12) (at_place : n = i.val) :
    Empties l n (d.withPointer (Inode.directPointer i) none).pointers [] where
  index := by
    rw [Layout.index, Layout.index, indirect_trim whole count (by omega),
      doubly_trim whole count (by omega), inner_trim whole count (by omega)]
    exact .refl _
  pointers {slot} h := by
    rw [cleared, Inode.getElem?_withPointer]
    split
    case isTrue same =>
      have same : slot = n := same.trans at_place.symm
      rw [pointer, if_pos (by omega), if_neg (by rw [same]; exact Nat.lt_irrefl n)]
      rfl
    case isFalse other =>
      rw [describes.pointers h, pointer_trim count (fun _ same => other (same.trans at_place))
        (fun _ => indirect_trim whole count (by omega))
        (fun _ => doubly_trim whole count (by omega))]

/-- Nothing is emptied where other blocks still need every index block. -/
theorem empties_none (whole : l.Whole) (describes : l.Describes d) (count : l.count = n + 1)
    (many : 12 < n) (inner : n < 140 ∨ (n - 140) % 128 ≠ 0) : Empties l n d.pointers [] where
  index := by
    rw [Layout.index, Layout.index, indirect_trim whole count (by omega),
      doubly_trim whole count (by omega), inner_trim whole count inner]
    exact .refl _
  pointers {slot} h := by
    rw [cleared, describes.pointers h, pointer_trim count (by omega)
      (fun _ => indirect_trim whole count (by omega))
      (fun _ => doubly_trim whole count (by omega))]

theorem getElem?_clear (pointers : Vector UInt32 15) (changed : Fin 15) (slot : Nat) :
    (pointers.setIfInBounds changed 0)[slot]? =
      if slot = changed then some 0 else pointers[slot]? := by
  rw [Vector.getElem?_setIfInBounds, if_pos changed.isLt]
  exact if_congr eq_comm rfl rfl

theorem empties_indirect (whole : l.Whole) (describes : l.Describes d) (count : l.count = n + 1)
    (first : n = 12) {t : Sector} (named : l.indirect = some t.index) :
    Empties l n d.pointers [(some indirectPointer, t)] where
  index := by
    subst first
    have gone : (l.trim 12).indirect = none := rfl
    rw [Layout.index, Layout.index, gone, named, doubly_trim whole count (by omega),
      inner_trim whole count (by omega)]
    exact .refl _
  pointers {slot} h := by
    rw [cleared, cleared, getElem?_clear]
    split
    case isTrue same =>
      obtain rfl : slot = 12 := same
      subst first
      rfl
    case isFalse other =>
      rw [describes.pointers h, pointer_trim count (by omega) (fun same => absurd same other)
        (fun _ => doubly_trim whole count (by omega))]

theorem inner_concat (whole : l.Whole) (count : l.count = n + 1) {o : Nat}
    (first : n = 140 + 128 * o) {u : Nat} (named : l.inner[o]? = some u) :
    l.inner = (l.trim n).inner ++ [u] := by
  have here : innerFor n = o := by
    unfold innerFor
    omega
  have length := whole.inner
  rw [count, innerFor] at length
  have all := List.take_of_length_le (show l.inner.length ≤ o + 1 by omega)
  rw [List.take_add_one, named] at all
  rw [trim, here]
  exact all.symm

theorem empties_inner (whole : l.Whole) (describes : l.Describes d) (count : l.count = n + 1)
    {o : Nat} (first : n = 140 + 128 * o) (later : o ≠ 0) {u : Sector}
    (named : l.inner[o]? = some u.index) : Empties l n d.pointers [(none, u)] where
  index := by
    rw [Layout.index, Layout.index, indirect_trim whole count (by omega),
      doubly_trim whole count (by omega), inner_concat whole count first named,
      ← List.append_assoc]
    exact List.perm_append_comm
  pointers {slot} h := by
    rw [cleared, cleared, describes.pointers h, pointer_trim count (by omega)
      (fun _ => indirect_trim whole count (by omega))
      (fun _ => doubly_trim whole count (by omega))]

theorem empties_doubly (whole : l.Whole) (describes : l.Describes d) (count : l.count = n + 1)
    (first : n = 140) {s u : Sector} (named : l.doubly = some s.index)
    (named' : l.inner[0]? = some u.index) :
    Empties l n d.pointers [(none, u), (some doublyPointer, s)] where
  index := by
    have gone : (l.trim n).doubly = none := by rw [first]; rfl
    rw [Layout.index, Layout.index, indirect_trim whole count (by omega), gone, named,
      inner_concat whole count first named']
    refine List.perm_iff_count.2 fun x => ?_
    simp only [List.count_append, List.map_cons, List.map_nil, Option.toList_some,
      Option.toList_none, List.count_cons, List.count_nil]
    omega
  pointers {slot} h := by
    rw [cleared, cleared, cleared, getElem?_clear]
    split
    case isTrue same =>
      obtain rfl : slot = 13 := same
      subst first
      rfl
    case isFalse other =>
      rw [describes.pointers h, pointer_trim count (by omega)
        (fun _ => indirect_trim whole count (by omega)) (fun same => absurd same other)]

theorem popAt_spec {Q : Except Failure Unit → FileBlocks m → Image → Prop} {place : Place}
    (holds : b.Holds image l others) (count : l.count = n + 1) (found : Place.of n = some place)
    (ok : ∀ b', Popped b b' image l others → Q (.ok ()) b' image)
    (io : mayFail → 12 < l.count → Q (.error .io) b image) :
    (popAt b.disk place : BlockAction m _).Ensures m mayFail b image Q := by
  have stored := holds.stored
  have whole := stored.whole
  have describes := stored.describes
  have inside : n < l.count := by omega
  have last : b.disk.blockCount - 1 = n := by
    rw [describes.blockCount whole]
    omega
  have own := block_mem_owned (lt_of_whole whole inside)
  have at_place := Place.of_eq found
  unfold popAt lastSector
  rw [last]
  cases place with
  | direct i =>
    change n = i.val at at_place
    have pointer := describes.direct whole stored.proper i (by omega)
    rw [← at_place] at pointer
    simp only [pointer]
    exact popRest_spec holds count rfl (empties_direct whole describes count i at_place) ok
  | indirect i =>
    change n = 12 + i.val at at_place
    subst at_place
    obtain ⟨t, named⟩ := stored.indirect_of_block inside
    have mem := mem_index.2 (.inl named)
    simp only [describes.indirect stored.proper, named, Option.map_some, Action.ensures_bind]
    refine readPointer_spec stored mem own (stored.indexed.indirect named i.isLt inside) ?_
      fun may => io may (by omega)
    by_cases first : i.val = 0
    · simp only [Action.onward_ok, Action.ensures_pure, if_pos first]
      have index := stored.index_ofNat (index_mem_owned mem)
      exact popRest_spec holds count rfl
        (empties_indirect whole describes count (by omega) (by rw [named, index])) ok
    · simp only [Action.onward_ok, Action.ensures_pure, if_neg first]
      exact popRest_spec holds count rfl
        (empties_none whole describes count (by omega) (by omega)) ok
  | doubly o i =>
    change n = 140 + 128 * o.val + i.val at at_place
    subst at_place
    obtain ⟨s, t, named, named'⟩ := stored.inner_of_block inside
    have mem := mem_index.2 (.inr (.inl named))
    have mem' := mem_index.2 (.inr (.inr ⟨_, named'⟩))
    simp only [describes.doubly stored.proper, named, Option.map_some, Action.ensures_bind]
    refine readPointer_spec stored mem (index_mem_owned mem')
      (stored.indexed.doubly named named') ?_ fun may => io may (by omega)
    simp only [Action.onward_ok, Action.ensures_bind]
    refine readPointer_spec stored mem' own (stored.indexed.inner named' i.isLt inside) ?_
      fun may => io may (by omega)
    have index := stored.index_ofNat (index_mem_owned mem)
    have index' := stored.index_ofNat (index_mem_owned mem')
    by_cases first : i.val = 0
    · by_cases top : o.val = 0
      · rw [top] at named'
        simp only [Action.onward_ok, Action.ensures_pure, if_pos first, if_pos top]
        exact popRest_spec holds count rfl
          (empties_doubly whole describes count (by omega) (by rw [named, index])
            (by rw [named', index'])) ok
      · simp only [Action.onward_ok, Action.ensures_pure, if_pos first, if_neg top]
        exact popRest_spec holds count rfl
          (empties_inner whole describes count (by omega) top (by rw [named', index'])) ok
    · simp only [Action.onward_ok, Action.ensures_pure, if_neg first]
      exact popRest_spec holds count rfl
        (empties_none whole describes count (by omega) (by omega)) ok

/-- Taking the last block away trims the layout, or does nothing. -/
theorem pop_spec {Q : Except Failure Unit → FileBlocks m → Image → Prop}
    (holds : b.Holds image l others) (some : 0 < l.count)
    (ok : ∀ b', Popped b b' image l others → Q (.ok ()) b' image)
    (io : mayFail → 12 < l.count → Q (.error .io) b image) :
    (pop : BlockAction m _).Ensures m mayFail b image Q := by
  have count := holds.stored.describes.blockCount holds.stored.whole
  have le := holds.stored.whole.le
  obtain ⟨place, found⟩ := Place.exists_of (show l.count - 1 < maxBlocks by omega)
  unfold pop
  simp only [Action.ensures_bind, Action.ensures_get, Action.onward_ok, Action.ensures_require,
    count, decide_eq_true_eq, found]
  exact ⟨some, popAt_spec holds (by omega) found ok io⟩

end FileBlocks

end SectorFs
