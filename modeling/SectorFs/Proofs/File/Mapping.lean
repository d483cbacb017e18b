/-
# SectorFs.Proofs.File.Mapping — the block map of a file among others

`Among b store others`: the states of a file that is changed from a new inode on,
while others take sectors from the same free map, give them back and write to
them; `others` are the sectors that they have, and sector 0 is always one of
them. A change may fail for want of space or because a request failed.

`Mapped b store others blocks` says what such a file looks like: block `i` is
found in the `i`-th sector of `blocks`, and inode, index blocks and free map are
what these blocks need. Every such file is mapped, and a change adds blocks at
the end or takes blocks from the end (`Change.Ends`), so that the others stay
where they are (`mapped_among`). What a change does is told of the layout by its
specification; the list is read off the layout (`Layout.sectors`).
-/
import SectorFs.Proofs.File.Retry

namespace SectorFs

set_option autoImplicit false

variable {m : Nat} {image : Image} {l l' : Layout} {others : List Nat}

/-! ## The sectors of the blocks -/

/-- The sectors of the blocks, in order. -/
def Layout.sectors (l : Layout) : List Sector :=
  (List.range l.count).map fun i => Sector.ofNat (l.block i)

namespace Layout

@[simp] theorem length_sectors (l : Layout) : l.sectors.length = l.count := by
  simp [sectors]

theorem getElem?_sectors (l : Layout) (i : Nat) :
    l.sectors[i]? = if i < l.count then some (Sector.ofNat (l.block i)) else none := by
  rw [sectors, List.getElem?_map]
  split
  case isTrue inside => rw [List.getElem?_range inside, Option.map_some]
  case isFalse beyond => rw [List.getElem?_eq_none (by simpa using beyond), Option.map_none]

theorem sectors_trim {n : Nat} (le : n ≤ l.count) : (l.trim n).sectors = l.sectors.take n := by
  apply List.ext_getElem?
  intro i
  rw [getElem?_sectors, List.getElem?_take, getElem?_sectors]
  change (if i < n then _ else _) = _
  split
  case isTrue inside => rw [if_pos (by omega), block_trim inside]
  case isFalse => rfl

/-- A layout that is the old one again when it is trimmed has its new blocks at the end. -/
theorem sectors_of_trim (trim : l'.trim l.count = l) (le : l.count ≤ l'.count) :
    ∃ more, l'.sectors = l.sectors ++ more ∧ more.length = l'.count - l.count := by
  have old := sectors_trim le
  rw [trim] at old
  refine ⟨l'.sectors.drop l.count, ?_, by simp⟩
  rw [old, List.take_append_drop]

end Layout

namespace FileBlocks

variable {b b' : FileBlocks m} {store store' : PlainStore m}

/-! ## What a mapped file looks like -/

/-- The blocks of a file are in the sectors of a list, which no one else has, and inode, index blocks
and free map are what they need. -/
structure Mapped (b : FileBlocks m) (store : PlainStore m) (others : List Nat)
    (blocks : List Sector) : Prop where
  count : b.disk.blockCount = blocks.length
  found {i : Nat} {t : Sector} : blocks[i]? = some t → b.disk.Locates (store.withOutages []) i t
  beyond {i : Nat} : blocks.length ≤ i → ∃ after, (b.disk.sectorOfBlock i : Action Unit _).run ()
    (store.withOutages []) = .ok ((.ok none, ()), after)
  nonzero {t : Sector} : t ∈ blocks → t.index ≠ 0
  /-- The sectors in use are those of the others, of the blocks, what is left of the last group, and
  the index blocks, each of them once. -/
  marks : b.free.Marks (others ++ (blocks.map Sector.index ++
    List.range' b.disk.cursorWord.toNat b.disk.groupLeft ++ indexIn store.image b.disk))
  /-- Eight blocks of a group are in a row. -/
  row {i : Nat} {s t : Sector} : blocks[i]? = some s → blocks[i + 1]? = some t →
    (i + 1) % 8 ≠ 0 → t.index = s.index + 1
  left : b.disk.groupLeft = (8 - blocks.length % 8) % 8
  noCursor : b.disk.groupLeft = 0 → b.disk.cursor = none
  /-- The next sector is the one after the last block. -/
  cursor : 0 < b.disk.groupLeft → ∃ last next, blocks.getLast? = some last ∧
    b.disk.cursor = some next ∧ next.index = last.index + 1
  indirect : (b.disk.pointer indirectPointer).isSome ↔ 12 < blocks.length
  doubly : (b.disk.pointer doublyPointer).isSome ↔ 140 < blocks.length
  triply : b.disk.pointer triplyPointer = none
  direct {i : Fin 12} : blocks.length ≤ i.val → b.disk.pointer (Inode.directPointer i) = none

/-- Where no request fails no block is found beyond the last one. -/
theorem beyond_withOutages {d : Inode} {i : Nat} (stored : l.Stored m d store.image)
    (beyond : l.count ≤ i) : ∃ after, (d.sectorOfBlock i : Action Unit _).run ()
      (store.withOutages []) = .ok ((.ok none, ()), after) := by
  have nothing : (d.sectorOfBlock i : Action Unit _).Ensures m False () store.image
      fun r _ _ => r = .ok none := sectorOfBlock_beyond stored beyond rfl
  obtain ⟨r, memory, after, ran, rfl⟩ := PlainStore.exists_run (p := store.withOutages [])
    (fun some => some rfl) nothing
  exact ⟨after, ran⟩

/-- The sectors of a layout, read off the list of the blocks, the inode and its index blocks. -/
theorem owned_eq_sectors (stored : l.Stored m b.disk image) :
    l.sectors.map Sector.index ++ List.range' b.disk.cursorWord.toNat b.disk.groupLeft ++
      indexIn image b.disk = l.owned := by
  have blocks : l.sectors.map Sector.index =
      (List.range b.disk.blockCount).map (blockIn image b.disk) := by
    rw [Layout.sectors, List.map_map, stored.describes.blockCount stored.whole]
    refine List.map_congr_left fun i inside => ?_
    rw [List.mem_range] at inside
    have own := Layout.block_mem_owned (Layout.lt_of_whole stored.whole inside)
    exact (stored.index_ofNat own).trans (stored.blockIn_eq inside).symm
  rw [blocks, stored.data_eq, stored.indexIn_eq]
  rfl

/-- The sector of a block on the disk. -/
theorem index_ofNat_block {i : Nat} (stored : l.Stored m b.disk image) (inside : i < l.count) :
    (Sector.ofNat (l.block i)).index = l.block i :=
  stored.index_ofNat (Layout.block_mem_owned (Layout.lt_of_whole stored.whole inside))

theorem block_of_sectors {i : Nat} {t : Sector} (named : l.sectors[i]? = some t) :
    i < l.count ∧ t = Sector.ofNat (l.block i) := by
  rw [Layout.getElem?_sectors] at named
  split at named
  case isTrue inside => exact ⟨inside, (Option.some.inj named).symm⟩
  case isFalse => cases named

/-- A group that is not full goes on behind the last block. -/
theorem cursor_of_left (stored : l.Stored m b.disk image) (more : l.left ≠ 0) :
    ∃ last next, l.sectors.getLast? = some last ∧ b.disk.cursor = some next ∧
      next.index = last.index + 1 := by
  have some_blocks : 0 < l.count := by
    unfold Layout.left at more
    omega
  have inside : l.count - 1 < l.count := by omega
  refine ⟨Sector.ofNat (l.block (l.count - 1)), Sector.ofNat (l.block l.count), ?_, ?_, ?_⟩
  · rw [List.getLast?_eq_getElem?, Layout.length_sectors, Layout.getElem?_sectors, if_pos inside]
  · rw [stored.describes.cursor stored.whole stored.proper, Layout.next, if_neg more,
      Option.map_some]
  · have following : l.count - 1 + 1 = l.count := by omega
    have same_group : (l.count - 1 + 1) % 8 ≠ 0 := by
      unfold Layout.left at more
      omega
    rw [stored.index_ofNat (Layout.next_mem_owned stored.whole more),
      index_ofNat_block stored inside, ← Layout.block_succ same_group, following]

theorem mapped_of_holds (holds : b.Holds store.image l others) :
    Mapped b store others l.sectors := by
  have stored := holds.stored
  have whole := stored.whole
  have describes := stored.describes
  exact {
    count := by rw [describes.blockCount whole, Layout.length_sectors]
    found := fun named => by
      obtain ⟨inside, rfl⟩ := block_of_sectors named
      exact locates_withOutages stored inside
    beyond := fun after => beyond_withOutages stored (by rwa [Layout.length_sectors] at after)
    nonzero := fun mem => by
      obtain ⟨i, named⟩ := List.mem_iff_getElem?.1 mem
      obtain ⟨inside, rfl⟩ := block_of_sectors named
      rw [index_ofNat_block stored inside]
      exact (stored.proper _ (Layout.block_mem_owned (Layout.lt_of_whole whole inside))).1
    marks := by
      rw [owned_eq_sectors stored]
      exact holds.marks
    row := fun first second same => by
      obtain ⟨inside, rfl⟩ := block_of_sectors first
      obtain ⟨inside', rfl⟩ := block_of_sectors second
      rw [index_ofNat_block stored inside, index_ofNat_block stored inside',
        Layout.block_succ same]
    left := by rw [describes.groupLeft, Layout.length_sectors, Layout.left]
    noCursor := fun none => by
      rw [describes.groupLeft] at none
      rw [describes.cursor whole stored.proper, Layout.next, if_pos none, Option.map_none]
    cursor := fun more => by
      rw [describes.groupLeft] at more
      exact cursor_of_left stored (Nat.ne_of_gt more)
    indirect := by
      rw [describes.indirect stored.proper, Option.isSome_map, whole.indirect, Layout.length_sectors]
    doubly := by
      rw [describes.doubly stored.proper, Option.isSome_map, whole.doubly, Layout.length_sectors]
    triply := describes.pointer triplyPointer
    direct := fun {i} after => by
      rw [Layout.length_sectors] at after
      have none : l.pointer i.val = 0 := by
        rw [Layout.pointer, if_pos i.isLt, if_neg (by omega)]
      rw [describes.pointer]
      change Sector.ofPointer (UInt32.ofNat (l.pointer i.val)) = _
      rw [none]
      rfl }

/-! ## What changes a file -/

/-- What adds blocks to a file and takes blocks away. -/
inductive Change where
  | append
  | pop
  | growTo (length : Nat)
  | dissolve

namespace Change

/-- The operation on the blocks of the file. -/
def action : Change → BlockAction m Unit
  | append => FileBlocks.append
  | pop => FileBlocks.pop
  | growTo length => FileBlocks.growTo length
  | dissolve => FileBlocks.dissolve

/-- What a change with a given result makes of the list of blocks. -/
def Ends : Change → Except Failure Unit → List Sector → List Sector → Prop
  | append, .ok _, blocks, blocks' => ∃ t, blocks' = blocks ++ [t]
  | pop, .ok _, blocks, blocks' => blocks' = blocks.dropLast
  | append, .error _, blocks, blocks' | pop, .error _, blocks, blocks' => blocks' = blocks
  | growTo length, .ok _, blocks, blocks' => ∃ more, blocks' = blocks ++ more ∧
      blocks'.length = max blocks.length (sectorsFor length)
  | growTo _, .error _, blocks, blocks' => ∃ more, blocks' = blocks ++ more
  | dissolve, .ok _, _, blocks' => blocks' = []
  | dissolve, .error _, blocks, blocks' => ∃ n, blocks' = blocks.take n

/-- The file has a block to take away, if that is what is to be done. -/
def Ready (b : FileBlocks m) : Change → Prop
  | pop => 0 < b.disk.blockCount
  | append | growTo _ | dissolve => True

end Change

/-- The states of a file that is changed from a new inode on, and the sectors that others have
meanwhile. Requests may fail at any time. -/
inductive Among : FileBlocks m → PlainStore m → List Nat → Prop
  | new {d : Inode} {free : FreeMap m} {store : PlainStore m} {length : Nat} {isDirectory : Bool}
      {parent : Sector} : Inode.new length isDirectory parent = .ok d → 0 < m → m ≤ 0x100000000 →
      free.Counted → free.inUse 0 = true → Among ⟨d, free⟩ store ((List.range m).filter free.inUse)
  | change {b b' : FileBlocks m} {store store' : PlainStore m} {others : List Nat}
      {outages : List Bool} {r : Except Failure Unit} (x : Change) : Among b store others →
      x.action.run b (store.withOutages outages) = .ok ((r, b'), store') → Among b' store' others
  /-- Others take `count` sectors. -/
  | allocate {b : FileBlocks m} {store : PlainStore m} {others : List Nat} {free : FreeMap m}
      {s : Sector} {count : Nat} : Among b store others → b.free.allocate count = .ok (some s, free) →
      Among ⟨b.disk, free⟩ store (List.range' s.index count ++ others)
  /-- Others give back some of their sectors, but not sector 0. -/
  | release {b : FileBlocks m} {store : PlainStore m} {others rest : List Nat} {free : FreeMap m}
      {s : Sector} {count : Nat} : Among b store others →
      others.Perm (List.range' s.index count ++ rest) → 0 ∈ rest →
      b.free.release s count = .ok free → Among ⟨b.disk, free⟩ store rest
  /-- Others write to their sectors. -/
  | write {b : FileBlocks m} {store store' : PlainStore m} {others : List Nat} : Among b store others →
      (∀ t, t ∉ others → store'.image t = store.image t) → Among b store' others

/-! ## What a change does -/

/-- Every change leaves a file that holds a layout, and its blocks where they were. -/
theorem Change.ends (x : Change) (holds : b.Holds image l others) (ready : x.Ready b) :
    x.action.Ensures m True b image fun r b' image' =>
      ∃ l', b'.Holds image' l' others ∧ x.Ends r l.sectors l'.sectors := by
  cases x with
  | append =>
    refine append_spec holds (fun b' image' l' appended => ⟨l', appended.holds, ?_⟩)
      fun _ b' image' _ unchanged => ⟨l, unchanged.holds, rfl⟩
    have count := appended.count
    obtain ⟨more, sectors, one⟩ := Layout.sectors_of_trim appended.trim (by omega)
    obtain ⟨t, rfl⟩ := List.length_eq_one_iff.1 (show more.length = 1 by omega)
    exact ⟨t, sectors⟩
  | pop =>
    have some_blocks : 0 < l.count := by
      have count := holds.stored.describes.blockCount holds.stored.whole
      exact count ▸ ready
    refine pop_spec holds some_blocks (fun b' popped => ⟨_, popped.holds, ?_⟩)
      fun _ _ => ⟨l, holds, rfl⟩
    rw [Change.Ends, Layout.sectors_trim (Nat.sub_le _ _), List.dropLast_eq_take,
      Layout.length_sectors]
  | growTo length =>
    refine growTo_spec holds (fun b' image' l' _ grown => ⟨l', grown.holds, ?_⟩)
      fun _ b' image' l' _ _ extended => ⟨l', extended.holds, ?_⟩
    · have count := grown.count
      obtain ⟨more, sectors, -⟩ := Layout.sectors_of_trim grown.trim (by omega)
      refine ⟨more, sectors, ?_⟩
      rw [Layout.length_sectors, Layout.length_sectors, count]
    · obtain ⟨more, sectors, -⟩ := Layout.sectors_of_trim extended.trim extended.le
      exact ⟨more, sectors⟩
  | dissolve =>
    exact dissolve_trims holds (fun b' emptied => ⟨_, emptied, rfl⟩)
      fun _ b' n _ le trimmed => ⟨_, trimmed.holds, n, Layout.sectors_trim le⟩

/-- A change that does not break off had a block to take away if it needed one. -/
theorem Change.ready_of_run {x : Change} {outages : List Bool} {r : Except Failure Unit}
    (ran : x.action.run b (store.withOutages outages) = .ok ((r, b'), store')) : x.Ready b := by
  cases x with
  | pop =>
    refine Nat.pos_of_ne_zero fun none => ?_
    rw [action, pop_run_empty none] at ran
    cases ran
  | append | growTo | dissolve => trivial

/-! ## Every such file is mapped -/

theorem Holds.allocate {free : FreeMap m} {s : Sector} {count : Nat}
    (holds : b.Holds image l others) (taken : b.free.allocate count = .ok (some s, free)) :
    (⟨b.disk, free⟩ : FileBlocks m).Holds image l (List.range' s.index count ++ others) := by
  have some_count : 0 < count := by
    refine Nat.pos_of_ne_zero fun none => ?_
    rw [FreeMap.allocate, if_pos none] at taken
    cases taken
  rcases FreeMap.allocate_spec holds.marks holds.stored.small some_count with
    full | ⟨s', free', taken', -, marks⟩
  · rw [full] at taken
    cases taken
  · rw [taken'] at taken
    cases taken
    rw [← List.append_assoc] at marks
    exact ⟨holds.stored, marks, List.mem_append_right _ holds.reserved⟩

theorem Holds.release {free : FreeMap m} {s : Sector} {count : Nat} {rest : List Nat}
    (holds : b.Holds image l others) (theirs : others.Perm (List.range' s.index count ++ rest))
    (reserved : 0 ∈ rest) (given : b.free.release s count = .ok free) :
    (⟨b.disk, free⟩ : FileBlocks m).Holds image l rest := by
  have marks := holds.marks.perm (theirs.append_right l.owned)
  rw [List.append_assoc] at marks
  refine ⟨holds.stored, ?_, reserved⟩
  by_cases some_count : 0 < count
  · obtain ⟨free', given', marks'⟩ := FreeMap.release_spec holds.stored.small some_count marks
    rw [given'] at given
    cases given
    exact marks'
  · obtain rfl : count = 0 := by omega
    unfold FreeMap.release at given
    split at given <;> cases given
    exact marks

/-- What others write does not reach the index blocks. -/
theorem Holds.write {image' : Image} (holds : b.Holds image l others)
    (elsewhere : ∀ t, t ∉ others → image' t = image t) : b.Holds image' l others := by
  refine { holds with stored := holds.stored.congr fun t mem => elsewhere t fun theirs => ?_ }
  exact (List.nodup_append'.1 holds.marks.nodup).2.2 theirs (Layout.index_mem_owned mem)

theorem Among.exists_layout (among : Among b store others) : ∃ l, b.Holds store.image l others := by
  induction among with
  | new made some_sector small counted reserved =>
    exact ⟨_, holds_new made some_sector small counted reserved⟩
  | @change b b' store store' others outages r x _ ran ih =>
    obtain ⟨l, holds⟩ := ih
    obtain ⟨l', holds', -⟩ := PlainStore.holds_of_run (p := store.withOutages outages)
      (fun _ => trivial) (x.ends holds (Change.ready_of_run ran)) ran
    exact ⟨l', holds'⟩
  | allocate _ taken ih =>
    obtain ⟨l, holds⟩ := ih
    exact ⟨l, holds.allocate taken⟩
  | release _ theirs reserved given ih =>
    obtain ⟨l, holds⟩ := ih
    exact ⟨l, holds.release theirs reserved given⟩
  | write _ elsewhere ih =>
    obtain ⟨l, holds⟩ := ih
    exact ⟨l, holds.write elsewhere⟩

/-- **Every file that is changed among others is mapped.** Its blocks are in different sectors that no
one else has, and inode, index blocks and free map are what they need. A change returns whatever
requests fail; it adds blocks at the end or takes blocks from the end, an append one and a pop one,
and every other block stays in its sector. -/
theorem mapped_among (among : Among b store others) : ∃ blocks, Mapped b store others blocks ∧
    ∀ (x : Change) (outages : List Bool), x.Ready b → ∃ r b' store' blocks',
      x.action.run b (store.withOutages outages) = .ok ((r, b'), store') ∧
      x.Ends r blocks blocks' ∧ Mapped b' store' others blocks' := by
  obtain ⟨l, holds⟩ := among.exists_layout
  refine ⟨l.sectors, mapped_of_holds holds, fun x outages ready => ?_⟩
  obtain ⟨r, b', store', ran, l', holds', ends⟩ := PlainStore.exists_run
    (p := store.withOutages outages) (fun _ => trivial) (x.ends holds ready)
  exact ⟨r, b', store', l'.sectors, ran, ends, mapped_of_holds holds'⟩

/-- A file of one block on nine sectors, all of which are in use. -/
theorem mapped_among_nine : ∃ (b : FileBlocks 9) (store : PlainStore 9) (t : Sector),
    Among b store [0] ∧ Mapped b store [0] [t] := by
  have new : Among nine ⟨Vector.replicate 9 (Block.zero 512), []⟩ [0] :=
    .new (show Inode.new 0 false Sector.root = _ from rfl) (by decide) (by decide)
      (show 1 = _ from rfl) rfl
  obtain ⟨r, b, store, ran, rfl, one⟩ := PlainStore.exists_run
    (p := PlainStore.withOutages ⟨Vector.replicate 9 (Block.zero 512), []⟩ [])
    (fun some => some rfl) (append_nine _)
  have among : Among b store [0] := .change .append new ran
  obtain ⟨blocks, mapped, -⟩ := mapped_among among
  obtain ⟨t, rfl⟩ := List.length_eq_one_iff.1 (mapped.count.symm.trans one)
  exact ⟨b, store, t, among, mapped⟩

end FileBlocks

end SectorFs
