/-
# SectorFs.Proofs.File.Inverse — a pop takes back an append, and an append a pop

An append and a pop meet at every place of a file, and each has its own cases there: a group that
begins or ends, an index block that the file gets or no longer needs. At all of them they cancel.

* `append_popped`: what an append did is taken back by a pop to the last bit of inode and free map,
  for the layout that is trimmed again is the one from before, and a layout leaves no choice
  (`Holds.unique`).
* `pop_appended`: an append after a pop need not find the sectors that were given back, so only the
  numbers come back, of blocks, of sectors left in the group and of free sectors. A pop that keeps
  its group puts the data sector back where the next append takes it from.
* `inverse_of_formed`: both, of every file that appends, pops and growth lead to.
-/
import SectorFs.Proofs.File.Room

namespace SectorFs

set_option autoImplicit false

variable {m : Nat} {image : Image} {l l' : Layout} {others : List Nat} {n : Nat}

/-- Layouts with the same first blocks go on in the same group, if it has sectors left. -/
theorem Layout.block_of_trim_eq (same : l'.trim n = l.trim n) (more : n % 8 ≠ 0) :
    l'.block n = l.block n := by
  have inside : n / 8 < groupsFor n := by
    rw [groupsFor]
    omega
  rw [← block_trim_group inside, same, block_trim_group inside]

namespace FileBlocks

variable {b b₁ b₂ b' : FileBlocks m} {store store₁ store₂ : PlainStore m} {outages : List Bool}

/-! ## A pop after an append -/

/-- A pop after an append leaves the file as it was before both. -/
theorem append_popped {image' : Image} (holds : b.Holds image l others)
    (appended : Appended b b₁ image image' l l' others)
    (padded : Padded b.free.padding b₁) :
    (pop : BlockAction m _).Ensures m False b₁ image' fun r b' _ => r = .ok () ∧ b' = b := by
  have count := appended.count
  have pops : (pop : BlockAction m _).Ensures m False b₁ image' fun r b' image'' =>
      r = .ok () ∧ Popped b₁ b' image'' l' others :=
    pop_spec appended.holds (by omega) (fun b' popped => ⟨rfl, popped⟩) False.elim
  refine (pops.keeping pop_keeps padded).mono ?_
  rintro r b' image'' ⟨⟨done, popped⟩, padded'⟩
  have one_less : l'.count - 1 = l.count := by omega
  have holds' := popped.holds
  rw [one_less, appended.trim] at holds'
  exact ⟨done, holds.unique holds' (popped.bare.trans appended.bare) padded'⟩

/-! ## An append after a pop -/

/-- The numbers of a file that do not depend on which sectors it has. -/
structure SameNumbers (b b' : FileBlocks m) : Prop where
  blocks : b'.disk.blockCount = b.disk.blockCount
  left : b'.disk.groupLeft = b.disk.groupLeft
  free : b'.free.countFree = b.free.countFree

/-- The last block is in the same sector, and the next one will be. -/
structure SameTail (b b' : FileBlocks m) (store store' : PlainStore m) : Prop where
  cursor : b'.disk.cursor = b.disk.cursor
  last : ∃ t, b.disk.Locates (store.withOutages []) (b.disk.blockCount - 1) t ∧
    b'.disk.Locates (store'.withOutages []) (b.disk.blockCount - 1) t

/-- A file has as many sectors left in its group, and as many are free, as its blocks say. -/
theorem SameNumbers.of_count {image' : Image} (holds : b.Holds image l others)
    (holds' : b'.Holds image' l' others) (count : l'.count = l.count) : SameNumbers b b' where
  blocks := by
    rw [holds.stored.describes.blockCount holds.stored.whole,
      holds'.stored.describes.blockCount holds'.stored.whole, count]
  left := by
    rw [holds.stored.describes.groupLeft, holds'.stored.describes.groupLeft, Layout.left,
      Layout.left, count]
  free := by rw [holds.countFree, holds'.countFree, count]

/-- A last block that does not begin its group is in the same sector wherever the file has the same
blocks before it, and so is the next one. -/
theorem SameTail.of_trim (holds : b.Holds store.image l others)
    (holds₂ : b₂.Holds store₂.image l' others) (count : l.count = n + 1)
    (count' : l'.count = n + 1) (same : l'.trim n = l.trim n) (more : n % 8 ≠ 0) :
    SameTail b b₂ store store₂ := by
  have stored := holds.stored
  have stored₂ := holds₂.stored
  have last : l'.block n = l.block n := Layout.block_of_trim_eq same more
  have next : l'.next = l.next := by
    have left : l'.left = l.left := by rw [Layout.left, Layout.left, count, count']
    rw [Layout.next, Layout.next, left, count, count']
    split
    case isTrue => rfl
    case isFalse some_left =>
      have inside : (n + 1) % 8 ≠ 0 := by
        rw [Layout.left, count] at some_left
        omega
      rw [Layout.block_succ inside, Layout.block_succ inside, last]
  refine ⟨?_, Sector.ofNat (l.block n), ?_⟩
  · rw [stored.describes.cursor stored.whole stored.proper,
      stored₂.describes.cursor stored₂.whole stored₂.proper, next]
  · rw [stored.describes.blockCount stored.whole, count, Nat.add_sub_cancel]
    refine ⟨locates_withOutages stored (by omega), ?_⟩
    rw [← last]
    exact locates_withOutages stored₂ (by omega)

/-- A pop that takes the first block of a group gives the group back. -/
theorem Holds.group_free (holds : b.Holds image l others) (holds₁ : b₁.Holds image (l.trim n) others)
    (count : l.count = n + 1) (first : n % 8 = 0) :
    b.free.countFree + groupSize ≤ b₁.free.countFree := by
  have room := holds.room
  have groups : groupsFor (n + 1) = groupsFor n + 1 := by rw [Layout.groupsFor_succ, if_pos first]
  have index : indexFor n ≤ indexFor (n + 1) := Layout.indexFor_mono (Nat.le_succ n)
  have free := holds.countFree
  have free₁ : b₁.free.countFree =
      m - (others.length + (8 * groupsFor n + indexFor n)) := holds₁.countFree
  rw [count, groups] at room free
  rw [groupSize]
  omega

/-- After a pop and an append the numbers are as before, and the last block is in its old sector
unless the pop gave a whole group back. -/
theorem pop_appended {image₁ : Image} (holds : b.Holds store.image l others)
    (popped : Popped b b₁ image₁ l others) (same : image₁ = store.image) (some : 0 < l.count)
    (appended : Appended b₁ b₂ image₁ store₂.image (l.trim (l.count - 1)) l' others) :
    SameNumbers b b₂ ∧
      (b₁.free.countFree < b.free.countFree + groupSize → SameTail b b₂ store store₂) := by
  subst same
  obtain ⟨n, count⟩ := Nat.exists_eq_add_one.2 some
  have holds₁ := popped.holds
  have count' := appended.count
  have trim := appended.trim
  have less : l.count - 1 = n := by omega
  rw [less] at holds₁ count' trim
  change l'.count = n + 1 at count'
  change l'.trim n = l.trim n at trim
  refine ⟨.of_count holds appended.holds (count'.trans count.symm), fun kept => ?_⟩
  refine .of_trim holds appended.holds count count' trim fun first => ?_
  have given := holds.group_free holds₁ count first
  omega

/-! ## Files that appends, pops and growth lead to -/

/-- Of every file that appends, pops and growth lead to: a pop after an append that succeeded
succeeds where no request fails, and inode and free map are as before both; an append after a pop
that both succeeded leaves the numbers as before, and the last block and the next one in their
sectors unless the pop gave a whole group back. -/
theorem inverse_of_formed (formed : Formed b store) :
    (∀ {outages b₁ store₁}, append.run b (store.withOutages outages) = .ok ((.ok (), b₁), store₁) →
      ∃ after, pop.run b₁ (store₁.withOutages []) = .ok ((.ok (), b), after)) ∧
    ∀ {outages outages' b₁ b₂ store₁ store₂},
      pop.run b (store.withOutages outages) = .ok ((.ok (), b₁), store₁) →
      append.run b₁ (store₁.withOutages outages') = .ok ((.ok (), b₂), store₂) →
      SameNumbers b b₂ ∧
        (b₁.free.countFree < b.free.countFree + groupSize → SameTail b b₂ store store₂) := by
  obtain ⟨l, others, holds⟩ := formed.exists_layout
  refine ⟨fun {outages b₁ store₁} ran => ?_, fun {outages outages' b₁ b₂ store₁ store₂} ran ran' => ?_⟩
  · obtain ⟨⟨l', appended⟩, padded⟩ := PlainStore.holds_of_run (p := store.withOutages outages)
      (fun _ => trivial) ((append_cases holds).keeping append_keeps (P := Padded b.free.padding) rfl)
      ran
    obtain ⟨r, b', after, ran', rfl, rfl⟩ := PlainStore.exists_run (p := store₁.withOutages [])
      (fun some => some rfl) (append_popped holds appended padded)
    exact ⟨after, ran'⟩
  · have some_blocks : 0 < b.disk.blockCount := by
      refine Nat.pos_of_ne_zero fun none => ?_
      rw [pop_run_empty none] at ran
      cases ran
    rw [holds.stored.describes.blockCount holds.stored.whole] at some_blocks
    have pops : (pop : BlockAction m _).Ensures m True b store.image fun r b' image' =>
        r = .ok () → image' = store.image ∧ Popped b b' image' l others :=
      pop_spec holds some_blocks (fun _ popped _ => ⟨rfl, popped⟩) nofun
    obtain ⟨same, popped⟩ := PlainStore.holds_of_run (p := store.withOutages outages)
      (fun _ => trivial) pops ran rfl
    obtain ⟨l', appended⟩ := PlainStore.holds_of_run (p := store₁.withOutages outages')
      (fun _ => trivial) (append_cases popped.holds) ran'
    exact pop_appended holds popped same some_blocks appended

/-! ## Nine sectors -/

/-- On nine sectors a file with one block has all sectors but the first one. -/
theorem exists_formed_nine : ∃ (b : FileBlocks 9) (store : PlainStore 9), Formed b store ∧
    b.disk.blockCount = 1 ∧ b.free.Packed ∧ b.free.used = 9 := by
  have reserved : (FreeMap.empty 9).reserve 0 = .ok nine.free := rfl
  obtain ⟨free, same, marks⟩ :=
    FreeMap.reserve_spec (FreeMap.marks_empty (n := 9)) (show 0 < 9 by decide) List.not_mem_nil
  rw [reserved] at same
  cases same
  have packed : nine.free.Packed := marks.packed fun i => by simp
  have holds : nine.Holds (PlainStore.image ⟨Vector.replicate 9 (Block.zero 512), []⟩) .nothing [0] :=
    holds_empty marks List.mem_cons_self (by decide) false Sector.root
  have new : Formed nine ⟨Vector.replicate 9 (Block.zero 512), []⟩ :=
    .new (show Inode.new 0 false Sector.root = _ from rfl) (by decide) (by decide)
      (show 1 = _ from rfl) rfl
  obtain ⟨r, b, store, ran, rfl, packed', l', extended, one⟩ := PlainStore.exists_run
    (p := PlainStore.withOutages ⟨Vector.replicate 9 (Block.zero 512), []⟩ [])
    (fun some => some rfl) (append_packed holds packed (by decide) (by decide))
  have stored := extended.holds.stored
  have one : l'.count = 1 := one
  refine ⟨b, store, .edit new .append ran, ?_, packed', ?_⟩
  · rw [stored.describes.blockCount stored.whole, one]
  · rw [extended.holds.used, one]
    rfl

/-- The second block of such a file needs no more sectors. -/
theorem exists_append_nine {b : FileBlocks 9} {store : PlainStore 9} (formed : Formed b store)
    (one : b.disk.blockCount = 1) (packed : b.free.Packed) (used : b.free.used = 9) :
    ∃ b₁ store₁, append.run b (store.withOutages []) = .ok ((.ok (), b₁), store₁) ∧
      b₁.disk.blockCount = 2 := by
  obtain ⟨l, others, holds⟩ := formed.exists_layout
  have stored := holds.stored
  rw [stored.describes.blockCount stored.whole] at one
  have room : others.length + (8 * groupsFor (l.count + 1) + indexFor (l.count + 1)) ≤ 9 := by
    have whole := holds.used
    rw [used, one] at whole
    rw [one]
    exact Nat.le_of_eq whole.symm
  obtain ⟨r, b₁, store₁, ran, rfl, -, l₁, extended, two⟩ := PlainStore.exists_run
    (p := store.withOutages []) (fun some => some rfl)
    (append_packed holds packed (by rw [one]; decide) room)
  have stored₁ := extended.holds.stored
  exact ⟨b₁, store₁, ran, by rw [stored₁.describes.blockCount stored₁.whole, two, one]⟩

/-- The second block comes and goes, and when it comes again it is where it was. -/
theorem inverse_of_formed_nine : ∃ (b b₁ b₂ : FileBlocks 9) (store store₁ store₂ store₃ : PlainStore 9),
    Formed b store ∧ Formed b₁ store₁ ∧ b₁.disk.blockCount = 2 ∧
      append.run b (store.withOutages []) = .ok ((.ok (), b₁), store₁) ∧
      pop.run b₁ (store₁.withOutages []) = .ok ((.ok (), b), store₂) ∧
      append.run b (store₂.withOutages []) = .ok ((.ok (), b₂), store₃) ∧
      SameNumbers b₁ b₂ ∧ SameTail b₁ b₂ store₁ store₃ := by
  obtain ⟨b, store, formed, one, packed, used⟩ := exists_formed_nine
  obtain ⟨b₁, store₁, appended, two⟩ := exists_append_nine formed one packed used
  have formed₁ : Formed b₁ store₁ := .edit formed .append appended
  obtain ⟨store₂, popped⟩ := (inverse_of_formed formed).1 appended
  have formed₂ : Formed b store₂ := .edit formed₁ .pop popped
  obtain ⟨b₂, store₃, again, -⟩ := exists_append_nine formed₂ one packed used
  obtain ⟨numbers, tail⟩ := (inverse_of_formed formed₁).2 popped again
  -- the first block keeps the group, so no sector was given back
  have none_free : b.free.countFree = 0 := by rw [FreeMap.countFree, used]
  refine ⟨b, b₁, b₂, store, store₁, store₂, store₃, formed, formed₁, two, appended, popped, again,
    numbers, tail ?_⟩
  rw [none_free, groupSize]
  omega

end FileBlocks

end SectorFs
