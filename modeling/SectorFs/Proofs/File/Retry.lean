/-
# SectorFs.Proofs.File.Retry — what failed can be tried again

`Formed`: the files that appends, pops and growth lead to from a new inode, on a plain
array whose requests may fail at any time. Of such a file an append or a pop that fails
has changed neither inode nor free map, and every block is found where it was. It can have
written to sectors that stand for no block and to entries that name none
(`SameFile`); but those are written anew before they are followed. So once the failures
are gone, the operation ends as if it had not been tried before (`Retries`).

That an append has one result, whatever stands in such sectors and entries, is
`append_determined`: it takes its sectors before it asks for any, and the rest is the same
for all stores that hold the file.
-/
import SectorFs.Proofs.File.Undone
import SectorFs.Proofs.File.Careful
import SectorFs.Proofs.File.Owned

namespace SectorFs

set_option autoImplicit false

variable {m : Nat} {image image' : Image} {l l' : Layout} {d : Inode} {others : List Nat}

namespace PlainStore

/-- The array with other outages to come. -/
def withOutages (p : PlainStore m) (outages : List Bool) : PlainStore m := { p with outages }

@[simp] theorem image_withOutages (p : PlainStore m) (outages : List Bool) :
    (p.withOutages outages).image = p.image := rfl

/-- The sectors and the outages are all there is to an array. -/
theorem withOutages_congr {p q : PlainStore m} (same : p.image = q.image) (outages : List Bool) :
    p.withOutages outages = q.withOutages outages := by
  have sectors : p.sectors = q.sectors := by
    refine Vector.ext fun i inside => ?_
    have here := congrFun same i
    rwa [image, dif_pos inside, image, dif_pos inside] at here
  rw [withOutages, withOutages, sectors]

end PlainStore

namespace FileBlocks

variable {b b' : FileBlocks m} {x : BlockAction m Unit} {store : PlainStore m}

/-! ## An append has one result -/

theorem attach_determined {place : Place} {r : NewSectors} (holds : b.Holds image l others)
    (lt : l.count < maxBlocks) (found : Place.of l.count = some place) (suits : r.Suits l)
    {free : FreeMap m} (marks : free.Marks (r.sectors ++ (others ++ l.owned))) :
    ∃ d', ∀ image', b.Holds image' l others →
      (addBlock b.disk place (Sector.ofNat ((l.push r).block l.count)) (leftWith l) r true).Ensures
        m False ⟨b.disk, free⟩ image' fun end_ b₁ image₁ => end_ = .ok () ∧ b₁ = ⟨d', free⟩ ∧
          Extended b ⟨d', free⟩ image' image₁ l (l.push r) others := by
  have ready {image' : Image} (holds' : b.Holds image' l others) :
      Ready m b.disk l r others image' := .of_marks holds'.stored lt suits marks
  obtain ⟨d', attached, -⟩ := (ready holds).attach_spec found
  refine ⟨d', fun image' holds' => ?_⟩
  rw [addBlock, Action.ensures_bind]
  refine Action.Ensures.onFailure (P := fun end_ b₁ image₁ => end_ = .ok () ∧ b₁ = ⟨b.disk, free⟩ ∧
    Linking others l r image' image₁ ∧ (l.push r).Indexed image₁) ?_ ?_ ?_
  · rw [Action.ensures_bind, Action.ensures_ensure, if_pos rfl, Action.onward_ok]
    refine (ready holds').link_spec found (fun image₁ linking indexed => ?_) False.elim
    exact ⟨rfl, rfl, linking, indexed⟩
  · rintro u b₁ image₁ ⟨-, rfl, linking, indexed⟩
    have linked : LinkEnds False ⟨b.disk, free⟩ image' l r others (.ok ()) ⟨b.disk, free⟩ image₁ :=
      ⟨rfl, suits, linking, indexed⟩
    obtain ⟨d₁, attached₁, appended⟩ := linked.appended holds' lt found marks
    obtain rfl : d₁ = d' := Except.ok.inj (attached₁.symm.trans attached)
    rw [Action.onward_ok]
    exact setDisk_spec attached ⟨rfl, rfl, appended.extended⟩
  · rintro e b₁ image₁ ⟨failed, -⟩
    cases failed

/-- Where an index block cannot be had, all that was taken is given back. -/
theorem giveBack_determined {place : Place} {r : NewSectors} (holds : b.Holds image l others)
    {free : FreeMap m} (marks : free.Marks (r.sectors ++ (others ++ l.owned))) (data : Sector)
    (left : Nat) :
    ∃ free', ∀ image', b.Holds image' l others →
      (addBlock b.disk place data left r false).Ensures m False ⟨b.disk, free⟩ image'
        fun end_ b₁ image₁ => end_ = .error .noSpace ∧ b₁ = ⟨b.disk, free'⟩ ∧
          Extended b ⟨b.disk, free'⟩ image' image₁ l l others := by
  have given : (r.giveBack : BlockAction m _).Ensures m False ⟨b.disk, free⟩ image
      fun end_ b₁ _ => end_ = .ok () ∧ ∃ free', free'.Marks (others ++ l.owned) ∧
        b₁ = ⟨b.disk, free'⟩ :=
    NewSectors.giveBack_spec marks holds.stored.small fun free' marks' => ⟨rfl, free', marks', rfl⟩
  obtain ⟨end_, b₁, done, rfl, free', marks', rfl⟩ := (giveBack_silent r).exists_done given
  refine ⟨free', fun image' holds' => ?_⟩
  rw [addBlock, Action.ensures_bind]
  refine Action.Ensures.onFailure (P := fun end_ b₁ image₁ => end_ = .error .noSpace ∧
    b₁ = ⟨b.disk, free⟩ ∧ image₁ = image') ⟨rfl, rfl, rfl⟩ ?_ ?_
  · rintro u b₁ image₁ ⟨ended, -⟩
    cases ended
  · rintro e b₁ image₁ ⟨ended, rfl, rfl⟩
    cases ended
    rw [Action.ensures_of_done done]
    exact ⟨rfl, rfl, Unchanged.extended ⟨{ holds' with marks := marks' }, rfl, .refl ..⟩⟩

/-- Without outages an append has one result, whatever stands where the file has no block. -/
theorem append_determined (holds : b.Holds image l others) :
    ∃ (r : Except Failure Unit) (b' : FileBlocks m) (l' : Layout), ∀ image',
      b.Holds image' l others → (append : BlockAction m _).Ensures m False b image'
        fun r₁ b₁ image₁ => r₁ = r ∧ b₁ = b' ∧ Extended b b' image' image₁ l l' others := by
  have starts {place : Place} (found : Place.of l.count = some place) :
      (takeSectors b.disk place : BlockAction m _).Ensures m False b image fun taken b₁ _ =>
        taken = .error .noSpace ∧ b₁ = b ∨ ∃ r free enough, (enough = true → r.Suits l) ∧
          free.Marks (r.sectors ++ (others ++ l.owned)) ∧ b₁ = ⟨b.disk, free⟩ ∧
          taken = .ok (Sector.ofNat ((l.push r).block l.count), leftWith l, r, enough) :=
    takeSectors_spec holds found (.inl ⟨rfl, rfl⟩)
      fun r free enough suits marks => .inr ⟨r, free, enough, suits, marks, rfl, rfl⟩
  unfold append
  simp only [Action.ensures_bind, Action.ensures_get, Action.onward_ok,
    holds.stored.describes.blockCount holds.stored.whole]
  cases found : Place.of l.count with
  | none => exact ⟨_, b, l, fun image' holds' => ⟨rfl, rfl, .refl holds'⟩⟩
  | some place =>
    simp only [appendAt_eq, Action.ensures_bind]
    have lt := Place.lt_of_of found
    obtain ⟨taken, b₁, done, ends⟩ := (takeSectors_silent b.disk place).exists_done (starts found)
    simp only [Action.ensures_of_done done]
    rcases ends with ⟨rfl, rfl⟩ | ⟨r, free, enough, suits, marks, rfl, rfl⟩
    · exact ⟨_, b₁, l, fun image' holds' => ⟨rfl, rfl, .refl holds'⟩⟩
    · cases enough with
      | true =>
        obtain ⟨d', determined⟩ := attach_determined holds lt found (suits rfl) marks
        exact ⟨_, _, _, determined⟩
      | false =>
        obtain ⟨free', determined⟩ := giveBack_determined holds marks _ _
        exact ⟨_, _, _, determined⟩

/-! ## Files that appends, pops and growth lead to -/

/-- What adds blocks to a file and takes blocks away. -/
inductive Edit : BlockAction m Unit → Prop
  | append : Edit append
  | pop : Edit pop
  | growTo (length : Nat) : Edit (growTo length)

/-- The sectors that an inode names: eight for each allocation group, and the index blocks. -/
def sectorsIn (image : Image) (d : Inode) : List Nat :=
  ((groupsIn image d).flatMap fun g => List.range' g groupSize) ++ indexIn image d

/-- The files that appends, pops and growth lead to from a new inode. Requests may fail at any
time. Meanwhile other sectors may be taken, given back and written, and so may blocks of the file;
sector 0 stays in use. -/
inductive Formed : FileBlocks m → PlainStore m → Prop
  | new {d : Inode} {free : FreeMap m} {store : PlainStore m} {length : Nat} {isDirectory : Bool}
      {parent : Sector} :
      Inode.new length isDirectory parent = .ok d → 0 < m → m ≤ 0x100000000 → free.Counted →
      free.inUse 0 = true → Formed ⟨d, free⟩ store
  | edit {b b' : FileBlocks m} {store store' : PlainStore m} {x : BlockAction m Unit}
      {outages : List Bool} {r : Except Failure Unit} :
      Formed b store → Edit x → x.run b (store.withOutages outages) = .ok ((r, b'), store') →
      Formed b' store'
  | elsewhere {b : FileBlocks m} {free : FreeMap m} {store store' : PlainStore m} :
      Formed b store → free.Counted → free.inUse 0 = true →
      (∀ t ∈ sectorsIn store.image b.disk, free.inUse t = true) →
      (∀ t ∈ indexIn store.image b.disk, store'.image t = store.image t) →
      Formed ⟨b.disk, free⟩ store'

theorem pop_run_empty (none : b.disk.blockCount = 0) :
    (pop : BlockAction m _).run b store = .error .emptyInode := by
  have halts : (pop : BlockAction m _).program b = .halt .emptyInode := by
    rw [pop, Action.program_bind, Action.program_get, SectorProgram.done_bind]
    dsimp only
    rw [none]
    rfl
  rw [Action.run, halts]
  rfl

theorem Edit.holds (edit : Edit x) (holds : b.Holds image l others)
    (some_blocks : x = FileBlocks.pop → 0 < b.disk.blockCount) :
    x.Ensures m True b image fun _ b' image' => ∃ l', b'.Holds image' l' others := by
  cases edit with
  | append =>
    exact append_spec holds (fun _ _ l' appended => ⟨l', appended.holds⟩)
      fun _ _ _ _ unchanged => ⟨l, unchanged.holds⟩
  | pop =>
    have some_blocks := some_blocks rfl
    rw [holds.stored.describes.blockCount holds.stored.whole] at some_blocks
    exact pop_spec holds some_blocks (fun _ popped => ⟨_, popped.holds⟩) fun _ _ => ⟨l, holds⟩
  | growTo length =>
    exact growTo_spec holds (fun _ _ l' _ grown => ⟨l', grown.holds⟩)
      fun _ _ _ l' _ _ extended => ⟨l', extended.holds⟩

theorem holds_new {free : FreeMap m} {d : Inode} {length : Nat} {isDirectory : Bool} {parent : Sector}
    (made : Inode.new length isDirectory parent = .ok d) (some_sector : 0 < m)
    (small : m ≤ 0x100000000) (counted : free.Counted) (reserved : free.inUse 0 = true) :
    (⟨d, free⟩ : FileBlocks m).Holds image .nothing ((List.range m).filter free.inUse) := by
  have zero : 0 ∈ (List.range m).filter free.inUse := (counted.marks.inUse some_sector).1 reserved
  have holds : (⟨.empty isDirectory parent, free⟩ : FileBlocks m).Holds image .nothing _ :=
    holds_empty counted.marks zero small isDirectory parent
  rw [Inode.new, Inode.withLength] at made
  split at made
  · cases made
    exact holds.withLengthWord _
  · cases made

theorem sectorsIn_eq (stored : l.Stored m d image) : sectorsIn image d = l.owned := by
  rw [sectorsIn, stored.groupsIn_eq, stored.indexIn_eq]
  rfl

/-- Such a file has a layout. -/
theorem Formed.exists_layout (formed : Formed b store) :
    ∃ l others, b.Holds store.image l others := by
  induction formed with
  | new made some_sector small counted reserved =>
    exact ⟨_, _, holds_new made some_sector small counted reserved⟩
  | @edit b b' store store' x outages r _ edit ran ih =>
    obtain ⟨l, others, holds⟩ := ih
    have some_blocks (is_pop : x = pop) : 0 < b.disk.blockCount := by
      refine Nat.pos_of_ne_zero fun none => ?_
      rw [is_pop, pop_run_empty none] at ran
      cases ran
    obtain ⟨l', holds'⟩ := PlainStore.holds_of_run (p := store.withOutages outages)
      (fun _ => trivial) (edit.holds holds some_blocks) ran
    exact ⟨l', others, holds'⟩
  | @elsewhere b free store store' _ counted reserved own index ih =>
    obtain ⟨l, others, holds⟩ := ih
    have stored := holds.stored
    rw [sectorsIn_eq stored] at own
    rw [stored.indexIn_eq] at index
    have some_sector := holds.marks.inside 0 (List.mem_append_left _ holds.reserved)
    have zero : 0 ∈ (List.range m).filter free.inUse := (counted.marks.inUse some_sector).1 reserved
    refine ⟨l, _, stored.congr index, counted.marks_append stored.nodup stored.inside own, ?_⟩
    exact List.mem_filter.2 ⟨zero, decide_eq_true stored.nonzero⟩

/-! ## Trying again -/

/-- Two arrays hold the same of a file: its blocks are found at the same sectors, it has the same
index blocks, and all that is in use has the same bytes, except for index blocks and sectors of the
last group that stand for no block yet. -/
structure SameFile (b : FileBlocks m) (p q : PlainStore m) : Prop where
  blocks {i : Nat} : i < b.disk.blockCount →
    ∃ t, b.disk.Locates (p.withOutages []) i t ∧ b.disk.Locates (q.withOutages []) i t
  index : indexIn q.image b.disk = indexIn p.image b.disk
  bytes {t : Nat} : t < m → b.free.inUse t = true → t ∉ indexIn p.image b.disk →
    t ∉ List.range' b.disk.cursorWord.toNat b.disk.groupLeft → q.image t = p.image t

/-- On two arrays without outages an operation has one result, and they hold the same of the file
after it. -/
def Agrees (x : BlockAction m Unit) (b : FileBlocks m) (p q : PlainStore m) : Prop :=
  ∃ r b' p' q', x.run b (p.withOutages []) = .ok ((r, b'), p') ∧
    x.run b (q.withOutages []) = .ok ((r, b'), q') ∧ SameFile b' p' q'

/-- An operation on a file returns whatever requests fail. If it fails, inode and free map are as
before, the blocks are where they were, and when it is tried again without outages it ends as if
it had not been tried before. -/
structure Atomic (x : BlockAction m Unit) (b : FileBlocks m) (store : PlainStore m) : Prop where
  returns (outages : List Bool) :
    ∃ r b' after, x.run b (store.withOutages outages) = .ok ((r, b'), after)
  failed {outages : List Bool} {e : Failure} {b' : FileBlocks m} {after : PlainStore m} :
    x.run b (store.withOutages outages) = .ok ((.error e, b'), after) →
      b' = b ∧ SameFile b store after ∧ Agrees x b store after

theorem locates_withOutages {i : Nat} (stored : l.Stored m d store.image) (inside : i < l.count) :
    d.Locates (store.withOutages []) i (Sector.ofNat (l.block i)) := by
  obtain ⟨r, memory, after, ran, rfl⟩ := PlainStore.exists_run (p := store.withOutages [])
    (fun some => some rfl) (locates_spec stored inside)
  exact ⟨after, ran⟩

theorem SameFile.of_kept {p q : PlainStore m} (holds : b.Holds p.image l others)
    (holds' : b.Holds q.image l others) (kept : Kept others l p.image q.image) :
    SameFile b p q where
  blocks inside := by
    rw [holds.stored.describes.blockCount holds.stored.whole] at inside
    exact ⟨_, locates_withOutages holds.stored inside, locates_withOutages holds'.stored inside⟩
  index := by rw [holds.stored.indexIn_eq, holds'.stored.indexIn_eq]
  bytes {t} inside inUse not_index not_left := by
    have stored := holds.stored
    rw [stored.indexIn_eq] at not_index
    rcases List.mem_append.1 ((holds.marks.inUse inside).1 inUse) with mem | mem
    · exact kept.others t mem
    · have data := (List.mem_append.1 mem).resolve_right not_index
      rw [← stored.data_eq] at data
      obtain ⟨i, at_i, rfl⟩ := List.mem_map.1 ((List.mem_append.1 data).resolve_right not_left)
      rw [List.mem_range, stored.describes.blockCount stored.whole] at at_i
      rw [stored.blockIn_eq at_i]
      exact kept.blocks i at_i

/-- What two arrays hold the same of before blocks of zeros are added they do after it. -/
theorem SameFile.of_extended {p q p' q' : PlainStore m}
    (kept : Kept others l p.image q.image)
    (extended : Extended b b' p.image p'.image l l' others)
    (extended' : Extended b b' q.image q'.image l l' others) : SameFile b' p' q' := by
  refine .of_kept extended.holds extended'.holds ⟨fun s mem => ?_, fun i inside => ?_⟩
  · rw [extended.kept.others s mem, extended'.kept.others s mem, kept.others s mem]
  · by_cases old : i < l.count
    · rw [Layout.block_of_trim extended.trim old, extended.kept.blocks i old,
        extended'.kept.blocks i old, kept.blocks i old]
    · rw [extended.zeros i (by omega) inside, extended'.zeros i (by omega) inside]

theorem append_atomic (holds : b.Holds store.image l others) : Atomic append b store := by
  have ends : (append : BlockAction m _).Ensures m True b store.image fun r b' image' =>
      ∀ e, r = .error e → b' = b ∧ b.Holds image' l others ∧ Kept others l store.image image' :=
    append_undone holds (fun _ _ _ _ _ same => by cases same)
      fun e image' _ holds' kept _ _ => ⟨rfl, holds', kept⟩
  refine ⟨fun outages => ?_, fun {outages e b' after} ran => ?_⟩
  · obtain ⟨r, b', after, ran, -⟩ := PlainStore.exists_run (p := store.withOutages outages)
      (fun _ => trivial) ends
    exact ⟨r, b', after, ran⟩
  · have failed := PlainStore.holds_of_run (p := store.withOutages outages)
      (fun _ => trivial) ends ran
    obtain ⟨rfl, holds', kept⟩ := failed e rfl
    refine ⟨rfl, .of_kept holds holds' kept, ?_⟩
    obtain ⟨r, b', l', again⟩ := append_determined holds
    obtain ⟨_, _, p', ran, rfl, rfl, extended⟩ := PlainStore.exists_run
      (p := store.withOutages []) (fun some => some rfl) (again store.image holds)
    obtain ⟨_, _, q', ran', rfl, rfl, extended'⟩ := PlainStore.exists_run
      (p := after.withOutages []) (fun some => some rfl) (again after.image holds')
    exact ⟨_, _, p', q', ran, ran', .of_extended kept extended extended'⟩

theorem pop_atomic (holds : b.Holds store.image l others) (some_blocks : 0 < l.count) :
    Atomic pop b store := by
  have ends (mayFail : Prop) : (pop : BlockAction m _).Ensures m mayFail b store.image
      fun r b' image' => image' = store.image ∧ (∀ e, r = .error e → b' = b) ∧
        ∃ l', b'.Holds image' l' others :=
    pop_spec holds some_blocks
      (fun _ popped => ⟨rfl, nofun, _, popped.holds⟩)
      fun _ _ => ⟨rfl, fun _ _ => rfl, l, holds⟩
  refine ⟨fun outages => ?_, fun {outages e b' after} ran => ?_⟩
  · obtain ⟨r, b', after, ran, -⟩ := PlainStore.exists_run (p := store.withOutages outages)
      (fun _ => trivial) (ends True)
    exact ⟨r, b', after, ran⟩
  · obtain ⟨same, failed, -⟩ := PlainStore.holds_of_run (p := store.withOutages outages)
      (fun _ => trivial) (ends True) ran
    obtain rfl := failed e rfl
    -- a pop writes nothing, so the second one starts from the same array
    refine ⟨rfl, .of_kept holds (same ▸ holds) (same ▸ .refl ..), ?_⟩
    obtain ⟨r, b', p', ran, -, -, l', holds'⟩ := PlainStore.exists_run
      (p := store.withOutages []) (fun some => some rfl) (ends False)
    refine ⟨r, b', p', p', ran, ?_, .of_kept holds' holds' (.refl ..)⟩
    rw [PlainStore.withOutages_congr same]
    exact ran

/-- Appends and pops that fail can be tried again as if nothing had happened, of every file that
appends, pops and growth lead to. A file without blocks has none to take away. -/
theorem atomic_of_formed (formed : Formed b store) : Atomic append b store ∧
    (0 < b.disk.blockCount → Atomic pop b store) ∧
    (b.disk.blockCount = 0 → ∀ outages, (pop : BlockAction m _).run b (store.withOutages outages) =
      .error .emptyInode) := by
  obtain ⟨l, others, holds⟩ := formed.exists_layout
  refine ⟨append_atomic holds, fun some_blocks => ?_, fun none _ => pop_run_empty none⟩
  rw [holds.stored.describes.blockCount holds.stored.whole] at some_blocks
  exact pop_atomic holds some_blocks

/-- Nine sectors of which the first is in use have room for one group. -/
def nine : FileBlocks 9 where
  disk := .empty false Sector.root
  free := ⟨Vector.ofFn fun i => decide (i.val < 1), 1⟩

theorem append_nine (image : Image) : (append : BlockAction 9 Unit).Ensures 9 False nine image
    fun r b _ => r = .ok () ∧ b.disk.blockCount = 1 := by
  have count : nine.disk.blockCount = 0 := rfl
  have left : nine.disk.groupLeft = 0 := rfl
  have place : Place.of 0 = some (.direct 0) := rfl
  have taken : nine.free.allocate 8 =
      .ok (some ⟨1⟩, ⟨Vector.ofFn fun i => decide (i.val < 9), 9⟩) := rfl
  have attached : attach nine.disk (.direct 0) ⟨1⟩ 8 ⟨some ⟨1⟩, none, none⟩ =
      .ok ((attach nine.disk (.direct 0) ⟨1⟩ 8 ⟨some ⟨1⟩, none, none⟩).toOption.getD .zero) := rfl
  have one : ((attach nine.disk (.direct 0) ⟨1⟩ 8
      ⟨some ⟨1⟩, none, none⟩).toOption.getD .zero).blockCount = 1 := rfl
  generalize (attach nine.disk (.direct 0) ⟨1⟩ 8
    ⟨some ⟨1⟩, none, none⟩).toOption.getD .zero = d at attached one
  simp [append, count, place, appendAt, needs, nextSector, left, take, groupSize, taken, takeIf,
    Action.onFailure, link, NewSectors.indexBlocks, attached, one, setDisk, Sector.index]

theorem atomic_of_formed_nine : ∃ (b : FileBlocks 9) (store : PlainStore 9), Formed b store ∧
    b.disk.blockCount = 1 ∧ Atomic append b store ∧ Atomic pop b store := by
  have new : Formed nine ⟨Vector.replicate 9 (Block.zero 512), []⟩ :=
    .new (show Inode.new 0 false Sector.root = _ from rfl) (by decide) (by decide)
      (show 1 = _ from rfl) rfl
  obtain ⟨r, b, store, ran, rfl, one⟩ := PlainStore.exists_run
    (p := PlainStore.withOutages ⟨Vector.replicate 9 (Block.zero 512), []⟩ [])
    (fun some => some rfl) (append_nine _)
  have formed : Formed b store := .edit new .append ran
  have atomic := atomic_of_formed formed
  exact ⟨b, store, formed, one, atomic.1, atomic.2.1 (by omega)⟩

end FileBlocks

end SectorFs
