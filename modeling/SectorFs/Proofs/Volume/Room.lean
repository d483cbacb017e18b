/-
# SectorFs.Proofs.Volume.Room — operations that have room

On a map without gaps the sector of a new inode is the first that is not in use, and whether its
blocks can be had is a matter of counting (`create_works`, `create_refused`). So it is for a write
that makes a file longer (`writeBytes_works`).
-/
import SectorFs.Proofs.Volume.System
import SectorFs.Proofs.File.Room

namespace SectorFs

set_option autoImplicit false

namespace Volume

variable {m : Nat} {image : Image} {v : Volume m} {f : LiveFile} {rest : List LiveFile}
  {others : List Nat} {s : Sector} {length : Nat} {isDirectory : Bool} {parent : Sector}

/-! ## New inodes -/

/-- An inode with bytes is made on a map without gaps where there is room for them. -/
theorem createAt_works (packed : v.free.Packed) (marks : v.free.Marks (s.index :: others))
    (reserved : 0 ∈ s.index :: others) (small : m ≤ 0x100000000) (fits : length ≤ maxFileBytes)
    (room : others.length + sectorsTaken (sectorsFor length) ≤ m) :
    (createAt s length isDirectory parent : VolumeAction m _).Ensures m False v image
      fun r v' _ => r = .ok () ∧ v'.free.Packed ∧
        v'.free.used = others.length + sectorsTaken (sectorsFor length) := by
  have holds : (⟨.empty isDirectory parent, v.free⟩ : FileBlocks m).Holds image .nothing
      (s.index :: others) := FileBlocks.holds_empty marks reserved small isDirectory parent
  have blocks : max Layout.nothing.count (sectorsFor length) = sectorsFor length :=
    Nat.zero_max _
  have taken : (s.index :: others).length + (8 * groupsFor (sectorsFor length) +
      indexFor (sectorsFor length)) = others.length + sectorsTaken (sectorsFor length) := by
    rw [List.length_cons, sectorsTaken]
    omega
  rw [createAt, Action.ensures_bind, Action.ensures_ensure, if_pos (decide_eq_true fits),
    Action.onward_ok, Action.ensures_bind]
  refine onBlocks_spec ?_
  refine (FileBlocks.growTo_packed holds packed fits (by rwa [blocks, taken])).mono ?_
  rintro r b image' ⟨rfl, packed', used⟩
  rw [blocks, taken] at used
  simp only [Action.onward_ok, Action.ensures_bind, Action.ensures_liftExcept, Action.onFailure,
    Action.ensures_tryCatch, Action.ensures_writeInode]
  exact ⟨marks.inside _ List.mem_cons_self, ⟨trivial, packed', used⟩, False.elim⟩

/-- An inode for which there are `8 * k` blocks, but not the group that comes next, is not made. -/
theorem createAt_refused {k : Nat} (packed : v.free.Packed)
    (marks : v.free.Marks (s.index :: others)) (reserved : 0 ∈ s.index :: others)
    (small : m ≤ 0x100000000) (fits : length ≤ maxFileBytes) (more : 8 * k < sectorsFor length)
    (room : others.length + sectorsTaken (8 * k) ≤ m)
    (full : m < others.length + sectorsTaken (8 * k) + groupSize) :
    (createAt s length isDirectory parent : VolumeAction m _).Ensures m False v image
      fun r _ _ => r = .error .noSpace := by
  have holds : (⟨.empty isDirectory parent, v.free⟩ : FileBlocks m).Holds image .nothing
      (s.index :: others) := FileBlocks.holds_empty marks reserved small isDirectory parent
  have taken : (s.index :: others).length + (8 * groupsFor (8 * k) + indexFor (8 * k)) =
      others.length + sectorsTaken (8 * k) := by
    rw [List.length_cons, sectorsTaken]
    omega
  rw [createAt, Action.ensures_bind, Action.ensures_ensure, if_pos (decide_eq_true fits),
    Action.onward_ok, Action.ensures_bind]
  refine onBlocks_spec ?_
  refine (FileBlocks.growTo_refused holds packed fits (Nat.zero_le _) (Nat.mul_mod_right 8 k) more
    (taken.trans_le room) (taken.symm ▸ full)).mono ?_
  rintro r b image' ⟨rfl, -⟩
  simp only [Action.onward_ok, Action.ensures_bind, Action.ensures_liftExcept, Action.onward_error]

/-- The sector of a new inode is the first that is not in use. -/
theorem create_first {Q : Except Failure Sector → Volume m → Image → Prop}
    (packed : v.free.Packed) (marks : v.free.Marks others) (small : m ≤ 0x100000000)
    (room : v.free.used < m)
    (taken : ∀ s free, s.index = v.free.used → free.Packed → free.Marks (s.index :: others) →
      ((createAt s length isDirectory parent).onFailure (give s 1) : VolumeAction m _).Ensures m
        False { v with free } image fun r v' image' => Q (r.map fun _ => s) v' image') :
    (create length isDirectory parent).Ensures m False v image Q := by
  obtain ⟨s, free, same, first, packed', -⟩ := packed.allocate small Nat.one_pos room
  have marks' := (marks.allocate small Nat.one_pos same).2
  simp only [create, take, Action.ensures_bind, Action.ensures_get, Action.onward_ok]
  rw [same, Action.ensures_check_ok, Action.onward_ok, Action.ensures_bind, Action.ensures_modify,
    Action.onward_ok, Action.ensures_pure, Action.onward_ok, Action.ensures_bind]
  refine (taken s free first packed' marks').mono fun r v' image' holds => ?_
  cases r with
  | ok => exact holds
  | error e => exact holds

/-- An inode is made on a map without gaps where there is room for it. -/
theorem create_works (packed : v.free.Packed) (marks : v.free.Marks others) (reserved : 0 ∈ others)
    (small : m ≤ 0x100000000) (fits : length ≤ maxFileBytes)
    (room : v.free.used + sectorsTaken (sectorsFor length) ≤ m) :
    (create length isDirectory parent).Ensures m False v image fun r v' _ =>
      (∃ s, r = .ok s ∧ s.index = v.free.used) ∧ v'.free.Packed ∧
        v'.free.used = v.free.used + sectorsTaken (sectorsFor length) := by
  have one : 0 < sectorsTaken (sectorsFor length) := by
    rw [sectorsTaken]
    omega
  refine create_first packed marks small (by omega) fun s free first packed' marks' => ?_
  rw [marks.used] at room ⊢
  refine Action.Ensures.onFailure (createAt_works (v := { v with free }) packed' marks'
    (List.mem_cons_of_mem _ reserved) small fits room) ?_ ?_
  · rintro u v' image' ⟨-, packed'', used⟩
    exact ⟨⟨s, rfl, first.trans marks.used⟩, packed'', used⟩
  · rintro e v' image' ⟨failed, -⟩
    cases failed

/-- Of an inode without bytes nothing is stored but itself. -/
theorem create_empty_works (packed : v.free.Packed) (marks : v.free.Marks others)
    (small : m ≤ 0x100000000) (room : v.free.used < m) :
    (create 0 isDirectory parent).Ensures m False v image fun _ _ image' =>
      image' = Function.update image v.free.used (Inode.empty isDirectory parent).encode := by
  refine create_first packed marks small room fun s free first _ marks' => ?_
  rw [← first]
  refine Action.Ensures.onFailure (P := fun r _ image' => r = .ok () ∧
    image' = Function.update image s.index (Inode.empty isDirectory parent).encode)
    (createAt_empty_spec isDirectory parent (marks'.inside _ List.mem_cons_self) ⟨rfl, rfl⟩) ?_ ?_
  · rintro u v' image' ⟨-, same⟩
    exact same
  · rintro e v' image' ⟨failed, -⟩
    cases failed

/-- An inode is refused where its blocks begin a group for which there is no room. -/
theorem create_refused {k : Nat} (packed : v.free.Packed) (marks : v.free.Marks others)
    (reserved : 0 ∈ others) (small : m ≤ 0x100000000) (fits : length ≤ maxFileBytes)
    (more : 8 * k < sectorsFor length) (room : v.free.used + sectorsTaken (8 * k) ≤ m)
    (full : m < v.free.used + sectorsTaken (8 * k) + groupSize) :
    (create length isDirectory parent).Ensures m False v image fun r _ _ =>
      r = .error .noSpace := by
  have one : 0 < sectorsTaken (8 * k) := by
    rw [sectorsTaken]
    omega
  refine create_first packed marks small (by omega) fun s free _ packed' marks' => ?_
  rw [marks.used] at room full
  have marked : (createAt s length isDirectory parent : VolumeAction m _).Ensures m False
      { v with free } image fun r v' _ => ∀ e, r = .error e →
        ∃ leaked, v'.free.Marks (s.index :: others ++ leaked) := by
    refine createAt_spec (v := { v with free }) (fun _ => small) marks'
      (List.mem_cons_of_mem _ reserved) ?_ fun e free' image' leaked _ marks'' _ _ _ =>
        ⟨leaked, marks''⟩
    intros
    rename_i failed
    cases failed
  refine Action.Ensures.onFailure ((createAt_refused (v := { v with free }) packed' marks'
    (List.mem_cons_of_mem _ reserved) small fits more room full).and marked) ?_ ?_
  · rintro u v' image' ⟨failed, -⟩
    cases failed
  · rintro e v' image' ⟨failed, marked⟩
    obtain ⟨leaked, marks''⟩ := marked e rfl
    cases failed
    exact give_spec marks'' small Nat.one_pos fun _ _ => rfl

/-! ## Longer files -/

/-- How far the map is filled when a file has become one of `length` bytes. -/
theorem grow_works {node : LoadedInode} (sound : v.Sound image (f :: rest))
    (found : v.find? f.sector = some node) (packed : v.free.Packed) (fits : length ≤ maxFileBytes)
    (room : v.free.used + sectorsTaken (max f.layout.count (sectorsFor length)) ≤
      m + sectorsTaken f.layout.count) :
    (grow node length).Ensures m False v image fun r v' _ => (∃ d, r = .ok d) ∧ v'.free.Packed ∧
      v'.free.used + sectorsTaken f.layout.count =
        v.free.used + sectorsTaken (max f.layout.count (sectorsFor length)) := by
  obtain ⟨sector, openers, removed, denials, disk'⟩ := node
  obtain rfl : sector = f.sector := sector_of_find? found
  have disk := sound.disk_of_find? found
  have used := sound.holds.used
  unfold sectorsTaken at room ⊢
  rw [grow, Action.ensures_bind]
  refine onBlocks_spec ?_
  dsimp only at disk used ⊢
  rw [disk]
  refine (FileBlocks.growTo_packed sound.holds packed fits (by omega)).mono ?_
  rintro r b image' ⟨rfl, packed', used'⟩
  simp only [Action.onward_ok, Action.ensures_bind, Action.ensures_modify,
    Action.ensures_liftExcept, Action.ensures_writeInode, Action.ensures_pure]
  exact ⟨sound.inside List.mem_cons_self, ⟨⟨_, rfl⟩, packed', by dsimp only [put]; omega⟩,
    False.elim⟩

/-- A file is made as long as asked for where there is room for that. -/
theorem reach_works {node : LoadedInode} (sound : v.Sound image (f :: rest))
    (found : v.find? f.sector = some node) (packed : v.free.Packed) (fits : length ≤ maxFileBytes)
    (room : v.free.used + sectorsTaken (max f.layout.count (sectorsFor length)) ≤
      m + sectorsTaken f.layout.count) :
    (reach node length).Ensures m False v image fun r v' _ => (∃ d, r = .ok d) ∧ v'.free.Packed ∧
      v'.free.used + sectorsTaken f.layout.count =
        v.free.used + sectorsTaken (max f.layout.count (sectorsFor length)) := by
  have disk := sound.disk_of_find? found
  have count := (sound.each f List.mem_cons_self).count
  rw [reach, disk]
  split
  case isTrue => exact grow_works sound found packed fits room
  case isFalse long =>
    have same : max f.layout.count (sectorsFor length) = f.layout.count := by
      unfold sectorsFor at count ⊢
      omega
    exact ⟨⟨_, rfl⟩, packed, by rw [same]⟩

/-- A write succeeds where there is room for the file to reach its end. -/
theorem writeBytes_works {h : Handle} {node : LoadedInode} {off : Nat} {data : List UInt8}
    (sound : v.Sound image (f :: rest)) (at_sector : h.sector = f.sector)
    (found : v.find? f.sector = some node) (free : node.denials = 0) (some_data : data ≠ [])
    (packed : v.free.Packed) (fits : off + data.length ≤ maxFileBytes)
    (room : v.free.used + sectorsTaken (max f.layout.count (sectorsFor (off + data.length))) ≤
      m + sectorsTaken f.layout.count) :
    (writeBytes h off data).Ensures m False v image fun r v' _ => r = .ok data.length ∧
      v'.free.Packed ∧ v'.free.used + sectorsTaken f.layout.count =
        v.free.used + sectorsTaken (max f.layout.count (sectorsFor (off + data.length))) := by
  have some_bytes : 0 < data.length := List.length_pos_iff.2 some_data
  have works : ¬ (0 < node.denials ∨ data = []) := by
    rw [free]
    exact not_or.2 ⟨Nat.lt_irrefl 0, some_data⟩
  have reaches : (reach node (off + data.length)).Ensures m False v image fun r v' image' =>
      ∀ d, r = .ok d → ∃ f' : LiveFile, d = f'.disk ∧ f'.Mapped m image' ∧
        f'.disk.length = max f.disk.length (off + data.length) := by
    refine reach_spec sound found (fun v' image' f' changed _ length _ d same => ?_)
      fun _ e _ _ _ _ d same => by cases same
    exact ⟨f', (Except.ok.inj same).symm, (changed.sound.each f' List.mem_cons_self).mapped, length⟩
  rw [writeBytes, Action.ensures_bind]
  refine node_spec (by rwa [at_sector]) ?_
  rw [Action.onward_ok, if_neg works, Action.ensures_bind]
  refine ((reach_works sound found packed fits room).and reaches).mono ?_
  rintro r v' image' ⟨⟨⟨d, rfl⟩, packed', used⟩, reaches⟩
  obtain ⟨f', rfl, mapped, length⟩ := reaches d rfl
  rw [Action.onward_ok, Action.ensures_bind]
  exact writeChunks_spec mapped.stored some_bytes (by omega) mapped.long
    (fun _ _ => ⟨rfl, packed', used⟩) False.elim

/-- A file without blocks for which there are `8 * k`, but not the group that comes next, stays as it
is. What the sectors held that it had for a while is lost. -/
theorem writeBytes_refused {k : Nat} {h : Handle} {node : LoadedInode} {off : Nat}
    {data : List UInt8} (found : v.find? h.sector = some node) (free : node.denials = 0)
    (some_data : data ≠ []) (empty : node.disk = .empty isDirectory parent)
    (packed : v.free.Packed) (marks : v.free.Marks others) (reserved : 0 ∈ others)
    (small : m ≤ 0x100000000) (fits : off + data.length ≤ maxFileBytes)
    (more : 8 * k < sectorsFor (off + data.length))
    (room : others.length + (8 * groupsFor (8 * k) + indexFor (8 * k)) ≤ m)
    (full : m < others.length + (8 * groupsFor (8 * k) + indexFor (8 * k)) + groupSize) :
    (writeBytes h off data).Ensures m False v image fun r _ image' => r = .error .noSpace ∧
      ∃ b₁ l', b₁.free.Packed ∧ FileBlocks.Extended ⟨node.disk, v.free⟩ b₁ image image' .nothing l'
        others ∧ l'.count = 8 * k := by
  have works : ¬ (0 < node.denials ∨ data = []) := by
    rw [free]
    exact not_or.2 ⟨Nat.lt_irrefl 0, some_data⟩
  have short : node.disk.length < off + data.length := by
    rw [empty]
    exact Nat.lt_of_lt_of_le (List.length_pos_iff.2 some_data) (Nat.le_add_left _ off)
  have holds : (⟨node.disk, v.free⟩ : FileBlocks m).Holds image .nothing others :=
    empty ▸ FileBlocks.holds_empty marks reserved small isDirectory parent
  rw [writeBytes, Action.ensures_bind]
  refine node_spec found ?_
  rw [Action.onward_ok, if_neg works, Action.ensures_bind, reach, if_pos short, grow,
    Action.ensures_bind]
  refine onBlocks_spec ((FileBlocks.growTo_refused holds packed fits (Nat.zero_le _)
    (Nat.mul_mod_right 8 k) more room full).mono ?_)
  rintro r b image' ⟨rfl, cleared⟩
  simp only [Action.onward_ok, Action.ensures_bind, Action.ensures_modify,
    Action.ensures_liftExcept, Action.onward_error]
  exact ⟨trivial, cleared⟩

end Volume

end SectorFs
