/-
# SectorFs.Proofs.Session.Rollback — operations that run out of space

Where no request fails, a growth that fails gives back exactly what it had taken, wherever it
stopped (`Unwinds`). So inode and free map are as before, in all their bits, and so are all
inodes and their bytes after a write or a create that fails (`rollsBack_of_served`).

Two things cannot be left out. One is that what is opened is an inode: in `Eleven.crafted` a caller
has written words into a block that look like one, with a cursor into a group that is in use, and a
growth that fails frees that group (`exists_unreturned_eleven`). The other is that a device is
mounted only after a sync: otherwise its map can be older than its inodes, and a growth that fails
has cleared sectors that belong to another one (`exists_unsynced_eighteen`).
-/
import SectorFs.Proofs.Session.Declines

namespace SectorFs

set_option autoImplicit false

variable {m : Nat} {mayFail : Prop} {e : Expected} {t : Sector} {i : Nat} {d : Inode}
  {failure : Failure}

namespace Session

variable {s s' : Session m}

/-! ## Growth that fails -/

/-- A growth returns, and if it fails inode and free map are as before, and every block is found
where it was. -/
def Unwinds {k : Nat} (store : Cache k m 512) (b : FileBlocks m) (length : Nat) : Prop :=
  ∃ r b' store', (FileBlocks.growTo length).run b store = .ok ((r, b'), store') ∧
    ∀ failure, r = .error failure → failure ≠ .io ∧ b' = b ∧
      ∀ i, i < b.disk.blockCount → ∃ t, b.disk.Locates store i t ∧ b.disk.Locates store' i t

theorem locates_of_stored {k : Nat} {store : Cache k m 512} {l : Layout} (ready : store.Ready)
    (never : ¬ store.MayFail) (stored : l.Stored m d store.image) (inside : i < l.count) :
    d.Locates store i (Sector.ofNat (l.block i)) := by
  obtain ⟨⟨r, memory⟩, after, ran, -, -, rfl⟩ :=
    Cache.run_of_ensures ready (show store.MayFail → False from never) (locates_spec stored inside)
  exact ⟨after, ran⟩

theorem unwinds_of_holds {k : Nat} {store : Cache k m 512} {b : FileBlocks m} {l : Layout}
    {others : List Nat} (ready : store.Ready) (never : ¬ store.MayFail)
    (holds : b.Holds store.image l others) (length : Nat) : Unwinds store b length := by
  obtain ⟨⟨r, b'⟩, store', ran, ready', fails, ends⟩ :=
    Cache.run_of_ensures ready (show store.MayFail → False from never)
      (FileBlocks.growTo_undone holds)
  refine ⟨r, b', store', ran, ?_⟩
  rintro failure rfl
  obtain ⟨other, rfl, holds', -⟩ := ends
  refine ⟨other, rfl, fun i inside => ?_⟩
  rw [holds.stored.describes.blockCount holds.stored.whole] at inside
  refine ⟨_, locates_of_stored ready never holds.stored inside, locates_of_stored ready' ?_
    holds'.stored inside⟩
  rwa [Cache.MayFail, fails]

/-- Growth that fails is taken back, that of a file that is open and that of a new one, and a write
or a create that fails leaves everything as it was. -/
structure RollsBack (s : Session m) (e : Expected) : Prop where
  open_file {t : Sector} {node : LoadedInode} (length : Nat) :
    s.fs.volume.find? t = some node →
      Unwinds s.fs.store ⟨node.disk, s.fs.volume.free⟩ length
  new_file {t : Sector} {free : FreeMap m} (isDirectory : Bool) (parent : Sector) (length : Nat) :
    s.fs.volume.free.allocate 1 = .ok (some t, free) →
      Unwinds s.fs.store ⟨.empty isDirectory parent, free⟩ length
  write {i off : Nat} {data : List UInt8} {failure : Failure} {s' : Session m} :
    s.step (.write i off data) = .ok (.failed failure, s') →
      s'.fs.volume.free = s.fs.volume.free ∧ s.Untouched s' e
  create {length : Nat} {isDirectory : Bool} {parent : Sector} {failure : Failure}
      {s' : Session m} :
    s.step (.create length isDirectory parent) = .ok (.failed failure, s') →
      s'.fs.volume.free = s.fs.volume.free ∧ s.Untouched s' e

namespace Serves

variable (serves : s.Serves False e)
include serves

theorem open_unwinds {node : LoadedInode} (found : s.fs.volume.find? t = some node)
    (length : Nat) : Unwinds s.fs.store ⟨node.disk, s.fs.volume.free⟩ length := by
  obtain ⟨files, lost, safely⟩ := serves.safely
  obtain ⟨f, mem, rfl, disk⟩ := safely.safe.loaded (Volume.disks_of_find? found)
  obtain ⟨front, back, rfl⟩ := List.append_of_mem mem
  have holds := (safely.safe.perm List.perm_middle).holds
  rw [disk] at holds
  exact unwinds_of_holds serves.ready serves.may holds length

theorem new_unwinds {free : FreeMap m} (taken : s.fs.volume.free.allocate 1 = .ok (some t, free))
    (isDirectory : Bool) (parent : Sector) (length : Nat) :
    Unwinds s.fs.store ⟨.empty isDirectory parent, free⟩ length := by
  obtain ⟨files, lost, safely⟩ := serves.safely
  have safe := safely.safe
  rcases FreeMap.allocate_spec safe.marks safe.small Nat.one_pos with
    none | ⟨t', free', taken', -, marks⟩
  · cases taken.symm.trans none
  · cases taken.symm.trans taken'
    have zero := List.mem_append_left lost safe.zero
    exact unwinds_of_holds serves.ready serves.may (FileBlocks.holds_empty marks
      (List.mem_append_right _ zero) safe.small isDirectory parent) length

theorem write_rollsBack {off : Nat} {data : List UInt8}
    (stepped : s.step (.write i off data) = .ok (.failed failure, s')) :
    s'.fs.volume.free = s.fs.volume.free ∧ s.Untouched s' e := by
  obtain ⟨files, lost, safely⟩ := serves.safely
  cases found : e.handle i with
  | none =>
    have missing : s.handle i = none := by
      rw [handle_eq_join, serves.handles]
      exact found
    rw [step_noHandle missing rfl] at stepped
    cases stepped
  | some h =>
    obtain ⟨f, rest, at_sector, safely⟩ := safely.split_handle found
    obtain ⟨node, loaded, -⟩ := Volume.exists_of_status (safely.status_handle found)
    have safe := safely.safe
    obtain ⟨answer, s₁, stepped₁, handles, ends⟩ := tell_spec (s := s) (P := fun answer s' =>
      s'.handles = s.handles ∧ ∀ failure, answer = .failed failure →
        s'.fs.volume.free = s.fs.volume.free ∧ s'.fs.volume.find? = s.fs.volume.find? ∧
          f.Mapped m s'.image ∧ Kept (f.sector.index :: (rest.flatMap LiveFile.owned ++ lost))
            f.layout s.image s'.image)
      serves.ready serves.may (x := .written <$> Volume.writeBytes h off data) (by
        rw [Action.ensures_map]
        refine (Volume.write_undone safe at_sector.symm (by rwa [at_sector])).mono ?_
        rintro (e | n) v image failed fs - rfl rfl
        · refine ⟨rfl, ?_⟩
          rintro _ ⟨⟩
          exact (failed _ rfl).2
        · refine ⟨rfl, ?_⟩
          rintro _ ⟨⟩)
    rw [step_handle (serves.handle_eq found) rfl] at stepped
    cases stepped.symm.trans stepped₁
    obtain ⟨free, opens, mapped, kept⟩ := ends failure rfl
    refine ⟨free, .of_stays safely opens handles fun g mem => ?_⟩
    rcases List.mem_cons.1 mem with rfl | mem
    · exact ⟨kept.others _ List.mem_cons_self, mapped, kept.blocks⟩
    · refine .of_kept (safe.each g (List.mem_cons_of_mem f mem)).toMapped fun t own => ?_
      exact kept.others t (List.mem_cons_of_mem _ (List.mem_append_left _
        (List.mem_flatMap.2 ⟨g, mem, own⟩)))

end Serves

/-- **What runs out of space is taken back exactly**, where no device call fails, what is opened is
an inode, and the free map's file is not removed. -/
theorem rollsBack_of_served (served : Served False s e) : s.RollsBack e where
  open_file length found := served.serves.open_unwinds found length
  new_file isDirectory parent length taken :=
    served.serves.new_unwinds taken isDirectory parent length
  write stepped := served.serves.write_rollsBack stepped
  create stepped := by
    obtain ⟨declines, exact⟩ := served.serves.create_declines stepped
    exact ⟨exact (.inl id), declines.toUntouched⟩

/-- There is room for an inode of eight blocks. Of one with nine the first eight are taken back, and
then the sector of the inode. -/
theorem rollsBack_of_served_nine :
    ∃ (fs : FileSystem (Cache 1 19 512) 19) (s s' : Session 19),
      FileSystem.format (Cache.new (Device.filled 19 512 7) { slots := 1 }) =
        .ok (.ok (), some fs) ∧
      Session.step ⟨{ slots := 1 }, fs, []⟩ (.create 4096 false Sector.root) =
        .ok (.made ⟨10⟩, s) ∧ s.fs.volume.free.countFree = 0 ∧
      Session.step ⟨{ slots := 1 }, fs, []⟩ (.create 4097 false Sector.root) =
        .ok (.failed .noSpace, s') ∧
      Session.RollsBack ⟨{ slots := 1 }, fs, []⟩ .start ∧
      s'.fs.volume.free = fs.volume.free := by
  have reliable : ∀ number kind b, (Device.filled 19 512 7).fails number kind b = false :=
    fun _ _ _ => rfl
  obtain ⟨fs, formatted, filled⟩ :=
    exists_format _ { slots := 1 } (by decide) (by decide) (by decide) reliable
  obtain ⟨s, created, filled'⟩ :=
    filled.creates 4096 (by decide) false Sector.root (by decide)
  obtain ⟨s', refused⟩ := filled.refuses (k := 1) 4097 (by decide) false Sector.root
    (by decide) (by decide) (by decide)
  have served : Served False ⟨{ slots := 1 }, fs, []⟩ .start :=
    .formatted (fun unreliable => unreliable reliable) formatted
  have back := rollsBack_of_served served
  exact ⟨fs, s, s', formatted, created, filled'.countFree.trans (by decide), refused,
    back, (back.create refused).1⟩

end Session

/-! ## What only looks like an inode -/

namespace Volume.Eleven

/-- Words that look like an inode of eleven blocks, with all of a group left: that of the free map's
file. -/
def crafted : Inode :=
  { Inode.empty false Sector.root with countWord := 11, cursorWord := 2, leftWord := 8 }

/-- It has one block more, out of that group. -/
def craftedGrown : Inode :=
  { crafted with
    countWord := 12, cursorWord := 3, leftWord := 7
    pointers := (Vector.replicate 15 0).set 11 2 }

/-- The free map when the group of the free map's file was given back. -/
def unreturned : FreeMap 11 := ⟨Vector.ofFn fun i => decide (i.val < 2 ∨ i.val = 10), 3⟩

theorem append_crafted {Q : Except Failure Unit → FileBlocks 11 → Image → Prop} {image : Image}
    (ok : ∀ image', Q (.ok ()) ⟨craftedGrown, used 11⟩ image') :
    (FileBlocks.append : BlockAction 11 Unit).Ensures 11 False ⟨crafted, used 11⟩ image Q := by
  have count : crafted.blockCount = 11 := rfl
  have left : crafted.groupLeft = 8 := rfl
  have cursor : crafted.cursor = some ⟨2⟩ := rfl
  have place : Place.of 11 = some (.direct 11) := rfl
  have attached : FileBlocks.attach crafted (.direct 11) ⟨2⟩ 8 ⟨none, none, none⟩ =
      .ok craftedGrown := rfl
  simp [FileBlocks.append, count, place, FileBlocks.appendAt, FileBlocks.needs,
    FileBlocks.nextSector, left, cursor, FileBlocks.takeIf, Action.onFailure, FileBlocks.link,
    FileBlocks.NewSectors.indexBlocks, attached, FileBlocks.setDisk, Sector.index, ok]

/-- There is no sector for the index block. -/
theorem append_craftedGrown {Q : Except Failure Unit → FileBlocks 11 → Image → Prop}
    {image : Image} (full : Q (.error .noSpace) ⟨craftedGrown, used 11⟩ image) :
    (FileBlocks.append : BlockAction 11 Unit).Ensures 11 False ⟨craftedGrown, used 11⟩ image Q := by
  have count : craftedGrown.blockCount = 12 := rfl
  have left : craftedGrown.groupLeft = 7 := rfl
  have cursor : craftedGrown.cursor = some ⟨3⟩ := rfl
  have place : Place.of 12 = some (.indirect 0) := rfl
  have unlinked : craftedGrown.pointer indirectPointer = none := rfl
  have none_free : (used 11).allocate 1 = .ok (none, used 11) := rfl
  simp [FileBlocks.append, count, place, FileBlocks.appendAt, FileBlocks.needs,
    FileBlocks.nextSector, left, cursor, unlinked, FileBlocks.takeIf, FileBlocks.take, none_free,
    Action.onFailure, FileBlocks.NewSectors.giveBack, FileBlocks.NewSectors.indexBlocks, full]

/-- Taking the block away again makes the group whole. -/
theorem pop_craftedGrown {Q : Except Failure Unit → FileBlocks 11 → Image → Prop} {image : Image}
    (ok : ∀ d, Q (.ok ()) ⟨d, unreturned⟩ image) :
    (FileBlocks.pop : BlockAction 11 Unit).Ensures 11 False ⟨craftedGrown, used 11⟩ image Q := by
  have count : craftedGrown.blockCount = 12 := rfl
  have place : Place.of 11 = some (.direct 11) := rfl
  have named : craftedGrown.pointer (Inode.directPointer 11) = some ⟨2⟩ := rfl
  have next : FileBlocks.checkCursor (FileBlocks.detach craftedGrown (.direct 11)) ⟨2⟩ =
    .ok () := rfl
  have left : (FileBlocks.detach craftedGrown (.direct 11)).groupLeft = 7 := rfl
  have given : (used 11).release ⟨2⟩ 8 = .ok unreturned := rfl
  have small : word32 0 = .ok 0 := rfl
  have small' : word32 11 = .ok 11 := rfl
  simp [FileBlocks.pop, count, place, FileBlocks.popAt, FileBlocks.lastSector, named,
    FileBlocks.regroup, next, left, groupSize, FileBlocks.give, given, Inode.withGroupLeft,
    Inode.withBlockCount, small, small', FileBlocks.setDisk, ok]

theorem growTo_crafted {Q : Except Failure Unit → FileBlocks 11 → Image → Prop} {image : Image}
    (full : ∀ d image', Q (.error .noSpace) ⟨d, unreturned⟩ image') :
    (FileBlocks.growTo 6145 : BlockAction 11 Unit).Ensures 11 False ⟨crafted, used 11⟩ image Q := by
  have fits : 6145 ≤ maxFileBytes := by decide
  have count : crafted.blockCount = 11 := rfl
  have count' : craftedGrown.blockCount = 12 := rfl
  have blocks : sectorsFor 6145 - 11 = 2 := rfl
  simp only [FileBlocks.growTo, fits, count, blocks, decide_true, FileBlocks.appendMany,
    Action.onFailure, Action.ensures_bind, Action.ensures_ensure, Action.ensures_get,
    Action.onward_ok, Action.ensures_tryCatch, if_true]
  refine append_crafted fun image₁ => ?_
  simp only [Action.onward_ok, Action.ensures_bind]
  refine append_craftedGrown ?_
  simp only [Action.onward_error, Action.ensures_bind, Action.ensures_ignoreError,
    FileBlocks.trimTo, Action.ensures_get, Action.onward_ok, count', FileBlocks.popMany]
  refine pop_craftedGrown fun d => ?_
  simp [full]

theorem growTo_map {Q : Except Failure Unit → FileBlocks 11 → Image → Prop} {image : Image}
    {free : FreeMap 11} (ok : Q (.ok ()) ⟨mapInode 512, free⟩ image) :
    (FileBlocks.growTo 512 : BlockAction 11 Unit).Ensures 11 False ⟨mapInode 2, free⟩ image Q := by
  have fits : 512 ≤ maxFileBytes := by decide
  have blocks : sectorsFor 512 - (mapInode 2).blockCount = 0 := rfl
  have short : (mapInode 2).length < 512 := by decide
  have longer : (mapInode 2).withLength 512 = .ok (mapInode 512) := rfl
  simp [FileBlocks.growTo, fits, blocks, FileBlocks.appendMany, Action.onFailure,
    FileBlocks.lengthen, FileBlocks.setDisk, short, longer, ok]

theorem length_crafted : crafted.encode.bytes.length = 512 := by simp [Block.bytes]

theorem writeChunks_crafted {Q : Except Failure Unit → Volume 11 → Image → Prop}
    {v : Volume 11} {image : Image}
    (ok : Q (.ok ()) v (Function.update image 2 crafted.encode)) :
    (writeChunks (mapInode 512) 512 (chunks 0 512) crafted.encode.bytes).Ensures 11 False v image
      Q := by
  have cut : chunks 0 512 = [⟨0, 512⟩] := rfl
  have offset : (⟨0, 512⟩ : Chunk).offset = 0 := rfl
  have length : (mapInode 512).length = 512 := rfl
  have count : (mapInode 512).blockCount = 1 := rfl
  have place : Place.of 0 = some (.direct 0) := rfl
  have named : (mapInode 512).pointer (Inode.directPointer 0) = some ⟨2⟩ := rfl
  have whole : crafted.encode.bytes.take 512 = crafted.encode.bytes :=
    List.take_of_length_le (Nat.le_of_eq length_crafted)
  have found : ((mapInode 512).sectorOfByte 0 : VolumeAction 11 _) = pure (some ⟨2⟩) := by
    simp [Inode.sectorOfByte, Inode.sectorOfBlock, length, count, place, named]
  have written : (Action.write ⟨2⟩ 0 crafted.encode.bytes : VolumeAction 11 Unit) =
    Action.writeInode ⟨2⟩ crafted := rfl
  simp only [cut, writeChunks, writeChunk, found, offset, whole, written, pure_bind,
    Action.ensures_bind, Action.ensures_writeInode, Action.onward_ok, Action.ensures_pure]
  exact ⟨by decide, ok, False.elim⟩

/-- They are written to the block of the free map's file. -/
theorem write_crafted {Q : Except Failure Nat → Volume 11 → Image → Prop} {v : Volume 11}
    {image : Image}
    (found : v.find? Sector.freeMap = some ⟨Sector.freeMap, 1, false, 0, mapInode 2⟩)
    (ok : ∀ v' image', v'.free = v.free → v'.find? = Function.update v.find? Sector.freeMap
      (some ⟨Sector.freeMap, 1, false, 0, mapInode 512⟩) →
      Inode.decode (image' 2) = crafted → Q (.ok 512) v' image') :
    (writeBytes { sector := Sector.freeMap } 0 crafted.encode.bytes).Ensures 11 False v image
      Q := by
  have works : ¬ (0 < 0 ∨ crafted.encode.bytes = []) :=
    not_or.2 ⟨Nat.lt_irrefl 0, List.length_pos_iff.1 (by rw [length_crafted]; decide)⟩
  have short : (mapInode 2).length < 512 := by decide
  have inside : Sector.freeMap.index < 11 := by decide
  rw [writeBytes, Action.ensures_bind]
  refine node_spec found ?_
  rw [Action.onward_ok, if_neg works, length_crafted, Nat.zero_add, reach, if_pos short, grow]
  simp only [Action.ensures_bind]
  refine onBlocks_spec (growTo_map ?_)
  simp only [Action.onward_ok, Action.ensures_bind, Action.ensures_modify,
    Action.ensures_liftExcept, Action.ensures_writeInode, Action.ensures_pure, inside, true_and]
  refine ⟨writeChunks_crafted ?_, False.elim⟩
  rw [Action.onward_ok, Action.ensures_pure]
  refine ok _ _ rfl (find?_put_self (v := { v with free := v.free }) found _ rfl) ?_
  rw [Function.update_self, Inode.decode_encode]

/-- They open as an inode, and a write through it frees a group that is in use. -/
theorem write_beyond_crafted {Q : Except Failure Nat → Volume 11 → Image → Prop} {v : Volume 11}
    {image : Image} (found : v.find? ⟨2⟩ = some ⟨⟨2⟩, 1, false, 0, crafted⟩)
    (free : v.free = used 11)
    (full : ∀ v' image', v'.free = unreturned → Q (.error .noSpace) v' image') :
    (writeBytes { sector := ⟨2⟩ } 6144 [0]).Ensures 11 False v image Q := by
  have works : ¬ (0 < 0 ∨ [(0 : UInt8)] = []) := by decide
  have short : crafted.length < 6145 := by decide
  have length : 6144 + [(0 : UInt8)].length = 6145 := rfl
  rw [writeBytes, Action.ensures_bind]
  refine node_spec found ?_
  rw [Action.onward_ok, if_neg works, length, reach, if_pos short, grow]
  simp only [Action.ensures_bind]
  refine onBlocks_spec ?_
  rw [free]
  refine growTo_crafted fun d image' => ?_
  simp only [Action.onward_ok, Action.ensures_bind, Action.ensures_modify,
    Action.ensures_liftExcept, Action.onward_error]
  exact full _ _ rfl

end Volume.Eleven

namespace Session

open Volume.Eleven

/-- A new inode takes the last sector of a new file system, and nothing is open. -/
theorem exists_full_eleven {config : CacheSetup} {device : Device 11 512}
    {fs : FileSystem (Cache config.slots 11 512) 11}
    (reliable : ∀ number kind b, device.fails number kind b = false)
    (formatted : FileSystem.format (Cache.new device config) = .ok (.ok (), some fs))
    (filled : FilledTo ⟨config, fs, []⟩ .start 10) :
    ∃ s, step ⟨config, fs, []⟩ (.create 0 false Sector.root) = .ok (.made ⟨10⟩, s) ∧
      s.fs.Up ∧ s.handles = [] ∧ s.fs.volume.free = used 11 ∧
      s.fs.volume.find? = (fun _ => none) ∧ Inode.decode (s.image 0) = mapInode 2 := by
  obtain ⟨slots, -⟩ := FileSystem.started formatted
  obtain ⟨r, fs', started, -, -, rfl, free, stored⟩ := FileSystem.start_spec .noSpace slots
    (by decide) (fun may => may reliable) (Volume.format_eleven device.image)
  rw [FileSystem.format, started] at formatted
  cases formatted
  obtain ⟨s, created, filled', same⟩ := filled.creates_empty false Sector.root (by decide)
  obtain ⟨files, agrees⟩ := filled'.agrees
  obtain ⟨answer, s', created', free'⟩ := tell_spec (s := ⟨config, fs, []⟩)
    (P := fun _ s' => s'.fs.volume.free = used 11) filled.up.ready filled.up.never
    (x := .made <$> Volume.create 0 false Sector.root) (by
      rw [Action.ensures_map]
      refine (Volume.create_eleven free _).mono ?_
      rintro r v image ⟨-, free, -⟩ fs - rfl -
      exact free)
  cases created.symm.trans created'
  refine ⟨s, created, filled'.up, filled'.handles, free', ?_, ?_⟩
  · funext t
    exact Option.map_eq_none_iff.1 (congrFun agrees.status t)
  · rw [same, Function.update_of_ne (by decide)]
    exact stored

/-- What is stored at a sector is opened. -/
theorem open_stored {s : Session m} (up : s.fs.Up) (inside : t.index < m)
    (closed : s.fs.volume.find? t = none) (stored : Inode.decode (s.image t.index) = d)
    (marked : d.isMarked = true) :
    ∃ s', s.step (.open t) = .ok (.done, s') ∧ s'.fs.Up ∧
      s'.handles = s.handles ++ [some { sector := t }] ∧ s'.image = s.image ∧
      s'.fs.volume.free = s.fs.volume.free ∧
      s'.fs.volume.find? = Function.update s.fs.volume.find? t (some ⟨t, 1, false, 0, d⟩) := by
  subst stored
  obtain ⟨answer, s', opened, rfl, open_now⟩ := keep_spec (s := s)
    (fun h => s.handles ++ [some h]) (x := Volume.openAt t)
    (P := fun answer s' => answer = .done ∧ s'.fs.Up ∧
      s'.handles = s.handles ++ [some { sector := t }] ∧ s'.image = s.image ∧
      s'.fs.volume.free = s.fs.volume.free ∧ s'.fs.volume.find? = Function.update
        s.fs.volume.find? t (some ⟨t, 1, false, 0, Inode.decode (s.image t.index)⟩))
    up.ready up.never (by
      refine Volume.openAt_stored inside closed (fun _ v free found => ?_) (fun unmarked => ?_)
        False.elim
      · rintro fs leads rfl shows
        exact ⟨rfl, up.leads leads, rfl, shows, free, found⟩
      · rw [marked] at unmarked
        cases unmarked)
  exact ⟨s', opened, open_now⟩

/-- A block is asked for that there is no room for, and eight sectors that were in use are free. -/
theorem exists_unreturned_eleven :
    ∃ (fs : FileSystem (Cache 1 11 512) 11) (s₁ s₂ s₃ s₄ s₅ : Session 11),
      FileSystem.format (Cache.new (Device.filled 11 512 7) { slots := 1 }) =
        .ok (.ok (), some fs) ∧
      Session.step ⟨{ slots := 1 }, fs, []⟩ (.create 0 false Sector.root) =
        .ok (.made ⟨10⟩, s₁) ∧
      s₁.step (.open Sector.freeMap) = .ok (.done, s₂) ∧
      s₂.step (.write 0 0 crafted.encode.bytes) = .ok (.written 512, s₃) ∧
      s₃.step (.open ⟨2⟩) = .ok (.done, s₄) ∧
      s₄.step (.write 1 6144 [0]) = .ok (.failed .noSpace, s₅) ∧
      s₄.fs.volume.free.inUse 0 = true ∧ s₅.fs.volume.free.inUse 0 = true ∧
      s₄.fs.volume.free.countFree = 0 ∧ s₅.fs.volume.free.countFree = 8 := by
  have reliable : ∀ number kind b, (Device.filled 11 512 7).fails number kind b = false :=
    fun _ _ _ => rfl
  obtain ⟨fs, formatted, filled⟩ :=
    exists_format _ { slots := 1 } (by decide) (by decide) (by decide) reliable
  obtain ⟨s₁, created, up₁, handles₁, free₁, closed₁, stored₁⟩ :=
    exists_full_eleven reliable formatted filled
  obtain ⟨s₂, opened, up₂, handles₂, -, free₂, open₂⟩ :=
    open_stored up₁ (t := Sector.freeMap) (by decide) (congrFun closed₁ _) stored₁ rfl
  rw [handles₁] at handles₂
  rw [free₁] at free₂
  obtain ⟨answer, s₃, written, rfl, up₃, handles₃, free₃, closed₃, stored₃⟩ := tell_spec (s := s₂)
    (P := fun answer s => answer = .written 512 ∧ s.fs.Up ∧
      s.handles = [some { sector := Sector.freeMap }] ∧ s.fs.volume.free = used 11 ∧
      s.fs.volume.find? ⟨2⟩ = none ∧ Inode.decode (s.image 2) = crafted)
    (x := .written <$> Volume.writeBytes { sector := Sector.freeMap } 0 crafted.encode.bytes)
    up₂.ready up₂.never (by
      rw [Action.ensures_map]
      refine write_crafted (by rw [open₂, Function.update_self]) fun v image free opens stored => ?_
      rintro fs leads rfl rfl
      refine ⟨rfl, up₂.leads leads, handles₂, free.trans free₂, ?_, stored⟩
      rw [opens, Function.update_of_ne (by decide), open₂, Function.update_of_ne (by decide),
        closed₁])
  obtain ⟨s₄, opened₄, up₄, handles₄, -, free₄, open₄⟩ :=
    open_stored up₃ (t := ⟨2⟩) (by decide) closed₃ stored₃ rfl
  rw [handles₃] at handles₄
  rw [free₃] at free₄
  obtain ⟨answer, s₅, failed, rfl, free₅⟩ := tell_spec (s := s₄)
    (P := fun answer s => answer = .failed .noSpace ∧ s.fs.volume.free = unreturned)
    (x := .written <$> Volume.writeBytes { sector := ⟨2⟩ } 6144 [0])
    up₄.ready up₄.never (by
      rw [Action.ensures_map]
      refine write_beyond_crafted (by rw [open₄, Function.update_self]) free₄ fun v image free => ?_
      rintro fs - rfl -
      exact ⟨rfl, free⟩)
  refine ⟨fs, s₁, s₂, s₃, s₄, s₅, formatted, created, opened, ?_, opened₄, ?_, ?_⟩
  · rwa [step_handle (h := { sector := Sector.freeMap }) (by rw [handle_eq_join, handles₂]; rfl) rfl]
  · rwa [step_handle (h := { sector := ⟨2⟩ }) (by rw [handle_eq_join, handles₄]; rfl) rfl]
  · rw [free₄, free₅]
    decide

/-- Inodes are made at sectors 10, 11 and 12, and the device is mounted as it is, without a sync: the
map on it does not know of them. The second one is opened, and a block is asked for that there is no
room for. On the way to it the first one is lost. -/
theorem exists_unsynced_eighteen :
    ∃ (fs fs' : FileSystem (Cache 1 18 512) 18) (s₁ s₂ s₃ s₄ s₅ : Session 18),
      FileSystem.format (Cache.new (Device.filled 18 512 7) { slots := 1 }) =
        .ok (.ok (), some fs) ∧
      step ⟨{ slots := 1 }, fs, []⟩ (.create 0 false Sector.root) = .ok (.made ⟨10⟩, s₁) ∧
      s₁.step (.create 0 false Sector.root) = .ok (.made ⟨11⟩, s₂) ∧
      s₂.step (.create 0 false Sector.root) = .ok (.made ⟨12⟩, s₃) ∧
      FileSystem.mount (Cache.new s₃.fs.store.device { slots := 1 }) = .ok (.ok (), some fs') ∧
      step ⟨{ slots := 1 }, fs', []⟩ (.open ⟨11⟩) = .ok (.done, s₄) ∧
      s₄.step (.write 0 4096 [1]) = .ok (.failed .noSpace, s₅) ∧
      Inode.decode (s₄.image 10) = .empty false Sector.root ∧
      (Inode.decode (s₅.image 10)).isMarked = false := by
  obtain ⟨fs, formatted, filled, map, root, made⟩ := exists_made (Device.filled 18 512 7)
    { slots := 1 } (by decide) (by decide) (by decide) fun _ _ _ => rfl
  have ten : systemSectors 18 = 10 := by decide
  rw [ten] at filled
  obtain ⟨s₁, first, filled₁, image₁⟩ := filled.creates_empty false Sector.root (by decide)
  obtain ⟨s₂, second, filled₂, image₂⟩ := filled₁.creates_empty false Sector.root (by decide)
  obtain ⟨s₃, third, filled₃, image₃⟩ := filled₂.creates_empty false Sector.root (by decide)
  have config : s₃.config = { slots := 1 } := (config_of_step third nofun).trans
    ((config_of_step second nofun).trans (config_of_step first nofun))
  -- the cache has stored all but the last inode
  obtain ⟨ready₃, b, block, owes⟩ := owes_of_create filled₂.up.ready third
  have stored (t : Nat) (other : t ≠ 12) : s₃.fs.store.device.image t =
      Function.update (Function.update fs.store.image 10 (Inode.empty false Sector.root).encode) 11
        (Inode.empty false Sector.root).encode t := by
    rw [Cache.image_of_owes ready₃.resting (by rw [config]) owes (block ▸ other)]
    change s₃.image t = _
    rw [image₃, Function.update_of_ne other, image₂, image₁]
    rfl
  have unsynced : Volume.Made fs.volume s₃.fs.store.device.image map root := by
    refine made.congr fun t inside used => ?_
    have old : t < 10 := (filled.inUse inside).1 used
    rw [stored t (by omega), Function.update_of_ne (by omega), Function.update_of_ne (by omega)]
  obtain ⟨r, fs', mounted, ready, fails, rfl, free, shown, made'⟩ :=
    FileSystem.start_spec .notFormatted (show 0 < ({ slots := 1 } : CacheSetup).slots by decide)
      (by decide) (fun may => may filled₃.up.reliable) unsynced.mount_spec
  have up : fs'.Up := ⟨ready, fails ▸ filled₃.up.reliable⟩
  have closed : fs'.volume.find? ⟨11⟩ = none :=
    Option.map_eq_none_iff.1 (congrFun made'.closed ⟨11⟩)
  have second_inode : Inode.decode (fs'.store.image 11) = .empty false Sector.root := by
    rw [shown, stored 11 (by decide), Function.update_self, Inode.decode_encode]
  obtain ⟨s₄, opened, up₄, handles, shows, free₄, found⟩ := open_stored
    (s := ⟨{ slots := 1 }, fs', []⟩) up (t := ⟨11⟩) (by decide) closed second_inode rfl
  have marks := made'.sound.marks
  rw [free, ← show s₄.fs.volume.free = fs.volume.free from free₄.trans free] at marks
  have packed : s₄.fs.volume.free.Packed := (free₄.trans free) ▸ filled.packed
  have ten' : ([map, root].flatMap LiveFile.owned).length = 10 := by
    rw [← marks.used, free₄.trans free]
    exact filled.used
  have lost : 10 ∉ [map, root].flatMap LiveFile.owned := by
    rw [← marks.inUse (by decide), packed.inUse (by decide), marks.used, ten']
    decide
  obtain ⟨answer, s₅, failed, rfl, cleared⟩ := tell_spec (s := s₄)
    (P := fun answer s => answer = .failed .noSpace ∧ s.image 10 = Block.zero 512)
    (x := .written <$> Volume.writeBytes { sector := ⟨11⟩ } 4096 [1]) up₄.ready up₄.never (by
      rw [Action.ensures_map]
      refine (Volume.writeBytes_refused (k := 1) (by rw [found, Function.update_self]) rfl (by decide)
        rfl packed marks made'.sound.zero (by decide) (by decide) (by decide) (by rw [ten']; decide)
        (by rw [ten']; decide)).mono ?_
      rintro r v image ⟨rfl, b₁, l', packed₁, extended, count⟩ fs - - rfl
      have full : b₁.free.used = 18 := by
        rw [extended.holds.used, ten', count]
        rfl
      exact ⟨rfl, extended.cleared packed₁ full (by rw [count]) (by rw [count]; decide) (by decide)
        lost⟩)
  refine ⟨fs, fs', s₁, s₂, s₃, s₄, s₅, formatted, first, second, third, mounted, opened, ?_, ?_, ?_⟩
  · rwa [step_handle (h := { sector := ⟨11⟩ }) (by rw [handle_eq_join, handles]; rfl) rfl]
  · have before : s₄.image 10 = fs'.store.image 10 := congrFun shows 10
    rw [before, shown, stored 10 (by decide), Function.update_of_ne (by decide),
      Function.update_self, Inode.decode_encode]
  · rw [cleared]
    rfl

end Session

end SectorFs
