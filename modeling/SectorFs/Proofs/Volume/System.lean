/-
# SectorFs.Proofs.Volume.System — file systems that are made, stored and taken up

`format_spec`: a new file system has the two well-known files and nothing else in
use. `sync_spec`: the file of the free map holds the stored form of the map.
`mount_spec`: from there the map is read back.
-/
import SectorFs.Proofs.Volume.Lifecycle

namespace SectorFs

set_option autoImplicit false

variable {m : Nat} {mayFail : Prop} {image image' : Image} {v v' : Volume m} {f f' : LiveFile}
  {files rest : List LiveFile} {others : List Nat} {s : Sector}

namespace Volume

/-! ## Storing the free map -/

/-- All of `sync` but its last request. -/
def storeMap : VolumeAction m Unit := do
  let bytes := (← get).free.toBytes
  let file ← openAt Sector.freeMap
  let written ← (writeBytes file 0 bytes).onFailure (drop file)
  close file
  Action.require (written = bytes.length) .mapProtected

theorem sync_eq : (sync : VolumeAction m Unit) = storeMap >>= fun _ => Action.flush := by
  simp only [sync, storeMap, bind_assoc]

/-- A file that nobody keeps from being stored. -/
def Status.Idle (o : Option Status) : Prop :=
  ∀ st, o = some st → 0 < st.openers ∧ st.removed = false ∧ st.denials = 0

theorem Status.Idle.opened {o : Option Status} (idle : Status.Idle o) :
    0 < (Status.opened o).openers ∧ (Status.opened o).removed = false ∧
      (Status.opened o).denials = 0 := by
  cases o with
  | none => exact ⟨Nat.one_pos, rfl, rfl⟩
  | some st =>
    obtain ⟨-, stays, free⟩ := idle st rfl
    exact ⟨Nat.succ_pos _, stays, free⟩

/-- Closing a handle just opened leaves what was open before. -/
theorem Status.Idle.closed {o : Option Status} (idle : Status.Idle o) (s : Sector) :
    (Status.opened o).closed { sector := s } = o := by
  cases o with
  | none => rfl
  | some st =>
    obtain ⟨some_handle, -, -⟩ := idle st rfl
    have more : ¬ st.openers + 1 = 1 := by omega
    exact if_neg more

theorem bytesFor_pos (pos : 0 < m) : 0 < bytesFor m := by
  unfold bytesFor
  omega

theorem toBytes_ne_nil {free : FreeMap m} (pos : 0 < m) : free.toBytes ≠ [] := by
  rw [← List.length_pos_iff, FreeMap.length_toBytes]
  exact bytesFor_pos pos

/-- The same inodes are open once the handle just opened is closed. -/
theorem Status.Idle.disks {v₁ v₂ : Volume m} (idle : Status.Idle (v.status s)) {d : Inode}
    (loaded : ∀ node, v.find? s = some node → node.disk = d)
    (opened : v₁.disks = Function.update v.disks s (some d))
    (closed : v₂.disks = if (Status.opened (v.status s)).openers = 1 then
      Function.update v₁.disks s none else v₁.disks) : v₂.disks = v.disks := by
  rw [closed, opened]
  cases found : v.find? s with
  | none =>
    have none_open : v.status s = none := by rw [status, found, Option.map_none]
    have no_disk : v.disks s = none := by rw [Volume.disks, found, Option.map_none]
    have only : (Status.opened none).openers = 1 := rfl
    rw [none_open, if_pos only, Function.update_idem, ← no_disk, Function.update_eq_self]
  | some node =>
    have open_now : v.status s = some ⟨node.openers, node.removed, node.denials⟩ := by
      rw [status, found, Option.map_some]
    obtain ⟨some_handle, -, -⟩ := idle _ open_now
    have more : ¬ node.openers + 1 = 1 := by
      dsimp only at some_handle
      omega
    rw [open_now, Status.opened, if_neg more, ← loaded node found, ← disks_of_find? found,
      Function.update_eq_self]

/-- How storing the free map ends: the volume is as before, and only blocks of the map's file are
written. -/
structure Stores (mayFail : Prop) (v v' : Volume m) (image image' : Image) (f : LiveFile)
    (r : Except Failure Unit) : Prop where
  alike : v.Alike v'
  status : v'.status = v.status
  written : ∃ data, f.layout.Overwritten image image' 0 data ∧ (r = .ok () → data = v.free.toBytes)
  works : ¬ mayFail → r = .ok ()

theorem storeMap_spec {Q : Except Failure Unit → Volume m → Image → Prop}
    (mapped : f.Mapped m image) (inside : f.sector.index < m)
    (at_sector : f.sector = Sector.freeMap) (long : bytesFor m ≤ f.disk.length)
    (idle : Status.Idle (v.status f.sector)) (opens : v.find? f.sector = none → f.Opens m image)
    (loaded : ∀ node, v.find? f.sector = some node → node.disk = f.disk)
    (ends : ∀ r v' image', Stores mayFail v v' image image' f r → Q r v' image') :
    (storeMap : VolumeAction m Unit).Ensures m mayFail v image Q := by
  have bytes := FreeMap.length_toBytes v.free
  have some_bytes : v.free.toBytes ≠ [] := toBytes_ne_nil (Nat.zero_lt_of_lt inside)
  obtain ⟨open_handles, stays, free⟩ := idle.opened
  simp only [storeMap, Action.ensures_bind, Action.ensures_get, Action.onward_ok]
  rw [← at_sector]
  refine openAt_spec inside opens loaded (fun v₁ free₁ disks₁ status₁ => ?_) fun may _ =>
    ends _ v image ⟨⟨rfl, rfl⟩, rfl, ⟨[], .nil _ _ _, fun same => by cases same⟩,
      fun never => absurd may never⟩
  obtain ⟨open₁, node, found, disk, denials⟩ := exists_of_opened disks₁ status₁
  have closes {Q' : Except Failure Unit → Volume m → Image → Prop} {image' : Image}
      (closed : ∀ v', v.Alike v' → v'.status = v.status → Q' (.ok ()) v' image') :
      (close { sector := f.sector }).Ensures m mayFail v₁ image' Q' := by
    refine closeKept_spec open₁ open_handles stays (fun denies => by cases denies)
      fun v' free' disks' status' => ?_
    refine closed v' ⟨free'.trans free₁, idle.disks loaded disks₁ disks'⟩ ?_
    rw [status', idle.closed, status₁, Function.update_idem, Function.update_eq_self]
  rw [Action.onward_ok, Action.ensures_bind]
  refine Action.Ensures.onFailure
    (P := fun r v' image' => v' = v₁ ∧ ∃ data, f.layout.Overwritten image image' 0 data ∧
      (∀ n, r = .ok n → n = bytesFor m ∧ data = v.free.toBytes) ∧ (r = .error .io → mayFail) ∧
      ∀ e, r = .error e → e = .io)
    (writeInside_spec mapped found disk (by rw [denials, free]) some_bytes
      (by rwa [bytes, Nat.zero_add]) (fun image' written => ?_)
      fun may image' n written => ?_) ?_ ?_
  · refine ⟨rfl, _, written, fun n same => ?_, (fun same => by cases same), fun e same => ?_⟩
    · cases same
      exact ⟨bytes, rfl⟩
    · cases same
  · refine ⟨rfl, _, written, fun n same => ?_, fun _ => may, fun e same => ?_⟩
    · cases same
    · cases same
      rfl
  · rintro n v' image' ⟨rfl, data, written, all, -, -⟩
    obtain ⟨rfl, rfl⟩ := all n rfl
    rw [Action.onward_ok, Action.ensures_bind]
    refine closes fun v' alike status => ?_
    rw [Action.onward_ok, Action.ensures_require, decide_eq_true_eq]
    exact ⟨bytes.symm, ends _ v' image' ⟨alike, status, ⟨_, written, fun _ => rfl⟩, fun _ => rfl⟩⟩
  · rintro e v' image' ⟨rfl, data, written, -, may, io⟩
    obtain rfl := io e rfl
    rw [drop, Action.ensures_ignoreError]
    refine closes fun v' alike status => ?_
    exact ends _ v' image' ⟨alike, status, ⟨data, written, fun same => by cases same⟩,
      fun never => absurd (may rfl) never⟩

/-- Storing everything ends as storing the free map does. -/
theorem sync_spec {Q : Except Failure Unit → Volume m → Image → Prop}
    (mapped : f.Mapped m image) (inside : f.sector.index < m)
    (at_sector : f.sector = Sector.freeMap) (long : bytesFor m ≤ f.disk.length)
    (idle : Status.Idle (v.status f.sector)) (opens : v.find? f.sector = none → f.Opens m image)
    (loaded : ∀ node, v.find? f.sector = some node → node.disk = f.disk)
    (ends : ∀ r v' image', Stores mayFail v v' image image' f r → Q r v' image') :
    (sync : VolumeAction m Unit).Ensures m mayFail v image Q := by
  rw [sync_eq, Action.ensures_bind]
  refine storeMap_spec mapped inside at_sector long idle opens loaded fun r v' image' stores => ?_
  cases r with
  | error e => exact ends _ v' image' stores
  | ok =>
    rw [Action.onward_ok, Action.ensures_flush]
    refine ⟨ends _ v' image' stores, fun may => ends _ v' image' ?_⟩
    obtain ⟨data, written, -⟩ := stores.written
    exact ⟨stores.alike, stores.status, ⟨data, written, fun same => by cases same⟩,
      fun never => absurd may never⟩

/-! ## Making a file system -/

theorem reserve_spec {Q : Except Failure Unit → Volume m → Image → Prop}
    (marks : v.free.Marks others) (inside : s.index < m) (unused : s.index ∉ others)
    (ok : ∀ free, free.Marks (s.index :: others) → Q (.ok ()) { v with free } image) :
    (reserve s : VolumeAction m Unit).Ensures m mayFail v image Q := by
  simp only [reserve, Action.ensures_bind, Action.ensures_get, Action.onward_ok]
  obtain ⟨free, same, marks'⟩ := FreeMap.reserve_spec marks inside unused
  rw [same]
  exact ok free marks'

theorem small_of_map (fits : bytesFor m ≤ maxFileBytes) : m ≤ 0x100000000 := by
  have limit : maxFileBytes = 8460288 := rfl
  rw [limit, bytesFor] at fits
  omega

/-- What a new file system is like. -/
structure Fresh (v : Volume m) (image : Image) (map root : LiveFile) : Prop where
  sound : v.Sound image [map, root]
  at_map : map.sector = Sector.freeMap
  at_root : root.sector = Sector.root
  length : map.disk.length = bytesFor m
  empty : root.content image = []
  closed : v.status = fun _ => none

/-- Storing the free map of a sound volume changes only what the map's file holds. -/
theorem Stores.changed {r : Except Failure Unit} (sound : v.Sound image (f :: rest))
    (stores : Stores mayFail v v' image image' f r) (length : f.disk.length = bytesFor m)
    (ok : r = .ok ()) :
    Changed v v' image image' f f rest ∧ f.content image' = v.free.toBytes := by
  obtain ⟨data, written, all⟩ := stores.written
  obtain rfl := all ok
  have whole : v.free.toBytes.length = f.disk.length :=
    (FreeMap.length_toBytes v.free).trans length.symm
  have alike : Changed v v' image image f f rest :=
    ⟨sound.alike stores.alike, rfl, fun _ _ => rfl, stores.status⟩
  exact ⟨changed_of_overwritten alike written (by omega),
    (sound.each f List.mem_cons_self).mapped.content_eq written whole⟩

/-- All of `format` but that it is stored. -/
def makeFiles : VolumeAction m Unit := do
  reserve Sector.freeMap
  reserve Sector.root
  createAt Sector.freeMap (bytesFor m) false Sector.root
  createAt Sector.root 0 true Sector.root

theorem format_eq : (format : VolumeAction m Unit) = makeFiles >>= fun _ => sync := by
  simp only [format, makeFiles, bind_assoc]

/-- The two well-known sectors are the first that are in use. -/
theorem makeFiles_reserved {Q : Except Failure Unit → Volume m → Image → Prop} (two : 2 ≤ m)
    (rest : ∀ free : FreeMap m, free.Marks [Sector.freeMap.index, Sector.root.index] →
      (do
        createAt Sector.freeMap (bytesFor m) false Sector.root
        createAt Sector.root 0 true Sector.root : VolumeAction m Unit).Ensures m mayFail
          ⟨free, []⟩ image Q) :
    (makeFiles : VolumeAction m Unit).Ensures m mayFail (.empty m) image Q := by
  rw [makeFiles, Action.ensures_bind]
  refine reserve_spec FreeMap.marks_empty (show 0 < m by omega) List.not_mem_nil
    fun free marks => ?_
  rw [Action.onward_ok, Action.ensures_bind]
  refine reserve_spec marks (show 1 < m by omega) (by decide) fun free₁ marks₁ => ?_
  rw [Action.onward_ok]
  exact rest free₁ (marks₁.perm (List.Perm.swap _ _ _))

/-- The two well-known files are made. -/
theorem makeFiles_spec {Q : Except Failure Unit → Volume m → Image → Prop} (two : 2 ≤ m)
    (ok : ∀ v image' map root, Fresh v image' map root → Q (.ok ()) v image')
    (error : ∀ e v image', Q (.error e) v image') :
    (makeFiles : VolumeAction m Unit).Ensures m mayFail (.empty m) image Q := by
  refine makeFiles_reserved two fun free₁ marks₁ => ?_
  rw [Action.ensures_bind]
  refine createAt_spec (v := ⟨free₁, []⟩) small_of_map marks₁ List.mem_cons_self
    (fun free₂ image₂ map fits at_map sound₂ marks₂ _ zeros => ?_) fun e _ _ _ _ _ _ => error e _ _
  have length : map.disk.length = bytesFor m := by
    rw [← LiveFile.length_content map image₂, zeros, List.length_replicate]
  have small := small_of_map fits
  have marks₂' : free₂.Marks (Sector.root.index :: map.owned) := by
    refine marks₂.perm ?_
    rw [LiveFile.owned, at_map]
    exact List.Perm.swap _ _ _
  have zero : 0 ∈ map.owned := by
    rw [LiveFile.owned, at_map]
    exact List.mem_cons_self
  rw [Action.onward_ok]
  refine createAt_spec (v := ⟨free₂, []⟩) (fun _ => small) marks₂' (List.mem_cons_of_mem _ zero)
    (fun free₃ image₃ root _ at_root sound₃ marks₃ kept nothing => ?_)
    fun e _ _ _ _ _ _ => error e _ _
  refine ok _ image₃ map root ⟨?_, at_map, at_root, length, nothing, rfl⟩
  exact {
    small := small
    marks := by
      refine marks₃.perm ?_
      simp only [List.flatMap_cons, List.flatMap_nil, List.append_nil, List.cons_append]
      refine List.perm_middle.symm.trans ?_
      rw [← at_root]
      rfl
    each := fun g mem => by
      rcases List.mem_cons.1 mem with rfl | mem
      · exact sound₂.congr kept
      · obtain rfl := List.mem_singleton.1 mem
        exact sound₃
    zero := by
      rw [List.flatMap_cons]
      exact List.mem_append_left _ zero
    loaded := fun found => by cases found }

theorem Fresh.find?_eq {map root : LiveFile} (fresh : Fresh v image map root) (s : Sector) :
    v.find? s = none :=
  Option.map_eq_none_iff.1 (congrFun fresh.closed s)

theorem Fresh.idle {map root : LiveFile} (fresh : Fresh v image map root) (s : Sector) :
    Status.Idle (v.status s) := by
  intro st open_now
  rw [fresh.closed] at open_now
  cases open_now

/-- A new file system is stored, and fresh after that, with its map in the file of the map. -/
theorem Fresh.sync_spec {Q : Except Failure Unit → Volume m → Image → Prop} {map root : LiveFile}
    (fresh : Fresh v image map root)
    (ok : ∀ v' image', Fresh v' image' map root → v'.free = v.free →
      map.content image' = v.free.toBytes →
      image' Sector.root.index = image Sector.root.index → Q (.ok ()) v' image')
    (error : mayFail → ∀ e v' image', Q (.error e) v' image') :
    (sync : VolumeAction m Unit).Ensures m mayFail v image Q := by
  have sound := fresh.sound
  have opens := (sound.each map List.mem_cons_self).opens
  refine Volume.sync_spec opens.toMapped (sound.inside List.mem_cons_self) fresh.at_map
    (Nat.le_of_eq fresh.length.symm) (fresh.idle _) (fun _ => opens) (fun node found => ?_)
    fun r v' image' stores => ?_
  · rw [fresh.find?_eq] at found
    cases found
  · cases r with
    | error e =>
      have may : mayFail := by
        by_contra never
        cases stores.works never
      exact error may e v' image'
    | ok =>
      obtain ⟨changed, content⟩ := stores.changed sound fresh.length rfl
      have kept (t : Nat) (mem : t ∈ root.owned) : image' t = image t := changed.kept t (by
        rwa [List.flatMap_cons, List.flatMap_nil, List.append_nil])
      have same : root.content image' = root.content image :=
        (sound.each root (by simp)).content_congr fun i inside =>
          (sound.each root (by simp)).byte_congr
            (fun t mem => kept t (List.mem_cons_of_mem _ mem)) inside
      refine ok v' image' ⟨changed.sound, fresh.at_map, fresh.at_root, fresh.length, ?_,
        changed.status.trans fresh.closed⟩ stores.alike.free content ?_
      · rw [same, fresh.empty]
      · rw [← fresh.at_root]
        exact kept _ List.mem_cons_self

/-- A new file system is fresh, and where none can be made a failure says so. -/
theorem format_spec {Q : Except Failure Unit → Volume m → Image → Prop} (two : 2 ≤ m)
    (ok : ∀ v image' map root, Fresh v image' map root → Q (.ok ()) v image')
    (error : ∀ e v image', Q (.error e) v image') :
    (format : VolumeAction m Unit).Ensures m mayFail (.empty m) image Q := by
  rw [format_eq, Action.ensures_bind]
  refine makeFiles_spec two (fun v image' map root fresh => ?_) error
  exact fresh.sync_spec (fun v' image'' fresh' _ _ _ => ok v' image'' map root fresh')
    fun _ => error

/-! ## New inodes without blocks -/

/-- A new inode of no bytes is stored, and takes no more sectors. -/
theorem createAt_empty_spec {Q : Except Failure Unit → Volume m → Image → Prop}
    (isDirectory : Bool) (parent : Sector) (inside : s.index < m)
    (ok : Q (.ok ()) v (Function.update image s.index (Inode.empty isDirectory parent).encode)) :
    (createAt s 0 isDirectory parent).Ensures m False v image Q := by
  have blocks : sectorsFor 0 - (Inode.empty isDirectory parent).blockCount = 0 := rfl
  simp only [createAt, Action.ensures_bind, Action.ensures_ensure, Nat.zero_le, decide_true,
    if_true, Action.onward_ok]
  refine onBlocks_spec ?_
  simp [FileBlocks.growTo, blocks, FileBlocks.appendMany, FileBlocks.lengthen, FileBlocks.setDisk,
    Action.onFailure, inside, ok]

/-! ## Eleven sectors

Two inodes and one group for the map: a file system of eleven sectors can be made whatever they
held before, and one more inode can be made in it.
-/

namespace Eleven

/-- The map of eleven sectors of which the first `k` are in use. -/
def used (k : Nat) : FreeMap 11 := ⟨Vector.ofFn fun i => decide (i.val < k), k⟩

/-- The inode of the free map's file, with its one block. -/
def mapInode (lengthWord : UInt32) : Inode :=
  { Inode.empty false Sector.root with
    lengthWord
    countWord := 1
    cursorWord := 3
    leftWord := 7
    pointers := (Vector.replicate 15 0).set 0 2 }

theorem append_spec {Q : Except Failure Unit → FileBlocks 11 → Image → Prop}
    (ok : ∀ image', Q (.ok ()) ⟨mapInode 0, used 10⟩ image') :
    (FileBlocks.append : BlockAction 11 Unit).Ensures 11 False
      ⟨.empty false Sector.root, used 2⟩ image Q := by
  have count : (Inode.empty false Sector.root).blockCount = 0 := rfl
  have left : (Inode.empty false Sector.root).groupLeft = 0 := rfl
  have place : Place.of 0 = some (.direct 0) := rfl
  have taken : (used 2).allocate 8 = .ok (some ⟨2⟩, used 10) := rfl
  have attached : FileBlocks.attach (.empty false Sector.root) (.direct 0) ⟨2⟩ 8
      ⟨some ⟨2⟩, none, none⟩ = .ok (mapInode 0) := rfl
  simp [FileBlocks.append, count, place, FileBlocks.appendAt, FileBlocks.needs,
    FileBlocks.nextSector, left, FileBlocks.take, groupSize, taken, FileBlocks.takeIf,
    Action.onFailure, FileBlocks.link, FileBlocks.NewSectors.indexBlocks, attached,
    FileBlocks.setDisk, Sector.index, ok]

theorem growTo_spec {Q : Except Failure Unit → FileBlocks 11 → Image → Prop}
    (ok : ∀ image', Q (.ok ()) ⟨mapInode 2, used 10⟩ image') :
    (FileBlocks.growTo 2 : BlockAction 11 Unit).Ensures 11 False
      ⟨.empty false Sector.root, used 2⟩ image Q := by
  have fits : 2 ≤ maxFileBytes := by decide
  have blocks : sectorsFor 2 - (Inode.empty false Sector.root).blockCount = 1 := rfl
  have short : (mapInode 0).length = 0 := rfl
  have long : (mapInode 0).withLength 2 = .ok (mapInode 2) := rfl
  simp only [FileBlocks.growTo, fits, blocks, decide_true, FileBlocks.appendMany, Action.onFailure,
    Action.ensures_bind, Action.ensures_ensure, Action.ensures_get, Action.onward_ok,
    Action.ensures_tryCatch, if_true]
  refine append_spec fun image' => ?_
  simp [FileBlocks.lengthen, FileBlocks.setDisk, short, long, ok]

theorem create_map_spec {Q : Except Failure Unit → Volume 11 → Image → Prop}
    (ok : ∀ image', Inode.decode (image' 0) = mapInode 2 → Q (.ok ()) ⟨used 10, []⟩ image') :
    (createAt Sector.freeMap 2 false Sector.root : VolumeAction 11 Unit).Ensures 11 False
      ⟨used 2, []⟩ image Q := by
  have fits : 2 ≤ maxFileBytes := by decide
  have zero : Sector.freeMap.index = 0 := rfl
  simp only [createAt, Action.ensures_bind, Action.ensures_ensure, fits, decide_true, if_true,
    Action.onward_ok]
  refine onBlocks_spec ?_
  refine growTo_spec fun image' => ?_
  simp only [Action.onward_ok, Action.ensures_bind, Action.ensures_liftExcept, Action.onFailure,
    Action.ensures_tryCatch, Action.ensures_writeInode, zero]
  exact ⟨by decide, ok _ (by simp), False.elim⟩

theorem sync_spec {Q : Except Failure Unit → Volume 11 → Image → Prop}
    (stored : Inode.decode (image 0) = mapInode 2)
    (ok : ∀ v image', v.free = used 10 → image' 0 = image 0 → Q (.ok ()) v image') :
    (sync : VolumeAction 11 Unit).Ensures 11 False ⟨used 10, []⟩ image Q := by
  have zero : Sector.freeMap.index = 0 := rfl
  have marked : (mapInode 2).isMarked = true := rfl
  have length : (mapInode 2).length = 2 := rfl
  have count : (mapInode 2).blockCount = 1 := rfl
  have bytes : (used 10).toBytes.length = 2 := rfl
  have some_bytes : (used 10).toBytes ≠ [] := by decide
  have cut : chunks 0 2 = [⟨0, 2⟩] := rfl
  have offset : (⟨0, 2⟩ : Chunk).offset = 0 := rfl
  have place : Place.of 0 = some (.direct 0) := rfl
  have named : (mapInode 2).pointer (Inode.directPointer 0) = some ⟨2⟩ := rfl
  have inside : (⟨2⟩ : Sector).index < 11 := by decide
  have open_now : (⟨used 10, [⟨Sector.freeMap, 1, false, 0, mapInode 2⟩]⟩ : Volume 11).status
      Sector.freeMap = some ⟨1, false, 0⟩ := rfl
  have closes {Q' : Except Failure Unit → Volume 11 → Image → Prop} {image' : Image}
      (ok' : ∀ v, v.free = used 10 → Q' (.ok ()) v image') :
      (close { sector := Sector.freeMap }).Ensures 11 False
        ⟨used 10, [⟨Sector.freeMap, 1, false, 0, mapInode 2⟩]⟩ image' Q' :=
    closeKept_spec open_now Nat.one_pos rfl (fun denies => by cases denies)
      fun v free _ _ => ok' v free
  have kept (b : Block 512) : Function.update image (⟨2⟩ : Sector).index b 0 = image 0 :=
    Function.update_of_ne (by decide) _ _
  simp +contextual [sync, openAt, share, find?, load, zero, stored, marked, writeBytes, node,
    Action.onFailure, some_bytes, reach, length, bytes, cut, writeChunks, writeChunk,
    Inode.sectorOfByte, Inode.sectorOfBlock, count, place, named, inside, offset, Except.map,
    closes, kept, ok]

end Eleven

theorem format_eleven (image : Image) : (format : VolumeAction 11 Unit).Ensures 11 False
    (.empty 11) image fun r v image' => r = .ok () ∧ v.free = Eleven.used 10 ∧
      Inode.decode (image' 0) = Eleven.mapInode 2 := by
  have first : (FreeMap.empty 11).reserve Sector.freeMap.index = .ok (Eleven.used 1) := rfl
  have second : (Eleven.used 1).reserve Sector.root.index = .ok (Eleven.used 2) := rfl
  have bytes : bytesFor 11 = 2 := rfl
  simp only [format, reserve, empty, bytes, first, second, Action.ensures_bind, Action.ensures_get,
    Action.onward_ok, Action.ensures_check_ok, Action.ensures_modify]
  refine Eleven.create_map_spec fun image₁ stored => ?_
  rw [Action.onward_ok, Action.ensures_bind]
  refine createAt_empty_spec true Sector.root (by decide) ?_
  rw [Action.onward_ok]
  have kept := Function.update_of_ne (show 0 ≠ Sector.root.index by decide)
    (Inode.empty true Sector.root).encode image₁
  rw [← kept] at stored
  exact Eleven.sync_spec stored fun v image' free same => ⟨rfl, free, same ▸ stored⟩

/-- The eleventh sector is taken for an inode. -/
theorem create_eleven {v : Volume 11} (free : v.free = Eleven.used 10) (image : Image) :
    (create 0 false Sector.root : VolumeAction 11 Sector).Ensures 11 False v image
      fun r v' image' => r = .ok ⟨10⟩ ∧ v'.free = Eleven.used 11 ∧ image' 0 = image 0 := by
  have taken : (Eleven.used 10).allocate 1 = .ok (some ⟨10⟩, Eleven.used 11) := rfl
  simp only [create, take, free, taken, Action.onFailure, Action.ensures_bind, Action.ensures_get,
    Action.onward_ok, Action.ensures_check_ok, Action.ensures_modify, Action.ensures_pure,
    Action.ensures_tryCatch]
  exact createAt_empty_spec false Sector.root (by decide)
    ⟨trivial, rfl, Function.update_of_ne (by decide) _ _⟩

/-! ## Taking a file system up -/

theorem openKnown_spec {Q : Except Failure Handle → Volume m → Image → Prop}
    (file : f.Opens m image) (inside : f.sector.index < m) (closed : v.find? f.sector = none)
    (ok : ∀ v', v'.free = v.free → v'.find? = Function.update v.find? f.sector
      (some ⟨f.sector, 1, false, 0, f.disk⟩) → Q (.ok { sector := f.sector }) v' image)
    (io : mayFail → Q (.error .io) v image) :
    (openKnown f.sector).Ensures m mayFail v image Q := by
  simp only [openKnown, openAt, share, Action.ensures_tryCatch, Action.ensures_bind,
    Action.ensures_get, Action.onward_ok, closed]
  refine load_spec file inside (fun v' free open_now => ?_) io
  rw [Action.onward_ok, Action.ensures_pure]
  exact ok v' free open_now

/-- A file that was closed is closed again after it was opened and closed. -/
theorem closed_again {v₁ v₂ v₃ : Volume m} (before : v₁.disks = fun _ => none)
    (opened : v₂.find? = Function.update v₁.find? f.sector
      (some ⟨f.sector, 1, false, 0, f.disk⟩))
    (closed : v₃.disks = Function.update v₂.disks f.sector none) : v₃.disks = fun _ => none := by
  rw [closed, disks_of_update opened, Function.update_idem, before]
  exact Function.update_eq_self f.sector _

/-- A well-known sector opens as what it stores, unless it stores no inode or cannot be read. -/
theorem openKnown_cases {Q : Except Failure Handle → Volume m → Image → Prop}
    (inside : s.index < m) (closed : v.find? s = none)
    (ok : ∀ v' d, v'.free = v.free → v'.find? = Function.update v.find? s
      (some ⟨s, 1, false, 0, d⟩) → Q (.ok { sector := s }) v' image)
    (error : ∀ e, Q (.error e) v image) : (openKnown s).Ensures m mayFail v image Q := by
  rw [openKnown, Action.ensures_tryCatch]
  exact openAt_stored inside closed (fun _ v' => ok v' _) (fun _ => error _) fun _ => error _

/-- The first part of `mount`: the map's file is read. -/
def loadMap : VolumeAction m Unit := do
  let file ← openKnown Sector.freeMap
  Action.ensure ((← node file).disk.length = bytesFor m) .notFormatted
  let bytes ← readBytes file 0 (bytesFor m)
  close file
  let free ← Action.check (FreeMap.ofBytes m bytes)
  modify fun v => { v with free }

theorem mount_eq : (mount : VolumeAction m Unit) =
    loadMap >>= fun _ => openKnown Sector.root >>= close := by
  simp only [mount, loadMap, bind_assoc]

/-- The map is read back as it was stored, if its file has its size. -/
theorem loadMap_spec {Q : Except Failure Unit → Volume m → Image → Prop} {free : FreeMap m}
    (file : f.Opens m image) (inside : f.sector.index < m) (at_sector : f.sector = Sector.freeMap)
    (marks : free.Marks others)
    (stored : f.disk.length = bytesFor m → f.content image = free.toBytes)
    (ok : ∀ v', f.disk.length = bytesFor m → v'.free = free → v'.disks = (fun _ => none) →
      Q (.ok ()) v' image)
    (refused : f.disk.length ≠ bytesFor m → ∀ v', Q (.error .notFormatted) v' image)
    (io : mayFail → ∀ v', Q (.error .io) v' image) :
    (loadMap : VolumeAction m Unit).Ensures m mayFail (.empty m) image Q := by
  rw [loadMap, Action.ensures_bind, ← at_sector]
  refine openKnown_spec file inside rfl (fun v₁ _ open₁ => ?_) fun may => io may _
  have found : v₁.find? f.sector = some ⟨f.sector, 1, false, 0, f.disk⟩ := by
    rw [open₁, Function.update_self]
  rw [Action.onward_ok, Action.ensures_bind]
  refine node_spec found ?_
  rw [Action.onward_ok, Action.ensures_bind, Action.ensures_ensure]
  by_cases length : f.disk.length = bytesFor m
  case neg =>
    rw [if_neg (by rwa [decide_eq_true_eq])]
    exact refused length v₁
  case pos =>
    have whole : ((f.content image).drop 0).take (bytesFor m) = free.toBytes := by
      rw [List.drop_zero, stored length, List.take_of_length_le]
      exact Nat.le_of_eq (FreeMap.length_toBytes free)
    rw [if_pos (decide_eq_true length), Action.onward_ok, Action.ensures_bind]
    refine readBytes_spec file.toMapped found rfl ?_ fun may => io may _
    rw [Action.onward_ok, Action.ensures_bind, whole]
    refine closeKept_spec (status_of_some found) Nat.one_pos rfl (fun denies => by cases denies)
      fun v₂ _ disks₂ _ => ?_
    rw [Action.onward_ok, Action.ensures_bind, FreeMap.ofBytes_toBytes marks,
      Action.ensures_check_ok, Action.onward_ok, Action.ensures_modify]
    exact ok _ length rfl (closed_again rfl open₁ (disks₂.trans (if_pos rfl)))

/-- The map is read back as it was stored, and nothing is open. -/
theorem mount_spec {Q : Except Failure Unit → Volume m → Image → Prop} {root : LiveFile}
    {free : FreeMap m} (file : f.Opens m image) (file' : root.Opens m image)
    (inside : f.sector.index < m) (inside' : root.sector.index < m)
    (at_sector : f.sector = Sector.freeMap) (at_root : root.sector = Sector.root)
    (length : f.disk.length = bytesFor m) (marks : free.Marks others)
    (stored : f.content image = free.toBytes)
    (ok : ∀ v', v'.free = free → v'.find? = (fun _ => none) → Q (.ok ()) v' image)
    (io : mayFail → ∀ v', Q (.error .io) v' image) :
    (mount : VolumeAction m Unit).Ensures m mayFail (.empty m) image Q := by
  rw [mount_eq, Action.ensures_bind]
  refine loadMap_spec file inside at_sector marks (fun _ => stored) (fun v₂ _ free₂ closed₂ => ?_)
    (fun other => absurd length other) io
  rw [Action.onward_ok, Action.ensures_bind, ← at_root]
  refine openKnown_spec file' inside' (find?_of_no_disk (congrFun closed₂ _))
    (fun v₃ free₃ open₃ => ?_) fun may => io may _
  have found₃ : v₃.find? root.sector = some ⟨root.sector, 1, false, 0, root.disk⟩ := by
    rw [open₃, Function.update_self]
  rw [Action.onward_ok]
  refine closeKept_spec (status_of_some found₃) Nat.one_pos rfl (fun denies => by cases denies)
    fun v₄ free₄ disks₄ _ => ok v₄ ((free₄.trans free₃).trans free₂) (funext fun t => ?_)
  exact find?_of_no_disk (congrFun (closed_again closed₂ open₃ (disks₄.trans (if_pos rfl))) t)

/-- A file system that is taken up has the map that was stored, whatever its root sector holds. -/
theorem mount_cases {Q : Except Failure Unit → Volume m → Image → Prop} {free : FreeMap m}
    (file : f.Opens m image) (inside : f.sector.index < m) (two : 2 ≤ m)
    (at_sector : f.sector = Sector.freeMap) (marks : free.Marks others)
    (stored : f.disk.length = bytesFor m → f.content image = free.toBytes)
    (ok : ∀ v', f.disk.length = bytesFor m → v'.free = free → v'.find? = (fun _ => none) →
      Q (.ok ()) v' image)
    (error : ∀ e v', Q (.error e) v' image) :
    (mount : VolumeAction m Unit).Ensures m mayFail (.empty m) image Q := by
  rw [mount_eq, Action.ensures_bind]
  refine loadMap_spec file inside at_sector marks stored (fun v₂ length free₂ closed₂ => ?_)
    (fun _ => error _) fun _ => error _
  rw [Action.onward_ok, Action.ensures_bind]
  refine openKnown_cases two (find?_of_no_disk (congrFun closed₂ _))
    (fun v₃ d free₃ open₃ => ?_) fun e => error e _
  have found₃ : v₃.find? Sector.root = some ⟨Sector.root, 1, false, 0, d⟩ := by
    rw [open₃, Function.update_self]
  rw [Action.onward_ok]
  refine closeKept_spec (status_of_some found₃) Nat.one_pos rfl (fun denies => by cases denies)
    fun v₄ free₄ disks₄ _ => ok v₄ length ((free₄.trans free₃).trans free₂) (funext fun t => ?_)
  exact find?_of_no_disk (congrFun
    (closed_again (f := ⟨Sector.root, d, .nothing⟩) closed₂ open₃ (disks₄.trans (if_pos rfl))) t)

end Volume

end SectorFs
