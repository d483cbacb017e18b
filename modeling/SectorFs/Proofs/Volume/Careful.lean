/-
# SectorFs.Proofs.Volume.Careful — operations that read only what was written

`Inode.Known m d trail`: the inode leads only to sectors that were written. Where
that holds of the files that an operation goes through, the operation reads
nothing else; and it holds of an inode that was made (`create_careful`) and of
one that was written to (`writeBytes_careful`). All other operations lead no
inode anywhere new.

A new file system is made whatever the sectors held (`format_careful`), and to
mount one needs no more than that its two well-known inodes are known
(`mount_quiet`).
-/
import SectorFs.Proofs.File.Careful
import SectorFs.Proofs.File.Owned
import SectorFs.Proofs.Volume.System
import SectorFs.Proofs.Volume.Table

namespace SectorFs

set_option autoImplicit false

variable {m : Nat} {σ : Type} {memory : σ} {image : Image} {written : Set Nat} {trail : Trail}
  {l : Layout} {d : Inode} {v v' : Volume m} {f : LiveFile} {others : List Nat} {s : Sector}

/-- An inode leads only to sectors that were written. -/
def Inode.Known (m : Nat) (d : Inode) (trail : Trail) : Prop :=
  ∃ l : Layout, l.Stored m d trail.image ∧ l.Within trail.written

/-- An inode says which sectors it leads to. -/
theorem Layout.Stored.within (stored : l.Stored m d trail.image) (known : d.Known m trail) :
    l.Within trail.written := by
  obtain ⟨l', stored', within⟩ := known
  have count := stored.describes.blockCount stored.whole
  have count' := stored'.describes.blockCount stored'.whole
  refine ⟨fun {i} inside => ?_, fun {t} mem => ?_⟩
  · rw [← stored.blockIn_eq inside, stored'.blockIn_eq (by omega)]
    exact within.block (by omega)
  · rw [← stored.indexIn_eq, stored'.indexIn_eq] at mem
    exact within.index mem

/-- The stored inode at `s` was written, and leads only to sectors that were. -/
def Trail.Leads (m : Nat) (trail : Trail) (s : Sector) : Prop :=
  s.index ∈ trail.written ∧ (Inode.decode (trail.image s.index)).Known m trail

/-- The byte of a file is in a block of it, or there is none. -/
theorem sectorOfByte_careful {Q : Except Failure (Option Sector) → σ → Trail → Prop} {off : Nat}
    (stored : l.Stored m d image) (within : l.Within written)
    (found : ∀ i, i < l.count → Q (.ok (some (Sector.ofNat (l.block i)))) memory ⟨image, written⟩)
    (none : Q (.ok none) memory ⟨image, written⟩) (io : Q (.error .io) memory ⟨image, written⟩) :
    (d.sectorOfByte off : Action σ _).Under .careful memory ⟨image, written⟩ Q := by
  refine (sectorOfByte_quiet stored within off).careful (m := m) ?_
  unfold Inode.sectorOfByte
  split
  · exact none
  · by_cases inside : off / bytesPerSector < l.count
    · exact sectorOfBlock_spec stored inside (found _ inside) fun _ => io
    · exact sectorOfBlock_beyond stored (by omega) none

namespace LiveFile.Opens

variable (opens : f.Opens m trail.image)
include opens

/-- What is known of the stored inode is known of the file. -/
theorem within (leads : trail.Leads m f.sector) : f.layout.Within trail.written := by
  have known := leads.2
  rw [show Inode.decode _ = _ from opens.inode] at known
  exact opens.stored.within known

theorem leads_congr {trail' : Trail} (opens' : f.Opens m trail'.image)
    (leads : trail.Leads m f.sector) (more : trail.written ⊆ trail'.written) :
    trail'.Leads m f.sector := by
  refine ⟨more leads.1, f.layout, ?_, (opens.within leads).mono more⟩
  rw [show Inode.decode _ = _ from opens'.inode]
  exact opens'.stored

end LiveFile.Opens

namespace Volume

/-! ## Operations that ask for nothing -/

theorem node_silent (h : Handle) : (node h : VolumeAction m _).Silent := by
  refine Action.silent_get.bind fun v => ?_
  split
  · exact Action.silent_pure _
  · exact Action.silent_check _

theorem take_silent (count : Nat) : (take count : VolumeAction m _).Silent :=
  Action.silent_get.bind fun _ => (Action.silent_check _).bind fun taken =>
    (Action.silent_modify _).bind fun _ => Action.silent_pure taken.1

theorem give_silent (s : Sector) (count : Nat) : (give s count : VolumeAction m _).Silent :=
  Action.silent_get.bind fun _ => (Action.silent_check _).bind fun _ => Action.silent_modify _

theorem reserve_silent (s : Sector) : (reserve s : VolumeAction m _).Silent :=
  Action.silent_get.bind fun _ => (Action.silent_check _).bind fun _ => Action.silent_modify _

theorem allow_silent (h : Handle) : (allow h : VolumeAction m _).Silent := by
  unfold allow
  split
  · exact ((node_silent h).bind fun _ => (Action.silent_check _).bind fun _ =>
      Action.silent_modify _).bind fun _ => Action.silent_pure _
  · exact Action.silent_pure h

theorem deny_silent (h : Handle) : (deny h : VolumeAction m _).Silent := by
  unfold deny
  split
  · exact Action.silent_pure h
  · exact (node_silent h).bind fun _ => (Action.silent_check _).bind fun _ =>
      (Action.silent_modify _).bind fun _ => Action.silent_pure _

theorem remove_silent (h : Handle) : (remove h : VolumeAction m _).Silent :=
  (node_silent h).bind fun _ => Action.silent_modify _

theorem release_silent (h : Handle) : (release h : VolumeAction m _).Silent :=
  (allow_silent h).bind fun h => (node_silent h).bind fun node => (Action.silent_check _).bind
    fun _ => (Action.silent_modify _).bind fun _ => Action.silent_pure node

/-! ## Reading -/

section

variable (stored : l.Stored m d image) (within : l.Within written)
include stored within

theorem readChunk_quiet (chunk : Chunk) : (readChunk d chunk).Quiet v ⟨image, written⟩ := by
  rw [readChunk, Action.Quiet, Action.under_bind]
  refine sectorOfByte_careful stored within (fun i inside => ?_) trivial rfl
  refine Action.quiet_read ?_ _ _
  rw [stored.index_ofNat (Layout.block_mem_owned (Layout.lt_of_whole stored.whole inside))]
  exact within.block inside

theorem readAhead_quiet (off : Nat) : (readAhead d off).Quiet v ⟨image, written⟩ := by
  rw [readAhead, Action.Quiet, Action.under_bind]
  exact sectorOfByte_careful stored within (fun i _ => Action.quiet_prefetch _) rfl rfl

theorem readWithin_quiet (off len : Nat) : (readWithin d off len).Quiet v ⟨image, written⟩ := by
  refine (Action.quiet_mapM _ fun chunk _ v => readChunk_quiet stored within chunk).bind
    fun parts v => ?_
  refine ((readAhead_quiet stored within _).tryCatch fun _ v => Action.quiet_pure ()).bind ?_
  exact fun _ v => Action.quiet_pure _

theorem readBytes_quiet {h : Handle} {node : LoadedInode} (found : v.find? h.sector = some node)
    (disk : node.disk = d) (off len : Nat) : (readBytes h off len).Quiet v ⟨image, written⟩ := by
  rw [readBytes, Action.Quiet, Action.under_bind]
  refine (node_silent h).quiet.careful (node_spec found ?_)
  rw [Action.then_ok, disk]
  dsimp only
  split
  · exact Action.quiet_pure _
  · exact readWithin_quiet stored within _ _

end

/-! ## Writing -/

/-- What is written goes into the blocks of the file. -/
theorem writeChunks_careful {Q : Except Failure Unit → Volume m → Trail → Prop} {limit : Nat}
    {chunks : List Chunk} {data : List UInt8} (stored : l.Stored m d image)
    (within : l.Within written)
    (ends : ∀ r trail, l.Stored m d trail.image → l.Within trail.written → Q r v trail) :
    (writeChunks d limit chunks data).Under .careful v ⟨image, written⟩ Q := by
  induction chunks generalizing image written data with
  | nil => exact ends _ _ stored within
  | cons chunk chunks ih =>
    rw [writeChunks, Action.under_bind, writeChunk, Action.under_bind]
    refine sectorOfByte_careful stored within (fun i inside => ?_) trivial (ends _ _ stored within)
    have group := Layout.lt_of_whole stored.whole inside
    have index := stored.index_ofNat (Layout.block_mem_owned group)
    change (Action.request (.write _ _ _) : VolumeAction m Unit).Under .careful v _ _
    rw [Action.under_request]
    refine ⟨trivial, ?_, ends _ _ stored within⟩
    refine ih (stored.congr fun t mem => Function.update_of_ne (fun here => ?_) _ _)
      (within.mono fun _ => .inl)
    exact Layout.block_not_index stored.nodup group (index ▸ here ▸ mem)

/-- A file that grows is stored as known as it was. -/
theorem grow_careful {Q : Except Failure Inode → Volume m → Trail → Prop} {node : LoadedInode}
    {length : Nat} (found : v.find? node.sector = some node) (within : l.Within written)
    (holds : (⟨node.disk, v.free⟩ : FileBlocks m).Holds image l (node.sector.index :: others))
    (ends : ∀ r v' trail d (l' : Layout), v'.disks node.sector = some d → (∀ d', r = .ok d' → d' = d) →
      l'.Stored m d trail.image → l'.Within trail.written → Q r v' trail) :
    (grow node length).Under .careful v ⟨image, written⟩ Q := by
  rw [grow, Action.under_bind]
  refine under_onBlocks (FileBlocks.growTo_careful holds within
    fun r b' trail' l' holds' within' => ?_)
  obtain ⟨image', written'⟩ := trail'
  have disks : ({ v with free := b'.free }.put { node with disk := b'.disk }).disks node.sector =
      some b'.disk := by
    have open_now := find?_put_self (v := { v with free := b'.free }) found
      { node with disk := b'.disk } rfl
    rw [disks_of_update open_now, Function.update_self]
    rfl
  simp only [Action.then_ok, Action.under_bind, Action.under_modify, Action.under_liftExcept]
  cases r with
  | error e => exact ends _ _ _ _ l' disks (fun _ same => by cases same) holds'.stored within'
  | ok =>
    simp only [Action.then_ok, Action.then_error, Action.under_bind, Action.under_writeInode,
      Action.under_pure]
    constructor
    · refine ends _ _ _ _ l' disks (fun _ same => (Except.ok.inj same).symm)
        (holds_update holds' List.mem_cons_self _).stored (within'.mono (Set.subset_insert _ _))
    · exact ends _ _ _ _ l' disks (fun _ same => by cases same) holds'.stored within'

theorem writeBytes_careful {Q : Except Failure Nat → Volume m → Trail → Prop} {h : Handle}
    {node : LoadedInode} {off : Nat} {data : List UInt8} (found : v.find? h.sector = some node)
    (within : l.Within written)
    (holds : (⟨node.disk, v.free⟩ : FileBlocks m).Holds image l (node.sector.index :: others))
    (ends : ∀ r v' trail d (l' : Layout), v'.disks h.sector = some d → l'.Stored m d trail.image →
      l'.Within trail.written → Q r v' trail) :
    (writeBytes h off data).Under .careful v ⟨image, written⟩ Q := by
  have sector := sector_of_find? found
  rw [writeBytes, Action.under_bind]
  refine (node_silent h).quiet.careful (node_spec found ?_)
  rw [Action.then_ok]
  have same := disks_of_find? found
  split
  case isTrue => exact ends _ v _ _ l same holds.stored within
  case isFalse =>
    have writes {v' : Volume m} {trail : Trail} {d : Inode} {l' : Layout}
        (disks : v'.disks h.sector = some d) (stored : l'.Stored m d trail.image)
        (within' : l'.Within trail.written) :
        (do writeChunks d (off + data.length) (chunks off data.length) data
            return data.length).Under .careful v' trail Q := by
      rw [Action.under_bind]
      refine writeChunks_careful stored within' fun r trail' stored' within'' => ?_
      cases r with
      | ok => exact ends _ v' trail' d l' disks stored' within''
      | error e => exact ends _ v' trail' d l' disks stored' within''
    rw [Action.under_bind, reach]
    split
    case isFalse => exact writes same holds.stored within
    case isTrue =>
      refine grow_careful (sector ▸ found) within holds
        fun r v' trail' d l' disks result stored within' => ?_
      rw [sector] at disks
      cases r with
      | error e => exact ends _ v' trail' d l' disks stored within'
      | ok d' =>
        obtain rfl := result d' rfl
        exact writes disks stored within'

/-! ## Making files -/

/-- A new inode was written, and all that it leads to. -/
theorem createAt_careful {length : Nat} {isDirectory : Bool} {parent : Sector}
    (small : length ≤ maxFileBytes → m ≤ 0x100000000) (marks : v.free.Marks (s.index :: others))
    (reserved : 0 ∈ s.index :: others) :
    (createAt s length isDirectory parent).Under .careful v trail fun r _ trail =>
      r = .ok () → trail.Leads m s := by
  obtain ⟨image, written⟩ := trail
  rw [createAt, Action.under_bind, Action.under_ensure]
  split
  case isFalse =>
    intro same
    cases same
  case isTrue fits =>
    rw [decide_eq_true_eq] at fits
    rw [Action.then_ok, Action.under_bind]
    refine under_onBlocks (FileBlocks.growTo_careful
      (FileBlocks.holds_empty marks reserved (small fits) isDirectory parent)
      (Layout.within_nothing written) fun r b' trail' l' holds within => ?_)
    obtain ⟨image', written'⟩ := trail'
    simp only [Action.then_ok, Action.under_bind, Action.under_liftExcept]
    cases r with
    | error e =>
      intro same
      cases same
    | ok =>
      rw [Action.then_ok, Action.onFailure, Action.under_tryCatch, Action.under_writeInode]
      constructor
      · refine fun _ => ⟨Set.mem_insert _ _, l', ?_, within.mono (Set.subset_insert _ _)⟩
        dsimp only
        rw [Function.update_self, Inode.decode_encode]
        exact (holds_update holds List.mem_cons_self _).stored
      · refine (Action.under_bind _ _).2 ((Action.under_discard _).2 (under_onBlocks ?_))
        refine (FileBlocks.dissolve_quiet (b := b') holds within).mono fun _ _ _ _ same => ?_
        cases same

theorem create_careful {length : Nat} {isDirectory : Bool} {parent : Sector}
    (small : m ≤ 0x100000000) (marks : v.free.Marks others) (reserved : 0 ∈ others) :
    (create length isDirectory parent).Under .careful v trail fun r _ trail =>
      ∀ s, r = .ok s → trail.Leads m s := by
  rw [create, Action.under_bind]
  refine (take_silent 1).quiet.careful (take_spec marks small Nat.one_pos ?_ fun s free marks₁ => ?_)
  · intro s same
    cases same
  · rw [Action.then_ok]
    simp only []
    rw [Action.under_bind, Action.onFailure, Action.under_tryCatch]
    refine (createAt_careful (fun _ => small) marks₁ (List.mem_cons_of_mem _ reserved)).mono
      fun r v' trail' leads => ?_
    cases r with
    | ok =>
      intro s' same
      cases same
      exact leads rfl
    | error e =>
      refine (Action.under_bind _ _).2 ((give_silent s 1).quiet.mono fun r v'' _ _ => ?_)
      cases r <;>
      · intro s' same
        cases same

/-! ## Opening and closing -/

theorem openAt_quiet (known : s.index ∈ trail.written) : (openAt s).Quiet v trail := by
  refine Action.Quiet.bind ?_ fun _ _ => Action.quiet_pure _
  refine Action.silent_get.quiet.bind fun v' v => ?_
  split
  · exact (Action.silent_modify _).quiet
  · obtain ⟨image, written⟩ := trail
    rw [load, Action.Quiet, Action.under_bind, Action.under_readInode]
    generalize Inode.decode (image s.index) = disk
    refine ⟨known, ?_, rfl⟩
    exact ((Action.silent_ensure _ _).bind fun _ => Action.silent_modify _).quiet

theorem openKnown_quiet (known : s.index ∈ trail.written) : (openKnown s).Quiet v trail := by
  refine (openAt_quiet known).tryCatch fun e v => ?_
  split <;> exact (Action.silent_throw _).quiet

theorem delete_careful {node : LoadedInode} (within : l.Within written)
    (holds : (⟨node.disk, v.free⟩ : FileBlocks m).Holds image l (node.sector.index :: others)) :
    (delete node).Under .careful v ⟨image, written⟩ fun _ _ _ => True := by
  rw [delete, Action.under_bind, Action.under_writeInode]
  refine ⟨?_, trivial⟩
  rw [Action.then_ok, Action.under_bind]
  refine under_onBlocks ((FileBlocks.dissolve_quiet
    (holds_update holds List.mem_cons_self _) (within.mono (Set.subset_insert _ _))).mono
      fun r b' _ _ => ?_)
  exact ((Action.silent_liftExcept r).bind fun _ => give_silent _ _).quiet.mono
    fun _ _ _ _ => trivial

theorem unload_careful {node : LoadedInode} (within : l.Within written)
    (holds : (⟨node.disk, v.free⟩ : FileBlocks m).Holds image l (node.sector.index :: others)) :
    (unload node).Under .careful v ⟨image, written⟩ fun _ _ _ => True := by
  have forget (v : Volume m) (trail : Trail) :
      (modify fun v => v.erase node.sector : VolumeAction m Unit).Under .careful v trail
        fun _ _ _ => True := trivial
  rw [unload]
  simp only [Action.onFailure, Action.under_bind, Action.under_tryCatch]
  cases node.removed with
  | false => exact forget v ⟨image, written⟩
  | true =>
    rw [if_pos rfl]
    refine (delete_careful within holds).mono fun r v' trail _ => ?_
    cases r with
    | ok => exact forget v' trail
    | error e => exact forget v' trail

/-- Closing a handle, whether its inode is deleted with that or not. -/
theorem close_careful {h : Handle} {st : Status} (within : f.layout.Within written)
    (holds : (⟨f.disk, v.free⟩ : FileBlocks m).Holds image f.layout (f.sector.index :: others))
    (at_sector : h.sector = f.sector) (loaded : v.disks f.sector = some f.disk)
    (open_now : v.status f.sector = some st) (open_handles : 0 < st.openers)
    (counted : h.deniesWrite = true → 0 < st.denials) :
    (close h).Under .careful v ⟨image, written⟩ fun _ _ _ => True := by
  rw [← at_sector] at open_now loaded holds
  rw [close_eq, Action.under_bind]
  refine (release_silent h).quiet.careful (release_spec open_now open_handles counted
    fun v' node sector openers removed disk alike status => ?_)
  rw [loaded] at disk
  rw [Option.some.inj disk, ← sector, ← alike.free] at holds
  rw [Action.then_ok]
  split
  · exact unload_careful within holds
  · trivial

theorem closeKept_quiet {h : Handle} {st : Status} (open_now : v.status h.sector = some st)
    (open_handles : 0 < st.openers) (stays : st.removed = false)
    (counted : h.deniesWrite = true → 0 < st.denials) : (close h).Quiet v trail := by
  rw [close_eq, Action.Quiet, Action.under_bind]
  refine (release_silent h).quiet.careful (release_spec open_now open_handles counted
    fun v' node sector openers removed disk alike status => ?_)
  rw [Action.then_ok, unload, removed, stays]
  split
  · refine ((Action.quiet_pure ()).tryCatch fun e v => ?_).bind fun _ v => ?_
    · exact ((Action.silent_modify _).bind fun _ => Action.silent_throw e).quiet
    · exact (Action.silent_modify _).quiet
  · exact Action.quiet_pure ()

/-! ## Storing and taking up -/

theorem sync_careful (mapped : f.Mapped m image) (within : f.layout.Within written)
    (holds : (⟨f.disk, v.free⟩ : FileBlocks m).Holds image f.layout (f.sector.index :: others))
    (known : f.sector.index ∈ written) (inside : f.sector.index < m)
    (at_sector : f.sector = Sector.freeMap) (length : f.disk.length = bytesFor m)
    (idle : Status.Idle (v.status f.sector)) (opens : v.find? f.sector = none → f.Opens m image)
    (loaded : ∀ node, v.find? f.sector = some node → node.disk = f.disk) :
    (sync : VolumeAction m Unit).Under .careful v ⟨image, written⟩ fun _ _ _ => True := by
  have bytes := FreeMap.length_toBytes v.free
  have some_bytes : v.free.toBytes ≠ [] := toBytes_ne_nil (Nat.zero_lt_of_lt inside)
  obtain ⟨open_handles, stays, free⟩ := idle.opened
  simp only [sync, Action.under_bind, Action.under_get, Action.then_ok]
  rw [← at_sector]
  refine (openAt_quiet known).careful (openAt_spec inside opens loaded
    (fun v₁ free₁ disks₁ status₁ => ?_) fun _ _ => trivial)
  obtain ⟨open₁, node, found, disk, denials⟩ := exists_of_opened disks₁ status₁
  have closes (trail : Trail) : (close { sector := f.sector }).Quiet v₁ trail :=
    closeKept_quiet open₁ open_handles stays fun denies => by cases denies
  have sector := sector_of_find? found
  rw [Action.then_ok, Action.under_bind, Action.onFailure, Action.under_tryCatch]
  refine ((writeBytes_careful (Q := fun _ _ _ => True) (h := { sector := f.sector }) found within
    (by rw [disk, sector, free₁]; exact holds) fun _ _ _ _ _ _ _ _ => trivial).ensures
      (writeInside_spec (Q := fun _ v' _ => v' = v₁) mapped found disk (by rw [denials, free])
        some_bytes (Nat.le_of_eq (by rw [bytes, length, Nat.zero_add])) (fun _ _ => rfl)
        fun _ _ _ _ => rfl)).mono ?_
  rintro r v' trail ⟨-, rfl⟩
  cases r with
  | ok n =>
    refine ((closes trail).bind fun _ _ => ?_).mono fun _ _ _ _ => trivial
    exact (Action.silent_check _).quiet.bind fun _ _ => Action.quiet_flush
  | error e =>
    refine (Action.under_bind _ _).2 (((closes trail).tryCatch fun _ _ =>
      Action.quiet_pure ()).mono fun r v'' after _ => ?_)
    cases r <;> trivial

/-- The two well-known files are written before they are read, whatever the sectors hold. -/
theorem makeFiles_careful (two : 2 ≤ m) : (makeFiles : VolumeAction m Unit).Under .careful
    (.empty m) ⟨image, written⟩ fun r _ trail => r = .ok () →
      trail.Leads m Sector.freeMap ∧ trail.Leads m Sector.root := by
  rw [makeFiles, Action.under_bind]
  refine (reserve_silent _).quiet.careful (reserve_spec FreeMap.marks_empty
    (show 0 < m by omega) List.not_mem_nil fun free marks => ?_)
  rw [Action.then_ok, Action.under_bind]
  refine (reserve_silent _).quiet.careful (reserve_spec marks (show 1 < m by omega) (by decide)
    fun free₁ marks₁ => ?_)
  rw [Action.then_ok, Action.under_bind]
  have marks₁ := marks₁.perm (List.Perm.swap _ _ _)
  refine ((createAt_careful small_of_map marks₁ List.mem_cons_self).ensures
    (createAt_spec (Q := fun r v image => r = .ok () → ∃ map : LiveFile, bytesFor m ≤ maxFileBytes ∧
      map.sector = Sector.freeMap ∧ map.Sound m image ∧
      v.free.Marks (Sector.root.index :: map.owned)) small_of_map marks₁ List.mem_cons_self
      (fun free₂ image₂ map fits at_map sound₂ marks₂ _ _ _ => ⟨map, fits, at_map, sound₂, ?_⟩)
      fun _ _ _ _ _ _ _ same => by cases same)).mono ?_
  · refine marks₂.perm ?_
    rw [LiveFile.owned, at_map]
    exact List.Perm.swap _ _ _
  · rintro (e | ⟨⟩) v₂ trail₂ ⟨leads, made⟩
    · intro same
      cases same
    · obtain ⟨map, fits, at_map, sound₂, marks₂⟩ := made rfl
      have small := small_of_map fits
      have zero : 0 ∈ map.owned := by
        rw [LiveFile.owned, at_map]
        exact List.mem_cons_self
      have zero := List.mem_cons_of_mem Sector.root.index zero
      rw [Action.then_ok]
      refine ((createAt_careful (fun _ => small) marks₂ zero).grows.ensures
        (createAt_spec (Q := fun r _ image => r = .ok () → ∀ t ∈ map.owned, image t =
          trail₂.image t) (fun _ => small) marks₂ zero (fun _ _ _ _ _ _ _ kept _ _ => kept)
          fun _ _ _ _ _ _ _ same => by cases same)).mono ?_
      rintro r v₃ trail₃ ⟨⟨leads', more⟩, kept⟩ rfl
      refine ⟨?_, leads' rfl⟩
      rw [← at_map] at leads ⊢
      exact sound₂.opens.leads_congr (sound₂.congr (kept rfl)).opens (leads rfl) more

/-- A file system can be made whatever the sectors held, and all that it leads to was written. -/
theorem format_careful (two : 2 ≤ m) : (format : VolumeAction m Unit).Under .careful (.empty m)
    ⟨image, written⟩ fun r _ trail => r = .ok () →
      trail.Leads m Sector.freeMap ∧ trail.Leads m Sector.root := by
  rw [format_eq, Action.under_bind]
  refine ((makeFiles_careful two).ensures (makeFiles_spec (Q := fun r v image => r = .ok () →
    ∃ map root, Fresh v image map root) two (fun v image map root fresh _ => ⟨map, root, fresh⟩)
    fun _ _ _ same => by cases same)).mono ?_
  rintro (e | ⟨⟩) v ⟨image, written⟩ ⟨leads, made⟩
  · intro same
    cases same
  · obtain ⟨map, root, fresh⟩ := made rfl
    obtain ⟨leads, leads'⟩ := leads rfl
    have sound := fresh.sound
    have opens := (sound.each map List.mem_cons_self).opens
    have opens' := (sound.each root (List.mem_cons_of_mem _ List.mem_cons_self)).opens
    rw [← fresh.at_map] at leads
    rw [← fresh.at_root] at leads'
    have loaded (node : LoadedInode) (found : v.find? map.sector = some node) :
        node.disk = map.disk := by
      rw [fresh.find?_eq] at found
      cases found
    rw [Action.then_ok]
    refine ((sync_careful opens.toMapped (opens.within leads) sound.holds leads.1
      (sound.inside List.mem_cons_self) fresh.at_map fresh.length (fresh.idle _) (fun _ => opens)
      loaded).grows.ensures (fresh.sync_spec (Q := fun r v' image' => r = .ok () →
        Fresh v' image' map root) (fun _ _ fresh _ _ _ _ => fresh)
        fun _ _ _ _ same => by cases same)).mono ?_
    rintro r v' trail' ⟨⟨-, more⟩, fresh'⟩ done
    have sound' := (fresh' done).sound
    rw [← fresh.at_map, ← fresh.at_root]
    exact ⟨opens.leads_congr (sound'.each map List.mem_cons_self).opens leads more,
      opens'.leads_congr (sound'.each root (List.mem_cons_of_mem _ List.mem_cons_self)).opens
        leads' more⟩

/-- Nothing is read but the two well-known inodes, and the file of the map. -/
theorem mount_quiet {root : LiveFile} (file : f.Opens m image) (file' : root.Opens m image)
    (within : f.layout.Within written) (known : f.sector.index ∈ written)
    (known' : root.sector.index ∈ written) (inside : f.sector.index < m)
    (inside' : root.sector.index < m) (at_sector : f.sector = Sector.freeMap)
    (at_root : root.sector = Sector.root) :
    (mount : VolumeAction m Unit).Quiet (.empty m) ⟨image, written⟩ := by
  have closed₀ : (empty m).disks = fun _ => none := rfl
  rw [mount, Action.Quiet, Action.under_bind, ← at_sector]
  refine (openKnown_quiet known).careful (openKnown_spec file inside rfl (fun v₁ _ open₁ => ?_)
    fun _ => rfl)
  have found : v₁.find? f.sector = some ⟨f.sector, 1, false, 0, f.disk⟩ := by
    rw [open₁, Function.update_self]
  rw [Action.then_ok, Action.under_bind]
  refine (node_silent _).quiet.careful (node_spec found ?_)
  rw [Action.then_ok, Action.under_bind, Action.under_ensure]
  split
  case isFalse => rfl
  case isTrue =>
    rw [Action.then_ok, Action.under_bind]
    refine (readBytes_quiet file.stored within found rfl _ _).careful
      (readBytes_spec file.toMapped found rfl ?_ fun _ => rfl)
    rw [Action.then_ok, Action.under_bind]
    refine (closeKept_quiet (status_of_some found) Nat.one_pos rfl fun denies => by
      cases denies).careful (closeKept_spec (status_of_some found) Nat.one_pos rfl
        (fun denies => by cases denies) fun v₂ _ disks₂ _ => ?_)
    rw [Action.then_ok, Action.under_bind]
    cases FreeMap.ofBytes m (((f.content image).drop 0).take (bytesFor m)) with
    | error violation => trivial
    | ok free =>
      rw [Action.under_check_ok, Action.then_ok, Action.under_bind, Action.under_modify,
        Action.then_ok, Action.under_bind, ← at_root]
      have closed₂ : ({ v₂ with free } : Volume m).disks = fun _ => none :=
        closed_again closed₀ open₁ (disks₂.trans (if_pos rfl))
      refine (openKnown_quiet known').careful (openKnown_spec (v := { v₂ with free }) file' inside'
        (find?_of_no_disk (congrFun closed₂ _)) (fun v₃ free₃ open₃ => ?_) fun _ => rfl)
      have found₃ : v₃.find? root.sector = some ⟨root.sector, 1, false, 0, root.disk⟩ := by
        rw [open₃, Function.update_self]
      rw [Action.then_ok]
      exact closeKept_quiet (status_of_some found₃) Nat.one_pos rfl fun denies => by cases denies

end Volume

end SectorFs
