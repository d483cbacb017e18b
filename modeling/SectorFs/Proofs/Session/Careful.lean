/-
# SectorFs.Proofs.Session.Careful — sessions that read only what was written

`Volume.Knows`: the inode at a sector was written, and it leads only to sectors
that were. Where all live inodes are known (`Expected.Knowing`), every fair
operation on a settled session reads only what was written, and all live inodes
are known after it, whatever fails (`SettledExcept.minds_of_fair`).

Most operations leave every file as it was (`LiveFile.Calm`); one of them may be
closed, and is then as it is stored. What is stored leads to some of the blocks
that the file in memory has, so it is known, too.
-/
import SectorFs.Proofs.Session.Handles
import SectorFs.Proofs.Volume.Careful

namespace SectorFs

set_option autoImplicit false

variable {m : Nat} {α : Type} {image image' : Image} {written written' : Set Nat} {trail : Trail}
  {v v' : Volume m} {e : Expected} {files rest : List LiveFile} {lost : List Nat}
  {f : LiveFile} {t : Sector} {h : Handle} {i : Nat} {op : FileOp} {answer : FileAnswer}
  {strayed : Sector → Prop}

/-! ## What is known of an inode -/

namespace Volume

/-- The inode at a sector as an operation finds it: in memory if it is open, else as it is
stored. -/
def current (v : Volume m) (image : Image) (t : Sector) : Inode :=
  (v.disks t).getD (Inode.decode (image t.index))

/-- The inode at a sector was written, and it leads only to sectors that were. -/
structure Knows (v : Volume m) (trail : Trail) (t : Sector) : Prop where
  written : t.index ∈ trail.written
  known : (v.current trail.image t).Known m trail

theorem Knows.of_leads (leads : trail.Leads m t) (closed : v.disks t = none) :
    v.Knows trail t := by
  refine ⟨leads.1, ?_⟩
  rw [current, closed]
  exact leads.2

namespace Safe

variable (safe : v.Safe image files lost) (mem : f ∈ files)
include safe mem

theorem disk_of_mem {d : Inode} (open_now : v.disks f.sector = some d) : f.disk = d := by
  obtain ⟨before, behind, rfl⟩ := List.append_of_mem mem
  exact (safe.perm List.perm_middle).disk_of_disks open_now

theorem current_eq : v.current image f.sector = f.disk := by
  cases loaded : v.disks f.sector with
  | some d => rw [current, loaded, Option.getD_some, safe.disk_of_mem mem loaded]
  | none =>
    rw [current, loaded]
    exact safe.closed f mem loaded

/-- What is known of an inode is known of its file. -/
theorem within (knows : v.Knows ⟨image, written⟩ f.sector) : f.layout.Within written := by
  have known := knows.known
  rw [safe.current_eq mem] at known
  have stored : f.layout.Stored m f.disk (Trail.mk image written).image :=
    (safe.each f mem).stored
  exact stored.within known

end Safe

end Volume

namespace LiveFile

/-- An operation leaves a file as it was. It may have been closed. -/
structure Calm (f : LiveFile) (v' : Volume m) (image' : Image) : Prop where
  disk {d : Inode} : v'.disks f.sector = some d → d = f.disk
  safe : f.Safe m image'

theorem Calm.knows (calm : f.Calm v' image') (within : f.layout.Within written)
    (known : f.sector.index ∈ written) : v'.Knows ⟨image', written⟩ f.sector := by
  refine ⟨known, ?_⟩
  cases loaded : v'.disks f.sector with
  | some d =>
    rw [Volume.current, loaded, calm.disk loaded]
    exact ⟨f.layout, calm.safe.stored, within⟩
  | none =>
    -- the file may have been ahead of what is stored, and then it has lost its last blocks
    obtain ⟨g, opens, ahead⟩ := calm.safe.origin
    have stored : Inode.decode (image' f.sector.index) = g.disk := by
      rw [ahead.sector]
      exact opens.inode
    rw [Volume.current, loaded, Option.getD_none, stored]
    refine ⟨g.layout, opens.stored, ?_⟩
    rw [← ahead.trim]
    exact within.trim ahead.le

end LiveFile

/-- A file whose sectors were not written, and which was not opened. -/
theorem Volume.Safe.calm (safe : v.Safe image files lost) (mem : f ∈ files)
    (disks : ∀ d, v'.disks f.sector = some d → v.disks f.sector = some d)
    (kept : ∀ t ∈ f.owned, image' t = image t) : f.Calm v' image' where
  disk loaded := (safe.disk_of_mem mem (disks _ loaded)).symm
  safe := (safe.each f mem).congr kept

/-! ## What is known of all live inodes -/

namespace Expected

/-- All live inodes are known. -/
def Knowing (e : Expected) (v : Volume m) (trail : Trail) : Prop :=
  ∀ t, e.isLive t = true → v.Knows trail t

theorem live_of_onHandle {f : Handle → Expected}
    (each : ∀ h, (f h).isLive t = true → e.isLive t = true)
    (live : (e.onHandle i f).isLive t = true) : e.isLive t = true := by
  rw [onHandle] at live
  split at live
  · exact each _ live
  · exact live

theorem live_of_withFile_map {s : Sector} {f : ExpectedFile → ExpectedFile}
    (live : (e.withFile s ((e.files s).map f)).isLive t = true) : e.isLive t = true := by
  rw [isLive_withFile] at live
  split at live
  case isTrue here =>
    rw [Option.isSome_map] at live
    rw [here]
    exact live
  case isFalse => exact live

theorem live_of_released (live : (e.released image i h).isLive t = true) :
    e.isLive t = true := by
  rw [released] at live
  split at live
  case isTrue => exact live_of_withFile_map (e := e.withHandle i none) live
  case isFalse =>
    rw [closed] at live
    split at live
    case isTrue =>
      rw [isLive_withFile] at live
      split at live
      · cases live
      · exact live
    case isFalse => exact live

/-- No operation brings an inode to life, but to make one. -/
theorem live_of_after (other : ∀ length isDirectory parent, op ≠ .create length isDirectory parent)
    (live : (e.after image op answer).isLive t = true) : e.isLive t = true := by
  cases op with
  | create => exact absurd rfl (other _ _ _)
  | remove i =>
    cases answer with
    | done => exact live_of_onHandle (fun h => live_of_withFile_map) live
    | _ => exact live
  | close i | drop i => exact live_of_onHandle (fun h => live_of_released) live
  | reopen i =>
    cases answer with
    | done => exact live_of_onHandle (f := fun h => e.opened h.sector) (fun _ => id) live
    | _ => exact live
  | deny i | allow i =>
    cases answer with
    | done => exact live_of_onHandle (f := fun h => e.withHandle i _) (fun _ => id) live
    | _ => exact live
  | remount config =>
    cases answer with
    | done => exact Option.isSome_map.symm.trans live
    | _ => exact live
  | «open» | root => cases answer <;> exact live
  | read | write | sync => exact live

theorem dead_of_released (last : e.openers h.sector = 1) (gone : e.isRemoved h.sector = true)
    (cleared : (Inode.decode (image h.sector.index)).isMarked = false) :
    (e.released image i h).isLive h.sector = false := by
  rw [released_cleared cleared, closed, if_pos (And.intro last gone), isLive_withFile, if_pos rfl]
  rfl

namespace SettledExcept

variable (inodes : e.SettledExcept strayed v image files lost)
  (knowing : e.Knowing v ⟨image, written⟩)
include inodes knowing

/-- What an operation leaves as it was stays known. -/
theorem stays_known {x : VolumeAction m α} {Q : Except Failure α → Volume m → Trail → Prop}
    (Stays : Except Failure α → Image → Sector → Prop)
    (under : x.Under .careful v ⟨image, written⟩ Q)
    (ensures : x.Ensures m True v image fun r v' image' =>
      ∀ f ∈ files, Stays r image' f.sector → f.Calm v' image') :
    x.Under .careful v ⟨image, written⟩ fun r v' after => Q r v' after ∧
      written ⊆ after.written ∧
        ∀ t, e.isLive t = true → Stays r after.image t → v'.Knows after t := by
  refine (under.grows.ensures ensures).mono ?_
  rintro r v' ⟨image', written'⟩ ⟨⟨holds, more⟩, calm⟩
  refine ⟨holds, more, fun t live stays => ?_⟩
  obtain ⟨f, mem, rfl⟩ := inodes.live.1 live
  have knows := knowing _ live
  exact (calm f mem stays).knows ((inodes.safe.within mem knows).mono more) (more knows.written)

/-- An operation that leaves every file as it was that is there after it. -/
theorem knowing_of_calm {x : VolumeAction m α} (after : Except Failure α → Image → Expected)
    (fewer : ∀ r image t, (after r image).isLive t = true → e.isLive t = true)
    (under : x.Under .careful v ⟨image, written⟩ fun _ _ _ => True)
    (ensures : x.Ensures m True v image fun r v' image' =>
      ∀ f ∈ files, (after r image').isLive f.sector = true → f.Calm v' image') :
    x.Under .careful v ⟨image, written⟩ fun r v' trail' =>
      (after r trail'.image).Knowing v' trail' := by
  refine (inodes.stays_known knowing (fun r image t => (after r image).isLive t = true) under
    ensures).mono ?_
  rintro r v' trail' ⟨-, -, knows⟩ t live
  exact knows t (fewer r _ t live) live

end SettledExcept

/-- Carried out as `p` an operation reads only what was written, and all live inodes are known
after it. -/
def Minds (e : Expected) (op : FileOp) (p : SectorProgram (FileAnswer × Memory m))
    (trail : Trail) : Prop :=
  p.Under .careful trail fun after trail =>
    (e.after trail.image op after.1).Knowing after.2.volume trail

end Expected

namespace Memory

variable {d : Memory m}

theorem tell_minds {x : VolumeAction m FileAnswer}
    (under : x.Under .careful d.volume trail fun r v trail =>
      (e.after trail.image op (.of r)).Knowing v trail) : e.Minds op (d.tell x) trail := by
  rw [Expected.Minds, tell, SectorProgram.under_bind]
  exact under

theorem keep_minds {x : VolumeAction m Handle} {put : Handle → List (Option Handle)}
    (under : x.Under .careful d.volume trail fun r v trail =>
      (e.after trail.image op (Memory.kept d.handles put r).1).Knowing v trail) :
    e.Minds op (d.keep x put) trail := by
  rw [Expected.Minds, keep, SectorProgram.under_bind]
  exact under

end Memory

namespace Session

variable {s : Session m}

namespace SettledExcept

variable (settled : s.SettledExcept e strayed) (knowing : e.Knowing s.fs.volume ⟨s.image, written⟩)
include settled knowing

omit knowing in
theorem memory_handle (found : e.handle i = some h) : s.memory.handle i = some h :=
  settled.handle_eq found

theorem create_minds (length : Nat) (isDirectory : Bool) (parent : Sector) :
    e.Minds (.create length isDirectory parent)
      (s.memory.step (.create length isDirectory parent)) ⟨s.image, written⟩ := by
  obtain ⟨files, lost, inodes⟩ := settled.inodes
  have safe := inodes.safe
  have zero := List.mem_append_left lost safe.zero
  have calm {free : FreeMap m} {image' : Image}
      (same : ∀ t ∈ files.flatMap LiveFile.owned ++ lost, image' t = s.image t) :
      ∀ f ∈ files, True → f.Calm { s.fs.volume with free } image' := fun f mem _ =>
    safe.calm mem (fun _ => id)
      (LiveFile.kept_owned mem fun t own => same t (List.mem_append_left _ own))
  refine Memory.tell_minds ?_
  rw [Action.under_map]
  refine ((inodes.stays_known knowing (fun _ _ _ => True)
    (Volume.create_careful safe.small safe.marks zero)
    (Volume.create_spec safe.small safe.marks zero (fun free image' _ _ _ _ same _ => calm same)
      fun _ free image' _ _ _ same => calm same)).ensures
    (Volume.create_spec (Q := fun r v' _ => ∀ t, r = .ok t → v'.disks t = none) safe.small
      safe.marks zero (fun free image' f' _ fresh _ _ _ t same => ?_)
      fun _ _ _ _ _ _ _ t same => by cases same)).mono ?_
  · cases same
    -- an inode that is open is that of a file, which has its sector
    cases loaded : s.fs.volume.disks f'.sector with
    | none => exact loaded
    | some d =>
      obtain ⟨g, mem, here, -⟩ := safe.loaded loaded
      refine absurd here (Volume.sector_ne_of_not_mem (fun own => fresh ?_) g mem)
      exact List.mem_append_left _ own
  · rintro (failure | made) v' trail' ⟨⟨leads, -, knows⟩, closed⟩ t live
    · exact knows t live trivial
    · change (e.withFile made _).isLive t = true at live
      rw [Expected.isLive_withFile] at live
      split at live
      case isTrue here => exact here ▸ .of_leads (leads made rfl) (closed made rfl)
      case isFalse => exact knows t live trivial

/-- A live inode is opened. -/
theorem opens_minds (live : e.isLive t = true) (put : Handle → List (Option Handle))
    (other : ∀ length isDirectory parent, op ≠ .create length isDirectory parent) :
    e.Minds op (s.memory.keep (Volume.openAt t) put) ⟨s.image, written⟩ := by
  obtain ⟨files, lost, inodes⟩ := settled.inodes
  have known := (knowing t live).written
  obtain ⟨f, rest, rfl, inodes⟩ := inodes.split live
  have safe := inodes.safe
  refine Memory.keep_minds (inodes.knowing_of_calm knowing
    (fun r image => e.after image op (Memory.kept s.handles put r).1)
    (fun _ _ _ => Expected.live_of_after other)
    ((Volume.openAt_quiet known).mono fun _ _ _ _ => trivial) ?_)
  refine safe.openAt_spec (fun v' _ disks _ g mem _ => ?_) fun _ _ g mem _ => ?_
  · refine ⟨fun loaded => ?_, safe.each g mem⟩
    rw [disks] at loaded
    rcases Volume.of_update_some loaded with ⟨here, rfl⟩ | ⟨-, loaded⟩
    · rcases List.mem_cons.1 mem with rfl | mem
      · rfl
      · exact absurd here (safe.sector_ne g mem)
    · exact (safe.disk_of_mem mem loaded).symm
  · exact safe.calm mem (fun _ => id) fun _ _ => rfl

theorem reopen_minds (legal : e.Legal (.reopen i)) :
    e.Minds (.reopen i) (s.memory.step (.reopen i)) ⟨s.image, written⟩ := by
  obtain ⟨h, found⟩ := legal
  obtain ⟨files, lost, inodes⟩ := settled.inodes
  rw [Memory.step, Memory.withHandle_eq (settled.memory_handle found)]
  exact settled.opens_minds knowing (inodes.live_of_handle found) _ fun _ _ _ same => by cases same

/-- Nothing is written, and what changes in memory is what is counted for an inode. -/
theorem knowing_of_alike {x : VolumeAction m α} (told : Except Failure α → FileAnswer)
    (quiet : x.Quiet s.fs.volume ⟨s.image, written⟩)
    (alike : x.Ensures m True s.fs.volume s.image fun _ v' image' =>
      s.fs.volume.Alike v' ∧ image' = s.image)
    (other : ∀ length isDirectory parent, op ≠ .create length isDirectory parent) :
    x.Under .careful s.fs.volume ⟨s.image, written⟩ fun r v trail =>
      (e.after trail.image op (told r)).Knowing v trail := by
  obtain ⟨files, lost, inodes⟩ := settled.inodes
  refine inodes.knowing_of_calm knowing (fun r image => e.after image op (told r))
    (fun _ _ _ => Expected.live_of_after other) (quiet.mono fun _ _ _ _ => trivial)
    (alike.mono ?_)
  rintro r v' image' ⟨alike, rfl⟩ f mem -
  refine inodes.safe.calm mem (fun d open_now => ?_) fun _ _ => rfl
  rwa [alike.disks] at open_now

theorem read_minds {off len : Nat} (legal : e.Legal (.read i off len)) :
    e.Minds (.read i off len) (s.memory.step (.read i off len)) ⟨s.image, written⟩ := by
  obtain ⟨h, found⟩ := legal
  obtain ⟨files, lost, inodes⟩ := settled.inodes
  have live := inodes.live_of_handle found
  obtain ⟨f, rest, at_sector, inodes⟩ := inodes.split_handle found
  obtain ⟨node, loaded, -⟩ := Volume.exists_of_status (inodes.status_handle found)
  have safe := inodes.safe
  have mapped := (safe.each f List.mem_cons_self).toMapped
  have within := safe.within List.mem_cons_self (at_sector ▸ knowing _ live)
  have disk : node.disk = f.disk := safe.disk_of_find? (at_sector ▸ loaded)
  rw [Memory.step, Memory.withHandle_eq (settled.memory_handle found)]
  refine Memory.tell_minds ?_
  rw [Action.under_map]
  refine settled.knowing_of_alike knowing (fun r => .of (r.map .bytes))
    (Volume.readBytes_quiet mapped.stored within loaded disk off len) ?_
    fun _ _ _ same => by cases same
  exact Volume.readBytes_spec mapped loaded disk ⟨⟨rfl, rfl⟩, rfl⟩ fun _ => ⟨⟨rfl, rfl⟩, rfl⟩

theorem write_minds {off : Nat} {data : List UInt8} (legal : e.Legal (.write i off data)) :
    e.Minds (.write i off data) (s.memory.step (.write i off data)) ⟨s.image, written⟩ := by
  obtain ⟨h, found, -⟩ := legal
  obtain ⟨files, lost, inodes⟩ := settled.inodes
  have live := inodes.live_of_handle found
  obtain ⟨f, rest, at_sector, inodes⟩ := inodes.split_handle found
  obtain ⟨node, loaded, -⟩ := Volume.exists_of_status (inodes.status_handle found)
  have safe := inodes.safe
  have within := safe.within List.mem_cons_self (at_sector ▸ knowing _ live)
  rw [← at_sector] at live
  have disk : node.disk = f.disk := safe.disk_of_find? (at_sector ▸ loaded)
  have holds := safe.holds
  rw [at_sector, ← Volume.sector_of_find? loaded, ← disk] at holds
  rw [Memory.step, Memory.withHandle_eq (settled.memory_handle found)]
  refine Memory.tell_minds ?_
  rw [Action.under_map]
  refine (inodes.stays_known knowing (fun _ _ t => t ≠ f.sector) (Volume.writeBytes_careful
    (Q := fun _ v' trail' => (v'.current trail'.image h.sector).Known m trail') loaded within holds
      fun r v' trail' d l' disks stored within' => ?_) ?_).mono ?_
  · rw [Volume.current, disks]
    exact ⟨l', stored, within'⟩
  · refine Volume.writeSafe_spec safe at_sector.symm (at_sector ▸ loaded)
      fun r v' image' f' moved _ _ _ g mem apart => ?_
    have mem' : g ∈ rest := (List.mem_cons.1 mem).resolve_left fun same => apart (same ▸ rfl)
    refine safe.calm mem (fun d open_now => ?_) (LiveFile.kept_owned mem' moved.kept)
    rwa [moved.disks _ apart] at open_now
  · rintro r v' trail' ⟨known, more, knows⟩ t live'
    by_cases here : t = f.sector
    · subst here
      exact ⟨more (knowing _ live).written, at_sector ▸ known⟩
    · exact knows t live' here

/-! ## Handles deny, allow, remove and close -/

theorem deny_minds (fair : e.Fair (.deny i)) :
    e.Minds (.deny i) (s.memory.step (.deny i)) ⟨s.image, written⟩ := by
  obtain ⟨h, found⟩ := fair
  obtain ⟨files, lost, inodes⟩ := settled.inodes
  rw [Memory.step, Memory.withHandle_eq (settled.memory_handle found)]
  refine Memory.keep_minds (settled.knowing_of_alike knowing _ (Volume.deny_silent h).quiet ?_
    fun _ _ _ same => by cases same)
  exact Volume.deny_spec (inodes.status_handle found) (Expected.denials_lt_openers found)
    fun v' alike _ => ⟨alike, rfl⟩

theorem allow_minds (legal : e.Legal (.allow i)) :
    e.Minds (.allow i) (s.memory.step (.allow i)) ⟨s.image, written⟩ := by
  obtain ⟨h, found⟩ := legal
  obtain ⟨files, lost, inodes⟩ := settled.inodes
  rw [Memory.step, Memory.withHandle_eq (settled.memory_handle found)]
  refine Memory.keep_minds (settled.knowing_of_alike knowing _ (Volume.allow_silent h).quiet ?_
    fun _ _ _ same => by cases same)
  exact Volume.allow_spec (inodes.status_handle found) (Expected.denials_pos found)
    fun v' alike _ => ⟨alike, rfl⟩

theorem remove_minds (legal : e.Legal (.remove i)) :
    e.Minds (.remove i) (s.memory.step (.remove i)) ⟨s.image, written⟩ := by
  obtain ⟨h, found, -⟩ := legal
  obtain ⟨files, lost, inodes⟩ := settled.inodes
  rw [Memory.step, Memory.withHandle_eq (settled.memory_handle found)]
  refine Memory.tell_minds (settled.knowing_of_alike knowing .of
    ((Volume.remove_silent h).bind fun _ => Action.silent_pure _).quiet ?_
    fun _ _ _ same => by cases same)
  rw [Action.ensures_bind]
  exact Volume.remove_spec (inodes.status_handle found) fun v' alike _ => ⟨alike, rfl⟩

/-- A handle is closed. An inode that goes with it need not be known any more. -/
theorem released_known (found : e.handle i = some h) :
    (Volume.close h).Under .careful s.fs.volume ⟨s.image, written⟩ fun _ v trail =>
      (e.released trail.image i h).Knowing v trail := by
  obtain ⟨files, lost, inodes⟩ := settled.inodes
  have live := inodes.live_of_handle found
  obtain ⟨f, rest, at_sector, inodes⟩ := inodes.split_handle found
  have safe := inodes.safe
  have within := safe.within List.mem_cons_self (at_sector ▸ knowing _ live)
  have open_now := inodes.status_of_handle found at_sector
  have disk := safe.disks_of_status open_now
  have opened := Expected.openers_pos found
  have denied := Expected.denials_pos found
  refine inodes.knowing_of_calm knowing (fun _ image => e.released image i h)
    (fun _ _ _ => Expected.live_of_released)
    (Volume.close_careful within safe.holds at_sector.symm disk open_now opened denied) ?_
  refine Volume.close_spec safe.holds at_sector.symm disk open_now opened denied
    (fun _ v' alike _ g mem _ => ?_) (fun _ _ r v' _ _ disks _ g mem _ => ?_)
    fun last gone r v' leaked _ _ disks _ g mem stays => ?_
  · refine safe.calm mem (fun d loaded => ?_) fun _ _ => rfl
    rwa [alike.disks] at loaded
  · refine safe.calm mem (fun d loaded => ?_) fun _ _ => rfl
    rw [disks] at loaded
    exact (Volume.of_update_none loaded).2
  · -- the sector was cleared, and the inode is gone
    have cleared := unmarked_cleared s.image f.sector
    rw [at_sector] at cleared
    have dead := Expected.dead_of_released (i := i) last gone cleared
    rw [← at_sector] at dead
    have mem' : g ∈ rest := by
      refine (List.mem_cons.1 mem).resolve_left fun same => ?_
      rw [same, dead] at stays
      cases stays
    refine safe.calm mem (fun d loaded => ?_) fun t own => ?_
    · rw [disks] at loaded
      exact (Volume.of_update_none loaded).2
    · exact safe.update_kept Inode.zero.encode t (List.mem_flatMap.2 ⟨g, mem', own⟩)

theorem close_minds (legal : e.Legal (.close i)) :
    e.Minds (.close i) (s.memory.step (.close i)) ⟨s.image, written⟩ := by
  obtain ⟨h, found⟩ := legal
  rw [Memory.step, Memory.withHandle_eq (settled.memory_handle found)]
  refine Memory.tell_minds (d := s.memory.forget i) ?_
  rw [Action.under_bind]
  refine (settled.released_known knowing found).mono fun r v trail known => ?_
  rw [← Expected.onHandle_eq (f := fun h => e.released trail.image i h) found] at known
  cases r <;> exact known

theorem drop_minds (legal : e.Legal (.drop i)) :
    e.Minds (.drop i) (s.memory.step (.drop i)) ⟨s.image, written⟩ := by
  obtain ⟨h, found⟩ := legal
  rw [Memory.step, Memory.withHandle_eq (settled.memory_handle found)]
  refine Memory.tell_minds (d := s.memory.forget i) ?_
  rw [Volume.drop, Action.under_bind, Action.ignoreError, Action.under_tryCatch]
  refine (settled.released_known knowing found).mono fun r v trail known => ?_
  rw [← Expected.onHandle_eq (f := fun h => e.released trail.image i h) found] at known
  cases r <;> exact known

/-! ## The file system is stored -/

theorem sync_minds : e.Minds .sync (s.memory.step .sync) ⟨s.image, written⟩ := by
  obtain ⟨files, lost, inodes⟩ := settled.inodes
  have known := knowing _ inodes.map_live
  obtain ⟨f, rest, at_sector, inodes⟩ := inodes.split inodes.map_live
  rw [← at_sector] at known
  have safe := inodes.safe
  refine Memory.tell_minds ?_
  rw [Action.under_bind]
  by_cases free : e.Unguarded
  case neg =>
    -- then a condition is broken before anything is asked for
    have halts := inodes.sync_halts free
      (Nat.lt_of_le_of_lt (Nat.zero_le _) (safe.inside List.mem_cons_self))
    change ((Volume.sync : VolumeAction m Unit).program s.fs.volume).Under _ _ _
    rw [halts]
    trivial
  refine (inodes.knowing_of_calm knowing (fun _ _ => e) (fun _ _ _ => id)
    (Volume.sync_careful (safe.each f List.mem_cons_self).toMapped
      (safe.within List.mem_cons_self known) safe.holds known.written
      (safe.inside List.mem_cons_self) at_sector (inodes.length f List.mem_cons_self at_sector)
      (at_sector ▸ inodes.idle_map free) (safe.opens_of_closed List.mem_cons_self)
      fun _ => safe.disk_of_find?) ?_).mono ?_
  · refine inodes.sync_spec free at_sector fun r v' image' stores g mem _ => ?_
    obtain ⟨data, written, -⟩ := stores.written
    refine ⟨fun loaded => ?_, (safe.overwritten written).1.each g mem⟩
    rw [stores.alike.disks] at loaded
    exact (safe.disk_of_mem mem loaded).symm
  · intro r v' trail' known
    cases r <;> exact known

/-- Every fair operation on a settled session reads only what was written, and all live inodes are
known after it. -/
theorem minds_of_fair (fair : e.Fair op) (stays : ∀ config, op ≠ .remount config) :
    e.Minds op (s.memory.step op) ⟨s.image, written⟩ := by
  cases op with
  | create length isDirectory parent =>
    exact settled.create_minds knowing length isDirectory parent
  | «open» t => exact settled.opens_minds knowing fair _ fun _ _ _ same => by cases same
  | root =>
    obtain ⟨files, lost, inodes⟩ := settled.inodes
    exact settled.opens_minds knowing inodes.root_live _ fun _ _ _ same => by cases same
  | reopen i => exact settled.reopen_minds knowing fair
  | read i off len => exact settled.read_minds knowing fair
  | write i off data => exact settled.write_minds knowing fair
  | remove i => exact settled.remove_minds knowing fair
  | deny i => exact settled.deny_minds knowing fair
  | allow i => exact settled.allow_minds knowing fair
  | close i => exact settled.close_minds knowing fair
  | drop i => exact settled.drop_minds knowing fair
  | sync => exact settled.sync_minds knowing
  | remount config => exact absurd rfl (stays config)

end SettledExcept

end Session

end SectorFs
