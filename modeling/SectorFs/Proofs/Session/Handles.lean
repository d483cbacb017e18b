/-
# SectorFs.Proofs.Session.Handles — handles, and inodes that go with the last of them

`Session.Handled`: the sessions that fair operations lead to on a device that may fail at any call.
More is tried in them than in those that legal operations lead to: a handle to the free map's file
may deny writes, and the sector of an inode that was deleted may be opened as long as nothing is
written there (`Buries`). That is at least until an operation takes it again, since a sector that is
not taken is not written (`Vacated.handled`, in `SectorFs.Proofs.Session.Vacant`).

In each of them the open inodes are those that have handles, one entry for each, with the handles
and the denials counted (`Upheld`). No condition is broken, except by a sync while a handle keeps
the free map from being stored. A removed inode has its sectors and its bytes until its last handle
is closed (`upheld_of_handled`).
-/
import SectorFs.Proofs.Session.Frames
import SectorFs.Proofs.Session.Separation
import SectorFs.Proofs.Session.Ownership
import SectorFs.Proofs.Volume.Table

namespace SectorFs

set_option autoImplicit false

variable {m : Nat} {mayFail : Prop} {image : Image} {v : Volume m} {e : Expected} {t : Sector}
  {op : FileOp} {answer : FileAnswer} {strayed buried : Sector → Prop} {lost : List Nat}

/-! ## No inode is open twice -/

theorem Volume.Once.find?_eq (once : v.Once) {node : LoadedInode} (mem : node ∈ v.inodes) :
    v.find? node.sector = some node := by
  cases found : v.find? node.sector with
  | none => exact absurd (decide_eq_true rfl) (List.find?_eq_none.1 found node mem)
  | some old =>
    have same := Volume.sector_of_find? found
    rw [List.inj_on_of_nodup_map once (List.mem_of_find?_eq_some found) mem same]

theorem FileSystem.once_of_start {τ : Type} [SectorStore τ] {refusal : Failure}
    {x : VolumeAction m Unit} {store : Except Violation τ} {r : Except Failure Unit}
    {fs : FileSystem τ m} (keeps : x.Keeps Volume.Once)
    (started : start refusal x store = .ok (r, some fs)) : fs.volume.Once := by
  obtain ⟨first, ran⟩ := exists_run_of_start started
  exact keeps.run Volume.once_empty ran

namespace Memory

variable {d : Memory m}

theorem tell_under {x : VolumeAction m FileAnswer} {P : Memory m → Prop}
    (under : x.Under .anything d.volume () fun _ v _ => P { d with volume := v }) :
    (d.tell x).Under .anything () fun after _ => P after.2 := by
  rw [tell, SectorProgram.under_bind]
  exact under

theorem keep_under {x : VolumeAction m Handle} {put : Handle → List (Option Handle)}
    {P : Memory m → Prop} (under : x.Under .anything d.volume () fun r v _ =>
      P ⟨v, (Memory.kept d.handles put r).2⟩) :
    (d.keep x put).Under .anything () fun after _ => P after.2 := by
  rw [keep, SectorProgram.under_bind]
  exact under

theorem withHandle_under {i : Nat} {f : Handle → SectorProgram (FileAnswer × Memory m)}
    {P : Memory m → Prop} (none : P d) (each : ∀ h, d.handle i = some h →
      (f h).Under .anything () fun after _ => P after.2) :
    (d.withHandle i f).Under .anything () fun after _ => P after.2 := by
  rw [withHandle]
  cases found : d.handle i with
  | none => exact none
  | some h => exact each h found

theorem tell_once {x : VolumeAction m FileAnswer} (once : d.volume.Once)
    (keeps : x.Keeps Volume.Once) :
    (d.tell x).Under .anything () fun after _ => after.2.volume.Once :=
  tell_under (P := fun d => d.volume.Once) (keeps d.volume once)

theorem keep_once {x : VolumeAction m Handle} {put : Handle → List (Option Handle)}
    (once : d.volume.Once) (keeps : x.Keeps Volume.Once) :
    (d.keep x put).Under .anything () fun after _ => after.2.volume.Once :=
  keep_under (P := fun d => d.volume.Once) (keeps d.volume once)

theorem withHandle_once {i : Nat} {f : Handle → SectorProgram (FileAnswer × Memory m)}
    (once : d.volume.Once)
    (each : ∀ h, (f h).Under .anything () fun after _ => after.2.volume.Once) :
    (d.withHandle i f).Under .anything () fun after _ => after.2.volume.Once :=
  withHandle_under (P := fun d => d.volume.Once) once fun h _ => each h

theorem step_once (once : d.volume.Once) (op : FileOp) :
    (d.step op).Under .anything () fun after _ => after.2.volume.Once := by
  cases op with
  | create => exact tell_once once ((Volume.create_keeps Volume.tabular_once _ _ _).map _)
  | «open» t => exact keep_once once (Volume.openAt_keeps t)
  | root => exact keep_once once (Volume.openAt_keeps _)
  | reopen i => exact withHandle_once once fun h => keep_once once (Volume.openAt_keeps _)
  | read i off len =>
    exact withHandle_once once fun h => tell_once once ((Volume.readBytes_keeps h off len).map _)
  | write i off data =>
    exact withHandle_once once fun h =>
      tell_once once ((Volume.writeBytes_keeps Volume.tabular_once h off data).map _)
  | remove i =>
    exact withHandle_once once fun h =>
      tell_once once ((Volume.remove_keeps Volume.tabular_once h).bind fun _ => Action.keeps_pure _)
  | deny i =>
    exact withHandle_once once fun h => keep_once once (Volume.deny_keeps Volume.tabular_once h)
  | allow i =>
    exact withHandle_once once fun h => keep_once once (Volume.allow_keeps Volume.tabular_once h)
  | close i =>
    exact withHandle_once once fun h =>
      tell_once (d := d.forget i) once ((Volume.close_keeps h).bind fun _ => Action.keeps_pure _)
  | drop i =>
    exact withHandle_once once fun h =>
      tell_once (d := d.forget i) once ((Volume.drop_keeps h).bind fun _ => Action.keeps_pure _)
  | sync => exact tell_once once (Volume.sync_keeps.bind fun _ => Action.keeps_pure _)
  | remount => exact tell_once once (Volume.sync_keeps.bind fun _ => Action.keeps_pure _)

end Memory

theorem Session.once_of_step {s s' : Session m} (once : s.fs.volume.Once)
    (stays : ∀ config, op ≠ .remount config) (stepped : s.step op = .ok (answer, s')) :
    s'.fs.volume.Once := by
  obtain ⟨after, ran, resumed⟩ := exists_run_of_step stays stepped
  cases resumed
  exact (Memory.step_once (d := s.memory) once op).run ran

/-! ## What cannot be stored or opened -/

namespace Volume

/-- The free map is not stored while its file is denied, and nothing is asked for. -/
theorem sync_guarded {st : Status} (open_now : v.status Sector.freeMap = some st)
    (some_handle : 0 < st.openers) (denied : 0 < st.denials) (some_sector : 0 < m) :
    (sync : VolumeAction m Unit).program v = .halt .mapProtected := by
  obtain ⟨node, found, openers, -, denials⟩ := exists_of_status open_now
  have shared : (v.put { node with openers := node.openers + 1 }).find? Sector.freeMap =
      some { node with openers := node.openers + 1 } := by
    rw [find?_put_self found { node with openers := node.openers + 1 } rfl, Function.update_self]
  have kept : 0 < node.denials ∨ v.free.toBytes = [] := .inl (denials ▸ denied)
  have several : node.openers ≠ 0 := by omega
  have unwritten : (0 = v.free.toBytes.length) = False := by
    rw [FreeMap.length_toBytes]
    have some_bytes := bytesFor_pos some_sector
    exact eq_false (by omega)
  simp [sync, openAt, share, writeBytes, close, allow, Volume.node, Action.program_bind,
    Action.onFailure, Action.program_tryCatch, Action.program_check, Action.require,
    SectorProgram.check, found, shared, kept, unwritten, several]

/-- A sector that stores no inode does not open. -/
theorem openAt_refused {Q : Except Failure Handle → Volume m → Image → Prop}
    (closed : v.find? t = none) (inside : t.index < m)
    (unmarked : (Inode.decode (image t.index)).isMarked = false)
    (refused : Q (.error (.notAnInode t)) v image) (io : mayFail → Q (.error .io) v image) :
    (openAt t).Ensures m mayFail v image Q := by
  refine openAt_stored inside closed (fun marked => ?_) (fun _ => refused) io
  rw [unmarked] at marked
  cases marked

end Volume

/-- While a handle denies writes to the free map's file it cannot be stored. -/
theorem Expected.Matches.sync_halts {files : List LiveFile} (same : e.Matches v files)
    (guarded : ¬ e.Unguarded) (some_sector : 0 < m) :
    (Volume.sync : VolumeAction m Unit).program v = .halt .mapProtected := by
  have denied : 0 < e.denials Sector.freeMap := Nat.pos_of_ne_zero guarded
  have some_handle := Nat.lt_of_lt_of_le denied (denials_le_openers e Sector.freeMap)
  have open_now : v.status Sector.freeMap = some ⟨e.openers Sector.freeMap,
      e.isRemoved Sector.freeMap, e.denials Sector.freeMap⟩ := by
    rw [same.status, status_of_pos some_handle]
  exact Volume.sync_guarded open_now some_handle denied some_sector

theorem Session.violates_of_halt {s : Session m}
    (halts : (Volume.sync : VolumeAction m Unit).program s.fs.volume = .halt .mapProtected) :
    s.fs.perform Volume.sync = .error .mapProtected ∧ s.step .sync = .error .mapProtected := by
  constructor
  · rw [FileSystem.perform, Action.run, halts]
    rfl
  · change s.tell (do Volume.sync; return .done) = _
    rw [tell_eq, FileSystem.perform, Action.run, Action.program_bind, halts]
    rfl

/-! ## Inodes that are deleted -/

namespace Expected

theorem isLive_onHandle {i : Nat} {f : Handle → Expected} (live : e.isLive t = true)
    (each : ∀ h, (f h).isLive t = true) : (e.onHandle i f).isLive t = true := by
  rw [onHandle]
  split
  · exact each _
  · exact live

theorem isLive_withFile_map (live : e.isLive t = true) (s : Sector)
    (f : ExpectedFile → ExpectedFile) :
    (e.withFile s ((e.files s).map f)).isLive t = true := by
  rw [isLive_withFile]
  split
  case isTrue here =>
    rw [Option.isSome_map, ← here]
    exact live
  case isFalse => exact live

/-- Closing a handle takes an inode away only if its sector was cleared. -/
theorem isLive_released (live : e.isLive t = true)
    (marked : (Inode.decode (image t.index)).isMarked = true) (i : Nat) (h : Handle) :
    (e.released image i h).isLive t = true := by
  rw [released]
  split
  case isTrue => exact isLive_withFile_map (e := e.withHandle i none) live h.sector _
  case isFalse gone =>
    rw [closed]
    split
    case isTrue last =>
      have other : t ≠ h.sector := by
        rintro rfl
        exact gone ⟨last, marked⟩
      rw [isLive_withFile, if_neg other]
      exact live
    case isFalse => exact live

theorem isLive_after (live : e.isLive t = true)
    (marked : (Inode.decode (image t.index)).isMarked = true) :
    (e.after image op answer).isLive t = true := by
  cases op with
  | create =>
    cases answer with
    | made s =>
      change (e.withFile s _).isLive t = true
      rw [isLive_withFile]
      split
      · rfl
      · exact live
    | _ => exact live
  | remove i =>
    cases answer with
    | done => exact isLive_onHandle live fun h => isLive_withFile_map live h.sector _
    | _ => exact live
  | close i | drop i => exact isLive_onHandle live fun h => isLive_released live marked i h
  | reopen i | deny i | allow i =>
    cases answer with
    | done => exact isLive_onHandle live fun h => live
    | _ => exact live
  | remount config =>
    cases answer with
    | done => exact Option.isSome_map.trans live
    | _ => exact live
  | «open» | root => cases answer <;> exact live
  | read | write | sync => exact live

end Expected

namespace Session

variable {s s' : Session m}

/-- The inodes that were deleted and whose sectors were not written since. -/
def Buries (s s' : Session m) (e e' : Expected) (buried : Sector → Prop) (t : Sector) : Prop :=
  e.isLive t = true ∧ e'.isLive t = false ∨ buried t ∧ s'.image t.index = s.image t.index

/-- An operation that may come next: one that is fair, or to open what was deleted. -/
def Tries (e : Expected) (buried : Sector → Prop) (op : FileOp) : Prop :=
  e.Fair op ∨ ∃ t, op = .open t ∧ buried t

/-- The sessions that such operations lead to, what is live and open in them, and what was deleted.
Which calls of the device fail can change at any time. A file system that was stored can be taken up
again from what it left on its device. -/
inductive Handled : Session m → Expected → (Sector → Prop) → Prop
  | formatted {device : Device m 512} {config : CacheSetup}
      {fs : FileSystem (Cache config.slots m 512) m} :
      FileSystem.format (Cache.new device config) = .ok (.ok (), some fs) →
      Handled ⟨config, fs, []⟩ .start fun _ => False
  | step {s s' : Session m} {e : Expected} {buried : Sector → Prop} {op : FileOp}
      {answer : FileAnswer} :
      Handled s e buried → Tries e buried op → (∀ config, op ≠ .remount config) →
      s.step op = .ok (answer, s') →
      Handled s' (e.after s'.image op answer) (s.Buries s' e (e.after s'.image op answer) buried)
  | failing {s : Session m} {e : Expected} {buried : Sector → Prop}
      (fails : Nat → IoKind → Fin m → Bool) :
      Handled s e buried → Handled (s.withFails fails) e buried
  | mounted {s : Session m} {e : Expected} {buried : Sector → Prop}
      {fs : FileSystem (Cache s.config.slots m 512) m} {device : Device m 512}
      {config : CacheSetup} {fs' : FileSystem (Cache config.slots m 512) m} :
      Handled s e buried → s.fs.perform Volume.sync = .ok (.ok (), fs) →
      device.blocks = fs.store.device.blocks →
      FileSystem.mount (Cache.new device config) = .ok (.ok (), some fs') →
      Handled ⟨config, fs', []⟩ (e.next (.remount config) .done)
        (s.Buries ⟨config, fs', []⟩ e (e.next (.remount config) .done) buried)

/-- What carries the runs: a settled session with no inode open twice, in which what was deleted is
cleared. -/
structure ClearsDeleted (s : Session m) (e : Expected) (buried : Sector → Prop) : Prop where
  settled : ∃ strayed, s.SettledExcept e strayed
  once : s.fs.volume.Once
  cleared {t : Sector} : buried t →
    t.index < m ∧ (Inode.decode (s.image t.index)).isMarked = false

namespace SettledExcept

variable (settled : s.SettledExcept e strayed)
include settled

theorem separated : Separated s.fs.volume s.image e.isLive := by
  obtain ⟨files, lost, inodes⟩ := settled.inodes
  exact inodes.separated

/-- A live inode has a sector that stores it. -/
theorem stores_of_live (live : e.isLive t = true) :
    t.index < m ∧ (Inode.decode (s.image t.index)).isMarked = true :=
  ⟨(settled.separated.inUse live .stored t.index List.mem_cons_self).1,
    settled.separated.marked live .stored⟩

theorem sync_violates (guarded : ¬ e.Unguarded) :
    s.fs.perform Volume.sync = .error .mapProtected ∧ s.step .sync = .error .mapProtected := by
  obtain ⟨files, lost, inodes⟩ := settled.inodes
  exact violates_of_halt (inodes.sync_halts guarded
    (Nat.lt_of_le_of_lt (Nat.zero_le _) (settled.stores_of_live inodes.map_live).1))

/-- What was stored was not kept from that. -/
theorem unguarded_of_stored {fs : FileSystem (Cache s.config.slots m 512) m}
    (stored : s.fs.perform Volume.sync = .ok (.ok (), fs)) : e.Unguarded := by
  by_contra guarded
  rw [(settled.sync_violates guarded).1] at stored
  cases stored

/-- What a fair operation leaves that broke no condition. -/
theorem after_step {files : List LiveFile}
    (inodes : e.SettledExcept strayed s.fs.volume s.image files lost) (fair : e.Fair op)
    (stays : ∀ config, op ≠ .remount config) (stepped : s.step op = .ok (answer, s')) :
    s.SettledAfter files lost op s' (e.after s'.image op answer) (s.Strays s' op answer strayed) := by
  obtain ⟨answer', s₁, stepped', after⟩ := settled.weathers_of_fair inodes fair stays (by
    rintro rfl
    by_contra guarded
    rw [(settled.sync_violates guarded).2] at stepped
    cases stepped)
  cases stepped.symm.trans stepped'
  exact after

theorem step_settled (fair : e.Fair op) (stays : ∀ config, op ≠ .remount config)
    (stepped : s.step op = .ok (answer, s')) :
    ∃ strayed, s'.SettledExcept (e.after s'.image op answer) strayed := by
  obtain ⟨files, lost, inodes⟩ := settled.inodes
  exact ⟨_, (settled.after_step inodes fair stays stepped).settled⟩

/-- What was deleted does not open, and nothing changes. -/
theorem open_refused (dead : e.isLive t = false) (inside : t.index < m)
    (unmarked : (Inode.decode (s.image t.index)).isMarked = false) :
    ∃ failure s', s.step (.open t) = .ok (.failed failure, s') ∧
      (failure = .notAnInode t ∨ s.fs.store.MayFail ∧ failure = .io) ∧ s'.SettledExcept e strayed ∧
      s'.fs.volume = s.fs.volume ∧ s'.image = s.image := by
  have closed : s.fs.volume.find? t = none := by
    cases found : s.fs.volume.find? t with
    | none => rfl
    | some node =>
      have live := settled.separated.loaded found
      rw [dead] at live
      cases live
  obtain ⟨r, fs, performed, leads, failed, same⟩ := FileSystem.perform_spec settled.ready id
    (x := Volume.openAt t) (Q := fun r v image => (r = .error (.notAnInode t) ∨
      s.fs.store.MayFail ∧ r = .error .io) ∧ v = s.fs.volume ∧ image = s.image)
    (Volume.openAt_refused closed inside unmarked ⟨.inl rfl, rfl, rfl⟩
      fun may => ⟨.inr ⟨may, rfl⟩, rfl, rfl⟩)
  have refused (failure : Failure) (failed : r = .error failure) :
      s.step (.open t) = .ok (.failed failure, { s with fs }) := by
    change s.keep (Volume.openAt t) _ = _
    rw [keep_eq, performed, failed]
    rfl
  have stays : ({ s with fs } : Session m).SettledExcept e strayed := by
    refine ⟨leads.ready, settled.handles, ?_⟩
    change ∃ files lost, e.SettledExcept strayed fs.volume fs.store.image files lost
    rw [same.1, same.2]
    exact settled.inodes
  rcases failed with failed | ⟨may, failed⟩
  · exact ⟨_, _, refused _ failed, .inl rfl, stays, same⟩
  · exact ⟨_, _, refused _ failed, .inr ⟨may, rfl⟩, stays, same⟩

end SettledExcept

namespace ClearsDeleted

variable (clears : s.ClearsDeleted e buried)
include clears

theorem dead_of_buried (gone : buried t) : e.isLive t = false := by
  obtain ⟨strayed, settled⟩ := clears.settled
  refine Bool.eq_false_iff.2 fun live => ?_
  have marked := (settled.stores_of_live live).2
  rw [(clears.cleared gone).2] at marked
  cases marked

/-- What is deleted by an operation is cleared, and what was deleted before stays so. -/
theorem cleared_of_buries {e' : Expected}
    (gone : ∀ t, e.isLive t = true → e'.isLive t = false →
      (Inode.decode (s'.image t.index)).isMarked = false)
    (buries : s.Buries s' e e' buried t) :
    t.index < m ∧ (Inode.decode (s'.image t.index)).isMarked = false := by
  obtain ⟨strayed, settled⟩ := clears.settled
  rcases buries with ⟨live, dead⟩ | ⟨before, same⟩
  · exact ⟨(settled.stores_of_live live).1, gone t live dead⟩
  · rw [same]
    exact clears.cleared before

theorem step (tries : Tries e buried op) (stays : ∀ config, op ≠ .remount config)
    (stepped : s.step op = .ok (answer, s')) : s'.ClearsDeleted (e.after s'.image op answer)
      (s.Buries s' e (e.after s'.image op answer) buried) := by
  obtain ⟨strayed, settled⟩ := clears.settled
  refine ⟨?_, once_of_step clears.once stays stepped, clears.cleared_of_buries fun t live dead => ?_⟩
  · rcases tries with fair | ⟨t, rfl, gone⟩
    · exact settled.step_settled fair stays stepped
    · obtain ⟨inside, unmarked⟩ := clears.cleared gone
      obtain ⟨failure, s₁, stepped', -, settled', -⟩ :=
        settled.open_refused (clears.dead_of_buried gone) inside unmarked
      cases stepped.symm.trans stepped'
      exact ⟨_, settled'⟩
  · refine Bool.eq_false_iff.2 fun marked => ?_
    rw [Expected.isLive_after live marked] at dead
    cases dead

end ClearsDeleted

theorem Handled.clears (handled : Handled s e buried) : s.ClearsDeleted e buried := by
  induction handled with
  | formatted formatted =>
    exact ⟨⟨_, (storable_of_format formatted).toSettledExcept⟩,
      FileSystem.once_of_start Volume.format_keeps formatted, False.elim⟩
  | step _ tries stays stepped ih => exact ih.step tries stays stepped
  | failing fails _ ih =>
    obtain ⟨strayed, settled⟩ := ih.settled
    exact ⟨⟨strayed, settled.withFails fails⟩, ih.once, ih.cleared⟩
  | @mounted s e buried fs device config fs' _ stored same mounted ih =>
    obtain ⟨strayed, settled⟩ := ih.settled
    have free := settled.unguarded_of_stored stored
    refine ⟨⟨_, (settled.mounted free stored same mounted).toSettledExcept⟩,
      FileSystem.once_of_start Volume.mount_keeps mounted, ih.cleared_of_buries ?_⟩
    intro t live dead
    rw [show (e.next (.remount config) .done).isLive t = e.isLive t from Option.isSome_map] at dead
    rw [live] at dead
    cases dead

/-- The open inodes are those that have handles, and the handles to them are served. -/
structure Upheld (s : Session m) (e : Expected) (buried : Sector → Prop) : Prop where
  handles : s.handles = e.handles
  /-- No two open inodes are at one sector. -/
  single : (s.fs.volume.inodes.map LoadedInode.sector).Nodup
  entry {t : Sector} : (∃ node ∈ s.fs.volume.inodes, node.sector = t) ↔ 0 < e.openers t
  counts {node : LoadedInode} : node ∈ s.fs.volume.inodes →
    node.openers = e.openers node.sector ∧ node.denials = e.denials node.sector ∧
      node.removed = e.isRemoved node.sector
  /-- What a removed inode names is in use, as it is stored and as it is in memory. -/
  inUse {t : Sector} {d : Inode} : e.isRemoved t = true → FormOf s.fs.volume s.image t d →
    ∀ i ∈ namedBy s.image t d, i < m ∧ s.fs.volume.free.inUse i = true
  returns {op : FileOp} : e.Fair op → (∀ config, op ≠ .remount config) →
    (op = .sync → e.Unguarded) → s.Tells e op (s.step op)
  guarded : ¬ e.Unguarded → s.step .sync = .error .mapProtected
  refused {t : Sector} : buried t → ∃ failure s', s.step (.open t) = .ok (.failed failure, s') ∧
    (failure = .notAnInode t ∨ s.fs.store.MayFail ∧ failure = .io) ∧
      s'.fs.volume = s.fs.volume ∧ s'.image = s.image
  denied {i off : Nat} {data : List UInt8} {h : Handle} : e.handle i = some h →
    h.sector ≠ Sector.freeMap → data ≠ [] → ∃ answer s', s.step (.write i off data) =
      .ok (answer, s') ∧ (answer = .written 0 ↔ 0 < e.denials h.sector)

/-- **Open inodes are those that have handles, whatever fails, and a removed one lives on until its
last handle is closed.** -/
theorem upheld_of_handled (handled : Handled s e buried) : s.Upheld e buried := by
  have clears := handled.clears
  obtain ⟨strayed, settled⟩ := clears.settled
  obtain ⟨files, lost, inodes⟩ := settled.inodes
  have status (t : Sector) : s.fs.volume.status t = e.status t := congrFun inodes.status t
  exact {
    handles := settled.handles
    single := clears.once
    entry := by
      intro t
      constructor
      · rintro ⟨node, mem, rfl⟩
        by_contra none
        have open_now := status node.sector
        rw [Volume.status_of_some (clears.once.find?_eq mem),
          Expected.status_of_zero (Nat.eq_zero_of_not_pos none)] at open_now
        cases open_now
      · intro pos
        have open_now := status t
        rw [Expected.status_of_pos pos] at open_now
        obtain ⟨node, found, -⟩ := Volume.exists_of_status open_now
        exact ⟨node, List.mem_of_find?_eq_some found, Volume.sector_of_find? found⟩
    counts := by
      intro node mem
      have open_now := status node.sector
      rw [Volume.status_of_some (clears.once.find?_eq mem), Expected.status] at open_now
      split at open_now
      · cases open_now
      · injection open_now with same
        injection same with openers removed denials
        exact ⟨openers, denials, removed⟩
    inUse := by
      intro t d gone form
      have live := inodes.live_of_pos inodes.safe.loaded (inodes.held gone)
      exact inodes.separated.inUse live form
    returns := settled.answered_of_fair
    guarded := fun guarded => (settled.sync_violates guarded).2
    refused := by
      intro t gone
      obtain ⟨inside, unmarked⟩ := clears.cleared gone
      obtain ⟨failure, s', refused, why, -, same⟩ :=
        settled.open_refused (clears.dead_of_buried gone) inside unmarked
      exact ⟨failure, s', refused, why, same⟩
    denied := by
      intro i off data h found other some_data
      have legal : e.Legal (.write i off data) := ⟨h, found, other⟩
      obtain ⟨answer, s', stepped, answered⟩ := settled.write_tells legal
      refine ⟨answer, s', stepped, ?_⟩
      obtain ⟨bytes, -, given⟩ := answered.answers h found
      split at given
      case isTrue idle => exact iff_of_true given (idle.resolve_right some_data)
      case isFalse works =>
        refine iff_of_false (fun nothing => ?_) fun denies => works (.inl denies)
        rcases given with wrote | ⟨-, failure, failed⟩
        · rw [wrote] at nothing
          injection nothing with empty
          exact some_data (List.length_eq_zero_iff.1 empty)
        · rw [failed] at nothing
          cases nothing }

/-- An inode is made, opened and removed, and then every call of the device fails. It is open, its
sector is in use, and a read through its handle returns. -/
theorem upheld_of_handled_eleven :
    ∃ (s s' : Session 11) (e : Expected) (buried : Sector → Prop) (node : LoadedInode)
      (answer : FileAnswer), Handled s e buried ∧ e.isRemoved ⟨10⟩ = true ∧
      (∀ number kind b, s.fs.store.device.fails number kind b = true) ∧
      node ∈ s.fs.volume.inodes ∧ node.sector = ⟨10⟩ ∧ node.openers = 1 ∧
      s.fs.volume.free.inUse 10 = true ∧ s.step (.read 0 0 5) = .ok (answer, s') := by
  have reliable : ∀ number kind b, (Device.filled 11 512 7).fails number kind b = false :=
    fun _ _ _ => rfl
  obtain ⟨fs, formatted, filled⟩ :=
    exists_format _ { slots := 1 } (by decide) (by decide) (by decide) reliable
  obtain ⟨s₁, created, filled₁⟩ :=
    filled.creates 0 (by decide) false Sector.root (by decide)
  have made : Expected.start.Legal (.create 0 false Sector.root) := trivial
  have live : (Expected.start.next (.create 0 false Sector.root) (.made ⟨10⟩)).Legal
      (.open ⟨10⟩) := rfl
  obtain ⟨_, s₂, opened, rfl, follows₂⟩ := filled₁.goes_of_legal live
  have handle : ((Expected.start.next (.create 0 false Sector.root) (.made ⟨10⟩)).next
      (.open ⟨10⟩) .done).Legal (.remove 0) := ⟨{ sector := ⟨10⟩ }, rfl, by decide, by decide⟩
  obtain ⟨_, s₃, removed, rfl, -⟩ := follows₂.goes_of_legal handle
  have handled := ((((Handled.formatted formatted).step (.inl made.fair) nofun created).step
    (.inl live.fair) nofun opened).step (.inl handle.fair) nofun removed).failing fun _ _ _ => true
  have upheld := upheld_of_handled handled
  obtain ⟨node, mem, at_sector⟩ := (upheld.entry (t := ⟨10⟩)).2 Nat.one_pos
  have openers := (upheld.counts mem).1
  obtain ⟨answer, s', stepped, -⟩ := @Upheld.returns _ _ _ _ upheld (.read 0 0 5)
    ⟨{ sector := ⟨10⟩ }, rfl⟩ nofun nofun
  refine ⟨_, s', _, _, node, answer, handled, rfl, fun _ _ _ => rfl, mem, at_sector,
    openers.trans ?_, ?_, stepped⟩
  · rw [at_sector]
    rfl
  · exact (upheld.inUse (t := ⟨10⟩) rfl .stored 10 List.mem_cons_self).2

end Session

end SectorFs
