/-
# SectorFs.Proofs.Session.Frames — the bytes behind the handles

The handles to an inode share the inode in memory, and all of them read the bytes that it leads
to (`Volume.shows`). `Answered` says which answers an operation may get and what it does to the
bytes of the inodes that are open before it and after it: a write changes the inode that it
writes to, a sync the free map's file, and nothing else changes any. That an inode was removed
makes no difference while it is open.

Every fair operation on a settled session is answered so (`SettledExcept.answered_of_fair`), whatever
fails.
-/
import SectorFs.Proofs.File.Owned
import SectorFs.Proofs.Session.Weathered

namespace SectorFs

set_option autoImplicit false

variable {m : Nat} {mayFail : Prop} {image image' : Image} {v v' : Volume m} {e : Expected}
  {files rest : List LiveFile} {lost : List Nat} {f : LiveFile} {t : Sector} {h : Handle}
  {i : Nat} {op : FileOp} {answer : FileAnswer} {strayed : Sector → Prop}

/-- The bytes of an inode, read off the sectors. -/
def bytesIn (image : Image) (d : Inode) : List UInt8 :=
  (List.range d.length).map fun i => (image (blockIn image d (i / 512)))[i % 512]?.getD 0

namespace LiveFile

theorem Mapped.bytesIn_eq (mapped : f.Mapped m image) :
    bytesIn image f.disk = f.content image := by
  have long := mapped.long
  unfold sectorsFor at long
  rw [content, Layout.bytes, Nat.sub_zero, ← List.range_eq_range']
  refine List.map_congr_left fun i mem => ?_
  have inside := List.mem_range.1 mem
  rw [Layout.byte, mapped.stored.blockIn_eq (by omega)]

/-- A file has the same bytes while its blocks hold what they held. -/
theorem Mapped.content_held (mapped : f.Mapped m image) (held : Volume.Held f image image') :
    f.content image' = f.content image := by
  have long := mapped.long
  unfold sectorsFor at long
  refine List.map_congr_left fun i mem => ?_
  have inside := (List.mem_range'_1.1 mem).2
  rw [Layout.byte, held _ (by omega), Layout.byte]

theorem Mapped.held (mapped : f.Mapped m image)
    (same : ∀ s ∈ f.layout.owned, image' s = image s) : Volume.Held f image image' := fun _ inside =>
  same _ (Layout.block_mem_owned (Layout.lt_of_whole mapped.stored.whole inside))

theorem Mapped.content_congr (mapped : f.Mapped m image)
    (same : ∀ s ∈ f.layout.owned, image' s = image s) : f.content image' = f.content image :=
  mapped.content_held (mapped.held same)

end LiveFile

/-- The bytes that the handles to an inode read. -/
def Volume.shows (v : Volume m) (image : Image) (t : Sector) : Option (List UInt8) :=
  (v.disks t).map (bytesIn image)

/-- The inodes whose bytes an operation may change. -/
def FileOp.Writes (e : Expected) (t : Sector) : FileOp → Prop
  | .write i _ _ => ∃ h, e.handle i = some h ∧ h.sector = t
  | .sync => t = Sector.freeMap
  | _ => False

/-- What a write does to the bytes of an inode, by its answer. -/
structure Wrote (old new : List UInt8) (off : Nat) (data : List UInt8) (answer : FileAnswer) :
    Prop where
  outside {i : Nat} : i < old.length → i < off ∨ off + data.length ≤ i → new[i]? = old[i]?
  inside : answer = .written data.length → (new.drop off).take data.length = data
  nothing : answer = .written 0 → new = old

/-- The answers that an operation may get where requests may fail and the open inodes have the
bytes that are shown. -/
def Expected.Answers (e : Expected) (mayFail : Prop) (shows : Sector → Option (List UInt8))
    (op : FileOp) (answer : FileAnswer) : Prop :=
  match op with
  | .create .. => (∃ s, answer = .made s) ∨ ∃ failure, answer = .failed failure
  | .open _ | .root => answer = .done ∨ mayFail ∧ answer = .failed .io
  | .reopen _ | .remove _ | .deny _ | .allow _ | .drop _ | .remount _ => answer = .done
  | .close _ | .sync => answer = .done ∨ mayFail ∧ ∃ failure, answer = .failed failure
  | .read i off len => ∀ h, e.handle i = some h → ∃ bytes, shows h.sector = some bytes ∧
      (answer = .bytes ((bytes.drop off).take len) ∨ mayFail ∧ answer = .failed .io)
  | .write i off data => ∀ h, e.handle i = some h → ∃ bytes, shows h.sector = some bytes ∧
      if e.Idles h.sector data then answer = .written 0
      else answer = .written data.length ∨
        (mayFail ∨ bytes.length < off + data.length) ∧ ∃ failure, answer = .failed failure

/-- What an operation answers, and which bytes and sectors the open inodes have after it. -/
structure Answered (mayFail : Prop) (e : Expected) (op : FileOp) (answer : FileAnswer)
    (v v' : Volume m) (image image' : Image) : Prop where
  answers : e.Answers mayFail (v.shows image) op answer
  kept {t : Sector} {old new : List UInt8} : ¬ op.Writes e t → v.shows image t = some old →
    v'.shows image' t = some new → new = old
  wrote {i off : Nat} {data : List UInt8} {h : Handle} {old new : List UInt8} :
    op = .write i off data → e.handle i = some h → v.shows image h.sector = some old →
    v'.shows image' h.sector = some new → Wrote old new off data answer
  /-- No inode that stays open loses a sector. -/
  named {t : Sector} {d d' : Inode} : v.disks t = some d → v'.disks t = some d' →
    ∀ i ∈ namedBy image t d, i ∈ namedBy image' t d'

/-- What an operation does to a file that is open before it and after it. -/
theorem Volume.Safe.shows_eq (safe : v.Safe image files lost) {old new : List UInt8}
    (frame : ∀ f ∈ files, f.sector = t → v.disks t = some f.disk → ∀ d, v'.disks t = some d →
      d = f.disk ∧ ∀ s ∈ f.owned, image' s = image s)
    (before : v.shows image t = some old) (after : v'.shows image' t = some new) : new = old := by
  obtain ⟨d, loaded, rfl⟩ := Option.map_eq_some_iff.1 before
  obtain ⟨d', loaded', rfl⟩ := Option.map_eq_some_iff.1 after
  obtain ⟨f, mem, rfl, rfl⟩ := safe.loaded loaded
  obtain ⟨rfl, same⟩ := frame f mem rfl loaded d' loaded'
  have mapped := (safe.each f mem).toMapped
  have same' (s : Nat) (own : s ∈ f.layout.owned) : image' s = image s :=
    same s (List.mem_cons_of_mem _ own)
  rw [mapped.bytesIn_eq, (mapped.congr same').bytesIn_eq, mapped.content_congr same']

theorem Volume.Safe.shows_file (safe : v.Safe image (f :: rest) lost) {d : Inode}
    (open_now : v.disks f.sector = some d) :
    v.shows image f.sector = some (f.content image) := by
  have mapped := (safe.each f List.mem_cons_self).toMapped
  rw [Volume.shows, open_now, Option.map_some, ← safe.disk_of_disks open_now, mapped.bytesIn_eq]

theorem Volume.Rewritten.wrote {f' : LiveFile} {nothing : Prop} {off : Nat} {data : List UInt8}
    {r : Except Failure Nat} (rewritten : Rewritten mayFail f f' image image' nothing off data r)
    (some_data : ¬ nothing → data ≠ []) :
    Wrote (f.content image) (f'.content image') off data (.of (r.map .written)) := by
  refine ⟨fun inside => rewritten.outside (LiveFile.length_content f image ▸ inside), ?_, ?_⟩
  · intro wrote
    by_cases idle : nothing
    · rw [(rewritten.idle idle).1] at wrote
      cases data with
      | nil => rfl
      | cons => cases wrote
    · rcases rewritten.works idle with ⟨-, written⟩ | ⟨failure, rfl, -⟩
      · exact written
      · cases wrote
  · intro wrote
    by_cases idle : nothing
    · obtain ⟨-, rfl, rfl⟩ := rewritten.idle idle
      rfl
    · rcases rewritten.works idle with ⟨rfl, -⟩ | ⟨failure, rfl, -⟩
      · cases data with
        | nil => exact absurd rfl (some_data idle)
        | cons => cases wrote
      · cases wrote

theorem LiveFile.Mapped.namedBy_eq (mapped : f.Mapped m image) :
    namedBy image f.sector f.disk = f.owned :=
  mapped.stored.namedBy_eq f.sector

namespace Volume.Moved

variable {f' : LiveFile} (moved : Moved v v' image image' f f' rest lost)
  (safe : v.Safe image (f :: rest) lost)
include moved safe

/-- The other files have the bytes that they had. -/
theorem shows_eq {old new : List UInt8} (other : f.sector ≠ t) (before : v.shows image t = some old)
    (after : v'.shows image' t = some new) : new = old := by
  refine safe.shows_eq (fun g mem at_t loaded d loaded' => ?_) before after
  have mem : g ∈ rest := (List.mem_cons.1 mem).resolve_left fun same => other (same ▸ at_t)
  rw [moved.disks _ other.symm, loaded] at loaded'
  exact ⟨(Option.some.inj loaded').symm, LiveFile.kept_owned mem moved.kept⟩

/-- No file has lost a sector. -/
theorem named {d d' : Inode} (loaded : v.disks t = some d) (loaded' : v'.disks t = some d') :
    ∀ i ∈ namedBy image t d, i ∈ namedBy image' t d' := by
  intro i own
  obtain ⟨g, mem, rfl, rfl⟩ := safe.loaded loaded
  rw [(safe.each g mem).toMapped.namedBy_eq] at own
  by_cases here : g.sector = f.sector
  · obtain rfl : g = f := (List.mem_cons.1 mem).resolve_right fun mem => safe.sector_ne g mem here
    rw [← moved.ahead.sector] at loaded' ⊢
    rw [← moved.safe.disk_of_disks loaded',
      (moved.safe.each f' List.mem_cons_self).toMapped.namedBy_eq]
    exact moved.ahead.owned_sublist.subset own
  · have mem : g ∈ rest := (List.mem_cons.1 mem).resolve_left fun same => here (same ▸ rfl)
    rw [moved.disks _ here, loaded] at loaded'
    cases loaded'
    rwa [(moved.safe.each g (List.mem_cons_of_mem f' mem)).toMapped.namedBy_eq]

end Volume.Moved

/-- No file gets blocks, and those that are not written keep theirs as they are. -/
theorem Answered.of_frame (safe : v.Safe image files lost)
    (answers : e.Answers mayFail (v.shows image) op answer)
    (other : ∀ i off data, op ≠ .write i off data)
    (frame : ∀ f ∈ files, v.disks f.sector = some f.disk → ∀ d, v'.disks f.sector = some d →
      d = f.disk ∧ f.Mapped m image' ∧
        (¬ op.Writes e f.sector → ∀ s ∈ f.owned, image' s = image s)) :
    Answered mayFail e op answer v v' image image' where
  answers := answers
  kept apart := safe.shows_eq fun f mem same loaded d loaded' => by
    subst same
    obtain ⟨same, -, kept⟩ := frame f mem loaded d loaded'
    exact ⟨same, kept apart⟩
  wrote same := absurd same (other _ _ _)
  named {t d d'} loaded loaded' := by
    obtain ⟨f, mem, rfl, rfl⟩ := safe.loaded loaded
    obtain ⟨rfl, mapped', -⟩ := frame f mem loaded d' loaded'
    rw [(safe.each f mem).toMapped.namedBy_eq, mapped'.namedBy_eq]
    exact fun _ => id

/-- An operation that touches no file that is open before and after it. -/
theorem Answered.of_kept (safe : v.Safe image files lost)
    (answers : e.Answers mayFail (v.shows image) op answer)
    (other : ∀ i off data, op ≠ .write i off data)
    (frame : ∀ f ∈ files, v.disks f.sector = some f.disk → ∀ d, v'.disks f.sector = some d →
      d = f.disk ∧ ∀ s ∈ f.owned, image' s = image s) :
    Answered mayFail e op answer v v' image image' :=
  .of_frame safe answers other fun f mem loaded d loaded' => by
    obtain ⟨same, kept⟩ := frame f mem loaded d loaded'
    exact ⟨same, (safe.each f mem).toMapped.congr fun s own => kept s (List.mem_cons_of_mem _ own),
      fun _ => kept⟩

/-- The sectors stay, and what is open before and after is the same. -/
theorem Answered.of_disks (safe : v.Safe image files lost)
    (answers : e.Answers mayFail (v.shows image) op answer)
    (other : ∀ i off data, op ≠ .write i off data)
    (disks : ∀ t d d', v.disks t = some d → v'.disks t = some d' → d' = d) :
    Answered mayFail e op answer v v' image image :=
  .of_kept safe answers other fun _ _ loaded _ loaded' =>
    ⟨disks _ _ _ loaded loaded', fun _ _ => rfl⟩

namespace Session

variable {s : Session m}

/-- An operation that is carried out as `x` returns and is answered. -/
def Tells (s : Session m) (e : Expected) (op : FileOp)
    (x : Except Violation (FileAnswer × Session m)) : Prop :=
  ∃ answer s', x = .ok (answer, s') ∧ Answered s.fs.store.MayFail e op answer s.fs.volume
    s'.fs.volume s.image s'.image

theorem tell_tells {x : VolumeAction m FileAnswer} (ready : s.fs.store.Ready)
    (ensures : x.Ensures m s.fs.store.MayFail s.fs.volume s.image fun r v image =>
      Answered s.fs.store.MayFail e op (.of r) s.fs.volume v s.image image) :
    s.Tells e op (s.tell x) := by
  refine tell_spec (P := fun answer s' => Answered s.fs.store.MayFail e op answer s.fs.volume
    s'.fs.volume s.image s'.image) ready id ?_
  refine ensures.mono fun r v image answered fs leads volume shows => ?_
  subst volume shows
  exact answered

theorem keep_tells {x : VolumeAction m Handle} {put : Handle → List (Option Handle)}
    (ready : s.fs.store.Ready)
    (ensures : x.Ensures m s.fs.store.MayFail s.fs.volume s.image fun r v image =>
      Answered s.fs.store.MayFail e op (Memory.kept s.handles put r).1 s.fs.volume v s.image image) :
    s.Tells e op (s.keep x put) := by
  refine keep_spec put (P := fun answer s' => Answered s.fs.store.MayFail e op answer s.fs.volume
    s'.fs.volume s.image s'.image) ready id ?_
  refine ensures.mono fun r v image answered fs leads volume shows => ?_
  subst volume shows
  exact answered

namespace SettledExcept

variable (settled : s.SettledExcept e strayed)
include settled

theorem create_tells (length : Nat) (isDirectory : Bool) (parent : Sector) :
    s.Tells e (.create length isDirectory parent)
      (s.step (.create length isDirectory parent)) := by
  obtain ⟨files, lost, inodes⟩ := settled.inodes
  have safe := inodes.safe
  refine tell_tells settled.ready ?_
  rw [Action.ensures_map]
  -- neither the new file nor what a failure leaves behind is in a sector of another
  have leaves {answer : FileAnswer} {free : FreeMap m} {image' : Image}
      (answers : e.Answers s.fs.store.MayFail (s.fs.volume.shows s.image)
        (.create length isDirectory parent) answer)
      (same : ∀ t ∈ files.flatMap LiveFile.owned ++ lost, image' t = s.image t) :
      Answered s.fs.store.MayFail e (.create length isDirectory parent) answer s.fs.volume
        { s.fs.volume with free } s.image image' := by
    refine .of_kept safe answers (fun _ _ _ same => by cases same) fun f mem loaded d loaded' => ?_
    refine ⟨Option.some.inj (loaded'.symm.trans loaded), ?_⟩
    exact LiveFile.kept_owned mem fun t own => same t (List.mem_append_left _ own)
  refine Volume.create_spec safe.small safe.marks (List.mem_append_left _ safe.zero)
    (fun free image' f' _ _ _ same _ => ?_) fun failure free image' _ _ _ same => ?_
  · exact leaves (.inl ⟨f'.sector, rfl⟩) same
  · exact leaves (.inr ⟨failure, rfl⟩) same

/-- A live inode is opened. That fails only if it is not open yet and a request fails. -/
theorem opens_tells (live : e.isLive t = true) (put : Handle → List (Option Handle))
    (done : e.Answers s.fs.store.MayFail (s.fs.volume.shows s.image) op .done)
    (failed : s.fs.store.MayFail → s.fs.volume.find? t = none →
      e.Answers s.fs.store.MayFail (s.fs.volume.shows s.image) op (.failed .io))
    (other : ∀ i off data, op ≠ .write i off data) :
    s.Tells e op (s.keep (Volume.openAt t) put) := by
  obtain ⟨files, lost, inodes⟩ := settled.inodes
  obtain ⟨f, rest, rfl, inodes⟩ := inodes.split live
  have safe := inodes.safe
  refine keep_tells settled.ready ?_
  refine safe.openAt_spec (fun v' _ disks _ => ?_) fun may closed => ?_
  · refine .of_disks safe done other fun t d d' loaded loaded' => ?_
    rw [disks] at loaded'
    rcases Volume.of_update_some loaded' with ⟨rfl, rfl⟩ | ⟨-, loaded'⟩
    · exact safe.disk_of_disks loaded
    · exact Option.some.inj (loaded'.symm.trans loaded)
  · refine .of_disks safe (failed may closed) other fun t d d' loaded loaded' => ?_
    exact Option.some.inj (loaded'.symm.trans loaded)

theorem reopen_tells (legal : e.Legal (.reopen i)) :
    s.Tells e (.reopen i) (s.step (.reopen i)) := by
  obtain ⟨h, found⟩ := legal
  obtain ⟨files, lost, inodes⟩ := settled.inodes
  obtain ⟨node, loaded, -⟩ := Volume.exists_of_status (inodes.status_handle found)
  rw [step_handle (settled.handle_eq found) rfl]
  refine settled.opens_tells (inodes.live_of_handle found) _ rfl (fun _ closed => ?_)
    fun _ _ _ same => by cases same
  rw [loaded] at closed
  cases closed

theorem read_tells {off len : Nat} (legal : e.Legal (.read i off len)) :
    s.Tells e (.read i off len) (s.step (.read i off len)) := by
  obtain ⟨h, found⟩ := legal
  obtain ⟨files, lost, inodes⟩ := settled.inodes
  obtain ⟨f, rest, at_sector, inodes⟩ := inodes.split_handle found
  obtain ⟨node, loaded, -⟩ := Volume.exists_of_status (inodes.status_handle found)
  rw [← at_sector] at loaded
  have safe := inodes.safe
  have leaves {answer : FileAnswer} (given : answer =
      .bytes (((f.content s.image).drop off).take len) ∨
        s.fs.store.MayFail ∧ answer = .failed .io) :
      Answered s.fs.store.MayFail e (.read i off len) answer s.fs.volume s.fs.volume s.image
        s.image := by
    refine .of_disks safe (fun g found' => ?_) (fun _ _ _ same => by cases same)
      fun t d d' loaded loaded' => Option.some.inj (loaded'.symm.trans loaded)
    cases found.symm.trans found'
    exact ⟨_, at_sector ▸ safe.shows_file (Volume.disks_of_find? loaded), given⟩
  rw [step_handle (settled.handle_eq found) rfl]
  refine tell_tells settled.ready ?_
  rw [Action.ensures_map]
  exact Volume.readBytes_spec (safe.each f List.mem_cons_self).toMapped (by rwa [← at_sector])
    (safe.disk_of_find? loaded) (leaves (.inl rfl)) fun may => leaves (.inr ⟨may, rfl⟩)

theorem write_tells {off : Nat} {data : List UInt8} (legal : e.Legal (.write i off data)) :
    s.Tells e (.write i off data) (s.step (.write i off data)) := by
  obtain ⟨h, found, -⟩ := legal
  obtain ⟨files, lost, inodes⟩ := settled.inodes
  obtain ⟨f, rest, at_sector, inodes⟩ := inodes.split_handle found
  obtain ⟨node, loaded, -, -, denials⟩ := Volume.exists_of_status (inodes.status_handle found)
  rw [← at_sector] at loaded
  have safe := inodes.safe
  have before := safe.shows_file (Volume.disks_of_find? loaded)
  rw [step_handle (settled.handle_eq found) rfl]
  refine tell_tells settled.ready ?_
  rw [Action.ensures_map]
  refine Volume.writeSafe_spec safe at_sector.symm loaded
    fun r v' image' f' moved _ _ rewritten => ⟨fun g found' => ?_, fun apart => ?_, ?_, ?_⟩
  · cases found.symm.trans found'
    refine ⟨f.content s.image, at_sector ▸ before, ?_⟩
    rw [LiveFile.length_content]
    dsimp only at denials
    split
    case isTrue idle =>
      rw [(rewritten.idle (denials ▸ idle)).1]
      rfl
    case isFalse works =>
      rcases rewritten.works (denials ▸ works) with ⟨rfl, -⟩ | ⟨failure, rfl, why⟩
      · exact .inl rfl
      · exact .inr ⟨why, failure, rfl⟩
  · exact moved.shows_eq safe fun here => apart ⟨h, found, at_sector.symm.trans here⟩
  · intro i' off' data' h' old new same found' shown shown'
    cases same
    cases found.symm.trans found'
    rw [← at_sector] at shown shown'
    obtain rfl := Option.some.inj (before.symm.trans shown)
    obtain ⟨d, loaded', -⟩ := Option.map_eq_some_iff.1 shown'
    rw [← moved.ahead.sector] at loaded' shown'
    obtain rfl := Option.some.inj ((moved.safe.shows_file loaded').symm.trans shown')
    exact rewritten.wrote fun works => (not_or.1 works).2
  · exact moved.named safe

/-! ## Handles deny, allow, remove and close -/

/-- What is counted for an inode changes and nothing else. -/
theorem alike_answered (answers : e.Answers mayFail (s.fs.volume.shows s.image) op answer)
    (other : ∀ i off data, op ≠ .write i off data) (alike : s.fs.volume.Alike v) :
    Answered mayFail e op answer s.fs.volume v s.image s.image := by
  obtain ⟨files, lost, inodes⟩ := settled.inodes
  refine .of_disks inodes.safe answers other fun t d d' loaded loaded' => ?_
  rw [alike.disks] at loaded'
  exact Option.some.inj (loaded'.symm.trans loaded)

theorem deny_tells (fair : e.Fair (.deny i)) : s.Tells e (.deny i) (s.step (.deny i)) := by
  obtain ⟨h, found⟩ := fair
  obtain ⟨files, lost, inodes⟩ := settled.inodes
  rw [step_handle (settled.handle_eq found) rfl]
  refine keep_tells settled.ready ?_
  refine Volume.deny_spec (inodes.status_handle found) (Expected.denials_lt_openers found)
    fun v' alike _ => ?_
  exact settled.alike_answered rfl (fun _ _ _ same => by cases same) alike

theorem allow_tells (legal : e.Legal (.allow i)) : s.Tells e (.allow i) (s.step (.allow i)) := by
  obtain ⟨h, found⟩ := legal
  obtain ⟨files, lost, inodes⟩ := settled.inodes
  rw [step_handle (settled.handle_eq found) rfl]
  refine keep_tells settled.ready ?_
  refine Volume.allow_spec (inodes.status_handle found) (Expected.denials_pos found)
    fun v' alike _ => ?_
  exact settled.alike_answered rfl (fun _ _ _ same => by cases same) alike

theorem remove_tells (legal : e.Legal (.remove i)) :
    s.Tells e (.remove i) (s.step (.remove i)) := by
  obtain ⟨h, found, -⟩ := legal
  obtain ⟨files, lost, inodes⟩ := settled.inodes
  rw [step_handle (settled.handle_eq found) rfl]
  refine tell_tells settled.ready ?_
  rw [Action.ensures_bind]
  refine Volume.remove_spec (inodes.status_handle found) fun v' alike _ => ?_
  rw [Action.onward_ok, Action.ensures_pure]
  exact settled.alike_answered rfl (fun _ _ _ same => by cases same) alike

/-- Closing a handle changes no file that is still open, and fails only if a request does. -/
theorem close_answered (found : e.handle i = some h)
    (other : ∀ i off data, op ≠ .write i off data) :
    (Volume.close h).Ensures m s.fs.store.MayFail s.fs.volume s.image fun r v image =>
      (¬ s.fs.store.MayFail → r = .ok ()) ∧ ∀ answer,
        e.Answers s.fs.store.MayFail (s.fs.volume.shows s.image) op answer →
          Answered s.fs.store.MayFail e op answer s.fs.volume v s.image image := by
  obtain ⟨files, lost, inodes⟩ := settled.inodes
  obtain ⟨f, rest, at_sector, inodes⟩ := inodes.split_handle found
  have safe := inodes.safe
  have open_now := inodes.status_of_handle found at_sector
  have disk := safe.disks_of_status open_now
  refine Volume.close_spec safe.holds at_sector.symm disk open_now (Expected.openers_pos found)
    (Expected.denials_pos found) (fun _ v' alike _ => ?_) (fun _ may r v' result _ disks _ => ?_)
    fun _ _ r v' leaked never _ disks _ => ?_
  · exact ⟨fun _ => rfl, fun answer answers => settled.alike_answered answers other alike⟩
  · refine ⟨fun never => result (Bool.eq_false_iff.2 fun gone => never (may gone)),
      fun answer answers => .of_disks safe answers other fun t d d' loaded loaded' => ?_⟩
    rw [disks] at loaded'
    obtain ⟨-, loaded'⟩ := Volume.of_update_none loaded'
    exact Option.some.inj (loaded'.symm.trans loaded)
  · refine ⟨fun reliable => (never reliable).1, fun answer answers =>
      .of_kept safe answers other fun g mem loaded d loaded' => ?_⟩
    rw [disks] at loaded'
    obtain ⟨apart, loaded'⟩ := Volume.of_update_none loaded'
    refine ⟨Option.some.inj (loaded'.symm.trans loaded), fun t own => ?_⟩
    -- the sector that was cleared is no other file's
    have mem : g ∈ rest := (List.mem_cons.1 mem).resolve_left fun same => apart (same ▸ rfl)
    exact safe.update_kept Inode.zero.encode t (List.mem_flatMap.2 ⟨g, mem, own⟩)

theorem close_tells (legal : e.Legal (.close i)) : s.Tells e (.close i) (s.step (.close i)) := by
  obtain ⟨h, found⟩ := legal
  rw [step_handle (settled.handle_eq found) rfl]
  refine tell_tells (s := s.forget i) settled.ready ?_
  rw [Action.ensures_bind]
  have other (j off : Nat) (data : List UInt8) : FileOp.close i ≠ .write j off data := by
    intro same
    cases same
  refine (settled.close_answered found other).mono ?_
  rintro r v image ⟨reliable, answered⟩
  cases r with
  | ok =>
    rw [Action.onward_ok, Action.ensures_pure]
    exact answered _ (.inl rfl)
  | error failure =>
    rw [Action.onward_error]
    refine answered _ (.inr ⟨?_, failure, rfl⟩)
    by_contra never
    cases reliable never

theorem drop_tells (legal : e.Legal (.drop i)) : s.Tells e (.drop i) (s.step (.drop i)) := by
  obtain ⟨h, found⟩ := legal
  rw [step_handle (settled.handle_eq found) rfl]
  refine tell_tells (s := s.forget i) settled.ready ?_
  rw [Volume.drop, Action.ensures_bind, Action.ensures_ignoreError]
  have other (j off : Nat) (data : List UInt8) : FileOp.drop i ≠ .write j off data := by
    intro same
    cases same
  refine (settled.close_answered found other).mono ?_
  rintro r v image ⟨-, answered⟩
  rw [Action.onward_ok, Action.ensures_pure]
  exact answered _ rfl

/-! ## The file system is stored -/

theorem sync_tells (free : e.Unguarded) : s.Tells e .sync (s.step .sync) := by
  obtain ⟨files, lost, inodes⟩ := settled.inodes
  obtain ⟨f, rest, at_sector, inodes⟩ := inodes.split inodes.map_live
  have safe := inodes.safe
  refine tell_tells settled.ready ?_
  rw [Action.ensures_bind]
  refine inodes.sync_spec free at_sector fun r v' image' stores => ?_
  have answered {answer : FileAnswer}
      (answers : e.Answers s.fs.store.MayFail (s.fs.volume.shows s.image) .sync answer) :
      Answered s.fs.store.MayFail e .sync answer s.fs.volume v' s.image image' := by
    obtain ⟨data, written, -⟩ := stores.written
    obtain ⟨safe', -, kept⟩ := safe.overwritten written
    refine .of_frame safe answers (fun _ _ _ same => by cases same)
      fun g mem loaded d loaded' => ?_
    rw [stores.alike.disks, loaded] at loaded'
    refine ⟨(Option.some.inj loaded').symm, (safe'.each g mem).toMapped, fun apart => ?_⟩
    have mem : g ∈ rest := (List.mem_cons.1 mem).resolve_left fun same =>
      apart (same ▸ at_sector)
    exact LiveFile.kept_owned mem kept
  cases r with
  | ok =>
    rw [Action.onward_ok, Action.ensures_pure]
    exact answered (.inl rfl)
  | error failure =>
    rw [Action.onward_error]
    refine answered (.inr ⟨?_, failure, rfl⟩)
    by_contra never
    cases stores.works never

/-- Every fair operation returns and is answered, and the bytes of an inode that is open before it
and after it are those that were there or that it wrote. -/
theorem answered_of_fair (fair : e.Fair op) (stays : ∀ config, op ≠ .remount config)
    (free : op = .sync → e.Unguarded) : s.Tells e op (s.step op) := by
  cases op with
  | create length isDirectory parent => exact settled.create_tells length isDirectory parent
  | «open» t =>
    exact settled.opens_tells fair _ (.inl rfl) (fun may _ => .inr ⟨may, rfl⟩)
      fun _ _ _ same => by cases same
  | root =>
    obtain ⟨files, lost, inodes⟩ := settled.inodes
    exact settled.opens_tells inodes.root_live _ (.inl rfl) (fun may _ => .inr ⟨may, rfl⟩)
      fun _ _ _ same => by cases same
  | reopen i => exact settled.reopen_tells fair
  | read i off len => exact settled.read_tells fair
  | write i off data => exact settled.write_tells fair
  | remove i => exact settled.remove_tells fair
  | deny i => exact settled.deny_tells fair
  | allow i => exact settled.allow_tells fair
  | close i => exact settled.close_tells fair
  | drop i => exact settled.drop_tells fair
  | sync => exact settled.sync_tells (free rfl)
  | remount config => exact absurd rfl (stays config)

end SettledExcept

end Session

end SectorFs
