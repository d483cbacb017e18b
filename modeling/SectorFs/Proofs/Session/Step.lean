/-
# SectorFs.Proofs.Session.Step — one operation after another

A session follows what is expected (`Session.Follows`) when its cache is ready
and its volume agrees. Every legal operation returns, is answered as expected,
and the session follows what is expected next (`goes_of_legal`). The cases are
the operations; those on one handle differ only in the lemma about the volume
that they end in.
-/
import SectorFs.Proofs.Session.Agreement

namespace SectorFs

set_option autoImplicit false

variable {m : Nat} {image image' : Image} {v v' : Volume m} {e e' : Expected}
  {files rest : List LiveFile} {f f' : LiveFile} {t : Sector} {h : Handle} {i : Nat} {op : FileOp}

namespace Session

/-- The session does what is expected. -/
structure Follows (s : Session m) (e : Expected) : Prop where
  up : s.fs.Up
  handles : s.handles = e.handles
  agrees : ∃ files, e.Agrees s.fs.volume s.image files

/-- An operation returns and is answered as expected. -/
def Goes (s : Session m) (e : Expected) (op : FileOp) : Prop :=
  ∃ answer s', s.step op = .ok (answer, s') ∧ e.Allows op answer ∧ s'.Follows (e.next op answer)

/-- What an answer leaves is what is expected next. -/
structure Fits (e : Expected) (op : FileOp) (handles : List (Option Handle)) (answer : FileAnswer)
    (v : Volume m) (image : Image) : Prop where
  allows : e.Allows op answer
  handles : handles = (e.next op answer).handles
  agrees : ∃ files, (e.next op answer).Agrees v image files

variable {s : Session m}

theorem tell_goes {x : VolumeAction m FileAnswer} (up : s.fs.Up)
    (ensures : x.Ensures m False s.fs.volume s.image fun r v image =>
      Fits e op s.handles (.of r) v image) :
    ∃ answer s', s.tell x = .ok (answer, s') ∧ e.Allows op answer ∧
      s'.Follows (e.next op answer) := by
  refine tell_spec (P := fun answer s' => e.Allows op answer ∧ s'.Follows (e.next op answer))
    up.ready up.never (ensures.mono fun r v image fits fs leads volume shows => ?_)
  subst volume shows
  exact ⟨fits.allows, up.leads leads, fits.handles, fits.agrees⟩

theorem keep_goes {x : VolumeAction m Handle} {put : Handle → List (Option Handle)}
    (up : s.fs.Up) (ensures : x.Ensures m False s.fs.volume s.image fun r v image =>
      ∃ h, r = .ok h ∧ Fits e op (put h) .done v image) :
    ∃ answer s', s.keep x put = .ok (answer, s') ∧ e.Allows op answer ∧
      s'.Follows (e.next op answer) := by
  refine keep_spec put (P := fun answer s' => e.Allows op answer ∧ s'.Follows (e.next op answer))
    up.ready up.never (ensures.mono ?_)
  rintro r v image ⟨h, rfl, fits⟩ fs leads rfl rfl
  exact ⟨fits.allows, up.leads leads, fits.handles, fits.agrees⟩

/-- What closing a handle does: the last close of a removed file frees all its sectors, and clears
that of the inode. -/
structure Closing (e : Expected) (i : Nat) (h : Handle) (v : Volume m) (image : Image)
    (r : Except Failure Unit) (v' : Volume m) (image' : Image) : Prop where
  result : r = .ok ()
  agrees : ∃ files, (e.closed i h).Agrees v' image' files
  frees : e.openers h.sector = 1 → e.isRemoved h.sector = true →
    v'.free.countFree = v.free.countFree + (1 +
      8 * groupsFor (Inode.decode (image h.sector.index)).blockCount +
      indexFor (Inode.decode (image h.sector.index)).blockCount)
  clears : e.openers h.sector = 1 → e.isRemoved h.sector = true →
    (Inode.decode (image' h.sector.index)).isMarked = false

theorem close_ensures (agrees : e.Agrees v image files) (found : e.handle i = some h) :
    (Volume.close h).Ensures m False v image (Closing e i h v image) := by
  obtain ⟨f, rest, at_sector, agrees⟩ := agrees.split_handle found
  have open_now := agrees.status_of_handle found at_sector
  have sound := agrees.sound
  -- the free map's file is never removed, so sector 0 is another file's
  have zero (gone : e.isRemoved h.sector = true) : 0 ∈ rest.flatMap LiveFile.owned := by
    refine (List.mem_cons.1 sound.reserved).resolve_left fun zero => ?_
    have here : f.sector = Sector.freeMap := Sector.index_inj.1 zero.symm
    rw [← at_sector, here, agrees.map_stays] at gone
    cases gone
  have disk : v.disks f.sector = some f.disk := by
    obtain ⟨node, loaded, -⟩ := Volume.exists_of_status open_now
    rw [Volume.disks_of_find? loaded, sound.disk_of_find? loaded]
  refine Volume.close_spec sound.holds at_sector.symm disk open_now (Expected.openers_pos found)
    (Expected.denials_pos found) (fun several v' alike status => ?_)
    (fun last never r v' result free disks status => ?_)
    fun last gone r v' leaked never marks disks status => ?_
  · rw [at_sector] at status
    exact ⟨rfl, ⟨f :: rest, agrees.closed found (fun both => several both.1) (sound.alike alike)
      status⟩, fun last _ => absurd last several, fun last _ => absurd last several⟩
  · have stays := Bool.eq_false_iff.2 never
    obtain rfl := result stays
    have closed : v'.status = Function.update v.status h.sector (Volume.Status.closed
        ⟨e.openers h.sector, e.isRemoved h.sector, e.denials h.sector⟩ h) := by
      rw [status, at_sector, Volume.Status.closed_last last]
    exact ⟨rfl, ⟨f :: rest, agrees.closed found (fun both => never both.2) (sound.shut free disks)
      closed⟩, fun _ gone => absurd gone never, fun _ gone => absurd gone never⟩
  · obtain ⟨rfl, rfl⟩ := never id
    rw [at_sector] at status
    rw [List.append_nil] at marks
    have nodup := sound.nodup
    rw [List.flatMap_cons, LiveFile.owned, List.cons_append, List.nodup_cons] at nodup
    have kept (t : Nat) (mem : t ∈ rest.flatMap LiveFile.owned) :
        Function.update image f.sector.index Inode.zero.encode t = image t :=
      Function.update_of_ne (fun here : t = f.sector.index =>
        nodup.1 (here ▸ List.mem_append_right _ mem)) _ _
    have sound' := sound.tail marks kept (zero gone) disks
    refine ⟨rfl, ⟨rest, agrees.deleted found at_sector last gone sound' kept status⟩,
      fun _ _ => ?_, fun _ _ => at_sector ▸ unmarked_cleared image f.sector⟩
    have file := sound.each f List.mem_cons_self
    have whole := file.stored.whole
    have all := sound.marks.length_le
    rw [sound.marks.countFree, marks.countFree, ← at_sector, file.inode,
      file.stored.describes.blockCount whole]
    rw [List.flatMap_cons, List.length_append, LiveFile.owned, List.length_cons,
      Layout.length_owned whole] at all ⊢
    omega

theorem drop_ensures (agrees : e.Agrees v image files) (found : e.handle i = some h) :
    (Volume.drop h).Ensures m False v image (Closing e i h v image) := by
  rw [Volume.drop, Action.ensures_ignoreError]
  exact (close_ensures agrees found).mono fun _ _ _ closing =>
    ⟨rfl, closing.agrees, closing.frees, closing.clears⟩

namespace Follows

variable (follows : s.Follows e)
include follows

theorem handle_eq (found : e.handle i = some h) : s.handle i = some h := by
  rw [handle_eq_join, follows.handles]
  exact found

/-! ## Files are made and opened -/

theorem create_goes (length : Nat) (isDirectory : Bool) (parent : Sector) :
    s.Goes e (.create length isDirectory parent) := by
  obtain ⟨files, agrees⟩ := follows.agrees
  refine tell_goes follows.up ?_
  rw [Action.ensures_map]
  refine Volume.create_spec agrees.sound.small agrees.sound.marks agrees.sound.zero
    (fun free image' f' new fresh marks kept zeros => ?_)
    fun failure free image' leaked undone marks kept => ?_
  · obtain ⟨dead, agrees'⟩ := agrees.created (Volume.sector_ne_of_not_mem fresh)
      (agrees.sound.cons new marks kept) kept zeros
    exact ⟨.inl ⟨f'.sector, rfl, dead⟩, follows.handles, f' :: files, agrees'⟩
  · rw [undone (.inl id), List.append_nil] at marks
    refine ⟨.inr ⟨failure, rfl⟩, follows.handles, files, ?_⟩
    exact { agrees with
      sound := agrees.sound.keep marks kept
      bytes := fun g mem other => by
        rw [agrees.content_kept mem kept]
        exact agrees.bytes g mem other }

theorem opens (live : e.isLive t = true) (next : e.next op .done = e.opened t)
    (allows : e.Allows op .done) :
    ∃ answer s', s.keep (Volume.openAt t) (fun h => s.handles ++ [some h]) = .ok (answer, s') ∧
      e.Allows op answer ∧ s'.Follows (e.next op answer) := by
  obtain ⟨files, agrees⟩ := follows.agrees
  obtain ⟨f, rest, rfl, agrees⟩ := agrees.split live
  have mem : f ∈ f :: rest := List.mem_cons_self
  refine keep_goes follows.up ?_
  refine Volume.openAt_spec (agrees.sound.inside mem) (fun _ => (agrees.sound.each f mem).opens)
    (fun _ => agrees.sound.disk_of_find?) (fun v' free disks status => ?_) False.elim
  refine ⟨_, rfl, allows, ?_, f :: rest, ?_⟩
  · rw [next, follows.handles]
    rfl
  · rw [next]
    exact agrees.opened (agrees.sound.opened mem free disks) status

theorem open_goes (legal : e.Legal (.open t)) : s.Goes e (.open t) :=
  follows.opens legal rfl rfl

theorem root_goes : s.Goes e .root := by
  obtain ⟨files, agrees⟩ := follows.agrees
  exact follows.opens agrees.root_live rfl rfl

theorem reopen_goes (legal : e.Legal (.reopen i)) : s.Goes e (.reopen i) := by
  obtain ⟨h, found⟩ := legal
  obtain ⟨files, agrees⟩ := follows.agrees
  have live := agrees.live_of_handle found
  rw [Goes, step_handle (follows.handle_eq found) rfl]
  exact follows.opens live (Expected.onHandle_eq found) rfl

/-! ## Bytes are read and written -/

theorem read_goes {off len : Nat} (legal : e.Legal (.read i off len)) :
    s.Goes e (.read i off len) := by
  obtain ⟨h, found⟩ := legal
  obtain ⟨files, agrees⟩ := follows.agrees
  obtain ⟨f, rest, at_sector, agrees⟩ := agrees.split_handle found
  obtain ⟨node, loaded, -⟩ := Volume.exists_of_status (agrees.status_handle found)
  rw [← at_sector] at loaded
  rw [Goes, step_handle (follows.handle_eq found) rfl]
  refine tell_goes follows.up ?_
  rw [Action.ensures_map]
  refine Volume.readBytes_spec (agrees.sound.each f List.mem_cons_self).mapped
    (by rwa [← at_sector]) (agrees.sound.disk_of_find? loaded) ?_ False.elim
  refine ⟨⟨_, rfl, fun g found' => ?_⟩, follows.handles, f :: rest, agrees⟩
  obtain rfl := Option.some.inj (found.symm.trans found')
  obtain ⟨file, known⟩ := Option.isSome_iff_exists.1
    (agrees.live_of_handle found)
  refine ⟨file, known, fun other => ?_⟩
  have bytes := agrees.bytes f List.mem_cons_self (at_sector ▸ other)
  rw [at_sector, known] at bytes
  rw [Option.some.inj bytes]

theorem write_goes {off : Nat} {data : List UInt8} (legal : e.Legal (.write i off data)) :
    s.Goes e (.write i off data) := by
  obtain ⟨h, found, other⟩ := legal
  obtain ⟨files, agrees⟩ := follows.agrees
  obtain ⟨f, rest, at_sector, agrees⟩ := agrees.split_handle found
  obtain ⟨node, loaded, -, -, denials⟩ := Volume.exists_of_status (agrees.status_handle found)
  obtain ⟨file, known⟩ := Option.isSome_iff_exists.1
    (agrees.live_of_handle found)
  have before : f.sector ≠ Sector.freeMap := at_sector ▸ other
  have bytes := agrees.bytes f List.mem_cons_self before
  rw [at_sector, known] at bytes
  have same (g : Handle) (found' : e.handle i = some g) : g = h :=
    Option.some.inj (found'.symm.trans found)
  rw [← at_sector] at loaded
  rw [Goes, step_handle (follows.handle_eq found) rfl]
  refine tell_goes follows.up ?_
  rw [Action.ensures_map]
  refine Volume.writeBytes_spec agrees.sound at_sector.symm loaded (fun nothing => ?_)
    (fun v' image' f' free some_data changed _ content => ?_)
    fun _ free some_data failure v' image' changed content => ?_
  · have idles : e.Idles h.sector data := by rwa [denials] at nothing
    refine ⟨fun g found' => ?_, ?_, f :: rest, ?_⟩
    · rw [same g found', if_pos idles]
      rfl
    · exact follows.handles.trans
        (congrArg Expected.handles ((Expected.onHandle_eq found).trans (if_pos idles))).symm
    · have next : e.next (.write i off data) (.written 0) = e :=
        (Expected.onHandle_eq found).trans (if_pos idles)
      change (e.next (.write i off data) (.written 0)).Agrees _ _ _
      rw [next]
      exact agrees
  · have works : ¬ e.Idles h.sector data := by
      rw [denials] at free
      exact not_or.2 ⟨by dsimp only at free; omega, some_data⟩
    have next : e.next (.write i off data) (.written data.length) =
        e.withFile h.sector (some { file with bytes := overwrite file.bytes off data }) := by
      refine (Expected.onHandle_eq found).trans ((if_neg works).trans ?_)
      rw [known]
      rfl
    refine ⟨fun g found' => ?_, ?_, f' :: rest, ?_⟩
    · rw [same g found', if_neg works]
      exact .inl rfl
    · exact follows.handles.trans (congrArg Expected.handles next).symm
    · refine next ▸ ?_
      rw [← Option.some.inj bytes] at content
      rw [← at_sector]
      exact agrees.changed changed (at_sector ▸ known) before content
  · have works : ¬ e.Idles h.sector data := by
      rw [denials] at free
      exact not_or.2 ⟨by dsimp only at free; omega, some_data⟩
    refine ⟨fun g found' => ?_, follows.handles, f :: rest,
      agrees.unchanged changed fun _ => content⟩
    rw [same g found', if_neg works]
    exact .inr ⟨failure, rfl⟩

/-! ## Handles deny, allow, remove and close -/

theorem deny_goes (legal : e.Legal (.deny i)) : s.Goes e (.deny i) := by
  obtain ⟨h, found, other⟩ := legal
  obtain ⟨files, agrees⟩ := follows.agrees
  have next : e.next (.deny i) .done = e.withHandle i (some { h with deniesWrite := true }) :=
    Expected.onHandle_eq found
  rw [Goes, step_handle (follows.handle_eq found) rfl]
  refine keep_goes follows.up ?_
  refine Volume.deny_spec (agrees.status_handle found) (Expected.denials_lt_openers found)
    fun v' alike status => ?_
  refine ⟨_, rfl, rfl, ?_, files,
    next ▸ agrees.withHandle found (agrees.sound.alike alike) ?_ ?_ status⟩
  · rw [next, memory_handles, follows.handles]
    rfl
  · cases h.deniesWrite <;> rfl
  · exact fun here => absurd here other

theorem allow_goes (legal : e.Legal (.allow i)) : s.Goes e (.allow i) := by
  obtain ⟨h, found⟩ := legal
  obtain ⟨files, agrees⟩ := follows.agrees
  have next : e.next (.allow i) .done = e.withHandle i (some { h with deniesWrite := false }) :=
    Expected.onHandle_eq found
  have counted := Expected.denials_pos found
  rw [Goes, step_handle (follows.handle_eq found) rfl]
  refine keep_goes follows.up ?_
  refine Volume.allow_spec (agrees.status_handle found) counted fun v' alike status => ?_
  refine ⟨_, rfl, rfl, ?_, files,
    next ▸ agrees.withHandle found (agrees.sound.alike alike) ?_ (fun _ => rfl) status⟩
  · rw [next, memory_handles, follows.handles]
    rfl
  · cases denies : h.deniesWrite with
    | false => rfl
    | true => exact Nat.sub_add_cancel (counted denies)

theorem remove_goes (legal : e.Legal (.remove i)) : s.Goes e (.remove i) := by
  obtain ⟨h, found, other, other'⟩ := legal
  obtain ⟨files, agrees⟩ := follows.agrees
  obtain ⟨file, known⟩ := Option.isSome_iff_exists.1
    (agrees.live_of_handle found)
  have next : e.next (.remove i) .done =
      e.withFile h.sector (some { file with removed := true }) := by
    refine (Expected.onHandle_eq found).trans ?_
    rw [known]
    rfl
  rw [Goes, step_handle (follows.handle_eq found) rfl]
  refine tell_goes follows.up ?_
  rw [Action.ensures_bind]
  refine Volume.remove_spec (agrees.status_handle found) fun v' alike status => ?_
  refine ⟨rfl, ?_, files,
    next ▸ agrees.removed found known other other' (agrees.sound.alike alike) status⟩
  exact follows.handles.trans (congrArg Expected.handles next).symm

theorem closing {x : VolumeAction m Unit}
    (ensures : x.Ensures m False s.fs.volume s.image (Closing e i h s.fs.volume s.image)) :
    ∃ s', (s.forget i).tell (do x; return .done) = .ok (.done, s') ∧
      s'.Follows (e.closed i h) ∧
        Closing e i h s.fs.volume s.image (.ok ()) s'.fs.volume s'.image := by
  have handles : (s.forget i).handles = (e.closed i h).handles := by
    rw [forget_handles, follows.handles, Expected.closed]
    split <;> rfl
  obtain ⟨answer, s', told, same, follows', closing⟩ := tell_spec (s := s.forget i)
    (x := do x; return .done) (P := fun answer s' => answer = .done ∧ s'.Follows (e.closed i h) ∧
      Closing e i h s.fs.volume s.image (.ok ()) s'.fs.volume s'.image)
    follows.up.ready follows.up.never (by
      rw [Action.ensures_bind]
      refine ensures.mono fun r v image closing => ?_
      obtain rfl := closing.result
      rw [Action.onward_ok, Action.ensures_pure]
      rintro fs leads rfl rfl
      exact ⟨rfl, ⟨follows.up.leads leads, handles, closing.agrees⟩, closing⟩)
  subst same
  exact ⟨s', told, follows', closing⟩

theorem close_goes (legal : e.Legal (.close i)) : s.Goes e (.close i) := by
  obtain ⟨h, found⟩ := legal
  obtain ⟨files, agrees⟩ := follows.agrees
  obtain ⟨s', told, follows', -⟩ := follows.closing (close_ensures agrees found)
  have next : e.next (.close i) .done = e.closed i h := Expected.onHandle_eq found
  rw [Goes, step_handle (follows.handle_eq found) rfl]
  exact ⟨.done, s', told, rfl, next ▸ follows'⟩

theorem drop_goes (legal : e.Legal (.drop i)) : s.Goes e (.drop i) := by
  obtain ⟨h, found⟩ := legal
  obtain ⟨files, agrees⟩ := follows.agrees
  obtain ⟨s', told, follows', -⟩ := follows.closing (drop_ensures agrees found)
  have next : e.next (.drop i) .done = e.closed i h := Expected.onHandle_eq found
  rw [Goes, step_handle (follows.handle_eq found) rfl]
  exact ⟨.done, s', told, rfl, next ▸ follows'⟩

/-! ## The file system is stored and taken up again -/

omit follows in
/-- Storing the file system changes no byte that is expected. -/
theorem sync_ensures (agrees : e.Agrees v image (f :: rest))
    (at_sector : f.sector = Sector.freeMap) :
    (Volume.sync : VolumeAction m Unit).Ensures m False v image fun r v' image' => r = .ok () ∧
      Volume.Changed v v' image image' f f rest ∧ f.content image' = v.free.toBytes := by
  have file := agrees.sound.each f List.mem_cons_self
  have length := agrees.length f List.mem_cons_self at_sector
  refine Volume.sync_spec file.mapped (agrees.sound.inside List.mem_cons_self) at_sector
    (Nat.le_of_eq length.symm) (at_sector ▸ agrees.idle_map agrees.unguarded) (fun _ => file.opens)
    (fun _ => agrees.sound.disk_of_find?) fun r v' image' stores => ?_
  have ok := stores.works id
  exact ⟨ok, stores.changed agrees.sound length ok⟩

theorem sync_goes : s.Goes e .sync := by
  obtain ⟨files, agrees⟩ := follows.agrees
  obtain ⟨f, rest, at_sector, agrees⟩ := agrees.split agrees.map_live
  refine tell_goes follows.up ?_
  rw [Action.ensures_bind]
  refine (sync_ensures agrees at_sector).mono ?_
  rintro r v' image' ⟨rfl, changed, -⟩
  exact ⟨rfl, follows.handles, f :: rest,
    agrees.unchanged changed fun other => absurd at_sector other⟩

/-- A file system that is stored can be taken up from the device, with the same free map. Nothing
is open then, and every other sector than those of the free map's file is as it was. -/
theorem taken_up {config : CacheSetup} (slots : 0 < config.slots) :
    ∃ (fs : FileSystem (Cache s.config.slots m 512) m)
      (fs' : FileSystem (Cache config.slots m 512) m),
      s.fs.perform Volume.sync = .ok (.ok (), fs) ∧
      FileSystem.mount (Cache.new fs.store.device config) = .ok (.ok (), some fs') ∧
      fs'.volume.free = s.fs.volume.free ∧
      (∀ t, e.isLive t = true → t ≠ Sector.freeMap →
        fs'.store.image t.index = s.image t.index) ∧
      Session.Follows ⟨config, fs', []⟩ (e.next (.remount config) .done) := by
  obtain ⟨files, agrees⟩ := follows.agrees
  obtain ⟨f, rest, at_sector, agrees⟩ := agrees.split agrees.map_live
  have length := agrees.length f List.mem_cons_self at_sector
  obtain ⟨r, fs, stored, leads, rfl, changed, content⟩ := FileSystem.perform_spec follows.up.ready
    follows.up.never (sync_ensures agrees at_sector)
  have up := follows.up.leads leads
  have agrees' := agrees.unchanged changed fun other => absurd at_sector other
  obtain ⟨root, mem, at_root⟩ := agrees'.live.1 agrees.root_live
  have inside := agrees'.sound.inside mem
  obtain ⟨r, fs', mounted, ready, fails, rfl, free, closed, shown'⟩ :=
    FileSystem.start_spec .notFormatted slots
    (show 2 ≤ m by rw [at_root] at inside; exact inside) (fun may => may up.reliable)
    (x := Volume.mount) (Q := fun r v image => r = .ok () ∧ v.free = s.fs.volume.free ∧
      v.find? = (fun _ => none) ∧ image = fs.store.image) (by
      rw [FileSystem.image_of_flush up.ready (Volume.sync_eq ▸ stored) rfl]
      exact Volume.mount_spec (agrees'.sound.each f List.mem_cons_self).opens
        (agrees'.sound.each root mem).opens (agrees'.sound.inside List.mem_cons_self) inside at_sector
        at_root length agrees.sound.marks content (fun v' free closed => ⟨rfl, free, closed, rfl⟩)
        False.elim)
  have up' : fs'.Up := ⟨ready, by
    rw [fails]
    exact up.reliable⟩
  refine ⟨fs, fs', stored, mounted, free, fun t live other => ?_, up', rfl, f :: rest, ?_⟩
  · obtain ⟨g, mem, rfl⟩ := agrees.live.1 live
    rw [shown']
    refine changed.kept _ (List.mem_flatMap.2 ⟨g, ?_, List.mem_cons_self⟩)
    rcases List.mem_cons.1 mem with rfl | mem
    · exact absurd at_sector other
    · exact mem
  · change (e.next (.remount config) .done).Agrees fs'.volume fs'.store.image (f :: rest)
    rw [shown']
    exact agrees'.remounted (free ▸ agrees.sound.marks) closed

theorem remount_goes {config : CacheSetup} (legal : e.Legal (.remount config)) :
    s.Goes e (.remount config) := by
  obtain ⟨fs, fs', stored, mounted, -, -, follows'⟩ := follows.taken_up legal
  refine ⟨.done, ⟨config, fs', []⟩, ?_, rfl, follows'⟩
  change s.remount config = _
  rw [remount, stored]
  change (FileSystem.mount (Cache.new fs.store.device config) >>= _) = _
  rw [mounted]
  rfl

/-- Every legal operation goes as expected. -/
theorem goes_of_legal (legal : e.Legal op) : s.Goes e op := by
  cases op with
  | create length isDirectory parent => exact follows.create_goes length isDirectory parent
  | «open» t => exact follows.open_goes legal
  | root => exact follows.root_goes
  | reopen i => exact follows.reopen_goes legal
  | read i off len => exact follows.read_goes legal
  | write i off data => exact follows.write_goes legal
  | remove i => exact follows.remove_goes legal
  | deny i => exact follows.deny_goes legal
  | allow i => exact follows.allow_goes legal
  | close i => exact follows.close_goes legal
  | drop i => exact follows.drop_goes legal
  | sync => exact follows.sync_goes
  | remount config => exact follows.remount_goes legal

end Follows

end Session

end SectorFs
