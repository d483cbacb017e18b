/-
# SectorFs.Proofs.Session.Persistence — what a shutdown leaves on the device

A caller learns of an inode what its handle shows: the inode as it is in memory
and the bytes of the file (`Session.Shows`). In every session that legal operations
lead to, all of this is what the sectors say (`Follows.shows`). Storing the free
map changes no sector of another file and flushes the rest, so a file system that
is taken up from the device on any cache has the same free map and shows the same
inodes (`persists_of_reachable`), among them those that were open, and those that
were removed and waited for their last handle.
-/
import SectorFs.Proofs.Session.Ownership

namespace SectorFs

set_option autoImplicit false

variable {m : Nat} {e : Expected} {t : Sector}

theorem Expected.handle_opened (e : Expected) (t : Sector) :
    (e.opened t).handle e.handles.length = some { sector := t } := by
  rw [handle, opened, List.getElem?_concat_length]
  rfl

namespace Session

/-- What a caller finds who opens the inode at `t`: it is `d` in memory, and reads give `bytes`. -/
structure Shows (s : Session m) (t : Sector) (d : Inode) (bytes : List UInt8) : Prop where
  length : d.length = bytes.length
  opens : ∃ s' node, s.step (.open t) = .ok (.done, s') ∧ s'.fs.volume.find? t = some node ∧
    node.disk = d ∧ ∀ off len, ∃ s'', s'.step (.read s.handles.length off len) =
      .ok (.bytes ((bytes.drop off).take len), s'')

/-- What a caller finds is one inode and its bytes. -/
theorem Shows.unique {s : Session m} {d d' : Inode} {bytes bytes' : List UInt8}
    (shows : s.Shows t d bytes) (shows' : s.Shows t d' bytes') : d = d' ∧ bytes = bytes' := by
  obtain ⟨length, s', node, opened, found, rfl, reads⟩ := shows
  obtain ⟨length', s'', node', opened', found', rfl, reads'⟩ := shows'
  cases opened.symm.trans opened'
  obtain rfl := Option.some.inj (found.symm.trans found')
  obtain ⟨_, read⟩ := reads 0 bytes.length
  obtain ⟨_, read'⟩ := reads' 0 bytes.length
  have same := read.symm.trans read'
  injection same with same
  injection same with same
  injection same with same
  rw [List.drop_zero, List.drop_zero, List.take_length, ← length, length', List.take_length] at same
  exact ⟨rfl, same⟩

/-- A live inode opens as the one that its sector stores. -/
theorem Follows.exists_opened {s : Session m} (follows : s.Follows e) (live : e.isLive t = true) :
    ∃ s' node, s.step (.open t) = .ok (.done, s') ∧ s'.Follows (e.opened t) ∧
      s'.fs.volume.find? t = some node ∧ node.disk = Inode.decode (s.image t.index) := by
  obtain ⟨files, agrees⟩ := follows.agrees
  obtain ⟨f, rest, rfl, agrees⟩ := agrees.split live
  have sound := agrees.sound.each f List.mem_cons_self
  obtain ⟨_, s', opened, rfl, follows', node, found, disk⟩ := keep_spec
    (fun h => s.handles ++ [some h]) (P := fun answer s' => answer = .done ∧
      s'.Follows (e.opened f.sector) ∧
      ∃ node, s'.fs.volume.find? f.sector = some node ∧ node.disk = f.disk)
    follows.up.ready follows.up.never (by
    refine Volume.openAt_spec (agrees.sound.inside List.mem_cons_self) (fun _ => sound.opens)
      (fun _ => agrees.sound.disk_of_find?) (fun v' free disks status => ?_) False.elim
    have sound' := agrees.sound.opened List.mem_cons_self free disks
    rintro fs leads rfl shows
    obtain ⟨node, found, -⟩ := Volume.exists_of_status
      ((congrFun status f.sector).trans (Function.update_self ..))
    refine ⟨rfl, ⟨follows.up.leads leads, ?_, f :: rest, ?_⟩, node, found,
      sound'.disk_of_find? found⟩
    · change s.handles ++ _ = _
      rw [follows.handles]
      rfl
    · change (e.opened f.sector).Agrees fs.volume fs.store.image (f :: rest)
      rw [shows]
      exact agrees.opened sound' status)
  exact ⟨s', node, opened, follows', found, disk.trans sound.inode.symm⟩

/-- A live inode shows what its sectors hold, and it shows the bytes that it is expected to have. -/
theorem Follows.shows {s : Session m} (follows : s.Follows e) (live : e.isLive t = true)
    (other : t ≠ Sector.freeMap) : ∃ file, e.files t = some file ∧
      s.Shows t (Inode.decode (s.image t.index)) file.bytes := by
  obtain ⟨s', node, opened, follows', found, disk⟩ := follows.exists_opened live
  obtain ⟨files, agrees⟩ := follows.agrees
  obtain ⟨f, rest, rfl, agrees⟩ := agrees.split live
  have sound := agrees.sound.each f List.mem_cons_self
  obtain ⟨file, known, bytes⟩ := Option.map_eq_some_iff.1
    (agrees.bytes f List.mem_cons_self other)
  refine ⟨file, known, ?_, s', node, opened, found, disk, fun off len => ?_⟩
  · rw [sound.inode, bytes, LiveFile.length_content]
  · have handle := e.handle_opened f.sector
    rw [← follows.handles] at handle
    obtain ⟨_, s'', read, ⟨data, rfl, answers⟩, -⟩ : s'.Goes _ (.read s.handles.length off len) :=
      follows'.read_goes ⟨_, handle⟩
    obtain ⟨file', known', content⟩ := answers _ handle
    obtain rfl := Option.some.inj (known.symm.trans known')
    exact ⟨s'', content other ▸ read⟩

variable {device : Device m 512} {config : CacheSetup}
  {fs : FileSystem (Cache config.slots m 512) m} {s : Session m}

/-- Whatever a file system shows inodes. After any legal operations on a device that does not fail
the file system can be stored, and what is taken up from the device then has the same free map and
shows every inode as before. -/
theorem persists_of_reachable (reliable : ∀ number kind b, device.fails number kind b = false)
    (formatted : FileSystem.format (Cache.new device config) = .ok (.ok (), some fs))
    (reachable : Reachable ⟨config, fs, []⟩ s e) :
    ∃ fs₁, s.fs.perform Volume.sync = .ok (.ok (), fs₁) ∧
      ∀ config' : CacheSetup, 0 < config'.slots →
        ∃ fs' : FileSystem (Cache config'.slots m 512) m,
          FileSystem.mount (Cache.new fs₁.store.device config') = .ok (.ok (), some fs') ∧
          fs'.volume.free = s.fs.volume.free ∧
          ∀ t, e.isLive t = true → t ≠ Sector.freeMap → ∃ d bytes,
            (∀ node, s.fs.volume.find? t = some node → node.disk = d) ∧
            s.Shows t d bytes ∧ Session.Shows ⟨config', fs', []⟩ t d bytes := by
  have follows := reachable.follows (follows_start reliable formatted)
  obtain ⟨files, agrees⟩ := follows.agrees
  obtain ⟨fs₁, -, stored, -⟩ := follows.taken_up (FileSystem.started formatted).1
  refine ⟨fs₁, stored, fun config' slots => ?_⟩
  obtain ⟨fs₂, fs', stored', mounted, free, kept, follows'⟩ := follows.taken_up slots
  obtain rfl : fs₂ = fs₁ := by
    rw [stored] at stored'
    cases stored'
    rfl
  refine ⟨fs', mounted, free, fun t live other => ?_⟩
  have live' : (e.next (.remount config') .done).isLive t = true :=
    (Option.isSome_map ..).trans live
  obtain ⟨file, known, shows⟩ := follows.shows live other
  obtain ⟨file', known', shows'⟩ := follows'.shows live' other
  have bytes : file'.bytes = file.bytes := by
    have same : (e.files t).map (fun file => { file with removed := false }) = some file' := known'
    rw [known] at same
    cases same
    rfl
  have inode : Session.image ⟨config', fs', []⟩ t.index = s.image t.index := kept t live other
  rw [inode, bytes] at shows'
  exact ⟨_, _, fun node found => (agrees.accounted.loaded found).2, shows, shows'⟩

/-- An inode that was removed and is still open is there again after a shutdown, with the bytes that
were written to it. -/
theorem persists_of_reachable_removed :
    ∃ (fs : FileSystem (Cache 1 19 512) 19) (s : Session 19) (e : Expected)
      (fs₁ : FileSystem (Cache s.config.slots 19 512) 19) (fs' : FileSystem (Cache 3 19 512) 19)
      (d : Inode),
      FileSystem.format (Cache.new (Device.filled 19 512 7) { slots := 1 }) =
        .ok (.ok (), some fs) ∧
      Reachable ⟨{ slots := 1 }, fs, []⟩ s e ∧ e.isRemoved ⟨10⟩ = true ∧
      s.fs.perform Volume.sync = .ok (.ok (), fs₁) ∧
      FileSystem.mount (Cache.new fs₁.store.device { slots := 3 }) = .ok (.ok (), some fs') ∧
      fs'.volume.free = s.fs.volume.free ∧ s.Shows ⟨10⟩ d [0, 0, 0, 0, 0, 1, 2, 3] ∧
      Session.Shows ⟨{ slots := 3 }, fs', []⟩ ⟨10⟩ d [0, 0, 0, 0, 0, 1, 2, 3] := by
  have reliable : ∀ number kind b, (Device.filled 19 512 7).fails number kind b = false :=
    fun _ _ _ => rfl
  obtain ⟨fs, s, formatted, follows, reachable⟩ :=
    exists_gapRemoved _ { slots := 1 } (by decide) reliable
  obtain ⟨fs₁, stored, persists⟩ := persists_of_reachable reliable formatted reachable
  obtain ⟨fs', mounted, same, shown⟩ := persists { slots := 3 } (by decide)
  obtain ⟨d, bytes, -, shows, shows'⟩ := shown ⟨10⟩ rfl (by decide)
  obtain ⟨file, known, expected⟩ := follows.shows (t := ⟨10⟩) rfl (by decide)
  have content : gapRemoved.files ⟨10⟩ = some ⟨[0, 0, 0, 0, 0, 1, 2, 3], true⟩ := rfl
  obtain rfl := Option.some.inj (known.symm.trans content)
  obtain rfl := (shows.unique expected).2
  exact ⟨fs, s, _, fs₁, fs', d, formatted, reachable, rfl, stored, mounted, same, shows, shows'⟩

end Session

end SectorFs
