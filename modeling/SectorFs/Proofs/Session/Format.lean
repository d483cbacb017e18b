/-
# SectorFs.Proofs.Session.Format — which devices can be formatted

Whether a device that does not fail can be formatted depends on its size alone, not on what it held
nor on the cache (`format_decided`). What is made is the same for all devices of one size, and it
can be taken up at once, on any cache (`Formatted`): a format ends with a flush, so the device has
all that the file system shows.
-/
import SectorFs.Proofs.Session.Persistence
import SectorFs.Proofs.Volume.Format

namespace SectorFs

set_option autoImplicit false

variable {m : Nat} {device : Device m 512} {config : CacheSetup}

namespace FileSystem

/-- A file system that was just made: how many sectors are free, how long the file of its map is,
and what is found when it is taken up from the device. -/
structure Formatted (fs : FileSystem (Cache config.slots m 512) m) : Prop where
  countFree : fs.volume.free.countFree =
    m - 2 - 8 * groupsFor (mapBlocks m) - indexFor (mapBlocks m)
  mapLength : ∃ s node, Session.step ⟨config, fs, []⟩ (.open Sector.freeMap) = .ok (.done, s) ∧
    s.fs.volume.find? Sector.freeMap = some node ∧ node.disk.length = bytesFor m
  mounts : ∀ config' : CacheSetup, 0 < config'.slots →
    ∃ fs' : FileSystem (Cache config'.slots m 512) m,
      mount (Cache.new fs.store.device config') = .ok (.ok (), some fs') ∧
      fs'.volume.free = fs.volume.free ∧
      Session.Shows ⟨config', fs', []⟩ Sector.root (.empty true Sector.root) []

/-- The session of a file system that was made has its two files, closed. -/
theorem follows_made {fs : FileSystem (Cache config.slots m 512) m} {map root : LiveFile}
    (up : fs.Up) (made : Volume.Made fs.volume fs.store.image map root) :
    Session.Follows ⟨config, fs, []⟩ Expected.start :=
  ⟨up, rfl, [map, root], Expected.agrees_start made.toFresh⟩

/-- The root directory of such a file system is empty, and its own parent. -/
theorem shows_root {fs : FileSystem (Cache config.slots m 512) m} {map root : LiveFile}
    (up : fs.Up) (made : Volume.Made fs.volume fs.store.image map root) :
    Session.Shows ⟨config, fs, []⟩ Sector.root (.empty true Sector.root) [] := by
  obtain ⟨file, known, shows⟩ := (follows_made up made).shows (t := Sector.root) rfl (by decide)
  obtain rfl : file = ⟨[], false⟩ := Option.some.inj (known.symm.trans rfl)
  have directory : Inode.decode (Session.image ⟨config, fs, []⟩ Sector.root.index) =
      .empty true Sector.root := made.directory
  rwa [directory] at shows

/-- The map's file opens with the length that it was made with. -/
theorem opens_map {fs : FileSystem (Cache config.slots m 512) m} {map root : LiveFile}
    (up : fs.Up) (made : Volume.Made fs.volume fs.store.image map root) :
    ∃ s node, Session.step ⟨config, fs, []⟩ (.open Sector.freeMap) = .ok (.done, s) ∧
      s.fs.volume.find? Sector.freeMap = some node ∧ node.disk.length = bytesFor m := by
  obtain ⟨s, node, opened, -, found, disk⟩ :=
    (follows_made up made).exists_opened (t := Sector.freeMap) rfl
  have inode : Inode.decode (Session.image ⟨config, fs, []⟩ Sector.freeMap.index) = map.disk := by
    rw [← made.at_map]
    exact (made.sound.each map List.mem_cons_self).inode
  exact ⟨s, node, opened, found, by rw [disk, inode, made.length]⟩

/-- A format that ended well leaves a device that can be taken up. -/
theorem formatted_of_made {fs : FileSystem (Cache config.slots m 512) m} {map root : LiveFile}
    (two : 2 ≤ m) (up : fs.Up) (made : Volume.Made fs.volume fs.store.image map root)
    (stored : fs.store.device.image = fs.store.image) : Formatted fs where
  countFree := by
    rw [made.toFresh.countFree, systemSectors]
    omega
  mapLength := opens_map up made
  mounts config' slots := by
    have mounts := made.mount_spec
    rw [← stored] at mounts
    obtain ⟨r, fs', mounted, ready, fails, rfl, free, shown, made'⟩ :=
      start_spec .notFormatted slots two (fun may => may up.reliable) mounts
    have up' : fs'.Up := ⟨ready, by
      rw [fails]
      exact up.reliable⟩
    exact ⟨fs', mounted, free, shows_root up' (shown ▸ made')⟩

/-- After a format the device has what the file system shows. -/
theorem image_of_format {fs : FileSystem (Cache config.slots m 512) m} (ready : fs.store.Ready)
    (formatted : format (Cache.new device config) = .ok (.ok (), some fs)) :
    fs.store.device.image = fs.store.image := by
  have flushes : (Volume.format : VolumeAction m Unit) =
      (Volume.makeFiles >>= fun _ => Volume.storeMap) >>= fun _ => Action.flush := by
    simp only [Volume.format_eq, Volume.sync_eq, bind_assoc]
  obtain ⟨first, ran⟩ := exists_run_of_start formatted
  have performed : perform ⟨.empty m, first⟩ Volume.format = .ok (.ok (), fs) := by
    rw [perform, ran]
    rfl
  exact image_of_flush ready (flushes ▸ performed) rfl

/-- **Which devices can be formatted.** On a device that does not fail, with a cache of a slot or
more, a format succeeds from ten sectors on, as long as a file can have a bit for each of them;
there is no space with fewer, and with more the file of the map would be too large. -/
theorem format_decided (slots : 0 < config.slots)
    (reliable : ∀ number kind b, device.fails number kind b = false) :
    (m < 10 → ∃ fs, format (m := m) (Cache.new device config) = .ok (.error .noSpace, fs)) ∧
    (8 * maxFileBytes < m →
      ∃ fs, format (m := m) (Cache.new device config) = .ok (.error .fileTooLarge, fs)) ∧
    (10 ≤ m → m ≤ 8 * maxFileBytes → ∃ fs : FileSystem (Cache config.slots m 512) m,
      format (Cache.new device config) = .ok (.ok (), some fs) ∧ Formatted fs) := by
  have limit : maxFileBytes = 8460288 := rfl
  refine ⟨fun few => ?_, fun many => ?_, fun ten fits => ?_⟩
  · by_cases two : 2 ≤ m
    · obtain ⟨r, fs, started, -, -, rfl⟩ := start_spec .noSpace slots two
        (fun may => may reliable) (Volume.format_refused two few)
      exact ⟨some fs, started⟩
    · -- the two well-known sectors are not there
      have missing : m ≤ Sector.root.index := show m ≤ 1 by omega
      exact ⟨none, if_pos missing⟩
  · obtain ⟨r, fs, started, -, -, rfl⟩ := start_spec .noSpace slots (by omega)
      (fun may => may reliable) (Volume.format_tooLarge many)
    exact ⟨some fs, started⟩
  · have two : 2 ≤ m := by omega
    obtain ⟨r, fs, started, ready, fails, rfl, -, -, map, root, made⟩ := start_spec .noSpace slots two
      (fun may => may reliable) (Volume.format_works ten (bytesFor_le_iff.2 fits))
    have up : fs.Up := ⟨ready, fails ▸ reliable⟩
    exact ⟨fs, started, formatted_of_made two up made (image_of_format ready started)⟩

/-- The smallest device that can be formatted is full then, and one sector less is not enough. -/
theorem format_decided_ten :
    (∃ fs, format (m := 9) (Cache.new (Device.filled 9 512 7) { slots := 1 }) =
      .ok (.error .noSpace, fs)) ∧
    ∃ fs : FileSystem (Cache 1 10 512) 10,
      format (Cache.new (Device.filled 10 512 7) { slots := 1 }) = .ok (.ok (), some fs) ∧
      fs.volume.free.countFree = 0 ∧ ∃ fs' : FileSystem (Cache 3 10 512) 10,
        mount (Cache.new fs.store.device { slots := 3 }) = .ok (.ok (), some fs') ∧
        Session.Shows ⟨{ slots := 3 }, fs', []⟩ Sector.root (.empty true Sector.root) [] := by
  have reliable {m : Nat} (number : Nat) (kind) (b) :
      (Device.filled m 512 7).fails number kind b = false := rfl
  obtain ⟨refused, -⟩ :=
    @format_decided 9 (Device.filled 9 512 7) { slots := 1 } (by decide) reliable
  obtain ⟨-, -, works⟩ :=
    @format_decided 10 (Device.filled 10 512 7) { slots := 1 } (by decide) reliable
  obtain ⟨fs, formatted, made⟩ := works (by decide) (by decide)
  obtain ⟨fs', mounted, -, shows⟩ := made.mounts { slots := 3 } (by decide)
  exact ⟨refused (by decide), fs, formatted, made.countFree, fs', mounted, shows⟩

end FileSystem

end SectorFs
