/-
# SectorFs.Proofs.Session.Room — sessions that have room

As long as no inode is deleted, the sectors in use are the first ones, and all that decides whether
an inode can be made or a file can grow is how many they are (`FilledTo`). A format leaves so many of
them as the file of its map needs (`exists_format`); from there on it is known at which sector an
inode is made (`FilledTo.creates`), that a write is carried out (`FilledTo.writes`), and when there
is no space (`FilledTo.refuses`).
-/
import SectorFs.Proofs.Session.Start
import SectorFs.Proofs.Volume.Format

namespace SectorFs

set_option autoImplicit false

namespace Session

variable {m n : Nat} {device : Device m 512} {config : CacheSetup} {s : Session m}
  {e : Expected} {t : Sector} {i : Nat} {h : Handle}

/-- The session does what is expected, and the first `n` sectors are those in use. -/
structure FilledTo (s : Session m) (e : Expected) (n : Nat) : Prop extends s.Follows e where
  packed : s.fs.volume.free.Packed
  used : s.fs.volume.free.used = n

/-- A device that does not fail is formatted where there is room for it, whatever it held. -/
theorem exists_made (device : Device m 512) (config : CacheSetup) (ten : 10 ≤ m)
    (fits : m ≤ 8 * maxFileBytes) (slots : 0 < config.slots)
    (reliable : ∀ number kind b, device.fails number kind b = false) :
    ∃ fs : FileSystem (Cache config.slots m 512) m,
      FileSystem.format (Cache.new device config) = .ok (.ok (), some fs) ∧
        FilledTo ⟨config, fs, []⟩ .start (systemSectors m) ∧
        ∃ map root, Volume.Made fs.volume fs.store.image map root := by
  obtain ⟨r, fs, formatted, -, -, rfl, packed, used, made⟩ := FileSystem.start_spec .noSpace slots
    (by omega) (fun may => may reliable) (Volume.format_works ten (bytesFor_le_iff.2 fits))
  exact ⟨fs, formatted, ⟨follows_start reliable formatted, packed, used⟩, made⟩

theorem exists_format (device : Device m 512) (config : CacheSetup) (ten : 10 ≤ m)
    (fits : m ≤ 8 * maxFileBytes) (slots : 0 < config.slots)
    (reliable : ∀ number kind b, device.fails number kind b = false) :
    ∃ fs : FileSystem (Cache config.slots m 512) m,
      FileSystem.format (Cache.new device config) = .ok (.ok (), some fs) ∧
        FilledTo ⟨config, fs, []⟩ .start (systemSectors m) := by
  obtain ⟨fs, formatted, filled, -⟩ := exists_made device config ten fits slots reliable
  exact ⟨fs, formatted, filled⟩

namespace FilledTo

variable (filled : s.FilledTo e n)
include filled

theorem countFree : s.fs.volume.free.countFree = m - n := by
  rw [FreeMap.countFree, filled.used]

theorem inUse (inside : i < m) : s.fs.volume.free.inUse i = true ↔ i < n := by
  rw [filled.packed.inUse inside, filled.used]

/-- An inode is made at the first sector that is not in use. -/
theorem creates (length : Nat) (fits : length ≤ maxFileBytes) (isDirectory : Bool) (parent : Sector)
    (room : n + sectorsTaken (sectorsFor length) ≤ m) :
    ∃ s', s.step (.create length isDirectory parent) = .ok (.made (.ofNat n), s') ∧
      s'.FilledTo (e.next (.create length isDirectory parent) (.made (.ofNat n)))
        (n + sectorsTaken (sectorsFor length)) := by
  obtain ⟨files, agrees⟩ := filled.agrees
  obtain ⟨answer, s', created, made, packed, used⟩ := tell_spec
    (P := fun answer s' => answer = .made (.ofNat n) ∧ s'.fs.volume.free.Packed ∧
      s'.fs.volume.free.used = n + sectorsTaken (sectorsFor length))
    filled.up.ready filled.up.never (x := .made <$> Volume.create length isDirectory parent) (by
      rw [Action.ensures_map]
      refine (Volume.create_works filled.packed agrees.sound.marks agrees.sound.zero
        agrees.sound.small fits (filled.used.symm ▸ room)).mono ?_
      rintro r v image ⟨⟨t, rfl, first⟩, packed, used⟩ fs - rfl -
      rw [filled.used] at first used
      refine ⟨?_, packed, used⟩
      rw [← first, Sector.ofNat_index]
      rfl)
  subst made
  obtain ⟨answer, s'', created', -, follows⟩ := filled.create_goes length isDirectory parent
  cases created.symm.trans created'
  exact ⟨s', created, follows, packed, used⟩

/-- Nothing but the inode is stored if it has no bytes. -/
theorem creates_empty (isDirectory : Bool) (parent : Sector) (room : n < m) :
    ∃ s', s.step (.create 0 isDirectory parent) = .ok (.made (.ofNat n), s') ∧
      s'.FilledTo (e.next (.create 0 isDirectory parent) (.made (.ofNat n))) (n + 1) ∧
      s'.image = Function.update s.image n (Inode.empty isDirectory parent).encode := by
  obtain ⟨s', created, filled'⟩ :=
    filled.creates 0 (Nat.zero_le _) isDirectory parent room
  obtain ⟨files, agrees⟩ := filled.agrees
  obtain ⟨answer, s'', created', same⟩ := tell_spec
    (P := fun _ s' => s'.image = Function.update s.image n (Inode.empty isDirectory parent).encode)
    filled.up.ready filled.up.never (x := .made <$> Volume.create 0 isDirectory parent) (by
      rw [Action.ensures_map]
      refine (Volume.create_empty_works filled.packed agrees.sound.marks agrees.sound.small
        (filled.used.symm ▸ room)).mono ?_
      rintro r v image stored fs - - rfl
      rwa [filled.used] at stored)
  cases created.symm.trans created'
  exact ⟨s', created, filled', same⟩

/-- There is no space for an inode that needs a group more than there is room for. -/
theorem refuses {k : Nat} (length : Nat) (fits : length ≤ maxFileBytes) (isDirectory : Bool) (parent : Sector)
    (more : 8 * k < sectorsFor length) (room : n + sectorsTaken (8 * k) ≤ m)
    (full : m < n + sectorsTaken (8 * k) + groupSize) :
    ∃ s', s.step (.create length isDirectory parent) = .ok (.failed .noSpace, s') := by
  obtain ⟨files, agrees⟩ := filled.agrees
  obtain ⟨answer, s', created, rfl⟩ := tell_spec (P := fun answer _ => answer = .failed .noSpace)
    filled.up.ready filled.up.never (x := .made <$> Volume.create length isDirectory parent) (by
      rw [Action.ensures_map]
      refine (Volume.create_refused filled.packed agrees.sound.marks agrees.sound.zero
        agrees.sound.small fits more (filled.used.symm ▸ room) (filled.used.symm ▸ full)).mono ?_
      rintro r v image rfl fs - - -
      rfl)
  exact ⟨s', created⟩

/-- A live inode opens, and no sector is taken for that. -/
theorem opens (live : e.isLive t = true) :
    ∃ s', s.step (.open t) = .ok (.done, s') ∧ s'.FilledTo (e.opened t) n := by
  obtain ⟨files, agrees⟩ := filled.agrees
  obtain ⟨f, rest, rfl, agrees⟩ := agrees.split live
  have mem : f ∈ f :: rest := List.mem_cons_self
  obtain ⟨answer, s', opened, free⟩ := keep_spec (s := s) (fun h => s.handles ++ [some h])
    (P := fun _ s' => s'.fs.volume.free = s.fs.volume.free) filled.up.ready filled.up.never
    (Volume.openAt_spec (agrees.sound.inside mem) (fun _ => (agrees.sound.each f mem).opens)
      (fun _ => agrees.sound.disk_of_find?)
      (fun v' free _ _ fs _ volume _ => (congrArg Volume.free volume).trans free) False.elim)
  obtain ⟨answer', s'', opened', rfl, follows⟩ := filled.open_goes live
  cases opened.symm.trans opened'
  exact ⟨s', opened, follows, free ▸ filled.packed, free ▸ filled.used⟩

/-- A write is carried out where there is room for the file to reach its end. -/
theorem writes (off : Nat) (data : List UInt8) {file : ExpectedFile} (found : e.handle i = some h)
    (other : h.sector ≠ Sector.freeMap) (known : e.files h.sector = some file)
    (works : ¬ e.Idles h.sector data) (fits : off + data.length ≤ maxFileBytes)
    (room : n + sectorsTaken (max (sectorsFor file.bytes.length) (sectorsFor (off + data.length))) ≤
      m + sectorsTaken (sectorsFor file.bytes.length)) :
    ∃ s', s.step (.write i off data) = .ok (.written data.length, s') ∧
      s'.Follows (e.next (.write i off data) (.written data.length)) := by
  obtain ⟨files, agrees⟩ := filled.agrees
  obtain ⟨f, rest, at_sector, agrees⟩ := agrees.split_handle found
  obtain ⟨node, loaded, -, -, denials⟩ := Volume.exists_of_status (agrees.status_handle found)
  rw [← at_sector] at loaded
  have blocks : f.layout.count = sectorsFor file.bytes.length := by
    have bytes := agrees.bytes f List.mem_cons_self (at_sector ▸ other)
    rw [at_sector, known] at bytes
    rw [(agrees.sound.each f List.mem_cons_self).count, Option.some.inj bytes,
      LiveFile.length_content]
  rw [← blocks] at room
  obtain ⟨answer, s', written, rfl⟩ := tell_spec (P := fun answer _ => answer = .written data.length)
    filled.up.ready filled.up.never (x := .written <$> Volume.writeBytes h off data) (by
      rw [Action.ensures_map]
      refine (Volume.writeBytes_works agrees.sound at_sector.symm loaded (denials.trans ?_)
        (not_or.1 works).2 filled.packed fits (filled.used.symm ▸ room)).mono ?_
      · exact Nat.eq_zero_of_not_pos (not_or.1 works).1
      · rintro r v image ⟨rfl, -⟩ fs - - -
        rfl)
  have legal : e.Legal (.write i off data) := ⟨h, found, other⟩
  obtain ⟨answer', s'', written', -, follows⟩ := filled.write_goes legal
  rw [step_handle (filled.handle_eq found) rfl] at written' ⊢
  cases written.symm.trans written'
  exact ⟨s', written, follows⟩

end FilledTo

end Session

end SectorFs
