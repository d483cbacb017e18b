/-
# SectorFs.Proofs.Session.Owing — sessions whose cache can pay nothing

After an inode is made the cache has still to store it. If the cache has one slot and no call of the
device works any more, it refuses every other sector (`refusing_of_create`). What is written beyond
the end of an open file then makes the file longer in memory only (`write_refused`), and no inode
with bytes can be made (`create_refused`).

`Outgrown` is such a run. It ends with an inode that is not stored as it is in memory.
-/
import SectorFs.Proofs.Session.Weathered
import SectorFs.Proofs.Volume.Owing

namespace SectorFs

set_option autoImplicit false

namespace Session

variable {m n length off i : Nat} {s s' : Session m} {e : Expected} {held : Set Nat} {t : Sector}
  {h : Handle} {data : List UInt8} {isDirectory : Bool} {parent : Sector} {answer : FileAnswer}

/-- An operation that was carried out is a run on the cache. -/
theorem exists_run_of_tell {α : Type} {x : VolumeAction m α} {f : α → FileAnswer}
    (told : s.tell (f <$> x) = .ok (answer, s')) :
    ∃ r v store, x.run s.fs.volume s.fs.store = .ok ((r, v), store) ∧ answer = .of (r.map f) ∧
      s' = { s with fs := ⟨v, store⟩ } := by
  rw [tell_eq, FileSystem.perform, Action.run, Action.program_map, SectorProgram.run_bind] at told
  rw [Action.run]
  cases ran : (x.program s.fs.volume).run s.fs.store with
  | error v =>
    rw [ran] at told
    cases told
  | ok after =>
    obtain ⟨⟨r, v⟩, store⟩ := after
    rw [ran] at told
    cases told
    exact ⟨r, v, store, rfl, rfl, rfl⟩

theorem config_of_step {op : FileOp} (stepped : s.step op = .ok (answer, s'))
    (stays : ∀ config, op ≠ .remount config) : s'.config = s.config := by
  obtain ⟨after, -, same⟩ := exists_run_of_step stays stepped
  cases same
  rfl

/-- A new inode has still to be stored. -/
theorem owes_of_create (ready : s.fs.store.Ready)
    (created : s.step (.create length isDirectory parent) = .ok (.made t, s')) :
    s'.fs.store.Ready ∧ ∃ b : Fin m, b.val = t.index ∧ s'.fs.store.Owes b := by
  obtain ⟨r, v, store, ran, made, rfl⟩ := exists_run_of_tell
    (x := Volume.create length isDirectory parent) (f := .made) created
  have paid : s.fs.store.OwesLast none := ⟨ready, fun last => by cases last⟩
  obtain ⟨last, owes, last_made⟩ := Cache.owesLast_run paid
    (Volume.create_lastWrite length isDirectory parent s.fs.volume none) ran
  cases r with
  | error failure => cases made
  | ok t' =>
    cases made
    exact ⟨owes.ready, owes.owes (last_made t rfl)⟩

/-- If the cache has no other slot and nothing works any more, it refuses all other sectors. -/
theorem refusing_of_create (ready : s.fs.store.Ready) (one : s'.config.slots = 1)
    (created : s.step (.create length isDirectory parent) = .ok (.made t, s')) :
    (s'.withFails fun _ _ _ => true).fs.store.Refusing {t.index} s'.image := by
  obtain ⟨ready', b, block, owes⟩ := owes_of_create ready created
  exact ⟨ready_withFails ready' _,
    ⟨fun slot => ⟨b, block, Cache.unsaved_of_owes one owes slot⟩, fun _ _ _ => rfl⟩, rfl⟩

/-- The open inode behind a handle is as expected, and stored. -/
theorem Follows.exists_node {file : ExpectedFile} (follows : s.Follows e)
    (found : e.handle i = some h) (other : h.sector ≠ Sector.freeMap)
    (known : e.files h.sector = some file) :
    ∃ node, s.fs.volume.find? h.sector = some node ∧ node.denials = e.denials h.sector ∧
      Inode.decode (s.image h.sector.index) = node.disk ∧
      node.disk.length = file.bytes.length ∧
      node.disk.blockCount = sectorsFor file.bytes.length := by
  obtain ⟨files, agrees⟩ := follows.agrees
  obtain ⟨f, rest, at_sector, agrees⟩ := agrees.split_handle found
  obtain ⟨node, loaded, -, -, denials⟩ := Volume.exists_of_status (agrees.status_handle found)
  have sound := agrees.sound.each f List.mem_cons_self
  have disk := agrees.sound.disk_of_find? (at_sector ▸ loaded)
  have bytes := agrees.bytes f List.mem_cons_self (at_sector ▸ other)
  rw [at_sector, known] at bytes
  have length : file.bytes.length = f.disk.length := by
    rw [Option.some.inj bytes, LiveFile.length_content]
  refine ⟨node, loaded, denials, ?_, ?_, ?_⟩
  · rw [← at_sector, disk]
    exact sound.inode
  · rw [disk, length]
  · rw [disk, length, sound.stored.describes.blockCount sound.stored.whole, sound.count]

/-- A write beyond the end of a file that has the blocks for it makes the file longer in memory, and
nothing else happens. -/
theorem write_refused {node : LoadedInode} (refusing : s.fs.store.Refusing held s.image)
    (handle : s.handle i = some h) (found : s.fs.volume.find? h.sector = some node)
    (free : node.denials = 0) (some_data : data ≠ [])
    (short : node.disk.length < off + data.length) (fits : off + data.length ≤ maxFileBytes)
    (blocks : sectorsFor (off + data.length) ≤ node.disk.blockCount)
    (outside : h.sector.index ∉ held) (written : s.step (.write i off data) = .ok (answer, s')) :
    answer = .failed .io ∧ s'.image = s.image ∧ ∃ node', s'.fs.volume.find? h.sector = some node' ∧
      node'.disk.length = off + data.length := by
  rw [step_handle handle rfl] at written
  obtain ⟨r, v, store, ran, rfl, rfl⟩ := exists_run_of_tell
    (x := Volume.writeBytes h off data) (f := .written) written
  obtain ⟨refusing', rfl, longer⟩ := Cache.refusing_run refusing
    (Volume.writeBytes_refusing found free some_data short fits blocks outside) ran
  exact ⟨rfl, refusing'.shows, longer⟩

/-- An inode with bytes is not made, though there is room for it. -/
theorem create_refused (refusing : s.fs.store.Refusing held s.image)
    (packed : s.fs.volume.free.Packed) (small : m ≤ 0x100000000)
    (room : s.fs.volume.free.used + (1 + groupSize) ≤ m)
    (outside : s.fs.volume.free.used + 1 ∉ held) (some_bytes : 0 < length)
    (fits : length ≤ maxFileBytes)
    (created : s.step (.create length isDirectory parent) = .ok (answer, s')) :
    answer = .failed .io := by
  obtain ⟨r, v, store, ran, rfl, rfl⟩ := exists_run_of_tell
    (x := Volume.create length isDirectory parent) (f := .made) created
  obtain ⟨-, rfl⟩ := Cache.refusing_run refusing
    (Volume.create_refusing packed small room outside some_bytes fits) ran
  rfl

/-! ## A file that is longer than it is stored -/

/-- A file of one byte is made and opened, and then an empty file is made. No call of the device
works any more when two bytes are written to the open file. -/
structure Outgrown (fs : FileSystem (Cache 1 20 512) 20) (s₁ s₂ s₃ s' : Session 20) : Prop where
  formatted : FileSystem.format (Cache.new (Device.filled 20 512 7) { slots := 1 }) =
    .ok (.ok (), some fs)
  made : step ⟨{ slots := 1 }, fs, []⟩ (.create 1 false Sector.root) = .ok (.made ⟨10⟩, s₁)
  opened : s₁.step (.open ⟨10⟩) = .ok (.done, s₂)
  other : s₂.step (.create 0 false Sector.root) = .ok (.made ⟨19⟩, s₃)
  failed : (s₃.withFails fun _ _ _ => true).step (.write 0 0 [1, 2]) = .ok (.failed .io, s')

/-- The file has two bytes in memory and one as it is stored. -/
theorem exists_outgrown : ∃ (fs : FileSystem (Cache 1 20 512) 20) (s₁ s₂ s₃ s' : Session 20)
    (e : Expected) (strayed : Sector → Prop) (node : LoadedInode), Outgrown fs s₁ s₂ s₃ s' ∧
      Weathered s' e strayed ∧ e.handle 0 = some { sector := ⟨10⟩ } ∧
      s'.fs.volume.find? ⟨10⟩ = some node ∧ node.disk.length = 2 ∧
      (Inode.decode (s'.image 10)).length = 1 := by
  obtain ⟨fs, formatted, filled⟩ := exists_format (Device.filled 20 512 7) { slots := 1 }
    (by decide) (by decide) (by decide) fun _ _ _ => rfl
  obtain ⟨s₁, made, filled₁⟩ := filled.creates 1 (by decide) false Sector.root (by decide)
  have live : (Expected.start.next (.create 1 false Sector.root) (.made ⟨10⟩)).isLive ⟨10⟩ = true :=
    rfl
  obtain ⟨s₂, opened, filled₂⟩ := filled₁.opens live
  obtain ⟨s₃, other, filled₃⟩ :=
    filled₂.creates 0 (by decide) false Sector.root (by decide)
  have first : Expected.start.Legal (.create 1 false Sector.root) := trivial
  have second : (Expected.start.next (.create 1 false Sector.root) (.made ⟨10⟩)).Legal
    (.open ⟨10⟩) := live
  have third : ((Expected.start.next (.create 1 false Sector.root) (.made ⟨10⟩)).opened ⟨10⟩).Legal
    (.create 0 false Sector.root) := trivial
  have weathered := ((((Weathered.formatted formatted).step first nofun made).step second nofun
    opened).step third nofun other).failing fun _ _ _ => true
  have handle : (((Expected.start.next (.create 1 false Sector.root) (.made ⟨10⟩)).opened
    ⟨10⟩).next (.create 0 false Sector.root) (.made ⟨19⟩)).handle 0 = some { sector := ⟨10⟩ } := rfl
  have legal : (((Expected.start.next (.create 1 false Sector.root) (.made ⟨10⟩)).opened ⟨10⟩).next
    (.create 0 false Sector.root) (.made ⟨19⟩)).Legal (.write 0 0 [1, 2]) := ⟨_, handle, by decide⟩
  obtain ⟨node, loaded, denials, stored, length, blocks⟩ :=
    filled₃.toFollows.exists_node handle (by decide) rfl
  obtain ⟨answer, s', written, -⟩ := weathered.storable.weathers_of_legal legal nofun
  have config : s₃.config = { slots := 1 } := (config_of_step other nofun).trans
    ((config_of_step opened nofun).trans (config_of_step made nofun))
  obtain ⟨rfl, same, node', loaded', length'⟩ := write_refused
    (refusing_of_create filled₂.up.ready (by rw [config]) other) (filled₃.handle_eq handle) loaded
    denials (by decide) (lt_of_eq_of_lt length (by decide)) (by decide)
    (le_of_le_of_eq (by decide) blocks.symm) (by decide) written
  refine ⟨fs, s₁, s₂, s₃, s', _, _, node', ⟨formatted, made, opened, other, written⟩,
    weathered.step legal nofun written, handle, loaded', length', ?_⟩
  rw [same]
  exact (congrArg Inode.length stored).trans length

end Session

end SectorFs
