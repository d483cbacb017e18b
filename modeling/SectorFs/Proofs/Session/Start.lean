/-
# SectorFs.Proofs.Session.Start — new file systems

A file system that was made has its two files, both closed (`fresh_of_format`), and does what is
expected of it from there on (`follows_start`).
-/
import SectorFs.Proofs.Session.Step

namespace SectorFs

set_option autoImplicit false

variable {m : Nat} {image : Image} {v : Volume m} {device : Device m 512} {config : CacheSetup}
  {map root : LiveFile}

/-- A new file system has its two files, and both are closed. -/
theorem Expected.agrees_start (fresh : Volume.Fresh v image map root) :
    Expected.start.Agrees v image [map, root] := by
  have two (s : Sector) :
      Expected.start.isLive s = true ↔ s = Sector.freeMap ∨ s = Sector.root := by
    rw [isLive, start]
    dsimp only
    split <;> simp_all
  have stays (s : Sector) : Expected.start.isRemoved s = false := by
    rw [isRemoved, start]
    dsimp only
    split <;> rfl
  have apart : Sector.root ≠ Sector.freeMap := by decide
  exact {
    sound := fresh.sound
    live := fun {s} => by
      rw [two]
      simp [fresh.at_map, fresh.at_root, eq_comm]
    bytes := by
      intro f mem other
      rcases List.mem_cons.1 mem with rfl | mem
      · exact absurd fresh.at_map other
      · obtain rfl := List.mem_singleton.1 mem
        rw [fresh.at_root, fresh.empty]
        rfl
    length := by
      intro f mem at_map
      rcases List.mem_cons.1 mem with rfl | mem
      · exact fresh.length
      · obtain rfl := List.mem_singleton.1 mem
        exact absurd (fresh.at_root.symm.trans at_map) apart
    status := fresh.closed
    held := fun {s} gone => by
      rw [stays] at gone
      cases gone
    map_live := (two _).2 (.inl rfl)
    map_stays := stays _
    unguarded := rfl
    root_live := (two _).2 (.inr rfl)
    root_stays := stays _ }

/-- A file system starts only on a cache with a slot and a device with room for its two files. -/
theorem FileSystem.started {refusal : Failure} {x : VolumeAction m Unit} {r : Except Failure Unit}
    {fs : FileSystem (Cache config.slots m 512) m}
    (started : start refusal x (Cache.new device config) = .ok (r, some fs)) :
    0 < config.slots ∧ 2 ≤ m := by
  rw [start] at started
  by_cases small : m ≤ Sector.root.index
  · rw [if_pos small] at started
    cases started
  · rw [if_neg small] at started
    refine ⟨?_, Nat.lt_of_not_le small⟩
    by_contra none
    rw [Cache.new, dif_neg none] at started
    cases started

/-- A file system that started well is as its start leaves it. -/
theorem FileSystem.ok_of_start {refusal : Failure} {x : VolumeAction m Unit}
    {fs : FileSystem (Cache config.slots m 512) m} {Q : Volume m → Image → Prop}
    (started : start refusal x (Cache.new device config) = .ok (.ok (), some fs))
    (ensures : x.Ensures m True (.empty m) device.image fun r v image => r = .ok () → Q v image) :
    fs.store.Ready ∧ fs.store.device.fails = device.fails ∧ Q fs.volume fs.store.image := by
  obtain ⟨slots, two⟩ := FileSystem.started started
  obtain ⟨r, fs', started', ready, fails, holds⟩ :=
    start_spec refusal slots two (fun _ => trivial) ensures
  rw [started] at started'
  cases started'
  exact ⟨ready, fails, holds rfl⟩

/-- What is formatted well is a new file system, even if the device could fail. -/
theorem FileSystem.fresh_of_format {fs : FileSystem (Cache config.slots m 512) m}
    (formatted : FileSystem.format (Cache.new device config) = .ok (.ok (), some fs)) :
    fs.store.Ready ∧ fs.store.device.fails = device.fails ∧
      ∃ map root, Volume.Fresh fs.volume fs.store.image map root :=
  ok_of_start (Q := fun v image => ∃ map root, Volume.Fresh v image map root) formatted
    (Volume.format_spec (FileSystem.started formatted).2
      (fun _ _ map root fresh _ => ⟨map, root, fresh⟩) fun _ _ _ failed => by cases failed)

/-- On a device that does not fail, a session that begins with a format goes as expected. -/
theorem Session.follows_start {fs : FileSystem (Cache config.slots m 512) m}
    (reliable : ∀ number kind b, device.fails number kind b = false)
    (formatted : FileSystem.format (Cache.new device config) = .ok (.ok (), some fs)) :
    Session.Follows ⟨config, fs, []⟩ Expected.start := by
  obtain ⟨ready, fails, map, root, fresh⟩ := FileSystem.fresh_of_format formatted
  exact ⟨⟨ready, fails ▸ reliable⟩, rfl, [map, root], Expected.agrees_start fresh⟩

end SectorFs
