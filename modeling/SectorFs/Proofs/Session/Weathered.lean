/-
# SectorFs.Proofs.Session.Weathered — sessions that live through failures

`Session.Weathered`: the sessions that legal operations lead to on devices that may fail at any
call, from a file system that was made, or from one that was stored and is taken up again. With
each comes what is live and open in it, and which inodes strayed. In all of them the free map
can be stored (`Weathered.storable`).
-/
import SectorFs.Proofs.Session.Faults

namespace SectorFs

set_option autoImplicit false

variable {m : Nat} {e : Expected} {strayed : Sector → Prop} {device : Device m 512}
  {config : CacheSetup} {fs' : FileSystem (Cache config.slots m 512) m}

/-- Everything in memory is forgotten. The free map's file is as it is stored. -/
theorem Expected.SettledExcept.forgotten {v : Volume m} {image : Image} {f : LiveFile}
    {rest : List LiveFile} {lost : List Nat}
    (inodes : e.SettledExcept strayed v image (f :: rest) lost)
    (at_sector : f.sector = Sector.freeMap) (config : CacheSetup) :
    ∃ rest' lost', (e.next (.remount config) .done).SettledExcept (fun _ => False) ⟨v.free, []⟩ image
        (f :: rest') lost' ∧ Spares False (f :: rest) lost (f :: rest') image image := by
  obtain ⟨stored, more, shrinks, safe⟩ := inodes.safe.shut_all
  have kept (g : LiveFile) (mem : g ∈ f :: rest) (at_map : g.sector = Sector.freeMap) :
      stored g = g := (shrinks g mem).2.2 (inodes.settled g mem (at_map ▸ inodes.map))
  have tallies : (e.next (.remount config) .done).Tallies (⟨v.free, []⟩ : Volume m)
      ((f :: rest).map stored) :=
    (inodes.toTallies.remounted config rfl).map (fun g mem => (shrinks g mem).1)
      fun g mem at_map => by rw [kept g mem at_map]
  have spares : Spares False (f :: rest) lost ((f :: rest).map stored) image image :=
    .of_subset (fun _ _ => rfl) (List.forall_mem_map.2 fun g mem =>
      ⟨g, mem, (shrinks g mem).1.symm, (shrinks g mem).2.1⟩)
  rw [List.map_cons, kept f List.mem_cons_self at_sector] at tallies safe spares
  exact ⟨rest.map stored, more ++ lost,
    ⟨tallies, safe, fun g mem _ => safe.closed g mem rfl, id⟩, spares⟩

namespace Session

/-- The session on a device that fails at other calls from now on. -/
def withFails (s : Session m) (fails : Nat → IoKind → Fin m → Bool) : Session m :=
  { s with fs.store.device.fails := fails }

/-- The sessions that legal operations lead to, what is live and open in them, and which inodes
strayed. Which calls of the device fail can change at any time. A file system that was stored can be
taken up again from what it left on its device. -/
inductive Weathered : Session m → Expected → (Sector → Prop) → Prop
  | formatted {device : Device m 512} {config : CacheSetup}
      {fs : FileSystem (Cache config.slots m 512) m} :
      FileSystem.format (Cache.new device config) = .ok (.ok (), some fs) →
      Weathered ⟨config, fs, []⟩ .start fun _ => False
  | step {s s' : Session m} {e : Expected} {strayed : Sector → Prop} {op : FileOp}
      {answer : FileAnswer} :
      Weathered s e strayed → e.Legal op → (∀ config, op ≠ .remount config) →
      s.step op = .ok (answer, s') →
      Weathered s' (e.after s'.image op answer) (s.Strays s' op answer strayed)
  | failing {s : Session m} {e : Expected} {strayed : Sector → Prop}
      (fails : Nat → IoKind → Fin m → Bool) :
      Weathered s e strayed → Weathered (s.withFails fails) e strayed
  | mounted {s : Session m} {e : Expected} {strayed : Sector → Prop}
      {fs : FileSystem (Cache s.config.slots m 512) m} {device : Device m 512}
      {config : CacheSetup} {fs' : FileSystem (Cache config.slots m 512) m} :
      Weathered s e strayed → s.fs.perform Volume.sync = .ok (.ok (), fs) →
      device.blocks = fs.store.device.blocks →
      FileSystem.mount (Cache.new device config) = .ok (.ok (), some fs') →
      Weathered ⟨config, fs', []⟩ (e.next (.remount config) .done) fun _ => False

theorem storable_of_format
    (formatted : FileSystem.format (Cache.new device config) = .ok (.ok (), some fs')) :
    Storable ⟨config, fs', []⟩ .start fun _ => False := by
  obtain ⟨ready, -, map, root, fresh⟩ := FileSystem.fresh_of_format formatted
  have agrees := Expected.agrees_start fresh
  exact ⟨⟨ready, rfl, [map, root], [], agrees.toTallies, agrees.sound.safe,
    fun f mem _ => (agrees.sound.each f mem).inode, id⟩, rfl⟩

variable {s s' : Session m}

theorem ready_withFails (ready : s.fs.store.Ready) (fails : Nat → IoKind → Fin m → Bool) :
    (s.withFails fails).fs.store.Ready where
  resting := ⟨⟨ready.resting.coherent.stands, ready.resting.coherent.distinct⟩,
    ready.resting.idle⟩
  inside := ready.inside

theorem SettledExcept.withFails (settled : s.SettledExcept e strayed)
    (fails : Nat → IoKind → Fin m → Bool) :
    (s.withFails fails).SettledExcept e strayed where
  ready := ready_withFails settled.ready fails
  handles := settled.handles
  inodes := settled.inodes

section Mounted

variable {fs : FileSystem (Cache s.config.slots m 512) m} (settled : s.SettledExcept e strayed)
  (free : e.Unguarded) (stored : s.fs.perform Volume.sync = .ok (.ok (), fs))
  (same : device.blocks = fs.store.device.blocks)
  (up : FileSystem.mount (Cache.new device config) = .ok (.ok (), some fs'))
include settled free stored same up

/-- A file system that was stored is taken up again. Files that were ahead of what is stored are as
they are stored. -/
theorem SettledExcept.mounted_after {files : List LiveFile} {lost : List Nat}
    (inodes : e.SettledExcept strayed s.fs.volume s.image files lost) :
    s.SettledAfter files lost (.remount config) ⟨config, fs', []⟩
      (e.next (.remount config) .done) fun _ => False := by
  obtain ⟨f, rest, at_sector, perm⟩ := inodes.exists_perm inodes.map_live
  obtain ⟨r, fs₁, stored₁, leads, inodes₁, free₁, content, spares⟩ :=
    FileSystem.perform_spec settled.ready (fun _ => trivial)
      (sync_ensures (inodes.perm perm) free at_sector)
  rw [stored] at stored₁
  cases stored₁
  obtain ⟨rest', lost', inodes', spares'⟩ := inodes₁.forgotten at_sector config
  have safe := inodes'.safe
  obtain ⟨root, mem, at_root⟩ := inodes'.live.1 inodes'.root_live
  have opens (g : LiveFile) (mem : g ∈ f :: rest') : g.Opens m fs.store.image :=
    (safe.each g mem).opens (safe.closed g mem rfl)
  obtain ⟨ready, -, free, closed, shows⟩ := FileSystem.ok_of_start (Q := fun v image =>
    v.free = fs.volume.free ∧ v.find? = (fun _ => none) ∧ image = fs.store.image) up (by
      rw [FileSystem.image_of_flush leads.ready (Volume.sync_eq ▸ stored) same]
      exact Volume.mount_spec (opens f List.mem_cons_self) (opens root mem)
        (safe.inside List.mem_cons_self) (safe.inside mem) at_sector at_root
        (inodes'.length f List.mem_cons_self at_sector) safe.marks (free₁ ▸ content rfl)
        (fun v' free closed _ => ⟨free, closed, rfl⟩) fun _ _ failed => by cases failed)
  obtain ⟨disks, status⟩ := Volume.none_open closed
  have settled' := inodes'.keep { inodes'.toTallies with status := status.trans inodes'.status }
    (safe.alike ⟨free, disks⟩)
  have spares' := (spares.trans spares').perm perm
  rw [← shows] at settled' spares'
  exact ⟨ready, rfl, f :: rest', lost', settled', spares'.of_idle⟩

theorem SettledExcept.mounted :
    Storable ⟨config, fs', []⟩ (e.next (.remount config) .done) fun _ => False := by
  obtain ⟨files, lost, inodes⟩ := settled.inodes
  exact ⟨(settled.mounted_after free stored same up inodes).settled, rfl⟩

end Mounted

/-- All sessions are settled except for what strayed, and their free maps can be stored. -/
theorem Weathered.storable (weathered : Weathered s e strayed) : s.Storable e strayed := by
  induction weathered with
  | formatted formatted => exact storable_of_format formatted
  | step _ legal stays stepped ih =>
    obtain ⟨answer, s', stepped', storable⟩ := ih.weathers_of_legal legal stays
    rw [stepped] at stepped'
    cases stepped'
    exact storable
  | failing fails _ ih => exact ⟨ih.toSettledExcept.withFails fails, ih.unguarded⟩
  | mounted _ stored same mounted ih => exact ih.mounted ih.unguarded stored same mounted

end Session

end SectorFs
