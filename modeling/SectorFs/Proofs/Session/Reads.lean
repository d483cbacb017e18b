/-
# SectorFs.Proofs.Session.Reads — reads on a device that may fail at any call

A read copies its bytes out chunk by chunk (`Volume.copyBytes`) and then asks for the block behind
them (`Volume.askAhead`); that is all it does (`Volume.readBytes_eq`). Both leave the volume and the
sectors alone, and what asking ahead comes to is ignored. So a read ends as the copying ends, with
the bytes of the file or with an I/O error (`FileSystem.exists_read`).

The copying does not depend on device calls that come after it (`FileSystem.perform_causal`). So it
makes no difference to the answer of a read which of the calls fail that are made for what is asked
ahead, be it to look up its sector, to load it or to store a block that is in its way
(`Session.reads_of_handled`).
-/
import SectorFs.Proofs.Cache.Causality
import SectorFs.Proofs.Session.Handles
import SectorFs.Proofs.Session.Transparent

namespace SectorFs

set_option autoImplicit false

variable {m k : Nat} {f : LiveFile} {off len : Nat}

namespace FileSystem

variable {α : Type} {fs fs' : FileSystem (Cache k m 512) m} {node : LoadedInode} {h : Handle}

theorem perform_node (found : fs.volume.find? h.sector = some node) :
    fs.perform (Volume.node h) = .ok (.ok node, fs) := by
  rw [perform, Action.run, Volume.program_node found]
  rfl

/-- What an operation does does not depend on which device calls fail later. -/
theorem perform_causal {x : VolumeAction m α} {r : Except Failure α}
    (performed : fs.perform x = .ok (r, fs')) :
    Cache.Causal (fun c c' => perform ⟨fs.volume, c⟩ x = .ok (r, ⟨fs'.volume, c'⟩))
      fs.store fs'.store := by
  obtain ⟨calls, same⟩ := SectorProgram.run_causal (run_of_perform performed)
  refine ⟨calls, fun agree => ?_⟩
  have again : x.run fs.volume _ = _ := same agree
  rw [perform, again]
  rfl

/-- A read ends as the copying of its bytes ends. What is asked ahead changes neither what is in
memory nor what the sectors hold. -/
theorem exists_read (fs fs' : FileSystem (Cache k m 512) m) (mapped : f.Mapped m fs.store.image)
    (found : fs.volume.find? h.sector = some node) (disk : node.disk = f.disk)
    {r : Except Failure (List UInt8)} (ready : fs'.store.Ready) (volume : fs'.volume = fs.volume)
    (shows : fs'.store.image = fs.store.image)
    (copied : fs.perform (Volume.copyBytes node.disk off len) = .ok (r, fs')) :
    ∃ after, fs.perform (Volume.readBytes h off len) = .ok (r, after) ∧
      after.volume = fs.volume ∧ after.store.image = fs.store.image ∧
      fs'.store.device.Extends after.store.device := by
  rw [Volume.readBytes_eq, perform_bind, perform_node found]
  change ∃ after, fs.perform (Volume.copyBytes node.disk off len >>= fun bytes =>
    Volume.askAhead node.disk off len >>= fun _ => pure bytes) = _ ∧ _
  rw [perform_bind, copied]
  cases r with
  | error e => exact ⟨fs', rfl, volume, shows, .refl _⟩
  | ok bytes =>
    obtain ⟨_, after, asked, -, rfl, volume', shows'⟩ := perform_spec ready (fun _ => trivial)
      (x := Volume.askAhead node.disk off len)
      (Q := fun r v image => r = .ok () ∧ v = fs'.volume ∧ image = fs'.store.image) (by
        rw [disk]
        exact Volume.askAhead_spec (shows ▸ mapped) ⟨rfl, rfl, rfl⟩)
    refine ⟨after, ?_, volume'.trans volume, shows'.trans shows, (perform_causal asked).calls⟩
    change fs'.perform (_ >>= _) = _
    rw [perform_bind, asked]
    rfl

/-- What a read of an inode that is `d` in memory comes to: with the volume and every sector as they
were, it gives the bytes that the inode's blocks hold there, none of them beyond its end, or fails
with an I/O error. -/
structure Reads (fs fs' : FileSystem (Cache k m 512) m) (d : Inode) (off len : Nat)
    (r : Except Failure (List UInt8)) : Prop where
  volume : fs'.volume = fs.volume
  image : fs'.store.image = fs.store.image
  length {bytes : List UInt8} : r = .ok bytes → bytes.length = min len (d.length - off)
  bytes {bytes : List UInt8} : r = .ok bytes →
    bytes = ((bytesIn fs.store.image d).drop off).take len
  failed {e : Failure} : r = .error e → e = .io

theorem exists_copied (fs : FileSystem (Cache k m 512) m) (mapped : f.Mapped m fs.store.image)
    (ready : fs.store.Ready) (off len : Nat) :
    ∃ r fs', fs.perform (Volume.copyBytes f.disk off len) = .ok (r, fs') ∧ fs'.store.Ready ∧
      fs.Reads fs' f.disk off len r ∧ ∀ e, r = .error e → fs.store.MayFail := by
  obtain ⟨r, fs', copied, leads, given, volume, shows⟩ := perform_spec ready id
    (x := Volume.copyBytes f.disk off len)
    (Q := fun r v image => (r = .ok (((f.content fs.store.image).drop off).take len) ∨
      fs.store.MayFail ∧ r = .error .io) ∧ v = fs.volume ∧ image = fs.store.image)
    (Volume.copyBytes_spec mapped ⟨.inl rfl, rfl, rfl⟩ fun may => ⟨.inr ⟨may, rfl⟩, rfl, rfl⟩)
  refine ⟨r, fs', copied, leads.ready, ?_⟩
  rcases given with rfl | ⟨may, rfl⟩
  · refine ⟨⟨volume, shows, fun same => ?_, fun same => ?_, nofun⟩, nofun⟩
    · rw [← Except.ok.inj same, List.length_take, List.length_drop, LiveFile.length_content]
    · rw [mapped.bytesIn_eq, ← Except.ok.inj same]
  · exact ⟨⟨volume, shows, nofun, nofun, fun same => (Except.error.inj same).symm⟩,
      fun _ _ => may⟩

end FileSystem

namespace Session

variable {s : Session m} {e : Expected} {buried : Sector → Prop} {h : Handle} {node : LoadedInode}

/-- Copying fails only if there is a failure at the number of a call that was made for it. With
none there it would end the same way on a device that never fails. -/
theorem blamed_of_copied {fs : FileSystem (Cache s.config.slots m 512) m} {failure : Failure}
    (mapped : f.Mapped m s.image) (ready : s.fs.store.Ready)
    (copied : s.fs.perform (Volume.copyBytes f.disk off len) = .ok (.error failure, fs)) :
    ∃ number kind b, s.fs.store.device.made ≤ number ∧ number < fs.store.device.made ∧
      s.fs.store.device.fails number kind b = true := by
  by_contra none
  have calm (number : Nat) (start : s.fs.store.device.made ≤ number)
      (stop : number < fs.store.device.made) :
      (fun _ _ => false) = s.fs.store.device.fails number := by
    funext kind b
    exact (Bool.eq_false_iff.2 fun fails => none ⟨number, kind, b, start, stop, fails⟩).symm
  have copied' := (FileSystem.perform_causal copied).same calm
  obtain ⟨r, fs', again, -, -, may⟩ := FileSystem.exists_copied
    (s.withFails fun _ _ _ => false).fs mapped (ready_withFails ready _) off len
  cases copied'.symm.trans again
  exact may failure rfl fun _ _ _ => rfl

/-- **A read gives what is there or an I/O error and changes nothing, whatever fails; and which it
is does not depend on what is asked ahead.** Whatever calls of the device fail as `fails` says, a
read of an open inode ends as the copying of its bytes ends, and the calls that are made for the
copying come first. It fails only if there is a failure at one of their numbers, and if others fail
than these, it ends the same way. -/
theorem reads_of_handled (handled : Handled s e buried)
    (found : s.fs.volume.find? h.sector = some node) (off len : Nat)
    (fails : Nat → IoKind → Fin m → Bool) :
    ∃ r fs copied, (s.withFails fails).fs.perform (Volume.readBytes h off len) = .ok (r, fs) ∧
      s.fs.Reads fs node.disk off len r ∧
      (s.withFails fails).fs.perform (Volume.copyBytes node.disk off len) = .ok (r, copied) ∧
      copied.store.device.Extends fs.store.device ∧
      (∀ failure, r = .error failure → ∃ number kind b, s.fs.store.device.made ≤ number ∧
        number < copied.store.device.made ∧ fails number kind b = true) ∧
      ∀ fails' : Nat → IoKind → Fin m → Bool,
        (∀ number, s.fs.store.device.made ≤ number → number < copied.store.device.made →
          fails' number = fails number) →
        ∃ fs', (s.withFails fails').fs.perform (Volume.readBytes h off len) = .ok (r, fs') ∧
          s.fs.Reads fs' node.disk off len r := by
  obtain ⟨strayed, settled⟩ := handled.clears.settled
  obtain ⟨files, lost, inodes⟩ := settled.inodes
  obtain ⟨f, rest, at_sector, inodes⟩ := inodes.split (settled.separated.loaded found)
  have mapped := (inodes.safe.each f List.mem_cons_self).toMapped
  have disk : node.disk = f.disk := inodes.safe.disk_of_find? (at_sector ▸ found)
  obtain ⟨r, copied, copies, ready, reads, -⟩ :=
    FileSystem.exists_copied (s.withFails fails).fs mapped (ready_withFails settled.ready fails)
      off len
  have blamed (failure : Failure) (failed : r = .error failure) :=
    blamed_of_copied (s := s.withFails fails) mapped (ready_withFails settled.ready fails)
      (failed ▸ copies)
  rw [← disk] at copies reads
  have ends (fails' : Nat → IoKind → Fin m → Bool)
      (agree : ∀ number, s.fs.store.device.made ≤ number → number < copied.store.device.made →
        fails' number = fails number) :
      ∃ fs', (s.withFails fails').fs.perform (Volume.readBytes h off len) = .ok (r, fs') ∧
        s.fs.Reads fs' node.disk off len r ∧
        (copied.store.withFails fails').device.Extends fs'.store.device := by
    have copies' := (FileSystem.perform_causal copies).same agree
    obtain ⟨fs', performed, volume, shows, more⟩ :=
      FileSystem.exists_read (s.withFails fails').fs
        ⟨copied.volume, copied.store.withFails fails'⟩ mapped found disk
        (ready_withFails (s := { s with fs := copied }) ready fails') reads.volume reads.image
        copies'
    exact ⟨fs', performed, { reads with volume := volume, image := shows }, more⟩
  obtain ⟨fs, performed, reads', more⟩ := ends fails fun _ _ _ => rfl
  refine ⟨r, fs, copied, performed, reads', copies, ?_, blamed, fun fails' agree => ?_⟩
  · have pattern : copied.store.device.fails = fails :=
      (FileSystem.perform_causal copies).calls.fails
    have same : copied.store.withFails fails = copied.store := by
      rw [← pattern]
      rfl
    rwa [same] at more
  · obtain ⟨fs', performed', reads'', -⟩ := ends fails' agree
    exact ⟨fs', performed', reads''⟩

/-- The free map's file has two bytes in a file system of eleven sectors. It is opened and read
while calls of the device fail in any way. -/
theorem reads_of_handled_eleven :
    ∃ (s : Session 11) (e : Expected) (buried : Sector → Prop) (node : LoadedInode),
      Handled s e buried ∧ s.fs.volume.find? Sector.freeMap = some node ∧
      ∀ fails : Nat → IoKind → Fin 11 → Bool, ∃ r fs,
        (s.withFails fails).fs.perform (Volume.readBytes { sector := Sector.freeMap } 1 5) =
          .ok (r, fs) ∧ s.fs.Reads fs node.disk 1 5 r ∧
        ∀ bytes, r = .ok bytes → bytes.length = 1 := by
  have reliable : ∀ number kind b, (Device.filled 11 512 7).fails number kind b = false :=
    fun _ _ _ => rfl
  obtain ⟨fs, formatted, -⟩ :=
    exists_format _ { slots := 1 } (by decide) (by decide) (by decide) reliable
  have follows := follows_start reliable formatted
  have live : Expected.start.Legal (.open Sector.freeMap) := rfl
  obtain ⟨_, s, opened, rfl, -⟩ := follows.goes_of_legal live
  have handled := (Handled.formatted formatted).step (.inl live.fair) nofun opened
  obtain ⟨strayed, settled⟩ := handled.clears.settled
  obtain ⟨files, lost, inodes⟩ := settled.inodes
  have handle : (Expected.start.next (.open Sector.freeMap) .done).handle 0 =
      some { sector := Sector.freeMap } := rfl
  obtain ⟨node, found, -⟩ := Volume.exists_of_status (inodes.status_handle handle)
  obtain ⟨f, rest, at_sector, inodes⟩ := inodes.split_handle handle
  have length : node.disk.length = 2 := by
    rw [inodes.safe.disk_of_find? (at_sector ▸ found)]
    exact inodes.length f List.mem_cons_self at_sector
  refine ⟨s, _, _, node, handled, found, fun fails => ?_⟩
  obtain ⟨r, fs', -, performed, reads, -⟩ := reads_of_handled handled
    (h := { sector := Sector.freeMap }) found 1 5 fails
  refine ⟨r, fs', performed, reads, fun bytes ok => ?_⟩
  rw [reads.length ok, length]
  rfl

end Session

end SectorFs
