/-
# SectorFs.Proofs.Session.Agreement — a volume does what is expected

`Expected.Agrees e v image files`: the live files of the volume are the live
inodes of `e`, they hold its strings, and what is open at a sector is what the
handles of `e` say. Each operation keeps the two in agreement; one lemma here for
each way in which an operation changes what is expected.
-/
import SectorFs.Proofs.Session.Tallies

namespace SectorFs

set_option autoImplicit false

variable {m : Nat} {image image' : Image} {v v' : Volume m} {e e' : Expected}
  {files rest : List LiveFile} {f f' : LiveFile} {s t : Sector} {h : Handle} {i : Nat}

namespace Expected

structure Agrees (e : Expected) (v : Volume m) (image : Image) (files : List LiveFile) : Prop
    extends e.Tallies v files where
  unguarded : e.Unguarded
  sound : v.Sound image files
  bytes : ∀ f ∈ files, f.sector ≠ Sector.freeMap →
    (e.files f.sector).map ExpectedFile.bytes = some (f.content image)

namespace Agrees

variable (agrees : e.Agrees v image files)
include agrees

theorem perm {files' : List LiveFile} (same : files.Perm files') :
    e.Agrees v image files' where
  toTallies := agrees.toTallies.perm same
  unguarded := agrees.unguarded
  sound := agrees.sound.perm same
  bytes f mem := agrees.bytes f (same.mem_iff.2 mem)

/-- The file of a live inode, before the others. -/
theorem split (live : e.isLive s = true) :
    ∃ f rest, f.sector = s ∧ e.Agrees v image (f :: rest) := by
  obtain ⟨f, rest, at_sector, same⟩ := agrees.exists_perm live
  exact ⟨f, rest, at_sector, agrees.perm same⟩

theorem live_of_handle (found : e.handle i = some h) : e.isLive h.sector = true :=
  agrees.live_of_pos agrees.sound.of_disks (openers_pos found)

theorem split_handle (found : e.handle i = some h) :
    ∃ f rest, f.sector = h.sector ∧ e.Agrees v image (f :: rest) :=
  agrees.split (agrees.live_of_handle found)

/-! ## Handles come and go -/

/-- Only handles changed. -/
theorem keep (tallies : e'.Tallies v' files) (unguarded : e'.Unguarded)
    (sound : v'.Sound image files) (same : e'.files = e.files) : e'.Agrees v' image files where
  toTallies := tallies
  unguarded := unguarded
  sound := sound
  bytes f mem other := by
    rw [same]
    exact agrees.bytes f mem other

theorem opened (sound : v'.Sound image files) (status : v'.status =
    Function.update v.status s (some (.opened (v.status s)))) :
    (e.opened s).Agrees v' image files :=
  agrees.keep (agrees.toTallies.opened status) (agrees.unguarded.opened s) sound rfl

theorem withHandle {deniesWrite : Bool} {denials : Nat} (found : e.handle i = some h)
    (sound : v'.Sound image files)
    (counted : denials + h.deniesWrite.toNat = e.denials h.sector + deniesWrite.toNat)
    (allowed : h.sector = Sector.freeMap → deniesWrite = false)
    (status : v'.status = Function.update v.status h.sector
      (some ⟨e.openers h.sector, e.isRemoved h.sector, denials⟩)) :
    (e.withHandle i (some { h with deniesWrite })).Agrees v' image files :=
  agrees.keep (agrees.toTallies.withHandle found counted status)
    (agrees.unguarded.withHandle found allowed) sound rfl

/-- A handle was closed, and its file stays. -/
theorem closed (found : e.handle i = some h)
    (stays : ¬ (e.openers h.sector = 1 ∧ e.isRemoved h.sector = true))
    (sound : v'.Sound image files) (status : v'.status = Function.update v.status h.sector
      (Volume.Status.closed ⟨e.openers h.sector, e.isRemoved h.sector, e.denials h.sector⟩ h)) :
    (e.closed i h).Agrees v' image files := by
  refine agrees.keep (agrees.toTallies.closed found stays status) (agrees.unguarded.closed found)
    sound ?_
  rw [Expected.closed, if_neg stays]
  rfl

/-- The other files keep their bytes. -/
theorem content_kept {g : LiveFile} (mem : g ∈ files)
    (kept : ∀ s ∈ files.flatMap LiveFile.owned, image' s = image s) :
    g.content image' = g.content image := by
  refine (agrees.sound.each g mem).content_congr fun i inside =>
    (agrees.sound.each g mem).byte_congr (fun s own => kept s ?_) inside
  exact List.mem_flatMap.2 ⟨g, mem, List.mem_cons_of_mem _ own⟩

end Agrees

/-! ## Files change -/

theorem Agrees.rest_kept {g : LiveFile} (agrees : e.Agrees v image (f :: rest)) (mem : g ∈ rest)
    (kept : ∀ s ∈ rest.flatMap LiveFile.owned, image' s = image s) :
    g.content image' = g.content image := by
  have sound := agrees.sound.each g (List.mem_cons_of_mem f mem)
  refine sound.content_congr fun i inside => sound.byte_congr (fun s own => kept s ?_) inside
  exact List.mem_flatMap.2 ⟨g, mem, List.mem_cons_of_mem _ own⟩

/-- A file was made. -/
theorem Agrees.created {free : FreeMap m} {length : Nat} (agrees : e.Agrees v image files)
    (fresh : ∀ g ∈ files, g.sector ≠ f.sector)
    (sound : ({ v with free } : Volume m).Sound image' (f :: files))
    (kept : ∀ s ∈ files.flatMap LiveFile.owned, image' s = image s)
    (zeros : f.content image' = List.replicate length 0) :
    e.isLive f.sector = false ∧
      (e.withFile f.sector (some ⟨List.replicate length 0, false⟩)).Agrees { v with free } image'
        (f :: files) := by
  have status : ({ v with free } : Volume m).status = v.status := rfl
  obtain ⟨dead, tallies⟩ := agrees.toTallies.created (List.replicate length 0) fresh status
  refine ⟨dead, tallies, agrees.unguarded, sound, fun g mem differs => ?_⟩
  rcases List.mem_cons.1 mem with rfl | mem
  · rw [files_withFile_self, Option.map_some, zeros]
  · rw [files_withFile_of_ne _ _ (fresh g mem), agrees.bytes g mem differs,
      agrees.content_kept mem kept]

/-- The bytes of a file were written. -/
theorem Agrees.changed {file : ExpectedFile} {data : List UInt8}
    (agrees : e.Agrees v image (f :: rest)) (changed : v.Changed v' image image' f f' rest)
    (before : e.files f.sector = some file) (other : f.sector ≠ Sector.freeMap)
    (content : f'.content image' = data) :
    (e.withFile f.sector (some { file with bytes := data })).Agrees v' image' (f' :: rest) := by
  have removed : (e.withFile f.sector (some { file with bytes := data })).isRemoved =
      e.isRemoved := by
    funext s
    rw [isRemoved_withFile]
    split
    case isTrue same => rw [same, isRemoved, before, Option.any_some, Option.any_some]
    case isFalse => rfl
  have live : (e.withFile f.sector (some { file with bytes := data })).isLive = e.isLive := by
    funext s
    rw [isLive_withFile]
    split
    case isTrue same => rw [same, isLive, before]; rfl
    case isFalse => rfl
  have tallies := agrees.toTallies.replace changed.sector (fun at_map => absurd at_map other)
    changed.status
  refine ⟨tallies.keep live removed ?_ fun s gone => tallies.held gone, agrees.unguarded,
    changed.sound, fun g mem differs => ?_⟩
  · exact tallies.status.trans (funext fun s => (status_withFile (congrFun removed s)).symm)
  · rcases List.mem_cons.1 mem with rfl | mem
    · rw [changed.sector, files_withFile_self, Option.map_some, content]
    · rw [files_withFile_of_ne _ _ (agrees.sound.sector_ne g mem),
        agrees.bytes g (List.mem_cons_of_mem f mem) differs, agrees.rest_kept mem changed.kept]

/-- No byte that is expected changed. -/
theorem Agrees.unchanged (agrees : e.Agrees v image (f :: rest))
    (changed : v.Changed v' image image' f f rest)
    (content : f.sector ≠ Sector.freeMap → f.content image' = f.content image) :
    e.Agrees v' image' (f :: rest) where
  toTallies := agrees.toTallies.replace rfl (fun _ => rfl) changed.status
  unguarded := agrees.unguarded
  sound := changed.sound
  bytes g mem differs := by
    rw [agrees.bytes g mem differs]
    rcases List.mem_cons.1 mem with rfl | mem
    · rw [content differs]
    · rw [agrees.rest_kept mem changed.kept]

/-- An inode was removed, and is still open. -/
theorem Agrees.removed {file : ExpectedFile} (agrees : e.Agrees v image files)
    (found : e.handle i = some h) (before : e.files h.sector = some file)
    (other : h.sector ≠ Sector.freeMap) (other' : h.sector ≠ Sector.root)
    (sound : v'.Sound image files) (status : v'.status = Function.update v.status h.sector
      (some ⟨e.openers h.sector, true, e.denials h.sector⟩)) :
    (e.withFile h.sector (some { file with removed := true })).Agrees v' image files where
  toTallies := agrees.toTallies.removed found before other other' status
  unguarded := agrees.unguarded
  sound := sound
  bytes g mem differs := by
    rw [← agrees.bytes g mem differs]
    by_cases same : g.sector = h.sector
    · rw [same, files_withFile_self, before, Option.map_some, Option.map_some]
    · rw [files_withFile_of_ne _ _ same]

/-- The last handle of a removed inode was closed. -/
theorem Agrees.deleted (agrees : e.Agrees v image (f :: rest)) (found : e.handle i = some h)
    (at_sector : f.sector = h.sector) (last : e.openers h.sector = 1)
    (gone : e.isRemoved h.sector = true) (sound : v'.Sound image' rest)
    (kept : ∀ s ∈ rest.flatMap LiveFile.owned, image' s = image s)
    (status : v'.status = Function.update v.status h.sector none) :
    (e.closed i h).Agrees v' image' rest where
  toTallies := Tallies.deleted agrees.toTallies agrees.sound.sector_ne found at_sector last gone
    status
  unguarded := agrees.unguarded.closed found
  sound := sound
  bytes g mem differs := by
    have apart : g.sector ≠ h.sector := fun same =>
      agrees.sound.sector_ne g mem (same.trans at_sector.symm)
    rw [Expected.closed, if_pos ⟨last, gone⟩, files_withFile_of_ne _ _ apart,
      agrees.rest_kept mem kept]
    exact agrees.bytes g (List.mem_cons_of_mem f mem) differs

/-- Everything in memory was forgotten, and read back. -/
theorem Agrees.remounted {config : CacheSetup} (agrees : e.Agrees v image files)
    (marks : v'.free.Marks (files.flatMap LiveFile.owned)) (closed : v'.find? = fun _ => none) :
    (e.next (.remount config) .done).Agrees v' image files where
  toTallies := agrees.toTallies.remounted config (funext fun s => by
    rw [Volume.status, closed]
    rfl)
  unguarded := rfl
  sound := {
    small := agrees.sound.small
    marks
    each := agrees.sound.each
    zero := agrees.sound.zero
    loaded := fun {s node} found => by
      rw [closed] at found
      cases found }
  bytes f mem other := by
    rw [← agrees.bytes f mem other]
    change ((e.files f.sector).map _).map _ = _
    rw [Option.map_map]
    rfl

end Expected

end SectorFs
