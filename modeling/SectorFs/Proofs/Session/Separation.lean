/-
# SectorFs.Proofs.Session.Separation — no sector has two owners, whatever fails

An inode names sectors twice: as it is stored, and while it is open as it is in memory. After a
failure the two can differ, and the words that they leave behind in index blocks are never
followed. `Separated v image live`: each sector that a live inode names in one of its two forms is
in use, and no other live inode names it. It holds in every session that legal operations lead to
on a device that may fail at any call, and the next legal operation returns
(`separated_of_weathered`).
-/
import SectorFs.Proofs.File.Owned
import SectorFs.Proofs.Session.Owing

namespace SectorFs

set_option autoImplicit false

variable {m : Nat} {image : Image} {v : Volume m} {e : Expected} {strayed : Sector → Prop}
  {files : List LiveFile} {lost : List Nat} {f : LiveFile} {d d' : Inode} {s t : Sector}

/-- The forms of the inode at `t`: the stored one, and while it is open the one in memory. -/
inductive FormOf (v : Volume m) (image : Image) (t : Sector) : Inode → Prop
  | stored : FormOf v image t (Inode.decode (image t.index))
  | loaded {node : LoadedInode} : v.find? t = some node → FormOf v image t node.disk

theorem FormOf.congr {v' : Volume m} {image' : Image} (form : FormOf v image t d)
    (loaded : v'.find? t = v.find? t) (stored : image' t.index = image t.index) :
    FormOf v' image' t d := by
  cases form with
  | stored =>
    rw [← stored]
    exact .stored
  | loaded found => exact .loaded (loaded.trans found)

/-- Every sector that a live inode names is in use, and named by no other. -/
structure Separated (v : Volume m) (image : Image) (live : Sector → Bool) : Prop where
  loaded {t : Sector} {node : LoadedInode} : v.find? t = some node → live t = true
  marked {t : Sector} {d : Inode} : live t = true → FormOf v image t d → d.isMarked = true
  inUse {t : Sector} {d : Inode} : live t = true → FormOf v image t d →
    ∀ i ∈ namedBy image t d, i < m ∧ v.free.inUse i = true
  nodup {t : Sector} {d : Inode} : live t = true → FormOf v image t d → (namedBy image t d).Nodup
  disjoint {s t : Sector} {d d' : Inode} : live s = true → live t = true → s ≠ t →
    FormOf v image s d → FormOf v image t d' → (namedBy image s d).Disjoint (namedBy image t d')

namespace Volume.Safe

variable (safe : v.Safe image files lost)
include safe

/-- Each form of an inode is that of a file from which the file in memory goes on. -/
theorem exists_form (mem : f ∈ files) (form : FormOf v image f.sector d) :
    ∃ g : LiveFile, g.disk = d ∧ g.Mapped m image ∧ g.Extends f ∧ d.isMarked = true := by
  have file := safe.each f mem
  cases form with
  | stored =>
    obtain ⟨g, opens, ahead⟩ := file.origin
    have settled : Inode.decode (image f.sector.index) = g.disk := by
      rw [ahead.sector]
      exact opens.inode
    exact ⟨g, settled.symm, opens.toMapped, ahead, settled ▸ opens.marked⟩
  | loaded found =>
    obtain ⟨front, back, rfl⟩ := List.append_of_mem mem
    have same := (safe.perm List.perm_middle).disk_of_find? found
    exact ⟨f, same.symm, file.toMapped, .refl file.stored.whole, same ▸ file.marked⟩

/-- In both forms an inode names sectors of its file only. -/
theorem namedBy_sublist (mem : f ∈ files) (form : FormOf v image f.sector d) :
    d.isMarked = true ∧ (namedBy image f.sector d).Sublist f.owned := by
  obtain ⟨g, rfl, mapped, ahead, marked⟩ := safe.exists_form mem form
  rw [ahead.sector, mapped.stored.namedBy_eq]
  exact ⟨marked, ahead.owned_sublist⟩

/-- No two of the files have a sector in common. -/
theorem disjoint_owned {g : LiveFile} (mem : f ∈ files) (mem' : g ∈ files)
    (other : f.sector ≠ g.sector) : f.owned.Disjoint g.owned := by
  obtain ⟨front, back, rfl⟩ := List.append_of_mem mem
  have safe := safe.perm List.perm_middle
  have mem' : g ∈ front ++ back := by
    rcases List.mem_cons.1 (List.perm_middle.mem_iff.1 mem') with rfl | mem'
    · exact absurd rfl other
    · exact mem'
  intro i own own'
  exact safe.apart own (List.mem_flatMap.2 ⟨g, mem', own'⟩)

theorem separated {live : Sector → Bool}
    (exactly : ∀ s, live s = true ↔ ∃ f ∈ files, f.sector = s) : Separated v image live where
  loaded found := by
    obtain ⟨f, mem, at_sector, -⟩ := safe.loaded (disks_of_find? found)
    exact (exactly _).2 ⟨f, mem, at_sector⟩
  marked here form := by
    obtain ⟨f, mem, rfl⟩ := (exactly _).1 here
    exact (safe.namedBy_sublist mem form).1
  inUse here form i named := by
    obtain ⟨f, mem, rfl⟩ := (exactly _).1 here
    have own := List.mem_append_left lost
      (List.mem_flatMap.2 ⟨f, mem, (safe.namedBy_sublist mem form).2.subset named⟩)
    have inside := safe.marks.inside i own
    exact ⟨inside, (safe.marks.inUse inside).2 own⟩
  nodup here form := by
    obtain ⟨f, mem, rfl⟩ := (exactly _).1 here
    exact ((List.nodup_flatMap.1 safe.nodup).1 f mem).sublist (safe.namedBy_sublist mem form).2
  disjoint {s t d d'} here here' other form form' := by
    obtain ⟨f, mem, rfl⟩ := (exactly _).1 here
    obtain ⟨g, mem', rfl⟩ := (exactly _).1 here'
    intro i named named'
    exact safe.disjoint_owned mem mem' other ((safe.namedBy_sublist mem form).2.subset named)
      ((safe.namedBy_sublist mem' form').2.subset named')

end Volume.Safe

theorem Expected.SettledExcept.separated (inodes : e.SettledExcept strayed v image files lost) :
    Separated v image e.isLive :=
  inodes.safe.separated fun _ => inodes.live

namespace Session

variable {s : Session m}

/-- No two live inodes share a sector and no sector of one is free, in memory or as stored, whatever
failed before; and every legal operation returns. -/
theorem separated_of_weathered (weathered : Weathered s e strayed) :
    Separated s.fs.volume s.image e.isLive ∧
      ∀ op, e.Legal op → (∀ config, op ≠ .remount config) →
        ∃ answer s', s.step op = .ok (answer, s') := by
  have storable := weathered.storable
  obtain ⟨files, lost, inodes⟩ := storable.inodes
  refine ⟨inodes.separated, fun op legal stays => ?_⟩
  obtain ⟨answer, s', stepped, -⟩ := storable.weathers_of_legal legal stays
  exact ⟨answer, s', stepped⟩

/-- A write failed and left a file longer in memory than it is stored. No two inodes share a sector in
either form, and the next read of the file returns. -/
theorem separated_of_weathered_outgrown : ∃ (fs : FileSystem (Cache 1 20 512) 20)
    (s₁ s₂ s₃ s' s'' : Session 20) (e : Expected) (strayed : Sector → Prop) (node : LoadedInode)
    (answer : FileAnswer), Outgrown fs s₁ s₂ s₃ s' ∧ Weathered s' e strayed ∧
      s'.fs.volume.find? ⟨10⟩ = some node ∧
      (Inode.decode (s'.image 10)).length ≠ node.disk.length ∧
      Separated s'.fs.volume s'.image e.isLive ∧ s'.step (.read 0 0 2) = .ok (answer, s'') := by
  obtain ⟨fs, s₁, s₂, s₃, s', e, strayed, node, run, weathered, handle, found, length, stored⟩ :=
    exists_outgrown
  obtain ⟨separated, returns⟩ := separated_of_weathered weathered
  obtain ⟨answer, s'', read⟩ := returns (.read 0 0 2) ⟨_, handle⟩ nofun
  refine ⟨fs, s₁, s₂, s₃, s', s'', e, strayed, node, answer, run, weathered, found, ?_, separated,
    read⟩
  rw [length, stored]
  decide

end Session

end SectorFs
