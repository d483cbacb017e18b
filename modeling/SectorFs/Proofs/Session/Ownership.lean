/-
# SectorFs.Proofs.Session.Ownership — every sector has one owner

`Accounted v image live`: the free map marks the sectors of the live inodes and no
other, no sector has two owners, and an inode owns as many sectors as its blocks
need. Which sectors an inode owns is read off the sectors themselves (`ownedIn`).
Every session that legal operations lead to is accounted for, a remount among them,
and the last close of a removed inode gives back all that it owned
(`accounted_of_reachable`).
-/
import SectorFs.Proofs.File.Owned
import SectorFs.Proofs.Session.Contents

namespace SectorFs

set_option autoImplicit false

variable {m : Nat} {image : Image} {v : Volume m} {e : Expected} {files : List LiveFile}
  {f : LiveFile} {s t : Sector}

/-- The number of blocks that the stored inode at `s` has. -/
def blocksIn (image : Image) (s : Sector) : Nat := (Inode.decode (image s.index)).blockCount

/-- The free map marks exactly what the live inodes own, each sector for one of them. -/
structure Accounted (v : Volume m) (image : Image) (live : Sector → Bool) : Prop where
  inUse {i : Nat} : i < m →
    (v.free.inUse i = true ↔ ∃ s, live s = true ∧ i ∈ ownedIn image s)
  inside {s : Sector} {i : Nat} : live s = true → i ∈ ownedIn image s → i < m
  nodup {s : Sector} : live s = true → (ownedIn image s).Nodup
  disjoint {s t : Sector} : live s = true → live t = true → s ≠ t →
    (ownedIn image s).Disjoint (ownedIn image t)
  length {s : Sector} : live s = true →
    (ownedIn image s).length = sectorsTaken (blocksIn image s)
  /-- The blocks of an inode lie in its groups, in order. -/
  grouped {s : Sector} {i : Nat} : live s = true → i < blocksIn image s →
    blockIn image (Inode.decode (image s.index)) i =
      blockIn image (Inode.decode (image s.index)) (8 * (i / 8)) + i % 8
  /-- An open inode is live, and in memory as it is stored. -/
  loaded {s : Sector} {node : LoadedInode} : v.find? s = some node →
    live s = true ∧ node.disk = Inode.decode (image s.index)
  countFree : v.free.countFree + ((List.range m).filter v.free.inUse).length = m

namespace LiveFile

theorem Sound.ownedIn_eq (sound : f.Sound m image) : ownedIn image f.sector = f.owned :=
  sound.stored.ownedIn_eq sound.inode

theorem Sound.blocksIn_eq (sound : f.Sound m image) :
    blocksIn image f.sector = f.layout.count := by
  rw [blocksIn, sound.inode, sound.stored.describes.blockCount sound.stored.whole]

end LiveFile

namespace Expected.Agrees

variable (agrees : e.Agrees v image files)
include agrees

theorem file_of_live (live : e.isLive s = true) :
    ∃ f ∈ files, f.sector = s ∧ f.Sound m image ∧ ownedIn image s = f.owned := by
  obtain ⟨f, mem, rfl⟩ := agrees.live.1 live
  have here := agrees.sound.each f mem
  exact ⟨f, mem, rfl, here, here.ownedIn_eq⟩

theorem inUse_iff {i : Nat} (h : i < m) :
    v.free.inUse i = true ↔ ∃ s, e.isLive s = true ∧ i ∈ ownedIn image s := by
  rw [agrees.sound.marks.inUse h, List.mem_flatMap]
  constructor
  · rintro ⟨f, mem, own⟩
    refine ⟨f.sector, agrees.live.2 ⟨f, mem, rfl⟩, ?_⟩
    rwa [(agrees.sound.each f mem).ownedIn_eq]
  · rintro ⟨s, live, own⟩
    obtain ⟨f, mem, -, -, owned⟩ := agrees.file_of_live live
    exact ⟨f, mem, owned ▸ own⟩

/-- Two live inodes have no sector in common. -/
theorem disjoint_ownedIn (live : e.isLive s = true) (live' : e.isLive t = true) (other : s ≠ t) :
    (ownedIn image s).Disjoint (ownedIn image t) := by
  obtain ⟨f, rest, rfl, agrees⟩ := agrees.split live
  obtain ⟨g, mem, rfl⟩ := agrees.live.1 live'
  have mem : g ∈ rest := by
    rcases List.mem_cons.1 mem with rfl | mem
    · exact absurd rfl other
    · exact mem
  have nodup := agrees.sound.nodup
  rw [List.flatMap_cons, List.nodup_append'] at nodup
  rw [(agrees.sound.each f List.mem_cons_self).ownedIn_eq,
    (agrees.sound.each g (List.mem_cons_of_mem f mem)).ownedIn_eq]
  intro i own own'
  exact nodup.2.2 own (List.mem_flatMap.2 ⟨g, mem, own'⟩)

theorem accounted : Accounted v image e.isLive := by
  have sound := agrees.sound
  refine {
    inUse := agrees.inUse_iff
    inside := ?_
    nodup := ?_
    disjoint := agrees.disjoint_ownedIn
    length := ?_
    grouped := ?_
    loaded := ?_
    countFree := ?_ }
  · intro s i live own
    obtain ⟨f, mem, -, -, owned⟩ := agrees.file_of_live live
    exact sound.marks.inside i (List.mem_flatMap.2 ⟨f, mem, owned ▸ own⟩)
  · intro s live
    obtain ⟨f, mem, -, -, owned⟩ := agrees.file_of_live live
    rw [owned]
    exact (List.nodup_flatMap.1 sound.nodup).1 f mem
  · intro s live
    obtain ⟨f, -, rfl, here, owned⟩ := agrees.file_of_live live
    rw [owned, here.blocksIn_eq, LiveFile.owned, List.length_cons,
      Layout.length_owned here.stored.whole, sectorsTaken]
    omega
  · intro s i live h
    obtain ⟨f, -, rfl, here, -⟩ := agrees.file_of_live live
    rw [here.blocksIn_eq] at h
    rw [here.inode, here.stored.blockIn_eq h, here.stored.blockIn_eq (by omega), Layout.block,
      Layout.block, Nat.mul_div_cancel_left _ (by decide), Nat.mul_mod_right, Nat.add_zero]
  · intro s node found
    obtain ⟨f, mem, rfl, disk⟩ := sound.loaded found
    rw [← disk, (sound.each f mem).inode]
    exact ⟨agrees.live.2 ⟨f, mem, rfl⟩, rfl⟩
  · rw [← sound.marks.length_eq_count, sound.marks.countFree]
    exact Nat.sub_add_cancel sound.marks.length_le

end Expected.Agrees

namespace Session

variable {device : Device m 512} {config : CacheSetup}
  {fs : FileSystem (Cache config.slots m 512) m} {s : Session m}

/-- Closing or dropping a handle. -/
inductive Releases (i : Nat) : FileOp → Prop
  | close : Releases i (.close i)
  | drop : Releases i (.drop i)

theorem Follows.releases {i : Nat} {h : Handle} {op : FileOp} (follows : s.Follows e)
    (found : e.handle i = some h) (last : e.openers h.sector = 1)
    (gone : e.isRemoved h.sector = true) (releases : Releases i op) :
    ∃ s', s.step op = .ok (.done, s') ∧ s'.fs.volume.free.countFree =
      s.fs.volume.free.countFree + sectorsTaken (blocksIn s.image h.sector) := by
  obtain ⟨files, agrees⟩ := follows.agrees
  cases releases with
  | close =>
    obtain ⟨s', told, -, closing⟩ := follows.closing (close_ensures agrees found)
    rw [step_handle (follows.handle_eq found) rfl]
    exact ⟨s', told, closing.frees last gone⟩
  | drop =>
    obtain ⟨s', told, -, closing⟩ := follows.closing (drop_ensures agrees found)
    rw [step_handle (follows.handle_eq found) rfl]
    exact ⟨s', told, closing.frees last gone⟩

/-- Every sector in use has one owner, and the last close of a removed inode frees what it owned. -/
theorem accounted_of_reachable (reliable : ∀ number kind b, device.fails number kind b = false)
    (formatted : FileSystem.format (Cache.new device config) = .ok (.ok (), some fs))
    (reachable : Reachable ⟨config, fs, []⟩ s e) :
    Accounted s.fs.volume s.image e.isLive ∧
      ∀ i h op, e.handle i = some h → e.openers h.sector = 1 → e.isRemoved h.sector = true →
        Releases i op → ∃ s', s.step op = .ok (.done, s') ∧ s'.fs.volume.free.countFree =
          s.fs.volume.free.countFree + sectorsTaken (blocksIn s.image h.sector) := by
  have follows := reachable.follows (follows_start reliable formatted)
  obtain ⟨files, agrees⟩ := follows.agrees
  exact ⟨agrees.accounted, fun i h op found last gone releases =>
    follows.releases found last gone releases⟩

/-- The last close of a removed inode gives its sectors back: its own, and the group of its block. -/
theorem accounted_of_reachable_removed :
    ∃ (fs : FileSystem (Cache 1 19 512) 19) (s s' : Session 19) (e : Expected),
      FileSystem.format (Cache.new (Device.filled 19 512 7) { slots := 1 }) =
        .ok (.ok (), some fs) ∧
      Reachable ⟨{ slots := 1 }, fs, []⟩ s e ∧ e.isRemoved ⟨10⟩ = true ∧
      s.step (.close 0) = .ok (.done, s') ∧ s'.fs.volume.free.countFree =
        s.fs.volume.free.countFree + sectorsTaken (blocksIn s.image ⟨10⟩) := by
  have reliable : ∀ number kind b, (Device.filled 19 512 7).fails number kind b = false :=
    fun _ _ _ => rfl
  obtain ⟨fs, s, formatted, -, reachable⟩ :=
    exists_gapRemoved _ { slots := 1 } (by decide) reliable
  obtain ⟨-, frees⟩ := accounted_of_reachable reliable formatted reachable
  obtain ⟨s', closed, more⟩ := frees 0 { sector := ⟨10⟩ } (.close 0) rfl rfl rfl .close
  exact ⟨fs, s, s', _, formatted, reachable, rfl, closed, more⟩

end Session

end SectorFs
