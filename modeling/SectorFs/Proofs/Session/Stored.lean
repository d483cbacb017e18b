/-
# SectorFs.Proofs.Session.Stored — what is stored of an open inode

A write that reaches beyond the end of an inode changes the inode in memory first and stores it
then. If storing fails the two differ, and no later write inside the new length stores the inode
again: what it writes there is lost when the last handle is closed.

In every session that legal operations lead to on a device that may fail, the stored inode is
`Behind` the one in memory: it is no longer, and it has some of the first blocks. The two are equal
unless the last write beyond the end, since the inode was opened, failed (`stored_of_weathered`).
-/
import SectorFs.Proofs.Session.Separation

namespace SectorFs

set_option autoImplicit false

variable {m : Nat} {image : Image} {v : Volume m} {e : Expected} {strayed : Sector → Prop}
  {files : List LiveFile} {lost : List Nat} {f g : LiveFile} {t : Sector}

/-- The inode `d'` is what `d` was or came to be when it grew. -/
structure Behind (image : Image) (d d' : Inode) : Prop where
  length : d.length ≤ d'.length
  blockCount : d.blockCount ≤ d'.blockCount
  blockIn {i : Nat} : i < d.blockCount → blockIn image d' i = blockIn image d i
  /-- Nothing but the length and the blocks differs. -/
  bare : { d with lengthWord := d'.lengthWord }.bare = d'.bare

theorem LiveFile.Extends.behind (ahead : g.Extends f) (mapped : g.Mapped m image)
    (mapped' : f.Mapped m image) : Behind image g.disk f.disk := by
  have count := mapped.stored.describes.blockCount mapped.stored.whole
  have count' := mapped'.stored.describes.blockCount mapped'.stored.whole
  refine ⟨ahead.longer, ?_, fun {i} inside => ?_, ahead.bare⟩
  · rw [count, count']
    exact ahead.le
  · rw [count] at inside
    have le := ahead.le
    rw [mapped.stored.blockIn_eq inside, mapped'.stored.blockIn_eq (by omega), ← ahead.trim,
      Layout.block_trim inside]

/-- What is stored of an open inode is behind it, and equal to it unless it strayed. -/
theorem Expected.SettledExcept.stored (inodes : e.SettledExcept strayed v image files lost)
    {node : LoadedInode}
    (found : v.find? t = some node) : Behind image (Inode.decode (image t.index)) node.disk ∧
      (¬ strayed t → Inode.decode (image t.index) = node.disk) := by
  obtain ⟨f, mem, rfl, disk⟩ := inodes.safe.loaded (Volume.disks_of_find? found)
  obtain ⟨g, stored, mapped, ahead, -⟩ := inodes.safe.exists_form mem .stored
  rw [← disk]
  refine ⟨?_, inodes.settled f mem⟩
  rw [← stored]
  exact ahead.behind mapped (inodes.safe.each f mem).toMapped

namespace Session

variable {s : Session m}

/-- The stored inode is behind the one in memory, whatever failed. It equals the one in memory
unless the last write beyond the end of the inode, since it was opened, failed. -/
theorem stored_of_weathered (weathered : Weathered s e strayed) {node : LoadedInode}
    (found : s.fs.volume.find? t = some node) :
    Behind s.image (Inode.decode (s.image t.index)) node.disk ∧
      (¬ strayed t → Inode.decode (s.image t.index) = node.disk) := by
  obtain ⟨files, lost, inodes⟩ := weathered.storable.inodes
  exact inodes.stored found

/-- An inode that was made longer in memory only is behind, and it strayed. -/
theorem stored_of_weathered_outgrown : ∃ (fs : FileSystem (Cache 1 20 512) 20)
    (s₁ s₂ s₃ s' : Session 20) (e : Expected) (strayed : Sector → Prop) (node : LoadedInode),
      Outgrown fs s₁ s₂ s₃ s' ∧ Weathered s' e strayed ∧ s'.fs.volume.find? ⟨10⟩ = some node ∧
      node.disk.length = 2 ∧ (Inode.decode (s'.image 10)).length = 1 ∧
      Behind s'.image (Inode.decode (s'.image 10)) node.disk ∧ strayed ⟨10⟩ := by
  obtain ⟨fs, s₁, s₂, s₃, s', e, strayed, node, run, weathered, -, found, length, stored⟩ :=
    exists_outgrown
  obtain ⟨behind, same⟩ := stored_of_weathered weathered found
  refine ⟨fs, s₁, s₂, s₃, s', e, strayed, node, run, weathered, found, length, stored, behind, ?_⟩
  by_contra settled
  have equal := congrArg Inode.length (same settled)
  rw [length] at equal
  exact absurd (stored.symm.trans equal) (by decide)

end Session

end SectorFs
