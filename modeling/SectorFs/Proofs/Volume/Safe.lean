/-
# SectorFs.Proofs.Volume.Safe — files on a device that fails

When a request fails, the sector of an inode can be left behind by the inode in
memory, and sectors can be left in use that belong to nothing. What is never lost
is the order of the two: an open file extends the file that is stored
(`LiveFile.Extends`), so the stored pointers lead to some of its own first blocks
and never to those of another (`LiveFile.Safe`).

`Volume.Safe v image files lost`: the files are all safe, the free map marks their
sectors and the lost ones, each once, and a file that is not open is as it is
stored. A file that is closed while it is ahead of what is stored shrinks to that,
and the sectors that it had more are lost (`Safe.shut`).
-/
import Mathlib.Data.List.Perm.Basic
import Mathlib.Tactic.Choose
import SectorFs.Proofs.Volume.Lifecycle

namespace SectorFs

set_option autoImplicit false

variable {m : Nat} {mayFail : Prop} {image image' : Image} {l l' : Layout} {d : Inode}
  {v v' : Volume m} {f f' g : LiveFile} {files rest : List LiveFile} {others lost lost' : List Nat}
  {s : Sector}

/-! ## Fewer blocks -/

namespace Layout

theorem toList_ite_sublist {α : Type} (p : Prop) [Decidable p] (o : Option α) :
    (if p then o else none).toList.Sublist o.toList := by
  split
  · exact List.Sublist.refl _
  · exact List.nil_sublist _

/-- The first blocks take some of the sectors. -/
theorem owned_trim_sublist (l : Layout) (n : Nat) : (l.trim n).owned.Sublist l.owned := by
  have data : (l.trim n).data.Sublist l.data := by
    rw [data, data, ← List.take_append_drop (groupsFor n) l.groups, List.flatMap_append]
    exact List.sublist_append_left _ _
  have inner : (l.trim n).inner.Sublist l.inner := List.take_sublist _ _
  exact data.append (((toList_ite_sublist _ _).append (toList_ite_sublist _ _)).append inner)

end Layout

namespace LiveFile

/-- A file with blocks added at its end, and perhaps a greater length. -/
structure Extends (f f' : LiveFile) : Prop where
  sector : f'.sector = f.sector
  le : f.layout.count ≤ f'.layout.count
  trim : f'.layout.trim f.layout.count = f.layout
  longer : f.disk.length ≤ f'.disk.length
  bare : { f.disk with lengthWord := f'.disk.lengthWord }.bare = f'.disk.bare

namespace Extends

theorem refl (whole : f.layout.Whole) : f.Extends f :=
  ⟨rfl, Nat.le_refl _, Layout.trim_count whole, Nat.le_refl _, rfl⟩

theorem trans (first : f.Extends g) (second : g.Extends f') : f.Extends f' where
  sector := second.sector.trans first.sector
  le := Nat.le_trans first.le second.le
  trim := by rw [← Layout.trim_trim first.le, second.trim, first.trim]
  longer := Nat.le_trans first.longer second.longer
  bare := by
    have same : { f.disk.bare with lengthWord := f'.disk.lengthWord } =
        { g.disk.bare with lengthWord := f'.disk.lengthWord } := by
      rw [← first.bare]
      rfl
    exact Eq.trans same second.bare

theorem owned_sublist (ahead : f.Extends f') : f.owned.Sublist f'.owned := by
  rw [owned, owned, ahead.sector]
  refine List.Sublist.cons_cons _ ?_
  rw [← ahead.trim]
  exact f'.layout.owned_trim_sublist _

theorem isMarked (ahead : f.Extends f') : f'.disk.isMarked = f.disk.isMarked := by
  have word := congrArg Inode.magic ahead.bare
  change f.disk.magic = f'.disk.magic at word
  rw [Inode.isMarked, ← word, Inode.isMarked]

end Extends

theorem Mapped.congr (mapped : f.Mapped m image)
    (same : ∀ t ∈ f.layout.owned, image' t = image t) : f.Mapped m image' where
  stored := mapped.stored.congr fun t mem => same t (Layout.index_mem_owned mem)
  long := mapped.long

theorem Settled.congr (settled : f.Settled image) (same : image' f.sector.index =
    image f.sector.index) : f.Settled image' := by
  rw [Settled, same]
  exact settled

theorem Opens.congr (opens : f.Opens m image) (same : ∀ t ∈ f.owned, image' t = image t) :
    f.Opens m image' where
  toMapped := opens.toMapped.congr fun t mem => same t (List.mem_cons_of_mem _ mem)
  inode := Settled.congr opens.inode (same _ List.mem_cons_self)
  marked := opens.marked

/-- What was kept of all files was kept of each. -/
theorem kept_owned (mem : g ∈ files) (kept : ∀ t ∈ files.flatMap owned, image' t = image t) :
    ∀ t ∈ g.owned, image' t = image t :=
  fun t own => kept t (List.mem_flatMap.2 ⟨g, mem, own⟩)

theorem Settled.kept (settled : g.Settled image) (mem : g ∈ files)
    (kept : ∀ t ∈ files.flatMap owned, image' t = image t) : g.Settled image' :=
  settled.congr (kept_owned mem kept _ List.mem_cons_self)

/-- The blocks of a file are all there, and it extends the file that is stored. -/
structure Safe (f : LiveFile) (m : Nat) (image : Image) : Prop extends f.Mapped m image where
  origin : ∃ g : LiveFile, g.Opens m image ∧ g.Extends f

namespace Safe

theorem of_opens (opens : f.Opens m image) : f.Safe m image :=
  ⟨opens.toMapped, f, opens, .refl opens.stored.whole⟩

theorem marked (safe : f.Safe m image) : f.disk.isMarked = true := by
  obtain ⟨g, opens, ahead⟩ := safe.origin
  rw [ahead.isMarked, opens.marked]

theorem stored_marked (safe : f.Safe m image) (settled : f.Settled image) :
    (Inode.decode (image f.sector.index)).isMarked = true := by
  rw [show Inode.decode _ = f.disk from settled]
  exact safe.marked

theorem opens (safe : f.Safe m image) (settled : f.Settled image) : f.Opens m image :=
  ⟨safe.toMapped, settled, safe.marked⟩

theorem congr (safe : f.Safe m image) (same : ∀ t ∈ f.owned, image' t = image t) :
    f.Safe m image' where
  toMapped := safe.toMapped.congr fun t mem => same t (List.mem_cons_of_mem _ mem)
  origin := by
    obtain ⟨g, opens, ahead⟩ := safe.origin
    exact ⟨g, opens.congr fun t mem => same t (ahead.owned_sublist.subset mem), ahead⟩

/-- The file that is stored, and the sectors that the file in memory has more. -/
theorem settle (safe : f.Safe m image) : ∃ (g : LiveFile) (more : List Nat), g.Opens m image ∧
    g.Extends f ∧ f.owned.Perm (g.owned ++ more) ∧ (f.Settled image → g = f ∧ more = []) := by
  by_cases settled : f.Settled image
  · refine ⟨f, [], safe.opens settled, .refl safe.stored.whole, ?_, fun _ => ⟨rfl, rfl⟩⟩
    rw [List.append_nil]
  · obtain ⟨g, opens, ahead⟩ := safe.origin
    obtain ⟨more, same⟩ := ahead.owned_sublist.exists_perm_append
    exact ⟨g, more, opens, ahead, same, fun now => absurd now settled⟩

end Safe

end LiveFile

/-! ## Safe volumes -/

namespace Volume

structure Safe (v : Volume m) (image : Image) (files : List LiveFile) (lost : List Nat) :
    Prop where
  small : m ≤ 0x100000000
  marks : v.free.Marks (files.flatMap LiveFile.owned ++ lost)
  each : ∀ f ∈ files, f.Safe m image
  zero : 0 ∈ files.flatMap LiveFile.owned
  loaded {s : Sector} {d : Inode} : v.disks s = some d → ∃ f ∈ files, f.sector = s ∧ f.disk = d
  closed : ∀ f ∈ files, v.disks f.sector = none → f.Settled image

theorem Sound.safe (sound : v.Sound image files) : v.Safe image files [] where
  small := sound.small
  marks := by
    rw [List.append_nil]
    exact sound.marks
  each f mem := .of_opens (sound.each f mem).opens
  zero := sound.zero
  loaded := sound.of_disks
  closed f mem _ := (sound.each f mem).inode

namespace Safe

theorem perm (safe : v.Safe image files lost) {files' : List LiveFile}
    (same : files.Perm files') : v.Safe image files' lost where
  small := safe.small
  marks := safe.marks.perm ((same.flatMap_right _).append_right _)
  each f mem := safe.each f (same.mem_iff.2 mem)
  zero := (same.flatMap_right LiveFile.owned).mem_iff.1 safe.zero
  loaded open_now := by
    obtain ⟨f, mem, at_sector, disk⟩ := safe.loaded open_now
    exact ⟨f, same.mem_iff.1 mem, at_sector, disk⟩
  closed f mem := safe.closed f (same.mem_iff.2 mem)

theorem nodup (safe : v.Safe image files lost) : (files.flatMap LiveFile.owned).Nodup :=
  (List.nodup_append'.1 safe.marks.nodup).1

theorem inside (safe : v.Safe image files lost) (mem : f ∈ files) : f.sector.index < m :=
  safe.marks.inside _ (List.mem_append_left _ (List.mem_flatMap.2 ⟨f, mem, List.mem_cons_self⟩))

/-- No file has a lost sector. -/
theorem unowned_of_lost (safe : v.Safe image files lost) {i : Nat} (mem : i ∈ lost) :
    ∀ f ∈ files, i ∉ f.owned := fun f mem' own =>
  (List.nodup_append'.1 safe.marks.nodup).2.2 (List.mem_flatMap.2 ⟨f, mem', own⟩) mem

theorem apart (safe : v.Safe image (f :: rest) lost) :
    f.owned.Disjoint (rest.flatMap LiveFile.owned) := by
  have nodup := safe.nodup
  rw [List.flatMap_cons, List.nodup_append'] at nodup
  exact nodup.2.2

/-- The other files do not see what is written to the sector of an inode. -/
theorem update_kept (safe : v.Safe image (f :: rest) lost) (b : Block 512) :
    ∀ t ∈ rest.flatMap LiveFile.owned, Function.update image f.sector.index b t = image t := by
  intro t mem
  refine Function.update_of_ne (fun here : t = f.sector.index => ?_) _ _
  exact safe.apart List.mem_cons_self (here ▸ mem)

/-- No other file has the sector of a file. -/
theorem sector_ne (safe : v.Safe image (f :: rest) lost) : ∀ g ∈ rest, g.sector ≠ f.sector :=
  sector_ne_of_not_mem fun mem => safe.apart List.mem_cons_self mem

theorem disk_of_disks (safe : v.Safe image (f :: rest) lost)
    (open_now : v.disks f.sector = some d) : f.disk = d := by
  obtain ⟨g, mem, same, disk⟩ := safe.loaded open_now
  rcases List.mem_cons.1 mem with rfl | mem
  · exact disk
  · exact absurd same (safe.sector_ne g mem)

theorem disk_of_find? (safe : v.Safe image (f :: rest) lost) {node : LoadedInode}
    (found : v.find? f.sector = some node) : node.disk = f.disk :=
  (safe.disk_of_disks (disks_of_find? found)).symm

/-- The file of an open inode is as it is in memory. -/
theorem disks_of_status {st : Status} (safe : v.Safe image (f :: rest) lost)
    (open_now : v.status f.sector = some st) : v.disks f.sector = some f.disk := by
  obtain ⟨node, loaded, -⟩ := exists_of_status open_now
  rw [disks_of_find? loaded, safe.disk_of_find? loaded]

/-- A file that is not open is as it is stored. -/
theorem opens_of_closed (safe : v.Safe image files lost) (mem : f ∈ files)
    (closed : v.find? f.sector = none) : f.Opens m image := by
  refine (safe.each f mem).opens (safe.closed f mem ?_)
  rw [disks, closed, Option.map_none]

theorem openAt_spec {Q : Except Failure Handle → Volume m → Image → Prop}
    (safe : v.Safe image (f :: rest) lost)
    (ok : ∀ v', v'.free = v.free → v'.disks = Function.update v.disks f.sector (some f.disk) →
      v'.status = Function.update v.status f.sector (some (.opened (v.status f.sector))) →
      Q (.ok { sector := f.sector }) v' image)
    (io : mayFail → v.find? f.sector = none → Q (.error .io) v image) :
    (openAt f.sector).Ensures m mayFail v image Q :=
  Volume.openAt_spec (safe.inside List.mem_cons_self) (safe.opens_of_closed List.mem_cons_self)
    (fun _ => safe.disk_of_find?) ok io

theorem reserved (safe : v.Safe image (f :: rest) lost) :
    0 = f.sector.index ∨ 0 ∈ rest.flatMap LiveFile.owned := by
  have zero := safe.zero
  rw [List.flatMap_cons, LiveFile.owned, List.cons_append, List.mem_cons, List.mem_append] at zero
  rcases zero with zero | zero | zero
  · exact .inl zero
  · exact absurd zero (safe.each f List.mem_cons_self).stored.nonzero
  · exact .inr zero

theorem marks_perm (f : LiveFile) (others : List Nat) :
    (f.sector.index :: others ++ f.layout.owned).Perm (f.owned ++ others) := by
  rw [LiveFile.owned, List.cons_append, List.cons_append]
  exact List.perm_append_comm.cons _

/-- The blocks of one file, among all that is in use. -/
theorem holds (safe : v.Safe image (f :: rest) lost) : (⟨f.disk, v.free⟩ : FileBlocks m).Holds
    image f.layout (f.sector.index :: (rest.flatMap LiveFile.owned ++ lost)) where
  stored := (safe.each f List.mem_cons_self).stored
  marks := by
    refine safe.marks.perm (List.Perm.trans ?_ (marks_perm f _).symm)
    rw [List.flatMap_cons, List.append_assoc]
  reserved := by
    rw [List.mem_cons, List.mem_append]
    exact safe.reserved.imp_right .inl

/-- The other files stay safe when only one file changes. -/
theorem replace (safe : v.Safe image (f :: rest) lost) (sector : f'.sector = f.sector)
    (changed : f'.Safe m image') (marks : v'.free.Marks
      (f'.sector.index :: (rest.flatMap LiveFile.owned ++ lost) ++ f'.layout.owned))
    (kept : ∀ s ∈ rest.flatMap LiveFile.owned, image' s = image s)
    (disks : v'.disks = Function.update v.disks f.sector (some f'.disk)) :
    v'.Safe image' (f' :: rest) lost where
  small := safe.small
  marks := by
    refine marks.perm ((marks_perm f' _).trans ?_)
    rw [List.flatMap_cons, List.append_assoc]
  each g mem := by
    rcases List.mem_cons.1 mem with rfl | mem
    · exact changed
    · exact (safe.each g (List.mem_cons_of_mem f mem)).congr (LiveFile.kept_owned mem kept)
  zero := by
    rw [List.flatMap_cons, LiveFile.owned, List.cons_append, List.mem_cons, List.mem_append, sector]
    exact safe.reserved.imp_right .inr
  loaded {s d} open_now := by
    rw [disks] at open_now
    rcases of_update_some open_now with ⟨rfl, rfl⟩ | ⟨other, open_now⟩
    · exact ⟨f', List.mem_cons_self, sector, rfl⟩
    · obtain ⟨g, mem, at_sector, disk⟩ := safe.loaded open_now
      rcases List.mem_cons.1 mem with rfl | mem
      · exact absurd at_sector.symm other
      · exact ⟨g, List.mem_cons_of_mem f' mem, at_sector, disk⟩
  closed g mem closed := by
    rw [disks] at closed
    rcases List.mem_cons.1 mem with rfl | mem
    · rw [sector, Function.update_self] at closed
      cases closed
    · rw [Function.update_of_ne (safe.sector_ne g mem)] at closed
      exact (safe.closed g (List.mem_cons_of_mem f mem) closed).kept mem kept

/-- Only what one file holds changes. -/
theorem touched (safe : v.Safe image (f :: rest) lost) (changed : f.Safe m image')
    (settled : f.Settled image → f.Settled image')
    (kept : ∀ s ∈ rest.flatMap LiveFile.owned, image' s = image s) :
    v.Safe image' (f :: rest) lost where
  small := safe.small
  marks := safe.marks
  each g mem := by
    rcases List.mem_cons.1 mem with rfl | mem
    · exact changed
    · exact (safe.each g (List.mem_cons_of_mem f mem)).congr (LiveFile.kept_owned mem kept)
  zero := safe.zero
  loaded := safe.loaded
  closed g mem closed := by
    have before := safe.closed g mem closed
    rcases List.mem_cons.1 mem with rfl | mem
    · exact settled before
    · exact before.kept mem kept

/-- What is open does not matter as long as it is one of the files. -/
theorem alike (safe : v.Safe image files lost) (alike : v.Alike v') :
    v'.Safe image files lost where
  small := safe.small
  marks := alike.free ▸ safe.marks
  each := safe.each
  zero := safe.zero
  loaded open_now := safe.loaded (alike.disks ▸ open_now)
  closed f mem closed := safe.closed f mem (alike.disks ▸ closed)

/-- One more of the files is open. -/
theorem opened (safe : v.Safe image files lost) (mem : f ∈ files) (free : v'.free = v.free)
    (disks : v'.disks = Function.update v.disks f.sector (some f.disk)) :
    v'.Safe image files lost where
  small := safe.small
  marks := free ▸ safe.marks
  each := safe.each
  zero := safe.zero
  loaded open_now := by
    rw [disks] at open_now
    rcases of_update_some open_now with ⟨rfl, rfl⟩ | ⟨-, open_now⟩
    · exact ⟨f, mem, rfl, rfl⟩
    · exact safe.loaded open_now
  closed g mem' closed := by
    refine safe.closed g mem' ?_
    rw [disks] at closed
    by_cases same : g.sector = f.sector
    · rw [same, Function.update_self] at closed
      cases closed
    · rwa [Function.update_of_ne same] at closed

/-- A file that is no longer open is as it is stored. What it had more in memory is lost. -/
theorem shut (safe : v.Safe image (f :: rest) lost) (free : v'.free = v.free)
    (disks : v'.disks = Function.update v.disks f.sector none) :
    ∃ (g : LiveFile) (more : List Nat), g.sector = f.sector ∧ g.owned ⊆ f.owned ∧
      g.Settled image ∧ (f.Settled image → g = f) ∧ v'.Safe image (g :: rest) (more ++ lost) := by
  obtain ⟨g, more, opens, ahead, same, settled⟩ :=
    (safe.each f List.mem_cons_self).settle
  have sector : g.sector = f.sector := ahead.sector.symm
  refine ⟨g, more, sector, ahead.owned_sublist.subset, opens.inode, fun now => (settled now).1, {
    small := safe.small
    marks := ?_
    each := ?_
    zero := ?_
    loaded := ?_
    closed := ?_ }⟩
  · rw [free]
    refine safe.marks.perm ?_
    rw [List.flatMap_cons, List.flatMap_cons, List.append_assoc, List.append_assoc]
    refine (same.append_right _).trans ?_
    rw [List.append_assoc]
    exact (List.perm_append_comm_assoc _ _ _).append_left _
  · intro h mem
    rcases List.mem_cons.1 mem with rfl | mem
    · exact .of_opens opens
    · exact safe.each h (List.mem_cons_of_mem f mem)
  · rw [List.flatMap_cons, LiveFile.owned, List.cons_append, List.mem_cons, List.mem_append, sector]
    exact safe.reserved.imp_right .inr
  · intro s d open_now
    rw [disks] at open_now
    obtain ⟨other, open_now⟩ := of_update_none open_now
    obtain ⟨h, mem, at_sector, disk⟩ := safe.loaded open_now
    rcases List.mem_cons.1 mem with rfl | mem
    · exact absurd at_sector.symm other
    · exact ⟨h, List.mem_cons_of_mem g mem, at_sector, disk⟩
  · intro h mem closed
    rcases List.mem_cons.1 mem with rfl | mem
    · exact opens.inode
    · rw [disks, Function.update_of_ne (safe.sector_ne h mem)] at closed
      exact safe.closed h (List.mem_cons_of_mem f mem) closed

/-- Where nothing is open any more every file is as it is stored, and what they had more in memory
is lost. -/
theorem shut_all (safe : v.Safe image files lost) :
    ∃ (stored : LiveFile → LiveFile) (more : List Nat),
      (∀ f ∈ files, (stored f).sector = f.sector ∧ (stored f).owned ⊆ f.owned ∧
        (f.Settled image → stored f = f)) ∧
      (⟨v.free, []⟩ : Volume m).Safe image (files.map stored) (more ++ lost) := by
  have settle (f : LiveFile) : ∃ (g : LiveFile) (more : List Nat), f ∈ files → g.Opens m image ∧
      g.Extends f ∧ f.owned.Perm (g.owned ++ more) ∧ (f.Settled image → g = f ∧ more = []) := by
    by_cases mem : f ∈ files
    · obtain ⟨g, more, settles⟩ := (safe.each f mem).settle
      exact ⟨g, more, fun _ => settles⟩
    · exact ⟨f, [], fun here => absurd here mem⟩
  choose stored more settles using settle
  have opens : ∀ g ∈ files.map stored, g.Opens m image :=
    List.forall_mem_map.2 fun f mem => (settles f mem).1
  have sector (f : LiveFile) (mem : f ∈ files) : (stored f).sector = f.sector :=
    (settles f mem).2.1.sector.symm
  have same : (files.flatMap LiveFile.owned).Perm
      ((files.map stored).flatMap LiveFile.owned ++ files.flatMap more) := by
    rw [List.flatMap_map]
    exact (List.Perm.flatMap_left files fun f mem => (settles f mem).2.2.1).trans
      (List.flatMap_append_perm files _ _).symm
  refine ⟨stored, files.flatMap more, fun f mem => ⟨sector f mem,
    (settles f mem).2.1.owned_sublist.subset, fun now => ((settles f mem).2.2.2 now).1⟩, {
      small := safe.small
      marks := ?_
      each := fun g mem => .of_opens (opens g mem)
      zero := ?_
      loaded := fun open_now => by cases open_now
      closed := fun g mem _ => (opens g mem).inode }⟩
  · rw [← List.append_assoc]
    exact safe.marks.perm (same.append_right lost)
  · obtain ⟨f, mem, own⟩ := List.mem_flatMap.1 safe.zero
    refine List.mem_flatMap.2 ⟨stored f, List.mem_map_of_mem mem, ?_⟩
    rcases List.mem_cons.1 own with zero | zero
    · rw [zero, ← sector f mem]
      exact List.mem_cons_self
    · exact absurd zero (safe.each f mem).stored.nonzero

/-- A volume with a file more. -/
theorem cons (safe : v.Safe image files lost) {free : FreeMap m} (new : f.Opens m image')
    (fresh : ∀ g ∈ files, g.sector ≠ f.sector)
    (marks : free.Marks
      (f.sector.index :: (files.flatMap LiveFile.owned ++ lost) ++ f.layout.owned))
    (kept : ∀ t ∈ files.flatMap LiveFile.owned, image' t = image t) :
    ({ v with free } : Volume m).Safe image' (f :: files) lost where
  small := safe.small
  marks := by
    refine marks.perm ((marks_perm f _).trans ?_)
    rw [List.flatMap_cons, List.append_assoc]
  each g mem := by
    rcases List.mem_cons.1 mem with rfl | mem
    · exact .of_opens new
    · exact (safe.each g mem).congr (LiveFile.kept_owned mem kept)
  zero := by
    rw [List.flatMap_cons]
    exact List.mem_append_right _ safe.zero
  loaded open_now := by
    obtain ⟨g, mem, same⟩ := safe.loaded open_now
    exact ⟨g, List.mem_cons_of_mem f mem, same⟩
  closed g mem closed := by
    rcases List.mem_cons.1 mem with rfl | mem
    · exact new.inode
    · exact (safe.closed g mem closed).kept mem kept

/-- More sectors are in use that belong to nothing. -/
theorem leak (safe : v.Safe image files lost) {free : FreeMap m} {more : List Nat}
    (marks : free.Marks (files.flatMap LiveFile.owned ++ lost ++ more))
    (kept : ∀ t ∈ files.flatMap LiveFile.owned, image' t = image t) :
    ({ v with free } : Volume m).Safe image' files (lost ++ more) where
  small := safe.small
  marks := by rwa [← List.append_assoc]
  each g mem := (safe.each g mem).congr (LiveFile.kept_owned mem kept)
  zero := safe.zero
  loaded := safe.loaded
  closed g mem closed := (safe.closed g mem closed).kept mem kept

/-- A volume with a file less, whose sectors are free again or lost. -/
theorem tail (safe : v.Safe image (f :: rest) lost)
    (marks : v'.free.Marks (rest.flatMap LiveFile.owned ++ lost'))
    (kept : ∀ t ∈ rest.flatMap LiveFile.owned, image' t = image t)
    (zero : 0 ∈ rest.flatMap LiveFile.owned)
    (disks : v'.disks = Function.update v.disks f.sector none) : v'.Safe image' rest lost' where
  small := safe.small
  marks := marks
  each g mem := (safe.each g (List.mem_cons_of_mem f mem)).congr (LiveFile.kept_owned mem kept)
  zero := zero
  loaded open_now := by
    rw [disks] at open_now
    obtain ⟨other, open_now⟩ := of_update_none open_now
    obtain ⟨g, mem, at_sector, disk⟩ := safe.loaded open_now
    rcases List.mem_cons.1 mem with rfl | mem
    · exact absurd at_sector.symm other
    · exact ⟨g, mem, at_sector, disk⟩
  closed g mem closed := by
    rw [disks, Function.update_of_ne (safe.sector_ne g mem)] at closed
    exact (safe.closed g (List.mem_cons_of_mem f mem) closed).kept mem kept

end Safe

end Volume

end SectorFs
