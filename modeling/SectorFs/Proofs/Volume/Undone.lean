/-
# SectorFs.Proofs.Volume.Undone — what fails leaves a volume as it was

A create that fails frees no sector and touches none that is in use (`create_undone`). If it leaves
none behind either, the free map is the same in all its bits. It leaves some behind only if a
request failed while the new file had index blocks.

A write that fails although no request failed has taken back all that it added to its file
(`write_undone`): the free map and all open inodes are the same, and of the sectors in use only
index blocks can have been written, in entries that stand for no block.
-/
import SectorFs.Proofs.File.Undone
import SectorFs.Proofs.Volume.Faults
import SectorFs.Proofs.Volume.Table

namespace SectorFs

set_option autoImplicit false

variable {m : Nat} {mayFail : Prop} {image : Image} {v : Volume m} {f : LiveFile}
  {rest : List LiveFile} {lost others : List Nat} {p : Nat → Option Bool}

namespace Volume

/-! ## The bits beyond the last sector -/

/-- The free map has the given bits beyond the last sector. -/
def Padded (p : Nat → Option Bool) (v : Volume m) : Prop := v.free.padding = p

theorem padded_take (count : Nat) : (take count : VolumeAction m _).Keeps (Padded p) := by
  intro v padded
  simp only [take, Action.under_bind, Action.under_get, Action.then_ok]
  cases taken : v.free.allocate count with
  | error violation => trivial
  | ok after => exact (FreeMap.padding_allocate taken).trans padded

theorem padded_give (s : Sector) (count : Nat) :
    (give s count : VolumeAction m _).Keeps (Padded p) := by
  intro v padded
  simp only [give, Action.under_bind, Action.under_get, Action.then_ok]
  cases given : v.free.release s count with
  | error violation => trivial
  | ok free => exact (FreeMap.padding_release given).trans padded

theorem padded_onBlocks {α : Type} {x : BlockAction m α} (disk : Inode)
    (keeps : x.Keeps (FileBlocks.Padded p)) : (onBlocks disk x).Keeps (Padded p) := by
  intro v padded
  refine under_onBlocks ((keeps ⟨disk, v.free⟩ padded).mono ?_)
  rintro r b _ padded'
  exact padded'

theorem padded_createAt (s : Sector) (length : Nat) (isDirectory : Bool) (parent : Sector) :
    (createAt s length isDirectory parent : VolumeAction m _).Keeps (Padded p) := by
  refine (Action.keeps_ensure _ _).bind fun _ =>
    (padded_onBlocks _ (FileBlocks.growTo_keeps length)).bind ?_
  rintro ⟨result, disk⟩
  exact (Action.keeps_liftExcept _).bind fun _ => (Action.keeps_request _).onFailure
    ((padded_onBlocks _ FileBlocks.dissolve_keeps).map _)

theorem padded_create (length : Nat) (isDirectory : Bool) (parent : Sector) :
    (create length isDirectory parent : VolumeAction m _).Keeps (Padded p) := by
  refine (padded_take 1).bind fun found => ?_
  split
  · exact ((padded_createAt _ _ _ _).onFailure (padded_give _ 1)).bind fun _ => Action.keeps_pure _
  · exact Action.keeps_throw _

/-! ## What fails -/

/-- A create that fails leaves the sectors in use as they were, and leaves none behind unless a
request fails while the new file has index blocks. -/
theorem create_undone {length : Nat} {isDirectory : Bool} {parent : Sector}
    (small : m ≤ 0x100000000) (marks : v.free.Marks others) (reserved : 0 ∈ others) :
    (create length isDirectory parent).Ensures m mayFail v image fun r v' image' =>
      v'.inodes = v.inodes ∧ ∀ e, r = .error e →
        (∃ leaked, v'.free.Marks (others ++ leaked)) ∧ (∀ t ∈ others, image' t = image t) ∧
          (¬ mayFail ∨ sectorsFor length ≤ 12 → v'.free = v.free) := by
  have spec : (create length isDirectory parent).Ensures m mayFail v image fun r v' image' =>
      v'.inodes = v.inodes ∧ ∀ e, r = .error e → ∃ leaked,
        (¬ mayFail ∨ sectorsFor length ≤ 12 → leaked = []) ∧ v'.free.Marks (others ++ leaked) ∧
          ∀ t ∈ others, image' t = image t :=
    create_spec small marks reserved (fun _ _ _ _ _ _ _ _ => ⟨rfl, nofun⟩)
      fun _ _ _ leaked none marks' kept => ⟨rfl, fun _ _ => ⟨leaked, none, marks', kept⟩⟩
  refine (spec.keeping (padded_create length isDirectory parent)
    (P := Padded v.free.padding) rfl).mono ?_
  rintro r v' image' ⟨⟨inodes, failed⟩, padded⟩
  refine ⟨inodes, fun e same => ?_⟩
  obtain ⟨leaked, none, marks', kept⟩ := failed e same
  refine ⟨⟨leaked, marks'⟩, kept, fun exact => ?_⟩
  rw [none exact, List.append_nil] at marks'
  exact marks.unique marks' padded

/-- A file in memory that fails to grow although no request failed leaves the volume as it was, and
the inodes and blocks of all files. -/
theorem grow_undone {Q : Except Failure Inode → Volume m → Image → Prop} {node : LoadedInode}
    {length : Nat} (safe : v.Safe image (f :: rest) lost) (found : v.find? f.sector = some node)
    (ok : ∀ v' image' (f' : LiveFile), f'.Mapped m image' → length ≤ f'.disk.length →
      Q (.ok f'.disk) v' image')
    (error : ∀ e v' image', e ≠ .io → v'.free = v.free → v'.find? = v.find? → f.Mapped m image' →
      Kept (f.sector.index :: (rest.flatMap LiveFile.owned ++ lost)) f.layout image image' →
      Q (.error e) v' image') :
    (grow node length).Ensures m False v image Q := by
  have file := safe.each f List.mem_cons_self
  have disk := safe.disk_of_find? found
  have sector := sector_of_find? found
  rw [grow, Action.ensures_bind, disk]
  refine onBlocks_spec ((FileBlocks.growTo_undone safe.holds).mono ?_)
  rintro (e | u) b' image' ends
  · obtain ⟨other, rfl, holds, kept⟩ := ends
    have same : ({ v with free := v.free } : Volume m).put { node with disk := f.disk } =
        v.put node := by rw [← disk]
    simp only [Action.onward_ok, Action.ensures_bind, Action.ensures_modify,
      Action.ensures_liftExcept, Action.onward_error, same]
    refine error e _ image' other rfl ?_ ⟨holds.stored, file.long⟩ kept
    rw [find?_put_self found node rfl, ← found, Function.update_eq_self]
  · obtain ⟨fits, l', grown⟩ := ends
    have mapped := grown.mapped fits f.sector file.long
    have nodup := List.nodup_append'.1 grown.holds.marks.nodup
    have length_eq := grown.length_eq fits
    simp only [Action.onward_ok, Action.ensures_bind, Action.ensures_modify,
      Action.ensures_liftExcept, Action.ensures_writeInode, Action.ensures_pure, sector]
    refine ⟨safe.inside List.mem_cons_self, ok _ _ ⟨f.sector, b'.disk, l'⟩ ?_ ?_, False.elim⟩
    · exact mapped.congr fun t mem => Function.update_of_ne
        (fun here : t = f.sector.index => nodup.2.2 List.mem_cons_self (here ▸ mem)) _ _
    · dsimp only
      omega

/-- A write that fails although no request failed has not grown its file. -/
theorem write_undone {h : Handle} {node : LoadedInode} {off : Nat} {data : List UInt8}
    (safe : v.Safe image (f :: rest) lost) (at_sector : h.sector = f.sector)
    (found : v.find? f.sector = some node) :
    (writeBytes h off data).Ensures m False v image fun r v' image' => ∀ e, r = .error e →
      e ≠ .io ∧ v'.free = v.free ∧ v'.find? = v.find? ∧ f.Mapped m image' ∧
        Kept (f.sector.index :: (rest.flatMap LiveFile.owned ++ lost)) f.layout image image' := by
  have file := safe.each f List.mem_cons_self
  have disk := safe.disk_of_find? found
  have found' : v.find? h.sector = some node := by rwa [at_sector]
  rw [writeBytes, Action.ensures_bind]
  refine node_spec found' ?_
  rw [Action.onward_ok]
  split
  case isTrue => rintro _ ⟨⟩
  case isFalse works =>
    have some_data := List.length_pos_iff.2 (not_or.1 works).2
    rw [Action.ensures_bind, reach, disk]
    by_cases short : f.disk.length < off + data.length
    · rw [if_pos short]
      refine grow_undone safe found (fun v' image' f' mapped long => ?_)
        fun e v' image' other free same mapped kept => ?_
      · rw [Action.onward_ok, Action.ensures_bind]
        refine writeChunks_spec mapped.stored some_data long mapped.long (fun _ _ => ?_) False.elim
        rintro _ ⟨⟩
      · rintro _ ⟨⟩
        exact ⟨other, free, same, mapped, kept⟩
    · rw [if_neg short, Action.ensures_pure, Action.onward_ok, Action.ensures_bind]
      refine writeChunks_spec file.stored some_data (Nat.le_of_not_lt short) file.long
        (fun _ _ => ?_) False.elim
      rintro _ ⟨⟩

end Volume

end SectorFs
