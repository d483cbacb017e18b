/-
# SectorFs.Proofs.File.Undone — what fails leaves a file as it was, to the bit

That a file keeps its layout says nothing of the bits beyond the last sector of the
free map. No operation on blocks touches them (`Padded`), and so a file that keeps
its layout, and the words of its inode that do not say where its blocks are, is
the same record with the same free map (`Holds.unique`).

An append that fails has changed neither (`append_undone`). Nor has a growth that
fails although no request failed: the blocks that had been added are all taken away
again (`growTo_undone`).
-/
import SectorFs.Proofs.Store.Contract
import SectorFs.Proofs.File.Grow

namespace SectorFs

set_option autoImplicit false

variable {m : Nat} {mayFail : Prop} {image image' : Image} {l l' : Layout} {others : List Nat}

namespace Inode

variable {σ : Type} {P : σ → Prop}

theorem readPointer_keeps (t : Sector) (i : Fin 128) : (readPointer t i : Action σ _).Keeps P :=
  (Action.keeps_readIndex t).bind fun _ => Action.keeps_pure _

theorem writePointer_keeps (t : Sector) (i : Fin 128) (s : Sector) :
    (writePointer t i s : Action σ _).Keeps P :=
  (Action.keeps_readIndex t).bind fun _ => Action.keeps_request _

end Inode

namespace FileBlocks

variable {b b' : FileBlocks m}

/-! ## The bits beyond the last sector -/

/-- The free map has the given bits beyond the last sector. -/
def Padded (p : Nat → Option Bool) (b : FileBlocks m) : Prop := b.free.padding = p

variable {p : Nat → Option Bool}

theorem take_keeps (count : Nat) : (take count : BlockAction m _).Keeps (Padded p) := by
  intro b padded
  simp only [take, Action.under_bind, Action.under_get, Action.then_ok]
  cases taken : b.free.allocate count with
  | error v => trivial
  | ok after => exact (FreeMap.padding_allocate taken).trans padded

theorem takeIf_keeps (needed : Bool) : (takeIf needed : BlockAction m _).Keeps (Padded p) := by
  cases needed with
  | false => exact Action.keeps_pure none
  | true => exact take_keeps 1

theorem give_keeps (s : Sector) (count : Nat) :
    (give s count : BlockAction m _).Keeps (Padded p) := by
  intro b padded
  simp only [give, Action.under_bind, Action.under_get, Action.then_ok]
  cases given : b.free.release s count with
  | error v => trivial
  | ok free => exact (FreeMap.padding_release given).trans padded

theorem setDisk_keeps (disk : Except Violation Inode) :
    (setDisk disk : BlockAction m _).Keeps (Padded p) :=
  (Action.keeps_check disk).bind fun _ => Action.keeps_modify fun _ padded => padded

theorem giveBack_keeps (r : NewSectors) : (r.giveBack : BlockAction m _).Keeps (Padded p) := by
  refine (Action.keeps_forM _ fun s => give_keeps s 1).bind fun _ => ?_
  cases r.group with
  | none => exact Action.keeps_pure ()
  | some group => exact give_keeps group groupSize

theorem nextSector_keeps (d : Inode) : (nextSector d : BlockAction m _).Keeps (Padded p) := by
  rw [nextSector]
  split
  · refine (take_keeps groupSize).bind fun group => ?_
    cases group with
    | none => exact Action.keeps_throw _
    | some group => exact Action.keeps_pure _
  · cases d.cursor with
    | none => exact Action.keeps_check _
    | some next => exact Action.keeps_pure _

theorem link_keeps (d : Inode) (place : Place) (data : Sector) (r : NewSectors) :
    (link d place data r : BlockAction m _).Keeps (Padded p) := by
  refine (Action.keeps_request _).bind fun _ =>
    (Action.keeps_forM _ fun s => Action.keeps_request _).bind fun _ => ?_
  cases place with
  | direct i => exact Action.keeps_pure ()
  | indirect i =>
    dsimp only
    cases r.indirect <|> d.pointer indirectPointer with
    | none => exact Action.keeps_check _
    | some indirect => exact Inode.writePointer_keeps indirect i data
  | doubly outer inner =>
    dsimp only
    cases r.doubly <|> d.pointer doublyPointer with
    | none => exact Action.keeps_check _
    | some doubly =>
      cases r.indirect with
      | some indirect =>
        exact (Inode.writePointer_keeps doubly outer indirect).bind fun _ =>
          Inode.writePointer_keeps indirect inner data
      | none =>
        refine (Inode.readPointer_keeps doubly outer).bind fun indirect => ?_
        cases indirect with
        | none => exact Action.keeps_check _
        | some indirect => exact Inode.writePointer_keeps indirect inner data

theorem append_keeps : (append : BlockAction m _).Keeps (Padded p) := by
  refine Action.keeps_get.bind fun b => ?_
  dsimp only
  split
  · exact Action.keeps_throw _
  · refine (nextSector_keeps b.disk).bind fun next => (takeIf_keeps _).bind fun indirect =>
      (takeIf_keeps _).bind fun doubly => Action.Keeps.bind ?_ fun _ => setDisk_keeps _
    exact ((Action.keeps_ensure _ _).bind fun _ => link_keeps _ _ _ _).onFailure (giveBack_keeps _)

theorem lastSector_keeps (d : Inode) (block : Nat) (place : Place) :
    (lastSector d block place : BlockAction m _).Keeps (Padded p) := by
  cases place with
  | direct i => exact Action.keeps_pure _
  | indirect i =>
    dsimp only [lastSector]
    cases d.pointer indirectPointer with
    | none => exact Action.keeps_check _
    | some indirect =>
      exact (Inode.readPointer_keeps indirect i).bind fun _ => Action.keeps_pure _
  | doubly outer inner =>
    dsimp only [lastSector]
    cases d.pointer doublyPointer with
    | none => exact Action.keeps_check _
    | some doubly =>
      refine (Inode.readPointer_keeps doubly outer).bind fun indirect => ?_
      cases indirect with
      | none => exact Action.keeps_check _
      | some indirect =>
        exact (Inode.readPointer_keeps indirect inner).bind fun _ => Action.keeps_pure _

theorem regroup_keeps (d : Inode) (data : Sector) :
    (regroup d data : BlockAction m _).Keeps (Padded p) := by
  refine (Action.keeps_check _).bind fun _ => ?_
  split
  · exact (give_keeps data groupSize).bind fun _ =>
      (Action.keeps_check _).bind fun _ => Action.keeps_pure _
  · exact (Action.keeps_check _).bind fun _ => Action.keeps_pure _

theorem giveIndex_keeps (d : Inode) (emptied : Option (Fin 15) × Sector) :
    (giveIndex d emptied : BlockAction m _).Keeps (Padded p) := by
  refine (give_keeps _ 1).bind fun _ => ?_
  cases emptied.1 <;> exact Action.keeps_pure _

theorem pop_keeps : (pop : BlockAction m _).Keeps (Padded p) := by
  refine Action.keeps_get.bind fun b => (Action.keeps_check _).bind fun _ => ?_
  split
  · exact Action.keeps_check _
  · refine Action.Keeps.bind (lastSector_keeps _ _ _) ?_
    rintro ⟨data, emptied⟩
    cases data with
    | none => exact Action.keeps_check _
    | some data =>
      exact (regroup_keeps _ data).bind fun d =>
        (Action.keeps_foldlM emptied giveIndex_keeps d).bind fun _ => setDisk_keeps _

theorem appendMany_keeps (count : Nat) : (appendMany count : BlockAction m _).Keeps (Padded p) := by
  induction count with
  | zero => exact Action.keeps_pure ()
  | succ count ih => exact append_keeps.bind fun _ => ih

theorem popMany_keeps (count : Nat) : (popMany count : BlockAction m _).Keeps (Padded p) := by
  induction count with
  | zero => exact Action.keeps_pure ()
  | succ count ih => exact pop_keeps.bind fun _ => ih

theorem trimTo_keeps (n : Nat) : (trimTo n : BlockAction m _).Keeps (Padded p) :=
  Action.keeps_get.bind fun _ => popMany_keeps _

theorem growTo_keeps (length : Nat) : (growTo length : BlockAction m _).Keeps (Padded p) := by
  refine (Action.keeps_ensure _ _).bind fun _ => Action.keeps_get.bind fun b => ?_
  refine ((appendMany_keeps _).onFailure (trimTo_keeps _).ignoreError).bind fun _ => ?_
  exact Action.keeps_get.bind fun _ => setDisk_keeps _

theorem dissolve_keeps : (dissolve : BlockAction m _).Keeps (Padded p) :=
  (trimTo_keeps 0).bind fun _ => Action.keeps_get.bind fun _ => setDisk_keeps _

/-! ## Files that are as they were -/

/-- The layout of a file, the other words of its inode and the bits beyond the last sector leave
no choice. -/
theorem Holds.unique (holds : b.Holds image l others) (holds' : b'.Holds image' l others)
    (bare : b'.disk.bare = b.disk.bare) (padded : Padded b.free.padding b') : b' = b := by
  have disk : b'.disk = b.disk :=
    holds.stored.describes.unique holds'.stored.describes bare
  have free : b'.free = b.free := holds.marks.unique holds'.marks padded
  cases b
  cases b'
  cases disk
  cases free
  rfl

theorem append_cases (holds : b.Holds image l others) :
    (append : BlockAction m _).Ensures m mayFail b image fun r b' image' =>
      match r with
      | .ok () => ∃ l', Appended b b' image image' l l' others
      | .error e => (e = .io → mayFail) ∧ Unchanged b b' image image' l others :=
  append_spec holds (fun _ _ l' appended => ⟨l', appended⟩)
    fun _ _ _ io unchanged => ⟨io, unchanged⟩

/-- An append that fails leaves inode and free map as they were. -/
theorem append_undone {Q : Except Failure Unit → FileBlocks m → Image → Prop}
    (holds : b.Holds image l others)
    (ok : ∀ b' image' l', Appended b b' image image' l l' others → Q (.ok ()) b' image')
    (error : ∀ e image', (e = .io → mayFail) → b.Holds image' l others →
      Kept others l image image' → Q (.error e) b image') :
    (append : BlockAction m _).Ensures m mayFail b image Q := by
  refine ((append_cases holds).keeping append_keeps (P := Padded b.free.padding) rfl).mono ?_
  rintro (e | u) b' image' ⟨ends, padded⟩
  · obtain ⟨io, unchanged⟩ := ends
    have same := holds.unique unchanged.holds (congrArg Inode.bare unchanged.disk) padded
    subst same
    exact error e image' io unchanged.holds unchanged.kept
  · obtain ⟨l', appended⟩ := ends
    exact ok b' image' l' appended

/-- A growth that fails although no request failed leaves inode and free map as they were. -/
theorem growTo_undone {length : Nat} (holds : b.Holds image l others) :
    (growTo length : BlockAction m _).Ensures m False b image fun r b' image' =>
      match r with
      | .ok () => length ≤ maxFileBytes ∧ ∃ l', Grown b b' image image' l l' others length
      | .error e => e ≠ .io ∧ b' = b ∧ b.Holds image' l others ∧ Kept others l image image' := by
  have spec : (growTo length : BlockAction m _).Ensures m False b image fun r b' image' =>
      match r with
      | .ok () => length ≤ maxFileBytes ∧ ∃ l', Grown b b' image image' l l' others length
      | .error e => e ≠ .io ∧ Extended b b' image image' l l others := by
    refine growTo_spec holds (fun b' image' l' fits grown => ⟨fits, l', grown⟩) ?_
    intro e b' image' l' io same extended
    obtain rfl := same (.inl id)
    exact ⟨fun is_io => io is_io, extended⟩
  refine (spec.keeping (growTo_keeps length) (P := Padded b.free.padding) rfl).mono ?_
  rintro (e | u) b' image' ⟨ends, padded⟩
  · obtain ⟨io, extended⟩ := ends
    have same := holds.unique extended.holds extended.bare padded
    subst same
    exact ⟨io, rfl, extended.holds, extended.kept⟩
  · exact ends

end FileBlocks

end SectorFs
