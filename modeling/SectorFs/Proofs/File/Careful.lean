/-
# SectorFs.Proofs.File.Careful — files are followed only into what was written

`Layout.Within written`: the blocks and the index blocks of a file were written,
all of them. Then looking a block up and taking blocks away reads nothing else
and writes nothing (`sectorOfBlock_quiet`, `trimTo_quiet`). A block that is added
is cleared, and so are the index blocks that are taken for it, before a pointer
leads to them; so the longer file is written as a whole, too (`append_careful`,
`growTo_careful`).
-/
import SectorFs.Proofs.Store.Careful
import SectorFs.Proofs.File.Grow

namespace SectorFs

set_option autoImplicit false

variable {m n : Nat} {σ : Type} {memory : σ} {image : Image} {written written' : Set Nat}
  {l : Layout} {d : Inode} {others : List Nat}

/-- All blocks and index blocks of a file were written. -/
structure Layout.Within (l : Layout) (written : Set Nat) : Prop where
  block {i : Nat} : i < l.count → l.block i ∈ written
  index {t : Nat} : t ∈ l.index → t ∈ written

namespace Layout

open FileBlocks (NewSectors)

theorem within_nothing (written : Set Nat) : nothing.Within written :=
  ⟨fun inside => absurd inside (Nat.not_lt_zero _), fun mem => by cases mem⟩

namespace Within

variable (within : l.Within written)
include within

theorem mono (more : written ⊆ written') : l.Within written' :=
  ⟨fun inside => more (within.block inside), fun mem => more (within.index mem)⟩

theorem trim (le : n ≤ l.count) : (l.trim n).Within written where
  block {i} inside := by
    change i < n at inside
    rw [block_trim inside]
    exact within.block (Nat.lt_of_lt_of_le inside le)
  index {t} mem := by
    refine within.index (mem_index.2 ?_)
    rcases mem_index.1 mem with one | two | ⟨j, inner⟩
    · simp only [Layout.trim, Option.ite_none_right_eq_some] at one
      exact .inl one.2
    · simp only [Layout.trim, Option.ite_none_right_eq_some] at two
      exact .inr (.inl two.2)
    · simp only [Layout.trim, List.getElem?_take, Option.ite_none_right_eq_some] at inner
      exact .inr (.inr ⟨j, inner.2⟩)

theorem push {r : NewSectors} (whole : l.Whole) (suits : r.Suits l)
    (data : (l.push r).block l.count ∈ written)
    (index : ∀ s ∈ r.indexBlocks, s.index ∈ written) : (l.push r).Within written where
  block {i} inside := by
    change i < l.count + 1 at inside
    by_cases old : i < l.count
    · rw [block_push whole old]
      exact within.block old
    · obtain rfl : i = l.count := by omega
      exact data
  index mem := by
    rcases List.mem_append.1 ((index_push whole suits).mem_iff.1 mem) with new | old
    · obtain ⟨s, taken, rfl⟩ := List.mem_map.1 new
      exact index s taken
    · exact within.index old

end Within

end Layout

/-! ## Looking blocks up -/

section

variable (stored : l.Stored m d image) (within : l.Within written)

theorem readPointer_quiet {t : Sector} (known : t.index ∈ written) (j : Fin 128) :
    (Inode.readPointer t j : Action σ _).Quiet memory ⟨image, written⟩ := by
  simp only [Action.Quiet, Inode.readPointer, Action.under_bind, Action.under_readIndex,
    Action.then_ok, Action.then_error, Action.under_pure]
  exact ⟨known, trivial, trivial⟩

include stored within

theorem readIndexed_quiet {t : Nat} (mem : t ∈ l.index) (j : Fin 128) :
    (Inode.readPointer (Sector.ofNat t) j : Action σ _).Quiet memory ⟨image, written⟩ := by
  refine readPointer_quiet ?_ j
  rw [stored.index_ofNat (Layout.index_mem_owned mem)]
  exact within.index mem

/-- From the doubly-indirect block on, everything on the way to a block was written. -/
theorem followDoubly_quiet {α : Type} {o j : Fin 128} {s : Nat}
    (inside : 140 + 128 * o.val + j.val < l.count) (named : l.doubly = some s)
    {f : Option Sector → Action σ α} (onward : ∀ t, t ∈ l.index →
      (f (some (Sector.ofNat t))).Quiet memory ⟨image, written⟩) :
    (Inode.readPointer (Sector.ofNat s) o >>= f).Quiet memory ⟨image, written⟩ := by
  obtain ⟨s', t, named', inner⟩ := stored.inner_of_block inside
  obtain rfl : s = s' := Option.some.inj (named.symm.trans named')
  have mem := Layout.mem_index.2 (.inr (.inr ⟨_, inner⟩))
  have outer := Layout.mem_index.2 (.inr (.inl named))
  rw [Action.Quiet, Action.under_bind]
  exact (readIndexed_quiet stored within outer o).careful (readPointer_spec stored outer
    (Layout.index_mem_owned mem) (stored.indexed.doubly named inner) (onward t mem) fun _ => rfl)

theorem sectorOfBlock_quiet (i : Nat) :
    (d.sectorOfBlock i : Action σ _).Quiet memory ⟨image, written⟩ := by
  unfold Inode.sectorOfBlock
  rw [stored.describes.blockCount stored.whole]
  split
  case isTrue => exact Action.quiet_pure _
  case isFalse inside =>
    cases found : Place.of i with
    | none => exact Action.quiet_pure _
    | some place =>
      have here := Place.of_eq found
      cases place with
      | direct j => exact Action.quiet_pure _
      | indirect j =>
        obtain rfl : i = 12 + j.val := here
        obtain ⟨t, named⟩ := stored.indirect_of_block (Nat.lt_of_not_le inside)
        simp only [stored.describes.indirect stored.proper, named, Option.map_some]
        exact readIndexed_quiet stored within (Layout.mem_index.2 (.inl named)) j
      | doubly o j =>
        obtain rfl : i = 140 + 128 * o.val + j.val := here
        obtain ⟨s, -, named, -⟩ := stored.inner_of_block (Nat.lt_of_not_le inside)
        simp only [stored.describes.doubly stored.proper, named, Option.map_some]
        exact followDoubly_quiet stored within (Nat.lt_of_not_le inside) named fun t mem =>
          readIndexed_quiet stored within mem j

theorem sectorOfByte_quiet (off : Nat) :
    (d.sectorOfByte off : Action σ _).Quiet memory ⟨image, written⟩ := by
  unfold Inode.sectorOfByte
  split
  · exact Action.quiet_pure _
  · exact sectorOfBlock_quiet stored within _

end

/-! ## Sectors from and to the free map -/

namespace FileBlocks

open Layout

variable {b : FileBlocks m} {r : NewSectors}

theorem take_silent (count : Nat) : (take count : BlockAction m _).Silent :=
  Action.silent_get.bind fun _ => (Action.silent_check _).bind fun taken =>
    (Action.silent_modify _).bind fun _ => Action.silent_pure taken.1

theorem takeIf_silent (needed : Bool) : (takeIf needed : BlockAction m _).Silent := by
  cases needed with
  | false => exact Action.silent_pure none
  | true => exact take_silent 1

theorem give_silent (s : Sector) (count : Nat) : (give s count : BlockAction m _).Silent :=
  Action.silent_get.bind fun _ => (Action.silent_check _).bind fun _ => Action.silent_modify _

theorem setDisk_silent (disk : Except Violation Inode) : (setDisk disk : BlockAction m _).Silent :=
  (Action.silent_check disk).bind fun _ => Action.silent_modify _

theorem giveBack_silent (r : NewSectors) : (r.giveBack : BlockAction m _).Silent := by
  refine (Action.silent_forM _ fun s => give_silent s 1).bind fun _ => ?_
  split
  · exact Action.silent_pure ()
  · exact give_silent _ _

theorem nextSector_silent (d : Inode) : (nextSector d : BlockAction m _).Silent := by
  unfold nextSector
  split
  · refine (take_silent groupSize).bind fun group => ?_
    cases group with
    | none => exact Action.silent_throw _
    | some s => exact Action.silent_pure _
  · split
    · exact Action.silent_pure _
    · exact Action.silent_check _

theorem takeSectors_silent (d : Inode) (place : Place) :
    (takeSectors d place : BlockAction m _).Silent :=
  (nextSector_silent d).bind fun _ => (takeIf_silent _).bind fun _ =>
    (takeIf_silent _).bind fun _ => Action.silent_pure _

theorem regroup_silent (d : Inode) (data : Sector) : (regroup d data : BlockAction m _).Silent := by
  refine (Action.silent_check _).bind fun _ => ?_
  split
  · exact (give_silent _ _).bind fun _ => (Action.silent_check _).bind fun _ => Action.silent_pure _
  · exact (Action.silent_check _).bind fun _ => Action.silent_pure _

theorem giveIndex_silent (d : Inode) (emptied : Option (Fin 15) × Sector) :
    (giveIndex d emptied : BlockAction m _).Silent := by
  refine (give_silent _ _).bind fun _ => ?_
  split <;> exact Action.silent_pure _

theorem lengthen_silent (length : Nat) : (lengthen length : BlockAction m _).Silent :=
  Action.silent_get.bind fun _ => setDisk_silent _

/-! ## Adding a block -/

theorem writePointer_careful {Q : Except Failure Unit → FileBlocks m → Trail → Prop}
    {t s : Sector} {i : Fin 128} (known : t.index ∈ written)
    (ok : ∀ trail, written ⊆ trail.written → Q (.ok ()) b trail)
    (io : Q (.error .io) b ⟨image, written⟩) :
    (Inode.writePointer t i s : BlockAction m _).Under .careful b ⟨image, written⟩ Q := by
  simp only [Inode.writePointer, Action.under_bind, Action.under_readIndex, Action.then_ok,
    Action.then_error, Action.under_writeIndex]
  exact ⟨known, ⟨ok _ (Set.subset_insert _ written), io⟩, io⟩

/-- Index blocks that were cleared were written. -/
theorem clearIndex_careful {Q : Except Failure Unit → FileBlocks m → Trail → Prop}
    {blocks : List Sector} {P : Image → Prop} (start : P image)
    (step : ∀ image s x, s ∈ blocks → P image → P (Function.update image s.index x))
    (ok : ∀ image' written', P image' → written ⊆ written' →
      (∀ s ∈ blocks, s.index ∈ written') → Q (.ok ()) b ⟨image', written'⟩)
    (io : ∀ trail, Q (.error .io) b trail) :
    (blocks.forM fun s => Action.writeIndex s .zero : BlockAction m _).Under .careful b
      ⟨image, written⟩ Q := by
  induction blocks generalizing image written with
  | nil => exact ok image written start Set.Subset.rfl fun s mem => by cases mem
  | cons s blocks ih =>
    change (Action.writeIndex s .zero >>= fun _ => blocks.forM _).Under .careful b _ Q
    rw [Action.under_bind, Action.under_writeIndex]
    refine ⟨?_, io _⟩
    refine ih (step image s _ List.mem_cons_self start)
      (fun image t x mem => step image t x (List.mem_cons_of_mem s mem))
      fun image' written' holds more all => ?_
    refine ok image' written' holds ((Set.subset_insert _ _).trans more) fun t mem => ?_
    rcases List.mem_cons.1 mem with rfl | mem
    · exact more (Set.mem_insert _ _)
    · exact all t mem

namespace Ready

variable {place : Place} (ready : Ready m d l r others image)
include ready

theorem index_ofNat {t : Nat} (mem : t ∈ (l.push r).index) : (Sector.ofNat t).index = t :=
  Sector.index_ofNat (Nat.lt_of_lt_of_le (ready.inside t (index_mem_owned mem)) ready.stored.small)

/-- A block that was linked was written, and so were the index blocks taken for it. -/
theorem link_careful {Q : Except Failure Unit → FileBlocks m → Trail → Prop}
    (within : l.Within written) (found : Place.of l.count = some place)
    (ok : ∀ trail, (l.push r).Within trail.written → Q (.ok ()) b trail)
    (io : ∀ trail, Q (.error .io) b trail) :
    (link d place (Sector.ofNat ((l.push r).block l.count)) r : BlockAction m _).Under .careful b
      ⟨image, written⟩ Q := by
  have whole := ready.stored.whole
  unfold link
  rw [Action.under_bind, Action.under_clear, ready.index_block]
  refine ⟨?_, io _⟩
  rw [Action.then_ok, Action.under_bind]
  refine clearIndex_careful (P := Linking others l r image) (ready.linking_clear _ rfl)
    (fun image₁ s x mem linking => ?_) (fun image₂ written₂ linking more cleared => ?_) io
  · have mem' := mem_push_index whole ready.suits mem
    refine linking.update (spare_index whole ready.suits ready.nodup mem') (fun old => ?_)
      (ready.ne_index mem')
    exact not_owned_of_taken whole ready.suits ready.nodup_owned mem (index_mem_owned old)
  · have within₂ : (l.push r).Within written₂ :=
      (within.mono ((Set.subset_insert _ _).trans more)).push whole ready.suits
        (more (Set.mem_insert _ _)) cleared
    have known {t : Nat} (mem : t ∈ (l.push r).index) : (Sector.ofNat t).index ∈ written₂ := by
      rw [ready.index_ofNat mem]
      exact within₂.index mem
    have ok' (trail : Trail) (more : written₂ ⊆ trail.written) : Q (.ok ()) b trail :=
      ok trail (within₂.mono more)
    have at_place := Place.of_eq found
    cases place with
    | direct i => exact ok _ within₂
    | indirect i =>
      obtain ⟨t, named⟩ := ready.exists_indirect at_place
      change l.count = 12 + i.val at at_place
      simp only [ready.indirect_pointer (by omega) named]
      exact writePointer_careful (known (mem_index.2 (.inl named))) ok' (io _)
    | doubly o i =>
      obtain ⟨s, t, named, named'⟩ := ready.exists_doubly at_place
      have known' := known (mem_index.2 (.inr (.inl named)))
      simp only [ready.doubly_pointer named]
      cases new : r.indirect with
      | some u =>
        have taken : u ∈ r.indexBlocks := List.mem_append_left _ (Option.mem_toList.2 new)
        refine (Action.under_bind _ _).2 ?_
        refine writePointer_careful known' (fun trail more' => ?_) (io _)
        exact writePointer_careful (more' (cleared u taken)) (fun after more'' =>
          ok' after (more'.trans more'')) (io _)
      | none =>
        change l.count = 140 + 128 * o.val + i.val at at_place
        have later := mt ready.suits.indirect.2 (by rw [new]; simp)
        have two := doubly_of_push whole ready.suits (by omega) named
        have inner := inner_of_push whole ready.suits (by unfold innerFor; omega) named'
        have outer := mem_index.2 (.inr (.inl two))
        have mem := mem_index.2 (.inr (.inr ⟨_, inner⟩))
        have stored : l.Stored m d image₂ := { ready.stored with indexed := linking.indexed }
        refine (Action.under_bind _ _).2 ?_
        refine (readPointer_quiet known' o).careful (readPointer_spec stored outer
          (index_mem_owned mem) (stored.indexed.doubly two inner) ?_ fun _ => io _)
        exact writePointer_careful (known (mem_index.2 (.inr (.inr ⟨_, named'⟩)))) ok' (io _)

end Ready

/-- Where a block is linked the longer file was written. -/
theorem ensureLink_careful {place : Place} {taken : Bool} (stored : l.Stored m d image)
    (within : l.Within written) (lt : l.count < maxBlocks) (found : Place.of l.count = some place)
    (suits : taken = true → r.Suits l) (marks : b.free.Marks (r.sectors ++ (others ++ l.owned))) :
    (do Action.ensure taken .noSpace
        link d place (Sector.ofNat ((l.push r).block l.count)) r :
      BlockAction m _).Under .careful b ⟨image, written⟩ fun result _ trail =>
        result = .ok () → (l.push r).Within trail.written := by
  rw [Action.under_bind, Action.under_ensure]
  cases taken with
  | false =>
    intro same
    cases same
  | true =>
    have ready : Ready m d l r others image := .of_marks stored lt (suits rfl) marks
    rw [if_pos rfl, Action.then_ok]
    refine ready.link_careful within found (fun trail within' => ?_) fun trail => ?_
    · exact fun _ => within'
    · intro same
      cases same

theorem appendAt_careful {Q : Except Failure Unit → FileBlocks m → Trail → Prop} {place : Place}
    (holds : b.Holds image l others) (within : l.Within written) (lt : l.count < maxBlocks)
    (found : Place.of l.count = some place)
    (ok : ∀ b' trail l', Appended b b' image trail.image l l' others →
      l'.Within trail.written → Q (.ok ()) b' trail)
    (error : ∀ e b' trail, Unchanged b b' image trail.image l others →
      l.Within trail.written → Q (.error e) b' trail) :
    (appendAt b.disk place : BlockAction m _).Under .careful b ⟨image, written⟩ Q := by
  have stored := holds.stored
  rw [appendAt_eq, Action.under_bind]
  refine (takeSectors_silent b.disk place).quiet.careful (takeSectors_spec holds found
    (error _ b ⟨image, written⟩ (.refl holds) within) fun r free enough suits marks => ?_)
  change (addBlock b.disk place _ _ r enough).Under .careful _ ⟨image, written⟩ Q
  rw [addBlock, Action.under_bind, Action.onFailure, Action.under_tryCatch]
  refine ((ensureLink_careful stored within lt found suits marks).grows.ensures
    (ensureLink_spec stored lt found suits marks)).mono ?_
  rintro (e | ⟨⟩) b' trail ⟨⟨written', more⟩, linked⟩
  · obtain ⟨rfl, -, kept, indexed⟩ := linked
    refine (Action.under_bind _ _).2 ?_
    refine (giveBack_silent r).quiet.careful (NewSectors.giveBack_spec marks stored.small
      fun free₃ marks₃ => ?_)
    refine error e _ trail ⟨?_, rfl, kept⟩ (within.mono more)
    exact .of stored.whole stored.describes indexed marks₃ holds.reserved stored.small
  · obtain rfl := linked.1
    obtain ⟨d', attached, appended⟩ := LinkEnds.appended holds lt found marks linked
    exact (setDisk_silent _).quiet.careful (setDisk_spec attached
      (ok _ trail _ appended (written' rfl)))

/-- A file with a block more was written as a whole, as it was before. -/
theorem append_careful {Q : Except Failure Unit → FileBlocks m → Trail → Prop}
    (holds : b.Holds image l others) (within : l.Within written)
    (ok : ∀ b' trail l', Appended b b' image trail.image l l' others →
      l'.Within trail.written → Q (.ok ()) b' trail)
    (error : ∀ e b' trail, Unchanged b b' image trail.image l others →
      l.Within trail.written → Q (.error e) b' trail) :
    (append : BlockAction m _).Under .careful b ⟨image, written⟩ Q := by
  unfold append
  simp only [Action.under_bind, Action.under_get, Action.then_ok,
    holds.stored.describes.blockCount holds.stored.whole]
  cases found : Place.of l.count with
  | none => exact error _ b _ (.refl holds) within
  | some place => exact appendAt_careful holds within (Place.lt_of_of found) found ok error

theorem appendMany_careful {Q : Except Failure Unit → FileBlocks m → Trail → Prop} {count : Nat}
    (holds : b.Holds image l others) (within : l.Within written)
    (ends : ∀ r b' trail l', Extended b b' image trail.image l l' others →
      l'.Within trail.written → Q r b' trail) :
    (appendMany count : BlockAction m _).Under .careful b ⟨image, written⟩ Q := by
  induction count generalizing b image l written with
  | zero => exact ends _ b _ l (.refl holds) within
  | succ count ih =>
    rw [appendMany, Action.under_bind]
    refine append_careful holds within (fun b₁ trail₁ l₁ appended within₁ => ?_)
      fun e b' trail unchanged within' => ends _ b' trail l unchanged.extended within'
    refine ih appended.holds within₁ fun r b' trail l' extended within' => ?_
    exact ends r b' trail l' (appended.extended.trans extended) within'

/-! ## Taking blocks away -/

theorem lastSector_quiet {place : Place} (stored : l.Stored m d image) (within : l.Within written)
    (inside : n < l.count) (found : Place.of n = some place) (block : Nat) :
    (lastSector d block place : BlockAction m _).Quiet b ⟨image, written⟩ := by
  have at_place := Place.of_eq found
  cases place with
  | direct i => exact Action.quiet_pure _
  | indirect i =>
    obtain rfl : n = 12 + i.val := at_place
    obtain ⟨t, named⟩ := stored.indirect_of_block inside
    simp only [lastSector, stored.describes.indirect stored.proper, named, Option.map_some]
    exact (readIndexed_quiet stored within (mem_index.2 (.inl named)) i).bind fun _ _ =>
      Action.quiet_pure _
  | doubly o i =>
    obtain rfl : n = 140 + 128 * o.val + i.val := at_place
    obtain ⟨s, -, named, -⟩ := stored.inner_of_block inside
    simp only [lastSector, stored.describes.doubly stored.proper, named, Option.map_some]
    exact followDoubly_quiet stored within inside named fun t mem =>
      (readIndexed_quiet stored within mem i).bind fun _ _ => Action.quiet_pure _

theorem popAt_quiet {place : Place} (stored : l.Stored m b.disk image) (within : l.Within written)
    (inside : n < l.count) (found : Place.of n = some place) :
    (popAt b.disk place : BlockAction m _).Quiet b ⟨image, written⟩ := by
  refine (lastSector_quiet stored within inside found _).bind fun last b' => Action.Silent.quiet ?_
  split
  · exact (regroup_silent _ _).bind fun _ =>
      (Action.silent_foldlM _ giveIndex_silent _).bind fun _ => setDisk_silent _
  · exact Action.silent_check _

/-- Taking a block away writes nothing. -/
theorem pop_quiet (holds : b.Holds image l others) (within : l.Within written) (some : 0 < l.count) :
    (pop : BlockAction m _).Quiet b ⟨image, written⟩ := by
  have count := holds.stored.describes.blockCount holds.stored.whole
  have le := holds.stored.whole.le
  obtain ⟨place, found⟩ := Place.exists_of (show l.count - 1 < maxBlocks by omega)
  unfold pop Action.Quiet
  simp only [Action.require, Action.under_bind, Action.under_get, Action.then_ok, count, some,
    decide_true, if_true, Action.under_check_ok, found]
  exact popAt_quiet holds.stored within (by omega) found

theorem popMany_quiet {count : Nat} (holds : b.Holds image l others) (within : l.Within written)
    (le : count ≤ l.count) : (popMany count : BlockAction m _).Quiet b ⟨image, written⟩ := by
  induction count generalizing b l with
  | zero => exact Action.quiet_pure ()
  | succ count ih =>
    rw [popMany, Action.Quiet, Action.under_bind]
    refine (pop_quiet holds within (by omega)).careful (pop_spec holds (by omega)
      (fun b₁ popped => ?_) fun _ _ => rfl)
    exact ih popped.holds (within.trim (by omega)) (show count ≤ l.count - 1 by omega)

theorem trimTo_quiet (holds : b.Holds image l others) (within : l.Within written) (n : Nat) :
    (trimTo n : BlockAction m _).Quiet b ⟨image, written⟩ := by
  simp only [trimTo, Action.Quiet, Action.under_bind, Action.under_get, Action.then_ok,
    holds.stored.describes.blockCount holds.stored.whole]
  exact popMany_quiet holds within (by omega)

theorem dissolve_quiet (holds : b.Holds image l others) (within : l.Within written) :
    (dissolve : BlockAction m _).Quiet b ⟨image, written⟩ :=
  (trimTo_quiet holds within 0).bind fun _ _ => Action.Silent.quiet
    (Action.silent_get.bind fun _ => setDisk_silent _)

/-! ## Growing -/

/-- A file that grows, or fails to, was written as a whole after that. -/
theorem growTo_careful {Q : Except Failure Unit → FileBlocks m → Trail → Prop} {length : Nat}
    (holds : b.Holds image l others) (within : l.Within written)
    (ends : ∀ r b' trail l', b'.Holds trail.image l' others → l'.Within trail.written →
      Q r b' trail) :
    (growTo length : BlockAction m _).Under .careful b ⟨image, written⟩ Q := by
  have before := holds.stored.describes.blockCount holds.stored.whole
  simp only [growTo, Action.under_bind, Action.under_ensure, decide_eq_true_eq]
  split
  case isFalse => exact ends _ b _ l holds within
  case isTrue fits =>
    simp only [Action.then_ok, Action.under_bind, Action.under_get, before, Action.onFailure,
      Action.under_tryCatch]
    refine appendMany_careful holds within fun r b₁ trail l₁ extended within₁ => ?_
    cases r with
    | ok =>
      exact (lengthen_silent length).quiet.careful (lengthen_spec fits
        (ends _ _ trail l₁ (extended.holds.lengthened length) within₁))
    | error e =>
      simp only [Action.ignoreError, Action.under_tryCatch]
      refine (trimTo_quiet extended.holds within₁ l.count).careful (trimTo_spec extended.holds
        extended.le (fun b' trimmed => ?_) fun _ b' k _ lo hi trimmed => ?_)
      · exact ends _ b' trail _ trimmed.holds (within₁.trim extended.le)
      · exact ends _ b' trail _ trimmed.holds (within₁.trim hi)

end FileBlocks

end SectorFs
