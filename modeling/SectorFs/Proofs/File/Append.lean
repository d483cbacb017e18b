/-
# SectorFs.Proofs.File.Append — adding a block to a file

`append_spec`: a block that is added comes after those that were there, and is
zero; the layout is the old one again when it is trimmed. An append that fails
leaves inode, free map and blocks as they were. All else that is in use keeps
its bytes either way.
-/
import SectorFs.Proofs.File.Link

namespace SectorFs

set_option autoImplicit false

variable {m : Nat} {mayFail : Prop} {image image₀ : Image} {l : Layout} {d : Inode}
  {others : List Nat}

namespace FileBlocks

open Layout

variable {b : FileBlocks m} {r : NewSectors}

namespace Ready

variable (ready : Ready m d l r others image₀)
include ready

/-! ## The inode with one block more -/

/-- The words for the new count and the new cursor. -/
theorem counted_spec (linked : Inode) (bare : linked.bare = d.bare)
    (pointers : ∀ slot, slot < 15 →
      linked.pointers[slot]? = some (UInt32.ofNat ((l.push r).pointer slot))) :
    ∃ d', (do
        let counted ← (← linked.withBlockCount (d.blockCount + 1)).withGroupLeft (leftWith l - 1)
        if 0 < leftWith l - 1 then
          return counted.withCursor
            (some (← (Sector.ofNat ((l.push r).block l.count)).offset 1))
        else return counted.withCursor none) = Except.ok d' ∧
      (l.push r).Describes d' ∧ d'.bare = d.bare := by
  have stored := ready.stored
  have le := ready.lt
  rw [maxBlocks_eq] at le
  have left : (l.push r).left = leftWith l - 1 := by
    rw [leftWith_eq]
    change (8 - (l.count + 1) % 8) % 8 = _
    omega
  have small := stored.small
  rw [leftWith_eq] at left
  rw [stored.describes.blockCount stored.whole, Inode.withBlockCount_eq (by omega), leftWith_eq]
  simp only [bind, Except.bind]
  rw [Inode.withGroupLeft_eq (by omega)]
  simp only [pure, Except.pure]
  by_cases more : 0 < 8 - l.count % 8 - 1
  · have next : (l.push r).block (l.count + 1) = (l.push r).block l.count + 1 := by
      have group : (l.count + 1) / 8 = l.count / 8 := by omega
      rw [block, block, group]
      omega
    have inside : (l.push r).block l.count + 1 < m := by
      rw [← next]
      refine ready.inside _ (next_mem_owned ready.whole ?_)
      omega
    rw [if_pos more, Sector.offset_one (by omega)]
    refine ⟨_, rfl, ⟨rfl, ?_, ?_, pointers _⟩, bare⟩
    · rw [left]
      rfl
    · rw [Layout.next, left, if_neg (by omega)]
      exact congrArg UInt32.ofNat next.symm
  · rw [if_neg more]
    refine ⟨_, rfl, ⟨rfl, ?_, ?_, pointers _⟩, bare⟩
    · rw [left]
      rfl
    · rw [Layout.next, left, if_pos (by omega)]
      rfl

/-- A pointer stays unless it is the one to the new block or to a new index block. -/
theorem pointer_push_old {slot : Nat} (direct : slot < 12 → slot ≠ l.count)
    (one : slot = 12 → r.indirect = none ∨ 140 ≤ l.count) (two : slot = 13 → r.doubly = none) :
    (l.push r).pointer slot = l.pointer slot := by
  have whole := ready.stored.whole
  simp only [pointer]
  split
  · change (if slot < l.count + 1 then _ else _) = _
    by_cases old : slot < l.count
    · rw [if_pos (by omega), if_pos old, block_push whole old]
    · have := direct (by assumption)
      rw [if_neg (by omega), if_neg old]
  · split
    · rcases one (by assumption) with none | many
      · simp [push, none]
      · rw [push, if_neg (by omega)]
    · split
      · simp [push, two (by assumption)]
      · rfl

theorem getElem?_old {slot : Nat} (h : slot < 15)
    (same : (l.push r).pointer slot = l.pointer slot) :
    d.pointers[slot]? = some (UInt32.ofNat ((l.push r).pointer slot)) := by
  rw [same]
  exact ready.stored.describes.pointers h

theorem no_indirect (other : l.count < 12) : r.indirect = none := by
  refine Option.not_isSome_iff_eq_none.1 fun new => ?_
  have := ready.suits.indirect.1 new
  omega

theorem no_doubly (other : l.count < 140) : r.doubly = none := by
  refine Option.not_isSome_iff_eq_none.1 fun new => ?_
  have := ready.suits.doubly.1 new
  omega

/-- With the new block at a place attached, the inode says what the longer layout says. -/
def Attaches (d : Inode) (l : Layout) (r : NewSectors) (place : Place) : Prop :=
  ∃ d', attach d place (Sector.ofNat ((l.push r).block l.count)) (leftWith l) r = .ok d' ∧
    (l.push r).Describes d' ∧ d'.bare = d.bare

theorem attach_direct {i : Fin 12} (at_place : l.count = i.val) :
    Attaches d l r (.direct i) := by
  refine ready.counted_spec (d.withPointer (Inode.directPointer i) _) rfl ?_
  intro slot h
  rw [Inode.getElem?_withPointer]
  split
  case isTrue new =>
    have new : slot = l.count := new.trans at_place.symm
    rw [pointer, if_pos (by omega), if_pos (new ▸ Nat.lt_succ_self _), new]
    rfl
  case isFalse other =>
    apply ready.getElem?_old h
    exact ready.pointer_push_old (fun _ same => other (same.trans at_place))
      (fun _ => .inl (ready.no_indirect (by omega))) fun _ => ready.no_doubly (by omega)

theorem attach_indirect {i : Fin 128} (at_place : l.count = 12 + i.val) :
    Attaches d l r (.indirect i) := by
  cases new : r.indirect with
  | none =>
    obtain ⟨group, indirect, doubly⟩ := r
    obtain rfl : indirect = none := new
    refine ready.counted_spec d rfl fun slot h => ready.getElem?_old h ?_
    exact ready.pointer_push_old (by omega) (fun _ => .inl rfl)
      fun _ => ready.no_doubly (by omega)
  | some s =>
    obtain ⟨group, indirect, doubly⟩ := r
    obtain rfl : indirect = some s := new
    refine ready.counted_spec (d.withPointer indirectPointer (some s)) rfl ?_
    intro slot h
    rw [Inode.getElem?_withPointer]
    split
    case isTrue new =>
      have few : l.count < 140 := by omega
      obtain rfl : slot = 12 := new
      simp [pointer, push, few, Sector.toPointer, Sector.index]
    case isFalse other =>
      apply ready.getElem?_old h
      exact ready.pointer_push_old (by omega) (fun same => absurd same other)
        fun _ => ready.no_doubly (by omega)

theorem attach_doubly {o i : Fin 128} (at_place : l.count = 140 + 128 * o.val + i.val) :
    Attaches d l r (.doubly o i) := by
  cases new : r.doubly with
  | none =>
    obtain ⟨group, indirect, doubly⟩ := r
    obtain rfl : doubly = none := new
    refine ready.counted_spec d rfl fun slot h => ready.getElem?_old h ?_
    exact ready.pointer_push_old (by omega) (fun _ => .inr (by omega)) fun _ => rfl
  | some s =>
    obtain ⟨group, indirect, doubly⟩ := r
    obtain rfl : doubly = some s := new
    refine ready.counted_spec (d.withPointer doublyPointer (some s)) rfl ?_
    intro slot h
    rw [Inode.getElem?_withPointer]
    split
    case isTrue new =>
      obtain rfl : slot = 13 := new
      simp [pointer, push, Sector.toPointer, Sector.index]
    case isFalse other =>
      apply ready.getElem?_old h
      exact ready.pointer_push_old (by omega) (fun _ => .inr (by omega))
        fun same => absurd same other

theorem attach_spec {place : Place} (found : Place.of l.count = some place) :
    Attaches d l r place := by
  have at_place := Place.of_eq found
  cases place with
  | direct i => exact ready.attach_direct at_place
  | indirect i => exact ready.attach_indirect at_place
  | doubly o i => exact ready.attach_doubly at_place

end Ready

/-! ## The whole append -/

theorem setDisk_spec {Q : Except Failure Unit → FileBlocks m → Image → Prop}
    {x : Except Violation Inode} (made : x = .ok d) (ok : Q (.ok ()) { b with disk := d } image) :
    (setDisk x : BlockAction m _).Ensures m mayFail b image Q := by
  subst made
  exact ok

/-- A block was added to a file of layout `l`. -/
structure Appended (b b' : FileBlocks m) (image image' : Image) (l l' : Layout)
    (others : List Nat) : Prop where
  holds : b'.Holds image' l' others
  count : l'.count = l.count + 1
  trim : l'.trim l.count = l
  bare : b'.disk.bare = b.disk.bare
  kept : Kept others l image image'
  zero : image' (l'.block l.count) = Block.zero 512

/-- Nothing was done to the blocks of a file. -/
structure Unchanged (b b' : FileBlocks m) (image image' : Image) (l : Layout)
    (others : List Nat) : Prop where
  holds : b'.Holds image' l others
  disk : b'.disk = b.disk
  kept : Kept others l image image'

theorem Unchanged.refl (holds : b.Holds image l others) : Unchanged b b image image l others :=
  ⟨holds, rfl, .refl others l image⟩

/-- How linking a new block ends, in memory `b`. -/
def LinkEnds (mayFail : Prop) (b : FileBlocks m) (image : Image) (l : Layout) (r : NewSectors)
    (others : List Nat) : Except Failure Unit → FileBlocks m → Image → Prop
  | .ok _, b', image' => b' = b ∧ r.Suits l ∧ Linking others l r image image' ∧
      (l.push r).Indexed image'
  | .error e, b', image' => b' = b ∧ (e = .io → mayFail) ∧ Kept others l image image' ∧
      l.Indexed image'

theorem sectors_append_perm (whole : l.Whole) (suits : r.Suits l) :
    (r.sectors ++ (others ++ l.owned)).Perm (others ++ (l.push r).owned) :=
  (List.perm_append_comm_assoc _ _ _).trans ((owned_push whole suits).symm.append_left others)

/-- The sectors that were taken for a block more do for it. -/
theorem Ready.of_marks {free : FreeMap m} (stored : l.Stored m d image) (lt : l.count < maxBlocks)
    (suits : r.Suits l) (marks : free.Marks (r.sectors ++ (others ++ l.owned))) :
    Ready m d l r others image := by
  have marks := marks.perm (sectors_append_perm stored.whole suits)
  exact {
    stored, lt, suits
    nodup := marks.nodup
    inside := fun s mem => marks.inside s (List.mem_append_right _ mem) }

theorem ensureLink_spec {place : Place} {taken : Bool} (stored : l.Stored m d image)
    (lt : l.count < maxBlocks) (found : Place.of l.count = some place)
    (suits : taken = true → r.Suits l) (marks : b.free.Marks (r.sectors ++ (others ++ l.owned))) :
    (do Action.ensure taken .noSpace
        link d place (Sector.ofNat ((l.push r).block l.count)) r :
      BlockAction m _).Ensures m mayFail b image (LinkEnds mayFail b image l r others) := by
  rw [Action.ensures_bind, Action.ensures_ensure]
  cases taken with
  | false => exact ⟨rfl, nofun, .refl others l image, stored.indexed⟩
  | true =>
    have suits := suits rfl
    have ready : Ready m d l r others image := .of_marks stored lt suits marks
    refine ready.link_spec found (fun image' linking indexed => ?_) fun may image' kept indexed => ?_
    · exact ⟨rfl, suits, linking, indexed⟩
    · exact ⟨rfl, fun _ => may, kept, indexed⟩

/-- The first part of an append: the sectors for a block at a place, and whether all could be had. -/
def takeSectors (d : Inode) (place : Place) : BlockAction m (Sector × Nat × NewSectors × Bool) := do
  let (data, left, group) ← nextSector d
  let indirect ← takeIf (needs d place).1
  let doubly ← takeIf (needs d place).2
  return (data, left, { group, indirect, doubly },
    indirect.isSome == (needs d place).1 && doubly.isSome == (needs d place).2)

/-- The rest of an append. -/
def addBlock (d : Inode) (place : Place) (data : Sector) (left : Nat) (r : NewSectors)
    (enough : Bool) : BlockAction m Unit := do
  Action.onFailure (do
    Action.ensure enough .noSpace
    link d place data r) r.giveBack
  setDisk (attach d place data left r)

theorem appendAt_eq (d : Inode) (place : Place) : (appendAt d place : BlockAction m Unit) =
    takeSectors d place >>= fun (data, left, r, enough) => addBlock d place data left r enough := by
  simp only [appendAt, takeSectors, addBlock, bind_assoc, pure_bind]

theorem takeSectors_spec {Q : Except Failure (Sector × Nat × NewSectors × Bool) → FileBlocks m →
      Image → Prop} {place : Place} (holds : b.Holds image l others)
    (found : Place.of l.count = some place) (noSpace : Q (.error .noSpace) b image)
    (taken : ∀ r free enough, (enough = true → r.Suits l) →
      free.Marks (r.sectors ++ (others ++ l.owned)) →
      Q (.ok (Sector.ofNat ((l.push r).block l.count), leftWith l, r, enough)) { b with free }
        image) :
    (takeSectors b.disk place : BlockAction m _).Ensures m mayFail b image Q := by
  have small := holds.stored.small
  unfold takeSectors
  rw [needs_eq holds.stored found, Action.ensures_bind]
  refine nextSector_spec holds noSpace fun group free new marks => ?_
  rw [Action.onward_ok, Action.ensures_bind]
  refine takeIf_spec marks small fun indirect free₁ new₁ marks₁ => ?_
  rw [Action.onward_ok, Action.ensures_bind]
  refine takeIf_spec marks₁ small fun doubly free₂ new₂ marks₂ => ?_
  rw [Action.onward_ok, Action.ensures_pure]
  refine taken ⟨group, indirect, doubly⟩ free₂ _ (fun all => ?_) ?_
  · obtain ⟨one, two⟩ := (Bool.and_eq_true _ _).mp all
    exact ⟨new, by rw [eq_of_beq one, decide_eq_true_iff], by rw [eq_of_beq two, decide_eq_true_iff]⟩
  · refine marks₂.perm (List.perm_iff_count.2 fun s => ?_)
    simp only [NewSectors.sectors, NewSectors.indexBlocks, List.map_append, List.count_append]
    omega

/-- The inode with a block attached that was linked. -/
theorem LinkEnds.appended {b₁ : FileBlocks m} {image' : Image} {place : Place}
    (holds : b.Holds image l others) (lt : l.count < maxBlocks)
    (found : Place.of l.count = some place)
    (marks : b₁.free.Marks (r.sectors ++ (others ++ l.owned)))
    (linked : LinkEnds mayFail b₁ image l r others (.ok ()) b₁ image') :
    ∃ d', attach b.disk place (Sector.ofNat ((l.push r).block l.count)) (leftWith l) r = .ok d' ∧
      Appended b { b₁ with disk := d' } image image' l (l.push r) others := by
  obtain ⟨-, suits, linking, indexed⟩ := linked
  have stored := holds.stored
  have ready : Ready m b.disk l r others image := .of_marks stored lt suits marks
  have marks := marks.perm (sectors_append_perm stored.whole suits)
  obtain ⟨d', attached, describes, bare⟩ := ready.attach_spec found
  exact ⟨d', attached, {
    holds := .of ready.whole describes indexed marks holds.reserved stored.small
    count := rfl
    trim := trim_push stored.whole suits
    bare := bare
    kept := linking.kept
    zero := linking.zero }⟩

theorem appendAt_spec {Q : Except Failure Unit → FileBlocks m → Image → Prop} {place : Place}
    (holds : b.Holds image l others) (lt : l.count < maxBlocks)
    (found : Place.of l.count = some place)
    (ok : ∀ b' image' l', Appended b b' image image' l l' others → Q (.ok ()) b' image')
    (error : ∀ e b' image', (e = .io → mayFail) → Unchanged b b' image image' l others →
      Q (.error e) b' image') :
    (appendAt b.disk place : BlockAction m _).Ensures m mayFail b image Q := by
  have stored := holds.stored
  rw [appendAt_eq, Action.ensures_bind]
  refine takeSectors_spec holds found (error _ b image (fun same => by cases same) (.refl holds))
    fun r free enough suits marks => ?_
  change (addBlock b.disk place _ _ r enough).Ensures m mayFail _ image Q
  rw [addBlock, Action.ensures_bind]
  refine Action.Ensures.onFailure (ensureLink_spec stored lt found suits marks) ?_ ?_
  · rintro a b' image' linked
    obtain rfl := linked.1
    obtain ⟨d', attached, appended⟩ := LinkEnds.appended holds lt found marks linked
    rw [Action.onward_ok]
    exact setDisk_spec attached (ok _ image' _ appended)
  · rintro e b' image' ⟨rfl, io, kept, indexed⟩
    refine NewSectors.giveBack_spec marks stored.small fun free₃ marks₃ => ?_
    refine error e _ image' io ⟨?_, rfl, kept⟩
    exact .of stored.whole stored.describes indexed marks₃ holds.reserved stored.small

/-- Appending a block adds a block of zeros, or does nothing. -/
theorem append_spec {Q : Except Failure Unit → FileBlocks m → Image → Prop}
    (holds : b.Holds image l others)
    (ok : ∀ b' image' l', Appended b b' image image' l l' others → Q (.ok ()) b' image')
    (error : ∀ e b' image', (e = .io → mayFail) → Unchanged b b' image image' l others →
      Q (.error e) b' image') :
    (append : BlockAction m _).Ensures m mayFail b image Q := by
  unfold append
  simp only [Action.ensures_bind, Action.ensures_get, Action.onward_ok,
    holds.stored.describes.blockCount holds.stored.whole]
  cases found : Place.of l.count with
  | none => exact error _ b image (fun same => by cases same) (.refl holds)
  | some place => exact appendAt_spec holds (Place.lt_of_of found) found ok error

end FileBlocks

end SectorFs
