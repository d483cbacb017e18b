/-
# SectorFs.Proofs.File.Link — writing a new block and the pointers to it

While a block is linked to a file, all that is in use keeps its bytes (`Kept`)
and the file keeps its layout (`Linking`): what is written stands in sectors that
are no block of the file, and in entries that are vacant. When all is written
the index blocks say where the new block is as well (`Ready.link_spec`).
-/
import SectorFs.Proofs.File.Taking

namespace SectorFs

set_option autoImplicit false

variable {m : Nat} {mayFail : Prop} {image image' : Image} {l : Layout} {d : Inode}
  {others : List Nat}

/-- The sectors in use for something else are as before, and so are the blocks of the file. -/
structure Kept (others : List Nat) (l : Layout) (image image' : Image) : Prop where
  others : ∀ s ∈ others, image' s = image s
  blocks : ∀ i, i < l.count → image' (l.block i) = image (l.block i)

theorem Kept.refl (others : List Nat) (l : Layout) (image : Image) : Kept others l image image :=
  ⟨fun _ _ => rfl, fun _ _ => rfl⟩

/-- A sector that can be written without harm to what is in use. -/
structure Spare (others : List Nat) (l : Layout) (t : Nat) : Prop where
  others : t ∉ others
  blocks : ∀ i, i < l.count → l.block i ≠ t

theorem Kept.update {t : Nat} {b : Block 512} (kept : Kept others l image image')
    (spare : Spare others l t) : Kept others l image (Function.update image' t b) where
  others s mem := by
    rw [Function.update_of_ne fun same : s = t => spare.others (same ▸ mem)]
    exact kept.others s mem
  blocks i inside := by
    rw [Function.update_of_ne (spare.blocks i inside)]
    exact kept.blocks i inside

namespace Layout

open FileBlocks (NewSectors)

variable {r : NewSectors}

theorem groups_push (whole : l.Whole) (suits : r.Suits l) :
    l.count / 8 < (l.push r).groups.length := by
  simp only [push, List.length_append, whole.groups, groupsFor, Option.length_toList,
    Option.isSome_map, suits.group]
  split <;> omega

theorem spare_block (whole : l.Whole) (suits : r.Suits l)
    (nodup : (others ++ (l.push r).owned).Nodup) : Spare others l ((l.push r).block l.count) where
  others mem := (List.nodup_append'.1 nodup).2.2 mem
    (block_mem_owned (groups_push whole suits))
  blocks i inside same := by
    have group := groups_push whole suits
    rw [← block_push (r := r) whole inside] at same
    have := block_inj (List.nodup_append'.1 nodup).2.1 (by omega) group same
    omega

theorem spare_index (whole : l.Whole) (suits : r.Suits l)
    (nodup : (others ++ (l.push r).owned).Nodup) {t : Nat} (mem : t ∈ (l.push r).index) :
    Spare others l t where
  others other := (List.nodup_append'.1 nodup).2.2 other (index_mem_owned mem)
  blocks i inside same := by
    have group := groups_push whole suits
    rw [← block_push (r := r) whole inside] at same
    exact block_not_index (List.nodup_append'.1 nodup).2.1 (by omega) (same ▸ mem)

theorem mem_push_index {s : Sector} (whole : l.Whole) (suits : r.Suits l)
    (mem : s ∈ r.indexBlocks) : s.index ∈ (l.push r).index :=
  (index_push whole suits).mem_iff.2 (List.mem_append_left _ (List.mem_map_of_mem mem))

theorem vacant_of_not_index {t i : Nat} (other : t ∉ l.index) : l.Vacant t i where
  indirect one := absurd (mem_index.2 (.inl one)) other
  doubly two := absurd (mem_index.2 (.inr (.inl two))) other
  inner named := absurd (mem_index.2 (.inr (.inr ⟨_, named⟩))) other

theorem index_subset_push {t : Nat} (whole : l.Whole) (suits : r.Suits l) (mem : t ∈ l.index) :
    t ∈ (l.push r).index :=
  (index_push whole suits).mem_iff.2 (List.mem_append_right _ mem)

/-- A sector that was taken is none of those that the file had. -/
theorem not_owned_of_taken {s : Sector} (whole : l.Whole) (suits : r.Suits l)
    (nodup : (l.push r).owned.Nodup) (mem : s ∈ r.indexBlocks) : s.index ∉ l.owned := by
  have nodup' := (owned_push whole suits).nodup_iff.1 nodup
  refine (List.nodup_append'.1 nodup').2.2 ?_
  exact List.mem_append_right _ (List.mem_map_of_mem mem)

/-- An index block is named once. -/
theorem index_apart (nodup : l.owned.Nodup) {t : Nat} :
    (l.indirect = some t → l.doubly ≠ some t) ∧
      (∀ j : Nat, l.inner[j]? = some t → l.indirect ≠ some t ∧ l.doubly ≠ some t) ∧
      ∀ j j' : Nat, l.inner[j]? = some t → l.inner[j']? = some t → j = j' := by
  obtain ⟨-, nodup, -⟩ := List.nodup_append'.1 nodup
  obtain ⟨outer, inner, apart⟩ := List.nodup_append'.1 nodup
  obtain ⟨-, -, apart'⟩ := List.nodup_append'.1 outer
  refine ⟨fun one two => ?_, fun j named => ⟨fun one => ?_, fun two => ?_⟩,
    fun j j' named named' => ?_⟩
  · exact apart' (Option.mem_toList.2 one) (Option.mem_toList.2 two)
  · exact apart (List.mem_append_left _ (Option.mem_toList.2 one)) (List.mem_of_getElem? named)
  · exact apart (List.mem_append_right _ (Option.mem_toList.2 two)) (List.mem_of_getElem? named)
  · obtain ⟨fits, -⟩ := List.getElem?_eq_some_iff.1 named
    exact (List.getElem?_inj fits inner).1 (named.trans named'.symm)

theorem indirect_of_push {t : Nat} (whole : l.Whole) (suits : r.Suits l) (many : 12 < l.count)
    (named : (l.push r).indirect = some t) : l.indirect = some t := by
  have old := congrArg Layout.indirect (trim_push whole suits)
  rw [trim, if_pos many] at old
  exact old.symm.trans named

theorem doubly_of_push {t : Nat} (whole : l.Whole) (suits : r.Suits l) (many : 140 < l.count)
    (named : (l.push r).doubly = some t) : l.doubly = some t := by
  have old := congrArg Layout.doubly (trim_push whole suits)
  rw [trim, if_pos many] at old
  exact old.symm.trans named

theorem inner_of_push {j t : Nat} (whole : l.Whole) (suits : r.Suits l)
    (many : j < innerFor l.count) (named : (l.push r).inner[j]? = some t) :
    l.inner[j]? = some t := by
  have old := congrArg Layout.inner (trim_push whole suits)
  simp only [trim] at old
  rw [← old, List.getElem?_take, if_pos many]
  exact named

/-- The index blocks say where all blocks are once they say so of the last one. -/
theorem Indexed.push (whole : l.Whole) (lt : l.count < maxBlocks) (suits : r.Suits l)
    (indexed : l.Indexed image)
    (indirect : ∀ t i, (l.push r).indirect = some t → l.count = 12 + i → i < 128 →
      entry image t i = (l.push r).block l.count)
    (inner : ∀ s t o i : Nat, (l.push r).doubly = some s → (l.push r).inner[o]? = some t →
      l.count = 140 + 128 * o + i → i < 128 →
        entry image s o = t ∧ entry image t i = (l.push r).block l.count) :
    (l.push r).Indexed image := by
  have whole' := push_whole whole lt suits
  have fits {j t : Nat} (named : (l.push r).inner[j]? = some t) : j < innerFor (l.count + 1) := by
    have := (List.getElem?_eq_some_iff.1 named).1
    rwa [whole'.inner] at this
  refine ⟨fun {t i} named small inside => ?_, fun {t j s} named here => ?_,
    fun {j t i} named small inside => ?_⟩
  · change 12 + i < l.count + 1 at inside
    by_cases old : 12 + i < l.count
    · rw [block_push whole old]
      exact indexed.indirect (indirect_of_push whole suits (by omega) named) small old
    · obtain same : l.count = 12 + i := by omega
      rw [indirect t i named same small, same]
  · have := fits here
    by_cases old : j < innerFor l.count
    · refine indexed.doubly (doubly_of_push whole suits ?_ named) (inner_of_push whole suits old here)
      unfold innerFor at old
      omega
    · refine (inner t s j 0 named here ?_ (by decide)).1
      unfold innerFor at old this
      omega
  · change 140 + 128 * j + i < l.count + 1 at inside
    by_cases old : 140 + 128 * j + i < l.count
    · rw [block_push whole old]
      refine indexed.inner (inner_of_push whole suits ?_ named) small old
      unfold innerFor
      omega
    · obtain same : l.count = 140 + 128 * j + i := by omega
      obtain ⟨s, named'⟩ := Option.isSome_iff_exists.1 (whole'.doubly.2 (by
        change 140 < l.count + 1
        omega))
      rw [(inner s t j i named' named same small).2, same]

end Layout

namespace FileBlocks

open Layout

variable {b : FileBlocks m} {r : NewSectors}

/-! ## What is taken -/

theorem isNone_eq_decide {α : Type} {o : Option α} {p : Prop} [Decidable p]
    (some_iff : o.isSome ↔ p) : o.isNone = decide (¬ p) := by
  rw [← Option.not_isSome, Bool.eq_iff_iff, Bool.not_eq_true', Bool.eq_false_iff, ne_eq, some_iff,
    decide_eq_true_iff]

theorem needs_eq {place : Place} (stored : l.Stored m d image)
    (found : Place.of l.count = some place) : needs d place =
      (decide (l.count = 12 ∨ 140 ≤ l.count ∧ (l.count - 140) % 128 = 0),
        decide (l.count = 140)) := by
  have here := Place.of_eq found
  cases place with
  | direct i =>
    change l.count = i.val at here
    simp only [needs, Prod.mk.injEq, eq_comm (a := false), decide_eq_false_iff_not]
    omega
  | indirect i =>
    change l.count = 12 + i.val at here
    simp only [needs, stored.describes.indirect stored.proper, Option.isNone_map,
      isNone_eq_decide stored.whole.indirect, Prod.mk.injEq, decide_eq_decide,
      eq_comm (a := false), decide_eq_false_iff_not]
    omega
  | doubly o i =>
    change l.count = 140 + 128 * o.val + i.val at here
    have first : (i.val == 0) =
        decide (l.count = 12 ∨ 140 ≤ l.count ∧ (l.count - 140) % 128 = 0) := by
      rw [Bool.eq_iff_iff, beq_iff_eq, decide_eq_true_iff]
      omega
    simp only [needs, stored.describes.doubly stored.proper, Option.isNone_map, first,
      isNone_eq_decide stored.whole.doubly, Prod.mk.injEq, decide_eq_decide, true_and]
    omega

/-- How many sectors a group has left, with the next one. -/
def leftWith (l : Layout) : Nat := if l.left = 0 then 8 else l.left

theorem leftWith_eq : leftWith l = 8 - l.count % 8 := by
  unfold leftWith Layout.left
  split <;> omega

/-- The next block of a file is in its last group or in a new one. -/
theorem nextSector_spec {Q : Except Failure (Sector × Nat × Option Sector) → FileBlocks m →
      Image → Prop} (holds : b.Holds image l others)
    (noSpace : Q (.error .noSpace) b image)
    (found : ∀ group free, (Option.isSome group ↔ l.count % 8 = 0) →
      free.Marks ((group.toList.flatMap fun s => List.range' s.index 8) ++ (others ++ l.owned)) →
      Q (.ok (Sector.ofNat ((l.push { group }).block l.count), leftWith l, group))
        { b with free } image) :
    (nextSector b.disk : BlockAction m _).Ensures m mayFail b image Q := by
  have stored := holds.stored
  have left_eq : l.left = 0 ↔ l.count % 8 = 0 := by
    unfold Layout.left
    omega
  unfold nextSector
  rw [stored.describes.groupLeft]
  by_cases empty : l.left = 0
  · rw [if_pos empty, Action.ensures_bind]
    refine take_spec holds.marks stored.small (by decide) noSpace fun s free fits marks => ?_
    have data : (l.push { group := some s }).block l.count = s.index := by
      have last : l.count / 8 = l.groups.length := by
        rw [stored.whole.groups, groupsFor]
        omega
      have first : l.count % 8 = 0 := left_eq.1 empty
      simp [block, push, last, first]
    have := found (some s) free (by simp [left_eq.1 empty]) (by simpa [groupSize] using marks)
    rw [data, Sector.ofNat_index, leftWith, if_pos empty] at this
    exact this
  · have data : (l.push {}).block l.count = l.block l.count := by
      simp [block, push]
    rw [if_neg empty, stored.describes.cursor stored.whole stored.proper, Layout.next,
      if_neg empty]
    have := found none b.free (by simp [← left_eq, empty]) holds.marks
    rw [data, leftWith, if_neg empty] at this
    exact this

/-! ## What is written -/

/-- The pointer to an index block, which is new or was there. -/
theorem or_pointer {new : Option Sector} {old : Option Nat} {t : Nat}
    (named : (new.map Sector.index).or old = some t) :
    (new <|> old.map Sector.ofNat) = some (Sector.ofNat t) := by
  cases new with
  | none =>
    change old = some t at named
    rw [named]
    rfl
  | some s =>
    cases named
    exact congrArg some (Sector.ofNat_index s).symm

theorem clearIndex_spec {Q : Except Failure Unit → FileBlocks m → Image → Prop}
    {blocks : List Sector} {P : Image → Prop} (start : P image)
    (inside : ∀ s ∈ blocks, s.index < m)
    (step : ∀ image s x, s ∈ blocks → P image → P (Function.update image s.index x))
    (ok : ∀ image', P image' → Q (.ok ()) b image')
    (io : ∀ image', mayFail → P image' → Q (.error .io) b image') :
    (blocks.forM fun s => Action.writeIndex s .zero : BlockAction m _).Ensures m mayFail b image
      Q := by
  induction blocks generalizing image with
  | nil => exact ok image start
  | cons s blocks ih =>
    change (Action.writeIndex s .zero >>= fun _ => blocks.forM _).Ensures m mayFail b image Q
    rw [Action.ensures_bind, Action.ensures_writeIndex]
    refine ⟨inside s List.mem_cons_self, ?_, fun may => io image may start⟩
    refine ih (step image s _ List.mem_cons_self start) (fun t mem => inside t ?_)
      fun image t x mem => step image t x ?_
    · exact List.mem_cons_of_mem s mem
    · exact List.mem_cons_of_mem s mem

/-- What stays true of the sectors while a block is linked. -/
structure Linking (others : List Nat) (l : Layout) (r : NewSectors) (image image' : Image) :
    Prop where
  kept : Kept others l image image'
  indexed : l.Indexed image'
  zero : image' ((l.push r).block l.count) = Block.zero 512

variable {image₀ : Image}

theorem Linking.update {t : Nat} {x : Block 512} (linking : Linking others l r image₀ image)
    (spare : Spare others l t) (other : t ∉ l.index) (ne : (l.push r).block l.count ≠ t) :
    Linking others l r image₀ (Function.update image t x) where
  kept := linking.kept.update spare
  indexed := linking.indexed.update other
  zero := by
    rw [Function.update_of_ne ne]
    exact linking.zero

theorem Linking.putEntry {t : Nat} {i : Fin 128} {s : Sector}
    (linking : Linking others l r image₀ image) (spare : Spare others l t)
    (vacant : l.Vacant t i) (ne : (l.push r).block l.count ≠ t) :
    Linking others l r image₀ (putEntry image t i s) where
  kept := linking.kept.update spare
  indexed := linking.indexed.putEntry vacant
  zero := by
    rw [SectorFs.putEntry, Function.update_of_ne ne]
    exact linking.zero

theorem writePointer_spec {Q : Except Failure Unit → FileBlocks m → Image → Prop} {t : Nat}
    {i : Fin 128} {s : Sector} (inside : t < m) (small : m ≤ 0x100000000)
    (ok : Q (.ok ()) b (putEntry image t i s)) (io : mayFail → Q (.error .io) b image) :
    (Inode.writePointer (Sector.ofNat t) i s : BlockAction m _).Ensures m mayFail b image Q := by
  have index := Sector.index_ofNat (s := t) (by omega)
  simp only [Inode.writePointer, Action.ensures_bind, Action.ensures_readIndex, Action.onward_ok,
    Action.onward_error, Action.ensures_writeIndex, index]
  exact ⟨inside, ⟨inside, ok, io⟩, io⟩

/-- What is known of a file and the sectors that were taken for a block more. -/
structure Ready (m : Nat) (d : Inode) (l : Layout) (r : NewSectors) (others : List Nat)
    (image : Image) : Prop where
  stored : l.Stored m d image
  lt : l.count < maxBlocks
  suits : r.Suits l
  nodup : (others ++ (l.push r).owned).Nodup
  inside : ∀ s ∈ (l.push r).owned, s < m

namespace Ready

variable (ready : Ready m d l r others image₀)
include ready

theorem whole : (l.push r).Whole := push_whole ready.stored.whole ready.lt ready.suits

theorem nodup_owned : (l.push r).owned.Nodup := (List.nodup_append'.1 ready.nodup).2.1

theorem ne_index {t : Nat} (mem : t ∈ (l.push r).index) : (l.push r).block l.count ≠ t :=
  fun same => block_not_index ready.nodup_owned
    (groups_push ready.stored.whole ready.suits) (same ▸ mem)

theorem block_inside : (l.push r).block l.count < m :=
  ready.inside _ (block_mem_owned (groups_push ready.stored.whole ready.suits))

theorem index_block :
    (Sector.ofNat ((l.push r).block l.count)).index = (l.push r).block l.count :=
  Sector.index_ofNat (Nat.lt_of_lt_of_le ready.block_inside ready.stored.small)

theorem linking_clear (image : Image) (same : image = image₀) : Linking others l r image₀
    (Function.update image ((l.push r).block l.count) (Block.zero 512)) where
  kept := by
    subst same
    exact (Kept.refl others l image).update
      (spare_block ready.stored.whole ready.suits ready.nodup)
  indexed := by
    subst same
    refine ready.stored.indexed.update fun mem => ?_
    exact ready.ne_index (index_subset_push ready.stored.whole ready.suits mem) rfl
  zero := Function.update_self _ _ _

/-- The indirect block at a place behind it. -/
theorem exists_indirect {i : Fin 128} (at_place : l.count = 12 + i.val) :
    ∃ t, (l.push r).indirect = some t :=
  Option.isSome_iff_exists.1 (ready.whole.indirect.2 (show 12 < l.count + 1 by omega))

theorem indirect_pointer {t : Nat} (few : l.count < 140) (named : (l.push r).indirect = some t) :
    (r.indirect <|> d.pointer indirectPointer) = some (Sector.ofNat t) := by
  rw [ready.stored.describes.indirect ready.stored.proper]
  simp only [push, if_pos few] at named
  exact or_pointer named

/-- The pointer goes into the indirect block. -/
theorem linkIndirect_spec {Q : Except Failure Unit → FileBlocks m → Image → Prop} {i : Fin 128}
    {t : Nat} (at_place : l.count = 12 + i.val) (named : (l.push r).indirect = some t)
    (linking : Linking others l r image₀ image)
    (ok : ∀ image', Linking others l r image₀ image' → (l.push r).Indexed image' →
      Q (.ok ()) b image')
    (io : mayFail → Q (.error .io) b image) :
    (Inode.writePointer (Sector.ofNat t) i (Sector.ofNat ((l.push r).block l.count)) :
      BlockAction m _).Ensures m mayFail b image Q := by
  have mem := mem_index.2 (.inl named)
  have few : l.count < 140 := by omega
  have vacant : l.Vacant t i := {
    indirect := fun _ => by omega
    doubly := fun two => by
      rw [eq_none_of_iff ready.stored.whole.doubly (by omega)] at two
      cases two
    inner := fun _ => by omega }
  refine writePointer_spec (ready.inside t (index_mem_owned mem)) ready.stored.small ?_ io
  have linked := linking.putEntry (s := Sector.ofNat ((l.push r).block l.count))
    (spare_index ready.stored.whole ready.suits ready.nodup mem) vacant (ready.ne_index mem)
  refine ok _ linked (linked.indexed.push ready.stored.whole ready.lt ready.suits ?_ ?_)
  · intro t' j named' at_j _
    have same : t = t' := Option.some.inj (named.symm.trans named')
    have same' : j = i.val := by omega
    rw [entry_putEntry, if_pos ⟨same.symm, same'⟩, ready.index_block]
  · omega

/-- The indirect block at a place behind the doubly-indirect block. -/
theorem exists_doubly {o i : Fin 128} (at_place : l.count = 140 + 128 * o.val + i.val) :
    ∃ s t, (l.push r).doubly = some s ∧ (l.push r).inner[o.val]? = some t := by
  obtain ⟨s, named⟩ : ∃ s, (l.push r).doubly = some s :=
    Option.isSome_iff_exists.1 (ready.whole.doubly.2 (show 140 < l.count + 1 by omega))
  refine ⟨s, _, named, List.getElem?_eq_getElem ?_⟩
  rw [ready.whole.inner]
  change o.val < innerFor (l.count + 1)
  unfold innerFor
  omega

theorem doubly_pointer {s : Nat} (named : (l.push r).doubly = some s) :
    (r.doubly <|> d.pointer doublyPointer) = some (Sector.ofNat s) := by
  rw [ready.stored.describes.doubly ready.stored.proper]
  exact or_pointer named

/-- The pointers go into the doubly-indirect block and a new indirect block. -/
theorem linkNew_spec {Q : Except Failure Unit → FileBlocks m → Image → Prop} {o i : Fin 128}
    {u : Sector} (new : r.indirect = some u) (at_place : l.count = 140 + 128 * o.val + i.val)
    {s t : Nat} (named : (l.push r).doubly = some s)
    (named' : (l.push r).inner[o.val]? = some t) (linking : Linking others l r image₀ image)
    (ok : ∀ image', Linking others l r image₀ image' → (l.push r).Indexed image' →
      Q (.ok ()) b image')
    (io : mayFail → ∀ image', Linking others l r image₀ image' → Q (.error .io) b image') :
    (do Inode.writePointer (Sector.ofNat s) o u
        Inode.writePointer u i (Sector.ofNat ((l.push r).block l.count)) :
      BlockAction m _).Ensures m mayFail b image Q := by
  have whole := ready.stored.whole
  have many : ¬ l.count < 140 := by omega
  have first := ready.suits.indirect.1 (by rw [new]; rfl)
  have fresh : o.val = l.inner.length := by
    rw [whole.inner, innerFor]
    omega
  have here : u.index = t := by
    simp only [push, if_neg many, new, Option.map_some, Option.toList_some, fresh,
      List.getElem?_concat_length] at named'
    exact Option.some.inj named'
  subst here
  have mem := mem_index.2 (.inr (.inl named))
  have mem' := mem_index.2 (.inr (.inr ⟨_, named'⟩))
  obtain ⟨apart, apart', -⟩ := index_apart (t := s) ready.nodup_owned
  have ne : s ≠ u.index := fun same => (apart' _ (same ▸ named')).2 named
  have vacant : l.Vacant s o := {
    indirect := fun one => absurd named (apart (by simpa [push, many] using one))
    doubly := fun _ => List.getElem?_eq_none (by omega)
    inner := fun {j} old => by
      refine absurd named (apart' j ?_).2
      simp only [push, if_neg many, List.getElem?_append_left (List.getElem?_eq_some_iff.1 old).1]
      exact old }
  have taken : u ∈ r.indexBlocks := List.mem_append_left _ (Option.mem_toList.2 new)
  have linked := linking.putEntry (s := u)
    (spare_index whole ready.suits ready.nodup mem) vacant (ready.ne_index mem)
  have linked' := linked.putEntry (i := i) (s := Sector.ofNat ((l.push r).block l.count))
    (spare_index whole ready.suits ready.nodup mem')
    (vacant_of_not_index fun old =>
      not_owned_of_taken whole ready.suits ready.nodup_owned taken (index_mem_owned old))
    (ready.ne_index mem')
  rw [Action.ensures_bind]
  refine writePointer_spec (ready.inside s (index_mem_owned mem)) ready.stored.small ?_
    fun may => io may _ linking
  rw [Action.onward_ok, ← Sector.ofNat_index u]
  refine writePointer_spec (ready.inside _ (index_mem_owned mem')) ready.stored.small ?_
    fun may => io may _ (by rwa [Sector.ofNat_index])
  rw [Sector.ofNat_index]
  refine ok _ linked' (linked'.indexed.push whole ready.lt ready.suits ?_ ?_)
  · omega
  · intro s' t' o' i' two inner at_o _
    have same : s' = s := Option.some.inj (two.symm.trans named)
    have same' : o' = o.val := by omega
    have same'' : i' = i.val := by omega
    subst same same' same''
    have same := Option.some.inj (inner.symm.trans named')
    subst same
    rw [entry_putEntry, if_neg fun both => ne both.1, entry_putEntry, if_pos ⟨rfl, rfl⟩,
      entry_putEntry, if_pos ⟨rfl, rfl⟩, ready.index_block]
    exact ⟨rfl, rfl⟩

/-- The pointer goes into an indirect block that the doubly-indirect block has. -/
theorem linkOld_spec {Q : Except Failure Unit → FileBlocks m → Image → Prop} {o i : Fin 128}
    (old : r.indirect = none) (at_place : l.count = 140 + 128 * o.val + i.val)
    {s t : Nat} (named : (l.push r).doubly = some s)
    (named' : (l.push r).inner[o.val]? = some t) (linking : Linking others l r image₀ image)
    (ok : ∀ image', Linking others l r image₀ image' → (l.push r).Indexed image' →
      Q (.ok ()) b image')
    (io : mayFail → ∀ image', Linking others l r image₀ image' → Q (.error .io) b image') :
    (do let some indirect ← Inode.readPointer (Sector.ofNat s) o
          | Action.check (.error (.linkInner o (Sector.ofNat s).index))
        Inode.writePointer indirect i (Sector.ofNat ((l.push r).block l.count)) :
      BlockAction m _).Ensures m mayFail b image Q := by
  have whole := ready.stored.whole
  have later := mt ready.suits.indirect.2 (by rw [old]; simp)
  have many : ¬ l.count < 140 := by omega
  have mem' := mem_index.2 (.inr (.inr ⟨_, named'⟩))
  obtain ⟨-, apart', once⟩ := index_apart (t := t) ready.nodup_owned
  have two := doubly_of_push whole ready.suits (by omega) named
  have inner : l.inner[o.val]? = some t :=
    inner_of_push whole ready.suits (by unfold innerFor; omega) named'
  have vacant : l.Vacant t i := {
    indirect := fun one => absurd (by simpa [push, many] using one) (apart' _ named').1
    doubly := fun wrong => by
      refine absurd named (fun _ => ?_)
      obtain rfl : s = t := Option.some.inj (two.symm.trans wrong)
      exact (apart' _ named').2 named
    inner := fun {j} here => by
      have inside := (List.getElem?_eq_some_iff.1 here).1
      have : j = o.val := once j o.val (by
        simp only [push, if_neg many, List.getElem?_append_left inside]
        exact here) named'
      omega }
  have linked := linking.putEntry (s := Sector.ofNat ((l.push r).block l.count))
    (spare_index whole ready.suits ready.nodup mem') vacant (ready.ne_index mem')
  rw [Action.ensures_bind]
  refine readPointer_spec { ready.stored with indexed := linking.indexed }
    (mem_index.2 (.inr (.inl two))) (index_mem_owned (mem_index.2 (.inr (.inr ⟨_, inner⟩))))
    (linking.indexed.doubly two inner) ?_ fun may => io may _ linking
  refine writePointer_spec (ready.inside _ (index_mem_owned mem')) ready.stored.small ?_
    fun may => io may _ linking
  refine ok _ linked (linked.indexed.push whole ready.lt ready.suits ?_ ?_)
  · omega
  · intro s' t' o' i' two' inner' at_o _
    have same : s' = s := Option.some.inj (two'.symm.trans named)
    have same' : o' = o.val := by omega
    have same'' : i' = i.val := by omega
    subst same same' same''
    have same := Option.some.inj (inner'.symm.trans named')
    subst same
    refine ⟨linked.indexed.doubly two inner, ?_⟩
    rw [entry_putEntry, if_pos ⟨rfl, rfl⟩, ready.index_block]

/-- Linking a block puts it behind those that were there. -/
theorem link_spec {Q : Except Failure Unit → FileBlocks m → Image → Prop} {place : Place}
    (found : Place.of l.count = some place)
    (ok : ∀ image', Linking others l r image₀ image' → (l.push r).Indexed image' →
      Q (.ok ()) b image')
    (io : mayFail → ∀ image', Kept others l image₀ image' → l.Indexed image' →
      Q (.error .io) b image') :
    (link d place (Sector.ofNat ((l.push r).block l.count)) r : BlockAction m _).Ensures m mayFail
      b image₀ Q := by
  have whole := ready.stored.whole
  have io' (may : mayFail) (image' : Image) (linking : Linking others l r image₀ image') :
      Q (.error .io) b image' := io may image' linking.kept linking.indexed
  unfold link
  rw [Action.ensures_bind, Action.ensures_clear, ready.index_block]
  refine ⟨ready.block_inside, ?_, fun may => io may _ (.refl others l image₀) ready.stored.indexed⟩
  rw [Action.onward_ok, Action.ensures_bind]
  refine clearIndex_spec (P := Linking others l r image₀) (ready.linking_clear _ rfl)
    (fun s mem => ready.inside _ (index_mem_owned (mem_push_index whole ready.suits mem)))
    (fun image₁ s y mem linking => ?_) (fun image₂ linking => ?_)
    fun image' may linking => io' may image' linking
  · have mem' := mem_push_index whole ready.suits mem
    refine linking.update (spare_index whole ready.suits ready.nodup mem') (fun old => ?_)
      (ready.ne_index mem')
    exact not_owned_of_taken whole ready.suits ready.nodup_owned mem (index_mem_owned old)
  · have at_place := Place.of_eq found
    cases place with
    | direct i =>
      change l.count = i.val at at_place
      exact ok image₂ linking (linking.indexed.push whole ready.lt ready.suits (by omega) (by omega))
    | indirect i =>
      obtain ⟨t, named⟩ := ready.exists_indirect at_place
      change l.count = 12 + i.val at at_place
      simp only [ready.indirect_pointer (by omega) named]
      exact ready.linkIndirect_spec at_place named linking ok fun may => io' may _ linking
    | doubly o i =>
      obtain ⟨s, t, named, named'⟩ := ready.exists_doubly at_place
      simp only [ready.doubly_pointer named]
      cases new : r.indirect with
      | some u => exact ready.linkNew_spec new at_place named named' linking ok io'
      | none => exact ready.linkOld_spec new at_place named named' linking ok io'

end Ready

end FileBlocks

end SectorFs
