/-
# SectorFs.Proofs.File.Owned — the sectors that a stored inode names

A layout is only spoken of in proofs. `ownedIn image s` is what it stands for: the
sectors that can be read off the inode at `s` and its index blocks. Those are its own
sector, eight for each allocation group, and the index blocks. When the inode and
its index blocks say what a layout says, the two have the same sectors
(`Layout.Stored.ownedIn_eq`).
-/
import SectorFs.Proofs.File.Lookup

namespace SectorFs

set_option autoImplicit false

/-- The sector number in a pointer word; zero for none. -/
def Inode.pointee (d : Inode) (slot : Nat) : Nat := (d.pointers[slot]?.getD 0).toNat

/-- The sector of a block that an inode has. -/
def blockIn (image : Image) (d : Inode) (i : Nat) : Nat :=
  if i < 12 then d.pointee i
  else if i < 140 then entry image (d.pointee 12) (i - 12)
  else entry image (entry image (d.pointee 13) ((i - 140) / 128)) ((i - 140) % 128)

/-- The first sectors of an inode's allocation groups. -/
def groupsIn (image : Image) (d : Inode) : List Nat :=
  (List.range (groupsFor d.blockCount)).map fun g => blockIn image d (8 * g)

/-- The index blocks of an inode. -/
def indexIn (image : Image) (d : Inode) : List Nat :=
  (if 12 < d.blockCount then [d.pointee 12] else []) ++
    (if 140 < d.blockCount then [d.pointee 13] else []) ++
    (List.range (innerFor d.blockCount)).map (entry image (d.pointee 13))

/-- The sectors of the inode at `s`. -/
def ownedIn (image : Image) (s : Sector) : List Nat :=
  let d := Inode.decode (image s.index)
  s.index :: ((groupsIn image d).flatMap fun g => List.range' g groupSize) ++ indexIn image d

/-- The sectors that the inode `d` at `s` names: its own, those of its blocks, those left in its
last group, and its index blocks. -/
def namedBy (image : Image) (s : Sector) (d : Inode) : List Nat :=
  s.index :: ((List.range d.blockCount).map (blockIn image d) ++
    List.range' d.cursorWord.toNat d.groupLeft) ++ indexIn image d

theorem map_range_eq {α : Type} {n : Nat} {f : Nat → α} {l : List α} (length : n = l.length)
    (each : ∀ i a, l[i]? = some a → f i = a) : (List.range n).map f = l := by
  refine List.ext_getElem (by simp [length]) fun i h h' => ?_
  rw [List.getElem_map, List.getElem_range]
  exact each i _ (List.getElem?_eq_getElem h')

theorem toList_of_iff {o : Option Nat} {p : Prop} [Decidable p] {a : Nat} (some_iff : o.isSome ↔ p)
    (named : ∀ t, o = some t → a = t) : (if p then [a] else []) = o.toList := by
  cases o with
  | none => exact if_neg fun h => Bool.false_ne_true (some_iff.2 h)
  | some t => rw [if_pos (some_iff.1 rfl), named t rfl, Option.toList_some]

namespace Layout

variable {m : Nat} {image : Image} {l : Layout} {d : Inode} {i : Nat}

theorem pointer_lt (proper : l.Proper) (whole : l.Whole) (slot : Nat) :
    l.pointer slot < 0x100000000 := by
  have named {o : Option Nat} (owned : ∀ s, o = some s → s ∈ l.owned) :
      o.getD 0 < 0x100000000 := by
    cases o with
    | none => decide
    | some s => exact (proper s (owned s rfl)).2
  unfold pointer
  split
  · split
    case isTrue inside => exact (proper _ (block_mem_owned (lt_of_whole whole inside))).2
    case isFalse => decide
  · split
    · exact named fun s some => index_mem_owned (mem_index.2 (.inl some))
    · split
      · exact named fun s some => index_mem_owned (mem_index.2 (.inr (.inl some)))
      · decide

namespace Stored

variable (stored : l.Stored m d image)
include stored

theorem pointee_eq {slot : Nat} (h : slot < 15) : d.pointee slot = l.pointer slot := by
  have small := pointer_lt stored.proper stored.whole slot
  rw [Inode.pointee, stored.describes.pointers h, Option.getD_some,
    UInt32.toNat_ofNat_of_lt' (by simpa [UInt32.size] using small)]

theorem pointee_indirect {t : Nat} (named : l.indirect = some t) : d.pointee 12 = t := by
  rw [stored.pointee_eq (by decide)]
  exact congrArg (Option.getD · 0) named

theorem pointee_doubly {t : Nat} (named : l.doubly = some t) : d.pointee 13 = t := by
  rw [stored.pointee_eq (by decide)]
  exact congrArg (Option.getD · 0) named

theorem blockIn_eq (inside : i < l.count) : blockIn image d i = l.block i := by
  unfold blockIn
  split
  case isTrue direct =>
    rw [stored.pointee_eq (by omega), pointer, if_pos direct, if_pos inside]
  case isFalse direct =>
    split
    case isTrue single =>
      have place : 12 + (i - 12) = i := by omega
      obtain ⟨t, named⟩ := stored.indirect_of_block (i := i - 12) (by omega)
      rw [stored.pointee_indirect named, stored.indexed.indirect named (by omega) (by omega), place]
    case isFalse single =>
      have place : 140 + 128 * ((i - 140) / 128) + (i - 140) % 128 = i := by omega
      obtain ⟨s, t, named, named'⟩ := stored.inner_of_block (o := (i - 140) / 128)
        (i := (i - 140) % 128) (by omega)
      rw [stored.pointee_doubly named, stored.indexed.doubly named named',
        stored.indexed.inner named' (by omega) (by omega), place]

theorem groupsIn_eq : groupsIn image d = l.groups := by
  have count := stored.describes.blockCount stored.whole
  have groups := stored.whole.groups
  refine map_range_eq (by rw [count, groups]) fun g start at_g => ?_
  have inside : g < groupsFor l.count := groups ▸ (List.getElem?_eq_some_iff.1 at_g).1
  have first : 8 * g < l.count := by
    rw [groupsFor] at inside
    omega
  rw [stored.blockIn_eq first, block, Nat.mul_div_cancel_left g (by decide), at_g,
    Option.getD_some, Nat.mul_mod_right, Nat.add_zero]

theorem indexIn_eq : indexIn image d = l.index := by
  have count := stored.describes.blockCount stored.whole
  have inner : (List.range (innerFor l.count)).map (entry image (d.pointee 13)) = l.inner := by
    refine map_range_eq stored.whole.inner.symm fun j t at_j => ?_
    have inside : j < innerFor l.count :=
      stored.whole.inner ▸ (List.getElem?_eq_some_iff.1 at_j).1
    have many : 140 < l.count := by
      rw [innerFor] at inside
      omega
    obtain ⟨s, named⟩ := Option.isSome_iff_exists.1 (stored.whole.doubly.2 many)
    rw [stored.pointee_doubly named, stored.indexed.doubly named at_j]
  rw [indexIn, count, inner, index,
    toList_of_iff stored.whole.indirect fun _ => stored.pointee_indirect,
    toList_of_iff stored.whole.doubly fun _ => stored.pointee_doubly]

/-- The groups are the blocks and what is left in the last one. -/
theorem data_eq : (List.range d.blockCount).map (blockIn image d) ++
    List.range' d.cursorWord.toNat d.groupLeft = l.data := by
  have count := stored.describes.blockCount stored.whole
  have groups := stored.whole.groups
  have left := stored.describes.groupLeft
  refine List.ext_getElem? fun i => ?_
  by_cases inside : i < l.count
  · rw [List.getElem?_append_left (by simpa [count] using inside), List.getElem?_map,
      List.getElem?_range (by omega), Option.map_some, stored.blockIn_eq inside,
      data_getElem? (lt_of_whole stored.whole inside)]
  · rw [List.getElem?_append_right (by simpa [count] using inside), List.length_map,
      List.length_range, count, left]
    by_cases tail : i < l.count + l.left
    · -- what is left begins with the sector of the next block
      have some_left : l.left ≠ 0 := by omega
      have next := stored.proper _ (next_mem_owned stored.whole some_left)
      have cursor : d.cursorWord.toNat = l.block l.count := by
        rw [stored.describes.next, Layout.next, if_neg some_left, Option.getD_some,
          UInt32.toNat_ofNat_of_lt' (by simpa [UInt32.size] using next.2)]
      unfold Layout.left at tail
      have group : i / 8 = l.count / 8 := by omega
      have place : i % 8 = l.count % 8 + (i - l.count) := by omega
      rw [List.getElem?_range' (by unfold Layout.left; omega), cursor, data_getElem?, block, block,
        group, place]
      · congr 1
        omega
      · rw [groups, groupsFor]
        omega
    · rw [List.getElem?_eq_none (by simp; omega), List.getElem?_eq_none]
      rw [length_data, groups, groupsFor]
      unfold Layout.left at tail
      omega

theorem namedBy_eq (s : Sector) : namedBy image s d = s.index :: l.owned := by
  rw [namedBy, stored.data_eq, stored.indexIn_eq]
  rfl

/-- The inode names the sectors of its layout. -/
theorem ownedIn_eq {s : Sector} (decoded : Inode.decode (image s.index) = d) :
    ownedIn image s = s.index :: l.owned := by
  rw [ownedIn, decoded, stored.groupsIn_eq, stored.indexIn_eq, owned]
  rfl

end Stored

end Layout

end SectorFs
