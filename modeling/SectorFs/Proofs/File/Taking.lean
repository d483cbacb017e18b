/-
# SectorFs.Proofs.File.Taking — the sectors for one more block

`FileBlocks.Holds b image l others`: the file has the layout `l`, and the free
map marks its sectors and those of `others`, which are in use for something
else; sector 0 is among them, so that no file ever owns it. For one block more a
file needs a group or an index block now and then (`NewSectors.Suits`); with
them its layout is `Layout.push`.
-/
import SectorFs.Proofs.File.Lookup

namespace SectorFs

set_option autoImplicit false

variable {m : Nat} {mayFail : Prop} {image image' : Image} {l : Layout} {d : Inode}
  {others rest : List Nat}

theorem eq_none_of_iff {α : Type} {o : Option α} {p : Prop} (some_iff : o.isSome ↔ p)
    (not : ¬ p) : o = none := by
  rw [← Option.not_isSome_iff_eq_none, some_iff]
  exact not

/-- A file and the free map that its sectors are marked in. -/
structure FileBlocks.Holds (b : FileBlocks m) (image : Image) (l : Layout)
    (others : List Nat) : Prop where
  stored : l.Stored m b.disk image
  marks : b.free.Marks (others ++ l.owned)
  reserved : 0 ∈ others

theorem FileBlocks.Holds.of {b : FileBlocks m} (whole : l.Whole) (describes : l.Describes b.disk)
    (indexed : l.Indexed image) (marks : b.free.Marks (others ++ l.owned)) (reserved : 0 ∈ others)
    (small : m ≤ 0x100000000) : b.Holds image l others where
  stored := {
    whole, describes, indexed, small
    nodup := (List.nodup_append'.1 marks.nodup).2.1
    inside := fun s mem => marks.inside s (List.mem_append_right _ mem)
    nonzero := fun mem => (List.nodup_append'.1 marks.nodup).2.2 reserved mem }
  marks := marks
  reserved := reserved

/-- A new inode owns no block yet. -/
theorem FileBlocks.holds_empty {free : FreeMap m} (marks : free.Marks others) (reserved : 0 ∈ others)
    (small : m ≤ 0x100000000) (isDirectory : Bool) (parent : Sector) :
    (⟨.empty isDirectory parent, free⟩ : FileBlocks m).Holds image .nothing others :=
  .of Layout.whole_nothing (Layout.describes_empty isDirectory parent)
    (Layout.indexed_nothing image) (by rwa [Layout.owned_nothing, List.append_nil]) reserved small

/-! ## Sectors from and to the free map -/

namespace FileBlocks

variable {b : FileBlocks m}

/-- What the others and the file have is not more than there is. -/
theorem Holds.room (holds : b.Holds image l others) :
    others.length + (8 * groupsFor l.count + indexFor l.count) ≤ m := by
  have le := holds.marks.length_le
  rwa [List.length_append, Layout.length_owned holds.stored.whole] at le

theorem Holds.countFree (holds : b.Holds image l others) : b.free.countFree =
    m - (others.length + (8 * groupsFor l.count + indexFor l.count)) := by
  rw [holds.marks.countFree, List.length_append, Layout.length_owned holds.stored.whole]

theorem take_spec {Q : Except Failure (Option Sector) → FileBlocks m → Image → Prop} {count : Nat}
    (marks : b.free.Marks rest) (small : m ≤ 0x100000000) (some_count : 0 < count)
    (none : Q (.ok none) b image)
    (taken : ∀ s free, s.index + count ≤ m → free.Marks (List.range' s.index count ++ rest) →
      Q (.ok (some s)) { b with free } image) :
    (take count : BlockAction m _).Ensures m mayFail b image Q := by
  simp only [take, Action.ensures_bind, Action.ensures_get, Action.onward_ok]
  rcases FreeMap.allocate_spec marks small some_count with same | ⟨s, free, same, fits, marks'⟩
  · rw [same]
    exact none
  · rw [same]
    exact taken s free fits marks'

theorem takeIf_spec {Q : Except Failure (Option Sector) → FileBlocks m → Image → Prop}
    {needed : Bool} (marks : b.free.Marks rest) (small : m ≤ 0x100000000)
    (taken : ∀ o free, (Option.isSome o → needed = true) →
      free.Marks (o.toList.map Sector.index ++ rest) → Q (.ok o) { b with free } image) :
    (takeIf needed : BlockAction m _).Ensures m mayFail b image Q := by
  have nothing : Q (.ok none) b image := taken none b.free (by simp) marks
  cases needed with
  | false => exact nothing
  | true =>
    exact take_spec marks small Nat.one_pos nothing fun s free _ marks' =>
      taken (some s) free (fun _ => rfl) marks'

theorem give_spec {Q : Except Failure Unit → FileBlocks m → Image → Prop} {s : Sector}
    {count : Nat} (marks : b.free.Marks (List.range' s.index count ++ rest))
    (small : m ≤ 0x100000000) (some_count : 0 < count)
    (given : ∀ free, free.Marks rest → Q (.ok ()) { b with free } image) :
    (give s count : BlockAction m _).Ensures m mayFail b image Q := by
  simp only [give, Action.ensures_bind, Action.ensures_get, Action.onward_ok]
  obtain ⟨free, same, marks'⟩ := FreeMap.release_spec small some_count marks
  rw [same]
  exact given free marks'

namespace NewSectors

/-- All sectors among those that were taken. -/
def sectors (r : NewSectors) : List Nat :=
  (r.group.toList.flatMap fun s => List.range' s.index 8) ++ r.indexBlocks.map Sector.index

theorem giveIndexBlocks_spec {Q : Except Failure Unit → FileBlocks m → Image → Prop}
    {blocks : List Sector} (marks : b.free.Marks (blocks.map Sector.index ++ rest))
    (small : m ≤ 0x100000000)
    (given : ∀ free, free.Marks rest → Q (.ok ()) { b with free } image) :
    (blocks.forM fun s => give s 1 : BlockAction m _).Ensures m mayFail b image Q := by
  induction blocks generalizing b with
  | nil => exact given b.free marks
  | cons s blocks ih =>
    change (give s 1 >>= fun _ => blocks.forM _).Ensures m mayFail b image Q
    rw [Action.ensures_bind]
    refine give_spec marks small Nat.one_pos fun free marks' => ?_
    exact ih marks' given

theorem giveBack_spec {Q : Except Failure Unit → FileBlocks m → Image → Prop} {r : NewSectors}
    (marks : b.free.Marks (r.sectors ++ rest)) (small : m ≤ 0x100000000)
    (given : ∀ free, free.Marks rest → Q (.ok ()) { b with free } image) :
    (r.giveBack : BlockAction m _).Ensures m mayFail b image Q := by
  have order : (r.sectors ++ rest).Perm (r.indexBlocks.map Sector.index ++
      ((r.group.toList.flatMap fun s => List.range' s.index 8) ++ rest)) := by
    rw [sectors, List.append_assoc]
    exact List.perm_append_comm_assoc _ _ _
  rw [giveBack, Action.ensures_bind]
  refine giveIndexBlocks_spec (marks.perm order) small fun free marks₁ => ?_
  rw [Action.onward_ok]
  cases group : r.group with
  | none =>
    rw [group] at marks₁
    exact given free marks₁
  | some g =>
    rw [group] at marks₁
    have marks₂ : free.Marks (List.range' g.index groupSize ++ rest) := by
      simpa [groupSize] using marks₁
    exact give_spec marks₂ small (by decide) fun free' marks' => given free' marks'

/-- The sectors taken are those that a file needs for one more block. -/
structure Suits (r : NewSectors) (l : Layout) : Prop where
  group : r.group.isSome ↔ l.count % 8 = 0
  indirect : r.indirect.isSome ↔ l.count = 12 ∨ 140 ≤ l.count ∧ (l.count - 140) % 128 = 0
  doubly : r.doubly.isSome ↔ l.count = 140

end NewSectors

end FileBlocks

/-! ## The layout with one block more -/

namespace Layout

open FileBlocks (NewSectors)

/-- The layout with one block more, for which the sectors `r` were taken. -/
def push (l : Layout) (r : NewSectors) : Layout where
  count := l.count + 1
  groups := l.groups ++ (r.group.map Sector.index).toList
  indirect := if l.count < 140 then (r.indirect.map Sector.index).or l.indirect else l.indirect
  doubly := (r.doubly.map Sector.index).or l.doubly
  inner := if l.count < 140 then l.inner else l.inner ++ (r.indirect.map Sector.index).toList

variable {r : NewSectors} {i : Nat}

theorem block_push (whole : l.Whole) (h : i < l.count) : (l.push r).block i = l.block i := by
  have inside := lt_of_whole whole h
  rw [block, block, push, List.getElem?_append_left inside]

theorem push_whole (whole : l.Whole) (lt : l.count < maxBlocks) (suits : r.Suits l) :
    (l.push r).Whole where
  le := lt
  groups := by
    simp only [push, List.length_append, whole.groups, groupsFor, Option.length_toList,
      Option.isSome_map, suits.group]
    split <;> omega
  indirect := by
    simp only [push]
    split
    · rw [Option.isSome_or, Option.isSome_map, Bool.or_eq_true, whole.indirect, suits.indirect]
      omega
    · rw [whole.indirect]
      omega
  doubly := by
    simp only [push, Option.isSome_or, Option.isSome_map, Bool.or_eq_true, whole.doubly,
      suits.doubly]
    omega
  inner := by
    simp only [push]
    split
    · rw [whole.inner, innerFor, innerFor]
      omega
    · simp only [List.length_append, whole.inner, Option.length_toList, Option.isSome_map,
        suits.indirect, innerFor]
      split <;> omega

theorem trim_push (whole : l.Whole) (suits : r.Suits l) : (l.push r).trim l.count = l := by
  have groups : (l.groups ++ (r.group.map Sector.index).toList).take (groupsFor l.count) =
      l.groups := by
    rw [← whole.groups, List.take_left]
  have inner : (l.push r).inner.take (innerFor l.count) = l.inner := by
    rw [← whole.inner]
    simp only [push]
    split
    · rw [List.take_length]
    · rw [List.take_left]
  have indirect : (if 12 < l.count then (l.push r).indirect else none) = l.indirect := by
    simp only [push]
    split
    · split
      · rw [eq_none_of_iff suits.indirect (by omega)]
        rfl
      · rfl
    · exact (eq_none_of_iff whole.indirect (by assumption)).symm
  have doubly : (if 140 < l.count then (l.push r).doubly else none) = l.doubly := by
    simp only [push]
    split
    · rw [eq_none_of_iff suits.doubly (by omega)]
      rfl
    · exact (eq_none_of_iff whole.doubly (by assumption)).symm
  cases l
  simp only [trim, mk.injEq]
  exact ⟨trivial, groups, indirect, doubly, inner⟩

theorem index_push (whole : l.Whole) (suits : r.Suits l) :
    (l.push r).index.Perm (r.indexBlocks.map Sector.index ++ l.index) := by
  have doubly : ((r.doubly.map Sector.index).or l.doubly).toList =
      (r.doubly.map Sector.index).toList ++ l.doubly.toList := by
    cases new : r.doubly with
    | none => rfl
    | some s =>
      have := suits.doubly.1 (by rw [new]; rfl)
      rw [eq_none_of_iff whole.doubly (by omega)]
      rfl
  have indirect (few : l.count < 140) : ((r.indirect.map Sector.index).or l.indirect).toList =
      (r.indirect.map Sector.index).toList ++ l.indirect.toList := by
    cases new : r.indirect with
    | none => rfl
    | some s =>
      have := suits.indirect.1 (by rw [new]; rfl)
      rw [eq_none_of_iff whole.indirect (by omega)]
      rfl
  refine List.perm_iff_count.2 fun s => ?_
  simp only [Layout.index, push, doubly, NewSectors.indexBlocks, List.map_append,
    ← Option.toList_map]
  split
  · rw [indirect (by assumption)]
    simp only [List.count_append]
    omega
  · simp only [List.count_append]
    omega

/-- The file owns the sectors that were taken, and those that it had. -/
theorem owned_push (whole : l.Whole) (suits : r.Suits l) :
    (l.push r).owned.Perm (r.sectors ++ l.owned) := by
  have data : (l.push r).data =
      l.data ++ r.group.toList.flatMap fun s => List.range' s.index 8 := by
    rw [data, data, push, List.flatMap_append]
    cases r.group <;> simp
  rw [owned, data, NewSectors.sectors, owned]
  refine List.perm_iff_count.2 fun s => ?_
  have := List.perm_iff_count.1 (index_push whole suits) s
  simp only [List.count_append] at this ⊢
  omega

end Layout

end SectorFs
