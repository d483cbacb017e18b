/-
# SectorFs.Proofs.File.Layout — which sectors a file owns, and what says so

A `Layout` is what an inode and its index blocks say about a file: its
allocation groups, each by its first sector, and its index blocks. Block `i` of
the file is in group `i / 8` (`Layout.block`), and the file owns whole groups
(`Layout.owned`). A layout is whole when it has as many groups and index blocks
as its blocks need (`Layout.Whole`); so the number of sectors that it owns
depends on the number of its blocks alone (`length_owned`).

The words of the inode follow from the layout (`Layout.Describes`), and so do
the entries of the index blocks that stand for a block (`Layout.Indexed`).
`Layout.trim` is the layout with the last blocks taken away.
-/
import SectorFs.File.Blocks
import SectorFs.Proofs.Store.Ensures
import SectorFs.Proofs.Disk.Marks

namespace SectorFs

set_option autoImplicit false

/-- Allocation groups of a file of `n` blocks. -/
def groupsFor (n : Nat) : Nat := (n + 7) / 8

/-- Indirect blocks that the doubly-indirect block of a file of `n` blocks names. -/
def innerFor (n : Nat) : Nat := (n - 140 + 127) / 128

/-- Index blocks of a file of `n` blocks. -/
def indexFor (n : Nat) : Nat :=
  if n ≤ 12 then 0 else if n ≤ 140 then 1 else 2 + innerFor n

/-- The sectors that an inode of `n` blocks takes: its own, its groups and its index blocks. -/
def sectorsTaken (n : Nat) : Nat := 1 + 8 * groupsFor n + indexFor n

structure Layout where
  /-- The number of blocks. -/
  count : Nat
  /-- The first sectors of the groups. -/
  groups : List Nat
  indirect : Option Nat
  doubly : Option Nat
  /-- The indirect blocks that the doubly-indirect block names. -/
  inner : List Nat

namespace Layout

/-- The sector of the `i`-th block. -/
def block (l : Layout) (i : Nat) : Nat := l.groups[i / 8]?.getD 0 + i % 8

/-- The sectors of the groups, also those that stand for no block yet. -/
def data (l : Layout) : List Nat := l.groups.flatMap fun g => List.range' g 8

def index (l : Layout) : List Nat := l.indirect.toList ++ l.doubly.toList ++ l.inner

def owned (l : Layout) : List Nat := l.data ++ l.index

/-- The sectors of the last group that stand for no block. -/
def left (l : Layout) : Nat := (8 - l.count % 8) % 8

/-- The sector of the next block, if it is in a group of the file. -/
def next (l : Layout) : Option Nat := if l.left = 0 then none else some (l.block l.count)

/-- The sector that an inode pointer names; zero for none. -/
def pointer (l : Layout) (slot : Nat) : Nat :=
  if slot < 12 then if slot < l.count then l.block slot else 0
  else if slot = 12 then l.indirect.getD 0
  else if slot = 13 then l.doubly.getD 0
  else 0

/-- The layout of the first `n` blocks. -/
def trim (l : Layout) (n : Nat) : Layout where
  count := n
  groups := l.groups.take (groupsFor n)
  indirect := if 12 < n then l.indirect else none
  doubly := if 140 < n then l.doubly else none
  inner := l.inner.take (innerFor n)

/-- The layout of a file without blocks. -/
def nothing : Layout := ⟨0, [], none, none, []⟩

/-- There are as many groups and index blocks as the blocks need. -/
structure Whole (l : Layout) : Prop where
  le : l.count ≤ maxBlocks
  groups : l.groups.length = groupsFor l.count
  indirect : l.indirect.isSome ↔ 12 < l.count
  doubly : l.doubly.isSome ↔ 140 < l.count
  inner : l.inner.length = innerFor l.count

/-- The words of an inode that say where its blocks are. -/
structure Describes (l : Layout) (d : Inode) : Prop where
  count : d.countWord = UInt32.ofNat l.count
  left : d.leftWord = UInt32.ofNat l.left
  next : d.cursorWord = UInt32.ofNat (l.next.getD 0)
  pointers {slot : Nat} : slot < 15 → d.pointers[slot]? = some (UInt32.ofNat (l.pointer slot))

variable {l : Layout} {i j n : Nat}

theorem whole_nothing : nothing.Whole := ⟨by decide, rfl, by decide, by decide, rfl⟩

theorem lt_of_whole (whole : l.Whole) (h : i < l.count) : i / 8 < l.groups.length := by
  rw [whole.groups, groupsFor]
  omega

/-! ## The sectors of a layout -/

theorem getElem?_data (groups : List Nat) (h : i < 8 * groups.length) :
    (groups.flatMap fun g => List.range' g 8)[i]? = some (groups[i / 8]?.getD 0 + i % 8) := by
  induction groups generalizing i with
  | nil => exact absurd h (by simp)
  | cons g rest ih =>
    rw [List.flatMap_cons]
    by_cases first : i < 8
    · have zero : i / 8 = 0 := by omega
      rw [List.getElem?_append_left (by simpa using first), zero, Nat.mod_eq_of_lt first]
      simp [first]
    · have succ : i / 8 = (i - 8) / 8 + 1 := by omega
      have shift : i % 8 = (i - 8) % 8 := by omega
      rw [List.getElem?_append_right (by simpa using first), List.length_range', succ, shift,
        List.getElem?_cons_succ]
      refine ih ?_
      rw [List.length_cons] at h
      omega

theorem length_data : l.data.length = 8 * l.groups.length := by
  simp [data, Nat.mul_comm]

theorem data_getElem? (h : i / 8 < l.groups.length) : l.data[i]? = some (l.block i) :=
  getElem?_data l.groups (by omega)

/-- Neighbours in a group are neighbours on the disk. -/
theorem block_succ (same : (i + 1) % 8 ≠ 0) : l.block (i + 1) = l.block i + 1 := by
  have group : (i + 1) / 8 = i / 8 := by omega
  rw [block, block, group]
  omega

theorem block_mem_data (h : i / 8 < l.groups.length) : l.block i ∈ l.data :=
  List.mem_of_getElem? (data_getElem? h)

theorem block_mem_owned (h : i / 8 < l.groups.length) : l.block i ∈ l.owned :=
  List.mem_append_left _ (block_mem_data h)

theorem index_mem_owned {t : Nat} (mem : t ∈ l.index) : t ∈ l.owned :=
  List.mem_append_right _ mem

theorem mem_index {t : Nat} : t ∈ l.index ↔
    l.indirect = some t ∨ l.doubly = some t ∨ ∃ j : Nat, l.inner[j]? = some t := by
  rw [index, List.mem_append, List.mem_append, Option.mem_toList, Option.mem_toList, or_assoc,
    List.mem_iff_getElem?]

/-- Different blocks are in different sectors. -/
theorem block_inj (nodup : l.owned.Nodup) (hi : i / 8 < l.groups.length)
    (hj : j / 8 < l.groups.length) (same : l.block i = l.block j) : i = j := by
  have data := (List.nodup_append'.1 nodup).1
  have inside : i < l.data.length := by rw [length_data]; omega
  refine (List.getElem?_inj inside data).1 ?_
  rw [data_getElem? hi, data_getElem? hj, same]

theorem block_not_index (nodup : l.owned.Nodup) (h : i / 8 < l.groups.length) :
    l.block i ∉ l.index :=
  fun mem => (List.nodup_append'.1 nodup).2.2 (block_mem_data h) mem

theorem length_index (whole : l.Whole) : l.index.length = indexFor l.count := by
  have one : l.indirect.toList.length = if 12 < l.count then 1 else 0 := by
    rw [Option.length_toList]
    exact if_congr whole.indirect rfl rfl
  have two : l.doubly.toList.length = if 140 < l.count then 1 else 0 := by
    rw [Option.length_toList]
    exact if_congr whole.doubly rfl rfl
  rw [index, List.length_append, List.length_append, one, two, whole.inner, indexFor]
  by_cases direct : l.count ≤ 12
  · rw [if_neg (by omega), if_neg (by omega), if_pos direct, innerFor]
    omega
  · by_cases few : l.count ≤ 140
    · rw [if_pos (by omega), if_neg (by omega), if_neg direct, if_pos few, innerFor]
      omega
    · rw [if_pos (by omega), if_pos (by omega), if_neg direct, if_neg few]

/-- How many sectors a file owns depends on the number of its blocks alone. -/
theorem length_owned (whole : l.Whole) :
    l.owned.length = 8 * groupsFor l.count + indexFor l.count := by
  rw [owned, List.length_append, length_data, whole.groups, length_index whole]

/-! ## Taking blocks away -/

theorem innerFor_mono {k n : Nat} (h : k ≤ n) : innerFor k ≤ innerFor n := by
  unfold innerFor; omega

theorem groupsFor_mono {k n : Nat} (h : k ≤ n) : groupsFor k ≤ groupsFor n := by
  unfold groupsFor; omega

/-- A group is begun with every eighth block. -/
theorem groupsFor_succ (n : Nat) : groupsFor (n + 1) = groupsFor n + if n % 8 = 0 then 1 else 0 := by
  unfold groupsFor
  split <;> omega

/-- The block from which on an index block has to be there brings it with it. -/
theorem indexFor_succ (n : Nat) : indexFor (n + 1) = indexFor n +
    ((if n = 12 ∨ 140 ≤ n ∧ (n - 140) % 128 = 0 then 1 else 0) + if n = 140 then 1 else 0) := by
  unfold indexFor innerFor
  split_ifs <;> omega

theorem indexFor_mono {k n : Nat} (h : k ≤ n) : indexFor k ≤ indexFor n := by
  unfold indexFor innerFor
  split_ifs <;> omega

theorem trim_whole (whole : l.Whole) (le : n ≤ l.count) : (l.trim n).Whole where
  le := Nat.le_trans le whole.le
  groups := by
    have := groupsFor_mono le
    simp only [trim, List.length_take, whole.groups]
    omega
  indirect := by
    have := whole.indirect
    simp only [trim]
    split
    · exact ⟨fun _ => by assumption, fun _ => this.2 (by omega)⟩
    · simp; omega
  doubly := by
    have := whole.doubly
    simp only [trim]
    split
    · exact ⟨fun _ => by assumption, fun _ => this.2 (by omega)⟩
    · simp; omega
  inner := by
    have := innerFor_mono le
    simp only [trim, List.length_take, whole.inner]
    omega

theorem trim_count (whole : l.Whole) : l.trim l.count = l := by
  have one : (if 12 < l.count then l.indirect else none) = l.indirect := by
    split
    · rfl
    · have := mt whole.indirect.1 (by assumption)
      rw [Option.not_isSome_iff_eq_none] at this
      exact this.symm
  have two : (if 140 < l.count then l.doubly else none) = l.doubly := by
    split
    · rfl
    · have := mt whole.doubly.1 (by assumption)
      rw [Option.not_isSome_iff_eq_none] at this
      exact this.symm
  simp only [trim, one, two, ← whole.groups, ← whole.inner, List.take_length]

theorem trim_trim {k : Nat} (le : k ≤ n) : (l.trim n).trim k = l.trim k := by
  have groups := groupsFor_mono le
  have inner := innerFor_mono le
  have one : (if 12 < k then if 12 < n then l.indirect else none else none) =
      if 12 < k then l.indirect else none := by
    split
    · rw [if_pos (by omega)]
    · rfl
  have two : (if 140 < k then if 140 < n then l.doubly else none else none) =
      if 140 < k then l.doubly else none := by
    split
    · rw [if_pos (by omega)]
    · rfl
  simp only [trim, one, two, List.take_take, Nat.min_eq_left groups, Nat.min_eq_left inner]

theorem block_trim_group (inside : i / 8 < groupsFor n) : (l.trim n).block i = l.block i := by
  simp only [block, trim, List.getElem?_take, if_pos inside]

theorem block_trim (h : i < n) : (l.trim n).block i = l.block i :=
  block_trim_group (by unfold groupsFor; omega)

theorem trim_zero : l.trim 0 = nothing := rfl

end Layout

/-! ## What an inode says about its blocks -/

/-- The inode without what it says about its blocks. -/
def Inode.bare (d : Inode) : Inode :=
  { d with countWord := 0, leftWord := 0, cursorWord := 0, pointers := Vector.replicate 15 0 }

theorem Sector.index_ofNat {s : Nat} (h : s < 0x100000000) : (Sector.ofNat s).index = s :=
  UInt32.toNat_ofNat_of_lt' (by simpa [UInt32.size] using h)

theorem Sector.offset_one {x : Nat} (h : x + 1 < 0x100000000) :
    (Sector.ofNat x).offset 1 = .ok (Sector.ofNat (x + 1)) := by
  have sum : UInt32.ofNat x + UInt32.ofNat 1 = UInt32.ofNat (x + 1) := by simp
  simp only [Sector.offset, word32, Sector.index_ofNat (s := x) (by omega), if_pos h]
  exact congrArg (fun n => Except.ok (Sector.mk n)) sum

theorem Inode.withBlockCount_eq {n : Nat} (h : n < 0x100000000) (d : Inode) :
    d.withBlockCount n = .ok { d with countWord := UInt32.ofNat n } := by
  simp only [Inode.withBlockCount, word32, if_pos h]
  rfl

theorem Inode.withGroupLeft_eq {n : Nat} (h : n < 0x100000000) (d : Inode) :
    d.withGroupLeft n = .ok { d with leftWord := UInt32.ofNat n } := by
  simp only [Inode.withGroupLeft, word32, if_pos h]
  rfl

theorem Inode.getElem?_withPointer (d : Inode) (changed : Fin 15) (s : Option Sector)
    (slot : Nat) : (d.withPointer changed s).pointers[slot]? =
      if slot = changed then some (Sector.toPointer s) else d.pointers[slot]? := by
  rw [Inode.withPointer, Vector.getElem?_set]
  by_cases same : changed.val = slot
  · simp [same]
  · rw [if_neg same, if_neg (Ne.symm same)]

theorem Sector.ofNat_index (s : Sector) : Sector.ofNat s.index = s := by
  cases s
  simp [Sector.ofNat, Sector.index]

theorem word_eq_zero {s : Nat} (h : s < 0x100000000) : UInt32.ofNat s = 0 ↔ s = 0 := by
  rw [← UInt32.toNat_inj, UInt32.toNat_ofNat_of_lt' (by simpa [UInt32.size] using h)]
  rfl

/-- A stored sector number that is not zero is read back as the sector. -/
theorem Sector.ofPointer_ofNat {s : Nat} (h : s < 0x100000000) :
    Sector.ofPointer (UInt32.ofNat s) = if s = 0 then none else some (Sector.ofNat s) :=
  if_congr (word_eq_zero h) rfl rfl

namespace Layout

variable {l : Layout} {i j n : Nat} {d d' : Inode}

theorem left_lt : l.left < 8 := Nat.mod_lt _ (by decide)

/-- What an inode says about its blocks leaves no choice. -/
theorem Describes.unique (describes : l.Describes d) (describes' : l.Describes d')
    (bare : d'.bare = d.bare) : d' = d := by
  have pointers : d'.pointers = d.pointers := by
    apply Vector.ext
    intro slot h
    have same := (describes'.pointers h).trans (describes.pointers h).symm
    rw [Vector.getElem?_eq_getElem h, Vector.getElem?_eq_getElem h] at same
    exact Option.some.inj same
  cases d
  cases d'
  simp only [Inode.bare, Inode.mk.injEq, true_and] at bare
  simp only [Inode.mk.injEq]
  exact ⟨bare.1, bare.2.1, describes'.count.trans describes.count.symm,
    describes'.next.trans describes.next.symm, describes'.left.trans describes.left.symm,
    pointers, bare.2.2⟩

theorem Describes.blockCount (describes : l.Describes d) (whole : l.Whole) :
    d.blockCount = l.count := by
  have le := whole.le
  rw [maxBlocks_eq] at le
  rw [Inode.blockCount, describes.count, UInt32.toNat_ofNat_of_lt' (by simp [UInt32.size]; omega)]

theorem Describes.groupLeft (describes : l.Describes d) : d.groupLeft = l.left := by
  have := left_lt (l := l)
  rw [Inode.groupLeft, describes.left, UInt32.toNat_ofNat_of_lt' (by simp [UInt32.size]; omega)]

/-- Sectors that a pointer can name. -/
def Proper (l : Layout) : Prop := ∀ s ∈ l.owned, s ≠ 0 ∧ s < 0x100000000

theorem next_mem_owned (whole : l.Whole) (left : l.left ≠ 0) : l.block l.count ∈ l.owned := by
  refine block_mem_owned ?_
  rw [whole.groups, groupsFor]
  unfold Layout.left at left
  omega

theorem Describes.cursor (describes : l.Describes d) (whole : l.Whole) (proper : l.Proper) :
    d.cursor = l.next.map Sector.ofNat := by
  rw [Inode.cursor, describes.next, Layout.next]
  split
  · rfl
  · have := proper _ (next_mem_owned whole (by assumption))
    rw [Option.getD_some, Sector.ofPointer_ofNat this.2, if_neg this.1]
    rfl

theorem Describes.pointer (describes : l.Describes d) (slot : Fin 15) :
    d.pointer slot = Sector.ofPointer (UInt32.ofNat (l.pointer slot)) := by
  have word := describes.pointers slot.isLt
  rw [Vector.getElem?_eq_getElem slot.isLt] at word
  exact congrArg Sector.ofPointer (Option.some.inj word)

theorem Describes.direct (describes : l.Describes d) (whole : l.Whole) (proper : l.Proper)
    (i : Fin 12) (h : i.val < l.count) :
    d.pointer (Inode.directPointer i) = some (Sector.ofNat (l.block i)) := by
  have := proper _ (block_mem_owned (lt_of_whole whole h))
  rw [describes.pointer, Layout.pointer]
  simp only [Inode.directPointer, Fin.val_castLE, i.isLt, h, if_true]
  rw [Sector.ofPointer_ofNat this.2, if_neg this.1]

theorem ofPointer_getD {o : Option Nat} (proper : ∀ s, o = some s → s ≠ 0 ∧ s < 0x100000000) :
    Sector.ofPointer (UInt32.ofNat (o.getD 0)) = o.map Sector.ofNat := by
  cases o with
  | none => rfl
  | some s =>
    have := proper s rfl
    rw [Option.getD_some, Sector.ofPointer_ofNat this.2, if_neg this.1]
    rfl

theorem Describes.indirect (describes : l.Describes d) (proper : l.Proper) :
    d.pointer indirectPointer = l.indirect.map Sector.ofNat := by
  rw [describes.pointer]
  exact ofPointer_getD fun s named => proper s (index_mem_owned (mem_index.2 (.inl named)))

theorem Describes.doubly (describes : l.Describes d) (proper : l.Proper) :
    d.pointer doublyPointer = l.doubly.map Sector.ofNat := by
  rw [describes.pointer]
  exact ofPointer_getD fun s named => proper s (index_mem_owned (mem_index.2 (.inr (.inl named))))

theorem owned_nothing : nothing.owned = [] := rfl

theorem describes_empty (isDirectory : Bool) (parent : Sector) :
    nothing.Describes (.empty isDirectory parent) where
  count := rfl
  left := rfl
  next := rfl
  pointers {slot} h := by
    have zero : nothing.pointer slot = 0 := by
      unfold pointer
      split
      · rfl
      · split
        · rfl
        · split <;> rfl
    rw [zero]
    simp [Inode.empty, Inode.zero, h]

/-! ## What the index blocks say -/

end Layout

/-- The sector number in an entry of an index block. -/
def entry (image : Image) (t j : Nat) : Nat :=
  ((IndexBlock.decode (image t)).words[j]?.getD 0).toNat

/-- The sectors after an entry of an index block was set. -/
def putEntry (image : Image) (t : Nat) (j : Fin 128) (s : Sector) : Image :=
  Function.update image t ((IndexBlock.decode (image t)).set j (some s)).encode

theorem get_decode {image : Image} {t s : Nat} {j : Fin 128} (holds : entry image t j = s)
    (proper : s ≠ 0) : (IndexBlock.decode (image t)).get j = some (Sector.ofNat s) := by
  subst holds
  rw [IndexBlock.get]
  rw [entry, Vector.getElem?_eq_getElem j.isLt, Option.getD_some] at proper ⊢
  generalize word : (IndexBlock.decode (image t)).words[j] = w
  change (IndexBlock.decode (image t)).words[j.val] = w at word
  rw [word] at proper
  rw [Sector.ofPointer, if_neg fun zero => proper (by rw [zero]; rfl)]
  simp [Sector.ofNat]

theorem entry_putEntry (image : Image) (t t' : Nat) (j : Fin 128) (j' : Nat) (s : Sector) :
    entry (putEntry image t j s) t' j' =
      if t' = t ∧ j' = j then s.index else entry image t' j' := by
  by_cases same : t' = t
  · subst same
    rw [entry, putEntry, Function.update_self, IndexBlock.decode_encode, IndexBlock.set,
      Vector.getElem?_set]
    by_cases here : j.val = j'
    · simp [here, Sector.toPointer, Sector.index]
    · rw [if_neg here, if_neg fun both => here both.2.symm, entry]
  · rw [entry, putEntry, Function.update_of_ne same, if_neg fun both => same both.1, entry]

namespace Layout

variable {l : Layout} {image image' : Image}

/-- The entries of the index blocks that stand for a block. -/
structure Indexed (l : Layout) (image : Image) : Prop where
  indirect {t i : Nat} : l.indirect = some t → i < 128 → 12 + i < l.count →
    entry image t i = l.block (12 + i)
  doubly {t j s : Nat} : l.doubly = some t → l.inner[j]? = some s → entry image t j = s
  inner {j t i : Nat} : l.inner[j]? = some t → i < 128 → 140 + 128 * j + i < l.count →
    entry image t i = l.block (140 + 128 * j + i)

/-- An entry of an index block that stands for no block yet. -/
structure Vacant (l : Layout) (t i : Nat) : Prop where
  indirect : l.indirect = some t → l.count ≤ 12 + i
  doubly : l.doubly = some t → l.inner[i]? = none
  inner {j : Nat} : l.inner[j]? = some t → l.count ≤ 140 + 128 * j + i

theorem indexed_nothing (image : Image) : nothing.Indexed image :=
  ⟨nofun, nofun, nofun⟩

theorem Indexed.congr (indexed : l.Indexed image) (same : ∀ t ∈ l.index, image' t = image t) :
    l.Indexed image' := by
  have entry_eq {t : Nat} (mem : t ∈ l.index) (i : Nat) : entry image' t i = entry image t i := by
    rw [entry, entry, same t mem]
  refine ⟨fun named small inside => ?_, fun named here => ?_, fun named small inside => ?_⟩
  · rw [entry_eq (mem_index.2 (.inl named))]
    exact indexed.indirect named small inside
  · rw [entry_eq (mem_index.2 (.inr (.inl named)))]
    exact indexed.doubly named here
  · rw [entry_eq (mem_index.2 (.inr (.inr ⟨_, named⟩)))]
    exact indexed.inner named small inside

theorem Indexed.update {t : Nat} {b : Block 512} (indexed : l.Indexed image)
    (other : t ∉ l.index) : l.Indexed (Function.update image t b) :=
  indexed.congr fun t' mem => Function.update_of_ne (fun same : t' = t => other (same ▸ mem)) _ _

/-- An entry that stands for no block can be set to anything. -/
theorem Indexed.putEntry {t : Nat} {i : Fin 128} {s : Sector} (indexed : l.Indexed image)
    (vacant : l.Vacant t i) : l.Indexed (putEntry image t i s) := by
  refine ⟨fun named small inside => ?_, fun named here => ?_, fun named small inside => ?_⟩
  · rw [entry_putEntry, if_neg]
    · exact indexed.indirect named small inside
    · rintro ⟨rfl, rfl⟩
      have := vacant.indirect named
      omega
  · rw [entry_putEntry, if_neg]
    · exact indexed.doubly named here
    · rintro ⟨rfl, rfl⟩
      rw [vacant.doubly named] at here
      cases here
  · rw [entry_putEntry, if_neg]
    · exact indexed.inner named small inside
    · rintro ⟨rfl, rfl⟩
      have := vacant.inner named
      omega

theorem Indexed.trim (indexed : l.Indexed image) {n : Nat} (le : n ≤ l.count) :
    (l.trim n).Indexed image := by
  have inner {j t : Nat} (named : (l.trim n).inner[j]? = some t) : l.inner[j]? = some t := by
    simp only [Layout.trim, List.getElem?_take] at named
    split at named
    · exact named
    · cases named
  refine ⟨fun {t i} named small inside => ?_, fun {t j s} named here => ?_,
    fun {j t i} named small inside => ?_⟩
  · change 12 + i < n at inside
    rw [block_trim inside]
    simp only [Layout.trim] at named
    split at named
    · exact indexed.indirect named small (by omega)
    · cases named
  · simp only [Layout.trim] at named
    split at named
    · exact indexed.doubly named (inner here)
    · cases named
  · change 140 + 128 * j + i < n at inside
    rw [block_trim inside]
    exact indexed.inner (inner named) small (by omega)

end Layout

end SectorFs
