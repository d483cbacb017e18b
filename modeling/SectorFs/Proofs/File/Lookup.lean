/-
# SectorFs.Proofs.File.Lookup — the way from a block to its sector

`Layout.Stored l m d image`: the inode `d` and the index blocks in `image` say
what the layout `l` says, about sectors of a disk of `m` sectors. Then the
sector of every block of the file is found (`sectorOfBlock_spec`), and no block
beyond them (`sectorOfBlock_beyond`). Nothing is changed on the way.
-/
import SectorFs.Proofs.File.Layout

namespace SectorFs

set_option autoImplicit false

/-- What stands at a place in the tree of a file's blocks. -/
theorem Place.of_eq {n : Nat} {place : Place} (found : Place.of n = some place) :
    match place with
    | .direct i => n = i.val
    | .indirect i => n = 12 + i.val
    | .doubly outer inner => n = 140 + 128 * outer.val + inner.val := by
  unfold Place.of at found
  split at found
  · cases found
    rfl
  · split at found
    · cases found
      change n = 12 + (n - 12)
      omega
    · split at found
      · cases found
        change n = 140 + 128 * ((n - 140) / 128) + (n - 140) % 128
        omega
      · cases found

theorem Place.exists_of {n : Nat} (h : n < maxBlocks) : ∃ place, Place.of n = some place := by
  cases found : Place.of n with
  | none => exact absurd ((Place.of_eq_none_iff n).1 found) (by omega)
  | some place => exact ⟨place, rfl⟩

/-- Inode and index blocks say where the blocks of the layout are. -/
structure Layout.Stored (l : Layout) (m : Nat) (d : Inode) (image : Image) : Prop where
  whole : l.Whole
  describes : l.Describes d
  indexed : l.Indexed image
  nodup : l.owned.Nodup
  inside : ∀ s ∈ l.owned, s < m
  nonzero : 0 ∉ l.owned
  small : m ≤ 0x100000000

variable {m : Nat} {mayFail : Prop} {σ : Type} {memory : σ} {image : Image} {l : Layout}
  {d : Inode}

namespace Layout.Stored

theorem proper (stored : l.Stored m d image) : l.Proper := fun s mem =>
  ⟨fun zero => stored.nonzero (zero ▸ mem), Nat.lt_of_lt_of_le (stored.inside s mem) stored.small⟩

theorem index_ofNat (stored : l.Stored m d image) {s : Nat} (mem : s ∈ l.owned) :
    (Sector.ofNat s).index = s := Sector.index_ofNat (stored.proper s mem).2

/-- Only the index blocks matter. -/
theorem congr {image' : Image} (stored : l.Stored m d image)
    (same : ∀ t ∈ l.index, image' t = image t) : l.Stored m d image' :=
  { stored with indexed := stored.indexed.congr same }

theorem inner_of_block (stored : l.Stored m d image) {o i : Nat}
    (inside : 140 + 128 * o + i < l.count) :
    ∃ s t : Nat, l.doubly = some s ∧ l.inner[o]? = some t := by
  obtain ⟨s, named⟩ := Option.isSome_iff_exists.1 (stored.whole.doubly.2 (by omega))
  have fits : o < l.inner.length := by
    rw [stored.whole.inner, innerFor]
    omega
  exact ⟨s, l.inner[o], named, List.getElem?_eq_getElem fits⟩

theorem indirect_of_block (stored : l.Stored m d image) {i : Nat} (inside : 12 + i < l.count) :
    ∃ s : Nat, l.indirect = some s :=
  Option.isSome_iff_exists.1 (stored.whole.indirect.2 (by omega))

end Layout.Stored

/-- The entry that an index block of the file has is read. -/
theorem readPointer_spec {Q : Except Failure (Option Sector) → σ → Image → Prop}
    (stored : l.Stored m d image) {t s : Nat} {j : Fin 128} (mem : t ∈ l.index) (mem' : s ∈ l.owned)
    (holds : entry image t j = s) (ok : Q (.ok (some (Sector.ofNat s))) memory image)
    (io : mayFail → Q (.error .io) memory image) :
    (Inode.readPointer (Sector.ofNat t) j : Action σ _).Ensures m mayFail memory image Q := by
  have own := Layout.index_mem_owned mem
  have found := get_decode holds (stored.proper s mem').1
  simp only [Inode.readPointer, Action.ensures_bind, Action.ensures_readIndex, Action.onward_ok,
    Action.onward_error, Action.ensures_pure, stored.index_ofNat own, found]
  exact ⟨stored.inside t own, ok, io⟩

theorem sectorOfBlock_spec {Q : Except Failure (Option Sector) → σ → Image → Prop} {i : Nat}
    (stored : l.Stored m d image) (inside : i < l.count)
    (ok : Q (.ok (some (Sector.ofNat (l.block i)))) memory image)
    (io : mayFail → Q (.error .io) memory image) :
    (d.sectorOfBlock i : Action σ _).Ensures m mayFail memory image Q := by
  have mem := Layout.block_mem_owned (Layout.lt_of_whole stored.whole inside)
  obtain ⟨place, found⟩ := Place.exists_of (Nat.lt_of_lt_of_le inside stored.whole.le)
  have here := Place.of_eq found
  unfold Inode.sectorOfBlock
  rw [stored.describes.blockCount stored.whole, if_neg (by omega)]
  cases place with
  | direct j =>
    obtain rfl : i = j.val := here
    simp only [found, stored.describes.direct stored.whole stored.proper j inside]
    exact ok
  | indirect j =>
    obtain rfl : i = 12 + j.val := here
    obtain ⟨t, named⟩ := stored.indirect_of_block inside
    simp only [found, stored.describes.indirect stored.proper, named, Option.map_some]
    exact readPointer_spec stored (Layout.mem_index.2 (.inl named)) mem
      (stored.indexed.indirect named j.isLt inside) ok io
  | doubly o j =>
    obtain rfl : i = 140 + 128 * o.val + j.val := here
    obtain ⟨s, t, named, named'⟩ := stored.inner_of_block inside
    have inner := Layout.mem_index.2 (.inr (.inr ⟨_, named'⟩))
    simp only [found, stored.describes.doubly stored.proper, named, Option.map_some]
    rw [Action.ensures_bind]
    refine readPointer_spec stored (Layout.mem_index.2 (.inr (.inl named)))
      (Layout.index_mem_owned inner) (stored.indexed.doubly named named') ?_ io
    exact readPointer_spec stored inner mem (stored.indexed.inner named' j.isLt inside) ok io

/-- The `i`-th block of an inode is found at a sector of a store. -/
def Inode.Locates {τ : Type} [SectorStore τ] (d : Inode) (store : τ) (i : Nat) (t : Sector) :
    Prop :=
  ∃ after, (d.sectorOfBlock i : Action Unit _).run () store = .ok ((.ok (some t), ()), after)

/-- Where no request fails every block is found. -/
theorem locates_spec {i : Nat} (stored : l.Stored m d image) (inside : i < l.count) :
    (d.sectorOfBlock i : Action Unit _).Ensures m False () image fun r _ _ =>
      r = .ok (some (Sector.ofNat (l.block i))) :=
  sectorOfBlock_spec stored inside rfl False.elim

theorem sectorOfBlock_beyond {Q : Except Failure (Option Sector) → σ → Image → Prop} {i : Nat}
    (stored : l.Stored m d image) (beyond : l.count ≤ i) (none : Q (.ok none) memory image) :
    (d.sectorOfBlock i : Action σ _).Ensures m mayFail memory image Q := by
  unfold Inode.sectorOfBlock
  rw [stored.describes.blockCount stored.whole, if_pos beyond]
  exact none

end SectorFs
