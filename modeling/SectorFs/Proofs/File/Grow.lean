/-
# SectorFs.Proofs.File.Grow — files that get longer, and files that go

`growTo_spec`: a file that grows keeps its blocks, and the new ones are zero. If
it cannot grow it is as it was before, unless a request failed while the blocks
that had been added were taken away again. `dissolve_spec`: a file that goes
leaves only the sectors of others in use.
-/
import SectorFs.Proofs.File.Pop

namespace SectorFs

set_option autoImplicit false

variable {m : Nat} {mayFail : Prop} {image image' image₁ : Image} {l l' l₁ : Layout}
  {others : List Nat}

theorem Layout.block_of_trim (trim : l'.trim l.count = l) {i : Nat} (h : i < l.count) :
    l'.block i = l.block i := by
  rw [← block_trim h, trim]

namespace FileBlocks

variable {b b' b₁ : FileBlocks m}

/-- A file of layout `l` with blocks of zeros added to it. -/
structure Extended (b b' : FileBlocks m) (image image' : Image) (l l' : Layout)
    (others : List Nat) : Prop where
  holds : b'.Holds image' l' others
  le : l.count ≤ l'.count
  trim : l'.trim l.count = l
  bare : b'.disk.bare = b.disk.bare
  kept : Kept others l image image'
  zeros : ∀ i, l.count ≤ i → i < l'.count → image' (l'.block i) = Block.zero 512

theorem Extended.refl (holds : b.Holds image l others) : Extended b b image image l l others where
  holds := holds
  le := Nat.le_refl _
  trim := Layout.trim_count holds.stored.whole
  bare := rfl
  kept := .refl others l image
  zeros := by omega

theorem Extended.trans (first : Extended b b₁ image image₁ l l₁ others)
    (second : Extended b₁ b' image₁ image' l₁ l' others) :
    Extended b b' image image' l l' others where
  holds := second.holds
  le := Nat.le_trans first.le second.le
  trim := by
    rw [← Layout.trim_trim first.le, second.trim, first.trim]
  bare := second.bare.trans first.bare
  kept := by
    refine ⟨fun s mem => (second.kept.others s mem).trans (first.kept.others s mem),
      fun i inside => ?_⟩
    have le := first.le
    rw [← first.kept.blocks i inside, ← Layout.block_of_trim first.trim inside]
    exact second.kept.blocks i (by omega)
  zeros i lo hi := by
    by_cases old : i < l₁.count
    · rw [Layout.block_of_trim second.trim old, second.kept.blocks i old]
      exact first.zeros i lo old
    · exact second.zeros i (by omega) hi

theorem Appended.extended (appended : Appended b b' image image' l l' others) :
    Extended b b' image image' l l' others where
  holds := appended.holds
  le := by
    rw [appended.count]
    omega
  trim := appended.trim
  bare := appended.bare
  kept := appended.kept
  zeros i lo hi := by
    rw [appended.count] at hi
    obtain rfl : i = l.count := by omega
    exact appended.zero

theorem Unchanged.extended (unchanged : Unchanged b b' image image' l others) :
    Extended b b' image image' l l others :=
  { Extended.refl unchanged.holds with
    bare := congrArg Inode.bare unchanged.disk
    kept := unchanged.kept }

theorem appendMany_spec {Q : Except Failure Unit → FileBlocks m → Image → Prop} {count : Nat}
    (holds : b.Holds image l others)
    (ok : ∀ b' image' l', Extended b b' image image' l l' others → l'.count = l.count + count →
      Q (.ok ()) b' image')
    (error : ∀ e b' image' l', (e = .io → mayFail) → l'.count ≤ l.count + count →
      Extended b b' image image' l l' others → Q (.error e) b' image') :
    (appendMany count : BlockAction m _).Ensures m mayFail b image Q := by
  induction count generalizing b image l with
  | zero => exact ok b image l (.refl holds) rfl
  | succ count ih =>
    rw [appendMany, Action.ensures_bind]
    refine append_spec holds (fun b₁ image₁ l₁ appended => ?_)
      fun e b' image' io unchanged => error e b' image' l io (by omega) unchanged.extended
    have count := appended.count
    refine ih appended.holds (fun b' image' l' extended more => ?_)
      fun e b' image' l' io few extended => ?_
    · exact ok b' image' l' (appended.extended.trans extended) (by omega)
    · exact error e b' image' l' io (by omega) (appended.extended.trans extended)

/-- A file of layout `l` of which the first `n` blocks are left. -/
structure Trimmed (b b' : FileBlocks m) (image : Image) (l : Layout) (n : Nat)
    (others : List Nat) : Prop where
  holds : b'.Holds image (l.trim n) others
  bare : b'.disk.bare = b.disk.bare

theorem popMany_spec {Q : Except Failure Unit → FileBlocks m → Image → Prop} {count : Nat}
    (holds : b.Holds image l others) (le : count ≤ l.count)
    (ok : ∀ b', Trimmed b b' image l (l.count - count) others → Q (.ok ()) b' image)
    (io : mayFail → ∀ b' n, 12 < n → l.count - count ≤ n → n ≤ l.count →
      Trimmed b b' image l n others → Q (.error .io) b' image) :
    (popMany count : BlockAction m _).Ensures m mayFail b image Q := by
  have same : l.trim l.count = l := Layout.trim_count holds.stored.whole
  induction count generalizing b l with
  | zero => exact ok b ⟨by rwa [Nat.sub_zero, same], rfl⟩
  | succ count ih =>
    rw [popMany, Action.ensures_bind]
    refine pop_spec holds (by omega) (fun b₁ popped => ?_) fun may many =>
      io may b l.count many (by omega) (Nat.le_refl _) ⟨by rwa [same], rfl⟩
    refine ih (l := l.trim (l.count - 1)) popped.holds (show count ≤ l.count - 1 by omega) ?_ ?_
      (Layout.trim_trim (Nat.le_refl _))
    · rintro b' ⟨holds', bare⟩
      change b'.Holds image ((l.trim (l.count - 1)).trim (l.count - 1 - count)) others at holds'
      rw [Layout.trim_trim (by omega), Nat.sub_sub, Nat.add_comm] at holds'
      exact ok b' ⟨holds', bare.trans popped.bare⟩
    · rintro may b' n many lo hi ⟨holds', bare⟩
      change l.count - 1 - count ≤ n at lo
      change n ≤ l.count - 1 at hi
      rw [Layout.trim_trim hi] at holds'
      exact io may b' n many (by omega) (by omega) ⟨holds', bare.trans popped.bare⟩

theorem trimTo_spec {Q : Except Failure Unit → FileBlocks m → Image → Prop} {n : Nat}
    (holds : b.Holds image l others) (le : n ≤ l.count)
    (ok : ∀ b', Trimmed b b' image l n others → Q (.ok ()) b' image)
    (io : mayFail → ∀ b' k, 12 < k → n ≤ k → k ≤ l.count → Trimmed b b' image l k others →
      Q (.error .io) b' image) :
    (trimTo n : BlockAction m _).Ensures m mayFail b image Q := by
  have rest : l.count - (l.count - n) = n := by omega
  simp only [trimTo, Action.ensures_bind, Action.ensures_get, Action.onward_ok,
    holds.stored.describes.blockCount holds.stored.whole]
  refine popMany_spec holds (by omega) (fun b' trimmed => ok b' ?_) ?_
  · rwa [rest] at trimmed
  · rw [rest]
    exact io

/-! ## Growing -/

/-- The inode with the length `length` if it is longer. -/
def lengthened (d : Inode) (length : Nat) : Inode :=
  if d.length < length then { d with lengthWord := UInt32.ofNat length } else d

theorem length_lengthened (d : Inode) {length : Nat} (fits : length ≤ maxFileBytes) :
    (lengthened d length).length = max d.length length := by
  have small : length < 0x80000000 := Nat.lt_of_le_of_lt fits (by decide)
  rw [lengthened]
  split
  · have word : (UInt32.ofNat length).toNat = length :=
      UInt32.toNat_ofNat_of_lt' (by simp only [UInt32.size]; omega)
    rw [Inode.length, word, if_pos small]
    omega
  · omega

/-- A file of at least `length` bytes. -/
structure Grown (b b' : FileBlocks m) (image image' : Image) (l l' : Layout) (others : List Nat)
    (length : Nat) : Prop where
  holds : b'.Holds image' l' others
  count : l'.count = max l.count (sectorsFor length)
  trim : l'.trim l.count = l
  bare : b'.disk.bare = (lengthened b.disk length).bare
  kept : Kept others l image image'
  zeros : ∀ i, l.count ≤ i → i < l'.count → image' (l'.block i) = Block.zero 512

theorem length_of_bare {d d' : Inode} (bare : d'.bare = d.bare) : d'.length = d.length := by
  have word : d'.bare.lengthWord = d.bare.lengthWord := by rw [bare]
  change d'.lengthWord = d.lengthWord at word
  rw [Inode.length, Inode.length, word]

/-- A length does not say where the blocks are. -/
theorem Holds.withLengthWord (holds : b.Holds image l others) (word : UInt32) :
    (⟨{ b.disk with lengthWord := word }, b.free⟩ : FileBlocks m).Holds image l others := by
  have describes := holds.stored.describes
  exact { holds with stored := { holds.stored with
    describes := ⟨describes.count, describes.left, describes.next, describes.pointers⟩ } }

theorem Holds.lengthened (holds : b.Holds image l others) (length : Nat) :
    (⟨lengthened b.disk length, b.free⟩ : FileBlocks m).Holds image l others := by
  unfold FileBlocks.lengthened
  split
  · exact holds.withLengthWord _
  · exact holds

theorem bare_lengthened {d d' : Inode} (bare : d'.bare = d.bare) (length : Nat) :
    (lengthened d' length).bare = (lengthened d length).bare := by
  unfold lengthened
  rw [length_of_bare bare]
  split
  · have same : { d'.bare with lengthWord := UInt32.ofNat length } =
        { d.bare with lengthWord := UInt32.ofNat length } := by rw [bare]
    exact same
  · exact bare

theorem lengthen_spec {Q : Except Failure Unit → FileBlocks m → Image → Prop} {length : Nat}
    (fits : length ≤ maxFileBytes)
    (ok : Q (.ok ()) { b with disk := lengthened b.disk length } image) :
    (lengthen length : BlockAction m _).Ensures m mayFail b image Q := by
  simp only [lengthen, Action.ensures_bind, Action.ensures_get, Action.onward_ok]
  refine setDisk_spec ?_ ok
  rw [lengthened]
  split
  · rw [Inode.withLength, if_pos fits]
  · rfl

theorem Extended.trimmed {k : Nat} (extended : Extended b b₁ image image' l l' others)
    (le : l.count ≤ k) (le' : k ≤ l'.count) (trimmed : Trimmed b₁ b' image' l' k others) :
    Extended b b' image image' l (l'.trim k) others where
  holds := trimmed.holds
  le := le
  trim := (Layout.trim_trim le).trans extended.trim
  bare := trimmed.bare.trans extended.bare
  kept := extended.kept
  zeros i lo hi := by
    change i < k at hi
    rw [Layout.block_trim hi]
    exact extended.zeros i lo (by omega)

/-- A file grows to its new length, or to none of it. If it fails and has more blocks than before,
a request failed, and index blocks were needed. -/
theorem growTo_spec {Q : Except Failure Unit → FileBlocks m → Image → Prop} {length : Nat}
    (holds : b.Holds image l others)
    (ok : ∀ b' image' l', length ≤ maxFileBytes →
      Grown b b' image image' l l' others length → Q (.ok ()) b' image')
    (error : ∀ e b' image' l', (e = .io → mayFail) →
      (¬ mayFail ∨ sectorsFor length ≤ 12 → l' = l) → Extended b b' image image' l l' others →
      Q (.error e) b' image') :
    (growTo length : BlockAction m _).Ensures m mayFail b image Q := by
  have before := holds.stored.describes.blockCount holds.stored.whole
  simp only [growTo, Action.ensures_bind, Action.ensures_ensure, decide_eq_true_eq]
  split
  case isFalse => exact error _ b image l (fun same => by cases same) (fun _ => rfl) (.refl holds)
  case isTrue fits =>
    simp only [Action.onward_ok, Action.ensures_bind, Action.ensures_get, before]
    refine Action.Ensures.onFailure
      (P := fun r b' image' => ∃ l', Extended b b' image image' l l' others ∧
        l'.count ≤ l.count + (sectorsFor length - l.count) ∧
        (r = .ok () → l'.count = l.count + (sectorsFor length - l.count)) ∧
        (r = .error .io → mayFail))
      (appendMany_spec holds (fun b' image' l' extended more => ?_)
        fun e b' image' l' io few extended => ?_) ?_ ?_
    · exact ⟨l', extended, Nat.le_of_eq more, fun _ => more, fun same => by cases same⟩
    · exact ⟨l', extended, few, (fun same => by cases same), fun same => io (Except.error.inj same)⟩
    · rintro a b' image' ⟨l', extended, -, more, -⟩
      have more := more rfl
      rw [Action.onward_ok]
      refine lengthen_spec fits (ok _ image' l' fits ?_)
      exact {
        holds := extended.holds.lengthened length
        count := by omega
        trim := extended.trim
        bare := bare_lengthened extended.bare length
        kept := extended.kept
        zeros := extended.zeros }
    · rintro e b' image' ⟨l', extended, few, -, io⟩
      have io : e = .io → mayFail := fun same => io (by rw [same])
      rw [Action.ensures_ignoreError]
      refine trimTo_spec extended.holds extended.le (fun b'' trimmed => ?_)
        fun may b'' k many lo hi trimmed => ?_
      · refine error e b'' image' _ io (fun _ => extended.trim) ?_
        exact extended.trimmed (Nat.le_refl _) extended.le trimmed
      · refine error e b'' image' _ io ?_ (extended.trimmed lo hi trimmed)
        rintro (never | direct)
        · exact absurd may never
        · -- there was nothing to add
          obtain rfl : k = l.count := by omega
          exact extended.trim

/-! ## Going -/

/-- A file that goes has no blocks left, unless a request fails. Then it has index blocks left. -/
theorem dissolve_trims {Q : Except Failure Unit → FileBlocks m → Image → Prop}
    (holds : b.Holds image l others)
    (ok : ∀ b', b'.Holds image (l.trim 0) others → Q (.ok ()) b' image)
    (io : mayFail → ∀ b' n, 12 < n → n ≤ l.count → Trimmed b b' image l n others →
      Q (.error .io) b' image) :
    (dissolve : BlockAction m _).Ensures m mayFail b image Q := by
  simp only [dissolve, Action.ensures_bind]
  refine trimTo_spec holds (Nat.zero_le _) (fun b' trimmed => ?_)
    fun may b' n many _ le trimmed => io may b' n many le trimmed
  simp only [Action.onward_ok, Action.ensures_bind, Action.ensures_get]
  exact setDisk_spec (if_pos (Nat.zero_le _)) (ok _ (trimmed.holds.withLengthWord _))

/-- Its sectors are given back then. -/
theorem dissolve_spec {Q : Except Failure Unit → FileBlocks m → Image → Prop}
    (holds : b.Holds image l others)
    (ok : ∀ b', b'.free.Marks others → Q (.ok ()) b' image)
    (io : mayFail → ∀ b' n, 12 < n → n ≤ l.count → Trimmed b b' image l n others →
      Q (.error .io) b' image) :
    (dissolve : BlockAction m _).Ensures m mayFail b image Q := by
  refine dissolve_trims holds (fun b' emptied => ok b' ?_) io
  have marks := emptied.marks
  rw [Layout.trim_zero] at marks
  simpa [Layout.owned, Layout.data, Layout.index, Layout.nothing] using marks

end FileBlocks

end SectorFs
