/-
# SectorFs.Proofs.Cache.Clock — how the hand searches

The search of the hand is a loop without a bound: it passes over a slot that has
a mark, clears the mark and looks at the next one. `Directory.Finds` is that
loop. Each pass leaves one mark less, so the loop ends, and the bounded search
of `Directory.propose` is the loop (`finds_propose`). `Finds.takes` says what it
does: it takes the first slot from the hand on that has no mark, or the one at
the hand if every slot has one, and clears the marks of those that it passed
over.

How long a slot can still stay out of reach is its `lookout`: its way ahead of
the hand, and a whole round more while it has a mark. Each search that takes
another slot lowers it (`Finds.lookout_lt`), and it is always less than two
rounds.
-/
import SectorFs.Proofs.Cache.Look
import SectorFs.Proofs.Cache.Cases
import Mathlib.Data.Fintype.Card

namespace SectorFs

set_option autoImplicit false

namespace Directory

variable {k m : Nat}

/-- Whether slot `s` was used since the hand last passed it. -/
def marked (d : Directory k m) (s : Fin k) : Bool := (d.entries.get s).accessed

/-- How many slots the hand has before it gets to slot `s`. -/
def ahead (d : Directory k m) (s : Fin k) : Nat :=
  if d.hand.val ≤ s.val then s.val - d.hand.val else s.val + k - d.hand.val

/-- The directory when the hand has passed over the slot that it looks at. -/
def pass (d : Directory k m) : Directory k m :=
  (d.set d.hand { d.entries.get d.hand with accessed := false }).advance

/-- The search of the hand, as a loop without a bound: it takes slot `v` and leaves `d'`. -/
inductive Finds : Directory k m → Fin k → Directory k m → Prop where
  | take {d : Directory k m} : d.marked d.hand = false → Finds d d.hand d.advance
  | pass {d d' : Directory k m} {v : Fin k} :
      d.marked d.hand = true → Finds d.pass v d' → Finds d v d'

/-! ## The hand -/

theorem ahead_lt (d : Directory k m) (s : Fin k) : d.ahead s < k := by
  have := s.isLt
  have := d.hand.isLt
  unfold ahead
  split <;> omega

@[simp] theorem ahead_hand (d : Directory k m) : d.ahead d.hand = 0 := by
  unfold ahead
  rw [if_pos (Nat.le_refl _), Nat.sub_self]

/-- The next slot but for the last, from which the hand comes back to the first. -/
theorem hand_advance (d : Directory k m) :
    d.advance.hand.val = if d.hand.val + 1 = k then 0 else d.hand.val + 1 := by
  have := d.hand.isLt
  change (d.hand.val + 1) % k = _
  split
  case isTrue last => rw [last, Nat.mod_self]
  case isFalse => exact Nat.mod_eq_of_lt (by omega)

/-- The slot that the hand leaves is a whole round ahead. -/
theorem ahead_advance_hand (d : Directory k m) : d.advance.ahead d.hand + 1 = k := by
  have := d.hand.isLt
  have moved := d.hand_advance
  unfold ahead
  split at moved <;> split <;> omega

theorem ahead_advance (d : Directory k m) {s : Fin k} (ne : s ≠ d.hand) :
    d.advance.ahead s + 1 = d.ahead s := by
  have := s.isLt
  have := d.hand.isLt
  have apart : s.val ≠ d.hand.val := fun same => ne (Fin.ext same)
  have moved := d.hand_advance
  unfold ahead
  split at moved <;> split <;> split <;> omega

@[simp] theorem marked_advance (d : Directory k m) (s : Fin k) :
    d.advance.marked s = d.marked s := rfl

@[simp] theorem marked_pass (d : Directory k m) (s : Fin k) :
    d.pass.marked s = if s = d.hand then false else d.marked s := by
  unfold marked pass
  change ((d.set d.hand _).entries.get s).accessed = _
  simp only [set, get_set]
  split <;> rfl

@[simp] theorem ahead_pass (d : Directory k m) (s : Fin k) :
    d.pass.ahead s = d.advance.ahead s := rfl

theorem agrees_pass (d : Directory k m) : Agrees d d.pass := agrees_set d d.hand _ rfl rfl

/-! ## The search ends -/

/-- How many slots have a mark. -/
def marks (d : Directory k m) : Nat := (Finset.univ.filter fun s => d.marked s = true).card

theorem marks_le (d : Directory k m) : d.marks ≤ k :=
  (Finset.card_filter_le _ _).trans (by simp)

/-- Passing over a slot takes its mark. -/
theorem marks_pass (d : Directory k m) (marked : d.marked d.hand = true) :
    d.pass.marks + 1 = d.marks := by
  have erased : (Finset.univ.filter fun s => d.pass.marked s = true) =
      (Finset.univ.filter fun s => d.marked s = true).erase d.hand := by
    ext s
    simp only [marked_pass, Finset.mem_filter, Finset.mem_univ, true_and, Finset.mem_erase]
    split <;> simp_all
  have here : d.hand ∈ Finset.univ.filter fun s => d.marked s = true := by simpa using marked
  unfold marks
  rw [erased, Finset.card_erase_of_mem here]
  have := Finset.card_pos.2 ⟨_, here⟩
  omega

/-- A search that may pass over every slot with a mark is the loop. -/
theorem finds_sweep (steps : Nat) (d : Directory k m) (enough : d.marks ≤ steps) :
    Finds d (d.sweep steps).1 (d.sweep steps).2 := by
  induction steps generalizing d with
  | zero =>
    refine .take (Bool.eq_false_iff.2 fun marked => ?_)
    have := d.marks_pass marked
    omega
  | succ steps ih =>
    unfold sweep
    split
    case isTrue marked =>
      have := d.marks_pass marked
      exact .pass marked (ih d.pass (by omega))
    case isFalse unmarked => exact .take (Bool.eq_false_iff.2 unmarked)

theorem finds_propose {d : Directory k m} (clock : d.policy = .clock) :
    Finds d d.propose.1 d.propose.2 := by
  unfold propose
  rw [clock]
  exact finds_sweep k d d.marks_le

/-! ## What the search does -/

/-- The slots that the hand passes over on its way to `v`: those before it, and every slot once if
`v` has a mark itself. -/
def Passed (d : Directory k m) (v s : Fin k) : Prop :=
  d.marked v = true ∨ d.ahead s < d.ahead v

namespace Finds

variable {d d' : Directory k m} {v : Fin k}

theorem agrees (finds : Finds d v d') : Agrees d d' := by
  induction finds with
  | take => exact .refl _
  | @pass d d' v _ _ ih => exact (agrees_pass d).trans ih

/-- The hand stops just after the slot that it took. -/
theorem hand (finds : Finds d v d') : d'.hand.val = (v.val + 1) % k := by
  induction finds with
  | take => rfl
  | pass _ _ ih => exact ih

/-- The hand takes the first slot from where it is on that has no mark, or the one where it is if
every slot has a mark. The marks of those that it passed over are gone, and the others stay. -/
theorem takes (finds : Finds d v d') :
    ((d.marked v = false ∧ ∀ s, d.ahead s < d.ahead v → d.marked s = true) ∨
      (v = d.hand ∧ ∀ s, d.marked s = true)) ∧
    (∀ s, Passed d v s → d'.marked s = false) ∧
    ∀ s, ¬ Passed d v s → d'.marked s = d.marked s := by
  induction finds with
  | @take d unmarked =>
    refine ⟨.inl ⟨unmarked, fun s before => ?_⟩, fun s passed => ?_, fun s _ => rfl⟩
    · rw [ahead_hand] at before
      exact absurd before (Nat.not_lt_zero _)
    · rw [Passed, unmarked, ahead_hand] at passed
      exact absurd passed (by simp)
  | @pass d d' v marked _ ih =>
    obtain ⟨chosen, cleared, kept⟩ := ih
    -- the slot that was passed over has no mark now, so not every slot has one
    obtain ⟨unmarked, before⟩ := chosen.resolve_right fun all => by
      have := all.2 d.hand
      simp at this
    have passed_iff (s : Fin k) : Passed d.pass v s ↔ d.advance.ahead s < d.advance.ahead v := by
      simp only [Passed, unmarked, Bool.false_eq_true, false_or, ahead_pass]
    simp only [passed_iff] at cleared kept
    simp only [ahead_pass] at before
    by_cases same : v = d.hand
    · -- the hand came round
      subst same
      have far (s : Fin k) (ne : s ≠ d.hand) : d.advance.ahead s < d.advance.ahead d.hand := by
        have := d.ahead_advance ne
        have := d.ahead_advance_hand
        have := d.ahead_lt s
        omega
      have all (s : Fin k) : d.marked s = true := by
        by_cases here : s = d.hand
        · rwa [here]
        · simpa [here] using before s (far s here)
      refine ⟨.inr ⟨rfl, all⟩, fun s _ => ?_, fun s other => absurd (.inl marked) other⟩
      by_cases here : s = d.hand
      · rw [here, kept d.hand (Nat.lt_irrefl _)]
        exact unmarked
      · exact cleared s (far s here)
    · have clear : d.marked v = false := by simpa [same] using unmarked
      have step := d.ahead_advance same
      refine ⟨.inl ⟨clear, fun s less => ?_⟩, fun s passed => ?_, fun s other => ?_⟩
      · by_cases here : s = d.hand
        · rwa [here]
        · have := d.ahead_advance here
          simpa [here] using before s (by omega)
      · have less : d.ahead s < d.ahead v := by simpa [Passed, clear] using passed
        by_cases here : s = d.hand
        · subst here
          have := d.ahead_advance_hand
          have := d.advance.ahead_lt v
          rw [kept d.hand (by omega), marked_pass, if_pos rfl]
        · have := d.ahead_advance here
          exact cleared s (by omega)
      · have far : ¬ d.ahead s < d.ahead v := by simpa [Passed, clear] using other
        have here : s ≠ d.hand := fun same => by
          rw [same, ahead_hand] at far
          omega
        have := d.ahead_advance here
        rw [kept s (by omega), marked_pass, if_neg here]

end Finds

/-! ## How long a slot stays out of reach -/

/-- How many slots the hand can take before slot `s`, at most. -/
def lookout (d : Directory k m) (s : Fin k) : Nat := d.ahead s + if d.marked s then k else 0

theorem lookout_lt (d : Directory k m) (s : Fin k) : d.lookout s < 2 * k := by
  have := d.ahead_lt s
  unfold lookout
  split <;> omega

theorem lookout_congr {d d' : Directory k m} {s : Fin k} (hand : d'.hand = d.hand)
    (marked : d'.marked s = d.marked s) : d'.lookout s = d.lookout s := by
  rw [lookout, lookout, ahead, ahead, hand, marked]

theorem lookout_advance (d : Directory k m) {s : Fin k} (ne : s ≠ d.hand) :
    d.advance.lookout s + 1 = d.lookout s := by
  have := d.ahead_advance ne
  unfold lookout
  rw [marked_advance]
  omega

/-- Passing over a slot brings every slot nearer, that slot too: it is a round ahead now, but has
no mark. -/
theorem lookout_pass (d : Directory k m) (marked : d.marked d.hand = true) (s : Fin k) :
    d.pass.lookout s + 1 = d.lookout s := by
  unfold lookout
  rw [ahead_pass, marked_pass]
  by_cases here : s = d.hand
  · subst here
    have := d.ahead_advance_hand
    rw [if_pos rfl, if_pos marked, ahead_hand]
    simp only [Bool.false_eq_true, if_false]
    omega
  · have := d.ahead_advance here
    rw [if_neg here]
    omega

/-- A search that takes another slot brings slot `s` nearer. -/
theorem Finds.lookout_lt {d d' : Directory k m} {v s : Fin k} (finds : Finds d v d')
    (ne : s ≠ v) : d'.lookout s < d.lookout s := by
  induction finds with
  | @take d _ =>
    have := d.lookout_advance ne
    omega
  | @pass d d' v marked _ ih =>
    have := d.lookout_pass marked s
    have := ih ne
    omega

end Directory

/-! ## The policy stays -/

variable {k m n : Nat}

namespace Cache

theorem policy_evict (b : Fin m) (attempts : Nat) (c : Cache k m n) :
    (evict b attempts c).2.directory.policy = c.directory.policy := by
  have result := c.evictResult b attempts
  generalize evict b attempts c = given at result ⊢
  cases result with
  | passed agrees policy => exact policy
  | taken agrees policy lock =>
    dsimp only
    split <;> exact policy

theorem policy_takeSlot (c : Cache k m n) (b : Fin m) :
    (c.takeSlot b).2.directory.policy = c.directory.policy := by
  unfold takeSlot
  split
  · rfl
  · exact policy_evict b _ c

end Cache

namespace Task

variable {c c' : Cache k m n}

theorem policy_load (a : Access m) (s : Fin k) (c : Cache k m n) :
    (load a s c).2.directory.policy = c.directory.policy := by
  unfold load
  split <;> rfl

theorem policy_seekStep (a : Access m) (c : Cache k m n) :
    (seekStep a c).2.directory.policy = c.directory.policy := by
  have kept := c.policy_takeSlot a.block
  have seeks := seeks a c
  generalize seekStep a c = ends at seeks ⊢
  cases seeks with
  | hit | strange | locked | evicting => rfl
  | @full c₁ _ taken =>
    rw [taken] at kept
    exact c₁.directory.policy_propose.trans kept
  | @clean s c₁ _ taken =>
    rw [taken] at kept
    exact (policy_load a s c₁).trans kept
  | dirty _ taken =>
    rw [taken] at kept
    exact kept

/-- No step changes the policy. -/
theorem policy_of_step {t t' : Task k m} (step : t.step c = some (t', c')) :
    c'.directory.policy = c.directory.policy := by
  cases steps_of_step step with
  | absent | present | hit | lost | awake | passed | unsaved | through => rfl
  | seek a => exact policy_seekStep a c
  | store a s old =>
    unfold storeStep
    split
    · rfl
    · exact policy_load a s _
  | load a s =>
    unfold loadStep
    split <;> rfl
  | flush s b =>
    unfold flushStep
    split <;> rfl

theorem policy_run (steps : Nat) (t : Task k m) (c : Cache k m n) :
    (t.run steps c).2.directory.policy = c.directory.policy := by
  induction steps generalizing t c with
  | zero => rfl
  | succ steps ih =>
    unfold run
    split
    case h_1 => rfl
    case h_2 t₁ c₁ step => exact (ih t₁ c₁).trans (policy_of_step step)

end Task

end SectorFs
