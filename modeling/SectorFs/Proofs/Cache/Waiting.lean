/-
# SectorFs.Proofs.Cache.Waiting — when a task has to wait for a slot

With the hand the search for a slot never misses one whose lock can be had. Each
proposal that is passed over brings such a slot nearer (`Directory.lookout`), and
two rounds of proposals are more than it can be away; so the search gives up
only if every slot is locked (`takeSlot_eq_none_iff`).

A task that found every slot locked waits for one of them. The lock that it gets
it gives up again, so that it finds a slot at the next look-up at the latest.
`Task.Ends t c rounds steps` bounds both the steps and the look-ups of a task
(`ends_seek`), and `waits_only_if_locked` says what that means for a call.
-/
import SectorFs.Proofs.Cache.Misses

namespace SectorFs

set_option autoImplicit false

variable {k m n : Nat}

namespace Cache

variable {c : Cache k m n}

/-! ## The search for a slot -/

/-- The search takes a slot if it may go on until the hand gets to one whose lock can be had. -/
theorem evict_ne_none (b : Fin m) (attempts : Nat) {s : Fin k} (clock : c.directory.policy = .clock)
    (free : c.lockAt s = .free) (idle : c.evictingAt s = none)
    (near : c.directory.lookout s < attempts) : (evict b attempts c).1 ≠ none := by
  induction attempts generalizing c with
  | zero => exact absurd near (Nat.not_lt_zero _)
  | succ attempts ih =>
    have finds := Directory.finds_propose clock
    have policy := c.directory.policy_propose
    unfold evict
    generalize c.directory.propose = proposal at finds policy ⊢
    obtain ⟨v, d⟩ := proposal
    have idle' : (d.entries.get s).evicting = none := (finds.agrees s).2.trans idle
    have again (ne : s ≠ v) : (evict b attempts { c with directory := d }).1 ≠ none := by
      have nearer := finds.lookout_lt ne
      apply ih
      · exact policy.trans clock
      · exact free
      · exact idle'
      · exact Nat.lt_of_lt_of_le nearer (Nat.le_of_lt_succ near)
    dsimp only
    split
    case isTrue storing =>
      apply again
      rintro rfl
      rw [idle'] at storing
      cases storing
    case isFalse =>
      split
      case isTrue locked =>
        apply again
        rintro rfl
        exact locked free
      case isFalse => exact Option.some_ne_none _

/-- With the hand, the search for a slot gives up only if every slot is locked. -/
theorem takeSlot_eq_none_iff (b : Fin m) (clock : c.directory.policy = .clock)
    (idle : ∀ s, c.lockAt s = .free → c.evictingAt s = none) :
    (c.takeSlot b).1 = none ↔ ∀ s, c.lockAt s ≠ .free := by
  constructor
  · intro none s free
    unfold takeSlot at none
    split at none
    · cases none
    · refine absurd none (evict_ne_none b _ clock free (idle s free) ?_)
      rw [Directory.attempts, clock]
      exact c.directory.lookout_lt s
  · intro locked
    unfold takeSlot
    split
    case h_1 s found =>
      have free := List.find?_some found
      simp only [Bool.and_eq_true, decide_eq_true_eq] at free
      exact absurd free.2 (locked s)
    case h_2 =>
      have result := evict_spec b c.directory.attempts c
      generalize evict b c.directory.attempts c = outcome at result ⊢
      obtain ⟨_ | taken, c'⟩ := outcome
      · rfl
      · exact absurd result.wasFree (locked _)

/-- The slot that is taken was not locked, and has no block if there is such a slot. -/
theorem takeSlot_prefers {b : Fin m} {taken : TakenSlot k m} (found : (c.takeSlot b).1 = some taken) :
    c.lockAt taken.slot = .free ∧
      ((∃ s, (c.directory.entries.get s).isFree = true ∧ c.lockAt s = .free) →
        (c.directory.entries.get taken.slot).isFree = true) := by
  unfold takeSlot at found
  split at found
  case h_1 s unused =>
    have free := List.find?_some unused
    simp only [Bool.and_eq_true, decide_eq_true_eq] at free
    cases found
    exact ⟨free.2, fun _ => free.1⟩
  case h_2 none =>
    have result := evict_spec b c.directory.attempts c
    generalize evict b c.directory.attempts c = outcome at result found
    obtain ⟨_, c'⟩ := outcome
    cases found
    refine ⟨result.wasFree, fun ⟨s, unused, free⟩ => ?_⟩
    have := List.find?_eq_none.1 none s (List.mem_finRange s)
    simp only [unused, Bool.true_and, decide_eq_true_eq] at this
    exact absurd free this

end Cache

namespace Task

open Cache

/-! ## Look-ups -/

/-- Whether the next step of a task looks its block up. -/
def round : Task k m → Nat
  | .seek _ => 1
  | _ => 0

/-- How often a task looks its block up within `steps` steps. -/
def lookups : (steps : Nat) → Task k m → Cache k m n → Nat
  | 0, _, _ => 0
  | steps + 1, t, c =>
      match t.step c with
      | none => 0
      | some (t', c') => t.round + lookups steps t' c'

/-- The task comes to its end within `steps` steps, and looks its block up at most `rounds` times
until then. -/
inductive Ends : Task k m → Cache k m n → (rounds steps : Nat) → Prop where
  | done (answer : Answer m) (c : Cache k m n) (rounds steps : Nat) :
      Ends (.done answer) c rounds steps
  | lookup {a : Access m} {c : Cache k m n} {rounds steps : Nat} :
      Ends (seekStep a c).1 (seekStep a c).2 rounds steps → Ends (.seek a) c (rounds + 1) (steps + 1)
  | step {t : Task k m} {c : Cache k m n} {after : Task k m × Cache k m n} {rounds steps : Nat} :
      t.round = 0 → t.step c = some after → Ends after.1 after.2 rounds steps →
      Ends t c rounds (steps + 1)

variable {c c' : Cache k m n} {t : Task k m} {rounds steps : Nat}

theorem Ends.run (ends : t.Ends c rounds steps) {more : Nat} (enough : steps ≤ more) :
    ∃ answer c', t.run more c = (.done answer, c') := by
  induction ends generalizing more with
  | done answer c => exact ⟨answer, c, run_done answer more c⟩
  | lookup _ ih =>
    obtain ⟨more, rfl⟩ := Nat.exists_eq_add_of_lt enough
    exact ih (Nat.le_add_right _ _)
  | step _ step _ ih =>
    obtain ⟨more, rfl⟩ := Nat.exists_eq_add_of_lt enough
    simp only [Task.run, step]
    exact ih (Nat.le_add_right _ _)

theorem Ends.lookups_le (ends : t.Ends c rounds steps) (more : Nat) :
    t.lookups more c ≤ rounds := by
  induction ends generalizing more with
  | done answer c => cases more <;> exact Nat.zero_le _
  | @lookup a c rounds steps _ ih =>
    cases more with
    | zero => exact Nat.zero_le _
    | succ more =>
      have rest := ih more
      change 1 + lookups more (seekStep a c).1 (seekStep a c).2 ≤ rounds + 1
      omega
  | step still step _ ih =>
    cases more with
    | zero => exact Nat.zero_le _
    | succ more =>
      simp only [lookups, step, still, Nat.zero_add]
      exact ih more

/-- A bound may be raised. -/
theorem Ends.mono (ends : t.Ends c rounds steps) {rounds' steps' : Nat} (less : rounds ≤ rounds')
    (less' : steps ≤ steps') : t.Ends c rounds' steps' := by
  induction ends generalizing rounds' steps' with
  | done answer c => exact .done answer c _ _
  | lookup _ ih =>
    obtain ⟨rounds', rfl⟩ := Nat.exists_eq_add_of_lt less
    obtain ⟨steps', rfl⟩ := Nat.exists_eq_add_of_lt less'
    exact .lookup (ih (Nat.le_add_right _ _) (Nat.le_add_right _ _))
  | step still step _ ih =>
    obtain ⟨steps', rfl⟩ := Nat.exists_eq_add_of_lt less'
    exact .step still step (ih less (Nat.le_add_right _ _))

theorem ends_loading (a : Access m) (s : Fin k) (c : Cache k m n) : (loading a s).Ends c 0 1 := by
  refine .step rfl rfl ?_
  unfold loadStep
  split <;> exact .done _ _ _ _

theorem ends_load (a : Access m) (s : Fin k) (c : Cache k m n) :
    (load a s c).1.Ends (load a s c).2 0 1 := by
  unfold load
  split
  · exact .done _ _ _ _
  · exact ends_loading a s _

theorem ends_storing (a : Access m) (s : Fin k) (old : Fin m) (c : Cache k m n) :
    (storing a s old).Ends c 0 2 := by
  refine .step rfl rfl ?_
  unfold storeStep
  split
  · exact .done _ _ _ _
  · exact ends_load a s _

/-- A task that gets a slot need not look its block up again. -/
theorem ends_of_taken (a : Access m) (absent : c.directory.find a.block = .absent)
    (taken : (c.takeSlot a.block).1 ≠ none) : (seek a).Ends c 1 3 := by
  refine .lookup ?_
  rw [seekStep, absent]
  dsimp only
  generalize c.takeSlot a.block = outcome at taken ⊢
  obtain ⟨_ | ⟨s, _ | old⟩, c₁⟩ := outcome
  · exact absurd rfl taken
  · exact (ends_load a s c₁).mono (Nat.le_refl 0) (by omega)
  · exact ends_storing a s old c₁

/-- A block that has a slot is found at the first look-up, even if its slot has to be waited for. -/
theorem ends_of_hit (resting : c.Resting) (a : Access m) {s : Fin k}
    (found : c.directory.find a.block = .resident s) : (seek a).Ends c 1 3 := by
  have resident : c.residentAt s = some a.block := Directory.find_resident found
  have has : (c.slots.get s).holds a.block = true :=
    (holds_of_idle resting.coherent (resting.idle s) resident).2
  have idle : c.locks.get s ≠ .busy := resting.idle s
  refine .lookup ?_
  simp only [seekStep, found]
  generalize marked : c.setEntry s { c.directory.entries.get s with accessed := true } = c₁
  have locks : c₁.locks = c.locks := by rw [← marked]; rfl
  have slots : c₁.slots = c.slots := by rw [← marked]; rfl
  split
  case isTrue =>
    rw [slots, if_pos has]
    exact .done _ _ _ _
  case isFalse =>
    have waited : (awaitHit a s).step c₁ = some (finish a s (c₁.setLock s .free).countHit) := by
      have has₁ : ((c₁.setLock s .free).slots.get s).holds a.block = true := by
        change (c₁.slots.get s).holds a.block = true
        rw [slots, has]
      rw [Task.step, locks, if_neg idle]
      exact if_pos has₁
    exact .step rfl waited (.done _ _ _ _)

/-- A task gets a slot for a block that has none if the lock of some slot is free. -/
theorem ends_of_free (clock : c.directory.policy = .clock) (a : Access m)
    (unnamed : ∀ i, ¬ c.Names i a.block) (idle : ∀ i, c.evictingAt i = none) {s : Fin k}
    (free : c.lockAt s = .free) : (seek a).Ends c 1 3 := by
  have absent : c.directory.find a.block = .absent := Directory.find_eq_absent fun i => by
    rw [Bool.eq_false_iff]
    exact fun named => unnamed i ((names_iff c i a.block).1 named)
  apply ends_of_taken a absent
  intro none
  exact (takeSlot_eq_none_iff a.block clock fun i _ => idle i).1 none s free

/-- A task that found every slot locked waits for the slot that the hand proposes. Then it gets one:
its block has no slot still, and the lock that it waited for is free. -/
theorem ends_of_wait (resting : c.Resting) (clock : c.directory.policy = .clock) (a : Access m)
    (absent : c.directory.find a.block = .absent) (none : (c.takeSlot a.block).1 = none) :
    (seek a).Ends c 2 5 := by
  have policy := c.policy_takeSlot a.block
  have result := takeSlot_spec resting.coherent a.block
  refine .lookup ?_
  simp only [seekStep, absent]
  generalize c.takeSlot a.block = outcome at none policy result ⊢
  obtain ⟨_, c₁⟩ := outcome
  cases none
  obtain ⟨-, same⟩ := result
  have agrees := c₁.directory.agrees_propose
  have clock₁ := c₁.directory.policy_propose.trans (policy.trans clock)
  dsimp only
  generalize c₁.directory.propose = proposal at agrees clock₁ ⊢
  obtain ⟨v, d⟩ := proposal
  have same₂ (i : Fin k) : SameAt c { c₁ with directory := d } i :=
    (same i).trans (sameAt_of_agrees agrees i)
  have clock₂ : ({ c₁ with directory := d } : Cache k m n).directory.policy = .clock := clock₁
  generalize { c₁ with directory := d } = c₂ at same₂ clock₂ ⊢
  have idle : c₂.locks.get v ≠ .busy := by
    change c₂.lockAt v ≠ .busy
    rw [(same₂ v).lock]
    exact resting.idle v
  have waited : (awaitSlot a v).step c₂ = some (seek a, c₂.setLock v .free) := by
    rw [Task.step, if_neg idle]
  have free : (c₂.setLock v .free).lockAt v = .free := by simp
  refine .step rfl waited (ends_of_free (c := c₂.setLock v .free) clock₂ a (fun i named => ?_)
    (fun i => ?_) free)
  · refine unnamed_of_absent absent i ?_
    unfold Names at named ⊢
    rwa [residentAt_setLock, evictingAt_setLock, (same₂ i).resident, (same₂ i).evicting] at named
  · rw [evictingAt_setLock, (same₂ i).evicting]
    exact evicting_of_idle resting.coherent (resting.idle i)

/-- A task that looks a block up is through after a second look-up at the latest. -/
theorem ends_seek (resting : c.Resting) (clock : c.directory.policy = .clock) (a : Access m) :
    (seek a).Ends c 2 5 := by
  cases found : c.directory.find a.block with
  | resident s => exact (ends_of_hit resting a found).mono (by decide) (by decide)
  | evicting s => exact absurd found (find_ne_evicting resting.coherent resting.idle a.block s)
  | absent =>
    by_cases taken : (c.takeSlot a.block).1 = none
    · exact ends_of_wait resting clock a found taken
    · exact (ends_of_taken a found taken).mono (by decide) (by decide)

theorem ends_probe (resting : c.Resting) (clock : c.directory.policy = .clock) (b : Fin m) :
    (probe b).Ends c 2 6 := by
  cases found : c.directory.find b with
  | absent => exact .step rfl (by rw [Task.step, found]) (ends_seek resting clock ⟨b, .touch⟩)
  | resident s | evicting s => exact .step rfl (by rw [Task.step, found]) (.done _ _ _ _)

end Task

namespace Cache

variable {c : Cache k m n}

/-- **With the hand no task waits while a slot can be had.** A block that has no slot is given one
whenever some lock is free, a slot without a block if the lock of such a slot is, and goes without
only if every slot is locked. So whatever slots are locked from outside, an operation on a block
returns, and looks its block up twice at most. -/
theorem waits_only_if_locked (clock : c.directory.policy = .clock) :
    ((∀ s, c.lockAt s = .free → c.evictingAt s = none) → ∀ b : Fin m,
      ((c.takeSlot b).1 = none ↔ ∀ s, c.lockAt s ≠ .free) ∧
      ∀ taken, (c.takeSlot b).1 = some taken → c.lockAt taken.slot = .free ∧
        ((∃ s, (c.directory.entries.get s).isFree = true ∧ c.lockAt s = .free) →
          (c.directory.entries.get taken.slot).isFree = true)) ∧
    (c.Reachable → ∀ (op : Operation) (b : Fin m), op.block? = some b.val → op.InRange m n →
      ∃ t answer c', op.start n = .ok t ∧ c.call op = .ok (answer, c') ∧
        ∀ steps, t.lookups steps c ≤ 2) := by
  constructor
  · intro idle b
    exact ⟨takeSlot_eq_none_iff b clock idle, fun taken found => takeSlot_prefers found⟩
  · intro reachable op b about inRange
    have resting := reachable.resting
    obtain ⟨t, start⟩ := Operation.exists_start (k := k) inRange
    have ends : t.Ends c 2 6 := by
      rcases Task.of_block start about with rfl | ⟨use, rfl⟩
      · exact Task.ends_probe resting clock b
      · exact (Task.ends_seek resting clock _).mono (Nat.le_refl 2) (by decide)
    have enough : 6 ≤ steps k := by
      unfold steps
      omega
    obtain ⟨answer, c', ran⟩ := ends.run enough
    refine ⟨t, answer, c', start, ?_, ends.lookups_le⟩
    rw [call, start]
    simp only [bind, Except.bind, ran]

/-- Two slots that are both locked from outside, one of them with a block that was just used: a read
of another block finds no slot, waits, and returns. -/
theorem waits_only_if_locked_two_slots :
    ∃ (c : Cache 2 3 1) (t : Task 2 3) (answer : Answer 3) (c' : Cache 2 3 1),
      c.directory.policy = .clock ∧ c.Reachable ∧ (∀ s, c.lockAt s = .outside) ∧
      (c.takeSlot 1).1 = none ∧ (Operation.read 1 0 1).start 1 = .ok t ∧
      c.call (.read 1 0 1) = .ok (answer, c') ∧ ∀ steps, t.lookups steps c ≤ 2 := by
  obtain ⟨c, c', made, read, clock⟩ : ∃ c c' : Cache 2 3 1,
      Cache.new (Device.filled 3 1 7) { slots := 2, policy := .clock } = .ok c ∧
      c.call (.read 0 0 1) = .ok (.ok [7], c') ∧ c'.directory.policy = .clock :=
    ⟨_, _, rfl, rfl, rfl⟩
  have reachable : ((c'.hold 0).hold 1).Reachable :=
    .history (.new made) (.hold 1 (.hold 0 (.of_call .start read)))
  have held (s : Fin 2) : ((c'.hold 0).hold 1).lockAt s = .outside := by
    unfold hold
    rw [lockAt_setLock, lockAt_setLock]
    match s with
    | 0 => rfl
    | 1 => rfl
  obtain ⟨search, rounds⟩ := waits_only_if_locked (c := (c'.hold 0).hold 1) clock
  obtain ⟨t, answer, c'', start, called, twice⟩ :=
    rounds reachable (.read 1 0 1) 1 rfl ⟨by decide, by decide⟩
  refine ⟨(c'.hold 0).hold 1, t, answer, c'', clock, reachable, held, ?_, start, called, twice⟩
  exact (search (fun s free => by rw [held s] at free; cases free) 1).1.2 fun s => by
    rw [held s]
    decide

end Cache

end SectorFs
