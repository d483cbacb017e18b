/-
# SectorFs.Proofs.Cache.Progress — calls come to an end

While no lock is held from outside, a task that runs alone never waits, and each
step brings it nearer to its end (`Task.rank`). A call therefore returns well
within the steps that it may take (`call_returns`), and it answers with an error
only when a call to the device failed (`ok_of_run`).
-/
import SectorFs.Proofs.Cache.Runs

namespace SectorFs

set_option autoImplicit false

variable {k m n : Nat}

namespace Task

/-- How many steps a task can still take while it need not wait. -/
def rank : Task k m → Nat
  | .probe _ | .awaitHit _ _ | .awaitSlot _ _ => 4
  | .seek _ => 3
  | .storing _ _ _ => 2
  | .loading _ _ => 1
  | .visit i => 2 * (k - i) + 1
  | .flushing s _ => 2 * (k - s.val)
  | .done _ | .halted _ => 0

theorem rank_load (a : Access m) (s : Fin k) (c : Cache k m n) : (load a s c).1.rank ≤ 1 := by
  unfold load
  split
  · exact Nat.zero_le _
  · exact Nat.le_refl _

end Task

namespace Cache

variable {c : Cache k m n}

/-- The first proposal is taken while every lock is free. -/
theorem takeSlot_ne_none (coherent : c.Coherent) (free : ∀ i, c.lockAt i = .free) (b : Fin m) :
    (c.takeSlot b).1 ≠ none := by
  have idle (i : Fin k) : c.evictingAt i = none :=
    evicting_of_idle coherent (by rw [free i]; decide)
  have some_attempts : ∃ attempts, c.directory.attempts = attempts + 1 := by
    have pos := c.directory.hand.pos
    refine ⟨c.directory.attempts - 1, ?_⟩
    unfold Directory.attempts
    split <;> omega
  obtain ⟨attempts, eq⟩ := some_attempts
  unfold takeSlot
  split
  · exact nofun
  · rw [eq, evict]
    have agrees := c.directory.agrees_propose
    generalize c.directory.propose = proposal at agrees ⊢
    obtain ⟨s, d⟩ := proposal
    have none : ((d.entries.get s).evicting.isSome : Bool) = false := by
      rw [(agrees s).2]
      exact congrArg Option.isSome (idle s)
    have lock : c.locks.get s = .free := free s
    dsimp only
    rw [if_neg (by rw [none]; exact Bool.false_ne_true), if_neg (not_not.2 lock)]
    exact nofun

end Cache

namespace Task

open Cache

variable {c : Cache k m n}

/-- A task that finds every lock free goes on from a look-up at once. -/
theorem seekStep_rank (coherent : c.Coherent) (free : ∀ i, c.lockAt i = .free) (a : Access m) :
    (seekStep a c).1.rank ≤ 2 := by
  have seeks := seeks a c
  generalize seekStep a c = ends at seeks ⊢
  cases seeks with
  | hit | strange => exact Nat.zero_le _
  | @locked s _ locked => exact absurd (free s) locked
  | @evicting s found =>
    exact absurd found (find_ne_evicting coherent (fun i => by rw [free i]; decide) a.block s)
  | full _ taken => exact absurd (congrArg Prod.fst taken) (takeSlot_ne_none coherent free a.block)
  | @clean s c₁ => exact Nat.le_trans (rank_load a s c₁) (by omega)
  | dirty => exact Nat.le_refl _

/-- A task that runs alone while no lock is held from outside does not wait. -/
theorem step_rank {t : Task k m} {r : Answer m} (shared : c.Shared t (.done r))
    (inside : ∀ i, c.lockAt i ≠ .outside) (going : ∀ r, t ≠ .done r) :
    ∃ t' c', t.step c = some (t', c') ∧ t'.rank < t.rank := by
  have free (slot : t.slot? = none) (i : Fin k) : c.lockAt i = .free := by
    cases lock : c.lockAt i with
    | free => rfl
    | outside => exact absurd lock (inside i)
    | busy =>
      rcases shared.owned lock with own | own
      · rw [slot] at own
        cases own
      · cases own
  cases t with
  | probe b =>
    simp only [Task.step]
    split
    · exact ⟨_, _, rfl, Nat.lt_succ_self 3⟩
    · exact ⟨_, _, rfl, Nat.zero_lt_succ 3⟩
  | seek a =>
    exact ⟨_, _, rfl, Nat.lt_succ_of_le (seekStep_rank shared.coherent (free rfl) a)⟩
  | awaitHit a s =>
    have lock : c.locks.get s = .free := free rfl s
    simp only [Task.step, lock, reduceCtorEq, if_false]
    split
    · exact ⟨_, _, rfl, Nat.zero_lt_succ _⟩
    · exact ⟨_, _, rfl, Nat.le_refl 4⟩
  | awaitSlot a s =>
    have lock : c.locks.get s = .free := free rfl s
    simp only [Task.step, lock, reduceCtorEq, if_false]
    exact ⟨_, _, rfl, Nat.le_refl 4⟩
  | storing a s old =>
    refine ⟨_, _, rfl, ?_⟩
    split
    · exact Nat.zero_lt_succ _
    · exact Nat.lt_succ_of_le (rank_load a s _)
  | loading a s =>
    refine ⟨_, _, rfl, ?_⟩
    split <;> exact Nat.zero_lt_succ _
  | visit i =>
    simp only [Task.step, visitStep]
    split
    case isTrue inside =>
      have lock : (c.locks.get (⟨i, inside⟩ : Fin k)) = .free := free rfl ⟨i, inside⟩
      rw [if_neg (by rw [lock]; decide)]
      split
      · exact ⟨_, _, rfl, by simp only [rank]; omega⟩
      · exact ⟨_, _, rfl, by simp only [rank]; omega⟩
    case isFalse => exact ⟨_, _, rfl, by simp only [rank]; omega⟩
  | flushing s b =>
    refine ⟨_, _, rfl, ?_⟩
    have := s.isLt
    split
    · simp only [fail, rank]; omega
    · simp only [rank]; omega
  | done r => exact absurd rfl (going r)
  | halted v => exact absurd shared.fits id

/-- A task that need not wait comes to its end. -/
theorem run_ends {t : Task k m} {r : Answer m} (steps : Nat) (shared : c.Shared t (.done r))
    (inside : ∀ i, c.lockAt i ≠ .outside) (enough : t.rank ≤ steps) :
    ∃ answer, (t.run steps c).1 = .done answer := by
  induction steps generalizing t c with
  | zero =>
    by_cases going : ∀ r, t ≠ .done r
    · obtain ⟨t', c', -, less⟩ := step_rank shared inside going
      omega
    · simp only [not_forall, not_not] at going
      exact going
  | succ steps ih =>
    by_cases going : ∀ r, t ≠ .done r
    · obtain ⟨t', c', step, less⟩ := step_rank shared inside going
      have moves := moves_of_step shared.coherent shared.fits shared.within step
      simp only [run, step]
      exact ih (shared.step step).1 (fun i outside => inside i (moves.outside outside)) (by omega)
    · simp only [not_forall, not_not] at going
      obtain ⟨answer, rfl⟩ := going
      exact ⟨answer, by rw [run_done]⟩

theorem load_ne_error (a : Access m) (s : Fin k) (e : DeviceError m) :
    (load a s c).1 ≠ .done (.error e) := by
  unfold load
  split <;> exact nofun

theorem seekStep_ne_error (a : Access m) (e : DeviceError m) :
    (seekStep a c).1 ≠ .done (.error e) := by
  have seeks := seeks a c
  generalize seekStep a c = ends at seeks ⊢
  cases seeks with
  | clean => exact load_ne_error a _ e
  | hit | strange | locked | evicting | full | dirty => exact nofun

/-- A task ends with an error only at a device call that fails. -/
theorem fails_of_step {t : Task k m} {c' : Cache k m n} {e : DeviceError m}
    (step : t.step c = some (.done (.error e), c')) : c.device.failsNext e.kind e.block = true := by
  generalize ended : Task.done (.error e) = t' at step
  cases steps_of_step step with
  | absent | present | hit | lost | awake | passed | unsaved | through => cases ended
  | seek a => exact absurd ended.symm (seekStep_ne_error a e)
  | store a s old =>
    unfold storeStep at ended
    generalize written : c.device.write old (c.slots.get s).data = result at ended
    obtain ⟨_ | _, device⟩ := result
    · cases ended
      exact (Device.write_false written).1
    · exact absurd ended.symm (load_ne_error a s e)
  | load a s =>
    unfold loadStep at ended
    generalize loaded : c.device.read a.block = result at ended
    obtain ⟨_ | _, device⟩ := result <;> cases ended
    exact (Device.read_none loaded).1
  | flush s b =>
    unfold flushStep at ended
    generalize written : c.device.write b (c.slots.get s).data = result at ended
    obtain ⟨_ | _, device⟩ := result <;> cases ended
    exact (Device.write_false written).1

/-- Which calls fail is up to the device, and no lock is taken from outside meanwhile. -/
theorem run_keeps {t u : Task k m} (steps : Nat) (shared : c.Shared t u) :
    (t.run steps c).2.device.fails = c.device.fails ∧
      ∀ i, (t.run steps c).2.lockAt i = .outside → c.lockAt i = .outside := by
  induction steps generalizing t c with
  | zero => exact ⟨rfl, fun _ => id⟩
  | succ steps ih =>
    unfold run
    split
    case h_1 => exact ⟨rfl, fun _ => id⟩
    case h_2 t₁ c₁ step =>
      have moves := moves_of_step shared.coherent shared.fits shared.within step
      obtain ⟨fails, outside⟩ := ih (shared.step step).1
      exact ⟨fails.trans moves.fails, fun i h => moves.outside (outside i h)⟩

/-- On a device that never fails no run ends with an error. -/
theorem ok_of_run {t u : Task k m} (steps : Nat) (shared : c.Shared t u)
    (sound : ∀ number kind b, c.device.fails number kind b = false)
    (going : ∀ r, t ≠ .done r) (e : DeviceError m) : (t.run steps c).1 ≠ .done (.error e) := by
  induction steps generalizing t c with
  | zero => exact going _
  | succ steps ih =>
    unfold run
    split
    case h_1 => exact going _
    case h_2 t₁ c₁ step =>
      have moves := moves_of_step shared.coherent shared.fits shared.within step
      by_cases ended : ∃ r, t₁ = .done r
      · obtain ⟨r, rfl⟩ := ended
        rw [run_done]
        rintro ⟨⟩
        have fails := fails_of_step step
        rw [Device.failsNext, sound] at fails
        cases fails
      · exact ih (shared.step step).1 (by rwa [moves.fails]) (not_exists.1 ended)

theorem rank_of_start {op : Operation} {t : Task k m} (start : op.start n = .ok t) :
    t.rank ≤ Cache.steps k := by
  cases Operation.starts start with
  | read b inside | write b inside | prefetch b | flush =>
    simp only [rank, Cache.steps]
    omega
  | beyond | size => exact Nat.zero_le _

end Task

namespace Cache

variable {c : Cache k m n}

/-- A call that was begun well returns while no lock is held from outside. It does to the blocks
what its answer says, and fails only if the device does. -/
theorem call_returns {op : Operation} {t : Task k m} (resting : c.Resting)
    (inside : ∀ i, c.lockAt i ≠ .outside) (start : op.start n = .ok t) :
    ∃ answer c', c.call op = .ok (answer, c') ∧ c'.Resting ∧ (∀ i, c'.lockAt i ≠ .outside) ∧
      c'.device.fails = c.device.fails ∧ op.Settles answer c.content c'.content ∧
      ((∀ number kind b, c.device.fails number kind b = false) → ∃ bytes, answer = .ok bytes) := by
  have shared := resting.shared (.ok []) (.ok [])
  have started := shared.start start
  obtain ⟨answer, ends⟩ := Task.run_ends (Cache.steps k) started inside (Task.rank_of_start start)
  obtain ⟨after, settles⟩ := shared.operation start (Cache.steps k)
  obtain ⟨fails, outside⟩ := Task.run_keeps (Cache.steps k) started
  have sound (always : ∀ number kind b, c.device.fails number kind b = false) :
      ∃ bytes, answer = .ok bytes := by
    obtain ⟨-, -, -, -, rfl | going⟩ := Task.of_start start
    · rw [Task.run_done] at ends
      cases ends
      exact ⟨[], rfl⟩
    · cases answer with
      | ok bytes => exact ⟨bytes, rfl⟩
      | error e => exact absurd ends (Task.ok_of_run _ started always going e)
  rw [ends] at after settles
  refine ⟨answer, _, ?_, after.resting, fun i h => inside i (outside i h), fails,
    settles.answered start, sound⟩
  rw [call, start]
  simp only [bind, Except.bind]
  generalize t.run (steps k) c = result at ends ⊢
  obtain ⟨t', c'⟩ := result
  cases ends
  rfl

end Cache

end SectorFs
