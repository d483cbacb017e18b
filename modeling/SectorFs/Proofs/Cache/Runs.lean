/-
# SectorFs.Proofs.Cache.Runs — two tasks on one cache

`Cache.Shared c t u` is the invariant of a cache on which two tasks are under
way: both fit, and each busy slot is locked by exactly one of them. A step of
one keeps it (`Shared.step`), because a task leaves alone what the other has
locked; so a run of one keeps it while the other waits (`Shared.run`).

A run of a whole operation therefore does to the blocks what the operation does
to a plain array of blocks, or nothing if it answers with an error
(`Shared.operation`).
-/
import SectorFs.Proofs.Cache.Step
import SectorFs.Cache.Race

namespace SectorFs

set_option autoImplicit false

variable {k m n : Nat}

/-- What an operation does to a plain array of blocks: the bytes copied out, and the array after
it. -/
def Operation.onContent (op : Operation) (v : Contents m n) : List UInt8 × Contents m n :=
  match op with
  | .read block off len => if h : block < m then ((v ⟨block, h⟩).slice off len, v) else ([], v)
  | .write block off data =>
      if h : block < m then
        ([], Function.update v ⟨block, h⟩ ((v ⟨block, h⟩).patch off data))
      else ([], v)
  | .prefetch _ | .flush | .size => ([], v)

/-- An answer of an operation, and the blocks before and after it, as a plain array has them. An
operation that answers with an error did nothing. -/
def Operation.Settles (op : Operation) (answer : Answer m) (before after : Contents m n) : Prop :=
  match answer with
  | .ok bytes => op.onContent before = (bytes, after)
  | .error _ => after = before

namespace Task

/-- Where an operation starts, it is about the block that it names, and has no slot locked. -/
theorem of_start {op : Operation} {t : Task k m} (start : op.start n = .ok t) :
    t.Within n ∧ t.slot? = none ∧ (∀ c : Cache k m n, t.Fits c) ∧
      (∀ v : Contents m n, t.onContent v = op.onContent v) ∧
      (t = .done (.ok []) ∨ ∀ r, t ≠ .done r) := by
  cases Operation.starts start with
  | read b inside | write b inside =>
    refine ⟨fun a same => ?_, rfl, fun _ => trivial, fun v => ?_, .inr (by simp)⟩
    · cases same
      exact inside
    · simp only [onContent, access?, Access.onContent, Operation.onContent, dif_pos b.isLt]
  | prefetch b =>
    refine ⟨fun a same => ?_, rfl, fun _ => trivial, fun _ => rfl, .inr (by simp)⟩
    cases same
    trivial
  | flush =>
    refine ⟨fun a same => ?_, rfl, fun _ => trivial, fun _ => rfl, .inr (by simp)⟩
    cases same
  | beyond | size =>
    refine ⟨fun a same => ?_, rfl, fun _ => trivial, fun _ => rfl, .inl rfl⟩
    cases same

@[simp] theorem run_done (r : Except (DeviceError m) (List UInt8)) (steps : Nat)
    (c : Cache k m n) : (done r : Task k m).run steps c = (.done r, c) := by
  cases steps <;> rfl

/-- A task that is not at its end has done nothing so far. -/
theorem Settles.refl {t : Task k m} (fits : ∀ v, t ≠ .halted v) (going : ∀ r, t ≠ .done r)
    (v : Contents m n) : t.Settles t v v := by
  cases t with
  | done r => exact absurd rfl (going r)
  | halted v => exact absurd rfl (fits v)
  | probe | seek | awaitHit | awaitSlot | storing | loading | visit | flushing => exact ⟨rfl, rfl⟩

theorem Settles.going {t t' : Task k m} {v v' : Contents m n} (settles : t.Settles t' v v')
    (going : ∀ r, t' ≠ .done r) : v' = v ∧ t'.access? = t.access? := by
  cases t' with
  | done r => exact absurd rfl (going r)
  | probe | seek | awaitHit | awaitSlot | storing | loading | visit | flushing | halted =>
    exact settles

theorem Settles.trans {t t' t'' : Task k m} {v v' v'' : Contents m n}
    (settles : t.Settles t' v v') (going : ∀ r, t' ≠ .done r) (settles' : t'.Settles t'' v' v'') :
    t.Settles t'' v v'' := by
  obtain ⟨rfl, access⟩ := settles.going going
  unfold Settles onContent at *
  rwa [access] at settles'

end Task

namespace Cache

/-- Two tasks are under way on a coherent cache, and every busy slot is locked by one of them. -/
structure Shared (c : Cache k m n) (t u : Task k m) : Prop where
  coherent : c.Coherent
  fits : t.Fits c
  fits' : u.Fits c
  within : t.Within n
  within' : u.Within n
  apart {i : Fin k} : t.slot? = some i → u.slot? ≠ some i
  owned {i : Fin k} : c.lockAt i = .busy → t.slot? = some i ∨ u.slot? = some i

namespace Shared

variable {c c' : Cache k m n} {t t' u : Task k m}

theorem symm (shared : c.Shared t u) : c.Shared u t where
  coherent := shared.coherent
  fits := shared.fits'
  fits' := shared.fits
  within := shared.within'
  within' := shared.within
  apart h h' := shared.apart h' h
  owned busy := (shared.owned busy).symm

/-- What a task answered does not matter. -/
theorem answer {r : Answer m} (shared : c.Shared t (.done r)) (r' : Answer m) :
    c.Shared t (.done r') :=
  { shared with fits' := trivial, within' := nofun }

/-- A step of one task keeps the invariant. -/
theorem step (shared : c.Shared t u) (step : t.step c = some (t', c')) :
    c'.Shared t' u ∧ t.Settles t' c.content c'.content := by
  have moves := Task.moves_of_step shared.coherent shared.fits shared.within step
  refine ⟨⟨moves.coherent, moves.fits, ?_, ?_, shared.within', ?_, ?_⟩, moves.settles⟩
  · exact shared.fits'.of_same fun i slot =>
      moves.others (shared.fits'.busy slot) fun own => shared.apart own slot
  · by_cases going : ∃ r, t' = .done r
    · obtain ⟨r, rfl⟩ := going
      exact nofun
    · have access := (moves.settles.going (not_exists.1 going)).2
      intro a ha
      exact shared.within a (access ▸ ha)
  · intro i slot other
    rcases moves.locks slot with own | idle
    · exact shared.apart own other
    · exact idle (shared.fits'.busy other)
  · intro i busy
    rcases moves.busy busy with own | ⟨busy, other⟩
    · exact .inl own
    · exact .inr ((shared.owned busy).resolve_left other)

/-- A run of one task keeps the invariant, however far it goes. -/
theorem run (steps : Nat) (shared : c.Shared t u) (going : ∀ r, t ≠ .done r) :
    (t.run steps c).2.Shared (t.run steps c).1 u ∧
      t.Settles (t.run steps c).1 c.content (t.run steps c).2.content := by
  have never (v : Violation) : t ≠ .halted v := fun h => by
    have fits := shared.fits
    rw [h] at fits
    exact fits
  induction steps generalizing t c with
  | zero => exact ⟨shared, .refl never going _⟩
  | succ steps ih =>
    unfold Task.run
    split
    case h_1 => exact ⟨shared, .refl never going _⟩
    case h_2 t₁ c₁ stepped =>
      obtain ⟨shared₁, settles₁⟩ := shared.step stepped
      by_cases ended : ∃ r, t₁ = .done r
      · obtain ⟨r, rfl⟩ := ended
        rw [Task.run_done]
        exact ⟨shared₁, settles₁⟩
      · have going₁ := not_exists.1 ended
        obtain ⟨shared₂, settles₂⟩ := ih shared₁ going₁ fun v h => by
          have fits := shared₁.fits
          rw [h] at fits
          exact fits
        exact ⟨shared₂, settles₁.trans going₁ settles₂⟩

/-- A thread that is between two operations may start one. -/
theorem start {op : Operation} {r : Answer m} (shared : c.Shared (.done r) u)
    (start : op.start n = .ok t) : c.Shared t u := by
  obtain ⟨within, slot, fits, -, -⟩ := Task.of_start start
  exact {
    coherent := shared.coherent
    fits := fits c
    fits' := shared.fits'
    within := within
    within' := shared.within'
    apart := fun h => by rw [slot] at h; cases h
    owned := fun busy => .inr ((shared.owned busy).resolve_left nofun) }

/-- The other task may stand anywhere while an operation runs from its start. -/
theorem operation {op : Operation} {r : Answer m} (shared : c.Shared (.done r) u)
    (start : op.start n = .ok t) (steps : Nat) :
    (t.run steps c).2.Shared (t.run steps c).1 u ∧
      t.Settles (t.run steps c).1 c.content (t.run steps c).2.content := by
  obtain ⟨-, -, -, -, rfl | going⟩ := Task.of_start start
  · rw [Task.run_done]
    exact ⟨shared.start start, rfl⟩
  · exact (shared.start start).run steps going

end Shared

/-- A coherent cache on which no task is under way. Locks may be held from outside. -/
structure Resting (c : Cache k m n) : Prop where
  coherent : c.Coherent
  idle (i : Fin k) : c.lockAt i ≠ .busy

theorem Resting.shared {c : Cache k m n} (resting : c.Resting) (r r' : Answer m) :
    c.Shared (.done r) (.done r') where
  coherent := resting.coherent
  fits := trivial
  fits' := trivial
  within := nofun
  within' := nofun
  apart := nofun
  owned busy := absurd busy (resting.idle _)

theorem Shared.resting {c : Cache k m n} {r r' : Answer m}
    (shared : c.Shared (.done r) (.done r')) : c.Resting where
  coherent := shared.coherent
  idle _ busy := (shared.owned busy).elim nofun nofun

/-- A new cache shows the device. -/
theorem resting_new {device : Device m n} {config : CacheSetup}
    {c : Cache config.slots m n} (made : Cache.new device config = .ok c) :
    c.Resting ∧ c.device = device ∧ (∀ i, c.lockAt i = .free) ∧
      c.content = fun b => device.blocks.get b := by
  unfold Cache.new at made
  split at made
  case isFalse => cases made
  case isTrue hk =>
    cases made
    generalize made : ({
      directory := .empty hk config
      slots := Vector.replicate _ .unused
      locks := Vector.replicate _ .free
      counts := {}
      device } : Cache config.slots m n) = c
    have device_eq : c.device = device := by subst made; rfl
    have resident (i : Fin config.slots) : c.residentAt i = none := by
      subst made; simp [residentAt, Directory.empty]
    have evicting (i : Fin config.slots) : c.evictingAt i = none := by
      subst made; simp [evictingAt, Directory.empty]
    have lock (i : Fin config.slots) : c.lockAt i = .free := by subst made; simp [lockAt]
    have slot (i : Fin config.slots) : c.slotAt i = .unused := by subst made; simp [slotAt]
    have unnamed (i : Fin config.slots) (b : Fin m) : ¬ c.Names i b := by
      simp [Names, resident, evicting]
    have coherent : c.Coherent := {
      stands := fun i => by
        rw [resident, evicting, lock, slot]
        exact .empty (by decide)
      distinct := fun h => absurd h (unnamed _ _) }
    refine ⟨⟨coherent, fun i => by rw [lock]; decide⟩, device_eq, lock, funext fun b => ?_⟩
    rw [content_of_unnamed coherent fun i => unnamed i b, device_eq]

end Cache

/-- What a task did that has come to its end is what its operation does. -/
theorem Task.Settles.answered {op : Operation} {t : Task k m} (start : op.start n = .ok t)
    {answer : Answer m} {v v' : Contents m n} (settles : t.Settles (.done answer) v v') :
    op.Settles answer v v' := by
  obtain ⟨-, -, -, same, -⟩ := Task.of_start start
  cases answer with
  | ok bytes => exact (same v).symm.trans settles
  | error e => exact settles

end SectorFs
