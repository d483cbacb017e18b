/-
# SectorFs.Proofs.Cache.Flush — what a flush leaves on the device

A flush goes through the slots in order, and the slots behind it have nothing
left to store (`Task.Flushed`). When it ends well the device has what a reader
of the cache sees (`flush_stores`).
-/
import SectorFs.Proofs.Cache.Progress

namespace SectorFs

set_option autoImplicit false

variable {k m n : Nat} {c c' : Cache k m n}

namespace Task

/-- The slots that a flush has passed have nothing to store. -/
def Flushed (c : Cache k m n) : Task k m → Prop
  | .visit i => ∀ s : Fin k, s.val < i → (c.slotAt s).unsaved = none
  | .flushing i _ => ∀ s : Fin k, s.val < i.val → (c.slotAt s).unsaved = none
  | .done (.ok _) => ∀ s : Fin k, (c.slotAt s).unsaved = none
  | .done (.error _) => True
  | _ => False

variable {t t' : Task k m}

theorem Flushed.flush {i : Fin k} {b : Fin m} (flushed : (Task.flushing i b).Flushed c) :
    (flushStep i b c).1.Flushed (flushStep i b c).2 := by
  unfold flushStep
  split
  case h_1 => trivial
  case h_2 =>
    intro s passed
    change ((Cache.setSlot _ _ _).slotAt s).unsaved = none
    rw [Cache.slotAt_setSlot]
    split
    case isTrue => rfl
    case isFalse other =>
      refine flushed s ?_
      have : s.val ≠ i.val := fun same => other (Fin.ext same)
      omega

theorem Flushed.step (flushed : t.Flushed c) (step : t.step c = some (t', c')) :
    t'.Flushed c' := by
  cases steps_of_step step with
  | @passed i idle saved =>
    intro s passed
    rcases Nat.lt_succ_iff_lt_or_eq.1 passed with before | here
    · exact flushed s before
    · obtain rfl : s = i := Fin.ext here
      exact saved
  | unsaved => exact flushed
  | through beyond => exact fun s => flushed s (Nat.lt_of_lt_of_le s.isLt beyond)
  | flush => exact Flushed.flush flushed
  | absent | present | seek | hit | lost | awake | store | load => exact flushed.elim

theorem Flushed.run (steps : Nat) (flushed : t.Flushed c) :
    (t.run steps c).1.Flushed (t.run steps c).2 := by
  induction steps generalizing t c with
  | zero => exact flushed
  | succ steps ih =>
    rw [Task.run]
    cases next : t.step c with
    | none => exact flushed
    | some after => exact ih (flushed.step next)

end Task

namespace Cache

/-- A cache with nothing to store shows what the device has. -/
theorem content_of_saved (coherent : c.Coherent)
    (saved : ∀ s : Fin k, (c.slotAt s).unsaved = none) (b : Fin m) :
    c.content b = c.device.blocks.get b := by
  by_cases named : ∃ s, c.Names s b
  · obtain ⟨s, names⟩ := named
    rw [content_of_names coherent names, Task.view_of_saved coherent (saved s)]
  · exact content_of_unnamed coherent fun s names => named ⟨s, names⟩

/-- After a flush that worked the device has every block as the cache shows it. -/
theorem flush_stores {bytes : List UInt8} (resting : c'.Resting)
    (called : c.call .flush = .ok (.ok bytes, c')) (b : Fin m) :
    c'.content b = c'.device.blocks.get b := by
  have flushed := Task.Flushed.run (steps k) (t := (.visit 0 : Task k m)) (c := c)
    fun _ passed => absurd passed (Nat.not_lt_zero _)
  rw [call, Operation.start] at called
  simp only [bind, Except.bind] at called
  generalize (Task.visit 0 : Task k m).run (steps k) c = result at flushed called
  obtain ⟨t, c₁⟩ := result
  cases t with
  | done r =>
    cases called
    exact content_of_saved resting.coherent flushed b
  | probe | seek | awaitHit | awaitSlot | storing | loading | visit | flushing | halted =>
    cases called

end Cache

end SectorFs
