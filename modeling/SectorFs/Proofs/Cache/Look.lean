/-
# SectorFs.Proofs.Cache.Look — looking a block up and taking a slot for it

The directory answers a look-up truthfully (`find_resident` and its neighbours).
Proposals change marks of use only, so all that `takeSlot` does is to give one
slot whose lock can be had to the block, or nothing that matters (`takeSlot_spec`).
-/
import SectorFs.Proofs.Cache.Coherence

namespace SectorFs

set_option autoImplicit false

namespace Directory

variable {k m : Nat}

/-- `d'` says of every slot what `d` says, but for marks of use. -/
def Agrees (d d' : Directory k m) : Prop :=
  ∀ i : Fin k, (d'.entries.get i).resident = (d.entries.get i).resident ∧
    (d'.entries.get i).evicting = (d.entries.get i).evicting

theorem Agrees.refl (d : Directory k m) : Agrees d d := fun _ => ⟨rfl, rfl⟩

theorem Agrees.trans {d d' d'' : Directory k m} (h : Agrees d d') (h' : Agrees d' d'') :
    Agrees d d'' := fun i => ⟨(h' i).1.trans (h i).1, (h' i).2.trans (h i).2⟩

theorem agrees_set (d : Directory k m) (s : Fin k) (e : Entry m)
    (resident : e.resident = (d.entries.get s).resident)
    (evicting : e.evicting = (d.entries.get s).evicting) : Agrees d (d.set s e) := fun i => by
  by_cases same : s = i
  · subst same
    simpa [set] using ⟨resident, evicting⟩
  · simp [set, Ne.symm same]

theorem agrees_sweep (steps : Nat) (d : Directory k m) : Agrees d (d.sweep steps).2 := by
  induction steps generalizing d with
  | zero => exact .refl d
  | succ steps ih =>
    unfold sweep
    split
    · have cleared : Agrees d (d.set d.hand { d.entries.get d.hand with accessed := false }).advance :=
        agrees_set d d.hand _ rfl rfl
      exact cleared.trans (ih _)
    · exact .refl d

theorem agrees_propose (d : Directory k m) : Agrees d d.propose.2 := by
  unfold propose
  split
  · exact .refl d
  · exact agrees_sweep k d

theorem policy_sweep (steps : Nat) (d : Directory k m) : (d.sweep steps).2.policy = d.policy := by
  induction steps generalizing d with
  | zero => rfl
  | succ steps ih =>
    unfold sweep
    split
    · exact ih _
    · rfl

theorem policy_propose (d : Directory k m) : d.propose.2.policy = d.policy := by
  unfold propose
  split
  · rfl
  · exact policy_sweep k d

/-! ## Looking a block up -/

theorem find_resident {d : Directory k m} {b : Fin m} {s : Fin k}
    (found : d.find b = .resident s) : (d.entries.get s).resident = some b := by
  unfold find at found
  split at found
  · cases found
  · split at found
    · cases found; assumption
    · cases found

theorem find_evicting {d : Directory k m} {b : Fin m} {s : Fin k}
    (found : d.find b = .evicting s) : (d.entries.get s).evicting = some b := by
  unfold find at found
  split at found
  · cases found
  · rename_i s' names
    split at found
    · cases found
    · cases found
      rename_i other
      have names := List.find?_some names
      simp only [Entry.names, Bool.or_eq_true, decide_eq_true_eq] at names
      exact names.resolve_left other

theorem find_absent {d : Directory k m} {b : Fin m} (found : d.find b = .absent) (s : Fin k) :
    (d.entries.get s).names b = false := by
  unfold find at found
  split at found
  case h_1 none => simpa using List.find?_eq_none.1 none s (List.mem_finRange s)
  case h_2 => split at found <;> cases found

theorem find_eq_absent {d : Directory k m} {b : Fin m}
    (unnamed : ∀ s, (d.entries.get s).names b = false) : d.find b = .absent := by
  have none : (List.finRange k).find? (fun s => (d.entries.get s).names b) = none :=
    List.find?_eq_none.2 fun s _ => by simp [unnamed s]
  rw [find, none]

end Directory

namespace Cache

variable {k m n : Nat}

theorem sameAt_of_agrees {c : Cache k m n} {d : Directory k m}
    (agrees : Directory.Agrees c.directory d) (i : Fin k) : SameAt c { c with directory := d } i :=
  ⟨(agrees i).1, (agrees i).2, rfl, rfl⟩

/-- While nobody is busy no look-up finds a block that is being stored. -/
theorem find_ne_evicting {c : Cache k m n} (coherent : c.Coherent) (idle : ∀ i, c.lockAt i ≠ .busy)
    (b : Fin m) (s : Fin k) : c.directory.find b ≠ .evicting s := fun found => by
  have storing : c.evictingAt s = some b := Directory.find_evicting found
  rw [evicting_of_idle coherent (idle s)] at storing
  cases storing

/-! ## Taking a slot -/

/-- What it means that a slot was taken for block `b`. -/
structure Takes (c : Cache k m n) (b : Fin m) (taken : TakenSlot k m) (c' : Cache k m n) :
    Prop where
  wasFree : c.lockAt taken.slot = .free
  unsaved : taken.unsaved = (c.slotAt taken.slot).unsaved
  resident : c'.residentAt taken.slot = some b
  evicting : c'.evictingAt taken.slot = taken.unsaved
  lock : c'.lockAt taken.slot = .busy
  slot : c'.slotAt taken.slot = c.slotAt taken.slot
  same {i : Fin k} : i ≠ taken.slot → SameAt c c' i
  device : c'.device = c.device

/-- A slot that is named for nothing has nothing. -/
theorem Coherent.slot_of_free {c : Cache k m n} (coherent : c.Coherent) {s : Fin k}
    (free : (c.directory.entries.get s).isFree = true) : c.slotAt s = .unused := by
  have stands := coherent.stands s
  have resident : c.residentAt s = none := by
    simp only [Entry.isFree, Bool.and_eq_true, Option.isNone_iff_eq_none] at free
    exact free.1
  rw [resident] at stands
  generalize c.evictingAt s = evicting, c.lockAt s = lock, c.slotAt s = slot at stands
  cases stands
  rfl

/-- Whatever leaves every slot alone before a slot is taken does not matter. -/
theorem Takes.of_same {c c₁ c' : Cache k m n} {b : Fin m} {taken : TakenSlot k m}
    (same : ∀ i, SameAt c c₁ i) (device : c₁.device = c.device) (takes : Takes c₁ b taken c') :
    Takes c b taken c' where
  wasFree := (same _).lock.symm.trans takes.wasFree
  unsaved := takes.unsaved.trans (congrArg Slot.unsaved (same _).slot)
  resident := takes.resident
  evicting := takes.evicting
  lock := takes.lock
  slot := takes.slot.trans (same _).slot
  same ne := (same _).trans (takes.same ne)
  device := takes.device.trans device

theorem takes_setEntry (c : Cache k m n) {s : Fin k} (free : c.lockAt s = .free) (b : Fin m)
    {unsaved : Option (Fin m)} (unsaved_eq : unsaved = (c.slotAt s).unsaved) :
    Takes c b ⟨s, unsaved⟩
      ((c.setEntry s { Entry.holding b with evicting := unsaved }).setLock s .busy) where
  wasFree := free
  unsaved := unsaved_eq
  resident := by simp [Entry.holding]
  evicting := by simp
  lock := by simp
  slot := rfl
  same ne := (sameAt_setEntry c ne _).trans (sameAt_setLock _ ne _)
  device := rfl

/-- How the search for a slot to give up ends: the hand passed every slot that was proposed, or it
takes the last of them. -/
inductive EvictResult (c : Cache k m n) (b : Fin m) :
    Option (TakenSlot k m) × Cache k m n → Prop where
  | passed {d : Directory k m} (agrees : Directory.Agrees c.directory d)
      (policy : d.policy = c.directory.policy) : EvictResult c b (none, { c with directory := d })
  | taken {d : Directory k m} {s : Fin k} (agrees : Directory.Agrees c.directory d)
      (policy : d.policy = c.directory.policy) (lock : c.lockAt s = .free) :
      EvictResult c b (some ⟨s, (c.slotAt s).unsaved⟩,
        ((if (d.entries.get s).resident.isSome then { c with directory := d }.countEviction
            else { c with directory := d }).setEntry s
          { Entry.holding b with evicting := (c.slotAt s).unsaved }).setLock s .busy)

theorem evictResult (c : Cache k m n) (b : Fin m) (attempts : Nat) :
    EvictResult c b (evict b attempts c) := by
  induction attempts generalizing c with
  | zero => exact .passed (.refl c.directory) rfl
  | succ attempts ih =>
    have agrees := c.directory.agrees_propose
    have policy := c.directory.policy_propose
    unfold evict
    generalize c.directory.propose = proposal at agrees policy ⊢
    obtain ⟨s, d⟩ := proposal
    have again : EvictResult c b (evict b attempts { c with directory := d }) := by
      have later := ih { c with directory := d }
      generalize evict b attempts { c with directory := d } = result at later ⊢
      cases later with
      | passed agrees' policy' => exact .passed (agrees.trans agrees') (policy'.trans policy)
      | taken agrees' policy' lock =>
        exact .taken (agrees.trans agrees') (policy'.trans policy) lock
    dsimp only
    split
    · exact again
    · split
      · exact again
      case isFalse lock =>
        rw [not_not] at lock
        exact .taken agrees policy lock

/-- What there is to say of the result of taking a slot. -/
def TakeResult (c : Cache k m n) (b : Fin m) :
    Option (TakenSlot k m) × Cache k m n → Prop
  | (none, c') => c'.device = c.device ∧ ∀ i, SameAt c c' i
  | (some taken, c') => Takes c b taken c'

theorem evict_spec (b : Fin m) (attempts : Nat) (c : Cache k m n) :
    TakeResult c b (evict b attempts c) := by
  have result := c.evictResult b attempts
  generalize evict b attempts c = given at result ⊢
  cases result with
  | passed agrees => exact ⟨rfl, sameAt_of_agrees agrees⟩
  | @taken d s agrees _ lock =>
    have same := sameAt_of_agrees agrees
    split
    · -- that the slot had a block is only counted
      exact Takes.of_same (fun i => (same i).trans (sameAt_countEviction _ i)) rfl
        (takes_setEntry (countEviction { c with directory := d }) lock b rfl)
    · exact Takes.of_same same rfl (takes_setEntry { c with directory := d } lock b rfl)

theorem takeSlot_spec {c : Cache k m n} (coherent : c.Coherent) (b : Fin m) :
    TakeResult c b (c.takeSlot b) := by
  unfold takeSlot
  split
  case h_1 s found =>
    have free := List.find?_some found
    simp only [Bool.and_eq_true, decide_eq_true_eq] at free
    exact takes_setEntry c free.2 b (by rw [coherent.slot_of_free free.1]; rfl)
  case h_2 => exact evict_spec b _ c

end Cache

end SectorFs
