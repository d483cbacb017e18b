/-
# SectorFs.Proofs.Cache.Owing — what a cache owes, and one that can pay nothing

A write that is answered leaves its block in a slot, still to be stored (`Task.owes_of_run`). If
every slot owes a block and no call of the device works, the cache is jammed: a block that has no
slot cannot get one, since no slot can be emptied, and whoever asks for it is told that storing
another block failed. The cache is jammed after that as it was before (`Jammed.refuses`).
-/
import SectorFs.Proofs.Cache.Misses
import SectorFs.Proofs.Cache.Unsaved

namespace SectorFs

set_option autoImplicit false

variable {k m n : Nat}

namespace Task

open Cache

variable {a : Access m} {s : Fin k} {b : Fin m} {t t' u : Task k m} {c c' : Cache k m n}

/-! ## What a write leaves -/

theorem owes_of_finish (holds : (c.slotAt s).holds a.block = true) (writes : a.use.writes = true) :
    (finish a s c).2.Owes a.block := by
  have content : ∃ data, (c.slotAt s).content = some (a.block, data) := by
    unfold Slot.holds at holds
    split at holds
    · cases holds
    case h_2 b' data content =>
      rw [of_decide_eq_true holds] at content
      exact ⟨data, content⟩
  obtain ⟨data, content⟩ := content
  refine ⟨s, ?_⟩
  change ((c.setSlot s (a.use.apply (c.slotAt s)).2).slotAt s).unsaved = some a.block
  rw [slotAt_setSlot, if_pos rfl]
  obtain ⟨block, use⟩ := a
  cases use with
  | write off bytes =>
    simp only [Use.apply, content]
    rfl
  | read | touch => cases writes

theorem owes_of_load (ends : ∃ bytes, (load a s c).1 = .done (.ok bytes))
    (writes : a.use.writes = true) : (load a s c).2.Owes a.block := by
  unfold load at ends ⊢
  split
  case isTrue => exact owes_of_finish (by simp [Slot.holds, Slot.content]) writes
  case isFalse reads =>
    rw [if_neg reads] at ends
    obtain ⟨bytes, same⟩ := ends
    cases same

theorem owes_of_seekStep (ends : ∃ bytes, (seekStep a c).1 = .done (.ok bytes))
    (writes : a.use.writes = true) : (seekStep a c).2.Owes a.block := by
  have seeks := seeks a c
  generalize seekStep a c = result at seeks ends ⊢
  cases seeks with
  | hit found free holds => exact owes_of_finish (c := countHit _) holds writes
  | clean => exact owes_of_load ends writes
  | strange | locked | evicting | full | dirty =>
    obtain ⟨bytes, same⟩ := ends
    cases same

theorem owes_of_storeStep {old : Fin m} (ends : ∃ bytes, (storeStep a s old c).1 = .done (.ok bytes))
    (writes : a.use.writes = true) : (storeStep a s old c).2.Owes a.block := by
  unfold storeStep at ends ⊢
  generalize c.device.write old (c.slots.get s).data = result at ends ⊢
  obtain ⟨_ | _, device⟩ := result
  · obtain ⟨bytes, same⟩ := ends
    cases same
  · exact owes_of_load ends writes

theorem owes_of_loadStep (ends : ∃ bytes, (loadStep a s c).1 = .done (.ok bytes))
    (writes : a.use.writes = true) : (loadStep a s c).2.Owes a.block := by
  unfold loadStep at ends ⊢
  generalize c.device.read a.block = result at ends ⊢
  obtain ⟨_ | data, device⟩ := result
  · obtain ⟨bytes, same⟩ := ends
    cases same
  · exact owes_of_finish (by simp [Slot.holds, Slot.content]) writes

/-- A use that writes and ends well leaves its block to be stored. -/
theorem owes_of_wrote (step : t.step c = some (t', c')) (wrote : Wrote t.access? b t') :
    c'.Owes b := by
  obtain ⟨ends, a, access, rfl, writes⟩ := wrote
  cases steps_of_step step with
  | seek =>
    cases access
    exact owes_of_seekStep ends writes
  | hit idle holds =>
    cases access
    exact owes_of_finish (c := countHit _) holds writes
  | store =>
    cases access
    exact owes_of_storeStep ends writes
  | load =>
    cases access
    exact owes_of_loadStep ends writes
  | present =>
    cases access
    cases writes
  | absent | lost | awake | passed | unsaved =>
    obtain ⟨bytes, same⟩ := ends
    cases same
  | through | flush => cases access

/-- A run that writes and ends well leaves its block to be stored. -/
theorem owes_of_run {bytes : List UInt8} (steps : Nat) (shared : c.Shared t u)
    (access : t.access? = some a) (writes : a.use.writes = true)
    (ends : (t.run steps c).1 = .done (.ok bytes)) : (t.run steps c).2.Owes a.block := by
  induction steps generalizing t c with
  | zero =>
    obtain rfl : t = .done (.ok bytes) := ends
    cases access
  | succ steps ih =>
    unfold run at ends ⊢
    split at ends
    case h_1 =>
      obtain rfl : t = .done (.ok bytes) := ends
      cases access
    case h_2 t₁ c₁ step =>
      by_cases ended : ∃ r, t₁ = .done r
      · obtain ⟨r, rfl⟩ := ended
        rw [run_done] at ends ⊢
        cases ends
        exact owes_of_wrote step ⟨⟨bytes, rfl⟩, a, access, rfl, writes⟩
      · obtain ⟨shared₁, settles⟩ := shared.step step
        have same := (settles.going (not_exists.1 ended)).2
        exact ih shared₁ (same.trans access) ends

end Task

namespace Cache

variable {c c' : Cache k m n} {a : Access m} {held : Set (Fin m)}

/-! ## Caches that can store nothing -/

/-- The only slot has the block that is owed. -/
theorem unsaved_of_owes (one : k = 1) {b : Fin m} (owes : c.Owes b) (s : Fin k) :
    (c.slotAt s).unsaved = some b := by
  obtain ⟨slot, owes⟩ := owes
  have first (s : Fin k) : s.val = 0 := Nat.lt_one_iff.1 (s.isLt.trans_eq one)
  obtain rfl : s = slot := Fin.ext ((first s).trans (first slot).symm)
  exact owes

/-- Where every slot has one of these blocks to store, no other block has a slot. -/
theorem unnamed_of_owes (resting : c.Resting)
    (owes : ∀ s : Fin k, ∃ b ∈ held, (c.slotAt s).unsaved = some b) {b : Fin m} (absent : b ∉ held)
    (s : Fin k) : ¬ c.Names s b := by
  obtain ⟨old, mem, unsaved⟩ := owes s
  obtain ⟨data, dirty⟩ := Slot.dirty_of_unsaved unsaved
  have stands := resting.coherent.stands s
  rw [dirty] at stands
  obtain ⟨resident, evicting⟩ := stands.of_dirty (resting.idle s)
  rintro (named | named)
  · obtain rfl := Option.some.inj (resident.symm.trans named)
    exact absent mem
  · cases evicting.symm.trans named

/-- Every slot has one of these blocks to store, and no call of the device works. -/
structure Jammed (c : Cache k m n) (held : Set (Fin m)) : Prop where
  owes (s : Fin k) : ∃ b ∈ held, (c.slotAt s).unsaved = some b
  fails (number : Nat) (kind : IoKind) (b : Fin m) : c.device.fails number kind b = true

/-- Its look-up takes a slot that cannot be given up. -/
theorem Jammed.run_seek (jammed : c.Jammed held) (resting : c.Resting)
    (free : ∀ i, c.lockAt i = .free) (absent : a.block ∉ held) (steps : Nat) :
    ∃ old, ((Task.seek a : Task k m).run (steps + 2) c).1 = .done (.error ⟨.write, old⟩) := by
  have taken := takeSlot_spec resting.coherent a.block
  have unnamed := unnamed_of_owes resting jammed.owes absent
  have seeks := Task.seeks a c
  have ends : ∃ s old c₁, Task.seekStep a c = (.storing a s old, c₁) ∧ c₁.device = c.device := by
    generalize Task.seekStep a c = result at seeks ⊢
    cases seeks with
    | hit found | strange found | locked found =>
      exact absurd (.inl (Directory.find_resident found)) (unnamed _)
    | evicting found =>
      exact absurd (.inr (Directory.find_evicting found)) (unnamed _)
    | full _ same =>
      exact absurd (congrArg Prod.fst same) (takeSlot_ne_none resting.coherent free a.block)
    | @clean s c₁ _ same =>
      rw [same] at taken
      obtain ⟨old, -, unsaved⟩ := jammed.owes s
      cases taken.unsaved.trans unsaved
    | @dirty s old c₁ _ same =>
      rw [same] at taken
      exact ⟨s, old, c₁, rfl, taken.device⟩
  obtain ⟨s, old, c₁, sought, device⟩ := ends
  have refused : ∃ device', c₁.device.write old (c₁.slots.get s).data = (false, device') := by
    have failing : c₁.device.failsNext .write old = true := by
      rw [device, Device.failsNext]
      exact jammed.fails _ _ _
    exact ⟨_, by rw [Device.write, if_pos failing]⟩
  obtain ⟨device', refused⟩ := refused
  refine ⟨old, ?_⟩
  simp only [Task.run, Task.step, sought, Task.storeStep, refused, Task.fail, Task.run_done]

/-- A use of a block without a slot is refused, and the cache stays jammed. -/
theorem Jammed.refuses {op : Operation} {answer : Answer m} (jammed : c.Jammed held)
    (resting : c.Resting) (free : ∀ i, c.lockAt i = .free) (absent : a.block ∉ held)
    (start : op.start n = .ok (.seek a : Task k m)) (called : c.call op = .ok (answer, c')) :
    (∃ e, answer = .error e) ∧ c'.Jammed held := by
  obtain ⟨t, start', ran⟩ := run_of_call called
  cases start.symm.trans start'
  have started := (resting.shared (.ok []) (.ok [])).start start
  have misses : (Task.seek a : Task k m).Misses c a.block c := ⟨rfl, rfl⟩
  have unnamed := unnamed_of_owes resting jammed.owes absent
  have failed := misses.run resting.coherent free unnamed (steps k)
  have fails := (Task.run_keeps (steps k) started).1
  obtain ⟨old, refused⟩ := jammed.run_seek resting free absent (steps k - 2)
  have enough : steps k - 2 + 2 = steps k := by
    unfold steps
    omega
  rw [enough, ran] at refused
  rw [ran] at failed fails
  obtain rfl := Task.done.inj refused
  refine ⟨⟨_, rfl⟩, fun s => ?_, fun number kind b => ?_⟩
  · obtain ⟨b, mem, unsaved⟩ := jammed.owes s
    exact ⟨b, mem, (failed.same s).slot ▸ unsaved⟩
  · rw [fails]
    exact jammed.fails number kind b

end Cache

end SectorFs
