/-
# SectorFs.Proofs.Cache.Durability — what the device has at every moment

If everything but the device is lost, at whatever moment, what is left of a block
is one of its versions. `Cache.Chronicle c op t versions` says that a thread
which works alone on a cache can stand at point `t` of operation `op` with the
cache as in `c`, and that `versions` is what the cache showed at each moment
since a flush last ended well, or since the cache was new; the last moment comes
first. A moment is a step of an operation, so the ones before and after every
device call are among them, whether it failed or not (`Chronicle.call`).

A device call stores a block whole, as the cache shows it at that moment
(`Task.device_of_step`). So the device has of every block one of the versions
(`durable_of_chronicle`), and right after a flush that ended well the only one
there is; no slot is left to store then, and another flush calls no device.
-/
import SectorFs.Proofs.Cache.Flush

namespace SectorFs

set_option autoImplicit false

variable {k m n : Nat} {c c' : Cache k m n} {t t' : Task k m} {b : Fin m}

/-! ## What a step does to the device -/

namespace Task

theorem device_finish (a : Access m) (s : Fin k) (c : Cache k m n) :
    (finish a s c).2.device = c.device := rfl

theorem device_load (a : Access m) (s : Fin k) (c : Cache k m n) :
    (load a s c).2.device = c.device := by
  unfold load
  split <;> rfl

theorem device_seekStep (coherent : c.Coherent) (a : Access m) :
    (seekStep a c).2.device = c.device := by
  have result := Cache.takeSlot_spec coherent a.block
  have seeks := seeks a c
  generalize seekStep a c = ends at seeks ⊢
  cases seeks with
  | hit | strange | locked | evicting => rfl
  | full _ taken =>
    rw [taken] at result
    exact result.1
  | @clean s c₁ _ taken =>
    rw [taken] at result
    exact (device_load a s c₁).trans result.device
  | dirty _ taken =>
    rw [taken] at result
    exact result.device

/-- A slot that was written, in the state that a task leaves it in while it stores it. -/
theorem content_of_dirty (coherent : c.Coherent) {s : Fin k} {data : Block n}
    (slot : c.slotAt s = .dirty b data) : c.content b = data := by
  rw [content_of_holds coherent (s := s) (by rw [slot]; simp [Slot.holds, Slot.content]), slot]
  rfl

/-- A block that was stored is on the device as the cache showed it, and no other one changed. -/
theorem stored_content (coherent : c.Coherent) {s : Fin k} {old : Fin m} {data : Block n}
    {device : Device m n} (slot : c.slotAt s = .dirty old data)
    (written : c.device.write old (c.slotAt s).data = (true, device)) (b : Fin m) :
    device.blocks.get b = c.device.blocks.get b ∨ device.blocks.get b = c.content b := by
  obtain ⟨-, blocks, -⟩ := Device.write_true written
  rw [slot] at blocks
  rw [blocks, get_set]
  split
  case isTrue same =>
    subst same
    exact .inr (content_of_dirty coherent slot).symm
  case isFalse => exact .inl rfl

/-- A step changes the device by storing what the cache shows, if at all. -/
theorem device_of_step (coherent : c.Coherent) (fits : t.Fits c)
    (step : t.step c = some (t', c')) (b : Fin m) :
    c'.device.blocks.get b = c.device.blocks.get b ∨
      c'.device.blocks.get b = c.content b := by
  cases steps_of_step step with
  | absent | present | hit | lost | awake | passed | unsaved | through => exact .inl rfl
  | seek a =>
    rw [device_seekStep coherent a]
    exact .inl rfl
  | store a s old =>
    obtain ⟨-, -, -, data, slot⟩ := fits
    unfold storeStep
    split
    case h_1 device written =>
      obtain ⟨-, blocks, -⟩ := Device.write_false written
      exact .inl (congrArg (Vector.get · b) blocks)
    case h_2 device written =>
      rw [device_load]
      exact stored_content coherent slot written b
  | load a s =>
    unfold loadStep
    split
    case h_1 device loaded =>
      obtain ⟨-, blocks, -⟩ := Device.read_none loaded
      exact .inl (congrArg (Vector.get · b) blocks)
    case h_2 data device loaded =>
      obtain ⟨-, -, blocks, -⟩ := Device.read_some loaded
      rw [device_finish]
      exact .inl (congrArg (Vector.get · b) blocks)
  | flush s b' =>
    obtain ⟨-, -, -, data, slot⟩ := fits
    unfold flushStep
    split
    case h_1 device written =>
      obtain ⟨-, blocks, -⟩ := Device.write_false written
      exact .inl (congrArg (Vector.get · b) blocks)
    case h_2 device written => exact stored_content coherent slot written b

/-- With nothing left to store a flush goes through the slots and calls no device. -/
theorem flush_of_saved {i : Nat} (steps : Nat) (saved : ∀ s : Fin k, (c.slotAt s).unsaved = none)
    (idle : ∀ s : Fin k, c.lockAt s ≠ .busy) (enough : k + 1 ≤ i + steps) (inside : i ≤ k) :
    ∃ c', (Task.visit i : Task k m).run steps c = (.done (.ok []), c') ∧
      c'.device = c.device := by
  induction steps generalizing i c with
  | zero => omega
  | succ steps ih =>
    rw [Task.run, Task.step, visitStep]
    by_cases h : i < k
    · have lock : c.locks.get ⟨i, h⟩ ≠ .busy := idle ⟨i, h⟩
      have clean : (c.slots.get ⟨i, h⟩).unsaved = none := saved ⟨i, h⟩
      simp only [dif_pos h, if_neg lock, clean]
      have stillIdle (s : Fin k) : (c.setLock ⟨i, h⟩ .free).lockAt s ≠ .busy := by
        rw [Cache.lockAt_setLock]
        split
        · decide
        · exact idle s
      exact ih (i := i + 1) (c := c.setLock ⟨i, h⟩ .free) saved stillIdle (by omega) (by omega)
    · simp only [dif_neg h, Task.run_done]
      exact ⟨c, rfl, rfl⟩

end Task

/-! ## Versions -/

/-- What the cache has shown once it shows `now` at point `t` of an operation. A flush that ended
well makes the versions before it forgotten. -/
def Operation.remember (op : Operation) (t : Task k m) (now : Contents m n)
    (versions : List (Contents m n)) : List (Contents m n) :=
  match op, t with
  | .flush, .done (.ok _) => [now]
  | _, _ => now :: versions

namespace Cache

/-- A thread can stand at point `t` of an operation, alone on a cache, and the cache has shown
`versions` since it was last flushed. Device calls may fail as the device likes, and the locks of
slots may be taken and given up from outside. -/
inductive Chronicle {m n : Nat} : {k : Nat} → Cache k m n → Operation → Task k m →
    List (Contents m n) → Prop where
  | new {device : Device m n} {config : CacheSetup} {c : Cache config.slots m n} :
      Cache.new device config = .ok c → Chronicle c .size (.done (.ok [])) [c.content]
  | start {k : Nat} {c : Cache k m n} {t : Task k m} {op : Operation} {r : Answer m}
      {versions : List (Contents m n)} (next : Operation) :
      Chronicle c op (.done r) versions → next.start n = .ok t → Chronicle c next t versions
  | step {k : Nat} {c c' : Cache k m n} {t t' : Task k m} {op : Operation}
      {versions : List (Contents m n)} :
      Chronicle c op t versions → t.step c = some (t', c') →
      Chronicle c' op t' (op.remember t' c'.content versions)
  | relock {k : Nat} {c : Cache k m n} {t : Task k m} {op : Operation} {s : Fin k}
      {versions : List (Contents m n)} (lock : SlotLock) :
      Chronicle c op t versions → c.lockAt s ≠ .busy → lock ≠ .busy →
      Chronicle (c.setLock s lock) op t versions

variable {op : Operation} {versions : List (Contents m n)}

theorem Chronicle.run (chronicle : Chronicle c op t versions) (steps : Nat) :
    ∃ later, Chronicle (t.run steps c).2 op (t.run steps c).1 later := by
  induction steps generalizing t c versions with
  | zero => exact ⟨versions, chronicle⟩
  | succ steps ih =>
    rw [Task.run]
    cases next : t.step c with
    | none => exact ⟨versions, chronicle⟩
    | some after => exact ih (chronicle.step next)

/-- A call goes through moments of a chronicle. -/
theorem Chronicle.call {r answer : Answer m} {next : Operation}
    (chronicle : Chronicle c op (.done r) versions) (called : c.call next = .ok (answer, c')) :
    ∃ later, Chronicle c' next (.done answer) later := by
  unfold Cache.call at called
  cases start : (next.start n : Except Violation (Task k m)) with
  | error v => rw [start] at called; cases called
  | ok t =>
    simp only [start, bind, Except.bind] at called
    obtain ⟨later, ran⟩ := (chronicle.start next start).run (steps k)
    generalize t.run (steps k) c = result at called ran
    obtain ⟨t', c₁⟩ := result
    cases t' <;> cases called
    exact ⟨later, ran⟩

/-- What holds of a cache and its device at every moment. -/
structure Durable (c : Cache k m n) (op : Operation) (t : Task k m)
    (versions : List (Contents m n)) : Prop where
  shared : c.Shared t (.done (.ok []))
  now : c.content ∈ versions
  /-- The device has some version of every block. -/
  stored (b : Fin m) : ∃ v ∈ versions, c.device.blocks.get b = v b
  flushed : op = .flush → t.Flushed c

/-- After a flush that ended well there is one version, and the device has it. -/
theorem Durable.step (durable : Durable c op t versions) (step : t.step c = some (t', c')) :
    Durable c' op t' (op.remember t' c'.content versions) := by
  have shared := (durable.shared.step step).1
  have flushed (flush : op = .flush) : t'.Flushed c' := (durable.flushed flush).step step
  -- before a flush ends the versions only become more
  have stored (b : Fin m) : ∃ v ∈ c'.content :: versions, c'.device.blocks.get b = v b := by
    rcases Task.device_of_step durable.shared.coherent durable.shared.fits step b with same | shown
    · obtain ⟨v, mem, version⟩ := durable.stored b
      exact ⟨v, List.mem_cons_of_mem _ mem, same.trans version⟩
    · exact ⟨c.content, List.mem_cons_of_mem _ durable.now, shown⟩
  unfold Operation.remember
  split
  case h_1 bytes =>
    refine ⟨shared, List.mem_singleton_self _, fun b => ?_, flushed⟩
    exact ⟨c'.content, List.mem_singleton_self _,
      (content_of_saved shared.coherent (flushed rfl) b).symm⟩
  case h_2 => exact ⟨shared, List.mem_cons_self, stored, flushed⟩

theorem Chronicle.durable (chronicle : Chronicle c op t versions) :
    Durable c op t versions := by
  induction chronicle with
  | new made =>
    obtain ⟨resting, device, -, content⟩ := resting_new made
    refine ⟨resting.shared _ _, List.mem_singleton_self _, fun b => ?_, nofun⟩
    refine ⟨_, List.mem_singleton_self _, ?_⟩
    rw [content, device]
  | start next _ start ih =>
    refine ⟨ih.shared.start start, ih.now, ih.stored, fun flush => ?_⟩
    subst flush
    cases start
    exact fun s passed => absurd passed (Nat.not_lt_zero _)
  | step _ step ih => exact ih.step step
  | @relock k c t op s versions lock _ idle idle' ih =>
    obtain ⟨alike, coherent, content⟩ := ih.shared.coherent.relock idle lock idle'
    have fits : t.Fits (c.setLock s lock) := ih.shared.fits.of_same fun i slot =>
      alike.same fun same => idle (same ▸ ih.shared.fits.busy slot)
    refine ⟨{ ih.shared with coherent, fits, fits' := trivial, owned := fun {i} busy => ?_ },
      content ▸ ih.now, ih.stored, fun flush => ?_⟩
    · rw [lockAt_setLock] at busy
      split at busy
      · exact absurd busy idle'
      · exact ih.shared.owned busy
    · have flushed := ih.flushed flush
      cases t with
      | done r => cases r <;> exact flushed
      | visit | flushing | probe | seek | awaitHit | awaitSlot | storing | loading | halted =>
        exact flushed

/-- **At every moment the device has a version of every block that is no older than the last flush.**
Right after a flush that ended well it has what the cache shows, no slot is written, and a further
flush makes no device call. -/
theorem durable_of_chronicle (chronicle : Chronicle c op t versions) :
    (∀ b, ∃ v ∈ versions, c.device.blocks.get b = v b) ∧
      ∀ bytes, op = .flush → t = .done (.ok bytes) →
        (∀ b, c.device.blocks.get b = c.content b) ∧ (∀ s, (c.slotAt s).unsaved = none) ∧
          ∃ c', c.call .flush = .ok (.ok [], c') ∧ c'.device = c.device := by
  have durable := chronicle.durable
  refine ⟨durable.stored, ?_⟩
  rintro bytes flush rfl
  have saved : ∀ s : Fin k, (c.slotAt s).unsaved = none := durable.flushed flush
  refine ⟨fun b => (content_of_saved durable.shared.coherent saved b).symm, saved, ?_⟩
  obtain ⟨c', ran, device⟩ := Task.flush_of_saved (i := 0) (steps k) saved
    (durable.shared.resting).idle (by simp only [steps]; omega) (Nat.zero_le k)
  refine ⟨c', ?_, device⟩
  rw [Cache.call, Operation.start]
  simp only [bind, Except.bind, ran]

/-- A flush that fails leaves block 0 on the device as it was before the write; the next flush
stores it. -/
theorem durable_of_chronicle_flushed_again :
    ∃ (c c' : Cache 1 2 1) (versions : List (Contents 2 1)),
      Chronicle c .flush (.done (.error ⟨.write, 0⟩)) versions ∧
      c.device.blocks.get 0 ≠ c.content 0 ∧
      (∀ b, ∃ v ∈ versions, c.device.blocks.get b = v b) ∧
      Chronicle c' .flush (.done (.ok [])) [c'.content] ∧
      c'.content 0 = c.content 0 ∧
      (∀ b, c'.device.blocks.get b = c'.content b) ∧ (∀ s, (c'.slotAt s).unsaved = none) ∧
      ∃ c'', c'.call .flush = .ok (.ok [], c'') ∧ c''.device = c'.device := by
  let device : Device 2 1 := { Device.filled 2 1 7 with fails := fun number _ _ => number == 0 }
  obtain ⟨c₀, c₁, c₂, c₃, c₄, c₅, c₆, made, wrote, visit, failed, visit', stored, ended, kept,
      same⟩ :
      ∃ c₀ c₁ c₂ c₃ c₄ c₅ c₆ : Cache 1 2 1,
      Cache.new device { slots := 1, policy := .clock } = .ok c₀ ∧
      (Task.seek ⟨0, .write 0 [8]⟩).step c₀ = some (.done (.ok []), c₁) ∧
      (Task.visit 0).step c₁ = some (.flushing 0 0, c₂) ∧
      (Task.flushing 0 0).step c₂ = some (.done (.error ⟨.write, 0⟩), c₃) ∧
      (Task.visit 0).step c₃ = some (.flushing 0 0, c₄) ∧
      (Task.flushing 0 0).step c₄ = some (.visit 1, c₅) ∧
      (Task.visit 1).step c₅ = some (.done (.ok []), c₆) ∧
      c₃.device.blocks.get 0 ≠ c₃.content 0 ∧ c₆.content 0 = c₃.content 0 :=
    ⟨_, _, _, _, _, _, _, rfl, rfl, rfl, rfl, rfl, rfl, rfl, by decide, by decide⟩
  have written := ((Chronicle.new made).start (.write 0 0 [8]) rfl).step wrote
  have unsaved := ((written.start .flush rfl).step visit).step failed
  have saved := (((unsaved.start .flush rfl).step visit').step stored).step ended
  obtain ⟨versions, -⟩ := durable_of_chronicle unsaved
  exact ⟨c₃, c₆, _, unsaved, kept, versions, saved, same,
    (durable_of_chronicle saved).2 [] rfl rfl⟩

end Cache

end SectorFs
