/-
# SectorFs.Proofs.Cache.Causality — what is done does not depend on calls that come later

Which calls of a device fail is a function of their numbers. What a cache does up to some call can
be told from the values of that function at the calls made up to there: `Cache.Causal goes c c'`
says that `c` goes to `c'`, that the calls of `c'` extend those of `c`, and that it goes there
just the same when other calls fail than these (`same`).

A step that makes no call does not look at the device at all (`Task.step_on`), and the others look
at the number of their own call. So a step is causal (`Task.step_causal`), and from that a run of a
task, a call of the cache, and any program that asks a cache for sectors
(`SectorProgram.run_causal`).
-/
import SectorFs.Store.Basic
import SectorFs.Proofs.Cache.Durability

namespace SectorFs

set_option autoImplicit false

variable {k m n : Nat} {fails : Nat → IoKind → Fin m → Bool}

namespace Device

/-- The device, failing at other calls from now on. -/
def withFails (d : Device m n) (fails : Nat → IoKind → Fin m → Bool) : Device m n :=
  { d with fails }

/-- A device to which more calls were made. -/
structure Extends (d d' : Device m n) : Prop where
  fails : d'.fails = d.fails
  calls : ∃ more, d'.calls = more ++ d.calls ∧ d'.made = d.made + more.length

variable {d d₁ d₂ d₃ : Device m n} {b : Fin m}

namespace Extends

theorem refl (d : Device m n) : d.Extends d := ⟨rfl, [], rfl, rfl⟩

theorem trans (first : d₁.Extends d₂) (second : d₂.Extends d₃) : d₁.Extends d₃ := by
  obtain ⟨more, calls, made⟩ := first.calls
  obtain ⟨more', calls', made'⟩ := second.calls
  refine ⟨second.fails.trans first.fails, more' ++ more, ?_, ?_⟩
  · rw [calls', calls, List.append_assoc]
  · rw [made', made, List.length_append]
    omega

theorem made_le (more : d₁.Extends d₂) : d₁.made ≤ d₂.made := by
  obtain ⟨_, -, made⟩ := more.calls
  omega

theorem of_write (data : Block n) : d.Extends (d.write b data).2 := by
  unfold write
  split <;> exact ⟨rfl, [_], rfl, rfl⟩

theorem of_read : d.Extends (d.read b).2 := ⟨rfl, [_], rfl, rfl⟩

end Extends

@[simp] theorem made_write (data : Block n) : (d.write b data).2.made = d.made + 1 := by
  unfold write
  split <;> rfl

@[simp] theorem made_read : (d.read b).2.made = d.made + 1 := rfl

/-- A call looks at the pattern at its own number only. -/
theorem write_withFails (agree : fails d.made = d.fails d.made) (data : Block n) :
    (d.withFails fails).write b data =
      ((d.write b data).1, (d.write b data).2.withFails fails) := by
  have next : (d.withFails fails).failsNext .write b = d.failsNext .write b :=
    congrFun (congrFun agree .write) b
  unfold write record
  rw [next]
  split <;> rfl

theorem read_withFails (agree : fails d.made = d.fails d.made) :
    (d.withFails fails).read b = ((d.read b).1, (d.read b).2.withFails fails) := by
  have next : (d.withFails fails).failsNext .read b = d.failsNext .read b :=
    congrFun (congrFun agree .read) b
  unfold read record
  rw [next]
  rfl

end Device

namespace Cache

/-- The cache on another device. -/
def on (c : Cache k m n) (device : Device m n) : Cache k m n := { c with device }

/-- The cache on its device, failing at other calls from now on. -/
def withFails (c : Cache k m n) (fails : Nat → IoKind → Fin m → Bool) : Cache k m n :=
  c.on (c.device.withFails fails)

/-- `c` goes to `c'`, and does so when other calls fail than those made on the way. -/
structure Causal (goes : Cache k m n → Cache k m n → Prop) (c c' : Cache k m n) : Prop where
  calls : c.device.Extends c'.device
  same {fails : Nat → IoKind → Fin m → Bool} :
    (∀ number, c.device.made ≤ number → number < c'.device.made →
      fails number = c.device.fails number) →
    goes (c.withFails fails) (c'.withFails fails)

variable {c c₁ c₂ c₃ : Cache k m n}

theorem Causal.refl {goes : Cache k m n → Cache k m n → Prop} (stays : ∀ c, goes c c) :
    Causal goes c c := ⟨.refl _, fun _ => stays _⟩

theorem Causal.trans {first second both : Cache k m n → Cache k m n → Prop}
    (causal : Causal first c₁ c₂) (causal' : Causal second c₂ c₃)
    (join : ∀ {c₁ c₂ c₃}, first c₁ c₂ → second c₂ c₃ → both c₁ c₃) : Causal both c₁ c₃ where
  calls := causal.calls.trans causal'.calls
  same agree := by
    have before := causal.calls.made_le
    have after := causal'.calls.made_le
    refine join (causal.same fun number start stop => ?_) (causal'.same fun number start stop => ?_)
    · exact agree number start (by omega)
    · rw [agree number (by omega) stop, causal.calls.fails]

/-- A slot is taken without a look at the device. -/
theorem evict_on (b : Fin m) (attempts : Nat) (c : Cache k m n) (d : Device m n) :
    evict b attempts (c.on d) = ((evict b attempts c).1, (evict b attempts c).2.on d) := by
  induction attempts generalizing c with
  | zero => rfl
  | succ attempts ih =>
    have directory : (c.on d).directory = c.directory := rfl
    have locks : (c.on d).locks = c.locks := rfl
    have slots : (c.on d).slots = c.slots := rfl
    unfold evict
    rw [directory]
    generalize c.directory.propose = proposal
    obtain ⟨s, directory⟩ := proposal
    dsimp only
    rw [locks, slots]
    split
    · exact ih { c with directory }
    · split
      · exact ih { c with directory }
      · split <;> rfl

theorem takeSlot_on (b : Fin m) (c : Cache k m n) (d : Device m n) :
    (c.on d).takeSlot b = ((c.takeSlot b).1, (c.takeSlot b).2.on d) := by
  have unused : (c.on d).unusedSlot = c.unusedSlot := rfl
  unfold takeSlot
  rw [unused]
  split
  · rfl
  · exact evict_on b _ c d

end Cache

open Cache (Causal)

namespace Task

variable {c c' : Cache k m n} {t t' : Task k m}

/-- The point where a task stands with its cache, on another device. -/
def on (p : Task k m × Cache k m n) (d : Device m n) : Task k m × Cache k m n := (p.1, p.2.on d)

theorem load_on (a : Access m) (s : Fin k) (c : Cache k m n) (d : Device m n) :
    load a s (c.on d) = on (load a s c) d := by
  unfold load
  dsimp only
  split <;> rfl

theorem load_withFails (a : Access m) (s : Fin k) (c : Cache k m n) :
    load a s (c.withFails fails) = on (load a s c) ((load a s c).2.device.withFails fails) := by
  rw [device_load]
  exact load_on a s c _

theorem seekStep_on (a : Access m) (c : Cache k m n) (d : Device m n) :
    seekStep a (c.on d) = on (seekStep a c) d := by
  have directory : (c.on d).directory = c.directory := rfl
  unfold seekStep
  rw [directory, Cache.takeSlot_on]
  split
  case h_1 s _ =>
    generalize { c.directory.entries.get s with accessed := true } = e
    have locks : ((c.on d).setEntry s e).locks = (c.setEntry s e).locks := rfl
    have slots : ((c.on d).setEntry s e).slots = (c.setEntry s e).slots := rfl
    dsimp only
    rw [locks, slots]
    split
    · split <;> rfl
    · rfl
  case h_2 => rfl
  case h_3 =>
    generalize c.takeSlot a.block = taken
    obtain ⟨_ | ⟨s, _ | old⟩, c₁⟩ := taken
    · rfl
    · exact load_on a s c₁ d
    · rfl

theorem visitStep_on (i : Nat) (c : Cache k m n) (d : Device m n) :
    visitStep i (c.on d) = (visitStep i c).map (on · d) := by
  have locks : (c.on d).locks = c.locks := rfl
  have slots : (c.on d).slots = c.slots := rfl
  unfold visitStep
  rw [locks, slots]
  split
  · dsimp only
    split
    · rfl
    · split <;> rfl
  · rfl

/-- A step that makes no call does not look at the device. -/
theorem step_on (quiet : t.pending = none) (c : Cache k m n) (d : Device m n) :
    t.step (c.on d) = (t.step c).map (on · d) := by
  have directory : (c.on d).directory = c.directory := rfl
  have locks : (c.on d).locks = c.locks := rfl
  have slots (s : Fin k) : ((c.on d).setLock s .free).slots = (c.setLock s .free).slots := rfl
  cases t with
  | probe b =>
    simp only [step, directory]
    split <;> rfl
  | seek a => exact congrArg some (seekStep_on a c d)
  | awaitHit a s =>
    simp only [step, locks]
    split
    · rfl
    · rw [slots]
      split <;> rfl
  | awaitSlot a s =>
    simp only [step, locks]
    split <;> rfl
  | visit i => exact visitStep_on i c d
  | storing | loading | flushing => cases quiet
  | done | halted => rfl

theorem quiet_of_none (asleep : t.step c = none) : t.pending = none := by
  cases t with
  | storing | loading | flushing => cases asleep
  | _ => rfl

/-- A task that sleeps, or is at its end, is so whatever fails. -/
theorem step_withFails_of_none (asleep : t.step c = none) : t.step (c.withFails fails) = none := by
  rw [Cache.withFails, step_on (quiet_of_none asleep), asleep]
  rfl

section

variable (agree : fails c.device.made = c.device.fails c.device.made)
include agree

theorem storeStep_withFails (a : Access m) (s : Fin k) (old : Fin m) :
    storeStep a s old (c.withFails fails) =
      ((storeStep a s old c).1, (storeStep a s old c).2.withFails fails) := by
  have wrote : (c.withFails fails).device.write old ((c.withFails fails).slots.get s).data = _ :=
    c.device.write_withFails agree (c.slots.get s).data
  unfold storeStep
  rw [wrote]
  generalize c.device.write old (c.slots.get s).data = written
  obtain ⟨_ | _, d⟩ := written
  · rfl
  · let stored : Cache k m n := { c with device := d }.countWriteback
    exact load_withFails a s
      (stored.setEntry s { stored.directory.entries.get s with evicting := none })

theorem loadStep_withFails (a : Access m) (s : Fin k) :
    loadStep a s (c.withFails fails) =
      ((loadStep a s c).1, (loadStep a s c).2.withFails fails) := by
  have loaded : (c.withFails fails).device.read a.block = _ := c.device.read_withFails agree
  unfold loadStep
  rw [loaded]
  generalize c.device.read a.block = loaded
  obtain ⟨_ | data, d⟩ := loaded <;> rfl

theorem flushStep_withFails (s : Fin k) (b : Fin m) :
    flushStep s b (c.withFails fails) =
      ((flushStep s b c).1, (flushStep s b c).2.withFails fails) := by
  have wrote : (c.withFails fails).device.write b ((c.withFails fails).slots.get s).data = _ :=
    c.device.write_withFails agree (c.slots.get s).data
  unfold flushStep
  rw [wrote]
  generalize c.device.write b (c.slots.get s).data = written
  obtain ⟨_ | _, d⟩ := written <;> rfl

end

theorem device_storeStep (a : Access m) (s : Fin k) (old : Fin m) (c : Cache k m n) :
    (storeStep a s old c).2.device = (c.device.write old (c.slots.get s).data).2 := by
  unfold storeStep
  generalize c.device.write old (c.slots.get s).data = written
  obtain ⟨_ | _, d⟩ := written
  · rfl
  · exact device_load a s _

theorem device_loadStep (a : Access m) (s : Fin k) (c : Cache k m n) :
    (loadStep a s c).2.device = (c.device.read a.block).2 := by
  unfold loadStep
  generalize c.device.read a.block = loaded
  obtain ⟨_ | data, d⟩ := loaded <;> rfl

theorem device_flushStep (s : Fin k) (b : Fin m) (c : Cache k m n) :
    (flushStep s b c).2.device = (c.device.write b (c.slots.get s).data).2 := by
  unfold flushStep
  generalize c.device.write b (c.slots.get s).data = written
  obtain ⟨_ | _, d⟩ := written <;> rfl

/-- A step that makes one call looks at the number of that call. -/
theorem causal_of_call {f : Cache k m n → Task k m × Cache k m n}
    (stepped : some (f c) = some (t', c')) (calls : c.device.Extends (f c).2.device)
    (one : (f c).2.device.made = c.device.made + 1)
    (same : ∀ {fails : Nat → IoKind → Fin m → Bool},
      fails c.device.made = c.device.fails c.device.made →
      f (c.withFails fails) = ((f c).1, (f c).2.withFails fails)) :
    Causal (fun d d' => some (f d) = some (t', d')) c c' := by
  obtain ⟨rfl, rfl⟩ := Prod.ext_iff.1 (Option.some.inj stepped)
  exact ⟨calls, fun agree => congrArg some (same (agree _ (Nat.le_refl _) (by omega)))⟩

/-- A step that makes no call looks at no number. -/
theorem causal_of_quiet (quiet : t.pending = none) (stepped : t.step c = some (t', c')) :
    Causal (fun d d' => t.step d = some (t', d')) c c' := by
  -- with the device that it has, the cache comes out with that device
  have device : c'.device = c.device := by
    have stays := step_on quiet c c.device
    rw [show c.on c.device = c from rfl, stepped] at stays
    exact congrArg (fun after => after.2.device) (Option.some.inj stays)
  refine ⟨device ▸ .refl _, fun _ => ?_⟩
  rw [Cache.withFails, step_on quiet, stepped, Cache.withFails, device]
  rfl

/-- **A step does not depend on the calls that are made after it.** -/
theorem step_causal (stepped : t.step c = some (t', c')) :
    Causal (fun d d' => t.step d = some (t', d')) c c' := by
  cases t with
  | storing a s old =>
    have device := device_storeStep a s old c
    exact causal_of_call stepped (device ▸ .of_write _)
      (by rw [device, Device.made_write]) fun agree => storeStep_withFails agree a s old
  | loading a s =>
    have device := device_loadStep a s c
    exact causal_of_call stepped (device ▸ .of_read)
      (by rw [device, Device.made_read]) fun agree => loadStep_withFails agree a s
  | flushing s b =>
    have device := device_flushStep s b c
    exact causal_of_call stepped (device ▸ .of_write _)
      (by rw [device, Device.made_write]) fun agree => flushStep_withFails agree s b
  | _ => exact causal_of_quiet rfl stepped

theorem run_causal (steps : Nat) (ran : t.run steps c = (t', c')) :
    Causal (fun d d' => t.run steps d = (t', d')) c c' := by
  induction steps generalizing t c with
  | zero =>
    cases ran
    exact .refl fun _ => rfl
  | succ steps ih =>
    rw [run] at ran
    cases next : t.step c with
    | none =>
      rw [next] at ran
      cases ran
      refine ⟨.refl _, fun _ => ?_⟩
      rw [run, step_withFails_of_none next]
    | some after =>
      obtain ⟨t₁, c₁⟩ := after
      rw [next] at ran
      refine (step_causal next).trans (ih ran) fun {d d₁ d'} first rest => ?_
      rw [run, first]
      exact rest

end Task

namespace Cache

variable {c c' : Cache k m n}

/-- **A call of the cache does not depend on which device calls fail after it.** -/
theorem call_causal {op : Operation} {answer : Except (DeviceError m) (List UInt8)}
    (called : c.call op = .ok (answer, c')) :
    Causal (fun d d' => d.call op = .ok (answer, d')) c c' := by
  unfold call at called ⊢
  cases start : (op.start n : Except Violation (Task k m)) with
  | error v =>
    rw [start] at called
    cases called
  | ok t =>
    rw [start] at called
    simp only [bind, Except.bind] at called ⊢
    cases ran : t.run (steps k) c with
    | mk t' c₁ =>
      rw [ran] at called
      cases t' with
      | done r =>
        cases called
        obtain ⟨calls, same⟩ := Task.run_causal _ ran
        exact ⟨calls, fun agree => by rw [same agree]⟩
      | _ => cases called

end Cache

/-- **What a program does on a cache does not depend on which device calls fail later.** -/
theorem SectorProgram.run_causal {α : Type} {p : SectorProgram α} {c c' : Cache k m 512} {a : α}
    (ran : p.run c = .ok (a, c')) : Causal (fun d d' => p.run d = .ok (a, d')) c c' := by
  induction p generalizing c with
  | done a =>
    cases ran
    exact .refl fun _ => rfl
  | halt v => cases ran
  | ask r next ih =>
    simp only [run, SectorStore.serve] at ran ⊢
    cases called : c.call (Cache.operationOf r) with
    | error v =>
      rw [called] at ran
      cases ran
    | ok answered =>
      obtain ⟨answer, c₁⟩ := answered
      rw [called] at ran
      refine (Cache.call_causal called).trans (ih _ ran) fun first rest => ?_
      rw [first]
      exact rest

end SectorFs
