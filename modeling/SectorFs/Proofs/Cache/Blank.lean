/-
# SectorFs.Proofs.Cache.Blank — a cache does not look at bytes

`Cache.blank` is a cache with zeros in place of all bytes, those of its slots and
those of its device. Directory, locks, counts and the record of device calls
stay. What a task does next, and what it does to the rest of the cache, can be
told from that: a step leads from caches with the same blank to points that
differ at most in the bytes copied out, and to caches with the same blank
(`Task.step_blank`). So it is for whole calls (`Cache.call_blank`).
-/
import SectorFs.Cache.Operation
import SectorFs.Proofs.Cache.Coherence

namespace SectorFs

set_option autoImplicit false

variable {k m n : Nat}

def Slot.blank : Slot m n → Slot m n
  | .unused => .unused
  | .inUse b _ => .inUse b (Block.zero n)
  | .dirty b _ => .dirty b (Block.zero n)

def Device.blank (d : Device m n) : Device m n :=
  { d with blocks := Vector.replicate m (Block.zero n) }

/-- The same cache with zeros in place of all bytes. -/
def Cache.blank (c : Cache k m n) : Cache k m n :=
  { c with slots := c.slots.map Slot.blank, device := c.device.blank }

/-- The point where a task stands, without the bytes that it copied out. -/
def Task.blank : Task k m → Task k m
  | .done (.ok _) => .done (.ok [])
  | t => t

namespace Slot

@[simp] theorem holds_blank (slot : Slot m n) (b : Fin m) : slot.blank.holds b = slot.holds b := by
  cases slot <;> rfl

@[simp] theorem unsaved_blank (slot : Slot m n) : slot.blank.unsaved = slot.unsaved := by
  cases slot <;> rfl

/-- Which block a slot has after a use does not depend on the bytes. -/
theorem blank_apply (use : Use) (slot : Slot m n) :
    (use.apply slot.blank).2.blank = (use.apply slot).2.blank := by
  cases use <;> cases slot <;> rfl

end Slot

namespace Device

variable (d : Device m n)

@[simp] theorem failsNext_blank (kind : IoKind) (b : Fin m) :
    d.blank.failsNext kind b = d.failsNext kind b := rfl

/-- A write to a blank device works where it works. -/
theorem write_blank (b : Fin m) (data data' : Block n) :
    (d.blank.write b data').1 = (d.write b data).1 ∧
      (d.blank.write b data').2.blank = (d.write b data).2.blank := by
  unfold write
  rw [failsNext_blank]
  cases d.failsNext .write b <;> exact ⟨rfl, rfl⟩

theorem read_blank (b : Fin m) :
    (d.blank.read b).1.isSome = (d.read b).1.isSome ∧
      (d.blank.read b).2.blank = (d.read b).2.blank := by
  unfold read
  rw [failsNext_blank]
  cases d.failsNext .read b <;> exact ⟨rfl, rfl⟩

end Device

namespace Cache

variable (c : Cache k m n)

@[simp] theorem slots_blank (s : Fin k) : c.blank.slots.get s = (c.slots.get s).blank :=
  Vector.getElem_map Slot.blank s.isLt

@[simp] theorem blank_setSlot (s : Fin k) (slot : Slot m n) :
    (c.setSlot s slot).blank = c.blank.setSlot s slot.blank := by
  simp only [blank, setSlot, Vector.map_set]

/-- What is put into a slot matters without its bytes only. -/
theorem setSlot_congr {c c' : Cache k m n} (same : c.blank = c'.blank) (s : Fin k)
    {slot slot' : Slot m n} (slots : slot.blank = slot'.blank) :
    (c.setSlot s slot).blank = (c'.setSlot s slot').blank := by
  rw [blank_setSlot, blank_setSlot, same, slots]

@[simp] theorem blank_blank : c.blank.blank = c.blank := by
  have slots (slot : Slot m n) : slot.blank.blank = slot.blank := by cases slot <;> rfl
  simp only [blank, Device.blank, Vector.map_map, Function.comp_def, slots]

theorem device_congr {c c' : Cache k m n} (same : c.blank = c'.blank) {d d' : Device m n}
    (devices : d.blank = d'.blank) :
    blank { c with device := d } = blank { c' with device := d' } := by
  change { c.blank with device := d.blank } = { c'.blank with device := d'.blank }
  rw [same, devices]

/-- A slot is taken as if there were no bytes. -/
theorem evict_blank (b : Fin m) (attempts : Nat) :
    evict b attempts c.blank = ((evict b attempts c).1, (evict b attempts c).2.blank) := by
  induction attempts generalizing c with
  | zero => rfl
  | succ attempts ih =>
    unfold evict
    have directory : c.blank.directory = c.directory := rfl
    rw [directory]
    generalize c.directory.propose = proposal
    obtain ⟨s, d⟩ := proposal
    have locks : c.blank.locks = c.locks := rfl
    dsimp only
    rw [locks, slots_blank, Slot.unsaved_blank]
    split
    · exact ih { c with directory := d }
    · split
      · exact ih { c with directory := d }
      · split <;> rfl

theorem takeSlot_blank (b : Fin m) :
    c.blank.takeSlot b = ((c.takeSlot b).1, (c.takeSlot b).2.blank) := by
  have unused : c.blank.unusedSlot = c.unusedSlot := rfl
  unfold takeSlot
  rw [unused]
  split
  · rfl
  · exact evict_blank c b _

end Cache

namespace Task

/-- A point with a cache, both without bytes. -/
def hide (p : Task k m × Cache k m n) : Task k m × Cache k m n := (p.1.blank, p.2.blank)

section

variable {c c' : Cache k m n} (same : c.blank = c'.blank) (a : Access m) (s : Fin k)
include same

theorem finish_congr : hide (finish a s c) = hide (finish a s c') := by
  have slots : (c.slots.get s).blank = (c'.slots.get s).blank := by
    rw [← Cache.slots_blank, same, Cache.slots_blank]
  have after : (a.use.apply (c.slots.get s)).2.blank = (a.use.apply (c'.slots.get s)).2.blank := by
    rw [← Slot.blank_apply, slots, Slot.blank_apply]
  have set := Cache.setSlot_congr same s after
  exact congrArg (fun d : Cache k m n => (Task.done (.ok []), d.setLock s .free)) set

theorem load_congr : hide (load a s c) = hide (load a s c') := by
  have counted : c.countMiss.blank = c'.countMiss.blank := congrArg Cache.countMiss same
  unfold load
  dsimp only
  split
  · exact finish_congr (Cache.setSlot_congr counted s rfl) a s
  · exact congrArg (fun d : Cache k m n => (Task.loading a s, d)) (Cache.setSlot_congr counted s rfl)

end

variable (c : Cache k m n) (a : Access m) (s : Fin k)

theorem seekStep_blank : hide (seekStep a c.blank) = hide (seekStep a c) := by
  have directory : c.blank.directory = c.directory := rfl
  unfold seekStep
  rw [directory, Cache.takeSlot_blank]
  split
  case h_1 s _ =>
    generalize { c.directory.entries.get s with accessed := true } = e
    have entry : c.blank.setEntry s e = (c.setEntry s e).blank := rfl
    rw [entry]
    generalize c.setEntry s e = d
    have locks : d.blank.locks = d.locks := rfl
    dsimp only
    rw [locks, Cache.slots_blank, Slot.holds_blank]
    have counted : d.blank.countHit.blank = d.countHit.blank :=
      congrArg Cache.countHit d.blank_blank
    split
    · split
      · exact finish_congr counted a s
      · exact congrArg (Prod.mk _) d.blank_blank
    · exact congrArg (Prod.mk _) d.blank_blank
  case h_2 s _ => exact congrArg (Prod.mk _) c.blank_blank
  case h_3 _ =>
    generalize c.takeSlot a.block = taken
    obtain ⟨_ | ⟨s, _ | old⟩, d⟩ := taken
    · have directory : d.blank.directory = d.directory := rfl
      dsimp only
      rw [directory]
      exact congrArg (Prod.mk _) (Cache.blank_blank { d with directory := d.directory.propose.2 })
    · exact load_congr d.blank_blank a s
    · exact congrArg (Prod.mk _) d.blank_blank

theorem storeStep_blank (old : Fin m) :
    hide (storeStep a s old c.blank) = hide (storeStep a s old c) := by
  have wrote := c.device.write_blank old (c.slots.get s).data (c.slots.get s).blank.data
  have device : c.blank.device = c.device.blank := rfl
  unfold storeStep
  rw [Cache.slots_blank, device]
  generalize c.device.blank.write old _ = wrote₁, c.device.write old _ = wrote₂ at wrote ⊢
  obtain ⟨works, d⟩ := wrote₁
  obtain ⟨works', d'⟩ := wrote₂
  obtain ⟨rfl, same⟩ := wrote
  have blanks := Cache.device_congr c.blank_blank same
  cases works with
  | false =>
    exact congrArg (fun e : Cache k m n => (Task.done (.error ⟨.write, old⟩),
      (e.setEntry s { Entry.holding old with accessed := false }).setLock s .free)) blanks
  | true =>
    refine load_congr ?_ a s
    exact congrArg (fun e : Cache k m n => e.countWriteback.setEntry s
      { e.directory.entries.get s with evicting := none }) blanks

theorem loadStep_blank : hide (loadStep a s c.blank) = hide (loadStep a s c) := by
  have loaded := c.device.read_blank a.block
  have device : c.blank.device = c.device.blank := rfl
  unfold loadStep
  rw [device]
  generalize c.device.blank.read a.block = loaded₁, c.device.read a.block = loaded₂ at loaded ⊢
  obtain ⟨data, d⟩ := loaded₁
  obtain ⟨data', d'⟩ := loaded₂
  obtain ⟨both, same⟩ := loaded
  have blanks := Cache.device_congr c.blank_blank same
  cases data with
  | none =>
    cases data' with
    | none =>
      exact congrArg (fun e : Cache k m n => (Task.done (.error ⟨.read, a.block⟩),
        (e.setEntry s {}).setLock s .free)) blanks
    | some data' => cases both
  | some data =>
    cases data' with
    | none => cases both
    | some data' =>
      have slots : (Slot.inUse a.block data).blank = (Slot.inUse a.block data').blank := rfl
      exact finish_congr (Cache.setSlot_congr blanks s slots) a s

theorem visitStep_blank (i : Nat) :
    (visitStep i c.blank).map hide = (visitStep i c).map hide := by
  have locks : c.blank.locks = c.locks := rfl
  unfold visitStep
  rw [locks]
  split
  case isTrue inside =>
    dsimp only
    rw [Cache.slots_blank, Slot.unsaved_blank]
    split
    · rfl
    · split
      · exact congrArg (fun d : Cache k m n => some (Task.visit (i + 1), d.setLock ⟨i, inside⟩ .free))
          c.blank_blank
      case h_2 b _ =>
        exact congrArg (fun d : Cache k m n =>
          some (Task.flushing ⟨i, inside⟩ b, d.setLock ⟨i, inside⟩ .busy)) c.blank_blank
  case isFalse => exact congrArg (fun d : Cache k m n => some (Task.done (.ok []), d)) c.blank_blank

theorem flushStep_blank (b : Fin m) :
    hide (flushStep s b c.blank) = hide (flushStep s b c) := by
  have wrote := c.device.write_blank b (c.slots.get s).data (c.slots.get s).blank.data
  have device : c.blank.device = c.device.blank := rfl
  unfold flushStep
  rw [Cache.slots_blank, device]
  generalize c.device.blank.write b _ = wrote₁, c.device.write b _ = wrote₂ at wrote ⊢
  obtain ⟨works, d⟩ := wrote₁
  obtain ⟨works', d'⟩ := wrote₂
  obtain ⟨rfl, same⟩ := wrote
  have blanks := Cache.device_congr c.blank_blank same
  cases works with
  | false =>
    exact congrArg (fun e : Cache k m n =>
      (Task.done (.error ⟨.write, b⟩), e.setLock s .free)) blanks
  | true =>
    have slots : (Slot.inUse b (c.slots.get s).blank.data).blank =
        (Slot.inUse b (c.slots.get s).data).blank := rfl
    exact congrArg (fun e : Cache k m n =>
      (Task.visit (s.val + 1), e.countWriteback.setLock s .free))
      (Cache.setSlot_congr blanks s slots)

/-- **What a task does next does not depend on bytes**, but for the bytes that it copies out. -/
theorem step_blank (t : Task k m) : (t.step c.blank).map hide = (t.step c).map hide := by
  have directory : c.blank.directory = c.directory := rfl
  have locks : c.blank.locks = c.locks := rfl
  cases t with
  | probe b =>
    simp only [step]
    rw [directory]
    cases c.directory.find b with
    | absent => exact congrArg (fun d : Cache k m n => some (Task.seek ⟨b, .touch⟩, d)) c.blank_blank
    | _ => exact congrArg (fun d : Cache k m n => some (Task.done (.ok []), d)) c.blank_blank
  | seek a => exact congrArg some (seekStep_blank c a)
  | awaitHit a s =>
    simp only [step]
    rw [locks]
    split
    · rfl
    · have slots : (c.blank.setLock s .free).slots = c.blank.slots := rfl
      have slots' : (c.setLock s .free).slots = c.slots := rfl
      have freed : (c.blank.setLock s .free).blank = (c.setLock s .free).blank :=
        congrArg (fun d : Cache k m n => d.setLock s .free) c.blank_blank
      have counted : (c.blank.setLock s .free).countHit.blank = (c.setLock s .free).countHit.blank :=
        congrArg Cache.countHit freed
      rw [slots, slots', Cache.slots_blank, Slot.holds_blank]
      split
      · exact congrArg some (finish_congr counted a s)
      · exact congrArg (fun d : Cache k m n => some (Task.seek a, d)) freed
  | awaitSlot a s =>
    simp only [step]
    rw [locks]
    split
    · rfl
    · exact congrArg (fun d : Cache k m n => some (Task.seek a, d.setLock s .free)) c.blank_blank
  | storing a s old => exact congrArg some (storeStep_blank c a s old)
  | loading a s => exact congrArg some (loadStep_blank c a s)
  | visit i => exact visitStep_blank c i
  | flushing s b => exact congrArg some (flushStep_blank c s b)
  | done r => rfl
  | halted v => rfl

/-- A point is known without the bytes that were copied out, but for those bytes. -/
theorem eq_of_blank {t t' : Task k m} (same : t.blank = t'.blank) :
    t' = t ∨ ∃ bytes bytes', t = .done (.ok bytes) ∧ t' = .done (.ok bytes') := by
  cases t with
  | done r =>
    cases t' with
    | done r' =>
      cases r with
      | ok bytes =>
        cases r' with
        | ok bytes' => exact .inr ⟨bytes, bytes', rfl, rfl⟩
        | error e => cases same
      | error e =>
        cases r' with
        | ok bytes' => cases same
        | error e' => exact .inl same.symm
    | _ => cases r <;> cases same
  | _ =>
    cases t' with
    | done r' => cases r' <;> cases same
    | _ => exact .inl same.symm

theorem run_blank (steps : Nat) {t t' : Task k m} {c c' : Cache k m n} (tasks : t.blank = t'.blank)
    (caches : c.blank = c'.blank) : hide (t.run steps c) = hide (t'.run steps c') := by
  induction steps generalizing t t' c c' with
  | zero => exact Prod.ext tasks caches
  | succ steps ih =>
    rcases eq_of_blank tasks with rfl | ⟨bytes, bytes', rfl, rfl⟩
    · have stepped := (step_blank c t').symm.trans (caches ▸ step_blank c' t')
      unfold run
      cases next : t'.step c with
      | none =>
        cases next' : t'.step c' with
        | none => exact Prod.ext rfl caches
        | some after' =>
          rw [next, next'] at stepped
          cases stepped
      | some after =>
        cases next' : t'.step c' with
        | none =>
          rw [next, next'] at stepped
          cases stepped
        | some after' =>
          rw [next, next'] at stepped
          obtain ⟨tasks, caches⟩ := Prod.ext_iff.1 (Option.some.inj stepped)
          exact ih tasks caches
    · exact Prod.ext rfl caches

end Task

namespace Cache

/-- What a call answers, without the bytes copied out, and the cache after it without bytes. -/
def hide (p : Except (DeviceError m) (List UInt8) × Cache k m n) :
    Except (DeviceError m) Unit × Cache k m n :=
  (p.1.map fun _ => (), p.2.blank)

/-- **A call on two caches that differ in bytes only** breaks the same condition on both, or ends
alike but for the bytes that it copies out, and they differ in bytes only after it. -/
theorem call_blank {c c' : Cache k m n} (same : c.blank = c'.blank) (op : Operation) :
    (c.call op).map hide = (c'.call op).map hide := by
  unfold call
  cases op.start n (k := k) (m := m) with
  | error v => rfl
  | ok t =>
    have ran := Task.run_blank (steps k) (Eq.refl t.blank) same
    simp only [bind, Except.bind]
    generalize t.run (steps k) c = after, t.run (steps k) c' = after' at ran ⊢
    obtain ⟨u, d⟩ := after
    obtain ⟨u', d'⟩ := after'
    obtain ⟨tasks, caches⟩ := Prod.ext_iff.1 ran
    change d.blank = d'.blank at caches
    rcases Task.eq_of_blank tasks with rfl | ⟨bytes, bytes', rfl, rfl⟩
    · cases u' with
      | done r => exact congrArg Except.ok (Prod.ext rfl caches)
      | _ => rfl
    · exact congrArg Except.ok (Prod.ext rfl caches)

/-- New caches on devices that differ in bytes only differ in bytes only. -/
theorem new_blank {device device' : Device m n} (same : device.blank = device'.blank)
    (config : CacheSetup) :
    (Cache.new device config).map blank = (Cache.new device' config).map blank := by
  unfold Cache.new
  split
  · refine congrArg Except.ok ?_
    simp only [blank, same]
  · rfl

end Cache

end SectorFs
