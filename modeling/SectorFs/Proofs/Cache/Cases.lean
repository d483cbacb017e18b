/-
# SectorFs.Proofs.Cache.Cases — how an operation starts and how a task goes on

What an operation can start as (`Operation.Starts`), how a look-up can end
(`Task.Seeks`) and which steps a task can take (`Task.Steps`) are listed once, each
case with what was checked for it. Whoever proves something of every start or of
every step goes through these cases, and not through the functions again.

Storing and loading a block have two ends each, as the device has it, and stay
functions of their own here.
-/
import SectorFs.Proofs.Cache.Coherence
import SectorFs.Cache.Operation

namespace SectorFs

set_option autoImplicit false

variable {k m n : Nat}

namespace Operation

/-- The task that each operation starts with, and what was checked before. -/
inductive Starts (n : Nat) : Operation → Task k m → Prop where
  | read {off len : Nat} (b : Fin m) (inside : off + len ≤ n) :
      Starts n (.read b.val off len) (.seek ⟨b, .read off len⟩)
  | write {off : Nat} {data : List UInt8} (b : Fin m) (inside : off + data.length ≤ n) :
      Starts n (.write b.val off data) (.seek ⟨b, .write off data⟩)
  | prefetch (b : Fin m) : Starts n (.prefetch b.val) (.probe b)
  | beyond {block : Nat} (outside : m ≤ block) : Starts n (.prefetch block) (.done (.ok []))
  | flush : Starts n .flush (.visit 0)
  | size : Starts n .size (.done (.ok []))

theorem of_seekBlock {block : Nat} {use : Use} {t : Task k m}
    (found : seekBlock block use = .ok t) : ∃ b : Fin m, b.val = block ∧ t = .seek ⟨b, use⟩ := by
  unfold seekBlock at found
  split at found
  case isTrue inside =>
    cases found
    exact ⟨⟨block, inside⟩, rfl, rfl⟩
  case isFalse => cases found

/-- There is no other way for an operation to start. -/
theorem starts {op : Operation} {t : Task k m} (start : op.start n = .ok t) :
    op.Starts n t := by
  cases op with
  | read block off len =>
    simp only [Operation.start] at start
    split at start
    case isTrue inside =>
      obtain ⟨b, rfl, rfl⟩ := of_seekBlock start
      exact .read b inside
    case isFalse => cases start
  | write block off data =>
    simp only [Operation.start] at start
    split at start
    case isTrue inside =>
      obtain ⟨b, rfl, rfl⟩ := of_seekBlock start
      exact .write b inside
    case isFalse => cases start
  | prefetch block =>
    simp only [Operation.start] at start
    split at start
    case isTrue inside =>
      cases start
      exact .prefetch ⟨block, inside⟩
    case isFalse outside =>
      cases start
      exact .beyond (Nat.le_of_not_lt outside)
  | flush =>
    cases start
    exact .flush
  | size =>
    cases start
    exact .size

theorem start_read {block off len : Nat} {t : Task k m}
    (start : (Operation.read block off len).start n = .ok t) :
    ∃ b : Fin m, b.val = block ∧ t = .seek ⟨b, .read off len⟩ := by
  generalize same : Operation.read block off len = op at start
  cases starts start with
  | read b =>
    cases same
    exact ⟨b, rfl, rfl⟩
  | write | prefetch | beyond | flush | size => cases same

theorem start_write {block off : Nat} {data : List UInt8} {t : Task k m}
    (start : (Operation.write block off data).start n = .ok t) :
    ∃ b : Fin m, b.val = block ∧ t = .seek ⟨b, .write off data⟩ := by
  generalize same : Operation.write block off data = op at start
  cases starts start with
  | write b =>
    cases same
    exact ⟨b, rfl, rfl⟩
  | read | prefetch | beyond | flush | size => cases same

end Operation

namespace Task

open Cache

variable {c c' : Cache k m n}

/-- The ends of a look-up: the block has a slot, it is being stored, or a slot is asked for. -/
inductive Seeks (a : Access m) (c : Cache k m n) : Task k m × Cache k m n → Prop where
  | hit {s : Fin k} (found : c.directory.find a.block = .resident s) (free : c.lockAt s = .free)
      (holds : (c.slotAt s).holds a.block = true) : Seeks a c
        (finish a s (c.setEntry s { c.directory.entries.get s with accessed := true }).countHit)
  | strange {s : Fin k} (found : c.directory.find a.block = .resident s)
      (free : c.lockAt s = .free) (other : ¬ (c.slotAt s).holds a.block = true) : Seeks a c
        (.halted .strangeSlot, c.setEntry s { c.directory.entries.get s with accessed := true })
  | locked {s : Fin k} (found : c.directory.find a.block = .resident s)
      (locked : c.lockAt s ≠ .free) : Seeks a c
        (.awaitHit a s, c.setEntry s { c.directory.entries.get s with accessed := true })
  | evicting {s : Fin k} (found : c.directory.find a.block = .evicting s) :
      Seeks a c (.awaitSlot a s, c)
  | full {c₁ : Cache k m n} (absent : c.directory.find a.block = .absent)
      (taken : c.takeSlot a.block = (none, c₁)) : Seeks a c
        (.awaitSlot a c₁.directory.propose.1, { c₁ with directory := c₁.directory.propose.2 })
  | clean {s : Fin k} {c₁ : Cache k m n} (absent : c.directory.find a.block = .absent)
      (taken : c.takeSlot a.block = (some ⟨s, none⟩, c₁)) : Seeks a c (load a s c₁)
  | dirty {s : Fin k} {old : Fin m} {c₁ : Cache k m n}
      (absent : c.directory.find a.block = .absent)
      (taken : c.takeSlot a.block = (some ⟨s, some old⟩, c₁)) : Seeks a c (.storing a s old, c₁)

theorem seeks (a : Access m) (c : Cache k m n) : Seeks a c (seekStep a c) := by
  unfold seekStep
  split
  case h_1 s found =>
    dsimp only
    split
    case isTrue free =>
      split
      case isTrue holds => exact .hit found free holds
      case isFalse other => exact .strange found free other
    case isFalse locked => exact .locked found locked
  case h_2 s found => exact .evicting found
  case h_3 absent =>
    cases taken : c.takeSlot a.block with
    | mk outcome c₁ =>
      cases outcome with
      | none => exact .full absent taken
      | some slot =>
        obtain ⟨s, _ | old⟩ := slot
        · exact .clean absent taken
        · exact .dirty absent taken

/-- The steps of a task, with what is checked before each. -/
inductive Steps (c : Cache k m n) : Task k m → Task k m → Cache k m n → Prop where
  | absent {b : Fin m} (found : c.directory.find b = .absent) :
      Steps c (.probe b) (.seek ⟨b, .touch⟩) c
  | present {b : Fin m} (found : c.directory.find b ≠ .absent) :
      Steps c (.probe b) (.done (.ok [])) c
  | seek (a : Access m) : Steps c (.seek a) (seekStep a c).1 (seekStep a c).2
  | hit {a : Access m} {s : Fin k} (idle : c.lockAt s ≠ .busy)
      (holds : (c.slotAt s).holds a.block = true) :
      Steps c (.awaitHit a s) (finish a s (c.setLock s .free).countHit).1
        (finish a s (c.setLock s .free).countHit).2
  | lost {a : Access m} {s : Fin k} (idle : c.lockAt s ≠ .busy) :
      Steps c (.awaitHit a s) (.seek a) (c.setLock s .free)
  | awake {a : Access m} {s : Fin k} (idle : c.lockAt s ≠ .busy) :
      Steps c (.awaitSlot a s) (.seek a) (c.setLock s .free)
  | store (a : Access m) (s : Fin k) (old : Fin m) :
      Steps c (.storing a s old) (storeStep a s old c).1 (storeStep a s old c).2
  | load (a : Access m) (s : Fin k) : Steps c (.loading a s) (loadStep a s c).1 (loadStep a s c).2
  | passed {s : Fin k} (idle : c.lockAt s ≠ .busy) (saved : (c.slotAt s).unsaved = none) :
      Steps c (.visit s.val) (.visit (s.val + 1)) (c.setLock s .free)
  | unsaved {s : Fin k} {b : Fin m} (idle : c.lockAt s ≠ .busy)
      (unsaved : (c.slotAt s).unsaved = some b) :
      Steps c (.visit s.val) (.flushing s b) (c.setLock s .busy)
  | through {i : Nat} (beyond : k ≤ i) : Steps c (.visit i) (.done (.ok [])) c
  | flush (s : Fin k) (b : Fin m) :
      Steps c (.flushing s b) (flushStep s b c).1 (flushStep s b c).2

theorem Steps.of_some {t t' : Task k m} {result : Task k m × Cache k m n}
    (steps : Steps c t result.1 result.2) (step : some result = some (t', c')) :
    Steps c t t' c' := by
  obtain rfl := Option.some.inj step
  exact steps

theorem steps_of_step {t t' : Task k m} (step : t.step c = some (t', c')) : Steps c t t' c' := by
  cases t with
  | probe b =>
    simp only [Task.step] at step
    split at step
    case h_1 absent =>
      cases step
      exact .absent absent
    case h_2 present =>
      cases step
      exact .present present
  | seek a => exact .of_some (.seek a) step
  | awaitHit a s =>
    simp only [Task.step] at step
    split at step
    · cases step
    case isFalse idle =>
      split at step
      case isTrue holds => exact .of_some (.hit idle holds) step
      case isFalse =>
        cases step
        exact .lost idle
  | awaitSlot a s =>
    simp only [Task.step] at step
    split at step
    · cases step
    case isFalse idle =>
      cases step
      exact .awake idle
  | storing a s old => exact .of_some (.store a s old) step
  | loading a s => exact .of_some (.load a s) step
  | visit i =>
    simp only [Task.step, visitStep] at step
    split at step
    case isTrue inside =>
      split at step
      · cases step
      case isFalse idle =>
        split at step
        case h_1 saved =>
          cases step
          exact .passed (s := ⟨i, inside⟩) idle saved
        case h_2 b unsaved =>
          cases step
          exact .unsaved (s := ⟨i, inside⟩) idle unsaved
    case isFalse beyond =>
      cases step
      exact .through (Nat.le_of_not_lt beyond)
  | flushing s b => exact .of_some (.flush s b) step
  | done | halted => cases step

end Task

end SectorFs
