/-
# SectorFs.Cache.Race — a second thread during a device call

While one thread's operation waits for the device, another thread can run. The
second thread works off its operations one after another until it is through or
has to sleep on the slot that the first thread has locked. Then the device call
takes effect and the first thread's operation goes on to its end; as soon as it
unlocks the slot, the second thread wakes up and works off the rest.
-/
import SectorFs.Cache.Operation

namespace SectorFs

set_option autoImplicit false

/-- What an operation answered. -/
abbrev Answer (m : Nat) := Except (DeviceError m) (List UInt8)

/-- A thread on its way through a list of operations. -/
structure Worker (k m : Nat) where
  /-- The answers so far, the last one first. -/
  answers : List (Answer m)
  /-- The operation in which the thread sleeps. -/
  asleep : Option (Task k m)
  rest : List Operation

namespace Worker

variable {k m n : Nat}

/-- Works off operations until the last is done or one has to sleep. -/
def work : List Operation → List (Answer m) → Cache k m n →
    Except Violation (Worker k m × Cache k m n)
  | [], answers, c => .ok (⟨answers, none, []⟩, c)
  | op :: rest, answers, c => do
      match (← op.start n : Task k m).run (Cache.steps k) c with
      | (.done answer, c) => work rest (answer :: answers) c
      | (.halted v, _) => .error v
      | (task, c) => .ok (⟨answers, some task, rest⟩, c)

/-- Lets a thread go on, if it can, and work off the rest. -/
def wake (w : Worker k m) (c : Cache k m n) : Except Violation (Worker k m × Cache k m n) :=
  match w.asleep with
  | none => .ok (w, c)
  | some task =>
      match task.run (Cache.steps k) c with
      | (.done answer, c) => work w.rest (answer :: w.answers) c
      | (.halted v, _) => .error v
      | (task, c) => .ok (⟨w.answers, some task, w.rest⟩, c)

end Worker

/-- What two threads answered. -/
structure RaceResult (m : Nat) where
  outer : Answer m
  /-- The second thread's answers, or none if it never ran. -/
  inner : Option (List (Answer m))

namespace Task

variable {k m n : Nat}

/-- Goes on for at most `steps` steps, where another thread wakes up as soon as it can. -/
def runBeside : (steps : Nat) → Task k m → Worker k m → Cache k m n →
    Except Violation (Task k m × Worker k m × Cache k m n)
  | 0, t, w, c => .ok (t, w, c)
  | steps + 1, t, w, c =>
      match t.step c with
      | none => .ok (t, w, c)
      | some (t, c) => do
          let (w, c) ← w.wake c
          runBeside steps t w c

end Task

namespace Cache

variable {k m n : Nat}

/-- Runs `outer`, and `inner` in a second thread from the moment on when `outer` is about to make
its first device call of the given kind on the given block. -/
def race (c : Cache k m n) (kind : IoKind) (block : Nat) (outer : Operation)
    (inner : List Operation) : Except Violation (RaceResult m × Cache k m n) := do
  match (← outer.start n : Task k m).runTo kind block (steps k) c with
  | (.done answer, c) => return (⟨answer, none⟩, c)
  | (.halted v, _) => .error v
  | (task, c) =>
      let (worker, c) ← Worker.work inner [] c
      match ← task.runBeside (steps k) worker c with
      | (.done answer, ⟨answers, none, _⟩, c) => return (⟨answer, some answers.reverse⟩, c)
      | (.halted v, _, _) => .error v
      | _ => .error .noProgress

end Cache

end SectorFs
