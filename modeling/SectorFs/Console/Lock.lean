/-
# SectorFs.Console.Lock — a number behind a lock

A lock guards one number. The number can be read and set only by who has the
lock, and the lock can be had only while no one has it.
-/
import SectorFs.Console.Reply

namespace SectorFs

set_option autoImplicit false

/-- A number and whether the console has its lock. -/
structure Locked where
  value : Nat
  held : Bool := false

inductive LockCommand where
  | lock
  | tryLock
  | unlock
  | get
  | set (n : Nat)

def LockCommand.step (l : Locked) : LockCommand → Reply × Locked
  | .lock => (.done, { l with held := true })
  | .tryLock => (.flag !l.held, { l with held := true })
  | .unlock => (.done, { l with held := false })
  | .get => (if l.held then .number l.value else .absent, l)
  | .set n => (.flag l.held, if l.held then { l with value := n } else l)

/-- Runs commands one after another. -/
def LockCommand.run : Locked → List LockCommand → List Reply
  | _, [] => []
  | l, c :: rest =>
      let (reply, l) := c.step l
      reply :: run l rest

end SectorFs
