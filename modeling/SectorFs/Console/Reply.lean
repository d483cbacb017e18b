/-
# SectorFs.Console.Reply — what a console answers

A console takes commands one by one and answers each with a `Reply`. A broken
condition is a reply too, the last one of its console.
-/
import SectorFs.Store.Program

namespace SectorFs

set_option autoImplicit false

/-- What `info` shows of a handle. -/
structure HandleInfo where
  sector : Sector
  length : Nat
  isDirectory : Bool
  parent : Sector
  openers : Nat
  removed : Bool

/-- The answer to a command. -/
inductive Reply where
  /-- Done, with nothing to show. -/
  | done
  /-- Nothing there. -/
  | absent
  | number (n : Nat)
  | numbers (ns : List Nat)
  | flag (b : Bool)
  | text (s : String)
  | bytes (data : List UInt8)
  /-- Bytes read from a file. -/
  | contents (data : List UInt8)
  /-- Some blocks of a device. -/
  | blocks (dump : List (Nat × List UInt8))
  | inode (d : Inode)
  | index (x : IndexBlock)
  | info (i : HandleInfo)
  /-- A device call that failed: a read or a write of a block. -/
  | deviceError (isWrite : Bool) (block : Nat)
  | failed (e : Failure)
  | noName
  | noHandle
  | noFileSystem
  | violated (v : Violation)

/-- The reply that shows a pointer. -/
def Reply.ofSector : Option Sector → Reply
  | none => .absent
  | some s => .number s.index

end SectorFs
