/-
# SectorFs.Store.Program — programs that ask for sectors

The file system never holds a store of sectors. Each of its operations is a
`SectorProgram`: a tree of requests, where the branches at a request are the
replies it can get. One definition then runs on a block cache, on a plain array
of sectors, or on anything else that serves requests, and what holds of a
program for all replies holds on all of them.

`SectorProgram` is a lawful monad. `Action` adds a state in memory, which a
failing operation keeps as far as it came, and the failures that operations
answer with. `Action.program` is the program behind an action, and there is one
equation for each way to build an action (`program_bind` and its neighbours), so
that no proof has to look inside the layers.
-/
import SectorFs.Geometry
import SectorFs.Disk.Inode
import SectorFs.Disk.Index

namespace SectorFs

set_option autoImplicit false

/-- What a file system operation can fail with. -/
inductive Failure where
  | noSpace
  | fileTooLarge
  | notAnInode (s : Sector)
  | notFormatted
  | io
deriving DecidableEq

/-- The line that reports a failure. -/
def Failure.message : Failure → String
  | .noSpace => "no free sectors left"
  | .fileTooLarge => "file size limit exceeded"
  | .notAnInode s => s!"sector {s.index} does not hold an inode"
  | .notFormatted => "disk is not formatted"
  | .io => "I/O error"

/-- What can be asked of a store of sectors. -/
inductive Request where
  /-- `len` bytes of a sector from `off` on. -/
  | read (s : Sector) (off len : Nat)
  /-- Write `data` into a sector at `off`. -/
  | write (s : Sector) (off : Nat) (data : List UInt8)
  /-- A sector will be read soon. -/
  | prefetch (s : Sector)
  /-- Make every write last. -/
  | flush

/-- What a request that worked is answered with. -/
abbrev Request.Reply : Request → Type
  | .read .. => List UInt8
  | _ => Unit

/-- A computation that asks for sectors. A request that did not work has no reply. -/
inductive SectorProgram (α : Type) where
  | done (a : α)
  | halt (v : Violation)
  | ask (r : Request) (next : Option r.Reply → SectorProgram α)

namespace SectorProgram

variable {α β γ : Type}

protected def bind : SectorProgram α → (α → SectorProgram β) → SectorProgram β
  | .done a, f => f a
  | .halt v, _ => .halt v
  | .ask r next, f => .ask r fun reply => (next reply).bind f

instance : Monad SectorProgram where
  pure := .done
  bind := SectorProgram.bind

@[simp] theorem done_bind (a : α) (f : α → SectorProgram β) : (done a >>= f) = f a := rfl

@[simp] theorem halt_bind (v : Violation) (f : α → SectorProgram β) :
    (halt v >>= f) = halt v := rfl

@[simp] theorem ask_bind (r : Request) (next : Option r.Reply → SectorProgram α)
    (f : α → SectorProgram β) : (ask r next >>= f) = ask r fun reply => next reply >>= f := rfl

theorem bind_done (p : SectorProgram α) : (p >>= done) = p := by
  induction p with
  | done a => rfl
  | halt v => rfl
  | ask r next ih => rw [ask_bind]; congr; funext reply; exact ih reply

theorem bind_assoc (p : SectorProgram α) (f : α → SectorProgram β) (g : β → SectorProgram γ) :
    (p >>= f >>= g) = p >>= fun a => f a >>= g := by
  induction p with
  | done a => rfl
  | halt v => rfl
  | ask r next ih => simp only [ask_bind]; congr; funext reply; exact ih reply

instance : LawfulMonad SectorProgram :=
  LawfulMonad.mk' SectorProgram bind_done (fun _ _ => rfl) bind_assoc

/-- A value that was computed under a condition. -/
def check : Except Violation α → SectorProgram α
  | .ok a => .done a
  | .error v => .halt v

end SectorProgram

/-- A file system operation on a state `σ` in memory. -/
abbrev Action (σ : Type) := ExceptT Failure (StateT σ SectorProgram)

namespace Action

variable {σ α β : Type}

/-- The program of an action that starts with a given state in memory. -/
def program (x : Action σ α) (memory : σ) : SectorProgram (Except Failure α × σ) :=
  StateT.run (ExceptT.run x) memory

/-- Stops the run for good unless a value could be computed. -/
def check (x : Except Violation α) : Action σ α := (SectorProgram.check x : SectorProgram α)

/-- Stops the run for good unless a condition holds. -/
def require (holds : Bool) (v : Violation) : Action σ Unit :=
  check (if holds then .ok () else .error v)

/-- Fails with an error unless a condition holds. -/
def ensure (holds : Bool) (e : Failure) : Action σ Unit := if holds then pure () else throw e

/-- Asks for something, and fails with an I/O error if that did not work. -/
def request (r : Request) : Action σ r.Reply := do
  match ← (SectorProgram.ask r .done : SectorProgram (Option r.Reply)) with
  | some reply => pure reply
  | none => throw .io

def read (s : Sector) (off len : Nat) : Action σ (List UInt8) := request (.read s off len)

def write (s : Sector) (off : Nat) (data : List UInt8) : Action σ Unit :=
  request (.write s off data)

def prefetch (s : Sector) : Action σ Unit := request (.prefetch s)

def flush : Action σ Unit := request .flush

/-- A whole sector. -/
def readSector (s : Sector) : Action σ (Block 512) := do
  return Block.ofList 512 (← read s 0 512)

def writeSector (s : Sector) (b : Block 512) : Action σ Unit := write s 0 b.bytes

def readInode (s : Sector) : Action σ Inode := do return .decode (← readSector s)

def writeInode (s : Sector) (d : Inode) : Action σ Unit := writeSector s d.encode

def readIndex (s : Sector) : Action σ IndexBlock := do return .decode (← readSector s)

def writeIndex (s : Sector) (x : IndexBlock) : Action σ Unit := writeSector s x.encode

/-- Fills a sector with zeros. -/
def clear (s : Sector) : Action σ Unit := writeSector s (Block.zero 512)

/-- Carries on after a failure as if nothing had been tried. -/
def ignoreError (x : Action σ Unit) : Action σ Unit := tryCatch x fun _ => pure ()

/-- Clears up after a failure, and fails with it all the same. -/
def onFailure (x : Action σ α) (cleanup : Action σ Unit) : Action σ α := tryCatch x fun e => do
  cleanup
  throw e

/-! ## What actions do -/

@[simp] theorem program_pure (a : α) (memory : σ) :
    (pure a : Action σ α).program memory = .done (.ok a, memory) := rfl

@[simp] theorem program_throw (e : Failure) (memory : σ) :
    (throw e : Action σ α).program memory = .done (.error e, memory) := rfl

@[simp] theorem program_get (memory : σ) :
    (get : Action σ σ).program memory = .done (.ok memory, memory) := rfl

@[simp] theorem program_modify (f : σ → σ) (memory : σ) :
    (modify f : Action σ Unit).program memory = .done (.ok (), f memory) := rfl

/-- An action goes on with what the one before it left, unless that one failed. -/
theorem program_bind (x : Action σ α) (f : α → Action σ β) (memory : σ) :
    (x >>= f).program memory = x.program memory >>= fun after =>
      match after.1 with
      | .ok a => (f a).program after.2
      | .error e => .done (.error e, after.2) := by
  simp only [program, ExceptT.run, bind, ExceptT.bind, ExceptT.mk, StateT.bind, StateT.run]
  congr
  funext after
  obtain ⟨result, memory⟩ := after
  cases result <;> rfl

theorem program_map (g : α → β) (x : Action σ α) (memory : σ) :
    (g <$> x).program memory = x.program memory >>= fun after =>
      .done (after.1.map g, after.2) := by
  rw [map_eq_pure_bind, program_bind]
  congr
  funext after
  obtain ⟨result, memory⟩ := after
  cases result <;> rfl

@[simp] theorem program_liftExcept (x : Except Failure α) (memory : σ) :
    (liftExcept x : Action σ α).program memory = .done (x, memory) := by
  cases x <;> rfl

/-- A handler starts with what the failed action left. -/
theorem program_tryCatch (x : Action σ α) (f : Failure → Action σ α) (memory : σ) :
    (tryCatch x f).program memory = x.program memory >>= fun after =>
      match after.1 with
      | .ok a => .done (.ok a, after.2)
      | .error e => (f e).program after.2 := by
  simp only [program, ExceptT.run, tryCatch, tryCatchThe, MonadExceptOf.tryCatch, ExceptT.tryCatch,
    ExceptT.mk, bind, StateT.bind, StateT.run]
  congr
  funext after
  obtain ⟨result, memory⟩ := after
  cases result <;> rfl

theorem program_onFailure (x : Action σ α) (cleanup : Action σ Unit) (memory : σ) :
    (x.onFailure cleanup).program memory = x.program memory >>= fun after =>
      match after.1 with
      | .ok a => .done (.ok a, after.2)
      | .error e => cleanup.program after.2 >>= fun cleaned =>
          match cleaned.1 with
          | .ok _ => .done (.error e, cleaned.2)
          | .error e => .done (.error e, cleaned.2) := by
  rw [onFailure, program_tryCatch]
  congr
  funext after
  obtain ⟨result, memory⟩ := after
  cases result with
  | ok a => rfl
  | error e =>
    simp only [program_bind, program_throw]
    congr
    funext cleaned
    cases cleaned.1 <;> rfl

theorem program_check (x : Except Violation α) (memory : σ) :
    (check x).program memory = SectorProgram.check x >>= fun a => .done (.ok a, memory) := by
  cases x <;> rfl

theorem program_request (r : Request) (memory : σ) :
    (request r).program memory = .ask r fun reply =>
      match reply with
      | some reply => .done (.ok reply, memory)
      | none => .done (.error .io, memory) := by
  refine congrArg (SectorProgram.ask r) (funext fun reply => ?_)
  cases reply <;> rfl

end Action

end SectorFs
