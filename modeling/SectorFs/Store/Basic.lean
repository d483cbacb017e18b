/-
# SectorFs.Store.Basic — what serves the requests

`SectorStore` is anything that serves requests for sectors. There are two: a
block cache on a device (`Cache`), and a plain array of sectors (`PlainStore`),
which shows what a store is for: a read gives the bytes that are there, a write
puts bytes there, and the rest changes nothing. A plain store may have outages,
which make single requests fail and change nothing either.
-/
import SectorFs.Store.Program
import SectorFs.Cache.Operation

namespace SectorFs

set_option autoImplicit false

/-- A store that serves one request after another. -/
class SectorStore (σ : Type) where
  serve : σ → (r : Request) → Except Violation (Option r.Reply × σ)

namespace SectorProgram

variable {σ α β : Type} [SectorStore σ]

/-- Runs a program on a store. -/
def run : SectorProgram α → σ → Except Violation (α × σ)
  | .done a, s => .ok (a, s)
  | .halt v, _ => .error v
  | .ask r next, s => do
      let (reply, s) ← SectorStore.serve s r
      (next reply).run s

theorem run_bind (p : SectorProgram α) (f : α → SectorProgram β) (s : σ) :
    (p >>= f).run s = (do let (a, s) ← p.run s; (f a).run s) := by
  induction p generalizing s with
  | done a => rfl
  | halt v => rfl
  | ask r next ih =>
    simp only [ask_bind, run]
    cases SectorStore.serve s r with
    | error v => rfl
    | ok served => exact ih served.1 served.2

end SectorProgram

/-- Runs an operation on a state in memory and a store of sectors. -/
def Action.run {σ τ α : Type} [SectorStore τ] (x : Action σ α) (memory : σ) (store : τ) :
    Except Violation ((Except Failure α × σ) × τ) :=
  (x.program memory).run store

/-! ## A cache as a store -/

namespace Cache

variable {k m : Nat}

/-- The cache operation that serves a request. -/
def operationOf : Request → Operation
  | .read s off len => .read s.index off len
  | .write s off data => .write s.index off data
  | .prefetch s => .prefetch s.index
  | .flush => .flush

/-- The reply to a request, from the answer of the cache. -/
def replyOf (answer : Except (DeviceError m) (List UInt8)) : (r : Request) → Option r.Reply
  | .read .. => answer.toOption
  | .write .. | .prefetch .. | .flush => answer.toOption.map fun _ => ()

instance : SectorStore (Cache k m 512) where
  serve c r := do
    let (answer, c) ← c.call (operationOf r)
    return (replyOf answer r, c)

end Cache

/-! ## A plain array as a store -/

/-- An array of `m` sectors, and for each request to come whether it fails. -/
structure PlainStore (m : Nat) where
  sectors : Vector (Block 512) m
  outages : List Bool := []

namespace PlainStore

variable {m : Nat}

/-- The sector of a number, if there is one. -/
def locate (s : Sector) : Except Violation (Fin m) :=
  if h : s.index < m then .ok ⟨s.index, h⟩ else .error (.blockRange s.index)

/-- Serves a request that works. -/
def fulfil (p : PlainStore m) : (r : Request) → Except Violation (r.Reply × PlainStore m)
  | .read s off len =>
      if off + len ≤ 512 then do
        let b : Fin m ← locate s
        return ((p.sectors.get b).slice off len, p)
      else .error (.byteRange off len 512)
  | .write s off data =>
      if off + data.length ≤ 512 then do
        let b : Fin m ← locate s
        return ((), { p with sectors := p.sectors.set b ((p.sectors.get b).patch off data) b.isLt })
      else .error (.byteRange off data.length 512)
  | .prefetch _ | .flush => .ok ((), p)

instance : SectorStore (PlainStore m) where
  serve p r := do
    let (reply, after) ← { p with outages := p.outages.tail }.fulfil r
    if p.outages.head?.getD false then return (none, { p with outages := p.outages.tail })
    else return (some reply, after)

end PlainStore

end SectorFs
