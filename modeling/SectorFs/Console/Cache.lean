/-
# SectorFs.Console.Cache — a console for a cache

Commands for a cache and the device under it: operations, one at a time or two
threads at once, locks of slots held from outside, and the device commands.
-/
import SectorFs.Console.Device
import SectorFs.Cache.Race

namespace SectorFs

set_option autoImplicit false

inductive CacheCommand where
  | device (c : DeviceCommand)
  | operation (op : Operation)
  | hold (slot : Nat)
  | unhold (slot : Nat)
  /-- Run a second thread during the first device call of that kind on that block. -/
  | race (kind : IoKind) (block : Nat) (outer : Operation) (inner : List Operation)

/-- A cache on a device that was filled with one byte, and the failures that are set. -/
structure CacheConsole (k m n : Nat) where
  cache : Cache k m n
  plan : FaultPlan m
  fill : UInt8

/-- What a command answered, and the device calls that it made. -/
structure CacheStep (m : Nat) where
  reply : Reply
  /-- For two threads: the second one's answers, or none if it never ran. -/
  inner : Option (Option (List Reply)) := none
  counts : CacheCounts
  residents : List (Fin m)
  calls : List (IoCall m)

namespace CacheConsole

variable {k m n : Nat}

/-- The console of a cache on a new device. -/
def new (config : CacheSettings) (m n : Nat) (fill : UInt8) :
    Except Violation (CacheConsole config.slots m n) := do
  return ⟨← Cache.new (.filled m n fill) { toCacheSettings := config }, .none m, fill⟩

/-- The reply that shows the answer of an operation on a cache of `k` slots and `m` blocks. -/
def replyOf (k : Nat) (op : Operation) (answer : Answer m) : Reply :=
  match answer, op with
  | .ok data, .read .. => .bytes data
  | .ok _, .size => .numbers [k, m]
  | .ok _, _ => .done
  | .error e, _ => .deviceError (decide (e.kind = .write)) e.block

/-- Carries out a command: its reply, the second thread's replies, and the cache after it. -/
def answer (c : CacheConsole k m n) : CacheCommand →
    Except Violation (Reply × Option (Option (List Reply)) × CacheConsole k m n)
  | .device command => do
      let (reply, plan, device) ← command.step c.fill c.plan c.cache.device
      return (reply, none, { c with cache := { c.cache with device }, plan })
  | .operation op => do
      let (answer, cache) ← c.cache.call op
      return (replyOf k op answer, none, { c with cache })
  | .hold slot =>
      if h : slot < k then return (.done, none, { c with cache := c.cache.hold ⟨slot, h⟩ })
      else .error .badIndex
  | .unhold slot =>
      if h : slot < k then return (.done, none, { c with cache := c.cache.unhold ⟨slot, h⟩ })
      else .error .badIndex
  | .race kind block outer inner => do
      let (result, cache) ← c.cache.race kind block outer inner
      let replies := result.inner.map fun answers => List.zipWith (replyOf k) inner answers
      return (replyOf k outer result.outer, some replies, { c with cache })

/-- Carries out a command and shows what it did. -/
def step (c : CacheConsole k m n) (command : CacheCommand) :
    Except Violation (CacheStep m × CacheConsole k m n) := do
  let (reply, inner, c) ← c.answer command
  let device := c.cache.device
  let shown := {
    reply, inner
    counts := c.cache.counts
    residents := c.cache.directory.residents
    calls := device.calls.reverse }
  return (shown, { c with cache := { c.cache with device := device.forgetCalls } })

/-- Runs commands one after another, as long as none breaks a condition. Gives the steps, the
broken condition if there was one, and the console after the last step. -/
def run (c : CacheConsole k m n) :
    List CacheCommand → List (CacheStep m) × Option Violation × CacheConsole k m n
  | [] => ([], none, c)
  | command :: rest =>
      match c.step command with
      | .error v => ([], some v, c)
      | .ok (shown, c) =>
          let (steps, v, c) := c.run rest
          (shown :: steps, v, c)

end CacheConsole

end SectorFs
