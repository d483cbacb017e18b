/-
# SectorFs.Proofs.Cache.Accounts — the counters account for all traffic

Calls are made to a cache one after another, with no lock held from outside
(`Cache.callAll`). What each call did is read off the cache before and after it
(`CacheCall`): the device calls that it made, whether it looked a block up, and
whether the look-up was counted as a miss.

The books balance over one call (`call_balances`), since a task owes nothing at
its end, and so over any number of calls (`callAll_spans`). From a new cache on
the counters are therefore those of the calls (`new_accounts`), whatever the
settings are and whichever device calls fail; and no block is stored that was not
written since it was last stored.
-/
import SectorFs.Proofs.Cache.Unsaved
import SectorFs.Proofs.Cache.Refinement

namespace SectorFs

set_option autoImplicit false

variable {k m n : Nat}

/-- A call to a cache, and the cache before and after it. -/
structure CacheCall (k m n : Nat) where
  op : Operation
  before : Cache k m n
  answer : Answer m
  after : Cache k m n

/-- The block that a device call loads. -/
def IoCall.loaded? (call : IoCall m) : Option Nat :=
  if call.kind = .read then some call.block.val else none

/-- Whether an operation writes a whole block of `n` bytes. -/
def Operation.overwrites (n : Nat) : Operation → Bool
  | .write _ _ data => decide (data.length = n)
  | _ => false

namespace CacheCall

/-- A call as an event of a history. -/
def event (call : CacheCall k m n) : CacheEvent k m := .called call.op call.answer

/-- The device calls that were made, in order. -/
def traffic (call : CacheCall k m n) : List (IoCall m) :=
  (call.after.device.calls.take
    (call.after.device.calls.length - call.before.device.calls.length)).reverse

/-- Whether a block was looked up: for each read and write, and for a block of the device that is
loaded ahead and was not there. -/
def looksUp (call : CacheCall k m n) : Bool :=
  match call.op with
  | .read _ _ _ | .write _ _ _ => true
  | .prefetch block =>
      decide (block < m ∧ ∀ b ∈ call.before.directory.residents, b.val ≠ block)
  | .flush | .size => false

/-- The device calls for blocks that could not be stored to make room for another. -/
def failedEvictions (call : CacheCall k m n) : List (IoCall m) :=
  match call.op with
  | .flush => []
  | _ => call.traffic.filter IoCall.storeFailed

/-- Whether a miss was counted. -/
def missed (call : CacheCall k m n) : Bool :=
  decide (call.before.counts.misses < call.after.counts.misses)

/-- The block that has to be loaded: that of a miss, unless all of it is written. -/
def fill (call : CacheCall k m n) : List Nat :=
  if call.missed && !call.op.overwrites n then call.op.block?.toList else []

/-- The block that was written. -/
def written (call : CacheCall k m n) : List (Fin m) :=
  match call.op, call.answer with
  | .write block _ _, .ok _ => if h : block < m then [⟨block, h⟩] else []
  | _, _ => []

/-- The device calls, and the write that ended well after them. -/
def marks (call : CacheCall k m n) : List (Mark m) :=
  call.traffic.map .called ++ call.written.map .wrote

/-- The books balance over a call. -/
structure Balances (call : CacheCall k m n) : Prop where
  lookups : call.after.counts.hits + call.after.counts.misses + call.failedEvictions.length =
    call.before.counts.hits + call.before.counts.misses + call.looksUp.toNat
  writebacks : call.after.counts.writebacks =
    call.before.counts.writebacks + call.traffic.countP IoCall.stored
  residents : call.after.directory.residents.length + call.after.counts.evictions +
      call.traffic.countP IoCall.loadFailed + call.before.counts.misses =
    call.before.directory.residents.length + call.before.counts.evictions +
      call.after.counts.misses + call.failedEvictions.length
  misses : call.after.counts.misses = call.before.counts.misses + call.missed.toNat
  loads : call.traffic.filterMap IoCall.loaded? = call.fill

end CacheCall

/-! ## One call -/

open Cache

variable {c c' : Cache k m n} {op : Operation} {t : Task k m} {answer : Answer m}
  {io : List (IoCall m)} {marks : List (Mark m)}

namespace Task

/-- A call keeps the books of its task, and stores what is due. -/
theorem call_posts (resting : c.Resting) (start : op.start n = .ok t)
    (called : c.call op = .ok (answer, c')) (squared : Squared marks c.Owes) :
    ∃ io, Posts t.access? t c (.done answer) c' io ∧
      (t = .done (.ok []) → io = []) ∧
      Squared (marks ++ io.map .called) fun b =>
        c'.Owes b ∧ ¬Wrote t.access? b (.done answer : Task k m) := by
  obtain ⟨t', start', ran⟩ := run_of_call called
  obtain rfl : t = t' := Except.ok.inj (start.symm.trans start')
  obtain ⟨-, -, -, -, rfl | going⟩ := of_start start
  · rw [run_done] at ran
    cases ran
    exact ⟨[], .refl _ _ c, fun _ => rfl, by simpa using squared.mono fun b owes => owes.1⟩
  · have started := (resting.shared (.ok []) (.ok [])).start start
    obtain ⟨io, posts, squared'⟩ := run_posts (steps k) started going squared
    rw [ran] at posts squared'
    exact ⟨io, posts, fun done => absurd done (going _), squared'⟩

end Task

/-- While nobody is busy a block is absent if it is not listed. -/
theorem Cache.find_eq_absent_iff (resting : c.Resting) (b : Fin m) :
    c.directory.find b = .absent ↔ b ∉ c.directory.residents := by
  rw [Directory.mem_residents]
  constructor
  · rintro absent ⟨s, resident⟩
    have unnamed := Directory.find_absent absent s
    simp [Entry.names, resident] at unnamed
  · intro unlisted
    refine Directory.find_eq_absent fun s => ?_
    have idle : (c.directory.entries.get s).evicting = none :=
      evicting_of_idle resting.coherent (resting.idle s)
    have other : (c.directory.entries.get s).resident ≠ some b := fun same => unlisted ⟨s, same⟩
    simp [Entry.names, idle, other]

namespace CacheCall

theorem traffic_eq (op : Operation) (answer : Answer m)
    (calls : c'.device.calls = io.reverse ++ c.device.calls) :
    (⟨op, c, answer, c'⟩ : CacheCall k m n).traffic = io := by
  have more : c'.device.calls.length - c.device.calls.length = io.reverse.length := by
    rw [calls, List.length_append, Nat.add_sub_cancel]
  rw [traffic]
  dsimp only
  rw [more, calls, List.take_left, List.reverse_reverse]

/-- At its start a task owes the look-up of its operation. -/
theorem owing_start (resting : c.Resting) (start : op.start n = .ok t) (answer : Answer m)
    (c' : Cache k m n) :
    t.owing c = (⟨op, c, answer, c'⟩ : CacheCall k m n).looksUp.toNat := by
  cases Operation.starts start with
  | read | write | flush | size => rfl
  | prefetch b =>
    have listed := find_eq_absent_iff resting b
    have elsewhere : (b.val < m ∧ ∀ x ∈ c.directory.residents, x.val ≠ b.val) ↔
        c.directory.find b = .absent := by
      rw [and_iff_right b.isLt, listed]
      exact ⟨fun all mem => all b mem rfl, fun none x mem same => none (Fin.ext same ▸ mem)⟩
    simp only [looksUp]
    cases found : c.directory.find b with
    | absent =>
      rw [decide_eq_true (elsewhere.2 found)]
      simp [Task.owing, found]
    | resident s | evicting s =>
      rw [decide_eq_false fun all => by rw [elsewhere.1 all] at found; cases found]
      simp [Task.owing, found]
  | @beyond block outside =>
    have absent : ¬ block < m := Nat.not_lt.2 outside
    simp [Task.owing, looksUp, absent]

/-- Only a flush stores blocks that make no room. -/
theorem failedEvictions_eq (start : op.start n = .ok t)
    (traffic : (⟨op, c, answer, c'⟩ : CacheCall k m n).traffic = io)
    (ended : t = .done (.ok []) → io = []) :
    (⟨op, c, answer, c'⟩ : CacheCall k m n).failedEvictions.length =
      Task.failedStores t.access? io := by
  have failed : ((⟨op, c, answer, c'⟩ : CacheCall k m n).traffic.filter IoCall.storeFailed).length =
      io.countP IoCall.storeFailed := by
    rw [traffic, List.countP_eq_length_filter]
  cases Operation.starts start with
  | read | write | prefetch => exact failed
  | flush => rfl
  | beyond | size =>
    rw [ended rfl] at failed ⊢
    exact failed

/-- A task is for the block of its operation, and writes what that writes. -/
theorem access_start (start : op.start n = .ok t) :
    t.unloaded = 0 ∧ t.seated = 0 ∧ Task.spares n t.access? = op.overwrites n ∧
      ∀ a, t.access? = some a → op.block? = some a.block.val := by
  cases Operation.starts start with
  | read b inside | write b inside | prefetch b =>
    exact ⟨rfl, rfl, rfl, fun a same => by cases same; rfl⟩
  | flush | beyond | size => exact ⟨rfl, rfl, rfl, nofun⟩

theorem mem_written (start : op.start n = .ok t) {b : Fin m}
    (wrote : Task.Wrote t.access? b (.done answer : Task k m)) :
    b ∈ (⟨op, c, answer, c'⟩ : CacheCall k m n).written := by
  obtain ⟨⟨bytes, same⟩, a, access, block, writes⟩ := wrote
  cases same
  cases Operation.starts start with
  | write b inside =>
    cases access
    simp [written, ← block]
  | read | prefetch =>
    cases access
    cases writes
  | beyond | flush | size => cases access

/-- Calls that load no other block load it as often as they load at all. -/
theorem filterMap_loaded (block : Nat)
    (same : ∀ call ∈ io, call.kind = .read → call.block.val = block) :
    io.filterMap IoCall.loaded? = List.replicate (io.countP IoCall.loads) block := by
  induction io with
  | nil => rfl
  | cons call io ih =>
    have others := ih fun call mem => same call (List.mem_cons_of_mem _ mem)
    by_cases read : call.kind = .read
    · have here := same call List.mem_cons_self read
      rw [List.filterMap_cons, IoCall.loaded?, if_pos read, others,
        List.countP_cons_of_pos (by simp [IoCall.loads, read]), List.replicate_succ, here]
    · rw [List.filterMap_cons, IoCall.loaded?, if_neg read, others,
        List.countP_cons_of_neg (by simp [IoCall.loads, read])]

/-- A miss is loaded once, unless its whole block is written, and nothing else is. -/
theorem fill_eq (start : op.start n = .ok t) (posts : t.Posts t.access? c (.done answer) c' io)
    (misses : c'.counts.misses =
      c.counts.misses + (⟨op, c, answer, c'⟩ : CacheCall k m n).missed.toNat) :
    io.filterMap IoCall.loaded? = (⟨op, c, answer, c'⟩ : CacheCall k m n).fill := by
  obtain ⟨unloaded, -, spared, about⟩ := access_start start
  unfold fill
  generalize (⟨op, c, answer, c'⟩ : CacheCall k m n).missed = missed at misses ⊢
  have count : io.countP IoCall.loads = (missed && !op.overwrites n).toNat := by
    have loads := posts.loads
    rw [unloaded, spared, misses] at loads
    cases overwrites : op.overwrites n <;> cases missed <;>
      simp only [overwrites, Task.unloaded, if_true, Bool.false_eq_true, if_false, Bool.toNat_true,
        Bool.toNat_false, Bool.not_true, Bool.not_false, Bool.and_true,
        Bool.and_false] at loads ⊢ <;>
      omega
  dsimp only
  cases fills : missed && !op.overwrites n with
  | false =>
    rw [fills] at count
    have none := List.countP_eq_zero.1 count
    have never : ∀ call ∈ io, call.kind = .read → call.block.val = 0 :=
      fun call mem read => absurd (by simp [IoCall.loads, read]) (none call mem)
    rw [filterMap_loaded 0 never, count]
    rfl
  | true =>
    rw [fills] at count
    obtain ⟨call, mem, loads⟩ := List.countP_pos_iff.1 (by rw [count]; decide)
    obtain ⟨a, access, -⟩ := posts.blocks call mem (of_decide_eq_true loads)
    have same : ∀ call ∈ io, call.kind = .read → call.block.val = a.block.val :=
      fun call mem read => by
        obtain ⟨a', access', block⟩ := posts.blocks call mem read
        obtain rfl := Option.some.inj (access.symm.trans access')
        exact congrArg Fin.val block.symm
    rw [filterMap_loaded _ same, count, about a access]
    rfl

/-- **The books balance over a call.** -/
theorem balances (resting : c.Resting) (start : op.start n = .ok t)
    (posts : t.Posts t.access? c (.done answer) c' io) (ended : t = .done (.ok []) → io = []) :
    (⟨op, c, answer, c'⟩ : CacheCall k m n).Balances := by
  have traffic := traffic_eq op answer posts.calls
  have owing := owing_start resting start answer c'
  have failed := failedEvictions_eq start traffic ended
  obtain ⟨-, seated, -, -⟩ := access_start start
  have lookups := posts.lookups
  have residents := posts.residents
  rw [owing, ← failed] at lookups
  rw [seated, ← failed] at residents
  simp only [Task.owing, Task.seated] at lookups residents
  have misses : c'.counts.misses =
      c.counts.misses + (⟨op, c, answer, c'⟩ : CacheCall k m n).missed.toNat := by
    have hits := posts.hits
    have more := posts.misses
    have once := Bool.toNat_le (⟨op, c, answer, c'⟩ : CacheCall k m n).looksUp
    by_cases missed : c.counts.misses < c'.counts.misses
    · simp only [CacheCall.missed, decide_eq_true missed, Bool.toNat_true]
      omega
    · simp only [CacheCall.missed, decide_eq_false missed, Bool.toNat_false]
      omega
  exact {
    lookups := lookups
    writebacks := by rw [traffic]; exact posts.writebacks
    residents := by rw [traffic]; exact residents
    misses := misses
    loads := by rw [traffic]; exact fill_eq start posts misses }

end CacheCall

/-- A call that comes back is posted, and leaves due what is owed. -/
theorem Cache.call_balances (resting : c.Resting) (start : op.start n = .ok t)
    (called : c.call op = .ok (answer, c')) (squared : Squared marks c.Owes) :
    (⟨op, c, answer, c'⟩ : CacheCall k m n).Balances ∧
      Squared (marks ++ (⟨op, c, answer, c'⟩ : CacheCall k m n).marks) c'.Owes := by
  obtain ⟨io, posts, ended, squared'⟩ := Task.call_posts resting start called squared
  refine ⟨CacheCall.balances resting start posts ended, ?_⟩
  rw [CacheCall.marks, CacheCall.traffic_eq op answer posts.calls, ← List.append_assoc]
  refine (squared'.wrote_all _).mono fun b owes => ?_
  by_cases wrote : Task.Wrote t.access? b (.done answer : Task k m)
  · exact .inr (CacheCall.mem_written start wrote)
  · exact .inl ⟨owes, wrote⟩

/-! ## Any number of calls -/

namespace Cache

/-- Makes calls one after another. -/
def callAll (c : Cache k m n) :
    List Operation → Except Violation (List (CacheCall k m n) × Cache k m n)
  | [] => .ok ([], c)
  | op :: rest => do
      let (answer, c') ← c.call op
      let (calls, last) ← c'.callAll rest
      return (⟨op, c, answer, c'⟩ :: calls, last)

/-- Calls made one after another are a history. -/
theorem History.of_callAll {ops : List Operation} {before : Cache k m n}
    {events : List (CacheEvent k m)} {calls : List (CacheCall k m n)}
    (history : before.History events c) (ran : c.callAll ops = .ok (calls, c')) :
    before.History (events ++ calls.map CacheCall.event) c' := by
  induction ops generalizing c events calls with
  | nil =>
    obtain ⟨rfl, rfl⟩ := Prod.mk.inj (Except.ok.inj ran)
    simpa using history
  | cons op ops ih =>
    rw [callAll] at ran
    cases called : c.call op with
    | error e =>
      rw [called] at ran
      cases ran
    | ok result =>
      obtain ⟨answer, c₁⟩ := result
      cases rest : c₁.callAll ops with
      | error e =>
        rw [called] at ran
        simp only [bind, Except.bind, rest] at ran
        cases ran
      | ok result =>
        rw [called] at ran
        simp only [bind, Except.bind, rest, pure, Except.pure] at ran
        obtain ⟨rfl, rfl⟩ := Prod.mk.inj (Except.ok.inj ran)
        simpa [CacheCall.event] using ih (history.of_call called) rest

/-- The books balance over calls that lead from `c` to `c'`. -/
structure Spans (c : Cache k m n) (calls : List (CacheCall k m n)) (c' : Cache k m n) : Prop where
  lookups : c'.counts.hits + c'.counts.misses + (calls.flatMap CacheCall.failedEvictions).length =
    c.counts.hits + c.counts.misses + calls.countP CacheCall.looksUp
  writebacks : c'.counts.writebacks =
    c.counts.writebacks + (calls.flatMap CacheCall.traffic).countP IoCall.stored
  residents : c'.directory.residents.length + c'.counts.evictions +
      (calls.flatMap CacheCall.traffic).countP IoCall.loadFailed + c.counts.misses =
    c.directory.residents.length + c.counts.evictions + c'.counts.misses +
      (calls.flatMap CacheCall.failedEvictions).length
  misses : c'.counts.misses = c.counts.misses + calls.countP CacheCall.missed
  loads : ∀ call ∈ calls, call.traffic.filterMap IoCall.loaded? = call.fill

theorem spans_nil (c : Cache k m n) : Spans c [] c where
  lookups := rfl
  writebacks := rfl
  residents := Nat.add_right_comm _ _ _
  misses := rfl
  loads := fun _ mem => absurd mem List.not_mem_nil

theorem Spans.cons {call : CacheCall k m n} {calls : List (CacheCall k m n)}
    (balances : call.Balances) (spans : Spans call.after calls c') :
    Spans call.before (call :: calls) c' where
  lookups := by
    have one := balances.lookups
    have rest := spans.lookups
    rw [List.flatMap_cons, List.length_append, List.countP_cons]
    cases looked : call.looksUp <;>
      simp only [looked, Bool.toNat_true, Bool.toNat_false, if_true, Bool.false_eq_true,
        if_false] at one ⊢ <;> omega
  writebacks := by
    rw [spans.writebacks, balances.writebacks, List.flatMap_cons, List.countP_append, Nat.add_assoc]
  residents := by
    have one := balances.residents
    have rest := spans.residents
    rw [List.flatMap_cons, List.flatMap_cons, List.length_append, List.countP_append]
    omega
  misses := by
    have one := balances.misses
    have rest := spans.misses
    rw [List.countP_cons]
    cases missed : call.missed <;>
      simp only [missed, Bool.toNat_true, Bool.toNat_false, if_true, Bool.false_eq_true,
        if_false] at one ⊢ <;> omega
  loads := List.forall_mem_cons.2 ⟨balances.loads, spans.loads⟩

/-- Calls in range all come back, and the books balance over them. -/
theorem callAll_spans {ops : List Operation} (resting : c.Resting)
    (inside : ∀ i, c.lockAt i ≠ .outside) (inRange : ∀ op ∈ ops, op.InRange m n)
    (squared : Squared marks c.Owes) :
    ∃ calls c', c.callAll ops = .ok (calls, c') ∧ Spans c calls c' ∧
      Squared (marks ++ calls.flatMap CacheCall.marks) c'.Owes := by
  induction ops generalizing c marks with
  | nil => exact ⟨[], c, rfl, spans_nil c, by simpa using squared⟩
  | cons op ops ih =>
    obtain ⟨here, others⟩ := List.forall_mem_cons.1 inRange
    obtain ⟨t, start⟩ := Operation.exists_start (k := k) here
    obtain ⟨answer, c₁, called, resting₁, inside₁, -⟩ := call_returns resting inside start
    obtain ⟨balances, squared₁⟩ := call_balances resting start called squared
    obtain ⟨calls, c', ran, spans, squared'⟩ := ih resting₁ inside₁ others squared₁
    refine ⟨⟨op, c, answer, c₁⟩ :: calls, c', ?_, spans.cons balances, ?_⟩
    · simp only [callAll, called, ran, bind, Except.bind, pure, Except.pure]
    · rwa [List.flatMap_cons, ← List.append_assoc]

theorem new_counts {device : Device m n} {config : CacheSetup} {c : Cache config.slots m n}
    (made : Cache.new device config = .ok c) :
    c.counts = {} ∧ c.directory.residents = [] ∧ ∀ s, (c.slotAt s).unsaved = none := by
  unfold Cache.new at made
  split at made
  case isFalse => cases made
  case isTrue =>
    cases made
    refine ⟨rfl, ?_, fun s => ?_⟩
    · simp [Directory.residents, Directory.empty]
    · simp [slotAt, Slot.unsaved]

/-- What the counters of a cache say of the calls that were made to it since it was new. -/
structure Accounts (calls : List (CacheCall k m n)) (c : Cache k m n) : Prop where
  /-- Each look-up is a hit, a miss, or failed to make room. -/
  lookups : c.counts.hits + c.counts.misses + (calls.flatMap CacheCall.failedEvictions).length =
    calls.countP CacheCall.looksUp
  writebacks : c.counts.writebacks = (calls.flatMap CacheCall.traffic).countP IoCall.stored
  /-- Each block that was given a slot is there, or was evicted, or could not be loaded. -/
  residents : c.directory.residents.length + c.counts.evictions +
      (calls.flatMap CacheCall.traffic).countP IoCall.loadFailed =
    c.counts.misses + (calls.flatMap CacheCall.failedEvictions).length
  misses : c.counts.misses = calls.countP CacheCall.missed
  /-- The device is read for a miss whose block is not written whole, once, and for nothing else. -/
  loads : ∀ call ∈ calls, call.traffic.filterMap IoCall.loaded? = call.fill
  /-- A block that the device is called to store was written, and not stored since. -/
  stores : ∀ before after b failed,
    calls.flatMap CacheCall.marks = before ++ .called ⟨.write, b, failed⟩ :: after → Due before b
  between : ∀ before between after b,
    calls.flatMap CacheCall.marks = before ++ .called ⟨.write, b, false⟩ ::
      (between ++ .called ⟨.write, b, false⟩ :: after) → .wrote b ∈ between

/-- **The counters account for all traffic.** Whatever the settings of a cache, its device and the
device calls that fail, calls in range that are made one after another all come back, and the
counters are those of the calls. -/
theorem new_accounts (config : CacheSetup) (slots : 0 < config.slots) (device : Device m n)
    (ops : List Operation) (inRange : ∀ op ∈ ops, op.InRange m n) :
    ∃ (c : Cache config.slots m n) (calls : List (CacheCall config.slots m n))
      (c' : Cache config.slots m n),
      Cache.new device config = .ok c ∧ c.callAll ops = .ok (calls, c') ∧ Accounts calls c' := by
  obtain ⟨c, made⟩ : ∃ c, Cache.new device config = .ok c :=
    ⟨_, by rw [Cache.new, dif_pos slots]⟩
  obtain ⟨resting, -, locks, -⟩ := resting_new made
  obtain ⟨counts, residents, saved⟩ := new_counts made
  have inside : ∀ i, c.lockAt i ≠ .outside := fun i => by rw [locks i]; decide
  have squared : Squared [] c.Owes := squared_nil fun b owes => by
    obtain ⟨s, unsaved⟩ := owes
    rw [saved s] at unsaved
    cases unsaved
  obtain ⟨calls, c', ran, spans, squared'⟩ := callAll_spans resting inside inRange squared
  rw [List.nil_append] at squared'
  refine ⟨c, calls, c', made, ran, ?_⟩
  exact {
    lookups := by simpa [counts] using spans.lookups
    writebacks := by simpa [counts] using spans.writebacks
    residents := by simpa [counts, residents] using spans.residents
    misses := by simpa [counts] using spans.misses
    loads := spans.loads
    stores := fun _ _ _ _ => squared'.stores
    between := fun _ _ _ _ => squared'.wrote_between }

/-- One slot, and a device of which the calls 0 and 2 fail: block 0 is written, then block 1 fails
to take its slot, then it takes it and fails to load; at last it is loaded. -/
theorem new_accounts_one_slot :
    0 < 1 ∧
    (∀ op ∈ [Operation.write 0 0 [8], .read 1 0 1, .read 1 0 1, .read 1 0 1], op.InRange 2 1) ∧
    ∃ (c c' : Cache 1 2 1) (calls : List (CacheCall 1 2 1)),
      Cache.new { Device.filled 2 1 7 with fails := fun number _ _ => number % 2 == 0 }
        { slots := 1, policy := .clock } = .ok c ∧
      c.callAll [.write 0 0 [8], .read 1 0 1, .read 1 0 1, .read 1 0 1] = .ok (calls, c') ∧
      (c'.counts.hits, c'.counts.misses, c'.counts.evictions, c'.counts.writebacks) = (0, 3, 2, 1) ∧
      Accounts calls c' := by
  have inRange : ∀ op ∈ [Operation.write 0 0 [8], .read 1 0 1, .read 1 0 1, .read 1 0 1],
      op.InRange 2 1 := by
    simp [Operation.InRange]
  obtain ⟨c₀, calls₀, last, made₀, ran₀, counts⟩ :
      ∃ (c : Cache 1 2 1) (calls : List (CacheCall 1 2 1)) (c' : Cache 1 2 1),
      Cache.new { Device.filled 2 1 7 with fails := fun number _ _ => number % 2 == 0 }
        { slots := 1, policy := .clock } = .ok c ∧
      c.callAll [.write 0 0 [8], .read 1 0 1, .read 1 0 1, .read 1 0 1] = .ok (calls, c') ∧
      (c'.counts.hits, c'.counts.misses, c'.counts.evictions, c'.counts.writebacks) =
        (0, 3, 2, 1) :=
    ⟨_, _, _, rfl, rfl, rfl⟩
  obtain ⟨c, calls, c', made, ran, accounts⟩ :=
    new_accounts { slots := 1, policy := .clock } (by decide)
    { Device.filled 2 1 7 with fails := fun number _ _ => number % 2 == 0 } _ inRange
  obtain rfl := Except.ok.inj (made₀.symm.trans made)
  obtain ⟨rfl, rfl⟩ := Prod.mk.inj (Except.ok.inj (ran₀.symm.trans ran))
  exact ⟨by decide, inRange, c₀, last, calls₀, made, ran, counts, accounts⟩

end Cache

end SectorFs
