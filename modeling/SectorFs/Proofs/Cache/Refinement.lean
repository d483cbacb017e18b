/-
# SectorFs.Proofs.Cache.Refinement — a cache is a plain array of blocks

A history of a cache is a sequence of calls, in between which slot locks may be
taken and given up from outside. A plain array of blocks follows a history by
doing what each call does that answered well, and nothing at the others
(`Contents.follow`). `cache_refines_array`: whatever the settings, the device
and the device calls that fail, the bytes answered are the array's
(`Contents.Serves`) and the content of the cache is the array.

A call may take any number of steps in a history. No step stops a run for good,
and a call returns within the steps of `Cache.call` while no lock is held from
outside.
-/
import SectorFs.Proofs.Cache.Progress

namespace SectorFs

set_option autoImplicit false

variable {k m n : Nat}

/-- What can happen to a cache of `k` slots between two moments at which it rests. -/
inductive CacheEvent (k m : Nat) where
  | called (op : Operation) (answer : Answer m)
  /-- The lock of a slot is taken from outside. -/
  | held (s : Fin k)
  | unheld (s : Fin k)

/-- The arguments lie in the device and within a block. -/
def Operation.InRange (m n : Nat) : Operation → Prop
  | .read block off len => block < m ∧ off + len ≤ n
  | .write block off data => block < m ∧ off + data.length ≤ n
  | .prefetch _ | .flush | .size => True

theorem Operation.exists_start {op : Operation} (inRange : op.InRange m n) :
    ∃ t : Task k m, op.start n = .ok t := by
  cases op with
  | read block off len => exact ⟨_, by rw [start, if_pos inRange.2, seekBlock, dif_pos inRange.1]⟩
  | write block off data => exact ⟨_, by rw [start, if_pos inRange.2, seekBlock, dif_pos inRange.1]⟩
  | prefetch block =>
    by_cases h : block < m
    · exact ⟨_, by rw [start, dif_pos h]⟩
    · exact ⟨_, by rw [start, dif_neg h]⟩
  | flush | size => exact ⟨_, rfl⟩

namespace Cache

/-- `c'` is reached from `c` through the given events. -/
inductive History (c : Cache k m n) : List (CacheEvent k m) → Cache k m n → Prop where
  | start : History c [] c
  | call {events : List (CacheEvent k m)} {c' : Cache k m n} {op : Operation} {t : Task k m}
      {answer : Answer m} (steps : Nat) : History c events c' → op.start n = .ok t →
      (t.run steps c').1 = .done answer →
      History c (events ++ [.called op answer]) (t.run steps c').2
  | hold {events : List (CacheEvent k m)} {c' : Cache k m n} (s : Fin k) :
      History c events c' → History c (events ++ [.held s]) (c'.hold s)
  | unhold {events : List (CacheEvent k m)} {c' : Cache k m n} (s : Fin k) :
      History c events c' → History c (events ++ [.unheld s]) (c'.unhold s)

end Cache

namespace Contents

/-- The array after an event. -/
def after (v : Contents m n) : CacheEvent k m → Contents m n
  | .called op (.ok _) => (op.onContent v).2
  | .called _ (.error _) | .held _ | .unheld _ => v

/-- The array after a history. -/
def follow (v : Contents m n) (events : List (CacheEvent k m)) : Contents m n :=
  events.foldl after v

/-- Every answer of a history that is no error is the array's. -/
def Serves (v : Contents m n) : List (CacheEvent k m) → Prop
  | [] => True
  | .called op (.ok bytes) :: rest =>
      bytes = (op.onContent v).1 ∧ Serves (op.onContent v).2 rest
  | .called _ (.error _) :: rest | .held _ :: rest | .unheld _ :: rest => Serves v rest

theorem follow_append (v : Contents m n) (events : List (CacheEvent k m)) (e : CacheEvent k m) :
    v.follow (events ++ [e]) = (v.follow events).after e := by
  rw [follow, List.foldl_append]
  rfl

theorem serves_append (v : Contents m n) (events : List (CacheEvent k m)) (e : CacheEvent k m) :
    v.Serves (events ++ [e]) ↔ v.Serves events ∧ (v.follow events).Serves [e] := by
  induction events generalizing v with
  | nil => exact ⟨fun h => ⟨trivial, h⟩, And.right⟩
  | cons e' rest ih =>
    cases e' with
    | called op answer =>
      cases answer with
      | ok bytes => exact (and_congr_right' (ih _)).trans and_assoc.symm
      | error e' => exact ih v
    | held s | unheld s => exact ih v

end Contents

namespace Cache

/-- A cache at rest stays so when a lock is taken or given up from outside. -/
theorem Resting.relock {c : Cache k m n} (resting : c.Resting) (s : Fin k) (lock : SlotLock)
    (idle : lock ≠ .busy) :
    (c.setLock s lock).Resting ∧ (c.setLock s lock).content = c.content := by
  obtain ⟨-, coherent, content⟩ := resting.coherent.relock (resting.idle s) lock idle
  refine ⟨⟨coherent, fun i => ?_⟩, content⟩
  rw [lockAt_setLock]
  split
  · exact idle
  · exact resting.idle i

/-- After a history the content is the array's, and so was every answer. -/
theorem History.settles {c c' : Cache k m n} {events : List (CacheEvent k m)}
    (resting : c.Resting) (history : c.History events c') :
    c'.Resting ∧ Contents.Serves c.content events ∧
      c'.content = Contents.follow c.content events := by
  induction history with
  | start => exact ⟨resting, trivial, rfl⟩
  | @call events c' op t answer steps _ start ends ih =>
    obtain ⟨resting, serves, content⟩ := ih
    obtain ⟨after, settles⟩ := (resting.shared (.ok []) (.ok [])).operation start steps
    rw [ends] at after settles
    have answered := settles.answered start
    rw [Contents.serves_append, Contents.follow_append, ← content]
    refine ⟨after.resting, ⟨serves, ?_⟩, ?_⟩
    · cases answer with
      | ok bytes => exact ⟨(congrArg Prod.fst answered).symm, trivial⟩
      | error e => trivial
    · cases answer with
      | ok bytes => exact (congrArg Prod.snd answered).symm
      | error e => exact answered
  | hold s _ ih =>
    obtain ⟨resting, serves, content⟩ := ih
    obtain ⟨resting', content'⟩ := resting.relock s .outside (by decide)
    refine ⟨resting', (Contents.serves_append _ _ _).2 ⟨serves, trivial⟩, ?_⟩
    rw [Contents.follow_append, ← content]
    exact content'
  | unhold s _ ih =>
    obtain ⟨resting, serves, content⟩ := ih
    obtain ⟨resting', content'⟩ := resting.relock s .free (by decide)
    refine ⟨resting', (Contents.serves_append _ _ _).2 ⟨serves, trivial⟩, ?_⟩
    rw [Contents.follow_append, ← content]
    exact content'

/-- A call is an event of a history. -/
theorem History.of_call {c c' c'' : Cache k m n} {events : List (CacheEvent k m)} {op : Operation}
    {answer : Answer m} (history : c.History events c') (called : c'.call op = .ok (answer, c'')) :
    c.History (events ++ [.called op answer]) c'' := by
  unfold Cache.call at called
  cases start : (op.start n : Except Violation (Task k m)) with
  | error v => rw [start] at called; cases called
  | ok t =>
    simp only [start, bind, Except.bind] at called
    have ran : (t.run (steps k) c').1 = .done answer →
        c.History (events ++ [.called op answer]) (t.run (steps k) c').2 :=
      .call (steps k) history start
    generalize t.run (steps k) c' = result at called ran
    obtain ⟨t', c₁⟩ := result
    cases t' <;> cases called
    exact ran rfl

/-- **A cache is a plain array of blocks.** -/
theorem cache_refines_array (config : CacheSetup) (slots : 0 < config.slots)
    (device : Device m n) :
    ∃ c : Cache config.slots m n, Cache.new device config = .ok c ∧
      ∀ events c', c.History events c' →
        Contents.Serves (fun b => device.blocks.get b) events ∧
        c'.content = Contents.follow (fun b => device.blocks.get b) events ∧
        ∀ op, op.InRange m n → ∃ t : Task config.slots m, op.start n = .ok t ∧
          (∀ steps v, (t.run steps c').1 ≠ .halted v) ∧
          ((∀ s, c'.lockAt s = .free) → ∃ answer c'', c'.call op = .ok (answer, c'') ∧
            c.History (events ++ [.called op answer]) c'') := by
  obtain ⟨c, made⟩ : ∃ c, Cache.new device config = .ok c :=
    ⟨_, by rw [Cache.new, dif_pos slots]⟩
  obtain ⟨resting, -, -, content⟩ := resting_new made
  refine ⟨c, made, fun events c' history => ?_⟩
  obtain ⟨resting', serves, follows⟩ := history.settles resting
  rw [content] at serves follows
  refine ⟨serves, follows, fun op inRange => ?_⟩
  obtain ⟨t, start⟩ := Operation.exists_start (k := config.slots) inRange
  refine ⟨t, start, fun steps v halted => ?_, fun free => ?_⟩
  · have fits := ((resting'.shared (.ok []) (.ok [])).operation start steps).1.fits
    rw [halted] at fits
    exact fits
  · obtain ⟨answer, c'', called, -⟩ :=
      call_returns resting' (fun i => by rw [free i]; decide) start
    exact ⟨answer, c'', called, history.of_call called⟩

/-- One slot, and a device that stores nothing. -/
theorem cache_refines_array_one_slot :
    0 < 1 ∧ ∃ c : Cache 1 2 1,
      Cache.new { Device.filled 2 1 7 with fails := fun _ kind _ => decide (kind = .write) }
        { slots := 1, policy := .clock } = .ok c ∧
      ∀ events c', c.History events c' →
        Contents.Serves (fun b => (Device.filled 2 1 7).blocks.get b) events ∧
        c'.content = Contents.follow (fun b => (Device.filled 2 1 7).blocks.get b) events := by
  obtain ⟨c, made, refines⟩ := cache_refines_array { slots := 1, policy := .clock } (by decide)
    { Device.filled 2 1 7 with fails := fun _ kind _ => decide (kind = .write) }
  exact ⟨by decide, c, made, fun events c' history =>
    ⟨(refines events c' history).1, (refines events c' history).2.1⟩⟩

end Cache

end SectorFs
