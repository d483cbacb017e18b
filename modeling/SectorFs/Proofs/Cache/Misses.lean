/-
# SectorFs.Proofs.Cache.Misses — what a failed miss leaves behind

A block without a slot is given one, and the block that was there is stored
first if it was written. Each of the two device calls can fail. When storing
fails, everything is as it was: the slot has its old block, which is still to be
stored (`Cache.StoreFailed`). When loading fails, the slot has no block any more,
and what it had is on the device (`Cache.LoadFailed`). No other slot changes in
either case (`failed_miss_leaves`).

`Task.Misses c₀ b t c` says how a task stands that looks for block `b`, with
`c₀` the cache at its start. Every step keeps it (`Misses.step`), so a run ends
in it (`Misses.run`), and at an error it is one of the two outcomes.
-/
import SectorFs.Proofs.Cache.Clock
import SectorFs.Proofs.Cache.Durability
import SectorFs.Proofs.Cache.Interleaving

namespace SectorFs

set_option autoImplicit false

variable {k m n : Nat}

/-- The block that an operation is about. -/
def Operation.block? : Operation → Option Nat
  | .read block _ _ | .write block _ _ | .prefetch block => some block
  | .flush | .size => none

namespace Device

variable {d d' : Device m n} {b : Fin m} {data : Block n}

/-- Of a write that fails the device has the record only. -/
theorem eq_record_of_write (written : d.write b data = (false, d')) : d' = d.record .write b := by
  unfold write at written
  split at written <;> cases written
  rfl

theorem eq_record_of_read (loaded : d.read b = (none, d')) : d' = d.record .read b := by
  unfold read at loaded
  split at loaded <;> cases loaded
  rfl

theorem calls_of_write (written : d.write b data = (true, d')) :
    d'.calls = ⟨.write, b, false⟩ :: d.calls := by
  obtain ⟨works, -, -⟩ := write_true written
  unfold write at written
  split at written <;> cases written
  simp only [record, works]

theorem calls_record {kind : IoKind} (fails : d.failsNext kind b = true) :
    (d.record kind b).calls = ⟨kind, b, true⟩ :: d.calls := by
  simp only [record, fails]

end Device

namespace Directory

theorem mem_residents (d : Directory k m) (b : Fin m) :
    b ∈ d.residents ↔ ∃ s, (d.entries.get s).resident = some b := by
  unfold residents
  rw [List.mem_filterMap]
  constructor
  · rintro ⟨e, mem, resident⟩
    obtain ⟨i, h, rfl⟩ := List.getElem_of_mem mem
    exact ⟨⟨i, by simpa using h⟩, resident⟩
  · rintro ⟨s, resident⟩
    exact ⟨_, Vector.mem_toList_iff.2 (Vector.getElem_mem s.isLt), resident⟩

/-- Directories that give every slot to the same block have the same list of blocks. -/
theorem residents_congr {d d' : Directory k m}
    (same : ∀ s, (d'.entries.get s).resident = (d.entries.get s).resident) :
    d'.residents = d.residents := by
  have mapped : d'.entries.toList.map Entry.resident = d.entries.toList.map Entry.resident := by
    apply List.ext_getElem
    · simp
    · intro i h h'
      rw [List.getElem_map, List.getElem_map]
      exact same ⟨i, by simpa using h⟩
  have through (entries : List (Entry m)) :
      entries.filterMap Entry.resident = (entries.map Entry.resident).filterMap id := by
    rw [List.filterMap_map]
    rfl
  rw [residents, residents, through, through, mapped]

end Directory

/-! ## Calls and their runs -/

namespace Cache

/-- A call that answered ran its task to the end. -/
theorem run_of_call {c c' : Cache k m n} {op : Operation} {answer : Answer m}
    (called : c.call op = .ok (answer, c')) :
    ∃ t : Task k m, op.start n = .ok t ∧ t.run (steps k) c = (.done answer, c') := by
  unfold call at called
  cases start : (op.start n : Except Violation (Task k m)) with
  | error v => rw [start] at called; cases called
  | ok t =>
    refine ⟨t, rfl, ?_⟩
    simp only [start, bind, Except.bind] at called
    generalize t.run (steps k) c = result at called ⊢
    obtain ⟨t', c₁⟩ := result
    cases t' <;> cases called
    rfl

end Cache

namespace Task

/-- An operation on a block starts by looking for it; the others go through the slots, or are through
at once. -/
theorem cases_of_start {op : Operation} {t : Task k m} (start : op.start n = .ok t) :
    (∃ b : Fin m, op.block? = some b.val ∧ (t = .probe b ∨ ∃ use, t = .seek ⟨b, use⟩)) ∨
      (∀ b : Fin m, op.block? ≠ some b.val) ∧ (t = .visit 0 ∨ t = .done (.ok [])) := by
  cases Operation.starts start with
  | read b inside | write b inside => exact .inl ⟨b, rfl, .inr ⟨_, rfl⟩⟩
  | prefetch b => exact .inl ⟨b, rfl, .inl rfl⟩
  | beyond outside =>
    refine .inr ⟨fun b same => ?_, .inr rfl⟩
    cases same
    exact Nat.not_le_of_lt b.isLt outside
  | flush => exact .inr ⟨fun _ => (Option.some_ne_none _).symm, .inl rfl⟩
  | size => exact .inr ⟨fun _ => (Option.some_ne_none _).symm, .inr rfl⟩

theorem of_block {op : Operation} {t : Task k m} {b : Fin m} (start : op.start n = .ok t)
    (about : op.block? = some b.val) : t = .probe b ∨ ∃ use, t = .seek ⟨b, use⟩ := by
  rcases cases_of_start start with ⟨b', about', looks⟩ | ⟨none, -⟩
  · obtain rfl : b = b' := Fin.ext (Option.some.inj (about.symm.trans about'))
    exact looks
  · exact absurd about (none b)

end Task

namespace Cache

/-! ## The two outcomes -/

/-- What is left of `c` when a miss fails to store the block `old` of a slot: every slot as it was,
`old` still to be stored, and of the call the record only. -/
structure StoreFailed (c : Cache k m n) (old : Fin m) (c' : Cache k m n) : Prop where
  same (i : Fin k) : SameAt c c' i
  victim : ∃ s data, c.slotAt s = .dirty old data
  fails : c.device.failsNext .write old = true
  device : c'.device = c.device.record .write old

/-- What is left of `c` when a miss has taken slot `s` and fails to load block `b`: the slot has
nothing, the block that it had is on the device as it was last seen, and all else is as it was. -/
structure LoadFailed (c : Cache k m n) (b : Fin m) (s : Fin k) (c' : Cache k m n) : Prop where
  slot : c'.slotAt s = .unused
  resident : c'.residentAt s = none
  evicting : c'.evictingAt s = none
  lock : c'.lockAt s = c.lockAt s
  others {i : Fin k} : i ≠ s → SameAt c c' i
  stored {old : Fin m} : c.Names s old → c'.device.blocks.get old = c.content old
  blocks {b' : Fin m} : ¬ c.Names s b' → c'.device.blocks.get b' = c.device.blocks.get b'
  calls : c'.device.calls = ⟨.read, b, true⟩ ::
    ((c.slotAt s).unsaved.map fun old => ⟨.write, old, false⟩).toList ++ c.device.calls

/-- What an error of a miss of block `b` leaves of `c`. -/
def MissFailed (c : Cache k m n) (b : Fin m) (e : DeviceError m) (c' : Cache k m n) : Prop :=
  match e.kind with
  | .write => StoreFailed c e.block c'
  | .read => e.block = b ∧ ∃ s, LoadFailed c b s c'

/-! ## On the way -/

/-- Slot `s` is taken, and its block `old` is about to be stored. -/
structure Storing (c₀ : Cache k m n) (s : Fin k) (old : Fin m) (c : Cache k m n) : Prop where
  others {i : Fin k} : i ≠ s → SameAt c₀ c i
  lock : c₀.lockAt s = .free
  dirty : ∃ data, c₀.slotAt s = .dirty old data
  slot : c.slotAt s = c₀.slotAt s
  device : c.device = c₀.device

/-- Slot `s` is taken, and the device has what it had. -/
structure Emptied (c₀ : Cache k m n) (s : Fin k) (c : Cache k m n) : Prop where
  others {i : Fin k} : i ≠ s → SameAt c₀ c i
  lock : c₀.lockAt s = .free
  stored {old : Fin m} : c₀.Names s old → c.device.blocks.get old = c₀.content old
  blocks {b : Fin m} : ¬ c₀.Names s b → c.device.blocks.get b = c₀.device.blocks.get b
  calls : c.device.calls =
    ((c₀.slotAt s).unsaved.map fun old => ⟨.write, old, false⟩).toList ++ c₀.device.calls

end Cache

namespace Task

open Cache

/-- How a task stands that looks for block `b`, which had no slot in `c₀`. -/
def Misses (c₀ : Cache k m n) (b : Fin m) (t : Task k m) (c : Cache k m n) : Prop :=
  match t with
  | .probe b' => b' = b ∧ c = c₀
  | .seek a => a.block = b ∧ c = c₀
  | .storing a s old => a.block = b ∧ Storing c₀ s old c
  | .loading a s => a.block = b ∧ Emptied c₀ s c ∧ c.slotAt s = .unused
  | .done (.ok _) => True
  | .done (.error e) => MissFailed c₀ b e c
  | .awaitHit _ _ | .awaitSlot _ _ | .visit _ | .flushing _ _ | .halted _ => False

variable {c₀ c c' : Cache k m n} {b : Fin m} {t t' : Task k m}

/-- A failure is put right at its slot only. -/
theorem sameAt_fail (c : Cache k m n) {s i : Fin k} (ne : i ≠ s) (device : Device m n)
    (e : Entry m) (kind : IoKind) (b : Fin m) :
    SameAt c (fail kind b s ({ c with device }.setEntry s e)).2 i := by
  have entry := sameAt_setEntry { c with device } ne e
  exact (sameAt_withDevice c device i).trans (entry.trans (sameAt_setLock _ ne .free))

/-- With its old block on the device a slot can be filled. -/
theorem Misses.of_load {a : Access m} {s : Fin k} (block : a.block = b)
    (emptied : Emptied c₀ s c) : (load a s c).1.Misses c₀ b (load a s c).2 := by
  unfold load
  split
  · trivial
  · refine ⟨block, ⟨fun ne => ?_, emptied.lock, emptied.stored, emptied.blocks, emptied.calls⟩, ?_⟩
    · exact (emptied.others ne).trans ((sameAt_countMiss c _).trans (sameAt_setSlot _ ne _))
    · simp

/-- A slot with nothing to store has nothing that the device does not have. -/
theorem emptied_of_takes {s : Fin k} (coherent : c₀.Coherent)
    (takes : Takes c₀ b ⟨s, none⟩ c) : Emptied c₀ s c where
  others := takes.same
  lock := takes.wasFree
  stored names := by
    rw [content_of_names coherent names, view_of_saved coherent takes.unsaved.symm, takes.device]
  blocks _ := by rw [takes.device]
  calls := by
    rw [← takes.unsaved, takes.device]
    rfl

theorem Misses.of_seek {a : Access m} (coherent : c₀.Coherent) (free : ∀ i, c₀.lockAt i = .free)
    (absent : ∀ i, ¬ c₀.Names i b) (block : a.block = b) :
    (seekStep a c₀).1.Misses c₀ b (seekStep a c₀).2 := by
  subst block
  have result := takeSlot_spec coherent a.block
  have seeks := seeks a c₀
  generalize seekStep a c₀ = ends at seeks ⊢
  cases seeks with
  | @hit s found | @strange s found | @locked s found =>
    exact absurd (.inl (Directory.find_resident found)) (absent s)
  | @evicting s found => exact absurd (.inr (Directory.find_evicting found)) (absent s)
  | full _ taken => exact absurd (congrArg Prod.fst taken) (takeSlot_ne_none coherent free a.block)
  | clean _ taken =>
    rw [taken] at result
    exact .of_load rfl (emptied_of_takes coherent result)
  | dirty _ taken =>
    rw [taken] at result
    have dirty := Slot.dirty_of_unsaved result.unsaved.symm
    exact ⟨rfl, result.same, result.wasFree, dirty, result.slot, result.device⟩

/-- Storing the old block either brings it to the device or puts everything back. -/
theorem Misses.of_store {a : Access m} {s : Fin k} {old : Fin m} (coherent : c₀.Coherent)
    (misses : (Task.storing a s old).Misses c₀ b c) :
    (storeStep a s old c).1.Misses c₀ b (storeStep a s old c).2 := by
  obtain ⟨block, storing⟩ := misses
  obtain ⟨data, dirty⟩ := storing.dirty
  have data_eq : (c.slots.get s).data = data := by
    change (c.slotAt s).data = data
    rw [storing.slot, dirty]
    rfl
  have stands := coherent.stands s
  rw [dirty, storing.lock] at stands
  obtain ⟨resident, evicting⟩ := stands.of_dirty (by decide)
  unfold storeStep
  split
  case h_1 device written =>
    have failed := (Device.write_false written).1
    obtain rfl := Device.eq_record_of_write written
    rw [storing.device] at failed
    refine ⟨fun i => ?_, ⟨s, data, dirty⟩, failed, ?_⟩
    · by_cases same : i = s
      · subst same
        constructor
        · rw [resident]
          simp [fail, Entry.holding]
        · rw [evicting]
          simp [fail, Entry.holding]
        · rw [storing.lock]
          simp [fail]
        · exact storing.slot
      · exact (storing.others same).trans (sameAt_fail c same _ _ _ _)
    · rw [← storing.device]
      rfl
  case h_2 device written =>
    have calls := Device.calls_of_write written
    obtain ⟨-, blocks, -⟩ := Device.write_true written
    rw [data_eq, storing.device] at blocks
    rw [storing.device] at calls
    refine .of_load block ⟨fun ne => ?_, storing.lock, fun {old'} names => ?_, fun {b'} unnamed => ?_, ?_⟩
    · refine (storing.others ne).trans ((sameAt_withDevice c device _).trans ?_)
      exact (sameAt_countWriteback _ _).trans (sameAt_setEntry _ ne _)
    · -- the slot is named for the block that was stored and for no other
      obtain rfl : old = old' := by simpa [Names, resident, evicting] using names
      change device.blocks.get old = _
      rw [blocks, get_set, if_pos rfl, content_of_dirty coherent dirty]
    · have other : b' ≠ old := fun same => unnamed (.inl (same ▸ resident))
      change device.blocks.get b' = _
      rw [blocks, get_set, if_neg other]
    · rw [dirty]
      exact calls

/-- Loading either ends well or leaves the slot empty. -/
theorem Misses.of_loadStep {a : Access m} {s : Fin k}
    (misses : (Task.loading a s).Misses c₀ b c) :
    (loadStep a s c).1.Misses c₀ b (loadStep a s c).2 := by
  obtain ⟨rfl, emptied, slot⟩ := misses
  unfold loadStep
  split
  case h_1 device loaded =>
    have failed := (Device.read_none loaded).1
    obtain rfl := Device.eq_record_of_read loaded
    refine ⟨rfl, s, slot, ?_, ?_, ?_, fun {i} ne => ?_, emptied.stored, emptied.blocks, ?_⟩
    · simp [fail]
    · simp [fail]
    · rw [emptied.lock]
      simp [fail]
    · exact (emptied.others ne).trans (sameAt_fail c ne _ _ _ _)
    · rw [List.cons_append, ← emptied.calls]
      exact Device.calls_record failed
  case h_2 => trivial

/-- Every step of a miss is on the way to one of the outcomes. -/
theorem Misses.step (coherent : c₀.Coherent) (free : ∀ i, c₀.lockAt i = .free)
    (absent : ∀ i, ¬ c₀.Names i b) (misses : t.Misses c₀ b c)
    (step : t.step c = some (t', c')) : t'.Misses c₀ b c' := by
  cases steps_of_step step with
  | absent =>
    obtain ⟨rfl, rfl⟩ := misses
    exact ⟨rfl, rfl⟩
  | present => trivial
  | seek a =>
    obtain ⟨block, rfl⟩ := misses
    exact .of_seek coherent free absent block
  | store a s old => exact .of_store coherent misses
  | load a s => exact .of_loadStep misses
  | hit | lost | awake | passed | unsaved | through | flush => exact misses.elim

theorem Misses.run (coherent : c₀.Coherent) (free : ∀ i, c₀.lockAt i = .free)
    (absent : ∀ i, ¬ c₀.Names i b) (misses : t.Misses c₀ b c) (steps : Nat) :
    (t.run steps c).1.Misses c₀ b (t.run steps c).2 := by
  induction steps generalizing t c with
  | zero => exact misses
  | succ steps ih =>
    unfold Task.run
    split
    case h_1 => exact misses
    case h_2 stepped => exact ih (misses.step coherent free absent stepped)

end Task

namespace Cache

/-- A block that no slot has is not in the list, before and after. -/
theorem MissFailed.absent {c c' : Cache k m n} {b : Fin m} {e : DeviceError m}
    (absent : b ∉ c.directory.residents) (failed : MissFailed c b e c') :
    b ∉ c'.directory.residents := by
  rw [Directory.mem_residents] at absent ⊢
  rintro ⟨i, resident⟩
  change c'.residentAt i = some b at resident
  have same (h : SameAt c c' i) : False := absent ⟨i, h.resident.symm.trans resident⟩
  obtain ⟨kind, block⟩ := e
  cases kind with
  | write => exact same (failed.same i)
  | read =>
    obtain ⟨-, s, failed⟩ := failed
    by_cases here : i = s
    · rw [here, failed.resident] at resident
      cases resident
    · exact same (failed.others here)

/-- **What a failed miss leaves behind.** An operation on a block that has no slot, while no lock
is held, answers with the device call that failed. If that was storing the block of the slot that
was taken, every slot and the list of blocks are as they were. If it was loading, one slot has lost
its block to the device and every other one is as it was. The block has no slot in either case. -/
theorem failed_miss_leaves {c c' : Cache k m n} (reachable : c.Reachable)
    (free : ∀ i, c.lockAt i = .free) {op : Operation} {b : Fin m} (about : op.block? = some b.val)
    (absent : b ∉ c.directory.residents) {e : DeviceError m}
    (called : c.call op = .ok (.error e, c')) :
    b ∉ c'.directory.residents ∧ c'.directory.policy = c.directory.policy ∧
      c'.device.fails = c.device.fails ∧ c'.content = c.content ∧
      c'.device.calls.head? = some ⟨e.kind, e.block, true⟩ ∧
      match e.kind with
      | .write => StoreFailed c e.block c' ∧ c'.directory.residents = c.directory.residents
      | .read => e.block = b ∧ ∃ s, LoadFailed c b s c' := by
  have coherent := reachable.resting.coherent
  obtain ⟨t, start, ran⟩ := run_of_call called
  have started := (reachable.resting.shared (.ok []) (.ok [])).start start
  have unnamed (i : Fin k) : ¬ c.Names i b := by
    rintro (resident | evicting)
    · exact absent ((Directory.mem_residents _ _).2 ⟨i, resident⟩)
    · rw [evicting_of_idle coherent (reachable.resting.idle i)] at evicting
      cases evicting
  have misses : t.Misses c b c := by
    rcases Task.of_block start about with rfl | ⟨use, rfl⟩
    · exact ⟨rfl, rfl⟩
    · exact ⟨rfl, rfl⟩
  have failed := misses.run coherent free unnamed (steps k)
  have policy := Task.policy_run (steps k) t c
  have fails := (Task.run_keeps (steps k) started).1
  have content := ((reachable.resting.shared (.ok []) (.ok [])).operation start (steps k)).2
  rw [ran] at failed policy fails content
  change MissFailed c b e c' at failed
  refine ⟨failed.absent absent, policy, fails, content, ?_, ?_⟩
  · obtain ⟨kind, block⟩ := e
    cases kind with
    | write =>
      rw [failed.device, Device.calls_record failed.fails]
      rfl
    | read =>
      obtain ⟨rfl, s, failed⟩ := failed
      rw [failed.calls]
      rfl
  · obtain ⟨kind, block⟩ := e
    cases kind with
    | write => exact ⟨failed, Directory.residents_congr fun i => (failed.same i).resident⟩
    | read => exact failed

/-- Block 0 has the only slot and was written. It makes room for block 1, which cannot be read; and
it cannot be stored, so that it makes no room for block 1. -/
theorem failed_miss_leaves_one_slot :
    (∃ c c' : Cache 1 2 1, c.slotAt 0 = .dirty 0 (Block.filled 1 8) ∧
      c.call (.read 1 0 1) = .ok (.error ⟨.read, 1⟩, c') ∧ 1 ∉ c'.directory.residents ∧
      ∃ s, LoadFailed c 1 s c') ∧
    ∃ c c' : Cache 1 2 1, c.slotAt 0 = .dirty 0 (Block.filled 1 8) ∧
      c.call (.read 1 0 1) = .ok (.error ⟨.write, 0⟩, c') ∧ 1 ∉ c'.directory.residents ∧
      StoreFailed c 0 c' ∧ c'.directory.residents = [0] := by
  constructor
  · obtain ⟨c, c', c'', made, wrote, free, listed, slot, called⟩ : ∃ c c' c'' : Cache 1 2 1,
        Cache.new { Device.filled 2 1 7 with fails := fun _ kind _ => decide (kind = .read) }
          { slots := 1, policy := .clock } = .ok c ∧
        c.call (.write 0 0 [8]) = .ok (.ok [], c') ∧ c'.lockAt 0 = .free ∧
        c'.directory.residents = [0] ∧ c'.slotAt 0 = .dirty 0 (Block.filled 1 8) ∧
        c'.call (.read 1 0 1) = .ok (.error ⟨.read, 1⟩, c'') :=
      ⟨_, _, _, rfl, rfl, rfl, rfl, rfl, rfl⟩
    have reachable : c'.Reachable := .history (.new made) (.of_call .start wrote)
    obtain ⟨absent, -, -, -, -, -, failed⟩ := failed_miss_leaves reachable
      (fun i => by rw [Subsingleton.elim i 0, free]) (b := 1) rfl (by rw [listed]; decide) called
    exact ⟨c', c'', slot, called, absent, failed⟩
  · obtain ⟨c, c', c'', made, wrote, free, listed, slot, called⟩ : ∃ c c' c'' : Cache 1 2 1,
        Cache.new { Device.filled 2 1 7 with fails := fun _ kind _ => decide (kind = .write) }
          { slots := 1, policy := .clock } = .ok c ∧
        c.call (.write 0 0 [8]) = .ok (.ok [], c') ∧ c'.lockAt 0 = .free ∧
        c'.directory.residents = [0] ∧ c'.slotAt 0 = .dirty 0 (Block.filled 1 8) ∧
        c'.call (.read 1 0 1) = .ok (.error ⟨.write, 0⟩, c'') :=
      ⟨_, _, _, rfl, rfl, rfl, rfl, rfl, rfl⟩
    have reachable : c'.Reachable := .history (.new made) (.of_call .start wrote)
    obtain ⟨absent, -, -, -, -, failed, same⟩ := failed_miss_leaves reachable
      (fun i => by rw [Subsingleton.elim i 0, free]) (b := 1) rfl (by rw [listed]; decide) called
    exact ⟨c', c'', slot, called, absent, failed, same.trans listed⟩

end Cache

end SectorFs
