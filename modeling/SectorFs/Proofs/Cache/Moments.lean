/-
# SectorFs.Proofs.Cache.Moments — the directory at every moment of a run

`Cache.Moment c t u` says that two threads can stand at `t` and `u` with the
cache as in `c`: from a new cache on, a thread that is through starts its next
operation, a thread takes a step, or the lock of a slot that no operation has
locked is taken or given up from outside. The threads may take turns at every
step, so the moments between two operations and the moment of every device call
are among them, and so is whatever the runs of the model pass through
(`Reachable.moment`, `Moment.run`, `Moment.work`, `Moment.runBeside`).

While a device call is under way the directory is ahead of the slot: it names
the block to come, and the one that is still to be stored. `Cache.Orderly` says
what holds all the same. No block is named twice anywhere, and of every slot
that neither operation has locked the directory says what the slot has
(`orderly_of_moment`). All of it is read off `Shared`, which every step keeps.
-/
import SectorFs.Proofs.Cache.Interleaving
import Mathlib.Data.List.Nodup

namespace SectorFs

set_option autoImplicit false

variable {k m n : Nat}

/-- The blocks that the directory names a slot for. -/
def Entry.named (e : Entry m) : List (Fin m) := e.resident.toList ++ e.evicting.toList

/-- The blocks that a directory names, slot by slot. -/
def Directory.named (d : Directory k m) : List (Fin m) := d.entries.toList.flatMap Entry.named

/-- The blocks with a slot are among those that the directory names. -/
theorem Directory.residents_sublist (d : Directory k m) : d.residents.Sublist d.named := by
  unfold residents named
  induction d.entries.toList with
  | nil => exact .slnil
  | cons e rest ih =>
    rw [List.flatMap_cons, Entry.named]
    cases resident : e.resident with
    | none =>
      rw [List.filterMap_cons_none resident]
      exact ih.trans (List.sublist_append_right _ _)
    | some b =>
      rw [List.filterMap_cons_some resident]
      exact (ih.trans (List.sublist_append_right _ _)).cons_cons b

namespace Cache

/-- Two threads can stand at `t` and `u` with the cache as in `c`. Device calls may fail as the
device likes. -/
inductive Moment {m n : Nat} : {k : Nat} → Cache k m n → Task k m → Task k m → Prop where
  | new {device : Device m n} {config : CacheSetup} {c : Cache config.slots m n}
      (r r' : Answer m) : Cache.new device config = .ok c → Moment c (.done r) (.done r')
  | start {k : Nat} {c : Cache k m n} {t u : Task k m} {r : Answer m} (op : Operation) :
      Moment c (.done r) u → op.start n = .ok t → Moment c t u
  | step {k : Nat} {c c' : Cache k m n} {t t' u : Task k m} :
      Moment c t u → t.step c = some (t', c') → Moment c' t' u
  | swap {k : Nat} {c : Cache k m n} {t u : Task k m} : Moment c t u → Moment c u t
  /-- A lock is taken or given up from outside. -/
  | relock {k : Nat} {c : Cache k m n} {t u : Task k m} {s : Fin k} (lock : SlotLock) :
      Moment c t u → c.lockAt s ≠ .busy → lock ≠ .busy → Moment (c.setLock s lock) t u

/-! ## The invariant at every moment -/

/-- What two operations have locked is not touched from outside. -/
theorem Shared.relock {c : Cache k m n} {t u : Task k m} (shared : c.Shared t u) {s : Fin k}
    (idle : c.lockAt s ≠ .busy) (lock : SlotLock) (idle' : lock ≠ .busy) :
    (c.setLock s lock).Shared t u := by
  obtain ⟨alike, coherent, -⟩ := shared.coherent.relock idle lock idle'
  have kept {v : Task k m} (fits : v.Fits c) : v.Fits (c.setLock s lock) :=
    fits.of_same fun i slot => alike.same fun same => idle (same ▸ fits.busy slot)
  refine ⟨coherent, kept shared.fits, kept shared.fits', shared.within, shared.within',
    shared.apart, fun {i} busy => shared.owned ?_⟩
  rw [lockAt_setLock] at busy
  split at busy
  · exact absurd busy idle'
  · exact busy

theorem Moment.shared {c : Cache k m n} {t u : Task k m} (moment : Moment c t u) :
    c.Shared t u := by
  induction moment with
  | new r r' made => exact (resting_new made).1.shared r r'
  | start _ _ start ih => exact ih.start start
  | step _ step ih => exact (ih.step step).1
  | swap _ ih => exact ih.symm
  | relock lock _ idle idle' ih => exact ih.relock idle lock idle'

/-! ## The runs of the model -/

namespace Moment

variable {c c' : Cache k m n} {t u : Task k m}

/-- Asking for the size takes no step, so what a thread answered last does not matter. -/
theorem idle {r : Answer m} (moment : Moment c (.done r) u) : Moment c (.done (.ok [])) u :=
  moment.start .size rfl

theorem run (moment : Moment c t u) (steps : Nat) :
    Moment (t.run steps c).2 (t.run steps c).1 u := by
  induction steps generalizing t c with
  | zero => exact moment
  | succ steps ih =>
    unfold Task.run
    split
    case h_1 => exact moment
    case h_2 stepped => exact ih (moment.step stepped)

/-- A thread that works off operations beside `t` ends at a moment of the run. -/
theorem work {ops : List Operation} {answers : List (Answer m)} {w : Worker k m} {r : Answer m}
    (moment : Moment c t (.done r)) (worked : Worker.work ops answers c = .ok (w, c')) :
    Moment c' t w.task := by
  induction ops generalizing answers c r with
  | nil =>
    cases worked
    exact moment.swap.idle.swap
  | cons op ops ih =>
    obtain ⟨u, start, goesOn⟩ := Worker.goesOn_of_work worked
    have after := (moment.swap.start _ start).run (steps k)
    cases goesOn with
    | answered ran worked =>
      rw [ran] at after
      exact ih after.swap worked
    | asleep ran going =>
      rw [ran] at after
      exact after.swap

/-- So does a thread that goes on beside `t`. -/
theorem wake {w w' : Worker k m} (moment : Moment c t w.task) (woken : w.wake c = .ok (w', c')) :
    Moment c' t w'.task := by
  cases asleep : w.asleep with
  | none =>
    simp only [Worker.wake, asleep] at woken
    cases woken
    exact moment
  | some u =>
    rw [Worker.task, asleep] at moment
    have after : Moment (u.run (steps k) c).2 (u.run (steps k) c).1 t := moment.swap.run (steps k)
    cases Worker.goesOn_of_wake asleep woken with
    | answered ran worked =>
      rw [ran] at after
      exact after.swap.work worked
    | asleep ran going =>
      rw [ran] at after
      exact after.swap

theorem runBeside {w w' : Worker k m} {t' : Task k m} (moment : Moment c t w.task) (steps : Nat)
    (ran : t.runBeside steps w c = .ok (t', w', c')) : Moment c' t' w'.task := by
  induction steps generalizing t w c with
  | zero =>
    cases ran
    exact moment
  | succ steps ih =>
    rcases Task.runBeside_cases ran with ⟨rfl, rfl, rfl⟩ | ⟨t₁, c₁, w₁, c₂, stepped, woken, ran⟩
    · exact moment
    · exact ih ((moment.step stepped).wake woken) ran

end Moment

/-- A history passes through moments at which no operation is under way. -/
theorem History.moment {c c' : Cache k m n} {events : List (CacheEvent k m)}
    (moment : Moment c (.done (.ok [])) (.done (.ok []))) (history : c.History events c') :
    Moment c' (.done (.ok [])) (.done (.ok [])) := by
  induction history with
  | start => exact moment
  | @call _ _ _ _ answer steps _ start ends ih =>
    have ran := (ih.start _ start).run steps
    rw [ends] at ran
    exact ran.idle
  | hold s _ ih => exact ih.relock .outside (ih.shared.resting.idle s) (by decide)
  | unhold s _ ih => exact ih.relock .free (ih.shared.resting.idle s) (by decide)

/-- Every cache that one thread or two can reach stands at a moment between two operations. -/
theorem Reachable.moment {c : Cache k m n} (reachable : c.Reachable) :
    Moment c (.done (.ok [])) (.done (.ok [])) := by
  induction reachable with
  | new made => exact .new _ _ made
  | history _ history ih => exact history.moment ih
  | interrupted _ interrupted ih =>
    obtain ⟨t, t', c₁, c₂, w, w', i, steps, start, ran, -, worked, beside, awake, -⟩ :=
      interrupted.through
    have stopped := (ih.start _ start).run i
    rw [ran] at stopped
    have ended := (stopped.work worked).runBeside steps beside
    rw [Worker.task, awake] at ended
    exact ended.idle

/-! ## What holds at every moment -/

/-- Directory, slots and device agree as far as the operations at `t` and `u` let them. -/
structure Orderly (c : Cache k m n) (t u : Task k m) : Prop where
  /-- No block is named twice, as one that a slot has or as one that a slot is storing. -/
  once : c.directory.named.Nodup
  /-- So no block is listed twice as having a slot. -/
  listed : c.directory.residents.Nodup
  /-- A slot that no operation has locked is storing nothing. -/
  stored (s : Fin k) : t.slot? ≠ some s → u.slot? ≠ some s → c.evictingAt s = none
  /-- The directory names such a slot for the block that it has. -/
  resident (s : Fin k) : t.slot? ≠ some s → u.slot? ≠ some s → ∀ b, c.residentAt s = some b ↔
    ∃ data, c.slotAt s = .inUse b data ∨ c.slotAt s = .dirty b data
  /-- If the block was not written, the slot has it as the device has. -/
  clean (s : Fin k) : t.slot? ≠ some s → u.slot? ≠ some s → ∀ b data,
    c.slotAt s = .inUse b data → data = c.device.blocks.get b
  /-- No operation finds another block in a slot that the directory gave to its own. -/
  goes (v : Violation) : t ≠ .halted v ∧ u ≠ .halted v

/-- A slot is storing another block than the one that it is taken for. -/
theorem Stands.named_nodup {blocks : Vector (Block n) m} {e : Entry m} {lock : SlotLock}
    {slot : Slot m n} (stands : Stands blocks e.resident e.evicting lock slot) :
    e.named.Nodup := by
  obtain ⟨resident, evicting, accessed⟩ := e
  cases stands with
  | empty | clean | written | loading => simp [Entry.named]
  | storing b old data ne => simpa [Entry.named] using ne.symm

/-- While no block has two slots the directory names none twice. -/
theorem Coherent.named_nodup {c : Cache k m n} (coherent : c.Coherent) :
    c.directory.named.Nodup := by
  have entry {i : Nat} (hi : i < c.directory.entries.toList.length) :
      ∃ s : Fin k, s.val = i ∧ c.directory.entries.toList[i] = c.directory.entries.get s :=
    ⟨⟨i, by simpa using hi⟩, rfl, by rw [Vector.getElem_toList]; rfl⟩
  have names {s : Fin k} {b : Fin m} (named : b ∈ (c.directory.entries.get s).named) :
      c.Names s b := by
    simpa [Entry.named, Names, residentAt, evictingAt] using named
  rw [Directory.named, List.nodup_flatMap]
  constructor
  · intro e listed
    obtain ⟨i, hi, rfl⟩ := List.mem_iff_getElem.1 listed
    obtain ⟨s, -, at_s⟩ := entry hi
    rw [at_s]
    exact (coherent.stands s).named_nodup
  · refine List.pairwise_iff_getElem.2 fun i j hi hj before b named named' => ?_
    obtain ⟨s, rfl, at_s⟩ := entry hi
    obtain ⟨s', rfl, at_s'⟩ := entry hj
    rw [at_s] at named
    rw [at_s'] at named'
    have same := coherent.distinct (names named) (names named')
    exact absurd before (same ▸ Nat.lt_irrefl _)

/-- What a slot that nobody is busy with has is what the directory says of it. -/
theorem Stands.settled {blocks : Vector (Block n) m} {resident evicting : Option (Fin m)}
    {lock : SlotLock} {slot : Slot m n} (stands : Stands blocks resident evicting lock slot)
    (idle : lock ≠ .busy) :
    evicting = none ∧
      (∀ b, resident = some b ↔ ∃ data, slot = .inUse b data ∨ slot = .dirty b data) ∧
      ∀ b data, slot = .inUse b data → data = blocks.get b := by
  cases stands with
  | empty => simp
  | clean b =>
    refine ⟨rfl, fun b' => ⟨fun same => ?_, fun ⟨data, has⟩ => ?_⟩, fun b' data has => ?_⟩
    · cases same
      exact ⟨_, .inl rfl⟩
    · rcases has with has | has <;> cases has
      rfl
    · cases has
      rfl
  | written b data =>
    refine ⟨rfl, fun b' => ⟨fun same => ?_, fun ⟨data, has⟩ => ?_⟩, nofun⟩
    · cases same
      exact ⟨_, .inr rfl⟩
    · rcases has with has | has <;> cases has
      rfl
  | storing | loading => exact absurd rfl idle

theorem Shared.orderly {c : Cache k m n} {t u : Task k m} (shared : c.Shared t u) :
    c.Orderly t u := by
  have settled (s : Fin k) (ht : t.slot? ≠ some s) (hu : u.slot? ≠ some s) :=
    (shared.coherent.stands s).settled fun busy => (shared.owned busy).elim ht hu
  have once := shared.coherent.named_nodup
  have fits {v : Task k m} (fits : v.Fits c) (why : Violation) : v ≠ .halted why := by
    rintro rfl
    exact fits
  exact {
    once
    listed := once.sublist c.directory.residents_sublist
    stored := fun s ht hu => (settled s ht hu).1
    resident := fun s ht hu => (settled s ht hu).2.1
    clean := fun s ht hu => (settled s ht hu).2.2
    goes := fun v => ⟨fits shared.fits v, fits shared.fits' v⟩ }

/-- **Directory and slots agree**, at every moment of every run of two threads. -/
theorem orderly_of_moment {c : Cache k m n} {t u : Task k m} (moment : Moment c t u) :
    c.Orderly t u :=
  moment.shared.orderly

/-- Block 0 is about to be stored from the one slot to make room for block 1, while another thread
sleeps on that slot to read block 0. -/
theorem orderly_of_moment_storing :
    ∃ (c : Cache 1 2 1) (t u : Task 1 2), Moment c t u ∧ t.slot? = some 0 ∧ u.slot? = none ∧
      c.residentAt 0 = some 1 ∧ c.evictingAt 0 = some 0 ∧ c.Orderly t u := by
  obtain ⟨c, c₁, c₂, c₃, made, wrote, storing, asleep⟩ : ∃ c c₁ c₂ c₃ : Cache 1 2 1,
      Cache.new (Device.filled 2 1 7) { slots := 1, policy := .clock } = .ok c ∧
      (Task.seek ⟨0, .write 0 [8]⟩).step c = some (.done (.ok []), c₁) ∧
      (Task.seek ⟨1, .read 0 1⟩).step c₁ = some (.storing ⟨1, .read 0 1⟩ 0 0, c₂) ∧
      (Task.seek ⟨0, .read 0 1⟩).step c₂ = some (.awaitSlot ⟨0, .read 0 1⟩ 0, c₃) :=
    ⟨_, _, _, _, rfl, rfl, rfl, rfl⟩
  have written := ((Moment.new (.ok []) (.ok []) made).start (.write 0 0 [8]) rfl).step wrote
  have waiting := (written.start (.read 1 0 1) rfl).step storing
  have beside := ((waiting.swap.start (.read 0 0 1) rfl).step asleep).swap
  obtain ⟨-, resident, evicting, -⟩ := beside.shared.fits
  exact ⟨c₃, _, _, beside, rfl, rfl, resident, evicting, orderly_of_moment beside⟩

end Cache

end SectorFs
