/-
# SectorFs.Proofs.Cache.Ageing — which block makes room, and when

While no lock is held, a call looks its block up once. It then finds the block,
or gives it a slot that has none, or takes the slot that the hand finds
(`Cache.Places`); nothing after the look-up touches what the hand reads
(`Cache.Keeps`). So a call that is answered well takes at most one slot from its
block, as `Cache.Evicts` says.

A block that nobody uses any more comes nearer with each slot that is taken from
another block (`Directory.lookout`), and its mark is not set again. It is less
than two rounds away to begin with, so it is gone after two rounds
(`clock_ages`).
-/
import SectorFs.Proofs.Cache.Waiting
import SectorFs.Proofs.Cache.Accounts

namespace SectorFs

set_option autoImplicit false

variable {k m n : Nat}

namespace Cache

/-! ## What the hand reads -/

/-- `c'` has in every slot the block and the mark that `c` has, the hand where it is, and took no
slot from a block. -/
structure Keeps (c c' : Cache k m n) : Prop where
  resident (s : Fin k) : c'.residentAt s = c.residentAt s
  marked (s : Fin k) : c'.directory.marked s = c.directory.marked s
  hand : c'.directory.hand = c.directory.hand
  evictions : c'.counts.evictions = c.counts.evictions

theorem Keeps.of_directory {c c' : Cache k m n} (directory : c'.directory = c.directory)
    (evictions : c'.counts.evictions = c.counts.evictions) : Keeps c c' where
  resident s := by rw [residentAt, residentAt, directory]
  marked s := by rw [directory]
  hand := by rw [directory]
  evictions := evictions

theorem Keeps.trans {c c' c'' : Cache k m n} (keeps : Keeps c c') (keeps' : Keeps c' c'') :
    Keeps c c'' where
  resident s := (keeps'.resident s).trans (keeps.resident s)
  marked s := (keeps'.marked s).trans (keeps.marked s)
  hand := keeps'.hand.trans keeps.hand
  evictions := keeps'.evictions.trans keeps.evictions

@[simp] theorem marked_setEntry (c : Cache k m n) (s i : Fin k) (e : Entry m) :
    (c.setEntry s e).directory.marked i = if i = s then e.accessed else c.directory.marked i := by
  simp only [Directory.marked, setEntry, Directory.set, get_set]
  split <;> rfl

/-- That a block has been stored does not matter to the hand. -/
theorem keeps_setEntry (c : Cache k m n) (s : Fin k) (e : Entry m)
    (resident : e.resident = (c.directory.entries.get s).resident)
    (accessed : e.accessed = (c.directory.entries.get s).accessed) : Keeps c (c.setEntry s e) where
  resident i := by
    rw [residentAt_setEntry]
    split
    case isTrue same => rw [resident, same, residentAt]
    case isFalse => rfl
  marked i := by
    rw [marked_setEntry]
    split
    case isTrue same => rw [accessed, same, Directory.marked]
    case isFalse => rfl
  hand := rfl
  evictions := rfl

/-- In `c'` slot `s` is given to block `b` and marked, and all else is as in `d`. -/
structure Gives (d : Directory k m) (s : Fin k) (b : Fin m) (c' : Cache k m n) : Prop where
  resident (i : Fin k) : c'.residentAt i = if i = s then some b else (d.entries.get i).resident
  marked (i : Fin k) : c'.directory.marked i = if i = s then true else d.marked i
  hand : c'.directory.hand = d.hand

theorem Gives.keeps {d : Directory k m} {s : Fin k} {b : Fin m} {c c' : Cache k m n}
    (gives : Gives d s b c) (keeps : Keeps c c') : Gives d s b c' where
  resident i := (keeps.resident i).trans (gives.resident i)
  marked i := (keeps.marked i).trans (gives.marked i)
  hand := keeps.hand.trans gives.hand

/-- What a look-up of block `b` does to what the hand reads. -/
inductive Places (c : Cache k m n) (b : Fin m) (c' : Cache k m n) : Prop where
  /-- The block has slot `s`, or gets it and no other block had it. -/
  | lands (s : Fin k) : c.residentAt s = some b ∨ c.residentAt s = none →
      Gives c.directory s b c' → c'.counts.evictions = c.counts.evictions → Places c b c'
  /-- Every slot has another block, and the hand takes slot `v`. -/
  | evicts (v : Fin k) (d : Directory k m) : (∀ i, c.residentAt i ≠ none) →
      (∀ i, c.residentAt i ≠ some b) → c.directory.Finds v d → Gives d v b c' →
      c'.counts.evictions = c.counts.evictions + 1 → Places c b c'

theorem Places.keeps {c c' c'' : Cache k m n} {b : Fin m} (places : Places c b c')
    (keeps : Keeps c' c'') : Places c b c'' := by
  cases places with
  | lands s found gives evictions =>
    exact .lands s found (gives.keeps keeps) (keeps.evictions.trans evictions)
  | evicts v d full absent finds gives evictions =>
    exact .evicts v d full absent finds (gives.keeps keeps) (keeps.evictions.trans evictions)

/-! ## Taking a slot -/

/-- While every lock is free the first slot that the hand finds is taken. -/
theorem places_of_evict {c : Cache k m n} (clock : c.directory.policy = .clock)
    (free : ∀ i, c.lockAt i = .free) (idle : ∀ i, c.evictingAt i = none)
    (full : ∀ i, c.residentAt i ≠ none) {b : Fin m} (absent : ∀ i, c.residentAt i ≠ some b)
    (attempts : Nat) : Places c b (evict b (attempts + 1) c).2 := by
  have finds := Directory.finds_propose clock
  unfold evict
  generalize c.directory.propose = proposal at finds ⊢
  obtain ⟨v, d⟩ := proposal
  have saved : (d.entries.get v).evicting = none := (finds.agrees v).2.trans (idle v)
  have lock : c.locks.get v = .free := free v
  have resident : (d.entries.get v).resident.isSome = true := by
    rw [(finds.agrees v).1]
    exact Option.isSome_iff_ne_none.2 (full v)
  simp only [saved, lock, resident, Option.isSome_none, Bool.false_eq_true, if_false, ne_eq,
    not_true, if_true]
  refine .evicts v d full absent finds ⟨fun i => ?_, fun i => ?_, rfl⟩ rfl
  · rw [residentAt_setLock, residentAt_setEntry]
    rfl
  · change (setEntry _ v _).directory.marked i = _
    rw [marked_setEntry]
    rfl

theorem places_of_take {c : Cache k m n} (resting : c.Resting)
    (clock : c.directory.policy = .clock) (free : ∀ i, c.lockAt i = .free) {b : Fin m}
    (absent : ∀ i, c.residentAt i ≠ some b) : Places c b (c.takeSlot b).2 := by
  have idle (i : Fin k) : c.evictingAt i = none :=
    evicting_of_idle resting.coherent (resting.idle i)
  unfold takeSlot
  split
  case h_1 s found =>
    have unused := List.find?_some found
    simp only [Entry.isFree, Bool.and_eq_true, Option.isNone_iff_eq_none] at unused
    refine .lands s (.inr unused.1.1) ⟨fun i => ?_, fun i => ?_, rfl⟩ rfl
    · rw [residentAt_setLock, residentAt_setEntry]
      rfl
    · change (c.setEntry s _).directory.marked i = _
      rw [marked_setEntry]
      rfl
  case h_2 none =>
    obtain ⟨attempts, enough⟩ : ∃ attempts, c.directory.attempts = attempts + 1 := by
      have := c.directory.hand.pos
      refine ⟨c.directory.attempts - 1, ?_⟩
      simp only [Directory.attempts, clock]
      omega
    rw [enough]
    refine places_of_evict clock free idle (fun i resident => ?_) absent attempts
    have used := List.find?_eq_none.1 none i (List.mem_finRange i)
    refine used ?_
    change (((c.residentAt i).isNone && (c.evictingAt i).isNone) && decide (c.lockAt i = .free)) = true
    rw [resident, idle i, free i]
    rfl

end Cache

namespace Task

open Cache

/-! ## After the look-up -/

/-- The points of a task that has no look-up before it. -/
def Placed : Task k m → Prop
  | .storing _ _ _ | .loading _ _ | .visit _ | .flushing _ _ | .done _ => True
  | .probe _ | .seek _ | .awaitHit _ _ | .awaitSlot _ _ | .halted _ => False

variable {c c' : Cache k m n} {t t' : Task k m}

theorem keeps_load (a : Access m) (s : Fin k) (c : Cache k m n) :
    (load a s c).1.Placed ∧ Keeps c (load a s c).2 := by
  unfold load
  split
  · exact ⟨trivial, .of_directory rfl rfl⟩
  · exact ⟨trivial, .of_directory rfl rfl⟩

theorem keeps_store (a : Access m) (s : Fin k) (old : Fin m) (c : Cache k m n) :
    (storeStep a s old c).1.Placed ∧
      ((∀ e, (storeStep a s old c).1 ≠ .done (.error e)) → Keeps c (storeStep a s old c).2) := by
  unfold storeStep
  split
  case h_1 => exact ⟨trivial, fun well => absurd rfl (well _)⟩
  case h_2 device written =>
    have counted : Keeps c { c with device }.countWriteback := .of_directory rfl rfl
    have stored := keeps_setEntry { c with device }.countWriteback s
      { c.directory.entries.get s with evicting := none } rfl rfl
    obtain ⟨placed, keeps⟩ := keeps_load a s _
    exact ⟨placed, fun _ => counted.trans (stored.trans keeps)⟩

/-- After the look-up no step changes what the hand reads, unless a device call fails. -/
theorem Placed.step (placed : t.Placed) (step : t.step c = some (t', c')) :
    t'.Placed ∧ ((∀ e, t' ≠ .done (.error e)) → Keeps c c') := by
  cases steps_of_step step with
  | store a s old => exact keeps_store a s old c
  | load a s =>
    unfold loadStep
    split
    · exact ⟨trivial, fun well => absurd rfl (well _)⟩
    · exact ⟨trivial, fun _ => .of_directory rfl rfl⟩
  | passed | unsaved | through => exact ⟨trivial, fun _ => .of_directory rfl rfl⟩
  | flush s b =>
    unfold flushStep
    split
    · exact ⟨trivial, fun well => absurd rfl (well _)⟩
    · exact ⟨trivial, fun _ => .of_directory rfl rfl⟩
  | absent | present | seek | hit | lost | awake => exact placed.elim

theorem Placed.run (placed : t.Placed) (steps : Nat) {bytes : List UInt8}
    (ran : t.run steps c = (.done (.ok bytes), c')) : Keeps c c' := by
  induction steps generalizing t c with
  | zero =>
    cases ran
    exact .of_directory rfl rfl
  | succ steps ih =>
    unfold Task.run at ran
    split at ran
    case h_1 =>
      cases ran
      exact .of_directory rfl rfl
    case h_2 t₁ c₁ step =>
      obtain ⟨placed₁, keeps⟩ := placed.step step
      refine (keeps fun e failed => ?_).trans (ih placed₁ ran)
      rw [failed, run_done] at ran
      cases ran

/-- While every lock is free one look-up is enough. -/
theorem seekStep_places (resting : c.Resting) (clock : c.directory.policy = .clock)
    (free : ∀ i, c.lockAt i = .free) (a : Access m) :
    (seekStep a c).1.Placed ∧ Places c a.block (seekStep a c).2 := by
  have seeks := seeks a c
  generalize seekStep a c = ends at seeks ⊢
  cases seeks with
  | @hit s found =>
    have resident : c.residentAt s = some a.block := Directory.find_resident found
    have gives : Gives c.directory s a.block
        (c.setEntry s { c.directory.entries.get s with accessed := true }) := by
      refine ⟨fun i => ?_, fun i => marked_setEntry c s i _, rfl⟩
      rw [residentAt_setEntry]
      split
      · exact resident
      · rfl
    have hit : Places c a.block
        (c.setEntry s { c.directory.entries.get s with accessed := true }) :=
      .lands s (.inl resident) gives rfl
    exact ⟨trivial, hit.keeps (.of_directory rfl rfl)⟩
  | @strange s found _ other =>
    have holds :=
      (holds_of_idle resting.coherent (resting.idle s) (Directory.find_resident found)).2
    exact absurd holds other
  | @locked s _ locked => exact absurd (free s) locked
  | @evicting s found =>
    exact absurd found (find_ne_evicting resting.coherent resting.idle a.block s)
  | full _ taken =>
    exact absurd (congrArg Prod.fst taken) (takeSlot_ne_none resting.coherent free a.block)
  | @clean s c₁ absent taken =>
    have places := places_of_take resting clock free fun i resident =>
      unnamed_of_absent absent i (.inl resident)
    rw [taken] at places
    obtain ⟨placed, keeps⟩ := keeps_load a s c₁
    exact ⟨placed, places.keeps keeps⟩
  | dirty absent taken =>
    have places := places_of_take resting clock free fun i resident =>
      unnamed_of_absent absent i (.inl resident)
    rw [taken] at places
    exact ⟨trivial, places⟩

theorem seek_places (resting : c.Resting) (clock : c.directory.policy = .clock)
    (free : ∀ i, c.lockAt i = .free) (a : Access m) (steps : Nat) {bytes : List UInt8}
    (ran : (seek a).run steps c = (.done (.ok bytes), c')) : Places c a.block c' := by
  cases steps with
  | zero => cases ran
  | succ steps =>
    obtain ⟨placed, places⟩ := seekStep_places resting clock free a
    exact places.keeps (placed.run steps ran)

/-- A run that is answered well leaves what the hand reads as it is, or looks its block up. -/
theorem places_of_run (resting : c.Resting) (clock : c.directory.policy = .clock)
    (free : ∀ i, c.lockAt i = .free) {op : Operation} (start : op.start n = .ok t) (steps : Nat)
    {bytes : List UInt8} (ran : t.run steps c = (.done (.ok bytes), c')) :
    Keeps c c' ∨ ∃ b : Fin m, op.block? = some b.val ∧ Places c b c' := by
  rcases cases_of_start start with ⟨b, about, rfl | ⟨use, rfl⟩⟩ | ⟨-, rfl | rfl⟩
  · cases steps with
    | zero => cases ran
    | succ steps =>
      unfold Task.run at ran
      simp only [Task.step] at ran
      cases found : c.directory.find b with
      | absent =>
        simp only [found] at ran
        exact .inr ⟨b, about, seek_places resting clock free ⟨b, .touch⟩ steps ran⟩
      | resident s | evicting s =>
        simp only [found, run_done] at ran
        cases ran
        exact .inl (.of_directory rfl rfl)
  · exact .inr ⟨b, about, seek_places resting clock free ⟨b, use⟩ steps ran⟩
  · exact .inl (Placed.run (t := .visit 0) trivial steps ran)
  · exact .inl (Placed.run (t := .done (.ok [])) trivial steps ran)

end Task

/-- A call that was answered well and is not about block `b`. -/
def CacheEvent.Passes (b : Fin m) : CacheEvent k m → Prop
  | .called op (.ok _) => op.block? ≠ some b.val
  | .called _ (.error _) | .held _ | .unheld _ => False

namespace Cache

variable {c c' : Cache k m n}

/-- While no lock is held a run to the end leaves every lock free. -/
theorem free_of_run (resting : c.Resting) (free : ∀ i, c.lockAt i = .free) {op : Operation}
    {t : Task k m} (start : op.start n = .ok t) (steps : Nat) {answer : Answer m}
    (ran : t.run steps c = (.done answer, c')) : c'.Resting ∧ ∀ i, c'.lockAt i = .free := by
  have shared := resting.shared (.ok []) (.ok [])
  have after := (shared.operation start steps).1
  have outside := (Task.run_keeps steps (shared.start start)).2
  rw [ran] at after outside
  refine ⟨after.resting, fun i => ?_⟩
  cases lock : c'.lockAt i with
  | free => rfl
  | outside =>
    have before := outside i lock
    rw [free i] at before
    cases before
  | busy => exact absurd lock (after.resting.idle i)

/-! ## What a call does -/

/-- A call about `block` that takes no slot from a block: every block stays where it is, the hand
stays, and no slot is marked but that of the call's block. -/
structure Spares (c : Cache k m n) (block : Option Nat) (c' : Cache k m n) : Prop where
  stays {s : Fin k} {b : Fin m} : c.residentAt s = some b → c'.residentAt s = some b
  marked (s : Fin k) : c'.directory.marked s = c.directory.marked s ∨
    c'.directory.marked s = true ∧ ∃ b : Fin m, block = some b.val ∧ c'.residentAt s = some b
  hand : c'.directory.hand = c.directory.hand
  evictions : c'.counts.evictions = c.counts.evictions

/-- A call about `block` that takes slot `v` from its block: the first slot from the hand on without
a mark, or the one at the hand if every slot has one. The marks of the slots that the hand passed
over are gone, the hand is just behind `v`, and no other slot changes. -/
structure Evicts (c : Cache k m n) (block : Option Nat) (v : Fin k) (c' : Cache k m n) : Prop where
  had : ∃ old, c.residentAt v = some old
  gives : ∃ b : Fin m, block = some b.val ∧ (∀ s, c.residentAt s ≠ some b) ∧ c'.residentAt v = some b
  marked : c'.directory.marked v = true
  first : (c.directory.marked v = false ∧
      ∀ s, c.directory.ahead s < c.directory.ahead v → c.directory.marked s = true) ∨
    (v = c.directory.hand ∧ ∀ s, c.directory.marked s = true)
  passed {s : Fin k} : s ≠ v → c.directory.Passed v s → c'.directory.marked s = false
  kept {s : Fin k} : s ≠ v → ¬ c.directory.Passed v s →
    c'.directory.marked s = c.directory.marked s
  hand : c'.directory.hand.val = (v.val + 1) % k
  others {s : Fin k} : s ≠ v → c'.residentAt s = c.residentAt s
  evictions : c'.counts.evictions = c.counts.evictions + 1

theorem Keeps.spares (keeps : Keeps c c') (block : Option Nat) : Spares c block c' where
  stays resident := (keeps.resident _).trans resident
  marked s := .inl (keeps.marked s)
  hand := keeps.hand
  evictions := keeps.evictions

theorem Places.spares_or_evicts {b : Fin m} {block : Option Nat} (about : block = some b.val)
    (places : Places c b c') : Spares c block c' ∨ ∃ v, Evicts c block v c' := by
  cases places with
  | lands s found gives evictions =>
    refine .inl ⟨fun {i b'} resident => ?_, fun i => ?_, gives.hand, evictions⟩
    · rw [gives.resident]
      split
      case isTrue same =>
        subst same
        rcases found with same | none
        · exact same.symm.trans resident
        · rw [none] at resident
          cases resident
      case isFalse => exact resident
    · rw [gives.marked, gives.resident]
      split
      · exact .inr ⟨rfl, b, about, rfl⟩
      · exact .inl rfl
  | evicts v d full absent finds gives evictions =>
    obtain ⟨first, passed, kept⟩ := finds.takes
    refine .inr ⟨v, Option.ne_none_iff_exists'.1 (full v), ⟨b, about, absent, ?_⟩, ?_, first,
      fun {i} ne before => ?_, fun {i} ne other => ?_, ?_, fun {i} ne => ?_, evictions⟩
    · rw [gives.resident, if_pos rfl]
    · rw [gives.marked, if_pos rfl]
    · rw [gives.marked, if_neg ne, passed i before]
    · rw [gives.marked, if_neg ne, kept i other]
    · rw [gives.hand, finds.hand]
    · rw [gives.resident, if_neg ne]
      exact (finds.agrees i).1

/-- A block with a mark is not taken while another slot has none. -/
theorem Evicts.second_chance {block : Option Nat} {v s i : Fin k} (evicts : Evicts c block v c')
    (marked : c.directory.marked s = true) (unmarked : c.directory.marked i = false) : s ≠ v := by
  rintro rfl
  rcases evicts.first with ⟨none, -⟩ | ⟨-, all⟩
  · rw [none] at marked
    cases marked
  · rw [all i] at unmarked
    cases unmarked

/-! ## Ageing -/

/-- If block `b` has a slot, the hand will take it before `bound` slots were taken in all. -/
def Due (c : Cache k m n) (b : Fin m) (bound : Nat) : Prop :=
  ∀ s, c.residentAt s = some b → c.counts.evictions + c.directory.lookout s < bound

theorem due_of_start (c : Cache k m n) (b : Fin m) : c.Due b (c.counts.evictions + 2 * k) :=
  fun s _ => Nat.add_lt_add_left (c.directory.lookout_lt s) _

theorem Due.keeps {b : Fin m} {bound : Nat} (due : c.Due b bound) (keeps : Keeps c c') :
    c'.Due b bound := fun s resident => by
  rw [keeps.evictions, Directory.lookout_congr keeps.hand (keeps.marked s)]
  exact due s ((keeps.resident s).symm.trans resident)

/-- A look-up of another block takes the slot of `b`, or brings it nearer with each slot that it
takes. -/
theorem Due.places {b b' : Fin m} {bound : Nat} (due : c.Due b bound) (places : Places c b' c')
    (other : b' ≠ b) : c'.Due b bound := fun s resident => by
  cases places with
  | lands s' _ gives evictions =>
    have ne : s ≠ s' := fun same => by
      rw [gives.resident, if_pos same] at resident
      exact other (Option.some.inj resident)
    rw [gives.resident, if_neg ne] at resident
    have marked := gives.marked s
    rw [if_neg ne] at marked
    rw [evictions, Directory.lookout_congr gives.hand marked]
    exact due s resident
  | evicts v d _ _ finds gives evictions =>
    have ne : s ≠ v := fun same => by
      rw [gives.resident, if_pos same] at resident
      exact other (Option.some.inj resident)
    rw [gives.resident, if_neg ne] at resident
    have marked := gives.marked s
    rw [if_neg ne] at marked
    have nearer := finds.lookout_lt ne
    have before := due s ((finds.agrees s).1.symm.trans resident)
    rw [evictions, Directory.lookout_congr gives.hand marked]
    omega

theorem Due.history {b : Fin m} {bound : Nat} {events : List (CacheEvent k m)}
    (resting : c.Resting) (clock : c.directory.policy = .clock) (free : ∀ i, c.lockAt i = .free)
    (due : c.Due b bound) (history : c.History events c') (passes : ∀ e ∈ events, e.Passes b) :
    c'.Resting ∧ c'.directory.policy = .clock ∧ (∀ i, c'.lockAt i = .free) ∧ c'.Due b bound := by
  induction history with
  | start => exact ⟨resting, clock, free, due⟩
  | @call events c₁ op t answer steps _ start ends ih =>
    obtain ⟨resting₁, clock₁, free₁, due₁⟩ := ih fun e mem => passes e (List.mem_append_left _ mem)
    have last := passes _ (List.mem_append_right _ (List.mem_singleton_self _))
    cases answer with
    | error e => exact last.elim
    | ok bytes =>
      have ran : t.run steps c₁ = (.done (.ok bytes), (t.run steps c₁).2) := Prod.ext ends rfl
      obtain ⟨resting₂, free₂⟩ := free_of_run resting₁ free₁ start steps ran
      refine ⟨resting₂, (Task.policy_run steps t c₁).trans clock₁, free₂, ?_⟩
      rcases Task.places_of_run resting₁ clock₁ free₁ start steps ran with
        keeps | ⟨b', about, places⟩
      · exact due₁.keeps keeps
      · exact due₁.places places fun same => last (same ▸ about)
  | hold s _ _ | unhold s _ _ =>
    exact (passes _ (List.mem_append_right _ (List.mem_singleton_self _))).elim

/-- **Second chance and ageing.** While no lock is held and no device call fails, the search of the
hand ends, and a call takes at most one slot from its block, the one that the hand finds. A block
with a mark stays while another slot has no mark. A block that is not used any more is gone when as
many slots have been taken as two rounds of the hand have. -/
theorem clock_ages (reachable : c.Reachable) (clock : c.directory.policy = .clock)
    (free : ∀ i, c.lockAt i = .free) :
    (∃ v d, c.directory.propose = (v, d) ∧ c.directory.Finds v d) ∧
    (∀ op bytes c', c.call op = .ok (.ok bytes, c') →
      (Spares c op.block? c' ∨ ∃ v, Evicts c op.block? v c') ∧
      ∀ (s i : Fin k) (b : Fin m), c.residentAt s = some b → c.directory.marked s = true →
        c.directory.marked i = false → c'.residentAt s = some b) ∧
    ∀ (b : Fin m) events c', c.History events c' → (∀ e ∈ events, e.Passes b) →
      c.counts.evictions + 2 * k ≤ c'.counts.evictions → b ∉ c'.directory.residents := by
  have resting := reachable.resting
  refine ⟨⟨_, _, rfl, Directory.finds_propose clock⟩, fun op bytes c' called => ?_,
    fun b events c' history passes many => ?_⟩
  · obtain ⟨t, start, ran⟩ := run_of_call called
    have outcome : Spares c op.block? c' ∨ ∃ v, Evicts c op.block? v c' := by
      rcases Task.places_of_run resting clock free start (steps k) ran with
        keeps | ⟨b, about, places⟩
      · exact .inl (keeps.spares _)
      · exact places.spares_or_evicts about
    refine ⟨outcome, fun s i b resident marked unmarked => ?_⟩
    rcases outcome with spares | ⟨v, evicts⟩
    · exact spares.stays resident
    · exact (evicts.others (evicts.second_chance marked unmarked)).trans resident
  · obtain ⟨-, -, -, due⟩ := Due.history resting clock free (due_of_start c b) history passes
    rw [Directory.mem_residents]
    rintro ⟨s, resident⟩
    have soon := due s resident
    omega

theorem toOption_eq_some_iff {ε α : Type} {result : Except ε α} {a : α} :
    result.toOption = some a ↔ result = .ok a := by
  cases result <;> simp [Except.toOption]

/-- Three slots get blocks 0, 1 and 2, and block 3 takes the slot of block 0, with which all marks are
cleared. Block 1 is used again, and the hand has come to it. A read of block 4 passes over it and
takes the slot of block 2; block 1 is not used any more, and is gone when six slots were taken. -/
theorem clock_ages_three_slots :
    ∃ (c c₁ c₂ : Cache 3 5 1) (events : List (CacheEvent 3 5)),
      c.Reachable ∧ c.directory.policy = .clock ∧ (∀ i, c.lockAt i = .free) ∧
      (c.directory.hand = 1 ∧ c.residentAt 1 = some 1 ∧ c.directory.marked 1 = true ∧
        c.directory.marked 2 = false) ∧
      c.call (.read 4 0 1) = .ok (.ok [7], c₁) ∧
      c₁.residentAt 1 = some 1 ∧ c₁.residentAt 2 = some 4 ∧
      (c.History events c₂ ∧ (∀ e ∈ events, e.Passes 1) ∧
        c.counts.evictions + 2 * 3 ≤ c₂.counts.evictions) ∧
      1 ∉ c₂.directory.residents := by
  have runs : ((Cache.new (Device.filled 5 1 7) { slots := 3, policy := .clock }).toOption.any
      fun new : Cache 3 5 1 =>
    (new.callAll [.read 0 0 1, .read 1 0 1, .read 2 0 1, .read 3 0 1, .read 1 0 1]).toOption.any
      fun (_, c) =>
    (c.call (.read 4 0 1)).toOption.any fun (answer, c₁) =>
    (c.callAll [.read 4 0 1, .read 0 0 1, .read 2 0 1, .read 3 0 1, .read 4 0 1,
      .read 0 0 1]).toOption.any fun (calls, c₂) =>
    decide ((c.directory.policy = .clock ∧ ∀ i, c.lockAt i = .free) ∧
      (c.directory.hand = 1 ∧ c.residentAt 1 = some 1 ∧ c.directory.marked 1 = true ∧
        c.directory.marked 2 = false) ∧
      answer.toOption = some [7] ∧ c₁.residentAt 2 = some 4 ∧
      (∀ call ∈ calls, call.answer.toOption.isSome ∧ call.op.block? ≠ some 1) ∧
      c.counts.evictions + 2 * 3 ≤ c₂.counts.evictions)) = true := by decide +kernel
  simp only [Option.any_eq_true, decide_eq_true_eq, Prod.exists, toOption_eq_some_iff] at runs
  obtain ⟨new, made, calls, c, ran, answer, c₁, read, calls₂, c₂, ran₂, ⟨clock, free⟩, at1, rfl,
    taken, others, many⟩ := runs
  have reachable : c.Reachable := .history (.new made) (History.of_callAll .start ran)
  have history : c.History (calls₂.map CacheCall.event) c₂ := by
    simpa using History.of_callAll .start ran₂
  have passes : ∀ e ∈ calls₂.map CacheCall.event, e.Passes (1 : Fin 5) := by
    rw [List.forall_mem_map]
    intro call mem
    obtain ⟨well, other⟩ := others call mem
    rw [CacheCall.event]
    cases answered : call.answer with
    | ok bytes => exact other
    | error e => simp [answered, Except.toOption] at well
  obtain ⟨-, calls, ages⟩ := clock_ages reachable clock free
  exact ⟨c, c₁, c₂, _, reachable, clock, free, at1, read,
    (calls _ _ _ read).2 1 2 1 at1.2.1 at1.2.2.1 at1.2.2.2, taken, ⟨history, passes, many⟩,
    ages 1 _ _ history passes many⟩

end Cache

end SectorFs
