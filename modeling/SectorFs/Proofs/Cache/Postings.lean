/-
# SectorFs.Proofs.Cache.Postings — what each step does to the counters

The counters of a cache are raised at different points of an operation: a hit
where the block is found, an eviction where a slot is taken, a stored block after
the device call, a miss only after the block that was in the slot is stored.
Between two of these points the books do not balance by themselves. A task that
is on its way owes the difference: a look-up that is not yet counted
(`Task.owing`), a slot that is taken and not yet counted as a miss
(`Task.seated`), and a miss that is not yet loaded (`Task.unloaded`).

`Posts a? t c t' c' io` says that with these the books balance from one point to
a later one, if `io` are the device calls made in between. Every step keeps them
(`posts_of_step`), and stretches can be put together (`Posts.trans`).
-/
import SectorFs.Proofs.Cache.Misses

namespace SectorFs

set_option autoImplicit false

variable {k m n : Nat}

namespace IoCall

/-- A block was stored. -/
def stored (call : IoCall m) : Bool := decide (call.kind = .write) && !call.failed

/-- A block could not be stored. -/
def storeFailed (call : IoCall m) : Bool := decide (call.kind = .write) && call.failed

/-- A block was asked for. -/
def loads (call : IoCall m) : Bool := decide (call.kind = .read)

/-- A block could not be loaded. -/
def loadFailed (call : IoCall m) : Bool := decide (call.kind = .read) && call.failed

end IoCall

theorem Device.calls_of_read {d d' : Device m n} {b : Fin m} {data : Block n}
    (loaded : d.read b = (some data, d')) : d'.calls = ⟨.read, b, false⟩ :: d.calls := by
  obtain ⟨works, -, -, -⟩ := Device.read_some loaded
  unfold Device.read at loaded
  split at loaded <;> cases loaded
  simp only [Device.record, works]

namespace Directory

theorem length_residents (d : Directory k m) :
    d.residents.length = d.entries.toList.countP fun e => e.resident.isSome :=
  List.length_filterMap_eq_countP

/-- An entry that is replaced counts for its block, if it has one. -/
theorem length_residents_set (d : Directory k m) (s : Fin k) (e : Entry m) :
    (d.set s e).residents.length + (d.entries.get s).resident.isSome.toNat =
      d.residents.length + e.resident.isSome.toNat := by
  have place : s.val < d.entries.toList.length := by simp
  have here : d.entries.toList[s.val] = d.entries.get s := by simp [Vector.get]
  have counted : (d.entries.get s).resident.isSome.toNat ≤
      d.entries.toList.countP fun e => e.resident.isSome := by
    cases has : (d.entries.get s).resident.isSome with
    | false => exact Nat.zero_le _
    | true => exact List.countP_pos_iff.2 ⟨_, here ▸ List.getElem_mem place, has⟩
  rw [length_residents, length_residents, set, Vector.toList_set, List.countP_set place, here]
  cases was : (d.entries.get s).resident.isSome <;> cases e.resident.isSome <;>
    simp only [was, Bool.toNat_true, Bool.toNat_false, if_true, Bool.false_eq_true,
      if_false] at counted ⊢ <;>
    omega

/-- What a slot is storing is not listed. -/
theorem residents_set_evicting (d : Directory k m) (s : Fin k) (evicting : Option (Fin m)) :
    (d.set s { d.entries.get s with evicting }).residents = d.residents := by
  refine residents_congr fun i => ?_
  by_cases same : s = i
  · subst same
    simp [set]
  · simp [set, Ne.symm same]

end Directory

/-! ## Taking a slot -/

namespace Cache

variable {c c' : Cache k m n}

/-- One more block has a slot, or one was evicted for it. -/
structure Seats (c c' : Cache k m n) : Prop where
  hits : c'.counts.hits = c.counts.hits
  misses : c'.counts.misses = c.counts.misses
  writebacks : c'.counts.writebacks = c.counts.writebacks
  seats : c'.directory.residents.length + c'.counts.evictions =
    c.directory.residents.length + c.counts.evictions + 1

/-- What there is to count when a slot was asked for. -/
def SeatResult (c : Cache k m n) : Option (TakenSlot k m) × Cache k m n → Prop
  | (none, c') => c'.counts = c.counts ∧ c'.directory.residents = c.directory.residents
  | (some _, c') => Seats c c'

theorem seats_setEntry (c : Cache k m n) {s : Fin k} {b : Fin m} {e : Entry m}
    (none : c.residentAt s = none) (new : e.resident = some b) (lock : SlotLock) :
    Seats c ((c.setEntry s e).setLock s lock) where
  hits := rfl
  misses := rfl
  writebacks := rfl
  seats := by
    have length := c.directory.length_residents_set s e
    change (c.directory.entries.get s).resident = Option.none at none
    rw [none, new] at length
    change (c.directory.set s e).residents.length + _ = _
    simp only [Option.isSome_none, Option.isSome_some, Bool.toNat_false, Bool.toNat_true] at length
    change _ + c.counts.evictions = _
    omega

theorem seats_evicted (c : Cache k m n) {s : Fin k} {b : Fin m} {e : Entry m}
    (old : (c.residentAt s).isSome = true) (new : e.resident = some b) (lock : SlotLock) :
    Seats c ((c.countEviction.setEntry s e).setLock s lock) where
  hits := rfl
  misses := rfl
  writebacks := rfl
  seats := by
    have length := c.directory.length_residents_set s e
    change (c.directory.entries.get s).resident.isSome = true at old
    rw [old, new] at length
    change (c.directory.set s e).residents.length + (c.counts.evictions + 1) = _
    simp only [Option.isSome_some, Bool.toNat_true] at length
    omega

theorem evict_seats (b : Fin m) (attempts : Nat) (c : Cache k m n) :
    SeatResult c (evict b attempts c) := by
  have result := c.evictResult b attempts
  generalize evict b attempts c = given at result ⊢
  cases result with
  | passed agrees => exact ⟨rfl, Directory.residents_congr fun i => (agrees i).1⟩
  | @taken d s agrees _ lock =>
    have residents : d.residents = c.directory.residents :=
      Directory.residents_congr fun i => (agrees i).1
    have seats {c₁ : Cache k m n} (seats : Seats { c with directory := d } c₁) : Seats c c₁ :=
      ⟨seats.hits, seats.misses, seats.writebacks, residents ▸ seats.seats⟩
    split
    case isTrue old =>
      exact seats (seats_evicted (s := s) { c with directory := d } old rfl .busy)
    case isFalse none =>
      have none := Option.not_isSome_iff_eq_none.1 none
      exact seats (seats_setEntry (s := s) { c with directory := d } none rfl .busy)

theorem takeSlot_seats (c : Cache k m n) (b : Fin m) : SeatResult c (c.takeSlot b) := by
  unfold takeSlot
  split
  case h_1 s found =>
    have free := List.find?_some found
    simp only [Entry.isFree, Bool.and_eq_true, Option.isNone_iff_eq_none] at free
    exact seats_setEntry c free.1.1 rfl .busy
  case h_2 => exact evict_seats b _ c

end Cache

/-! ## What a task owes -/

namespace Task

open Cache

/-- Look-ups that a task will count, or fail to store a block for. -/
def owing (c : Cache k m n) : Task k m → Nat
  | .probe b =>
      match c.directory.find b with
      | .absent => 1
      | _ => 0
  | .seek _ | .awaitHit _ _ | .awaitSlot _ _ | .storing _ _ _ => 1
  | .loading _ _ | .visit _ | .flushing _ _ | .done _ | .halted _ => 0

/-- Slots that a task has taken for a block and not yet counted as a miss. -/
def seated : Task k m → Nat
  | .storing _ _ _ => 1
  | _ => 0

/-- Misses that a task has counted and not yet loaded. -/
def unloaded : Task k m → Nat
  | .loading _ _ => 1
  | _ => 0

/-- The device call of the next step, as the device will record it. -/
def nextCall (c : Cache k m n) (t : Task k m) : List (IoCall m) :=
  (t.pending.map fun call => ⟨call.1, call.2, c.device.failsNext call.1 call.2⟩).toList

/-- Blocks that could not be stored on the way to a use of a block; a flush is none. -/
def failedStores (a? : Option (Access m)) (io : List (IoCall m)) : Nat :=
  if a?.isSome then io.countP IoCall.storeFailed else 0

/-- Whether a whole block is written, so that a miss loads nothing. -/
def spares (n : Nat) (a? : Option (Access m)) : Bool := a?.any fun a => a.use.overwrites n

/-- The books balance from `t` and `c` to `t'` and `c'`, with the device calls `io` in between. -/
structure Posts (a? : Option (Access m)) (t : Task k m) (c : Cache k m n) (t' : Task k m)
    (c' : Cache k m n) (io : List (IoCall m)) : Prop where
  calls : c'.device.calls = io.reverse ++ c.device.calls
  hits : c.counts.hits ≤ c'.counts.hits
  misses : c.counts.misses ≤ c'.counts.misses
  lookups : c'.counts.hits + c'.counts.misses + failedStores a? io + t'.owing c' =
    c.counts.hits + c.counts.misses + t.owing c
  writebacks : c'.counts.writebacks = c.counts.writebacks + io.countP IoCall.stored
  residents : c'.directory.residents.length + c'.counts.evictions + io.countP IoCall.loadFailed +
      c.counts.misses + t.seated =
    c.directory.residents.length + c.counts.evictions + c'.counts.misses + failedStores a? io +
      t'.seated
  loads : io.countP IoCall.loads + t'.unloaded + (if spares n a? then 0 else c.counts.misses) =
    t.unloaded + if spares n a? then 0 else c'.counts.misses
  blocks : ∀ call ∈ io, call.kind = .read → ∃ a, a? = some a ∧ a.block = call.block

variable {a? : Option (Access m)} {a : Access m} {s : Fin k} {old : Fin m} {t t₁ t' : Task k m}
  {c c₁ c' : Cache k m n} {io io' : List (IoCall m)}

theorem failedStores_append (a? : Option (Access m)) (io io' : List (IoCall m)) :
    failedStores a? (io ++ io') = failedStores a? io + failedStores a? io' := by
  unfold failedStores
  split
  · exact List.countP_append
  · rfl

theorem Posts.trans (first : Posts a? t c t₁ c₁ io) (second : Posts a? t₁ c₁ t' c' io') :
    Posts a? t c t' c' (io ++ io') where
  calls := by rw [second.calls, first.calls, List.reverse_append, List.append_assoc]
  hits := Nat.le_trans first.hits second.hits
  misses := Nat.le_trans first.misses second.misses
  lookups := by
    have := first.lookups
    have := second.lookups
    rw [failedStores_append]
    omega
  writebacks := by rw [second.writebacks, first.writebacks, List.countP_append, Nat.add_assoc]
  residents := by
    have := first.residents
    have := second.residents
    rw [failedStores_append, List.countP_append]
    omega
  loads := by
    have one := first.loads
    have two := second.loads
    rw [List.countP_append]
    cases spared : spares n a? <;>
      simp only [spared, if_true, Bool.false_eq_true, if_false] at one two ⊢ <;> omega
  blocks call mem := by
    rcases List.mem_append.1 mem with mem | mem
    · exact first.blocks call mem
    · exact second.blocks call mem

/-- A step that counts nothing and calls no device. -/
theorem Posts.of_counts (counts : c'.counts = c.counts) (device : c'.device = c.device)
    (residents : c'.directory.residents = c.directory.residents) (owing : t'.owing c' = t.owing c)
    (seated : t'.seated = t.seated) (unloaded : t'.unloaded = t.unloaded) :
    Posts a? t c t' c' [] where
  calls := by rw [device]; rfl
  hits := by rw [counts]
  misses := by rw [counts]
  lookups := by simp [counts, failedStores, owing]
  writebacks := by simp [counts]
  residents := by simp [counts, residents, failedStores, seated]
  loads := by simp [counts, unloaded]
  blocks := nofun

theorem Posts.refl (a? : Option (Access m)) (t : Task k m) (c : Cache k m n) :
    Posts a? t c t c [] :=
  .of_counts rfl rfl rfl rfl rfl rfl

/-- A step that makes one device call, and counts it if a block was stored. -/
theorem Posts.of_call {call : IoCall m} (calls : c'.device.calls = call :: c.device.calls)
    (counts : c'.counts =
      { c.counts with writebacks := c.counts.writebacks + call.stored.toNat })
    (lookups : failedStores a? [call] + t'.owing c' = t.owing c)
    (residents : c'.directory.residents.length + call.loadFailed.toNat + t.seated =
      c.directory.residents.length + failedStores a? [call] + t'.seated)
    (loads : call.loads.toNat + t'.unloaded = t.unloaded)
    (block : call.kind = .write ∨ ∃ a, a? = some a ∧ a.block = call.block) :
    Posts a? t c t' c' [call] := by
  have one (p : IoCall m → Bool) : [call].countP p = (p call).toNat := by
    cases h : p call <;> simp [h]
  exact {
    calls := calls
    hits := by rw [counts]
    misses := by rw [counts]
    lookups := by
      rw [counts]
      dsimp only
      omega
    writebacks := by rw [counts, one]
    residents := by
      rw [counts, one]
      dsimp only
      omega
    loads := by
      rw [counts, one]
      dsimp only
      omega
    blocks := List.forall_mem_singleton.2 fun read => block.resolve_left (by rw [read]; decide) }

/-! ## The points of a task -/

/-- A block that is found is counted where it is used. -/
theorem hit_posts (a : Access m) (s : Fin k) (owing : t.owing c = 1) (seated : t.seated = 0)
    (unloaded : t.unloaded = 0) (counts : c₁.counts = c.counts) (device : c₁.device = c.device)
    (residents : c₁.directory.residents = c.directory.residents) :
    Posts (some a) t c (finish a s c₁.countHit).1 (finish a s c₁.countHit).2 [] where
  calls := by
    rw [device_finish]
    exact congrArg Device.calls device
  hits := by simp [finish, setLock, setSlot, countHit, counts]
  misses := by simp [finish, setLock, setSlot, countHit, counts]
  lookups := by
    rw [owing]
    simp only [finish, setLock, setSlot, countHit, counts, failedStores, Task.owing,
      List.countP_nil, Option.isSome_some, if_true]
    omega
  writebacks := by simp [finish, setLock, setSlot, countHit, counts]
  residents := by
    have same : (finish a s c₁.countHit).2.directory.residents = c.directory.residents := residents
    rw [same, seated]
    simp [finish, setLock, setSlot, countHit, counts, failedStores, Task.seated]
  loads := by
    rw [unloaded]
    simp [finish, setLock, setSlot, countHit, counts, Task.unloaded]
  blocks := nofun

/-- A slot that was taken is counted as a miss once its old block is stored. -/
theorem load_posts (a : Access m) (s : Fin k) (old : Fin m) (c : Cache k m n) :
    Posts (some a) (.storing a s old) c (load a s c).1 (load a s c).2 [] := by
  unfold load
  cases overwrites : a.use.overwrites n with
  | true =>
    constructor
    case blocks => exact nofun
    all_goals simp [finish, setLock, setSlot, countMiss, failedStores, spares, overwrites,
      Task.owing, Task.seated, Task.unloaded]
    all_goals omega
  | false =>
    constructor
    case blocks => exact nofun
    all_goals simp [setSlot, countMiss, failedStores, spares, overwrites, Task.owing, Task.seated,
      Task.unloaded]
    all_goals omega

/-- A slot is taken, and its old block may have to be stored first. -/
theorem seats_posts (seats : Seats c c₁) (device : c₁.device = c.device) (a : Access m) (s : Fin k)
    (old : Fin m) : Posts (some a) (.seek a) c (.storing a s old) c₁ [] where
  calls := by rw [device]; rfl
  hits := Nat.le_of_eq seats.hits.symm
  misses := Nat.le_of_eq seats.misses.symm
  lookups := by simp [seats.hits, seats.misses, failedStores, Task.owing]
  writebacks := by simp [seats.writebacks]
  residents := by
    have := seats.seats
    simp [seats.misses, failedStores, Task.seated]
    omega
  loads := by simp [seats.misses, Task.unloaded]
  blocks := nofun

theorem seekStep_posts (coherent : c.Coherent) (fits : ∀ v, (seekStep a c).1 ≠ .halted v) :
    Posts (some a) (.seek a) c (seekStep a c).1 (seekStep a c).2 [] := by
  have residents (s : Fin k) :
      (c.setEntry s { c.directory.entries.get s with accessed := true }).directory.residents =
        c.directory.residents :=
    Directory.residents_congr fun i => (sameAt_setEntry_accessed c s i true).resident
  have seats := c.takeSlot_seats a.block
  have result := takeSlot_spec coherent a.block
  have seeks := seeks a c
  generalize seekStep a c = ends at seeks fits ⊢
  cases seeks with
  | @hit s => exact hit_posts a s rfl rfl rfl rfl rfl (residents s)
  | strange => exact absurd rfl (fits .strangeSlot)
  | @locked s => exact .of_counts rfl rfl (residents s) rfl rfl rfl
  | evicting => exact .of_counts rfl rfl rfl rfl rfl rfl
  | @full c₁ _ taken =>
    rw [taken] at seats result
    have proposed : c₁.directory.propose.2.residents = c₁.directory.residents :=
      Directory.residents_congr fun i => (c₁.directory.agrees_propose i).1
    exact .of_counts seats.1 result.1 (proposed.trans seats.2) rfl rfl rfl
  | @clean s c₁ _ taken =>
    rw [taken] at seats result
    exact (seats_posts seats result.device a s a.block).trans (load_posts a s a.block c₁)
  | @dirty s old _ _ taken =>
    rw [taken] at seats result
    exact seats_posts seats result.device a s old

/-- A block that was stored is counted, and its slot is still to be filled. -/
theorem stored_posts (counts : c₁.counts = c.countWriteback.counts)
    (calls : c₁.device.calls = ⟨.write, old, false⟩ :: c.device.calls)
    (residents : c₁.directory.residents = c.directory.residents) :
    Posts (some a) (.storing a s old) c (.storing a s old) c₁ [⟨.write, old, false⟩] := by
  refine .of_call calls counts rfl ?_ rfl (.inl rfl)
  rw [residents]
  rfl

theorem storeStep_posts (fits : (Task.storing a s old).Fits c) :
    Posts (some a) (.storing a s old) c (storeStep a s old c).1 (storeStep a s old c).2
      ((Task.storing a s old).nextCall c) := by
  obtain ⟨-, resident, -, -⟩ := fits
  change (c.directory.entries.get s).resident = some a.block at resident
  unfold storeStep
  generalize written : c.device.write old (c.slots.get s).data = result
  obtain ⟨_ | _, device⟩ := result
  · -- the slot goes back to its old block, which counts for the new one
    have failed := (Device.write_false written).1
    obtain rfl := Device.eq_record_of_write written
    have length := c.directory.length_residents_set s { Entry.holding old with accessed := false }
    rw [resident] at length
    simp only [Entry.holding, Option.isSome_some, Bool.toNat_true] at length
    have call : (Task.storing a s old).nextCall c = [⟨.write, old, true⟩] := by
      simp [nextCall, pending, failed]
    rw [call]
    exact .of_call (Device.calls_record failed) rfl rfl length rfl (.inl rfl)
  · have works := (Device.write_true written).1
    have call : (Task.storing a s old).nextCall c = [⟨.write, old, false⟩] := by
      simp [nextCall, pending, works]
    rw [call]
    have calls := Device.calls_of_write written
    have residents := c.directory.residents_set_evicting s none
    have stored : Posts (some a) (.storing a s old) c (.storing a s old)
        ({ c with device }.countWriteback.setEntry s
          { c.directory.entries.get s with evicting := none }) [⟨.write, old, false⟩] :=
      stored_posts rfl calls residents
    exact stored.trans (load_posts a s old _)

theorem loadStep_posts (fits : (Task.loading a s).Fits c) :
    Posts (some a) (.loading a s) c (loadStep a s c).1 (loadStep a s c).2
      ((Task.loading a s).nextCall c) := by
  obtain ⟨-, resident, -, -⟩ := fits
  change (c.directory.entries.get s).resident = some a.block at resident
  unfold loadStep
  generalize loaded : c.device.read a.block = result
  obtain ⟨_ | data, device⟩ := result
  · -- the slot that was taken for the block is given up
    have failed := (Device.read_none loaded).1
    obtain rfl := Device.eq_record_of_read loaded
    have length := c.directory.length_residents_set s {}
    rw [resident] at length
    simp only [Option.isSome_some, Option.isSome_none, Bool.toNat_true, Bool.toNat_false] at length
    have call : (Task.loading a s).nextCall c = [⟨.read, a.block, true⟩] := by
      simp [nextCall, pending, failed]
    rw [call]
    exact .of_call (Device.calls_record failed) rfl rfl length rfl (.inr ⟨a, rfl, rfl⟩)
  · have works := (Device.read_some loaded).1
    have call : (Task.loading a s).nextCall c = [⟨.read, a.block, false⟩] := by
      simp [nextCall, pending, works]
    rw [call]
    exact .of_call (Device.calls_of_read loaded) rfl rfl rfl rfl (.inr ⟨a, rfl, rfl⟩)

theorem flushStep_posts (s : Fin k) (b : Fin m) (c : Cache k m n) :
    Posts none (.flushing s b) c (flushStep s b c).1 (flushStep s b c).2
      ((Task.flushing s b : Task k m).nextCall c) := by
  unfold flushStep
  generalize written : c.device.write b (c.slots.get s).data = result
  obtain ⟨_ | _, device⟩ := result
  · have failed := (Device.write_false written).1
    obtain rfl := Device.eq_record_of_write written
    have call : (Task.flushing s b : Task k m).nextCall c = [⟨.write, b, true⟩] := by
      simp [nextCall, pending, failed]
    rw [call]
    exact .of_call (Device.calls_record failed) rfl rfl rfl rfl (.inl rfl)
  · have works := (Device.write_true written).1
    have call : (Task.flushing s b : Task k m).nextCall c = [⟨.write, b, false⟩] := by
      simp [nextCall, pending, works]
    rw [call]
    exact .of_call (Device.calls_of_write written) rfl rfl rfl rfl (.inl rfl)

/-- **Every step keeps the books.** -/
theorem posts_of_step (coherent : c.Coherent) (fits : t.Fits c) (within : t.Within n)
    (step : t.step c = some (t', c')) : Posts t.access? t c t' c' (t.nextCall c) := by
  have fits' := (moves_of_step coherent fits within step).fits
  cases steps_of_step step with
  | absent found => exact .of_counts rfl rfl rfl (by simp [owing, found]) rfl rfl
  | present found => exact .of_counts rfl rfl rfl (by simp [owing]) rfl rfl
  | seek a =>
    refine seekStep_posts coherent fun v halted => ?_
    rw [halted] at fits'
    exact fits'
  | @hit a s => exact hit_posts a s rfl rfl rfl rfl rfl rfl
  | lost | awake | passed | unsaved | through => exact .of_counts rfl rfl rfl rfl rfl rfl
  | store a s old => exact storeStep_posts fits
  | load a s => exact loadStep_posts fits
  | flush s b => exact flushStep_posts s b c

end Task

end SectorFs
