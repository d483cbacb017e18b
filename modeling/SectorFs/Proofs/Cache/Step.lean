/-
# SectorFs.Proofs.Cache.Step — what one step of a task does

A task has at most one slot locked (`Task.slot?`), and `Task.Fits` says how that
slot stands at each point where the task can be. `Task.Moves` collects what a
step does: the cache stays coherent, the task goes on to a point that fits, no
slot that someone else has locked is touched, and the content of the blocks is
what it was until the task ends. Then the task has done to it what
`Task.onContent` says, all at once, or nothing if it ends with an error
(`Task.Settles`). `Task.moves_of_step` proves it for every point.
-/
import SectorFs.Proofs.Cache.Look
import SectorFs.Proofs.Cache.Cases

namespace SectorFs

set_option autoImplicit false

variable {k m n : Nat}

/-- The bytes of every block. -/
abbrev Contents (m n : Nat) := Fin m → Block n

/-- A slot with something to store was written. -/
theorem Slot.dirty_of_unsaved {slot : Slot m n} {b : Fin m} (unsaved : slot.unsaved = some b) :
    ∃ data, slot = .dirty b data := by
  cases slot with
  | unused | inUse => cases unsaved
  | dirty b' data =>
    cases unsaved
    exact ⟨data, rfl⟩

namespace Device

variable {d d' : Device m n} {b : Fin m} {data : Block n}

/-- A write that fails leaves the blocks as they are. -/
theorem write_false (written : d.write b data = (false, d')) :
    d.failsNext .write b = true ∧ d'.blocks = d.blocks ∧ d'.fails = d.fails := by
  unfold write at written
  split at written <;> cases written
  exact ⟨‹_›, rfl, rfl⟩

theorem write_true (written : d.write b data = (true, d')) :
    d.failsNext .write b = false ∧ d'.blocks = d.blocks.set b data b.isLt ∧ d'.fails = d.fails := by
  unfold write at written
  split at written <;> cases written
  exact ⟨Bool.eq_false_iff.2 ‹_›, rfl, rfl⟩

theorem read_none (loaded : d.read b = (none, d')) :
    d.failsNext .read b = true ∧ d'.blocks = d.blocks ∧ d'.fails = d.fails := by
  unfold read at loaded
  split at loaded <;> cases loaded
  exact ⟨‹_›, rfl, rfl⟩

theorem read_some (loaded : d.read b = (some data, d')) :
    d.failsNext .read b = false ∧ data = d.blocks.get b ∧ d'.blocks = d.blocks ∧
      d'.fails = d.fails := by
  unfold read at loaded
  split at loaded <;> cases loaded
  exact ⟨Bool.eq_false_iff.2 ‹_›, rfl, rfl, rfl⟩

end Device

namespace Access

/-- The byte range that is used lies within a block of `n` bytes. -/
def Within (n : Nat) (a : Access m) : Prop :=
  match a.use with
  | .read off len => off + len ≤ n
  | .write off data => off + data.length ≤ n
  | .touch => True

/-- What the use of a block does to a plain array of blocks: the bytes copied out, and the array
after it. -/
def onContent (a : Access m) (v : Contents m n) : List UInt8 × Contents m n :=
  match a.use with
  | .read off len => ((v a.block).slice off len, v)
  | .write off data => ([], Function.update v a.block ((v a.block).patch off data))
  | .touch => ([], v)

end Access

namespace Task

/-- The use of a block that a task is for. -/
def access? : Task k m → Option (Access m)
  | .probe b => some ⟨b, .touch⟩
  | .seek a | .awaitHit a _ | .awaitSlot a _ | .storing a _ _ | .loading a _ => some a
  | .visit _ | .flushing _ _ | .done _ | .halted _ => none

/-- The slot that a task has locked. -/
def slot? : Task k m → Option (Fin k)
  | .storing _ s _ | .loading _ s | .flushing s _ => some s
  | _ => none

/-- What a task does to a plain array of blocks when it ends well. -/
def onContent (t : Task k m) (v : Contents m n) : List UInt8 × Contents m n :=
  match t.access? with
  | some a => a.onContent v
  | none => ([], v)

/-- The byte range of a task's use lies within a block. -/
def Within (n : Nat) (t : Task k m) : Prop := ∀ a ∈ t.access?, a.Within n

/-- How the slot that a task has locked stands. A task never halts. -/
def Fits (c : Cache k m n) : Task k m → Prop
  | .storing a s old => c.lockAt s = .busy ∧ c.residentAt s = some a.block ∧
      c.evictingAt s = some old ∧ ∃ data, c.slotAt s = .dirty old data
  | .loading a s => c.lockAt s = .busy ∧ c.residentAt s = some a.block ∧
      c.evictingAt s = none ∧ c.slotAt s = .unused
  | .flushing s b => c.lockAt s = .busy ∧ c.residentAt s = some b ∧
      c.evictingAt s = none ∧ ∃ data, c.slotAt s = .dirty b data
  | .halted _ => False
  | _ => True

/-- What happened to the content of the blocks when `t` went on to `t'`. -/
def Settles (t t' : Task k m) (before after : Contents m n) : Prop :=
  match t' with
  | .done (.ok bytes) => t.onContent before = (bytes, after)
  | .done (.error _) => after = before
  | t' => after = before ∧ t'.access? = t.access?

/-- What is true of a step from `t` and `c` to `t'` and `c'`. -/
structure Moves (t : Task k m) (c : Cache k m n) (t' : Task k m) (c' : Cache k m n) : Prop where
  coherent : c'.Coherent
  fits : t'.Fits c'
  settles : t.Settles t' c.content c'.content
  /-- Slots that others have locked are left alone. -/
  others {i : Fin k} : c.lockAt i = .busy → t.slot? ≠ some i → Cache.SameAt c c' i
  locks {i : Fin k} : t'.slot? = some i → t.slot? = some i ∨ c.lockAt i ≠ .busy
  /-- A slot that is locked after the step is the task's, or was locked by others. -/
  busy {i : Fin k} : c'.lockAt i = .busy →
    t'.slot? = some i ∨ (c.lockAt i = .busy ∧ t.slot? ≠ some i)
  /-- No lock is taken from outside. -/
  outside {i : Fin k} : c'.lockAt i = .outside → c.lockAt i = .outside
  fails : c'.device.fails = c.device.fails

/-- A task's slot stays fitting while it is left alone. -/
theorem Fits.of_same {t : Task k m} {c c' : Cache k m n} (fits : t.Fits c)
    (same : ∀ i, t.slot? = some i → Cache.SameAt c c' i) : t.Fits c' := by
  cases t with
  | storing a s old =>
    have same := same s rfl
    simpa only [Fits, same.lock, same.resident, same.evicting, same.slot] using fits
  | loading a s =>
    have same := same s rfl
    simpa only [Fits, same.lock, same.resident, same.evicting, same.slot] using fits
  | flushing s b =>
    have same := same s rfl
    simpa only [Fits, same.lock, same.resident, same.evicting, same.slot] using fits
  | halted v => exact fits
  | probe | seek | awaitHit | awaitSlot | visit | done => trivial

/-- The slot that a task has locked is locked. -/
theorem Fits.busy {t : Task k m} {c : Cache k m n} (fits : t.Fits c) {s : Fin k}
    (slot : t.slot? = some s) : c.lockAt s = .busy := by
  cases t <;> simp only [slot?, Option.some.injEq, reduceCtorEq] at slot <;>
    exact slot ▸ fits.1

/-- A step that changes at most one slot, one that the task has locked or that nobody had. -/
theorem Moves.at_slot {t t' : Task k m} {c c' : Cache k m n} {s : Fin k}
    (alike : Cache.Alike c c' s) (coherent : c'.Coherent) (fits : t'.Fits c')
    (settles : t.Settles t' c.content c'.content)
    (own : c.lockAt s = .busy → t.slot? = some s) (slot : ∀ i, t.slot? = some i → i = s)
    (slot' : ∀ i, t'.slot? = some i → i = s) (locked : c'.lockAt s = .busy → t'.slot? = some s)
    (inside : c'.lockAt s ≠ .outside) (fails : c'.device.fails = c.device.fails) :
    t.Moves c t' c' where
  coherent := coherent
  fits := fits
  settles := settles
  others {i} busy other := alike.same fun same => other (same ▸ own (same ▸ busy))
  locks {i} taken := by
    have same := slot' i taken
    subst same
    by_cases busy : c.lockAt i = .busy
    · exact .inl (own busy)
    · exact .inr busy
  busy {i} busy := by
    by_cases same : i = s
    · subst same
      exact .inl (locked busy)
    · exact .inr ⟨(alike.same same).lock ▸ busy, fun taken => same (slot i taken)⟩
  outside {i} outside := by
    have ne : i ≠ s := fun same => inside (same ▸ outside)
    exact (alike.same ne).lock ▸ outside
  fails := fails

/-- A step that leaves every slot alone. -/
theorem Moves.of_same {t t' : Task k m} {c c' : Cache k m n} (coherent : c.Coherent)
    (same : ∀ i, Cache.SameAt c c' i) (device : c'.device = c.device) (fits : t'.Fits c')
    (slot : t.slot? = none) (slot' : t'.slot? = none)
    (settles : t.Settles t' c.content c.content) : t.Moves c t' c' := by
  obtain ⟨coherent', content⟩ := coherent.of_same same (congrArg Device.blocks device)
  exact {
    coherent := coherent'
    fits := fits
    settles := content ▸ settles
    others := fun _ _ => same _
    locks := fun taken => by rw [slot'] at taken; cases taken
    busy := fun busy => .inr ⟨(same _).lock ▸ busy, by rw [slot]; exact nofun⟩
    outside := fun outside => (same _).lock ▸ outside
    fails := congrArg Device.fails device }

/-- A step that changes one slot and shows its blocks as they were. -/
theorem Moves.of_kept {t t' : Task k m} {c c' : Cache k m n} {s : Fin k} (coherent : c.Coherent)
    (alike : Cache.Alike c c' s)
    (stands : Cache.Stands c'.device.blocks (c'.residentAt s) (c'.evictingAt s) (c'.lockAt s)
      (c'.slotAt s))
    (fresh : ∀ b, c'.Names s b → c.Names s b ∨ ∀ i, ¬ c.Names i b)
    (kept : ∀ b, c.Names s b ∨ c'.Names s b →
      (c'.slotAt s).view b (c'.device.blocks.get b) = (c.slotAt s).view b (c.device.blocks.get b))
    (fits : t'.Fits c') (settles : t.Settles t' c.content c.content)
    (own : c.lockAt s = .busy → t.slot? = some s) (slot : ∀ i, t.slot? = some i → i = s)
    (slot' : ∀ i, t'.slot? = some i → i = s) (locked : c'.lockAt s = .busy → t'.slot? = some s)
    (inside : c'.lockAt s ≠ .outside) (fails : c'.device.fails = c.device.fails) :
    t.Moves c t' c' := by
  have coherent' := coherent.at_slot alike stands fresh
  have content := coherent.content_at_slot coherent' alike fresh kept
  exact .at_slot alike coherent' fits (content ▸ settles) own slot slot' locked inside fails

/-! ## Using a block -/

open Cache

/-- A slot that has a block shows its bytes. -/
theorem content_of_holds {c : Cache k m n} (coherent : c.Coherent) {s : Fin k} {b : Fin m}
    (holds : (c.slotAt s).holds b = true) : c.content b = (c.slotAt s).data := by
  rw [content_of_names coherent (coherent.names_of_holds holds), Slot.view, if_pos holds]

/-- A slot can be unlocked and left with its block, written or not. -/
theorem unlock_spec {c : Cache k m n} (coherent : c.Coherent) {s : Fin k} {b : Fin m}
    (resident : c.residentAt s = some b) (evicting : c.evictingAt s = none)
    (holds : (c.slotAt s).holds b = true) {x : Slot m n}
    (slot : x = c.slotAt s ∨ ∃ data, x = .dirty b data) (lock : SlotLock) :
    Alike c ((c.setSlot s x).setLock s lock) s ∧ ((c.setSlot s x).setLock s lock).Coherent ∧
      ((c.setSlot s x).setLock s lock).content = Function.update c.content b x.data := by
  have alike : Alike c ((c.setSlot s x).setLock s lock) s :=
    ⟨fun ne => (sameAt_setSlot c ne x).trans (sameAt_setLock _ ne lock), fun _ => rfl⟩
  have names (b' : Fin m) : ((c.setSlot s x).setLock s lock).Names s b' ↔ b' = b := by
    simp [Names, resident, evicting, eq_comm]
  have has : x.holds b = true := by
    rcases slot with rfl | ⟨data, rfl⟩
    · exact holds
    · simp [Slot.holds, Slot.content]
  have coherent' : ((c.setSlot s x).setLock s lock).Coherent := by
    refine coherent.at_slot alike ?_ fun b' named => .inl ?_
    · have stands := coherent.stands s
      simp only [residentAt_setLock, residentAt_setSlot, evictingAt_setLock, evictingAt_setSlot,
        lockAt_setLock, slotAt_setLock, slotAt_setSlot, if_true, device_setLock, device_setSlot]
      rw [resident, evicting] at stands ⊢
      rcases slot with rfl | ⟨data, rfl⟩
      · generalize c.lockAt s = lock', c.slotAt s = slot at stands holds
        cases stands with
        | clean => exact .clean b
        | written _ data => exact .written b data
        | loading => simp [Slot.holds, Slot.content] at holds
      · exact .written b data
    · exact .inl (((names b').1 named) ▸ resident)
  refine ⟨alike, coherent', funext fun b' => ?_⟩
  by_cases same : b' = b
  · subst same
    have here : ((c.setSlot s x).setLock s lock).slotAt s = x := by simp
    rw [Function.update_self, content_of_holds coherent' (here.symm ▸ has), here]
  · rw [Function.update_of_ne same, alike.content_eq coherent coherent' ?_
      (fun named => same ((names b').1 named))]
    simpa [Names, resident, evicting, eq_comm] using same

/-- Using the slot that has the block, and unlocking it. -/
theorem finish_spec {c : Cache k m n} (coherent : c.Coherent) (a : Access m) {s : Fin k}
    (resident : c.residentAt s = some a.block) (evicting : c.evictingAt s = none)
    (holds : (c.slotAt s).holds a.block = true) :
    Alike c (finish a s c).2 s ∧ (finish a s c).2.Coherent ∧
      (finish a s c).2.lockAt s = .free ∧ (finish a s c).2.device = c.device ∧
      ∃ bytes, (finish a s c).1 = .done (.ok bytes) ∧
        a.onContent c.content = (bytes, (finish a s c).2.content) := by
  obtain ⟨data, content⟩ : ∃ data, (c.slotAt s).content = some (a.block, data) := by
    unfold Slot.holds at holds
    split at holds
    · cases holds
    case h_2 b data eq => exact ⟨data, by rw [eq, of_decide_eq_true holds]⟩
  have shows : c.content a.block = data := by
    rw [content_of_holds coherent holds, Slot.data, content]
  have kept := unlock_spec coherent resident evicting holds (.inl rfl) .free
  have data_eq : (c.slotAt s).data = data := by rw [Slot.data, content]
  rw [data_eq, ← shows, Function.update_eq_self] at kept
  have slot_eq : c.slots.get s = c.slotAt s := rfl
  simp only [finish, slot_eq, Use.apply, content]
  obtain ⟨block, use⟩ := a
  cases use with
  | read off len =>
    exact ⟨kept.1, kept.2.1, by simp, rfl, _, rfl, by rw [kept.2.2, Access.onContent, shows]⟩
  | touch => exact ⟨kept.1, kept.2.1, by simp, rfl, _, rfl, by rw [kept.2.2, Access.onContent]⟩
  | write off bytes =>
    have written := unlock_spec coherent resident evicting holds
      (.inr ⟨data.patch off bytes, rfl⟩) .free
    exact ⟨written.1, written.2.1, by simp, rfl, _, rfl, by
      rw [written.2.2, Access.onContent, shows]; rfl⟩

/-- A task that ends by using its block, from a cache that is `c₀` but for the slot. -/
theorem finish_moves {t : Task k m} {c₀ c : Cache k m n} {a : Access m} {s : Fin k}
    (alike : Alike c₀ c s) (coherent : c.Coherent) (content : c.content = c₀.content)
    (resident : c.residentAt s = some a.block) (evicting : c.evictingAt s = none)
    (holds : (c.slotAt s).holds a.block = true) (access : t.access? = some a)
    (own : c₀.lockAt s = .busy → t.slot? = some s) (slot : ∀ i, t.slot? = some i → i = s)
    (fails : c.device.fails = c₀.device.fails) :
    t.Moves c₀ (finish a s c).1 (finish a s c).2 := by
  obtain ⟨alike', coherent', lock, device, bytes, done, used⟩ :=
    finish_spec coherent a resident evicting holds
  have settles : t.Settles (.done (.ok bytes)) c₀.content (finish a s c).2.content := by
    rw [Settles, onContent, access, ← content]
    exact used
  have alike₀ : Alike c₀ (finish a s c).2 s :=
    ⟨fun ne => (alike.same ne).trans (alike'.same ne), fun unnamed => by
      rw [device]; exact alike.blocks unnamed⟩
  rw [done]
  exact .at_slot alike₀ coherent' trivial settles own slot (fun i h => by cases h)
    (fun busy => by rw [lock] at busy; cases busy) (by rw [lock]; decide) (by rw [device, fails])

/-! ## Filling a slot -/

/-- What was in a slot that is given to another block does not matter once the device has it. -/
theorem emptied_spec {c₀ c : Cache k m n} {s : Fin k} {b : Fin m} (coherent : c₀.Coherent)
    (alike : Alike c₀ c s) (resident : c.residentAt s = some b) (evicting : c.evictingAt s = none)
    (busy : c.lockAt s = .busy) (fresh : c₀.Names s b ∨ ∀ i, ¬ c₀.Names i b)
    (saved : ∀ b', c₀.Names s b' ∨ b' = b →
      (c.device.blocks.get b') = (c₀.slotAt s).view b' (c₀.device.blocks.get b'))
    {x : Slot m n} (slot : x = .unused ∨ x = .inUse b (c.device.blocks.get b)) :
    Alike c₀ (c.setSlot s x) s ∧ (c.setSlot s x).Coherent ∧
      (c.setSlot s x).content = c₀.content := by
  have alike' : Alike c₀ (c.setSlot s x) s :=
    ⟨fun ne => (alike.same ne).trans (sameAt_setSlot c ne x), alike.blocks⟩
  have names (b' : Fin m) (named : (c.setSlot s x).Names s b') : b' = b := by
    simpa [Names, resident, evicting, eq_comm] using named
  have fresh' (b' : Fin m) (named : (c.setSlot s x).Names s b') :
      c₀.Names s b' ∨ ∀ i, ¬ c₀.Names i b' := names b' named ▸ fresh
  have coherent' : (c.setSlot s x).Coherent := by
    refine coherent.at_slot alike' ?_ fresh'
    simp only [residentAt_setSlot, evictingAt_setSlot, lockAt_setSlot, slotAt_setSlot, if_true,
      device_setSlot, resident, evicting, busy]
    rcases slot with rfl | rfl
    · exact .loading b
    · exact .clean b
  refine ⟨alike', coherent', coherent.content_at_slot coherent' alike' fresh' fun b' named => ?_⟩
  rw [← saved b' (named.imp_right (names b'))]
  rcases slot with rfl | rfl
  · simp [Slot.view, Slot.holds, Slot.content]
  · simp only [slotAt_setSlot, if_true, device_setSlot, Slot.view, Slot.holds, Slot.data,
      Slot.content, decide_eq_true_eq]
    split
    case isTrue same => rw [same]
    case isFalse => rfl

/-- A slot that is overwritten may have had anything. -/
theorem finish_overwrites {a : Access m} (within : a.Within n) (overwrites : a.use.overwrites n)
    (s : Fin k) (c : Cache k m n) (data data' : Block n) :
    finish a s (c.setSlot s (.inUse a.block data)) =
      finish a s (c.setSlot s (.inUse a.block data')) := by
  obtain ⟨block, use⟩ := a
  cases use with
  | read => cases overwrites
  | touch => cases overwrites
  | write off bytes =>
    have whole : bytes.length = n := of_decide_eq_true overwrites
    have start : off = 0 := by
      simp only [Access.Within] at within
      omega
    subst start
    have patched : data.patch 0 bytes = data'.patch 0 bytes := Vector.ext fun i h => by
      rw [Block.getElem_patch_inside _ _ _ _ _ (by omega) (by omega),
        Block.getElem_patch_inside _ _ _ _ _ (by omega) (by omega)]
    simp [finish, Use.apply, setSlot, Slot.content, patched, setLock]

theorem load_moves {t : Task k m} {c₀ c : Cache k m n} {a : Access m} {s : Fin k}
    (coherent : c₀.Coherent) (within : a.Within n) (alike : Alike c₀ c s)
    (resident : c.residentAt s = some a.block) (evicting : c.evictingAt s = none)
    (busy : c.lockAt s = .busy) (fresh : c₀.Names s a.block ∨ ∀ i, ¬ c₀.Names i a.block)
    (saved : ∀ b, c₀.Names s b ∨ b = a.block →
      c.device.blocks.get b = (c₀.slotAt s).view b (c₀.device.blocks.get b))
    (access : t.access? = some a) (own : c₀.lockAt s = .busy → t.slot? = some s)
    (slot : ∀ i, t.slot? = some i → i = s) (fails : c.device.fails = c₀.device.fails) :
    t.Moves c₀ (load a s c).1 (load a s c).2 := by
  have alike' : Alike c₀ c.countMiss s :=
    ⟨fun ne => (alike.same ne).trans (sameAt_countMiss c _), alike.blocks⟩
  unfold load
  by_cases overwrites : a.use.overwrites n = true
  · obtain ⟨alike₁, coherent₁, content₁⟩ := emptied_spec coherent alike' resident evicting busy
      fresh saved (.inr rfl)
    rw [if_pos overwrites,
      finish_overwrites within overwrites s c.countMiss _ (c.countMiss.device.blocks.get a.block)]
    exact finish_moves alike₁ coherent₁ content₁ resident evicting
      (by simp [Slot.holds, Slot.content]) access own slot fails
  · obtain ⟨alike₁, coherent₁, content₁⟩ := emptied_spec coherent alike' resident evicting busy
      fresh saved (.inl rfl)
    rw [if_neg overwrites]
    exact .at_slot alike₁ coherent₁ ⟨busy, resident, evicting, by simp⟩ ⟨content₁, access.symm⟩ own
      slot (fun i h => (Option.some.inj h).symm) (fun _ => rfl)
      (by change c.lockAt s ≠ .outside; rw [busy]; decide) fails

/-! ## The points of a task -/

variable {c c' : Cache k m n}

/-- A slot that nobody is busy with has the block that the directory says it has. -/
theorem holds_of_idle (coherent : c.Coherent) {s : Fin k} {b : Fin m}
    (idle : c.lockAt s ≠ .busy) (resident : c.residentAt s = some b) :
    c.evictingAt s = none ∧ (c.slotAt s).holds b = true := by
  have stands := coherent.stands s
  rw [resident] at stands
  generalize c.evictingAt s = evicting, c.lockAt s = lock, c.slotAt s = slot at stands idle
  cases stands with
  | clean | written => exact ⟨rfl, by simp [Slot.holds, Slot.content]⟩
  | storing | loading => exact absurd rfl idle

/-- A slot that nobody is busy with has its block by the directory. -/
theorem named_of_idle (coherent : c.Coherent) {s : Fin k} {b : Fin m}
    (idle : c.lockAt s ≠ .busy) (holds : (c.slotAt s).holds b = true) :
    c.residentAt s = some b ∧ c.evictingAt s = none := by
  have stands := coherent.stands s
  generalize c.residentAt s = resident, c.evictingAt s = evicting, c.lockAt s = lock,
    c.slotAt s = slot at stands idle holds
  cases stands with
  | empty => cases holds
  | clean | written => simpa [Slot.holds, Slot.content] using holds
  | storing | loading => exact absurd rfl idle

/-- A slot with nothing to store has nothing that the device does not have. -/
theorem view_of_saved (coherent : c.Coherent) {s : Fin k} (saved : (c.slotAt s).unsaved = none)
    (b : Fin m) : (c.slotAt s).view b (c.device.blocks.get b) = c.device.blocks.get b := by
  have stands := coherent.stands s
  generalize c.residentAt s = resident, c.evictingAt s = evicting, c.lockAt s = lock,
    c.slotAt s = slot at stands saved
  cases stands with
  | empty | loading => simp [Slot.view, Slot.holds, Slot.content]
  | clean b' =>
    simp only [Slot.view, Slot.holds, Slot.data, Slot.content, decide_eq_true_eq]
    split
    case isTrue same => rw [same]
    case isFalse => rfl
  | written | storing => cases saved

/-- A block without a slot is not where the directory names it. -/
theorem unnamed_of_absent {b : Fin m} (absent : c.directory.find b = .absent) (i : Fin k) :
    ¬ c.Names i b := by
  rw [← names_iff, Directory.find_absent absent i]
  exact Bool.false_ne_true

/-- A block that is found in a slot that is free is used there. -/
theorem found_moves {a : Access m} {s : Fin k} (coherent : c.Coherent)
    (found : c.directory.find a.block = .resident s) (free : c.lockAt s = .free) :
    (Task.seek a : Task k m).Moves c
      (finish a s (c.setEntry s { c.directory.entries.get s with accessed := true }).countHit).1
      (finish a s (c.setEntry s { c.directory.entries.get s with accessed := true }).countHit).2 := by
  obtain ⟨evicting, holds⟩ := holds_of_idle coherent (by rw [free]; decide)
    (Directory.find_resident found)
  have marked : ∀ i, SameAt c
      (c.setEntry s { c.directory.entries.get s with accessed := true }).countHit i :=
    fun i => (sameAt_setEntry_accessed c s i true).trans (sameAt_countHit _ i)
  obtain ⟨coherent₁, content₁⟩ := coherent.of_same marked rfl
  refine finish_moves ⟨fun _ => marked _, fun _ => rfl⟩ coherent₁ content₁
    ((marked s).resident.trans (Directory.find_resident found))
    ((marked s).evicting.trans evicting) ((marked s).slot.symm ▸ holds) rfl (fun busy => ?_)
    (fun _ taken => by cases taken) rfl
  rw [free] at busy
  cases busy

/-- A slot with nothing to store is taken, and filled or loaded. -/
theorem clean_moves {a : Access m} {s : Fin k} {c₁ : Cache k m n} (coherent : c.Coherent)
    (within : a.Within n) (absent : c.directory.find a.block = .absent)
    (takes : Takes c a.block ⟨s, none⟩ c₁) :
    (Task.seek a : Task k m).Moves c (load a s c₁).1 (load a s c₁).2 := by
  have alike : Alike c c₁ s := ⟨takes.same, fun _ => by rw [takes.device]⟩
  refine load_moves coherent within alike takes.resident takes.evicting takes.lock
    (.inr (unnamed_of_absent absent)) (fun b _ => ?_) rfl (fun busy => ?_)
    (fun _ taken => by cases taken) (congrArg Device.fails takes.device)
  · rw [takes.device, view_of_saved coherent takes.unsaved.symm]
  · rw [takes.wasFree] at busy
    cases busy

/-- A slot that was written is taken: its block is stored first. -/
theorem dirty_moves {a : Access m} {s : Fin k} {old : Fin m} {c₁ : Cache k m n}
    (coherent : c.Coherent) (absent : c.directory.find a.block = .absent)
    (takes : Takes c a.block ⟨s, some old⟩ c₁) :
    (Task.seek a : Task k m).Moves c (.storing a s old) c₁ := by
  have unnamed := unnamed_of_absent absent
  obtain ⟨data, slot⟩ := Slot.dirty_of_unsaved takes.unsaved.symm
  have alike : Alike c c₁ s := ⟨takes.same, fun _ => by rw [takes.device]⟩
  have names : c.Names s old := coherent.names_of_holds (by
    rw [slot]; simp [Slot.holds, Slot.content])
  have slot₁ : c₁.slotAt s = .dirty old data := takes.slot.trans slot
  have fresh (b : Fin m) (named : c₁.Names s b) : c.Names s b ∨ ∀ i, ¬ c.Names i b := by
    simp only [Names, takes.resident, takes.evicting, Option.some.injEq] at named
    rcases named with rfl | rfl
    · exact .inr unnamed
    · exact .inl names
  have coherent₁ : c₁.Coherent := by
    refine coherent.at_slot alike ?_ fresh
    rw [takes.resident, takes.evicting, takes.lock, slot₁]
    exact .storing _ _ _ fun same => unnamed s (same ▸ names)
  have content₁ : c₁.content = c.content :=
    coherent.content_at_slot coherent₁ alike fresh fun b _ => by
      rw [takes.slot, takes.device]
  refine .at_slot alike coherent₁ ⟨takes.lock, takes.resident, takes.evicting, data, slot₁⟩
    ⟨content₁, rfl⟩ (fun busy => ?_) (fun _ taken => by cases taken)
    (fun i h => (Option.some.inj h).symm) (fun _ => rfl) (by rw [takes.lock]; decide)
    (congrArg Device.fails takes.device)
  rw [takes.wasFree] at busy
  cases busy

theorem seekStep_moves {a : Access m} (coherent : c.Coherent) (within : a.Within n) :
    (Task.seek a : Task k m).Moves c (seekStep a c).1 (seekStep a c).2 := by
  have result := takeSlot_spec coherent a.block
  have seeks := seeks a c
  generalize seekStep a c = ends at seeks ⊢
  cases seeks with
  | hit found free => exact found_moves coherent found free
  | @strange s found free other =>
    have holds := (holds_of_idle coherent (by rw [free]; decide) (Directory.find_resident found)).2
    exact absurd holds other
  | @locked s =>
    exact .of_same coherent (fun i => sameAt_setEntry_accessed c s i true) rfl trivial rfl rfl
      ⟨rfl, rfl⟩
  | evicting => exact .of_same coherent (.refl c) rfl trivial rfl rfl ⟨rfl, rfl⟩
  | @full c₁ absent taken =>
    -- nothing could be taken: another slot is proposed to wait for
    rw [taken] at result
    obtain ⟨device, same⟩ := result
    exact .of_same coherent
      (fun i => (same i).trans (sameAt_of_agrees c₁.directory.agrees_propose i)) device trivial
      rfl rfl ⟨rfl, rfl⟩
  | clean absent taken =>
    rw [taken] at result
    exact clean_moves coherent within absent result
  | dirty absent taken =>
    rw [taken] at result
    exact dirty_moves coherent absent result

/-- A slot whose block was stored: the device has it, and other blocks as before. -/
theorem view_of_stored {slot : Slot m n} {old : Fin m} {data : Block n}
    (dirty : slot = .dirty old data) (blocks : Vector (Block n) m) (b : Fin m) :
    (blocks.set old data old.isLt).get b = slot.view b (blocks.get b) := by
  subst dirty
  simp [Slot.view, Slot.holds, Slot.data, Slot.content, eq_comm]

/-- A step that fails at the device gives up its slot, which shows what it showed. -/
theorem fail_moves {t : Task k m} {c₀ c : Cache k m n} {s : Fin k} {kind : IoKind} {b : Fin m}
    (coherent : c₀.Coherent) (held : t.slot? = some s) (same : ∀ {i}, i ≠ s → SameAt c₀ c i)
    (slot : c.slotAt s = c₀.slotAt s) (blocks : c.device.blocks = c₀.device.blocks)
    (stands : Stands c.device.blocks (c.residentAt s) (c.evictingAt s) .free (c.slotAt s))
    (names : ∀ b, c.Names s b → c₀.Names s b) (fails : c.device.fails = c₀.device.fails) :
    t.Moves c₀ (fail kind b s c).1 (fail kind b s c).2 := by
  have alike : Alike c₀ (c.setLock s .free) s :=
    ⟨fun ne => (same ne).trans (sameAt_setLock c ne .free), fun _ =>
      congrArg (Vector.get · _) blocks⟩
  unfold fail
  refine .of_kept coherent alike ?_ (fun b named => .inl (names b named)) (fun b _ => ?_) trivial
    rfl (fun _ => held) (fun i taken => Option.some.inj (taken.symm.trans held)) nofun
    (fun busy => ?_) ?_ fails
  · simpa using stands
  · dsimp only
    rw [slotAt_setLock, device_setLock, slot, blocks]
  · simp at busy
  · simp

theorem storeStep_moves {a : Access m} {s : Fin k} {old : Fin m} (coherent : c.Coherent)
    (within : a.Within n) (fits : (Task.storing a s old).Fits c) :
    (Task.storing a s old).Moves c (storeStep a s old c).1 (storeStep a s old c).2 := by
  obtain ⟨busy, resident, evicting, data, slot⟩ := fits
  have own (i : Fin k) (h : (Task.storing a s old).slot? = some i) : i = s :=
    (Option.some.inj h).symm
  have data_eq : (c.slots.get s).data = data := by
    change (c.slotAt s).data = data
    rw [slot]
    rfl
  unfold storeStep
  rw [data_eq]
  generalize written : c.device.write old data = result
  obtain ⟨_ | _, device⟩ := result
  · -- the slot goes back to the old block
    obtain ⟨-, blocks, fails⟩ := Device.write_false written
    dsimp only
    refine fail_moves coherent rfl (fun ne => ?_) rfl blocks ?_ (fun b named => ?_) fails
    · exact (sameAt_withDevice c device _).trans (sameAt_setEntry _ ne _)
    · simpa [slot, Entry.holding] using Stands.written old data
    · simp only [Names, residentAt_setEntry, if_true, Entry.holding, Option.some.injEq,
        evictingAt_setEntry, reduceCtorEq, or_false] at named
      exact .inr (named ▸ evicting)
  · obtain ⟨-, blocks, fails⟩ := Device.write_true written
    have stored (b : Fin m) : device.blocks.get b = (c.slotAt s).view b (c.device.blocks.get b) := by
      rw [blocks, view_of_stored slot]
    refine load_moves coherent within ⟨fun ne => ?_, fun {b} unnamed => ?_⟩ ?_ ?_ busy
      (.inl (.inl resident)) (fun b _ => stored b) rfl (fun _ => rfl) own fails
    · exact (sameAt_withDevice c device _).trans
        ((sameAt_countWriteback _ _).trans (sameAt_setEntry _ ne _))
    · refine (stored b).trans (if_neg fun holds => unnamed (coherent.names_of_holds holds))
    · rw [residentAt_setEntry, if_pos rfl]
      exact resident
    · rw [evictingAt_setEntry, if_pos rfl]

theorem loadStep_moves {a : Access m} {s : Fin k} (coherent : c.Coherent)
    (fits : (Task.loading a s).Fits c) :
    (Task.loading a s).Moves c (loadStep a s c).1 (loadStep a s c).2 := by
  obtain ⟨busy, resident, evicting, slot⟩ := fits
  have own (i : Fin k) (h : (Task.loading a s).slot? = some i) : i = s := (Option.some.inj h).symm
  unfold loadStep
  generalize loaded : c.device.read a.block = result
  obtain ⟨_ | data, device⟩ := result
  · -- the slot goes back to the unused ones
    obtain ⟨-, blocks, fails⟩ := Device.read_none loaded
    dsimp only
    refine fail_moves coherent rfl (fun ne => ?_) rfl blocks ?_ (fun b named => ?_) fails
    · exact (sameAt_withDevice c device _).trans (sameAt_setEntry _ ne _)
    · simpa [slot] using Stands.empty (by decide)
    · simp [Names] at named
  · obtain ⟨-, rfl, blocks, fails⟩ := Device.read_some loaded
    have saved (b : Fin m) : device.blocks.get b = (c.slotAt s).view b (c.device.blocks.get b) := by
      rw [slot, blocks]
      rfl
    obtain ⟨alike, coherent₁, content₁⟩ := emptied_spec (c := { c with device }) coherent
      ⟨fun _ => sameAt_withDevice c device _, fun _ => congrArg (Vector.get · _) blocks⟩ resident evicting
      busy (.inl (.inl resident)) (fun b _ => saved b) (.inr rfl)
    dsimp only
    rw [← blocks]
    exact finish_moves alike coherent₁ content₁ resident evicting
      (by simp [Slot.holds, Slot.content]) rfl (fun _ => rfl) own fails

/-- A slot with nothing to store is passed over, and its lock left free. -/
theorem passed_moves {s : Fin k} (coherent : c.Coherent) (idle : c.lockAt s ≠ .busy) :
    (Task.visit s.val : Task k m).Moves c (.visit (s.val + 1)) (c.setLock s .free) := by
  have alike : Alike c (c.setLock s .free) s := ⟨fun ne => sameAt_setLock c ne .free, fun _ => rfl⟩
  refine .of_kept coherent alike ?_ (fun b named => .inl named) (fun b _ => rfl) trivial ⟨rfl, rfl⟩
    (fun busy => absurd busy idle) nofun nofun (fun busy => ?_) ?_ rfl
  · simpa using (coherent.stands s).relock idle .free (by decide)
  · simp at busy
  · simp

/-- A slot that was written is locked until its block is stored. -/
theorem unsaved_moves {s : Fin k} {b : Fin m} (coherent : c.Coherent) (idle : c.lockAt s ≠ .busy)
    (unsaved : (c.slotAt s).unsaved = some b) :
    (Task.visit s.val : Task k m).Moves c (.flushing s b) (c.setLock s .busy) := by
  have alike : Alike c (c.setLock s .busy) s := ⟨fun ne => sameAt_setLock c ne .busy, fun _ => rfl⟩
  obtain ⟨data, slot⟩ := Slot.dirty_of_unsaved unsaved
  have stands := coherent.stands s
  rw [slot] at stands
  obtain ⟨resident, evicting⟩ := stands.of_dirty idle
  refine .of_kept coherent alike ?_ (fun b named => .inl named) (fun b _ => rfl)
    ⟨by simp, resident, evicting, data, slot⟩ ⟨rfl, rfl⟩ (fun busy => absurd busy idle) nofun
    (fun i taken => (Option.some.inj taken).symm) (fun _ => rfl) (by simp) rfl
  simpa [resident, evicting, slot] using Stands.written b data

theorem flushStep_moves {s : Fin k} {b : Fin m} (coherent : c.Coherent)
    (fits : (Task.flushing s b).Fits c) :
    (Task.flushing s b).Moves c (flushStep s b c).1 (flushStep s b c).2 := by
  obtain ⟨busy, resident, evicting, data, slot⟩ := fits
  have own (i : Fin k) (h : (Task.flushing s b : Task k m).slot? = some i) : i = s :=
    (Option.some.inj h).symm
  have data_eq : (c.slots.get s).data = data := by
    change (c.slotAt s).data = data
    rw [slot]
    rfl
  unfold flushStep
  rw [data_eq]
  generalize written : c.device.write b data = result
  obtain ⟨_ | _, device⟩ := result
  · obtain ⟨-, blocks, fails⟩ := Device.write_false written
    dsimp only
    refine fail_moves coherent rfl (fun _ => sameAt_withDevice c device _) rfl blocks ?_
      (fun b named => named) fails
    simpa [slot, resident, evicting] using Stands.written b data
  · obtain ⟨-, blocks, fails⟩ := Device.write_true written
    have stored (b : Fin m) : device.blocks.get b = (c.slotAt s).view b (c.device.blocks.get b) := by
      rw [blocks, view_of_stored slot]
    have here : device.blocks.get b = data := by rw [blocks]; simp
    dsimp only
    generalize final : (({ c with device }.setSlot s (.inUse b data)).countWriteback.setLock s
      .free) = c₂
    have slot₂ : c₂.slotAt s = .inUse b data := by
      subst final
      exact (slotAt_setSlot _ s s _).trans (if_pos rfl)
    have lock₂ : c₂.lockAt s = .free := by
      subst final
      simp
    have device₂ : c₂.device = device := by
      subst final
      rfl
    refine .of_kept (s := s) coherent ⟨fun ne => ?_, fun {b} unnamed => ?_⟩ ?_
      (fun b' named => .inl ?_) (fun b' _ => ?_) trivial ⟨rfl, rfl⟩ (fun _ => rfl) own nofun
      (fun busy => ?_) ?_ (device₂ ▸ fails)
    · subst final
      exact (sameAt_withDevice c device _).trans ((sameAt_setSlot _ ne _).trans
        ((sameAt_countWriteback _ _).trans (sameAt_setLock _ ne _)))
    · rw [device₂]
      exact (stored b).trans (if_neg fun holds => unnamed (coherent.names_of_holds holds))
    · have clean : Stands device.blocks (some b) none .free (.inUse b (device.blocks.get b)) := .clean b
      rw [here, ← resident, ← evicting] at clean
      rw [device₂, slot₂, lock₂]
      subst final
      exact clean
    · subst final
      exact named
    · rw [device₂, ← stored b', slot₂]
      simp only [Slot.view, Slot.holds, Slot.data, Slot.content, decide_eq_true_eq]
      split
      case isTrue same => rw [← same, here]
      case isFalse => rfl
    · rw [lock₂] at busy
      cases busy
    · rw [lock₂]
      decide

/-- A task that sleeps on a lock leaves it free, and looks its block up again. -/
theorem again_moves {t : Task k m} {a : Access m} {s : Fin k} (coherent : c.Coherent)
    (idle : c.lockAt s ≠ .busy) (sleeps : t.slot? = none) (access : t.access? = some a) :
    t.Moves c (.seek a) (c.setLock s .free) := by
  obtain ⟨alike, coherent', content⟩ := coherent.relock idle .free (by decide)
  refine .at_slot alike coherent' trivial ⟨content, access.symm⟩ (fun busy => absurd busy idle)
    (fun i taken => ?_) nofun (fun busy => ?_) ?_ rfl
  · rw [sleeps] at taken
    cases taken
  · simp at busy
  · simp

/-- **Every step of a task keeps the cache coherent and settles its content.** -/
theorem moves_of_step {t t' : Task k m} (coherent : c.Coherent) (fits : t.Fits c)
    (within : t.Within n) (step : t.step c = some (t', c')) : t.Moves c t' c' := by
  cases steps_of_step step with
  | absent => exact .of_same coherent (.refl c) rfl trivial rfl rfl ⟨rfl, rfl⟩
  | present | through => exact .of_same coherent (.refl c) rfl trivial rfl rfl rfl
  | seek a => exact seekStep_moves coherent (within a rfl)
  | @hit a s idle holds =>
    obtain ⟨alike, coherent', content⟩ := coherent.relock idle .free (by decide)
    obtain ⟨resident, evicting⟩ := named_of_idle coherent idle holds
    obtain ⟨coherent₁, content₁⟩ := coherent'.of_same (sameAt_countHit _) rfl
    exact finish_moves ⟨fun ne => (alike.same ne).trans (sameAt_countHit _ _), alike.blocks⟩
      coherent₁ (content₁.trans content) resident evicting holds rfl (fun busy => absurd busy idle)
      nofun rfl
  | lost idle | awake idle => exact again_moves coherent idle rfl rfl
  | store a s old => exact storeStep_moves coherent (within a rfl) fits
  | load a s => exact loadStep_moves coherent fits
  | passed idle => exact passed_moves coherent idle
  | unsaved idle unsaved => exact unsaved_moves coherent idle unsaved
  | flush s b => exact flushStep_moves coherent fits

end Task

end SectorFs
