/-
# SectorFs.Proofs.Cache.Coherence — when directory, slots and device agree

A cache is coherent (`Cache.Coherent`) when every slot stands in one of five
ways (`Stands`) and no block is named twice by the directory. Coherence is what
makes `Cache.content` mean something: the slot that the directory names for a
block decides its content (`content_of_names`), and the device does if no slot
is named (`content_of_unnamed`).

Every change to a cache is a change at one slot. `Alike c c' s` says that `c'`
differs from `c` at most there; then coherence needs to be checked at `s` only
(`Coherent.at_slot`), and the blocks that `s` does not name keep their content
(`Alike.content_eq`).
-/
import SectorFs.Cache.Task
import Mathlib.Logic.Function.Basic

namespace SectorFs

set_option autoImplicit false

@[simp] theorem get_set {α : Type} {n : Nat} (xs : Vector α n) (i j : Fin n) (x : α) :
    (xs.set i x i.isLt).get j = if j = i then x else xs.get j := by
  change (xs.set i x i.isLt)[j.val] = _
  rw [Vector.getElem_set]
  simp only [Fin.val_inj, eq_comm]
  rfl

@[simp] theorem get_replicate {α : Type} {n : Nat} (x : α) (i : Fin n) :
    (Vector.replicate n x).get i = x :=
  Vector.getElem_replicate i.isLt

/-- What a reader finds of block `b` in a slot, where `stored` is what the device has. -/
def Slot.view {m n : Nat} (slot : Slot m n) (b : Fin m) (stored : Block n) : Block n :=
  if slot.holds b then slot.data else stored

namespace Cache

variable {k m n : Nat}

/-! ## What there is to see of a slot -/

/-- The block that the directory gives slot `s` to. -/
def residentAt (c : Cache k m n) (s : Fin k) : Option (Fin m) := (c.directory.entries.get s).resident

/-- The block that slot `s` is storing, by the directory. -/
def evictingAt (c : Cache k m n) (s : Fin k) : Option (Fin m) := (c.directory.entries.get s).evicting

def lockAt (c : Cache k m n) (s : Fin k) : SlotLock := c.locks.get s

def slotAt (c : Cache k m n) (s : Fin k) : Slot m n := c.slots.get s

/-- The directory names slot `s` for block `b`. -/
def Names (c : Cache k m n) (s : Fin k) (b : Fin m) : Prop :=
  c.residentAt s = some b ∨ c.evictingAt s = some b

theorem names_iff (c : Cache k m n) (s : Fin k) (b : Fin m) :
    (c.directory.entries.get s).names b = true ↔ c.Names s b := by
  simp [Entry.names, Names, residentAt, evictingAt]

/-! ## Coherence -/

/-- The ways in which a slot can stand: what the directory says of it, who has its lock, and what
it has. -/
inductive Stands (blocks : Vector (Block n) m) :
    Option (Fin m) → Option (Fin m) → SlotLock → Slot m n → Prop where
  | empty {lock : SlotLock} : lock ≠ .busy → Stands blocks none none lock .unused
  /-- A block as the device has it. -/
  | clean {lock : SlotLock} (b : Fin m) : Stands blocks (some b) none lock (.inUse b (blocks.get b))
  /-- A block that was written; a task that has the lock is storing it. -/
  | written {lock : SlotLock} (b : Fin m) (data : Block n) :
      Stands blocks (some b) none lock (.dirty b data)
  /-- Taken for `b`, with `old` still to be stored. -/
  | storing (b old : Fin m) (data : Block n) :
      old ≠ b → Stands blocks (some b) (some old) .busy (.dirty old data)
  /-- Taken for `b` and about to be loaded. -/
  | loading (b : Fin m) : Stands blocks (some b) none .busy .unused

/-- While nobody is busy with a slot it does not matter whether its lock is held. -/
theorem Stands.relock {blocks : Vector (Block n) m} {resident evicting : Option (Fin m)}
    {lock : SlotLock} {slot : Slot m n} (stands : Stands blocks resident evicting lock slot)
    (idle : lock ≠ .busy) (lock' : SlotLock) (idle' : lock' ≠ .busy) :
    Stands blocks resident evicting lock' slot := by
  cases stands with
  | empty => exact .empty idle'
  | clean b => exact .clean b
  | written b data => exact .written b data
  | storing | loading => exact absurd rfl idle

/-- The directory names a written slot that nobody is busy with for its block. -/
theorem Stands.of_dirty {blocks : Vector (Block n) m} {resident evicting : Option (Fin m)}
    {lock : SlotLock} {b : Fin m} {data : Block n}
    (stands : Stands blocks resident evicting lock (.dirty b data)) (idle : lock ≠ .busy) :
    resident = some b ∧ evicting = none := by
  cases stands with
  | written => exact ⟨rfl, rfl⟩
  | storing => exact absurd rfl idle

/-- Directory, slots and device agree. -/
structure Coherent (c : Cache k m n) : Prop where
  stands (s : Fin k) :
    Stands c.device.blocks (c.residentAt s) (c.evictingAt s) (c.lockAt s) (c.slotAt s)
  distinct {s s' : Fin k} {b : Fin m} : c.Names s b → c.Names s' b → s = s'

/-- A slot has only a block that the directory names it for. -/
theorem Coherent.names_of_holds {c : Cache k m n} (coherent : c.Coherent) {s : Fin k} {b : Fin m}
    (holds : (c.slotAt s).holds b = true) : c.Names s b := by
  have stands := coherent.stands s
  unfold Names
  generalize c.residentAt s = resident, c.evictingAt s = evicting, c.lockAt s = lock,
    c.slotAt s = slot at stands holds
  cases stands <;> simp_all [Slot.holds, Slot.content]

/-- A slot that nobody is busy with is storing nothing. -/
theorem evicting_of_idle {c : Cache k m n} (coherent : c.Coherent) {s : Fin k}
    (idle : c.lockAt s ≠ .busy) : c.evictingAt s = none := by
  have stands := coherent.stands s
  generalize c.residentAt s = resident, c.evictingAt s = evicting, c.lockAt s = lock,
    c.slotAt s = slot at stands idle
  cases stands with
  | empty | clean | written => rfl
  | storing | loading => exact absurd rfl idle

/-- The slot that the directory names for a block decides its content. -/
theorem content_of_names {c : Cache k m n} (coherent : c.Coherent) {s : Fin k} {b : Fin m}
    (names : c.Names s b) : c.content b = (c.slotAt s).view b (c.device.blocks.get b) := by
  unfold content
  split
  case h_1 none =>
    have := List.find?_eq_none.1 none s (List.mem_finRange s)
    rw [Slot.view, if_neg (by simpa [slotAt] using this)]
  case h_2 s' found =>
    have holds := List.find?_some found
    have same : s' = s := coherent.distinct (coherent.names_of_holds holds) names
    subst same
    rw [Slot.view, if_pos (by simpa [slotAt] using holds)]
    rfl

/-- A block without a slot is as the device has it. -/
theorem content_of_unnamed {c : Cache k m n} (coherent : c.Coherent) {b : Fin m}
    (unnamed : ∀ s, ¬ c.Names s b) : c.content b = c.device.blocks.get b := by
  unfold content
  split
  case h_1 => rfl
  case h_2 s found =>
    have holds : (c.slotAt s).holds b = true := by simpa [slotAt] using List.find?_some found
    exact absurd (coherent.names_of_holds holds) (unnamed s)

/-! ## Changes at one slot -/

/-- Slot `i` stands in `c'` as it does in `c`. -/
structure SameAt (c c' : Cache k m n) (i : Fin k) : Prop where
  resident : c'.residentAt i = c.residentAt i
  evicting : c'.evictingAt i = c.evictingAt i
  lock : c'.lockAt i = c.lockAt i
  slot : c'.slotAt i = c.slotAt i

/-- `c'` is `c` but for slot `s` and the blocks that it is named for. Marks of use, counters and
the device's record of calls may differ anywhere. -/
structure Alike (c c' : Cache k m n) (s : Fin k) : Prop where
  same {i : Fin k} : i ≠ s → SameAt c c' i
  blocks {b : Fin m} : ¬ c.Names s b → c'.device.blocks.get b = c.device.blocks.get b

namespace Alike

variable {c c' : Cache k m n} {s : Fin k}

theorem names_iff (alike : Alike c c' s) {i : Fin k} (ne : i ≠ s) (b : Fin m) :
    c'.Names i b ↔ c.Names i b := by
  unfold Names
  rw [(alike.same ne).resident, (alike.same ne).evicting]

/-- A slot that is clean elsewhere is still as the device has it. -/
theorem stands (alike : Alike c c' s) (coherent : c.Coherent) {i : Fin k} (ne : i ≠ s) :
    Stands c'.device.blocks (c'.residentAt i) (c'.evictingAt i) (c'.lockAt i) (c'.slotAt i) := by
  have before := coherent.stands i
  have own (b : Fin m) (names : c.residentAt i = some b) :
      c'.device.blocks.get b = c.device.blocks.get b :=
    alike.blocks fun other => ne (coherent.distinct (.inl names) other)
  rw [(alike.same ne).resident, (alike.same ne).evicting, (alike.same ne).lock,
    (alike.same ne).slot]
  generalize c.residentAt i = resident, c.evictingAt i = evicting, c.lockAt i = lock,
    c.slotAt i = slot at before own
  cases before with
  | empty free => exact .empty free
  | clean b => rw [← own b rfl]; exact .clean b
  | written b data => exact .written b data
  | storing b old data ne => exact .storing b old data ne
  | loading b => exact .loading b

/-- Blocks that the slot is named for neither before nor after keep their content. -/
theorem content_eq (alike : Alike c c' s) (coherent : c.Coherent) (coherent' : c'.Coherent)
    {b : Fin m} (before : ¬ c.Names s b) (after : ¬ c'.Names s b) :
    c'.content b = c.content b := by
  by_cases named : ∃ i, c.Names i b
  · obtain ⟨i, names⟩ := named
    have ne : i ≠ s := fun same => before (same ▸ names)
    rw [content_of_names coherent names,
      content_of_names coherent' ((alike.names_iff ne b).2 names), (alike.same ne).slot,
      alike.blocks before]
  · rw [not_exists] at named
    have named' : ∀ i, ¬ c'.Names i b := fun i names => by
      by_cases same : i = s
      · exact after (same ▸ names)
      · exact named i ((alike.names_iff same b).1 names)
    rw [content_of_unnamed coherent named, content_of_unnamed coherent' named',
      alike.blocks before]

end Alike

/-- A change at one slot keeps coherence if the slot stands well and takes no block from another
slot. -/
theorem Coherent.at_slot {c c' : Cache k m n} {s : Fin k} (coherent : c.Coherent)
    (alike : Alike c c' s)
    (stands : Stands c'.device.blocks (c'.residentAt s) (c'.evictingAt s) (c'.lockAt s)
      (c'.slotAt s))
    (fresh : ∀ b, c'.Names s b → c.Names s b ∨ ∀ i, ¬ c.Names i b) : c'.Coherent where
  stands i := by
    by_cases same : i = s
    · exact same ▸ stands
    · exact alike.stands coherent same
  distinct {i j b} names names' := by
    have other {i : Fin k} (ne : i ≠ s) (names : c'.Names i b) : ¬ c'.Names s b := fun here => by
      rcases fresh b here with own | none
      · exact ne (coherent.distinct ((alike.names_iff ne b).1 names) own)
      · exact none i ((alike.names_iff ne b).1 names)
    by_cases hi : i = s
    · by_cases hj : j = s
      · exact hi.trans hj.symm
      · exact absurd (hi ▸ names) (other hj names')
    · by_cases hj : j = s
      · exact absurd (hj ▸ names') (other hi names)
      · exact coherent.distinct ((alike.names_iff hi b).1 names) ((alike.names_iff hj b).1 names')

/-- A slot that alone can have a block decides its content. -/
theorem content_of_only {c : Cache k m n} (coherent : c.Coherent) {s : Fin k} {b : Fin m}
    (only : c.Names s b ∨ ∀ i, ¬ c.Names i b) :
    c.content b = (c.slotAt s).view b (c.device.blocks.get b) := by
  rcases only with names | unnamed
  · exact content_of_names coherent names
  · rw [content_of_unnamed coherent unnamed, Slot.view,
      if_neg fun holds => unnamed s (coherent.names_of_holds holds)]

/-- A change at one slot that shows its blocks as they were changes no content. -/
theorem Coherent.content_at_slot {c c' : Cache k m n} {s : Fin k} (coherent : c.Coherent)
    (coherent' : c'.Coherent) (alike : Alike c c' s)
    (fresh : ∀ b, c'.Names s b → c.Names s b ∨ ∀ i, ¬ c.Names i b)
    (kept : ∀ b, c.Names s b ∨ c'.Names s b →
      (c'.slotAt s).view b (c'.device.blocks.get b) = (c.slotAt s).view b (c.device.blocks.get b)) :
    c'.content = c.content := by
  funext b
  by_cases after : c'.Names s b
  · rw [content_of_only coherent' (.inl after), content_of_only coherent (fresh b after),
      kept b (.inr after)]
  · by_cases before : c.Names s b
    · have unnamed : ∀ i, ¬ c'.Names i b := fun i names => by
        have ne : i ≠ s := fun same => after (same ▸ names)
        exact ne (coherent.distinct ((alike.names_iff ne b).1 names) before)
      rw [content_of_only coherent' (.inr unnamed), content_of_only coherent (.inl before),
        kept b (.inl before)]
    · exact alike.content_eq coherent coherent' before after

/-- If every slot and the device are left alone, nothing changes. -/
theorem Coherent.of_same {c c' : Cache k m n} (coherent : c.Coherent)
    (same : ∀ i, SameAt c c' i) (blocks : c'.device.blocks = c.device.blocks) :
    c'.Coherent ∧ c'.content = c.content := by
  let s := c.directory.hand
  have alike : Alike c c' s := ⟨fun _ => same _, fun _ => by rw [blocks]⟩
  have names (b : Fin m) : c'.Names s b ↔ c.Names s b := by
    unfold Names
    rw [(same s).resident, (same s).evicting]
  have fresh (b : Fin m) (h : c'.Names s b) : c.Names s b ∨ ∀ i, ¬ c.Names i b :=
    .inl ((names b).1 h)
  have coherent' : c'.Coherent := coherent.at_slot alike
    (by rw [(same s).resident, (same s).evicting, (same s).lock, (same s).slot, blocks]
        exact coherent.stands s) fresh
  exact ⟨coherent', coherent.content_at_slot coherent' alike fresh
    fun b _ => by rw [(same s).slot, blocks]⟩

/-! ## What single changes show -/

section Updates

variable (c : Cache k m n) (s i : Fin k)

@[simp] theorem residentAt_setEntry (e : Entry m) :
    (c.setEntry s e).residentAt i = if i = s then e.resident else c.residentAt i := by
  simp only [residentAt, setEntry, Directory.set, get_set]
  split <;> rfl

@[simp] theorem evictingAt_setEntry (e : Entry m) :
    (c.setEntry s e).evictingAt i = if i = s then e.evicting else c.evictingAt i := by
  simp only [evictingAt, setEntry, Directory.set, get_set]
  split <;> rfl

@[simp] theorem lockAt_setEntry (e : Entry m) : (c.setEntry s e).lockAt i = c.lockAt i := rfl

@[simp] theorem slotAt_setEntry (e : Entry m) : (c.setEntry s e).slotAt i = c.slotAt i := rfl

@[simp] theorem device_setEntry (e : Entry m) : (c.setEntry s e).device = c.device := rfl

@[simp] theorem residentAt_setSlot (x : Slot m n) :
    (c.setSlot s x).residentAt i = c.residentAt i := rfl

@[simp] theorem evictingAt_setSlot (x : Slot m n) :
    (c.setSlot s x).evictingAt i = c.evictingAt i := rfl

@[simp] theorem lockAt_setSlot (x : Slot m n) : (c.setSlot s x).lockAt i = c.lockAt i := rfl

@[simp] theorem slotAt_setSlot (x : Slot m n) :
    (c.setSlot s x).slotAt i = if i = s then x else c.slotAt i := by
  simp only [slotAt, setSlot, get_set]

@[simp] theorem device_setSlot (x : Slot m n) : (c.setSlot s x).device = c.device := rfl

@[simp] theorem residentAt_setLock (l : SlotLock) :
    (c.setLock s l).residentAt i = c.residentAt i := rfl

@[simp] theorem evictingAt_setLock (l : SlotLock) :
    (c.setLock s l).evictingAt i = c.evictingAt i := rfl

@[simp] theorem lockAt_setLock (l : SlotLock) :
    (c.setLock s l).lockAt i = if i = s then l else c.lockAt i := by
  simp only [lockAt, setLock, get_set]

@[simp] theorem slotAt_setLock (l : SlotLock) : (c.setLock s l).slotAt i = c.slotAt i := rfl

@[simp] theorem device_setLock (l : SlotLock) : (c.setLock s l).device = c.device := rfl

@[simp] theorem residentAt_withDevice (d : Device m n) :
    ({ c with device := d } : Cache k m n).residentAt i = c.residentAt i := rfl

@[simp] theorem evictingAt_withDevice (d : Device m n) :
    ({ c with device := d } : Cache k m n).evictingAt i = c.evictingAt i := rfl

@[simp] theorem lockAt_withDevice (d : Device m n) :
    ({ c with device := d } : Cache k m n).lockAt i = c.lockAt i := rfl

@[simp] theorem slotAt_withDevice (d : Device m n) :
    ({ c with device := d } : Cache k m n).slotAt i = c.slotAt i := rfl

end Updates

/-! ### Slots that a change leaves alone -/

section Elsewhere

variable (c : Cache k m n) {s i : Fin k}

theorem SameAt.refl (c : Cache k m n) (i : Fin k) : SameAt c c i := ⟨rfl, rfl, rfl, rfl⟩

theorem SameAt.trans {c c' c'' : Cache k m n} {i : Fin k} (h : SameAt c c' i)
    (h' : SameAt c' c'' i) : SameAt c c'' i :=
  ⟨h'.resident.trans h.resident, h'.evicting.trans h.evicting, h'.lock.trans h.lock,
    h'.slot.trans h.slot⟩

theorem sameAt_setEntry (ne : i ≠ s) (e : Entry m) : SameAt c (c.setEntry s e) i :=
  ⟨by simp [ne], by simp [ne], rfl, rfl⟩

theorem sameAt_setSlot (ne : i ≠ s) (x : Slot m n) : SameAt c (c.setSlot s x) i :=
  ⟨rfl, rfl, rfl, by simp [ne]⟩

theorem sameAt_setLock (ne : i ≠ s) (l : SlotLock) : SameAt c (c.setLock s l) i :=
  ⟨rfl, rfl, by simp [ne], rfl⟩

theorem sameAt_withDevice (d : Device m n) (i : Fin k) :
    SameAt c { c with device := d } i := ⟨rfl, rfl, rfl, rfl⟩

theorem sameAt_countHit (i : Fin k) : SameAt c c.countHit i := ⟨rfl, rfl, rfl, rfl⟩

theorem sameAt_countMiss (i : Fin k) : SameAt c c.countMiss i := ⟨rfl, rfl, rfl, rfl⟩

theorem sameAt_countEviction (i : Fin k) : SameAt c c.countEviction i := ⟨rfl, rfl, rfl, rfl⟩

theorem sameAt_countWriteback (i : Fin k) : SameAt c c.countWriteback i := ⟨rfl, rfl, rfl, rfl⟩

/-- Marks of use do not matter. -/
theorem sameAt_setEntry_accessed (s i : Fin k) (accessed : Bool) :
    SameAt c (c.setEntry s { c.directory.entries.get s with accessed }) i := by
  by_cases same : i = s
  · subst same
    exact ⟨(residentAt_setEntry c i i _).trans (if_pos rfl),
      (evictingAt_setEntry c i i _).trans (if_pos rfl), rfl, rfl⟩
  · exact sameAt_setEntry c same _

end Elsewhere

/-- A lock that is taken or given up from outside changes nothing. -/
theorem Coherent.relock {c : Cache k m n} (coherent : c.Coherent) {s : Fin k}
    (idle : c.lockAt s ≠ .busy) (lock : SlotLock) (idle' : lock ≠ .busy) :
    Alike c (c.setLock s lock) s ∧ (c.setLock s lock).Coherent ∧
      (c.setLock s lock).content = c.content := by
  have alike : Alike c (c.setLock s lock) s := ⟨fun ne => sameAt_setLock c ne lock, fun _ => rfl⟩
  have coherent' : (c.setLock s lock).Coherent :=
    coherent.at_slot alike (by simpa using (coherent.stands s).relock idle lock idle') fun b h => .inl h
  exact ⟨alike, coherent', coherent.content_at_slot coherent' alike (fun b h => .inl h)
    fun b _ => rfl⟩

end Cache

end SectorFs
