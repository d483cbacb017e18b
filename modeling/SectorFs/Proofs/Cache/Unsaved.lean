/-
# SectorFs.Proofs.Cache.Unsaved — a block is stored only if it was written

`Cache.Owes c b`: some slot has block `b` as it was written, and not yet stored.
A step stores only such a block, and settles what was owed by it; only a use that
writes makes a block owed, and only by ending well (`Task.owes_of_step`).

Beside the steps runs a list of marks, one for each device call and one for each
write that ended well. `Due marks b`: block `b` was written, and not stored since.
`Squared marks c`: whatever is owed is due, and so was each block for which the
device was called to store it. That stays so along every run (`Task.run_posts`).
-/
import SectorFs.Proofs.Cache.Postings

namespace SectorFs

set_option autoImplicit false

variable {k m n : Nat}

/-- Whether bytes are written into the block. -/
def Use.writes : Use → Bool
  | .write _ _ => true
  | _ => false

namespace Cache

variable {c c' : Cache k m n} {b : Fin m}

/-- Some slot has the block as it was written, and not yet stored. -/
def Owes (c : Cache k m n) (b : Fin m) : Prop := ∃ s, (c.slotAt s).unsaved = some b

theorem holds_of_unsaved {slot : Slot m n} (unsaved : slot.unsaved = some b) :
    slot.holds b = true := by
  obtain ⟨data, rfl⟩ := Slot.dirty_of_unsaved unsaved
  simp [Slot.holds, Slot.content]

/-- The slots that owe something owe different blocks. -/
theorem Coherent.slot_of_unsaved (coherent : c.Coherent) {i s : Fin k}
    (here : (c.slotAt i).unsaved = some b) (there : (c.slotAt s).unsaved = some b) : i = s :=
  coherent.distinct (coherent.names_of_holds (holds_of_unsaved here))
    (coherent.names_of_holds (holds_of_unsaved there))

theorem Owes.of_slots (owes : c'.Owes b) (same : ∀ i, c'.slotAt i = c.slotAt i) : c.Owes b := by
  obtain ⟨s, unsaved⟩ := owes
  exact ⟨s, same s ▸ unsaved⟩

/-- With a slot filled that owes nothing, only the others can. -/
theorem Owes.of_setSlot {s : Fin k} {x : Slot m n} (owes : (c.setSlot s x).Owes b)
    (saved : x.unsaved = none) : ∃ i, i ≠ s ∧ (c.slotAt i).unsaved = some b := by
  obtain ⟨i, unsaved⟩ := owes
  by_cases same : i = s
  · subst same
    rw [slotAt_setSlot, if_pos rfl, saved] at unsaved
    cases unsaved
  · rw [slotAt_setSlot, if_neg same] at unsaved
    exact ⟨i, same, unsaved⟩

theorem slotAt_takeSlot (coherent : c.Coherent) (b : Fin m) (i : Fin k) :
    (c.takeSlot b).2.slotAt i = c.slotAt i := by
  have result := takeSlot_spec coherent b
  generalize c.takeSlot b = taken at result ⊢
  obtain ⟨_ | ⟨s, unsaved⟩, c₁⟩ := taken
  · exact (result.2 i).slot
  · by_cases same : i = s
    · subst same
      exact result.slot
    · exact (result.same same).slot

end Cache

namespace Task

open Cache

variable {a : Access m} {s : Fin k} {old b : Fin m} {t t' : Task k m} {c c' : Cache k m n}

/-- A use that writes block `b` ended well. -/
def Wrote (a? : Option (Access m)) (b : Fin m) (t' : Task k m) : Prop :=
  (∃ bytes, t' = .done (.ok bytes)) ∧ ∃ a, a? = some a ∧ a.block = b ∧ a.use.writes = true

/-! ## What a step leaves to be stored -/

/-- A use of a block leaves it to be stored if it writes. -/
theorem owes_finish (holds : (c.slotAt s).holds a.block = true)
    (owes : (finish a s c).2.Owes b) : c.Owes b ∨ Wrote (some a) b (finish a s c).1 := by
  obtain ⟨i, unsaved⟩ := owes
  change ((c.setSlot s (a.use.apply (c.slots.get s)).2).slotAt i).unsaved = some b at unsaved
  rw [slotAt_setSlot] at unsaved
  split at unsaved
  case isFalse => exact .inl ⟨i, unsaved⟩
  case isTrue =>
    have data : (c.slotAt s).content = some (a.block, (c.slotAt s).data) := by
      unfold Slot.holds at holds
      split at holds
      · cases holds
      case h_2 b' bytes content =>
        rw [of_decide_eq_true holds] at content
        rw [Slot.data, content]
    change (a.use.apply (c.slotAt s)).2.unsaved = some b at unsaved
    obtain ⟨block, use⟩ := a
    cases use with
    | read off len =>
      simp only [Use.apply, data] at unsaved
      exact .inl ⟨s, unsaved⟩
    | write off bytes =>
      simp only [Use.apply, data, Slot.unsaved, Option.some.injEq] at unsaved
      exact .inr ⟨⟨_, rfl⟩, _, rfl, unsaved, rfl⟩
    | touch => exact .inl ⟨s, unsaved⟩

theorem owes_load (owes : (load a s c).2.Owes b) :
    (∃ i, i ≠ s ∧ (c.slotAt i).unsaved = some b) ∨ Wrote (some a) b (load a s c).1 := by
  unfold load at owes ⊢
  split at owes
  case isTrue overwrites =>
    rw [if_pos overwrites]
    have holds : ((c.countMiss.setSlot s (.inUse a.block (Block.zero n))).slotAt s).holds a.block =
        true := by
      simp [Slot.holds, Slot.content]
    exact (owes_finish holds owes).imp_left fun owes => Owes.of_setSlot (c := c.countMiss) owes rfl
  case isFalse overwrites =>
    exact .inl (Owes.of_setSlot (c := c.countMiss) owes rfl)

theorem owes_seekStep (coherent : c.Coherent) (owes : (seekStep a c).2.Owes b) :
    c.Owes b ∨ Wrote (some a) b (seekStep a c).1 := by
  have slots := slotAt_takeSlot coherent a.block
  have seeks := seeks a c
  generalize seekStep a c = ends at seeks owes ⊢
  cases seeks with
  | hit found free holds => exact owes_finish (c := countHit _) holds owes
  | strange | locked | evicting => exact .inl owes
  | full _ taken =>
    rw [taken] at slots
    exact .inl (Owes.of_slots owes slots)
  | clean _ taken =>
    rw [taken] at slots
    refine (owes_load owes).imp_left fun ⟨i, _, unsaved⟩ => ⟨i, ?_⟩
    rw [← slots i]
    exact unsaved
  | dirty _ taken =>
    rw [taken] at slots
    exact .inl (Owes.of_slots owes slots)

theorem owes_storeStep (coherent : c.Coherent) (fits : (Task.storing a s old).Fits c)
    (owes : (storeStep a s old c).2.Owes b) :
    (c.Owes b ∧ ⟨.write, b, false⟩ ∉ (Task.storing a s old).nextCall c) ∨
      Wrote (some a) b (storeStep a s old c).1 := by
  obtain ⟨-, -, -, data, dirty⟩ := fits
  have here : (c.slotAt s).unsaved = some old := by rw [dirty]; rfl
  unfold storeStep at owes ⊢
  generalize written : c.device.write old (c.slots.get s).data = result at owes ⊢
  obtain ⟨_ | _, device⟩ := result
  · have failed := (Device.write_false written).1
    refine .inl ⟨owes, ?_⟩
    simp [nextCall, pending, failed]
  · rcases owes_load owes with ⟨i, other, unsaved⟩ | wrote
    · refine .inl ⟨⟨i, unsaved⟩, fun mem => ?_⟩
      have same : b = old := by
        simp only [nextCall, pending, Option.map_some, Option.toList_some, List.mem_singleton,
          IoCall.mk.injEq] at mem
        exact mem.2.1
      subst same
      exact other (coherent.slot_of_unsaved unsaved here)
    · exact .inr wrote

theorem owes_loadStep (owes : (loadStep a s c).2.Owes b) :
    (c.Owes b ∧ ⟨.write, b, false⟩ ∉ (Task.loading a s).nextCall c) ∨
      Wrote (some a) b (loadStep a s c).1 := by
  have quiet : ⟨.write, b, false⟩ ∉ (Task.loading a s).nextCall c := by simp [nextCall, pending]
  unfold loadStep at owes ⊢
  generalize c.device.read a.block = result at owes ⊢
  obtain ⟨_ | data, device⟩ := result
  · exact .inl ⟨owes, quiet⟩
  · have holds : (({ c with device }.setSlot s (.inUse a.block data)).slotAt s).holds a.block =
        true := by
      simp [Slot.holds, Slot.content]
    refine (owes_finish holds owes).imp_left fun owes => ⟨?_, quiet⟩
    obtain ⟨i, -, unsaved⟩ := Owes.of_setSlot (c := { c with device }) owes rfl
    exact ⟨i, unsaved⟩

theorem owes_flushStep (coherent : c.Coherent) {b' : Fin m} (fits : (Task.flushing s b').Fits c)
    (owes : (flushStep s b' c).2.Owes b) :
    c.Owes b ∧ ⟨.write, b, false⟩ ∉ (Task.flushing s b' : Task k m).nextCall c := by
  obtain ⟨-, -, -, data, dirty⟩ := fits
  have here : (c.slotAt s).unsaved = some b' := by rw [dirty]; rfl
  unfold flushStep at owes
  generalize written : c.device.write b' (c.slots.get s).data = result at owes
  obtain ⟨_ | _, device⟩ := result
  · have failed := (Device.write_false written).1
    refine ⟨owes, ?_⟩
    simp [nextCall, pending, failed]
  · obtain ⟨i, other, unsaved⟩ := Owes.of_setSlot (c := { c with device })
      (x := .inUse b' (c.slots.get s).data) owes rfl
    refine ⟨⟨i, unsaved⟩, fun mem => ?_⟩
    have same : b = b' := by
      simp only [nextCall, pending, Option.map_some, Option.toList_some, List.mem_singleton,
        IoCall.mk.injEq] at mem
      exact mem.2.1
    subst same
    exact other (coherent.slot_of_unsaved unsaved here)

/-- A block that is owed after a step was owed before and not stored by it, or was written. -/
theorem owes_of_step (coherent : c.Coherent) (fits : t.Fits c) (step : t.step c = some (t', c'))
    (owes : c'.Owes b) :
    (c.Owes b ∧ ⟨.write, b, false⟩ ∉ t.nextCall c) ∨ Wrote t.access? b t' := by
  have quiet (still : t.pending = none) : ⟨.write, b, false⟩ ∉ t.nextCall c := by
    simp [nextCall, still]
  cases steps_of_step step with
  | absent | present | lost | awake | passed | unsaved | through =>
    exact .inl ⟨owes, quiet rfl⟩
  | seek a => exact (owes_seekStep coherent owes).imp_left fun owes => ⟨owes, quiet rfl⟩
  | hit idle holds =>
    exact (owes_finish (c := countHit _) holds owes).imp_left fun owes => ⟨owes, quiet rfl⟩
  | store a s old => exact owes_storeStep coherent fits owes
  | load a s => exact owes_loadStep owes
  | flush s b' => exact .inl (owes_flushStep coherent fits owes)

/-- A block that is about to be stored is owed. -/
theorem owes_of_nextCall (fits : t.Fits c) {failed : Bool}
    (call : ⟨.write, b, failed⟩ ∈ t.nextCall c) : c.Owes b := by
  cases t with
  | storing a s old =>
    obtain ⟨-, -, -, data, dirty⟩ := fits
    simp only [nextCall, pending, Option.map_some, Option.toList_some, List.mem_singleton,
      IoCall.mk.injEq] at call
    exact ⟨s, by rw [dirty, call.2.1]; rfl⟩
  | flushing s b' =>
    obtain ⟨-, -, -, data, dirty⟩ := fits
    simp only [nextCall, pending, Option.map_some, Option.toList_some, List.mem_singleton,
      IoCall.mk.injEq] at call
    exact ⟨s, by rw [dirty, call.2.1]; rfl⟩
  | loading a s => simp [nextCall, pending] at call
  | probe | seek | awaitHit | awaitSlot | visit | done | halted => cases call

end Task

/-! ## What was written and stored -/

/-- A device call that was made, or a write that ended well. -/
inductive Mark (m : Nat) where
  | called (call : IoCall m)
  | wrote (b : Fin m)

/-- Block `b` was written, and not stored since. -/
def Due (marks : List (Mark m)) (b : Fin m) : Prop :=
  ∃ early late, marks = early ++ .wrote b :: late ∧ .called ⟨.write, b, false⟩ ∉ late

/-- Each block that the device was called to store was due then, and so is whatever is owed. -/
structure Squared (marks : List (Mark m)) (owed : Fin m → Prop) : Prop where
  stores {before after : List (Mark m)} {b : Fin m} {failed : Bool} :
    marks = before ++ .called ⟨.write, b, failed⟩ :: after → Due before b
  due {b : Fin m} : owed b → Due marks b

variable {marks : List (Mark m)} {owed owed' : Fin m → Prop} {b : Fin m}

theorem Due.concat (due : Due marks b) {mark : Mark m}
    (other : mark ≠ .called ⟨.write, b, false⟩) : Due (marks ++ [mark]) b := by
  obtain ⟨early, late, rfl, unsaved⟩ := due
  refine ⟨early, late ++ [mark], by simp, fun mem => ?_⟩
  rcases List.mem_append.1 mem with mem | mem
  · exact unsaved mem
  · exact other (List.mem_singleton.1 mem).symm

theorem due_wrote (marks : List (Mark m)) (b : Fin m) : Due (marks ++ [.wrote b]) b :=
  ⟨marks, [], rfl, List.not_mem_nil⟩

theorem squared_nil (nothing : ∀ b, ¬owed b) : Squared [] owed where
  stores split := by cases List.append_eq_nil_iff.1 split.symm |>.2
  due owes := absurd owes (nothing _)

theorem Squared.mono (squared : Squared marks owed) (fewer : ∀ b, owed' b → owed b) :
    Squared marks owed' where
  stores := squared.stores
  due owes := squared.due (fewer _ owes)

/-- The last mark of a list stands after all others, or is the one that is looked at. -/
theorem concat_split {last mark : Mark m} {before after : List (Mark m)}
    (split : marks ++ [last] = before ++ mark :: after) :
    (before = marks ∧ mark = last) ∨ ∃ after', marks = before ++ mark :: after' := by
  rcases List.eq_nil_or_concat after with rfl | ⟨after', x, rfl⟩
  · obtain ⟨rfl, same⟩ := List.append_inj' split rfl
    exact .inl ⟨rfl, (List.singleton_inj.1 same).symm⟩
  · have parts : marks ++ [last] = (before ++ mark :: after') ++ [x] := by simpa using split
    exact .inr ⟨after', (List.append_inj' parts rfl).1⟩

theorem Squared.called (squared : Squared marks owed) (call : IoCall m)
    (owes : call.kind = .write → owed call.block) :
    Squared (marks ++ [.called call]) fun b => owed b ∧ call ≠ ⟨.write, b, false⟩ where
  stores split := by
    rcases concat_split split with ⟨rfl, same⟩ | ⟨after, split⟩
    · cases same
      exact squared.due (owes rfl)
    · exact squared.stores split
  due owes := (squared.due owes.1).concat fun same => owes.2 (Mark.called.inj same)

theorem Squared.wrote (squared : Squared marks owed) (b : Fin m) :
    Squared (marks ++ [.wrote b]) fun b' => owed b' ∨ b' = b where
  stores split := by
    rcases concat_split split with ⟨-, same⟩ | ⟨after, split⟩
    · cases same
    · exact squared.stores split
  due owes := by
    rcases owes with owes | rfl
    · exact (squared.due owes).concat nofun
    · exact due_wrote marks _

theorem Squared.wrote_all (squared : Squared marks owed) (blocks : List (Fin m)) :
    Squared (marks ++ blocks.map .wrote) fun b => owed b ∨ b ∈ blocks := by
  induction blocks generalizing marks owed with
  | nil => simpa using squared
  | cons b blocks ih =>
    rw [List.map_cons, List.append_cons]
    refine (ih (squared.wrote b)).mono fun b' owes => ?_
    rwa [List.mem_cons, ← or_assoc] at owes

/-- Between two moments at which a block was stored it was written. -/
theorem Squared.wrote_between (squared : Squared marks owed) {before between after : List (Mark m)}
    (split : marks = before ++ .called ⟨.write, b, false⟩ ::
      (between ++ .called ⟨.write, b, false⟩ :: after)) : .wrote b ∈ between := by
  have split' : marks = (before ++ .called ⟨.write, b, false⟩ :: between) ++
      .called ⟨.write, b, false⟩ :: after := by simp [split]
  obtain ⟨early, late, same, unsaved⟩ := squared.stores split'
  rcases List.append_eq_append_iff.1 same with ⟨more, rfl, rest⟩ | ⟨more, rfl, rest⟩
  · -- the write comes after the first of the two
    cases more with
    | nil => cases rest
    | cons first more =>
      obtain ⟨-, rfl⟩ := List.cons_eq_cons.1 rest
      simp
  · cases more with
    | nil => cases rest
    | cons first more =>
      -- the write comes before, and the first of the two after it
      obtain ⟨-, rfl⟩ := List.cons_eq_cons.1 rest
      exact absurd (by simp) unsaved

namespace Task

variable {t t' u : Task k m} {c c' : Cache k m n}

/-- What is owed stays due along a step, but for a block that the step writes. -/
theorem squared_of_step (squared : Squared marks c.Owes) (coherent : c.Coherent) (fits : t.Fits c)
    (step : t.step c = some (t', c')) :
    Squared (marks ++ (t.nextCall c).map .called) fun b =>
      c'.Owes b ∧ ¬Wrote t.access? b t' := by
  have owes {b : Fin m} (left : c'.Owes b ∧ ¬Wrote t.access? b t') :
      c.Owes b ∧ ⟨.write, b, false⟩ ∉ t.nextCall c :=
    (owes_of_step coherent fits step left.1).resolve_right left.2
  have stores (b : Fin m) (failed : Bool) : ⟨.write, b, failed⟩ ∈ t.nextCall c → c.Owes b :=
    owes_of_nextCall fits
  unfold nextCall at owes stores ⊢
  cases pending : t.pending with
  | none => simpa using squared.mono fun b left => (owes left).1
  | some call =>
    obtain ⟨kind, block⟩ := call
    rw [pending] at owes stores
    refine (squared.called ⟨kind, block, _⟩ fun write => ?_).mono fun b left => ?_
    · cases write
      exact stores block _ List.mem_cons_self
    · exact ⟨(owes left).1, fun same => (owes left).2 (same ▸ List.mem_cons_self)⟩

/-- A run keeps the books, and stores what is due. -/
theorem run_posts (steps : Nat) (shared : c.Shared t u) (going : ∀ r, t ≠ .done r)
    (squared : Squared marks c.Owes) :
    ∃ io, Posts t.access? t c (t.run steps c).1 (t.run steps c).2 io ∧
      Squared (marks ++ io.map .called) fun b =>
        (t.run steps c).2.Owes b ∧ ¬Wrote t.access? b (t.run steps c).1 := by
  have none : ∃ io, Posts t.access? t c t c io ∧ Squared (marks ++ io.map .called) fun b =>
      c.Owes b ∧ ¬Wrote t.access? b t :=
    ⟨[], .refl _ t c, by simpa using squared.mono fun b owes => owes.1⟩
  induction steps generalizing t c marks with
  | zero => exact none
  | succ steps ih =>
    unfold run
    split
    case h_1 => exact none
    case h_2 t₁ c₁ step =>
      have posts := posts_of_step shared.coherent shared.fits shared.within step
      have squared₁ := squared_of_step squared shared.coherent shared.fits step
      by_cases ended : ∃ r, t₁ = .done r
      · obtain ⟨r, rfl⟩ := ended
        rw [run_done]
        exact ⟨_, posts, squared₁⟩
      · -- nothing is written before the end, and the task is for the same use until then
        have going₁ := not_exists.1 ended
        obtain ⟨shared₁, settles⟩ := shared.step step
        have access := (settles.going going₁).2
        have owed := squared₁.mono fun b owes =>
          ⟨owes, fun wrote => wrote.1.elim fun bytes done => going₁ _ done⟩
        obtain ⟨io, posts', squared'⟩ := ih shared₁ going₁ owed
          ⟨[], .refl _ t₁ c₁, by simpa using owed.mono fun b owes => owes.1⟩
        rw [access] at posts' squared'
        refine ⟨_, posts.trans posts', ?_⟩
        rwa [List.map_append, ← List.append_assoc]

end Task

end SectorFs
