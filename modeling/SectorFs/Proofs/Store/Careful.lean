/-
# SectorFs.Proofs.Store.Careful — programs that read only what was written

A program is careful if it reads no sector before the whole of it was written
(`Contract.careful`). A `Trail` has the sectors of a store as they are, and the
numbers of those that were written; what a careful program does in terms of the
sectors (`Ensures`) holds of it along the trail, too (`Under.ensures`).

Two caches are `Twins` if they differ in bytes only, and not in those of sectors
that were written. A careful program cannot tell twins from each other: it has
the same result on both, or breaks the same condition, and leaves twins behind
(`Cache.run_twins`).
-/
import Mathlib.Data.Set.Insert
import SectorFs.Proofs.Store.Contract
import SectorFs.Proofs.Store.Paired
import SectorFs.Proofs.Cache.Blank

namespace SectorFs

set_option autoImplicit false

/-- A block with its own bytes written over another is that block. -/
theorem Block.patch_bytes (old b : Block 512) : old.patch 0 b.bytes = b := by
  refine Vector.ext fun i inside => ?_
  rw [getElem_patch_inside _ _ _ _ _ (Nat.zero_le i) (by simpa [bytes] using inside)]
  simp [bytes]

/-- The sectors of a store, and which of them were written as a whole. -/
structure Trail where
  image : Image
  written : Set Nat

variable {σ α β : Type} {m k : Nat} {trail : Trail} {image : Image} {written : Set Nat}

namespace Request

/-- What is read was written. -/
def Careful (written : Set Nat) : Request → Prop
  | .read s _ _ => s.index ∈ written
  | .write .. | .prefetch _ | .flush => True

/-- A sector is written as a whole. -/
def Covers (t : Nat) : Request → Prop
  | .write s off data => t = s.index ∧ off = 0 ∧ data.length = 512
  | .read .. | .prefetch _ | .flush => False

/-- The trail after a request that worked. -/
def follow (trail : Trail) (r : Request) : Trail :=
  ⟨r.after trail.image, {t | t ∈ trail.written ∨ r.Covers t}⟩

end Request

theorem Request.follow_read (s : Sector) (off len : Nat) :
    (Request.read s off len).follow trail = trail := by
  have same : {t | t ∈ trail.written ∨ False} = trail.written := by simp
  exact congrArg (Trail.mk trail.image) same

/-- Only what was written may be read. Any request may fail, and a program may stop for good. -/
def Contract.careful : Contract Trail where
  ask trail r K := r.Careful trail.written ∧
    K (some (r.reply trail.image)) (r.follow trail) ∧ K none trail
  mayHalt := True
  mono holds weaker := ⟨holds.1, weaker _ _ holds.2.1, weaker _ _ holds.2.2⟩

/-- Nothing may be asked for. -/
def Contract.silent : Contract Unit where
  ask _ _ _ := False
  mayHalt := True
  mono holds _ := holds

namespace SectorProgram

variable {p : SectorProgram α} {Q : α → Trail → Prop}

/-- What a careful program ensures holds along its trail. -/
theorem Under.ensures {P : α → Image → Prop} (under : p.Under .careful trail Q)
    (ensures : p.Ensures m True trail.image P) :
    p.Under .careful trail fun a trail => Q a trail ∧ P a trail.image := by
  induction p generalizing trail with
  | done a => exact ⟨under, ensures⟩
  | halt v => trivial
  | ask r next ih =>
    obtain ⟨careful, works, fails⟩ := under
    obtain ⟨-, works', fails'⟩ := ensures
    exact ⟨careful, ih _ works works', ih _ fails (fails' trivial)⟩

/-- What was written stays written. -/
theorem Under.grows (under : p.Under .careful trail Q) :
    p.Under .careful trail fun a after => Q a after ∧ trail.written ⊆ after.written := by
  induction p generalizing trail with
  | done a => exact ⟨under, Set.Subset.rfl⟩
  | halt v => trivial
  | ask r next ih =>
    obtain ⟨careful, works, fails⟩ := under
    refine ⟨careful, (ih _ works).mono fun a after grown => ⟨grown.1, ?_⟩, ih _ fails⟩
    exact Set.Subset.trans (fun t mem => .inl mem) grown.2

/-- A program that asks for nothing leaves its trail alone. -/
theorem under_of_silent (silent : p.Under .silent () fun _ _ => True) :
    p.Under .careful trail fun _ after => after = trail := by
  cases p with
  | done a => rfl
  | halt v => trivial
  | ask r next => exact silent.elim

end SectorProgram

namespace Action

variable {memory : σ} {Q : Except Failure α → σ → Trail → Prop} {x : Action σ α}

theorem Under.ensures {P : Except Failure α → σ → Image → Prop}
    (under : x.Under .careful memory trail Q)
    (ensures : x.Ensures m True memory trail.image P) :
    x.Under .careful memory trail fun r memory trail =>
      Q r memory trail ∧ P r memory trail.image :=
  SectorProgram.Under.ensures under ensures

theorem Under.grows (under : x.Under .careful memory trail Q) :
    x.Under .careful memory trail fun r memory after =>
      Q r memory after ∧ trail.written ⊆ after.written :=
  SectorProgram.Under.grows under

/-! ## Actions that write nothing -/

/-- An action writes nothing, and reads only what was written. -/
def Quiet (x : Action σ α) (memory : σ) (trail : Trail) : Prop :=
  x.Under .careful memory trail fun _ _ after => after = trail

/-- Of a quiet action holds what it ensures. -/
theorem Quiet.careful (quiet : x.Quiet memory trail)
    (ensures : x.Ensures m True memory trail.image fun r memory image =>
      Q r memory ⟨image, trail.written⟩) : x.Under .careful memory trail Q := by
  refine (Under.ensures quiet ensures).mono ?_
  rintro r memory after ⟨rfl, holds⟩
  exact holds

theorem quiet_pure (a : α) : (pure a : Action σ α).Quiet memory trail := rfl

theorem Quiet.bind {f : α → Action σ β} (first : x.Quiet memory trail)
    (onward : ∀ a memory, (f a).Quiet memory trail) : (x >>= f).Quiet memory trail := by
  rw [Quiet, under_bind]
  refine Under.mono first fun r memory' after same => ?_
  subst same
  cases r with
  | ok a => exact onward a memory'
  | error e => rfl

theorem Quiet.tryCatch {f : Failure → Action σ α} (first : x.Quiet memory trail)
    (handler : ∀ e memory, (f e).Quiet memory trail) : (tryCatch x f).Quiet memory trail := by
  rw [Quiet, under_tryCatch]
  refine Under.mono first fun r memory' after same => ?_
  subst same
  cases r with
  | ok a => rfl
  | error e => exact handler e memory'

theorem quiet_mapM {f : α → Action σ β} (xs : List α)
    (each : ∀ x ∈ xs, ∀ memory, (f x).Quiet memory trail) : (xs.mapM f).Quiet memory trail := by
  induction xs generalizing memory with
  | nil =>
    rw [List.mapM_nil]
    exact quiet_pure []
  | cons x xs ih =>
    rw [List.mapM_cons]
    refine (each x List.mem_cons_self memory).bind fun b memory' => ?_
    refine (ih fun y mem => each y (List.mem_cons_of_mem x mem)).bind fun bs _ => ?_
    exact quiet_pure (b :: bs)

/-! ## Actions that ask for nothing -/

/-- Whatever is in memory, an action asks for nothing. -/
def Silent (x : Action σ α) : Prop := ∀ memory, x.Under .silent memory () fun _ _ _ => True

theorem Silent.quiet (silent : x.Silent) : x.Quiet memory trail :=
  SectorProgram.under_of_silent (silent memory)

/-- A silent action that ensures something has one result, whatever the sectors hold. -/
theorem Silent.exists_done {mayFail : Prop} {Q : Except Failure α → σ → Image → Prop}
    (silent : x.Silent) (ensures : x.Ensures m mayFail memory image Q) :
    ∃ r memory', x.program memory = .done (r, memory') ∧ Q r memory' image := by
  have asks := silent memory
  unfold Under at asks
  unfold Ensures at ensures
  cases program : x.program memory with
  | done after =>
    rw [program] at ensures
    exact ⟨after.1, after.2, rfl, ensures⟩
  | halt v =>
    rw [program] at ensures
    exact ensures.elim
  | ask r next =>
    rw [program] at asks
    exact asks.elim

theorem ensures_of_done {mayFail : Prop} {Q : Except Failure α → σ → Image → Prop}
    {r : Except Failure α} {memory' : σ} (done : x.program memory = .done (r, memory')) :
    x.Ensures m mayFail memory image Q ↔ Q r memory' image := by
  rw [Ensures, done]
  rfl

theorem silent_pure (a : α) : (pure a : Action σ α).Silent := fun _ => trivial

theorem silent_throw (e : Failure) : (throw e : Action σ α).Silent := fun _ => trivial

theorem silent_get : (get : Action σ σ).Silent := fun _ => trivial

theorem silent_modify (f : σ → σ) : (modify f : Action σ Unit).Silent := fun _ => trivial

theorem silent_check (x : Except Violation α) : (check x : Action σ α).Silent := by
  intro memory
  cases x <;> trivial

theorem silent_ensure (holds : Bool) (e : Failure) : (ensure holds e : Action σ Unit).Silent := by
  cases holds with
  | false => exact silent_throw e
  | true => exact silent_pure ()

theorem silent_liftExcept (x : Except Failure α) : (liftExcept x : Action σ α).Silent := by
  intro memory
  cases x <;> trivial

theorem Silent.bind {f : α → Action σ β} (first : x.Silent) (onward : ∀ a, (f a).Silent) :
    (x >>= f).Silent := by
  intro memory
  rw [under_bind]
  refine (first memory).mono fun r memory' _ _ => ?_
  cases r with
  | ok a => exact onward a memory'
  | error e => trivial

theorem silent_forM {f : α → Action σ Unit} (xs : List α) (each : ∀ x, (f x).Silent) :
    (xs.forM f).Silent := by
  induction xs with
  | nil => exact silent_pure ()
  | cons x xs ih => exact (each x).bind fun _ => ih

theorem silent_foldlM {f : β → α → Action σ β} (xs : List α) (each : ∀ b x, (f b x).Silent)
    (b : β) : (xs.foldlM f b).Silent := by
  induction xs generalizing b with
  | nil => exact silent_pure b
  | cons x xs ih => exact (each b x).bind ih

/-! ## Requests -/

/-- A request that neither reads nor writes leads nowhere. -/
theorem quiet_request {r : Request} (careful : r.Careful trail.written)
    (after : r.after trail.image = trail.image) (covers : ∀ t, ¬ r.Covers t) :
    (request r : Action σ _).Quiet memory trail := by
  have same : r.follow trail = trail :=
    congrArg₂ Trail.mk after (Set.ext fun t => or_iff_left (covers t))
  rw [Quiet, under_request]
  exact ⟨careful, same, rfl⟩

theorem quiet_read {s : Sector} (known : s.index ∈ trail.written) (off len : Nat) :
    (read s off len : Action σ _).Quiet memory trail :=
  quiet_request known rfl fun _ => id

theorem quiet_prefetch (s : Sector) : (prefetch s : Action σ Unit).Quiet memory trail :=
  quiet_request trivial rfl fun _ => id

theorem quiet_flush : (flush : Action σ Unit).Quiet memory trail :=
  quiet_request trivial rfl fun _ => id

@[simp] theorem under_readSector {Q : Except Failure (Block 512) → σ → Trail → Prop} (s : Sector) :
    (readSector s : Action σ _).Under .careful memory ⟨image, written⟩ Q ↔ s.index ∈ written ∧
      Q (.ok (image s.index)) memory ⟨image, written⟩ ∧
        Q (.error .io) memory ⟨image, written⟩ := by
  have read : (readSector s : Action σ (Block 512)) =
      request (.read s 0 512) >>= fun bytes => pure (Block.ofList 512 bytes) := rfl
  rw [read, under_bind, under_request]
  change s.index ∈ written ∧ Q (.ok (Block.ofList 512 ((image s.index).slice 0 512))) memory
    ((Request.read s 0 512).follow ⟨image, written⟩) ∧ _ ↔ _
  rw [Block.slice_all, Block.ofList_bytes, Request.follow_read]
  rfl

@[simp] theorem under_writeSector {Q : Except Failure Unit → σ → Trail → Prop} (s : Sector)
    (b : Block 512) : (writeSector s b : Action σ Unit).Under .careful memory ⟨image, written⟩ Q ↔
      Q (.ok ()) memory ⟨Function.update image s.index b, insert s.index written⟩ ∧
        Q (.error .io) memory ⟨image, written⟩ := by
  have length : b.bytes.length = 512 := by simp [Block.bytes]
  have follow : (Request.write s 0 b.bytes).follow ⟨image, written⟩ =
      ⟨Function.update image s.index b, insert s.index written⟩ := by
    refine congrArg₂ Trail.mk ?_ (Set.ext fun t => ?_)
    · rw [Request.after, Block.patch_bytes]
    · change t ∈ written ∨ t = s.index ∧ 0 = 0 ∧ b.bytes.length = 512 ↔ _
      rw [Set.mem_insert_iff, length]
      simp [or_comm]
  change (request (.write s 0 b.bytes) : Action σ Unit).Under .careful memory _ Q ↔ _
  rw [under_request]
  change True ∧ Q (.ok ()) memory ((Request.write s 0 b.bytes).follow ⟨image, written⟩) ∧ _ ↔ _
  rw [follow, true_and]

@[simp] theorem under_readInode {Q : Except Failure Inode → σ → Trail → Prop} (s : Sector) :
    (readInode s : Action σ _).Under .careful memory ⟨image, written⟩ Q ↔ s.index ∈ written ∧
      Q (.ok (.decode (image s.index))) memory ⟨image, written⟩ ∧
        Q (.error .io) memory ⟨image, written⟩ :=
  (under_bind _ _).trans (under_readSector s)

@[simp] theorem under_writeInode {Q : Except Failure Unit → σ → Trail → Prop} (s : Sector)
    (d : Inode) : (writeInode s d : Action σ Unit).Under .careful memory ⟨image, written⟩ Q ↔
      Q (.ok ()) memory ⟨Function.update image s.index d.encode, insert s.index written⟩ ∧
        Q (.error .io) memory ⟨image, written⟩ :=
  under_writeSector s d.encode

@[simp] theorem under_readIndex {Q : Except Failure IndexBlock → σ → Trail → Prop} (s : Sector) :
    (readIndex s : Action σ _).Under .careful memory ⟨image, written⟩ Q ↔ s.index ∈ written ∧
      Q (.ok (.decode (image s.index))) memory ⟨image, written⟩ ∧
        Q (.error .io) memory ⟨image, written⟩ :=
  (under_bind _ _).trans (under_readSector s)

@[simp] theorem under_writeIndex {Q : Except Failure Unit → σ → Trail → Prop} (s : Sector)
    (x : IndexBlock) :
    (writeIndex s x : Action σ Unit).Under .careful memory ⟨image, written⟩ Q ↔
      Q (.ok ()) memory ⟨Function.update image s.index x.encode, insert s.index written⟩ ∧
        Q (.error .io) memory ⟨image, written⟩ :=
  under_writeSector s x.encode

@[simp] theorem under_clear {Q : Except Failure Unit → σ → Trail → Prop} (s : Sector) :
    (clear s : Action σ Unit).Under .careful memory ⟨image, written⟩ Q ↔
      Q (.ok ()) memory ⟨Function.update image s.index (Block.zero 512), insert s.index written⟩ ∧
        Q (.error .io) memory ⟨image, written⟩ :=
  under_writeSector s _

end Action

/-! ## Twins -/

namespace Cache

/-- Two caches that differ in bytes only, and in none of a sector that was written. -/
structure Twins (written : Set Nat) (c c' : Cache k m 512) : Prop where
  ready : c.Ready
  ready' : c'.Ready
  blank : c.blank = c'.blank
  same {t : Nat} : t ∈ written → c'.image t = c.image t

variable {c c' : Cache k m 512}

/-- Whether a request works, and the cache after it, does not depend on bytes that are read. -/
theorem serve_blank (same : c.blank = c'.blank) {r : Request} {reply reply' : Option r.Reply}
    {d d' : Cache k m 512} (served : SectorStore.serve c r = .ok (reply, d))
    (served' : SectorStore.serve c' r = .ok (reply', d')) :
    reply.isSome = reply'.isSome ∧ d.blank = d'.blank := by
  have called := call_blank same (operationOf r)
  have works (answer : Except (DeviceError m) (List UInt8)) :
      (replyOf answer r).isSome = (answer.map fun _ => ()).toOption.isSome := by
    cases answer <;> cases r <;> rfl
  change (c.call (operationOf r) >>= _) = _ at served
  change (c'.call (operationOf r) >>= _) = _ at served'
  cases call : c.call (operationOf r) with
  | error v =>
    rw [call] at served
    cases served
  | ok after =>
    cases call' : c'.call (operationOf r) with
    | error v =>
      rw [call'] at served'
      cases served'
    | ok after' =>
      rw [call] at served called
      rw [call'] at served' called
      cases served
      cases served'
      obtain ⟨answers, caches⟩ := Prod.ext_iff.1 (Except.ok.inj called)
      refine ⟨?_, caches⟩
      rw [works, works]
      exact congrArg (fun answer : Except (DeviceError m) Unit => answer.toOption.isSome) answers

/-- Sectors that agree do so after a request that worked, with the sectors that it covers. -/
theorem after_agrees {image image' : Image} (agree : ∀ t ∈ written, image' t = image t)
    (r : Request) {t : Nat} (mem : t ∈ (r.follow ⟨image, written⟩).written) :
    r.after image' t = r.after image t := by
  cases r with
  | write s off data =>
    by_cases here : t = s.index
    · subst here
      rw [Request.after, Request.after, Function.update_self, Function.update_self]
      rcases mem with mem | ⟨-, rfl, length⟩
      · rw [agree _ mem]
      · refine Vector.ext fun i inside => ?_
        rw [Block.getElem_patch_inside _ _ _ _ _ (Nat.zero_le i) (by omega),
          Block.getElem_patch_inside _ _ _ _ _ (Nat.zero_le i) (by omega)]
    · rw [Request.after, Request.after, Function.update_of_ne here, Function.update_of_ne here]
      exact agree t (mem.resolve_right fun covers => here covers.1)
  | read | prefetch | flush => exact agree t (mem.resolve_right id)

theorem serve_twins (twins : Twins written c c') {r : Request} (careful : r.Careful written) :
    (∃ v, SectorStore.serve c r = .error v ∧ SectorStore.serve c' r = .error v) ∨
    ∃ reply d d', SectorStore.serve c r = .ok (reply, d) ∧
      SectorStore.serve c' r = .ok (reply, d') ∧
      (reply = some (r.reply c.image) ∧ d.image = r.after c.image ∧
          Twins (r.follow ⟨c.image, written⟩).written d d' ∨
        reply = none ∧ d.image = c.image ∧ Twins written d d') := by
  by_cases inRange : r.InRange m
  · obtain ⟨reply, d, served, ready, -, result⟩ := serve_spec twins.ready inRange
    obtain ⟨reply', d', served', ready', -, result'⟩ := serve_spec twins.ready' inRange
    obtain ⟨works, blank⟩ := serve_blank twins.blank served served'
    have replies : r.reply c'.image = r.reply c.image := by
      cases r with
      | read s off len => rw [Request.reply, Request.reply, twins.same careful]
      | write | prefetch | flush => rfl
    refine .inr ⟨reply, d, d', served, ?_, ?_⟩
    · rcases result with ⟨rfl, -⟩ | ⟨-, rfl, -⟩
      · rcases result' with ⟨rfl, -⟩ | ⟨-, rfl, -⟩
        · rw [served', replies]
        · cases works
      · rcases result' with ⟨rfl, -⟩ | ⟨-, rfl, -⟩
        · cases works
        · exact served'
    · rcases result with ⟨rfl, after⟩ | ⟨-, rfl, after⟩
      · rcases result' with ⟨rfl, after'⟩ | ⟨-, rfl, -⟩
        · refine .inl ⟨rfl, after, ready, ready', blank, fun mem => ?_⟩
          rw [after, after']
          exact after_agrees (fun t => twins.same) r mem
        · cases works
      · rcases result' with ⟨rfl, -⟩ | ⟨-, rfl, after'⟩
        · cases works
        · refine .inr ⟨rfl, after, ready, ready', blank, fun mem => ?_⟩
          rw [after, after']
          exact twins.same mem
  · have nothing : PlainStore m := ⟨Vector.replicate m (Block.zero 512), []⟩
    obtain ⟨v, plain, served⟩ := PlainStore.serve_outside (p := nothing) (c := c) inRange
    obtain ⟨v', plain', served'⟩ := PlainStore.serve_outside (p := nothing) (c := c') inRange
    have same : v = v' := Except.error.inj (plain.symm.trans plain')
    exact .inl ⟨v, served, same ▸ served'⟩

/-- **A careful program cannot tell twins from each other.** -/
theorem run_twins {p : SectorProgram α} {Q : α → Trail → Prop} (twins : Twins written c c')
    (under : p.Under .careful ⟨c.image, written⟩ Q) :
    (∃ v, p.run c = .error v ∧ p.run c' = .error v) ∨
    ∃ a d d' written', p.run c = .ok (a, d) ∧ p.run c' = .ok (a, d') ∧ Twins written' d d' ∧
      Q a ⟨d.image, written'⟩ := by
  induction p generalizing c c' written with
  | done a => exact .inr ⟨a, c, c', written, rfl, rfl, twins, under⟩
  | halt v => exact .inl ⟨v, rfl, rfl⟩
  | ask r next ih =>
    obtain ⟨careful, works, fails⟩ := under
    rcases serve_twins twins careful with ⟨v, served, served'⟩ | ⟨reply, d, d', served, served', how⟩
    · refine .inl ⟨v, ?_, ?_⟩
      · rw [SectorProgram.run, served]
        rfl
      · rw [SectorProgram.run, served']
        rfl
    · rw [SectorProgram.run, SectorProgram.run, served, served']
      rcases how with ⟨rfl, after, twins'⟩ | ⟨rfl, after, twins'⟩
      · refine ih _ twins' ?_
        rw [after]
        exact works
      · refine ih _ twins' ?_
        rw [after]
        exact fails

/-- New caches on devices that differ in bytes only are twins. -/
theorem twins_new {device device' : Device m 512} {config : CacheSetup}
    {c c' : Cache config.slots m 512} (same : device.blank = device'.blank)
    (made : Cache.new device config = .ok c) (made' : Cache.new device' config = .ok c')
    (bytes : ∀ t ∈ written, c'.image t = c.image t) : Twins written c c' where
  ready := (ready_new made).1
  ready' := (ready_new made').1
  blank := by
    have blanks := new_blank same config
    rw [made, made'] at blanks
    exact Except.ok.inj blanks
  same := bytes _

end Cache

end SectorFs
