/-
# SectorFs.Proofs.Store.Contract — what programs do under a contract

A `Contract` says what a request needs and what a program may count on after it,
in terms of a state `S` that only proofs speak of. `SectorProgram.Under` is what
then holds of a whole program, and `Action.Under` the same of an action with its
memory. As for `Ensures` there is one equation for each way to build an action.

`Contract.anything` is the least that a store can promise: any request may get any
reply. What holds under it holds of every run on every store (`Under.run`).
-/
import SectorFs.Proofs.Store.Ensures

namespace SectorFs

set_option autoImplicit false

/-- What requests need, and what holds after them. -/
structure Contract (S : Type) where
  /-- In a state a request may be made, and of the reply and the state after it a condition holds. -/
  ask : S → (r : Request) → (Option r.Reply → S → Prop) → Prop
  /-- Whether a program may stop for good. -/
  mayHalt : Prop
  mono {s : S} {r : Request} {K K' : Option r.Reply → S → Prop} :
    ask s r K → (∀ reply s, K reply s → K' reply s) → ask s r K'

/-- Any reply to any request. -/
def Contract.anything : Contract Unit where
  ask _ _ K := ∀ reply, K reply ()
  mayHalt := True
  mono holds weaker reply := weaker reply () (holds reply)

variable {S σ τ α β : Type} {c : Contract S} {s : S}

namespace SectorProgram

def Under (c : Contract S) : SectorProgram α → S → (α → S → Prop) → Prop
  | .done a, s, Q => Q a s
  | .halt _, _, _ => c.mayHalt
  | .ask r next, s, Q => c.ask s r fun reply s => (next reply).Under c s Q

theorem Under.mono {p : SectorProgram α} {P Q : α → S → Prop} (under : p.Under c s P)
    (weaker : ∀ a s, P a s → Q a s) : p.Under c s Q := by
  induction p generalizing s with
  | done a => exact weaker a s under
  | halt v => exact under
  | ask r next ih => exact c.mono under fun reply s => ih reply

theorem under_bind (p : SectorProgram α) (f : α → SectorProgram β) (s : S)
    (Q : β → S → Prop) :
    (p >>= f).Under c s Q ↔ p.Under c s fun a s => (f a).Under c s Q := by
  induction p generalizing s with
  | done a => rfl
  | halt v => rfl
  | ask r next ih =>
    rw [ask_bind, Under, Under]
    refine iff_of_eq (congrArg (c.ask s r) ?_)
    funext reply s'
    exact propext (ih reply s')

/-- What holds of every result holds whatever the replies are. -/
theorem under_anything {p : SectorProgram α} {Q : α → Unit → Prop} (all : ∀ a, Q a ()) :
    p.Under .anything () Q := by
  induction p with
  | done a => exact all a
  | halt v => trivial
  | ask r next ih => exact ih

/-- Two things that hold whatever the replies are hold together. -/
theorem Under.and {p : SectorProgram α} {P Q : α → Unit → Prop} (first : p.Under .anything () P)
    (second : p.Under .anything () Q) : p.Under .anything () fun a s => P a s ∧ Q a s := by
  induction p with
  | done a => exact ⟨first, second⟩
  | halt v => trivial
  | ask r next ih => exact fun reply => ih reply (first reply) (second reply)

/-- What holds of a program under a contract holds of its runs on stores that keep the contract: `R`
relates them to its states. -/
theorem Under.run_of [SectorStore τ] {p : SectorProgram α} {store store' : τ} {a : α}
    {Q : α → S → Prop} {R : τ → S → Prop}
    (keeps : ∀ {store store' : τ} {s : S} {r : Request} {reply : Option r.Reply}
      {K : Option r.Reply → S → Prop}, R store s → c.ask s r K →
      SectorStore.serve store r = .ok (reply, store') → ∃ s', R store' s' ∧ K reply s')
    (under : p.Under c s Q) (related : R store s) (ran : p.run store = .ok (a, store')) :
    ∃ s', R store' s' ∧ Q a s' := by
  induction p generalizing store s with
  | done b =>
    cases ran
    exact ⟨s, related, under⟩
  | halt v => cases ran
  | ask r next ih =>
    rw [SectorProgram.run] at ran
    cases served : SectorStore.serve store r with
    | error v =>
      rw [served] at ran
      cases ran
    | ok after =>
      obtain ⟨reply, store₁⟩ := after
      rw [served] at ran
      obtain ⟨s₁, related₁, onward⟩ := keeps related under served
      exact ih reply onward related₁ ran

/-- What holds whatever the replies are holds of every run. -/
theorem Under.run [SectorStore τ] {p : SectorProgram α} {store store' : τ} {a : α}
    {Q : α → Unit → Prop} (under : p.Under .anything () Q)
    (ran : p.run store = .ok (a, store')) : Q a () := by
  obtain ⟨_, -, holds⟩ := under.run_of (c := .anything) (R := fun _ _ => True)
    (fun _ asked _ => ⟨(), trivial, asked _⟩) trivial ran
  exact holds

/-- What holds whatever the replies are holds beside what is ensured. -/
theorem Ensures.and_anything {m : Nat} {mayFail : Prop} {p : SectorProgram α} {image : Image}
    {P : α → Image → Prop} {Q : α → Unit → Prop} (ensures : p.Ensures m mayFail image P)
    (under : p.Under .anything () Q) :
    p.Ensures m mayFail image fun a image => P a image ∧ Q a () := by
  induction p generalizing image with
  | done a => exact ⟨ensures, under⟩
  | halt v => exact ensures
  | ask r next ih =>
    obtain ⟨inRange, works, fails⟩ := ensures
    exact ⟨inRange, ih _ works (under _), fun may => ih _ (fails may) (under _)⟩

end SectorProgram

namespace Action

def Under (c : Contract S) (x : Action σ α) (memory : σ) (s : S)
    (Q : Except Failure α → σ → S → Prop) : Prop :=
  (x.program memory).Under c s fun after s => Q after.1 after.2 s

variable {memory : σ} {Q : Except Failure α → σ → S → Prop}

theorem Under.mono {x : Action σ α} {P : Except Failure α → σ → S → Prop}
    (under : x.Under c memory s P) (weaker : ∀ r memory s, P r memory s → Q r memory s) :
    x.Under c memory s Q :=
  SectorProgram.Under.mono under fun _ _ => weaker _ _ _

theorem Under.and {x : Action σ α} {P Q : Except Failure α → σ → Unit → Prop}
    (first : x.Under .anything memory () P) (second : x.Under .anything memory () Q) :
    x.Under .anything memory () fun r memory s => P r memory s ∧ Q r memory s :=
  SectorProgram.Under.and first second

@[simp] theorem under_pure (a : α) :
    (pure a : Action σ α).Under c memory s Q ↔ Q (.ok a) memory s := Iff.rfl

@[simp] theorem under_get {Q : Except Failure σ → σ → S → Prop} :
    (get : Action σ σ).Under c memory s Q ↔ Q (.ok memory) memory s := Iff.rfl

@[simp] theorem under_modify {Q : Except Failure Unit → σ → S → Prop} (f : σ → σ) :
    (modify f : Action σ Unit).Under c memory s Q ↔ Q (.ok ()) (f memory) s := Iff.rfl

/-- A program is an action that leaves the memory alone. -/
@[simp] theorem under_lift (p : SectorProgram α) :
    (liftM p : Action σ α).Under c memory s Q ↔
      p.Under c s fun a s => Q (.ok a) memory s := by
  have lifted : (liftM p : Action σ α).program memory =
      p >>= fun a => .done (.ok a, memory) := by
    change (p >>= fun a => SectorProgram.done (a, memory)) >>= _ = _
    rw [SectorProgram.bind_assoc]
    rfl
  rw [Under, lifted, SectorProgram.under_bind]
  rfl

/-- What holds after the rest of an action, from where its first part came. -/
def Then (f : α → Action σ β) (c : Contract S) (Q : Except Failure β → σ → S → Prop) :
    Except Failure α → σ → S → Prop
  | .ok a, memory, s => (f a).Under c memory s Q
  | .error e, memory, s => Q (.error e) memory s

@[simp] theorem then_ok {f : α → Action σ β} {Q : Except Failure β → σ → S → Prop} (a : α) :
    Then f c Q (.ok a) memory s ↔ (f a).Under c memory s Q := Iff.rfl

@[simp] theorem then_error {f : α → Action σ β} {Q : Except Failure β → σ → S → Prop}
    (e : Failure) : Then f c Q (.error e) memory s ↔ Q (.error e) memory s := Iff.rfl

@[simp] theorem under_bind (x : Action σ α) (f : α → Action σ β)
    {Q : Except Failure β → σ → S → Prop} :
    (x >>= f).Under c memory s Q ↔ x.Under c memory s (Then f c Q) := by
  rw [Under, program_bind, SectorProgram.under_bind]
  refine iff_of_eq (congrArg _ (funext fun after => funext fun s => ?_))
  obtain ⟨result, memory⟩ := after
  cases result <;> rfl

@[simp] theorem under_map (g : α → β) (x : Action σ α) {Q : Except Failure β → σ → S → Prop} :
    (g <$> x).Under c memory s Q ↔ x.Under c memory s fun r => Q (r.map g) := by
  rw [Under, program_map, SectorProgram.under_bind]
  rfl

@[simp] theorem under_discard (x : Action σ α) {Q : Except Failure Unit → σ → S → Prop} :
    (discard x).Under c memory s Q ↔ x.Under c memory s fun r => Q (r.map fun _ => ()) :=
  under_map _ x

@[simp] theorem under_check_ok (a : α) :
    (check (.ok a) : Action σ α).Under c memory s Q ↔ Q (.ok a) memory s := Iff.rfl

/-- Where a program may stop, a check has a result. -/
theorem under_check (halts : c.mayHalt) {x : Except Violation α}
    (works : ∀ a, Q (.ok a) memory s) : (check x : Action σ α).Under c memory s Q := by
  cases x with
  | error v => exact halts
  | ok a => exact works a

/-- What needs a condition goes on where the condition holds. -/
theorem under_require {Q : Except Failure Unit → σ → Unit → Prop} {holds : Bool} {v : Violation}
    (works : holds = true → Q (.ok ()) memory ()) :
    (require holds v : Action σ Unit).Under .anything memory () Q := by
  cases holds with
  | false => exact trivial
  | true => exact works rfl

@[simp] theorem under_ensure {Q : Except Failure Unit → σ → S → Prop} (holds : Bool)
    (e : Failure) : (ensure holds e : Action σ Unit).Under c memory s Q ↔
      if holds then Q (.ok ()) memory s else Q (.error e) memory s := by
  cases holds <;> rfl

@[simp] theorem under_liftExcept (x : Except Failure α) :
    (liftExcept x : Action σ α).Under c memory s Q ↔ Q x memory s := by
  rw [Under, program_liftExcept]
  rfl

@[simp] theorem under_tryCatch (x : Action σ α) (f : Failure → Action σ α) :
    (tryCatch x f).Under c memory s Q ↔ x.Under c memory s fun r memory s =>
      match r with
      | .ok a => Q (.ok a) memory s
      | .error e => (f e).Under c memory s Q := by
  rw [Under, program_tryCatch, SectorProgram.under_bind]
  refine iff_of_eq (congrArg _ (funext fun after => funext fun s => ?_))
  obtain ⟨result, memory⟩ := after
  cases result <;> rfl

/-- What is cleaned up after a failure. -/
theorem Under.onFailure {x : Action σ α} {cleanup : Action σ Unit}
    {P : Except Failure α → σ → S → Prop} (first : x.Under c memory s P)
    (ok : ∀ a memory s, P (.ok a) memory s → Q (.ok a) memory s)
    (error : ∀ e memory s, P (.error e) memory s → cleanup.Under c memory s fun r memory s =>
      match r with
      | .ok () => Q (.error e) memory s
      | .error e' => Q (.error e') memory s) :
    (x.onFailure cleanup).Under c memory s Q := by
  rw [Action.onFailure, under_tryCatch]
  refine first.mono fun r memory s holds => ?_
  cases r with
  | ok a => exact ok a memory s holds
  | error e =>
    change (cleanup >>= _).Under c memory s Q
    rw [under_bind]
    refine (error e memory s holds).mono fun r memory s cleaned => ?_
    cases r <;> exact cleaned

theorem under_request {r : Request} {Q : Except Failure r.Reply → σ → S → Prop} :
    (request r : Action σ r.Reply).Under c memory s Q ↔ c.ask s r fun reply s =>
      match reply with
      | some reply => Q (.ok reply) memory s
      | none => Q (.error .io) memory s := by
  rw [Under, program_request, SectorProgram.Under]
  refine iff_of_eq (congrArg (c.ask s r) (funext fun reply => funext fun s => ?_))
  cases reply <;> rfl

/-! ## What an action keeps, whatever the replies are -/

/-- An action keeps a condition on its memory. -/
def Keeps (P : σ → Prop) (x : Action σ α) : Prop :=
  ∀ memory, P memory → x.Under .anything memory () fun _ memory _ => P memory

variable {P : σ → Prop}

theorem keeps_pure (a : α) : (pure a : Action σ α).Keeps P := fun _ holds => holds

theorem keeps_throw (e : Failure) : (throw e : Action σ α).Keeps P := fun _ holds => holds

theorem keeps_get : (get : Action σ σ).Keeps P := fun _ holds => holds

theorem keeps_modify {f : σ → σ} (kept : ∀ memory, P memory → P (f memory)) :
    (modify f : Action σ Unit).Keeps P := kept

theorem keeps_check (x : Except Violation α) : (check x : Action σ α).Keeps P := by
  intro memory holds
  cases x with
  | ok a => exact holds
  | error v => trivial

theorem keeps_request (r : Request) : (request r : Action σ r.Reply).Keeps P := by
  intro memory holds
  rw [under_request]
  intro reply
  cases reply <;> exact holds

theorem keeps_ensure (holds : Bool) (e : Failure) : (ensure holds e : Action σ Unit).Keeps P := by
  cases holds with
  | false => exact keeps_throw e
  | true => exact keeps_pure ()

theorem keeps_liftExcept (x : Except Failure α) : (liftExcept x : Action σ α).Keeps P := by
  cases x with
  | ok a => exact keeps_pure a
  | error e => exact keeps_throw e

theorem Keeps.bind {x : Action σ α} {f : α → Action σ β} (first : x.Keeps P)
    (onward : ∀ a, (f a).Keeps P) : (x >>= f).Keeps P := by
  intro memory holds
  rw [under_bind]
  refine (first memory holds).mono fun r memory' _ holds' => ?_
  cases r with
  | ok a => exact onward a memory' holds'
  | error e => exact holds'

theorem Keeps.map {x : Action σ α} (g : α → β) (keeps : x.Keeps P) : (g <$> x).Keeps P :=
  fun memory holds => (under_map g x).2 (keeps memory holds)

theorem Keeps.tryCatch {x : Action σ α} {f : Failure → Action σ α} (first : x.Keeps P)
    (handler : ∀ e, (f e).Keeps P) : (tryCatch x f).Keeps P := by
  intro memory holds
  rw [under_tryCatch]
  refine (first memory holds).mono fun r memory' _ holds' => ?_
  cases r with
  | ok a => exact holds'
  | error e => exact handler e memory' holds'

theorem Keeps.ignoreError {x : Action σ Unit} (keeps : x.Keeps P) : x.ignoreError.Keeps P :=
  keeps.tryCatch fun _ => keeps_pure ()

theorem Keeps.onFailure {x : Action σ α} {cleanup : Action σ Unit} (first : x.Keeps P)
    (second : cleanup.Keeps P) : (x.onFailure cleanup).Keeps P :=
  first.tryCatch fun e => second.bind fun _ => keeps_throw e

theorem keeps_forM {f : α → Action σ Unit} (xs : List α) (each : ∀ x, (f x).Keeps P) :
    (xs.forM f).Keeps P := by
  induction xs with
  | nil => exact keeps_pure ()
  | cons x xs ih => exact (each x).bind fun _ => ih

theorem keeps_foldlM {f : β → α → Action σ β} (xs : List α) (each : ∀ b x, (f b x).Keeps P)
    (b : β) : (xs.foldlM f b).Keeps P := by
  induction xs generalizing b with
  | nil => exact keeps_pure b
  | cons x xs ih => exact (each b x).bind ih

theorem keeps_readSector (s : Sector) : (readSector s : Action σ _).Keeps P :=
  (keeps_request _).bind fun _ => keeps_pure _

theorem keeps_readInode (s : Sector) : (readInode s : Action σ _).Keeps P :=
  (keeps_readSector s).bind fun _ => keeps_pure _

theorem keeps_readIndex (s : Sector) : (readIndex s : Action σ _).Keeps P :=
  (keeps_readSector s).bind fun _ => keeps_pure _

/-- A run of an action that keeps a condition keeps it. -/
theorem Keeps.run [SectorStore τ] {x : Action σ α} {store store' : τ} {memory' : σ}
    {r : Except Failure α} (keeps : x.Keeps P) (holds : P memory)
    (ran : x.run memory store = .ok ((r, memory'), store')) : P memory' :=
  SectorProgram.Under.run (keeps memory holds) ran

/-- What holds of an action whatever the replies are holds beside what it ensures. -/
theorem Ensures.and_anything {m : Nat} {mayFail : Prop} {x : Action σ α} {image : Image}
    {Q : Except Failure α → σ → Image → Prop} {R : Except Failure α → σ → Unit → Prop}
    (ensures : x.Ensures m mayFail memory image Q) (under : x.Under .anything memory () R) :
    x.Ensures m mayFail memory image fun r memory image => Q r memory image ∧ R r memory () :=
  SectorProgram.Ensures.and_anything ensures under

/-- What an action keeps holds beside what it ensures. -/
theorem Ensures.keeping {m : Nat} {mayFail : Prop} {x : Action σ α} {image : Image}
    {Q : Except Failure α → σ → Image → Prop} (ensures : x.Ensures m mayFail memory image Q)
    (keeps : x.Keeps P) (holds : P memory) :
    x.Ensures m mayFail memory image fun r memory image => Q r memory image ∧ P memory :=
  ensures.and_anything (keeps memory holds)

end Action

end SectorFs
