/-
# SectorFs.Proofs.Cache.Interleaving — two threads during a device call

An operation acts on the blocks at one moment: when it ends. So if a second
thread runs while the first waits for the device, the operations of the second
thread that ended before the first one's did come first, and the others come
after it (`race_linearizable`). `runBeside_spec` carries this through the steps of
the first thread.

The device call at which the second thread starts may be any of the first
thread's operation (`Cache.Interrupted`); `Cache.race` is the case where it is
named by its kind and block (`Cache.of_race`).
-/
import SectorFs.Proofs.Cache.Refinement

namespace SectorFs

set_option autoImplicit false

variable {k m n : Nat}

/-- A plain array of blocks carries out operations one after another, with these answers. -/
def InOrder : List Operation → List (Answer m) → Contents m n → Contents m n → Prop
  | [], [], v, v' => v' = v
  | op :: ops, answer :: answers, v, v' =>
      ∃ v₁, op.Settles answer v v₁ ∧ InOrder ops answers v₁ v'
  | _, _, _, _ => False

theorem InOrder.append {ops ops' : List Operation} {answers answers' : List (Answer m)}
    {v v₁ v' : Contents m n} (first : InOrder ops answers v v₁)
    (second : InOrder ops' answers' v₁ v') : InOrder (ops ++ ops') (answers ++ answers') v v' := by
  induction ops generalizing answers v with
  | nil =>
    cases answers with
    | nil =>
      obtain rfl := first
      exact second
    | cons => cases first
  | cons op ops ih =>
    cases answers with
    | nil => cases first
    | cons answer answers =>
      obtain ⟨v₂, settles, rest⟩ := first
      exact ⟨v₂, settles, ih rest⟩

namespace Task

/-- A task that is on its way through an operation. -/
def Serves (n : Nat) (op : Operation) (t : Task k m) : Prop :=
  (∀ r, t ≠ .done r) ∧ ∀ v : Contents m n, t.onContent v = op.onContent v

theorem Serves.going {op : Operation} {t t' : Task k m} {v v' : Contents m n}
    (serves : t.Serves n op) (settles : t.Settles t' v v') (going : ∀ r, t' ≠ .done r) :
    t'.Serves n op ∧ v' = v := by
  obtain ⟨content, access⟩ := settles.going going
  refine ⟨⟨going, fun w => ?_⟩, content⟩
  rw [← serves.2 w, onContent, onContent, access]

theorem Serves.answered {op : Operation} {t : Task k m} {answer : Answer m}
    {v v' : Contents m n} (serves : t.Serves n op) (settles : t.Settles (.done answer) v v') :
    op.Settles answer v v' := by
  cases answer with
  | ok bytes => exact (serves.2 v).symm.trans settles
  | error e => exact settles

theorem Serves.of_settles {op : Operation} {t t' : Task k m} {v v' : Contents m n}
    (start : op.start n = .ok t) (settles : t.Settles t' v v') (going : ∀ r, t' ≠ .done r) :
    t'.Serves n op ∧ v' = v := by
  obtain ⟨-, -, -, same, -⟩ := of_start start
  obtain ⟨content, access⟩ := settles.going going
  refine ⟨⟨going, fun w => ?_⟩, content⟩
  rw [← same w, onContent, onContent, access]

end Task

namespace Worker

/-- The point where a thread stands. -/
def task (w : Worker k m) : Task k m := w.asleep.getD (.done (.ok []))

/-- The operations that a thread has not answered yet. -/
def Waits (n : Nat) (w : Worker k m) (ops : List Operation) : Prop :=
  match w.asleep with
  | none => ops = []
  | some t => ∃ op, ops = op :: w.rest ∧ t.Serves n op

variable {c c' : Cache k m n} {t : Task k m}

/-- A thread goes on with the task `u`: it answers, and works off the rest, or sleeps on the way. -/
inductive GoesOn (u : Task k m) (rest : List Operation) (answers : List (Answer m))
    (c : Cache k m n) : Worker k m → Cache k m n → Prop where
  | answered {answer : Answer m} {c₁ c' : Cache k m n} {w : Worker k m}
      (ran : u.run (Cache.steps k) c = (.done answer, c₁))
      (worked : work rest (answer :: answers) c₁ = .ok (w, c')) : GoesOn u rest answers c w c'
  | asleep {u' : Task k m} {c' : Cache k m n} (ran : u.run (Cache.steps k) c = (u', c'))
      (going : ∀ r, u' ≠ .done r) : GoesOn u rest answers c ⟨answers, some u', rest⟩ c'

theorem goesOn_of_work {op : Operation} {rest : List Operation} {answers : List (Answer m)}
    {w : Worker k m} (worked : work (op :: rest) answers c = .ok (w, c')) :
    ∃ u : Task k m, op.start n = .ok u ∧ GoesOn u rest answers c w c' := by
  unfold work at worked
  cases start : (op.start n : Except Violation (Task k m)) with
  | error v => rw [start] at worked; cases worked
  | ok u =>
    refine ⟨u, rfl, ?_⟩
    simp only [start, bind, Except.bind] at worked
    cases ran : u.run (Cache.steps k) c with
    | mk u' c₁ =>
      rw [ran] at worked
      cases u' with
      | done answer => exact .answered ran worked
      | halted => cases worked
      | probe | seek | awaitHit | awaitSlot | storing | loading | visit | flushing =>
        cases worked
        exact .asleep ran nofun

theorem goesOn_of_wake {w w' : Worker k m} {u : Task k m} (asleep : w.asleep = some u)
    (woken : w.wake c = .ok (w', c')) : GoesOn u w.rest w.answers c w' c' := by
  simp only [wake, asleep] at woken
  cases ran : u.run (Cache.steps k) c with
  | mk u' c₁ =>
    rw [ran] at woken
    cases u' with
    | done answer => exact .answered ran woken
    | halted => cases woken
    | probe | seek | awaitHit | awaitSlot | storing | loading | visit | flushing =>
      cases woken
      exact .asleep ran nofun

/-- What is true when a thread went on beside `t`: it answered the first of the operations that it
had to, as a plain array does, and some wait. -/
structure Advances (w : Worker k m) (ops : List Operation) (answers : List (Answer m))
    (v v' : Contents m n) (done : List Operation) (fresh : List (Answer m))
    (waiting : List Operation) : Prop where
  ops_eq : ops = done ++ waiting
  answers_eq : w.answers = fresh.reverse ++ answers
  inOrder : InOrder done fresh v v'
  waits : w.Waits n waiting

/-- A thread that falls asleep in an operation has done nothing in it. -/
theorem advances_asleep {u : Task k m} {op : Operation} {ops : List Operation}
    {answers : List (Answer m)} {v v' : Contents m n} (serves : u.Serves n op) (same : v' = v) :
    (⟨answers, some u, ops⟩ : Worker k m).Advances (op :: ops) answers v v' [] [] (op :: ops) where
  ops_eq := rfl
  answers_eq := rfl
  inOrder := same
  waits := ⟨op, rfl, serves⟩

/-- A thread that answered an operation goes on. -/
theorem Advances.cons {w : Worker k m} {op : Operation} {ops done waiting : List Operation}
    {answer : Answer m} {answers fresh : List (Answer m)} {v v₁ v' : Contents m n}
    (settles : op.Settles answer v v₁)
    (advances : w.Advances ops (answer :: answers) v₁ v' done fresh waiting) :
    w.Advances (op :: ops) answers v v' (op :: done) (answer :: fresh) waiting where
  ops_eq := congrArg (op :: ·) advances.ops_eq
  answers_eq := by rw [advances.answers_eq, List.reverse_cons, List.append_assoc]; rfl
  inOrder := ⟨v₁, settles, advances.inOrder⟩
  waits := advances.waits

theorem work_spec {ops : List Operation} {answers : List (Answer m)} {w : Worker k m}
    {r : Answer m} (shared : c.Shared t (.done r)) (worked : work ops answers c = .ok (w, c')) :
    c'.Shared t w.task ∧
      ∃ done fresh waiting, w.Advances ops answers c.content c'.content done fresh waiting := by
  induction ops generalizing answers c r with
  | nil =>
    cases worked
    exact ⟨shared.answer _, [], [], [], rfl, rfl, rfl, rfl⟩
  | cons op ops ih =>
    obtain ⟨u, start, goesOn⟩ := goesOn_of_work worked
    obtain ⟨shared₁, settles⟩ := shared.symm.operation start (Cache.steps k)
    cases goesOn with
    | answered ran worked =>
      rw [ran] at shared₁ settles
      obtain ⟨shared', done, fresh, waiting, advances⟩ := ih shared₁.symm worked
      exact ⟨shared', _, _, _, advances.cons (settles.answered start)⟩
    | asleep ran going =>
      rw [ran] at shared₁ settles
      obtain ⟨serves, content⟩ := Task.Serves.of_settles start settles going
      exact ⟨shared₁.symm, _, _, _, advances_asleep serves content⟩

/-- Waking up a thread lets it go on if it can. -/
theorem wake_spec {ops : List Operation} {w w' : Worker k m} (shared : c.Shared t w.task)
    (waits : w.Waits n ops) (woken : w.wake c = .ok (w', c')) :
    c'.Shared t w'.task ∧
      ∃ done fresh waiting, w'.Advances ops w.answers c.content c'.content done fresh waiting := by
  cases asleep : w.asleep with
  | none =>
    simp only [wake, asleep] at woken
    cases woken
    exact ⟨shared, [], [], ops, rfl, rfl, rfl, waits⟩
  | some u =>
    rw [task, asleep] at shared
    rw [Waits, asleep] at waits
    obtain ⟨op, rfl, serves⟩ := waits
    obtain ⟨shared₁, settles⟩ := shared.symm.run (Cache.steps k) serves.1
    change (u.run _ c).2.Shared (u.run _ c).1 t at shared₁
    change u.Settles (u.run _ c).1 _ (u.run _ c).2.content at settles
    cases goesOn_of_wake asleep woken with
    | answered ran worked =>
      rw [ran] at shared₁ settles
      obtain ⟨shared', done, fresh, waiting, advances⟩ := work_spec shared₁.symm worked
      exact ⟨shared', _, _, _, advances.cons (serves.answered settles)⟩
    | asleep ran going =>
      rw [ran] at shared₁ settles
      obtain ⟨serves, content⟩ := serves.going settles going
      exact ⟨shared₁.symm, _, _, _, advances_asleep serves content⟩

end Worker

namespace Task

variable {c c' : Cache k m n} {t : Task k m}

/-- One step of a thread beside another one: it goes on after the other woke up, or stays. -/
theorem runBeside_cases {t' : Task k m} {w w' : Worker k m} {steps : Nat}
    (ran : t.runBeside (steps + 1) w c = .ok (t', w', c')) :
    t' = t ∧ w' = w ∧ c' = c ∨ ∃ t₁ c₁ w₁ c₂, t.step c = some (t₁, c₁) ∧
      w.wake c₁ = .ok (w₁, c₂) ∧ t₁.runBeside steps w₁ c₂ = .ok (t', w', c') := by
  unfold runBeside at ran
  split at ran
  case h_1 =>
    cases ran
    exact .inl ⟨rfl, rfl, rfl⟩
  case h_2 t₁ c₁ stepped =>
    cases woken : w.wake c₁ with
    | error v => rw [woken] at ran; cases ran
    | ok woke =>
      obtain ⟨w₁, c₂⟩ := woke
      simp only [woken, bind, Except.bind] at ran
      exact .inr ⟨t₁, c₁, w₁, c₂, stepped, woken, ran⟩

/-- The first thread ends beside the second one: what the second answered until then came before
it, and what it answered later after it. -/
theorem runBeside_spec {outer : Operation} {ops : List Operation} {w w' : Worker k m}
    {answer : Answer m} (steps : Nat) (shared : c.Shared t w.task) (serves : t.Serves n outer)
    (waits : w.Waits n ops) (ran : t.runBeside steps w c = .ok (.done answer, w', c')) :
    c'.Shared (.done answer) w'.task ∧
      ∃ before after waiting early late v₁ v₂, ops = before ++ after ++ waiting ∧
        w'.answers = (early ++ late).reverse ++ w.answers ∧ InOrder before early c.content v₁ ∧
        outer.Settles answer v₁ v₂ ∧ InOrder after late v₂ c'.content ∧ w'.Waits n waiting := by
  induction steps generalizing t w c ops with
  | zero =>
    cases ran
    exact absurd rfl (serves.1 answer)
  | succ steps ih =>
    rcases runBeside_cases ran with ⟨rfl, -, -⟩ | ⟨t₁, c₁, w₁, c₂, stepped, woken, ran⟩
    · exact absurd rfl (serves.1 answer)
    · obtain ⟨shared₁, settles⟩ := shared.step stepped
      obtain ⟨shared₂, first, fresh, waiting, advances⟩ := Worker.wake_spec shared₁ waits woken
      obtain ⟨rfl, answers, inOrder, waits₁⟩ := advances
      by_cases ended : ∃ r, t₁ = .done r
      · obtain ⟨r, rfl⟩ := ended
        have ends : (Task.done r : Task k m).runBeside steps w₁ c₂ = .ok (.done r, w₁, c₂) := by
          cases steps <;> rfl
        rw [ends] at ran
        cases ran
        exact ⟨shared₂, [], first, waiting, [], fresh, _, _, rfl, answers, rfl,
          serves.answered settles, inOrder, waits₁⟩
      · obtain ⟨serves₁, content⟩ := serves.going settles (not_exists.1 ended)
        obtain ⟨shared', before, after, waiting', early, late, v₁, v₂, rfl, answers', inOrder₁,
          answered, inOrder₂, waits'⟩ := ih shared₂ serves₁ waits₁ ran
        rw [content] at inOrder
        refine ⟨shared', first ++ before, after, waiting', fresh ++ early, late, v₁, v₂, ?_, ?_,
          inOrder.append inOrder₁, answered, inOrder₂, waits'⟩
        · simp only [List.append_assoc]
        · rw [answers', answers]
          simp only [List.reverse_append, List.append_assoc]

/-- Stopping before a device call is a run of some number of steps. -/
theorem runTo_eq_run (kind : IoKind) (b steps : Nat) (t : Task k m) (c : Cache k m n) :
    ∃ i, t.runTo kind b steps c = t.run i c := by
  induction steps generalizing t c with
  | zero => exact ⟨0, rfl⟩
  | succ steps ih =>
    unfold runTo
    split
    · exact ⟨0, rfl⟩
    · cases stepped : t.step c with
      | none => exact ⟨0, rfl⟩
      | some next =>
        obtain ⟨i, same⟩ := ih next.1 next.2
        exact ⟨i + 1, by simp only [run, stepped, same]⟩

end Task

/-- One thread's operation and those of another, as a plain array carries them out: some of the
other's come before it, and the rest after it. -/
def Linearizes (outer : Operation) (inner : List Operation) (answer : Answer m)
    (answers : List (Answer m)) (v v' : Contents m n) : Prop :=
  ∃ before after early late v₁ v₂, inner = before ++ after ∧ answers = early ++ late ∧
    InOrder before early v v₁ ∧ outer.Settles answer v₁ v₂ ∧ InOrder after late v₂ v'

namespace Cache

/-- `outer` runs on a cache up to some point before its end, as one of its device calls is. From
there on `inner` runs in a second thread, until both are through. -/
structure Interrupted (c : Cache k m n) (outer : Operation) (inner : List Operation)
    (answer : Answer m) (answers : List (Answer m)) (c' : Cache k m n) : Prop where
  through : ∃ t t' : Task k m, ∃ c₁ c₂ : Cache k m n, ∃ w w' : Worker k m, ∃ i steps : Nat,
    outer.start n = .ok t ∧ t.run i c = (t', c₁) ∧ (∀ r, t' ≠ .done r) ∧
      Worker.work inner [] c₁ = .ok (w, c₂) ∧
      t'.runBeside steps w c₂ = .ok (.done answer, w', c') ∧
      w'.asleep = none ∧ w'.answers = answers.reverse

theorem Interrupted.linearizes {c c' : Cache k m n} {outer : Operation} {inner : List Operation}
    {answer : Answer m} {answers : List (Answer m)} (resting : c.Resting)
    (interrupted : c.Interrupted outer inner answer answers c') :
    c'.Resting ∧ Linearizes outer inner answer answers c.content c'.content := by
  obtain ⟨t, t', c₁, c₂, w, w', i, steps, start, ran, going, worked, beside, awake, all⟩ :=
    interrupted.through
  obtain ⟨shared₁, settles⟩ := (resting.shared (.ok []) (.ok [])).operation start i
  rw [ran] at shared₁ settles
  obtain ⟨serves, content⟩ := Task.Serves.of_settles start settles going
  obtain ⟨shared₂, first, fresh, waiting, rfl, fresh_eq, inOrder, waits⟩ :=
    Worker.work_spec shared₁ worked
  obtain ⟨shared', before, after, waiting', early, late, v₁, v₂, rfl, answers_eq, inOrder₁,
    answered, inOrder₂, waits'⟩ := Task.runBeside_spec steps shared₂ serves waits beside
  rw [Worker.task, awake] at shared'
  rw [Worker.Waits, awake] at waits'
  obtain rfl := waits'
  rw [content] at inOrder
  refine ⟨shared'.resting, first ++ before, after, fresh ++ early, late, v₁, v₂, ?_, ?_,
    inOrder.append inOrder₁, answered, inOrder₂⟩
  · simp only [List.append_assoc, List.append_nil]
  · rw [all, fresh_eq, List.append_nil, ← List.reverse_append, List.reverse_inj] at answers_eq
    rw [answers_eq, List.append_assoc]

/-- A cache that can be reached from a new one, by one thread or by two. -/
inductive Reachable {m n : Nat} : {k : Nat} → Cache k m n → Prop where
  | new {device : Device m n} {config : CacheSetup} {c : Cache config.slots m n} :
      Cache.new device config = .ok c → Reachable c
  | history {k : Nat} {c c' : Cache k m n} {events : List (CacheEvent k m)} :
      Reachable c → c.History events c' → Reachable c'
  | interrupted {k : Nat} {c c' : Cache k m n} {outer : Operation} {inner : List Operation}
      {answer : Answer m} {answers : List (Answer m)} :
      Reachable c → c.Interrupted outer inner answer answers c' → Reachable c'

theorem Reachable.resting {c : Cache k m n} (reachable : c.Reachable) : c.Resting := by
  induction reachable with
  | new made => exact (resting_new made).1
  | history _ history ih => exact (history.settles ih).1
  | interrupted _ interrupted ih => exact (interrupted.linearizes ih).1

/-- A race in which the second thread ran is an interruption, and one in which it never ran is a
call. -/
theorem of_race {c c' : Cache k m n} {kind : IoKind} {block : Nat} {outer : Operation}
    {inner : List Operation} {result : RaceResult m}
    (raced : c.race kind block outer inner = .ok (result, c')) :
    (∃ answers, result.inner = some answers ∧
      c.Interrupted outer inner result.outer answers c') ∨
    (result.inner = none ∧ c.History [.called outer result.outer] c') := by
  unfold race at raced
  cases start : (outer.start n : Except Violation (Task k m)) with
  | error v => rw [start] at raced; cases raced
  | ok t =>
    simp only [start, bind, Except.bind] at raced
    obtain ⟨i, same⟩ := t.runTo_eq_run kind block (steps k) c
    rw [same] at raced
    cases ran : t.run i c with
    | mk t₁ c₁ =>
      rw [ran] at raced
      by_cases ended : ∃ r, t₁ = .done r
      · obtain ⟨r, rfl⟩ := ended
        cases raced
        have history : (t.run i c).1 = .done r →
            c.History [.called outer r] (t.run i c).2 := .call i .start start
        rw [ran] at history
        exact .inr ⟨rfl, history rfl⟩
      · have going := not_exists.1 ended
        cases t₁ with
        | done r => exact absurd rfl (going r)
        | halted v => cases raced
        | probe | seek | awaitHit | awaitSlot | storing | loading | visit | flushing =>
          cases worked : Worker.work inner [] c₁ with
          | error v => simp only [worked] at raced; cases raced
          | ok started =>
            simp only [worked] at raced
            split at raced
            case h_1 => cases raced
            case h_2 ended beside =>
              obtain ⟨t', ⟨answers, asleep, rest⟩, c₂⟩ := ended
              cases t' <;> cases asleep <;> cases raced
              exact .inl ⟨_, rfl, ⟨t, _, c₁, _, _, _, i, _, start, ran, going, worked, beside, rfl,
                by rw [List.reverse_reverse]⟩⟩

/-- **Two threads do what one could do.** Whichever device call of `outer` a second thread starts
at, a plain array of blocks gives the same answers and the same content when it carries out the
operations of both one after another, with `outer` at one place among the others. -/
theorem race_linearizable {c : Cache k m n} (reachable : c.Reachable) :
    (∀ outer inner answer answers c', c.Interrupted outer inner answer answers c' →
      Linearizes outer inner answer answers c.content c'.content) ∧
    ∀ kind block outer inner result c', c.race kind block outer inner = .ok (result, c') →
      match result.inner with
      | some answers => Linearizes outer inner result.outer answers c.content c'.content
      | none => outer.Settles result.outer c.content c'.content := by
  refine ⟨fun outer inner answer answers c' interrupted =>
    (interrupted.linearizes reachable.resting).2, fun kind block outer inner result c' raced => ?_⟩
  rcases of_race raced with ⟨answers, ran, interrupted⟩ | ⟨never, history⟩
  · rw [ran]
    exact (interrupted.linearizes reachable.resting).2
  · rw [never]
    obtain ⟨-, serves, content⟩ := history.settles reachable.resting
    generalize result.outer = answer at serves content
    cases answer with
    | ok bytes => exact Prod.ext serves.1.symm content.symm
    | error e => exact content

/-- A second thread writes and reads block 0 while the first stores it to make room for block 1. -/
theorem race_linearizable_storing :
    ∃ c c' : Cache 1 2 1, c.Reachable ∧
      c.race .write 0 (.read 1 0 1) [.write 0 0 [9], .read 0 0 1] =
        .ok (⟨.ok [7], some [.ok [], .ok [9]]⟩, c') ∧
      Linearizes (.read 1 0 1) [.write 0 0 [9], .read 0 0 1] (.ok [7]) [.ok [], .ok [9]]
        c.content c'.content := by
  obtain ⟨c, c', c'', made, wrote, raced⟩ : ∃ c c' c'' : Cache 1 2 1,
      Cache.new (Device.filled 2 1 7) { slots := 1, policy := .clock } = .ok c ∧
      c.call (.write 0 0 [8]) = .ok (.ok [], c') ∧
      c'.race .write 0 (.read 1 0 1) [.write 0 0 [9], .read 0 0 1] =
        .ok (⟨.ok [7], some [.ok [], .ok [9]]⟩, c'') := ⟨_, _, _, rfl, rfl, rfl⟩
  have reachable : c'.Reachable := .history (.new made) (.of_call .start wrote)
  exact ⟨c', c'', reachable, raced, (race_linearizable reachable).2 _ _ _ _ _ _ raced⟩

end Cache

end SectorFs
