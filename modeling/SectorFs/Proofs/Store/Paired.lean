/-
# SectorFs.Proofs.Store.Paired — one program on two stores

Two results are `Paired` if they are the same value, with stores that are
related, or the same broken condition. Stores that give paired replies to every
request run every program with paired results (`run_paired`).

A plain array serves the sectors it shows, and where it has no outages no request
fails (`PlainStore.run_of_ensures`). A block cache on a device that does not fail
and a plain array that shows the same sectors run every program with paired
results (`PlainStore.serve_shows`), with requests for what is not there among them.
-/
import SectorFs.Proofs.Store.Ensures

namespace SectorFs

set_option autoImplicit false

variable {α β τ τ' : Type} {R : τ → τ' → Prop}

/-- The same result with stores that are related, or the same broken condition. -/
inductive Paired (R : τ → τ' → Prop) :
    Except Violation (α × τ) → Except Violation (α × τ') → Prop where
  | ok (a : α) {s : τ} {s' : τ'} : R s s' → Paired R (.ok (a, s)) (.ok (a, s'))
  | error (v : Violation) : Paired R (.error v) (.error v)

theorem Paired.split {x : Except Violation (α × τ)} {x' : Except Violation (α × τ')}
    (paired : Paired R x x') :
    (∃ v, x = .error v ∧ x' = .error v) ∨
      ∃ a s s', x = .ok (a, s) ∧ x' = .ok (a, s') ∧ R s s' := by
  cases paired with
  | ok a related => exact .inr ⟨a, _, _, rfl, rfl, related⟩
  | error v => exact .inl ⟨v, rfl, rfl⟩

/-- Two runs that go on alike. -/
theorem Paired.bind {σ σ' : Type} {S : σ → σ' → Prop} {x : Except Violation (α × τ)}
    {x' : Except Violation (α × τ')} {f : α × τ → Except Violation (β × σ)}
    {f' : α × τ' → Except Violation (β × σ')} (paired : Paired R x x')
    (onward : ∀ a s s', R s s' → Paired S (f (a, s)) (f' (a, s'))) :
    Paired S (x >>= f) (x' >>= f') := by
  cases paired with
  | ok a related => exact onward a _ _ related
  | error v => exact .error v

/-- A program has paired results on stores that give paired replies. -/
theorem SectorProgram.run_paired [SectorStore τ] [SectorStore τ']
    (serve : ∀ s s', R s s' → ∀ r, Paired R (SectorStore.serve s r) (SectorStore.serve s' r))
    (p : SectorProgram α) {s : τ} {s' : τ'} (related : R s s') :
    Paired R (p.run s) (p.run s') := by
  induction p generalizing s s' with
  | done a => exact .ok a related
  | halt v => exact .error v
  | ask r next ih => exact (serve s s' related r).bind fun reply _ _ related => ih reply related

/-! ## A cache and a plain array -/

variable {m k : Nat}

namespace PlainStore

def image (p : PlainStore m) : Image := fun i =>
  if h : i < m then p.sectors.get ⟨i, h⟩ else Block.zero 512

/-- A plain array fulfils a request in range as the sectors it shows. -/
theorem fulfil_spec (p : PlainStore m) {r : Request} (inRange : r.InRange m) :
    ∃ p' : PlainStore m, p.fulfil r = .ok (r.reply p.image, p') ∧ p'.outages = p.outages ∧
      p'.image = r.after p.image := by
  cases r with
  | read s off len =>
    refine ⟨p, ?_, rfl, rfl⟩
    rw [fulfil, if_pos inRange.2, locate, dif_pos inRange.1, Request.reply, image,
      dif_pos inRange.1]
    rfl
  | write s off data =>
    obtain ⟨there, within⟩ : s.index < m ∧ off + data.length ≤ 512 := inRange
    let block := (p.sectors.get ⟨s.index, there⟩).patch off data
    refine ⟨{ p with sectors := p.sectors.set s.index block there }, ?_, rfl, funext fun i => ?_⟩
    · rw [fulfil, if_pos within, locate, dif_pos there]
      rfl
    · simp only [image, Request.after, Function.update_apply]
      by_cases inside : i < m
      · rw [dif_pos inside, dif_pos there, dif_pos inside,
          get_set p.sectors ⟨s.index, there⟩ ⟨i, inside⟩]
        simp only [Fin.mk.injEq, block]
      · have beyond : i ≠ s.index := fun same => inside (same ▸ there)
        rw [dif_neg inside, dif_neg inside, if_neg beyond]
  | prefetch s | flush => exact ⟨p, rfl, rfl, rfl⟩

/-- A plain array serves a request in range as the sectors it shows, or the request fails. -/
theorem serve_cases (p : PlainStore m) {r : Request} (inRange : r.InRange m) :
    ∃ p' : PlainStore m, p'.outages = p.outages.tail ∧
      (SectorStore.serve p r = .ok (some (r.reply p.image), p') ∧ p'.image = r.after p.image ∨
        p.outages ≠ [] ∧ SectorStore.serve p r = .ok (none, p') ∧ p'.image = p.image) := by
  obtain ⟨p', fulfilled, outages, image⟩ :=
    fulfil_spec { p with outages := p.outages.tail } inRange
  have served : SectorStore.serve p r = if p.outages.head?.getD false
      then .ok (none, { p with outages := p.outages.tail })
      else .ok (some (r.reply p.image), p') := by
    change (fulfil _ r >>= _) = _
    rw [fulfilled]
    rfl
  cases fails : p.outages.head?.getD false with
  | false =>
    rw [fails] at served
    exact ⟨p', outages, .inl ⟨served, image⟩⟩
  | true =>
    rw [fails] at served
    refine ⟨_, rfl, .inr ⟨fun none => ?_, served, rfl⟩⟩
    rw [none] at fails
    cases fails

/-- A plain array without outages serves a request in range as the sectors it shows. -/
theorem serve_spec {p : PlainStore m} {r : Request} (sound : p.outages = [])
    (inRange : r.InRange m) :
    ∃ p' : PlainStore m, SectorStore.serve p r = .ok (some (r.reply p.image), p') ∧
      p'.outages = [] ∧ p'.image = r.after p.image := by
  obtain ⟨p', outages, ⟨served, image⟩ | ⟨fails, -⟩⟩ := serve_cases p inRange
  · exact ⟨p', served, by rw [outages, sound]; rfl, image⟩
  · exact absurd sound fails

/-- What a program ensures holds of its run on a plain array. -/
theorem run_of_ensures {mayFail : Prop} {x : SectorProgram α} {p : PlainStore m}
    {Q : α → Image → Prop} (may : p.outages ≠ [] → mayFail)
    (ensures : x.Ensures m mayFail p.image Q) :
    ∃ a p', x.run p = .ok (a, p') ∧ Q a p'.image := by
  induction x generalizing p with
  | done a => exact ⟨a, p, rfl, ensures⟩
  | halt v => exact ensures.elim
  | ask r next ih =>
    obtain ⟨inRange, works, breaks⟩ := ensures
    obtain ⟨p₁, outages, served_as⟩ := serve_cases p inRange
    have may₁ (some : p₁.outages ≠ []) : mayFail := may fun none => some (by rw [outages, none]; rfl)
    rw [SectorProgram.run]
    rcases served_as with ⟨served, image⟩ | ⟨fails, served, image⟩
    · rw [served]
      exact ih _ may₁ (by rwa [image])
    · rw [served]
      exact ih _ may₁ (by rw [image]; exact breaks (may fails))

/-- What an action ensures holds of its run on a plain array. -/
theorem exists_run {mayFail : Prop} {σ : Type} {x : Action σ α} {memory : σ} {p : PlainStore m}
    {Q : Except Failure α → σ → Image → Prop} (may : p.outages ≠ [] → mayFail)
    (ensures : x.Ensures m mayFail memory p.image Q) :
    ∃ r memory' p', x.run memory p = .ok ((r, memory'), p') ∧ Q r memory' p'.image := by
  obtain ⟨⟨r, memory'⟩, p', ran, holds⟩ := run_of_ensures may ensures
  exact ⟨r, memory', p', ran, holds⟩

/-- What an action ensures holds after every run of it on a plain array. -/
theorem holds_of_run {mayFail : Prop} {σ : Type} {x : Action σ α} {memory memory' : σ}
    {p p' : PlainStore m} {r : Except Failure α} {Q : Except Failure α → σ → Image → Prop}
    (may : p.outages ≠ [] → mayFail) (ensures : x.Ensures m mayFail memory p.image Q)
    (ran : x.run memory p = .ok ((r, memory'), p')) : Q r memory' p'.image := by
  obtain ⟨r₁, memory₁, p₁, ran₁, holds⟩ := exists_run may ensures
  rw [ran] at ran₁
  cases ran₁
  exact holds

/-- Bytes that are not there break one condition, whoever looks for them. -/
theorem exists_violation {s : Sector} {off len : Nat}
    (outside : ¬ (s.index < m ∧ off + len ≤ 512)) :
    ∃ v, (∀ {γ : Type} (f : Fin m → Except Violation γ),
        (if off + len ≤ 512 then locate s >>= f else .error (.byteRange off len 512)) = .error v) ∧
      ∀ use, (if off + len ≤ 512 then Operation.seekBlock s.index use
        else .error (.byteRange off len 512) : Except Violation (Task k m)) = .error v := by
  by_cases within : off + len ≤ 512
  · have beyond : ¬ s.index < m := fun inside => outside ⟨inside, within⟩
    refine ⟨.blockRange s.index, fun f => ?_, fun use => ?_⟩
    · rw [if_pos within, locate, dif_neg beyond]
      rfl
    · rw [if_pos within, Operation.seekBlock, dif_neg beyond]
  · exact ⟨.byteRange off len 512, fun f => if_neg within, fun use => if_neg within⟩

/-- A request out of range breaks the same condition on a cache. -/
theorem serve_outside {p : PlainStore m} {c : Cache k m 512} {r : Request}
    (outside : ¬ r.InRange m) : ∃ v, SectorStore.serve p r = .error v ∧
      SectorStore.serve c r = .error v := by
  cases r with
  | read s off len =>
    obtain ⟨v, located, sought⟩ := exists_violation (k := k) outside
    refine ⟨v, ?_, ?_⟩
    · change (fulfil _ (.read s off len) >>= _) = _
      rw [fulfil, located]
      rfl
    · change ((Operation.start 512 (.read s.index off len) >>= _) >>= _) = _
      rw [Operation.start, sought]
      rfl
  | write s off data =>
    obtain ⟨v, located, sought⟩ := exists_violation (k := k) outside
    refine ⟨v, ?_, ?_⟩
    · change (fulfil _ (.write s off data) >>= _) = _
      rw [fulfil, located]
      rfl
    · change ((Operation.start 512 (.write s.index off data) >>= _) >>= _) = _
      rw [Operation.start, sought]
      rfl
  | prefetch s | flush => exact absurd trivial outside

/-- A cache on a device that does not fail shows the sectors of a plain array. -/
structure Shows (c : Cache k m 512) (p : PlainStore m) : Prop where
  ready : c.Ready
  reliable : ∀ number kind b, c.device.fails number kind b = false
  sound : p.outages = []
  image : c.image = p.image

theorem serve_shows {c : Cache k m 512} {p : PlainStore m} (shows : Shows c p) (r : Request) :
    Paired Shows (SectorStore.serve c r) (SectorStore.serve p r) := by
  by_cases inRange : r.InRange m
  · obtain ⟨p', served', sound, after'⟩ := serve_spec shows.sound inRange
    obtain ⟨reply, c', served, ready, fails, result⟩ := Cache.serve_spec shows.ready inRange
    have reliable : ∀ number kind b, c'.device.fails number kind b = false := by
      rw [fails]
      exact shows.reliable
    rcases result with ⟨rfl, after⟩ | ⟨mayFail, -⟩
    · rw [served, served', shows.image]
      exact .ok _ ⟨ready, reliable, sound, by rw [after, after', shows.image]⟩
    · exact absurd shows.reliable mayFail
  · obtain ⟨v, served', served⟩ := serve_outside (p := p) (c := c) inRange
    rw [served, served']
    exact .error v

end PlainStore

end SectorFs
