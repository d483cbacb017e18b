/-
# SectorFs.Proofs.Store.Ensures — what a program does to the sectors

`SectorProgram.Ensures m mayFail p image Q`: on a store of `m` sectors that
shows `image`, the program `p` asks only for what is there, breaks no condition
and ends so that `Q` holds of its result and the sectors after it. Where
`mayFail`, any request may fail, and changes nothing then.

`Action.Ensures` says the same of an action, with its state in memory. There is
one equation for each way to build an action; the operations of the file system
are unfolded with these equations, and where one action follows another, the second
starts `Onward` from where the first came.

A block cache is such a store (`Cache.run_of_ensures`).
-/
import SectorFs.Store.Basic
import SectorFs.Proofs.Cache.Refinement

namespace SectorFs

set_option autoImplicit false

/-- The bytes of all sectors, by their number. -/
abbrev Image := Nat → Block 512

namespace Request

/-- What is asked for lies on a store of `m` sectors. -/
def InRange (m : Nat) : Request → Prop
  | .read s off len => s.index < m ∧ off + len ≤ 512
  | .write s off data => s.index < m ∧ off + data.length ≤ 512
  | .prefetch _ | .flush => True

def reply (image : Image) : (r : Request) → r.Reply
  | .read s off len => (image s.index).slice off len
  | .write .. | .prefetch _ | .flush => ()

def after (image : Image) : Request → Image
  | .write s off data => Function.update image s.index ((image s.index).patch off data)
  | .read .. | .prefetch _ | .flush => image

end Request

variable {m : Nat} {mayFail : Prop} {σ α β : Type}

namespace SectorProgram

def Ensures (m : Nat) (mayFail : Prop) : SectorProgram α → Image → (α → Image → Prop) → Prop
  | .done a, image, Q => Q a image
  | .halt _, _, _ => False
  | .ask r next, image, Q =>
      r.InRange m ∧ (next (some (r.reply image))).Ensures m mayFail (r.after image) Q ∧
        (mayFail → (next none).Ensures m mayFail image Q)

theorem Ensures.mono {p : SectorProgram α} {image : Image} {P Q : α → Image → Prop}
    (ensures : p.Ensures m mayFail image P) (weaker : ∀ a image, P a image → Q a image) :
    p.Ensures m mayFail image Q := by
  induction p generalizing image with
  | done a => exact weaker a image ensures
  | halt v => exact ensures
  | ask r next ih =>
    obtain ⟨inRange, works, fails⟩ := ensures
    exact ⟨inRange, ih _ works, fun may => ih _ (fails may)⟩

theorem Ensures.and {p : SectorProgram α} {image : Image} {P Q : α → Image → Prop}
    (first : p.Ensures m mayFail image P) (second : p.Ensures m mayFail image Q) :
    p.Ensures m mayFail image fun a image => P a image ∧ Q a image := by
  induction p generalizing image with
  | done a => exact ⟨first, second⟩
  | halt v => exact first
  | ask r next ih =>
    obtain ⟨inRange, works, fails⟩ := first
    obtain ⟨-, works', fails'⟩ := second
    exact ⟨inRange, ih _ works works', fun may => ih _ (fails may) (fails' may)⟩

theorem ensures_bind (p : SectorProgram α) (f : α → SectorProgram β) (image : Image)
    (Q : β → Image → Prop) : (p >>= f).Ensures m mayFail image Q ↔
      p.Ensures m mayFail image fun a image => (f a).Ensures m mayFail image Q := by
  induction p generalizing image with
  | done a => rfl
  | halt v => rfl
  | ask r next ih =>
    simp only [ask_bind, Ensures]
    rw [ih, ih]

end SectorProgram

namespace Action

def Ensures (m : Nat) (mayFail : Prop) (x : Action σ α) (memory : σ) (image : Image)
    (Q : Except Failure α → σ → Image → Prop) : Prop :=
  (x.program memory).Ensures m mayFail image fun after image => Q after.1 after.2 image

variable {memory : σ} {image : Image} {Q : Except Failure α → σ → Image → Prop}

theorem Ensures.mono {x : Action σ α} {P : Except Failure α → σ → Image → Prop}
    (ensures : x.Ensures m mayFail memory image P)
    (weaker : ∀ r memory image, P r memory image → Q r memory image) :
    x.Ensures m mayFail memory image Q :=
  SectorProgram.Ensures.mono ensures fun _ _ => weaker _ _ _

/-- What an action ensures in two ways it ensures at once. -/
theorem Ensures.and {x : Action σ α} {P : Except Failure α → σ → Image → Prop}
    (first : x.Ensures m mayFail memory image P) (second : x.Ensures m mayFail memory image Q) :
    x.Ensures m mayFail memory image fun r memory image => P r memory image ∧ Q r memory image :=
  SectorProgram.Ensures.and first second

@[simp] theorem ensures_pure (a : α) :
    (pure a : Action σ α).Ensures m mayFail memory image Q ↔ Q (.ok a) memory image := Iff.rfl

@[simp] theorem ensures_throw (e : Failure) :
    (throw e : Action σ α).Ensures m mayFail memory image Q ↔ Q (.error e) memory image := Iff.rfl

@[simp] theorem ensures_get {Q : Except Failure σ → σ → Image → Prop} :
    (get : Action σ σ).Ensures m mayFail memory image Q ↔ Q (.ok memory) memory image := Iff.rfl

@[simp] theorem ensures_modify {Q : Except Failure Unit → σ → Image → Prop} (f : σ → σ) :
    (modify f : Action σ Unit).Ensures m mayFail memory image Q ↔ Q (.ok ()) (f memory) image :=
  Iff.rfl

/-- A program is an action that leaves the memory alone. -/
@[simp] theorem ensures_lift (p : SectorProgram α) :
    (liftM p : Action σ α).Ensures m mayFail memory image Q ↔
      p.Ensures m mayFail image fun a image => Q (.ok a) memory image := by
  have lifted : (liftM p : Action σ α).program memory =
      p >>= fun a => .done (.ok a, memory) := by
    change (p >>= fun a => SectorProgram.done (a, memory)) >>= _ = _
    rw [SectorProgram.bind_assoc]
    rfl
  rw [Ensures, lifted, SectorProgram.ensures_bind]
  rfl

/-- What holds after the rest of an action, from where its first part came. -/
def Onward (f : α → Action σ β) (m : Nat) (mayFail : Prop)
    (Q : Except Failure β → σ → Image → Prop) :
    Except Failure α → σ → Image → Prop
  | .ok a, memory, image => (f a).Ensures m mayFail memory image Q
  | .error e, memory, image => Q (.error e) memory image

@[simp] theorem onward_ok {f : α → Action σ β} {Q : Except Failure β → σ → Image → Prop} (a : α) :
    Onward f m mayFail Q (.ok a) memory image ↔ (f a).Ensures m mayFail memory image Q := Iff.rfl

@[simp] theorem onward_error {f : α → Action σ β} {Q : Except Failure β → σ → Image → Prop}
    (e : Failure) : Onward f m mayFail Q (.error e) memory image ↔ Q (.error e) memory image :=
  Iff.rfl

@[simp] theorem ensures_bind (x : Action σ α) (f : α → Action σ β)
    {Q : Except Failure β → σ → Image → Prop} :
    (x >>= f).Ensures m mayFail memory image Q ↔
      x.Ensures m mayFail memory image (Onward f m mayFail Q) := by
  rw [Ensures, program_bind, SectorProgram.ensures_bind]
  refine iff_of_eq (congrArg _ (funext fun after => funext fun image => ?_))
  obtain ⟨result, memory⟩ := after
  cases result <;> rfl

@[simp] theorem ensures_map (g : α → β) (x : Action σ α)
    {Q : Except Failure β → σ → Image → Prop} :
    (g <$> x).Ensures m mayFail memory image Q ↔
      x.Ensures m mayFail memory image fun r => Q (r.map g) := by
  rw [Ensures, program_map, SectorProgram.ensures_bind]
  rfl

@[simp] theorem ensures_discard (x : Action σ α) {Q : Except Failure Unit → σ → Image → Prop} :
    (discard x).Ensures m mayFail memory image Q ↔
      x.Ensures m mayFail memory image fun r => Q (r.map fun _ => ()) :=
  ensures_map _ x

@[simp] theorem ensures_check_ok (a : α) :
    (check (.ok a) : Action σ α).Ensures m mayFail memory image Q ↔ Q (.ok a) memory image :=
  Iff.rfl

@[simp] theorem ensures_require {Q : Except Failure Unit → σ → Image → Prop} (holds : Bool)
    (v : Violation) : (require holds v : Action σ Unit).Ensures m mayFail memory image Q ↔
      holds = true ∧ Q (.ok ()) memory image := by
  cases holds with
  | false => exact ⟨False.elim, fun h => by cases h.1⟩
  | true => exact ⟨fun h => ⟨rfl, h⟩, And.right⟩

@[simp] theorem ensures_ensure {Q : Except Failure Unit → σ → Image → Prop} (holds : Bool)
    (e : Failure) : (ensure holds e : Action σ Unit).Ensures m mayFail memory image Q ↔
      if holds then Q (.ok ()) memory image else Q (.error e) memory image := by
  cases holds <;> rfl

@[simp] theorem ensures_liftExcept (x : Except Failure α) :
    (liftExcept x : Action σ α).Ensures m mayFail memory image Q ↔ Q x memory image := by
  rw [Ensures, program_liftExcept]
  rfl

@[simp] theorem ensures_tryCatch (x : Action σ α) (f : Failure → Action σ α) :
    (tryCatch x f).Ensures m mayFail memory image Q ↔
      x.Ensures m mayFail memory image fun r memory image =>
        match r with
        | .ok a => Q (.ok a) memory image
        | .error e => (f e).Ensures m mayFail memory image Q := by
  rw [Ensures, program_tryCatch, SectorProgram.ensures_bind]
  refine iff_of_eq (congrArg _ (funext fun after => funext fun image => ?_))
  obtain ⟨result, memory⟩ := after
  cases result <;> rfl

theorem ensures_ignoreError (x : Action σ Unit) {Q : Except Failure Unit → σ → Image → Prop} :
    x.ignoreError.Ensures m mayFail memory image Q ↔
      x.Ensures m mayFail memory image fun _ memory image => Q (.ok ()) memory image := by
  rw [ignoreError, ensures_tryCatch]
  refine iff_of_eq (congrArg _ (funext fun r => funext fun memory => funext fun image => ?_))
  cases r <;> rfl

/-- An action with a clean-up for its failures, which fails as the action did. -/
theorem Ensures.onFailure {x : Action σ α} {cleanup : Action σ Unit}
    {P : Except Failure α → σ → Image → Prop} (first : x.Ensures m mayFail memory image P)
    (ok : ∀ a memory image, P (.ok a) memory image → Q (.ok a) memory image)
    (error : ∀ e memory image, P (.error e) memory image →
      cleanup.Ensures m mayFail memory image fun r memory image =>
        match r with
        | .ok () => Q (.error e) memory image
        | .error e' => Q (.error e') memory image) :
    (x.onFailure cleanup).Ensures m mayFail memory image Q := by
  rw [Action.onFailure, ensures_tryCatch]
  refine first.mono fun r memory image holds => ?_
  cases r with
  | ok a => exact ok a memory image holds
  | error e =>
    change (cleanup >>= _).Ensures m mayFail memory image Q
    rw [ensures_bind]
    refine (error e memory image holds).mono fun r memory image cleaned => ?_
    cases r <;> exact cleaned

/-! ## Requests -/

theorem ensures_request {r : Request} {Q : Except Failure r.Reply → σ → Image → Prop} :
    (request r : Action σ r.Reply).Ensures m mayFail memory image Q ↔
      r.InRange m ∧ Q (.ok (r.reply image)) memory (r.after image) ∧
        (mayFail → Q (.error .io) memory image) := by
  rw [Ensures, program_request]
  rfl

@[simp] theorem ensures_read {Q : Except Failure (List UInt8) → σ → Image → Prop} (s : Sector)
    (off len : Nat) : (read s off len : Action σ _).Ensures m mayFail memory image Q ↔
      (s.index < m ∧ off + len ≤ 512) ∧ Q (.ok ((image s.index).slice off len)) memory image ∧
        (mayFail → Q (.error .io) memory image) :=
  ensures_request

@[simp] theorem ensures_write {Q : Except Failure Unit → σ → Image → Prop} (s : Sector)
    (off : Nat) (data : List UInt8) :
    (write s off data : Action σ Unit).Ensures m mayFail memory image Q ↔
      (s.index < m ∧ off + data.length ≤ 512) ∧
        Q (.ok ()) memory (Function.update image s.index ((image s.index).patch off data)) ∧
        (mayFail → Q (.error .io) memory image) :=
  ensures_request

@[simp] theorem ensures_prefetch {Q : Except Failure Unit → σ → Image → Prop} (s : Sector) :
    (prefetch s : Action σ Unit).Ensures m mayFail memory image Q ↔
      Q (.ok ()) memory image ∧ (mayFail → Q (.error .io) memory image) :=
  ensures_request.trans (and_iff_right trivial)

@[simp] theorem ensures_flush {Q : Except Failure Unit → σ → Image → Prop} :
    (flush : Action σ Unit).Ensures m mayFail memory image Q ↔
      Q (.ok ()) memory image ∧ (mayFail → Q (.error .io) memory image) :=
  ensures_request.trans (and_iff_right trivial)

@[simp] theorem ensures_readSector {Q : Except Failure (Block 512) → σ → Image → Prop}
    (s : Sector) : (readSector s : Action σ _).Ensures m mayFail memory image Q ↔
      s.index < m ∧ Q (.ok (image s.index)) memory image ∧
        (mayFail → Q (.error .io) memory image) := by
  simp [readSector, Except.map, Block.slice_all, Block.ofList_bytes]

@[simp] theorem ensures_writeSector {Q : Except Failure Unit → σ → Image → Prop} (s : Sector)
    (b : Block 512) : (writeSector s b : Action σ Unit).Ensures m mayFail memory image Q ↔
      s.index < m ∧ Q (.ok ()) memory (Function.update image s.index b) ∧
        (mayFail → Q (.error .io) memory image) := by
  have whole (old : Block 512) : old.patch 0 b.bytes = b := by
    apply Vector.ext
    intro i h
    rw [Block.getElem_patch_inside _ _ _ _ _ (by omega) (by simpa [Block.bytes] using h)]
    simp [Block.bytes]
  have length : b.bytes.length = 512 := by simp [Block.bytes]
  simp [writeSector, whole, length]

@[simp] theorem ensures_readInode {Q : Except Failure Inode → σ → Image → Prop} (s : Sector) :
    (readInode s : Action σ _).Ensures m mayFail memory image Q ↔
      s.index < m ∧ Q (.ok (.decode (image s.index))) memory image ∧
        (mayFail → Q (.error .io) memory image) := by
  simp [readInode, Except.map]

@[simp] theorem ensures_writeInode {Q : Except Failure Unit → σ → Image → Prop} (s : Sector)
    (d : Inode) : (writeInode s d : Action σ Unit).Ensures m mayFail memory image Q ↔
      s.index < m ∧ Q (.ok ()) memory (Function.update image s.index d.encode) ∧
        (mayFail → Q (.error .io) memory image) :=
  ensures_writeSector s d.encode

@[simp] theorem ensures_readIndex {Q : Except Failure IndexBlock → σ → Image → Prop}
    (s : Sector) : (readIndex s : Action σ _).Ensures m mayFail memory image Q ↔
      s.index < m ∧ Q (.ok (.decode (image s.index))) memory image ∧
        (mayFail → Q (.error .io) memory image) := by
  simp [readIndex, Except.map]

@[simp] theorem ensures_writeIndex {Q : Except Failure Unit → σ → Image → Prop} (s : Sector)
    (x : IndexBlock) : (writeIndex s x : Action σ Unit).Ensures m mayFail memory image Q ↔
      s.index < m ∧ Q (.ok ()) memory (Function.update image s.index x.encode) ∧
        (mayFail → Q (.error .io) memory image) :=
  ensures_writeSector s x.encode

@[simp] theorem ensures_clear {Q : Except Failure Unit → σ → Image → Prop} (s : Sector) :
    (clear s : Action σ Unit).Ensures m mayFail memory image Q ↔
      s.index < m ∧ Q (.ok ()) memory (Function.update image s.index (Block.zero 512)) ∧
        (mayFail → Q (.error .io) memory image) :=
  ensures_writeSector s _

end Action

/-! ## A cache as a store -/

/-- The sectors that a device has. -/
def Device.image (d : Device m 512) : Image := fun i =>
  if h : i < m then d.blocks.get ⟨i, h⟩ else Block.zero 512

namespace Cache

variable {k : Nat} {c : Cache k m 512}

/-- The sectors as a reader of the cache sees them. -/
def image (c : Cache k m 512) : Image := fun i =>
  if h : i < m then c.content ⟨i, h⟩ else Block.zero 512

theorem image_eq_of_content {c c' : Cache k m 512} (same : c'.content = c.content) :
    c'.image = c.image := by
  funext i
  simp only [image, same]

/-- Where everything is stored the device has the sectors that the cache shows. -/
theorem image_of_stored (stored : ∀ b, c.device.blocks.get b = c.content b) :
    c.device.image = c.image := by
  funext i
  rw [Device.image, image]
  split
  · exact stored _
  · rfl

/-- A cache between two calls, on which no lock is held from outside. -/
structure Ready (c : Cache k m 512) : Prop where
  resting : c.Resting
  inside (i : Fin k) : c.lockAt i ≠ .outside

/-- The device calls of a cache may fail. -/
def MayFail (c : Cache k m 512) : Prop :=
  ¬ ∀ number kind b, c.device.fails number kind b = false

theorem image_of_settles {r : Request} {bytes : List UInt8} {v v' : Contents m 512}
    {image image' : Image} (inRange : r.InRange m)
    (shows : image = fun i => if h : i < m then v ⟨i, h⟩ else Block.zero 512)
    (shows' : image' = fun i => if h : i < m then v' ⟨i, h⟩ else Block.zero 512)
    (settles : (operationOf r).Settles (.ok bytes) v v') :
    replyOf (.ok bytes : Answer m) r = some (r.reply image) ∧ image' = r.after image := by
  subst shows shows'
  cases r with
  | read s off len =>
    obtain ⟨rfl, rfl⟩ := Prod.ext_iff.1 ((dif_pos inRange.1).symm.trans settles)
    refine ⟨?_, rfl⟩
    simp only [replyOf, Request.reply, dif_pos inRange.1]
    rfl
  | write s off data =>
    obtain ⟨rfl, rfl⟩ := Prod.ext_iff.1 ((dif_pos inRange.1).symm.trans settles)
    refine ⟨rfl, funext fun i => ?_⟩
    by_cases same : i = s.index
    · subst same
      simp [Request.after, inRange.1]
    · by_cases inside : i < m
      · simp [Request.after, same, inside, Function.update_of_ne, Fin.ext_iff]
      · simp [Request.after, same, inside]
  | prefetch s =>
    obtain ⟨rfl, rfl⟩ := Prod.ext_iff.1 settles
    exact ⟨rfl, rfl⟩
  | flush =>
    obtain ⟨rfl, rfl⟩ := Prod.ext_iff.1 settles
    exact ⟨rfl, rfl⟩

theorem exists_start {r : Request} (inRange : r.InRange m) :
    ∃ t : Task k m, (operationOf r).start 512 = .ok t := by
  refine Operation.exists_start ?_
  cases r with
  | read | write => exact inRange
  | prefetch | flush => trivial

/-- A cache serves every request in range. -/
theorem serve_spec {r : Request} (ready : c.Ready) (inRange : r.InRange m) :
    ∃ reply c', SectorStore.serve c r = .ok (reply, c') ∧ c'.Ready ∧
      c'.device.fails = c.device.fails ∧
      (reply = some (r.reply c.image) ∧ c'.image = r.after c.image ∨
        c.MayFail ∧ reply = none ∧ c'.image = c.image) := by
  obtain ⟨t, start⟩ := exists_start (k := k) inRange
  obtain ⟨answer, c', called, resting, inside, fails, settles, sound⟩ :=
    call_returns ready.resting ready.inside start
  refine ⟨replyOf answer r, c', ?_, ⟨resting, inside⟩, fails, ?_⟩
  · change (c.call (operationOf r) >>= _) = _
    rw [called]
    rfl
  · cases answer with
    | ok bytes =>
      obtain ⟨reply, after⟩ := image_of_settles inRange rfl rfl settles
      exact .inl ⟨reply, after⟩
    | error e =>
      refine .inr ⟨fun always => ?_, ?_, image_eq_of_content settles⟩
      · obtain ⟨bytes, h⟩ := sound always
        cases h
      · cases r <;> rfl

/-- What a program ensures holds of its run on a cache. -/
theorem run_of_ensures {p : SectorProgram α} {Q : α → Image → Prop} (ready : c.Ready)
    (may : c.MayFail → mayFail) (ensures : p.Ensures m mayFail c.image Q) :
    ∃ a c', p.run c = .ok (a, c') ∧ c'.Ready ∧ c'.device.fails = c.device.fails ∧
      Q a c'.image := by
  induction p generalizing c with
  | done a => exact ⟨a, c, rfl, ready, rfl, ensures⟩
  | halt v => exact ensures.elim
  | ask r next ih =>
    obtain ⟨inRange, works, breaks⟩ := ensures
    obtain ⟨reply, c₁, served, ready₁, fails₁, served_as⟩ := serve_spec ready inRange
    have may₁ (h : c₁.MayFail) : mayFail := may (by rwa [MayFail, ← fails₁])
    have goes : ((next reply).Ensures m mayFail c₁.image Q) := by
      rcases served_as with ⟨rfl, image⟩ | ⟨fails, rfl, image⟩
      · rwa [image]
      · rw [image]
        exact breaks (may fails)
    obtain ⟨a, c', ran, ready', fails', holds⟩ := ih reply ready₁ may₁ goes
    refine ⟨a, c', ?_, ready', fails'.trans fails₁, holds⟩
    rw [SectorProgram.run, served]
    exact ran

theorem ready_new {device : Device m 512} {config : CacheSetup}
    {c : Cache config.slots m 512} (made : Cache.new device config = .ok c) :
    c.Ready ∧ c.device = device ∧ c.image = device.image := by
  obtain ⟨resting, device_eq, locks, content⟩ := resting_new made
  refine ⟨⟨resting, fun i => by rw [locks]; decide⟩, device_eq, ?_⟩
  funext i
  simp only [image, Device.image, content]

end Cache

end SectorFs
