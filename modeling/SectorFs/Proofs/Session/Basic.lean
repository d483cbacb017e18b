/-
# SectorFs.Proofs.Session.Basic — runs of a file system

Between two operations a file system in use has its store and what is in memory:
the volume, and the handles of its clients. `Memory.step` is one operation as a
program that asks for sectors, so it runs on every store.

A `Session` is a file system in use on a cache. `Session.step` runs an operation
on it: what is answered, and the session after it. A `remount` shuts the file
system down and takes it up again from the device, on a cache with other
settings; the handles are gone then.
-/
import SectorFs.Proofs.Cache.Flush
import SectorFs.Proofs.Volume.System

namespace SectorFs

set_option autoImplicit false

/-- An operation on a file system in use. A handle is meant by its number. -/
inductive FileOp where
  | create (length : Nat) (isDirectory : Bool) (parent : Sector)
  | open (s : Sector)
  | root
  | reopen (handle : Nat)
  | read (handle off len : Nat)
  | write (handle off : Nat) (data : List UInt8)
  | remove (handle : Nat)
  | deny (handle : Nat)
  | allow (handle : Nat)
  | close (handle : Nat)
  | drop (handle : Nat)
  | sync
  | remount (config : CacheSetup)

inductive FileAnswer where
  | done
  | made (s : Sector)
  | bytes (data : List UInt8)
  | written (count : Nat)
  | failed (e : Failure)
  | noHandle

/-- The answer that a result is. -/
def FileAnswer.of : Except Failure FileAnswer → FileAnswer
  | .ok answer => answer
  | .error e => .failed e

/-- What a file system and its clients keep in memory between two operations: the volume, and the
handles in the order in which they were made. A handle that was closed is none. -/
structure Memory (m : Nat) where
  volume : Volume m
  handles : List (Option Handle) := []

variable {m : Nat} {mayFail : Prop}

namespace Memory

/-- What is answered, and kept, when an operation gives a handle. -/
def kept (handles : List (Option Handle)) (put : Handle → List (Option Handle)) :
    Except Failure Handle → FileAnswer × List (Option Handle)
  | .ok h => (.done, put h)
  | .error e => (.failed e, handles)

variable (d : Memory m)

/-- The handle of a number. -/
def handle (i : Nat) : Option Handle := d.handles[i]?.join

/-- Carries out an operation that answers. -/
def tell (x : VolumeAction m FileAnswer) : SectorProgram (FileAnswer × Memory m) :=
  x.program d.volume >>= fun after => .done (.of after.1, { d with volume := after.2 })

/-- Carries out an operation that gives a handle, which is kept where `put` says. -/
def keep (x : VolumeAction m Handle) (put : Handle → List (Option Handle)) :
    SectorProgram (FileAnswer × Memory m) :=
  x.program d.volume >>= fun after =>
    .done ((kept d.handles put after.1).1, ⟨after.2, (kept d.handles put after.1).2⟩)

/-- Carries out an operation on a handle. -/
def withHandle (i : Nat) (f : Handle → SectorProgram (FileAnswer × Memory m)) :
    SectorProgram (FileAnswer × Memory m) :=
  match d.handle i with
  | some h => f h
  | none => .done (.noHandle, d)

/-- What is left when a handle is gone. -/
def forget (i : Nat) : Memory m := { d with handles := d.handles.set i none }

/-- Carries out an operation. Of a `remount` this is only that the file system is shut down: a
program cannot change the store that it runs on. -/
def step : FileOp → SectorProgram (FileAnswer × Memory m)
  | .create length isDirectory parent => d.tell (.made <$> Volume.create length isDirectory parent)
  | .open t => d.keep (Volume.openAt t) fun h => d.handles ++ [some h]
  | .root => d.keep (Volume.openAt Sector.root) fun h => d.handles ++ [some h]
  | .reopen i => d.withHandle i fun old =>
      d.keep (Volume.openAt old.sector) fun h => d.handles ++ [some h]
  | .read i off len => d.withHandle i fun h => d.tell (.bytes <$> Volume.readBytes h off len)
  | .write i off data => d.withHandle i fun h => d.tell (.written <$> Volume.writeBytes h off data)
  | .remove i => d.withHandle i fun h => d.tell do Volume.remove h; return .done
  | .deny i => d.withHandle i fun h => d.keep (Volume.deny h) fun h => d.handles.set i (some h)
  | .allow i => d.withHandle i fun h => d.keep (Volume.allow h) fun h => d.handles.set i (some h)
  | .close i => d.withHandle i fun h => (d.forget i).tell do Volume.close h; return .done
  | .drop i => d.withHandle i fun h => (d.forget i).tell do Volume.drop h; return .done
  | .sync | .remount _ => d.tell do Volume.sync; return .done

variable {d}

theorem withHandle_eq {i : Nat} {h : Handle} (found : d.handle i = some h)
    (f : Handle → SectorProgram (FileAnswer × Memory m)) : d.withHandle i f = f h := by
  rw [withHandle, found]

theorem withHandle_eq_done {i : Nat} (missing : d.handle i = none)
    (f : Handle → SectorProgram (FileAnswer × Memory m)) :
    d.withHandle i f = .done (.noHandle, d) := by
  rw [withHandle, missing]

/-- On a store, an operation that answers is carried out on its file system. -/
theorem run_tell {τ : Type} [SectorStore τ] (x : VolumeAction m FileAnswer) (store : τ) :
    (d.tell x).run store =
      (fun after => ((.of after.1, { d with volume := after.2.volume }), after.2.store)) <$>
        FileSystem.perform ⟨d.volume, store⟩ x := by
  rw [FileSystem.perform, Action.run, tell, SectorProgram.run_bind]
  cases (x.program d.volume).run store <;> rfl

theorem run_keep {τ : Type} [SectorStore τ] (x : VolumeAction m Handle)
    (put : Handle → List (Option Handle)) (store : τ) :
    (d.keep x put).run store =
      (fun after => (((kept d.handles put after.1).1,
        ⟨after.2.volume, (kept d.handles put after.1).2⟩), after.2.store)) <$>
        FileSystem.perform ⟨d.volume, store⟩ x := by
  rw [FileSystem.perform, Action.run, keep, SectorProgram.run_bind]
  cases (x.program d.volume).run store <;> rfl

end Memory

/-- A file system in use on a cache, and its handles. -/
structure Session (m : Nat) where
  config : CacheSetup
  fs : FileSystem (Cache config.slots m 512) m
  handles : List (Option Handle)

namespace Session

def image (s : Session m) : Image := s.fs.store.image

def memory (s : Session m) : Memory m := ⟨s.fs.volume, s.handles⟩

@[simp] theorem memory_handles (s : Session m) : s.memory.handles = s.handles := rfl

def handle (s : Session m) (i : Nat) : Option Handle := s.memory.handle i

theorem handle_eq_join (s : Session m) (i : Nat) : s.handle i = s.handles[i]?.join := rfl

/-- The session without a handle. -/
def forget (s : Session m) (i : Nat) : Session m :=
  { s with handles := (s.memory.forget i).handles }

@[simp] theorem forget_handles (s : Session m) (i : Nat) :
    (s.forget i).handles = s.handles.set i none := rfl

/-- The session after a program that ran on its store. -/
def resume (s : Session m) (after : (FileAnswer × Memory m) × Cache s.config.slots m 512) :
    FileAnswer × Session m :=
  (after.1.1, { s with fs := ⟨after.1.2.volume, after.2⟩, handles := after.1.2.handles })

/-- Runs a program on the store. -/
def run (s : Session m) (p : SectorProgram (FileAnswer × Memory m)) :
    Except Violation (FileAnswer × Session m) :=
  s.resume <$> p.run s.fs.store

/-- Carries out an operation that answers. -/
def tell (s : Session m) (x : VolumeAction m FileAnswer) :
    Except Violation (FileAnswer × Session m) :=
  s.run (s.memory.tell x)

/-- Carries out an operation that gives a handle, which is kept where `put` says. -/
def keep (s : Session m) (x : VolumeAction m Handle) (put : Handle → List (Option Handle)) :
    Except Violation (FileAnswer × Session m) :=
  s.run (s.memory.keep x put)

/-- Shuts the file system down and mounts it on a cache with other settings. -/
def remount (s : Session m) (config : CacheSetup) :
    Except Violation (FileAnswer × Session m) := do
  let (result, fs) ← s.fs.perform Volume.sync
  match result with
  | .error e => return (.failed e, { s with fs })
  | .ok () =>
      match ← FileSystem.mount (Cache.new fs.store.device config) with
      | (.ok (), some fs) => return (.done, ⟨config, fs, []⟩)
      | (.ok (), none) => return (.done, { s with fs })
      | (.error e, _) => return (.failed e, { s with fs })

/-- Carries out an operation. -/
def step (s : Session m) : FileOp → Except Violation (FileAnswer × Session m)
  | .remount config => s.remount config
  | op => s.run (s.memory.step op)

variable {s : Session m}

theorem step_eq (op : FileOp) (stays : ∀ config, op ≠ .remount config) :
    s.step op = s.run (s.memory.step op) := by
  cases op with
  | remount config => exact absurd rfl (stays config)
  | _ => rfl

/-- An operation that comes back is a program that did. -/
theorem exists_run_of_step {op : FileOp} {answer : FileAnswer} {s' : Session m}
    (stays : ∀ config, op ≠ .remount config) (stepped : s.step op = .ok (answer, s')) :
    ∃ after, (s.memory.step op).run s.fs.store = .ok after ∧ s.resume after = (answer, s') := by
  rw [step_eq op stays, run] at stepped
  cases ran : (s.memory.step op).run s.fs.store with
  | error violation =>
    rw [ran] at stepped
    cases stepped
  | ok after =>
    rw [ran] at stepped
    exact ⟨after, rfl, Except.ok.inj stepped⟩

/-- An operation on a handle that there is. -/
theorem step_handle {op : FileOp} {i : Nat} {h : Handle}
    {f : Handle → SectorProgram (FileAnswer × Memory m)} (found : s.handle i = some h)
    (on_handle : s.step op = s.run (s.memory.withHandle i f)) : s.step op = s.run (f h) := by
  rw [on_handle, Memory.withHandle_eq found]

/-- An operation on a handle that there is not. -/
theorem step_noHandle {op : FileOp} {i : Nat} {f : Handle → SectorProgram (FileAnswer × Memory m)}
    (missing : s.handle i = none) (on_handle : s.step op = s.run (s.memory.withHandle i f)) :
    s.step op = .ok (.noHandle, s) := by
  rw [on_handle, Memory.withHandle_eq_done missing]
  rfl

theorem tell_eq (x : VolumeAction m FileAnswer) : s.tell x =
    (fun after => (FileAnswer.of after.1, { s with fs := after.2 })) <$> s.fs.perform x := by
  rw [tell, run, Memory.run_tell]
  change s.resume <$> _ <$> s.fs.perform x = _
  cases s.fs.perform x <;> rfl

theorem keep_eq (x : VolumeAction m Handle) (put : Handle → List (Option Handle)) : s.keep x put =
    (fun after => ((Memory.kept s.handles put after.1).1,
      { s with fs := after.2, handles := (Memory.kept s.handles put after.1).2 })) <$>
        s.fs.perform x := by
  rw [keep, run, Memory.run_keep]
  change s.resume <$> _ <$> s.fs.perform x = _
  cases s.fs.perform x <;> rfl

end Session

/-! ## Running on a cache -/

namespace FileSystem

variable {k : Nat} {α : Type}

/-- After an operation the file system is ready again, and its device fails where it did. -/
structure Leads (fs fs' : FileSystem (Cache k m 512) m) : Prop where
  ready : fs'.store.Ready
  fails : fs'.store.device.fails = fs.store.device.fails

theorem perform_spec {fs : FileSystem (Cache k m 512) m} {x : VolumeAction m α}
    {Q : Except Failure α → Volume m → Image → Prop} (ready : fs.store.Ready)
    (may : fs.store.MayFail → mayFail)
    (ensures : x.Ensures m mayFail fs.volume fs.store.image Q) :
    ∃ r fs', fs.perform x = .ok (r, fs') ∧ fs.Leads fs' ∧ Q r fs'.volume fs'.store.image := by
  obtain ⟨⟨r, volume⟩, store, ran, ready', fails, holds⟩ := Cache.run_of_ensures ready may ensures
  refine ⟨r, ⟨volume, store⟩, ?_, ⟨ready', fails⟩, holds⟩
  rw [perform, Action.run, ran]
  rfl

/-- An operation that ends with a flush, and ends well, leaves on the device what it shows. -/
theorem stored_of_flush {fs fs' : FileSystem (Cache k m 512) m} {x : VolumeAction m Unit}
    (ready : fs'.store.Ready)
    (performed : fs.perform (x >>= fun _ => Action.flush) = .ok (.ok (), fs')) (b : Fin m) :
    fs'.store.device.blocks.get b = fs'.store.content b := by
  rw [perform, Action.run, Action.program_bind, SectorProgram.run_bind] at performed
  cases ran : (x.program fs.volume).run fs.store with
  | error v =>
    rw [ran] at performed
    cases performed
  | ok after =>
    obtain ⟨⟨r, volume⟩, c⟩ := after
    rw [ran] at performed
    cases r with
    | error e => cases performed
    | ok u =>
      change (((Action.flush.program volume).run c) >>= _) = _ at performed
      rw [Action.flush, Action.program_request, SectorProgram.run] at performed
      change (((c.call .flush >>= _) >>= _) >>= _) = _ at performed
      cases called : c.call .flush with
      | error v =>
        rw [called] at performed
        cases performed
      | ok answered =>
        obtain ⟨answer, c'⟩ := answered
        rw [called] at performed
        cases answer with
        | error e => cases performed
        | ok bytes =>
          cases performed
          exact (Cache.flush_stores ready.resting called b).symm

/-- Then a new cache on the device shows the same sectors. -/
theorem image_of_flush {fs fs' : FileSystem (Cache k m 512) m} {x : VolumeAction m Unit}
    {device : Device m 512} (ready : fs'.store.Ready)
    (performed : fs.perform (x >>= fun _ => Action.flush) = .ok (.ok (), fs'))
    (same : device.blocks = fs'.store.device.blocks) :
    device.image = fs'.store.image := by
  rw [← Cache.image_of_stored (stored_of_flush ready performed)]
  unfold Device.image
  rw [same]

/-- What a start does on a store that there is. -/
theorem start_eq {τ : Type} [SectorStore τ] (refusal : Failure) (x : VolumeAction m Unit)
    (store : τ) (enough : ¬ m ≤ Sector.root.index) : start refusal x (.ok store) =
      (fun after => (after.1, some after.2)) <$> perform ⟨.empty m, store⟩ x := by
  rw [start, if_neg enough]
  change (perform ⟨.empty m, store⟩ x >>= _) = _
  cases perform ⟨.empty m, store⟩ x <;> rfl

theorem run_of_perform {τ : Type} [SectorStore τ] {fs fs' : FileSystem τ m} {x : VolumeAction m α}
    {r : Except Failure α} (performed : fs.perform x = .ok (r, fs')) :
    x.run fs.volume fs.store = .ok ((r, fs'.volume), fs'.store) := by
  rw [perform] at performed
  cases ran : x.run fs.volume fs.store with
  | error violation =>
    rw [ran] at performed
    cases performed
  | ok after =>
    rw [ran] at performed
    cases performed
    rfl

/-- A file system that was started is what an operation made of an empty volume. -/
theorem exists_run_of_start {τ : Type} [SectorStore τ] {refusal : Failure}
    {x : VolumeAction m Unit} {store : Except Violation τ} {r : Except Failure Unit}
    {fs : FileSystem τ m} (started : start refusal x store = .ok (r, some fs)) :
    ∃ first, x.run (.empty m) first = .ok ((r, fs.volume), fs.store) := by
  cases store with
  | error violation =>
    rw [start] at started
    split at started <;> cases started
  | ok first =>
    by_cases small : m ≤ Sector.root.index
    · rw [start, if_pos small] at started
      cases started
    · rw [start_eq refusal x first small] at started
      cases performed : perform ⟨.empty m, first⟩ x with
      | error violation =>
        rw [performed] at started
        cases started
      | ok after =>
        rw [performed] at started
        cases started
        exact ⟨first, run_of_perform performed⟩

/-- A file system that starts on a new cache. -/
theorem start_spec (refusal : Failure) {device : Device m 512} {config : CacheSetup}
    {x : VolumeAction m Unit} {Q : Except Failure Unit → Volume m → Image → Prop}
    (slots : 0 < config.slots) (two : 2 ≤ m)
    (may : ¬ (∀ number kind b, device.fails number kind b = false) → mayFail)
    (ensures : x.Ensures m mayFail (.empty m) device.image Q) :
    ∃ r fs, start refusal x (Cache.new device config) = .ok (r, some fs) ∧ fs.store.Ready ∧
      fs.store.device.fails = device.fails ∧ Q r fs.volume fs.store.image := by
  obtain ⟨c, made⟩ : ∃ c, Cache.new device config = .ok c := ⟨_, dif_pos slots⟩
  obtain ⟨ready, on_device, shows⟩ := Cache.ready_new made
  rw [← on_device] at may
  rw [← shows] at ensures
  obtain ⟨r, fs, performed, leads, holds⟩ := @perform_spec m mayFail config.slots Unit
    ⟨.empty m, c⟩ x Q ready may ensures
  refine ⟨r, fs, ?_, leads.ready, leads.fails.trans (congrArg Device.fails on_device), holds⟩
  have enough : ¬ m ≤ Sector.root.index := by
    change ¬ m ≤ 1
    omega
  rw [made, start_eq refusal x c enough, performed]
  rfl

/-- A file system between two operations, on a device that does not fail. -/
structure Up (fs : FileSystem (Cache k m 512) m) : Prop where
  ready : fs.store.Ready
  reliable : ∀ number kind b, fs.store.device.fails number kind b = false

theorem Up.never {fs : FileSystem (Cache k m 512) m} (up : fs.Up) (may : fs.store.MayFail) :
    False :=
  may up.reliable

theorem Up.leads {fs fs' : FileSystem (Cache k m 512) m} (up : fs.Up) (leads : fs.Leads fs') :
    fs'.Up where
  ready := leads.ready
  reliable := by
    rw [leads.fails]
    exact up.reliable

end FileSystem

namespace Session

variable {s : Session m}

theorem tell_spec {x : VolumeAction m FileAnswer} {P : FileAnswer → Session m → Prop}
    (ready : s.fs.store.Ready) (may : s.fs.store.MayFail → mayFail)
    (ensures : x.Ensures m mayFail s.fs.volume s.image fun r v image =>
      ∀ fs : FileSystem (Cache s.config.slots m 512) m, s.fs.Leads fs → fs.volume = v →
        fs.store.image = image → P (.of r) { s with fs }) :
    ∃ answer s', s.tell x = .ok (answer, s') ∧ P answer s' := by
  obtain ⟨r, fs, performed, leads, holds⟩ := FileSystem.perform_spec ready may ensures
  refine ⟨.of r, { s with fs }, ?_, holds fs leads rfl rfl⟩
  rw [tell_eq, performed]
  rfl

theorem keep_spec {x : VolumeAction m Handle} (put : Handle → List (Option Handle))
    {P : FileAnswer → Session m → Prop} (ready : s.fs.store.Ready)
    (may : s.fs.store.MayFail → mayFail)
    (ensures : x.Ensures m mayFail s.fs.volume s.image fun r v image =>
      ∀ fs : FileSystem (Cache s.config.slots m 512) m, s.fs.Leads fs → fs.volume = v →
        fs.store.image = image → P (Memory.kept s.handles put r).1
          { s with fs, handles := (Memory.kept s.handles put r).2 }) :
    ∃ answer s', s.keep x put = .ok (answer, s') ∧ P answer s' := by
  obtain ⟨r, fs, performed, leads, holds⟩ := FileSystem.perform_spec ready may ensures
  refine ⟨_, _, ?_, holds fs leads rfl rfl⟩
  rw [keep_eq, performed]
  rfl

end Session

end SectorFs
