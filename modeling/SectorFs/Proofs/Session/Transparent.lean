/-
# SectorFs.Proofs.Session.Transparent — nobody sees the cache

A `transcript` is what can be seen of a run of a file system on a store: what
every operation answers, the free sectors and the open inodes after it, and what
is stored once the file system was made, synced or shut down. A broken condition
is seen, too, and ends the run.

On a device that does not fail the transcript is that of a plain array of
sectors, whatever the device had before, whatever is asked for and however the
cache is set up (`transcript_eq`). So nobody can tell two settings of the cache
from each other.
-/
import SectorFs.Proofs.Store.Paired
import SectorFs.Proofs.Session.Contents

namespace SectorFs

set_option autoImplicit false

variable {m : Nat} {α : Type}

/-- How a file system comes into use. -/
inductive Start where
  | format
  | mount

namespace Start

variable {τ : Type} [SectorStore τ]

def run (store : Except Violation τ) :
    Start → Except Violation (Except Failure Unit × Option (FileSystem τ m))
  | .format => FileSystem.format store
  | .mount => FileSystem.mount store

/-- What is done to start a file system. -/
def action : Start → VolumeAction m Unit
  | .format => Volume.format
  | .mount => Volume.mount

/-- How a disk that is too small is refused. -/
def refusal : Start → Failure
  | .format => .noSpace
  | .mount => .notFormatted

theorem run_eq (start : Start) (store : Except Violation τ) :
    start.run store = FileSystem.start (m := m) start.refusal start.action store := by
  cases start <;> rfl

/-- Whether everything is stored once the file system is in use. -/
def stores : Start → Bool
  | .format => true
  | .mount => false

end Start

/-- Whether everything is stored once the operation is done. -/
def FileOp.stores : FileOp → Bool
  | .sync | .remount _ => true
  | _ => false

/-- What can be seen of an operation, and after it. -/
structure Report (m : Nat) where
  answer : FileAnswer
  /-- The number of free sectors. -/
  free : Nat
  /-- The number of open inodes. -/
  inodes : Nat
  /-- What is on the disk, if everything was stored. -/
  stored : Option (Vector (Block 512) m)

/-- What can be seen of a run. The last report is of a broken condition, if one was broken. -/
structure Transcript (m : Nat) where
  started : Except Violation (Except Failure Unit)
  reports : List (Except Violation (Report m))

namespace FileSystem

section

variable {τ : Type} [SectorStore τ] (disk : τ → Vector (Block 512) m)

def report (fs : FileSystem τ m) (answer : FileAnswer) (stores : Bool) : Report m where
  answer
  free := fs.volume.free.countFree
  inodes := fs.volume.inodes.length
  stored := match stores, answer with
    | true, .done => some (disk fs.store)
    | _, _ => none

/-- What is seen of operations, as long as none breaks a condition. -/
def reports (fs : FileSystem τ m) (handles : List (Option Handle)) :
    List FileOp → List (Except Violation (Report m))
  | [] => []
  | op :: ops =>
      match (Memory.step ⟨fs.volume, handles⟩ op).run fs.store with
      | .error v => [.error v]
      | .ok ((answer, d), store) =>
          .ok (report disk ⟨d.volume, store⟩ answer op.stores) ::
            reports ⟨d.volume, store⟩ d.handles ops

/-- What is seen of a run. -/
def transcript (start : Start) (store : Except Violation τ) (ops : List FileOp) : Transcript m :=
  match start.run store with
  | .error v => ⟨.error v, []⟩
  | .ok (.ok (), some fs) =>
      ⟨.ok (.ok ()), .ok (fs.report disk .done start.stores) :: fs.reports disk [] ops⟩
  | .ok (r, _) => ⟨.ok r, []⟩

end

/-! ## One operation after another -/

section

variable {τ : Type} [SectorStore τ]

theorem perform_bind {β : Type} (fs : FileSystem τ m) (x : VolumeAction m α)
    (f : α → VolumeAction m β) :
    fs.perform (x >>= f) = fs.perform x >>= fun after =>
      match after.1 with
      | .ok a => after.2.perform (f a)
      | .error e => .ok (.error e, after.2) := by
  simp only [perform, Action.run, Action.program_bind, SectorProgram.run_bind]
  cases (x.program fs.volume).run fs.store with
  | error v => rfl
  | ok after =>
    obtain ⟨⟨r, volume⟩, store⟩ := after
    cases r <;> rfl

/-- An action that went well was carried out up to its last part, and then that. -/
theorem exists_perform {β : Type} {fs fs' : FileSystem τ m} {x : VolumeAction m α}
    {f : α → VolumeAction m β} {b : β} (performed : fs.perform (x >>= f) = .ok (.ok b, fs')) :
    ∃ a fs₁, fs.perform x = .ok (.ok a, fs₁) ∧ fs₁.perform (f a) = .ok (.ok b, fs') := by
  rw [perform_bind] at performed
  cases first : fs.perform x with
  | error v =>
    rw [first] at performed
    cases performed
  | ok after =>
    obtain ⟨r, fs₁⟩ := after
    rw [first] at performed
    cases r with
    | error e => cases performed
    | ok a => exact ⟨a, fs₁, rfl, performed⟩

end

/-! ## The same on both stores -/

variable {k : Nat}

/-- The same volume is in use on a cache and on the plain array that the cache shows. -/
structure Shows (fs : FileSystem (Cache k m 512) m) (fs' : FileSystem (PlainStore m) m) :
    Prop where
  volume : fs.volume = fs'.volume
  store : PlainStore.Shows fs.store fs'.store

theorem perform_shows {fs : FileSystem (Cache k m 512) m} {fs' : FileSystem (PlainStore m) m}
    (shows : Shows fs fs') (x : VolumeAction m α) :
    Paired Shows (fs.perform x) (fs'.perform x) := by
  rw [perform, perform, Action.run, Action.run, shows.volume]
  refine ((x.program fs'.volume).run_paired (fun _ _ => PlainStore.serve_shows) shows.store).bind
    fun after c p store => ?_
  have shows' : Shows ⟨after.2, c⟩ ⟨after.2, p⟩ := ⟨rfl, store⟩
  exact .ok after.1 shows'

/-- Once everything is stored the device has what the plain array has. -/
theorem Shows.stored {fs : FileSystem (Cache k m 512) m} {fs' : FileSystem (PlainStore m) m}
    (shows : Shows fs fs')
    (stored : ∀ b, fs.store.device.blocks.get b = fs.store.content b) :
    fs.store.device.blocks = fs'.store.sectors := by
  refine Vector.ext fun i inside => ?_
  have same := congrFun shows.store.image i
  rw [Cache.image, PlainStore.image, dif_pos inside, dif_pos inside] at same
  exact (stored ⟨i, inside⟩).trans same

theorem stored_of_sync {fs fs' : FileSystem (Cache k m 512) m} (ready : fs'.store.Ready)
    (synced : fs.perform Volume.sync = .ok (.ok (), fs')) (b : Fin m) :
    fs'.store.device.blocks.get b = fs'.store.content b :=
  stored_of_flush ready (Volume.sync_eq ▸ synced) b

/-- A file system was made by a sync at the end. -/
theorem stored_of_format {fs fs' : FileSystem (Cache k m 512) m} (ready : fs'.store.Ready)
    (formatted : fs.perform Volume.format = .ok (.ok (), fs')) (b : Fin m) :
    fs'.store.device.blocks.get b = fs'.store.content b := by
  obtain ⟨-, fs₁, -, reserved⟩ := exists_perform formatted
  obtain ⟨-, fs₂, -, root⟩ := exists_perform reserved
  obtain ⟨-, fs₃, -, made⟩ := exists_perform root
  obtain ⟨-, fs₄, -, synced⟩ := exists_perform made
  exact stored_of_sync ready synced b

/-- What can be seen agrees once what is stored does. -/
theorem Shows.report {fs : FileSystem (Cache k m 512) m} {fs' : FileSystem (PlainStore m) m}
    (shows : Shows fs fs') (answer : FileAnswer) (stores : Bool)
    (stored : stores = true → answer = .done →
      ∀ b, fs.store.device.blocks.get b = fs.store.content b) :
    fs.report (fun c => c.device.blocks) answer stores =
      fs'.report PlainStore.sectors answer stores := by
  unfold FileSystem.report
  rw [shows.volume]
  congr 1
  split
  case h_1 => exact congrArg some (shows.stored (stored rfl rfl))
  case h_2 => rfl

end FileSystem

/-- An operation after which everything is stored is a sync. -/
theorem Memory.synced_of_step {τ : Type} [SectorStore τ] {d d' : Memory m} {store store' : τ}
    {op : FileOp} (stores : op.stores = true)
    (stepped : (d.step op).run store = .ok ((.done, d'), store')) :
    FileSystem.perform ⟨d.volume, store⟩ Volume.sync = .ok (.ok (), ⟨d'.volume, store'⟩) := by
  have sync : d.step op = d.tell (Volume.sync >>= fun _ => pure .done) := by
    cases op <;> first | rfl | cases stores
  rw [sync, run_tell] at stepped
  cases performed : FileSystem.perform ⟨d.volume, store⟩
      (Volume.sync >>= fun _ => pure FileAnswer.done) with
  | error v =>
    rw [performed] at stepped
    cases stepped
  | ok after =>
    obtain ⟨r, fs⟩ := after
    rw [performed] at stepped
    cases r with
    | error e => cases stepped
    | ok answer =>
      cases stepped
      obtain ⟨u, fs₁, synced, ended⟩ := FileSystem.exists_perform performed
      cases ended
      exact synced

theorem Memory.stored_of_step {k : Nat} {d d' : Memory m} {c c' : Cache k m 512} {op : FileOp}
    (ready : c'.Ready) (stores : op.stores = true)
    (stepped : (d.step op).run c = .ok ((.done, d'), c')) (b : Fin m) :
    c'.device.blocks.get b = c'.content b :=
  FileSystem.stored_of_sync ready (synced_of_step stores stepped) b

namespace FileSystem

variable {k : Nat}

/-- What is seen of operations on a cache is what is seen of them on the plain array. -/
theorem Shows.reports {fs : FileSystem (Cache k m 512) m} {fs' : FileSystem (PlainStore m) m}
    (shows : Shows fs fs') (handles : List (Option Handle)) (ops : List FileOp) :
    fs.reports (fun c => c.device.blocks) handles ops =
      fs'.reports PlainStore.sectors handles ops := by
  induction ops generalizing fs fs' handles with
  | nil => rfl
  | cons op ops ih =>
    have paired := (Memory.step ⟨fs'.volume, handles⟩ op).run_paired
      (fun _ _ => PlainStore.serve_shows) shows.store
    rw [FileSystem.reports, FileSystem.reports, shows.volume]
    rcases paired.split with ⟨v, ran, ran'⟩ | ⟨⟨answer, d⟩, c, p, ran, ran', store⟩
    · rw [ran, ran']
    · have shows' : Shows ⟨d.volume, c⟩ ⟨d.volume, p⟩ := ⟨rfl, store⟩
      rw [ran, ran']
      refine congrArg₂ List.cons (congrArg Except.ok ?_) (ih shows' d.handles)
      refine shows'.report answer op.stores fun stores done => ?_
      subst done
      exact Memory.stored_of_step store.ready stores ran

/-- A start on a new cache and on the plain array that the device is. -/
theorem start_shows (refusal : Failure) (x : VolumeAction m Unit) {config : CacheSetup}
    {device : Device m 512} (slots : 0 < config.slots)
    (reliable : ∀ number kind b, device.fails number kind b = false) :
    (∃ v, start refusal x (Cache.new device config) = .error v ∧
      start refusal x (.ok (⟨device.blocks, []⟩ : PlainStore m)) = .error v) ∨
    (∃ r, start refusal x (Cache.new device config) = .ok (r, none) ∧
      start refusal x (.ok (⟨device.blocks, []⟩ : PlainStore m)) = .ok (r, none)) ∨
    ∃ (r : Except Failure Unit) (fs₀ fs : FileSystem (Cache config.slots m 512) m)
      (fs' : FileSystem (PlainStore m) m),
      start refusal x (Cache.new device config) = .ok (r, some fs) ∧
      start refusal x (.ok (⟨device.blocks, []⟩ : PlainStore m)) = .ok (r, some fs') ∧
      fs₀.perform x = .ok (r, fs) ∧ Shows fs fs' := by
  obtain ⟨c, made⟩ : ∃ c, Cache.new device config = .ok c := ⟨_, dif_pos slots⟩
  obtain ⟨ready, on_device, image⟩ := Cache.ready_new made
  rw [made]
  by_cases small : m ≤ Sector.root.index
  · refine .inr (.inl ⟨.error refusal, ?_, ?_⟩) <;>
    · rw [start, if_pos small]
      rfl
  · have shows : Shows ⟨.empty m, c⟩ ⟨.empty m, ⟨device.blocks, []⟩⟩ :=
      ⟨rfl, ready, on_device ▸ reliable, rfl, image⟩
    rw [start_eq refusal x c small, start_eq refusal x _ small]
    rcases (perform_shows shows x).split with ⟨v, ran, ran'⟩ | ⟨r, fs, fs', ran, ran', after⟩
    · refine .inl ⟨v, ?_, ?_⟩
      · rw [ran]
        rfl
      · rw [ran']
        rfl
    · refine .inr (.inr ⟨r, _, fs, fs', ?_, ?_, ran, after⟩)
      · rw [ran]
        rfl
      · rw [ran']
        rfl

/-- The transcript of a cache is the one of the plain array that its device is. -/
theorem transcript_cache (begin : Start) {config : CacheSetup} {device : Device m 512}
    (slots : 0 < config.slots) (reliable : ∀ number kind b, device.fails number kind b = false)
    (ops : List FileOp) :
    transcript (fun c => c.device.blocks) begin (Cache.new device config) ops =
      transcript PlainStore.sectors begin (.ok ⟨device.blocks, []⟩) ops := by
  rw [transcript, transcript, begin.run_eq, begin.run_eq]
  rcases start_shows begin.refusal begin.action slots reliable with
    ⟨v, ran, ran'⟩ | ⟨r, ran, ran'⟩ | ⟨r, fs₀, fs, fs', ran, ran', performed, shows⟩
  · rw [ran, ran']
  · rw [ran, ran']
    cases r <;> rfl
  · rw [ran, ran']
    cases r with
    | error e => rfl
    | ok u =>
      refine congrArg (Transcript.mk _) (congrArg₂ List.cons (congrArg Except.ok ?_) ?_)
      · refine shows.report .done begin.stores fun stores _ => ?_
        cases begin with
        | format => exact stored_of_format shows.store.ready performed
        | mount => cases stores
      · exact shows.reports [] ops

/-- **A cache on a device that does not fail is invisible.** With any two settings the same is seen
of a run, namely what is seen of it on a plain array of sectors. -/
theorem transcript_eq (begin : Start) (device : Device m 512) (config config' : CacheSetup)
    (slots : 0 < config.slots) (slots' : 0 < config'.slots)
    (reliable : ∀ number kind b, device.fails number kind b = false) (ops : List FileOp) :
    transcript (fun c => c.device.blocks) begin (Cache.new device config) ops =
        transcript (fun c => c.device.blocks) begin (Cache.new device config') ops ∧
      transcript (fun c => c.device.blocks) begin (Cache.new device config) ops =
        transcript PlainStore.sectors begin (.ok ⟨device.blocks, []⟩) ops := by
  have plain := transcript_cache begin slots reliable ops
  exact ⟨plain.trans (transcript_cache begin slots' reliable ops).symm, plain⟩

/-- One slot against three on a disk that is made, written, read and stored. -/
theorem transcript_eq_eleven :
    (transcript (fun c => c.device.blocks) .format
      (Cache.new (Device.filled 11 512 7) { slots := 1, policy := .clock })
      [.root, .write 0 600 [1, 2], .read 0 0 602, .sync]).started = .ok (.ok ()) ∧
    transcript (fun c => c.device.blocks) .format
        (Cache.new (Device.filled 11 512 7) { slots := 1, policy := .clock })
        [.root, .write 0 600 [1, 2], .read 0 0 602, .sync] =
      transcript (fun c => c.device.blocks) .format
        (Cache.new (Device.filled 11 512 7) { slots := 3, seed := 8 })
        [.root, .write 0 600 [1, 2], .read 0 0 602, .sync] := by
  have reliable : ∀ number kind b, (Device.filled 11 512 7).fails number kind b = false :=
    fun _ _ _ => rfl
  refine ⟨?_, (transcript_eq .format _ _ _ (by decide) (by decide) reliable _).1⟩
  obtain ⟨fs, formatted, -⟩ := Session.exists_format _ { slots := 1, policy := .clock } (by decide)
    (by decide) (by decide) reliable
  rw [transcript, Start.run, formatted]

end FileSystem

end SectorFs
