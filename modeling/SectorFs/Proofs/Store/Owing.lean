/-
# SectorFs.Proofs.Store.Owing — programs on caches that owe sectors

Two contracts of a cache. Under `Contract.lastWrite` a program knows which sector it wrote last: a
cache has to store that sector still (`Cache.owes_of_run`). Under `Contract.refusing held` every
request gets no reply, and must be about a sector that is not `held`: so it is on a cache that is
jammed with those sectors (`Cache.refuses_run`).
-/
import SectorFs.Proofs.Cache.Owing
import SectorFs.Proofs.Store.Contract

namespace SectorFs

set_option autoImplicit false

variable {k m : Nat} {α : Type}

/-- The state is the sector of the last request, if that was a write and worked. -/
def Contract.lastWrite : Contract (Option Sector) where
  ask _ r K :=
    match r, K with
    | .write t _ _, K => K (some ()) (some t) ∧ K none none
    | _, K => ∀ reply, K reply none
  mayHalt := True
  mono {_ r _ _} holds weaker := by
    cases r with
    | write => exact ⟨weaker _ _ holds.1, weaker _ _ holds.2⟩
    | read | prefetch | flush => exact fun reply => weaker _ _ (holds reply)

/-- Sectors are read and written that are not among those held, and never is there a reply. -/
def Contract.refusing (held : Set Nat) : Contract Unit where
  ask _ r K :=
    match r, K with
    | .read t _ _, K | .write t _ _, K => t.index ∉ held ∧ K none ()
    | _, _ => False
  mayHalt := True
  mono {_ r _ _} holds weaker := by
    cases r with
    | read | write => exact ⟨holds.1, weaker _ _ holds.2⟩
    | prefetch | flush => exact holds.elim

theorem SectorProgram.under_lastWrite {p : SectorProgram α} {last : Option Sector}
    {Q : α → Option Sector → Prop} (all : ∀ a last, Q a last) : p.Under .lastWrite last Q := by
  induction p generalizing last with
  | done a => exact all a last
  | halt v => trivial
  | ask r next ih =>
    cases r with
    | write => exact ⟨ih _, ih _⟩
    | read | prefetch | flush => exact fun reply => ih _

namespace Action

variable {σ : Type} {memory : σ}

theorem under_lastWrite (x : Action σ α) {last : Option Sector}
    {Q : Except Failure α → σ → Option Sector → Prop} (all : ∀ r memory last, Q r memory last) :
    x.Under .lastWrite memory last Q :=
  SectorProgram.under_lastWrite fun _ _ => all _ _ _

theorem under_writeInode_lastWrite {Q : Except Failure Unit → σ → Option Sector → Prop}
    {last : Option Sector} (t : Sector) (d : Inode) :
    (writeInode t d : Action σ Unit).Under .lastWrite memory last Q ↔
      Q (.ok ()) memory (some t) ∧ Q (.error .io) memory none :=
  under_request

theorem under_writeSector_refusing {Q : Except Failure Unit → σ → Unit → Prop} {held : Set Nat}
    (t : Sector) (x : Block 512) : (writeSector t x : Action σ Unit).Under (.refusing held) memory ()
      Q ↔ t.index ∉ held ∧ Q (.error .io) memory () :=
  under_request

theorem under_writeInode_refusing {Q : Except Failure Unit → σ → Unit → Prop} {held : Set Nat}
    (t : Sector) (d : Inode) : (writeInode t d : Action σ Unit).Under (.refusing held) memory () Q ↔
      t.index ∉ held ∧ Q (.error .io) memory () :=
  under_request

end Action

namespace Cache

variable {c c' : Cache k m 512} {r : Request} {reply : Option r.Reply}

/-- No lock is held between two calls. -/
theorem Ready.unlocked (ready : c.Ready) (i : Fin k) : c.lockAt i = .free := by
  have idle := ready.resting.idle i
  have inside := ready.inside i
  generalize c.lockAt i = lock at idle inside
  cases lock with
  | free => rfl
  | outside => exact absurd rfl inside
  | busy => exact absurd rfl idle

/-- A request that is served is a call that answered. -/
theorem Ready.of_serve (ready : c.Ready) (served : SectorStore.serve c r = .ok (reply, c')) :
    c'.Ready ∧ ∃ answer, c.call (operationOf r) = .ok (answer, c') ∧ reply = replyOf answer r := by
  change (c.call (operationOf r) >>= _) = _ at served
  cases called : c.call (operationOf r) with
  | error v =>
    rw [called] at served
    cases served
  | ok after =>
    obtain ⟨answer, c₁⟩ := after
    rw [called] at served
    cases served
    obtain ⟨t, start, -⟩ := run_of_call called
    obtain ⟨answer', c₂, called', resting, inside, -⟩ :=
      call_returns ready.resting ready.inside start
    cases called.symm.trans called'
    exact ⟨⟨resting, inside⟩, answer, rfl, rfl⟩

/-- All but what the only slot has to store is on the device. -/
theorem image_of_owes (resting : c.Resting) (one : k = 1) {b : Fin m} (owes : c.Owes b) {t : Nat}
    (other : t ≠ b.val) : c.device.image t = c.image t := by
  rw [Device.image, image]
  split
  · have absent : (⟨t, ‹_›⟩ : Fin m) ∉ ({b} : Set (Fin m)) := fun same =>
      other (congrArg Fin.val (Set.mem_singleton_iff.1 same))
    exact (content_of_unnamed resting.coherent (unnamed_of_owes resting
      (fun s => ⟨b, Set.mem_singleton b, unsaved_of_owes one owes s⟩) absent)).symm
  · rfl

/-- The cache has to store the sector of the last write. -/
structure OwesLast (c : Cache k m 512) (last : Option Sector) : Prop where
  ready : c.Ready
  owes {t : Sector} : last = some t → ∃ b : Fin m, b.val = t.index ∧ c.Owes b

theorem owes_of_write {t : Sector} {off : Nat} {data : List UInt8} (ready : c.Ready)
    (served : SectorStore.serve c (.write t off data) = .ok (some (), c')) :
    ∃ b : Fin m, b.val = t.index ∧ c'.Owes b := by
  obtain ⟨-, answer, called, reply⟩ := ready.of_serve served
  cases answer with
  | error e => cases reply
  | ok bytes =>
    obtain ⟨_, start, ran⟩ := run_of_call called
    obtain ⟨b, block, rfl⟩ := Operation.start_write start
    have started := (ready.resting.shared (.ok []) (.ok [])).start start
    have owes := Task.owes_of_run (steps k) started rfl rfl (congrArg Prod.fst ran)
    rw [ran] at owes
    exact ⟨b, block, owes⟩

/-- A program leaves the sector that it wrote last to be stored. -/
theorem owesLast_run {p : SectorProgram α} {last : Option Sector} {a : α}
    {Q : α → Option Sector → Prop} (owes : c.OwesLast last) (under : p.Under .lastWrite last Q)
    (ran : p.run c = .ok (a, c')) : ∃ last', c'.OwesLast last' ∧ Q a last' := by
  refine under.run_of (R := OwesLast) (fun {c c' last r reply K} owes asked served => ?_) owes ran
  have ready := (owes.ready.of_serve served).1
  cases r with
  | write t off data =>
    cases reply with
    | none => exact ⟨none, ⟨ready, nofun⟩, asked.2⟩
    | some =>
      refine ⟨some t, ⟨ready, ?_⟩, asked.1⟩
      rintro _ ⟨⟩
      exact owes_of_write owes.ready served
  | read | prefetch | flush => exact ⟨none, ⟨ready, nofun⟩, asked reply⟩

/-- The cache is jammed with these sectors, and shows `image`. -/
structure Refusing (c : Cache k m 512) (held : Set Nat) (image : Image) : Prop where
  ready : c.Ready
  jammed : c.Jammed fun b => b.val ∈ held
  shows : c.image = image

theorem Refusing.of_serve {held : Set Nat} {image : Image} {a : Access m}
    (refusing : c.Refusing held image) (absent : a.block.val ∉ held)
    (start : (operationOf r).start 512 = .ok (.seek a : Task k m))
    (served : SectorStore.serve c r = .ok (reply, c')) :
    reply = none ∧ c'.Refusing held image := by
  obtain ⟨ready, answer, called, rfl⟩ := refusing.ready.of_serve served
  have resting := refusing.ready.resting
  obtain ⟨answer', c₁, called', -, -, -, settles, -⟩ :=
    call_returns resting refusing.ready.inside start
  cases called.symm.trans called'
  obtain ⟨⟨e, rfl⟩, jammed⟩ := refusing.jammed.refuses resting
    refusing.ready.unlocked absent start called
  refine ⟨?_, ready, jammed, (image_eq_of_content settles).trans refusing.shows⟩
  cases r <;> rfl

/-- Nothing that a program asks of it works, and nothing changes. -/
theorem refusing_run {p : SectorProgram α} {a : α} {held : Set Nat} {image : Image}
    {Q : α → Unit → Prop} (refusing : c.Refusing held image) (under : p.Under (.refusing held) () Q)
    (ran : p.run c = .ok (a, c')) : c'.Refusing held image ∧ Q a () := by
  suffices ends : ∃ s' : Unit, c'.Refusing held image ∧ Q a s' from ends.elim fun _ => id
  refine under.run_of (R := fun c _ => c.Refusing held image)
    (fun {c c' _ r reply K} refusing asked served => ?_) refusing ran
  obtain ⟨-, _, called, -⟩ := refusing.ready.of_serve served
  obtain ⟨t, start, -⟩ := run_of_call called
  have absent {a : Access m} (start : (operationOf r).start 512 = .ok (.seek a : Task k m))
      (absent : a.block.val ∉ held) (onward : K none ()) : ∃ s', c'.Refusing held image ∧ K reply s' := by
    obtain ⟨rfl, refusing'⟩ := refusing.of_serve absent start served
    exact ⟨(), refusing', onward⟩
  cases r with
  | read t off len =>
    obtain ⟨b, block, rfl⟩ := Operation.start_read start
    exact absent start (fun mem => asked.1 (block ▸ mem)) asked.2
  | write t off data =>
    obtain ⟨b, block, rfl⟩ := Operation.start_write start
    exact absent start (fun mem => asked.1 (block ▸ mem)) asked.2
  | prefetch | flush => exact asked.elim

end Cache

end SectorFs
