/-
# SectorFs.Proofs.Session.Faults — a file system whose device fails

On a device that may fail at any call, `Expected.after` says what is live and open after an
operation, failed ones among them. What the files hold is not followed. An inode that is removed
goes with its last handle, unless its sector cannot be cleared: then it is still there, and can
be opened again.

An open inode can be ahead of the one that is stored. It is also followed which inodes may be:
those whose last write beyond the end failed, until they are closed (`Session.Strays`).

A session is settled if its volume is safe, what is live and open is as expected, and all inodes
but those that strayed are stored as they are in memory (`SettledExcept`). Every fair operation on
it returns, and it is settled after that (`SettledExcept.weathers_of_fair`); only a sync needs that
no handle denies writes to the free map's file, so that the map can be stored (`Storable`). Legal
operations see to that, too (`Storable.weathers_of_legal`).
-/
import SectorFs.Proofs.Volume.Faults
import SectorFs.Proofs.Session.Contents

namespace SectorFs

set_option autoImplicit false

variable {m : Nat} {image image' : Image} {v v' : Volume m} {e e' : Expected}
  {files rest : List LiveFile} {lost : List Nat} {f f' : LiveFile} {t : Sector} {h : Handle}
  {i : Nat} {op : FileOp} {strayed strayed' : Sector → Prop}

namespace Expected

/-- One handle less, where `image` shows the sectors after that. A removed inode goes with its last
handle if its sector could be cleared. -/
def released (e : Expected) (image : Image) (i : Nat) (h : Handle) : Expected :=
  if (e.openers h.sector = 1 ∧ e.isRemoved h.sector = true) ∧
    (Inode.decode (image h.sector.index)).isMarked = true then e.spared i h
  else e.closed i h

/-- Whether an inode goes with its last handle, the handle goes. -/
theorem released_handles (e : Expected) (image : Image) (i : Nat) (h : Handle) :
    (e.released image i h).handles = e.handles.set i none := by
  rw [released]
  split
  · rfl
  · rw [Expected.closed]
    split <;> rfl

/-- A handle that is not the last is closed as if nothing could fail. -/
theorem released_several (several : ¬ (e.openers h.sector = 1 ∧ e.isRemoved h.sector = true))
    (image : Image) : e.released image i h = e.closed i h :=
  if_neg fun both => several both.1

/-- The last handle of a removed inode was closed, and its sector cleared. -/
theorem released_cleared (cleared : (Inode.decode (image h.sector.index)).isMarked = false) :
    e.released image i h = e.closed i h := by
  refine if_neg fun both => ?_
  rw [cleared] at both
  exact Bool.false_ne_true both.2

/-- The last handle was closed, and the inode is still stored: it is spared if it was removed. -/
theorem released_stored (last : e.openers h.sector = 1)
    (stored : (Inode.decode (image h.sector.index)).isMarked = true) :
    e.released image i h = if e.isRemoved h.sector then e.spared i h else e.closed i h := by
  rw [released, last, stored]
  simp

/-- What is live and open after an operation that may have failed, where `image` shows the sectors
after it. -/
def after (e : Expected) (image : Image) (op : FileOp) (answer : FileAnswer) : Expected :=
  match op with
  | .write .. => e
  | .close i | .drop i => e.onHandle i fun h => e.released image i h
  | op => e.next op answer

/-- An inode that is removed is there until its last handle is closed. -/
theorem after_remove {file : ExpectedFile} (found : e.handle i = some h)
    (known : e.files h.sector = some file) (image : Image) : e.after image (.remove i) .done =
      e.withFile h.sector (some { file with removed := true }) := by
  refine (onHandle_eq found).trans ?_
  rw [known]
  rfl

/-- The operations that may come next, where a handle to the free map's file may deny writes. -/
def Fair (e : Expected) : FileOp → Prop
  | .deny i => ∃ h, e.handle i = some h
  | op => e.Legal op

theorem Legal.fair (legal : e.Legal op) : e.Fair op := by
  cases op with
  | deny i =>
    obtain ⟨h, found, -⟩ := legal
    exact ⟨h, found⟩
  | _ => exact legal

theorem Unguarded.released (free : e.Unguarded) (found : e.handle i = some h) (image : Image) :
    (e.released image i h).Unguarded := by
  rw [Expected.released]
  split
  · exact free.forget found
  · exact free.closed found

/-- After legal operations the free map can still be stored. -/
theorem Unguarded.after (free : e.Unguarded) (legal : e.Legal op) (image : Image)
    (answer : FileAnswer) : (e.after image op answer).Unguarded := by
  cases op with
  | read | write | sync => exact free
  | create | remount => cases answer <;> first | exact free | rfl
  | «open» t | root =>
    cases answer with
    | done => exact free.opened _
    | _ => exact free
  | reopen i =>
    obtain ⟨h, found⟩ := legal
    cases answer with
    | done =>
      change (e.onHandle i _).Unguarded
      rw [onHandle_eq found]
      exact free.opened h.sector
    | _ => exact free
  | remove i =>
    obtain ⟨h, found, -⟩ := legal
    cases answer with
    | done =>
      change (e.onHandle i _).Unguarded
      rw [onHandle_eq found]
      exact free
    | _ => exact free
  | deny i =>
    obtain ⟨h, found, other⟩ := legal
    cases answer with
    | done =>
      change (e.onHandle i _).Unguarded
      rw [onHandle_eq found]
      exact free.withHandle found fun here => absurd here other
    | _ => exact free
  | allow i =>
    obtain ⟨h, found⟩ := legal
    cases answer with
    | done =>
      change (e.onHandle i _).Unguarded
      rw [onHandle_eq found]
      exact free.withHandle found fun _ => rfl
    | _ => exact free
  | close i | drop i =>
    obtain ⟨h, found⟩ := legal
    rw [Expected.after, onHandle_eq found]
    exact free.released found image

end Expected

/-- What an operation does to the sectors that no file has: one that it cannot take holds what it
held. A file has no sector but those that it had and those that were taken. Where nothing is taken
this holds of every sector, otherwise of those that were in use. -/
structure Spares (takes : Prop) (files : List LiveFile) (lost : List Nat)
    (files' : List LiveFile) (image image' : Image) : Prop where
  image {i : Nat} : (takes → i ∈ lost) → (∀ f ∈ files, i ∉ f.owned) → image' i = image i
  owned {i : Nat} {f' : LiveFile} : (takes → i ∈ files.flatMap LiveFile.owned ++ lost) →
    f' ∈ files' → i ∈ f'.owned → ∃ f ∈ files, f.sector = f'.sector ∧ i ∈ f.owned

namespace Spares

variable {takes : Prop} {files' : List LiveFile}

theorem refl (takes : Prop) (files : List LiveFile) (lost : List Nat) (image : Image) :
    Spares takes files lost files image image where
  image _ _ := rfl
  owned _ mem own := ⟨_, mem, rfl, own⟩

theorem perm (same : files.Perm rest) (spares : Spares takes rest lost files' image image') :
    Spares takes files lost files' image image' where
  image taken none := spares.image taken fun f mem => none f (same.mem_iff.2 mem)
  owned taken mem own := by
    obtain ⟨f, mem, at_sector, own⟩ := spares.owned
      (fun takes => ((same.flatMap_right _).append_right _).mem_iff.1 (taken takes)) mem own
    exact ⟨f, same.mem_iff.2 mem, at_sector, own⟩

/-- Where nothing is taken this says most. -/
theorem of_idle (spares : Spares False files lost files' image image') :
    Spares takes files lost files' image image' where
  image _ := spares.image False.elim
  owned _ := spares.owned False.elim

theorem trans {mid : List LiveFile} {lost' : List Nat} {image₁ : Image}
    (first : Spares False files lost mid image image₁)
    (second : Spares False mid lost' files' image₁ image') :
    Spares False files lost files' image image' where
  image _ none := by
    refine (second.image False.elim fun g mem own => ?_).trans (first.image False.elim none)
    obtain ⟨f, mem, -, own⟩ := first.owned False.elim mem own
    exact none f mem own
  owned _ mem own := by
    obtain ⟨g, mem, at_sector, own⟩ := second.owned False.elim mem own
    obtain ⟨f, mem, at_sector', own⟩ := first.owned False.elim mem own
    exact ⟨f, mem, at_sector'.trans at_sector, own⟩

/-- Only sectors of the files change, and no file has one that it did not have. -/
theorem of_subset (kept : ∀ i, (∀ f ∈ files, i ∉ f.owned) → image' i = image i)
    (fewer : ∀ f' ∈ files', ∃ f ∈ files, f.sector = f'.sector ∧ f'.owned ⊆ f.owned) :
    Spares takes files lost files' image image' where
  image _ := kept _
  owned _ mem own := by
    obtain ⟨f, mem, at_sector, less⟩ := fewer _ mem
    exact ⟨f, mem, at_sector, less own⟩

/-- A file was made in sectors that were not in use. -/
theorem created (safe : v'.Safe image' (f :: files) lost) (kept : ∀ i ∈ lost, image' i = image i) :
    Spares True files lost (f :: files) image image' where
  image taken _ := kept _ (taken trivial)
  owned {i f'} taken mem own := by
    rcases List.mem_cons.1 mem with rfl | mem
    · rcases List.mem_append.1 (taken trivial) with own' | own'
      · exact absurd own' (safe.apart own)
      · exact absurd own (safe.unowned_of_lost own' f' List.mem_cons_self)
    · exact ⟨f', mem, rfl, own⟩

end Spares

/-- A file grew into sectors that were not in use. -/
theorem Volume.Moved.spares (moved : Moved v v' image image' f f' rest lost) :
    Spares True (f :: rest) lost (f' :: rest) image image' where
  image taken _ := moved.spared _ (taken trivial)
  owned {i g} taken mem own := by
    rcases List.mem_cons.1 mem with rfl | mem
    · refine ⟨f, List.mem_cons_self, moved.ahead.sector.symm, ?_⟩
      have used := taken trivial
      rw [List.flatMap_cons, List.append_assoc, List.mem_append, List.mem_append] at used
      rcases used with own' | own' | own'
      · exact own'
      · exact absurd own' (moved.safe.apart own)
      · exact absurd own (moved.safe.unowned_of_lost own' g List.mem_cons_self)
    · exact ⟨g, List.mem_cons_of_mem f mem, rfl, own⟩

/-- Making a file and writing to one take sectors that are free. -/
def FileOp.Takes : FileOp → Prop
  | .create .. | .write .. => True
  | _ => False

namespace Expected

/-- The volume has the files that are live, all of them safe, and those that did not stray are
stored as they are in memory. -/
structure SettledExcept (e : Expected) (strayed : Sector → Prop) (v : Volume m) (image : Image)
    (files : List LiveFile) (lost : List Nat) : Prop extends e.Tallies v files where
  safe : v.Safe image files lost
  settled : ∀ f ∈ files, ¬ strayed f.sector → f.Settled image
  map : ¬ strayed Sector.freeMap

namespace SettledExcept

variable (inodes : e.SettledExcept strayed v image files lost)
include inodes

theorem perm {files' : List LiveFile} (same : files.Perm files') :
    e.SettledExcept strayed v image files' lost where
  toTallies := inodes.toTallies.perm same
  safe := inodes.safe.perm same
  settled f mem := inodes.settled f (same.mem_iff.2 mem)
  map := inodes.map

/-- The file of a live inode, before the others. -/
theorem split (live : e.isLive t = true) :
    ∃ f rest, f.sector = t ∧ e.SettledExcept strayed v image (f :: rest) lost := by
  obtain ⟨f, rest, at_sector, same⟩ := inodes.exists_perm live
  exact ⟨f, rest, at_sector, inodes.perm same⟩

theorem live_of_handle (found : e.handle i = some h) : e.isLive h.sector = true :=
  inodes.live_of_pos inodes.safe.loaded (openers_pos found)

theorem split_handle (found : e.handle i = some h) :
    ∃ f rest, f.sector = h.sector ∧ e.SettledExcept strayed v image (f :: rest) lost :=
  inodes.split (inodes.live_of_handle found)

/-- What is open or counted changed, and no file. -/
theorem keep (tallies : e'.Tallies v' files) (safe : v'.Safe image files lost) :
    e'.SettledExcept strayed v' image files lost :=
  ⟨tallies, safe, inodes.settled, inodes.map⟩

/-- Only open files stray. -/
theorem clear :
    e.SettledExcept (fun t => (v.find? t).isSome = true ∧ strayed t) v image files lost where
  toTallies := inodes.toTallies
  safe := inodes.safe
  settled f mem fine := by
    cases found : v.find? f.sector with
    | none =>
      refine inodes.safe.closed f mem ?_
      rw [Volume.disks, found, Option.map_none]
    | some node => exact inodes.settled f mem fun strays => fine ⟨by rw [found]; rfl, strays⟩
  map both := inodes.map both.2

theorem loosen (more : ∀ t, strayed t → strayed' t) (map : ¬ strayed' Sector.freeMap) :
    e.SettledExcept strayed' v image files lost :=
  { inodes with
    settled := fun f mem fine => inodes.settled f mem fun strays => fine (more _ strays)
    map }

omit inodes in
/-- The file system is stored where no handle keeps the free map from that. -/
theorem sync_spec {mayFail : Prop} {Q : Except Failure Unit → Volume m → Image → Prop}
    (inodes : e.SettledExcept strayed v image (f :: rest) lost) (free : e.Unguarded)
    (at_sector : f.sector = Sector.freeMap)
    (ends : ∀ r v' image', Volume.Stores mayFail v v' image image' f r → Q r v' image') :
    (Volume.sync : VolumeAction m Unit).Ensures m mayFail v image Q :=
  Volume.sync_spec (inodes.safe.each f List.mem_cons_self).toMapped
    (inodes.safe.inside List.mem_cons_self) at_sector
    (Nat.le_of_eq (inodes.length f List.mem_cons_self at_sector).symm)
    (at_sector ▸ inodes.idle_map free)
    (inodes.safe.opens_of_closed List.mem_cons_self) (fun _ => inodes.safe.disk_of_find?) ends

/-! ## The last handle of a file -/

omit inodes in
theorem rest_settled {g : LiveFile} (inodes : e.SettledExcept strayed v image (f :: rest) lost)
    (mem : g ∈ rest) (kept : ∀ s ∈ rest.flatMap LiveFile.owned, image' s = image s)
    (fine : ¬ strayed g.sector) : g.Settled image' :=
  (inodes.settled g (List.mem_cons_of_mem f mem) fine).kept mem kept

omit inodes in
/-- The last handle was closed and the inode is still stored: of its file that is left. -/
theorem shut (inodes : e.SettledExcept strayed v image (f :: rest) lost)
    (found : e.handle i = some h)
    (at_sector : f.sector = h.sector) (last : e.openers h.sector = 1) (free : v'.free = v.free)
    (disks : v'.disks = Function.update v.disks f.sector none)
    (status : v'.status = Function.update v.status h.sector none) :
    ∃ files' lost', (e.released image i h).SettledExcept strayed v' image files' lost' ∧
      Spares False (f :: rest) lost files' image image := by
  obtain ⟨g, more, sector, fewer, stored, same, safe⟩ := inodes.safe.shut free disks
  have spares : Spares False (f :: rest) lost (g :: rest) image image :=
    .of_subset (fun _ _ => rfl) (List.forall_mem_cons.2 ⟨⟨f, List.mem_cons_self, sector.symm, fewer⟩,
      fun g' mem => ⟨g', List.mem_cons_of_mem f mem, rfl, List.Subset.refl _⟩⟩)
  refine ⟨g :: rest, more ++ lost, ⟨?_, safe, fun g' mem fine => ?_, inodes.map⟩, spares⟩
  · have marked := (safe.each g List.mem_cons_self).stored_marked stored
    rw [sector, at_sector] at marked
    rw [released_stored last marked]
    split
    case isTrue gone => exact inodes.toTallies.spared sector found at_sector last gone status
    case isFalse stays =>
      -- the free map's file does not stray, so its length stays
      refine (inodes.toTallies.closed found (fun both => stays both.2)
        (status.trans (by rw [Volume.Status.closed_last last]))).replace sector (fun at_map => ?_) rfl
      rw [same (inodes.settled f List.mem_cons_self (at_map ▸ inodes.map))]
  · rcases List.mem_cons.1 mem with rfl | mem
    · exact stored
    · exact inodes.rest_settled mem (fun _ _ => rfl) fine

omit inodes in
/-- The last handle of a removed inode was closed and its sector cleared. -/
theorem deleted {leaked : List Nat} (inodes : e.SettledExcept strayed v image (f :: rest) lost)
    (found : e.handle i = some h) (at_sector : f.sector = h.sector)
    (last : e.openers h.sector = 1) (gone : e.isRemoved h.sector = true)
    (marks : v'.free.Marks (rest.flatMap LiveFile.owned ++ (lost ++ leaked)))
    (disks : v'.disks = Function.update v.disks f.sector none)
    (status : v'.status = Function.update v.status h.sector none) :
    (e.released (Function.update image f.sector.index Inode.zero.encode) i h).SettledExcept strayed v'
        (Function.update image f.sector.index Inode.zero.encode) rest (lost ++ leaked) ∧
      Spares False (f :: rest) lost rest image
        (Function.update image f.sector.index Inode.zero.encode) := by
  have safe := inodes.safe
  have kept := safe.update_kept Inode.zero.encode
  -- the free map's file is never removed, so sector 0 is another file's
  have zero : 0 ∈ rest.flatMap LiveFile.owned := by
    refine safe.reserved.resolve_left fun zero => ?_
    exact (inodes.ne_of_removed gone).1 (at_sector ▸ Sector.index_inj.1 zero.symm)
  rw [released_cleared (at_sector ▸ unmarked_cleared image f.sector)]
  refine ⟨⟨inodes.toTallies.deleted safe.sector_ne found at_sector last gone status,
    safe.tail marks kept zero disks, fun g mem => inodes.rest_settled mem kept, inodes.map⟩,
    .of_subset (fun i none => ?_)
      fun g mem => ⟨g, List.mem_cons_of_mem f mem, rfl, List.Subset.refl _⟩⟩
  refine Function.update_of_ne (fun here : i = f.sector.index => ?_) _ _
  exact none f List.mem_cons_self (here ▸ List.mem_cons_self)

end SettledExcept

end Expected

namespace Session

variable {s s' : Session m} {answer : FileAnswer}

/-- An operation writes beyond the end of the inode at a sector. -/
inductive Overreaches (s : Session m) : FileOp → Sector → Prop
  | write {i off : Nat} {data : List UInt8} {h : Handle} {node : LoadedInode} :
      s.handle i = some h → s.fs.volume.find? h.sector = some node →
      node.disk.length < off + data.length → Overreaches s (.write i off data) h.sector

theorem Overreaches.of_write {off : Nat} {data : List UInt8} {node : LoadedInode}
    (reaches : s.Overreaches (.write i off data) t) (found : s.handle i = some h)
    (loaded : s.fs.volume.find? h.sector = some node) :
    t = h.sector ∧ node.disk.length < off + data.length := by
  cases reaches with
  | write found' loaded' short =>
    cases found.symm.trans found'
    cases loaded.symm.trans loaded'
    exact ⟨rfl, short⟩

/-- A write beyond the end of an inode leads it astray if it fails. It is stored again by the next
such write that does anything. -/
inductive Astray (s : Session m) (op : FileOp) (strayed : Sector → Prop) :
    FileAnswer → Sector → Prop
  | failed {failure : Failure} {t : Sector} :
      s.Overreaches op t → Astray s op strayed (.failed failure) t
  | still {answer : FileAnswer} {t : Sector} :
      strayed t → (s.Overreaches op t → ∀ n, answer ≠ .written (n + 1)) →
      Astray s op strayed answer t

theorem Astray.origin (astray : s.Astray op strayed answer t) :
    s.Overreaches op t ∨ strayed t := by
  cases astray with
  | failed reaches => exact .inl reaches
  | still strays => exact .inr strays

/-- The open inodes that are astray after an operation. -/
def Strays (s s' : Session m) (op : FileOp) (answer : FileAnswer) (strayed : Sector → Prop)
    (t : Sector) : Prop :=
  (s'.fs.volume.find? t).isSome = true ∧ s.Astray op strayed answer t

/-- A file system between two operations, on a device that may fail. All inodes but those that
strayed are stored as they are in memory. -/
structure SettledExcept (s : Session m) (e : Expected) (strayed : Sector → Prop) : Prop where
  ready : s.fs.store.Ready
  handles : s.handles = e.handles
  inodes : ∃ files lost, e.SettledExcept strayed s.fs.volume s.image files lost

/-- A settled session in which the free map can be stored. -/
structure Storable (s : Session m) (e : Expected) (strayed : Sector → Prop) : Prop
    extends s.SettledExcept e strayed where
  unguarded : e.Unguarded

/-- A session that is settled after an operation on files of which the others are told apart. -/
structure SettledAfter (s : Session m) (files : List LiveFile) (lost : List Nat) (op : FileOp)
    (s' : Session m) (e' : Expected) (strayed' : Sector → Prop) : Prop where
  ready : s'.fs.store.Ready
  handles : s'.handles = e'.handles
  inodes : ∃ files' lost', e'.SettledExcept strayed' s'.fs.volume s'.image files' lost' ∧
    Spares op.Takes files lost files' s.image s'.image

theorem SettledAfter.settled (after : s.SettledAfter files lost op s' e' strayed') :
    s'.SettledExcept e' strayed' := by
  obtain ⟨files', lost', inodes, -⟩ := after.inodes
  exact ⟨after.ready, after.handles, files', lost', inodes⟩

/-- An operation that is carried out as `x` returns, and leaves a settled session. -/
def Yields (s : Session m) (e : Expected) (strayed : Sector → Prop) (files : List LiveFile)
    (lost : List Nat) (op : FileOp) (x : Except Violation (FileAnswer × Session m)) : Prop :=
  ∃ answer s', x = .ok (answer, s') ∧ s.SettledAfter files lost op s'
    (e.after s'.image op answer) (s.Strays s' op answer strayed)

def Weathers (s : Session m) (e : Expected) (strayed : Sector → Prop) (files : List LiveFile)
    (lost : List Nat) (op : FileOp) : Prop :=
  s.Yields e strayed files lost op (s.step op)

/-- The files may be told in any order. -/
theorem Yields.perm {x : Except Violation (FileAnswer × Session m)} (same : files.Perm rest)
    (yields : s.Yields e strayed rest lost op x) : s.Yields e strayed files lost op x := by
  obtain ⟨answer, s', stepped, after⟩ := yields
  obtain ⟨files', lost', inodes, spares⟩ := after.inodes
  exact ⟨answer, s', stepped, after.ready, after.handles, files', lost', inodes, spares.perm same⟩

/-- The file of a live inode is told first. -/
theorem Yields.of_split {x : Except Violation (FileAnswer × Session m)}
    (inodes : e.SettledExcept strayed s.fs.volume s.image files lost) (live : e.isLive t = true)
    (each : ∀ f rest, f.sector = t →
      e.SettledExcept strayed s.fs.volume s.image (f :: rest) lost →
        s.Yields e strayed (f :: rest) lost op x) : s.Yields e strayed files lost op x := by
  obtain ⟨f, rest, at_sector, same⟩ := inodes.exists_perm live
  exact (each f rest at_sector (inodes.perm same)).perm same

/-- What an answer leaves. -/
structure Leaves (s : Session m) (e : Expected) (strayed : Sector → Prop) (files : List LiveFile)
    (lost : List Nat) (op : FileOp) (handles : List (Option Handle)) (answer : FileAnswer)
    (v : Volume m) (image : Image) : Prop where
  handles : handles = (e.after image op answer).handles
  inodes : ∃ files' lost',
    (e.after image op answer).SettledExcept (s.Astray op strayed answer) v image files' lost' ∧
      Spares op.Takes files lost files' s.image image

/-- Where no write failed no file strays that did not before. -/
theorem Leaves.of_settledExcept {handles : List (Option Handle)}
    (same : handles = (e.after image op answer).handles)
    (inodes : ∃ files' lost',
      (e.after image op answer).SettledExcept strayed v image files' lost' ∧
        Spares op.Takes files lost files' s.image image)
    (other : ∀ i off data, op ≠ .write i off data) :
    s.Leaves e strayed files lost op handles answer v image := by
  obtain ⟨files', lost', inodes, spares⟩ := inodes
  have inside (t : Sector) : ¬ s.Overreaches op t := fun reaches => by
    cases reaches with
    | write => exact other _ _ _ rfl
  refine ⟨same, files', lost', inodes.loosen (fun t strays => ?_) (fun astray => ?_), spares⟩
  · exact .still strays fun reaches => absurd reaches (inside t)
  · exact astray.origin.elim (inside _) inodes.map

theorem Leaves.settled {fs : FileSystem (Cache s.config.slots m 512) m}
    {handles : List (Option Handle)} (leads : s.fs.Leads fs)
    (leaves : s.Leaves e strayed files lost op handles answer fs.volume fs.store.image) :
    s.SettledAfter files lost op { s with fs, handles } (e.after fs.store.image op answer)
      (s.Strays { s with fs, handles } op answer strayed) := by
  obtain ⟨files', lost', inodes, spares⟩ := leaves.inodes
  exact ⟨leads.ready, leaves.handles, files', lost', inodes.clear, spares⟩

theorem tell_yields {x : VolumeAction m FileAnswer} (ready : s.fs.store.Ready)
    (ensures : x.Ensures m True s.fs.volume s.image fun r v image =>
      s.Leaves e strayed files lost op s.handles (.of r) v image) :
    s.Yields e strayed files lost op (s.tell x) := by
  refine tell_spec (P := fun answer s' => s.SettledAfter files lost op s'
    (e.after s'.image op answer) (s.Strays s' op answer strayed)) ready (fun _ => trivial)
    (ensures.mono fun r v image leaves fs leads volume shows => ?_)
  subst volume shows
  exact leaves.settled leads

theorem keep_yields {x : VolumeAction m Handle} {put : Handle → List (Option Handle)}
    (ready : s.fs.store.Ready) (ensures : x.Ensures m True s.fs.volume s.image fun r v image =>
      s.Leaves e strayed files lost op (Memory.kept s.handles put r).2
        (Memory.kept s.handles put r).1 v image) :
    s.Yields e strayed files lost op (s.keep x put) := by
  refine keep_spec put (P := fun answer s' => s.SettledAfter files lost op s'
    (e.after s'.image op answer) (s.Strays s' op answer strayed)) ready (fun _ => trivial)
    (ensures.mono fun r v image leaves fs leads volume shows => ?_)
  subst volume shows
  exact leaves.settled leads

namespace SettledExcept

variable (settled : s.SettledExcept e strayed)
include settled

theorem handle_eq (found : e.handle i = some h) : s.handle i = some h := by
  rw [handle_eq_join, settled.handles]
  exact found

variable (inodes : e.SettledExcept strayed s.fs.volume s.image files lost)
include inodes

/-! ## Files are made and opened -/

theorem create_weathers (length : Nat) (isDirectory : Bool) (parent : Sector) :
    s.Weathers e strayed files lost (.create length isDirectory parent) := by
  have safe := inodes.safe
  refine tell_yields settled.ready ?_
  rw [Action.ensures_map]
  refine Volume.create_spec safe.small safe.marks (List.mem_append_left _ safe.zero)
    (fun free image' f' new fresh marks kept _ => ?_)
    fun failure free image' leaked _ marks kept => ?_
  · have other := Volume.sector_ne_of_not_mem fun mem => fresh (List.mem_append_left _ mem)
    have kept' (t : Nat) (mem : t ∈ files.flatMap LiveFile.owned) : image' t = s.image t :=
      kept t (List.mem_append_left _ mem)
    have status : ({ s.fs.volume with free } : Volume m).status = s.fs.volume.status := rfl
    have safe' := safe.cons new.opens other marks kept'
    refine .of_settledExcept settled.handles ⟨f' :: files, lost, ⟨?_, safe', ?_, inodes.map⟩,
      .created safe' fun t mem => kept t (List.mem_append_right _ mem)⟩ fun _ _ _ same => by cases same
    · exact (inodes.toTallies.created _ other status).2
    · intro g mem fine
      rcases List.mem_cons.1 mem with rfl | mem
      · exact new.inode
      · exact (inodes.settled g mem fine).kept mem kept'
  · have kept' (t : Nat) (mem : t ∈ files.flatMap LiveFile.owned) : image' t = s.image t :=
      kept t (List.mem_append_left _ mem)
    refine .of_settledExcept settled.handles ⟨files, lost ++ leaked,
      ⟨{ inodes.toTallies with status := inodes.status }, safe.leak marks kept',
        fun g mem fine => (inodes.settled g mem fine).kept mem kept', inodes.map⟩, ?_, ?_⟩
      fun _ _ _ same => by cases same
    · exact fun taken _ => kept _ (List.mem_append_right _ (taken trivial))
    · exact fun _ mem own => ⟨_, mem, rfl, own⟩

theorem opens (live : e.isLive t = true) (done : ∀ image, e.after image op .done = e.opened t)
    (fails : ∀ image failure, e.after image op (.failed failure) = e)
    (other : ∀ i off data, op ≠ .write i off data) :
    s.Yields e strayed files lost op
      (s.keep (Volume.openAt t) (fun h => s.handles ++ [some h])) := by
  refine .of_split inodes live fun f rest at_sector inodes => ?_
  subst at_sector
  refine keep_yields settled.ready ?_
  refine inodes.safe.openAt_spec (fun v' free disks status => ?_) fun _ _ => ?_
  · refine .of_settledExcept ?_ ⟨f :: rest, lost, ?_, .refl ..⟩ other
    · rw [Memory.kept, done]
      exact congrArg (· ++ [some { sector := f.sector }]) settled.handles
    · rw [Memory.kept, done]
      exact inodes.keep (inodes.toTallies.opened status)
        (inodes.safe.opened List.mem_cons_self free disks)
  · refine .of_settledExcept ?_ ⟨f :: rest, lost, ?_, .refl ..⟩ other
    · rw [Memory.kept, fails]
      exact settled.handles
    · rw [Memory.kept, fails]
      exact inodes

theorem open_weathers (legal : e.Legal (.open t)) :
    s.Weathers e strayed files lost (.open t) :=
  settled.opens inodes legal (fun _ => rfl) (fun _ _ => rfl) fun _ _ _ same => by cases same

theorem root_weathers : s.Weathers e strayed files lost .root :=
  settled.opens inodes inodes.root_live (fun _ => rfl) (fun _ _ => rfl)
    fun _ _ _ same => by cases same

theorem reopen_weathers (legal : e.Legal (.reopen i)) :
    s.Weathers e strayed files lost (.reopen i) := by
  obtain ⟨h, found⟩ := legal
  rw [Weathers, step_handle (settled.handle_eq found) rfl]
  exact settled.opens inodes (inodes.live_of_handle found) (fun _ => Expected.onHandle_eq found)
    (fun _ _ => rfl) fun _ _ _ same => by cases same

/-! ## Bytes are read and written -/

theorem read_weathers {off len : Nat} (legal : e.Legal (.read i off len)) :
    s.Weathers e strayed files lost (.read i off len) := by
  obtain ⟨h, found⟩ := legal
  refine .of_split inodes (inodes.live_of_handle found) fun f rest at_sector inodes => ?_
  obtain ⟨node, loaded, -⟩ := Volume.exists_of_status (inodes.status_handle found)
  rw [← at_sector] at loaded
  rw [step_handle (settled.handle_eq found) rfl]
  refine tell_yields settled.ready ?_
  have leaves (answer : FileAnswer) : s.Leaves e strayed (f :: rest) lost (.read i off len)
      s.handles answer s.fs.volume s.image :=
    .of_settledExcept settled.handles ⟨_, _, inodes, .refl ..⟩ fun _ _ _ same => by cases same
  rw [Action.ensures_map]
  exact Volume.readBytes_spec (inodes.safe.each f List.mem_cons_self).toMapped
    (by rwa [← at_sector]) (inodes.safe.disk_of_find? loaded) (leaves _) fun _ => leaves _

theorem write_weathers {off : Nat} {data : List UInt8} (legal : e.Legal (.write i off data)) :
    s.Weathers e strayed files lost (.write i off data) := by
  obtain ⟨h, found, other⟩ := legal
  refine .of_split inodes (inodes.live_of_handle found) fun f rest at_sector inodes => ?_
  obtain ⟨node, loaded, -⟩ := Volume.exists_of_status (inodes.status_handle found)
  have handle := settled.handle_eq found
  have disk : node.disk = f.disk := by
    rw [← at_sector] at loaded
    exact inodes.safe.disk_of_find? loaded
  rw [step_handle handle rfl]
  refine tell_yields settled.ready ?_
  rw [Action.ensures_map]
  refine Volume.writeSafe_spec inodes.safe at_sector.symm (by rwa [at_sector])
    fun r v' image' f' moved now_settled stores _ => ?_
  refine ⟨settled.handles, f' :: rest, lost,
    ⟨?_, moved.safe, fun g mem fine => ?_, fun astray => ?_⟩, moved.spares⟩
  · exact inodes.toTallies.replace moved.ahead.sector
      (fun at_map => absurd (at_sector.symm.trans at_map) other) moved.status
  · rcases List.mem_cons.1 mem with rfl | mem
    · rw [moved.ahead.sector, at_sector] at fine
      have reaches (short : f.disk.length < off + data.length) :
          s.Overreaches (.write i off data) h.sector := .write handle loaded (disk ▸ short)
      by_cases strays : strayed h.sector
      · by_contra unsettled
        refine fine (.still strays fun reaches n same => unsettled (stores ?_ ⟨n, ?_⟩))
        · exact disk ▸ (reaches.of_write handle loaded).2
        · cases r with
          | ok => cases same; rfl
          | error => cases same
      · refine now_settled (inodes.settled f List.mem_cons_self (at_sector ▸ strays)) ?_
        cases r with
        | ok n => exact .inl ⟨n, rfl⟩
        | error => exact .inr (Nat.le_of_not_lt fun short => fine (.failed (reaches short)))
    · refine inodes.rest_settled mem moved.kept fun strays => fine (.still strays fun reaches => ?_)
      exact absurd ((reaches.of_write handle loaded).1.trans at_sector.symm)
        (inodes.safe.sector_ne g mem)
  · rcases astray.origin with reaches | strays
    · exact other (reaches.of_write handle loaded).1.symm
    · exact inodes.map strays

/-! ## Handles deny, allow, remove and close -/

theorem deny_weathers (fair : e.Fair (.deny i)) :
    s.Weathers e strayed files lost (.deny i) := by
  obtain ⟨h, found⟩ := fair
  have next (image : Image) : e.after image (.deny i) .done =
      e.withHandle i (some { h with deniesWrite := true }) := Expected.onHandle_eq found
  rw [Weathers, step_handle (settled.handle_eq found) rfl]
  refine keep_yields settled.ready ?_
  refine Volume.deny_spec (inodes.status_handle found) (Expected.denials_lt_openers found)
    fun v' alike status => ?_
  refine .of_settledExcept ?_ ⟨files, lost, ?_, .refl ..⟩ fun _ _ _ same => by cases same
  · rw [Memory.kept, next]
    exact congrArg (fun handles => List.set handles i (some { h with deniesWrite := true }))
      settled.handles
  · rw [Memory.kept, next]
    refine inodes.keep (inodes.toTallies.withHandle found ?_ status)
      (inodes.safe.alike alike)
    cases h.deniesWrite <;> rfl

theorem allow_weathers (legal : e.Legal (.allow i)) :
    s.Weathers e strayed files lost (.allow i) := by
  obtain ⟨h, found⟩ := legal
  have next (image : Image) : e.after image (.allow i) .done =
      e.withHandle i (some { h with deniesWrite := false }) := Expected.onHandle_eq found
  have counted := Expected.denials_pos found
  rw [Weathers, step_handle (settled.handle_eq found) rfl]
  refine keep_yields settled.ready ?_
  refine Volume.allow_spec (inodes.status_handle found) counted fun v' alike status => ?_
  refine .of_settledExcept ?_ ⟨files, lost, ?_, .refl ..⟩ fun _ _ _ same => by cases same
  · rw [Memory.kept, next]
    exact congrArg (fun handles => List.set handles i (some { h with deniesWrite := false }))
      settled.handles
  · rw [Memory.kept, next]
    refine inodes.keep (inodes.toTallies.withHandle found ?_ status)
      (inodes.safe.alike alike)
    cases denies : h.deniesWrite with
    | false => rfl
    | true => exact Nat.sub_add_cancel (counted denies)

theorem remove_weathers (legal : e.Legal (.remove i)) :
    s.Weathers e strayed files lost (.remove i) := by
  obtain ⟨h, found, other, other'⟩ := legal
  obtain ⟨file, known⟩ := Option.isSome_iff_exists.1 (inodes.live_of_handle found)
  have next := Expected.after_remove found known
  rw [Weathers, step_handle (settled.handle_eq found) rfl]
  refine tell_yields settled.ready ?_
  rw [Action.ensures_bind]
  refine Volume.remove_spec (inodes.status_handle found) fun v' alike status => ?_
  rw [Action.onward_ok, Action.ensures_pure]
  refine .of_settledExcept ?_ ⟨files, lost, ?_, .refl ..⟩ fun _ _ _ same => by cases same
  · rw [FileAnswer.of, next]
    exact settled.handles
  · rw [FileAnswer.of, next]
    exact inodes.keep (inodes.toTallies.removed found known other other' status)
      (inodes.safe.alike alike)

omit settled inodes in
/-- Whatever fails when a handle is closed, the handle is gone. -/
theorem close_ensures (inodes : e.SettledExcept strayed v image (f :: rest) lost)
    (found : e.handle i = some h) (at_sector : f.sector = h.sector) :
    (Volume.close h).Ensures m True v image fun _ v' image' => ∃ files' lost',
      (e.released image' i h).SettledExcept strayed v' image' files' lost' ∧
        Spares False (f :: rest) lost files' image image' := by
  have safe := inodes.safe
  have open_now := inodes.status_of_handle found at_sector
  have disk := safe.disks_of_status open_now
  refine Volume.close_spec safe.holds at_sector.symm disk open_now (Expected.openers_pos found)
    (Expected.denials_pos found) (fun several v' alike status => ?_)
    (fun last _ r v' _ free disks status => ?_)
    fun last gone r v' leaked _ marks disks status => ?_
  · rw [at_sector] at status
    rw [Expected.released_several fun both => several both.1]
    exact ⟨f :: rest, lost, inodes.keep (inodes.toTallies.closed found (fun both => several both.1)
      status) (safe.alike alike), .refl ..⟩
  · exact inodes.shut found at_sector last free disks (at_sector ▸ status)
  · rw [List.append_assoc] at marks
    exact ⟨rest, lost ++ leaked, inodes.deleted found at_sector last gone marks disks
      (at_sector ▸ status)⟩

omit inodes in
/-- Closing returns, and the session is without the handle. -/
theorem closing {x : VolumeAction m Unit}
    (same : ∀ image answer, e.after image op answer = e.released image i h)
    (other : ∀ i off data, op ≠ .write i off data)
    (ensures : x.Ensures m True s.fs.volume s.image fun _ v' image' => ∃ files' lost',
      (e.released image' i h).SettledExcept strayed v' image' files' lost' ∧
        Spares False files lost files' s.image image') :
    s.Yields e strayed files lost op ((s.forget i).tell (do x; return .done)) := by
  have handles (image : Image) : (s.forget i).handles = (e.released image i h).handles := by
    rw [Expected.released_handles, ← settled.handles]
    rfl
  refine tell_spec (s := s.forget i) (P := fun answer s' => s.SettledAfter files lost op s'
    (e.after s'.image op answer) (s.Strays s' op answer strayed)) settled.ready (fun _ => trivial) ?_
  rw [Action.ensures_bind]
  refine ensures.mono ?_
  rintro r v image ⟨files', lost', inodes, spares⟩
  have leaves (answer : FileAnswer) :
      s.Leaves e strayed files lost op (s.forget i).handles answer v image :=
    .of_settledExcept (by rw [same]; exact handles image)
      ⟨files', lost', by rw [same]; exact inodes, spares.of_idle⟩ other
  cases r with
  | ok =>
    rw [Action.onward_ok, Action.ensures_pure]
    rintro fs leads rfl rfl
    exact Leaves.settled (s := s) leads (leaves .done)
  | error failure =>
    rw [Action.onward_error]
    rintro fs leads rfl rfl
    exact Leaves.settled (s := s) leads (leaves (.failed failure))

theorem close_weathers (legal : e.Legal (.close i)) :
    s.Weathers e strayed files lost (.close i) := by
  obtain ⟨h, found⟩ := legal
  refine .of_split inodes (inodes.live_of_handle found) fun f rest at_sector inodes => ?_
  rw [step_handle (settled.handle_eq found) rfl]
  exact settled.closing (fun _ _ => Expected.onHandle_eq found) (fun _ _ _ same => by cases same)
    (close_ensures inodes found at_sector)

theorem drop_weathers (legal : e.Legal (.drop i)) :
    s.Weathers e strayed files lost (.drop i) := by
  obtain ⟨h, found⟩ := legal
  refine .of_split inodes (inodes.live_of_handle found) fun f rest at_sector inodes => ?_
  rw [step_handle (settled.handle_eq found) rfl]
  refine settled.closing (fun _ _ => Expected.onHandle_eq found) (fun _ _ _ same => by cases same) ?_
  rw [Volume.drop, Action.ensures_ignoreError]
  exact close_ensures inodes found at_sector

/-! ## The file system is stored -/

omit settled inodes in
/-- Only blocks of the free map's file are written when the file system is stored. -/
theorem sync_ensures (inodes : e.SettledExcept strayed v image (f :: rest) lost)
    (free : e.Unguarded) (at_sector : f.sector = Sector.freeMap) :
    (Volume.sync : VolumeAction m Unit).Ensures m True v image fun r v' image' =>
      e.SettledExcept strayed v' image' (f :: rest) lost ∧ v'.free = v.free ∧
        (r = .ok () → f.content image' = v.free.toBytes) ∧
        Spares False (f :: rest) lost (f :: rest) image image' := by
  have safe := inodes.safe
  have mapped := (safe.each f List.mem_cons_self).toMapped
  have length := inodes.length f List.mem_cons_self at_sector
  refine inodes.sync_spec free at_sector fun r v' image' stores => ?_
  obtain ⟨data, written, all⟩ := stores.written
  obtain ⟨safe', sector, kept⟩ := safe.overwritten written
  refine ⟨⟨?_, safe'.alike stores.alike, fun g mem fine => ?_, inodes.map⟩, stores.alike.free,
    fun ok => ?_, .of_subset (fun i none => ?_) fun g mem => ⟨g, mem, rfl, List.Subset.refl _⟩⟩
  · exact { inodes.toTallies with status := stores.status.trans inodes.status }
  · rcases List.mem_cons.1 mem with rfl | mem
    · exact (inodes.settled g List.mem_cons_self fine).congr sector
    · exact inodes.rest_settled mem kept fine
  · obtain rfl := all ok
    exact mapped.content_eq written ((FreeMap.length_toBytes v.free).trans length.symm)
  · exact safe.overwritten_outside written fun own =>
      none f List.mem_cons_self (List.mem_cons_of_mem _ own)

theorem sync_weathers (free : e.Unguarded) : s.Weathers e strayed files lost .sync := by
  refine .of_split inodes inodes.map_live fun f rest at_sector inodes => ?_
  have leaves {v : Volume m} {image : Image}
      (inodes : e.SettledExcept strayed v image (f :: rest) lost)
      (spares : Spares False (f :: rest) lost (f :: rest) s.image image) :
      ∀ r, s.Leaves e strayed (f :: rest) lost .sync s.handles (.of r) v image
    | .ok _ => .of_settledExcept settled.handles ⟨_, _, inodes, spares.of_idle⟩
      fun _ _ _ same => by cases same
    | .error _ => .of_settledExcept settled.handles ⟨_, _, inodes, spares.of_idle⟩
      fun _ _ _ same => by cases same
  refine tell_yields settled.ready ?_
  rw [Action.ensures_bind]
  refine (sync_ensures inodes free at_sector).mono ?_
  rintro r v image ⟨inodes, -, -, spares⟩
  cases r with
  | ok =>
    rw [Action.onward_ok, Action.ensures_pure]
    exact leaves inodes spares (.ok .done)
  | error failure =>
    rw [Action.onward_error]
    exact leaves inodes spares (.error failure)

/-- Every fair operation on a file system in use returns, and the session is settled after it. -/
theorem weathers_of_fair (fair : e.Fair op) (stays : ∀ config, op ≠ .remount config)
    (free : op = .sync → e.Unguarded) : s.Weathers e strayed files lost op := by
  cases op with
  | create length isDirectory parent => exact settled.create_weathers inodes length isDirectory parent
  | «open» t => exact settled.open_weathers inodes fair
  | root => exact settled.root_weathers inodes
  | reopen i => exact settled.reopen_weathers inodes fair
  | read i off len => exact settled.read_weathers inodes fair
  | write i off data => exact settled.write_weathers inodes fair
  | remove i => exact settled.remove_weathers inodes fair
  | deny i => exact settled.deny_weathers inodes fair
  | allow i => exact settled.allow_weathers inodes fair
  | close i => exact settled.close_weathers inodes fair
  | drop i => exact settled.drop_weathers inodes fair
  | sync => exact settled.sync_weathers inodes (free rfl)
  | remount config => exact absurd rfl (stays config)

end SettledExcept

/-- Every legal operation on a file system in use returns, and the session is settled after it,
with a free map that can be stored. -/
theorem Storable.weathers_of_legal (storable : s.Storable e strayed) (legal : e.Legal op)
    (stays : ∀ config, op ≠ .remount config) : ∃ answer s', s.step op = .ok (answer, s') ∧
      s'.Storable (e.after s'.image op answer) (s.Strays s' op answer strayed) := by
  obtain ⟨files, lost, inodes⟩ := storable.inodes
  obtain ⟨answer, s', stepped, after⟩ := storable.toSettledExcept.weathers_of_fair inodes legal.fair
    stays fun _ => storable.unguarded
  exact ⟨answer, s', stepped, after.settled, storable.unguarded.after legal s'.image answer⟩

end Session

end SectorFs
