/-
# SectorFs.Proofs.Session.Expected — what a file system is expected to do

To its callers a live inode is a string of bytes. `Expected` has the strings of
all live inodes and the handles; it knows nothing of sectors, index blocks, a free
map or a cache. `Legal` says which operations may come next, `Allows` which
answers an operation may get, and `next` what is expected after one of them.

A removed inode lives on until its last handle is closed. What the file in sector
0 holds is not said: it is the file system's own.
-/
import SectorFs.Proofs.Session.Basic

namespace SectorFs

set_option autoImplicit false

structure ExpectedFile where
  bytes : List UInt8
  removed : Bool

/-- The live inodes, by their sectors, and the handles. -/
structure Expected where
  files : Sector → Option ExpectedFile
  handles : List (Option Handle)

/-- How many handles are of a kind. -/
def countHandles (handles : List (Option Handle)) (kind : Handle → Bool) : Nat :=
  handles.countP fun h => h.any kind

namespace Expected

/-- A new file system has the file of its free map and an empty root directory. -/
def start : Expected where
  files s := if s = Sector.freeMap ∨ s = Sector.root then some ⟨[], false⟩ else none
  handles := []

def handle (e : Expected) (i : Nat) : Option Handle := e.handles[i]?.join

def isLive (e : Expected) (s : Sector) : Bool := (e.files s).isSome

def isRemoved (e : Expected) (s : Sector) : Bool := (e.files s).any ExpectedFile.removed

/-- The number of handles to an inode. -/
def openers (e : Expected) (s : Sector) : Nat := countHandles e.handles fun h => h.sector = s

/-- The number of handles that keep others from writing to an inode. -/
def denials (e : Expected) (s : Sector) : Nat :=
  countHandles e.handles fun h => h.sector = s && h.deniesWrite

/-- The operations that may come next: only live inodes are opened, no handle to the free map's
file writes, removes or denies, and the root directory is not removed. -/
def Legal (e : Expected) : FileOp → Prop
  | .create .. | .root | .sync => True
  | .open s => e.isLive s = true
  | .reopen i | .read i _ _ | .allow i | .close i | .drop i => ∃ h, e.handle i = some h
  | .write i _ _ | .deny i => ∃ h, e.handle i = some h ∧ h.sector ≠ Sector.freeMap
  | .remove i =>
      ∃ h, e.handle i = some h ∧ h.sector ≠ Sector.freeMap ∧ h.sector ≠ Sector.root
  | .remount config => 0 < config.slots

/-- Whether a write to an inode does nothing. -/
def Idles (e : Expected) (s : Sector) (data : List UInt8) : Prop := 0 < e.denials s ∨ data = []

instance (e : Expected) (s : Sector) (data : List UInt8) : Decidable (e.Idles s data) :=
  inferInstanceAs (Decidable (_ ∨ _))

/-- The answers that an operation may get. -/
def Allows (e : Expected) (op : FileOp) (answer : FileAnswer) : Prop :=
  match op with
  | .create .. => (∃ s, answer = .made s ∧ e.isLive s = false) ∨ ∃ failure, answer = .failed failure
  | .read i off len => ∃ data, answer = .bytes data ∧ ∀ h, e.handle i = some h →
      ∃ file, e.files h.sector = some file ∧
        (h.sector ≠ Sector.freeMap → data = (file.bytes.drop off).take len)
  | .write i _ data => ∀ h, e.handle i = some h →
      if e.Idles h.sector data then answer = .written 0
      else answer = .written data.length ∨ ∃ failure, answer = .failed failure
  | .open _ | .root | .reopen _ | .remove _ | .deny _ | .allow _ | .close _ | .drop _ | .sync
  | .remount _ => answer = .done

/-- One handle more. -/
def opened (e : Expected) (s : Sector) : Expected :=
  { e with handles := e.handles ++ [some { sector := s }] }

def withFile (e : Expected) (s : Sector) (file : Option ExpectedFile) : Expected :=
  { e with files := Function.update e.files s file }

def withHandle (e : Expected) (i : Nat) (h : Option Handle) : Expected :=
  { e with handles := e.handles.set i h }

/-- One handle less. An inode that was removed goes with its last handle. -/
def closed (e : Expected) (i : Nat) (h : Handle) : Expected :=
  if e.openers h.sector = 1 ∧ e.isRemoved h.sector = true then
    (e.withHandle i none).withFile h.sector none
  else e.withHandle i none

/-- What is expected once a handle has been used. -/
def onHandle (e : Expected) (i : Nat) (f : Handle → Expected) : Expected :=
  match e.handle i with
  | some h => f h
  | none => e

/-- What is expected after an operation and its answer. -/
def next (e : Expected) : FileOp → FileAnswer → Expected
  | .create length _ _, .made s => e.withFile s (some ⟨List.replicate length 0, false⟩)
  | .open s, .done => e.opened s
  | .root, .done => e.opened Sector.root
  | .reopen i, .done => e.onHandle i fun h => e.opened h.sector
  | .write i off data, .written _ => e.onHandle i fun h =>
      if e.Idles h.sector data then e
      else e.withFile h.sector ((e.files h.sector).map fun file =>
        { file with bytes := overwrite file.bytes off data })
  | .remove i, .done => e.onHandle i fun h =>
      e.withFile h.sector ((e.files h.sector).map fun file => { file with removed := true })
  | .deny i, .done => e.onHandle i fun h => e.withHandle i (some { h with deniesWrite := true })
  | .allow i, .done => e.onHandle i fun h => e.withHandle i (some { h with deniesWrite := false })
  | .close i, .done | .drop i, .done => e.onHandle i fun h => e.closed i h
  | .remount _, .done =>
      ⟨fun s => (e.files s).map fun file => { file with removed := false }, []⟩
  | _, _ => e

/-- What is open at a sector, by the handles. -/
def status (e : Expected) (s : Sector) : Option Volume.Status :=
  if e.openers s = 0 then none else some ⟨e.openers s, e.isRemoved s, e.denials s⟩

/-! ## Counting handles -/

variable {e : Expected} {i : Nat} {h : Handle} {s : Sector}

theorem handle_eq_some : e.handle i = some h ↔ e.handles[i]? = some (some h) := by
  rw [handle, Option.join_eq_some_iff]

theorem onHandle_eq {f : Handle → Expected} (found : e.handle i = some h) :
    e.onHandle i f = f h := by
  rw [onHandle, found]

theorem countHandles_append (handles : List (Option Handle)) (h : Handle)
    (kind : Handle → Bool) :
    countHandles (handles ++ [some h]) kind = countHandles handles kind + (kind h).toNat := by
  rw [countHandles, List.countP_append, List.countP_singleton, countHandles, Option.any_some]
  cases kind h <;> rfl

/-- One handle in place of another. -/
theorem countHandles_set {handles : List (Option Handle)} (at_place : handles[i]? = some (some h))
    (new : Option Handle) (kind : Handle → Bool) :
    countHandles (handles.set i new) kind + (kind h).toNat =
      countHandles handles kind + (new.any kind).toNat := by
  obtain ⟨inside, here⟩ := List.getElem?_eq_some_iff.1 at_place
  have counted : (kind h).toNat ≤ countHandles handles kind := by
    cases of_kind : kind h with
    | false => exact Nat.zero_le _
    | true => exact List.one_le_countP_iff.2 ⟨some h, List.mem_of_getElem? at_place, of_kind⟩
  unfold countHandles at counted ⊢
  rw [List.countP_set inside, here, Option.any_some]
  generalize kind h = old, new.any kind = now at counted ⊢
  cases old <;> cases now <;>
    simp only [Bool.toNat_true, Bool.toNat_false, reduceIte, Bool.false_eq_true] at counted ⊢ <;>
    omega

theorem openers_pos (found : e.handle i = some h) : 0 < e.openers h.sector :=
  List.countP_pos_iff.2 ⟨some h, List.mem_of_getElem? (handle_eq_some.1 found), by simp⟩

theorem denials_le_openers (e : Expected) (s : Sector) : e.denials s ≤ e.openers s := by
  refine List.countP_mono_left fun h _ counted => ?_
  cases h with
  | none => cases counted
  | some h => exact (Bool.and_eq_true _ _ ▸ counted).1

theorem denials_pos (found : e.handle i = some h) (denies : h.deniesWrite = true) :
    0 < e.denials h.sector :=
  List.countP_pos_iff.2 ⟨some h, List.mem_of_getElem? (handle_eq_some.1 found), by simp [denies]⟩

theorem openers_opened (e : Expected) (s t : Sector) :
    (e.opened s).openers t = e.openers t + (decide (s = t)).toNat :=
  countHandles_append _ _ _

theorem denials_opened (e : Expected) (s t : Sector) : (e.opened s).denials t = e.denials t :=
  (countHandles_append _ _ _).trans (by simp [denials])

theorem openers_withHandle (found : e.handle i = some h) (deniesWrite : Bool) (t : Sector) :
    (e.withHandle i (some { h with deniesWrite })).openers t = e.openers t := by
  have counted := countHandles_set (handle_eq_some.1 found) (some { h with deniesWrite })
    fun g => g.sector = t
  exact Nat.add_right_cancel counted

theorem denials_withHandle (found : e.handle i = some h) (deniesWrite : Bool) (t : Sector) :
    (e.withHandle i (some { h with deniesWrite })).denials t +
        (decide (h.sector = t) && h.deniesWrite).toNat =
      e.denials t + (decide (h.sector = t) && deniesWrite).toNat :=
  countHandles_set (handle_eq_some.1 found) _ _

theorem openers_forget (found : e.handle i = some h) (t : Sector) :
    (e.withHandle i none).openers t + (decide (h.sector = t)).toNat = e.openers t :=
  countHandles_set (handle_eq_some.1 found) none _

theorem denials_forget (found : e.handle i = some h) (t : Sector) :
    (e.withHandle i none).denials t + (decide (h.sector = t) && h.deniesWrite).toNat =
      e.denials t :=
  countHandles_set (handle_eq_some.1 found) none _

/-- No handle keeps the free map from being stored. -/
def Unguarded (e : Expected) : Prop := e.denials Sector.freeMap = 0

namespace Unguarded

variable (free : e.Unguarded)
include free

theorem opened (s : Sector) : (e.opened s).Unguarded := by
  rw [Unguarded, denials_opened]
  exact free

theorem withHandle {deniesWrite : Bool} (found : e.handle i = some h)
    (allowed : h.sector = Sector.freeMap → deniesWrite = false) :
    (e.withHandle i (some { h with deniesWrite })).Unguarded := by
  have denied := denials_withHandle found deniesWrite Sector.freeMap
  have none : (decide (h.sector = Sector.freeMap) && deniesWrite) = false := by
    by_cases here : h.sector = Sector.freeMap
    · rw [allowed here, Bool.and_false]
    · rw [decide_eq_false here, Bool.false_and]
  rw [none, Bool.toNat_false, free] at denied
  rw [Unguarded]
  omega

theorem forget (found : e.handle i = some h) : (e.withHandle i none).Unguarded := by
  have denied := denials_forget found Sector.freeMap
  rw [free] at denied
  rw [Unguarded]
  omega

theorem closed (found : e.handle i = some h) : (e.closed i h).Unguarded := by
  rw [Expected.closed]
  split <;> exact free.forget found

end Unguarded

/-- A handle that does not deny is counted once more among the openers. -/
theorem denials_lt_openers (found : e.handle i = some h) (allows : h.deniesWrite = false) :
    e.denials h.sector < e.openers h.sector := by
  have le := denials_le_openers (e.withHandle i none) h.sector
  have opened := openers_forget found h.sector
  have denied := denials_forget found h.sector
  rw [decide_eq_true (Eq.refl h.sector)] at opened denied
  rw [allows] at denied
  simp only [Bool.toNat_true, Bool.and_false, Bool.toNat_false] at opened denied
  omega

end Expected

end SectorFs
