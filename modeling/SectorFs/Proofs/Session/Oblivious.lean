/-
# SectorFs.Proofs.Session.Oblivious — nobody sees what a disk held before

A device is made a file system and used; `Outcome.sights` is what can be seen of
that: how every turn ends, what is in memory after it, what the cache counts and
which calls the device got. A broken condition is seen, too, and ends the run.

Two devices that differ in their bytes only, and fail at the same calls, are seen
to be the same (`sights_eq`): what was on a disk before it was made a file system
does not show, in what is read, in what fails, or in what is asked of the device.
Every sector was written as a whole before anything is read from it. This needs
that only live inodes are opened, that no handle writes to the free map's file,
and that the reserved inodes are not removed (`Session.May`).
-/
import SectorFs.Proofs.Session.Careful
import SectorFs.Proofs.Session.Transparent

namespace SectorFs

set_option autoImplicit false

variable {m : Nat} {e : Expected} {strayed : Sector → Prop} {written : Set Nat}
  {config : CacheSetup} {device device' : Device m 512} {stored : Prop}

/-! ## What can be seen -/

/-- What is done next: an operation on the file system, or to take it up again from the device on a
new cache. To shut a file system down is to sync it. -/
inductive Turn where
  | act (op : FileOp)
  | mount (config : CacheSetup)

/-- How a turn ends, and what it leaves. -/
inductive Outcome (α : Type) where
  /-- A condition was broken. -/
  | broken (v : Violation)
  /-- No file system came into use. -/
  | stopped (result : Except Failure Unit) (left : Option α)
  | answered (answer : FileAnswer) (left : α)

namespace Outcome

variable {α β : Type}

def map (f : α → β) : Outcome α → Outcome β
  | broken v => broken v
  | stopped result left => stopped result (left.map f)
  | answered answer left => answered answer (f left)

/-- What the next turn is taken with. -/
def next : Outcome α → Option α
  | answered _ left => some left
  | broken _ | stopped .. => none

end Outcome

/-- What can be seen of a file system in use, of its cache and of its device. -/
structure View (m : Nat) where
  /-- The number of free sectors. -/
  free : Nat
  /-- The number of open inodes. -/
  inodes : Nat
  /-- The inode behind each handle, with its length and all else that is known of it. -/
  behind : List (Option LoadedInode)
  counts : CacheCounts
  calls : List (IoCall m)

namespace Session

def view (s : Session m) : View m where
  free := s.fs.volume.free.countFree
  inodes := s.fs.volume.inodes.length
  behind := s.handles.map fun h => h.bind fun h => s.fs.volume.find? h.sector
  counts := s.fs.store.counts
  calls := s.fs.store.device.calls

/-- How a start ends. -/
def started (config : CacheSetup) :
    Except Violation (Except Failure Unit × Option (FileSystem (Cache config.slots m 512) m)) →
      Outcome (Session m)
  | .error v => .broken v
  | .ok (.ok (), some fs) => .answered .done ⟨config, fs, []⟩
  | .ok (result, fs) => .stopped result (fs.map fun fs => ⟨config, fs, []⟩)

/-- How it ends to make a file system on a device. -/
def formatted (device : Device m 512) (config : CacheSetup) : Outcome (Session m) :=
  started config (FileSystem.format (Cache.new device config))

def turn (s : Session m) : Turn → Outcome (Session m)
  | .act op =>
      match s.step op with
      | .error v => .broken v
      | .ok (answer, s') => .answered answer s'
  | .mount config => started config (FileSystem.mount (Cache.new s.fs.store.device config))

theorem turn_act {s s' : Session m} {op : FileOp} {answer : FileAnswer}
    (stepped : s.step op = .ok (answer, s')) : s.turn (.act op) = .answered answer s' := by
  rw [turn, stepped]

end Session

/-- What can be seen of turns, as long as a file system is in use. -/
def Outcome.sights (outcome : Outcome (Session m)) : List Turn → List (Outcome (View m))
  | [] => [outcome.map Session.view]
  | turn :: turns => outcome.map Session.view ::
      match outcome.next with
      | some s => (s.turn turn).sights turns
      | none => []

namespace Turn

/-- The turns that may be taken next: what is fair, and to take up again what was `stored` by the
turn before. -/
def May (e : Expected) (stored : Prop) : Turn → Prop
  | act op => e.Fair op ∧ ∀ config, op ≠ .remount config
  | mount _ => stored

/-- What is live and open after a turn, where `image` shows the sectors after it. -/
def after (e : Expected) (image : Image) (answer : FileAnswer) : Turn → Expected
  | act op => e.after image op answer
  | mount config => e.next (.remount config) .done

/-- Whether everything is stored after a turn. -/
def Stores : Turn → FileAnswer → Prop
  | act op, answer => op = .sync ∧ answer = .done
  | mount _, _ => False

end Turn

/-- The turns may be taken one after another. -/
def Session.May (s : Session m) (e : Expected) (stored : Prop) : List Turn → Prop
  | [] => True
  | turn :: turns => turn.May e stored ∧ ∀ answer s', s.turn turn = .answered answer s' →
      s'.May (turn.after e s'.image answer) (turn.Stores answer) turns

/-! ## Sessions that cannot be told from each other -/

namespace Session

/-- The session on another cache. -/
def onCache (s : Session m) (c : Cache s.config.slots m 512) : Session m :=
  { s with fs.store := c }

/-- A session on another cache cannot be told from it: they differ in nothing that was written, and
all that is live was. -/
structure Hidden (s : Session m) (c : Cache s.config.slots m 512) (e : Expected)
    (stored : Prop) : Prop where
  settled : ∃ strayed, s.SettledExcept e strayed
  twins : ∃ written, e.Knowing s.fs.volume ⟨s.image, written⟩ ∧
    Cache.Twins written s.fs.store c
  saved : stored → s.fs.store.device.image = s.image ∧ c.device.image = c.image
  mounts : stored → ∀ (config : CacheSetup) (fs : FileSystem (Cache config.slots m 512) m),
    FileSystem.mount (Cache.new s.fs.store.device config) = .ok (.ok (), some fs) →
      Storable ⟨config, fs, []⟩ (e.next (.remount config) .done) fun _ => False

end Session

/-- Two outcomes that look the same, and after which nothing shows which of them it was. -/
inductive Outcome.Hides (after : FileAnswer → Session m → Expected)
    (stores : FileAnswer → Prop) : Outcome (Session m) → Outcome (Session m) → Prop
  | broken (v : Violation) : Hides after stores (.broken v) (.broken v)
  | stopped (result : Except Failure Unit) {left left' : Option (Session m)} :
      left.map Session.view = left'.map Session.view →
      Hides after stores (.stopped result left) (.stopped result left')
  | answered {answer : FileAnswer} {s : Session m} {c : Cache s.config.slots m 512} :
      s.Hidden c (after answer s) (stores answer) →
      Hides after stores (.answered answer s) (.answered answer (s.onCache c))

variable {after : FileAnswer → Session m → Expected} {stores : FileAnswer → Prop}
  {s s' : Session m} {c : Cache s.config.slots m 512} {turn : Turn} {turns : List Turn}

namespace Session

theorem view_of_twins {config : CacheSetup} {v : Volume m} {handles : List (Option Handle)}
    {c c' : Cache config.slots m 512} (twins : Cache.Twins written c c') :
    view ⟨config, ⟨v, c⟩, handles⟩ = view ⟨config, ⟨v, c'⟩, handles⟩ := by
  have counts : c.counts = c'.counts := (congrArg Cache.counts twins.blank :)
  have calls : c.device.calls = c'.device.calls :=
    (congrArg (fun c => c.device.calls) twins.blank :)
  rw [view, view, counts, calls]

/-! ## A file system starts -/

/-- A start that reads only what was written shows nothing else of the device. -/
theorem started_hides (refusal : Failure) (written : Set Nat) {x : VolumeAction m Unit}
    {Q : Except Failure Unit → Volume m → Trail → Prop} (same : device.blank = device'.blank)
    (bytes : ∀ t ∈ written, device'.image t = device.image t)
    (under : 2 ≤ m → x.Under .careful (.empty m) ⟨device.image, written⟩ Q)
    (hidden : ∀ (fs : FileSystem (Cache config.slots m 512) m) c written',
      FileSystem.start refusal x (Cache.new device config) = .ok (.ok (), some fs) →
      Cache.Twins written' fs.store c → Q (.ok ()) fs.volume ⟨fs.store.image, written'⟩ →
      Hidden ⟨config, fs, []⟩ c (after .done ⟨config, fs, []⟩) (stores .done)) :
    Outcome.Hides after stores
      (started config (FileSystem.start refusal x (Cache.new device config)))
      (started config (FileSystem.start refusal x (Cache.new device' config))) := by
  by_cases small : m ≤ Sector.root.index
  · rw [FileSystem.start, FileSystem.start, if_pos small, if_pos small]
    exact .stopped _ rfl
  by_cases slots : 0 < config.slots
  case neg =>
    have none (device : Device m 512) : Cache.new device config = .error _ := dif_neg slots
    rw [FileSystem.start, FileSystem.start, if_neg small, if_neg small, none, none]
    exact .broken _
  obtain ⟨c, made⟩ : ∃ c, Cache.new device config = .ok c := ⟨_, dif_pos slots⟩
  obtain ⟨c', made'⟩ : ∃ c, Cache.new device' config = .ok c := ⟨_, dif_pos slots⟩
  have shows : c.image = device.image := (Cache.ready_new made).2.2
  have shows' : c'.image = device'.image := (Cache.ready_new made').2.2
  have twins : Cache.Twins written c c' := by
    refine Cache.twins_new same made made' fun t mem => ?_
    rw [shows, shows']
    exact bytes t mem
  have under := under (Nat.lt_of_not_le small)
  rw [← shows] at under
  rw [made, FileSystem.start_eq refusal x c small, FileSystem.perform, Action.run] at hidden ⊢
  rw [made', FileSystem.start_eq refusal x c' small, FileSystem.perform, Action.run]
  rcases Cache.run_twins twins under with
    ⟨v, ran, ran'⟩ | ⟨⟨r, volume⟩, d, d', written', ran, ran', twins', holds⟩
  · rw [ran, ran']
    exact .broken v
  · rw [ran] at hidden ⊢
    rw [ran']
    cases r with
    | error e => exact .stopped _ (congrArg some (view_of_twins twins'))
    | ok => exact .answered (hidden ⟨volume, d⟩ d' written' rfl twins' holds)

/-- Where there is no handle nothing is open. -/
theorem SettledExcept.closed (settled : s.SettledExcept e strayed) (none : e.handles = [])
    (t : Sector) :
    s.fs.volume.disks t = .none := by
  obtain ⟨files, lost, inodes⟩ := settled.inodes
  have zero : e.openers t = 0 := by
    rw [Expected.openers, none]
    rfl
  have status := congrFun inodes.status t
  rw [Expected.status_of_zero zero, Volume.status, Option.map_eq_none_iff] at status
  rw [Volume.disks, status, Option.map_none]

/-- A file system is made, and what the sectors held before does not show. -/
theorem formatted_hides (device : Device m 512) (config : CacheSetup)
    (blocks : Vector (Block 512) m) :
    Outcome.Hides (fun _ _ => Expected.start) (fun _ => False) (formatted device config)
      (formatted { device with blocks } config) := by
  refine started_hides .noSpace ∅ rfl (fun t mem => absurd mem (Set.notMem_empty t))
    Volume.format_careful fun fs c written' formatted twins leads => ?_
  obtain ⟨leads, leads'⟩ := leads rfl
  have storable := storable_of_format formatted
  refine ⟨⟨_, storable.toSettledExcept⟩, ⟨written', fun t live => ?_, twins⟩, False.elim, False.elim⟩
  have closed := storable.toSettledExcept.closed rfl t
  by_cases known : t = Sector.freeMap ∨ t = Sector.root
  · rcases known with rfl | rfl
    · exact .of_leads leads closed
    · exact .of_leads leads' closed
  · have dead : Expected.start.files t = none := if_neg known
    rw [Expected.isLive, dead] at live
    cases live

namespace Hidden

variable (hidden : s.Hidden c e stored)
include hidden

/-- What was stored is taken up again, and looks the same on both devices. -/
theorem mount_hides (saved : stored) (config : CacheSetup) :
    Outcome.Hides (fun _ _ => e.next (.remount config) .done) (fun _ => False)
      (s.turn (.mount config)) ((s.onCache c).turn (.mount config)) := by
  obtain ⟨strayed, settled⟩ := hidden.settled
  obtain ⟨written, knowing, twins⟩ := hidden.twins
  obtain ⟨shows, shows'⟩ := hidden.saved saved
  obtain ⟨files, lost, inodes⟩ := settled.inodes
  have blank : s.fs.store.device.blank = c.device.blank := (congrArg Cache.device twins.blank :)
  refine started_hides (Q := fun _ _ after => after = ⟨s.image, written⟩) .notFormatted written
    blank (fun t mem => ?_) (fun _ => ?_) fun fs c' written' mounted twins' same => ?_
  · change c.device.image t = _
    rw [shows, shows']
    exact twins.same mem
  · rw [shows]
    have safe := inodes.safe
    obtain ⟨map, mem, at_map⟩ := inodes.live.1 inodes.map_live
    obtain ⟨g, mem', at_root⟩ := inodes.live.1 inodes.root_live
    have file := (safe.each map mem).opens (inodes.settled map mem (at_map ▸ inodes.map))
    have known := knowing _ inodes.map_live
    have known' := knowing _ inodes.root_live
    -- the root directory may be ahead of what is stored, but that is what it extends
    obtain ⟨root, file', ahead⟩ := (safe.each g mem').origin
    rw [← at_map] at known
    rw [← at_root, ahead.sector] at known'
    exact Volume.mount_quiet file file' (safe.within mem known) known.written known'.written
      (safe.inside mem) (ahead.sector ▸ safe.inside mem') at_map (ahead.sector ▸ at_root)
  · have storable := hidden.mounts saved config fs mounted
    refine ⟨⟨_, storable.toSettledExcept⟩, ⟨written', fun t live => ?_, twins'⟩, False.elim,
      False.elim⟩
    have live : e.isLive t = true := Option.isSome_map.symm.trans live
    obtain ⟨f, mem, rfl⟩ := inodes.live.1 live
    have knows := knowing _ live
    have closed := storable.toSettledExcept.closed rfl f.sector
    have calm : f.Calm fs.volume s.image := by
      refine ⟨fun loaded => ?_, inodes.safe.each f mem⟩
      cases closed.symm.trans loaded
    change fs.volume.Knows ⟨fs.store.image, written'⟩ f.sector
    rw [same]
    exact calm.knows (inodes.safe.within mem knows) knows.written

/-- A fair operation is answered alike on both devices, or breaks the same condition. -/
theorem act_hides {op : FileOp} (fair : e.Fair op) (stays : ∀ config, op ≠ .remount config) :
    Outcome.Hides (fun answer s' => e.after s'.image op answer) (Turn.act op).Stores
      (s.turn (.act op)) ((s.onCache c).turn (.act op)) := by
  obtain ⟨strayed, settled⟩ := hidden.settled
  obtain ⟨written, knowing, twins⟩ := hidden.twins
  have step := s.step_eq op stays
  have step' := (s.onCache c).step_eq op stays
  change _ = _ <$> (s.memory.step op).run c at step'
  rcases Cache.run_twins twins (settled.minds_of_fair knowing fair stays) with
    ⟨v, ran, ran'⟩ | ⟨⟨answer, d⟩, c₁, c₁', written', ran, ran', twins', knowing'⟩
  · rw [run, ran] at step
    rw [ran'] at step'
    rw [turn, turn, step, step']
    exact .broken v
  · rw [run, ran] at step
    rw [ran'] at step'
    rw [turn_act step, turn_act step']
    exact .answered (s := { s with fs := ⟨d.volume, c₁⟩, handles := d.handles }) (c := c₁') {
      settled := settled.step_settled fair stays step
      twins := ⟨written', knowing', twins'⟩
      saved := by
        rintro ⟨rfl, rfl⟩
        exact ⟨Cache.image_of_stored (Memory.stored_of_step twins'.ready rfl ran),
          Cache.image_of_stored (Memory.stored_of_step twins'.ready' rfl ran')⟩
      mounts := by
        rintro ⟨rfl, rfl⟩ config fs mounted
        have stored := Memory.synced_of_step rfl ran
        exact settled.mounted (settled.unguarded_of_stored stored) stored rfl mounted }

theorem turn_hides (may : turn.May e stored) :
    Outcome.Hides (fun answer s' => turn.after e s'.image answer) turn.Stores (s.turn turn)
      ((s.onCache c).turn turn) := by
  cases turn with
  | act op => exact hidden.act_hides may.1 may.2
  | mount config => exact hidden.mount_hides may config

end Hidden

end Session

namespace Outcome

theorem Hides.map_view {outcome outcome' : Outcome (Session m)}
    (hides : Hides after stores outcome outcome') :
    outcome.map Session.view = outcome'.map Session.view := by
  cases hides with
  | broken => rfl
  | stopped result views => exact congrArg (Outcome.stopped result) views
  | answered hidden =>
    obtain ⟨written, -, twins⟩ := hidden.twins
    exact congrArg (Outcome.answered _) (Session.view_of_twins twins)

/-- Outcomes that look the same do so after all turns that may be taken. -/
theorem Hides.sights_congr {outcome outcome' : Outcome (Session m)}
    (hides : Hides after stores outcome outcome')
    (may : ∀ answer s, outcome = .answered answer s → s.May (after answer s) (stores answer) turns) :
    outcome.sights turns = outcome'.sights turns := by
  induction turns generalizing outcome outcome' after stores with
  | nil => exact congrArg (fun sight => [sight]) hides.map_view
  | cons turn turns ih =>
    have looks := hides.map_view
    cases hides with
    | broken => rfl
    | stopped => exact congrArg (fun sight => [sight]) looks
    | answered hidden =>
      obtain ⟨now, onward⟩ := may _ _ rfl
      exact congrArg₂ List.cons looks (ih (hidden.turn_hides now) onward)

end Outcome

/-- **What was on a disk before it was made a file system does not show.** -/
theorem Session.sights_eq (device : Device m 512) (blocks : Vector (Block 512) m)
    (config : CacheSetup) (turns : List Turn)
    (may : ∀ answer s, formatted device config = .answered answer s → s.May .start False turns) :
    (formatted device config).sights turns =
      (formatted { device with blocks } config).sights turns :=
  (formatted_hides device config blocks).sights_congr may

/-- Nineteen sectors that held sevens and nineteen that held zeros: a file is made, opened, written
behind a gap, read and stored, and opened again on a cache with two slots. -/
theorem Session.sights_eq_gap :
    (∃ s, formatted (Device.filled 19 512 7) { slots := 1 } = .answered .done s) ∧
    (formatted (Device.filled 19 512 7) { slots := 1 }).sights [.act (.create 0 false Sector.root),
        .act (.open ⟨10⟩), .act (.write 0 5 [1, 2, 3]), .act (.read 0 0 10), .act .sync,
        .mount { slots := 2 }, .act (.open ⟨10⟩)] =
      (formatted (Device.filled 19 512 0) { slots := 1 }).sights
        [.act (.create 0 false Sector.root), .act (.open ⟨10⟩), .act (.write 0 5 [1, 2, 3]),
          .act (.read 0 0 10), .act .sync, .mount { slots := 2 }, .act (.open ⟨10⟩)] := by
  have reliable : ∀ number kind b, (Device.filled 19 512 7).fails number kind b = false :=
    fun _ _ _ => rfl
  obtain ⟨fs, s₁, s₂, s₃, made, created, opened, written, follows₃, -⟩ :=
    exists_gapWritten _ { slots := 1 } (by decide) reliable
  have begun : formatted (Device.filled 19 512 7) { slots := 1 } =
      .answered .done ⟨{ slots := 1 }, fs, []⟩ := by
    rw [formatted, made]
    rfl
  refine ⟨⟨_, begun⟩, sights_eq (Device.filled 19 512 7) (Device.filled 19 512 0).blocks
    { slots := 1 } _ fun answer s same => ?_⟩
  cases begun.symm.trans same
  have handle : gapWritten.Legal (.read 0 0 10) := ⟨{ sector := ⟨10⟩ }, rfl⟩
  obtain ⟨bytes, s₄, read, -, follows₄⟩ := follows₃.goes_of_legal handle
  obtain ⟨_, s₅, synced, rfl, -⟩ := follows₄.goes_of_legal (show Expected.Legal _ .sync from trivial)
  refine ⟨⟨trivial, fun _ same => by cases same⟩, fun answer s turned => ?_⟩
  cases (turn_act created).symm.trans turned
  refine ⟨⟨rfl, fun _ same => by cases same⟩, fun answer s turned => ?_⟩
  cases (turn_act opened).symm.trans turned
  refine ⟨⟨⟨{ sector := ⟨10⟩ }, rfl, by decide⟩, fun _ same => by cases same⟩,
    fun answer s turned => ?_⟩
  cases (turn_act written).symm.trans turned
  refine ⟨⟨handle, fun _ same => by cases same⟩, fun answer s turned => ?_⟩
  cases (turn_act read).symm.trans turned
  refine ⟨⟨trivial, fun _ same => by cases same⟩, fun answer s turned => ?_⟩
  cases (turn_act synced).symm.trans turned
  exact ⟨⟨rfl, rfl⟩, fun _ _ _ => ⟨⟨rfl, fun _ same => by cases same⟩, fun _ _ _ => trivial⟩⟩

end SectorFs
