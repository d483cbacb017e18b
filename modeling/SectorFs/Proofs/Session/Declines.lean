/-
# SectorFs.Proofs.Session.Declines — creates that fail

A create that fails leaves all that is live and open as it was (`Untouched`), and frees no sector
that was in use. It can leave sectors behind that belong to nothing, but only if a request failed
and the new inode was to have index blocks (`declines_of_served`): taking its blocks away again
reads those, and that can fail as well.
-/
import SectorFs.Proofs.Session.Reserved
import SectorFs.Proofs.Volume.Undone

namespace SectorFs

set_option autoImplicit false

variable {m : Nat} {mayFail : Prop} {image image' : Image} {v : Volume m} {e : Expected}
  {files rest : List LiveFile} {lost : List Nat} {f g : LiveFile} {t : Sector} {h : Handle}
  {i : Nat} {d : Inode} {failure : Failure}

namespace Session

variable {s s' : Session m}

/-- All that is live and open is as it was: the inodes in memory and as they are stored, the sectors
that they name, and their bytes. -/
structure Untouched (s s' : Session m) (e : Expected) : Prop where
  opens : s'.fs.volume.find? = s.fs.volume.find?
  handles : s'.handles = s.handles
  stored {t : Sector} : e.isLive t = true → s'.image t.index = s.image t.index
  named {t : Sector} {d : Inode} : e.isLive t = true → FormOf s.fs.volume s.image t d →
    namedBy s'.image t d = namedBy s.image t d
  bytes {t : Sector} {d : Inode} : e.isLive t = true → FormOf s.fs.volume s.image t d →
    bytesIn s'.image d = bytesIn s.image d

/-- A file is in place after its sectors were written. -/
structure Stays (f : LiveFile) (m : Nat) (image image' : Image) : Prop where
  inode : image' f.sector.index = image f.sector.index
  mapped : f.Mapped m image'
  held : Volume.Held f image image'

theorem Stays.of_kept (mapped : f.Mapped m image) (kept : ∀ t ∈ f.owned, image' t = image t) :
    Stays f m image image' := by
  have kept' (t : Nat) (mem : t ∈ f.layout.owned) : image' t = image t :=
    kept t (List.mem_cons_of_mem _ mem)
  exact ⟨kept _ List.mem_cons_self, mapped.congr kept', mapped.held kept'⟩

theorem Untouched.of_stays (safely : e.MatchesSafely s.fs.volume s.image files lost)
    (opens : s'.fs.volume.find? = s.fs.volume.find?) (handles : s'.handles = s.handles)
    (stays : ∀ f ∈ files, Stays f m s.image s'.image) : s.Untouched s' e := by
  -- each form of an inode has its first blocks in common with the file in memory
  have forms {t : Sector} {d : Inode} (live : e.isLive t = true)
      (form : FormOf s.fs.volume s.image t d) : ∃ g : LiveFile, g.sector = t ∧ g.disk = d ∧
        g.Mapped m s.image ∧ g.Mapped m s'.image ∧ Volume.Held g s.image s'.image := by
    obtain ⟨f, mem, rfl⟩ := safely.live.1 live
    obtain ⟨g, rfl, mapped, ahead, -⟩ := safely.safe.exists_form mem form
    obtain ⟨-, mapped', held⟩ := stays f mem
    refine ⟨g, ahead.sector.symm, rfl, mapped,
      ahead.mapped mapped' mapped.stored.describes mapped.long, fun i inside => ?_⟩
    rw [← Layout.block_of_trim ahead.trim inside]
    exact held i (Nat.lt_of_lt_of_le inside ahead.le)
  refine ⟨opens, handles, fun live => ?_, fun live form => ?_, fun live form => ?_⟩
  · obtain ⟨f, mem, rfl⟩ := safely.live.1 live
    exact (stays f mem).inode
  · obtain ⟨g, rfl, rfl, mapped, mapped', -⟩ := forms live form
    rw [mapped.namedBy_eq, mapped'.namedBy_eq]
  · obtain ⟨g, rfl, rfl, mapped, mapped', held⟩ := forms live form
    rw [mapped.bytesIn_eq, mapped'.bytesIn_eq, mapped.content_held held]

/-! ## Creates that fail -/

/-- What a create that fails leaves. -/
structure Declines (s s' : Session m) (e : Expected) : Prop extends s.Untouched s' e where
  inUse {i : Nat} : i < m → s.fs.volume.free.inUse i = true → s'.fs.volume.free.inUse i = true
  /-- What is in use since then belongs to no inode. -/
  leaked {i : Nat} {t : Sector} {d : Inode} : s.fs.volume.free.inUse i = false →
    e.isLive t = true → FormOf s'.fs.volume s'.image t d → i ∉ namedBy s'.image t d

theorem Serves.create_declines (serves : s.Serves mayFail e) {length : Nat} {isDirectory : Bool}
    {parent : Sector}
    (stepped : s.step (.create length isDirectory parent) = .ok (.failed failure, s')) :
    s.Declines s' e ∧ (¬ mayFail ∨ sectorsFor length ≤ 12 →
      s'.fs.volume.free = s.fs.volume.free) := by
  obtain ⟨files, lost, safely⟩ := serves.safely
  have safe := safely.safe
  obtain ⟨answer, s₁, stepped₁, ends⟩ := tell_spec (s := s) (P := fun answer s' =>
    s'.handles = s.handles ∧ s'.fs.volume.inodes = s.fs.volume.inodes ∧
      ∀ failure, answer = .failed failure →
        (∃ leaked, s'.fs.volume.free.Marks (files.flatMap LiveFile.owned ++ lost ++ leaked)) ∧
        (∀ t ∈ files.flatMap LiveFile.owned ++ lost, s'.image t = s.image t) ∧
        (¬ mayFail ∨ sectorsFor length ≤ 12 → s'.fs.volume.free = s.fs.volume.free))
    serves.ready serves.may (x := .made <$> Volume.create length isDirectory parent) (by
      rw [Action.ensures_map]
      refine (Volume.create_undone safe.small safe.marks
        (List.mem_append_left _ safe.zero)).mono ?_
      rintro (e | made) v image ⟨inodes, failed⟩ fs - rfl rfl
      · refine ⟨rfl, inodes, ?_⟩
        rintro _ ⟨⟩
        exact failed _ rfl
      · refine ⟨rfl, inodes, ?_⟩
        rintro _ ⟨⟩)
  cases stepped.symm.trans stepped₁
  obtain ⟨handles, inodes, ends⟩ := ends
  obtain ⟨⟨leaked, marks⟩, kept, exact⟩ := ends failure rfl
  have opens : s'.fs.volume.find? = s.fs.volume.find? := by
    funext t
    rw [Volume.find?, inodes, Volume.find?]
  have untouched : s.Untouched s' e := .of_stays safely opens handles fun f mem =>
    .of_kept (safe.each f mem).toMapped fun t own =>
      kept t (List.mem_append_left _ (List.mem_flatMap.2 ⟨f, mem, own⟩))
  refine ⟨⟨untouched, fun inside used => ?_, fun {i t d} unused live form named => ?_⟩, exact⟩
  · rw [safe.marks.inUse inside] at used
    exact (marks.inUse inside).2 (List.mem_append_left _ used)
  · have form' : FormOf s.fs.volume s.image t d :=
      form.congr (congrFun opens t).symm (untouched.stored live).symm
    rw [untouched.named live form'] at named
    rw [(serves.separated.inUse live form' i named).2] at unused
    cases unused

/-- **A create that fails changes nothing that is live, and leaks nothing unless the device may fail
at a call that it makes while the new inode has index blocks.** -/
theorem declines_of_served (served : Served mayFail s e) {length : Nat} {isDirectory : Bool}
    {parent : Sector}
    (stepped : s.step (.create length isDirectory parent) = .ok (.failed failure, s')) :
    s.Declines s' e ∧ (¬ s.fs.store.MayFail ∨ sectorsFor length ≤ 12 →
      s'.fs.volume.free = s.fs.volume.free) :=
  Serves.create_declines { served.serves with may := id } stepped

/-- The cache has one slot, and a new inode in it is still to be stored when the device stops working.
An inode with a block is to be made next: there is room for it, and no slot to clear its block in. -/
theorem declines_of_served_full :
    ∃ (fs : FileSystem (Cache 1 20 512) 20) (s s' : Session 20),
      FileSystem.format (Cache.new (Device.filled 20 512 7) { slots := 1 }) =
        .ok (.ok (), some fs) ∧
      step ⟨{ slots := 1 }, fs, []⟩ (.create 0 false Sector.root) = .ok (.made ⟨10⟩, s) ∧
      (s.withFails fun _ _ _ => true).step (.create 1 false Sector.root) =
        .ok (.failed .io, s') ∧
      s.fs.volume.free.countFree = 9 ∧
      (s.withFails fun _ _ _ => true).Declines s'
        (Expected.start.next (.create 0 false Sector.root) (.made ⟨10⟩)) ∧
      s'.fs.volume.free = s.fs.volume.free := by
  obtain ⟨fs, formatted, filled⟩ := exists_format (Device.filled 20 512 7) { slots := 1 }
    (by decide) (by decide) (by decide) fun _ _ _ => rfl
  obtain ⟨s, made, filled'⟩ := filled.creates 0 (by decide) false Sector.root (by decide)
  have permits : Permits ⟨{ slots := 1 }, fs, []⟩ .start (.create 0 false Sector.root) := trivial
  have served := Served.failing (fun _ _ _ => true) trivial
    ((Served.formatted (fun _ => trivial) formatted).step permits made)
  obtain ⟨answer, s', refused, -⟩ :=
    served.serves.create_proceeds 1 false Sector.root
  have config : s.config = { slots := 1 } := config_of_step made nofun
  have refusing := refusing_of_create filled.up.ready (by rw [config]) made
  obtain rfl := create_refused refusing filled'.packed (by decide) (filled'.used ▸ by decide)
    (filled'.used ▸ by decide) (by decide) (by decide) refused
  obtain ⟨declines, exact⟩ := declines_of_served served refused
  exact ⟨fs, s, s', formatted, made, refused, filled'.countFree, declines, exact (.inr (by decide))⟩

end Session

end SectorFs
