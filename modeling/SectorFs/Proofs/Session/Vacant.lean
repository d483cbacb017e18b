/-
# SectorFs.Proofs.Session.Vacant — sectors of deleted inodes until they are taken again

`Session.Unnamed`: no live inode names a sector, as it is stored or as it is in memory. The sector
of an inode is so once that was deleted. An operation leaves an unnamed sector as it is, and unnamed,
unless it takes it (`SettledExcept.unnamed_of_passesBy`).

Only creates and writes take sectors, and they take free ones. Where a free sector is kept back from
an allocation, what is handed out stays the same exactly if the sector is not in it
(`FreeMap.Marks.allocate_reserve_iff`). So an operation that does not take a free sector goes as it
does where that sector is in use (`Session.PassesBy`), and there the sector is one that belongs
to nothing and is not touched.

`Session.Vacated`: the sessions in which the sector of a deleted inode may be opened until an
operation takes it. Nothing was written to it, so these are among the sessions of
`Session.Handled` (`Vacated.handled`).
-/
import SectorFs.Proofs.Session.Handles

namespace SectorFs

set_option autoImplicit false

variable {m i : Nat} {image : Image} {v : Volume m} {e e' : Expected} {t : Sector} {op : FileOp}
  {answer : FileAnswer} {strayed strayed' vacant : Sector → Prop} {files : List LiveFile}
  {lost : List Nat} {f : LiveFile}

/-- In one of its forms an inode names all sectors of its file. -/
theorem Volume.Safe.exists_whole_form (safe : v.Safe image files lost) (mem : f ∈ files) :
    ∃ d, FormOf v image f.sector d ∧ namedBy image f.sector d = f.owned := by
  have mapped := (safe.each f mem).toMapped
  cases found : v.find? f.sector with
  | none =>
    have stored : Inode.decode (image f.sector.index) = f.disk :=
      (safe.opens_of_closed mem found).inode
    exact ⟨_, .stored, by rw [stored, mapped.namedBy_eq]⟩
  | some node =>
    obtain ⟨front, back, rfl⟩ := List.append_of_mem mem
    have same := (safe.perm List.perm_middle).disk_of_find? found
    exact ⟨_, .loaded found, by rw [same, mapped.namedBy_eq]⟩

namespace Session

variable {s s' r : Session m}

/-! ## Sectors that are not named -/

/-- No live inode names a sector, in either form. -/
def Unnamed (s : Session m) (e : Expected) (i : Nat) : Prop :=
  ∀ t d, e.isLive t = true → FormOf s.fs.volume s.image t d → i ∉ namedBy s.image t d

theorem unnamed_iff (inodes : e.SettledExcept strayed s.fs.volume s.image files lost) :
    s.Unnamed e i ↔ ∀ f ∈ files, i ∉ f.owned := by
  constructor
  · intro unnamed f mem own
    obtain ⟨d, form, named⟩ := inodes.safe.exists_whole_form mem
    exact unnamed f.sector d (inodes.live.2 ⟨f, mem, rfl⟩) form (named ▸ own)
  · intro none t d live form named
    obtain ⟨f, mem, rfl⟩ := inodes.live.1 live
    exact none f mem ((inodes.safe.namedBy_sublist mem form).2.subset named)

theorem Unnamed.congr (unnamed : s.Unnamed e i)
    (same : r.fs.volume.find? = s.fs.volume.find?) (shows : r.image = s.image) :
    r.Unnamed e i := by
  intro t d live form
  rw [shows]
  exact unnamed t d live (form.congr (congrFun same t).symm (congrFun shows t.index).symm)

namespace SettledAfter

variable (after : s.SettledAfter files lost op s' e' strayed')
  (inodes : e.SettledExcept strayed s.fs.volume s.image files lost)
include after inodes

/-- A sector that is not named and cannot be taken is left as it is. -/
theorem unnamed (inside : i < m) (kept : op.Takes → s.fs.volume.free.inUse i = true)
    (unnamed : s.Unnamed e i) : s'.image i = s.image i ∧ s'.Unnamed e' i := by
  obtain ⟨files', lost', inodes', spares⟩ := after.inodes
  have none := (unnamed_iff inodes).1 unnamed
  have used (takes : op.Takes) : i ∈ files.flatMap LiveFile.owned ++ lost :=
    (inodes.safe.marks.inUse inside).1 (kept takes)
  have left (takes : op.Takes) : i ∈ lost := by
    refine (List.mem_append.1 (used takes)).resolve_left fun own => ?_
    obtain ⟨f, mem, own⟩ := List.mem_flatMap.1 own
    exact none f mem own
  refine ⟨spares.image left none, (unnamed_iff inodes').2 fun f' mem own => ?_⟩
  obtain ⟨f, mem, -, own⟩ := spares.owned used mem own
  exact none f mem own

/-- When an inode is deleted no other gets its sector. -/
theorem unnamed_of_deleted (live : e.isLive t = true) (dead : e'.isLive t = false) :
    s'.Unnamed e' t.index := by
  obtain ⟨files', lost', inodes', spares⟩ := after.inodes
  obtain ⟨f, mem, rfl⟩ := inodes.live.1 live
  have own : f.sector.index ∈ f.owned := List.mem_cons_self
  refine (unnamed_iff inodes').2 fun f' mem' own' => ?_
  obtain ⟨g, gmem, same, gown⟩ := spares.owned
    (fun _ => List.mem_append_left _ (List.mem_flatMap.2 ⟨f, mem, own⟩)) mem' own'
  by_cases at_sector : f.sector = g.sector
  · rw [at_sector, same, inodes'.live.2 ⟨f', mem', rfl⟩] at dead
    cases dead
  · exact inodes.safe.disjoint_owned mem gmem at_sector own gown

end SettledAfter

/-! ## Sectors that are not taken -/

/-- The session with a free sector marked as in use. -/
def reserving (s : Session m) (t : Sector) : Except Violation (Session m) := do
  return { s with fs.volume.free := ← s.fs.volume.free.reserve t.index }

/-- An operation does not take a sector: it takes none, or the sector is in use, or all goes as it
does where the sector is in use. -/
inductive PassesBy (s s' : Session m) (op : FileOp) (answer : FileAnswer) (t : Sector) : Prop
  | idle : ¬ op.Takes → PassesBy s s' op answer t
  | inUse : s.fs.volume.free.inUse t.index = true → PassesBy s s' op answer t
  | alike {r r' : Session m} : s.reserving t = .ok r → s'.reserving t = .ok r' →
      r.step op = .ok (answer, r') → PassesBy s s' op answer t

theorem exists_of_reserving (reserved : s.reserving t = .ok r) :
    ∃ free, s.fs.volume.free.reserve t.index = .ok free ∧
      r = { s with fs.volume.free := free } := by
  rw [reserving] at reserved
  cases taken : s.fs.volume.free.reserve t.index with
  | error v =>
    rw [taken] at reserved
    cases reserved
  | ok free =>
    rw [taken] at reserved
    cases reserved
    exact ⟨free, rfl, rfl⟩

theorem image_of_reserving (reserved : s.reserving t = .ok r) : r.image = s.image := by
  obtain ⟨free, -, rfl⟩ := exists_of_reserving reserved
  rfl

theorem find?_of_reserving (reserved : s.reserving t = .ok r) :
    r.fs.volume.find? = s.fs.volume.find? := by
  obtain ⟨free, -, rfl⟩ := exists_of_reserving reserved
  rfl

/-- A sector that is kept back is in use, and nothing else changes. -/
theorem SettledExcept.reserving (settled : s.SettledExcept e strayed) (inside : t.index < m)
    (reserved : s.reserving t = .ok r) :
    r.SettledExcept e strayed ∧ r.fs.volume.free.inUse t.index = true := by
  obtain ⟨free, taken, rfl⟩ := exists_of_reserving reserved
  obtain ⟨files, lost, inodes⟩ := settled.inodes
  have marks := inodes.safe.marks.reserve taken
  refine ⟨⟨settled.ready, settled.handles, files, lost ++ [t.index], ?_⟩, ?_⟩
  · exact ⟨{ inodes.toTallies with status := inodes.status },
      inodes.safe.leak (marks.perm (List.perm_append_singleton _ _).symm) fun _ _ => rfl,
      inodes.settled, inodes.map⟩
  · exact (marks.inUse inside).2 List.mem_cons_self

section Step

variable (settled : s.SettledExcept e strayed) (fair : e.Fair op)
  (stays : ∀ config, op ≠ .remount config) (stepped : s.step op = .ok (answer, s'))
  (inside : t.index < m) (unnamed : s.Unnamed e t.index)
include settled fair stays stepped inside unnamed

theorem SettledExcept.unnamed_of_step (kept : op.Takes → s.fs.volume.free.inUse t.index = true) :
    s'.image t.index = s.image t.index ∧ s'.Unnamed (e.after s'.image op answer) t.index := by
  obtain ⟨files, lost, inodes⟩ := settled.inodes
  exact (settled.after_step inodes fair stays stepped).unnamed inodes inside kept unnamed

/-- A sector that no inode names stays as it is until it is taken. -/
theorem SettledExcept.unnamed_of_passesBy (passes : s.PassesBy s' op answer t) :
    s'.image t.index = s.image t.index ∧ s'.Unnamed (e.after s'.image op answer) t.index := by
  cases passes with
  | idle none =>
    exact settled.unnamed_of_step fair stays stepped inside unnamed fun takes => absurd takes none
  | inUse used => exact settled.unnamed_of_step fair stays stepped inside unnamed fun _ => used
  | @alike r r' reserved reserved' stepped' =>
    obtain ⟨settled', used⟩ := settled.reserving inside reserved
    have shows := image_of_reserving reserved
    have shows' := image_of_reserving reserved'
    obtain ⟨kept, unnamed'⟩ := settled'.unnamed_of_step fair stays stepped' inside
      (unnamed.congr (find?_of_reserving reserved) shows) fun _ => used
    rw [shows, shows'] at kept
    rw [shows'] at unnamed'
    exact ⟨kept, unnamed'.congr (find?_of_reserving reserved').symm shows'.symm⟩

end Step

/-! ## Sessions in which what was deleted may be opened until it is taken -/

/-- The inodes that were deleted and whose sectors were not taken since. -/
def Vacates (s s' : Session m) (e e' : Expected) (op : FileOp) (answer : FileAnswer)
    (vacant : Sector → Prop) (t : Sector) : Prop :=
  e.isLive t = true ∧ e'.isLive t = false ∨ vacant t ∧ s.PassesBy s' op answer t

/-- The sessions of `Handled` in which an inode that was deleted may be opened until its sector is
taken. -/
inductive Vacated : Session m → Expected → (Sector → Prop) → Prop
  | formatted {device : Device m 512} {config : CacheSetup}
      {fs : FileSystem (Cache config.slots m 512) m} :
      FileSystem.format (Cache.new device config) = .ok (.ok (), some fs) →
      Vacated ⟨config, fs, []⟩ .start fun _ => False
  | step {s s' : Session m} {e : Expected} {vacant : Sector → Prop} {op : FileOp}
      {answer : FileAnswer} :
      Vacated s e vacant → Tries e vacant op → (∀ config, op ≠ .remount config) →
      s.step op = .ok (answer, s') →
      Vacated s' (e.after s'.image op answer)
        (s.Vacates s' e (e.after s'.image op answer) op answer vacant)
  | failing {s : Session m} {e : Expected} {vacant : Sector → Prop}
      (fails : Nat → IoKind → Fin m → Bool) :
      Vacated s e vacant → Vacated (s.withFails fails) e vacant
  | mounted {s : Session m} {e : Expected} {vacant : Sector → Prop}
      {fs : FileSystem (Cache s.config.slots m 512) m} {device : Device m 512}
      {config : CacheSetup} {fs' : FileSystem (Cache config.slots m 512) m} :
      Vacated s e vacant → s.fs.perform Volume.sync = .ok (.ok (), fs) →
      device.blocks = fs.store.device.blocks →
      FileSystem.mount (Cache.new device config) = .ok (.ok (), some fs') →
      Vacated ⟨config, fs', []⟩ (e.next (.remount config) .done) vacant

theorem Tries.mono {buried : Sector → Prop} (tries : Tries e vacant op)
    (more : ∀ t, vacant t → buried t) : Tries e buried op :=
  tries.imp_right fun ⟨t, opens, gone⟩ => ⟨t, opens, more t gone⟩

/-- What an operation leaves of a vacant sector, and of one whose inode it deletes. -/
theorem Vacates.buries {buried : Sector → Prop} (handled : Handled s e buried)
    (tries : Tries e buried op) (stays : ∀ config, op ≠ .remount config)
    (stepped : s.step op = .ok (answer, s'))
    (gone : vacant t → buried t ∧ s.Unnamed e t.index)
    (vacates : s.Vacates s' e (e.after s'.image op answer) op answer vacant t) :
    s.Buries s' e (e.after s'.image op answer) buried t ∧
      s'.Unnamed (e.after s'.image op answer) t.index := by
  have clears := handled.clears
  obtain ⟨strayed, settled⟩ := clears.settled
  rcases tries with fair | ⟨u, rfl, buried'⟩
  · rcases vacates with ⟨live, dead⟩ | ⟨before, passes⟩
    · obtain ⟨files, lost, inodes⟩ := settled.inodes
      exact ⟨.inl ⟨live, dead⟩, (settled.after_step inodes fair stays stepped).unnamed_of_deleted
        inodes live dead⟩
    · obtain ⟨buried, unnamed⟩ := gone before
      obtain ⟨same, unnamed'⟩ := settled.unnamed_of_passesBy fair stays stepped
        (clears.cleared buried).1 unnamed passes
      exact ⟨.inr ⟨buried, same⟩, unnamed'⟩
  · -- nothing opens, and nothing changes
    obtain ⟨inside, unmarked⟩ := clears.cleared buried'
    obtain ⟨failure, s₁, refused, -, -, same, shows⟩ :=
      settled.open_refused (clears.dead_of_buried buried') inside unmarked
    cases stepped.symm.trans refused
    rcases vacates with ⟨live, dead⟩ | ⟨before, -⟩
    · rw [show (e.after s'.image (.open u) (.failed failure)).isLive t = e.isLive t from rfl,
        live] at dead
      cases dead
    · obtain ⟨buried, unnamed⟩ := gone before
      exact ⟨.inr ⟨buried, congrFun shows _⟩, unnamed.congr (by rw [same]) shows⟩

/-- **A sector that is not taken again is not written**: the sessions in which the sector of a
deleted inode may be opened until it is taken are among those that are handled. -/
theorem Vacated.handled (vacated : Vacated s e vacant) : ∃ buried, Handled s e buried ∧
    ∀ t, vacant t → buried t ∧ s.Unnamed e t.index := by
  induction vacated with
  | formatted formatted => exact ⟨_, .formatted formatted, fun _ => False.elim⟩
  | step _ tries stays stepped ih =>
    obtain ⟨buried, handled, gone⟩ := ih
    have tries := tries.mono fun t before => (gone t before).1
    exact ⟨_, handled.step tries stays stepped, fun t vacates =>
      vacates.buries handled tries stays stepped (gone t)⟩
  | failing fails _ ih =>
    obtain ⟨buried, handled, gone⟩ := ih
    exact ⟨buried, handled.failing fails, fun t before =>
      ⟨(gone t before).1, (gone t before).2.congr rfl rfl⟩⟩
  | @mounted s e vacant fs device config fs' _ stored same mounted ih =>
    obtain ⟨buried, handled, gone⟩ := ih
    have clears := handled.clears
    obtain ⟨strayed, settled⟩ := clears.settled
    obtain ⟨files, lost, inodes⟩ := settled.inodes
    have after := settled.mounted_after (settled.unguarded_of_stored stored) stored same mounted
      inodes
    refine ⟨_, handled.mounted stored same mounted, fun t before => ?_⟩
    obtain ⟨buried, unnamed⟩ := gone t before
    obtain ⟨kept, unnamed'⟩ := after.unnamed inodes (clears.cleared buried).1 False.elim unnamed
    exact ⟨.inr ⟨buried, kept⟩, unnamed'⟩

/-- The last close of a removed inode clears its sector, on a device that does not fail. -/
theorem Follows.clears {i : Nat} {h : Handle} (follows : s.Follows e) (found : e.handle i = some h)
    (last : e.openers h.sector = 1) (gone : e.isRemoved h.sector = true) :
    ∃ s', s.step (.close i) = .ok (.done, s') ∧
      (Inode.decode (s'.image h.sector.index)).isMarked = false := by
  obtain ⟨files, agrees⟩ := follows.agrees
  obtain ⟨s', told, -, closing⟩ := follows.closing (close_ensures agrees found)
  rw [step_handle (follows.handle_eq found) rfl]
  exact ⟨s', told, closing.clears last gone⟩

/-- An inode is made, opened, removed and closed. It is deleted, and its sector may be opened. -/
theorem exists_vacated_eleven : ∃ (s : Session 11) (e : Expected) (vacant : Sector → Prop),
    Vacated s e vacant ∧ vacant ⟨10⟩ ∧ e.isLive ⟨10⟩ = false := by
  have reliable : ∀ number kind b, (Device.filled 11 512 7).fails number kind b = false :=
    fun _ _ _ => rfl
  obtain ⟨fs, formatted, filled⟩ :=
    exists_format _ { slots := 1 } (by decide) (by decide) (by decide) reliable
  obtain ⟨s₁, created, filled₁⟩ :=
    filled.creates 0 (by decide) false Sector.root (by decide)
  have made : Expected.start.Legal (.create 0 false Sector.root) := trivial
  let e₁ := Expected.start.next (.create 0 false Sector.root) (.made ⟨10⟩)
  have live : e₁.Legal (.open ⟨10⟩) := rfl
  obtain ⟨_, s₂, opened, rfl, follows₂⟩ := filled₁.goes_of_legal live
  let e₂ := e₁.next (.open ⟨10⟩) .done
  have handle : e₂.Legal (.remove 0) := ⟨{ sector := ⟨10⟩ }, rfl, by decide, by decide⟩
  obtain ⟨_, s₃, removed, rfl, follows₃⟩ := follows₂.goes_of_legal handle
  let e₃ := e₂.next (.remove 0) .done
  have last : e₃.Legal (.close 0) := ⟨{ sector := ⟨10⟩ }, rfl⟩
  obtain ⟨s₄, closed, cleared⟩ := follows₃.clears (i := 0) (h := { sector := ⟨10⟩ }) rfl rfl rfl
  have vacated₁ := (Vacated.formatted formatted).step (.inl made.fair)
    (fun _ same => by cases same) created
  have vacated₂ := vacated₁.step (.inl live.fair) (fun _ same => by cases same) opened
  have vacated₃ := vacated₂.step (.inl handle.fair) (fun _ same => by cases same) removed
  have vacated₄ := vacated₃.step (.inl last.fair) (fun _ same => by cases same) closed
  have gone : (e₃.after s₄.image (.close 0) .done).isLive ⟨10⟩ = false := by
    rw [Expected.after, Expected.onHandle_eq (h := { sector := ⟨10⟩ }) rfl,
      Expected.released_cleared cleared]
    rfl
  exact ⟨s₄, _, _, vacated₄, .inl ⟨rfl, gone⟩, gone⟩

end Session

end SectorFs
