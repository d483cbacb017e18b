/-
# SectorFs.Proofs.Volume.Lifecycle — making, opening, closing and deleting files

A new file is all zeros in sectors that nothing else has (`create_spec`). What is
open follows the handles: `openAt_spec`, `allow_spec`, `deny_spec` and
`remove_spec` change the `Status` at one sector and no file. The last close of a
removed file takes it away with all its sectors, any other close leaves the
files alone (`close_spec`).
-/
import SectorFs.Proofs.Volume.Access

namespace SectorFs

set_option autoImplicit false

variable {m : Nat} {mayFail : Prop} {image image' : Image} {v v' : Volume m} {f f' : LiveFile}
  {files rest : List LiveFile} {l : Layout} {others : List Nat} {s : Sector}

/-- A sector that was cleared does not look like an inode. -/
theorem unmarked_cleared (image : Image) (s : Sector) :
    (Inode.decode (Function.update image s.index Inode.zero.encode s.index)).isMarked = false := by
  rw [Function.update_self, Inode.decode_encode]
  decide

namespace Volume

variable {node node' : LoadedInode}

/-! ## Making files -/

theorem take_spec {Q : Except Failure (Option Sector) → Volume m → Image → Prop} {count : Nat}
    (marks : v.free.Marks others) (small : m ≤ 0x100000000) (some_count : 0 < count)
    (none : Q (.ok none) v image)
    (taken : ∀ s free, free.Marks (List.range' s.index count ++ others) →
      Q (.ok (some s)) { v with free } image) :
    (take count : VolumeAction m _).Ensures m mayFail v image Q := by
  simp only [take, Action.ensures_bind, Action.ensures_get, Action.onward_ok]
  rcases FreeMap.allocate_spec marks small some_count with same | ⟨s, free, same, -, marks'⟩
  · rw [same]
    exact none
  · rw [same]
    exact taken s free marks'

theorem give_spec {Q : Except Failure Unit → Volume m → Image → Prop} {count : Nat}
    (marks : v.free.Marks (List.range' s.index count ++ others)) (small : m ≤ 0x100000000)
    (some_count : 0 < count)
    (given : ∀ free, free.Marks others → Q (.ok ()) { v with free } image) :
    (give s count : VolumeAction m _).Ensures m mayFail v image Q := by
  simp only [give, Action.ensures_bind, Action.ensures_get, Action.onward_ok]
  obtain ⟨free, same, marks'⟩ := FreeMap.release_spec small some_count marks
  rw [same]
  exact given free marks'

/-- A new inode of `length` bytes of zeros, at a sector that is taken for it. Where it needs index
blocks, a request that fails can leave sectors behind that belong to nothing (`leaked`). -/
theorem createAt_spec {Q : Except Failure Unit → Volume m → Image → Prop} {length : Nat}
    {isDirectory : Bool} {parent : Sector} (small : length ≤ maxFileBytes → m ≤ 0x100000000)
    (marks : v.free.Marks (s.index :: others)) (reserved : 0 ∈ s.index :: others)
    (ok : ∀ free image' (f' : LiveFile), length ≤ maxFileBytes → f'.sector = s → f'.Sound m image' →
      free.Marks (s.index :: others ++ f'.layout.owned) → (∀ t ∈ others, image' t = image t) →
      f'.content image' = List.replicate length 0 → Q (.ok ()) { v with free } image')
    (error : ∀ e free image' leaked, (¬ mayFail ∨ sectorsFor length ≤ 12 → leaked = []) →
      free.Marks (s.index :: others ++ leaked) →
      (∀ t ∈ others, image' t = image t) → Q (.error e) { v with free } image') :
    (createAt s length isDirectory parent : VolumeAction m _).Ensures m mayFail v image Q := by
  rw [createAt, Action.ensures_bind, Action.ensures_ensure]
  split
  case isFalse => exact error _ v.free image [] (fun _ => rfl) (by simpa using marks) fun _ _ => rfl
  case isTrue fits =>
    rw [decide_eq_true_eq] at fits
    have holds := @FileBlocks.holds_empty _ image _ _ marks reserved (small fits) isDirectory parent
    have fresh : (Inode.empty isDirectory parent).length = 0 := rfl
    rw [Action.onward_ok, Action.ensures_bind]
    refine onBlocks_spec ?_
    refine FileBlocks.growTo_spec holds (fun b' image' l' _ grown => ?_)
      fun e b' image' l' io same extended => ?_
    · have count : Layout.nothing.count = sectorsFor (Inode.empty isDirectory parent).length := by
        rw [fresh]
        rfl
      have new := grown.sound fits rfl count fun i _ inside => absurd inside (Nat.not_lt_zero i)
      have nodup := List.nodup_append'.1 grown.holds.marks.nodup
      have kept (t : Nat) (mem : t ∈ others) : image' t = image t :=
        grown.kept.others t (List.mem_cons_of_mem _ mem)
      simp only [Action.onward_ok, Action.ensures_bind, Action.ensures_liftExcept,
        Action.onFailure, Action.ensures_tryCatch, Action.ensures_writeInode]
      refine ⟨grown.holds.marks.inside _ (List.mem_append_left _ List.mem_cons_self), ?_,
        fun may => ?_⟩
      · refine ok _ _ ⟨s, b'.disk, l'⟩ fits rfl new grown.holds.marks (fun t mem => ?_) ?_
        · have other : t ≠ s.index := fun here => (List.nodup_cons.1 nodup.1).1 (here ▸ mem)
          rw [Function.update_of_ne other]
          exact kept t mem
        · have long : b'.disk.length = length := by
            rw [grown.length_eq fits, fresh, Nat.zero_max]
          have apart : s.index ∉ l'.owned := fun mem => nodup.2.2 List.mem_cons_self mem
          have same : ∀ t ∈ l'.owned,
              Function.update image' s.index b'.disk.encode t = image' t := fun t mem =>
            Function.update_of_ne (fun here : t = s.index => apart (here ▸ mem)) _ _
          refine List.ext_getElem? fun i => ?_
          rw [LiveFile.getElem?_content, List.getElem?_replicate, long]
          refine ite_congr rfl (fun inside => ?_) fun _ => rfl
          have le : b'.disk.length ≤ 512 * l'.count := new.length_le
          change some (l'.byte _ i) = _
          rw [grown.byte_eq same (by omega),
            if_neg (show ¬ i < 512 * Layout.nothing.count from Nat.not_lt_zero i)]
      · -- the inode could not be stored, and its blocks are given back
        rw [Action.ensures_discard]
        refine onBlocks_spec ?_
        refine FileBlocks.dissolve_spec grown.holds (fun b'' marks' => ?_)
          fun _ b'' n many le trimmed => ?_
        · exact error _ b''.free image' [] (fun _ => rfl) (by simpa using marks') kept
        · refine error _ b''.free image' _ ?_ trimmed.holds.marks kept
          rintro (never | direct)
          · exact absurd may never
          · have blocks : l'.count = max 0 (sectorsFor length) := grown.count
            omega
    · simp only [Action.onward_ok, Action.ensures_bind, Action.ensures_liftExcept,
        Action.onward_error]
      refine error e _ image' l'.owned (fun undone => ?_) extended.holds.marks fun t mem =>
        extended.kept.others t (List.mem_cons_of_mem _ mem)
      rw [same undone, Layout.owned_nothing]

/-- A volume with a file more. -/
theorem Sound.cons (sound : v.Sound image files) {free : FreeMap m} (new : f.Sound m image')
    (marks : free.Marks (f.sector.index :: files.flatMap LiveFile.owned ++ f.layout.owned))
    (kept : ∀ t ∈ files.flatMap LiveFile.owned, image' t = image t) :
    ({ v with free } : Volume m).Sound image' (f :: files) where
  small := sound.small
  marks := by
    refine marks.perm ?_
    rw [List.flatMap_cons, LiveFile.owned, List.cons_append, List.cons_append]
    exact List.perm_append_comm.cons _
  each g mem := by
    rcases List.mem_cons.1 mem with rfl | mem
    · exact new
    · exact (sound.each g mem).congr fun t own => kept t (List.mem_flatMap.2 ⟨g, mem, own⟩)
  zero := by
    rw [List.flatMap_cons]
    exact List.mem_append_right _ sound.zero
  loaded found := by
    obtain ⟨g, mem, same⟩ := sound.loaded found
    exact ⟨g, List.mem_cons_of_mem f mem, same⟩

theorem Sound.keep (sound : v.Sound image files) {free : FreeMap m}
    (marks : free.Marks (files.flatMap LiveFile.owned))
    (kept : ∀ t ∈ files.flatMap LiveFile.owned, image' t = image t) :
    ({ v with free } : Volume m).Sound image' files :=
  { sound with
    marks := marks
    each := fun g mem =>
      (sound.each g mem).congr fun t own => kept t (List.mem_flatMap.2 ⟨g, mem, own⟩) }

/-- No file has a sector that is none of theirs. -/
theorem sector_ne_of_not_mem (apart : s.index ∉ files.flatMap LiveFile.owned) :
    ∀ g ∈ files, g.sector ≠ s := fun g mem same =>
  apart (List.mem_flatMap.2 ⟨g, mem, by rw [← same]; exact List.mem_cons_self⟩)

/-- A new file stands in sectors that were not in use. Where none can be made no sector of another
is touched. -/
theorem create_spec {Q : Except Failure Sector → Volume m → Image → Prop} {length : Nat}
    {isDirectory : Bool} {parent : Sector} (small : m ≤ 0x100000000)
    (marks : v.free.Marks others) (reserved : 0 ∈ others)
    (ok : ∀ free image' (f' : LiveFile), f'.Sound m image' → f'.sector.index ∉ others →
      free.Marks (f'.sector.index :: others ++ f'.layout.owned) →
      (∀ t ∈ others, image' t = image t) → f'.content image' = List.replicate length 0 →
      Q (.ok f'.sector) { v with free } image')
    (error : ∀ e free image' leaked, (¬ mayFail ∨ sectorsFor length ≤ 12 → leaked = []) →
      free.Marks (others ++ leaked) → (∀ t ∈ others, image' t = image t) →
      Q (.error e) { v with free } image') :
    (create length isDirectory parent).Ensures m mayFail v image Q := by
  rw [create, Action.ensures_bind]
  refine take_spec marks small Nat.one_pos ?_ fun s free marks₁ => ?_
  · exact error _ v.free image [] (fun _ => rfl) (by simpa using marks) fun _ _ => rfl
  · rw [Action.onward_ok]
    simp only []
    rw [Action.ensures_bind]
    refine Action.Ensures.onFailure
      (P := fun r v' image' => (r = .ok () ∧ Q (.ok s) v' image') ∨
        ∃ e free leaked, r = .error e ∧ v' = { v with free } ∧
          (¬ mayFail ∨ sectorsFor length ≤ 12 → leaked = []) ∧
          free.Marks (s.index :: others ++ leaked) ∧ ∀ t ∈ others, image' t = image t)
      (createAt_spec (v := { v with free }) (fun _ => small) marks₁
        (List.mem_cons_of_mem _ reserved) ?_ ?_) ?_ ?_
    · rintro free' image' f' - rfl new marks' kept zeros
      exact .inl ⟨rfl, ok free' image' f' new (List.nodup_cons.1 marks₁.nodup).1 marks' kept zeros⟩
    · intro e free' image' leaked undone marks' kept
      exact .inr ⟨e, free', leaked, rfl, rfl, undone, marks', kept⟩
    · rintro a v' image' (⟨-, holds⟩ | ⟨e, free', leaked, same, -⟩)
      · exact holds
      · cases same
    · rintro e v' image' (⟨same, -⟩ | ⟨e', free', leaked, same, rfl, undone, marks', kept⟩)
      · cases same
      obtain rfl := Except.error.inj same
      refine give_spec marks' small Nat.one_pos fun free'' marks'' => ?_
      exact error e free'' image' leaked undone marks'' kept

/-! ## The open inodes -/

theorem exists_of_status {st : Status} (status : v.status s = some st) :
    ∃ node, v.find? s = some node ∧ node.openers = st.openers ∧ node.removed = st.removed ∧
      node.denials = st.denials := by
  obtain ⟨node, found, rfl⟩ := Option.map_eq_some_iff.1 status
  exact ⟨node, found, rfl, rfl, rfl⟩

/-- What is open at a sector once there is one handle more. -/
def Status.opened : Option Status → Status
  | none => ⟨1, false, 0⟩
  | some st => { st with openers := st.openers + 1 }

/-- A sector is loaded as the inode that it stores, unless it does not look like one. -/
theorem load_stored {Q : Except Failure Unit → Volume m → Image → Prop} (inside : s.index < m)
    (ok : (Inode.decode (image s.index)).isMarked = true → ∀ v', v'.free = v.free →
      v'.find? = Function.update v.find? s (some ⟨s, 1, false, 0, Inode.decode (image s.index)⟩) →
      Q (.ok ()) v' image)
    (unmarked : (Inode.decode (image s.index)).isMarked = false →
      Q (.error (.notAnInode s)) v image)
    (io : mayFail → Q (.error .io) v image) : (load s).Ensures m mayFail v image Q := by
  simp only [load, Action.ensures_bind, Action.ensures_readInode, Action.onward_ok,
    Action.onward_error, Action.ensures_ensure, Action.ensures_modify]
  refine ⟨inside, ?_, io⟩
  generalize Inode.decode (image s.index) = d at ok unmarked ⊢
  cases marked : d.isMarked with
  | true => exact ok marked _ rfl (find?_cons v.free _ v.inodes rfl)
  | false => exact unmarked marked

theorem load_spec {Q : Except Failure Unit → Volume m → Image → Prop} (file : f.Opens m image)
    (inside : f.sector.index < m)
    (ok : ∀ v', v'.free = v.free → v'.find? = Function.update v.find? f.sector
      (some ⟨f.sector, 1, false, 0, f.disk⟩) → Q (.ok ()) v' image)
    (io : mayFail → Q (.error .io) v image) :
    (load f.sector).Ensures m mayFail v image Q := by
  have stored : Inode.decode (image f.sector.index) = f.disk := file.inode
  refine load_stored inside (fun _ => ?_) (fun unmarked => ?_) io
  · rw [stored]
    exact ok
  · rw [stored, file.marked] at unmarked
    cases unmarked

/-- A sector that is not open opens as the inode that it stores. -/
theorem openAt_stored {Q : Except Failure Handle → Volume m → Image → Prop}
    (inside : s.index < m) (closed : v.find? s = none)
    (ok : (Inode.decode (image s.index)).isMarked = true → ∀ v', v'.free = v.free →
      v'.find? = Function.update v.find? s (some ⟨s, 1, false, 0, Inode.decode (image s.index)⟩) →
      Q (.ok { sector := s }) v' image)
    (unmarked : (Inode.decode (image s.index)).isMarked = false →
      Q (.error (.notAnInode s)) v image)
    (io : mayFail → Q (.error .io) v image) : (openAt s).Ensures m mayFail v image Q := by
  simp only [openAt, share, Action.ensures_bind, Action.ensures_get, Action.onward_ok, closed]
  exact load_stored inside ok unmarked io

/-- A file opens, and nothing else that is open changes. That cannot fail if it is open already. -/
theorem openAt_spec {Q : Except Failure Handle → Volume m → Image → Prop}
    (inside : f.sector.index < m) (opens : v.find? f.sector = none → f.Opens m image)
    (loaded : ∀ node, v.find? f.sector = some node → node.disk = f.disk)
    (ok : ∀ v', v'.free = v.free → v'.disks = Function.update v.disks f.sector (some f.disk) →
      v'.status = Function.update v.status f.sector (some (.opened (v.status f.sector))) →
      Q (.ok { sector := f.sector }) v' image)
    (io : mayFail → v.find? f.sector = none → Q (.error .io) v image) :
    (openAt f.sector).Ensures m mayFail v image Q := by
  simp only [openAt, share, Action.ensures_bind, Action.ensures_get, Action.onward_ok]
  cases found : v.find? f.sector with
  | some node =>
    simp only [Action.ensures_modify, Action.onward_ok, Action.ensures_pure]
    have alike : v.Alike (v.put { node with openers := node.openers + 1 }) :=
      alike_put found rfl rfl
    refine ok _ rfl ?_ ((status_put found ?_).trans ?_)
    · rw [alike.disks, ← loaded node found, ← disks_of_find? found, Function.update_eq_self]
    · rfl
    · rw [status, found]
      rfl
  | none =>
    refine load_spec (opens found) inside (fun v' free open_now => ?_) fun may => io may found
    rw [Action.onward_ok, Action.ensures_pure]
    refine ok v' free (disks_of_update open_now) ?_
    rw [status_of_find? open_now, status, found]
    rfl

/-- What is open once a handle was opened is the file, with the denials that there were. -/
theorem exists_of_opened (disks : v'.disks = Function.update v.disks f.sector (some f.disk))
    (status : v'.status = Function.update v.status f.sector (some (.opened (v.status f.sector)))) :
    v'.status f.sector = some (.opened (v.status f.sector)) ∧ ∃ node,
      v'.find? f.sector = some node ∧ node.disk = f.disk ∧
        node.denials = (Status.opened (v.status f.sector)).denials := by
  have open_now : v'.status f.sector = some (.opened (v.status f.sector)) := by
    rw [status, Function.update_self]
  obtain ⟨node, found, -, -, denials⟩ := exists_of_status open_now
  have disk := disks_of_find? found
  rw [disks, Function.update_self] at disk
  exact ⟨open_now, node, found, (Option.some.inj disk).symm, denials⟩

/-- The handle that allows writes again counts for one denial less. -/
theorem allow_spec {Q : Except Failure Handle → Volume m → Image → Prop} {h : Handle}
    {st : Status} (open_now : v.status h.sector = some st)
    (counted : h.deniesWrite = true → 0 < st.denials)
    (ok : ∀ v', v.Alike v' → v'.status = Function.update v.status h.sector
        (some { st with denials := st.denials - h.deniesWrite.toNat }) →
      Q (.ok { h with deniesWrite := false }) v' image) :
    (allow h).Ensures m mayFail v image Q := by
  obtain ⟨node, found, openers, removed, denials⟩ := exists_of_status open_now
  obtain ⟨sector, denies⟩ := h
  unfold allow
  cases denies with
  | false =>
    have same : v.status = Function.update v.status sector (some st) := by
      rw [← open_now, Function.update_eq_self]
    exact ok v ⟨rfl, rfl⟩ same
  | true =>
    have some_denial := counted rfl
    rw [if_pos rfl, undeny]
    simp only [Action.ensures_bind]
    refine node_spec found ?_
    simp only [Action.onward_ok, Action.ensures_bind, Action.ensures_require, decide_eq_true_eq,
      Action.ensures_modify, Action.ensures_pure, denials]
    refine ⟨some_denial, ok _ (alike_put found rfl rfl) ((status_put found ?_).trans ?_)⟩
    · rfl
    · simp only [openers, removed]
      rfl

theorem deny_spec {Q : Except Failure Handle → Volume m → Image → Prop} {h : Handle} {st : Status}
    (open_now : v.status h.sector = some st)
    (counted : h.deniesWrite = false → st.denials < st.openers)
    (ok : ∀ v', v.Alike v' → v'.status = Function.update v.status h.sector
        (some { st with denials := st.denials + (!h.deniesWrite).toNat }) →
      Q (.ok { h with deniesWrite := true }) v' image) :
    (deny h).Ensures m mayFail v image Q := by
  obtain ⟨node, found, openers, removed, denials⟩ := exists_of_status open_now
  obtain ⟨sector, denies⟩ := h
  unfold deny
  cases denies with
  | true =>
    have same : v.status = Function.update v.status sector (some st) := by
      rw [← open_now, Function.update_eq_self]
    exact ok v ⟨rfl, rfl⟩ same
  | false =>
    have fewer := counted rfl
    rw [if_neg Bool.false_ne_true]
    simp only [Action.ensures_bind]
    refine node_spec found ?_
    simp only [Action.onward_ok, Action.ensures_bind, Action.ensures_require, decide_eq_true_eq,
      Action.ensures_modify, Action.ensures_pure, denials, openers]
    refine ⟨fewer, ok _ (alike_put found rfl rfl) ((status_put found ?_).trans ?_)⟩
    · rfl
    · simp only [removed]
      rfl

theorem remove_spec {Q : Except Failure Unit → Volume m → Image → Prop} {h : Handle} {st : Status}
    (open_now : v.status h.sector = some st)
    (ok : ∀ v', v.Alike v' → v'.status =
      Function.update v.status h.sector (some { st with removed := true }) → Q (.ok ()) v' image) :
    (remove h).Ensures m mayFail v image Q := by
  obtain ⟨node, found, openers, removed, denials⟩ := exists_of_status open_now
  rw [remove, Action.ensures_bind]
  refine node_spec found ?_
  simp only [Action.onward_ok, Action.ensures_modify]
  refine ok _ (alike_put found rfl rfl) ((status_put found ?_).trans ?_)
  · rfl
  · simp only [openers, denials]

/-! ## Closing -/

/-- A sector that is in use for something else can be written. -/
theorem holds_update {b : FileBlocks m} {t : Nat} (holds : b.Holds image l others)
    (mem : t ∈ others) (x : Block 512) : b.Holds (Function.update image t x) l others :=
  { holds with
    stored := holds.stored.congr fun u index => Function.update_of_ne (fun here : u = t =>
      (List.nodup_append'.1 holds.marks.nodup).2.2 mem (here ▸ Layout.index_mem_owned index)) _ _ }

/-- Deleting an inode clears its sector and then gives all its sectors back. If a request fails it
is still there as it was, or it is gone and some of its sectors belong to nothing. -/
theorem delete_spec {Q : Except Failure Unit → Volume m → Image → Prop}
    (holds : (⟨node.disk, v.free⟩ : FileBlocks m).Holds image l (node.sector.index :: others))
    (refused : mayFail → Q (.error .io) v image)
    (gone : ∀ r free leaked, (¬ mayFail → r = .ok () ∧ leaked = []) →
      free.Marks (others ++ leaked) →
      Q r { v with free } (Function.update image node.sector.index Inode.zero.encode)) :
    (delete node).Ensures m mayFail v image Q := by
  have cleared := holds_update holds List.mem_cons_self Inode.zero.encode
  simp only [delete, Action.ensures_bind, Action.ensures_writeInode, Action.onward_ok]
  refine ⟨holds.marks.inside _ (List.mem_append_left _ List.mem_cons_self), onBlocks_spec ?_,
    refused⟩
  refine FileBlocks.dissolve_spec cleared (fun b' marks => ?_) fun may b' n _ _ trimmed => ?_
  · simp only [Action.onward_ok, Action.ensures_bind, Action.ensures_liftExcept]
    refine give_spec marks holds.stored.small Nat.one_pos fun free marks' => ?_
    exact gone _ free [] (fun _ => ⟨rfl, rfl⟩) (by simpa using marks')
  · simp only [Action.onward_ok, Action.ensures_bind, Action.ensures_liftExcept,
      Action.onward_error]
    refine gone _ b'.free (node.sector.index :: (l.trim n).owned) (fun never => absurd may never) ?_
    exact trimmed.holds.marks.perm List.perm_middle.symm

/-- An inode without handles is no longer open. If it was removed it is deleted with that, or still
there if its sector could not be cleared. -/
theorem unload_spec {Q : Except Failure Unit → Volume m → Image → Prop}
    (holds : (⟨node.disk, v.free⟩ : FileBlocks m).Holds image l (node.sector.index :: others))
    (kept : (node.removed = true → mayFail) → ∀ r, (node.removed = false → r = .ok ()) →
      Q r (v.erase node.sector) image)
    (gone : node.removed = true → ∀ r free leaked, (¬ mayFail → r = .ok () ∧ leaked = []) →
      free.Marks (others ++ leaked) → Q r (({ v with free } : Volume m).erase node.sector)
        (Function.update image node.sector.index Inode.zero.encode)) :
    (unload node).Ensures m mayFail v image Q := by
  rw [unload]
  simp only [Action.onFailure, Action.ensures_bind, Action.ensures_tryCatch]
  cases removed : node.removed with
  | false => exact kept (fun goes => by rw [removed] at goes; cases goes) _ fun _ => rfl
  | true =>
    rw [if_pos rfl]
    refine delete_spec holds (fun may => ?_) fun r free leaked never marks => ?_
    · exact kept (fun _ => may) _ fun stays => by rw [removed] at stays; cases stays
    · cases r with
      | ok => exact gone removed _ free leaked never marks
      | error e => exact gone removed _ free leaked never marks

/-- What is open at a sector once the handle `h` is closed. -/
def Status.closed (st : Status) (h : Handle) : Option Status :=
  if st.openers = 1 then none
  else some ⟨st.openers - 1, st.removed, st.denials - h.deniesWrite.toNat⟩

theorem Status.closed_last {openers denials : Nat} {removed : Bool} (last : openers = 1)
    (h : Handle) : Status.closed ⟨openers, removed, denials⟩ h = none :=
  if_pos last

/-- The first part of a close: the handle is no longer counted. -/
def release (h : Handle) : VolumeAction m LoadedInode := do
  let h ← allow h
  let node ← Volume.node h
  Action.require (0 < node.openers) (.closedInode h.sector.index)
  modify fun v => v.put { node with openers := node.openers - 1 }
  return node

theorem close_eq (h : Handle) : (close h : VolumeAction m Unit) =
    release h >>= fun node => if node.openers = 1 then unload node else pure () := by
  simp only [close, release, bind_assoc, pure_bind]

theorem release_spec {Q : Except Failure LoadedInode → Volume m → Image → Prop} {h : Handle}
    {st : Status} (open_now : v.status h.sector = some st) (open_handles : 0 < st.openers)
    (counted : h.deniesWrite = true → 0 < st.denials)
    (ok : ∀ v' node, node.sector = h.sector → node.openers = st.openers →
      node.removed = st.removed → v.disks h.sector = some node.disk → v.Alike v' →
      v'.status = Function.update v.status h.sector
        (some ⟨st.openers - 1, st.removed, st.denials - h.deniesWrite.toNat⟩) →
      Q (.ok node) v' image) :
    (release h).Ensures m mayFail v image Q := by
  rw [release, Action.ensures_bind]
  refine allow_spec open_now counted fun v₁ alike₁ status₁ => ?_
  have open₁ : v₁.status h.sector =
      some { st with denials := st.denials - h.deniesWrite.toNat } := by
    rw [status₁, Function.update_self]
  obtain ⟨node, found, openers, removed, denials⟩ := exists_of_status open₁
  rw [Action.onward_ok, Action.ensures_bind]
  refine node_spec found ?_
  simp only [Action.onward_ok, Action.ensures_bind, Action.ensures_require, decide_eq_true_eq,
    Action.ensures_modify, Action.ensures_pure, openers]
  refine ⟨open_handles, ok _ node (sector_of_find? found) openers removed ?_
    (alike₁.trans (alike_put found rfl rfl)) ?_⟩
  · rw [← alike₁.disks, disks_of_find? found]
  · refine (status_put found ?_).trans ?_
    · rfl
    · rw [status₁, Function.update_idem, removed, denials]

/-- A close takes the handle away, and the inode is unloaded with its last handle. -/
theorem releases_spec {Q : Except Failure Unit → Volume m → Image → Prop} {h : Handle} {st : Status}
    (open_now : v.status h.sector = some st) (open_handles : 0 < st.openers)
    (counted : h.deniesWrite = true → 0 < st.denials)
    (more : st.openers ≠ 1 → ∀ v', v.Alike v' →
      v'.status = Function.update v.status h.sector (st.closed h) → Q (.ok ()) v' image)
    (last : st.openers = 1 → ∀ v' node, node.sector = h.sector → node.removed = st.removed →
      v.disks h.sector = some node.disk → v.Alike v' → Function.update v'.status h.sector none =
        Function.update v.status h.sector none → (unload node).Ensures m mayFail v' image Q) :
    (close h).Ensures m mayFail v image Q := by
  rw [close_eq, Action.ensures_bind]
  refine release_spec open_now open_handles counted
    fun v' node sector openers removed disk alike status => ?_
  rw [Action.onward_ok, openers]
  split
  case isFalse several =>
    rw [Action.ensures_pure]
    refine more several _ alike ?_
    rw [status, Status.closed, if_neg several]
  case isTrue only =>
    refine last only v' node sector removed disk alike ?_
    rw [status, Function.update_idem]

/-- A handle is closed to a file that stays. -/
theorem closeKept_spec {Q : Except Failure Unit → Volume m → Image → Prop} {h : Handle}
    {st : Status} (open_now : v.status h.sector = some st) (open_handles : 0 < st.openers)
    (stays : st.removed = false) (counted : h.deniesWrite = true → 0 < st.denials)
    (ok : ∀ v', v'.free = v.free → v'.disks = (if st.openers = 1 then
        Function.update v.disks h.sector none else v.disks) →
      v'.status = Function.update v.status h.sector (st.closed h) → Q (.ok ()) v' image) :
    (close h).Ensures m mayFail v image Q := by
  refine releases_spec open_now open_handles counted (fun several v' alike status => ?_)
    fun only v' node sector removed disk alike status => ?_
  · exact ok v' alike.free (alike.disks.trans (if_neg several).symm) status
  · rw [unload]
    simp only [removed, stays, Action.onFailure, Action.ensures_bind, Action.ensures_tryCatch]
    refine ok _ alike.free ?_ ?_
    · rw [disks_erase, sector, alike.disks, if_pos only]
    · rw [status_erase, sector, status, Status.closed, if_pos only]

/-- A close changes what is open at one sector. The last close of a removed file takes the file
away, unless its sector cannot be cleared. -/
theorem close_spec {Q : Except Failure Unit → Volume m → Image → Prop} {h : Handle} {st : Status}
    (holds : (⟨f.disk, v.free⟩ : FileBlocks m).Holds image f.layout (f.sector.index :: others))
    (at_sector : h.sector = f.sector) (loaded : v.disks f.sector = some f.disk)
    (open_now : v.status f.sector = some st) (open_handles : 0 < st.openers)
    (counted : h.deniesWrite = true → 0 < st.denials)
    (more : st.openers ≠ 1 → ∀ v', v.Alike v' →
      v'.status = Function.update v.status f.sector (st.closed h) → Q (.ok ()) v' image)
    (shut : st.openers = 1 → (st.removed = true → mayFail) → ∀ r v',
      (st.removed = false → r = .ok ()) → v'.free = v.free →
      v'.disks = Function.update v.disks f.sector none →
      v'.status = Function.update v.status f.sector none → Q r v' image)
    (gone : st.openers = 1 → st.removed = true → ∀ r v' leaked,
      (¬ mayFail → r = .ok () ∧ leaked = []) → v'.free.Marks (others ++ leaked) →
      v'.disks = Function.update v.disks f.sector none →
      v'.status = Function.update v.status f.sector none →
      Q r v' (Function.update image f.sector.index Inode.zero.encode)) :
    (close h).Ensures m mayFail v image Q := by
  rw [← at_sector] at open_now loaded holds more shut gone
  refine releases_spec open_now open_handles counted more
    fun only v' node sector removed disk alike status => ?_
  rw [loaded] at disk
  rw [Option.some.inj disk, ← sector, ← alike.free] at holds
  have status' (free : FreeMap m) : (({ v' with free } : Volume m).erase node.sector).status =
      Function.update v.status h.sector none := by
    rw [status_erase, sector]
    exact status
  have disks' (free : FreeMap m) : (({ v' with free } : Volume m).erase node.sector).disks =
      Function.update v.disks h.sector none := by
    rw [disks_erase, sector, ← alike.disks]
    rfl
  refine unload_spec holds (fun may r result => ?_) fun goes r free leaked never marks => ?_
  · exact shut only (removed ▸ may) r _ (removed ▸ result) alike.free (disks' v'.free)
      (status' v'.free)
  · have after := gone only (removed ▸ goes) r _ leaked never marks (disks' free) (status' free)
    rwa [← sector] at after

end Volume

end SectorFs
