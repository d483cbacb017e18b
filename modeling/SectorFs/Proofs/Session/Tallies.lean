/-
# SectorFs.Proofs.Session.Tallies — what is live, and what is open

`Expected.Matches e v files`: the live files of the volume are the live inodes of
`e`, the free map's among them, and what is open at a sector is what the handles of `e`
say. What the files hold does not matter here. One lemma for each way in which an
operation changes what is live or open.

`Expected.Tallies` adds what only runs keep that leave the free map's file alone and
do not remove the root directory: the map's file has its size, and the root is live.
-/
import SectorFs.Proofs.Session.Expected

namespace SectorFs

set_option autoImplicit false

variable {m : Nat} {v v' : Volume m} {e e' : Expected} {files rest : List LiveFile}
  {f f' : LiveFile} {s t : Sector} {h : Handle} {i : Nat}

namespace Expected

structure Matches (e : Expected) (v : Volume m) (files : List LiveFile) : Prop where
  live {s : Sector} : e.isLive s = true ↔ ∃ f ∈ files, f.sector = s
  status : v.status = e.status
  held {s : Sector} : e.isRemoved s = true → 0 < e.openers s
  map_live : e.isLive Sector.freeMap = true
  map_stays : e.isRemoved Sector.freeMap = false

structure Tallies (e : Expected) (v : Volume m) (files : List LiveFile) : Prop
    extends e.Matches v files where
  length : ∀ f ∈ files, f.sector = Sector.freeMap → f.disk.length = bytesFor m
  root_live : e.isLive Sector.root = true
  root_stays : e.isRemoved Sector.root = false

theorem status_of_pos (pos : 0 < e.openers s) :
    e.status s = some ⟨e.openers s, e.isRemoved s, e.denials s⟩ :=
  if_neg (Nat.pos_iff_ne_zero.1 pos)

theorem status_of_zero (zero : e.openers s = 0) : e.status s = none := if_pos zero

theorem status_congr (openers : e'.openers s = e.openers s)
    (removed : e'.isRemoved s = e.isRemoved s) (denials : e'.denials s = e.denials s) :
    e'.status s = e.status s := by
  rw [status, status, openers, removed, denials]

/-- Two descriptions that differ at one sector. -/
theorem status_eq_update {o : Option Volume.Status} (here : e'.status s = o)
    (other : ∀ t, t ≠ s → e'.status t = e.status t) :
    e'.status = Function.update e.status s o := by
  funext t
  by_cases same : t = s
  · rw [same, Function.update_self, here]
  · rw [Function.update_of_ne same, other t same]

theorem status_closed (found : e.handle i = some h) : (e.withHandle i none).status =
    Function.update e.status h.sector (Volume.Status.closed
      ⟨e.openers h.sector, e.isRemoved h.sector, e.denials h.sector⟩ h) := by
  have openers := openers_forget found
  have denied := denials_forget found
  have removed (t : Sector) : (e.withHandle i none).isRemoved t = e.isRemoved t := rfl
  refine status_eq_update ?_ fun t other => ?_
  · have fewer := openers h.sector
    have here := denied h.sector
    rw [decide_eq_true (Eq.refl h.sector), Bool.toNat_true] at fewer
    rw [decide_eq_true (Eq.refl h.sector), Bool.true_and] at here
    rw [Volume.Status.closed, status, removed]
    refine if_congr ?_ rfl ?_
    · dsimp only
      omega
    · dsimp only
      rw [← fewer, ← here, Nat.add_sub_cancel, Nat.add_sub_cancel]
  · have fewer := openers t
    have there := denied t
    rw [decide_eq_false (Ne.symm other)] at fewer there
    exact status_congr fewer (removed t) there

theorem isLive_withFile (e : Expected) (s t : Sector) (file : Option ExpectedFile) :
    (e.withFile s file).isLive t = if t = s then file.isSome else e.isLive t := by
  simp only [isLive, withFile, Function.update_apply]
  split <;> rfl

theorem isRemoved_withFile (e : Expected) (s t : Sector) (file : Option ExpectedFile) :
    (e.withFile s file).isRemoved t =
      if t = s then file.any ExpectedFile.removed else e.isRemoved t := by
  simp only [isRemoved, withFile, Function.update_apply]
  split <;> rfl

theorem status_withFile {file : Option ExpectedFile}
    (removed : (e.withFile s file).isRemoved t = e.isRemoved t) :
    (e.withFile s file).status t = e.status t := by
  rw [status, status, removed]
  rfl

theorem files_withFile_self (e : Expected) (s : Sector) (file : Option ExpectedFile) :
    (e.withFile s file).files s = file :=
  Function.update_self _ _ _

theorem files_withFile_of_ne (e : Expected) (file : Option ExpectedFile) (other : t ≠ s) :
    (e.withFile s file).files t = e.files t :=
  Function.update_of_ne other _ _

theorem none_of_dead (dead : e.isLive s = false) : e.files s = none := by
  rwa [isLive, Option.isSome_eq_false_iff, Option.isNone_iff_eq_none] at dead

/-- One handle less, the last one of an inode that was removed and could not be deleted: it is there
as if it had not been removed. -/
def spared (e : Expected) (i : Nat) (h : Handle) : Expected :=
  (e.withHandle i none).withFile h.sector
    ((e.files h.sector).map fun file => { file with removed := false })

/-- Nothing differs but at one sector. -/
structure SameBut (e e' : Expected) (s : Sector) : Prop where
  isLive {t : Sector} : t ≠ s → e'.isLive t = e.isLive t
  isRemoved {t : Sector} : t ≠ s → e'.isRemoved t = e.isRemoved t
  openers {t : Sector} : t ≠ s → e'.openers t = e.openers t
  denials {t : Sector} : t ≠ s → e'.denials t = e.denials t

theorem sameBut_withFile (e : Expected) (s : Sector) (file : Option ExpectedFile) :
    e.SameBut (e.withFile s file) s where
  isLive other := by rw [isLive_withFile, if_neg other]
  isRemoved other := by rw [isRemoved_withFile, if_neg other]
  openers _ := rfl
  denials _ := rfl

theorem sameBut_forget (found : e.handle i = some h) (file : Option ExpectedFile) :
    e.SameBut ((e.withHandle i none).withFile h.sector file) h.sector where
  isLive other := by
    rw [isLive_withFile, if_neg other]
    rfl
  isRemoved other := by
    rw [isRemoved_withFile, if_neg other]
    rfl
  openers {t} other := by
    have fewer := openers_forget found t
    rw [decide_eq_false (Ne.symm other)] at fewer
    exact fewer
  denials {t} other := by
    have there := denials_forget found t
    rw [decide_eq_false (Ne.symm other)] at there
    exact there

theorem openers_of_last (found : e.handle i = some h) (last : e.openers h.sector = 1)
    (file : Option ExpectedFile) :
    ((e.withHandle i none).withFile h.sector file).openers h.sector = 0 := by
  have fewer := openers_forget found h.sector
  rw [decide_eq_true rfl, Bool.toNat_true, last] at fewer
  exact Nat.add_right_cancel fewer

theorem isLive_remounted (e : Expected) (config : CacheSetup) (s : Sector) :
    (e.next (.remount config) .done).isLive s = e.isLive s := by
  rw [isLive, isLive]
  exact Option.isSome_map

theorem isRemoved_remounted (e : Expected) (config : CacheSetup) (s : Sector) :
    (e.next (.remount config) .done).isRemoved s = false := by
  rw [isRemoved]
  change ((e.files s).map _).any _ = false
  cases e.files s <;> rfl

theorem ne_of_isRemoved (gone : e.isRemoved s = true) (stays : e.isRemoved t = false) : s ≠ t := by
  rintro rfl
  rw [stays] at gone
  cases gone

namespace Matches

variable (same : e.Matches v files)
include same

theorem perm {files' : List LiveFile} (perm : files.Perm files') : e.Matches v files' :=
  { same with
    live := by
      intro s
      rw [same.live]
      exact exists_congr fun f => and_congr_left fun _ => perm.mem_iff }

/-- The file of a live inode, before the others. -/
theorem exists_perm (live : e.isLive s = true) :
    ∃ f rest, f.sector = s ∧ files.Perm (f :: rest) := by
  obtain ⟨f, mem, at_sector⟩ := same.live.1 live
  obtain ⟨front, back, rfl⟩ := List.append_of_mem mem
  exact ⟨f, front ++ back, at_sector, List.perm_middle⟩

theorem status_handle (found : e.handle i = some h) :
    v.status h.sector = some ⟨e.openers h.sector, e.isRemoved h.sector, e.denials h.sector⟩ := by
  rw [same.status]
  exact status_of_pos (openers_pos found)

theorem status_of_handle (found : e.handle i = some h) (at_sector : f.sector = h.sector) :
    v.status f.sector = some ⟨e.openers h.sector, e.isRemoved h.sector, e.denials h.sector⟩ := by
  rw [at_sector]
  exact same.status_handle found

/-- What has a handle is live. -/
theorem live_of_pos (loaded : ∀ {s : Sector} {d : Inode}, v.disks s = some d →
      ∃ f ∈ files, f.sector = s ∧ f.disk = d) (pos : 0 < e.openers s) : e.isLive s = true := by
  have open_now := congrFun same.status s
  rw [status_of_pos pos] at open_now
  obtain ⟨node, found, -⟩ := Volume.exists_of_status open_now
  obtain ⟨f, mem, at_sector, -⟩ := loaded (Volume.disks_of_find? found)
  exact same.live.2 ⟨f, mem, at_sector⟩

/-- Nobody keeps the free map's file from being stored. -/
theorem idle_map (free : e.Unguarded) : Volume.Status.Idle (v.status Sector.freeMap) := by
  intro st open_now
  rw [same.status, Expected.status] at open_now
  split at open_now
  · cases open_now
  · cases open_now
    exact ⟨Nat.pos_of_ne_zero (by assumption), same.map_stays, free⟩

/-- The files were replaced by others at their sectors. -/
theorem map {g : LiveFile → LiveFile} (sector : ∀ f ∈ files, (g f).sector = f.sector) :
    e.Matches v (files.map g) :=
  { same with
    live := by
      intro s
      rw [same.live]
      constructor
      · rintro ⟨f, mem, at_sector⟩
        exact ⟨g f, List.mem_map_of_mem mem, (sector f mem).trans at_sector⟩
      · rintro ⟨_, mem, at_sector⟩
        obtain ⟨f, mem', rfl⟩ := List.mem_map.1 mem
        exact ⟨f, mem', (sector f mem').symm.trans at_sector⟩ }

/-! ## Handles come and go -/

/-- The same inodes are live and removed, and handles changed. -/
theorem keep (live : e'.isLive = e.isLive) (removed : e'.isRemoved = e.isRemoved)
    (status : v'.status = e'.status) (held : ∀ s, e.isRemoved s = true → 0 < e'.openers s) :
    e'.Matches v' files where
  live := by
    rw [live]
    exact same.live
  status := status
  held gone := held _ (removed ▸ gone)
  map_live := live ▸ same.map_live
  map_stays := removed ▸ same.map_stays

theorem status_opened (s : Sector) : (e.opened s).status =
    Function.update e.status s (some (.opened (e.status s))) := by
  have removed (t : Sector) : (e.opened s).isRemoved t = e.isRemoved t := rfl
  refine status_eq_update ?_ fun t other => ?_
  · have more := openers_opened e s s
    rw [decide_eq_true rfl, Bool.toNat_true] at more
    rw [status_of_pos (by omega), more, denials_opened, removed]
    by_cases zero : e.openers s = 0
    · have stays : e.isRemoved s = false := by
        by_contra gone
        have := same.held (eq_true_of_ne_false gone)
        omega
      have free : e.denials s = 0 := Nat.le_zero.1 (zero ▸ denials_le_openers e s)
      rw [status_of_zero zero, zero, stays, free]
      rfl
    · rw [status_of_pos (Nat.pos_of_ne_zero zero)]
      rfl
  · refine status_congr ?_ (removed t) (denials_opened e s t)
    rw [openers_opened, decide_eq_false (Ne.symm other)]
    rfl

theorem opened (status : v'.status =
    Function.update v.status s (some (.opened (v.status s)))) :
    (e.opened s).Matches v' files := by
  refine same.keep rfl rfl ?_ fun t gone => ?_
  · rw [status, same.status, same.status_opened]
  · rw [openers_opened]
    exact Nat.add_pos_left (same.held gone) _

theorem withHandle {deniesWrite : Bool} {denials : Nat} (found : e.handle i = some h)
    (counted : denials + h.deniesWrite.toNat = e.denials h.sector + deniesWrite.toNat)
    (status : v'.status = Function.update v.status h.sector
      (some ⟨e.openers h.sector, e.isRemoved h.sector, denials⟩)) :
    (e.withHandle i (some { h with deniesWrite })).Matches v' files := by
  have openers := openers_withHandle found deniesWrite
  have denied := denials_withHandle found deniesWrite
  have removed (t : Sector) :
      (e.withHandle i (some { h with deniesWrite })).isRemoved t = e.isRemoved t := rfl
  refine same.keep rfl rfl ?_ fun t gone => ?_
  · rw [status, same.status]
    refine (status_eq_update ?_ fun t other => ?_).symm
    · have here := denied h.sector
      rw [decide_eq_true (Eq.refl h.sector), Bool.true_and, Bool.true_and] at here
      rw [status_of_pos (by rw [openers]; exact openers_pos found), openers, removed]
      have equal : (e.withHandle i (some { h with deniesWrite })).denials h.sector = denials := by
        omega
      rw [equal]
    · refine status_congr (openers t) (removed t) ?_
      have there := denied t
      rw [decide_eq_false (Ne.symm other), Bool.false_and, Bool.false_and] at there
      exact there
  · rw [openers]
    exact same.held gone

/-- A handle was closed, and its file stays. -/
theorem closed (found : e.handle i = some h)
    (stays : ¬ (e.openers h.sector = 1 ∧ e.isRemoved h.sector = true))
    (status : v'.status = Function.update v.status h.sector
      (Volume.Status.closed ⟨e.openers h.sector, e.isRemoved h.sector, e.denials h.sector⟩ h)) :
    (e.closed i h).Matches v' files := by
  rw [Expected.closed, if_neg stays]
  have openers := openers_forget found
  refine same.keep rfl rfl ?_ fun t gone => ?_
  · rw [status, same.status, status_closed found]
  · have fewer := openers t
    have pos := same.held gone
    by_cases here : h.sector = t
    · subst here
      have more : e.openers h.sector ≠ 1 := fun one => stays ⟨one, gone⟩
      rw [decide_eq_true rfl, Bool.toNat_true] at fewer
      omega
    · rw [decide_eq_false here, Bool.toNat_false] at fewer
      omega

/-! ## Files change -/

omit same in
/-- A live file was replaced by one at the same sector. -/
theorem replace (same : e.Matches v (f :: rest)) (sector : f'.sector = f.sector)
    (status : v'.status = v.status) : e.Matches v' (f' :: rest) :=
  { same with
    live := by
      intro s
      rw [same.live]
      simp [sector]
    status := status.trans same.status }

/-- What is known of one inode changed, which is not the free map's. -/
theorem change {files' : List LiveFile} (but : e.SameBut e' s) (map : s ≠ Sector.freeMap)
    (live : e'.isLive s = true ↔ ∃ f ∈ files', f.sector = s)
    (others : ∀ t, t ≠ s → ((∃ f ∈ files', f.sector = t) ↔ ∃ f ∈ files, f.sector = t))
    (status : v'.status = Function.update v.status s (e'.status s))
    (held : e'.isRemoved s = true → 0 < e'.openers s) : e'.Matches v' files' where
  live := by
    intro t
    by_cases here : t = s
    · rw [here]
      exact live
    · rw [but.isLive here, same.live, others t here]
  status := by
    rw [status, same.status]
    exact (status_eq_update rfl fun t other =>
      status_congr (but.openers other) (but.isRemoved other) (but.denials other)).symm
  held {t} gone := by
    by_cases here : t = s
    · rw [here] at gone ⊢
      exact held gone
    · rw [but.isRemoved here] at gone
      rw [but.openers here]
      exact same.held gone
  map_live := (but.isLive map.symm).trans same.map_live
  map_stays := (but.isRemoved map.symm).trans same.map_stays

/-- Where no file has a sector, no inode is live. -/
theorem dead_of_fresh (fresh : ∀ g ∈ files, g.sector ≠ s) : e.isLive s = false := by
  rw [Bool.eq_false_iff, ne_eq, same.live]
  rintro ⟨g, mem, here⟩
  exact fresh g mem here

/-- A file was made. -/
theorem created (bytes : List UInt8) (fresh : ∀ g ∈ files, g.sector ≠ f.sector)
    (status : v'.status = v.status) :
    (e.withFile f.sector (some ⟨bytes, false⟩)).Matches v' (f :: files) := by
  have dead := same.dead_of_fresh fresh
  have map : f.sector ≠ Sector.freeMap := by
    intro here
    rw [here, same.map_live] at dead
    cases dead
  refine same.change (sameBut_withFile _ _ _) map ?_ (fun t differs => ?_) ?_ fun gone => ?_
  · rw [isLive_withFile, if_pos rfl]
    exact iff_of_true rfl ⟨f, List.mem_cons_self, rfl⟩
  · simp [Ne.symm differs]
  · rw [status, status_withFile ?_, ← same.status, Function.update_eq_self]
    rw [isRemoved_withFile, if_pos rfl, isRemoved, none_of_dead dead]
    rfl
  · rw [isRemoved_withFile, if_pos rfl] at gone
    cases gone

/-- An inode was removed, and is still open. -/
theorem removed {file : ExpectedFile} (found : e.handle i = some h)
    (before : e.files h.sector = some file) (map : h.sector ≠ Sector.freeMap)
    (status : v'.status = Function.update v.status h.sector
      (some ⟨e.openers h.sector, true, e.denials h.sector⟩)) :
    (e.withFile h.sector (some { file with removed := true })).Matches v' files := by
  have pos : 0 < (e.withFile h.sector (some { file with removed := true })).openers h.sector :=
    openers_pos found
  refine same.change (sameBut_withFile _ _ _) map ?_ (fun _ _ => Iff.rfl) ?_ fun _ => pos
  · rw [isLive_withFile, if_pos rfl, ← same.live, isLive, before]
    exact iff_of_true rfl rfl
  · rw [status, status_of_pos pos, isRemoved_withFile, if_pos rfl]
    rfl

omit same in
/-- The last handle of a removed inode was closed, and the inode is gone. -/
theorem deleted (same : e.Matches v (f :: rest)) (others : ∀ g ∈ rest, g.sector ≠ f.sector)
    (found : e.handle i = some h) (at_sector : f.sector = h.sector)
    (last : e.openers h.sector = 1) (gone : e.isRemoved h.sector = true)
    (status : v'.status = Function.update v.status h.sector none) :
    (e.closed i h).Matches v' rest := by
  rw [Expected.closed, if_pos ⟨last, gone⟩]
  refine same.change (sameBut_forget found none) (ne_of_isRemoved gone same.map_stays) ?_
    (fun t differs => ?_) ?_ fun removed => ?_
  · rw [isLive_withFile, if_pos rfl]
    refine iff_of_false Bool.false_ne_true ?_
    rintro ⟨g, mem, at_g⟩
    exact others g mem (at_g.trans at_sector.symm)
  · simp [at_sector, Ne.symm differs]
  · rw [status, status_of_zero (openers_of_last found last none)]
  · rw [isRemoved_withFile, if_pos rfl] at removed
    cases removed

omit same in
/-- The last handle of a removed inode was closed, and the inode is still there. -/
theorem spared (same : e.Matches v (f :: rest)) (sector : f'.sector = f.sector)
    (found : e.handle i = some h) (at_sector : f.sector = h.sector)
    (last : e.openers h.sector = 1) (gone : e.isRemoved h.sector = true)
    (status : v'.status = Function.update v.status h.sector none) :
    (e.spared i h).Matches v' (f' :: rest) := by
  have live : e.isLive h.sector = true := same.live.2 ⟨f, List.mem_cons_self, at_sector⟩
  rw [Expected.spared]
  refine same.change (sameBut_forget found _) (ne_of_isRemoved gone same.map_stays) ?_
    (fun t differs => ?_) ?_ fun removed => ?_
  · rw [isLive_withFile, if_pos rfl, Option.isSome_map]
    exact iff_of_true live ⟨f', List.mem_cons_self, sector.trans at_sector⟩
  · simp [sector]
  · rw [status, status_of_zero (openers_of_last found last _)]
  · rw [isRemoved_withFile, if_pos rfl] at removed
    cases known : e.files h.sector with
    | none => rw [known] at removed; cases removed
    | some file => rw [known] at removed; cases removed

/-- Everything in memory was forgotten, and read back. -/
theorem remounted (config : CacheSetup) (closed : v'.status = fun _ => none) :
    (e.next (.remount config) .done).Matches v' files where
  live := by
    intro s
    rw [isLive_remounted]
    exact same.live
  status := closed
  held {s} gone := by
    rw [isRemoved_remounted] at gone
    cases gone
  map_live := (isLive_remounted ..).trans same.map_live
  map_stays := isRemoved_remounted ..

end Matches

namespace Tallies

variable (tallies : e.Tallies v files)
include tallies

/-- The map's file keeps its size, and the root directory is there. -/
theorem of_matches {files' : List LiveFile} (same : e'.Matches v' files')
    (length : ∀ f ∈ files', f.sector = Sector.freeMap → f.disk.length = bytesFor m)
    (live : e'.isLive Sector.root = e.isLive Sector.root)
    (removed : e'.isRemoved Sector.root = e.isRemoved Sector.root) : e'.Tallies v' files' :=
  ⟨same, length, live.trans tallies.root_live, removed.trans tallies.root_stays⟩

theorem perm {files' : List LiveFile} (same : files.Perm files') : e.Tallies v files' :=
  tallies.of_matches (tallies.toMatches.perm same)
    (fun f mem => tallies.length f (same.mem_iff.2 mem)) rfl rfl

/-- The files were replaced by others at their sectors. -/
theorem map {g : LiveFile → LiveFile} (sector : ∀ f ∈ files, (g f).sector = f.sector)
    (length : ∀ f ∈ files, f.sector = Sector.freeMap → (g f).disk.length = f.disk.length) :
    e.Tallies v (files.map g) := by
  refine tallies.of_matches (tallies.toMatches.map sector) (List.forall_mem_map.2 ?_) rfl rfl
  intro f mem at_map
  rw [sector f mem] at at_map
  rw [length f mem at_map, tallies.length f mem at_map]

/-! ## Handles come and go -/

/-- The same inodes are live and removed, and handles changed. -/
theorem keep (live : e'.isLive = e.isLive) (removed : e'.isRemoved = e.isRemoved)
    (status : v'.status = e'.status) (held : ∀ s, e.isRemoved s = true → 0 < e'.openers s) :
    e'.Tallies v' files :=
  tallies.of_matches (tallies.toMatches.keep live removed status held) tallies.length
    (congrFun live _) (congrFun removed _)

theorem opened (status : v'.status =
    Function.update v.status s (some (.opened (v.status s)))) :
    (e.opened s).Tallies v' files :=
  tallies.of_matches (tallies.toMatches.opened status) tallies.length rfl rfl

theorem withHandle {deniesWrite : Bool} {denials : Nat} (found : e.handle i = some h)
    (counted : denials + h.deniesWrite.toNat = e.denials h.sector + deniesWrite.toNat)
    (status : v'.status = Function.update v.status h.sector
      (some ⟨e.openers h.sector, e.isRemoved h.sector, denials⟩)) :
    (e.withHandle i (some { h with deniesWrite })).Tallies v' files :=
  tallies.of_matches (tallies.toMatches.withHandle found counted status) tallies.length rfl rfl

/-- A handle was closed, and its file stays. -/
theorem closed (found : e.handle i = some h)
    (stays : ¬ (e.openers h.sector = 1 ∧ e.isRemoved h.sector = true))
    (status : v'.status = Function.update v.status h.sector
      (Volume.Status.closed ⟨e.openers h.sector, e.isRemoved h.sector, e.denials h.sector⟩ h)) :
    (e.closed i h).Tallies v' files := by
  refine tallies.of_matches (tallies.toMatches.closed found stays status) tallies.length ?_ ?_ <;>
    rw [Expected.closed, if_neg stays] <;> rfl

/-! ## Files change -/

omit tallies in
/-- A live file was replaced by one at the same sector. -/
theorem replace (tallies : e.Tallies v (f :: rest)) (sector : f'.sector = f.sector)
    (length : f.sector = Sector.freeMap → f'.disk.length = f.disk.length)
    (status : v'.status = v.status) : e.Tallies v' (f' :: rest) := by
  refine tallies.of_matches (tallies.toMatches.replace sector status) (fun g mem at_map => ?_)
    rfl rfl
  rcases List.mem_cons.1 mem with rfl | mem
  · rw [sector] at at_map
    rw [length at_map]
    exact tallies.length f List.mem_cons_self at_map
  · exact tallies.length g (List.mem_cons_of_mem f mem) at_map

theorem ne_of_removed (gone : e.isRemoved s = true) : s ≠ Sector.freeMap ∧ s ≠ Sector.root :=
  ⟨ne_of_isRemoved gone tallies.map_stays, ne_of_isRemoved gone tallies.root_stays⟩

/-- A file was made. -/
theorem created (bytes : List UInt8) (fresh : ∀ g ∈ files, g.sector ≠ f.sector)
    (status : v'.status = v.status) : e.isLive f.sector = false ∧
      (e.withFile f.sector (some ⟨bytes, false⟩)).Tallies v' (f :: files) := by
  have dead := tallies.dead_of_fresh fresh
  have other {s : Sector} (live : e.isLive s = true) : s ≠ f.sector := by
    rintro rfl
    rw [dead] at live
    cases live
  have but := sameBut_withFile e f.sector (some ⟨bytes, false⟩)
  refine ⟨dead, tallies.of_matches (tallies.toMatches.created bytes fresh status)
    (fun g mem at_map => ?_) (but.isLive (other tallies.root_live))
    (but.isRemoved (other tallies.root_live))⟩
  rcases List.mem_cons.1 mem with rfl | mem
  · exact absurd at_map.symm (other tallies.map_live)
  · exact tallies.length g mem at_map

/-- An inode was removed, and is still open. -/
theorem removed {file : ExpectedFile} (found : e.handle i = some h)
    (before : e.files h.sector = some file) (map : h.sector ≠ Sector.freeMap)
    (root : h.sector ≠ Sector.root) (status : v'.status = Function.update v.status h.sector
      (some ⟨e.openers h.sector, true, e.denials h.sector⟩)) :
    (e.withFile h.sector (some { file with removed := true })).Tallies v' files := by
  have but := sameBut_withFile e h.sector (some { file with removed := true })
  exact tallies.of_matches (tallies.toMatches.removed found before map status) tallies.length
    (but.isLive root.symm) (but.isRemoved root.symm)

omit tallies in
/-- The last handle of a removed inode was closed, and the inode is gone. -/
theorem deleted (tallies : e.Tallies v (f :: rest)) (others : ∀ g ∈ rest, g.sector ≠ f.sector)
    (found : e.handle i = some h) (at_sector : f.sector = h.sector)
    (last : e.openers h.sector = 1) (gone : e.isRemoved h.sector = true)
    (status : v'.status = Function.update v.status h.sector none) :
    (e.closed i h).Tallies v' rest := by
  have root := ne_of_isRemoved gone tallies.root_stays
  have but := sameBut_forget found none
  refine tallies.of_matches
    (tallies.toMatches.deleted others found at_sector last gone status)
    (fun g mem => tallies.length g (List.mem_cons_of_mem f mem)) ?_ ?_ <;>
    rw [Expected.closed, if_pos ⟨last, gone⟩]
  · exact but.isLive root.symm
  · exact but.isRemoved root.symm

omit tallies in
/-- The last handle of a removed inode was closed, and the inode is still there. -/
theorem spared (tallies : e.Tallies v (f :: rest)) (sector : f'.sector = f.sector)
    (found : e.handle i = some h) (at_sector : f.sector = h.sector)
    (last : e.openers h.sector = 1) (gone : e.isRemoved h.sector = true)
    (status : v'.status = Function.update v.status h.sector none) :
    (e.spared i h).Tallies v' (f' :: rest) := by
  obtain ⟨map, root⟩ := tallies.ne_of_removed gone
  have but := sameBut_forget found
    ((e.files h.sector).map fun file => { file with removed := false })
  refine tallies.of_matches (tallies.toMatches.spared sector found at_sector last gone status)
    (fun g mem at_map => ?_) (but.isLive root.symm) (but.isRemoved root.symm)
  rcases List.mem_cons.1 mem with rfl | mem
  · exact absurd (at_sector.symm.trans (sector.symm.trans at_map)) map
  · exact tallies.length g (List.mem_cons_of_mem f mem) at_map

/-- Everything in memory was forgotten, and read back. -/
theorem remounted (config : CacheSetup) (closed : v'.status = fun _ => none) :
    (e.next (.remount config) .done).Tallies v' files :=
  tallies.of_matches (tallies.toMatches.remounted config closed) tallies.length
    (isLive_remounted ..) ((isRemoved_remounted ..).trans tallies.root_stays.symm)

end Tallies

end Expected

end SectorFs
