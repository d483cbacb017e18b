/-
# SectorFs.Proofs.Volume.Openers — how many handles an inode has

`Volume.openers`: the number of handles that the open inode at a sector counts, zero where none is
open. Opening counts one handle more, if it works, and closing one handle less, even if the inode
cannot be deleted then (`openAt_openers`, `close_openers`). Everything else leaves the numbers alone.
All of this holds whatever the replies to the requests are, so it depends neither on what is stored
nor on what fails.
-/
import SectorFs.Proofs.Volume.Table

namespace SectorFs

set_option autoImplicit false

variable {m : Nat}

namespace Volume

variable {v v' : Volume m} {s : Sector} {h : Handle} {node : LoadedInode} {f : Sector → Nat}

/-- The number of handles that the open inode at a sector counts. -/
def openers (v : Volume m) (s : Sector) : Nat := (v.find? s).elim 0 LoadedInode.openers

theorem openers_of_find? (found : v.find? s = some node) : v.openers s = node.openers := by
  rw [openers, found, Option.elim_some]

theorem exists_of_openers (counted : 0 < v.openers s) : ∃ node, v.find? s = some node := by
  cases found : v.find? s with
  | none =>
    rw [openers, found, Option.elim_none] at counted
    exact absurd counted (Nat.lt_irrefl 0)
  | some node => exact ⟨node, rfl⟩

theorem openers_of_update {o : Option LoadedInode}
    (open_now : v'.find? = Function.update v.find? s o) :
    v'.openers = Function.update v.openers s (o.elim 0 LoadedInode.openers) := by
  funext t
  rw [openers, open_now]
  by_cases here : t = s
  · rw [here, Function.update_self, Function.update_self]
  · rw [Function.update_of_ne here, Function.update_of_ne here, openers]

theorem openers_erase (v : Volume m) (s : Sector) :
    (v.erase s).openers = Function.update v.openers s 0 :=
  openers_of_update (find?_erase v s)

theorem openers_put {node' : LoadedInode} (found : v.find? s = some node)
    (sector : node'.sector = node.sector) :
    (v.put node').openers = Function.update v.openers s node'.openers :=
  openers_of_update (find?_put_self found node' sector)

theorem tabular_openers (f : Sector → Nat) : Tabular fun v : Volume m => v.openers = f where
  free _ counts := counts
  put {v s node node'} found sector same counts := by
    rw [openers_put found sector, same, ← openers_of_find? found, Function.update_eq_self, counts]

/-! ## Opening -/

/-- What is counted after a handle was asked for. -/
def counted {α : Type} (f : Sector → Nat) (s : Sector) : Except Failure α → Sector → Nat
  | .ok _ => Function.update f s (f s + 1)
  | .error _ => f

theorem share_openers (s : Sector) :
    (share s).Under .anything v () fun r v' _ => v'.openers = counted v.openers s r := by
  rw [share, Action.under_bind, Action.under_get, Action.then_ok]
  cases found : v.find? s with
  | some node =>
    have more : (v.put { node with openers := node.openers + 1 }).openers =
        Function.update v.openers s (node.openers + 1) := openers_put found rfl
    refine more.trans ?_
    rw [counted, openers_of_find? found]
  | none =>
    have stays : (Action.readInode s : VolumeAction m _).Keeps fun w => w = v :=
      Action.keeps_readInode s
    rw [load, Action.under_bind]
    refine (stays v rfl).mono ?_
    rintro r w _ rfl
    cases r with
    | error e => rfl
    | ok disk =>
      rw [Action.then_ok, Action.under_bind, Action.under_ensure]
      split
      · refine (openers_of_update (find?_cons w.free _ w.inodes rfl)).trans ?_
        rw [counted, openers, found]
        rfl
      · rfl

/-- A handle that is made is to the sector that was asked for, and counted. -/
theorem openAt_openers (s : Sector) : (openAt s).Under .anything v () fun r v' _ =>
    v'.openers = counted v.openers s r ∧ ∀ h, r = .ok h → h.sector = s := by
  rw [openAt, Action.under_bind]
  refine (share_openers s).mono fun r v' _ counts => ?_
  cases r with
  | error e => exact ⟨counts, nofun⟩
  | ok =>
    refine ⟨counts, fun h made => ?_⟩
    cases made
    rfl

/-! ## Denying and allowing -/

/-- A handle that allows writes is to the sector it was to. -/
theorem allow_under {Q : Except Failure Handle → Volume m → Unit → Prop}
    (each : ∀ h' v', h'.sector = h.sector → v'.openers = v.openers → Q (.ok h') v' ()) :
    (allow h).Under .anything v () Q := by
  rw [allow]
  split
  · rw [Action.under_bind, undeny, Action.under_bind]
    refine node_under fun node found => ?_
    rw [Action.then_ok, Action.under_bind]
    refine Action.under_require fun _ => each _ _ rfl ?_
    exact (tabular_openers _).put found rfl rfl rfl
  · exact each h v rfl rfl

/-- A handle that denies writes is to the sector it was to. -/
theorem deny_under {Q : Except Failure Handle → Volume m → Unit → Prop}
    (each : ∀ h' v', h'.sector = h.sector → v'.openers = v.openers → Q (.ok h') v' ()) :
    (deny h).Under .anything v () Q := by
  rw [deny]
  split
  · exact each h v rfl rfl
  · rw [Action.under_bind]
    refine node_under fun node found => ?_
    rw [Action.then_ok, Action.under_bind]
    refine Action.under_require fun _ => each _ _ rfl ?_
    exact (tabular_openers _).put found rfl rfl rfl

/-! ## Closing -/

/-- What is unloaded is not open, whether or not it could be deleted. -/
theorem unload_openers (node : LoadedInode) : (unload node).Under .anything v () fun _ v' _ =>
    v'.openers = Function.update v.openers node.sector 0 := by
  have forgotten (w : Volume m) (counts : w.openers = v.openers) :
      (w.erase node.sector).openers = Function.update v.openers node.sector 0 := by
    rw [openers_erase, counts]
  have deleted : (if node.removed then delete node else pure () : VolumeAction m Unit).Keeps
      fun w => w.openers = v.openers := by
    split
    · exact delete_keeps (tabular_openers _) node
    · exact Action.keeps_pure ()
  rw [unload, Action.under_bind, Action.onFailure, Action.under_tryCatch]
  refine (deleted v rfl).mono fun r w _ counts => ?_
  cases r <;> exact forgotten w counts

/-- A handle that is closed is not counted any more, whether or not the inode could be deleted. -/
theorem close_openers (h : Handle) : (close h).Under .anything v () fun _ v' _ =>
    v'.openers = Function.update v.openers h.sector (v.openers h.sector - 1) := by
  rw [close, Action.under_bind]
  refine allow_under fun h' v₁ sector counts => ?_
  rw [Action.then_ok, Action.under_bind]
  refine node_under fun node found => ?_
  rw [Action.then_ok, Action.under_bind]
  refine Action.under_require fun _ => ?_
  rw [Action.then_ok, Action.under_bind, Action.under_modify, Action.then_ok]
  have fewer : (v₁.put { node with openers := node.openers - 1 }).openers =
      Function.update v.openers h.sector (v.openers h.sector - 1) := by
    rw [← counts, ← sector, openers_of_find? found]
    exact openers_put found rfl
  split
  case isFalse => exact fewer
  case isTrue only =>
    refine (unload_openers node).mono fun r v' _ gone => ?_
    rw [gone, fewer, sector_of_find? found, sector, Function.update_idem, ← counts, ← sector,
      openers_of_find? found, only]

theorem drop_openers (h : Handle) : (drop h).Under .anything v () fun _ v' _ =>
    v'.openers = Function.update v.openers h.sector (v.openers h.sector - 1) := by
  rw [drop, Action.ignoreError, Action.under_tryCatch]
  refine (close_openers h).mono fun r v' _ counts => ?_
  cases r <;> exact counts

/-! ## Storing the free map and reading it back -/

/-- Closing a handle takes back what opening it counted. -/
theorem closed_counted {h : Handle} (opened : v.openers = counted f h.sector (.ok h)) :
    (close h).Under .anything v () fun _ v' _ => v'.openers = f := by
  refine (close_openers h).mono fun r v' _ counts => ?_
  rw [counts, opened, counted, Function.update_self, Function.update_idem, Nat.add_sub_cancel,
    Function.update_eq_self]

theorem sync_openers (f : Sector → Nat) :
    (sync : VolumeAction m Unit).Keeps fun v => v.openers = f := by
  rintro v rfl
  rw [sync, Action.under_bind, Action.under_get, Action.then_ok, Action.under_bind]
  refine (openAt_openers Sector.freeMap).mono fun r v₁ _ opens => ?_
  cases r with
  | error e => exact opens.1
  | ok file =>
    have opened : v₁.openers = counted v.openers file.sector (.ok file) := by
      rw [opens.2 file rfl]
      exact opens.1
    rw [Action.then_ok, Action.under_bind, Action.onFailure, Action.under_tryCatch]
    refine (writeBytes_keeps (tabular_openers _) file 0 v.free.toBytes v₁ opened).mono
      fun r v₂ _ opened₂ => ?_
    cases r with
    | error e =>
      dsimp only
      rw [drop, Action.ignoreError, Action.under_bind, Action.under_tryCatch]
      refine (closed_counted opened₂).mono fun r v' _ counts => ?_
      cases r <;> exact counts
    | ok written =>
      dsimp only
      rw [Action.then_ok, Action.under_bind]
      refine (closed_counted opened₂).mono fun r v' _ counts => ?_
      cases r with
      | error e => exact counts
      | ok =>
        have rest : (Action.require (written = v.free.toBytes.length) .mapProtected >>=
            fun _ => Action.flush : VolumeAction m Unit).Keeps fun w => w.openers = v.openers :=
          (Action.keeps_check _).bind fun _ => Action.keeps_request _
        exact rest v' counts

/-- No handle is left of those that a format makes. -/
theorem format_openers (f : Sector → Nat) :
    (format : VolumeAction m Unit).Keeps fun v => v.openers = f :=
  (reserve_keeps (tabular_openers f) _).bind fun _ =>
    (reserve_keeps (tabular_openers f) _).bind fun _ =>
      (createAt_keeps (tabular_openers f) _ _ _ _).bind fun _ =>
        (createAt_keeps (tabular_openers f) _ _ _ _).bind fun _ => sync_openers f

theorem openKnown_openers (s : Sector) : (openKnown s).Under .anything v () fun r v' _ =>
    ∀ h, r = .ok h → v'.openers = counted v.openers h.sector (.ok h) := by
  rw [openKnown, Action.under_tryCatch]
  refine (openAt_openers s).mono fun r v' _ opens => ?_
  cases r with
  | ok h =>
    rintro h' ⟨⟩
    rw [opens.2 h rfl]
    exact opens.1
  | error e =>
    dsimp only
    split <;> exact nofun

/-- The last part of a mount: the map is in use, and the root directory is looked at. -/
theorem mountRoot_openers (bytes : List UInt8) (counts : v.openers = f) :
    (do
      let free ← Action.check (FreeMap.ofBytes m bytes)
      modify fun v => { v with free }
      close (← openKnown Sector.root) : VolumeAction m Unit).Under .anything v () fun r v' _ =>
        r = .ok () → v'.openers = f := by
  cases FreeMap.ofBytes m bytes with
  | error violation => exact trivial
  | ok free =>
    rw [Action.under_bind, Action.under_check_ok, Action.then_ok, Action.under_bind,
      Action.under_modify, Action.then_ok, Action.under_bind]
    refine (openKnown_openers Sector.root).mono fun r v' _ opens => ?_
    cases r with
    | error e => exact nofun
    | ok root =>
      rw [Action.then_ok]
      refine (closed_counted (opens root rfl)).mono fun r v'' _ counts' _ => ?_
      exact counts'.trans counts

/-- No handle is left of those that a mount makes, unless it fails. -/
theorem mount_openers : (mount : VolumeAction m Unit).Under .anything v () fun r v' _ =>
    r = .ok () → v'.openers = v.openers := by
  rw [mount, Action.under_bind]
  refine (openKnown_openers Sector.freeMap).mono fun r v₁ _ opens => ?_
  cases r with
  | error e => exact nofun
  | ok file =>
    have opened := opens file rfl
    rw [Action.then_ok, Action.under_bind]
    refine node_under fun node _ => ?_
    rw [Action.then_ok, Action.under_bind, Action.under_ensure]
    split
    case isFalse => exact nofun
    case isTrue =>
      rw [Action.then_ok, Action.under_bind]
      have reads : (readBytes file 0 (bytesFor m) : VolumeAction m _).Keeps fun w =>
          w.openers = counted v.openers file.sector (.ok file) := readBytes_keeps file 0 (bytesFor m)
      refine (reads v₁ opened).mono fun r v₂ _ opened₂ => ?_
      cases r with
      | error e => exact nofun
      | ok bytes =>
        rw [Action.then_ok, Action.under_bind]
        refine (closed_counted opened₂).mono fun r v₃ _ counts => ?_
        cases r with
        | error e => exact nofun
        | ok => exact mountRoot_openers bytes counts

end Volume

end SectorFs
