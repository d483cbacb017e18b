/-
# SectorFs.Proofs.Volume.Table — no inode is open twice

The open inodes of a volume stand in a list. Reading, writing and making files, and marking what is
open, change neither which inodes are open nor how many handles they have: whatever the replies to
its requests are, each of these operations keeps every condition on that (`Volume.Tabular`).

One such condition is that no two entries are for one sector (`Volume.Once`). The operations that
open and close keep it as well. An entry is only added where none was found.
-/
import SectorFs.Proofs.Store.Contract
import SectorFs.Proofs.Volume.Sound

namespace SectorFs

set_option autoImplicit false

variable {m : Nat}

namespace Volume

/-- A condition on which inodes are open, and how many handles they have. -/
structure Tabular (P : Volume m → Prop) : Prop where
  free {v : Volume m} (free : FreeMap m) : P v → P { v with free }
  put {v : Volume m} {s : Sector} {node node' : LoadedInode} : v.find? s = some node →
    node'.sector = node.sector → node'.openers = node.openers → P v → P (v.put node')

/-- No two open inodes are at one sector. -/
def Once (v : Volume m) : Prop := (v.inodes.map LoadedInode.sector).Nodup

theorem once_empty : (empty m).Once := List.nodup_nil

theorem Once.put {v : Volume m} (once : v.Once) (node : LoadedInode) : (v.put node).Once := by
  have same : (v.put node).inodes.map LoadedInode.sector = v.inodes.map LoadedInode.sector := by
    rw [Volume.put, List.map_map]
    refine List.map_congr_left fun old _ => ?_
    rw [Function.comp_apply]
    split
    case isTrue here => exact here.symm
    case isFalse => rfl
  rw [Once, same]
  exact once

theorem Once.erase {v : Volume m} (once : v.Once) (s : Sector) : (v.erase s).Once :=
  List.Nodup.sublist (List.Sublist.map _ List.filter_sublist) once

theorem Once.cons {v : Volume m} (once : v.Once) {node : LoadedInode}
    (new : v.find? node.sector = none) : ({ v with inodes := node :: v.inodes } : Volume m).Once := by
  refine List.nodup_cons.2 ⟨fun mem => ?_, once⟩
  obtain ⟨old, mem, same⟩ := List.mem_map.1 mem
  have other := List.find?_eq_none.1 new old mem
  exact other (decide_eq_true same)

theorem tabular_once : Tabular (Once (m := m)) where
  free _ once := once
  put _ _ _ once := once.put _

/-! ## What keeps every such condition -/

/-- Where the inode behind a handle is looked up, it is found or the run is over. -/
theorem node_under {Q : Except Failure LoadedInode → Volume m → Unit → Prop} {v : Volume m}
    {h : Handle} (each : ∀ node, v.find? h.sector = some node → Q (.ok node) v ()) :
    (node h).Under .anything v () Q := by
  rw [node, Action.under_bind, Action.under_get, Action.then_ok]
  cases found : v.find? h.sector with
  | none => exact trivial
  | some node => exact each node found

/-- What an operation on the blocks of an inode does, it does to that inode and the free map. -/
theorem under_onBlocks {α S : Type} {c : Contract S} {state : S} {v : Volume m} {disk : Inode}
    {x : BlockAction m α} {Q : Except Failure (Except Failure α × Inode) → Volume m → S → Prop}
    (under : x.Under c ⟨disk, v.free⟩ state fun r b state =>
      Q (.ok (r, b.disk)) { v with free := b.free } state) :
    (onBlocks disk x : VolumeAction m _).Under c v state Q := by
  simp only [onBlocks, Action.under_bind, Action.under_get, Action.then_ok, Action.under_lift]
  exact under

/-- An operation on the blocks of an inode changes the free map at most. -/
theorem onBlocks_under {α : Type} {Q : Except Failure (Except Failure α × Inode) → Volume m →
    Unit → Prop} {v : Volume m} {disk : Inode} {x : BlockAction m α}
    (each : ∀ r free, Q (.ok r) { v with free } ()) :
    (onBlocks disk x).Under .anything v () Q :=
  under_onBlocks (SectorProgram.under_anything fun after => each (after.1, after.2.disk) after.2.free)

section Tabular

variable {P : Volume m → Prop}

theorem node_keeps (h : Handle) : (node h : VolumeAction m _).Keeps P :=
  fun _ holds => node_under fun _ _ => holds

theorem readPointer_keeps (t : Sector) (i : Fin 128) :
    (Inode.readPointer t i : VolumeAction m _).Keeps P :=
  ((Action.keeps_readSector t).bind fun _ => Action.keeps_pure _).bind fun _ => Action.keeps_pure _

theorem sectorOfBlock_keeps (d : Inode) (n : Nat) :
    (d.sectorOfBlock n : VolumeAction m _).Keeps P := by
  rw [Inode.sectorOfBlock]
  split
  · exact Action.keeps_pure _
  · split
    · exact Action.keeps_pure _
    · exact Action.keeps_pure _
    · split
      · exact readPointer_keeps _ _
      · exact Action.keeps_pure _
    · split
      · refine (readPointer_keeps _ _).bind fun found => ?_
        split
        · exact readPointer_keeps _ _
        · exact Action.keeps_pure _
      · exact Action.keeps_pure _

theorem sectorOfByte_keeps (d : Inode) (off : Nat) :
    (d.sectorOfByte off : VolumeAction m _).Keeps P := by
  rw [Inode.sectorOfByte]
  split
  · exact Action.keeps_pure _
  · exact sectorOfBlock_keeps d _

theorem mapM_keeps {α β : Type} {f : α → VolumeAction m β} (xs : List α)
    (each : ∀ x, (f x).Keeps P) : (xs.mapM f).Keeps P := by
  induction xs with
  | nil => exact Action.keeps_pure []
  | cons x xs ih =>
    rw [List.mapM_cons]
    exact (each x).bind fun y => ih.bind fun ys => Action.keeps_pure _

theorem readChunk_keeps (disk : Inode) (chunk : Chunk) :
    (readChunk disk chunk : VolumeAction m _).Keeps P := by
  refine (sectorOfByte_keeps disk _).bind fun found => ?_
  split
  · exact Action.keeps_request _
  · exact Action.keeps_check _

theorem readAhead_keeps (disk : Inode) (off : Nat) :
    (readAhead disk off : VolumeAction m _).Keeps P := by
  refine (sectorOfByte_keeps disk _).bind fun found => ?_
  split
  · exact Action.keeps_request _
  · exact Action.keeps_pure ()

theorem readBytes_keeps (h : Handle) (off len : Nat) :
    (readBytes h off len : VolumeAction m _).Keeps P := by
  refine (node_keeps h).bind fun node => ?_
  dsimp only
  split
  · exact Action.keeps_pure _
  · exact (mapM_keeps _ fun chunk => readChunk_keeps _ chunk).bind fun parts =>
      (readAhead_keeps _ _).ignoreError.bind fun _ => Action.keeps_pure _

theorem writeChunks_keeps (disk : Inode) (limit : Nat) (chunks : List Chunk) (data : List UInt8) :
    (writeChunks disk limit chunks data : VolumeAction m _).Keeps P := by
  induction chunks generalizing data with
  | nil => exact Action.keeps_pure ()
  | cons chunk rest ih =>
    refine Action.Keeps.bind ?_ fun _ => ih _
    refine (sectorOfByte_keeps disk _).bind fun found => ?_
    split
    · exact Action.keeps_request _
    · exact Action.keeps_check _

variable (tabular : Tabular P)
include tabular

theorem keeps_free (f : Volume m → FreeMap m) :
    (modify fun v => { v with free := f v } : VolumeAction m Unit).Keeps P :=
  Action.keeps_modify fun _ holds => tabular.free _ holds

theorem onBlocks_keeps {α : Type} (disk : Inode) (x : BlockAction m α) :
    (onBlocks disk x).Keeps P :=
  fun _ holds => onBlocks_under fun _ free => tabular.free free holds

theorem take_keeps (count : Nat) : (take count : VolumeAction m _).Keeps P := by
  refine Action.keeps_get.bind fun v => (Action.keeps_check _).bind ?_
  rintro ⟨s, free⟩
  exact (keeps_free tabular _).bind fun _ => Action.keeps_pure _

theorem give_keeps (s : Sector) (count : Nat) : (give s count : VolumeAction m _).Keeps P := by
  refine Action.keeps_get.bind fun v => (Action.keeps_check _).bind fun after => ?_
  exact keeps_free tabular _

theorem allow_keeps (h : Handle) : (allow h : VolumeAction m _).Keeps P := by
  rw [allow]
  split
  · refine Action.Keeps.bind ?_ fun _ => Action.keeps_pure _
    intro v holds
    rw [undeny, Action.under_bind]
    refine node_under fun node found => ?_
    rw [Action.then_ok, Action.under_bind]
    exact Action.under_require fun _ => tabular.put found rfl rfl holds
  · exact Action.keeps_pure h

theorem deny_keeps (h : Handle) : (deny h : VolumeAction m _).Keeps P := by
  rw [deny]
  split
  · exact Action.keeps_pure h
  · intro v holds
    rw [Action.under_bind]
    refine node_under fun node found => ?_
    rw [Action.then_ok, Action.under_bind]
    exact Action.under_require fun _ => tabular.put found rfl rfl holds

theorem remove_keeps (h : Handle) : (remove h : VolumeAction m _).Keeps P := by
  intro v holds
  rw [remove, Action.under_bind]
  exact node_under fun node found => tabular.put found rfl rfl holds

theorem delete_keeps (node : LoadedInode) : (delete node : VolumeAction m _).Keeps P :=
  (Action.keeps_request _).bind fun _ => (onBlocks_keeps tabular _ _).bind fun _ =>
    (Action.keeps_liftExcept _).bind fun _ => give_keeps tabular _ _

/-- An inode that grows is replaced where it was found. -/
theorem reach_under {v : Volume m} {s : Sector} {node : LoadedInode}
    (found : v.find? s = some node) (holds : P v) (length : Nat) :
    (reach node length).Under .anything v () fun _ v' _ => P v' := by
  rw [reach]
  split
  · rw [grow, Action.under_bind]
    refine onBlocks_under fun r free => ?_
    rw [Action.then_ok, Action.under_bind, Action.under_modify, Action.then_ok]
    have kept : P (({ v with free } : Volume m).put { node with disk := r.2 }) :=
      tabular.put found rfl rfl (tabular.free free holds)
    exact ((Action.keeps_liftExcept r.1).bind fun _ => (Action.keeps_request _).bind fun _ =>
      Action.keeps_pure r.2) _ kept
  · exact holds

theorem writeBytes_keeps (h : Handle) (off : Nat) (data : List UInt8) :
    (writeBytes h off data : VolumeAction m _).Keeps P := by
  intro v holds
  rw [writeBytes, Action.under_bind]
  refine node_under fun node found => ?_
  rw [Action.then_ok]
  split
  · exact holds
  · rw [Action.under_bind]
    refine (reach_under tabular found holds _).mono fun r v' _ holds' => ?_
    cases r with
    | error e => exact holds'
    | ok disk =>
      exact ((writeChunks_keeps disk _ _ data).bind fun _ => Action.keeps_pure _) v' holds'

theorem createAt_keeps (s : Sector) (length : Nat) (isDirectory : Bool) (parent : Sector) :
    (createAt s length isDirectory parent : VolumeAction m _).Keeps P := by
  refine (Action.keeps_ensure _ _).bind fun _ => (onBlocks_keeps tabular _ _).bind ?_
  rintro ⟨result, disk⟩
  exact (Action.keeps_liftExcept _).bind fun _ =>
    (Action.keeps_request _).onFailure ((onBlocks_keeps tabular _ _).map _)

theorem create_keeps (length : Nat) (isDirectory : Bool) (parent : Sector) :
    (create length isDirectory parent : VolumeAction m _).Keeps P := by
  refine (take_keeps tabular 1).bind fun found => ?_
  split
  · exact ((createAt_keeps tabular _ _ _ _).onFailure (give_keeps tabular _ 1)).bind fun _ =>
      Action.keeps_pure _
  · exact Action.keeps_throw _

theorem reserve_keeps (s : Sector) : (reserve s : VolumeAction m Unit).Keeps P :=
  Action.keeps_get.bind fun _ => (Action.keeps_check _).bind fun _ => keeps_free tabular _

end Tabular

/-! ## No inode is open twice -/

theorem keeps_put (f : Volume m → LoadedInode) :
    (modify fun v => v.put (f v) : VolumeAction m Unit).Keeps Once :=
  Action.keeps_modify fun _ once => once.put _

/-- An inode is loaded only where none is open. -/
theorem share_keeps (s : Sector) : (share s : VolumeAction m _).Keeps Once := by
  intro v once
  rw [share, Action.under_bind, Action.under_get, Action.then_ok]
  cases found : v.find? s with
  | some node => exact once.put _
  | none =>
    -- reading the inode changes nothing in memory, so none is open there still
    have stays : (Action.readInode s : VolumeAction m _).Keeps fun w => w = v :=
      Action.keeps_readInode s
    rw [load, Action.under_bind]
    refine (stays v rfl).mono ?_
    rintro r w _ rfl
    cases r with
    | error e => exact once
    | ok disk =>
      rw [Action.then_ok, Action.under_bind, Action.under_ensure]
      split
      · exact once.cons found
      · exact once

theorem openAt_keeps (s : Sector) : (openAt s : VolumeAction m _).Keeps Once :=
  (share_keeps s).bind fun _ => Action.keeps_pure _

theorem unload_keeps (node : LoadedInode) : (unload node : VolumeAction m _).Keeps Once := by
  have forget : (modify fun v => v.erase node.sector : VolumeAction m Unit).Keeps Once :=
    Action.keeps_modify fun _ once => once.erase _
  refine (Action.Keeps.onFailure ?_ forget).bind fun _ => forget
  split
  · exact delete_keeps tabular_once node
  · exact Action.keeps_pure ()

theorem close_keeps (h : Handle) : (close h : VolumeAction m _).Keeps Once := by
  refine (allow_keeps tabular_once h).bind fun h => (node_keeps h).bind fun node =>
    (Action.keeps_check _).bind fun _ => (keeps_put _).bind fun _ => ?_
  split
  · exact unload_keeps node
  · exact Action.keeps_pure ()

theorem drop_keeps (h : Handle) : (drop h : VolumeAction m _).Keeps Once :=
  (close_keeps h).ignoreError

theorem sync_keeps : (sync : VolumeAction m Unit).Keeps Once :=
  Action.keeps_get.bind fun _ => (openAt_keeps _).bind fun file =>
    ((writeBytes_keeps tabular_once file _ _).onFailure (drop_keeps file)).bind fun _ =>
      (close_keeps file).bind fun _ => (Action.keeps_check _).bind fun _ => Action.keeps_request _

theorem format_keeps : (format : VolumeAction m Unit).Keeps Once :=
  (reserve_keeps tabular_once _).bind fun _ => (reserve_keeps tabular_once _).bind fun _ =>
    (createAt_keeps tabular_once _ _ _ _).bind fun _ =>
      (createAt_keeps tabular_once _ _ _ _).bind fun _ => sync_keeps

theorem mount_keeps : (mount : VolumeAction m Unit).Keeps Once := by
  have openKnown_keeps (s : Sector) : (openKnown s : VolumeAction m Handle).Keeps Once := by
    refine (openAt_keeps s).tryCatch fun e => ?_
    split
    · exact Action.keeps_throw _
    · exact Action.keeps_throw _
  exact (openKnown_keeps _).bind fun file => (node_keeps file).bind fun node =>
    (Action.keeps_ensure _ _).bind fun _ => (readBytes_keeps file _ _).bind fun bytes =>
      (close_keeps file).bind fun _ => (Action.keeps_check _).bind fun free =>
        (keeps_free tabular_once _).bind fun _ =>
          (openKnown_keeps _).bind fun root => close_keeps root

end Volume

end SectorFs
