/-
# SectorFs.Proofs.Volume.Limit — what lies beyond the size limit

No file can have more than `maxFileBytes` bytes. A file that would have to grow beyond that is left
as it is, and so is all else in memory, before anything is asked of the store (`grow_tooLarge`). An
inode that is to be made too long takes its own sector first and gives it back, which leaves the
free map as it was (`create_tooLarge`); where no sector is free it does not come to that
(`create_full`).

An inode that was not written by a file system may claim to be longer. There is no place for a block
beyond the limit, so what reads or writes there never ends well (`writeBytes_never`,
`readBytes_never`). In particular a volume whose free map does not fit into a file is not mounted
(`mount_never`).
-/
import SectorFs.Proofs.Disk.FirstFit
import SectorFs.Proofs.Volume.Table

namespace SectorFs

set_option autoImplicit false

/-! ## Actions that never end well -/

namespace Action

variable {σ α β : Type}

/-- An action fails or is over, whatever the replies are. -/
def Never (x : Action σ α) : Prop :=
  ∀ memory, x.Under .anything memory () fun r _ _ => ∃ e, r = .error e

theorem never_check (violation : Violation) : (check (.error violation) : Action σ α).Never :=
  fun _ => trivial

/-- It is enough that the first part never ends well. -/
theorem Never.bind {x : Action σ α} (never : x.Never) (f : α → Action σ β) : (x >>= f).Never := by
  intro memory
  rw [under_bind]
  refine (never memory).mono ?_
  rintro r memory' _ ⟨e, rfl⟩
  exact ⟨e, rfl⟩

/-- It is enough that what follows never ends well. -/
theorem never_bind (x : Action σ α) {f : α → Action σ β} (never : ∀ a, (f a).Never) :
    (x >>= f).Never := by
  intro memory
  rw [under_bind]
  refine SectorProgram.under_anything fun after => ?_
  obtain ⟨r, memory'⟩ := after
  cases r with
  | ok a => exact never a memory'
  | error e => exact ⟨e, rfl⟩

/-- One step that never ends well is enough. -/
theorem mapM_never {f : α → Action σ β} {x : α} (never : (f x).Never) :
    ∀ {xs : List α}, x ∈ xs → (xs.mapM f).Never
  | y :: rest, mem => by
    rw [List.mapM_cons]
    rcases List.mem_cons.1 mem with rfl | mem
    · exact never.bind _
    · exact never_bind _ fun _ => (mapM_never never mem).bind _

end Action

/-! ## Bytes beyond the limit -/

/-- There is no sector for a byte beyond the limit, however long an inode says it is. -/
theorem Inode.sectorOfByte_beyond {σ : Type} (d : Inode) {off : Nat} (beyond : maxFileBytes ≤ off) :
    (d.sectorOfByte off : Action σ _) = pure none := by
  have limit : maxFileBytes = maxBlocks * 512 := rfl
  have nowhere : Place.of (off / bytesPerSector) = none := by
    rw [Place.of_eq_none_iff]
    change maxBlocks ≤ off / 512
    omega
  rw [sectorOfByte, sectorOfBlock, nowhere]
  split
  · rfl
  · split <;> rfl

/-- A range that goes beyond the limit has a chunk that starts there. -/
theorem exists_chunk_beyond {off len : Nat} (some_bytes : 0 < len)
    (beyond : maxFileBytes < off + len) :
    ∃ chunk ∈ chunks off len, maxFileBytes ≤ chunk.start := by
  have limit : maxFileBytes = 16524 * 512 := rfl
  have last : 16524 < sectorsFor (off + len) := by
    unfold sectorsFor
    omega
  have first : off / 512 < sectorsFor (off + len) := by
    unfold sectorsFor
    omega
  refine ⟨chunkIn off len (sectorsFor (off + len) - 1), List.mem_map_of_mem ?_, ?_⟩
  · rw [List.mem_range'_1]
    change off / 512 ≤ _ ∧ _ < off / 512 + (_ - off / 512)
    omega
  · change maxFileBytes ≤ max off ((sectorsFor (off + len) - 1) * 512)
    omega

namespace FileBlocks

variable {m : Nat}

theorem growTo_tooLarge {length : Nat} (long : maxFileBytes < length) (b : FileBlocks m) :
    (growTo length).program b = .done (.error .fileTooLarge, b) := by
  rw [growTo, Action.ensure, decide_eq_false (Nat.not_le.2 long)]
  rfl

end FileBlocks

namespace Volume

variable {m : Nat} {v : Volume m} {s : Sector} {h : Handle} {node : LoadedInode}
  {off len length : Nat} {data : List UInt8}

/-! ## Files that would grow too long -/

theorem Once.put_eq (once : v.Once) (found : v.find? s = some node) : v.put node = v := by
  have same : (v.inodes.map fun old => if old.sector = node.sector then node else old) =
      v.inodes.map id := by
    refine List.map_congr_left fun old mem => ?_
    split
    case isTrue here =>
      exact List.inj_on_of_nodup_map once (List.mem_of_find?_eq_some found) mem here.symm
    case isFalse => rfl
  rw [Volume.put, same, List.map_id]

/-- A file that would grow too long does not, and nothing else happens. -/
theorem grow_tooLarge (once : v.Once) (found : v.find? s = some node)
    (long : maxFileBytes < length) :
    (grow node length).program v = .done (.error .fileTooLarge, v) := by
  have blocks : (onBlocks node.disk (FileBlocks.growTo length)).program v =
      .done (.ok (.error .fileTooLarge, node.disk), v) := by
    rw [onBlocks, Action.program_bind, Action.program_get, SectorProgram.done_bind]
    dsimp only
    rw [FileBlocks.growTo_tooLarge long]
    rfl
  rw [grow, Action.program_bind, blocks, SectorProgram.done_bind]
  change SectorProgram.done (_, v.put node) = _
  rw [once.put_eq found]

/-- A write that the inode would have to grow too long for fails before anything else. -/
theorem writeBytes_tooLarge (once : v.Once) (found : v.find? h.sector = some node)
    (free : node.denials = 0) (some_data : data ≠ []) (long : maxFileBytes < off + data.length)
    (short : node.disk.length < off + data.length) :
    (writeBytes h off data).program v = .done (.error .fileTooLarge, v) := by
  have works : ¬ (0 < node.denials ∨ data = []) := by
    rw [free]
    exact not_or.2 ⟨Nat.lt_irrefl 0, some_data⟩
  rw [writeBytes, Action.program_bind, program_node found, SectorProgram.done_bind]
  dsimp only
  rw [if_neg works, reach, if_pos short, Action.program_bind, grow_tooLarge once found long,
    SectorProgram.done_bind]

/-! ## Inodes that say they are too long -/

/-- What a chunk beyond the limit would be written to is not there. -/
theorem writeChunks_never (disk : Inode) (limit : Nat) {chunk : Chunk}
    (beyond : maxFileBytes ≤ chunk.start) : ∀ (chunks : List Chunk) (data : List UInt8),
      chunk ∈ chunks → (writeChunks disk limit chunks data : VolumeAction m Unit).Never
  | other :: rest, data, mem => by
    rw [writeChunks]
    rcases List.mem_cons.1 mem with rfl | mem
    · refine Action.Never.bind ?_ _
      rw [writeChunk, disk.sectorOfByte_beyond beyond, pure_bind]
      exact Action.never_check _
    · exact Action.never_bind _ fun _ => writeChunks_never disk limit beyond rest _ mem

/-- A write beyond the limit, into an inode that says it is that long, writes no more than sectors,
and never ends well. -/
theorem writeBytes_never (found : v.find? h.sector = some node) (free : node.denials = 0)
    (some_data : data ≠ []) (long : maxFileBytes < off + data.length)
    (inside : off + data.length ≤ node.disk.length) :
    (writeBytes h off data).Under .anything v () fun r v' _ => v' = v ∧ ∃ e, r = .error e := by
  have works : ¬ (0 < node.denials ∨ data = []) := by
    rw [free]
    exact not_or.2 ⟨Nat.lt_irrefl 0, some_data⟩
  obtain ⟨chunk, mem, beyond⟩ := exists_chunk_beyond (List.length_pos_iff.2 some_data) long
  have writes : (writeChunks node.disk (off + data.length) (chunks off data.length) data :
      VolumeAction m Unit).Keeps fun w => w = v := writeChunks_keeps _ _ _ _
  rw [writeBytes, Action.under_bind]
  refine node_under fun node' found' => ?_
  obtain rfl := Option.some.inj (found.symm.trans found')
  rw [Action.then_ok, if_neg works, reach, if_neg (Nat.not_lt.2 inside), pure_bind, Action.under_bind]
  refine ((writes v rfl).and (writeChunks_never _ _ beyond _ data mem v)).mono ?_
  rintro r w _ ⟨rfl, e, rfl⟩
  exact ⟨rfl, e, rfl⟩

/-- What a chunk beyond the limit would be read from is not there. -/
theorem readBytes_never (found : v.find? h.sector = some node) (some_bytes : 0 < len)
    (inside : off + len ≤ node.disk.length) (long : maxFileBytes < off + len) :
    (readBytes h off len).Under .anything v () fun r _ _ => ∃ e, r = .error e := by
  obtain ⟨chunk, mem, beyond⟩ := exists_chunk_beyond some_bytes long
  have reads : (readChunk node.disk chunk : VolumeAction m _).Never := by
    rw [readChunk, node.disk.sectorOfByte_beyond beyond, pure_bind]
    exact Action.never_check _
  rw [readBytes, Action.under_bind]
  refine node_under fun node' found' => ?_
  obtain rfl := Option.some.inj (found.symm.trans found')
  have whole : min len (node.disk.length - off) = len := by omega
  rw [Action.then_ok, if_neg (by omega), readWithin, whole]
  exact (Action.mapM_never reads mem).bind _ v

/-- A volume whose free map does not fit into a file is not mounted. -/
theorem mount_never (long : maxFileBytes < bytesFor m) :
    (mount : VolumeAction m Unit).Never := by
  refine Action.never_bind _ fun file v => ?_
  rw [Action.under_bind]
  refine node_under fun node found => ?_
  rw [Action.then_ok, Action.under_bind, Action.under_ensure]
  split
  case isFalse => exact ⟨_, rfl⟩
  case isTrue same =>
    have length : node.disk.length = bytesFor m := of_decide_eq_true same
    rw [Action.then_ok, Action.under_bind]
    refine (readBytes_never found (by omega) (by omega) (by omega)).mono ?_
    rintro r v' _ ⟨e, rfl⟩
    exact ⟨e, rfl⟩

/-! ## Inodes that would be made too long -/

/-- What was taken is no more in the free map. -/
theorem program_take {count : Nat} {o : Option Sector} {free : FreeMap m}
    (taken : v.free.allocate count = .ok (o, free)) :
    (take count).program v = .done (.ok o, { v with free }) := by
  rw [take, Action.program_bind, Action.program_get, SectorProgram.done_bind]
  dsimp only
  rw [taken]
  rfl

theorem program_give {count : Nat} {free : FreeMap m} (given : v.free.release s count = .ok free) :
    (give s count).program v = .done (.ok (), { v with free }) := by
  rw [give, Action.program_bind, Action.program_get, SectorProgram.done_bind]
  dsimp only
  rw [given]
  rfl

/-- Where no sector is free no inode is made, however long. -/
theorem create_full (full : ∀ i < m, v.free.inUse i = true) (length : Nat) (isDirectory : Bool)
    (parent : Sector) :
    (create length isDirectory parent).program v = .done (.error .noSpace, v) := by
  have refused : v.free.allocate 1 = .ok (none, v.free) :=
    FreeMap.allocate_of_not_freeRun Nat.one_pos fun start run => by
      have unused := run.2 start (Nat.le_refl start) (Nat.lt_succ_self start)
      rw [full start run.1] at unused
      cases unused
  rw [create, Action.program_bind, program_take refused]
  rfl

/-- An inode that would be too long is not made. The sector that was taken for it is given back,
and nothing is asked of the store. -/
theorem create_tooLarge (small : m ≤ 0x100000000) {i : Nat} (inside : i < m)
    (unused : v.free.inUse i = false) (long : maxFileBytes < length) (isDirectory : Bool)
    (parent : Sector) :
    (create length isDirectory parent).program v = .done (.error .fileTooLarge, v) := by
  have run : v.free.FreeRun i 1 := ⟨inside, fun j lo hi => by
    obtain rfl : j = i := by omega
    exact unused⟩
  obtain ⟨s, free, taken⟩ : ∃ s free, v.free.allocate 1 = .ok (some s, free) := by
    obtain ⟨lowest, found, -⟩ := run.found Nat.one_pos
    rcases FreeMap.allocate_cases (f := v.free) small Nat.one_pos with
      ⟨nowhere, -⟩ | ⟨s, free, -, taken⟩
    · rw [found] at nowhere
      cases nowhere
    · exact ⟨s, free, taken⟩
  have given : ({ v with free } : Volume m).free.release s 1 = .ok v.free :=
    FreeMap.release_allocate_one small taken
  have refused : (createAt s length isDirectory parent).program { v with free } =
      .done (.error .fileTooLarge, { v with free }) := by
    rw [createAt, Action.ensure, decide_eq_false (Nat.not_le.2 long)]
    rfl
  rw [create, Action.program_bind, program_take taken, SectorProgram.done_bind]
  dsimp only
  rw [Action.program_bind, Action.program_onFailure, refused, SectorProgram.done_bind]
  dsimp only
  rw [program_give given]
  rfl

end Volume

end SectorFs
