/-
# SectorFs.Proofs.Volume.Access — reading and writing live files

A read gives the bytes of the file (`readBytes_spec`). A write puts its data over
the bytes of the file, with zeros between the old end and the data
(`overwrite`), or fails and changes no byte (`writeBytes_spec`).
-/
import SectorFs.Proofs.Volume.Sound

namespace SectorFs

set_option autoImplicit false

variable {m : Nat} {mayFail : Prop} {image image' image₁ : Image} {l l' : Layout} {d : Inode}
  {v v' : Volume m} {f f' : LiveFile} {rest : List LiveFile} {others : List Nat}

/-- Bytes with `data` written over them from `off` on, and zeros in a gap before it. -/
def overwrite (old : List UInt8) (off : Nat) (data : List UInt8) : List UInt8 :=
  old.take off ++ List.replicate (off - old.length) 0 ++ data ++ old.drop (off + data.length)

theorem length_overwrite (old : List UInt8) (off : Nat) (data : List UInt8) :
    (overwrite old off data).length = max old.length (off + data.length) := by
  simp only [overwrite, List.length_append, List.length_take, List.length_replicate,
    List.length_drop]
  omega

theorem getD_overwrite (old : List UInt8) (off : Nat) (data : List UInt8) (i : Nat) :
    (overwrite old off data)[i]?.getD 0 =
      if off ≤ i ∧ i < off + data.length then data[i - off]?.getD 0 else old[i]?.getD 0 := by
  have front : (old.take off ++ List.replicate (off - old.length) (0 : UInt8)).length = off := by
    simp only [List.length_append, List.length_take, List.length_replicate]
    omega
  rw [overwrite, List.append_assoc]
  by_cases before : i < off
  · rw [List.getElem?_append_left (by omega), if_neg (by omega)]
    by_cases inside : i < old.length
    · rw [List.getElem?_append_left (by simp; omega), List.getElem?_take, if_pos before]
    · rw [List.getElem?_append_right (by simp; omega), List.getElem?_eq_none (by omega : _ ≤ i),
        List.getElem?_replicate]
      split <;> rfl
  · rw [List.getElem?_append_right (by omega), front]
    by_cases inside : i < off + data.length
    · rw [List.getElem?_append_left (by omega), if_pos (by omega)]
    · have place : off + data.length + (i - off - data.length) = i := by omega
      rw [List.getElem?_append_right (by omega), if_neg (by omega), List.getElem?_drop, place]

/-- Lists of bytes are the same when they are as long and hold the same. -/
theorem ext_getD {xs ys : List UInt8} (length : xs.length = ys.length)
    (same : ∀ i : Nat, xs[i]?.getD 0 = ys[i]?.getD 0) : xs = ys := by
  apply List.ext_getElem length
  intro i h h'
  have here := same i
  rwa [List.getElem?_eq_getElem h, List.getElem?_eq_getElem h'] at here

namespace LiveFile

/-- The blocks of a file hold its bytes, and zeros beyond its end. -/
theorem Sound.byte_eq (sound : f.Sound m image) {i : Nat} (inside : i < 512 * f.layout.count) :
    f.layout.byte image i = (f.content image)[i]?.getD 0 := by
  rw [getElem?_content]
  split
  · rfl
  · exact sound.beyond (by omega) inside

/-- Bytes that are written over the whole of a file are then what it holds. -/
theorem Mapped.content_eq {data : List UInt8} (mapped : f.Mapped m image)
    (written : f.layout.Overwritten image image' 0 data) (all : data.length = f.disk.length) :
    f.content image' = data := by
  have long := mapped.long
  refine List.ext_getElem? fun i => ?_
  rw [getElem?_content]
  split
  case isTrue inside =>
    have block : i < 512 * f.layout.count := by
      unfold sectorsFor at long
      omega
    rw [written.bytes block, if_pos (by omega), Nat.sub_zero,
      List.getElem?_eq_getElem (by omega), Option.getD_some]
  case isFalse out => exact (List.getElem?_eq_none (by omega)).symm

theorem getD_content_out {i : Nat} (out : f.disk.length ≤ i) :
    (f.content image)[i]?.getD 0 = 0 := by
  rw [getElem?_content, if_neg (by omega)]
  rfl

end LiveFile

/-! ## Files that have grown -/

namespace FileBlocks.Grown

variable {b b' : FileBlocks m} {s : Sector} {length : Nat}

theorem length_eq (grown : Grown b b' image image' l l' others length)
    (fits : length ≤ maxFileBytes) : b'.disk.length = max b.disk.length length := by
  rw [length_of_bare grown.bare, length_lengthened _ fits]

theorem marked (grown : Grown b b' image image' l l' others length) :
    b'.disk.isMarked = b.disk.isMarked := by
  have word : b'.disk.bare.magic = (lengthened b.disk length).bare.magic := by rw [grown.bare]
  change b'.disk.magic = (lengthened b.disk length).magic at word
  rw [Inode.isMarked, word, lengthened, Inode.isMarked]
  split <;> rfl

/-- The bytes that were there, and zeros after them. -/
theorem byte_eq (grown : Grown b b' image image' l l' others length)
    (same : ∀ t ∈ l'.owned, image₁ t = image' t) {i : Nat} (inside : i < 512 * l'.count) :
    l'.byte image₁ i = if i < 512 * l.count then l.byte image i else 0 := by
  have block : i / 512 < l'.count := by omega
  have group := Layout.lt_of_whole grown.holds.stored.whole block
  rw [Layout.byte, same _ (Layout.block_mem_owned group)]
  split
  · have old : i / 512 < l.count := by omega
    rw [Layout.block_of_trim grown.trim old, grown.kept.blocks _ old, Layout.byte]
  · rw [grown.zeros _ (by omega) block, Vector.getElem?_eq_getElem (Nat.mod_lt _ (by decide))]
    simp [Block.zero, Block.filled]

/-- A file that has grown is sound once its inode is stored. -/
theorem sound (grown : Grown b b' image image' l l' (s.index :: others) length)
    (fits : length ≤ maxFileBytes) (marked : b.disk.isMarked = true)
    (count : l.count = sectorsFor b.disk.length)
    (beyond : ∀ i, b.disk.length ≤ i → i < 512 * l.count → l.byte image i = 0) :
    (⟨s, b'.disk, l'⟩ : LiveFile).Sound m (Function.update image' s.index b'.disk.encode) := by
  have nodup := grown.holds.marks.nodup
  have apart : s.index ∉ l'.owned := fun mem =>
    (List.nodup_append'.1 nodup).2.2 List.mem_cons_self mem
  have same : ∀ t ∈ l'.owned, Function.update image' s.index b'.disk.encode t = image' t :=
    fun t mem => Function.update_of_ne (fun here : t = s.index => apart (here ▸ mem)) _ _
  have length := grown.length_eq fits
  exact {
    inode := by rw [Function.update_self, Inode.decode_encode]
    marked := grown.marked.trans marked
    stored := grown.holds.stored.congr fun t mem => same t (Layout.index_mem_owned mem)
    count := by
      rw [grown.count, count, length]
      unfold sectorsFor
      omega
    beyond := fun {i} out inside => by
      change b'.disk.length ≤ i at out
      rw [grown.byte_eq same inside]
      split
      · exact beyond i (by omega) (by assumption)
      · rfl }

end FileBlocks.Grown

namespace Volume

/-! ## Reading -/

theorem readAhead_spec {Q : Except Failure Unit → Volume m → Image → Prop} {off : Nat}
    (mapped : f.Mapped m image) (done : ∀ r, Q r v image) :
    (readAhead f.disk off).Ensures m mayFail v image Q := by
  rw [readAhead, Action.ensures_bind]
  by_cases inside : off < f.disk.length
  · have block : off / 512 < f.layout.count := by
      have long := mapped.long
      unfold sectorsFor at long
      omega
    refine sectorOfByte_spec mapped.stored inside block ?_ fun _ => done _
    rw [Action.onward_ok, Action.ensures_prefetch]
    exact ⟨done _, fun _ => done _⟩
  · unfold Inode.sectorOfByte
    rw [if_pos (by omega)]
    exact done _

/-- Copies out up to `len` bytes from `off` on. -/
def copyBytes (disk : Inode) (off len : Nat) : VolumeAction m (List UInt8) := do
  if disk.length ≤ off ∨ len = 0 then return []
  else return (← (chunks off (min len (disk.length - off))).mapM (readChunk disk)).flatten

/-- Asks for the block behind these bytes, if there were any. -/
def askAhead (disk : Inode) (off len : Nat) : VolumeAction m Unit :=
  if disk.length ≤ off ∨ len = 0 then pure ()
  else
    let stop := off + min len (disk.length - off)
    Action.ignoreError (readAhead disk (sectorsFor stop * bytesPerSector))

/-- A read copies its bytes out and then asks for what follows. -/
theorem readBytes_eq (h : Handle) (off len : Nat) :
    (readBytes h off len : VolumeAction m (List UInt8)) = do
      let disk := (← Volume.node h).disk
      let bytes ← copyBytes disk off len
      askAhead disk off len
      return bytes := by
  refine congrArg (Volume.node h >>= ·) (funext fun node => ?_)
  simp only [copyBytes, askAhead, readWithin]
  split
  · simp only [pure_bind]
  · simp only [bind_assoc, pure_bind]

theorem copyBytes_spec {Q : Except Failure (List UInt8) → Volume m → Image → Prop}
    {off len : Nat} (mapped : f.Mapped m image)
    (ok : Q (.ok (((f.content image).drop off).take len)) v image)
    (io : mayFail → Q (.error .io) v image) :
    (copyBytes f.disk off len).Ensures m mayFail v image Q := by
  rw [LiveFile.content, Layout.bytes_eq_take] at ok
  rw [copyBytes]
  split
  case isTrue none =>
    have empty : f.layout.bytes image off (min (off + len) f.disk.length) = [] := by
      rw [← List.length_eq_zero_iff, Layout.length_bytes]
      omega
    rw [empty] at ok
    exact ok
  case isFalse some =>
    have stop : off + min len (f.disk.length - off) = min (off + len) f.disk.length := by omega
    rw [Action.ensures_bind]
    refine readChunks_spec mapped.stored (by omega) (by omega) mapped.long (fun parts all => ?_) io
    rw [Action.onward_ok, Action.ensures_pure, all, stop]
    exact ok

theorem askAhead_spec {Q : Except Failure Unit → Volume m → Image → Prop} {off len : Nat}
    (mapped : f.Mapped m image) (done : Q (.ok ()) v image) :
    (askAhead f.disk off len).Ensures m mayFail v image Q := by
  rw [askAhead]
  split
  · exact done
  · rw [Action.ensures_ignoreError]
    exact readAhead_spec mapped fun _ => done

/-- A read gives the bytes of the file that are in its range. -/
theorem readBytes_spec {Q : Except Failure (List UInt8) → Volume m → Image → Prop} {h : Handle}
    {node : LoadedInode} {off len : Nat} (mapped : f.Mapped m image)
    (found : v.find? h.sector = some node) (disk : node.disk = f.disk)
    (ok : Q (.ok (((f.content image).drop off).take len)) v image)
    (io : mayFail → Q (.error .io) v image) :
    (readBytes h off len).Ensures m mayFail v image Q := by
  rw [readBytes_eq, Action.ensures_bind]
  refine node_spec found ?_
  rw [Action.onward_ok, disk, Action.ensures_bind]
  refine copyBytes_spec mapped ?_ io
  rw [Action.onward_ok, Action.ensures_bind]
  refine askAhead_spec mapped ?_
  rw [Action.onward_ok, Action.ensures_pure]
  exact ok

/-! ## Growing -/

theorem status_update {s : Sector} {node node' : LoadedInode} (found : v.find? s = some node)
    (open_now : v'.find? = Function.update v.find? s (some node'))
    (openers : node'.openers = node.openers) (removed : node'.removed = node.removed)
    (denials : node'.denials = node.denials) : v'.status = v.status := by
  funext t
  rw [status, open_now]
  by_cases here : t = s
  · subst here
    rw [Function.update_self, status, found, Option.map_some, Option.map_some, openers, removed,
      denials]
  · rw [Function.update_of_ne here, status]

/-- A file that could not grow holds what it held. -/
theorem changed_of_extended {b' : FileBlocks m} {node : LoadedInode}
    (sound : v.Sound image (f :: rest)) (found : v.find? f.sector = some node)
    (extended : FileBlocks.Extended ⟨f.disk, v.free⟩ b' image image' f.layout f.layout
      (f.sector.index :: rest.flatMap LiveFile.owned)) :
    Changed v ({ v with free := b'.free }.put { node with disk := b'.disk }) image image' f f
      rest ∧ f.content image' = f.content image := by
  have old := sound.each f List.mem_cons_self
  have disk : b'.disk = f.disk :=
    old.stored.describes.unique extended.holds.stored.describes extended.bare
  have byte : ∀ i, i < 512 * f.layout.count → f.layout.byte image' i = f.layout.byte image i := by
    intro i inside
    rw [Layout.byte, extended.kept.blocks (i / 512) (by omega), Layout.byte]
  have same := old.content_congr byte
  have open_now : ({ v with free := b'.free }.put { node with disk := b'.disk }).find? =
      Function.update v.find? f.sector (some { node with disk := b'.disk }) :=
    find?_put_self (v := { v with free := b'.free }) found _ rfl
  refine ⟨⟨sound.replace rfl ?_ extended.holds.marks ?_ ?_ ?_, rfl, ?_, ?_⟩, same⟩
  · refine { old with inode := ?_, stored := ?_, beyond := fun out inside => ?_ }
    · rw [extended.kept.others _ List.mem_cons_self]
      exact old.inode
    · have stored := extended.holds.stored
      rwa [disk] at stored
    · rw [byte _ inside]
      exact old.beyond out inside
  · exact fun s mem => extended.kept.others s (List.mem_cons_of_mem _ mem)
  · intro s other
    rw [open_now, Function.update_of_ne other]
  · intro node' found'
    rw [open_now, Function.update_self] at found'
    cases found'
    exact disk
  · exact fun s mem => extended.kept.others s (List.mem_cons_of_mem _ mem)
  · exact status_update found open_now rfl rfl rfl

/-- The bytes of a file that has grown are the old ones, and zeros. -/
theorem changed_of_grown {b' : FileBlocks m} {node : LoadedInode} {length : Nat}
    (sound : v.Sound image (f :: rest)) (found : v.find? f.sector = some node)
    (fits : length ≤ maxFileBytes)
    (grown : FileBlocks.Grown ⟨f.disk, v.free⟩ b' image image' f.layout l'
      (f.sector.index :: rest.flatMap LiveFile.owned) length) :
    Changed v ({ v with free := b'.free }.put { node with disk := b'.disk }) image
        (Function.update image' f.sector.index b'.disk.encode) f ⟨f.sector, b'.disk, l'⟩ rest ∧
      ∀ i : Nat, ((⟨f.sector, b'.disk, l'⟩ : LiveFile).content
        (Function.update image' f.sector.index b'.disk.encode))[i]?.getD 0 =
          (f.content image)[i]?.getD 0 := by
  have old := sound.each f List.mem_cons_self
  have new := grown.sound fits old.marked old.count fun i => old.beyond
  have length_eq := grown.length_eq fits
  have open_now : ({ v with free := b'.free }.put { node with disk := b'.disk }).find? =
      Function.update v.find? f.sector (some { node with disk := b'.disk }) :=
    find?_put_self (v := { v with free := b'.free }) found _ rfl
  have nodup := List.nodup_append'.1 grown.holds.marks.nodup
  have apart : f.sector.index ∉ l'.owned := fun mem => nodup.2.2 List.mem_cons_self mem
  have kept : ∀ s ∈ rest.flatMap LiveFile.owned,
      Function.update image' f.sector.index b'.disk.encode s = image s := by
    intro s mem
    have other : s ≠ f.sector.index := fun here =>
      (List.nodup_cons.1 nodup.1).1 (here ▸ mem)
    rw [Function.update_of_ne other]
    exact grown.kept.others s (List.mem_cons_of_mem _ mem)
  refine ⟨⟨sound.replace rfl new grown.holds.marks kept ?_ ?_, rfl, kept, ?_⟩, fun i => ?_⟩
  · intro s other
    rw [open_now, Function.update_of_ne other]
  · intro node' found'
    rw [open_now, Function.update_self] at found'
    cases found'
    rfl
  · exact status_update found open_now rfl rfl rfl
  · by_cases inside : i < 512 * l'.count
    · have same : ∀ t ∈ l'.owned,
          Function.update image' f.sector.index b'.disk.encode t = image' t :=
        fun t mem =>
        Function.update_of_ne (fun here : t = f.sector.index => apart (here ▸ mem)) _ _
      rw [← new.byte_eq inside, grown.byte_eq same inside]
      split
      · exact old.byte_eq (by assumption)
      · have := old.length_le
        exact (LiveFile.getD_content_out (by omega)).symm
    · have out : b'.disk.length ≤ 512 * l'.count := new.length_le
      have out' := old.length_le
      have more : f.layout.count ≤ l'.count := by
        have := grown.count
        omega
      rw [LiveFile.getD_content_out (show b'.disk.length ≤ i by omega),
        LiveFile.getD_content_out (by omega)]

theorem grow_spec {Q : Except Failure Inode → Volume m → Image → Prop} {node : LoadedInode}
    {length : Nat} (sound : v.Sound image (f :: rest)) (found : v.find? f.sector = some node)
    (ok : ∀ v' image' f', Changed v v' image image' f f' rest →
      f'.disk.length = max f.disk.length length →
      (∀ i : Nat, (f'.content image')[i]?.getD 0 = (f.content image)[i]?.getD 0) →
      Q (.ok f'.disk) v' image')
    (error : ∀ e v' image', Changed v v' image image' f f rest →
      f.content image' = f.content image → Q (.error e) v' image') :
    (grow node length).Ensures m False v image Q := by
  obtain ⟨sector, openers, removed, denials, disk'⟩ := node
  obtain rfl : sector = f.sector := sector_of_find? found
  have disk := sound.disk_of_find? found
  rw [grow, Action.ensures_bind]
  refine onBlocks_spec ?_
  dsimp only at disk ⊢
  rw [disk]
  refine FileBlocks.growTo_spec sound.holds (fun b' image' l' fits grown => ?_)
    fun e b' image' l' io same extended => ?_
  · obtain ⟨changed, bytes⟩ := changed_of_grown sound found fits grown
    simp only [Action.onward_ok, Action.ensures_bind, Action.ensures_modify,
      Action.ensures_liftExcept, Action.ensures_writeInode, Action.ensures_pure]
    refine ⟨sound.inside List.mem_cons_self, ?_, False.elim⟩
    exact ok _ _ _ changed (grown.length_eq fits) bytes
  · obtain rfl := same (.inl id)
    obtain ⟨changed, bytes⟩ := changed_of_extended sound found extended
    exact error e _ _ changed bytes

theorem reach_spec {Q : Except Failure Inode → Volume m → Image → Prop} {node : LoadedInode}
    {length : Nat} (sound : v.Sound image (f :: rest)) (found : v.find? f.sector = some node)
    (ok : ∀ v' image' f', Changed v v' image image' f f' rest →
      (length ≤ f.disk.length → f' = f) → f'.disk.length = max f.disk.length length →
      (∀ i : Nat, (f'.content image')[i]?.getD 0 = (f.content image)[i]?.getD 0) →
      Q (.ok f'.disk) v' image')
    (error : f.disk.length < length → ∀ e v' image', Changed v v' image image' f f rest →
      f.content image' = f.content image → Q (.error e) v' image') :
    (reach node length).Ensures m False v image Q := by
  have disk := sound.disk_of_find? found
  rw [reach, disk]
  split
  case isTrue short =>
    refine grow_spec sound found (fun v' image' f' changed => ?_) (error short)
    exact ok v' image' f' changed fun long => absurd short (by omega)
  case isFalse long =>
    exact ok v image f (.refl sound) (fun _ => rfl) (by omega) fun _ => rfl

/-! ## Writing -/

/-- A write inside a file adds no block to it. -/
theorem writeInside_spec {Q : Except Failure Nat → Volume m → Image → Prop} {h : Handle}
    {node : LoadedInode} {off : Nat} {data : List UInt8} (mapped : f.Mapped m image)
    (found : v.find? h.sector = some node) (disk : node.disk = f.disk) (free : node.denials = 0)
    (some_data : data ≠ []) (inside : off + data.length ≤ f.disk.length)
    (ok : ∀ image', f.layout.Overwritten image image' off data → Q (.ok data.length) v image')
    (io : mayFail → ∀ image' n, f.layout.Overwritten image image' off (data.take n) →
      Q (.error .io) v image') :
    (writeBytes h off data).Ensures m mayFail v image Q := by
  have works : ¬ (0 < node.denials ∨ data = []) := by
    rw [free]
    exact not_or.2 ⟨Nat.lt_irrefl 0, some_data⟩
  rw [writeBytes, Action.ensures_bind]
  refine node_spec found ?_
  rw [Action.onward_ok, if_neg works, reach, disk, if_neg (by omega), Action.ensures_bind,
    Action.ensures_pure, Action.onward_ok, Action.ensures_bind]
  exact writeChunks_spec mapped.stored (List.length_pos_iff.2 some_data) inside mapped.long ok io

/-- A file stays sound when bytes before its end are written. -/
theorem changed_of_overwritten {off : Nat} {data : List UInt8}
    (changed : Changed v v' image image₁ f f' rest)
    (written : f'.layout.Overwritten image₁ image' off data)
    (inside : off + data.length ≤ f'.disk.length) :
    Changed v v' image image' f f' rest := by
  have new := changed.sound.each f' List.mem_cons_self
  have nodup := changed.sound.nodup
  rw [List.flatMap_cons, List.nodup_append'] at nodup
  have block {i : Nat} (h : i < f'.layout.count) : f'.layout.block i ∈ f'.layout.owned :=
    Layout.block_mem_owned (Layout.lt_of_whole new.stored.whole h)
  have kept : ∀ s ∈ rest.flatMap LiveFile.owned, image' s = image₁ s := by
    intro s mem
    refine written.outside fun i h same => nodup.2.2 ?_ mem
    exact List.mem_cons_of_mem _ (same ▸ block h)
  have open_here : ∀ node, v'.find? f'.sector = some node → node.disk = f'.disk := fun node =>
    changed.sound.disk_of_find?
  refine ⟨?_, changed.sector, fun s mem => (kept s mem).trans (changed.kept s mem),
    changed.status⟩
  refine changed.sound.replace rfl ?_ changed.sound.holds.marks kept (fun _ _ => rfl) open_here
  refine { new with
    inode := ?_, stored := written.stored new.stored, beyond := fun {i} out within => ?_ }
  · have apart : f'.sector.index ∉ f'.layout.owned := (List.nodup_cons.1 nodup.1).1
    rw [written.outside fun i h (same : _ = f'.sector.index) => apart (same ▸ block h)]
    exact new.inode
  · rw [written.bytes within, if_neg (by omega)]
    exact new.beyond out within

/-- A write that is denied, or of nothing, does nothing. Any other puts its data over the bytes of
the file, or fails and changes none. -/
theorem writeBytes_spec {Q : Except Failure Nat → Volume m → Image → Prop} {h : Handle}
    {node : LoadedInode} {off : Nat} {data : List UInt8} (sound : v.Sound image (f :: rest))
    (at_sector : h.sector = f.sector) (found : v.find? f.sector = some node)
    (denied : 0 < node.denials ∨ data = [] → Q (.ok 0) v image)
    (ok : ∀ v' image' f', node.denials = 0 → data ≠ [] → Changed v v' image image' f f' rest →
      (off + data.length ≤ f.disk.length → f' = f) →
      f'.content image' = overwrite (f.content image) off data → Q (.ok data.length) v' image')
    (error : f.disk.length < off + data.length → node.denials = 0 → data ≠ [] →
      ∀ e v' image', Changed v v' image image' f f rest → f.content image' = f.content image →
      Q (.error e) v' image') :
    (writeBytes h off data).Ensures m False v image Q := by
  rw [writeBytes, Action.ensures_bind]
  refine node_spec (by rwa [at_sector]) ?_
  rw [Action.onward_ok]
  split
  case isTrue nothing => exact denied nothing
  case isFalse something =>
    rw [not_or] at something
    have free : node.denials = 0 := by omega
    have some : 0 < data.length := List.length_pos_iff.2 something.2
    rw [Action.ensures_bind]
    refine reach_spec sound found (fun v' image₁ f' changed fixed length same => ?_)
      fun short => error short free something.2
    have new := changed.sound.each f' List.mem_cons_self
    rw [Action.onward_ok, Action.ensures_bind]
    refine writeChunks_spec new.stored some (by omega) new.mapped.long (fun image' written => ?_)
      False.elim
    have changed' := changed_of_overwritten changed written (by omega)
    have new' := changed'.sound.each f' List.mem_cons_self
    refine ok v' image' f' free something.2 changed' fixed (ext_getD ?_ fun i => ?_)
    · rw [length_overwrite, LiveFile.length_content, LiveFile.length_content, length]
    · rw [getD_overwrite, ← same]
      by_cases inside : i < 512 * f'.layout.count
      · rw [← new'.byte_eq inside, written.bytes inside, new.byte_eq inside]
      · have out := new.length_le
        rw [LiveFile.getD_content_out (by omega), if_neg (by omega),
          LiveFile.getD_content_out (by omega)]

end Volume

end SectorFs
