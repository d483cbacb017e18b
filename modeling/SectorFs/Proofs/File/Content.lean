/-
# SectorFs.Proofs.File.Content — the bytes of a file, read and written in chunks

Byte `i` of a file stands in its block `i / 512` (`Layout.byte`). A byte range is
read and written block by block; the chunks of a range meet at the cuts of the
range (`cut`), so that reading them one after another gives the bytes of the
range in order (`readChunks_spec`) and writing them puts the data there and
changes nothing else (`writeChunks_spec`).
-/
import SectorFs.Volume.File
import SectorFs.Proofs.File.Lookup

namespace SectorFs

set_option autoImplicit false

variable {m : Nat} {mayFail : Prop} {image image' image₁ : Image} {l : Layout} {d : Inode}
  {v : Volume m}

/-! ## Blocks and bytes -/

theorem Block.getElem?_patch (b : Block 512) (off : Nat) (data : List UInt8) (i : Nat)
    (h : i < 512) : (b.patch off data)[i]? =
      if off ≤ i ∧ i < off + data.length then data[i - off]? else b[i]? := by
  rw [Vector.getElem?_eq_getElem h]
  split
  case isTrue inside =>
    rw [getElem_patch_inside b off data i h inside.1 (by omega), List.getElem?_eq_getElem]
  case isFalse outside =>
    rw [getElem_patch_outside b off data i h (by omega), Vector.getElem?_eq_getElem h]

namespace Layout

/-- Byte `i` of a file. -/
def byte (l : Layout) (image : Image) (i : Nat) : UInt8 :=
  (image (l.block (i / 512)))[i % 512]?.getD 0

/-- The bytes of a file from `off` to just before `stop`. -/
def bytes (l : Layout) (image : Image) (off stop : Nat) : List UInt8 :=
  (List.range' off (stop - off)).map (l.byte image)

theorem length_bytes (l : Layout) (image : Image) (off stop : Nat) :
    (l.bytes image off stop).length = stop - off := by
  simp [bytes]

theorem getElem?_bytes (l : Layout) (image : Image) (off stop i : Nat) :
    (l.bytes image off stop)[i]? =
      if off + i < stop then some (l.byte image (off + i)) else none := by
  rw [bytes, List.getElem?_map]
  split
  case isTrue h => rw [List.getElem?_range' (by omega), Option.map_some, Nat.one_mul]
  case isFalse h => rw [List.getElem?_eq_none (by simp; omega), Option.map_none]

theorem bytes_append {off mid stop : Nat} (lo : off ≤ mid) (hi : mid ≤ stop) :
    l.bytes image off mid ++ l.bytes image mid stop = l.bytes image off stop := by
  rw [bytes, bytes, ← List.map_append, bytes]
  have first : mid = off + (mid - off) := by omega
  have sum : stop - off = mid - off + (stop - mid) := by omega
  conv => lhs; rhs; rhs; rw [first]
  rw [List.range'_append_1, sum, ← first]

/-- A part of a file is a part of all its bytes. -/
theorem bytes_eq_take (l : Layout) (image : Image) (off len n : Nat) :
    ((l.bytes image 0 n).drop off).take len = l.bytes image off (min (off + len) n) := by
  apply List.ext_getElem?
  intro i
  rw [List.getElem?_take, List.getElem?_drop, getElem?_bytes, getElem?_bytes, Nat.zero_add]
  by_cases short : i < len
  · rw [if_pos short]
    exact if_congr (by omega) rfl rfl
  · rw [if_neg short, if_neg (by omega)]

/-- A range inside one block is a slice of the block's sector. -/
theorem slice_block {off len : Nat} (inside : off % 512 + len ≤ 512) :
    (image (l.block (off / 512))).slice (off % 512) len = l.bytes image off (off + len) := by
  apply List.ext_getElem?
  intro i
  rw [Block.getElem?_slice, getElem?_bytes]
  by_cases short : i < len
  · have block : (off + i) / 512 = off / 512 := by omega
    have place : (off + i) % 512 = off % 512 + i := by omega
    rw [if_pos short, if_pos (by omega), byte, block, place,
      Vector.getElem?_eq_getElem (by omega), Option.getD_some]
  · rw [if_neg short, if_neg (by omega)]

/-- The bytes of a file from `off` on are `data`, and nothing else changed. -/
structure Overwritten (l : Layout) (image image' : Image) (off : Nat) (data : List UInt8) :
    Prop where
  bytes {i : Nat} : i < 512 * l.count → l.byte image' i =
    if off ≤ i ∧ i < off + data.length then data[i - off]?.getD 0 else l.byte image i
  outside {s : Nat} : (∀ i, i < l.count → l.block i ≠ s) → image' s = image s

theorem Overwritten.nil (l : Layout) (image : Image) (off : Nat) :
    l.Overwritten image image off [] where
  bytes {i} _ := by rw [if_neg (by simp)]
  outside _ := rfl

theorem Overwritten.append {off off' : Nat} {data data' : List UInt8}
    (first : l.Overwritten image image₁ off data) (second : l.Overwritten image₁ image' off' data')
    (next : data' ≠ [] → off' = off + data.length) :
    l.Overwritten image image' off (data ++ data') where
  bytes {i} inside := by
    rw [second.bytes inside, first.bytes inside]
    cases data' with
    | nil => rw [if_neg (by simp), List.append_nil]
    | cons x rest =>
      rw [next (List.cons_ne_nil x rest), List.length_append]
      by_cases one : off ≤ i ∧ i < off + data.length
      · rw [if_neg (by omega), if_pos one, if_pos (by omega),
          List.getElem?_append_left (by omega)]
      · by_cases two : off + data.length ≤ i ∧ i < off + data.length + (x :: rest).length
        · rw [if_pos two, if_pos (by omega), List.getElem?_append_right (by omega), Nat.sub_sub]
        · rw [if_neg two, if_neg one, if_neg (by omega)]
  outside other := (second.outside other).trans (first.outside other)

/-- Data that is written inside one block. -/
theorem Stored.overwritten {off : Nat} {data : List UInt8} (stored : l.Stored m d image)
    (block : off / 512 < l.count) (fits : off % 512 + data.length ≤ 512) :
    l.Overwritten image (Function.update image (l.block (off / 512))
      ((image (l.block (off / 512))).patch (off % 512) data)) off data where
  bytes {i} inside := by
    have group {j : Nat} (h : j < l.count) : j / 8 < l.groups.length :=
      lt_of_whole stored.whole h
    by_cases same : i / 512 = off / 512
    · rw [byte, same, Function.update_self, Block.getElem?_patch _ _ _ _ (Nat.mod_lt i (by decide)),
        byte, same]
      by_cases new : off ≤ i ∧ i < off + data.length
      · have place : i % 512 - off % 512 = i - off := by omega
        rw [if_pos (by omega), if_pos new, place]
      · rw [if_neg (by omega), if_neg new]
    · have other : l.block (i / 512) ≠ l.block (off / 512) := fun both =>
        same (block_inj stored.nodup (group (by omega)) (group block) both)
      rw [byte, Function.update_of_ne other, if_neg (by omega), byte]
  outside other := Function.update_of_ne (Ne.symm (other _ block)) _ _

/-- The index blocks stay when blocks are written. -/
theorem Overwritten.stored {off : Nat} {data : List UInt8} (stored : l.Stored m d image)
    (overwritten : l.Overwritten image image' off data) : l.Stored m d image' :=
  stored.congr fun _ mem => overwritten.outside fun _ inside same =>
    block_not_index stored.nodup (lt_of_whole stored.whole inside) (same ▸ mem)

end Layout

/-! ## The cuts of a range -/

/-- Where the range of `len` bytes from `off` on is cut at the start of a block. -/
def cut (off len block : Nat) : Nat := max off (min (off + len) (block * 512))

theorem cut_mono {off len block block' : Nat} (le : block ≤ block') :
    cut off len block ≤ cut off len block' := by
  have := Nat.mul_le_mul_right 512 le
  unfold cut
  omega

theorem cut_first (off len : Nat) : cut off len (off / 512) = off := by
  unfold cut
  omega

theorem cut_last (off len : Nat) : cut off len (sectorsFor (off + len)) = off + len := by
  unfold cut sectorsFor
  omega

theorem chunkIn_eq {off len block : Nat} (last : block < sectorsFor (off + len)) :
    chunkIn off len block =
      ⟨cut off len block, cut off len (block + 1) - cut off len block⟩ := by
  unfold sectorsFor at last
  simp only [chunkIn, cut, bytesPerSector, Chunk.mk.injEq]
  omega

/-- A chunk that has bytes lies inside its block. -/
theorem chunk_inside {off len block : Nat} (first : off / 512 ≤ block)
    (some : cut off len block < cut off len (block + 1)) :
    cut off len block / 512 = block ∧
      cut off len block % 512 + (cut off len (block + 1) - cut off len block) ≤ 512 ∧
      cut off len (block + 1) ≤ off + len := by
  unfold cut at some ⊢
  omega

theorem cut_lt {off len block : Nat} (pos : 0 < len) (first : off / 512 ≤ block)
    (last : block < sectorsFor (off + len)) : cut off len block < cut off len (block + 1) := by
  unfold cut
  unfold sectorsFor at last
  omega

/-! ## Reading -/

theorem sectorOfByte_spec {σ : Type} {memory : σ} {i : Nat}
    {Q : Except Failure (Option Sector) → σ → Image → Prop} (stored : l.Stored m d image)
    (inside : i < d.length) (block : i / 512 < l.count)
    (ok : Q (.ok (some (Sector.ofNat (l.block (i / 512))))) memory image)
    (io : mayFail → Q (.error .io) memory image) :
    (d.sectorOfByte i : Action σ _).Ensures m mayFail memory image Q := by
  unfold Inode.sectorOfByte
  rw [if_neg (by omega)]
  exact sectorOfBlock_spec stored block ok io

/-- A list of reads gives what the single ones give. -/
theorem mapM_spec {σ α β : Type} {memory : σ} {f : α → Action σ β} {g : α → β} {xs : List α}
    {Q : Except Failure (List β) → σ → Image → Prop}
    (each : ∀ x ∈ xs, ∀ Q : Except Failure β → σ → Image → Prop, Q (.ok (g x)) memory image →
      (mayFail → Q (.error .io) memory image) → (f x).Ensures m mayFail memory image Q)
    (ok : Q (.ok (xs.map g)) memory image) (io : mayFail → Q (.error .io) memory image) :
    (xs.mapM f).Ensures m mayFail memory image Q := by
  induction xs generalizing Q with
  | nil =>
    rw [List.mapM_nil]
    exact ok
  | cons x xs ih =>
    rw [List.mapM_cons, Action.ensures_bind]
    refine each x List.mem_cons_self _ ?_ io
    rw [Action.onward_ok, Action.ensures_bind]
    exact ih (fun y mem => each y (List.mem_cons_of_mem x mem)) ok io

namespace Volume

theorem readChunk_spec {Q : Except Failure (List UInt8) → Volume m → Image → Prop}
    {start length : Nat} (stored : l.Stored m d image) (some : 0 < length)
    (fits : start % 512 + length ≤ 512) (inside : start + length ≤ d.length)
    (long : sectorsFor d.length ≤ l.count)
    (ok : Q (.ok (l.bytes image start (start + length))) v image)
    (io : mayFail → Q (.error .io) v image) :
    (readChunk d ⟨start, length⟩).Ensures m mayFail v image Q := by
  have block : start / 512 < l.count := by
    unfold sectorsFor at long
    omega
  have own := Layout.block_mem_owned (Layout.lt_of_whole stored.whole block)
  rw [readChunk, Action.ensures_bind]
  refine sectorOfByte_spec stored (show start < d.length by omega) block ?_ io
  rw [Action.onward_ok]
  simp only [Chunk.offset, bytesPerSector, Action.ensures_read, stored.index_ofNat own,
    Layout.slice_block fits]
  exact ⟨⟨stored.inside _ own, fits⟩, ok, io⟩

/-- The chunks of a range, put together. -/
theorem flatten_chunks {off len : Nat} : ∀ k first,
    ((List.range' first k).map fun block =>
      l.bytes image (cut off len block) (cut off len (block + 1))).flatten =
        l.bytes image (cut off len first) (cut off len (first + k))
  | 0, first => by simp [Layout.bytes]
  | k + 1, first => by
      rw [List.range'_succ, List.map_cons, List.flatten_cons, flatten_chunks k (first + 1),
        Layout.bytes_append (cut_mono (Nat.le_succ _)) (cut_mono (by omega))]
      congr 2
      omega

/-- Reading the chunks of a range gives its bytes. -/
theorem readChunks_spec {Q : Except Failure (List (List UInt8)) → Volume m → Image → Prop}
    {off len : Nat} (stored : l.Stored m d image) (some : 0 < len)
    (inside : off + len ≤ d.length) (long : sectorsFor d.length ≤ l.count)
    (ok : ∀ parts, parts.flatten = l.bytes image off (off + len) → Q (.ok parts) v image)
    (io : mayFail → Q (.error .io) v image) :
    ((chunks off len).mapM (readChunk d)).Ensures m mayFail v image Q := by
  refine mapM_spec (g := fun chunk => l.bytes image chunk.start (chunk.start + chunk.length))
    (fun chunk mem Q ok io => ?_) (ok _ ?_) io
  · obtain ⟨block, range, rfl⟩ := List.mem_map.1 mem
    rw [List.mem_range'_1] at range
    have last : block < sectorsFor (off + len) := by omega
    have more := cut_lt some range.1 last
    obtain ⟨-, fits, stop⟩ := chunk_inside range.1 more
    rw [chunkIn_eq last] at ok ⊢
    exact readChunk_spec stored (by omega) fits (by omega) long ok io
  · have first : off / 512 ≤ sectorsFor (off + len) := by
      unfold sectorsFor
      omega
    have each : (chunks off len).map (fun chunk =>
        l.bytes image chunk.start (chunk.start + chunk.length)) =
        (List.range' (off / 512) (sectorsFor (off + len) - off / 512)).map fun block =>
          l.bytes image (cut off len block) (cut off len (block + 1)) := by
      rw [chunks, List.map_map]
      refine List.map_congr_left fun block mem => ?_
      rw [List.mem_range'_1] at mem
      have last : block < sectorsFor (off + len) := by omega
      have mono : cut off len block ≤ cut off len (block + 1) := cut_mono (Nat.le_succ block)
      rw [Function.comp_apply, chunkIn_eq last]
      congr 1
      exact Nat.add_sub_cancel' mono
    rw [each, flatten_chunks, Nat.add_sub_cancel' first, cut_first, cut_last]

/-! ## Writing -/

theorem writeChunk_spec {Q : Except Failure Unit → Volume m → Image → Prop} {start length : Nat}
    {limit : Nat} {data : List UInt8} (stored : l.Stored m d image) (some : 0 < data.length)
    (fits : start % 512 + data.length ≤ 512) (inside : start + data.length ≤ d.length)
    (long : sectorsFor d.length ≤ l.count)
    (ok : ∀ image', l.Overwritten image image' start data → Q (.ok ()) v image')
    (io : mayFail → Q (.error .io) v image) :
    (writeChunk d limit ⟨start, length⟩ data).Ensures m mayFail v image Q := by
  have block : start / 512 < l.count := by
    unfold sectorsFor at long
    omega
  have own := Layout.block_mem_owned (Layout.lt_of_whole stored.whole block)
  rw [writeChunk, Action.ensures_bind]
  refine sectorOfByte_spec stored (show start < d.length by omega) block ?_ io
  rw [Action.onward_ok]
  simp only [Chunk.offset, bytesPerSector, Action.ensures_write, stored.index_ofNat own]
  exact ⟨⟨stored.inside _ own, fits⟩, ok _ (stored.overwritten block fits), io⟩

theorem writeChunksFrom_spec {Q : Except Failure Unit → Volume m → Image → Prop}
    {off len limit : Nat} (pos : 0 < len) (inside : off + len ≤ d.length)
    (long : sectorsFor d.length ≤ l.count) :
    ∀ (k first : Nat) (data : List UInt8) (image : Image), l.Stored m d image →
      off / 512 ≤ first → first + k = sectorsFor (off + len) →
      data.length = off + len - cut off len first →
      (∀ image', l.Overwritten image image' (cut off len first) data → Q (.ok ()) v image') →
      (mayFail → ∀ image' n, l.Overwritten image image' (cut off len first) (data.take n) →
        Q (.error .io) v image') →
      (writeChunks d limit ((List.range' first k).map (chunkIn off len)) data).Ensures m mayFail v
        image Q
  | 0, first, data, image, stored, lo, last, length, ok, io => by
      obtain rfl : first = sectorsFor (off + len) := last
      rw [cut_last, Nat.sub_self] at length
      obtain rfl := List.length_eq_zero_iff.1 length
      exact ok image (.nil l image _)
  | k + 1, first, data, image, stored, lo, last, length, ok, io => by
      have hi : first < sectorsFor (off + len) := by omega
      have more := cut_lt pos lo hi
      obtain ⟨-, fits, stop⟩ := chunk_inside lo more
      have size : (data.take (cut off len (first + 1) - cut off len first)).length =
          cut off len (first + 1) - cut off len first := by
        rw [List.length_take]
        omega
      rw [List.range'_succ, List.map_cons, writeChunks, chunkIn_eq hi, Action.ensures_bind]
      dsimp only
      refine writeChunk_spec stored (by omega) (by omega) (by omega) long
        (fun image₁ first_written => ?_) fun may => io may image 0 ?_
      · rw [Action.onward_ok]
        refine writeChunksFrom_spec pos inside long k (first + 1) _ image₁
          (first_written.stored stored) (by omega) (by omega) ?_ (fun image' rest_written => ?_)
          fun may image' n rest_written => ?_
        · rw [List.length_drop]
          omega
        · refine ok image' ?_
          have both := first_written.append rest_written fun _ => by omega
          rwa [List.take_append_drop] at both
        · refine io may image' (cut off len (first + 1) - cut off len first + n) ?_
          have both := first_written.append rest_written fun _ => by omega
          rwa [← List.take_add] at both
      · rw [List.take_zero]
        exact .nil l image _

/-- Writing the chunks of a range puts the data there; a failure leaves the front of it. -/
theorem writeChunks_spec {Q : Except Failure Unit → Volume m → Image → Prop} {off limit : Nat}
    {data : List UInt8} (stored : l.Stored m d image) (some : 0 < data.length)
    (inside : off + data.length ≤ d.length) (long : sectorsFor d.length ≤ l.count)
    (ok : ∀ image', l.Overwritten image image' off data → Q (.ok ()) v image')
    (io : mayFail → ∀ image' n, l.Overwritten image image' off (data.take n) →
      Q (.error .io) v image') :
    (writeChunks d limit (chunks off data.length) data).Ensures m mayFail v image Q := by
  have first : off / 512 ≤ sectorsFor (off + data.length) := by
    unfold sectorsFor
    omega
  refine writeChunksFrom_spec some inside long _ _ data image stored (Nat.le_refl _)
    (Nat.add_sub_cancel' first) ?_ (fun image' written => ok image' ?_)
    fun may image' n written => io may image' n ?_
  · change data.length = off + data.length - cut off data.length (off / 512)
    rw [cut_first]
    omega
  · change l.Overwritten image image' (cut off data.length (off / 512)) data at written
    rwa [cut_first] at written
  · change l.Overwritten image image' (cut off data.length (off / 512)) (data.take n) at written
    rwa [cut_first] at written

end Volume

end SectorFs
