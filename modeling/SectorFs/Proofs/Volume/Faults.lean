/-
# SectorFs.Proofs.Volume.Faults — files grow and are written although requests fail

An open file goes on from what it was, whatever fails: it has its old blocks first
(`LiveFile.Extends`), its stored inode stays behind or catches up, and no other file
notices (`Moved`). `writeSafe_spec` says so of a write. A write that succeeds leaves
a file stored as it is in memory if it was so before; of the writes that fail only one that
reaches beyond the end of the file can do otherwise. No write changes a byte of the file
outside its range, and one that succeeds leaves its data there (`Rewritten`).
-/
import SectorFs.Proofs.Volume.Safe
import SectorFs.Proofs.Volume.System

namespace SectorFs

set_option autoImplicit false

variable {m : Nat} {mayFail : Prop} {image image' image₁ : Image} {l l' : Layout} {d : Inode}
  {v v' : Volume m} {f f' g : LiveFile} {rest : List LiveFile} {others lost : List Nat} {s : Sector}

namespace LiveFile

/-- The blocks of a file that another extends are where its layout says. -/
theorem Extends.mapped (ahead : g.Extends f) (mapped : f.Mapped m image)
    (describes : g.layout.Describes g.disk) (long : sectorsFor g.disk.length ≤ g.layout.count) :
    g.Mapped m image where
  long := long
  stored := by
    have stored := mapped.stored
    have sublist : g.layout.owned.Sublist f.layout.owned := by
      rw [← ahead.trim]
      exact f.layout.owned_trim_sublist _
    exact {
      whole := ahead.trim ▸ Layout.trim_whole stored.whole ahead.le
      describes
      indexed := ahead.trim ▸ stored.indexed.trim ahead.le
      nodup := stored.nodup.sublist sublist
      inside := fun s mem => stored.inside s (sublist.subset mem)
      nonzero := fun mem => stored.nonzero (sublist.subset mem)
      small := stored.small }

/-- A file that goes on from a safe one is safe while what is stored stays. -/
theorem Safe.extend (safe : f.Safe m image) (ahead : f.Extends f') (mapped : f'.Mapped m image')
    (same : image' f.sector.index = image f.sector.index) : f'.Safe m image' := by
  obtain ⟨g, opens, further⟩ := safe.origin
  have further' := further.trans ahead
  refine ⟨mapped, g, ⟨?_, ?_, opens.marked⟩, further'⟩
  · exact further'.mapped mapped opens.stored.describes opens.long
  · exact Settled.congr opens.inode (by rw [← further.sector, same])

end LiveFile

namespace FileBlocks

variable {b b' : FileBlocks m}

/-- A file that got blocks and no greater length goes on from what it was. -/
theorem Extended.extends (extended : Extended b b' image image' l l' others) (s : Sector) :
    (⟨s, b.disk, l⟩ : LiveFile).Extends ⟨s, b'.disk, l'⟩ where
  sector := rfl
  le := extended.le
  trim := extended.trim
  longer := Nat.le_of_eq (length_of_bare extended.bare).symm
  bare := by
    have word := congrArg Inode.lengthWord extended.bare
    change b'.disk.lengthWord = b.disk.lengthWord at word
    dsimp only
    rw [word]
    exact extended.bare.symm

theorem Extended.mapped (extended : Extended b b' image image' l l' others) (s : Sector)
    (long : sectorsFor b.disk.length ≤ l.count) :
    (⟨s, b'.disk, l'⟩ : LiveFile).Mapped m image' where
  stored := extended.holds.stored
  long := by
    dsimp only
    rw [length_of_bare extended.bare]
    exact Nat.le_trans long extended.le

variable {length : Nat}

theorem Grown.extends (grown : Grown b b' image image' l l' others length)
    (fits : length ≤ maxFileBytes) (s : Sector) :
    (⟨s, b.disk, l⟩ : LiveFile).Extends ⟨s, b'.disk, l'⟩ where
  sector := rfl
  le := by
    have count := grown.count
    dsimp only
    omega
  trim := grown.trim
  longer := by
    have length_eq := grown.length_eq fits
    dsimp only
    omega
  bare := by
    have word := congrArg Inode.lengthWord grown.bare
    change b'.disk.lengthWord = (lengthened b.disk length).lengthWord at word
    have only : { b.disk with lengthWord := (lengthened b.disk length).lengthWord } =
        lengthened b.disk length := by
      unfold lengthened
      split <;> rfl
    dsimp only
    rw [word, only, grown.bare]

theorem Grown.mapped (grown : Grown b b' image image' l l' others length)
    (fits : length ≤ maxFileBytes) (s : Sector) (long : sectorsFor b.disk.length ≤ l.count) :
    (⟨s, b'.disk, l'⟩ : LiveFile).Mapped m image' where
  stored := grown.holds.stored
  long := by
    have count := grown.count
    have length_eq := grown.length_eq fits
    unfold sectorsFor at *
    dsimp only
    omega

end FileBlocks

namespace Volume

/-- An operation moved one file on, and touched no other. -/
structure Moved (v v' : Volume m) (image image' : Image) (f f' : LiveFile)
    (rest : List LiveFile) (lost : List Nat) : Prop where
  safe : v'.Safe image' (f' :: rest) lost
  ahead : f.Extends f'
  kept : ∀ s ∈ rest.flatMap LiveFile.owned, image' s = image s
  spared : ∀ s ∈ lost, image' s = image s
  disks : ∀ s, s ≠ f.sector → v'.disks s = v.disks s
  status : v'.status = v.status
  /-- The stored inode stays, or it is the one in memory now. -/
  inode : image' f.sector.index = image f.sector.index ∨ f'.Settled image'

theorem Moved.refl (safe : v.Safe image (f :: rest) lost) : Moved v v image image f f rest lost where
  safe
  ahead := .refl (safe.each f List.mem_cons_self).stored.whole
  kept _ _ := rfl
  spared _ _ := rfl
  disks _ _ := rfl
  status := rfl
  inode := .inl rfl

/-- The blocks of a file hold what they held. -/
def Held (f : LiveFile) (image image' : Image) : Prop :=
  ∀ i, i < f.layout.count → image' (f.layout.block i) = image (f.layout.block i)

/-- What a write to a file answers, and what it does to the bytes of the file. -/
structure Rewritten (mayFail : Prop) (f f' : LiveFile) (image image' : Image) (nothing : Prop)
    (off : Nat) (data : List UInt8) (r : Except Failure Nat) : Prop where
  idle : nothing → r = .ok 0 ∧ f' = f ∧ image' = image
  works : ¬ nothing → r = .ok data.length ∧ ((f'.content image').drop off).take data.length = data ∨
    ∃ e, r = .error e ∧ (mayFail ∨ f.disk.length < off + data.length)
  outside {i : Nat} : i < f.disk.length → i < off ∨ off + data.length ≤ i →
    (f'.content image')[i]? = (f.content image)[i]?

/-- A file that goes on from another has its bytes while the blocks hold what they held. -/
theorem content_of_extends (mapped : f.Mapped m image) (ahead : f.Extends f')
    (held : Held f image image') {i : Nat} (inside : i < f.disk.length) :
    (f'.content image')[i]? = (f.content image)[i]? := by
  have longer := ahead.longer
  have long := mapped.long
  unfold sectorsFor at long
  rw [LiveFile.getElem?_content, LiveFile.getElem?_content, if_pos inside, if_pos (by omega),
    Layout.byte, Layout.byte, Layout.block_of_trim ahead.trim (by omega), held _ (by omega)]

/-- Bytes outside the range that was written stay. -/
theorem content_outside {off : Nat} {data : List UInt8} (mapped : f.Mapped m image)
    (written : f.layout.Overwritten image image' off data) {i : Nat}
    (outside : i < off ∨ off + data.length ≤ i) :
    (f.content image')[i]? = (f.content image)[i]? := by
  have long := mapped.long
  unfold sectorsFor at long
  rw [LiveFile.getElem?_content, LiveFile.getElem?_content]
  split
  · rw [written.bytes (by omega), if_neg (by omega)]
  · rfl

/-- The data that was written is there. -/
theorem content_inside {off : Nat} {data : List UInt8} (mapped : f.Mapped m image)
    (written : f.layout.Overwritten image image' off data)
    (inside : off + data.length ≤ f.disk.length) :
    ((f.content image').drop off).take data.length = data := by
  have long := mapped.long
  unfold sectorsFor at long
  rw [LiveFile.content, Layout.bytes_eq_take, Nat.min_eq_left inside]
  refine List.ext_getElem? fun i => ?_
  rw [Layout.getElem?_bytes]
  split
  case isTrue short =>
    rw [written.bytes (by omega), if_pos (by omega), Nat.add_sub_cancel_left,
      List.getElem?_eq_getElem (by omega), Option.getD_some]
  case isFalse out => exact (List.getElem?_eq_none (by omega)).symm

/-- The file in memory is replaced by one that goes on from it. -/
theorem Safe.moved {node : LoadedInode} {free : FreeMap m} (safe : v.Safe image (f :: rest) lost)
    (found : v.find? f.sector = some node) (ahead : f.Extends ⟨f.sector, d, l'⟩)
    (changed : (⟨f.sector, d, l'⟩ : LiveFile).Safe m image')
    (marks : free.Marks (f.sector.index :: (rest.flatMap LiveFile.owned ++ lost) ++ l'.owned))
    (kept : ∀ s ∈ rest.flatMap LiveFile.owned ++ lost, image' s = image s)
    (inode : image' f.sector.index = image f.sector.index ∨
      (⟨f.sector, d, l'⟩ : LiveFile).Settled image') :
    Moved v ({ v with free }.put { node with disk := d }) image image' f ⟨f.sector, d, l'⟩ rest
      lost := by
  have open_now : ({ v with free }.put { node with disk := d }).find? =
      Function.update v.find? f.sector (some { node with disk := d }) :=
    find?_put_self (v := { v with free }) found _ rfl
  have disks := disks_of_update open_now
  obtain ⟨kept, spared⟩ := List.forall_mem_append.1 kept
  refine ⟨safe.replace rfl changed marks kept disks, ahead, kept, spared, fun s other => ?_, ?_,
    inode⟩
  · exact congrFun disks s |>.trans (Function.update_of_ne other _ _)
  · exact status_update found open_now rfl rfl rfl

/-- Only blocks of the file are written. -/
theorem Safe.overwritten_outside {off : Nat} {data : List UInt8} {i : Nat}
    (safe : v.Safe image (f :: rest) lost) (written : f.layout.Overwritten image image' off data)
    (out : i ∉ f.layout.owned) : image' i = image i :=
  written.outside fun _ h same => out (same ▸ Layout.block_mem_owned
    (Layout.lt_of_whole (safe.each f List.mem_cons_self).stored.whole h))

/-- Writing blocks of a file touches no other, nor the inode that is stored. -/
theorem Safe.overwritten {off : Nat} {data : List UInt8} (safe : v.Safe image (f :: rest) lost)
    (written : f.layout.Overwritten image image' off data) :
    v.Safe image' (f :: rest) lost ∧ image' f.sector.index = image f.sector.index ∧
      ∀ s ∈ rest.flatMap LiveFile.owned, image' s = image s := by
  have file := safe.each f List.mem_cons_self
  have nodup : f.owned.Nodup := (List.nodup_append'.1 safe.nodup).1
  have sector : image' f.sector.index = image f.sector.index :=
    safe.overwritten_outside written (List.nodup_cons.1 nodup).1
  have kept : ∀ s ∈ rest.flatMap LiveFile.owned, image' s = image s := fun s mem =>
    safe.overwritten_outside written fun own => safe.apart (List.mem_cons_of_mem _ own) mem
  have changed : f.Safe m image' := file.extend (.refl file.stored.whole)
    ⟨written.stored file.stored, file.long⟩ sector
  exact ⟨safe.touched changed (·.congr sector) kept, sector, kept⟩

theorem Moved.overwritten {off : Nat} {data : List UInt8}
    (moved : Moved v v' image image₁ f f' rest lost)
    (written : f'.layout.Overwritten image₁ image' off data) :
    Moved v v' image image' f f' rest lost ∧ (f'.Settled image₁ → f'.Settled image') := by
  obtain ⟨safe, sector, kept⟩ := moved.safe.overwritten written
  have spared (s : Nat) (mem : s ∈ lost) : image' s = image₁ s :=
    moved.safe.overwritten_outside written fun own =>
      moved.safe.unowned_of_lost mem f' List.mem_cons_self (List.mem_cons_of_mem _ own)
  have settled (before : f'.Settled image₁) : f'.Settled image' := before.congr sector
  rw [moved.ahead.sector] at sector
  exact ⟨⟨safe, moved.ahead, fun s mem => (kept s mem).trans (moved.kept s mem),
    fun s mem => (spared s mem).trans (moved.spared s mem), moved.disks, moved.status,
    moved.inode.imp sector.trans settled⟩, settled⟩

/-- An open file grows as far as it can, and is stored as it is in memory if that went well. -/
theorem growSafe_spec {Q : Except Failure Inode → Volume m → Image → Prop} {node : LoadedInode}
    {length : Nat} (safe : v.Safe image (f :: rest) lost) (found : v.find? f.sector = some node)
    (ok : ∀ v' image' f', Moved v v' image image' f f' rest lost → Held f image image' →
      f'.Settled image' → length ≤ f'.disk.length → Q (.ok f'.disk) v' image')
    (error : ∀ e v' image' f', Moved v v' image image' f f' rest lost → Held f image image' →
      Q (.error e) v' image') :
    (grow node length).Ensures m mayFail v image Q := by
  obtain ⟨sector, openers, removed, denials, disk'⟩ := node
  obtain rfl : sector = f.sector := sector_of_find? found
  obtain rfl : disk' = f.disk := safe.disk_of_find? found
  have file := safe.each f List.mem_cons_self
  rw [grow, Action.ensures_bind]
  refine onBlocks_spec ?_
  dsimp only
  refine FileBlocks.growTo_spec safe.holds (fun b' image' l' fits grown => ?_)
    fun e b' image' l' _ _ extended => ?_
  · have ahead := grown.extends fits f.sector
    have mapped := grown.mapped fits f.sector file.long
    have kept (t : Nat) (mem : t ∈ rest.flatMap LiveFile.owned ++ lost) : image' t = image t :=
      grown.kept.others t (List.mem_cons_of_mem _ mem)
    have nodup := List.nodup_append'.1 grown.holds.marks.nodup
    have length_eq := grown.length_eq fits
    simp only [Action.onward_ok, Action.ensures_bind, Action.ensures_modify,
      Action.ensures_liftExcept, Action.ensures_writeInode, Action.ensures_pure]
    refine ⟨safe.inside List.mem_cons_self, ?_, fun _ => ?_⟩
    · have stored : (⟨f.sector, b'.disk, l'⟩ : LiveFile).Opens m
          (Function.update image' f.sector.index b'.disk.encode) := {
        toMapped := mapped.congr fun t mem => Function.update_of_ne
          (fun here : t = f.sector.index => nodup.2.2 List.mem_cons_self (here ▸ mem)) _ _
        inode := by rw [LiveFile.Settled, Function.update_self, Inode.decode_encode]
        marked := ahead.isMarked.trans file.marked }
      refine ok _ _ _ (safe.moved found ahead (.of_opens stored) grown.holds.marks
        (fun t mem => ?_) (.inr stored.inode)) (fun i inside => ?_) stored.inode
        (by dsimp only; omega)
      · rw [Function.update_of_ne fun here : t = f.sector.index =>
          (List.nodup_cons.1 nodup.1).1 (here ▸ mem)]
        exact kept t mem
      · rw [Function.update_of_ne fun here : f.layout.block i = f.sector.index => ?_]
        · exact grown.kept.blocks i inside
        · have own := Layout.block_mem_owned (Layout.lt_of_whole file.stored.whole inside)
          have nodup := (List.nodup_append'.1 safe.nodup).1
          exact (List.nodup_cons.1 nodup).1 (here ▸ own)
    · exact error _ _ _ _ (safe.moved found ahead (file.extend ahead mapped
        (grown.kept.others _ List.mem_cons_self)) grown.holds.marks kept
        (.inl (grown.kept.others _ List.mem_cons_self))) grown.kept.blocks
  · have ahead := extended.extends f.sector
    refine error e _ _ _ (safe.moved found ahead (file.extend ahead
      (extended.mapped f.sector file.long) (extended.kept.others _ List.mem_cons_self))
      extended.holds.marks (fun t mem => ?_) (.inl (extended.kept.others _ List.mem_cons_self)))
      extended.kept.blocks
    exact extended.kept.others t (List.mem_cons_of_mem _ mem)

/-- Whatever fails in a write, the file goes on from what it was. If it was stored as in memory it
still is, unless the write reached beyond its end and failed. A write that went beyond the end
stores it as in memory. -/
theorem writeSafe_spec {Q : Except Failure Nat → Volume m → Image → Prop} {h : Handle}
    {node : LoadedInode} {off : Nat} {data : List UInt8} (safe : v.Safe image (f :: rest) lost)
    (at_sector : h.sector = f.sector) (found : v.find? f.sector = some node)
    (ends : ∀ r v' image' f', Moved v v' image image' f f' rest lost →
      (f.Settled image → (∃ n, r = .ok n) ∨ off + data.length ≤ f.disk.length →
        f'.Settled image') →
      (f.disk.length < off + data.length → (∃ n, r = .ok (n + 1)) → f'.Settled image') →
      Rewritten mayFail f f' image image' (0 < node.denials ∨ data = []) off data r →
      Q r v' image') :
    (writeBytes h off data).Ensures m mayFail v image Q := by
  have file := safe.each f List.mem_cons_self
  have disk := safe.disk_of_find? found
  have found' : v.find? h.sector = some node := by rwa [at_sector]
  rw [writeBytes, Action.ensures_bind]
  refine node_spec found' ?_
  rw [Action.onward_ok]
  split
  case isTrue nothing =>
    refine ends _ v image f (.refl safe) (fun settled _ => settled) (fun _ wrote => ?_)
      ⟨fun _ => ⟨rfl, rfl, rfl⟩, fun works => absurd nothing works, fun _ _ => rfl⟩
    obtain ⟨n, same⟩ := wrote
    cases same
  case isFalse works =>
    have some_data := List.length_pos_iff.2 (not_or.1 works).2
    by_cases short : f.disk.length < off + data.length
    · rw [reach, disk, if_pos short, Action.ensures_bind]
      refine growSafe_spec safe found (fun v' image₁ f' moved held settled long => ?_)
        fun e v' image' f' moved held => ?_
      · have new := moved.safe.each f' List.mem_cons_self
        have before {i : Nat} (inside : i < f.disk.length) :
            (f'.content image₁)[i]? = (f.content image)[i]? :=
          content_of_extends file.toMapped moved.ahead held inside
        rw [Action.onward_ok, Action.ensures_bind]
        refine writeChunks_spec new.stored some_data long new.long (fun image' written => ?_)
          fun may image' n written => ?_
        · obtain ⟨moved', kept⟩ := moved.overwritten written
          refine ends _ v' image' f' moved' (fun _ _ => kept settled) (fun _ _ => kept settled)
            ⟨fun idle => absurd idle works, fun _ => .inl ⟨rfl, ?_⟩, fun inside outside => ?_⟩
          · exact content_inside new.toMapped written long
          · rw [content_outside new.toMapped written outside, before inside]
        · obtain ⟨moved', kept⟩ := moved.overwritten written
          refine ends _ v' image' f' moved' (fun _ _ => kept settled) (fun _ _ => kept settled)
            ⟨fun idle => absurd idle works, fun _ => .inr ⟨_, rfl, .inl may⟩,
              fun inside outside => ?_⟩
          rw [content_outside new.toMapped written (by rw [List.length_take]; omega), before inside]
      · refine ends _ v' image' f' moved (fun _ fine => ?_) (fun _ wrote => ?_)
          ⟨fun idle => absurd idle works, fun _ => .inr ⟨e, rfl, .inr short⟩, fun inside _ => ?_⟩
        · rcases fine with ⟨n, same⟩ | long
          · cases same
          · omega
        · obtain ⟨n, same⟩ := wrote
          cases same
        · exact content_of_extends file.toMapped moved.ahead held inside
    · have inside : off + data.length ≤ f.disk.length := Nat.le_of_not_lt short
      rw [reach, disk, if_neg short, Action.ensures_bind, Action.ensures_pure, Action.onward_ok,
        Action.ensures_bind]
      refine writeChunks_spec file.stored some_data inside file.long (fun image' written => ?_)
        fun may image' n written => ?_
      · obtain ⟨moved, kept⟩ := (Moved.refl safe).overwritten written
        refine ends _ v image' f moved (fun settled _ => kept settled)
          (fun more => absurd more short)
          ⟨fun idle => absurd idle works, fun _ => .inl ⟨rfl, ?_⟩, fun _ outside => ?_⟩
        · exact content_inside file.toMapped written inside
        · exact content_outside file.toMapped written outside
      · obtain ⟨moved, kept⟩ := (Moved.refl safe).overwritten written
        refine ends _ v image' f moved (fun settled _ => kept settled)
          (fun more => absurd more short)
          ⟨fun idle => absurd idle works, fun _ => .inr ⟨_, rfl, .inl may⟩, fun _ outside => ?_⟩
        exact content_outside file.toMapped written (by rw [List.length_take]; omega)

end Volume

end SectorFs
