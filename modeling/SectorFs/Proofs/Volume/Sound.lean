/-
# SectorFs.Proofs.Volume.Sound — volumes whose files are all there

A `LiveFile` is an inode that was made and is not deleted yet, with the layout of
its blocks. `LiveFile.Sound`: its sector stores the inode, its blocks are where
the layout says, there are as many as its length needs, and the bytes beyond its
end are zero. `Volume.Sound v image files`: the files are all sound, the free map
marks their sectors and no other, each once, and what is open is one of them.

The rest of a volume does not notice what happens to one file (`Changed`).
-/
import SectorFs.Volume.System
import SectorFs.Proofs.File.Grow
import SectorFs.Proofs.File.Content

namespace SectorFs

set_option autoImplicit false

/-- An inode that is live, and where its blocks are. -/
structure LiveFile where
  sector : Sector
  disk : Inode
  layout : Layout

variable {m : Nat} {mayFail : Prop} {image image' image₁ : Image} {l l' : Layout} {d : Inode}
  {v v' v₁ : Volume m} {f f' : LiveFile} {files rest : List LiveFile}

namespace LiveFile

/-- The sectors of a file, that of its inode first. -/
def owned (f : LiveFile) : List Nat := f.sector.index :: f.layout.owned

/-- The bytes of a file. -/
def content (f : LiveFile) (image : Image) : List UInt8 := f.layout.bytes image 0 f.disk.length

/-- Every byte of a file has its block. -/
structure Mapped (f : LiveFile) (m : Nat) (image : Image) : Prop where
  stored : f.layout.Stored m f.disk image
  long : sectorsFor f.disk.length ≤ f.layout.count

/-- The sector of a file stores its inode as it is in memory. -/
def Settled (f : LiveFile) (image : Image) : Prop := Inode.decode (image f.sector.index) = f.disk

/-- A file that opens as it is. -/
structure Opens (f : LiveFile) (m : Nat) (image : Image) : Prop extends f.Mapped m image where
  inode : f.Settled image
  marked : f.disk.isMarked = true

structure Sound (f : LiveFile) (m : Nat) (image : Image) : Prop where
  inode : Inode.decode (image f.sector.index) = f.disk
  marked : f.disk.isMarked = true
  stored : f.layout.Stored m f.disk image
  count : f.layout.count = sectorsFor f.disk.length
  beyond {i : Nat} : f.disk.length ≤ i → i < 512 * f.layout.count → f.layout.byte image i = 0

theorem Sound.mapped (sound : f.Sound m image) : f.Mapped m image :=
  ⟨sound.stored, Nat.le_of_eq sound.count.symm⟩

theorem Sound.opens (sound : f.Sound m image) : f.Opens m image :=
  ⟨sound.mapped, sound.inode, sound.marked⟩

theorem length_content (f : LiveFile) (image : Image) :
    (f.content image).length = f.disk.length := by
  rw [content, Layout.length_bytes, Nat.sub_zero]

theorem getElem?_content (f : LiveFile) (image : Image) (i : Nat) :
    (f.content image)[i]? = if i < f.disk.length then some (f.layout.byte image i) else none := by
  rw [content, Layout.getElem?_bytes, Nat.zero_add]

theorem Sound.length_le (sound : f.Sound m image) : f.disk.length ≤ 512 * f.layout.count := by
  rw [sound.count, sectorsFor]
  omega

theorem Sound.byte_congr (sound : f.Sound m image)
    (same : ∀ s ∈ f.layout.owned, image' s = image s) {i : Nat} (inside : i < 512 * f.layout.count) :
    f.layout.byte image' i = f.layout.byte image i := by
  have block : i / 512 < f.layout.count := by omega
  rw [Layout.byte, same _ (Layout.block_mem_owned (Layout.lt_of_whole sound.stored.whole block)),
    Layout.byte]

/-- A file is sound by what its own sectors hold. -/
theorem Sound.congr (sound : f.Sound m image) (same : ∀ s ∈ f.owned, image' s = image s) :
    f.Sound m image' := by
  have same' : ∀ s ∈ f.layout.owned, image' s = image s := fun s mem =>
    same s (List.mem_cons_of_mem _ mem)
  refine { sound with
    inode := ?_
    stored := sound.stored.congr fun t mem => same' t (Layout.index_mem_owned mem)
    beyond := fun out inside => ?_ }
  · rw [same _ List.mem_cons_self]
    exact sound.inode
  · rw [sound.byte_congr same' inside]
    exact sound.beyond out inside

theorem Sound.content_congr (sound : f.Sound m image)
    (same : ∀ i, i < 512 * f.layout.count → f.layout.byte image' i = f.layout.byte image i) :
    f.content image' = f.content image := by
  have le := sound.length_le
  apply List.ext_getElem?
  intro i
  rw [getElem?_content, getElem?_content]
  split
  · rw [same i (by omega)]
  · rfl

end LiveFile

namespace Volume

/-! ## The inodes that are open -/

/-- What is known of an open inode beside its disk form. -/
structure Status where
  openers : Nat
  removed : Bool
  denials : Nat

/-- What is open at a sector. -/
def status (v : Volume m) (s : Sector) : Option Status :=
  (v.find? s).map fun node => ⟨node.openers, node.removed, node.denials⟩

/-- The disk form of the inode that is open at a sector. -/
def disks (v : Volume m) (s : Sector) : Option Inode := (v.find? s).map LoadedInode.disk

/-- The same sectors are in use, and the same inodes are open with the same disk forms. -/
structure Alike (v v' : Volume m) : Prop where
  free : v'.free = v.free
  disks : v'.disks = v.disks

variable {s : Sector} {node : LoadedInode}

theorem sector_of_find? (found : v.find? s = some node) : node.sector = s := by
  have := List.find?_some found
  exact of_decide_eq_true this

theorem find?_put (v : Volume m) (node : LoadedInode) (s : Sector) :
    (v.put node).find? s = if s = node.sector then (v.find? s).map fun _ => node else v.find? s := by
  have same : ((fun old : LoadedInode => decide (old.sector = s)) ∘
      fun old => if old.sector = node.sector then node else old) =
      fun old => decide (old.sector = s) := by
    funext old
    by_cases here : old.sector = node.sector
    · simp [here]
    · simp [here]
  rw [find?, put, List.find?_map, same]
  change ((v.find? s).map _) = _
  cases found : v.find? s with
  | none => simp
  | some old =>
    have := sector_of_find? found
    subst this
    simp only [Option.map_some]
    split <;> rfl

theorem find?_put_self (found : v.find? s = some node) (node' : LoadedInode)
    (same : node'.sector = node.sector) :
    (v.put node').find? = Function.update v.find? s (some node') := by
  have := sector_of_find? found
  funext t
  rw [find?_put, same, this]
  by_cases here : t = s
  · subst here
    simp [found]
  · simp [here]

theorem find?_erase (v : Volume m) (s : Sector) :
    (v.erase s).find? = Function.update v.find? s none := by
  funext t
  rw [find?, erase, List.find?_filter]
  by_cases here : t = s
  · subst here
    rw [Function.update_self, List.find?_eq_none]
    intro old _
    by_cases same : old.sector = t <;> simp [same]
  · rw [Function.update_of_ne here, find?]
    congr 1
    funext old
    by_cases same : old.sector = t <;> simp [same, here]

theorem find?_cons (free : FreeMap m) (node : LoadedInode) (inodes : List LoadedInode)
    (fresh : s = node.sector) : (⟨free, node :: inodes⟩ : Volume m).find? =
      Function.update (⟨free, inodes⟩ : Volume m).find? s (some node) := by
  subst fresh
  funext t
  rw [find?, List.find?_cons]
  by_cases here : t = node.sector
  · subst here
    simp
  · rw [Function.update_of_ne here]
    simp [Ne.symm here, find?]

theorem disks_of_find? (found : v.find? s = some node) : v.disks s = some node.disk := by
  rw [disks, found, Option.map_some]

theorem status_of_some (found : v.find? s = some node) :
    v.status s = some ⟨node.openers, node.removed, node.denials⟩ := by
  rw [status, found, Option.map_some]

/-- While nothing is open there is nothing to say of what is. -/
theorem none_open (closed : v.find? = fun _ => none) :
    v.disks = (fun _ => none) ∧ v.status = fun _ => none := by
  refine ⟨funext fun t => ?_, funext fun t => ?_⟩
  · rw [disks, closed, Option.map_none]
  · rw [status, closed, Option.map_none]

theorem find?_of_no_disk (closed : v.disks s = none) : v.find? s = none :=
  Option.map_eq_none_iff.1 closed

theorem map_update {α : Type} {g : LoadedInode → α} {o : Option LoadedInode}
    (open_now : v'.find? = Function.update v.find? s o) : (fun t => (v'.find? t).map g) =
      Function.update (fun t => (v.find? t).map g) s (o.map g) := by
  funext t
  rw [open_now]
  by_cases here : t = s
  · rw [here, Function.update_self, Function.update_self]
  · rw [Function.update_of_ne here, Function.update_of_ne here]

theorem status_of_find? {o : Option LoadedInode}
    (open_now : v'.find? = Function.update v.find? s o) : v'.status =
      Function.update v.status s (o.map fun node => ⟨node.openers, node.removed, node.denials⟩) :=
  map_update open_now

theorem disks_of_update {o : Option LoadedInode}
    (open_now : v'.find? = Function.update v.find? s o) :
    v'.disks = Function.update v.disks s (o.map LoadedInode.disk) :=
  map_update open_now

theorem of_update_none {α β : Type} [DecidableEq α] {g : α → Option β} {a a' : α} {b : β}
    (here : Function.update g a none a' = some b) : a' ≠ a ∧ g a' = some b := by
  by_cases same : a' = a
  · rw [same, Function.update_self] at here
    cases here
  · rw [Function.update_of_ne same] at here
    exact ⟨same, here⟩

theorem of_update_some {α β : Type} [DecidableEq α] {g : α → Option β} {a a' : α} {b b' : β}
    (here : Function.update g a (some b) a' = some b') :
    a' = a ∧ b' = b ∨ a' ≠ a ∧ g a' = some b' := by
  by_cases same : a' = a
  · rw [same, Function.update_self] at here
    exact .inl ⟨same, (Option.some.inj here).symm⟩
  · rw [Function.update_of_ne same] at here
    exact .inr ⟨same, here⟩

theorem disks_erase (v : Volume m) (s : Sector) :
    (v.erase s).disks = Function.update v.disks s none :=
  disks_of_update (find?_erase v s)

theorem status_erase (v : Volume m) (s : Sector) :
    (v.erase s).status = Function.update v.status s none :=
  status_of_find? (find?_erase v s)

theorem status_put {node' : LoadedInode} (found : v.find? s = some node)
    (sector : node'.sector = node.sector) : (v.put node').status =
      Function.update v.status s (some ⟨node'.openers, node'.removed, node'.denials⟩) :=
  status_of_find? (find?_put_self found node' sector)

/-- An open inode is counted or marked otherwise, and its disk form stays. -/
theorem alike_put {node' : LoadedInode} (found : v.find? s = some node)
    (sector : node'.sector = node.sector) (disk : node'.disk = node.disk) :
    v.Alike (v.put node') := by
  refine ⟨rfl, ?_⟩
  rw [disks_of_update (find?_put_self found node' sector), Option.map_some, disk,
    ← disks_of_find? found, Function.update_eq_self]

theorem Alike.trans {v₁ : Volume m} (first : v.Alike v₁) (second : v₁.Alike v') : v.Alike v' :=
  ⟨second.free.trans first.free, second.disks.trans first.disks⟩

/-! ## Sound volumes -/

structure Sound (v : Volume m) (image : Image) (files : List LiveFile) : Prop where
  small : m ≤ 0x100000000
  marks : v.free.Marks (files.flatMap LiveFile.owned)
  each : ∀ f ∈ files, f.Sound m image
  zero : 0 ∈ files.flatMap LiveFile.owned
  loaded {s : Sector} {node : LoadedInode} : v.find? s = some node →
    ∃ f ∈ files, f.sector = s ∧ f.disk = node.disk

namespace Sound

theorem perm (sound : v.Sound image files) {files' : List LiveFile} (same : files.Perm files') :
    v.Sound image files' where
  small := sound.small
  marks := sound.marks.perm (same.flatMap_right _)
  each f mem := sound.each f (same.mem_iff.2 mem)
  zero := (same.flatMap_right LiveFile.owned).mem_iff.1 sound.zero
  loaded found := by
    obtain ⟨f, mem, at_sector, disk⟩ := sound.loaded found
    exact ⟨f, same.mem_iff.1 mem, at_sector, disk⟩

theorem nodup (sound : v.Sound image files) : (files.flatMap LiveFile.owned).Nodup :=
  sound.marks.nodup

/-- No other file has the sector of a file. -/
theorem sector_ne (sound : v.Sound image (f :: rest)) : ∀ g ∈ rest, g.sector ≠ f.sector := by
  intro g mem same
  have nodup := sound.nodup
  rw [List.flatMap_cons, List.nodup_append'] at nodup
  have first : f.sector.index ∈ f.owned := List.mem_cons_self
  refine nodup.2.2 first (List.mem_flatMap.2 ⟨g, mem, ?_⟩)
  rw [← same]
  exact List.mem_cons_self

theorem disk_of_find? (sound : v.Sound image (f :: rest)) {node : LoadedInode}
    (found : v.find? f.sector = some node) : node.disk = f.disk := by
  obtain ⟨g, mem, same, disk⟩ := sound.loaded found
  rcases List.mem_cons.1 mem with rfl | mem
  · exact disk.symm
  · exact absurd same (sound.sector_ne g mem)

theorem reserved (sound : v.Sound image (f :: rest)) :
    0 ∈ f.sector.index :: rest.flatMap LiveFile.owned := by
  have zero := sound.zero
  rw [List.flatMap_cons, LiveFile.owned, List.cons_append, List.mem_cons, List.mem_append] at zero
  rcases zero with zero | zero | zero
  · exact List.mem_cons.2 (.inl zero)
  · exact absurd zero (sound.each f List.mem_cons_self).stored.nonzero
  · exact List.mem_cons_of_mem _ zero

/-- The blocks of one file, among all that is in use. -/
theorem holds (sound : v.Sound image (f :: rest)) : (⟨f.disk, v.free⟩ : FileBlocks m).Holds image
    f.layout (f.sector.index :: rest.flatMap LiveFile.owned) where
  stored := (sound.each f List.mem_cons_self).stored
  marks := by
    refine sound.marks.perm ?_
    rw [List.flatMap_cons, LiveFile.owned, List.cons_append, List.cons_append]
    exact List.perm_append_comm.cons _
  reserved := sound.reserved

theorem inside (sound : v.Sound image files) (mem : f ∈ files) : f.sector.index < m :=
  sound.marks.inside _ (List.mem_flatMap.2 ⟨f, mem, List.mem_cons_self⟩)

/-- The other files stay sound when only one file changes. -/
theorem replace (sound : v.Sound image (f :: rest)) (sector : f'.sector = f.sector)
    (changed : f'.Sound m image') (marks : v'.free.Marks
      ((f.sector.index :: rest.flatMap LiveFile.owned) ++ f'.layout.owned))
    (kept : ∀ s ∈ rest.flatMap LiveFile.owned, image' s = image s)
    (open_same : ∀ s, s ≠ f.sector → v'.find? s = v.find? s)
    (open_here : ∀ node, v'.find? f.sector = some node → node.disk = f'.disk) :
    v'.Sound image' (f' :: rest) where
  small := sound.small
  marks := by
    refine marks.perm ?_
    rw [List.flatMap_cons, LiveFile.owned, sector, List.cons_append, List.cons_append]
    exact List.perm_append_comm.cons _
  each g mem := by
    rcases List.mem_cons.1 mem with rfl | mem
    · exact changed
    · refine (sound.each g (List.mem_cons_of_mem f mem)).congr fun s own => kept s ?_
      exact List.mem_flatMap.2 ⟨g, mem, own⟩
  zero := by
    have reserved := sound.reserved
    rw [List.flatMap_cons, LiveFile.owned, sector, List.cons_append, List.mem_cons,
      List.mem_append]
    rcases List.mem_cons.1 reserved with zero | zero
    · exact .inl zero
    · exact .inr (.inr zero)
  loaded {s node} found := by
    by_cases here : s = f.sector
    · subst here
      exact ⟨f', List.mem_cons_self, sector, (open_here node found).symm⟩
    · rw [open_same s here] at found
      obtain ⟨g, mem, at_sector, disk⟩ := sound.loaded found
      rcases List.mem_cons.1 mem with rfl | mem
      · exact absurd at_sector.symm here
      · exact ⟨g, List.mem_cons_of_mem f' mem, at_sector, disk⟩

/-- What is open does not matter as long as it is one of the files. -/
theorem reopen (sound : v.Sound image files) (free : v'.free = v.free)
    (loaded : ∀ s d, v'.disks s = some d → ∃ f ∈ files, f.sector = s ∧ f.disk = d) :
    v'.Sound image files :=
  { sound with
    marks := by
      rw [free]
      exact sound.marks
    loaded := fun found => loaded _ _ (disks_of_find? found) }

theorem of_disks (sound : v.Sound image files) {s : Sector} {d : Inode}
    (open_now : v.disks s = some d) : ∃ f ∈ files, f.sector = s ∧ f.disk = d := by
  obtain ⟨node, found, rfl⟩ := Option.map_eq_some_iff.1 open_now
  exact sound.loaded found

/-- One more of the files is open. -/
theorem opened (sound : v.Sound image files) (mem : f ∈ files) (free : v'.free = v.free)
    (disks : v'.disks = Function.update v.disks f.sector (some f.disk)) :
    v'.Sound image files := by
  refine sound.reopen free fun s d open_now => ?_
  rw [disks] at open_now
  rcases of_update_some open_now with ⟨rfl, rfl⟩ | ⟨-, open_now⟩
  · exact ⟨f, mem, rfl, rfl⟩
  · exact sound.of_disks open_now

/-- One less of the files is open. -/
theorem shut (sound : v.Sound image files) {s : Sector} (free : v'.free = v.free)
    (disks : v'.disks = Function.update v.disks s none) : v'.Sound image files := by
  refine sound.reopen free fun t d open_now => ?_
  rw [disks] at open_now
  exact sound.of_disks (of_update_none open_now).2

/-- A volume with a file less. -/
theorem tail (sound : v.Sound image (f :: rest))
    (marks : v'.free.Marks (rest.flatMap LiveFile.owned))
    (kept : ∀ t ∈ rest.flatMap LiveFile.owned, image' t = image t)
    (zero : 0 ∈ rest.flatMap LiveFile.owned)
    (disks : v'.disks = Function.update v.disks f.sector none) : v'.Sound image' rest where
  small := sound.small
  marks := marks
  each g mem := (sound.each g (List.mem_cons_of_mem f mem)).congr fun t own =>
    kept t (List.mem_flatMap.2 ⟨g, mem, own⟩)
  zero := zero
  loaded {s node} found := by
    have open_now := disks_of_find? found
    rw [disks] at open_now
    obtain ⟨other, open_now⟩ := of_update_none open_now
    obtain ⟨g, mem, at_sector, disk⟩ := sound.of_disks open_now
    rcases List.mem_cons.1 mem with rfl | mem
    · exact absurd at_sector.symm other
    · exact ⟨g, mem, at_sector, disk⟩

theorem alike (sound : v.Sound image files) (alike : v.Alike v') : v'.Sound image files :=
  sound.reopen alike.free fun _ _ open_now => sound.of_disks (alike.disks ▸ open_now)

end Sound

/-- An operation changed one file, and nothing else that is in use. -/
structure Changed (v v' : Volume m) (image image' : Image) (f f' : LiveFile)
    (rest : List LiveFile) : Prop where
  sound : v'.Sound image' (f' :: rest)
  sector : f'.sector = f.sector
  kept : ∀ s ∈ rest.flatMap LiveFile.owned, image' s = image s
  status : v'.status = v.status

theorem Changed.refl (sound : v.Sound image (f :: rest)) : Changed v v image image f f rest :=
  ⟨sound, rfl, fun _ _ => rfl, rfl⟩

/-- The inode behind a handle is found. -/
theorem program_node {h : Handle} {node : LoadedInode} (found : v.find? h.sector = some node) :
    (Volume.node h).program v = .done (.ok node, v) := by
  rw [Volume.node, Action.program_bind, Action.program_get, SectorProgram.done_bind]
  dsimp only
  rw [found]
  rfl

theorem node_spec {Q : Except Failure LoadedInode → Volume m → Image → Prop} {h : Handle}
    {node : LoadedInode} (found : v.find? h.sector = some node) (ok : Q (.ok node) v image) :
    (Volume.node h : VolumeAction m _).Ensures m mayFail v image Q := by
  rw [Action.Ensures, program_node found]
  exact ok

theorem onBlocks_spec {α : Type} {Q : Except Failure (Except Failure α × Inode) → Volume m →
    Image → Prop} {x : BlockAction m α}
    (ensures : x.Ensures m mayFail ⟨d, v.free⟩ image fun r b image =>
      Q (.ok (r, b.disk)) { v with free := b.free } image) :
    (onBlocks d x : VolumeAction m _).Ensures m mayFail v image Q := by
  simp only [onBlocks, Action.ensures_bind, Action.ensures_get, Action.onward_ok,
    Action.ensures_lift]
  exact ensures

end Volume

end SectorFs
