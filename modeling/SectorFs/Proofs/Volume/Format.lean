/-
# SectorFs.Proofs.Volume.Format — which stores can be made file systems

A new file system takes two sectors for its inodes and those of the free map's file, which is as
long as the map, and so as long as the store asks for (`systemSectors`). From ten sectors on this is
less than there is, and nothing is given back while the files are made, so each of them has room
(`makeFiles_works`). With fewer sectors there is no group for the map (`format_refused`); with more
than a file can have bits, its file would be too long (`format_tooLarge`).
-/
import SectorFs.Proofs.Volume.Room

namespace SectorFs

set_option autoImplicit false

/-- The blocks of the free map's file. -/
def mapBlocks (m : Nat) : Nat := sectorsFor (bytesFor m)

/-- The sectors of a new file system: the two inodes, and the file of the map. -/
def systemSectors (m : Nat) : Nat := 2 + (8 * groupsFor (mapBlocks m) + indexFor (mapBlocks m))

variable {m : Nat} {image : Image}

/-- The map's file leaves room for itself. -/
theorem systemSectors_le (ten : 10 ≤ m) : systemSectors m ≤ m := by
  unfold systemSectors indexFor innerFor groupsFor mapBlocks sectorsFor bytesFor
  split_ifs <;> omega

theorem bytesFor_le_iff : bytesFor m ≤ maxFileBytes ↔ m ≤ 8 * maxFileBytes := by
  rw [bytesFor]
  omega

namespace Volume

variable {mayFail : Prop} {v : Volume m} {map root : LiveFile} {s : Sector} {others : List Nat}

/-! ## Making the files -/

/-- The two well-known sectors leave no gap. -/
theorem packed_reserved {free : FreeMap m}
    (marks : free.Marks [Sector.freeMap.index, Sector.root.index]) : free.Packed := by
  refine marks.packed fun i => ?_
  have at_map : Sector.freeMap.index = 0 := rfl
  have at_root : Sector.root.index = 1 := rfl
  rw [at_map, at_root, List.mem_cons, List.mem_singleton, List.length_cons, List.length_singleton]
  omega

/-- The two files are made on the first sectors, and the root directory is an empty one that is its
own parent. -/
theorem makeFiles_works (ten : 10 ≤ m) (fits : bytesFor m ≤ maxFileBytes) :
    (makeFiles : VolumeAction m Unit).Ensures m False (.empty m) image fun r v image' =>
      r = .ok () ∧ v.free.Packed ∧ v.free.used = systemSectors m ∧
        Inode.decode (image' Sector.root.index) = .empty true Sector.root := by
  refine makeFiles_reserved (by omega) fun free marks => ?_
  rw [Action.ensures_bind]
  have sectors : [Sector.root.index].length + sectorsTaken (sectorsFor (bytesFor m)) =
      systemSectors m := by
    rw [List.length_singleton, sectorsTaken, systemSectors, mapBlocks]
    omega
  refine (createAt_works (v := ⟨free, []⟩) (packed_reserved marks) marks List.mem_cons_self
    (small_of_map fits) fits (sectors.trans_le (systemSectors_le ten))).mono ?_
  rintro r v image₁ ⟨rfl, packed, used⟩
  rw [Action.onward_ok]
  refine createAt_empty_spec true Sector.root (show 1 < m by omega)
    ⟨rfl, packed, used.trans sectors, ?_⟩
  rw [Function.update_self, Inode.decode_encode]

/-! ## The whole format -/

/-- A file system that was made and stored. -/
structure Made (v : Volume m) (image : Image) (map root : LiveFile) : Prop
    extends Fresh v image map root where
  stored : map.content image = v.free.toBytes
  directory : Inode.decode (image Sector.root.index) = .empty true Sector.root

theorem format_works (ten : 10 ≤ m) (fits : bytesFor m ≤ maxFileBytes) :
    (format : VolumeAction m Unit).Ensures m False (.empty m) image fun r v image' =>
      r = .ok () ∧ v.free.Packed ∧ v.free.used = systemSectors m ∧
        ∃ map root, Made v image' map root := by
  have fresh : (makeFiles : VolumeAction m Unit).Ensures m False (.empty m) image fun r v image' =>
      r = .ok () → ∃ map root, Fresh v image' map root :=
    makeFiles_spec (by omega) (fun v image' map root fresh _ => ⟨map, root, fresh⟩) nofun
  rw [format_eq, Action.ensures_bind]
  refine ((makeFiles_works ten fits).and fresh).mono ?_
  rintro r v image₁ ⟨⟨rfl, packed, used, directory⟩, fresh⟩
  obtain ⟨map, root, fresh⟩ := fresh rfl
  rw [Action.onward_ok]
  refine fresh.sync_spec (fun v' image' fresh' free stored kept => ?_) False.elim
  rw [← free] at packed used stored
  exact ⟨rfl, packed, used, map, root, fresh', stored, kept ▸ directory⟩

/-- With fewer than ten sectors there is none for the map's file. -/
theorem format_refused (two : 2 ≤ m) (few : m < 10) :
    (format : VolumeAction m Unit).Ensures m False (.empty m) image fun r _ _ =>
      r = .error .noSpace := by
  have limit : maxFileBytes = 8460288 := rfl
  have some_block : 8 * 0 < sectorsFor (bytesFor m) := by
    unfold sectorsFor bytesFor
    omega
  have fits : bytesFor m ≤ maxFileBytes := bytesFor_le_iff.2 (by omega)
  rw [format_eq, Action.ensures_bind]
  refine makeFiles_reserved two fun free marks => ?_
  rw [Action.ensures_bind]
  refine (createAt_refused (v := ⟨free, []⟩) (packed_reserved marks) marks List.mem_cons_self
    (by omega) fits some_block two (show m < 2 + 8 by omega)).mono ?_
  rintro r v image₁ rfl
  exact rfl

/-- With more sectors than a file has bits, the map does not fit into a file. -/
theorem format_tooLarge (many : 8 * maxFileBytes < m) :
    (format : VolumeAction m Unit).Ensures m mayFail (.empty m) image fun r _ _ =>
      r = .error .fileTooLarge := by
  have limit : maxFileBytes = 8460288 := rfl
  have long : ¬ bytesFor m ≤ maxFileBytes := by
    rw [bytesFor_le_iff]
    omega
  rw [format_eq, Action.ensures_bind]
  refine makeFiles_reserved (by omega) fun free _ => ?_
  rw [Action.ensures_bind, createAt, Action.ensures_bind, Action.ensures_ensure,
    decide_eq_false long]
  exact rfl

/-! ## What a new file system is like -/

/-- All is free but the sectors of the file system itself. -/
theorem Fresh.countFree (fresh : Fresh v image map root) :
    v.free.countFree = m - systemSectors m := by
  have sound := fresh.sound.each map List.mem_cons_self
  have sound' := fresh.sound.each root (List.mem_cons_of_mem _ List.mem_cons_self)
  have blocks : map.layout.count = mapBlocks m := by rw [sound.count, fresh.length, mapBlocks]
  have none : root.layout.count = 0 := by
    have empty := LiveFile.length_content root image
    rw [fresh.empty] at empty
    rw [sound'.count, ← empty]
    rfl
  have owned := Layout.length_owned sound.stored.whole
  have owned' := Layout.length_owned sound'.stored.whole
  rw [blocks] at owned
  rw [none] at owned'
  have sectors : ([map, root].flatMap LiveFile.owned).length = systemSectors m := by
    rw [List.flatMap_cons, List.flatMap_cons, List.flatMap_nil, List.append_nil, List.length_append,
      LiveFile.owned, LiveFile.owned, List.length_cons, List.length_cons, owned, owned',
      systemSectors]
    change _ + 1 + (0 + 1) = _
    omega
  rw [fresh.sound.marks.countFree, sectors]

/-- It is made of the sectors in use. -/
theorem Made.congr {image' : Image} (made : Made v image map root)
    (same : ∀ t, t < m → v.free.inUse t = true → image' t = image t) : Made v image' map root := by
  have kept (f : LiveFile) (mem : f ∈ [map, root]) (t : Nat) (own : t ∈ f.owned) :
      image' t = image t := by
    have owned := List.mem_flatMap.2 ⟨f, mem, own⟩
    have inside := made.sound.marks.inside t owned
    exact same t inside ((made.sound.marks.inUse inside).2 owned)
  have at_map := kept map List.mem_cons_self
  have at_root := kept root (List.mem_cons_of_mem _ List.mem_cons_self)
  have content (f : LiveFile) (mem : f ∈ [map, root]) : f.content image' = f.content image := by
    have sound := made.sound.each f mem
    exact sound.content_congr fun i inside => sound.byte_congr
      (fun t own => kept f mem t (List.mem_cons_of_mem _ own)) inside
  refine { made with
    sound := { made.sound with each := fun f mem => (made.sound.each f mem).congr (kept f mem) }
    empty := ?_
    stored := ?_
    directory := ?_ }
  · rw [content root (List.mem_cons_of_mem _ List.mem_cons_self)]
    exact made.empty
  · rw [content map List.mem_cons_self]
    exact made.stored
  · rw [← made.at_root, at_root _ List.mem_cons_self, made.at_root]
    exact made.directory

/-- It is taken up as it was stored. -/
theorem Made.mount_spec (made : Made v image map root) :
    (mount : VolumeAction m Unit).Ensures m False (.empty m) image fun r v' image' =>
      r = .ok () ∧ v'.free = v.free ∧ image' = image ∧ Made v' image map root := by
  have sound := made.sound
  have mem : root ∈ [map, root] := List.mem_cons_of_mem _ List.mem_cons_self
  refine Volume.mount_spec (sound.each map List.mem_cons_self).opens (sound.each root mem).opens
    (sound.inside List.mem_cons_self) (sound.inside mem) made.at_map made.at_root made.length
    sound.marks made.stored (fun v' free closed => ⟨rfl, free, rfl, ?_⟩) False.elim
  have fresh : Fresh v' image map root := {
    made.toFresh with
    sound := { sound with
      marks := free ▸ sound.marks
      loaded := fun {t node} found => by
        rw [closed] at found
        cases found }
    closed := by
      funext t
      rw [status, closed]
      rfl }
  exact ⟨fresh, free ▸ made.stored, made.directory⟩

end Volume

end SectorFs
