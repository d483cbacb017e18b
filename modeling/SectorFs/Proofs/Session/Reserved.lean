/-
# SectorFs.Proofs.Session.Reserved — sector 0 is the free map's

A pointer word that is zero names no sector, so sector 0 must be no block of a file and no index
block. What keeps it from that is that it is in use: by the inode of the free map's file, as long
as that is not removed. `Session.Reserves` says so of what is live, stored or in memory, of the
sectors that are made, and of what overwrites sector 0. It holds in every session in which inodes
are opened and the free map's file is not removed, whatever fails (`reserves_of_served`). Without
the one condition it does not: nothing keeps the last close of that file from freeing sector 0.
-/
import SectorFs.Proofs.Session.Served

namespace SectorFs

set_option autoImplicit false

variable {m : Nat} {mayFail : Prop} {image : Image} {e : Expected} {t : Sector} {d : Inode}

/-- The sectors that an inode names beside its own: those of its blocks, those left in its last
group with the group's cursor first, and its index blocks. -/
def refersTo (image : Image) (d : Inode) : List Nat :=
  ((List.range d.blockCount).map (blockIn image d) ++
    List.range' d.cursorWord.toNat d.groupLeft) ++ indexIn image d

theorem namedBy_eq (image : Image) (t : Sector) (d : Inode) :
    namedBy image t d = t.index :: refersTo image d := rfl

/-- Where an inode of its own is at sector 0, no inode refers to that sector. -/
theorem Separated.zero_notMem {v : Volume m} {live : Sector → Bool}
    (separated : Separated v image live) (map : live Sector.freeMap = true) (here : live t = true)
    (form : FormOf v image t d) : Sector.freeMap.index ∉ refersTo image d := by
  intro refers
  by_cases same : t = Sector.freeMap
  · have nodup := separated.nodup here form
    rw [namedBy_eq, same] at nodup
    exact (List.nodup_cons.1 nodup).1 refers
  · refine separated.disjoint map here (Ne.symm same) .stored form List.mem_cons_self ?_
    exact List.mem_cons_of_mem _ refers

namespace Session

variable {s s' : Session m}

/-- Sector 0 is in use for the inode of the free map's file and for nothing else. -/
structure Reserves (s : Session m) (e : Expected) : Prop where
  inUse : s.fs.volume.free.inUse Sector.freeMap.index = true
  isLive : e.isLive Sector.freeMap = true
  marked : (Inode.decode (s.image Sector.freeMap.index)).isMarked = true
  /-- No inode has it for a block, as the cursor of a group or as an index block. -/
  unnamed {t : Sector} {d : Inode} : e.isLive t = true → FormOf s.fs.volume s.image t d →
    Sector.freeMap.index ∉ refersTo s.image d
  /-- No new inode is made there. -/
  made {length : Nat} {isDirectory : Bool} {parent t : Sector} {s' : Session m} :
    s.step (.create length isDirectory parent) = .ok (.made t, s') → t ≠ Sector.freeMap
  /-- Only a write to the free map's file stores another inode there. -/
  kept {op : FileOp} {answer : FileAnswer} {s' : Session m} : s.Permits e op →
    s.step op = .ok (answer, s') → ¬ op.WritesTo e Sector.freeMap →
      s'.image Sector.freeMap.index = s.image Sector.freeMap.index

/-- An inode is made in a sector that was not in use. -/
theorem Serves.made_unused (serves : s.Serves mayFail e) {length : Nat} {isDirectory : Bool}
    {parent : Sector} (stepped : s.step (.create length isDirectory parent) = .ok (.made t, s')) :
    s.fs.volume.free.inUse t.index = false := by
  obtain ⟨files, lost, safely⟩ := serves.safely
  have safe := safely.safe
  obtain ⟨answer, s₁, stepped', unused⟩ := tell_spec (s := s) (P := fun answer _ =>
    ∀ t, answer = .made t → s.fs.volume.free.inUse t.index = false) serves.ready serves.may
    (x := .made <$> Volume.create length isDirectory parent) (by
      rw [Action.ensures_map]
      refine Volume.create_spec safe.small safe.marks (List.mem_append_left _ safe.zero)
        (fun free image' f' _ fresh marks _ _ => ?_) fun failure free image' _ _ _ _ => ?_
      · rintro fs - - - t made
        cases made
        have inside := marks.inside f'.sector.index
          (List.mem_append_left _ List.mem_cons_self)
        exact Bool.eq_false_iff.2 fun used => fresh ((safe.marks.inUse inside).1 used)
      · rintro fs - - - t made
        cases made)
  cases stepped.symm.trans stepped'
  exact unused t rfl

theorem Serves.separated (serves : s.Serves mayFail e) :
    Separated s.fs.volume s.image e.isLive := by
  obtain ⟨files, lost, safely⟩ := serves.safely
  exact safely.safe.separated fun _ => safely.live

/-- **Sector 0 belongs to the free map's file and to nothing else**, in every session in which what
is opened is an inode and the free map's file is not removed. -/
theorem reserves_of_served (served : Served mayFail s e) : s.Reserves e := by
  have serves := served.serves
  have separated := serves.separated
  obtain ⟨files, lost, safely⟩ := serves.safely
  have map := safely.map_live
  have inUse := (separated.inUse map .stored _ List.mem_cons_self).2
  refine ⟨inUse, map, separated.marked map .stored, separated.zero_notMem map, ?_, ?_⟩
  · rintro length isDirectory parent t s' stepped rfl
    have unused := serves.made_unused stepped
    rw [inUse] at unused
    cases unused
  · exact fun permits stepped => (serves.after_step permits stepped).2

/-- The free map's file of a new file system is opened and written, and then every call of the
device fails. -/
theorem reserves_of_served_eleven :
    ∃ (fs : FileSystem (Cache 1 11 512) 11) (s₁ s₂ : Session 11) (e : Expected)
      (answer : FileAnswer),
      FileSystem.format (Cache.new (Device.filled 11 512 7) { slots := 1 }) =
        .ok (.ok (), some fs) ∧
      Session.step ⟨{ slots := 1 }, fs, []⟩ (.open Sector.freeMap) = .ok (.done, s₁) ∧
      s₁.step (.write 0 600 [1]) = .ok (answer, s₂) ∧
      Served True (s₂.withFails fun _ _ _ => true) e ∧
      (s₂.withFails fun _ _ _ => true).Reserves e := by
  have reliable : ∀ number kind b, (Device.filled 11 512 7).fails number kind b = false :=
    fun _ _ _ => rfl
  obtain ⟨fs, formatted, -⟩ :=
    exists_format _ { slots := 1 } (by decide) (by decide) (by decide) reliable
  have start : Served True ⟨{ slots := 1 }, fs, []⟩ .start :=
    .formatted (fun _ => trivial) formatted
  have legal : Expected.start.Legal (.open Sector.freeMap) := rfl
  obtain ⟨_, s₁, opened, rfl, -⟩ := (follows_start reliable formatted).goes_of_legal legal
  have live : Session.Permits ⟨{ slots := 1 }, fs, []⟩ .start (.open Sector.freeMap) := .inl rfl
  have served := start.step live opened
  have permits : s₁.Permits (Expected.start.after s₁.image (.open Sector.freeMap) .done)
      (.write 0 600 [1]) := ⟨{ sector := Sector.freeMap }, rfl⟩
  obtain ⟨answer, s₂, written, -⟩ := served.serves.proceeds permits nofun
  have failing := (served.step permits written).failing (fun _ _ _ => true) trivial
  exact ⟨fs, s₁, s₂, _, answer, formatted, opened, written, failing, reserves_of_served failing⟩

end Session

end SectorFs
