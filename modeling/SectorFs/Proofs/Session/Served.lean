/-
# SectorFs.Proofs.Session.Served — file systems in which inodes are opened and the map stays

`Session.Served`: the sessions that operations lead to as long as what is opened is an inode, or
does not look like one, and the free map's file is not removed. More may happen in them than in
those that legal operations lead to: the free map's file is written and denied like any other, and
the root directory is removed. A file system is taken up again only when it was stored.

What is live and open in them is `Expected.after`, as on any device that fails. Their volumes are
safe, and the free map's file has room for the map as it is stored (`Expected.MatchesSafely`). Every
operation that may come next keeps that, and the inode at sector 0 is stored anew only by a write
to its file (`Serves.proceeds`).
-/
import SectorFs.Proofs.Session.Handles

namespace SectorFs

set_option autoImplicit false

variable {m : Nat} {mayFail : Prop} {image image' : Image} {v v' : Volume m} {e e' : Expected}
  {files rest : List LiveFile} {lost : List Nat} {f f' : LiveFile} {t : Sector} {h : Handle}
  {i : Nat} {op : FileOp} {answer : FileAnswer} {device : Device m 512} {config : CacheSetup}

/-- An operation that writes to the file of the inode at `t`. -/
def FileOp.WritesTo (e : Expected) (t : Sector) : FileOp → Prop
  | .write i _ _ => ∃ h, e.handle i = some h ∧ h.sector = t
  | _ => False

namespace Expected

/-- The volume has the files that are live, all of them safe, and the stored inode of the free map's
file has room for the map. -/
structure MatchesSafely (e : Expected) (v : Volume m) (image : Image) (files : List LiveFile)
    (lost : List Nat) : Prop extends e.Matches v files where
  safe : v.Safe image files lost
  room : bytesFor m ≤ (Inode.decode (image Sector.freeMap.index)).length

theorem SettledExcept.matchesSafely {strayed : Sector → Prop}
    (inodes : e.SettledExcept strayed v image files lost) :
    e.MatchesSafely v image files lost where
  toMatches := inodes.toMatches
  safe := inodes.safe
  room := by
    obtain ⟨f, mem, at_map⟩ := inodes.live.1 inodes.map_live
    have settled := inodes.settled f mem (at_map ▸ inodes.map)
    rw [← at_map, show Inode.decode _ = f.disk from settled]
    exact Nat.le_of_eq (inodes.length f mem at_map).symm

namespace MatchesSafely

variable (safely : e.MatchesSafely v image files lost)
include safely

theorem perm {files' : List LiveFile} (same : files.Perm files') :
    e.MatchesSafely v image files' lost :=
  ⟨safely.toMatches.perm same, safely.safe.perm same, safely.room⟩

/-- The file of a live inode, before the others. -/
theorem split (live : e.isLive t = true) :
    ∃ f rest, f.sector = t ∧ e.MatchesSafely v image (f :: rest) lost := by
  obtain ⟨f, rest, at_sector, same⟩ := safely.exists_perm live
  exact ⟨f, rest, at_sector, safely.perm same⟩

theorem live_of_handle (found : e.handle i = some h) : e.isLive h.sector = true :=
  safely.live_of_pos safely.safe.loaded (openers_pos found)

theorem split_handle (found : e.handle i = some h) :
    ∃ f rest, f.sector = h.sector ∧ e.MatchesSafely v image (f :: rest) lost :=
  safely.split (safely.live_of_handle found)

/-- What is not live is not open. -/
theorem find?_of_dead (dead : e.isLive t = false) : v.find? t = none := by
  cases found : v.find? t with
  | none => rfl
  | some node =>
    obtain ⟨f, mem, at_sector, -⟩ := safely.safe.loaded (Volume.disks_of_find? found)
    rw [safely.live.2 ⟨f, mem, at_sector⟩] at dead
    cases dead

/-- What is open or counted changed, and no file. -/
theorem keep (same : e'.Matches v' files) (safe : v'.Safe image files lost) :
    e'.MatchesSafely v' image files lost :=
  ⟨same, safe, safely.room⟩

/-- The stored inode of the free map's file stayed. -/
theorem stay {files' : List LiveFile} {lost' : List Nat} (same : e'.Matches v' files')
    (safe : v'.Safe image' files' lost')
    (map : image' Sector.freeMap.index = image Sector.freeMap.index) :
    e'.MatchesSafely v' image' files' lost' :=
  ⟨same, safe, map ▸ safely.room⟩

omit safely in
/-- The open file of the free map has room for the map. -/
theorem long (safely : e.MatchesSafely v image (f :: rest) lost)
    (at_map : f.sector = Sector.freeMap) :
    bytesFor m ≤ f.disk.length := by
  obtain ⟨g, opens, ahead⟩ := (safely.safe.each f List.mem_cons_self).origin
  have stored : Inode.decode (image Sector.freeMap.index) = g.disk := by
    rw [← at_map, ahead.sector]
    exact opens.inode
  exact Nat.le_trans (stored ▸ safely.room) ahead.longer

omit safely in
/-- Sector 0 is another file's than one that is not the free map's. -/
theorem zero_mem_rest (safely : e.MatchesSafely v image (f :: rest) lost)
    (other : f.sector ≠ Sector.freeMap) : 0 ∈ rest.flatMap LiveFile.owned :=
  safely.safe.reserved.resolve_left fun zero => other (Sector.index_inj.1 zero.symm)

omit safely in
/-- The last handle of a file was closed and its inode is still stored. -/
theorem shut (safely : e.MatchesSafely v image (f :: rest) lost) (found : e.handle i = some h)
    (at_sector : f.sector = h.sector) (last : e.openers h.sector = 1) (free : v'.free = v.free)
    (disks : v'.disks = Function.update v.disks f.sector none)
    (status : v'.status = Function.update v.status h.sector none) :
    ∃ files' lost', (e.released image i h).MatchesSafely v' image files' lost' := by
  obtain ⟨g, more, sector, -, stored, -, safe⟩ := safely.safe.shut free disks
  refine ⟨g :: rest, more ++ lost, safely.stay ?_ safe rfl⟩
  have marked := (safe.each g List.mem_cons_self).stored_marked stored
  rw [sector, at_sector] at marked
  rw [released_stored last marked]
  split
  case isTrue gone => exact safely.toMatches.spared sector found at_sector last gone status
  case isFalse stays =>
    exact (safely.toMatches.closed found (fun both => stays both.2)
      (status.trans (by rw [Volume.Status.closed_last last]))).replace sector rfl

omit safely in
/-- The last handle of a removed inode was closed and its sector cleared. -/
theorem deleted {leaked : List Nat} (safely : e.MatchesSafely v image (f :: rest) lost)
    (found : e.handle i = some h) (at_sector : f.sector = h.sector)
    (last : e.openers h.sector = 1) (gone : e.isRemoved h.sector = true)
    (marks : v'.free.Marks (rest.flatMap LiveFile.owned ++ (lost ++ leaked)))
    (disks : v'.disks = Function.update v.disks f.sector none)
    (status : v'.status = Function.update v.status h.sector none) :
    Function.update image f.sector.index Inode.zero.encode Sector.freeMap.index =
        image Sector.freeMap.index ∧
      (e.released (Function.update image f.sector.index Inode.zero.encode) i h).MatchesSafely v'
        (Function.update image f.sector.index Inode.zero.encode) rest (lost ++ leaked) := by
  have safe := safely.safe
  have kept := safe.update_kept Inode.zero.encode
  -- the free map's file is never removed
  have zero := safely.zero_mem_rest (at_sector ▸ ne_of_isRemoved gone safely.map_stays)
  rw [released_cleared (at_sector ▸ unmarked_cleared image f.sector)]
  exact ⟨kept 0 zero, safely.stay
    (safely.toMatches.deleted safe.sector_ne found at_sector last gone status)
    (safe.tail marks kept zero disks) (kept 0 zero)⟩

/-- Everything in memory is forgotten. -/
theorem forgotten (config : CacheSetup) : ∃ files' lost',
    (e.next (.remount config) .done).MatchesSafely (⟨v.free, []⟩ : Volume m) image files' lost' := by
  obtain ⟨stored, more, shrinks, safe⟩ := safely.safe.shut_all
  exact ⟨files.map stored, more ++ lost,
    (safely.toMatches.remounted config rfl).map fun g mem => (shrinks g mem).1, safe, safely.room⟩

omit safely in
/-- The free map is stored in its file where no handle keeps it from that, and nothing else
changes. -/
theorem sync_spec {Q : Except Failure Unit → Volume m → Image → Prop}
    (safely : e.MatchesSafely v image (f :: rest) lost) (free : e.Unguarded)
    (at_map : f.sector = Sector.freeMap)
    (ends : ∀ r v' image', e.MatchesSafely v' image' (f :: rest) lost → v'.free = v.free →
      image' Sector.freeMap.index = image Sector.freeMap.index →
      (r = .ok () → (f.content image').take (bytesFor m) = v.free.toBytes) → Q r v' image') :
    (Volume.sync : VolumeAction m Unit).Ensures m mayFail v image Q := by
  have safe := safely.safe
  have mapped := (safe.each f List.mem_cons_self).toMapped
  have length := safely.long at_map
  refine Volume.sync_spec mapped (safe.inside List.mem_cons_self) at_map length
    (at_map ▸ safely.idle_map free) (safe.opens_of_closed List.mem_cons_self)
    (fun _ => safe.disk_of_find?) fun r v' image' stores => ?_
  obtain ⟨data, written, all⟩ := stores.written
  obtain ⟨safe', sector, -⟩ := safe.overwritten written
  rw [at_map] at sector
  refine ends r v' image' (safely.stay ?_ (safe'.alike stores.alike) sector) stores.alike.free sector
    fun ok => ?_
  · exact { safely.toMatches with status := stores.status.trans safely.status }
  · obtain rfl := all ok
    have bytes := FreeMap.length_toBytes v.free
    have inside := Volume.content_inside mapped written (by omega)
    rwa [List.drop_zero, bytes] at inside

end MatchesSafely

end Expected

namespace Session

variable {s s' : Session m}

/-- A sector that is a live inode's, or does not look like an inode. -/
def Genuine (s : Session m) (e : Expected) (t : Sector) : Prop :=
  e.isLive t = true ∨ t.index < m ∧ (Inode.decode (s.image t.index)).isMarked = false

/-- The operations that may come next: what is opened is an inode or does not look like one, and the
free map's file is not removed. -/
def Permits (s : Session m) (e : Expected) : FileOp → Prop
  | .create .. | .sync => True
  | .open t => s.Genuine e t
  | .root => s.Genuine e Sector.root
  | .reopen i | .read i _ _ | .write i _ _ | .deny i | .allow i | .close i | .drop i =>
      ∃ h, e.handle i = some h
  | .remove i => ∃ h, e.handle i = some h ∧ h.sector ≠ Sector.freeMap
  | .remount _ => False

/-- A file system between two operations, whose volume has what is live, all of it safe. -/
structure Serves (s : Session m) (mayFail : Prop) (e : Expected) : Prop where
  ready : s.fs.store.Ready
  may : s.fs.store.MayFail → mayFail
  handles : s.handles = e.handles
  safely : ∃ files lost, e.MatchesSafely s.fs.volume s.image files lost

/-- An operation that is carried out as `x` returns, and the session serves after it. The inode of
the free map is stored anew only if its file is written. -/
def Proceeds (s : Session m) (mayFail : Prop) (e : Expected) (op : FileOp)
    (x : Except Violation (FileAnswer × Session m)) : Prop :=
  ∃ answer s', x = .ok (answer, s') ∧ s'.Serves mayFail (e.after s'.image op answer) ∧
    (¬ op.WritesTo e Sector.freeMap →
      s'.image Sector.freeMap.index = s.image Sector.freeMap.index)

/-- What an answer leaves. -/
structure Passes (s : Session m) (e : Expected) (op : FileOp) (handles : List (Option Handle))
    (answer : FileAnswer) (v : Volume m) (image : Image) : Prop where
  handles : handles = (e.after image op answer).handles
  safely : ∃ files lost, (e.after image op answer).MatchesSafely v image files lost
  map : ¬ op.WritesTo e Sector.freeMap →
    image Sector.freeMap.index = s.image Sector.freeMap.index

theorem Serves.may_of_leads {fs : FileSystem (Cache s.config.slots m 512) m}
    (serves : s.Serves mayFail e) (leads : s.fs.Leads fs) (may : fs.store.MayFail) : mayFail := by
  rw [Cache.MayFail, leads.fails] at may
  exact serves.may may

theorem tell_proceeds {x : VolumeAction m FileAnswer} (serves : s.Serves mayFail e)
    (ensures : x.Ensures m mayFail s.fs.volume s.image fun r v image =>
      s.Passes e op s.handles (.of r) v image) :
    s.Proceeds mayFail e op (s.tell x) := by
  refine tell_spec (P := fun answer s' => s'.Serves mayFail (e.after s'.image op answer) ∧
    (¬ op.WritesTo e Sector.freeMap →
      s'.image Sector.freeMap.index = s.image Sector.freeMap.index))
    serves.ready serves.may (ensures.mono fun r v image passes fs leads volume shows => ?_)
  subst volume shows
  exact ⟨⟨leads.ready, serves.may_of_leads leads, passes.handles, passes.safely⟩, passes.map⟩

theorem keep_proceeds {x : VolumeAction m Handle} {put : Handle → List (Option Handle)}
    (serves : s.Serves mayFail e) (ensures : x.Ensures m mayFail s.fs.volume s.image
      fun r v image =>
        s.Passes e op (Memory.kept s.handles put r).2 (Memory.kept s.handles put r).1 v image) :
    s.Proceeds mayFail e op (s.keep x put) := by
  refine keep_spec put (P := fun answer s' => s'.Serves mayFail (e.after s'.image op answer) ∧
    (¬ op.WritesTo e Sector.freeMap →
      s'.image Sector.freeMap.index = s.image Sector.freeMap.index))
    serves.ready serves.may (ensures.mono fun r v image passes fs leads volume shows => ?_)
  subst volume shows
  exact ⟨⟨leads.ready, serves.may_of_leads leads, passes.handles, passes.safely⟩, passes.map⟩

namespace Serves

variable (serves : s.Serves mayFail e)
include serves

theorem handle_eq (found : e.handle i = some h) : s.handle i = some h := by
  rw [handle_eq_join, serves.handles]
  exact found

/-! ## Files are made and opened -/

theorem create_proceeds (length : Nat) (isDirectory : Bool) (parent : Sector) :
    s.Proceeds mayFail e (.create length isDirectory parent)
      (s.step (.create length isDirectory parent)) := by
  obtain ⟨files, lost, safely⟩ := serves.safely
  have safe := safely.safe
  refine tell_proceeds serves ?_
  rw [Action.ensures_map]
  refine Volume.create_spec safe.small safe.marks (List.mem_append_left _ safe.zero)
    (fun free image' f' new fresh marks kept _ => ?_)
    fun failure free image' leaked _ marks kept => ?_
  · have other := Volume.sector_ne_of_not_mem fun mem => fresh (List.mem_append_left _ mem)
    have kept' (t : Nat) (mem : t ∈ files.flatMap LiveFile.owned) : image' t = s.image t :=
      kept t (List.mem_append_left _ mem)
    exact ⟨serves.handles, ⟨f' :: files, lost, safely.stay (safely.toMatches.created _ other rfl)
      (safe.cons new.opens other marks kept') (kept' 0 safe.zero)⟩, fun _ => kept' 0 safe.zero⟩
  · have kept' (t : Nat) (mem : t ∈ files.flatMap LiveFile.owned) : image' t = s.image t :=
      kept t (List.mem_append_left _ mem)
    exact ⟨serves.handles, ⟨files, lost ++ leaked, safely.stay
      { safely.toMatches with status := safely.status } (safe.leak marks kept')
      (kept' 0 safe.zero)⟩, fun _ => kept' 0 safe.zero⟩

theorem opens (genuine : s.Genuine e t) (done : ∀ image, e.after image op .done = e.opened t)
    (fails : ∀ image failure, e.after image op (.failed failure) = e) :
    s.Proceeds mayFail e op (s.keep (Volume.openAt t) (fun h => s.handles ++ [some h])) := by
  obtain ⟨files, lost, safely⟩ := serves.safely
  refine keep_proceeds serves ?_
  have refused (failure : Failure) : s.Passes e op (Memory.kept s.handles
      (fun h => s.handles ++ [some h]) (.error failure)).2 (.failed failure) s.fs.volume s.image :=
    ⟨by rw [fails]; exact serves.handles, ⟨files, lost, by rw [fails]; exact safely⟩, fun _ => rfl⟩
  cases live : e.isLive t with
  | true =>
    obtain ⟨f, rest, rfl, safely⟩ := safely.split live
    refine safely.safe.openAt_spec (fun v' free disks status => ?_) fun _ _ => refused .io
    refine ⟨?_, ⟨f :: rest, lost, ?_⟩, fun _ => rfl⟩
    · rw [Memory.kept, done]
      exact congrArg (· ++ [some { sector := f.sector }]) serves.handles
    · rw [Memory.kept, done]
      exact safely.keep (safely.toMatches.opened status)
        (safely.safe.opened List.mem_cons_self free disks)
  | false =>
    obtain ⟨inside, unmarked⟩ := genuine.resolve_left (by rw [live]; exact Bool.false_ne_true)
    exact Volume.openAt_refused (safely.find?_of_dead live) inside unmarked (refused _)
      fun _ => refused .io

theorem reopen_proceeds (permits : s.Permits e (.reopen i)) :
    s.Proceeds mayFail e (.reopen i) (s.step (.reopen i)) := by
  obtain ⟨h, found⟩ := permits
  obtain ⟨files, lost, safely⟩ := serves.safely
  rw [step_handle (serves.handle_eq found) rfl]
  exact serves.opens (.inl (safely.live_of_handle found)) (fun _ => Expected.onHandle_eq found)
    fun _ _ => rfl

/-! ## Bytes are read and written -/

theorem read_proceeds {off len : Nat} (permits : s.Permits e (.read i off len)) :
    s.Proceeds mayFail e (.read i off len) (s.step (.read i off len)) := by
  obtain ⟨h, found⟩ := permits
  obtain ⟨files, lost, safely⟩ := serves.safely
  obtain ⟨f, rest, at_sector, safely⟩ := safely.split_handle found
  obtain ⟨node, loaded, -⟩ := Volume.exists_of_status (safely.status_handle found)
  rw [← at_sector] at loaded
  rw [step_handle (serves.handle_eq found) rfl]
  refine tell_proceeds serves ?_
  have passes (answer : FileAnswer) :
      s.Passes e (.read i off len) s.handles answer s.fs.volume s.image :=
    ⟨serves.handles, ⟨_, _, safely⟩, fun _ => rfl⟩
  rw [Action.ensures_map]
  exact Volume.readBytes_spec (safely.safe.each f List.mem_cons_self).toMapped
    (by rwa [← at_sector]) (safely.safe.disk_of_find? loaded) (passes _) fun _ => passes _

theorem write_proceeds {off : Nat} {data : List UInt8} (permits : s.Permits e (.write i off data)) :
    s.Proceeds mayFail e (.write i off data) (s.step (.write i off data)) := by
  obtain ⟨h, found⟩ := permits
  obtain ⟨files, lost, safely⟩ := serves.safely
  obtain ⟨f, rest, at_sector, safely⟩ := safely.split_handle found
  obtain ⟨node, loaded, -⟩ := Volume.exists_of_status (safely.status_handle found)
  rw [step_handle (serves.handle_eq found) rfl]
  refine tell_proceeds serves ?_
  rw [Action.ensures_map]
  refine Volume.writeSafe_spec safely.safe at_sector.symm (by rwa [at_sector])
    fun r v' image' f' moved _ _ _ => ?_
  have same := safely.toMatches.replace moved.ahead.sector moved.status
  by_cases at_map : f.sector = Sector.freeMap
  · refine ⟨serves.handles, ⟨f' :: rest, lost, same, moved.safe, ?_⟩, fun untouched => ?_⟩
    · rw [← at_map]
      rcases moved.inode with stays | settled
      · rw [stays, at_map]
        exact safely.room
      · rw [← moved.ahead.sector, show Inode.decode _ = f'.disk from settled]
        exact Nat.le_trans (safely.long at_map) moved.ahead.longer
    · exact absurd ⟨h, found, at_sector ▸ at_map⟩ untouched
  · have stays := moved.kept 0 (safely.zero_mem_rest at_map)
    exact ⟨serves.handles, ⟨f' :: rest, lost, safely.stay same moved.safe stays⟩, fun _ => stays⟩

/-! ## Handles deny, allow, remove and close -/

theorem deny_proceeds (permits : s.Permits e (.deny i)) :
    s.Proceeds mayFail e (.deny i) (s.step (.deny i)) := by
  obtain ⟨h, found⟩ := permits
  obtain ⟨files, lost, safely⟩ := serves.safely
  have next (image : Image) : e.after image (.deny i) .done =
      e.withHandle i (some { h with deniesWrite := true }) := Expected.onHandle_eq found
  rw [step_handle (serves.handle_eq found) rfl]
  refine keep_proceeds serves ?_
  refine Volume.deny_spec (safely.status_handle found) (Expected.denials_lt_openers found)
    fun v' alike status => ?_
  refine ⟨?_, ⟨files, lost, ?_⟩, fun _ => rfl⟩
  · rw [Memory.kept, next]
    exact congrArg (fun handles => List.set handles i (some { h with deniesWrite := true }))
      serves.handles
  · rw [Memory.kept, next]
    refine safely.keep (safely.toMatches.withHandle found ?_ status) (safely.safe.alike alike)
    cases h.deniesWrite <;> rfl

theorem allow_proceeds (permits : s.Permits e (.allow i)) :
    s.Proceeds mayFail e (.allow i) (s.step (.allow i)) := by
  obtain ⟨h, found⟩ := permits
  obtain ⟨files, lost, safely⟩ := serves.safely
  have next (image : Image) : e.after image (.allow i) .done =
      e.withHandle i (some { h with deniesWrite := false }) := Expected.onHandle_eq found
  have counted := Expected.denials_pos found
  rw [step_handle (serves.handle_eq found) rfl]
  refine keep_proceeds serves ?_
  refine Volume.allow_spec (safely.status_handle found) counted fun v' alike status => ?_
  refine ⟨?_, ⟨files, lost, ?_⟩, fun _ => rfl⟩
  · rw [Memory.kept, next]
    exact congrArg (fun handles => List.set handles i (some { h with deniesWrite := false }))
      serves.handles
  · rw [Memory.kept, next]
    refine safely.keep (safely.toMatches.withHandle found ?_ status) (safely.safe.alike alike)
    cases denies : h.deniesWrite with
    | false => rfl
    | true => exact Nat.sub_add_cancel (counted denies)

theorem remove_proceeds (permits : s.Permits e (.remove i)) :
    s.Proceeds mayFail e (.remove i) (s.step (.remove i)) := by
  obtain ⟨h, found, other⟩ := permits
  obtain ⟨files, lost, safely⟩ := serves.safely
  obtain ⟨file, known⟩ := Option.isSome_iff_exists.1 (safely.live_of_handle found)
  have next := Expected.after_remove found known
  rw [step_handle (serves.handle_eq found) rfl]
  refine tell_proceeds serves ?_
  rw [Action.ensures_bind]
  refine Volume.remove_spec (safely.status_handle found) fun v' alike status => ?_
  rw [Action.onward_ok, Action.ensures_pure]
  refine ⟨?_, ⟨files, lost, ?_⟩, fun _ => rfl⟩
  · rw [FileAnswer.of, next]
    exact serves.handles
  · rw [FileAnswer.of, next]
    exact safely.keep (safely.toMatches.removed found known other status) (safely.safe.alike alike)

omit serves in
/-- Whatever fails when a handle is closed, the handle is gone. -/
theorem close_ensures (safely : e.MatchesSafely v image files lost) (found : e.handle i = some h) :
    (Volume.close h).Ensures m mayFail v image fun _ v' image' =>
      image' Sector.freeMap.index = image Sector.freeMap.index ∧
        ∃ files' lost', (e.released image' i h).MatchesSafely v' image' files' lost' := by
  obtain ⟨f, rest, at_sector, safely⟩ := safely.split_handle found
  have safe := safely.safe
  have open_now := safely.status_of_handle found at_sector
  have disk := safe.disks_of_status open_now
  refine Volume.close_spec safe.holds at_sector.symm disk open_now (Expected.openers_pos found)
    (Expected.denials_pos found) (fun several v' alike status => ?_)
    (fun last _ r v' _ free disks status => ?_)
    fun last gone r v' leaked _ marks disks status => ?_
  · rw [at_sector] at status
    rw [Expected.released_several fun both => several both.1]
    exact ⟨rfl, f :: rest, lost, safely.keep (safely.toMatches.closed found
      (fun both => several both.1) status) (safe.alike alike)⟩
  · exact ⟨rfl, safely.shut found at_sector last free disks (at_sector ▸ status)⟩
  · rw [List.append_assoc] at marks
    obtain ⟨map, after⟩ :=
      safely.deleted found at_sector last gone marks disks (at_sector ▸ status)
    exact ⟨map, rest, lost ++ leaked, after⟩

/-- Closing returns, and the session is without the handle. -/
theorem closing {x : VolumeAction m Unit}
    (same : ∀ image answer, e.after image op answer = e.released image i h)
    (ensures : x.Ensures m mayFail s.fs.volume s.image fun _ v' image' =>
      image' Sector.freeMap.index = s.image Sector.freeMap.index ∧
        ∃ files' lost', (e.released image' i h).MatchesSafely v' image' files' lost') :
    s.Proceeds mayFail e op ((s.forget i).tell (do x; return .done)) := by
  have handles (image : Image) : (s.forget i).handles = (e.released image i h).handles := by
    rw [Expected.released_handles, ← serves.handles]
    rfl
  refine tell_spec (s := s.forget i) (P := fun answer s' => s'.Serves mayFail
    (e.after s'.image op answer) ∧ (¬ op.WritesTo e Sector.freeMap →
      s'.image Sector.freeMap.index = s.image Sector.freeMap.index)) serves.ready serves.may ?_
  rw [Action.ensures_bind]
  refine ensures.mono ?_
  rintro r v image ⟨map, safely⟩
  have ends {answer : FileAnswer} {fs : FileSystem (Cache s.config.slots m 512) m}
      (leads : s.fs.Leads fs) (volume : fs.volume = v) (shows : fs.store.image = image) :
      Serves { s.forget i with fs } mayFail (e.after fs.store.image op answer) ∧
        (¬ op.WritesTo e Sector.freeMap →
          fs.store.image Sector.freeMap.index = s.image Sector.freeMap.index) := by
    subst volume shows
    rw [same]
    exact ⟨⟨leads.ready, serves.may_of_leads leads, handles _, safely⟩, fun _ => map⟩
  cases r with
  | ok =>
    rw [Action.onward_ok, Action.ensures_pure]
    exact fun fs => ends
  | error failure =>
    rw [Action.onward_error]
    exact fun fs => ends

theorem close_proceeds (permits : s.Permits e (.close i)) :
    s.Proceeds mayFail e (.close i) (s.step (.close i)) := by
  obtain ⟨h, found⟩ := permits
  obtain ⟨files, lost, safely⟩ := serves.safely
  rw [step_handle (serves.handle_eq found) rfl]
  exact serves.closing (fun _ _ => Expected.onHandle_eq found) (close_ensures safely found)

theorem drop_proceeds (permits : s.Permits e (.drop i)) :
    s.Proceeds mayFail e (.drop i) (s.step (.drop i)) := by
  obtain ⟨h, found⟩ := permits
  obtain ⟨files, lost, safely⟩ := serves.safely
  rw [step_handle (serves.handle_eq found) rfl]
  refine serves.closing (fun _ _ => Expected.onHandle_eq found) ?_
  rw [Volume.drop, Action.ensures_ignoreError]
  exact close_ensures safely found

/-! ## The file system is stored -/

theorem some_sector : 0 < m := by
  obtain ⟨files, lost, safely⟩ := serves.safely
  exact safely.safe.marks.inside 0 (List.mem_append_left _ safely.safe.zero)

theorem sync_proceeds (free : e.Unguarded) : s.Proceeds mayFail e .sync (s.step .sync) := by
  obtain ⟨files, lost, safely⟩ := serves.safely
  obtain ⟨f, rest, at_map, safely⟩ := safely.split safely.map_live
  refine tell_proceeds serves ?_
  rw [Action.ensures_bind]
  refine safely.sync_spec free at_map fun r v image safely' _ map _ => ?_
  cases r with
  | ok =>
    rw [Action.onward_ok, Action.ensures_pure]
    exact ⟨serves.handles, ⟨_, _, safely'⟩, fun _ => map⟩
  | error failure =>
    rw [Action.onward_error]
    exact ⟨serves.handles, ⟨_, _, safely'⟩, fun _ => map⟩

/-- Every operation that may come next returns, and the session serves after it; only a sync needs
that no handle denies writes to the free map's file. -/
theorem proceeds (permits : s.Permits e op) (free : op = .sync → e.Unguarded) :
    s.Proceeds mayFail e op (s.step op) := by
  cases op with
  | create length isDirectory parent => exact serves.create_proceeds length isDirectory parent
  | «open» t => exact serves.opens permits (fun _ => rfl) fun _ _ => rfl
  | root => exact serves.opens permits (fun _ => rfl) fun _ _ => rfl
  | reopen i => exact serves.reopen_proceeds permits
  | read i off len => exact serves.read_proceeds permits
  | write i off data => exact serves.write_proceeds permits
  | remove i => exact serves.remove_proceeds permits
  | deny i => exact serves.deny_proceeds permits
  | allow i => exact serves.allow_proceeds permits
  | close i => exact serves.close_proceeds permits
  | drop i => exact serves.drop_proceeds permits
  | sync => exact serves.sync_proceeds (free rfl)
  | remount config => exact permits.elim

theorem after_step (permits : s.Permits e op) (stepped : s.step op = .ok (answer, s')) :
    s'.Serves mayFail (e.after s'.image op answer) ∧ (¬ op.WritesTo e Sector.freeMap →
      s'.image Sector.freeMap.index = s.image Sector.freeMap.index) := by
  have free (is_sync : op = .sync) : e.Unguarded := by
    by_contra guarded
    obtain ⟨files, lost, safely⟩ := serves.safely
    rw [is_sync, (violates_of_halt (safely.sync_halts guarded serves.some_sector)).2] at stepped
    cases stepped
  obtain ⟨answer', s₁, stepped', serves', map⟩ := serves.proceeds permits free
  cases stepped.symm.trans stepped'
  exact ⟨serves', map⟩

theorem withFails (failing : mayFail) (fails : Nat → IoKind → Fin m → Bool) :
    (s.withFails fails).Serves mayFail e :=
  ⟨ready_withFails serves.ready fails, fun _ => failing, serves.handles, serves.safely⟩

/-- A file system that was stored is taken up again, as it is stored. -/
theorem mounted {fs : FileSystem (Cache s.config.slots m 512) m}
    {fs' : FileSystem (Cache config.slots m 512) m}
    (stored : s.fs.perform Volume.sync = .ok (.ok (), fs))
    (same : device.blocks = fs.store.device.blocks)
    (may : ¬ (∀ number kind b, device.fails number kind b = false) → mayFail)
    (mounted : FileSystem.mount (Cache.new device config) = .ok (.ok (), some fs')) :
    Serves ⟨config, fs', []⟩ mayFail (e.next (.remount config) .done) := by
  obtain ⟨files, lost, safely⟩ := serves.safely
  have free : e.Unguarded := by
    by_contra guarded
    rw [(violates_of_halt (safely.sync_halts guarded serves.some_sector)).1] at stored
    cases stored
  obtain ⟨f, rest, at_map, safely⟩ := safely.split safely.map_live
  obtain ⟨r, fs₁, stored₁, leads, safely₁, free₁, content⟩ := FileSystem.perform_spec serves.ready
    serves.may (x := Volume.sync) (Q := fun r v image => e.MatchesSafely v image (f :: rest) lost ∧
      v.free = s.fs.volume.free ∧
      (r = .ok () → (f.content image).take (bytesFor m) = s.fs.volume.free.toBytes))
    (safely.sync_spec free at_map fun r v image safely free _ content => ⟨safely, free, content⟩)
  rw [stored] at stored₁
  cases stored₁
  -- what is mounted are the first bytes of the map's file, as it is stored
  obtain ⟨g, opens, ahead⟩ := (safely₁.safe.each f List.mem_cons_self).origin
  have bytes (length : g.disk.length = bytesFor m) :
      g.content fs.store.image = fs.volume.free.toBytes := by
    have mapped := (safely₁.safe.each f List.mem_cons_self).toMapped
    rw [free₁, ← content rfl]
    refine List.ext_getElem? fun i => ?_
    rw [List.getElem?_take]
    split
    case isTrue inside =>
      exact (Volume.content_of_extends opens.toMapped ahead (fun _ _ => rfl)
        (length ▸ inside)).symm
    case isFalse out =>
      rw [LiveFile.getElem?_content, if_neg (length ▸ out)]
  obtain ⟨files', lost', safely'⟩ := safely₁.forgotten config
  obtain ⟨ready, fails, free, closed, shows⟩ := FileSystem.ok_of_start (Q := fun v image =>
    v.free = fs.volume.free ∧ v.find? = (fun _ => none) ∧ image = fs.store.image) mounted (by
      rw [FileSystem.image_of_flush leads.ready (Volume.sync_eq ▸ stored) same]
      have at_map' : g.sector = Sector.freeMap := ahead.sector.symm.trans at_map
      exact Volume.mount_cases opens (at_map' ▸ serves.some_sector)
        (FileSystem.started mounted).2 at_map' safely'.safe.marks bytes
        (fun v' _ free closed _ => ⟨free, closed, rfl⟩) fun _ _ failed => by cases failed)
  obtain ⟨disks, status⟩ := Volume.none_open closed
  refine ⟨ready, fun failing => may ?_, rfl, files', lost', ?_⟩
  · rwa [Cache.MayFail, fails] at failing
  change Expected.MatchesSafely _ fs'.volume fs'.store.image _ _
  rw [shows]
  exact safely'.keep { safely'.toMatches with status := status.trans safely'.status }
    (safely'.safe.alike ⟨free, disks⟩)

end Serves

/-- A new file system serves. -/
theorem serves_of_format {fs : FileSystem (Cache config.slots m 512) m}
    (may : ¬ (∀ number kind b, device.fails number kind b = false) → mayFail)
    (formatted : FileSystem.format (Cache.new device config) = .ok (.ok (), some fs)) :
    Serves ⟨config, fs, []⟩ mayFail .start := by
  have storable := storable_of_format formatted
  obtain ⟨files, lost, inodes⟩ := storable.inodes
  refine ⟨storable.ready, fun failing => may fun reliable => ?_, rfl, files, lost,
    inodes.matchesSafely⟩
  exact failing (follows_start reliable formatted).up.reliable

/-- The sessions that permitted operations lead to, and what is live and open in them. Where
`mayFail`, which calls of the device fail can change at any time; otherwise none fails. A file
system that was stored can be taken up again from what it left on its device. -/
inductive Served (mayFail : Prop) : Session m → Expected → Prop
  | formatted {device : Device m 512} {config : CacheSetup}
      {fs : FileSystem (Cache config.slots m 512) m} :
      (¬ (∀ number kind b, device.fails number kind b = false) → mayFail) →
      FileSystem.format (Cache.new device config) = .ok (.ok (), some fs) →
      Served mayFail ⟨config, fs, []⟩ .start
  | step {s s' : Session m} {e : Expected} {op : FileOp} {answer : FileAnswer} :
      Served mayFail s e → s.Permits e op → s.step op = .ok (answer, s') →
      Served mayFail s' (e.after s'.image op answer)
  | failing {s : Session m} {e : Expected} (fails : Nat → IoKind → Fin m → Bool) :
      mayFail → Served mayFail s e → Served mayFail (s.withFails fails) e
  | mounted {s : Session m} {e : Expected} {fs : FileSystem (Cache s.config.slots m 512) m}
      {device : Device m 512} {config : CacheSetup}
      {fs' : FileSystem (Cache config.slots m 512) m} :
      Served mayFail s e → s.fs.perform Volume.sync = .ok (.ok (), fs) →
      device.blocks = fs.store.device.blocks →
      (¬ (∀ number kind b, device.fails number kind b = false) → mayFail) →
      FileSystem.mount (Cache.new device config) = .ok (.ok (), some fs') →
      Served mayFail ⟨config, fs', []⟩ (e.next (.remount config) .done)

theorem Served.serves (served : Served mayFail s e) : s.Serves mayFail e := by
  induction served with
  | formatted may formatted => exact serves_of_format may formatted
  | step _ permits stepped ih => exact (ih.after_step permits stepped).1
  | failing fails may _ ih => exact ih.withFails may fails
  | mounted _ stored same may mounted ih => exact ih.mounted stored same may mounted

end Session

end SectorFs
