/-
# SectorFs.Proofs.Session.Limit — what is asked for beyond the size limit

`Session.Mounted`: the sessions of a file system that was made or taken up, on any device and
whatever it held, after any operations. Between them the store may change in any way. In all of them
the free map fits into a file, no inode is open twice and each handle is to an inode that is open
(`Mounted.orderly`).

What is asked for beyond the size limit then fails and leaves the session as it was, its cache and
device with it (`limits_of_mounted`). A write says that the file would be too large. So does a
create, as long as a sector is free: it takes the sector of the new inode before it looks at the
length, and says that there is no space where it gets none. An inode that says it is longer than the
limit is the exception: a write that stays inside it goes as far as there are sectors.
-/
import SectorFs.Proofs.Session.Handles
import SectorFs.Proofs.Volume.Limit
import SectorFs.Proofs.Volume.Openers
import SectorFs.Proofs.Volume.Format

namespace SectorFs

set_option autoImplicit false

variable {m : Nat} {op : FileOp} {answer : FileAnswer}

/-! ## Handles are to open inodes -/

namespace Memory

variable {d : Memory m}

/-- Each handle is counted by the open inode that it is to. -/
def Attended (d : Memory m) : Prop :=
  ∀ t, d.volume.openers t = countHandles d.handles fun h => h.sector = t

theorem handle_eq_some {i : Nat} {h : Handle} (found : d.handle i = some h) :
    d.handles[i]? = some (some h) := Option.join_eq_some_iff.1 found

/-- What neither opens nor closes changes no count. -/
theorem tell_attended {x : VolumeAction m FileAnswer} (attended : d.Attended)
    (keeps : x.Keeps fun v => v.openers = d.volume.openers) :
    (d.tell x).Under .anything () fun after _ => after.2.Attended := by
  refine tell_under ((keeps d.volume rfl).mono fun r v _ same t => ?_)
  exact (congrFun same t).trans (attended t)

/-- A handle that is made is counted. -/
theorem open_attended (attended : d.Attended) (s : Sector) :
    (d.keep (Volume.openAt s) fun h => d.handles ++ [some h]).Under .anything () fun after _ =>
      after.2.Attended := by
  refine keep_under ((Volume.openAt_openers s).mono ?_)
  rintro r v _ ⟨counts, made⟩ t
  change v.openers t = _
  cases r with
  | error e => exact (congrFun counts t).trans (attended t)
  | ok h =>
    change _ = countHandles (d.handles ++ [some h]) _
    rw [counts, Volume.counted, Expected.countHandles_append, made h rfl]
    by_cases here : t = s
    · rw [here, Function.update_self, attended, decide_eq_true rfl, Bool.toNat_true]
    · rw [Function.update_of_ne here, attended, decide_eq_false (Ne.symm here), Bool.toNat_false]
      rfl

/-- A handle that takes the place of one to the same inode leaves the counts. -/
theorem replace_attended {i : Nat} {h : Handle} {x : VolumeAction m Handle} (attended : d.Attended)
    (found : d.handle i = some h)
    (under : x.Under .anything d.volume () fun r v _ => v.openers = d.volume.openers ∧
      ∀ h', r = .ok h' → h'.sector = h.sector) :
    (d.keep x fun h => d.handles.set i (some h)).Under .anything () fun after _ =>
      after.2.Attended := by
  refine keep_under (under.mono ?_)
  rintro r v _ ⟨counts, same⟩ t
  change v.openers t = _
  rw [counts, attended]
  cases r with
  | error e => rfl
  | ok h' =>
    have counted := Expected.countHandles_set (handle_eq_some found) (some h') fun g => g.sector = t
    rw [Option.any_some, same h' rfl] at counted
    exact (Nat.add_right_cancel counted).symm

/-- A handle that is gone is not counted. -/
theorem forget_attended {i : Nat} {h : Handle} {x : VolumeAction m FileAnswer}
    (attended : d.Attended) (found : d.handle i = some h)
    (under : x.Under .anything d.volume () fun _ v _ => v.openers =
      Function.update d.volume.openers h.sector (d.volume.openers h.sector - 1)) :
    ((d.forget i).tell x).Under .anything () fun after _ => after.2.Attended := by
  refine tell_under (d := d.forget i) (under.mono fun r v _ counts t => ?_)
  change v.openers t = countHandles (d.handles.set i none) _
  have counted := Expected.countHandles_set (handle_eq_some found) none fun g => g.sector = t
  rw [Option.any_none, Bool.toNat_false, Nat.add_zero] at counted
  rw [counts]
  by_cases here : t = h.sector
  · rw [decide_eq_true here.symm, Bool.toNat_true] at counted
    rw [here, Function.update_self, attended, ← here]
    omega
  · rw [decide_eq_false (Ne.symm here), Bool.toNat_false] at counted
    rw [Function.update_of_ne here, attended]
    exact counted.symm

theorem step_attended (attended : d.Attended) (op : FileOp) :
    (d.step op).Under .anything () fun after _ => after.2.Attended := by
  have tabular : Volume.Tabular fun v : Volume m => v.openers = d.volume.openers :=
    Volume.tabular_openers d.volume.openers
  cases op with
  | create =>
    exact tell_attended attended ((Volume.create_keeps tabular _ _ _).map _)
  | «open» t => exact open_attended attended t
  | root => exact open_attended attended _
  | reopen i => exact withHandle_under attended fun h _ => open_attended attended _
  | read i off len =>
    exact withHandle_under attended fun h _ =>
      tell_attended attended ((Volume.readBytes_keeps h off len).map _)
  | write i off data =>
    exact withHandle_under attended fun h _ =>
      tell_attended attended ((Volume.writeBytes_keeps tabular h off data).map _)
  | remove i =>
    exact withHandle_under attended fun h _ =>
      tell_attended attended ((Volume.remove_keeps tabular h).bind fun _ => Action.keeps_pure _)
  | deny i =>
    exact withHandle_under attended fun h found => replace_attended attended found
      (Volume.deny_under fun h' v sector counts => ⟨counts, fun g made => by cases made; exact sector⟩)
  | allow i =>
    exact withHandle_under attended fun h found => replace_attended attended found
      (Volume.allow_under fun h' v sector counts => ⟨counts, fun g made => by cases made; exact sector⟩)
  | close i =>
    refine withHandle_under attended fun h found => forget_attended attended found ?_
    rw [Action.under_bind]
    exact (Volume.close_openers h).mono fun r v _ counts => by cases r <;> exact counts
  | drop i =>
    refine withHandle_under attended fun h found => forget_attended attended found ?_
    rw [Action.under_bind]
    exact (Volume.drop_openers h).mono fun r v _ counts => by cases r <;> exact counts
  | sync | remount =>
    exact tell_attended attended ((Volume.sync_openers _).bind fun _ => Action.keeps_pure _)

end Memory

namespace Session

variable {s s' : Session m}

/-- What holds between two operations, whatever the store holds. -/
structure Orderly (s : Session m) : Prop where
  once : s.fs.volume.Once
  attended : s.memory.Attended

/-- A file system that was just started has no handles. -/
theorem orderly_of_start {config : CacheSetup} {fs : FileSystem (Cache config.slots m 512) m}
    (once : fs.volume.Once) (none : fs.volume.openers = fun _ => 0) :
    Orderly ⟨config, fs, []⟩ where
  once := once
  attended t := congrFun none t

theorem orderly_of_format {device : Device m 512} {config : CacheSetup}
    {fs : FileSystem (Cache config.slots m 512) m}
    (formatted : FileSystem.format (Cache.new device config) = .ok (.ok (), some fs)) :
    Orderly ⟨config, fs, []⟩ := by
  obtain ⟨first, ran⟩ := FileSystem.exists_run_of_start formatted
  exact orderly_of_start (FileSystem.once_of_start Volume.format_keeps formatted)
    ((Volume.format_openers _).run rfl ran)

theorem orderly_of_mount {device : Device m 512} {config : CacheSetup}
    {fs : FileSystem (Cache config.slots m 512) m}
    (mounted : FileSystem.mount (Cache.new device config) = .ok (.ok (), some fs)) :
    Orderly ⟨config, fs, []⟩ := by
  obtain ⟨first, ran⟩ := FileSystem.exists_run_of_start mounted
  exact orderly_of_start (FileSystem.once_of_start Volume.mount_keeps mounted)
    (Volume.mount_openers.run ran rfl)

/-- A remount leaves a file system that was taken up, or the old one after a sync. -/
theorem remount_cases {config : CacheSetup} (stepped : s.remount config = .ok (answer, s')) :
    (∃ r fs, s.fs.perform Volume.sync = .ok (r, fs) ∧ s' = { s with fs }) ∨
    ∃ (device : Device m 512) (fs : FileSystem (Cache config.slots m 512) m),
      FileSystem.mount (Cache.new device config) = .ok (.ok (), some fs) ∧
        s' = ⟨config, fs, []⟩ := by
  rw [remount] at stepped
  cases performed : s.fs.perform Volume.sync with
  | error violation =>
    rw [performed] at stepped
    cases stepped
  | ok after =>
    obtain ⟨r, fs⟩ := after
    rw [performed] at stepped
    cases r with
    | error e =>
      cases stepped
      exact .inl ⟨_, fs, rfl, rfl⟩
    | ok =>
      change (FileSystem.mount (Cache.new fs.store.device config) >>= _) = _ at stepped
      cases taken : FileSystem.mount (m := m) (Cache.new fs.store.device config) with
      | error violation =>
        rw [taken] at stepped
        cases stepped
      | ok up =>
        obtain ⟨r, o⟩ := up
        rw [taken] at stepped
        cases r with
        | error e =>
          cases stepped
          exact .inl ⟨_, fs, rfl, rfl⟩
        | ok =>
          cases o with
          | none =>
            cases stepped
            exact .inl ⟨_, fs, rfl, rfl⟩
          | some fs' =>
            cases stepped
            exact .inr ⟨_, fs', taken, rfl⟩

theorem Orderly.step (orderly : s.Orderly) (stepped : s.step op = .ok (answer, s')) :
    s'.Orderly := by
  by_cases stays : ∀ config, op ≠ .remount config
  · refine ⟨once_of_step orderly.once stays stepped, ?_⟩
    obtain ⟨after, ran, resumed⟩ := exists_run_of_step stays stepped
    cases resumed
    exact (Memory.step_attended orderly.attended op).run ran
  · obtain ⟨config, remounts⟩ := not_forall.1 stays
    obtain rfl := not_not.1 remounts
    obtain ⟨r, fs, performed, rfl⟩ | ⟨device, fs, mounted, rfl⟩ := remount_cases stepped
    · have ran := FileSystem.run_of_perform performed
      refine ⟨Volume.sync_keeps.run orderly.once ran, fun t => ?_⟩
      have counts : fs.volume.openers = s.fs.volume.openers :=
        Action.Keeps.run (P := fun v => v.openers = s.fs.volume.openers) (Volume.sync_openers _) rfl ran
      exact (congrFun counts t).trans (orderly.attended t)
    · exact orderly_of_mount mounted

/-- The sessions of file systems in use. Between two operations the sectors can change in any way,
and which calls of the device fail. -/
inductive Mounted : Session m → Prop
  | formatted {device : Device m 512} {config : CacheSetup}
      {fs : FileSystem (Cache config.slots m 512) m} :
      FileSystem.format (Cache.new device config) = .ok (.ok (), some fs) →
      Mounted ⟨config, fs, []⟩
  | taken {device : Device m 512} {config : CacheSetup}
      {fs : FileSystem (Cache config.slots m 512) m} :
      FileSystem.mount (Cache.new device config) = .ok (.ok (), some fs) →
      Mounted ⟨config, fs, []⟩
  | step {s s' : Session m} {op : FileOp} {answer : FileAnswer} :
      Mounted s → s.step op = .ok (answer, s') → Mounted s'
  | disturbed {s : Session m} (store : Cache s.config.slots m 512) :
      Mounted s → Mounted { s with fs.store := store }

theorem Mounted.orderly (mounted : s.Mounted) : s.Orderly := by
  induction mounted with
  | formatted formatted => exact orderly_of_format formatted
  | taken taken => exact orderly_of_mount taken
  | step _ stepped ih => exact ih.step stepped
  | disturbed store _ ih => exact ⟨ih.once, ih.attended⟩

/-- The free map of a file system in use fits into a file. -/
theorem Mounted.fits (mounted : s.Mounted) : bytesFor m ≤ maxFileBytes := by
  induction mounted with
  | @formatted device config fs formatted =>
    by_contra long
    obtain ⟨slots, two⟩ := FileSystem.started formatted
    have many : 8 * maxFileBytes < m := Nat.lt_of_not_le fun few => long (bytesFor_le_iff.2 few)
    have refused : (Volume.format : VolumeAction m Unit).Ensures m True (.empty m) device.image
        fun r _ _ => r = .error .fileTooLarge := Volume.format_tooLarge many
    obtain ⟨r, fs', started, -, -, rfl⟩ := FileSystem.start_spec .noSpace slots two
      (fun _ => trivial) refused
    rw [FileSystem.format, started] at formatted
    cases formatted
  | taken taken =>
    by_contra long
    obtain ⟨first, ran⟩ := FileSystem.exists_run_of_start taken
    obtain ⟨e, failed⟩ := (Volume.mount_never (Nat.lt_of_not_le long) (.empty m)).run ran
    cases failed
  | step _ _ ih => exact ih
  | disturbed _ _ ih => exact ih

/-! ## What is asked for beyond the limit -/

/-- An operation that fails before it asks for anything leaves the session as it was. -/
theorem tell_of_done {α : Type} {x : VolumeAction m α} {e : Failure} (f : α → FileAnswer)
    (fails : x.program s.fs.volume = .done (.error e, s.fs.volume)) :
    s.tell (f <$> x) = .ok (.failed e, s) := by
  rw [tell_eq, FileSystem.perform, Action.run, Action.program_map, fails]
  rfl

/-- One that never ends well, and leaves what is in memory alone, is answered with a failure. -/
theorem tell_of_never {α : Type} {x : VolumeAction m α} (f : α → FileAnswer)
    (never : x.Under .anything s.fs.volume () fun r v _ => v = s.fs.volume ∧ ∃ e, r = .error e)
    (told : s.tell (f <$> x) = .ok (answer, s')) :
    s'.fs.volume = s.fs.volume ∧ ∃ e, answer = .failed e := by
  rw [tell_eq] at told
  cases performed : s.fs.perform (f <$> x) with
  | error violation =>
    rw [performed] at told
    cases told
  | ok after =>
    rw [performed] at told
    cases told
    have fails : (f <$> x).Under .anything s.fs.volume () fun r v _ =>
        v = s.fs.volume ∧ ∃ e, r = .error e := by
      rw [Action.under_map]
      refine never.mono ?_
      rintro r v _ ⟨same, e, rfl⟩
      exact ⟨same, e, rfl⟩
    obtain ⟨same, e, failed⟩ := fails.run (FileSystem.run_of_perform performed)
    exact ⟨same, e, by rw [failed, FileAnswer.of]⟩

/-- What comes of operations that ask for more than a file can have. -/
structure Limits (s : Session m) : Prop where
  /-- Where no sector is free there is none for a new inode, however long it would be. -/
  full {length : Nat} {isDirectory : Bool} {parent : Sector} :
    (∀ i < m, s.fs.volume.free.inUse i = true) →
    s.step (.create length isDirectory parent) = .ok (.failed .noSpace, s)
  /-- Where one is free, an inode that would be too long is refused. -/
  create {length i : Nat} {isDirectory : Bool} {parent : Sector} :
    i < m → s.fs.volume.free.inUse i = false → maxFileBytes < length →
    s.step (.create length isDirectory parent) = .ok (.failed .fileTooLarge, s)
  /-- A write beyond the limit is refused, unless it stays inside an inode that says it is longer
  than that. Such a write takes no sector and changes no inode, and it does not succeed. -/
  write {i off : Nat} {data : List UInt8} {h : Handle} :
    s.handle i = some h → data ≠ [] → maxFileBytes < off + data.length →
    ∃ node, s.fs.volume.find? h.sector = some node ∧ (node.denials = 0 →
      (node.disk.length < off + data.length →
        s.step (.write i off data) = .ok (.failed .fileTooLarge, s)) ∧
      (off + data.length ≤ node.disk.length → ∀ answer s',
        s.step (.write i off data) = .ok (answer, s') →
        s'.fs.volume = s.fs.volume ∧ ∃ e, answer = .failed e))

/-- **What is asked for beyond the size limit fails and changes nothing**, in every session, as long
as no inode says it is longer than the limit. A file that would be too large is told apart from a
lack of space, except by a create on a full disk. -/
theorem limits_of_mounted (mounted : Mounted s) : s.Limits where
  full all := tell_of_done _ (Volume.create_full all _ _ _)
  create inside unused long :=
    tell_of_done _ (Volume.create_tooLarge (Volume.small_of_map mounted.fits) inside unused long _ _)
  write := by
    intro i off data h found some_data long
    have orderly := mounted.orderly
    have counted : 0 < s.fs.volume.openers h.sector := by
      refine Nat.lt_of_lt_of_eq ?_ (orderly.attended h.sector).symm
      exact List.countP_pos_iff.2 ⟨some h, List.mem_of_getElem? (Memory.handle_eq_some found), by simp⟩
    obtain ⟨node, loaded⟩ := Volume.exists_of_openers counted
    refine ⟨node, loaded, fun free => ⟨fun short => ?_, fun inside answer s' stepped => ?_⟩⟩
    · rw [step_handle found rfl]
      exact tell_of_done _
        (Volume.writeBytes_tooLarge orderly.once loaded free some_data long short)
    · rw [step_handle found rfl] at stepped
      exact tell_of_never _ (Volume.writeBytes_never loaded free some_data long inside) stepped

/-- On eleven sectors one is left for an inode. Before it is taken, an inode of one byte more than
the limit would be too large; afterwards there is no space for it. A write at the top of the
addresses is too large for the file that was made. -/
theorem limits_of_mounted_eleven :
    ∃ s s₁ s₂ : Session 11, Mounted s ∧ Mounted s₂ ∧
      s.step (.create 8460289 false Sector.root) = .ok (.failed .fileTooLarge, s) ∧
      s.step (.create 0 false Sector.root) = .ok (.made ⟨10⟩, s₁) ∧
      s₁.step (.create 8460289 false Sector.root) = .ok (.failed .noSpace, s₁) ∧
      s₁.step (.open ⟨10⟩) = .ok (.done, s₂) ∧
      s₂.step (.write 0 0xffffffffffffffff [1]) = .ok (.failed .fileTooLarge, s₂) := by
  have reliable : ∀ number kind b, (Device.filled 11 512 7).fails number kind b = false :=
    fun _ _ _ => rfl
  obtain ⟨fs, formatted, filled⟩ :=
    exists_format _ { slots := 1 } (by decide) (by decide) (by decide) reliable
  obtain ⟨s₁, created, filled₁⟩ :=
    filled.creates 0 (by decide) false Sector.root (by decide)
  have live : (Expected.start.next (.create 0 false Sector.root) (.made ⟨10⟩)).isLive ⟨10⟩ = true :=
    rfl
  obtain ⟨s₂, opened, filled₂⟩ := filled₁.opens live
  have unused : fs.volume.free.inUse 10 = false := by
    rw [Bool.eq_false_iff, ne_eq, filled.inUse (by decide)]
    decide
  have mounted : Mounted ⟨{ slots := 1 }, fs, []⟩ := .formatted formatted
  have mounted₂ := (mounted.step created).step opened
  refine ⟨_, s₁, s₂, mounted, mounted₂, ?_, created, ?_, opened, ?_⟩
  · exact (limits_of_mounted mounted).create (i := 10) (by decide) unused (by decide)
  · exact (limits_of_mounted (mounted.step created)).full fun i inside =>
      (filled₁.inUse inside).2 inside
  · obtain ⟨files, agrees⟩ := filled₂.agrees
    have open_now : s₂.fs.volume.status ⟨10⟩ = some ⟨1, false, 0⟩ :=
      (congrFun agrees.status ⟨10⟩).trans rfl
    obtain ⟨node, loaded, -, -, free⟩ := Volume.exists_of_status open_now
    have found : s₂.handle 0 = some { sector := ⟨10⟩ } := filled₂.handle_eq rfl
    have beyond : maxFileBytes < 0xffffffffffffffff + [(1 : UInt8)].length := by decide
    obtain ⟨node', loaded', writes⟩ :=
      (limits_of_mounted mounted₂).write found (List.cons_ne_nil 1 []) beyond
    cases loaded.symm.trans loaded'
    have short : node.disk.length < 0xffffffffffffffff + 1 := by
      rw [Inode.length]
      split <;> omega
    exact (writes free).1 short

end Session

end SectorFs
