/-
# SectorFs.Proofs.Session.Contents — every file is its own string of bytes

`Session.Reachable`: the sessions that legal operations lead to, with what is
expected in each. A new file system is as expected (`follows_start`), and so is
every session reached from it (`Reachable.follows`); then the next legal operation
returns with an answer that the strings of bytes allow
(`answers_of_reachable`). No operation on one inode shows in another.
-/
import SectorFs.Proofs.Session.Room

namespace SectorFs

set_option autoImplicit false

variable {m : Nat} {e : Expected} {op : FileOp} {device : Device m 512} {config : CacheSetup}

namespace Session

/-- The sessions that legal operations lead to from a first one, and what is expected in them. -/
inductive Reachable (first : Session m) : Session m → Expected → Prop
  | start : Reachable first first .start
  | step {s s' : Session m} {e : Expected} {op : FileOp} {answer : FileAnswer} :
      Reachable first s e → e.Legal op → s.step op = .ok (answer, s') →
      Reachable first s' (e.next op answer)

variable {fs : FileSystem (Cache config.slots m 512) m} {s : Session m}

/-- Legal operations keep a session as expected. -/
theorem Reachable.follows {first : Session m} (start : first.Follows .start)
    (reachable : Reachable first s e) : s.Follows e := by
  induction reachable with
  | start => exact start
  | step _ legal stepped ih =>
    obtain ⟨answer, s', stepped', -, follows⟩ := ih.goes_of_legal legal
    rw [stepped] at stepped'
    cases stepped'
    exact follows

/-- Files have the contents that they are expected to have. After any legal operations on a file
system made on a device that does not fail, the next one returns, and its answer is one that the
strings of bytes of the live inodes allow. -/
theorem answers_of_reachable (reliable : ∀ number kind b, device.fails number kind b = false)
    (formatted : FileSystem.format (Cache.new device config) = .ok (.ok (), some fs))
    (reachable : Reachable ⟨config, fs, []⟩ s e) (legal : e.Legal op) :
    ∃ answer s', s.step op = .ok (answer, s') ∧ e.Allows op answer := by
  have follows := reachable.follows (follows_start reliable formatted)
  obtain ⟨answer, s', stepped, allows, -⟩ := follows.goes_of_legal legal
  exact ⟨answer, s', stepped, allows⟩

/-- What is expected once three bytes have been written behind a gap into a new inode. -/
def gapWritten : Expected :=
  ((Expected.start.next (.create 0 false Sector.root) (.made ⟨10⟩)).next (.open ⟨10⟩) .done).next
    (.write 0 5 [1, 2, 3]) (.written 3)

/-- On nineteen sectors there is room for the block that they need. -/
theorem exists_gapWritten (device : Device 19 512) (config : CacheSetup) (slots : 0 < config.slots)
    (reliable : ∀ number kind b, device.fails number kind b = false) :
    ∃ (fs : FileSystem (Cache config.slots 19 512) 19) (s₁ s₂ s₃ : Session 19),
      FileSystem.format (Cache.new device config) = .ok (.ok (), some fs) ∧
      Session.step ⟨config, fs, []⟩ (.create 0 false Sector.root) = .ok (.made ⟨10⟩, s₁) ∧
      s₁.step (.open ⟨10⟩) = .ok (.done, s₂) ∧
      s₂.step (.write 0 5 [1, 2, 3]) = .ok (.written 3, s₃) ∧
      s₃.Follows gapWritten ∧ Reachable ⟨config, fs, []⟩ s₃ gapWritten := by
  obtain ⟨fs, formatted, filled⟩ :=
    exists_format device config (by decide) (by decide) slots reliable
  obtain ⟨s₁, created, filled₁⟩ :=
    filled.creates 0 (by decide) false Sector.root (by decide)
  obtain ⟨s₂, opened, filled₂⟩ := filled₁.opens (t := ⟨10⟩) rfl
  obtain ⟨s₃, written, follows⟩ := filled₂.writes (i := 0) (h := { sector := ⟨10⟩ }) 5
    [1, 2, 3] rfl (by decide) rfl (by decide) (by decide) (by decide)
  have create : Expected.start.Legal (.create 0 false Sector.root) := trivial
  have write : ((Expected.start.next (.create 0 false Sector.root) (.made ⟨10⟩)).opened ⟨10⟩).Legal
    (.write 0 5 [1, 2, 3]) := ⟨{ sector := ⟨10⟩ }, rfl, by decide⟩
  have reachable : Reachable ⟨config, fs, []⟩ s₃ gapWritten :=
    .step (.step (.step .start create created) rfl opened) write written
  exact ⟨fs, s₁, s₂, s₃, formatted, created, opened, written, follows, reachable⟩

/-- Three bytes that were written behind a gap are read back with the gap before them. -/
theorem answers_of_reachable_gap :
    ∃ (fs : FileSystem (Cache 1 19 512) 19) (s₁ s₂ s₃ s₄ : Session 19),
      FileSystem.format (Cache.new (Device.filled 19 512 7) { slots := 1 }) =
        .ok (.ok (), some fs) ∧
      Session.step ⟨{ slots := 1 }, fs, []⟩ (.create 0 false Sector.root) =
        .ok (.made ⟨10⟩, s₁) ∧
      s₁.step (.open ⟨10⟩) = .ok (.done, s₂) ∧
      s₂.step (.write 0 5 [1, 2, 3]) = .ok (.written 3, s₃) ∧
      s₃.step (.read 0 0 10) = .ok (.bytes [0, 0, 0, 0, 0, 1, 2, 3], s₄) := by
  have reliable : ∀ number kind b, (Device.filled 19 512 7).fails number kind b = false :=
    fun _ _ _ => rfl
  obtain ⟨fs, s₁, s₂, s₃, formatted, created, opened, written, -, reachable⟩ :=
    exists_gapWritten _ { slots := 1 } (by decide) reliable
  have found : gapWritten.handle 0 = some { sector := ⟨10⟩ } := rfl
  have legal : gapWritten.Legal (.read 0 0 10) := ⟨_, found⟩
  obtain ⟨answer, s₄, read, data, rfl, holds⟩ :=
    answers_of_reachable reliable formatted reachable legal
  obtain ⟨file, known, content⟩ := holds _ found
  have bytes : gapWritten.files ⟨10⟩ = some ⟨[0, 0, 0, 0, 0, 1, 2, 3], false⟩ := rfl
  obtain rfl := Option.some.inj (known.symm.trans bytes)
  obtain rfl := content (by decide)
  exact ⟨fs, s₁, s₂, s₃, s₄, formatted, created, opened, written, read⟩

/-- What is expected once that inode is removed. -/
def gapRemoved : Expected := gapWritten.next (.remove 0) .done

/-- The inode with the three bytes is removed, and stays open. -/
theorem exists_gapRemoved (device : Device 19 512) (config : CacheSetup) (slots : 0 < config.slots)
    (reliable : ∀ number kind b, device.fails number kind b = false) :
    ∃ (fs : FileSystem (Cache config.slots 19 512) 19) (s : Session 19),
      FileSystem.format (Cache.new device config) = .ok (.ok (), some fs) ∧
      s.Follows gapRemoved ∧ Reachable ⟨config, fs, []⟩ s gapRemoved := by
  obtain ⟨fs, -, -, s, formatted, -, -, -, follows, reachable⟩ :=
    exists_gapWritten device config slots reliable
  have legal : gapWritten.Legal (.remove 0) := ⟨{ sector := ⟨10⟩ }, rfl, by decide, by decide⟩
  obtain ⟨_, s', removed, rfl, follows'⟩ := follows.goes_of_legal legal
  exact ⟨fs, s', formatted, follows', reachable.step legal removed⟩

end Session

end SectorFs
