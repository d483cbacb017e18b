/-
# SectorFs.Proofs.Disk.FirstFit — the lowest run that is long enough

`FreeRun f start count`: the `count` sectors from `start` on are inside the map
and free. The scan for such a run keeps only the length of the free run that
ends where it stands, so a run it has not yet ruled out starts no earlier than
that one: `firstRun_complete` carries this along the scan.

* `allocate_cases`: `allocate` gives out what the scan finds.
* `Dealt f g runs`: from `f`, runs were taken and given back, which left the map
  `g` with the runs of `runs` still handed out. They never share a sector
  (`Dealt.deals`).
* `Reachable.allocate_first_fit`: all that holds of `allocate` in any map that
  is reached.
-/
import SectorFs.Proofs.Disk.Counted

namespace SectorFs

set_option autoImplicit false

variable {n : Nat}

/-! ## The scan -/

/-- A run that the scan has not yet ruled out is found, or a lower one. -/
theorem firstRun_complete {free : Nat → Bool} {count left pos run start : Nat}
    (short : run < count) (ahead : pos ≤ start + run) (inside : start + count ≤ pos + left)
    (unused : ∀ i, start ≤ i → i < start + count → free i = true) :
    ∃ lowest, firstRun free count left pos run = some lowest ∧ lowest ≤ start := by
  induction left generalizing pos run with
  | zero => omega
  | succ left ih =>
    unfold firstRun
    split
    case isTrue =>
      split
      case isTrue enough => exact ⟨_, rfl, by omega⟩
      case isFalse more => exact ih (by omega) (by omega) (by omega)
    case isFalse used =>
      -- the sector here is in use, so the run lies wholly beyond it
      have beyond : pos + 1 ≤ start := by
        by_contra before
        exact used (unused pos (by omega) (by omega))
      exact ih (by omega) (by omega) (by omega)

namespace FreeMap

variable {f g f' g' : FreeMap n} {count : Nat} {s : Sector}

/-- The `count` sectors from `start` on are inside the map and free. -/
def FreeRun (f : FreeMap n) (start count : Nat) : Prop :=
  start + count ≤ n ∧ ∀ i, start ≤ i → i < start + count → f.inUse i = false

theorem freeRun_of_firstRun {start : Nat} (positive : 0 < count)
    (found : firstRun (fun i => !f.inUse i) count n 0 0 = some start) : f.FreeRun start count := by
  obtain ⟨inside, unused⟩ := firstRun_sound (by omega) (Nat.le_refl 0) positive found
  exact ⟨by omega, fun i lo hi => by simpa using unused i lo hi⟩

theorem FreeRun.found {start : Nat} (run : f.FreeRun start count) (positive : 0 < count) :
    ∃ lowest, firstRun (fun i => !f.inUse i) count n 0 0 = some lowest ∧ lowest ≤ start := by
  have inside : start + count ≤ 0 + n := by have := run.1; omega
  exact firstRun_complete positive (Nat.zero_le _) inside
    fun i lo hi => by simpa using run.2 i lo hi

/-! ## Allocating -/

/-- `allocate` hands out what the scan finds, if it finds a run. -/
theorem allocate_cases (small : n ≤ 0x100000000) (positive : 0 < count) :
    (firstRun (fun i => !f.inUse i) count n 0 0 = none ∧ f.allocate count = .ok (none, f)) ∨
    ∃ s f', firstRun (fun i => !f.inUse i) count n 0 0 = some s.index ∧
      f.allocate count = .ok (some s, f') := by
  unfold allocate
  rw [if_neg (by omega)]
  cases found : firstRun (fun i => !f.inUse i) count n 0 0 with
  | none => exact .inl ⟨rfl, rfl⟩
  | some start =>
    have inside := (freeRun_of_firstRun positive found).1
    have fits : start < 0x100000000 := by omega
    refine .inr ⟨⟨UInt32.ofNat start⟩, ⟨setRun true count start f.bits, f.used + count⟩, ?_, ?_⟩
    · rw [Sector.index, UInt32.toNat_ofNat_of_lt' (by simpa [UInt32.size] using fits)]
    · simp only [word32, if_pos fits]
      rfl

/-- Where there is no run that is long enough, none is handed out. -/
theorem allocate_of_not_freeRun (positive : 0 < count) (nowhere : ∀ start, ¬f.FreeRun start count) :
    f.allocate count = .ok (none, f) := by
  unfold allocate
  rw [if_neg (by omega)]
  cases found : firstRun (fun i => !f.inUse i) count n 0 0 with
  | none => rfl
  | some start => exact absurd (freeRun_of_firstRun positive found) (nowhere start)

/-- What is handed out is the lowest free run. -/
theorem lowest_of_allocate (small : n ≤ 0x100000000) (positive : 0 < count)
    (taken : f.allocate count = .ok (some s, f')) :
    f.FreeRun s.index count ∧ ∀ start, f.FreeRun start count → s.index ≤ start := by
  rcases allocate_cases (f := f) small positive with ⟨-, refused⟩ | ⟨s', f₁, found, given⟩
  · cases taken.symm.trans refused
  · cases taken.symm.trans given
    refine ⟨freeRun_of_firstRun positive found, fun start run => ?_⟩
    obtain ⟨lowest, found', below⟩ := run.found positive
    obtain rfl := Option.some.inj (found.symm.trans found')
    exact below

theorem not_freeRun_of_allocate (small : n ≤ 0x100000000) (positive : 0 < count)
    (refused : f.allocate count = .ok (none, f')) : f' = f ∧ ∀ start, ¬f.FreeRun start count := by
  rcases allocate_cases (f := f) small positive with ⟨nowhere, again⟩ | ⟨s', f₁, -, given⟩
  · cases refused.symm.trans again
    refine ⟨rfl, fun start run => ?_⟩
    obtain ⟨lowest, found, -⟩ := run.found positive
    rw [nowhere] at found
    cases found
  · cases refused.symm.trans given

/-- One free sector that is marked and then freed leaves the map as it was. -/
theorem free_marked {i : Nat} (inside : i < n) (unused : f.inUse i = false) :
    (⟨f.bits.setIfInBounds i true, f.used + 1⟩ : FreeMap n).free i = .ok f := by
  have bit : (f.bits.setIfInBounds i true)[i]? = some true := by simp [lt_bits inside]
  have marked : (⟨f.bits.setIfInBounds i true, f.used + 1⟩ : FreeMap n).inUse i = true :=
    inUse_of_getElem? inside bit
  have back : (f.bits.setIfInBounds i true).setIfInBounds i false = f.bits := by
    refine Vector.ext fun j place => Option.some.inj ?_
    rw [← Vector.getElem?_eq_getElem place, ← Vector.getElem?_eq_getElem place]
    by_cases here : i = j
    · subst here
      rw [getElem?_bits f inside, unused]
      simp [lt_bits inside]
    · rw [Vector.getElem?_setIfInBounds_ne here, Vector.getElem?_setIfInBounds_ne here]
  simp only [FreeMap.free, usage, if_pos inside, marked, bind, Except.bind]
  exact congrArg (fun bits => Except.ok (⟨bits, f.used⟩ : FreeMap n)) back

/-- One sector that is given back at once leaves the map as it was, whatever the map counts. -/
theorem release_allocate_one (small : n ≤ 0x100000000)
    (taken : f.allocate 1 = .ok (some s, f')) : f'.release s 1 = .ok f := by
  unfold allocate at taken
  rw [if_neg (by omega)] at taken
  cases found : firstRun (fun i => !f.inUse i) 1 n 0 0 with
  | none =>
    rw [found] at taken
    cases taken
  | some start =>
    obtain ⟨inside, unused⟩ := freeRun_of_firstRun Nat.one_pos found
    have fits : start < 0x100000000 := by omega
    rw [found] at taken
    simp only [word32, if_pos fits] at taken
    cases taken
    have index : Sector.index ⟨UInt32.ofNat start⟩ = start :=
      UInt32.toNat_ofNat_of_lt' (by simpa [UInt32.size] using fits)
    rw [release, if_pos (by omega), index, releaseFrom]
    change ((⟨f.bits.setIfInBounds start true, f.used + 1⟩ : FreeMap n).free start >>= _) = _
    rw [free_marked inside (unused start (Nat.le_refl start) (Nat.lt_succ_self start))]
    rfl

theorem not_allocate_zero {o : Option Sector} (taken : f.allocate 0 = .ok (o, f')) : False := by
  cases taken

/-- The sectors of a run that was handed out are marked, and no others. -/
theorem Marks.allocate {owned : List Nat} (marks : f.Marks owned) (small : n ≤ 0x100000000)
    (positive : 0 < count) (taken : f.allocate count = .ok (some s, f')) :
    s.index + count ≤ n ∧ f'.Marks (List.range' s.index count ++ owned) := by
  rcases allocate_spec marks small positive with refused | ⟨s', g, granted, inside, marks'⟩
  · rw [refused] at taken
    cases taken
  · obtain ⟨rfl, rfl⟩ : s' = s ∧ g = f' := by
      rw [granted] at taken
      cases taken
      exact ⟨rfl, rfl⟩
    exact ⟨inside, marks'⟩

/-- A run that is given back at once leaves the map as it was before. -/
theorem Marks.release_allocate {owned : List Nat} (marks : f.Marks owned) (small : n ≤ 0x100000000)
    (positive : 0 < count) (taken : f.allocate count = .ok (some s, f')) :
    f'.release s count = .ok f := by
  obtain ⟨-, marks'⟩ := marks.allocate small positive taken
  obtain ⟨g, released, back⟩ := release_spec small positive marks'
  have padding : g.padding = f.padding :=
    (padding_release released).trans (padding_allocate taken)
  rw [released, marks.unique back padding]

theorem Marks.inUse_allocate {owned : List Nat} (marks : f.Marks owned) (small : n ≤ 0x100000000)
    (positive : 0 < count) (taken : f.allocate count = .ok (some s, f')) {i : Nat}
    (inside : i < n) :
    f'.inUse i = true ↔ (s.index ≤ i ∧ i < s.index + count) ∨ f.inUse i = true := by
  obtain ⟨-, marks'⟩ := marks.allocate small positive taken
  rw [marks'.inUse inside, List.mem_append, List.mem_range'_1, marks.inUse inside]

theorem Marks.countFree_allocate {owned : List Nat} (marks : f.Marks owned)
    (small : n ≤ 0x100000000) (positive : 0 < count)
    (taken : f.allocate count = .ok (some s, f')) : f'.countFree + count = f.countFree := by
  obtain ⟨-, marks'⟩ := marks.allocate small positive taken
  have length := marks'.length_le
  rw [List.length_append, List.length_range'] at length
  rw [marks'.countFree, marks.countFree, List.length_append, List.length_range']
  omega

/-! ## A sector that is kept back -/

section Reserved

variable {owned : List Nat} {i : Nat} (marks : f.Marks owned) (reserved : f.reserve i = .ok g)
include marks reserved

/-- With one sector more in use, the free runs are those without it. -/
theorem Marks.freeRun_reserve_iff {start : Nat} :
    g.FreeRun start count ↔ f.FreeRun start count ∧ ¬(start ≤ i ∧ i < start + count) := by
  have marks' := marks.reserve reserved
  have free {j : Nat} (inside : j < n) : g.inUse j = false ↔ j ≠ i ∧ f.inUse j = false := by
    rw [← Bool.not_eq_true, ← Bool.not_eq_true, marks'.inUse inside, marks.inUse inside,
      List.mem_cons, not_or]
  constructor
  · rintro ⟨fits, unused⟩
    refine ⟨⟨fits, fun j lo hi => ((free (by omega)).1 (unused j lo hi)).2⟩, fun inside => ?_⟩
    exact ((free (by omega)).1 (unused i inside.1 inside.2)).1 rfl
  · rintro ⟨⟨fits, unused⟩, apart⟩
    refine ⟨fits, fun j lo hi => (free (by omega)).2 ⟨?_, unused j lo hi⟩⟩
    rintro rfl
    exact apart ⟨lo, hi⟩

/-- A run is handed out as it is where a sector is kept back, exactly if the sector is not in it. -/
theorem Marks.allocate_reserve_iff (small : n ≤ 0x100000000) (positive : 0 < count)
    {o : Option Sector} (taken : f.allocate count = .ok (o, f')) :
    (∃ g', f'.reserve i = .ok g' ∧ g.allocate count = .ok (o, g')) ↔
      ∀ s, o = some s → ¬(s.index ≤ i ∧ i < s.index + count) := by
  have runs {start : Nat} : g.FreeRun start count ↔
      f.FreeRun start count ∧ ¬(start ≤ i ∧ i < start + count) := marks.freeRun_reserve_iff reserved
  have marks' := marks.reserve reserved
  cases o with
  | none =>
    obtain ⟨rfl, nowhere⟩ := not_freeRun_of_allocate small positive taken
    refine iff_of_true ⟨g, reserved, ?_⟩ fun _ same => by cases same
    exact allocate_of_not_freeRun positive fun start run => nowhere start (runs.1 run).1
  | some s =>
    obtain ⟨run, lowest⟩ := lowest_of_allocate small positive taken
    obtain ⟨-, after⟩ := marks.allocate small positive taken
    constructor
    · rintro ⟨g', back, -⟩ s' same within
      cases same
      exact (List.nodup_cons.1 (after.reserve back).nodup).1
        (List.mem_append_left _ (List.mem_range'_1.2 within))
    · intro apart
      have apart := apart s rfl
      have run' := runs.2 ⟨run, apart⟩
      -- the lowest free run is the same one, and it is marked beside the sector
      rcases allocate_cases (f := g) small positive with ⟨-, refused⟩ | ⟨s₁, g₁, -, taken₁⟩
      · exact absurd run' ((not_freeRun_of_allocate small positive refused).2 _)
      · obtain ⟨run₁, lowest₁⟩ := lowest_of_allocate small positive taken₁
        obtain rfl : s₁ = s :=
          Sector.index_inj.1 (Nat.le_antisymm (lowest₁ _ run') (lowest _ (runs.1 run₁).1))
        obtain ⟨-, after₁⟩ := marks'.allocate small positive taken₁
        obtain ⟨fresh, -⟩ := List.nodup_cons.1 marks'.nodup
        obtain ⟨g', back, marks₂⟩ := reserve_spec after (marks'.inside i List.mem_cons_self)
          fun mem => (List.mem_append.1 mem).elim (fun mem => apart (List.mem_range'_1.1 mem)) fresh
        have padding : g₁.padding = g'.padding :=
          ((padding_allocate taken₁).trans (padding_reserve reserved)).trans
            ((padding_reserve back).trans (padding_allocate taken)).symm
        rw [(marks₂.perm List.perm_middle.symm).unique after₁ padding] at taken₁
        exact ⟨g', back, taken₁⟩

end Reserved

/-! ## Runs that are handed out -/

/-- From `f`, runs were taken and given back, and those of a list are still handed out. -/
inductive Dealt (f : FreeMap n) : FreeMap n → List (Sector × Nat) → Prop where
  | start : Dealt f f []
  | take {g g' : FreeMap n} {runs : List (Sector × Nat)} {s : Sector} {count : Nat} :
      Dealt f g runs → g.allocate count = .ok (some s, g') → Dealt f g' ((s, count) :: runs)
  | give {g g' : FreeMap n} {before after : List (Sector × Nat)} {s : Sector} {count : Nat} :
      Dealt f g (before ++ (s, count) :: after) → g.release s count = .ok g' →
      Dealt f g' (before ++ after)

/-- The sectors of a run. -/
def places (run : Sector × Nat) : List Nat := List.range' run.1.index run.2

/-- Two runs without a common sector. -/
def Apart (run other : Sector × Nat) : Prop :=
  ∀ i, ¬((run.1.index ≤ i ∧ i < run.1.index + run.2) ∧
    other.1.index ≤ i ∧ i < other.1.index + other.2)

/-- The runs that are handed out are marked beside the sectors that were in use before, and none
of them is empty. -/
structure Deals (f g : FreeMap n) (runs : List (Sector × Nat)) : Prop where
  marks : g.Marks (runs.flatMap places ++ (List.range n).filter f.inUse)
  positive : ∀ run ∈ runs, 0 < run.2

theorem Deals.perm {runs runs' : List (Sector × Nat)} (deals : f.Deals g runs)
    (same : runs.Perm runs') : f.Deals g runs' where
  marks := deals.marks.perm ((same.flatMap_right places).append_right _)
  positive run mem := deals.positive run (same.mem_iff.2 mem)

theorem Deals.take {runs : List (Sector × Nat)} (deals : f.Deals g runs)
    (small : n ≤ 0x100000000) (taken : g.allocate count = .ok (some s, g')) :
    f.Deals g' ((s, count) :: runs) := by
  have positive : 0 < count := Nat.pos_of_ne_zero fun none => by
    subst none
    exact not_allocate_zero taken
  obtain ⟨-, marks⟩ := deals.marks.allocate small positive taken
  refine ⟨?_, List.forall_mem_cons.2 ⟨positive, deals.positive⟩⟩
  rwa [List.flatMap_cons, List.append_assoc]

/-- A run that is handed out can be given back. -/
theorem Deals.released {runs : List (Sector × Nat)} (deals : f.Deals g ((s, count) :: runs))
    (small : n ≤ 0x100000000) : ∃ g', g.release s count = .ok g' ∧ f.Deals g' runs := by
  obtain ⟨positive, others⟩ := List.forall_mem_cons.1 deals.positive
  have marks := deals.marks
  rw [List.flatMap_cons, List.append_assoc] at marks
  obtain ⟨g', released, back⟩ := release_spec small positive marks
  exact ⟨g', released, back, others⟩

theorem Deals.apart {runs : List (Sector × Nat)} (deals : f.Deals g runs) :
    runs.Pairwise Apart := by
  have nodup := (List.nodup_append'.1 deals.marks.nodup).1
  refine (List.nodup_flatMap.1 nodup).2.imp fun {run other} disjoint i both => ?_
  exact disjoint (List.mem_range'_1.2 both.1) (List.mem_range'_1.2 both.2)

theorem Dealt.deals {runs : List (Sector × Nat)} (dealt : f.Dealt g runs) (counted : f.Counted)
    (small : n ≤ 0x100000000) : f.Deals g runs := by
  induction dealt with
  | start => exact ⟨counted.marks, fun run mem => absurd mem List.not_mem_nil⟩
  | take _ taken ih => exact ih.take small taken
  | give _ released ih =>
    obtain ⟨g', again, deals⟩ := (ih.perm List.perm_middle).released small
    obtain rfl := Except.ok.inj (released.symm.trans again)
    exact deals

/-- **Runs are handed out first fit.** In every map that is reached, `allocate` gives the lowest
start of a free run of that length, marks the sectors of the run and no others, and lowers the
count of free sectors by its length; given back at once, the run leaves the map as it was. It
refuses exactly if there is no such run, and then changes nothing. Whatever runs are taken and
given back from there on, those handed out never share a sector, and each can be given back. -/
theorem Reachable.allocate_first_fit (small : n ≤ 0x100000000) (reachable : f.Reachable) :
    (∀ count, 0 < count →
      (∃ s f', f.allocate count = .ok (some s, f') ∧ f.FreeRun s.index count ∧
        (∀ start, f.FreeRun start count → s.index ≤ start) ∧
        (∀ i < n, f'.inUse i = true ↔
          (s.index ≤ i ∧ i < s.index + count) ∨ f.inUse i = true) ∧
        f'.countFree + count = f.countFree ∧
        f'.release s count = .ok f) ∨
      (f.allocate count = .ok (none, f) ∧ ∀ start, ¬f.FreeRun start count)) ∧
    ∀ g runs, f.Dealt g runs →
      runs.Pairwise Apart ∧ ∀ run ∈ runs, ∃ g', g.release run.1 run.2 = .ok g' := by
  have marks := reachable.counted.marks
  refine ⟨fun count positive => ?_, fun g runs dealt => ?_⟩
  · rcases allocate_cases (f := f) small positive with ⟨-, refused⟩ | ⟨s, f', -, taken⟩
    · exact .inr ⟨refused, (not_freeRun_of_allocate small positive refused).2⟩
    · obtain ⟨run, lowest⟩ := lowest_of_allocate small positive taken
      exact .inl ⟨s, f', taken, run, lowest,
        fun i inside => marks.inUse_allocate small positive taken inside,
        marks.countFree_allocate small positive taken,
        marks.release_allocate small positive taken⟩
  · have deals := dealt.deals reachable.counted small
    refine ⟨deals.apart, fun run mem => ?_⟩
    obtain ⟨before, after, rfl⟩ := List.append_of_mem mem
    obtain ⟨g', released, -⟩ := (deals.perm List.perm_middle).released small
    exact ⟨g', released⟩

/-- Eleven sectors of which only sector 2 is in use. -/
def gapEleven : FreeMap 11 := ⟨(empty 11).bits.setIfInBounds 2 true, 1⟩

theorem reachable_gapEleven : gapEleven.Reachable :=
  Reachable.empty.step (show MapCommand.step (empty 11) (.reserve ⟨2⟩) = .ok (.done, gapEleven) from
    rfl)

/-- The two sectors before the one in use are too few for a run of three, which starts after it; a
run of nine has no room. -/
theorem Reachable.allocate_first_fit_eleven :
    11 ≤ 0x100000000 ∧ gapEleven.Reachable ∧
      (∃ f', gapEleven.allocate 3 = .ok (some ⟨3⟩, f') ∧ f'.release ⟨3⟩ 3 = .ok gapEleven ∧
        ∀ start, gapEleven.FreeRun start 3 → 3 ≤ start) ∧
      gapEleven.allocate 9 = .ok (none, gapEleven) ∧ ∀ start, ¬gapEleven.FreeRun start 9 := by
  have start : ∃ f', gapEleven.allocate 3 = .ok (some ⟨3⟩, f') := ⟨_, rfl⟩
  have refused : gapEleven.allocate 9 = .ok (none, gapEleven) := rfl
  obtain ⟨runs, -⟩ := reachable_gapEleven.allocate_first_fit (by decide)
  refine ⟨by decide, reachable_gapEleven, ?_, refused, ?_⟩
  · rcases runs 3 (by decide) with ⟨s, f', taken, -, lowest, -, -, released⟩ | ⟨none, -⟩
    · obtain ⟨g, three⟩ := start
      rw [three] at taken
      cases taken
      exact ⟨_, three, released, lowest⟩
    · obtain ⟨g, three⟩ := start
      rw [three] at none
      cases none
  · rcases runs 9 (by decide) with ⟨s, f', taken, -⟩ | ⟨-, nowhere⟩
    · rw [refused] at taken
      cases taken
    · exact nowhere

end FreeMap

end SectorFs
