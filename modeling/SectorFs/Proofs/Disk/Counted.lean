/-
# SectorFs.Proofs.Disk.Counted — the count of used sectors, and the stored form

A free map counts its used sectors beside the bits. `Reachable f` says that `f`
was reached from an empty map by any sequence of commands that broke no
condition: sectors allocated, released and reserved, and stored forms loaded,
also ones with bits beyond the last sector.

* `Reachable.counted`: the count is that of the bits, whatever was done. One
  lemma for each command (`Counted.allocate`, `Counted.release`,
  `Counted.reserve`, `counted_ofBytes`) says that it keeps the count right.
* `testBit_toBytes`: the stored form has a sector's bit where it belongs.
* `Reachable.count_stored`: both together, and that a map which was loaded from
  a stored form cannot be told from the map that was stored.
-/
import SectorFs.Console.Tables
import SectorFs.Proofs.Disk.Marks

namespace SectorFs

set_option autoImplicit false

variable {n : Nat}

/-- A step that went on after another one went on from its result. -/
theorem ok_of_bind {α β : Type} {x : Except Violation α} {rest : α → Except Violation β} {b : β}
    (done : x >>= rest = .ok b) : ∃ a, x = .ok a ∧ rest a = .ok b := by
  cases x with
  | error v => cases done
  | ok a => exact ⟨a, rfl, done⟩

namespace FreeMap

variable {f f' : FreeMap n}

/-! ## What each command does to the count -/

theorem usage_ok {i : Nat} {used : Bool} (asked : f.usage i = .ok used) :
    i < n ∧ f.inUse i = used := by
  unfold usage at asked
  split at asked
  case isTrue inside =>
    cases asked
    exact ⟨inside, rfl⟩
  case isFalse => cases asked

theorem Counted.used_le (counted : f.Counted) : f.used ≤ n := by
  rw [counted.marks.used]
  exact counted.marks.length_le

/-- The free sectors are those that the count leaves over. -/
theorem Counted.countFree (counted : f.Counted) :
    f.countFree = (List.range n).countP fun i => !f.inUse i := by
  have all := (List.range n).length_eq_countP_add_countP f.inUse
  rw [List.length_range, List.countP_eq_length_filter, ← counted] at all
  rw [FreeMap.countFree]
  have same : (List.range n).countP (fun i => decide ¬f.inUse i = true) =
      (List.range n).countP fun i => !f.inUse i :=
    List.countP_congr fun i _ => by simp
  omega

theorem Counted.allocate {count : Nat} {o : Option Sector} (counted : f.Counted)
    (taken : f.allocate count = .ok (o, f')) : f'.Counted := by
  unfold FreeMap.allocate at taken
  split at taken
  · cases taken
  · split at taken
    · cases taken
      exact counted
    case h_2 some_count _ start found =>
      obtain ⟨inside, unused⟩ := firstRun_sound (by omega) (Nat.le_refl 0) (by omega) found
      have fresh : ∀ i, start ≤ i → i < start + count → i ∉ (List.range n).filter f.inUse :=
        fun i lo hi mem => by
          have free := unused i lo hi
          rw [(List.mem_filter.1 mem).2] at free
          cases free
      cases number : word32 start with
      | error v =>
        rw [number] at taken
        cases taken
      | ok =>
        rw [number] at taken
        cases taken
        exact (counted.marks.setRun (by omega) fresh).counted

theorem Marks.reserve {owned : List Nat} {i : Nat} (marks : f.Marks owned)
    (taken : f.reserve i = .ok f') : f'.Marks (i :: owned) := by
  obtain ⟨used, asked, rest⟩ := ok_of_bind taken
  obtain ⟨inside, rfl⟩ := usage_ok asked
  cases off : f.inUse i with
  | true =>
    rw [off] at rest
    cases rest
  | false =>
    have fresh : i ∉ owned := fun mem => by
      rw [(marks.inUse inside).2 mem] at off
      cases off
    obtain ⟨g, again, marks'⟩ := reserve_spec marks inside fresh
    obtain rfl : f' = g := Except.ok.inj (taken.symm.trans again)
    exact marks'

theorem Counted.reserve {i : Nat} (counted : f.Counted) (taken : f.reserve i = .ok f') :
    f'.Counted :=
  (counted.marks.reserve taken).counted

/-- A sector that is freed was counted, so the count does not fall below zero. -/
theorem Counted.free {i : Nat} (counted : f.Counted) (freed : f.free i = .ok f') :
    f'.Counted ∧ f'.used + 1 = f.used := by
  obtain ⟨used, asked, rest⟩ := ok_of_bind freed
  obtain ⟨inside, rfl⟩ := usage_ok asked
  cases on : f.inUse i with
  | false =>
    rw [on] at rest
    cases rest
  | true =>
    have alone : f.Marks (_ ++ [i]) := counted.marks_append (List.nodup_singleton i)
      (by simpa using inside) (by simpa using on)
    have marks := alone.perm (List.perm_append_singleton i _)
    obtain ⟨g, again, marks'⟩ := free_spec marks
    obtain rfl : f' = g := Except.ok.inj (freed.symm.trans again)
    exact ⟨marks'.counted, by rw [marks.used, marks'.used, List.length_cons]⟩

theorem Counted.releaseFrom {count start : Nat} (counted : f.Counted)
    (released : f.releaseFrom count start = .ok f') :
    f'.Counted ∧ f'.used + count = f.used := by
  induction count generalizing f start with
  | zero =>
    cases released
    exact ⟨counted, rfl⟩
  | succ count ih =>
    obtain ⟨f₁, freed, rest⟩ := ok_of_bind released
    obtain ⟨counted₁, used₁⟩ := counted.free freed
    obtain ⟨counted', used'⟩ := ih counted₁ rest
    exact ⟨counted', by omega⟩

theorem Counted.release {s : Sector} {count : Nat} (counted : f.Counted)
    (released : f.release s count = .ok f') : f'.Counted ∧ f'.used + count = f.used := by
  unfold FreeMap.release at released
  split at released
  · exact counted.releaseFrom released
  · cases released

theorem take_bits (f : FreeMap n) : f.bits.toList.take n = (List.range n).map f.inUse := by
  apply List.ext_getElem?
  intro i
  rw [List.getElem?_take]
  split
  case isTrue inside => simpa [inside] using getElem?_bits f inside
  case isFalse beyond => simp [beyond]

/-- A loaded map is counted anew, and only up to its last sector. -/
theorem counted_ofBytes {bytes : List UInt8} (loaded : ofBytes n bytes = .ok f) : f.Counted := by
  unfold ofBytes at loaded
  split at loaded
  case isFalse => cases loaded
  case isTrue =>
    have used : f.used = (f.bits.toList.take n).count true := by
      cases loaded
      rfl
    rw [Counted, used, take_bits, List.count, List.countP_map, ← List.countP_eq_length_filter]
    exact List.countP_congr fun i _ => by simp

/-! ## Every map that is reached -/

/-- The maps that commands lead to from an empty one, as long as none breaks a condition. -/
inductive Reachable : FreeMap n → Prop where
  | empty : Reachable (empty n)
  | step {f f' : FreeMap n} {command : MapCommand} {reply : Reply} :
      Reachable f → command.step f = .ok (reply, f') → Reachable f'

theorem Counted.step {command : MapCommand} {reply : Reply} (counted : f.Counted)
    (done : command.step f = .ok (reply, f')) : f'.Counted := by
  cases command with
  | allocate count =>
    obtain ⟨⟨o, f₁⟩, taken, rest⟩ := ok_of_bind done
    cases rest
    exact counted.allocate taken
  | release s count =>
    obtain ⟨f₁, released, rest⟩ := ok_of_bind done
    cases rest
    exact (counted.release released).1
  | reserve s =>
    obtain ⟨f₁, reserved, rest⟩ := ok_of_bind done
    cases rest
    exact counted.reserve reserved
  | inUse s =>
    obtain ⟨used, -, rest⟩ := ok_of_bind done
    cases rest
    exact counted
  | restore data =>
    obtain ⟨f₁, loaded, rest⟩ := ok_of_bind done
    cases rest
    exact counted_ofBytes loaded
  | size =>
    cases done
    exact counted

theorem Reachable.counted (reachable : f.Reachable) : f.Counted := by
  induction reachable with
  | empty => exact marks_empty.counted
  | step _ done ih => exact ih.step done

/-! ## The stored form -/

/-- Bit `i % 8` of byte `i / 8` is that of sector `i`. -/
theorem testBit_toBytes (f : FreeMap n) {i : Nat} (inside : i < n) :
    ∃ byte, f.toBytes[i / 8]? = some byte ∧ byte.toNat.testBit (i % 8) = f.inUse i := by
  have place : i / 8 < bytesFor n := by unfold bytesFor; omega
  refine ⟨byteOfBits fun j => f.bits[8 * (i / 8) + j]?.getD false, ?_, ?_⟩
  · rw [toBytes, List.getElem?_map, List.getElem?_range place, Option.map_some]
  · refine (bitOfByte_byteOfBits _ (Nat.mod_lt i (by decide))).trans ?_
    rw [Nat.div_add_mod, getElem?_bits f inside, Option.getD_some]

/-- **The count follows the bits, and the stored form is the map.** In every map that is reached
the count of free sectors is that of the sectors whose bit is clear. The count of used ones never
exceeds the sectors and is lowered by one for each sector given back, so neither subtraction runs
below zero. The stored form has a byte for each eight sectors begun, with each sector's bit in its
place. Loaded over any map, it gives the same replies and maps as the stored map from then on. -/
theorem Reachable.count_stored (reachable : f.Reachable) :
    f.countFree = (List.range n).countP (fun i => !f.inUse i) ∧
    f.used ≤ n ∧
    (∀ s count f', f.release s count = .ok f' → f'.used + count = f.used) ∧
    f.toBytes.length = (n + 7) / 8 ∧
    (∀ i < n, ∃ byte, f.toBytes[i / 8]? = some byte ∧
      byte.toNat.testBit (i % 8) = f.inUse i) ∧
    ∀ (g : FreeMap n) (commands : List MapCommand),
      runCommands MapCommand.step g (.restore f.toBytes :: commands) =
        (.done, some f) :: runCommands MapCommand.step f commands := by
  have counted := reachable.counted
  refine ⟨counted.countFree, counted.used_le, fun s count f' released =>
    (counted.release released).2, f.length_toBytes, fun i inside => testBit_toBytes f inside,
    fun g commands => ?_⟩
  have loaded : MapCommand.step g (.restore f.toBytes) = .ok (.done, f) := by
    rw [MapCommand.step, ofBytes_toBytes counted.marks]
    rfl
  rw [runCommands, loaded]

/-- Eleven sectors in use, the bits beyond them also set. -/
def wholeEleven : FreeMap 11 := ⟨Vector.replicate 16 true, 11⟩

/-- All of them but sector 2. -/
def heldEleven : FreeMap 11 := ⟨wholeEleven.bits.setIfInBounds 2 false, 10⟩

theorem reachable_heldEleven : heldEleven.Reachable := by
  have loaded : ofBytes 11 [0xff, 0xff] = .ok wholeEleven := by cbv
  have freed : wholeEleven.release ⟨2⟩ 1 = .ok heldEleven := rfl
  have whole : MapCommand.step (empty 11) (.restore [0xff, 0xff]) = .ok (.done, wholeEleven) := by
    rw [MapCommand.step, loaded]
    rfl
  have held : MapCommand.step wholeEleven (.release ⟨2⟩ 1) = .ok (.done, heldEleven) := by
    rw [MapCommand.step, freed]
    rfl
  exact (Reachable.empty.step whole).step held

theorem Reachable.count_stored_eleven :
    heldEleven.Reachable ∧ heldEleven.toBytes = [0xfb, 0xff] ∧
      heldEleven.countFree = (List.range 11).countP (fun i => !heldEleven.inUse i) ∧
      runCommands MapCommand.step (.empty 11) (.restore heldEleven.toBytes :: [.allocate 1]) =
        (.done, some heldEleven) :: runCommands MapCommand.step heldEleven [.allocate 1] := by
  obtain ⟨counts, -, -, -, -, same⟩ := reachable_heldEleven.count_stored
  exact ⟨reachable_heldEleven, by decide +kernel, counts, same (.empty 11) [.allocate 1]⟩

end FreeMap

end SectorFs
