/-
# SectorFs.Proofs.Volume.Owing — operations on a store that owes sectors

A create that works writes the inode last, so its sector is what a cache has to store still
(`create_lastWrite`). On a store that refuses everything but what it holds, a write that makes a
file longer leaves the inode in memory with the new length (`writeBytes_refusing`), and a create
fails at its first block (`create_refusing`).
-/
import SectorFs.Proofs.File.Room
import SectorFs.Proofs.Store.Owing
import SectorFs.Proofs.Volume.Table

namespace SectorFs

set_option autoImplicit false

variable {m length : Nat} {held : Set Nat} {isDirectory : Bool} {parent : Sector}

namespace FileBlocks

variable {free : FreeMap m} {b : FileBlocks m}

theorem give_under {S : Type} {c : Contract S} {state : S} {t : Sector} {count : Nat}
    {Q : Except Failure Unit → FileBlocks m → S → Prop} (halts : c.mayHalt)
    (given : ∀ free, Q (.ok ()) { b with free } state) :
    (give t count : BlockAction m _).Under c b state Q := by
  rw [give, Action.under_bind, Action.under_get, Action.then_ok, Action.under_bind]
  refine Action.under_check halts fun free => ?_
  rw [Action.then_ok, Action.under_modify]
  exact given free

/-- The first block of a file has to be cleared, and is not. -/
theorem append_refusing (packed : free.Packed) (small : m ≤ 0x100000000)
    (room : free.used + groupSize ≤ m) (outside : free.used ∉ held) :
    (append : BlockAction m Unit).Under (.refusing held) ⟨.empty isDirectory parent, free⟩ ()
      fun r b' _ => r = .error .io ∧ b'.disk = .empty isDirectory parent := by
  have count : (Inode.empty isDirectory parent).blockCount = 0 := rfl
  have left : (Inode.empty isDirectory parent).groupLeft = 0 := rfl
  have place : Place.of 0 = some (.direct 0) := rfl
  simp only [append, Action.under_bind, Action.under_get, Action.then_ok, count, place, appendAt,
    needs, nextSector, left, if_true]
  refine take_packed packed small (by decide) room fun t free' first _ _ => ?_
  simp only [Action.then_ok, Action.under_pure, Action.under_bind, takeIf, Bool.false_eq_true,
    if_false]
  refine Action.Under.onFailure (P := fun r b' _ => r = .error .io ∧
    b'.disk = .empty isDirectory parent) ?_ ?_ ?_
  · rw [Action.under_bind, Action.under_ensure]
    simp only [Option.isSome_none, beq_self_eq_true, Bool.and_self, if_true, Action.then_ok]
    rw [link, Action.under_bind, Action.clear, Action.under_writeSector_refusing]
    exact ⟨first ▸ outside, rfl, rfl⟩
  · rintro u b' _ ⟨failed, -⟩
    cases failed
  · rintro e b' _ ⟨failed, same⟩
    cases failed
    have back : ({ group := some t } : NewSectors).giveBack =
        (give t groupSize : BlockAction m Unit) := rfl
    rw [back]
    exact give_under trivial fun _ => ⟨rfl, same⟩

/-- A file without blocks does not get one. -/
theorem growTo_refusing (packed : free.Packed) (small : m ≤ 0x100000000)
    (room : free.used + groupSize ≤ m) (outside : free.used ∉ held) (some_bytes : 0 < length)
    (fits : length ≤ maxFileBytes) :
    (growTo length : BlockAction m Unit).Under (.refusing held) ⟨.empty isDirectory parent, free⟩ ()
      fun r _ _ => r = .error .io := by
  have count : (Inode.empty isDirectory parent).blockCount = 0 := rfl
  obtain ⟨n, blocks⟩ : ∃ n, sectorsFor length = n + 1 :=
    Nat.exists_eq_succ_of_ne_zero (by rw [sectorsFor]; omega)
  simp only [growTo, Action.under_bind, Action.under_ensure, decide_eq_true fits, if_true,
    Action.then_ok, Action.under_get, count, blocks, Nat.sub_zero, appendMany]
  refine Action.Under.onFailure (P := fun r b' _ => r = .error .io ∧
    b'.disk = .empty isDirectory parent) ?_ ?_ ?_
  · rw [Action.under_bind]
    refine (append_refusing packed small room outside).mono ?_
    rintro r b' _ ⟨rfl, same⟩
    exact ⟨rfl, same⟩
  · rintro u b' _ ⟨failed, -⟩
    cases failed
  · -- there is no block to take away
    rintro e ⟨disk, free'⟩ _ ⟨failed, same⟩
    cases failed
    obtain rfl : disk = .empty isDirectory parent := same
    simp only [Action.ignoreError, Action.under_tryCatch, trimTo, Action.under_bind,
      Action.under_get, Action.then_ok, count, Nat.sub_zero, popMany, Action.under_pure,
      Action.then_error]

/-- A file that has the blocks for it can have another length. -/
theorem growTo_silent {S : Type} {c : Contract S} {state : S}
    {Q : Except Failure Unit → FileBlocks m → S → Prop} (fits : length ≤ maxFileBytes)
    (blocks : sectorsFor length ≤ b.disk.blockCount)
    (ok : Q (.ok ()) { b with disk := lengthened b.disk length } state) :
    (growTo length : BlockAction m Unit).Under c b state Q := by
  simp only [growTo, Action.under_bind, Action.under_ensure, decide_eq_true fits, if_true,
    Action.then_ok, Action.under_get, Nat.sub_eq_zero_of_le blocks, appendMany]
  refine Action.Under.onFailure (P := fun r b' state' => r = .ok () ∧ b' = b ∧ state' = state)
    ⟨rfl, rfl, rfl⟩ ?_ ?_
  · rintro u b' state' ⟨-, same_blocks, same_state⟩
    subst same_blocks same_state
    have same : (if b'.disk.length < length then b'.disk.withLength length else .ok b'.disk) =
        .ok (lengthened b'.disk length) := by
      rw [lengthened]
      split
      · rw [Inode.withLength, if_pos fits]
      · rfl
    simp only [Action.then_ok, lengthen, setDisk, Action.under_bind, Action.under_get, same]
    exact ok
  · rintro e b' state' ⟨failed, -⟩
    cases failed

end FileBlocks

namespace Volume

variable {v : Volume m} {s : Sector}

/-- The last that a create writes is the inode, at the sector that it answers with. -/
theorem create_lastWrite (length : Nat) (isDirectory : Bool) (parent : Sector) (v : Volume m)
    (last : Option Sector) :
    (create length isDirectory parent).Under .lastWrite v last fun r _ last' =>
      ∀ s, r = .ok s → last' = some s := by
  have made (s : Sector) (v : Volume m) (last : Option Sector) :
      (createAt s length isDirectory parent).Under .lastWrite v last fun r _ last' =>
        r = .ok () → last' = some s := by
    rw [createAt, Action.under_bind, Action.under_ensure]
    split
    case isFalse => exact nofun
    case isTrue =>
      rw [Action.then_ok, Action.under_bind]
      refine Action.under_lastWrite _ fun r v last => ?_
      cases r with
      | error e => exact nofun
      | ok grown =>
        rw [Action.then_ok, Action.under_bind, Action.under_liftExcept]
        cases grown.1 with
        | error e => exact nofun
        | ok =>
          rw [Action.then_ok]
          refine Action.Under.onFailure (P := fun r _ last' => r = .ok () → last' = some s) ?_
            (fun _ _ _ => id) fun e v' last' _ => ?_
          · rw [Action.under_writeInode_lastWrite]
            exact ⟨fun _ => rfl, nofun⟩
          · refine Action.under_lastWrite _ fun r _ _ => ?_
            cases r <;> exact nofun
  rw [create, Action.under_bind]
  refine Action.under_lastWrite _ fun r v last => ?_
  rcases r with e | (_ | s)
  · exact nofun
  · exact nofun
  · rw [Action.then_ok]
    change ((createAt s length isDirectory parent).onFailure (give s 1) >>= fun _ => pure s).Under
      .lastWrite v last _
    rw [Action.under_bind]
    refine (made s v last).onFailure (fun u v' last' ends => ?_) fun e v' last' _ => ?_
    · rw [Action.then_ok, Action.under_pure]
      rintro _ ⟨⟩
      exact ends rfl
    · refine Action.under_lastWrite _ fun r _ _ => ?_
      cases r <;> exact nofun

/-- An inode with bytes is refused by a store that does not hold the sectors after those in use. -/
theorem create_refusing (packed : v.free.Packed) (small : m ≤ 0x100000000)
    (room : v.free.used + (1 + groupSize) ≤ m) (outside : v.free.used + 1 ∉ held)
    (some_bytes : 0 < length) (fits : length ≤ maxFileBytes) :
    (create length isDirectory parent).Under (.refusing held) v () fun r _ _ => r = .error .io := by
  obtain ⟨s, free, same, -, packed', used⟩ :=
    packed.allocate small Nat.one_pos (show v.free.used + 1 ≤ m by omega)
  simp only [create, take, Action.under_bind, Action.under_get, Action.then_ok]
  rw [same, Action.under_check_ok, Action.then_ok, Action.under_bind, Action.under_modify,
    Action.then_ok, Action.under_pure, Action.then_ok]
  change ((createAt s length isDirectory parent).onFailure (give s 1) >>= fun _ => pure s).Under
    (.refusing held) { v with free } () _
  rw [Action.under_bind]
  refine Action.Under.onFailure (P := fun r _ _ => r = .error .io) ?_ ?_ ?_
  · rw [createAt, Action.under_bind, Action.under_ensure, decide_eq_true fits, if_pos rfl,
      Action.then_ok, Action.under_bind]
    refine under_onBlocks ((FileBlocks.growTo_refusing packed' small (by omega)
      (by rwa [used]) some_bytes fits).mono ?_)
    rintro r b _ rfl
    rfl
  · rintro u v' _ failed
    cases failed
  · rintro e v' _ failed
    cases failed
    rw [give, Action.under_bind, Action.under_get, Action.then_ok, Action.under_bind]
    exact Action.under_check trivial fun free' => rfl

/-- A file that is to be longer, and has the blocks for that, is longer in memory; its inode is not
stored. -/
theorem writeBytes_refusing {h : Handle} {node : LoadedInode} {off : Nat} {data : List UInt8}
    (found : v.find? h.sector = some node) (free : node.denials = 0) (some_data : data ≠ [])
    (short : node.disk.length < off + data.length) (fits : off + data.length ≤ maxFileBytes)
    (blocks : sectorsFor (off + data.length) ≤ node.disk.blockCount)
    (outside : h.sector.index ∉ held) :
    (writeBytes h off data).Under (.refusing held) v () fun r v' _ => r = .error .io ∧
      ∃ node', v'.find? h.sector = some node' ∧ node'.disk.length = off + data.length := by
  have works : ¬ (0 < node.denials ∨ data = []) := by
    rw [free]
    exact not_or.2 ⟨Nat.lt_irrefl 0, some_data⟩
  have at_sector := sector_of_find? found
  rw [writeBytes, Volume.node, Action.under_bind, Action.under_bind, Action.under_get,
    Action.then_ok, found, Action.under_pure, Action.then_ok, if_neg works, Action.under_bind,
    reach, if_pos short, grow, Action.under_bind]
  refine under_onBlocks (FileBlocks.growTo_silent fits blocks ?_)
  simp only [Action.then_ok, Action.under_bind, Action.under_modify, Action.under_liftExcept,
    Action.under_writeInode_refusing, Action.then_error]
  have longer := find?_put_self (v := { v with free := v.free }) found
    { node with disk := FileBlocks.lengthened node.disk (off + data.length) } rfl
  refine ⟨at_sector ▸ outside, trivial, _,
    (congrFun longer _).trans (Function.update_self ..), ?_⟩
  rw [FileBlocks.length_lengthened _ fits]
  omega

end Volume

end SectorFs
