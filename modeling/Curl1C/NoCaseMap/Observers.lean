/-
  Curl1C.NoCaseMap.Observers

  What tells an empty `CNoCaseMap` from one that is not.

  The counter, the start of an enumeration, the chains that `IsExist` searches
  and the nodes that `ForEachPair` walks say the same of every map a client
  reaches.  `IsEmpty` says the opposite: it compares the counter with 0 the wrong
  way round.

  Main result: `observers_agree_except_isEmpty`.
-/

import Curl1C.NoCaseMap.Refinement
import Mathlib.Tactic.TFAE

namespace Curl1C

open Lib HashTable

namespace NoCaseMap

variable {ν : Type} {lot : NcmLoTable} {m : NoCaseMap ν} {d : Bindings ν}

theorem getStartPosition_eq_null_iff (m : NoCaseMap ν) :
    getStartPosition m = .null ↔ getCount m = 0 := by
  simp [getStartPosition, HashMap.startPosition, getCount]

theorem isEmpty_iff (m : NoCaseMap ν) : isEmpty m = true ↔ getCount m ≠ 0 := decide_eq_true_iff

theorem getCount_eq_zero_iff (h : Refines lot m d) : getCount m = 0 ↔ m.nodes = [] := by
  rw [getCount, ← h.length_nodes, List.length_eq_zero_iff]

/-- The key of every node exists. -/
theorem forall_not_isExist_iff (h : Refines lot m d) :
    (∀ key, isExist lot m key = false) ↔ m.nodes = [] := by
  constructor
  · intro hnone
    refine List.eq_nil_iff_forall_not_mem.mpr fun n hn => ?_
    have hexists := (agrees_of_refines h).isExist n.key
    rw [hnone, decide_eq_true (h.mem_of_mem hn)] at hexists
    exact Bool.false_ne_true hexists
  · intro hnil key
    rw [(agrees_of_refines h).isExist, decide_eq_false_iff_not]
    exact h.notMem_of_count ((getCount_eq_zero_iff h).mpr hnil) _

theorem forEachPair_eq_nil_iff (h : Refines lot m d) : forEachPair m = some [] ↔ m.nodes = [] := by
  rw [forEachPair, visited_eq h, Option.map_some, Option.some.injEq, List.map_eq_nil_iff]

/-- The four observers that read the map read the same. -/
theorem observers_tfae (h : Refines lot m d) :
    List.TFAE [getCount m = 0, getStartPosition m = .null, ∀ key, isExist lot m key = false,
      forEachPair m = some []] := by
  tfae_have 1 ↔ 2 := (getStartPosition_eq_null_iff m).symm
  tfae_have 1 ↔ 3 := (getCount_eq_zero_iff h).trans (forall_not_isExist_iff h).symm
  tfae_have 1 ↔ 4 := (getCount_eq_zero_iff h).trans (forEachPair_eq_nil_iff h).symm
  tfae_finish

end NoCaseMap

open NoCaseMap

/-- Of every map that a client reaches (with as many keys as 32 bits count),
    `GetCount`, `GetStartPosition`, `IsExist` and `ForEachPair` agree whether it is
    empty, and `IsEmpty` says that it is exactly if it is not. -/
theorem observers_agree_except_isEmpty {ν : Type} [BEq ν] (lot : NcmLoTable)
    (ops : List (MapOp ν)) (m : NoCaseMap ν) (rs : List (NoCaseMap.Reply ν))
    (hcount : ∀ pre, pre <+: ops → (bindingsRun lot pre).1.count < 2 ^ 32)
    (hrun : NoCaseMap.run lot ops = some (m, rs)) :
    List.TFAE [getCount m = 0, getStartPosition m = .null, ∀ key, isExist lot m key = false,
      forEachPair m = some []] ∧
    (isEmpty m = true ↔ getCount m ≠ 0) :=
  ⟨observers_tfae (run_refines hcount hrun).2, isEmpty_iff m⟩

/-- A map that was emptied key by key, and rehashed on the way. -/
theorem observers_agree_except_isEmpty_emptied :
    ∃ m : NoCaseMap Nat, (NoCaseMap.run NcmLoTable.latin
        [.setAt (CStr.lit "Key") 1, .removeKey (CStr.lit "KEY")]).map Prod.fst = some m ∧
      (∀ key, isExist NcmLoTable.latin m key = false) ∧ isEmpty m = false := by
  have hcount : ∀ pre ∈ [MapOp.setAt (CStr.lit "Key") 1, .removeKey (CStr.lit "KEY")].inits,
      (bindingsRun NcmLoTable.latin pre).1.count < 2 ^ 32 := by decide
  obtain ⟨m, rs, hrun, hzero⟩ : ∃ (m : NoCaseMap Nat) (rs : List (NoCaseMap.Reply Nat)),
      NoCaseMap.run NcmLoTable.latin
        [.setAt (CStr.lit "Key") 1, .removeKey (CStr.lit "KEY")] = some (m, rs) ∧
      getCount m = 0 := ⟨_, _, rfl, rfl⟩
  obtain ⟨hagree, hempty⟩ := observers_agree_except_isEmpty NcmLoTable.latin _ m rs
    (fun pre hpre => hcount pre ((List.mem_inits _ _).mpr hpre)) hrun
  refine ⟨m, by rw [hrun]; rfl, (hagree.out 0 2).mp hzero, ?_⟩
  exact Bool.eq_false_iff.mpr fun htrue => hempty.mp htrue hzero

/-- `IsEmpty` of a new map is false, although it has no keys. -/
theorem not_isEmpty_of_new :
    NoCaseMap.run NcmLoTable.latin [] = some ((NoCaseMap.new : NoCaseMap Nat), []) ∧
      ¬ (isEmpty (NoCaseMap.new : NoCaseMap Nat) = true ↔
        getCount (NoCaseMap.new : NoCaseMap Nat) = 0) :=
  ⟨rfl, by decide⟩

end Curl1C
