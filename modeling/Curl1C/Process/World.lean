/-
  Curl1C.Process.World

  Any number of `CcURL` objects in one process.  A script constructs objects,
  calls their methods in any order and destroys them; the methods of different
  objects meet only in the process (the heap, `CurlShare` and the cache flags).

  `Inventory` is the same system with nothing but its resources and the
  pointers the objects hold to them.  `worldStep_simulates` shows that every
  step of the program is a step of that machine, so what is proved of the
  inventory holds of the program.
-/

import Curl1C.Process.Resources

namespace Curl1C

open Lib

abbrev ObjId := Nat

/-- The process and its objects; an object is named by the number of objects
    constructed before it. -/
structure World where
  proc : Proc
  objs : ObjId → Option CcURL
  nObj : Nat

/-- What a script can do.  `cookie` is the word `delete[]` finds in front of the
    object's `pCurlMime`. -/
inductive WOp where
  | construct (junk : Junk)
  | destroy (i : ObjId) (cookie : Nat)
  | call (i : ObjId) (op : Op)

/-- The component has been loaded. -/
def World.boot : World := { proc := dllMain, objs := fun _ => none, nObj := 0 }

/-- One operation of the script. -/
def worldStep (win : Win32) (w : World) (op : WOp) : Option World :=
  match op with
  | .construct junk =>
      let st := construct junk w.proc
      some { proc := st.proc, objs := Function.update w.objs w.nObj (some st.obj),
             nObj := w.nObj + 1 }
  | .destroy i cookie =>
      match w.objs i with
      | none => none
      | some obj =>
          (destroy cookie { proc := w.proc, obj := obj }).map fun p =>
            { w with proc := p, objs := Function.update w.objs i none }
  | .call i op =>
      match w.objs i with
      | none => none
      | some obj =>
          (step win { proc := w.proc, obj := obj } op).map fun st =>
            { w with proc := st.proc, objs := Function.update w.objs i (some st.obj) }

/-- The world after the operations `ops` of the script. -/
def worldRun (win : Win32) (ops : List WOp) : Option World :=
  runOps (worldStep win) World.boot ops

/-! ## The inventory -/

/-- The resources of the process and the pointers every object holds to
    them. -/
structure Inventory where
  res : Res
  held : ObjId → Option Holdings
  nObj : Nat

def World.inventory (w : World) : Inventory :=
  { res := w.proc.res, held := fun i => (w.objs i).map CcURL.holdings, nObj := w.nObj }

/-- The pointers of a new object. -/
def Holdings.new (r : Res) : Holdings :=
  { m_curl := r.nEasy, m_mime := r.nMime, headers := some r.nSlist, recipients := none }

/-- One operation of the script, as far as resources are concerned. -/
inductive Inventory.Step (v : Inventory) : WOp → Inventory → Prop where
  | construct (junk : Junk) :
      Step v (.construct junk)
        { res := (v.res.newHandle.assign v.res.nEasy).newList.newMime
          held := Function.update v.held v.nObj (some (Holdings.new v.res))
          nObj := v.nObj + 1 }
  | destroy (i : ObjId) (o : Holdings) (hi : v.held i = some o) :
      Step v (.destroy i 1)
        { v with
          res := ((v.res.freeLists o).freeHandle o.m_curl).freeMime o.m_mime
          held := Function.update v.held i none }
  /-- `delete[]` ran no destructor -/
  | destroyLosing (i : ObjId) (o : Holdings) (hi : v.held i = some o) :
      Step v (.destroy i 0)
        { v with
          res := (v.res.freeLists o).freeHandle o.m_curl
          held := Function.update v.held i none }
  | call (i : ObjId) (op : Op) (o o' : Holdings) (r : Res) (hi : v.held i = some o)
      (hchange : Change v.res o op r o') :
      Step v (.call i op) { v with res := r, held := Function.update v.held i (some o') }

theorem held_update (objs : ObjId → Option CcURL) (i : ObjId) (obj : Option CcURL) :
    (fun j => (Function.update objs i obj j).map CcURL.holdings) =
      Function.update (fun j => (objs j).map CcURL.holdings) i (obj.map CcURL.holdings) := by
  funext j
  by_cases hj : j = i
  · rw [hj, Function.update_self, Function.update_self]
  · rw [Function.update_of_ne hj, Function.update_of_ne hj]

section Simulation

variable {win : Win32} {w w' : World}

theorem worldStep_call {i : ObjId} {op : Op} (h : worldStep win w (.call i op) = some w') :
    ∃ obj st, w.objs i = some obj ∧ step win { proc := w.proc, obj := obj } op = some st ∧
      w' = { w with proc := st.proc, objs := Function.update w.objs i (some st.obj) } := by
  cases hobj : w.objs i with
  | none =>
      simp only [worldStep, hobj] at h
      cases h
  | some obj =>
      simp only [worldStep, hobj] at h
      obtain ⟨st, hst, rfl⟩ := Option.map_eq_some_iff.mp h
      exact ⟨obj, st, rfl, hst, rfl⟩

theorem worldStep_destroy {i : ObjId} {cookie : Nat}
    (h : worldStep win w (.destroy i cookie) = some w') :
    ∃ obj p, w.objs i = some obj ∧ destroy cookie { proc := w.proc, obj := obj } = some p ∧
      w' = { w with proc := p, objs := Function.update w.objs i none } := by
  cases hobj : w.objs i with
  | none =>
      simp only [worldStep, hobj] at h
      cases h
  | some obj =>
      simp only [worldStep, hobj] at h
      obtain ⟨p, hp, rfl⟩ := Option.map_eq_some_iff.mp h
      exact ⟨obj, p, rfl, hp, rfl⟩

/-- The inventory of the program moves as the inventory machine does. -/
theorem worldStep_simulates {op : WOp} (h : worldStep win w op = some w') :
    w.inventory.Step op w'.inventory := by
  cases op with
  | construct junk =>
      obtain rfl := Option.some.inj h
      simp only [World.inventory, held_update, Option.map_some, construct_res, construct_holdings]
      exact .construct junk
  | destroy i cookie =>
      obtain ⟨obj, p, hobj, hp, rfl⟩ := worldStep_destroy h
      have hheld : w.inventory.held i = some obj.holdings := by
        simp only [World.inventory, hobj, Option.map_some]
      rcases destroy_res hp with ⟨rfl, hres⟩ | ⟨rfl, hres⟩
      · simp only [World.inventory, held_update, Option.map_none, hres]
        exact .destroyLosing i _ hheld
      · simp only [World.inventory, held_update, Option.map_none, hres]
        exact .destroy i _ hheld
  | call i op =>
      obtain ⟨obj, st, hobj, hst, rfl⟩ := worldStep_call h
      have hheld : w.inventory.held i = some obj.holdings := by
        simp only [World.inventory, hobj, Option.map_some]
      simp only [World.inventory, held_update, Option.map_some]
      exact .call i op _ _ _ hheld (step_changes hst)

/-- What the inventory machine keeps holds in every world a script can reach. -/
theorem worldRun_invariant {I : Inventory → Prop} (hboot : I World.boot.inventory)
    (hstep : ∀ v op v', I v → v.Step op v' → I v') {ops : List WOp}
    (h : worldRun win ops = some w) : I w.inventory :=
  runOps_invariant (I := fun w => I w.inventory) hboot
    (fun _ op _ hI hs => hstep _ op _ hI (worldStep_simulates hs)) h

end Simulation

end Curl1C
