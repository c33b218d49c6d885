/-
  Curl1C.Common.CtrlEvents

  `CCtrlEventManager` of CtrlEvents.cpp: the handlers of the events of a control,
  in the module of its form and in a derived object.

  `SetEvents` searches the handlers of a table of events by name, the Russian
  name first.  Two things go wrong.  It appends what it finds to `m_events` and
  never empties it, so a second table is bound behind the first, while the events
  are numbered from 0 again.  And it builds the English name in the variable that
  holds the Russian one, which is overwritten only if there is a code name;
  without one it searches both names in a row.

  A module and a context are what is read of them here.  The handlers that an
  event calls are listed in order; `none` is an access outside of an array or
  through a null pointer.  A table is the list of its `nCount` entries.
  `m_pCtrlObject`, which only `Invoke` reads, is left out.

  Main result: `setEvents_bound_iff`.
-/

import Curl1C.Text
import Mathlib.Data.List.Induction

namespace Curl1C

namespace CtrlEvents

/-! ## The manager -/

/-- `stCtrlEvents`: an event of a table. -/
structure CtrlEvent where
  szRusName : CStr
  szEngName : CStr
  nParamCount : Int

/-- A `CBLModule`: its procedures and how many parameters they have. -/
structure BLModule where
  findProc : CStr → Int → Int
  nParams : Int → Int

/-- A `CBLContext`: its methods, how many parameters they have, and whether a
    call succeeds. -/
structure BLContext (ν : Type) where
  findMethod : CStr → Int
  getNParams : Int → Int
  getTypeString : CStr
  callAsProc : Int → List ν → Bool

/-- `stEvent`: the handlers of an event. -/
structure Event where
  nFormEvent : Int
  nObjEvent : Int
deriving DecidableEq

/-- `CCtrlEventManager`. -/
structure Manager (ν : Type) where
  pCtrlEvents : List CtrlEvent
  pModule : Option BLModule
  pDerivedObject : Option (BLContext ν)
  events : List Event

variable {ν : Type}

/-- `CCtrlEventManager()`. -/
def Manager.new : Manager ν := ⟨[], none, none, []⟩

/-- The arguments of `SetEvents`. -/
structure Registration (ν : Type) where
  pCtrlEvents : List CtrlEvent
  szCodeName : Option CStr
  pFormModule : BLModule
  pDerivedObject : Option (BLContext ν)

/-! ## Registration -/

/-- `%u` of an `int`. -/
def formatU (n : Int) : CStr := CStr.lit (toString (BitVec.ofInt 32 n).toNat)

/-- The message that a procedure of the form has too many parameters. -/
def formMessage (strProcName : CStr) (nMax : Int) : CStr :=
  CStr.ansi "Количество параметров в событии '" ++ strProcName ++
    CStr.ansi "' должно быть меньше или равно " ++ formatU nMax ++ CStr.lit "."

/-- The message that a method of the derived object has too many parameters. -/
def objMessage (typeString szName : CStr) (nMax : Int) : CStr :=
  CStr.ansi "Количество параметров в событии '" ++ typeString ++ CStr.lit "::" ++ szName ++
    CStr.ansi "'  должно быть меньше или равно " ++ formatU nMax ++ CStr.lit "."

/-- The check of a procedure that was found. -/
def checkForm (pModule : BLModule) (nFormEvent : Int) (strProcName : CStr) (e : CtrlEvent) :
    List CStr :=
  if pModule.nParams nFormEvent > e.nParamCount + 1 then
    [formMessage strProcName (e.nParamCount + 1)]
  else []

/-- The search of the form's handler: its index, and the messages. -/
def bindForm (pModule : BLModule) (szCodeName : Option CStr) (e : CtrlEvent) : Int × List CStr :=
  let strProcName := CStr.empty
  let strProcName := szCodeName.getD strProcName
  let strProcName := strProcName ++ e.szRusName
  let nFormEvent := pModule.findProc strProcName 0
  if nFormEvent ≠ -1 then (nFormEvent, checkForm pModule nFormEvent strProcName e)
  else
    -- without a code name the Russian name stays in front
    let strProcName := szCodeName.getD strProcName
    let strProcName := strProcName ++ e.szEngName
    let nFormEvent := pModule.findProc strProcName 0
    if nFormEvent ≠ -1 then (nFormEvent, checkForm pModule nFormEvent strProcName e)
    else (nFormEvent, [])

/-- The check of a method that was found. -/
def checkObj (pDerivedObject : BLContext ν) (nObjEvent : Int) (szName : CStr) (e : CtrlEvent) :
    List CStr :=
  if pDerivedObject.getNParams nObjEvent > e.nParamCount then
    [objMessage pDerivedObject.getTypeString szName e.nParamCount]
  else []

/-- The search of the derived object's handler: its index, and the messages. -/
def bindObj (pDerivedObject : Option (BLContext ν)) (e : CtrlEvent) : Int × List CStr :=
  match pDerivedObject with
  | some obj =>
      let nObjEvent := obj.findMethod e.szRusName
      if nObjEvent ≠ -1 then (nObjEvent, checkObj obj nObjEvent e.szRusName e)
      else
        let nObjEvent := obj.findMethod e.szEngName
        if nObjEvent ≠ -1 then (nObjEvent, checkObj obj nObjEvent e.szEngName e)
        else (nObjEvent, [])
  | none => (-1, [])

/-- One pass of the loop of `SetEvents`. -/
def Registration.bindEvent (r : Registration ν) (e : CtrlEvent) : Event × List CStr :=
  let form := bindForm r.pFormModule r.szCodeName e
  let obj := bindObj r.pDerivedObject e
  (⟨form.1, obj.1⟩, form.2 ++ obj.2)

/-- What `SetEvents` leaves: the manager, the messages, and the runtime error
    that it raises at the end. -/
structure Outcome (ν : Type) where
  manager : Manager ν
  messages : List CStr
  runtimeError : Option CStr

/-- `SetEvents`.  Each message makes `bSuccess` false. -/
def setEvents (mgr : Manager ν) (r : Registration ν) : Outcome ν :=
  let bound := r.pCtrlEvents.map r.bindEvent
  let messages := bound.flatMap Prod.snd
  let bSuccess := messages.isEmpty
  -- the table is replaced, and the events are appended
  { manager := ⟨r.pCtrlEvents, some r.pFormModule, r.pDerivedObject,
      mgr.events ++ bound.map Prod.fst⟩
    messages := messages
    runtimeError := if !bSuccess then some (CStr.ansi "Ошибка подключения событий") else none }

/-- The manager after some calls of `SetEvents`. -/
def run (calls : List (Registration ν)) : Manager ν :=
  calls.foldl (fun mgr r => (setEvents mgr r).manager) Manager.new

/-! ## Events -/

/-- A handler that is called. -/
inductive HandlerCall (ν : Type) where
  | method (pObject : BLContext ν) (nMethod : Int) (ppValues : List ν)
  | proc (pModule : BLModule) (nProc nParams : Int) (ppValues : List ν)

/-- `IsAppointed`. -/
def isAppointed (mgr : Manager ν) (nEventIndex : Nat) : Option Bool :=
  mgr.events[nEventIndex]?.map fun event => event.nFormEvent != -1 || event.nObjEvent != -1

/-- `InvokeEvent`: the handlers it calls, and what it returns. -/
def invokeEvent (mgr : Manager ν) (nEventIndex : Nat) (ppValuesParams : List ν) :
    Option (List (HandlerCall ν) × Bool) := do
  let event ← mgr.events[nEventIndex]?
  let (calls, bSuccess) ←
    if event.nObjEvent ≠ -1 then
      mgr.pDerivedObject.map fun obj =>
        ([HandlerCall.method obj event.nObjEvent ppValuesParams.tail],
          obj.callAsProc event.nObjEvent ppValuesParams.tail)
    else some ([], true)
  if bSuccess ∧ event.nFormEvent ≠ -1 then
    let pModule ← mgr.pModule
    let e ← mgr.pCtrlEvents[nEventIndex]?
    some (calls ++ [.proc pModule event.nFormEvent (e.nParamCount + 1) ppValuesParams], bSuccess)
  else some (calls, bSuccess)

/-! ## Handlers by their documented names -/

/-- The first of two searches that finds something. -/
def firstFound (rus eng : Int) : Int := if rus ≠ -1 then rus else eng

namespace Registration

/-- The handlers of an event: the code name in front of the Russian name or else
    of the English one, and the methods of these names. -/
def documented (r : Registration ν) (e : CtrlEvent) : Event where
  nFormEvent := firstFound
    (r.pFormModule.findProc (r.szCodeName.getD CStr.empty ++ e.szRusName) 0)
    (r.pFormModule.findProc (r.szCodeName.getD CStr.empty ++ e.szEngName) 0)
  nObjEvent := match r.pDerivedObject with
    | some obj => firstFound (obj.findMethod e.szRusName) (obj.findMethod e.szEngName)
    | none => -1

/-- The calls of these handlers: the method, and if it succeeds the procedure. -/
def documentedCalls (r : Registration ν) (e : CtrlEvent) (ppValues : List ν) :
    List (HandlerCall ν) × Bool :=
  let method := r.pDerivedObject.filter fun _ => (r.documented e).nObjEvent ≠ -1
  let bSuccess := method.all fun obj => obj.callAsProc (r.documented e).nObjEvent ppValues.tail
  (method.toList.map (fun obj => .method obj (r.documented e).nObjEvent ppValues.tail) ++
    (if bSuccess ∧ (r.documented e).nFormEvent ≠ -1 then
      [.proc r.pFormModule (r.documented e).nFormEvent (e.nParamCount + 1) ppValues] else []),
    bSuccess)

/-- The handlers of the names that are searched: they are the documented ones, but
    without a code name the procedure of both names in a row takes the place of the
    English one. -/
def searched (r : Registration ν) (e : CtrlEvent) : Event where
  nFormEvent := firstFound
    (r.pFormModule.findProc (r.szCodeName.getD CStr.empty ++ e.szRusName) 0)
    (r.pFormModule.findProc (r.szCodeName.getD e.szRusName ++ e.szEngName) 0)
  nObjEvent := match r.pDerivedObject with
    | some obj => firstFound (obj.findMethod e.szRusName) (obj.findMethod e.szEngName)
    | none => -1

/-- What `SetEvents` appends to `m_events`. -/
def bindings (r : Registration ν) : List Event := r.pCtrlEvents.map r.searched

end Registration

/-- The events of a table are bound to their handlers. -/
structure BoundAsDocumented (mgr : Manager ν) (r : Registration ν) : Prop where
  events : ∀ (i : Nat) e, r.pCtrlEvents[i]? = some e → mgr.events[i]? = some (r.documented e)
  isAppointed : ∀ (i : Nat) e, r.pCtrlEvents[i]? = some e → isAppointed mgr i =
    some ((r.documented e).nFormEvent != -1 || (r.documented e).nObjEvent != -1)
  invokeEvent : ∀ (i : Nat) e, r.pCtrlEvents[i]? = some e → ∀ ppValues,
    invokeEvent mgr i ppValues = some (r.documentedCalls e ppValues)

/-! ## What is bound -/

theorem firstFound_congr_iff {rus eng eng' : Int} :
    firstFound rus eng = firstFound rus eng' ↔ (rus = -1 → eng = eng') := by
  rw [firstFound, firstFound]
  by_cases hrus : rus = -1
  · rw [if_neg (not_not.mpr hrus), if_neg (not_not.mpr hrus)]
    exact ⟨fun h _ => h, fun h => h hrus⟩
  · rw [if_pos hrus, if_pos hrus]
    exact iff_of_true rfl fun h => absurd h hrus

theorem bindObj_fst (r : Registration ν) (e : CtrlEvent) :
    (bindObj r.pDerivedObject e).1 = (r.searched e).nObjEvent := by
  unfold bindObj Registration.searched
  cases r.pDerivedObject with
  | none => rfl
  | some obj =>
      dsimp only
      rw [firstFound]
      split_ifs
      all_goals rfl

theorem bindForm_fst (r : Registration ν) (e : CtrlEvent) :
    (bindForm r.pFormModule r.szCodeName e).1 = (r.searched e).nFormEvent := by
  unfold bindForm Registration.searched
  cases r.szCodeName with
  | none =>
      dsimp only [Option.getD_none]
      rw [firstFound, CStr.empty_append]
      split_ifs
      all_goals rfl
  | some szCodeName =>
      dsimp only [Option.getD_some]
      rw [firstFound]
      split_ifs
      all_goals rfl

theorem bindEvent_fst (r : Registration ν) (e : CtrlEvent) : (r.bindEvent e).1 = r.searched e := by
  rw [Registration.bindEvent]
  dsimp only
  rw [bindForm_fst, bindObj_fst]

/-- There is a code name, or the names in a row lead where the English one leads. -/
def Registration.Unmixed (r : Registration ν) (e : CtrlEvent) : Prop :=
  r.szCodeName = none → r.pFormModule.findProc e.szRusName 0 = -1 →
    r.pFormModule.findProc (e.szRusName ++ e.szEngName) 0 = r.pFormModule.findProc e.szEngName 0

theorem searched_eq_documented_iff (r : Registration ν) (e : CtrlEvent) :
    r.searched e = r.documented e ↔ r.Unmixed e := by
  have hform : (r.searched e).nFormEvent = (r.documented e).nFormEvent ↔ r.Unmixed e := by
    rw [Registration.searched, Registration.documented, firstFound_congr_iff, Registration.Unmixed]
    cases r.szCodeName with
    | some szCodeName => exact iff_of_true (fun _ => rfl) nofun
    | none => exact ⟨fun h _ => h, fun h => h rfl⟩
  rw [← hform]
  constructor
  · intro h
    exact congrArg Event.nFormEvent h
  · intro h
    -- the methods are the documented ones
    exact congrArg (Event.mk · (r.documented e).nObjEvent) h

/-! ## Runs -/

@[simp] theorem setEvents_events (mgr : Manager ν) (r : Registration ν) :
    (setEvents mgr r).manager.events = mgr.events ++ r.bindings := by
  rw [setEvents, Registration.bindings, List.map_map]
  exact congrArg (mgr.events ++ ·) (List.map_congr_left fun e _ => bindEvent_fst r e)

theorem run_snoc (calls : List (Registration ν)) (r : Registration ν) :
    run (calls ++ [r]) = (setEvents (run calls) r).manager := List.foldl_append

/-- Nothing is ever taken out of `m_events`. -/
theorem events_run (calls : List (Registration ν)) :
    (run calls).events = calls.flatMap Registration.bindings := by
  induction calls using List.reverseRecOn with
  | nil => rfl
  | append_singleton calls r ih =>
      rw [run_snoc, setEvents_events, ih, List.flatMap_append, List.flatMap_singleton]

/-! ## Events of the last table -/

/-- Only a derived object has a method. -/
theorem exists_of_nObjEvent {r : Registration ν} {e : CtrlEvent}
    (hobj : (r.documented e).nObjEvent ≠ -1) : ∃ obj, r.pDerivedObject = some obj := by
  cases hderived : r.pDerivedObject with
  | some obj => exact ⟨obj, rfl⟩
  | none =>
      refine absurd ?_ hobj
      rw [Registration.documented, hderived]

/-- An event whose entry is right calls its handlers. -/
theorem invokeEvent_eq (mgr : Manager ν) {r : Registration ν} {i : Nat} {e : CtrlEvent}
    (he : r.pCtrlEvents[i]? = some e)
    (hevent : (setEvents mgr r).manager.events[i]? = some (r.documented e)) (ppValues : List ν) :
    invokeEvent (setEvents mgr r).manager i ppValues = some (r.documentedCalls e ppValues) := by
  rw [invokeEvent, hevent]
  dsimp only [setEvents, Option.bind_eq_bind, Option.bind_some]
  rw [Registration.documentedCalls]
  -- only if there is a method the derived object is used
  by_cases hobj : (r.documented e).nObjEvent = -1
  · have hnone : r.pDerivedObject.filter (fun _ => decide ((r.documented e).nObjEvent ≠ -1)) =
        none := by simp [hobj]
    rw [if_neg (not_not.mpr hobj), hnone]
    simp only [he, Option.bind_some, Option.all_none, Option.toList_none, List.map_nil,
      List.nil_append]
    split_ifs
    all_goals rfl
  · obtain ⟨obj, hderived⟩ := exists_of_nObjEvent hobj
    have hsome : r.pDerivedObject.filter (fun _ => decide ((r.documented e).nObjEvent ≠ -1)) =
        some obj := by simp [hobj, hderived]
    rw [if_pos hobj, hsome, hderived]
    simp only [he, Option.map_some, Option.bind_some, Option.all_some, Option.toList_some,
      List.map_cons, List.map_nil]
    split_ifs
    all_goals simp

/-- The events of the last table are bound if `m_events` starts with their
    handlers. -/
theorem boundAsDocumented_iff (mgr : Manager ν) (r : Registration ν) :
    BoundAsDocumented (setEvents mgr r).manager r ↔
      ∀ (i : Nat) e, r.pCtrlEvents[i]? = some e →
        (mgr.events ++ r.bindings)[i]? = some (r.documented e) := by
  rw [← setEvents_events]
  constructor
  · exact BoundAsDocumented.events
  · intro hevents
    refine ⟨hevents, ?_, fun i e he => invokeEvent_eq mgr he (hevents i e he)⟩
    intro i e he
    rw [isAppointed, hevents i e he]
    rfl

/-- The first table that is not empty is bound as it should be, unless names
    are mixed up. -/
theorem bindings_eq_iff (r : Registration ν) :
    (∀ (i : Nat) e, r.pCtrlEvents[i]? = some e → r.bindings[i]? = some (r.documented e)) ↔
      ∀ e ∈ r.pCtrlEvents, r.Unmixed e := by
  have hat : ∀ (i : Nat) e, r.pCtrlEvents[i]? = some e →
      (r.bindings[i]? = some (r.documented e) ↔ r.Unmixed e) := by
    intro i e he
    rw [Registration.bindings, List.getElem?_map, he, Option.map_some, Option.some.injEq,
      searched_eq_documented_iff]
  constructor
  · intro h e he
    obtain ⟨i, hi⟩ := List.mem_iff_getElem?.mp he
    exact (hat i e hi).mp (h i e hi)
  · intro h i e he
    exact (hat i e he).mpr (h e (List.mem_of_getElem? he))

end CtrlEvents

open CtrlEvents

/-- After any calls of `SetEvents`, the events of the last table are bound to the
    handlers with their documented names exactly if these stand at the beginning
    of all that was bound so far.  If no earlier table had events, that is so
    exactly if there is a code name or, for each event without a Russian handler,
    the Russian and the English name in a row lead where the English one leads. -/
theorem setEvents_bound_iff {ν : Type} (calls : List (Registration ν)) (last : Registration ν) :
    (BoundAsDocumented (CtrlEvents.run (calls ++ [last])) last ↔
      ∀ (i : Nat) e, last.pCtrlEvents[i]? = some e →
        (calls.flatMap Registration.bindings ++ last.bindings)[i]? = some (last.documented e)) ∧
    ((∀ r ∈ calls, r.pCtrlEvents = []) →
      (BoundAsDocumented (CtrlEvents.run (calls ++ [last])) last ↔
        ∀ e ∈ last.pCtrlEvents, last.Unmixed e)) := by
  have hbound := boundAsDocumented_iff (CtrlEvents.run calls) last
  rw [← run_snoc, events_run] at hbound
  refine ⟨hbound, ?_⟩
  intro hempty
  have hnil : calls.flatMap Registration.bindings = [] := by
    refine List.flatMap_eq_nil_iff.mpr fun r hr => ?_
    rw [Registration.bindings, hempty r hr, List.map_nil]
  rw [hbound, hnil, List.nil_append]
  exact bindings_eq_iff last

/-- A module with one procedure, without parameters. -/
def oneProc (name : CStr) (nProc : Int) : BLModule where
  findProc szName _ := if szName = name then nProc else -1
  nParams _ := 0

/-- The table of a click, with its handler in the module of the form. -/
def onClick (szCodeName : Option CStr) (proc : CStr) (nProc : Int) : Registration Nat where
  pCtrlEvents := [⟨CStr.ansi "ПриНажатии", CStr.lit "OnClick", 0⟩]
  szCodeName := szCodeName
  pFormModule := oneProc proc nProc
  pDerivedObject := none

/-- The first table is bound also to an English handler, if there is a code
    name. -/
theorem setEvents_bound_iff_codeName :
    BoundAsDocumented
      (CtrlEvents.run [onClick (some (CStr.lit "Button")) (CStr.lit "ButtonOnClick") 4])
      (onClick (some (CStr.lit "Button")) (CStr.lit "ButtonOnClick") 4) ∧
    CtrlEvents.isAppointed (CtrlEvents.run
      [onClick (some (CStr.lit "Button")) (CStr.lit "ButtonOnClick") 4]) 0 = some true := by
  have hbound := ((setEvents_bound_iff [] (onClick (some (CStr.lit "Button"))
    (CStr.lit "ButtonOnClick") 4)).2 (by simp)).mpr (fun e he hnone => by cases hnone)
  exact ⟨hbound, (hbound.isAppointed 0 _ rfl).trans (by decide)⟩

/-- Without a code name the English handler is not found; and a second table is
    bound to the handlers of the first. -/
theorem not_bound_of_mixed_or_second :
    ((CtrlEvents.run [onClick none (CStr.lit "OnClick") 4]).events = [⟨-1, -1⟩] ∧
      ¬ BoundAsDocumented (CtrlEvents.run [onClick none (CStr.lit "OnClick") 4])
        (onClick none (CStr.lit "OnClick") 4)) ∧
    ((CtrlEvents.run [onClick (some (CStr.lit "A")) (CStr.lit "AOnClick") 4,
        onClick (some (CStr.lit "B")) (CStr.lit "BOnClick") 7]).events = [⟨4, -1⟩, ⟨7, -1⟩] ∧
      ¬ BoundAsDocumented (CtrlEvents.run [onClick (some (CStr.lit "A")) (CStr.lit "AOnClick") 4,
          onClick (some (CStr.lit "B")) (CStr.lit "BOnClick") 7])
        (onClick (some (CStr.lit "B")) (CStr.lit "BOnClick") 7)) := by
  refine ⟨⟨by decide, fun h => ?_⟩, ⟨by decide, fun h => ?_⟩⟩
  all_goals exact absurd (h.events 0 _ rfl) (by decide)

end Curl1C
