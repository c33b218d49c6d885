/-
  Curl1C.BLColl.BLCollection

  `CBLCollection` of BLCollection.h: the methods of a collection that a script
  calls by name.

  The constructor registers the methods that `dwFlags` allows, and a name leads
  to the position of its method among these.  The functions that dispatch on the
  position compare it with the constants of an enumeration of all methods.  The
  two numberings differ for "Move" if it is registered and "Insert" is not: its
  position is then that of "Insert", for which `CallAsProc` does nothing and
  `GetNParams` adds the parameters of an initialisation.

  `CollType` and the item type are what the header asks of them, without any
  assumption on what they do.  The readings of a `CValue` are its fields; what is
  assigned to one is of its own type.  `none` is an access outside of an array.

  Main result: `methodByName_performs_iff`.
-/

import Curl1C.BLColl.ParamDefs

namespace Curl1C

open Lib

namespace BLCollection

/-! ## Values -/

/-- `GetTypeCode` of a `CValue`. -/
inductive TypeCode where
  | number
  | string
  | agregate
  | other
deriving DecidableEq

/-- What is read of a `CValue`; `item` is its context, if that has the runtime
    class of items. -/
structure Value (ι : Type) where
  typeCode : TypeCode
  numeric : Int
  string : CStr
  item : Option ι

/-- What is assigned to a `CValue`. -/
inductive Assigned (ι : Type) where
  | reset
  | number (n : Int)
  | string (s : CStr)
  | context (pItem : Option ι)
deriving DecidableEq

/-! ## The collection -/

/-- `CollType`, with the virtual functions of `CBLCollection`. -/
structure CollType (γ ι : Type) where
  getSize : γ → Int
  add : γ → CStr → γ × Option ι
  insert : γ → Int → CStr → γ × Option ι
  getAt : γ → Int → Option ι
  getAtName : γ → CStr → Option ι
  indexOfName : γ → CStr → Int
  indexOf : γ → ι → Int
  remove : γ → Int → γ × Bool
  move : γ → Int → Int → γ × Bool
  removeAll : γ → γ
  getName : γ → ι → CStr
  initItem : γ → Option ι → List (Value ι) → γ
  countAddParams : Int

/-- What a call leaves: the collection, what is assigned to `RetValue` and to
    the second parameter, the runtime error, and the result. -/
structure Outcome (γ ι : Type) where
  coll : γ
  retValue : Option (Assigned ι)
  param1 : Option (Assigned ι)
  runtimeError : Option CStr
  result : Int
deriving DecidableEq

variable {γ ι : Type}

/-- A call that succeeds and assigns nothing. -/
def done (c : γ) : Outcome γ ι := ⟨c, none, none, none, 1⟩

/-- A call that succeeds and returns a value. -/
def returned (c : γ) (v : Assigned ι) : Outcome γ ι := ⟨c, some v, none, none, 1⟩

/-- A call that raises an error. -/
def raised (c : γ) (text : CStr) : Outcome γ ι := ⟨c, none, none, some text, 0⟩

section Operations

variable (coll : CollType γ ι) (c : γ) (ppValue : List (Value ι))

def count : Option (Outcome γ ι) := some (returned c (.number (coll.getSize c)))

/-- The item of a number or a name; the second parameter is the other one. -/
def get : Option (Outcome γ ι) :=
  ppValue[0]?.bind fun v =>
    if v.typeCode = .number then
      match coll.getAt c v.numeric with
      | some pItem => ppValue[1]?.map fun _ =>
          ⟨c, some (.context (some pItem)), some (.string (coll.getName c pItem)), none, 1⟩
      | none => some (returned c .reset)
    else if v.typeCode = .string then
      ppValue[1]?.map fun _ =>
        ⟨c, some (match coll.getAtName c v.string with
          | some pItem => .context (some pItem)
          | none => .reset), some (.number (coll.indexOfName c v.string)), none, 1⟩
    else some (raised c (CStr.ansi "Недопустимый тип параметра."))

def indexOf : Option (Outcome γ ι) :=
  ppValue[0]?.map fun v =>
    if v.typeCode = .agregate then
      match v.item with
      | some pItem => returned c (.number (coll.indexOf c pItem))
      | none => raised c (CStr.ansi "Недопустимый тип параметра.")
    else if v.typeCode = .string then returned c (.number (coll.indexOfName c v.string))
    else raised c (CStr.ansi "Недопустимый тип параметра.")

def add : Option (Outcome γ ι) :=
  ppValue[0]?.map fun v =>
    let (c, pItem) := coll.add c v.string
    returned (coll.initItem c pItem (ppValue.drop 1)) (.context pItem)

def remove : Option (Outcome γ ι) :=
  ppValue[0]?.map fun v =>
    let (c, removed) := coll.remove c v.numeric
    if !removed then raised c (CStr.ansi "Недопустимый индекс.") else done c

def clear : Option (Outcome γ ι) := some (done (coll.removeAll c))

def insert : Option (Outcome γ ι) :=
  ppValue[0]?.bind fun v => ppValue[1]?.map fun w =>
    let (c, pItem) := coll.insert c v.numeric w.string
    match pItem with
    | none => raised c (CStr.ansi "Недопустимый тип первого параметра.")
    | some pItem =>
        returned (coll.initItem c (some pItem) (ppValue.drop 2)) (.context (some pItem))

def move : Option (Outcome γ ι) :=
  ppValue[0]?.bind fun v => ppValue[1]?.map fun w =>
    let (c, moved) := coll.move c v.numeric w.numeric
    if !moved then raised c (CStr.ansi "Недопустимые параметры.") else done c

end Operations

/-! ## Methods -/

/-- The methods, in the order of their enumeration. -/
inductive Method where
  | count
  | get
  | indexOf
  | add
  | remove
  | clear
  | insert
  | move
deriving DecidableEq

namespace Method

/-- All methods, each at its constant. -/
def all : List Method := [count, get, indexOf, add, remove, clear, insert, move]

/-- The constant of the enumeration: `methCount`, `methGet`, ... -/
def meth : Method → Nat
  | count => 0
  | get => 1
  | indexOf => 2
  | add => 3
  | remove => 4
  | clear => 5
  | insert => 6
  | move => 7

/-- The label of a `switch` that a position leads to. -/
def switch (nMethIndex : Int) : Option Method :=
  all.find? fun m => decide ((m.meth : Int) = nMethIndex)

def engName : Method → CStr
  | count => CStr.lit "Count"
  | get => CStr.lit "Get"
  | indexOf => CStr.lit "IndexOf"
  | add => CStr.lit "Add"
  | remove => CStr.lit "Remove"
  | clear => CStr.lit "Clear"
  | insert => CStr.lit "Insert"
  | move => CStr.lit "Move"

def rusName : Method → CStr
  | count => CStr.ansi "Количество"
  | get => CStr.ansi "Получить"
  | indexOf => CStr.ansi "Индекс"
  | add => CStr.ansi "Добавить"
  | remove => CStr.ansi "Удалить"
  | clear => CStr.ansi "Очистить"
  | insert => CStr.ansi "Вставить"
  | move => CStr.ansi "Сдвинуть"

/-- Whether the method returns a value. -/
def isFunc : Method → Int
  | count | get | indexOf | add | insert => 1
  | remove | clear | move => 0

def nNumParam : Method → Int
  | count | clear => 0
  | indexOf | add | remove => 1
  | get | insert | move => 2

/-- The call of `AddParam` for the method. -/
def registration (m : Method) : ParamDefs.ParamOp :=
  .addParam m.engName m.rusName m.meth m.isFunc m.nNumParam false false

/-- The definition that the call adds. -/
def definition (m : Method) : ParamDef :=
  ParamDef.init (some m.engName) (some m.rusName) m.meth m.isFunc m.nNumParam false false

/-! ## What the names stand for -/

/-- The parameters of the operation; one that makes an item also takes those of
    its initialisation. -/
def arity (coll : CollType γ ι) : Method → Int
  | add => add.nNumParam + coll.countAddParams
  | insert => insert.nNumParam + coll.countAddParams
  | m => m.nNumParam

/-- The operation. -/
def operation (coll : CollType γ ι) (c : γ) (ppValue : List (Value ι)) :
    Method → Option (Outcome γ ι)
  | count => BLCollection.count coll c
  | get => BLCollection.get coll c ppValue
  | indexOf => BLCollection.indexOf coll c ppValue
  | add => BLCollection.add coll c ppValue
  | remove => BLCollection.remove coll c ppValue
  | clear => BLCollection.clear coll c
  | insert => BLCollection.insert coll c ppValue
  | move => BLCollection.move coll c ppValue

end Method

/-! ## The table of methods -/

def blcModifed : BitVec 32 := 1
def blcInsert : BitVec 32 := 2
def blcMove : BitVec 32 := 4

/-- The methods that are registered. -/
def registered (modifed insert move : Bool) : List Method :=
  [.count, .get, .indexOf] ++
    if modifed then
      [.add, .remove, .clear] ++ (if insert then [.insert] else []) ++
        (if move then [.move] else [])
    else []

variable (dwFlags : BitVec 32)

/-- The methods that `dwFlags` allows. -/
def methods : List Method :=
  registered (decide (dwFlags &&& blcModifed ≠ 0)) (decide (dwFlags &&& blcInsert ≠ 0))
    (decide (dwFlags &&& blcMove ≠ 0))

/-- `CBLCollection()`, on the table `m_ParamDefs` that all objects share. -/
def construct (compareNoCase : CStr → CStr → Int) (p : ParamDefs) : Option ParamDefs :=
  if p.vecPDef.isEmpty then
    (p.setPoolSize Method.all.length).bind fun p =>
      (methods dwFlags).foldlM (fun p m => ParamDefs.step compareNoCase p m.registration) p
  else some p

/-- The table after some objects were constructed. -/
def paramDefs (compareNoCase : CStr → CStr → Int) : Nat → Option ParamDefs
  | 0 => some ParamDefs.new
  | n + 1 => (paramDefs compareNoCase n).bind (construct dwFlags compareNoCase)

/-- `m_ParamDefs[nMethIndex]`. -/
def paramDef (p : ParamDefs) (nMethIndex : Int) : Option ParamDef :=
  if 0 ≤ nMethIndex then p.vecPDef[nMethIndex.toNat]? else none

/-! ## Calls -/

/-- `GetNParams`. -/
def getNParams (coll : CollType γ ι) (p : ParamDefs) (nMethIndex : Int) : Option Int :=
  match Method.switch nMethIndex with
  | some .add | some .insert =>
      (paramDef p nMethIndex).map fun d => d.numberOfParams + coll.countAddParams
  | _ => (paramDef p nMethIndex).map ParamDef.numberOfParams

/-- `HasRetVal`. -/
def hasRetVal (p : ParamDefs) (nMethIndex : Int) : Option Int :=
  (paramDef p nMethIndex).map ParamDef.hasReturnValue

/-- `CallAsProc`. -/
def callAsProc (coll : CollType γ ι) (c : γ) (nMethIndex : Int) (ppValue : List (Value ι)) :
    Option (Outcome γ ι) :=
  if dwFlags &&& blcModifed ≠ 0 then
    match Method.switch nMethIndex with
    | some .remove => remove coll c ppValue
    | some .clear => clear coll c
    | some .move => if dwFlags &&& blcMove ≠ 0 then move coll c ppValue else some (done c)
    | _ => some (done c)
  else some ⟨c, none, none, none, 0⟩

/-- `CallAsFunc`. -/
def callAsFunc (coll : CollType γ ι) (c : γ) (nMethIndex : Int) (ppValue : List (Value ι)) :
    Option (Outcome γ ι) :=
  match Method.switch nMethIndex with
  | some .count => count coll c
  | some .add => if dwFlags &&& blcModifed ≠ 0 then add coll c ppValue else some (done c)
  | some .insert => if dwFlags &&& blcInsert ≠ 0 then insert coll c ppValue else some (done c)
  | some .get => get coll c ppValue
  | some .indexOf => indexOf coll c ppValue
  | _ => some (done c)

/-- The call of a method, as a function if it returns a value. -/
def call (coll : CollType γ ι) (p : ParamDefs) (c : γ) (nMethIndex : Int)
    (ppValue : List (Value ι)) : Option (Outcome γ ι) :=
  (hasRetVal p nMethIndex).bind fun isFunc =>
    if isFunc ≠ 0 then callAsFunc dwFlags coll c nMethIndex ppValue
    else callAsProc dwFlags coll c nMethIndex ppValue

/-- The method that is found under a name is the operation of that name. -/
structure Performs (coll : CollType γ ι) (p : ParamDefs) (m : Method) (szName : CStr) : Prop where
  hasRetVal : hasRetVal p (ParamDefs.findMethod p szName) = some m.isFunc
  getNParams : getNParams coll p (ParamDefs.findMethod p szName) = some (m.arity coll)
  call : ∀ c ppValue, (ppValue.length : Int) = m.arity coll →
    call dwFlags coll p c (ParamDefs.findMethod p szName) ppValue = m.operation coll c ppValue

/-! ## The table -/

section Table

variable {compareNoCase : CStr → CStr → Int} {p : ParamDefs}

theorem mem_all (m : Method) : m ∈ Method.all := by
  cases m <;> decide

/-- A method is found by its two names. -/
theorem mem_folds_iff {m : Method} {szName : CStr} : upperFold szName ∈ m.definition.folds ↔
    upperFold szName = upperFold m.engName ∨ upperFold szName = upperFold m.rusName := by
  simp [ParamDef.folds, Method.definition, ParamDef.init]

theorem definition_folds_nodup (m : Method) : m.definition.folds.Nodup := by
  cases m <;> decide

/-- No two methods have a name in common. -/
theorem definition_folds_disjoint : ∀ m ∈ Method.all, ∀ r ∈ Method.all, m ≠ r →
    ∀ f ∈ m.definition.folds, f ∉ r.definition.folds := by
  decide

theorem distinctNames {L : List Method} (hL : L.Nodup) (hvec : p.vecPDef = L.map Method.definition) :
    p.DistinctNames := by
  rw [ParamDefs.DistinctNames, hvec, List.flatMap_map, List.nodup_flatMap]
  refine ⟨fun m _ => definition_folds_nodup m, hL.imp fun hne f hf hf' => ?_⟩
  exact definition_folds_disjoint _ (mem_all _) _ (mem_all _) hne f hf hf'

/-- A method that is not in the table is added behind the others. -/
theorem findParam_eq_none (hcompare : ∀ m r : Method, compareNoCase m.engName r.engName = 0 → m = r)
    {L : List Method} {m : Method} (hm : m ∉ L) (hvec : p.vecPDef = L.map Method.definition) :
    ParamDefs.findParam compareNoCase p m.definition = none := by
  rw [ParamDefs.findParam, hvec, List.findIdx?_eq_none_iff]
  intro d hd
  obtain ⟨r, hr, rfl⟩ := List.mem_map.mp hd
  rw [ParamDef.same, Bool.and_eq_false_iff]
  refine Or.inl (decide_eq_false fun heq => hm ?_)
  rwa [hcompare m r heq]

/-- The methods are added in their order, and the index has their names. -/
theorem addMethods_spec
    (hcompare : ∀ m r : Method, compareNoCase m.engName r.engName = 0 → m = r)
    (L K : List Method) (hnodup : (K ++ L).Nodup) (hsound : p.Sound) (hindexed : p.Indexed)
    (hvec : p.vecPDef = K.map Method.definition)
    (hroom : IStringMap.getCount p.mapIndexes + 2 * L.length < 2 ^ 28) :
    ∃ p', L.foldlM (fun p m => ParamDefs.step compareNoCase p m.registration) p = some p' ∧
      p'.Indexed ∧ p'.vecPDef = (K ++ L).map Method.definition := by
  -- `K` are the methods that are in the table already
  induction L generalizing K p with
  | nil => exact ⟨p, rfl, hindexed, by rw [hvec, List.append_nil]⟩
  | cons m L ih =>
      rw [List.length_cons] at hroom
      have hsplit : K ++ m :: L = K ++ [m] ++ L := by simp
      rw [hsplit] at hnodup ⊢
      have hhead : (K ++ [m]).Nodup := hnodup.of_append_left
      have hm : m ∉ K := fun hmem =>
        (List.nodup_append.mp hhead).2.2 m hmem m List.mem_cons_self rfl
      obtain ⟨p₁, hstep, hsound₁, hvec₁, hlookup₁, hcount₁⟩ :=
        ParamDefs.addParam_spec hsound (show _ + 1 < _ by omega) rfl
          (findParam_eq_none hcompare hm hvec)
      have hvec₁' : p₁.vecPDef = (K ++ [m]).map Method.definition := by
        rw [hvec₁, hvec, List.map_append]
        rfl
      obtain ⟨p', hfold, hrest⟩ := ih (K ++ [m]) hnodup hsound₁
        (ParamDefs.indexed_append hindexed (distinctNames hhead hvec₁') hvec₁ hlookup₁) hvec₁'
        (by omega)
      refine ⟨p', ?_, hrest⟩
      rw [List.foldlM_cons]
      change (ParamDefs.step compareNoCase p m.registration).bind _ = _
      rw [show ParamDefs.step compareNoCase p m.registration = some p₁ from hstep, Option.bind_some]
      exact hfold

theorem registered_nodup : ∀ modifed insert move : Bool, (registered modifed insert move).Nodup := by
  decide

/-- The first object fills the table. -/
theorem construct_new
    (hcompare : ∀ m r : Method, compareNoCase m.engName r.engName = 0 → m = r) :
    ∃ p, construct dwFlags compareNoCase ParamDefs.new = some p ∧ p.Indexed ∧
      p.vecPDef = (methods dwFlags).map Method.definition := by
  have hsound : ParamDefs.new.Sound := ⟨∅, IStringMap.refines_new⟩
  have hpoolSize : Method.all.length ≤ 2 ^ 29 := by decide
  obtain ⟨p₁, hpool, hsound₁, hvec₁, hlookup₁, hcount₁⟩ :=
    ParamDefs.setPoolSize_spec hsound (by decide) hpoolSize
  have hindexed₁ : p₁.Indexed := by
    intro name i
    rw [hlookup₁, hvec₁]
    exact ParamDefs.indexed_new name i
  have hlength : (methods dwFlags).length ≤ 8 := by
    have hle : ∀ modifed insert move : Bool, (registered modifed insert move).length ≤ 8 := by
      decide
    exact hle _ _ _
  have hempty : IStringMap.getCount ParamDefs.new.mapIndexes = 0 := rfl
  obtain ⟨p, hfold, hindexed, hvec⟩ := addMethods_spec hcompare (methods dwFlags) []
    (registered_nodup _ _ _) hsound₁ hindexed₁ hvec₁ (by omega)
  refine ⟨p, ?_, hindexed, hvec⟩
  rw [construct, if_pos (show ParamDefs.new.vecPDef.isEmpty = true from rfl), hpool]
  exact hfold

/-- Every object after the first leaves the table as it is. -/
theorem paramDefs_spec
    (hcompare : ∀ m r : Method, compareNoCase m.engName r.engName = 0 → m = r) (n : Nat) :
    ∃ p, paramDefs dwFlags compareNoCase (n + 1) = some p ∧ p.Indexed ∧
      p.vecPDef = (methods dwFlags).map Method.definition := by
  induction n with
  | zero => exact construct_new dwFlags hcompare
  | succ n ih =>
      obtain ⟨p, hp, hindexed, hvec⟩ := ih
      refine ⟨p, ?_, hindexed, hvec⟩
      have hfilled : p.vecPDef.isEmpty = false := by
        rw [hvec, methods, registered]
        rfl
      rw [paramDefs, hp, Option.bind_some, construct, hfilled]
      rfl

/-- A name leads to the position of its method. -/
theorem findMethod_eq (hindexed : p.Indexed)
    (hvec : p.vecPDef = (methods dwFlags).map Method.definition) {k : Nat} {m : Method}
    (hk : (methods dwFlags)[k]? = some m) {szName : CStr}
    (hname : upperFold szName ∈ m.definition.folds) :
    ParamDefs.findMethod p szName = k ∧ paramDef p k = some m.definition := by
  have hat : p.vecPDef[k]? = some m.definition := by
    rw [hvec, List.getElem?_map, hk, Option.map_some]
  refine ⟨?_, ?_⟩
  · rw [ParamDefs.findMethod, ParamDefs.getIndexByName,
      (hindexed szName k).mpr ⟨k, m.definition, hat, rfl, hname⟩, Option.getD_some]
  · rw [paramDef, if_pos (Int.natCast_nonneg k), Int.toNat_natCast, hat]

end Table

/-! ## Positions and constants -/

/-- A move that does nothing and succeeds. -/
theorem move_eq_done_iff (coll : CollType γ ι) (c : γ) (v w : Value ι) :
    some (done c) = move coll c [v, w] ↔ coll.move c v.numeric w.numeric = (c, true) := by
  obtain ⟨⟨c', moved⟩, hmove⟩ : ∃ r, coll.move c v.numeric w.numeric = r := ⟨_, rfl⟩
  have hcall : move coll c [v, w] =
      some (if !moved then raised c' (CStr.ansi "Недопустимые параметры.") else done c') := by
    simp only [move, List.getElem?_cons_zero, List.getElem?_cons_succ, Option.bind_some,
      Option.map_some, hmove]
  rw [hcall, hmove]
  cases moved with
  | true =>
      constructor
      · intro h
        have hcoll : c = c' := congrArg Outcome.coll (Option.some.inj h)
        rw [hcoll]
      · intro h
        rw [(Prod.mk.inj h).1]
        rfl
  | false =>
      refine iff_of_false (fun h => ?_) fun h => Bool.false_ne_true (Prod.mk.inj h).2
      have hresult : (1 : Int) = 0 := congrArg Outcome.result (Option.some.inj h)
      omega

theorem switch_meth (m : Method) : Method.switch m.meth = some m := by
  cases m <;> rfl

/-- "Insert" and "Move" are registered only with their flags. -/
theorem registered_flags : ∀ modifed insert move : Bool,
    (.insert ∈ registered modifed insert move → insert = true) ∧
    (.move ∈ registered modifed insert move → move = true) := by
  decide

/-- A position is the constant of its method, except where "Move" takes the place
    of "Insert". -/
theorem registered_position : ∀ insert move : Bool, ∀ m ∈ registered true insert move,
    (m ≠ .move ∨ insert = true) → (registered true insert move)[m.meth]? = some m := by
  decide

variable {dwFlags} {coll : CollType γ ι} {p : ParamDefs}
  (hmodifed : dwFlags &&& blcModifed ≠ 0) (hindexed : p.Indexed)
  (hvec : p.vecPDef = (methods dwFlags).map Method.definition) {szName : CStr}
include hmodifed hindexed hvec

/-- A method at its constant performs its operation. -/
theorem performs_of_position {m : Method} (hat : (methods dwFlags)[m.meth]? = some m)
    (hname : upperFold szName ∈ m.definition.folds) : Performs dwFlags coll p m szName := by
  obtain ⟨hfind, hdef⟩ := findMethod_eq dwFlags hindexed hvec hat hname
  obtain ⟨hinsert, hmove⟩ := registered_flags (decide (dwFlags &&& blcModifed ≠ 0))
    (decide (dwFlags &&& blcInsert ≠ 0)) (decide (dwFlags &&& blcMove ≠ 0))
  have hmem : m ∈ methods dwFlags := List.mem_of_getElem? hat
  have hret : hasRetVal p m.meth = some m.isFunc := by
    rw [hasRetVal, hdef]
    rfl
  constructor
  · rw [hfind, hret]
  · rw [hfind, BLCollection.getNParams, switch_meth, hdef]
    cases m <;> rfl
  · intro c ppValue _
    rw [hfind, BLCollection.call, hret, Option.bind_some]
    cases m with
    | count | get | indexOf => rfl
    | add => exact if_pos hmodifed
    | insert => exact if_pos (of_decide_eq_true (hinsert hmem))
    | remove | clear => exact if_pos hmodifed
    | move =>
        have hcall : callAsProc dwFlags coll c Method.move.meth ppValue = move coll c ppValue := by
          rw [callAsProc, if_pos hmodifed, switch_meth]
          exact if_pos (of_decide_eq_true (hmove hmem))
        exact hcall

/-- Every method is at its constant, except "Move" without "Insert". -/
theorem performs_of_placed {m : Method} (hm : m ∈ methods dwFlags)
    (hplaced : m ≠ .move ∨ dwFlags &&& blcInsert ≠ 0)
    (hname : upperFold szName ∈ m.definition.folds) : Performs dwFlags coll p m szName := by
  refine performs_of_position hmodifed hindexed hvec ?_ hname
  rw [methods, decide_eq_true hmodifed] at hm ⊢
  exact registered_position _ _ m hm (hplaced.imp_right decide_eq_true)

/-- "Move" at the place of "Insert" does nothing, and takes the parameters of an
    initialisation. -/
theorem performs_misplaced_iff (hat : (methods dwFlags)[Method.insert.meth]? = some .move)
    (hname : upperFold szName ∈ Method.move.definition.folds) :
    Performs dwFlags coll p .move szName ↔
      coll.countAddParams = 0 ∧ ∀ c nIndex nOffset, coll.move c nIndex nOffset = (c, true) := by
  obtain ⟨hfind, hdef⟩ := findMethod_eq dwFlags hindexed hvec hat hname
  have hret : hasRetVal p Method.insert.meth = some 0 := by
    rw [hasRetVal, hdef]
    rfl
  have hparams : getNParams coll p Method.insert.meth = some (2 + coll.countAddParams) := by
    rw [getNParams, switch_meth, hdef]
    rfl
  -- it has no value, so `CallAsProc` gets the constant of "Insert"
  have hcall : ∀ c ppValue, call dwFlags coll p c Method.insert.meth ppValue = some (done c) := by
    intro c ppValue
    rw [call, hret]
    exact if_pos hmodifed
  constructor
  · intro h
    have hnparams := h.getNParams
    rw [hfind, hparams, Option.some.injEq] at hnparams
    have hzero : coll.countAddParams = 0 := by
      change 2 + coll.countAddParams = 2 at hnparams
      omega
    refine ⟨hzero, ?_⟩
    intro c nIndex nOffset
    have hmoved := h.call c [⟨.number, nIndex, CStr.empty, none⟩,
      ⟨.number, nOffset, CStr.empty, none⟩] rfl
    rw [hfind, hcall] at hmoved
    exact (move_eq_done_iff coll c _ _).mp hmoved
  · rintro ⟨hzero, hmove⟩
    refine ⟨by rw [hfind, hret]; rfl, ?_, ?_⟩
    · rw [hfind, hparams, hzero]
      rfl
    · intro c ppValue hlen
      rw [hfind, hcall]
      obtain ⟨v, w, rfl⟩ : ∃ v w, ppValue = [v, w] := List.length_eq_two.mp (by
        change (ppValue.length : Int) = 2 at hlen
        omega)
      exact (move_eq_done_iff coll c v w).mpr (hmove c v.numeric w.numeric)

end BLCollection

open BLCollection

/-- In a collection that can be modified, a method that is found by one of its names
    performs the operation of that name, whatever the flags; only "Move" does so exactly
    if "Insert" is allowed too, apart from collections for which "Move" never does
    anything and an initialisation takes no parameters.  `CompareNoCase` is assumed to
    tell the English names apart. -/
theorem methodByName_performs_iff {γ ι : Type} (coll : CollType γ ι) (dwFlags : BitVec 32)
    (hmodifed : dwFlags &&& blcModifed ≠ 0) (compareNoCase : CStr → CStr → Int)
    (hcompare : ∀ m r : Method, compareNoCase m.engName r.engName = 0 → m = r) (n : Nat) :
    ∃ p, paramDefs dwFlags compareNoCase (n + 1) = some p ∧
      ∀ m ∈ methods dwFlags, ∀ szName,
        upperFold szName = upperFold m.engName ∨ upperFold szName = upperFold m.rusName →
          (Performs dwFlags coll p m szName ↔
            m ≠ .move ∨ dwFlags &&& blcInsert ≠ 0 ∨
              coll.countAddParams = 0 ∧
                ∀ c nIndex nOffset, coll.move c nIndex nOffset = (c, true)) := by
  obtain ⟨p, hp, hindexed, hvec⟩ := paramDefs_spec dwFlags hcompare n
  simp only [← mem_folds_iff]
  refine ⟨p, hp, ?_⟩
  intro m hm szName hname
  by_cases hplaced : m ≠ .move ∨ dwFlags &&& blcInsert ≠ 0
  · exact iff_of_true (performs_of_placed hmodifed hindexed hvec hm hplaced hname)
      (hplaced.imp_right Or.inl)
  · -- "Move" is registered, so its flag is set, and it stands where "Insert" would
    obtain ⟨hm', hinsert⟩ := not_or.mp hplaced
    obtain rfl : m = .move := not_not.mp hm'
    have hmove : decide (dwFlags &&& blcMove ≠ 0) = true := (registered_flags _ _ _).2 hm
    have hat : (methods dwFlags)[Method.insert.meth]? = some .move := by
      rw [methods, decide_eq_true hmodifed, decide_eq_false hinsert, hmove]
      rfl
    rw [or_iff_right hm', or_iff_right hinsert]
    exact performs_misplaced_iff hmodifed hindexed hvec hat hname

/-- A collection of names, as a list. -/
def namesColl : CollType (List CStr) CStr where
  getSize names := names.length
  add names szName := (names ++ [szName], some szName)
  insert names nIndex szName :=
    if 0 ≤ nIndex ∧ nIndex ≤ names.length then (names.insertIdx nIndex.toNat szName, some szName)
    else (names, none)
  getAt names nIndex := if 0 ≤ nIndex then names[nIndex.toNat]? else none
  getAtName names szName := names.find? fun s => decide (upperFold s = upperFold szName)
  indexOfName names szName :=
    ((names.findIdx? fun s => decide (upperFold s = upperFold szName)).map Int.ofNat).getD (-1)
  indexOf names pItem := ((names.findIdx? fun s => decide (s = pItem)).map Int.ofNat).getD (-1)
  remove names nIndex :=
    if 0 ≤ nIndex ∧ nIndex < names.length then (names.eraseIdx nIndex.toNat, true)
    else (names, false)
  move names nIndex nOffset :=
    if 0 ≤ nIndex ∧ nIndex < names.length ∧
        0 ≤ nIndex + nOffset ∧ nIndex + nOffset < names.length then
      (moveElem names nIndex.toNat (nIndex + nOffset).toNat, true)
    else (names, false)
  removeAll _ := []
  getName _ pItem := pItem
  initItem names _ _ := names
  countAddParams := 0

/-- The parameters of a move by one from the first place. -/
def moveFirst : List (Value CStr) :=
  [⟨.number, 0, CStr.lit "0", none⟩, ⟨.number, 1, CStr.lit "1", none⟩]

theorem compareUpper_engName : ∀ m r : Method, compareUpper m.engName r.engName = 0 → m = r := by
  intro m r
  cases m <;> cases r <;> decide

/-- With all flags "Move", in Russian and in lower case, moves the element. -/
theorem methodByName_performs_iff_moved :
    ∃ p, paramDefs 7 compareUpper 1 = some p ∧
      BLCollection.call 7 namesColl p [CStr.lit "a", CStr.lit "b"]
        (ParamDefs.findMethod p (CStr.ansi "сдвинуть")) moveFirst =
      some (done [CStr.lit "b", CStr.lit "a"]) := by
  obtain ⟨p, hp, hiff⟩ := methodByName_performs_iff namesColl 7 (by decide) compareUpper
    compareUpper_engName 0
  have hperforms := (hiff .move (by decide) (CStr.ansi "сдвинуть") (Or.inr (by decide))).mpr
    (Or.inr (Or.inl (by decide)))
  refine ⟨p, hp, (hperforms.call _ moveFirst rfl).trans ?_⟩
  decide

/-- Without `BLC_INSERT` the method that is found as "Move" succeeds and moves
    nothing. -/
theorem not_performs_of_misplaced :
    namesColl.move [CStr.lit "a", CStr.lit "b"] 0 1 = ([CStr.lit "b", CStr.lit "a"], true) ∧
    (paramDefs 5 compareUpper 1).bind (fun p =>
      BLCollection.call 5 namesColl p [CStr.lit "a", CStr.lit "b"]
        (ParamDefs.findMethod p (CStr.lit "Move")) moveFirst) =
      some (done [CStr.lit "a", CStr.lit "b"]) := by
  decide

end Curl1C
