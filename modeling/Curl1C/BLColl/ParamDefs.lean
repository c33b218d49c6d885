/-
  Curl1C.BLColl.ParamDefs

  `CParamDefs` of ParamDefs.h: the table of methods and the index of their
  names.

  A definition is found by comparing both names with `CString::CompareNoCase`,
  which depends on the locale and is a parameter here; the index compares in the
  upper case of code page 1251.  `RemoveParam` takes the two names it was given
  out of the index and the definition out of the vector.  The definitions behind
  it move up, and the index still has their old positions.  So table and index
  agree exactly as long as only the last definition is removed, with names that
  the index takes for its names.

  `pDefParam` is left out: `AddParam` looks it up and does not pass it on.

  Main result: `paramDefs_agree_iff`.
-/

import Curl1C.BLColl.MapRefinement
import Curl1C.Lib.Numbering
import Curl1C.Lib.Run

namespace Curl1C

open Lib

/-! ## Definitions -/

/-- `paramdefs`. -/
structure ParamDef where
  names0 : CStr
  names1 : CStr
  hasReturnValue : Int
  numberOfParams : Int
  nProcPos : Int
  isUnLimParMethod : Bool
  bMethHaveVal : Bool

/-- The constructor.  A null pointer makes an empty `CString`. -/
def ParamDef.init (eName rName : Option CStr) (procPos hrv num : Int) (isUP bHaveVal : Bool) :
    ParamDef :=
  ⟨eName.getD CStr.empty, rName.getD CStr.empty, hrv, num, procPos, isUP, bHaveVal⟩

/-- The constructor with its defaults. -/
def ParamDef.ofNames (eName rName : Option CStr) : ParamDef :=
  ParamDef.init eName rName (-1) 0 0 false false

/-- `operator==`. -/
def ParamDef.same (compareNoCase : CStr → CStr → Int) (d p : ParamDef) : Bool :=
  decide (compareNoCase p.names0 d.names0 = 0) && decide (compareNoCase p.names1 d.names1 = 0)

/-- Both names as the index takes them. -/
def ParamDef.folds (d : ParamDef) : List (List (BitVec 32)) :=
  [upperFold d.names0, upperFold d.names1]

/-- `CParamDefs`: `vec_p_def` and `mapIndexes`. -/
structure ParamDefs where
  vecPDef : List ParamDef
  mapIndexes : IStringMap CStr Int

namespace ParamDefs

/-- `CParamDefs()`. -/
def new : ParamDefs := ⟨[], IStringMap.new⟩

/-- `std::find`. -/
def findParam (compareNoCase : CStr → CStr → Int) (p : ParamDefs) (par : ParamDef) : Option Nat :=
  p.vecPDef.findIdx? fun d => d.same compareNoCase par

/-- `mapIndexes[descr] = pos`, unless the pointer is null. -/
def setIndex (m : IStringMap CStr Int) (descr : Option CStr) (pos : Int) :
    Option (IStringMap CStr Int) :=
  match descr with
  | some descr => IStringMap.setAt id m descr pos
  | none => some m

/-- `mapIndexes.RemoveKey(descr)`, unless the pointer is null. -/
def removeIndex (m : IStringMap CStr Int) (descr : Option CStr) : Option (IStringMap CStr Int) :=
  match descr with
  | some descr => (IStringMap.removeKey id m descr).map Prod.fst
  | none => some m

/-- `AddParam`. -/
def addParam (compareNoCase : CStr → CStr → Int) (p : ParamDefs) (engDescr rusDescr : Option CStr)
    (procPos isFunc nNumParam : Int) (isUP bHaveVal : Bool) : Option (ParamDefs × Bool) :=
  let par := ParamDef.init engDescr rusDescr procPos isFunc nNumParam isUP bHaveVal
  match findParam compareNoCase p par with
  | none =>
      let vec := p.vecPDef ++ [par]
      let pos : Int := vec.length - 1
      (setIndex p.mapIndexes engDescr pos).bind fun m =>
        (setIndex m rusDescr pos).map fun m => (⟨vec, m⟩, true)
  | some _ => some (p, false)

/-- `RemoveParam`. -/
def removeParam (compareNoCase : CStr → CStr → Int) (p : ParamDefs)
    (engDescr rusDescr : Option CStr) : Option (ParamDefs × Bool) :=
  match findParam compareNoCase p (ParamDef.ofNames engDescr rusDescr) with
  | some iter =>
      (removeIndex p.mapIndexes engDescr).bind fun m =>
        (removeIndex m rusDescr).map fun m => (⟨p.vecPDef.eraseIdx iter, m⟩, true)
  | none => some (p, false)

/-- `SetPoolSize`.  What it does to `mapIndOfProperty`, for a number of
    variables, is left out. -/
def setPoolSize (p : ParamDefs) (nContMeth : Nat) : Option ParamDefs :=
  if nContMeth > 0 then
    -- `nContMeth*1.5`, rounded down
    (IStringMap.initHashTable p.mapIndexes (nContMeth * 3 / 2)).map fun m => ⟨p.vecPDef, m⟩
  else some p

/-- `Size`. -/
def size (p : ParamDefs) : Nat := p.vecPDef.length

/-- `GetIndexByName`. -/
def getIndexByName (p : ParamDefs) (lpMethodName : CStr) : Int :=
  (IStringMap.lookup id p.mapIndexes lpMethodName).getD (-1)

/-- `CBLCollection::FindMethod`. -/
def findMethod (p : ParamDefs) (szName : CStr) : Int := getIndexByName p szName

/-- A call of a client, with both names. -/
inductive ParamOp where
  | addParam (engDescr rusDescr : CStr) (procPos isFunc nNumParam : Int) (isUP bHaveVal : Bool)
  | removeParam (engDescr rusDescr : CStr)

variable (compareNoCase : CStr → CStr → Int)

/-- A call on the table. -/
def step (p : ParamDefs) : ParamOp → Option ParamDefs
  | .addParam engDescr rusDescr procPos isFunc nNumParam isUP bHaveVal =>
      (addParam compareNoCase p (some engDescr) (some rusDescr) procPos isFunc nNumParam isUP
        bHaveVal).map Prod.fst
  | .removeParam engDescr rusDescr =>
      (removeParam compareNoCase p (some engDescr) (some rusDescr)).map Prod.fst

/-- The names of the definitions are different from each other. -/
def DistinctNames (p : ParamDefs) : Prop := (p.vecPDef.flatMap ParamDef.folds).Nodup

instance (p : ParamDefs) : Decidable p.DistinctNames :=
  inferInstanceAs (Decidable (p.vecPDef.flatMap ParamDef.folds).Nodup)

/-- A definition that the call removes is the last one, and the call gives the
    names that the index has for it. -/
def ParamOp.Tidy (p : ParamDefs) : ParamOp → Prop
  | .addParam .. => True
  | .removeParam engDescr rusDescr =>
      ∀ n ∈ findParam compareNoCase p (ParamDef.ofNames (some engDescr) (some rusDescr)),
        n + 1 = p.size ∧ ∀ d ∈ p.vecPDef[n]?, ∀ f ∈ d.folds,
          f = upperFold engDescr ∨ f = upperFold rusDescr

instance (p : ParamDefs) (op : ParamOp) : Decidable (op.Tidy compareNoCase p) :=
  match op with
  | .addParam .. => inferInstanceAs (Decidable True)
  | .removeParam engDescr rusDescr => inferInstanceAs (Decidable
      (∀ n ∈ findParam compareNoCase p (ParamDef.ofNames (some engDescr) (some rusDescr)),
        n + 1 = p.size ∧ ∀ d ∈ p.vecPDef[n]?, ∀ f ∈ d.folds,
          f = upperFold engDescr ∨ f = upperFold rusDescr))

/-- The table and the index agree; so the index found for a name is that of a
    method with the name. -/
structure Agrees (p : ParamDefs) : Prop where
  found : ∀ (i : Nat) d, p.vecPDef[i]? = some d →
    getIndexByName p d.names0 = i ∧ getIndexByName p d.names1 = i
  absent : ∀ name, (∀ d ∈ p.vecPDef, upperFold name ∉ d.folds) → getIndexByName p name = -1
  inside : ∀ name, findMethod p name = -1 ∨ ∃ (i : Nat) (d : ParamDef), i < p.size ∧
    findMethod p name = i ∧ p.vecPDef[i]? = some d ∧ upperFold name ∈ d.folds

/-! ## What a call does to the index -/

/-- The index is a proper map. -/
def Sound (p : ParamDefs) : Prop := ∃ d, IStringMap.Refines id p.mapIndexes d

/-- There is room for two more names. -/
def Room (p : ParamDefs) : Prop := IStringMap.getCount p.mapIndexes + 1 < 2 ^ 28

instance (p : ParamDefs) : Decidable p.Room :=
  inferInstanceAs (Decidable (IStringMap.getCount p.mapIndexes + 1 < 2 ^ 28))

theorem setAt_lookup {m : IStringMap CStr Int} {d : IStringMap.Bindings CStr Int}
    (h : IStringMap.Refines id m d) (key : CStr) (v : Int) (hroom : d.count < 2 ^ 28) :
    ∃ m' d', IStringMap.setAt id m key v = some m' ∧ IStringMap.Refines id m' d' ∧
      d'.count ≤ d.count + 1 ∧
      ∀ name, IStringMap.lookup id m' name =
        if upperFold name = upperFold key then some v else IStringMap.lookup id m name := by
  obtain ⟨m', hset, h'⟩ := IStringMap.setAt_refines h key v hroom
  refine ⟨m', _, hset, h', Dict.count_set_le d _ key v, ?_⟩
  intro name
  rw [(IStringMap.agrees_of_refines h').lookup, (IStringMap.agrees_of_refines h).lookup]
  exact Dict.map_snd_lookup_set d _ _ key v

theorem removeKey_lookup {m : IStringMap CStr Int} {d : IStringMap.Bindings CStr Int}
    (h : IStringMap.Refines id m d) (key : CStr) (hroom : d.count < 2 ^ 28) :
    ∃ m' d' b, IStringMap.removeKey id m key = some (m', b) ∧ IStringMap.Refines id m' d' ∧
      d'.count ≤ d.count ∧
      ∀ name, IStringMap.lookup id m' name =
        if upperFold name = upperFold key then none else IStringMap.lookup id m name := by
  obtain ⟨m', hremove, h'⟩ := IStringMap.removeKey_refines h key hroom
  refine ⟨m', _, _, hremove, h', Dict.count_erase_le d _, ?_⟩
  intro name
  rw [(IStringMap.agrees_of_refines h').lookup, (IStringMap.agrees_of_refines h).lookup]
  exact Dict.map_snd_lookup_erase d _ _

variable {compareNoCase} {p : ParamDefs}

/-- A definition that is not there is appended, and both names lead to its
    position. -/
theorem addParam_spec (h : p.Sound) (hroom : p.Room) {engDescr rusDescr : CStr}
    {procPos isFunc nNumParam : Int} {isUP bHaveVal : Bool} {par : ParamDef}
    (hpar : par = ParamDef.init (some engDescr) (some rusDescr) procPos isFunc nNumParam isUP
      bHaveVal) (hfind : findParam compareNoCase p par = none) :
    ∃ p', step compareNoCase p
        (.addParam engDescr rusDescr procPos isFunc nNumParam isUP bHaveVal) = some p' ∧
      p'.Sound ∧ p'.vecPDef = p.vecPDef ++ [par] ∧
      (∀ name, IStringMap.lookup id p'.mapIndexes name =
        if upperFold name ∈ par.folds then some (p.size : Int)
        else IStringMap.lookup id p.mapIndexes name) ∧
      IStringMap.getCount p'.mapIndexes ≤ IStringMap.getCount p.mapIndexes + 2 := by
  obtain ⟨d, hrefines⟩ := h
  have hcount : d.count + 1 < 2 ^ 28 := hrefines.count ▸ hroom
  have hpos : ((p.vecPDef ++ [par]).length : Int) - 1 = p.size := by
    rw [List.length_append, List.length_singleton, size]
    omega
  -- both names get the same position, so it does not matter if the second
  -- assignment overwrites the first
  obtain ⟨m₁, d₁, hset₁, h₁, hcount₁, hlookup₁⟩ :=
    setAt_lookup hrefines engDescr (p.size : Int) (by omega)
  obtain ⟨m₂, d₂, hset₂, h₂, hcount₂, hlookup₂⟩ :=
    setAt_lookup h₁ rusDescr (p.size : Int) (by omega)
  refine ⟨⟨p.vecPDef ++ [par], m₂⟩, ?_, ⟨d₂, h₂⟩, rfl, ?_, ?_⟩
  · simp only [step, addParam, ← hpar, hfind, hpos, setIndex, hset₁, hset₂, Option.bind_some,
      Option.map_some]
  · intro name
    rw [hlookup₂, hlookup₁, hpar]
    by_cases hrus : upperFold name = upperFold rusDescr
    · simp [ParamDef.folds, ParamDef.init, hrus]
    · simp [ParamDef.folds, ParamDef.init, hrus]
  · have hbefore : IStringMap.getCount p.mapIndexes = d.count := hrefines.count
    have hafter : IStringMap.getCount m₂ = d₂.count := h₂.count
    dsimp only
    omega

/-- A larger pool leads to the same positions. -/
theorem setPoolSize_spec (h : p.Sound) (hroom : p.Room) {nContMeth : Nat}
    (hmeth : nContMeth ≤ 2 ^ 29) :
    ∃ p', setPoolSize p nContMeth = some p' ∧ p'.Sound ∧ p'.vecPDef = p.vecPDef ∧
      (∀ name, IStringMap.lookup id p'.mapIndexes name =
        IStringMap.lookup id p.mapIndexes name) ∧
      IStringMap.getCount p'.mapIndexes = IStringMap.getCount p.mapIndexes := by
  rw [setPoolSize]
  split
  · obtain ⟨d, hrefines⟩ := h
    have hcount : d.count + 1 < 2 ^ 28 := hrefines.count ▸ hroom
    obtain ⟨m, hinit, h', -⟩ := IStringMap.initHashTable_refines hrefines
      (n := nContMeth * 3 / 2) (by omega) (by omega)
    refine ⟨⟨p.vecPDef, m⟩, by rw [hinit]; rfl, ⟨d, h'⟩, rfl, ?_, h'.count.trans hrefines.count.symm⟩
    intro name
    rw [(IStringMap.agrees_of_refines h').lookup, (IStringMap.agrees_of_refines hrefines).lookup]
  · exact ⟨p, rfl, h, rfl, fun _ => rfl, rfl⟩

/-- A definition that is found is taken out, and the two names lead nowhere. -/
theorem removeParam_spec (h : p.Sound) (hroom : p.Room) {engDescr rusDescr : CStr} {n : Nat}
    (hfind : findParam compareNoCase p (ParamDef.ofNames (some engDescr) (some rusDescr)) =
      some n) :
    ∃ p', step compareNoCase p (.removeParam engDescr rusDescr) = some p' ∧ p'.Sound ∧
      p'.vecPDef = p.vecPDef.eraseIdx n ∧
      ∀ name, IStringMap.lookup id p'.mapIndexes name =
        if upperFold name = upperFold engDescr ∨ upperFold name = upperFold rusDescr then none
        else IStringMap.lookup id p.mapIndexes name := by
  obtain ⟨d, hrefines⟩ := h
  have hcount : d.count + 1 < 2 ^ 28 := hrefines.count ▸ hroom
  obtain ⟨m₁, d₁, b₁, hremove₁, h₁, hcount₁, hlookup₁⟩ :=
    removeKey_lookup hrefines engDescr (by omega)
  obtain ⟨m₂, d₂, b₂, hremove₂, h₂, -, hlookup₂⟩ := removeKey_lookup h₁ rusDescr (by omega)
  refine ⟨⟨p.vecPDef.eraseIdx n, m₂⟩, ?_, ⟨d₂, h₂⟩, rfl, ?_⟩
  · simp only [step, removeParam, hfind, removeIndex, hremove₁, hremove₂, Option.bind_some,
      Option.map_some]
  · intro name
    rw [hlookup₂, hlookup₁]
    by_cases hrus : upperFold name = upperFold rusDescr
    · simp [hrus]
    · simp [hrus]

theorem addParam_of_found {engDescr rusDescr : CStr} {procPos isFunc nNumParam : Int}
    {isUP bHaveVal : Bool} {n : Nat}
    (hfind : findParam compareNoCase p (ParamDef.init (some engDescr) (some rusDescr) procPos
      isFunc nNumParam isUP bHaveVal) = some n) :
    step compareNoCase p (.addParam engDescr rusDescr procPos isFunc nNumParam isUP bHaveVal) =
      some p := by
  simp only [step, addParam, hfind, Option.map_some]

theorem removeParam_of_notFound {engDescr rusDescr : CStr}
    (hfind : findParam compareNoCase p (ParamDef.ofNames (some engDescr) (some rusDescr)) =
      none) :
    step compareNoCase p (.removeParam engDescr rusDescr) = some p := by
  simp only [step, removeParam, hfind, Option.map_some]

/-! ## Agreement -/

/-- The index has the names of the table with their positions, and no others. -/
def Indexed (p : ParamDefs) : Prop :=
  ∀ name (i : Int), IStringMap.lookup id p.mapIndexes name = some i ↔
    ∃ (n : Nat) (d : ParamDef), p.vecPDef[n]? = some d ∧ i = n ∧ upperFold name ∈ d.folds

theorem indexed_new : (new : ParamDefs).Indexed := by
  intro name i
  constructor
  · intro hi
    exact absurd hi (by simp [IStringMap.lookup, IStringMap.getAssocAt, HashMap.find, new,
      IStringMap.new])
  · rintro ⟨n, d, hd, -⟩
    simp [new] at hd

theorem agrees_of_indexed (h : p.Indexed) : p.Agrees where
  found := by
    intro i d hd
    have hnames : ∀ name, upperFold name ∈ d.folds → getIndexByName p name = i := by
      intro name hname
      rw [getIndexByName, (h name i).mpr ⟨i, d, hd, rfl, hname⟩, Option.getD_some]
    exact ⟨hnames d.names0 (by simp [ParamDef.folds]), hnames d.names1 (by simp [ParamDef.folds])⟩
  absent := by
    intro name hname
    cases hlookup : IStringMap.lookup id p.mapIndexes name with
    | none => rw [getIndexByName, hlookup, Option.getD_none]
    | some i =>
        obtain ⟨n, d, hd, -, hmem⟩ := (h name i).mp hlookup
        exact absurd hmem (hname d (List.mem_of_getElem? hd))
  inside := by
    intro name
    rw [findMethod, getIndexByName]
    cases hlookup : IStringMap.lookup id p.mapIndexes name with
    | none => exact Or.inl rfl
    | some i =>
        obtain ⟨n, d, hd, rfl, hmem⟩ := (h name i).mp hlookup
        exact Or.inr ⟨n, d, (List.getElem?_eq_some_iff.mp hd).1, rfl, hd, hmem⟩

/-- The names of one definition are two, and no other definition has them. -/
theorem DistinctNames.split {A B : List ParamDef} {d : ParamDef} (h : p.DistinctNames)
    (hvec : p.vecPDef = A ++ d :: B) :
    upperFold d.names0 ≠ upperFold d.names1 ∧ ∀ q ∈ A ++ B, ∀ f ∈ d.folds, f ∉ q.folds := by
  rw [DistinctNames, hvec, (List.perm_middle.flatMap_right ParamDef.folds).nodup_iff,
    List.flatMap_cons, List.nodup_append] at h
  obtain ⟨hown, -, hother⟩ := h
  refine ⟨by simpa [ParamDef.folds] using hown, ?_⟩
  intro q hq f hf hfq
  exact hother f hf f (List.mem_flatMap.mpr ⟨q, hq, hfq⟩) rfl

/-- An appended definition is in the index. -/
theorem indexed_append {p' : ParamDefs} {par : ParamDef} (hindexed : p.Indexed)
    (hdistinct : p'.DistinctNames) (hvec : p'.vecPDef = p.vecPDef ++ [par])
    (hlookup : ∀ name, IStringMap.lookup id p'.mapIndexes name =
      if upperFold name ∈ par.folds then some (p.size : Int)
      else IStringMap.lookup id p.mapIndexes name) : p'.Indexed := by
  obtain ⟨-, hother⟩ := hdistinct.split (A := p.vecPDef) (B := []) hvec
  intro name i
  rw [hlookup, hvec]
  constructor
  · intro hi
    split at hi
    · rename_i hnew
      exact ⟨p.size, par, getElem?_snoc.mpr (Or.inr ⟨rfl, rfl⟩), (Option.some.inj hi).symm, hnew⟩
    · obtain ⟨n, d, hd, hn, hmem⟩ := (hindexed name i).mp hi
      exact ⟨n, d, getElem?_snoc.mpr (Or.inl hd), hn, hmem⟩
  · rintro ⟨n, d, hd, rfl, hmem⟩
    rcases getElem?_snoc.mp hd with hd | ⟨rfl, rfl⟩
    · have hold : upperFold name ∉ par.folds := fun hnew =>
        hother d (by simp [List.mem_of_getElem? hd]) _ hnew hmem
      rw [if_neg hold]
      exact (hindexed name n).mpr ⟨n, d, hd, rfl, hmem⟩
    · exact if_pos hmem

/-- Without the last definition and its names the rest is still in step. -/
theorem indexed_dropLast {p' : ParamDefs} {A : List ParamDef} {d : ParamDef}
    (hindexed : p.Indexed) (hdistinct : p.DistinctNames) (hsplit : p.vecPDef = A ++ [d])
    (hvec : p'.vecPDef = A)
    (hlookup : ∀ name, IStringMap.lookup id p'.mapIndexes name =
      if upperFold name ∈ d.folds then none else IStringMap.lookup id p.mapIndexes name) :
    p'.Indexed := by
  obtain ⟨-, hother⟩ := hdistinct.split hsplit
  intro name i
  rw [hlookup, hvec]
  constructor
  · intro hi
    split at hi
    · exact absurd hi (by simp)
    · rename_i hstays
      obtain ⟨j, q, hq, hj, hmem⟩ := (hindexed name i).mp hi
      rw [hsplit] at hq
      rcases getElem?_snoc.mp hq with hq | ⟨-, rfl⟩
      · exact ⟨j, q, hq, hj, hmem⟩
      · exact absurd hmem hstays
  · rintro ⟨j, q, hq, rfl, hmem⟩
    have hstays : upperFold name ∉ d.folds := fun hd =>
      hother q (by simp [List.mem_of_getElem? hq]) _ hd hmem
    rw [if_neg hstays]
    have hq' : p.vecPDef[j]? = some q := by
      rw [hsplit]
      exact getElem?_snoc.mpr (Or.inl hq)
    exact (hindexed name j).mpr ⟨j, q, hq', rfl, hmem⟩

/-- A tidy call keeps the table and the index in step. -/
theorem step_indexed {op : ParamOp} (h : p.Sound) (hindexed : p.Indexed) (hroom : p.Room)
    (hdistinct : p.DistinctNames)
    (hdistinct' : ∀ p', step compareNoCase p op = some p' → p'.DistinctNames)
    (htidy : op.Tidy compareNoCase p) :
    ∃ p', step compareNoCase p op = some p' ∧ p'.Sound ∧ p'.Indexed := by
  cases op with
  | addParam engDescr rusDescr procPos isFunc nNumParam isUP bHaveVal =>
      cases hfind : findParam compareNoCase p (ParamDef.init (some engDescr) (some rusDescr)
        procPos isFunc nNumParam isUP bHaveVal) with
      | some n => exact ⟨p, addParam_of_found hfind, h, hindexed⟩
      | none =>
          obtain ⟨p', hstep, h', hvec, hlookup, -⟩ := addParam_spec h hroom rfl hfind
          exact ⟨p', hstep, h', indexed_append hindexed (hdistinct' p' hstep) hvec hlookup⟩
  | removeParam engDescr rusDescr =>
      cases hfind : findParam compareNoCase p
        (ParamDef.ofNames (some engDescr) (some rusDescr)) with
      | none => exact ⟨p, removeParam_of_notFound hfind, h, hindexed⟩
      | some n =>
          obtain ⟨p', hstep, h', hvec, hlookup⟩ := removeParam_spec h hroom hfind
          obtain ⟨hlast, hnames⟩ := htidy n hfind
          obtain ⟨A, d, B, hsplit, hA⟩ := exists_split_at (L := p.vecPDef) (n := n)
            (by rw [size] at hlast; omega)
          -- nothing is behind the last definition
          obtain rfl : B = [] := by
            rw [size, hsplit, List.length_append, List.length_cons] at hlast
            exact List.eq_nil_of_length_eq_zero (by omega)
          -- two different names among two: the call gives these and no others
          have hgone : ∀ f, (f = upperFold engDescr ∨ f = upperFold rusDescr) ↔ f ∈ d.folds := by
            have hd : d ∈ p.vecPDef[n]? := by simp [hsplit, ← hA]
            have hne := (hdistinct.split hsplit).1
            have h0 := hnames d hd (upperFold d.names0) (by simp [ParamDef.folds])
            have h1 := hnames d hd (upperFold d.names1) (by simp [ParamDef.folds])
            intro f
            simp only [ParamDef.folds, List.mem_cons, List.not_mem_nil, or_false]
            grind
          rw [hsplit, ← hA, eraseIdx_length, List.append_nil] at hvec
          simp only [hgone] at hlookup
          exact ⟨p', hstep, h', indexed_dropLast hindexed hdistinct hsplit hvec hlookup⟩

section Removal

variable {p' : ParamDefs} {A B : List ParamDef} {d : ParamDef} {gone : CStr → Prop}
  [DecidablePred gone] (hsplit : p.vecPDef = A ++ d :: B) (hvec : p'.vecPDef = A ++ B)
  (hlookup : ∀ name, IStringMap.lookup id p'.mapIndexes name =
    if gone name then none else IStringMap.lookup id p.mapIndexes name)
  (hagrees : p.Agrees) (hagrees' : p'.Agrees)

include hlookup

/-- A name keeps its index, or loses it. -/
theorem getIndexByName_removed (name : CStr) : getIndexByName p' name = getIndexByName p name ∨
    gone name ∧ getIndexByName p' name = -1 := by
  rw [getIndexByName, getIndexByName, hlookup]
  split
  · rename_i hgone
    exact Or.inr ⟨hgone, rfl⟩
  · exact Or.inl rfl

include hsplit hvec hagrees'

/-- The name of a removed definition must not be found any more. -/
theorem gone_of_agrees (hdistinct : p.DistinctNames) {name : CStr} (hmem : upperFold name ∈ d.folds)
    (hat : getIndexByName p name = A.length) : gone name := by
  have hnone : getIndexByName p' name = -1 := by
    apply hagrees'.absent
    intro q hq
    rw [hvec] at hq
    exact (hdistinct.split hsplit).2 q hq _ hmem
  rcases getIndexByName_removed hlookup name with heq | ⟨hgone, -⟩
  · omega
  · exact hgone

include hagrees

/-- Behind the removed definition there was none: the last one would be one
    position further up, and be found at neither index. -/
theorem last_of_agrees : B = [] := by
  rcases List.eq_nil_or_concat B with hnil | ⟨C, last, rfl⟩
  · exact hnil
  · have hbefore := (hagrees.found (A.length + 1 + C.length) last (by
      rw [hsplit]
      simp [Nat.add_assoc, Nat.add_comm 1])).1
    have hafter := (hagrees'.found (A.length + C.length) last (by
      rw [hvec]
      simp)).1
    rcases getIndexByName_removed hlookup last.names0 with heq | ⟨-, heq⟩ <;> omega

end Removal

/-- A call after which the table and the index agree was tidy. -/
theorem tidy_of_agrees {p' : ParamDefs} {op : ParamOp} (h : p.Sound) (hroom : p.Room)
    (hdistinct : p.DistinctNames) (hagrees : p.Agrees) (hstep : step compareNoCase p op = some p')
    (hagrees' : p'.Agrees) : op.Tidy compareNoCase p := by
  cases op with
  | addParam => trivial
  | removeParam engDescr rusDescr =>
      intro n hfind
      obtain ⟨u, hstep', -, hvec, hlookup⟩ := removeParam_spec h hroom hfind
      obtain rfl : p' = u := Option.some.inj (hstep.symm.trans hstep')
      have hn : n < p.vecPDef.length := (List.findIdx?_eq_some_iff_getElem.mp hfind).1
      obtain ⟨A, d, B, hsplit, rfl⟩ := exists_split_at hn
      rw [hsplit, eraseIdx_length] at hvec
      constructor
      · obtain rfl := last_of_agrees hsplit hvec hlookup hagrees hagrees'
        rw [size, hsplit, List.length_append, List.length_singleton]
      · obtain ⟨hat0, hat1⟩ := hagrees.found A.length d (by simp [hsplit])
        intro q hq f hf
        obtain rfl : d = q := by simpa [hsplit] using hq
        rcases List.mem_cons.mp hf with rfl | hf
        · exact gone_of_agrees hsplit hvec hlookup hagrees' hdistinct
            (by simp [ParamDef.folds]) hat0
        · obtain rfl := List.mem_singleton.mp hf
          exact gone_of_agrees hsplit hvec hlookup hagrees' hdistinct
            (by simp [ParamDef.folds]) hat1

end ParamDefs

open ParamDefs

/-- Along a run of calls with names that are different from each other at every
    time, the table and the index agree after every call exactly if every call
    that removes a definition removes the last one, with its names. -/
theorem paramDefs_agree_iff (compareNoCase : CStr → CStr → Int) (ops : List ParamOp)
    (hdistinct : ∀ pre p, pre <+: ops → runOps (step compareNoCase) new pre = some p →
      p.DistinctNames)
    (hroom : Along (step compareNoCase) new ops fun _ p _ => p.Room) :
    (∀ pre, pre <+: ops → ∃ p, runOps (step compareNoCase) new pre = some p ∧ p.Agrees) ↔
      Along (step compareNoCase) new ops fun _ p op => op.Tidy compareNoCase p := by
  -- `Sound` and `Indexed` are what tidy calls keep; agreement follows from it
  refine forall_initial_iff_along (I := fun p => p.Sound ∧ p.Indexed)
    ⟨⟨∅, IStringMap.refines_new⟩, indexed_new⟩ (fun p h => agrees_of_indexed h.2) ?_ ?_
  · rintro hist p op rest hops hp ⟨hsound, hindexed⟩ htidy
    have hdistinct' : ∀ p', step compareNoCase p op = some p' → p'.DistinctNames := by
      intro p' hstep
      exact hdistinct (hist ++ [op]) p' ⟨rest, by simp [hops]⟩
        (runOps_snoc_eq_some.mpr ⟨p, hp, hstep⟩)
    exact step_indexed hsound hindexed (hroom hist op rest hops p hp)
      (hdistinct hist p ⟨op :: rest, hops.symm⟩ hp) hdistinct' htidy
  · rintro hist p op rest p' hops hp ⟨hsound, hindexed⟩ hstep hagrees'
    exact tidy_of_agrees hsound (hroom hist op rest hops p hp)
      (hdistinct hist p ⟨op :: rest, hops.symm⟩ hp) (agrees_of_indexed hindexed) hstep hagrees'

/-- A comparison in the upper case of code page 1251. -/
def compareUpper (s t : CStr) : Int := if upperFold s = upperFold t then 0 else 1

/-- Two methods are added, and one of them is removed. -/
def addTwoRemove (engDescr rusDescr : CStr) : List ParamOp :=
  [.addParam (CStr.lit "Count") (CStr.lit "Kolichestvo") (-1) 1 0 false false,
    .addParam (CStr.lit "Get") (CStr.lit "Poluchit") (-1) 1 1 false false,
    .removeParam engDescr rusDescr]

/-- The last of the two methods is removed. -/
theorem paramDefs_agree_iff_lastRemoved :
    ∃ p, runOps (step compareUpper) new
      (addTwoRemove (CStr.lit "get") (CStr.lit "poluchit")) = some p ∧ p.Agrees := by
  have hdistinct : ∀ pre ∈ (addTwoRemove (CStr.lit "get") (CStr.lit "poluchit")).inits,
      ∀ p ∈ runOps (step compareUpper) new pre, p.DistinctNames := by decide
  refine (paramDefs_agree_iff compareUpper _ ?_ ?_).mpr ?_ _ List.prefix_rfl
  · intro pre p hpre hp
    exact hdistinct pre ((List.mem_inits _ _).mpr hpre) p hp
  · exact along_of_forall_take (by decide)
  · exact along_of_forall_take (by decide)

/-- The first of the two methods is removed: the other one is the only
    definition then, and is found at index 1. -/
theorem not_agrees_of_first_removed :
    (∀ pre p, pre <+: addTwoRemove (CStr.lit "Count") (CStr.lit "Kolichestvo") →
      runOps (step compareUpper) new pre = some p → p.DistinctNames) ∧
    ∃ p, runOps (step compareUpper) new
        (addTwoRemove (CStr.lit "Count") (CStr.lit "Kolichestvo")) = some p ∧
      p.size = 1 ∧ findMethod p (CStr.lit "Get") = 1 ∧ ¬ p.Agrees := by
  have hdistinct : ∀ pre ∈ (addTwoRemove (CStr.lit "Count") (CStr.lit "Kolichestvo")).inits,
      ∀ p ∈ runOps (step compareUpper) new pre, p.DistinctNames := by decide
  have hafter : (runOps (step compareUpper) new
      (addTwoRemove (CStr.lit "Count") (CStr.lit "Kolichestvo"))).map
        (fun p => (p.size, findMethod p (CStr.lit "Get"))) = some (1, 1) := by decide
  obtain ⟨p, hrun, heq⟩ := Option.map_eq_some_iff.mp hafter
  obtain ⟨hsize, hfound⟩ := Prod.mk.inj heq
  refine ⟨fun pre p hpre hp => hdistinct pre ((List.mem_inits _ _).mpr hpre) p hp,
    p, hrun, hsize, hfound, ?_⟩
  intro hagrees
  rcases hagrees.inside (CStr.lit "Get") with heq | ⟨i, d, hlt, heq, -⟩
  · omega
  · omega

end Curl1C
