/-
  Curl1C.Dispatch.Policy

  The calls of contextimpl.hpp that go from the number of a method or property
  to its declaration: `meth_pol` and `prop_pol`.

  Which variant of a call is compiled depends on counts taken over the chain of
  declarations (`meth_count`, `some_np`, `rw_count`): where most methods are
  functions, `HasRetVal` looks for the procedures instead; where all methods
  have the same number of parameters, `GetNParams` looks for nothing.  As in
  `Dispatch.Find` a chain is the list of declarations in reverse order, and
  the number of a declaration is the number of those before it.

  The handlers of a declaration are computations in an arbitrary monad, so
  `pure 0` is a call that returns FALSE and runs nothing.

  Main result: `policies_agree`.
-/

import Curl1C.Dispatch.Find

namespace Curl1C

variable {m : Type → Type} {Args Val : Type}

/-! ## Declarations -/

/-- A method: `BL_PROC`, `BL_FUNC` and their variants with default values. -/
structure Method (m : Type → Type) (Args : Type) where
  isFunc : Bool
  nParam : Nat
  isDefVal : Bool
  callProc : Args → m Int
  callFunc : Args → m Int
  getDefVal : Nat → m Int

/-- A property: `BL_PROP_RO`, `BL_PROP_WO`, `BL_PROP_RW`. -/
structure Property (m : Type → Type) (Val : Type) where
  isRead : Bool
  isWrite : Bool
  readProp : m Int
  writeProp : Val → m Int

/-! ## Counts over a chain -/

namespace MetaFunc

/-- The counter of `meth_count` and `rw_count`: how many declarations have a
    flag. -/
def check {α : Type} (flag : α → Bool) : List α → Int
  | [] => 0
  | d :: prev => (flag d).toNat + check flag prev

/-- `meth_count::func`. -/
def func (chain : List (Method m Args)) : Int := check Method.isFunc chain

/-- `meth_count::proc`. -/
def proc (chain : List (Method m Args)) : Int := chain.length - func chain

/-- `rw_count::read`. -/
def read (chain : List (Property m Val)) : Int := check Property.isRead chain

/-- `rw_count::write`. -/
def write (chain : List (Property m Val)) : Int := check Property.isWrite chain

/-- `rw_count::noread`. -/
def noread (chain : List (Property m Val)) : Int := chain.length - read chain

/-- `rw_count::nowrite`. -/
def nowrite (chain : List (Property m Val)) : Int := chain.length - write chain

/-- `some_np`: the number of parameters of all methods, -1 if they differ. -/
def someNp : List (Method m Args) → Int
  | [] => 0
  | [d] => d.nParam
  | d :: e :: prev => if d.nParam = e.nParam then someNp (e :: prev) else -1

end MetaFunc

open MetaFunc

/-! ## The compiled calls -/

/-- The search that the calls share: the first declaration from the end of the
    chain that passes a test and has the number. -/
def searchChain {α β : Type} (test : α → Bool) (dw : Nat) (found : α → β) (dflt : β) :
    List α → β
  | [] => dflt
  | d :: prev =>
      if test d && decide (dw = prev.length) then found d
      else searchChain test dw found dflt prev

namespace MethPol

/-- `policy<TRUE>::HasRetVal`. -/
def hasRetValFuncMin (dwMethod : Nat) (chain : List (Method m Args)) : Bool :=
  searchChain Method.isFunc dwMethod (fun _ => true) false chain

/-- `policy<FALSE>::HasRetVal`. -/
def hasRetValProcMin (dwMethod : Nat) (chain : List (Method m Args)) : Bool :=
  searchChain (fun d => !d.isFunc) dwMethod (fun _ => false) true chain

/-- `meth_pol::HasRetVal`. -/
def hasRetVal (meths : List (Method m Args)) (dwMethod : Nat) : Bool :=
  if func meths.reverse ≤ proc meths.reverse then hasRetValFuncMin dwMethod meths.reverse
  else hasRetValProcMin dwMethod meths.reverse

/-- `nparam<-1>::GetNParams`. -/
def getNParamsSearch (meths : List (Method m Args)) (dwMethod : Nat) : Int :=
  if dwMethod < meths.length then
    searchChain (fun _ => true) dwMethod (fun d => (d.nParam : Int)) (-1) meths.reverse
  else -1

/-- `meth_pol::GetNParams`. -/
def getNParams (meths : List (Method m Args)) (dwMethod : Nat) : Int :=
  if someNp meths.reverse = -1 then getNParamsSearch meths dwMethod else someNp meths.reverse

variable [Monad m]

/-- `meth_pol::GetDefVal`. -/
def getDefVal (meths : List (Method m Args)) (dwMethod dwParam : Nat) : m Int :=
  searchChain (fun d => d.isDefVal && decide (dwParam < d.nParam)) dwMethod
    (fun d => d.getDefVal dwParam) (pure 0) meths.reverse

/-- `meth_pol::CallAsProc`. -/
def callAsProc (meths : List (Method m Args)) (dwMethod : Nat) (ppParams : Args) : m Int :=
  searchChain (fun d => !d.isFunc) dwMethod (fun d => d.callProc ppParams) (pure 0) meths.reverse

/-- `meth_pol::CallAsFunc`. -/
def callAsFunc (meths : List (Method m Args)) (dwMethod : Nat) (ppParams : Args) : m Int :=
  searchChain Method.isFunc dwMethod (fun d => d.callFunc ppParams) (pure 0) meths.reverse

end MethPol

namespace PropPol

/-- `policy<TRUE>`: looks for the declarations with a flag. -/
def isFlagMin (flag : Property m Val → Bool) (dwProp : Nat) (chain : List (Property m Val)) :
    Bool :=
  searchChain flag dwProp (fun _ => true) false chain

/-- `policy<FALSE>`: looks for the declarations without a flag. -/
def isFlagMax (flag : Property m Val → Bool) (dwProp : Nat) (chain : List (Property m Val)) :
    Bool :=
  searchChain (fun d => !flag d) dwProp (fun _ => false) true chain

/-- `policy<TRUE>::IsRead`. -/
def isReadMin (dwProp : Nat) (chain : List (Property m Val)) : Bool :=
  isFlagMin Property.isRead dwProp chain

/-- `policy<FALSE>::IsRead`. -/
def isReadMax (dwProp : Nat) (chain : List (Property m Val)) : Bool :=
  isFlagMax Property.isRead dwProp chain

/-- `policy<TRUE>::IsWrite`. -/
def isWriteMin (dwProp : Nat) (chain : List (Property m Val)) : Bool :=
  isFlagMin Property.isWrite dwProp chain

/-- `policy<FALSE>::IsWrite`. -/
def isWriteMax (dwProp : Nat) (chain : List (Property m Val)) : Bool :=
  isFlagMax Property.isWrite dwProp chain

/-- `prop_pol::IsPropReadable`. -/
def isPropReadable (props : List (Property m Val)) (dwProp : Nat) : Bool :=
  if read props.reverse < noread props.reverse then isReadMin dwProp props.reverse
  else isReadMax dwProp props.reverse

/-- `prop_pol::IsPropWritable`. -/
def isPropWritable (props : List (Property m Val)) (dwProp : Nat) : Bool :=
  if write props.reverse < nowrite props.reverse then isWriteMin dwProp props.reverse
  else isWriteMax dwProp props.reverse

variable [Monad m]

/-- `prop_pol::ReadProp`. -/
def readProp (props : List (Property m Val)) (dwProp : Nat) : m Int :=
  searchChain Property.isRead dwProp Property.readProp (pure 0) props.reverse

/-- `prop_pol::WriteProp`. -/
def writeProp (props : List (Property m Val)) (dwProp : Nat) (val : Val) : m Int :=
  searchChain Property.isWrite dwProp (fun d => d.writeProp val) (pure 0) props.reverse

end PropPol

/-! ## The search meets the declaration with the number -/

/-- A number that is no longer in the chain is not found. -/
theorem searchChain_of_le {α β : Type} {test : α → Bool} {found : α → β} {dflt : β} {dw : Nat}
    {chain : List α} (hdw : chain.length ≤ dw) : searchChain test dw found dflt chain = dflt := by
  induction chain with
  | nil => rfl
  | cons d prev ih =>
      rw [List.length_cons] at hdw
      have hne : ¬ dw = prev.length := by omega
      simp only [searchChain, hne, decide_false, Bool.and_false, Bool.false_eq_true, if_false]
      exact ih (by omega)

/-- The search tests the declaration with the number and no other. -/
theorem searchChain_eq {α β : Type} {test : α → Bool} {found : α → β} {dflt : β} {dw : Nat}
    {chain : List α} {d : α} (hget : chain.reverse[dw]? = some d) :
    searchChain test dw found dflt chain = if test d then found d else dflt := by
  induction chain with
  | nil => simp at hget
  | cons e prev ih =>
      rcases getElem?_reverse_cons.mp hget with hget | ⟨rfl, rfl⟩
      · have hlt := (List.getElem?_eq_some_iff.mp hget).1
        rw [List.length_reverse] at hlt
        have hne : ¬ dw = prev.length := by omega
        simp only [searchChain, hne, decide_false, Bool.and_false, Bool.false_eq_true, if_false]
        exact ih hget
      · simp only [searchChain, decide_true, Bool.and_true]
        split
        · rfl
        · exact searchChain_of_le le_rfl

/-- If the methods have a number of parameters in common, it is that of each. -/
theorem someNp_eq {chain : List (Method m Args)} (hcommon : someNp chain ≠ -1) :
    ∀ d ∈ chain, someNp chain = d.nParam := by
  induction chain using someNp.induct with
  | case1 => simp
  | case2 d => simp [someNp]
  | case3 d e prev heq ih =>
      rw [someNp, if_pos heq] at hcommon ⊢
      have hrest := ih hcommon
      intro f hf
      rcases List.mem_cons.mp hf with rfl | hf
      · rw [hrest e List.mem_cons_self, heq]
      · exact hrest f hf
  | case4 d e prev hne => exact absurd (if_neg hne) hcommon

section Meth

variable {meths : List (Method m Args)} {i : Nat} {d : Method m Args}

/-- Both variants of `HasRetVal` agree, whichever the counts select. -/
theorem MethPol.hasRetVal_eq (hget : meths[i]? = some d) : hasRetVal meths i = d.isFunc := by
  have hchain : meths.reverse.reverse[i]? = some d := by rwa [List.reverse_reverse]
  rw [hasRetVal]
  split
  · rw [hasRetValFuncMin, searchChain_eq hchain]
    cases d.isFunc <;> rfl
  · rw [hasRetValProcMin, searchChain_eq hchain]
    cases d.isFunc <;> rfl

theorem MethPol.getNParams_eq (hget : meths[i]? = some d) : getNParams meths i = d.nParam := by
  rw [getNParams]
  split
  · have hchain : meths.reverse.reverse[i]? = some d := by rwa [List.reverse_reverse]
    rw [getNParamsSearch, if_pos (List.getElem?_eq_some_iff.mp hget).1, searchChain_eq hchain]
    rfl
  · rename_i hcommon
    exact someNp_eq hcommon d (List.mem_reverse.mpr (List.mem_of_getElem? hget))

end Meth

section Access

variable {props : List (Property m Val)} {i : Nat} {d : Property m Val}

theorem PropPol.isFlagMin_eq (hget : props[i]? = some d) (flag : Property m Val → Bool) :
    isFlagMin flag i props.reverse = flag d := by
  rw [isFlagMin, searchChain_eq (by rwa [List.reverse_reverse])]
  cases flag d <;> rfl

theorem PropPol.isFlagMax_eq (hget : props[i]? = some d) (flag : Property m Val → Bool) :
    isFlagMax flag i props.reverse = flag d := by
  rw [isFlagMax, searchChain_eq (by rwa [List.reverse_reverse])]
  cases flag d <;> rfl

end Access

/-! ## Whatever the counts -/

/-- For every list of methods and every list of properties, and so for every
    variant the counts select, a call with the number of a declaration does
    what the declaration says. -/
theorem policies_agree [Monad m] (meths : List (Method m Args)) (props : List (Property m Val)) :
    (∀ i : Fin meths.length,
      MethPol.hasRetVal meths i = meths[i].isFunc ∧
      MethPol.getNParams meths i = meths[i].nParam ∧
      (∀ ppParams, MethPol.callAsProc meths i ppParams =
        if meths[i].isFunc then pure 0 else meths[i].callProc ppParams) ∧
      (∀ ppParams, MethPol.callAsFunc meths i ppParams =
        if meths[i].isFunc then meths[i].callFunc ppParams else pure 0) ∧
      ∀ k, MethPol.getDefVal meths i k =
        if meths[i].isDefVal ∧ k < meths[i].nParam then meths[i].getDefVal k else pure 0) ∧
    (∀ i : Fin props.length,
      PropPol.isPropReadable props i = props[i].isRead ∧
      PropPol.isPropWritable props i = props[i].isWrite ∧
      PropPol.readProp props i = (if props[i].isRead then props[i].readProp else pure 0) ∧
      ∀ val, PropPol.writeProp props i val =
        if props[i].isWrite then props[i].writeProp val else pure 0) := by
  constructor
  · intro i
    have hget : meths[i.1]? = some meths[i] := List.getElem?_eq_getElem i.2
    have hchain : meths.reverse.reverse[i.1]? = some meths[i] := by rwa [List.reverse_reverse]
    refine ⟨MethPol.hasRetVal_eq hget, MethPol.getNParams_eq hget, ?_, ?_, ?_⟩
    · intro ppParams
      rw [MethPol.callAsProc, searchChain_eq hchain]
      cases meths[i].isFunc <;> rfl
    · intro ppParams
      rw [MethPol.callAsFunc, searchChain_eq hchain]
    · intro k
      rw [MethPol.getDefVal, searchChain_eq hchain]
      simp only [Bool.and_eq_true, decide_eq_true_eq]
  · intro i
    have hget : props[i.1]? = some props[i] := List.getElem?_eq_getElem i.2
    have hchain : props.reverse.reverse[i.1]? = some props[i] := by rwa [List.reverse_reverse]
    refine ⟨?_, ?_, ?_, ?_⟩
    · rw [PropPol.isPropReadable, PropPol.isReadMin, PropPol.isReadMax,
        PropPol.isFlagMin_eq hget, PropPol.isFlagMax_eq hget, ite_self]
    · rw [PropPol.isPropWritable, PropPol.isWriteMin, PropPol.isWriteMax,
        PropPol.isFlagMin_eq hget, PropPol.isFlagMax_eq hget, ite_self]
    · rw [PropPol.readProp, searchChain_eq hchain]
    · intro val
      rw [PropPol.writeProp, searchChain_eq hchain]

end Curl1C
