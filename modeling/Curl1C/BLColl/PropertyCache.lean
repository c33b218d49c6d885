/-
  Curl1C.BLColl.PropertyCache

  `CParamDefs::GetIndexPropetry` of ParamDefs.h: the index of the procedure of a
  module that handles a property, through a cache of earlier answers.

  A handler has a Russian or an English name; the Russian one is searched first.
  The cache is asked for the Russian name and then for the English one, but at
  that point `strNamePropEng` is only what the name starts with, "OnWrite_" or
  "OnGet_".  That is the key of an entry only if the handler of the property
  without a name was searched before, and found under its English name.  From
  then on the entry answers for every property whose Russian name is not in the
  cache.

  So the order of the calls decides what is found: `Stored` says which answers are
  in the cache under a Russian name, `BareFound` when the entry of the property
  without a name is there.  The cache holds exactly these (`Cached`), and a call
  returns what it would search for unless it is `Shadowed`.

  Main result: `getIndexPropetry_transparent_iff`.
-/

import Curl1C.BLColl.ParamDefs

namespace Curl1C

open Lib

/-- A call of a client. -/
structure PropertyQuery where
  strNameProp : CStr
  isSet : Bool

namespace PropertyCache

/-- What the Russian name of a handler starts with. -/
def strNamePropRus (isSet : Bool) : CStr :=
  if isSet then CStr.ansi "ПриЗаписи_" else CStr.ansi "ПриПолучении_"

/-- What the English name of a handler starts with. -/
def strNamePropEng (isSet : Bool) : CStr :=
  if isSet then CStr.lit "OnWrite_" else CStr.lit "OnGet_"

variable (findProc : CStr → Int → Int)

/-- `GetIndexPropetry` on `mapIndOfProperty`, for a module with the given
    `FindProc`. -/
def getIndexPropetry (m : IStringMap CStr Int) (strNameProp : CStr) (isSet : Bool) :
    Option (IStringMap CStr Int × Int) :=
  let rus := strNamePropRus isSet ++ strNameProp
  match IStringMap.lookup id m rus with
  | some iProc => some (m, iProc)
  | none =>
      -- the name of the property is not appended yet
      match IStringMap.lookup id m (strNamePropEng isSet) with
      | some iProc => some (m, iProc)
      | none =>
          let iProc := findProc rus 0
          if iProc = -1 then
            let eng := strNamePropEng isSet ++ strNameProp
            let iProc := findProc eng 1
            if iProc = -1 then (IStringMap.setAt id m rus iProc).map fun m => (m, iProc)
            else (IStringMap.setAt id m eng iProc).map fun m => (m, iProc)
          else (IStringMap.setAt id m rus iProc).map fun m => (m, iProc)

/-- The calls of a client from an empty cache, with what they return. -/
def run (calls : List PropertyQuery) : Option (IStringMap CStr Int × List Int) :=
  replyRun (fun m q => getIndexPropetry findProc m q.strNameProp q.isSet) IStringMap.new calls

end PropertyCache

namespace PropertyQuery

open PropertyCache

/-- The Russian name of the handler. -/
def rus (q : PropertyQuery) : CStr := strNamePropRus q.isSet ++ q.strNameProp

/-- The English name of the handler. -/
def eng (q : PropertyQuery) : CStr := strNamePropEng q.isSet ++ q.strNameProp

/-- What a search without a cache returns. -/
def searched (findProc : CStr → Int → Int) (q : PropertyQuery) : Int :=
  if findProc q.rus 0 = -1 then findProc q.eng 1 else findProc q.rus 0

/-- The name under which the answer is stored. -/
def storedAs (findProc : CStr → Int → Int) (q : PropertyQuery) : CStr :=
  if findProc q.rus 0 = -1 ∧ findProc q.eng 1 ≠ -1 then q.eng else q.rus

/-- The handler has its English name. -/
def InEnglish (findProc : CStr → Int → Int) (q : PropertyQuery) : Prop :=
  findProc q.rus 0 = -1 ∧ findProc q.eng 1 ≠ -1

/-- Two calls that ask for one handler. -/
def Same (q r : PropertyQuery) : Prop :=
  q.isSet = r.isSet ∧ upperFold q.strNameProp = upperFold r.strNameProp

end PropertyQuery

namespace PropertyCache

variable (findProc : CStr → Int → Int)

/-- The module has a handler for the property without a name, under its English
    name only. -/
def BareEnglish (isSet : Bool) : Prop :=
  findProc (strNamePropRus isSet) 0 = -1 ∧ findProc (strNamePropEng isSet) 1 ≠ -1

/-- The handler of the property without a name was found in English. -/
def BareFound (calls : List PropertyQuery) (isSet : Bool) : Prop :=
  BareEnglish findProc isSet ∧ ⟨CStr.empty, isSet⟩ ∈ calls

/-- The answer to a call is in the cache under a Russian name: it was not found in
    English, and it was asked for before the property without a name was found. -/
def Stored (calls : List PropertyQuery) (q : PropertyQuery) : Prop :=
  ¬ q.InEnglish findProc ∧
    ∃ pre r, pre ++ [r] <+: calls ∧ r.Same q ∧ ¬ BareFound findProc pre q.isSet

/-- The entry of the property without a name answers for another call. -/
def Shadowed (calls : List PropertyQuery) (q : PropertyQuery) : Prop :=
  BareFound findProc calls q.isSet ∧ ¬ Stored findProc calls q

/-- The cache has room at every call. -/
def InRoom (calls : List PropertyQuery) : Prop :=
  ∀ pre, pre <+: calls → ∀ m answers, run findProc pre = some (m, answers) →
    IStringMap.getCount m < 2 ^ 28

/-! ## Names of handlers -/

/-- None of the four beginnings is the beginning of another. -/
theorem strNameProp_apart : ∀ a b : Bool,
    (upperFold (strNamePropRus a) <+: upperFold (strNamePropRus b) → a = b) ∧
    (upperFold (strNamePropEng a) <+: upperFold (strNamePropEng b) → a = b) ∧
    ¬ upperFold (strNamePropRus a) <+: upperFold (strNamePropEng b) ∧
    ¬ upperFold (strNamePropEng b) <+: upperFold (strNamePropRus a) := by
  decide

/-- Names that start differently are different, and names that start the same
    are as different as their ends. -/
theorem append_inj_of_apart {start : Bool → CStr}
    (hapart : ∀ a b, upperFold (start a) <+: upperFold (start b) → a = b) {a b : Bool} {s t : CStr}
    (h : upperFold (start a ++ s) = upperFold (start b ++ t)) :
    a = b ∧ upperFold s = upperFold t := by
  rw [upperFold_append, upperFold_append] at h
  have hab : a = b := by
    rcases List.append_eq_append_iff.mp h with ⟨rest, hrest, -⟩ | ⟨rest, hrest, -⟩
    · exact hapart a b ⟨rest, hrest.symm⟩
    · exact (hapart b a ⟨rest, hrest.symm⟩).symm
  rw [hab] at h
  exact ⟨hab, List.append_cancel_left h⟩

variable {q r : PropertyQuery}

theorem upperFold_rus_iff : upperFold q.rus = upperFold r.rus ↔ q.Same r := by
  constructor
  · exact append_inj_of_apart fun a b => (strNameProp_apart a b).1
  · rintro ⟨hset, hname⟩
    rw [PropertyQuery.rus, PropertyQuery.rus, upperFold_append, upperFold_append, hset, hname]

theorem upperFold_eng_iff : upperFold q.eng = upperFold r.eng ↔ q.Same r := by
  constructor
  · exact append_inj_of_apart fun a b => (strNameProp_apart a b).2.1
  · rintro ⟨hset, hname⟩
    rw [PropertyQuery.eng, PropertyQuery.eng, upperFold_append, upperFold_append, hset, hname]

theorem rus_ne_eng (q r : PropertyQuery) : upperFold q.rus ≠ upperFold r.eng := by
  intro h
  rw [PropertyQuery.rus, PropertyQuery.eng, upperFold_append, upperFold_append] at h
  obtain ⟨-, -, hrus, heng⟩ := strNameProp_apart q.isSet r.isSet
  rcases List.append_eq_append_iff.mp h with ⟨rest, hrest, -⟩ | ⟨rest, hrest, -⟩
  · exact hrus ⟨rest, hrest.symm⟩
  · exact heng ⟨rest, hrest.symm⟩

/-- The key under which the cache is asked for the English name. -/
theorem eng_empty (isSet : Bool) :
    PropertyQuery.eng ⟨CStr.empty, isSet⟩ = strNamePropEng isSet := CStr.append_empty _

theorem rus_empty (isSet : Bool) :
    PropertyQuery.rus ⟨CStr.empty, isSet⟩ = strNamePropRus isSet := CStr.append_empty _

theorem same_empty_iff {isSet : Bool} :
    q.Same ⟨CStr.empty, isSet⟩ ↔ q = ⟨CStr.empty, isSet⟩ := by
  constructor
  · rcases q with ⟨name, isSet'⟩
    rintro ⟨rfl, hname⟩
    obtain rfl : name = CStr.empty := CStr.ext (List.map_eq_nil_iff.mp hname)
    rfl
  · rintro rfl
    exact ⟨rfl, rfl⟩

variable {findProc}

theorem inEnglish_empty_iff {isSet : Bool} :
    PropertyQuery.InEnglish findProc ⟨CStr.empty, isSet⟩ ↔ BareEnglish findProc isSet := by
  rw [PropertyQuery.InEnglish, rus_empty, eng_empty, BareEnglish]

/-- `FindProc` ignores the case of names. -/
def IgnoresCase (findProc : CStr → Int → Int) : Prop :=
  ∀ s t a, upperFold s = upperFold t → findProc s a = findProc t a

/-- Calls for one handler search alike. -/
theorem findProc_congr (hcase : IgnoresCase findProc) (hsame : q.Same r) :
    findProc q.rus 0 = findProc r.rus 0 ∧ findProc q.eng 1 = findProc r.eng 1 :=
  ⟨hcase _ _ 0 (upperFold_rus_iff.mpr hsame), hcase _ _ 1 (upperFold_eng_iff.mpr hsame)⟩

theorem searched_congr (hcase : IgnoresCase findProc) (hsame : q.Same r) :
    q.searched findProc = r.searched findProc := by
  obtain ⟨hrus, heng⟩ := findProc_congr hcase hsame
  rw [PropertyQuery.searched, PropertyQuery.searched, hrus, heng]

theorem inEnglish_congr (hcase : IgnoresCase findProc) (hsame : q.Same r) :
    q.InEnglish findProc ↔ r.InEnglish findProc := by
  obtain ⟨hrus, heng⟩ := findProc_congr hcase hsame
  rw [PropertyQuery.InEnglish, PropertyQuery.InEnglish, hrus, heng]

theorem storedAs_of_inEnglish (h : q.InEnglish findProc) : q.storedAs findProc = q.eng := if_pos h

theorem storedAs_of_not_inEnglish (h : ¬ q.InEnglish findProc) : q.storedAs findProc = q.rus :=
  if_neg h

/-- A Russian name finds what calls for the same handler stored under it. -/
theorem rus_storedAs_iff (hcase : IgnoresCase findProc) :
    upperFold q.rus = upperFold (r.storedAs findProc) ↔ r.Same q ∧ ¬ q.InEnglish findProc := by
  by_cases heng : r.InEnglish findProc
  · rw [storedAs_of_inEnglish heng]
    refine iff_of_false (rus_ne_eng q r) ?_
    rintro ⟨hsame, hnot⟩
    exact hnot ((inEnglish_congr hcase hsame).mp heng)
  · rw [storedAs_of_not_inEnglish heng, eq_comm, upperFold_rus_iff]
    exact ⟨fun hsame => ⟨hsame, mt (inEnglish_congr hcase hsame).mpr heng⟩, And.left⟩

/-- The beginning of the English names finds what the property without a name
    stored under it. -/
theorem eng_storedAs_iff {isSet : Bool} :
    upperFold (strNamePropEng isSet) = upperFold (r.storedAs findProc) ↔
      r = ⟨CStr.empty, isSet⟩ ∧ BareEnglish findProc isSet := by
  rw [← eng_empty]
  by_cases heng : r.InEnglish findProc
  · rw [storedAs_of_inEnglish heng, eq_comm, upperFold_eng_iff, same_empty_iff]
    refine ⟨fun hr => ⟨hr, ?_⟩, And.left⟩
    rw [hr] at heng
    exact inEnglish_empty_iff.mp heng
  · rw [storedAs_of_not_inEnglish heng]
    refine iff_of_false (rus_ne_eng r _).symm ?_
    rintro ⟨rfl, hbare⟩
    exact heng (inEnglish_empty_iff.mpr hbare)

/-! ## One call more -/

variable {calls : List PropertyQuery}

theorem bareFound_snoc {isSet : Bool} :
    BareFound findProc (calls ++ [r]) isSet ↔
      BareFound findProc calls isSet ∨ r = ⟨CStr.empty, isSet⟩ ∧ BareEnglish findProc isSet := by
  rw [BareFound, BareFound, List.mem_append, List.mem_singleton, @eq_comm _ r]
  tauto

theorem stored_snoc :
    Stored findProc (calls ++ [r]) q ↔ Stored findProc calls q ∨
      ¬ q.InEnglish findProc ∧ r.Same q ∧ ¬ BareFound findProc calls q.isSet := by
  constructor
  · rintro ⟨heng, pre, r', hpre, hsame, hbare⟩
    rcases List.prefix_concat_iff.mp hpre with hlast | hpre
    · obtain ⟨rfl, hr⟩ := List.append_inj' hlast rfl
      cases hr
      exact Or.inr ⟨heng, hsame, hbare⟩
    · exact Or.inl ⟨heng, pre, r', hpre, hsame, hbare⟩
  · rintro (⟨heng, pre, r', hpre, hsame, hbare⟩ | ⟨heng, hsame, hbare⟩)
    · exact ⟨heng, pre, r', hpre.trans (List.prefix_append calls [r]), hsame, hbare⟩
    · exact ⟨heng, calls, r, List.prefix_refl _, hsame, hbare⟩

theorem not_stored_nil : ¬ Stored findProc [] q := by
  rintro ⟨-, pre, r, hpre, -⟩
  exact absurd (List.prefix_nil.mp hpre) (by simp)

/-- A call that the cache answers changes nothing that is stored. -/
theorem stored_snoc_of_known
    (hknown : Stored findProc calls r ∨ BareFound findProc calls r.isSet) :
    Stored findProc (calls ++ [r]) q ↔ Stored findProc calls q := by
  rw [stored_snoc, or_iff_left_iff_imp]
  rintro ⟨heng, hsame, hbare⟩
  -- what the call would store is there already, or it is answered by the other entry
  rcases hknown with ⟨-, pre, r', hpre, hsame', hbare'⟩ | hfound
  · exact ⟨heng, pre, r', hpre, ⟨hsame'.1.trans hsame.1, hsame'.2.trans hsame.2⟩, hsame.1 ▸ hbare'⟩
  · exact absurd (hsame.1 ▸ hfound) hbare

theorem bareFound_snoc_of_known
    (hknown : Stored findProc calls r ∨ BareFound findProc calls r.isSet) {isSet : Bool} :
    BareFound findProc (calls ++ [r]) isSet ↔ BareFound findProc calls isSet := by
  rw [bareFound_snoc, or_iff_left_iff_imp]
  rintro ⟨rfl, hbare⟩
  rcases hknown with ⟨heng, -⟩ | hfound
  · exact absurd (inEnglish_empty_iff.mpr hbare) heng
  · exact hfound

/-! ## What the cache holds -/

variable (findProc calls)

/-- The cache is a proper map, and under the names it is asked for it has the
    answers that are stored. -/
structure Cached (m : IStringMap CStr Int) (d : IStringMap.Bindings CStr Int) : Prop where
  map : IStringMap.Refines id m d
  rus : ∀ (q : PropertyQuery) iProc, IStringMap.lookup id m q.rus = some iProc ↔
    Stored findProc calls q ∧ q.searched findProc = iProc
  eng : ∀ isSet iProc, IStringMap.lookup id m (strNamePropEng isSet) = some iProc ↔
    BareFound findProc calls isSet ∧ findProc (strNamePropEng isSet) 1 = iProc

theorem lookup_new (key : CStr) :
    IStringMap.lookup id (IStringMap.new : IStringMap CStr Int) key = none := rfl

theorem cached_new : Cached findProc [] IStringMap.new ∅ where
  map := IStringMap.refines_new
  rus := by
    intro q iProc
    rw [lookup_new]
    exact iff_of_false (Option.some_ne_none iProc).symm fun h => not_stored_nil h.1
  eng := by
    intro isSet iProc
    rw [lookup_new]
    exact iff_of_false (Option.some_ne_none iProc).symm fun h => List.not_mem_nil h.1.2

variable {findProc calls} {m : IStringMap CStr Int} {d : IStringMap.Bindings CStr Int}

theorem Cached.lookup_rus (h : Cached findProc calls m d) (hstored : Stored findProc calls q) :
    IStringMap.lookup id m q.rus = some (q.searched findProc) :=
  (h.rus q _).mpr ⟨hstored, rfl⟩

theorem Cached.lookup_rus_none (h : Cached findProc calls m d)
    (hstored : ¬ Stored findProc calls q) : IStringMap.lookup id m q.rus = none :=
  Option.eq_none_iff_forall_ne_some.mpr fun iProc hfound => hstored ((h.rus q iProc).mp hfound).1

theorem Cached.lookup_eng (h : Cached findProc calls m d) {isSet : Bool}
    (hbare : BareFound findProc calls isSet) :
    IStringMap.lookup id m (strNamePropEng isSet) = some (findProc (strNamePropEng isSet) 1) :=
  (h.eng isSet _).mpr ⟨hbare, rfl⟩

theorem Cached.lookup_eng_none (h : Cached findProc calls m d) {isSet : Bool}
    (hbare : ¬ BareFound findProc calls isSet) :
    IStringMap.lookup id m (strNamePropEng isSet) = none :=
  Option.eq_none_iff_forall_ne_some.mpr fun iProc hfound => hbare ((h.eng isSet iProc).mp hfound).1

/-- A call that the cache answers leaves it as it is. -/
theorem Cached.snoc_of_known (h : Cached findProc calls m d)
    (hknown : Stored findProc calls q ∨ BareFound findProc calls q.isSet) :
    Cached findProc (calls ++ [q]) m d where
  map := h.map
  rus := by
    intro r iProc
    rw [stored_snoc_of_known hknown]
    exact h.rus r iProc
  eng := by
    intro isSet iProc
    rw [bareFound_snoc_of_known hknown]
    exact h.eng isSet iProc

/-- Any other call stores its answer. -/
theorem Cached.setAt (h : Cached findProc calls m d) (hcase : IgnoresCase findProc)
    (hbare : ¬ BareFound findProc calls q.isSet) (hroom : d.count < 2 ^ 28) :
    ∃ m' d', IStringMap.setAt id m (q.storedAs findProc) (q.searched findProc) = some m' ∧
      Cached findProc (calls ++ [q]) m' d' ∧ d'.count ≤ d.count + 1 := by
  obtain ⟨m', d', hset, h', hcount, hlookup⟩ :=
    ParamDefs.setAt_lookup h.map (q.storedAs findProc) (q.searched findProc) hroom
  refine ⟨m', d', hset, ⟨h', ?_, ?_⟩, hcount⟩
  -- the new key is found by calls for the same handler, or it is the bare English one
  · intro r iProc
    rw [hlookup]
    by_cases hkey : upperFold r.rus = upperFold (q.storedAs findProc)
    · obtain ⟨hsame, heng⟩ := (rus_storedAs_iff hcase).mp hkey
      have hstored : Stored findProc (calls ++ [q]) r :=
        stored_snoc.mpr (Or.inr ⟨heng, hsame, hsame.1 ▸ hbare⟩)
      rw [if_pos hkey, Option.some.injEq, searched_congr hcase hsame]
      exact (and_iff_right hstored).symm
    · have hsnoc : Stored findProc (calls ++ [q]) r ↔ Stored findProc calls r := by
        rw [stored_snoc, or_iff_left_iff_imp]
        rintro ⟨heng, hsame, -⟩
        exact absurd ((rus_storedAs_iff hcase).mpr ⟨hsame, heng⟩) hkey
      rw [if_neg hkey, hsnoc]
      exact h.rus r iProc
  · intro isSet iProc
    rw [hlookup]
    by_cases hkey : upperFold (strNamePropEng isSet) = upperFold (q.storedAs findProc)
    · obtain ⟨rfl, hb⟩ := eng_storedAs_iff.mp hkey
      have hsearched : PropertyQuery.searched findProc ⟨CStr.empty, isSet⟩ =
          findProc (strNamePropEng isSet) 1 := by
        rw [PropertyQuery.searched, rus_empty, eng_empty, if_pos hb.1]
      rw [if_pos hkey, Option.some.injEq, hsearched]
      exact (and_iff_right (bareFound_snoc.mpr (Or.inr ⟨rfl, hb⟩))).symm
    · have hsnoc : BareFound findProc (calls ++ [q]) isSet ↔ BareFound findProc calls isSet := by
        rw [bareFound_snoc, or_iff_left_iff_imp]
        exact fun hempty => absurd (eng_storedAs_iff.mpr hempty) hkey
      rw [if_neg hkey, hsnoc]
      exact h.eng isSet iProc

/-! ## What a call returns -/

/-- What a call returns: what it searches for, unless the entry of the property
    without a name answers for it. -/
def Returns (findProc : CStr → Int → Int) (calls : List PropertyQuery) (q : PropertyQuery)
    (iProc : Int) : Prop :=
  (Shadowed findProc calls q → iProc = findProc (strNamePropEng q.isSet) 1) ∧
    (¬ Shadowed findProc calls q → iProc = q.searched findProc)

/-- A call that searches stores what it finds. -/
theorem getIndexPropetry_of_lookup_none (hrus : IStringMap.lookup id m q.rus = none)
    (heng : IStringMap.lookup id m (strNamePropEng q.isSet) = none) :
    getIndexPropetry findProc m q.strNameProp q.isSet =
      (IStringMap.setAt id m (q.storedAs findProc) (q.searched findProc)).map
        fun m => (m, q.searched findProc) := by
  rw [PropertyQuery.rus] at hrus
  simp only [getIndexPropetry, hrus, heng, PropertyQuery.storedAs, PropertyQuery.searched,
    PropertyQuery.rus, PropertyQuery.eng]
  split_ifs
  all_goals simp_all

theorem getIndexPropetry_spec (h : Cached findProc calls m d) (hcase : IgnoresCase findProc)
    (q : PropertyQuery) (hroom : d.count < 2 ^ 28) :
    ∃ m' d' iProc, getIndexPropetry findProc m q.strNameProp q.isSet = some (m', iProc) ∧
      Cached findProc (calls ++ [q]) m' d' ∧ d'.count ≤ d.count + 1 ∧
      Returns findProc calls q iProc := by
  by_cases hstored : Stored findProc calls q
  -- the Russian name is in the cache
  · refine ⟨m, d, q.searched findProc, ?_, h.snoc_of_known (Or.inl hstored), by omega,
      fun hshadowed => absurd hstored hshadowed.2, fun _ => rfl⟩
    have hrus := h.lookup_rus hstored
    rw [PropertyQuery.rus] at hrus
    simp only [getIndexPropetry, hrus]
  · have hrus := h.lookup_rus_none hstored
    by_cases hbare : BareFound findProc calls q.isSet
    -- the second lookup finds the entry of the property without a name
    · refine ⟨m, d, findProc (strNamePropEng q.isSet) 1, ?_,
        h.snoc_of_known (Or.inr hbare), by omega,
        fun _ => rfl, fun hnot => absurd ⟨hbare, hstored⟩ hnot⟩
      rw [PropertyQuery.rus] at hrus
      simp only [getIndexPropetry, hrus, h.lookup_eng hbare]
    -- the module is searched
    · obtain ⟨m', d', hset, h', hcount⟩ := h.setAt hcase hbare hroom
      refine ⟨m', d', q.searched findProc, ?_, h', hcount,
        fun hshadowed => absurd hshadowed.1 hbare, fun _ => rfl⟩
      rw [getIndexPropetry_of_lookup_none hrus (h.lookup_eng_none hbare), hset]
      rfl

theorem Returns.eq_searched_iff {iProc : Int} (h : Returns findProc calls q iProc) :
    iProc = q.searched findProc ↔
      (Shadowed findProc calls q → q.searched findProc = findProc (strNamePropEng q.isSet) 1) := by
  by_cases hshadowed : Shadowed findProc calls q
  · rw [h.1 hshadowed, eq_comm]
    exact ⟨fun heq _ => heq, fun himp => himp hshadowed⟩
  · exact iff_of_true (h.2 hshadowed) fun hyes => absurd hyes hshadowed

/-! ## Runs -/

/-- Where a call gets the entry of the property without a name, this is its own
    answer. -/
def Transparent (findProc : CStr → Int → Int) (calls : List PropertyQuery) : Prop :=
  ∀ pre q, pre ++ [q] <+: calls → Shadowed findProc pre q →
    q.searched findProc = findProc (strNamePropEng q.isSet) 1

theorem transparent_snoc :
    Transparent findProc (calls ++ [q]) ↔ Transparent findProc calls ∧
      (Shadowed findProc calls q → q.searched findProc = findProc (strNamePropEng q.isSet) 1) := by
  constructor
  · intro h
    exact ⟨fun pre r hpre => h pre r (hpre.trans (List.prefix_append calls [q])),
      h calls q (List.prefix_refl _)⟩
  · rintro ⟨hcalls, hlast⟩ pre r hpre
    rcases List.prefix_concat_iff.mp hpre with heq | hpre
    · obtain ⟨rfl, hr⟩ := List.append_inj' heq rfl
      cases hr
      exact hlast
    · exact hcalls pre r hpre

theorem run_spec (hcase : IgnoresCase findProc) {calls : List PropertyQuery}
    (hroom : InRoom findProc calls ∨ calls.length ≤ 2 ^ 28) :
    ∃ m d answers, run findProc calls = some (m, answers) ∧ Cached findProc calls m d ∧
      d.count ≤ calls.length ∧
      (answers = calls.map (PropertyQuery.searched findProc) ↔ Transparent findProc calls) := by
  -- on the last call; the room of a run is that of every shorter one
  induction calls using List.reverseRecOn with
  | nil =>
      refine ⟨_, ∅, [], rfl, cached_new findProc, Nat.le_refl 0, iff_of_true rfl ?_⟩
      intro pre q hpre
      exact absurd (List.prefix_nil.mp hpre) (by simp)
  | append_singleton calls q ih =>
      rw [List.length_append, List.length_singleton] at hroom ⊢
      obtain ⟨m, d, answers, hrun, h, hcount, hanswers⟩ := ih
        (hroom.imp (fun hin pre hpre => hin pre (hpre.trans (List.prefix_append calls [q])))
          fun hlen => by omega)
      have hsmall : d.count < 2 ^ 28 := by
        rcases hroom with hin | hlen
        · rw [← h.map.count]
          exact hin calls (List.prefix_append calls [q]) m answers hrun
        · omega
      obtain ⟨m', d', iProc, hcall, h', hcount', hanswer⟩ := getIndexPropetry_spec h hcase q hsmall
      refine ⟨m', d', answers ++ [iProc], replyRun_snoc hrun hcall, h', by omega, ?_⟩
      rw [transparent_snoc, ← hanswers, ← hanswer.eq_searched_iff, List.map_append,
        List.map_singleton]
      exact ⟨fun heq => (List.append_inj' heq rfl).imp_right List.singleton_inj.mp,
        fun ⟨hfront, hlast⟩ => by rw [hfront, hlast]⟩

/-- Each call adds at most one name to the cache. -/
theorem inRoom_of_length (hcase : IgnoresCase findProc) {calls : List PropertyQuery}
    (hlen : calls.length < 2 ^ 28) : InRoom findProc calls := by
  intro pre hpre m answers hrun
  have hle := hpre.length_le
  obtain ⟨m', d, answers', hrun', h, hcount, -⟩ := run_spec hcase (Or.inr (by omega : pre.length ≤ _))
  cases hrun.symm.trans hrun'
  have hexact : IStringMap.getCount m = d.count := h.map.count
  omega

/-- The calls of a client are answered as without a cache exactly if the entry of
    the property without a name does no harm. -/
theorem run_eq_searched_iff (hcase : IgnoresCase findProc) {calls : List PropertyQuery}
    (hroom : InRoom findProc calls) :
    (run findProc calls).map Prod.snd = some (calls.map (PropertyQuery.searched findProc)) ↔
      Transparent findProc calls := by
  obtain ⟨m, d, answers, hrun, -, -, hanswers⟩ := run_spec hcase (Or.inl hroom)
  rw [hrun, Option.map_some, Option.some.injEq, hanswers]

/-- After the property without a name was found in English, its entry answers for
    every property. -/
theorem shadowed_of_bareEnglish (hcase : IgnoresCase findProc) {isSet : Bool}
    (hbare : BareEnglish findProc isSet) (name : CStr) :
    Shadowed findProc [⟨CStr.empty, isSet⟩] ⟨name, isSet⟩ := by
  refine ⟨⟨hbare, List.mem_singleton_self _⟩, ?_⟩
  rw [← List.nil_append [_], stored_snoc]
  rintro (hnil | ⟨heng, hsame, -⟩)
  · exact not_stored_nil hnil
  · exact heng ((inEnglish_congr hcase hsame).mp (inEnglish_empty_iff.mpr hbare))

end PropertyCache

open PropertyCache

/-- The cache of handlers is transparent for a sequence of calls exactly if no
    call gets the entry of the property without a name, which the module has an
    English handler of only, or if those that do have the index of that handler.
    It is transparent for whatever a client asks for exactly if the client never
    asks for the property without a name where that is so, or if everything it asks
    for has the index of that handler. -/
theorem getIndexPropetry_transparent_iff (findProc : CStr → Int → Int)
    (hcase : IgnoresCase findProc) :
    (∀ calls, InRoom findProc calls →
      ((PropertyCache.run findProc calls).map Prod.snd =
          some (calls.map (PropertyQuery.searched findProc)) ↔
        ∀ pre q, pre ++ [q] <+: calls → Shadowed findProc pre q →
          q.searched findProc = findProc (strNamePropEng q.isSet) 1)) ∧
    ∀ asked : PropertyQuery → Prop,
      (∀ calls, (∀ q ∈ calls, asked q) → InRoom findProc calls →
        (PropertyCache.run findProc calls).map Prod.snd =
          some (calls.map (PropertyQuery.searched findProc))) ↔
      ∀ isSet, asked ⟨CStr.empty, isSet⟩ → BareEnglish findProc isSet →
        ∀ name, asked ⟨name, isSet⟩ →
          PropertyQuery.searched findProc ⟨name, isSet⟩ = findProc (strNamePropEng isSet) 1 := by
  refine ⟨fun calls hroom => run_eq_searched_iff hcase hroom, fun asked => ⟨?_, ?_⟩⟩
  · intro htransparent isSet hempty hbare name hname
    have hroom : InRoom findProc [⟨CStr.empty, isSet⟩, ⟨name, isSet⟩] :=
      inRoom_of_length hcase (by simp)
    have hcalls := (run_eq_searched_iff hcase hroom).mp
      (htransparent _ (by simp [hempty, hname]) hroom)
    exact hcalls [⟨CStr.empty, isSet⟩] ⟨name, isSet⟩ (List.prefix_refl _)
      (shadowed_of_bareEnglish hcase hbare name)
  · intro hbare calls hasked hroom
    refine (run_eq_searched_iff hcase hroom).mpr ?_
    rintro pre q hpre ⟨⟨hb, hempty⟩, -⟩
    exact hbare q.isSet (hasked _ (hpre.subset (List.mem_append_left [q] hempty))) hb
      q.strNameProp (hasked q (hpre.subset (by simp)))

/-- A module whose only procedure has the given name, at index 0. -/
def soleProc (name : CStr) (szName : CStr) (_ : Int) : Int :=
  if upperFold szName = upperFold name then 0 else -1

theorem soleProc_ignoresCase (name : CStr) : IgnoresCase (soleProc name) := by
  intro s t a hst
  rw [soleProc, soleProc, hst]

/-- A handler that is found in English is found again, in any case. -/
theorem getIndexPropetry_transparent_iff_english :
    (PropertyCache.run (soleProc (CStr.lit "OnGet_x"))
      [⟨CStr.lit "x", false⟩, ⟨CStr.lit "y", false⟩, ⟨CStr.lit "X", false⟩,
        ⟨CStr.lit "X", true⟩]).map Prod.snd = some [0, -1, 0, -1] := by
  have hcase := soleProc_ignoresCase (CStr.lit "OnGet_x")
  obtain ⟨-, hasked⟩ := getIndexPropetry_transparent_iff (soleProc (CStr.lit "OnGet_x")) hcase
  exact (hasked fun q => q.strNameProp ≠ CStr.empty).mpr (fun _ hempty => absurd rfl hempty)
    [⟨CStr.lit "x", false⟩, ⟨CStr.lit "y", false⟩, ⟨CStr.lit "X", false⟩, ⟨CStr.lit "X", true⟩]
    (by decide) (inRoom_of_length hcase (by decide))

/-- A property that was asked for before the one without a name keeps its answer. -/
example :
    (PropertyCache.run (soleProc (CStr.lit "OnGet_"))
      [⟨CStr.lit "x", false⟩, ⟨CStr.empty, false⟩, ⟨CStr.lit "X", false⟩,
        ⟨CStr.lit "y", false⟩]).map Prod.snd = some [-1, 0, -1, 0] := by
  decide

/-- The handler "OnGet_" of the property without a name becomes the one of
    every property after it was asked for. -/
theorem not_transparent_of_bareEnglish :
    (PropertyCache.run (soleProc (CStr.lit "OnGet_"))
      [⟨CStr.empty, false⟩, ⟨CStr.lit "x", false⟩]).map Prod.snd = some [0, 0] ∧
    [(⟨CStr.empty, false⟩ : PropertyQuery), ⟨CStr.lit "x", false⟩].map
      (PropertyQuery.searched (soleProc (CStr.lit "OnGet_"))) = [0, -1] := by
  decide

end Curl1C
