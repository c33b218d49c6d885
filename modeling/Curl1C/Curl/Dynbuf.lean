/-
  Curl1C.Curl.Dynbuf

  The growing buffers of libcurl (dynbuf.c), in which `curl_easy_escape` and the
  header generator of the mime code build their results.

  The block behind `bufr` is modelled with its bytes, so that a store outside of
  it, or through a NULL pointer, is a step that does not come back.  What the
  bytes behind the terminator hold is up to the allocator.

  Main results: `addn_spec` says what appending does, and `dynbuf_keeps_content`
  what any sequence of operations does, whenever memory may run out.
-/

import Curl1C.Base64.Script
import Curl1C.Curl.Option
import Curl1C.Lib.Loop
import Curl1C.Lib.Run

namespace Curl1C.Dyn

open Lib

/-! ## The buffer -/

/-- `realloc`: the block has the size asked for and keeps its bytes; new bytes
    are arbitrary, and there may be no memory. -/
structure Allocator where
  realloc : List Byte → Nat → Option (List Byte)
  length_eq : ∀ {p a q}, realloc p a = some q → q.length = a
  keeps : ∀ {p a q n}, realloc p a = some q → n ≤ p.length → n ≤ a → q.take n = p.take n

/-- An allocator with memory for every request. -/
def Allocator.plenty : Allocator where
  realloc p a := some ((p ++ List.replicate a 0).take a)
  length_eq := by
    rintro p a q ⟨rfl⟩
    simp
  keeps := by
    rintro p a q n ⟨rfl⟩ hp ha
    rw [List.take_take, Nat.min_eq_left ha, List.take_append_of_le_length hp]

/-- The answers to the allocations of a function: each of its calls, and each call made
    there, has an allocator of its own, so that equal requests may be answered differently.
    One allocator is enough for a buffer, which never asks twice for the same size. -/
abbrev Memory := List Nat → Allocator

/-- The memory of the `i`-th call. -/
def Memory.call (i : Nat) (mem : Memory) : Memory := fun path => mem (i :: path)

/-- Memory for every request. -/
def Memory.plenty : Memory := fun _ => .plenty

/-- `strdup`. -/
def strdup (al : Allocator) (s : CStr) : Option CStr :=
  (al.realloc [] (s.length + 1)).map fun _ => s

theorem strdup_eq_some {al : Allocator} {s t : CStr} (h : strdup al s = some t) : s = t := by
  obtain ⟨-, -, hst⟩ := Option.map_eq_some_iff.mp h
  exact hst

/-- `struct dynbuf`; `bufr` is the block of `allc` bytes, or NULL. -/
structure Dynbuf where
  bufr : Option (List Byte)
  leng : Nat
  allc : Nat
  toobig : Nat

/-- Stores into a block; `none` is a store outside of it. -/
def poke (i : Nat) (xs block : List Byte) : Option (List Byte) :=
  if i + xs.length ≤ block.length then
    some (block.take i ++ (xs ++ block.drop (i + xs.length)))
  else none

/-- `CURL_MAX_INPUT_LENGTH`. -/
def curlMaxInputLength : Nat := 8000000

/-- `MIN_FIRST_ALLOC`. -/
def minFirstAlloc : Nat := 32

namespace Dynbuf

/-- `Curl_dyn_init`. -/
def init (toobig : Nat) : Dynbuf := { bufr := none, leng := 0, allc := 0, toobig := toobig }

/-- `Curl_dyn_free`. -/
def free (s : Dynbuf) : Dynbuf := { s with bufr := none, leng := 0, allc := 0 }

/-- `while(a < fit) a *= 2;`  With a limit of at most 2^31 for the buffer, as every one of
    libcurl is, `a` stays below 2^32 and the `size_t` does not wrap. -/
def double (fit a : Nat) : Option Nat :=
  loop (fun a => decide (a < fit)) (fun a => some (.next (a * 2))) (fit + 1) a

/-- The size of the allocation that holds `fit` bytes. -/
def allocFor (fit : Nat) (s : Dynbuf) : Option Nat :=
  if s.allc = 0 then
    some (if minFirstAlloc > s.toobig then s.toobig else if fit < minFirstAlloc then minFirstAlloc
      else fit)
  else (double fit s.allc).map fun a => if a > s.toobig then s.toobig else a

/-- The bytes behind the text, and the terminator. -/
def store (mem block : List Byte) (s : Dynbuf) : Option Dynbuf :=
  (poke s.leng mem block).bind fun block =>
    (poke (s.leng + mem.length) [0] block).map fun block =>
      { s with bufr := some block, leng := s.leng + mem.length }

/-- `dyn_nappend`. -/
def nappend (al : Allocator) (mem : List Byte) (s : Dynbuf) : Option (Dynbuf × CURLcode) :=
  let fit := mem.length + s.leng + 1
  if fit > s.toobig then some (s.free, .TOO_LARGE)
  else
    (s.allocFor fit).bind fun a =>
      if a ≠ s.allc then
        match al.realloc (s.bufr.getD []) a with
        | none => some (s.free, .OUT_OF_MEMORY)
        | some p => (({ s with allc := a } : Dynbuf).store mem p).map fun s => (s, .OK)
      else s.bufr.bind fun p => (s.store mem p).map fun s => (s, .OK)

/-- `Curl_dyn_addn`. -/
def addn (al : Allocator) (mem : List Byte) (s : Dynbuf) : Option (Dynbuf × CURLcode) := s.nappend al mem

/-- `Curl_dyn_add`. -/
def add (al : Allocator) (str : CStr) (s : Dynbuf) : Option (Dynbuf × CURLcode) :=
  s.nappend al str.bytes

/-- `s->bufr[i] = 0` -/
def terminate (i : Nat) (s : Dynbuf) : Option Dynbuf :=
  (s.bufr.bind (poke i [0])).map fun block => { s with bufr := some block }

/-- `Curl_dyn_reset`. -/
def reset (s : Dynbuf) : Option Dynbuf :=
  (if s.leng ≠ 0 then s.terminate 0 else some s).map fun s => { s with leng := 0 }

/-- `Curl_dyn_tail`. -/
def tail (trail : Nat) (s : Dynbuf) : Option (Dynbuf × CURLcode) :=
  if trail > s.leng then some (s, .BAD_FUNCTION_ARGUMENT)
  else if trail = s.leng then some (s, .OK)
  else if trail = 0 then s.reset.map fun s => (s, .OK)
  else
    (s.bufr.bind fun block => poke 0 ((block.drop (s.leng - trail)).take trail) block).bind
      fun block =>
        (({ s with bufr := some block, leng := trail } : Dynbuf).terminate trail).map
          fun s => (s, .OK)

/-- `Curl_dyn_setlen`; it stores the terminator also when there is no block. -/
def setlen (set : Nat) (s : Dynbuf) : Option (Dynbuf × CURLcode) :=
  if set > s.leng then some (s, .BAD_FUNCTION_ARGUMENT)
  else (({ s with leng := set } : Dynbuf).terminate set).map fun s => (s, .OK)

/-- A loop that appends what `f` makes of each byte, until one append fails. -/
def addEach (al : Allocator) (f : Byte → List Byte) : List Byte → Dynbuf → Option (Dynbuf × CURLcode)
  | [], s => some (s, .OK)
  | b :: bytes, s =>
      (s.addn al (f b)).bind fun (s, r) =>
        if r ≠ .OK then some (s, r) else addEach al f bytes s

/-- The text in the buffer. -/
def content (s : Dynbuf) : List Byte := (s.bufr.getD []).take s.leng

/-- What the assertions of dynbuf.c say, and that the text is terminated. -/
structure Ok (s : Dynbuf) : Prop where
  null : s.bufr = none → s.leng = 0 ∧ s.allc = 0
  block : ∀ p, s.bufr = some p → p.length = s.allc ∧ s.leng < s.allc ∧ s.allc ≤ s.toobig ∧
    p[s.leng]? = some 0

/-! ## Stores -/

/-- A store inside a block, with what it leaves in front of its end. -/
theorem poke_spec {i : Nat} {xs block : List Byte} (h : i + xs.length ≤ block.length) :
    ∃ out, poke i xs block = some out ∧ out.length = block.length ∧
      out.take (i + xs.length) = block.take i ++ xs := by
  refine ⟨_, if_pos h, ?_, ?_⟩
  · simp only [List.length_append, List.length_take, List.length_drop]
    omega
  · rw [← List.append_assoc]
    exact List.take_left' (by simp; omega)

/-- The terminator stored behind the first `i` bytes. -/
theorem poke_zero {i : Nat} {block : List Byte} (h : i < block.length) :
    ∃ out, poke i [0] block = some out ∧ out.length = block.length ∧
      out.take i = block.take i ∧ out[i]? = some 0 := by
  obtain ⟨out, hout, hlen, htake⟩ := @poke_spec i [0] block h
  have hi : (block.take i).length = i := List.length_take_of_le (Nat.le_of_lt h)
  refine ⟨out, hout, hlen, ?_, ?_⟩
  · have hshort : (out.take (i + 1)).take i = (block.take i ++ [0]).take i :=
      congrArg (List.take i) htake
    rw [List.take_take, Nat.min_eq_left (Nat.le_succ i)] at hshort
    rw [hshort, List.take_left' hi]
  · rw [← List.getElem?_take_of_lt (Nat.lt_succ_self i)]
    have hlast : (block.take i ++ [0])[i]? = some (0 : Byte) := by
      rw [List.getElem?_append_right (by omega), hi, Nat.sub_self]
      rfl
    exact (congrArg (fun l => l[i]?) htake).trans hlast

theorem ok_init (toobig : Nat) : (init toobig).Ok := ⟨fun _ => ⟨rfl, rfl⟩, by simp [init]⟩

theorem ok_free (s : Dynbuf) : s.free.Ok := ⟨fun _ => ⟨rfl, rfl⟩, by simp [free]⟩

@[simp] theorem content_init (toobig : Nat) : (init toobig).content = [] := rfl

@[simp] theorem content_free (s : Dynbuf) : s.free.content = [] := rfl

theorem Ok.length_content {s : Dynbuf} (h : s.Ok) : s.content.length = s.leng := by
  cases hbufr : s.bufr with
  | none =>
      obtain ⟨hleng, -⟩ := h.null hbufr
      simp [content, hbufr, hleng]
  | some p =>
      obtain ⟨hlen, hlt, -, -⟩ := h.block p hbufr
      simp only [content, hbufr, Option.getD_some, List.length_take]
      omega

/-- A block with its terminator. -/
theorem ok_of_block {s : Dynbuf} {p : List Byte} (hbufr : s.bufr = some p)
    (hlen : p.length = s.allc) (hlt : s.leng < s.allc) (hbig : s.allc ≤ s.toobig)
    (hzero : p[s.leng]? = some 0) : s.Ok := by
  refine ⟨fun hnone => ?_, fun q hq => ?_⟩
  · rw [hbufr] at hnone
    cases hnone
  · obtain rfl : p = q := Option.some.inj (hbufr.symm.trans hq)
    exact ⟨hlen, hlt, hbig, hzero⟩

/-- Text and terminator stored into a block that has room for them. -/
theorem store_spec {s : Dynbuf} {mem p : List Byte} (hlen : p.length = s.allc)
    (hroom : s.leng + mem.length < s.allc) (hbig : s.allc ≤ s.toobig) :
    ∃ s', s.store mem p = some s' ∧ s'.Ok ∧ s'.content = p.take s.leng ++ mem ∧
      s'.toobig = s.toobig ∧ s'.bufr.isSome = true := by
  obtain ⟨text, htext, hlenT, htakeT⟩ := @poke_spec s.leng mem p (by omega)
  obtain ⟨out, hout, hlenO, htakeO, hzero⟩ := @poke_zero (s.leng + mem.length) text (by omega)
  refine ⟨{ s with bufr := some out, leng := s.leng + mem.length }, ?_,
    ok_of_block rfl (hlenO.trans (hlenT.trans hlen)) hroom hbig hzero, ?_, rfl, rfl⟩
  · rw [store, htext, Option.bind_some, hout, Option.map_some]
  · exact htakeO.trans htakeT

/-! ## Appending -/

/-- Doubling ends, with room enough. -/
theorem double_spec {fit a : Nat} (ha : 0 < a) (hfit : 0 < fit) :
    ∃ b, double fit a = some b ∧ fit ≤ b ∧ a ≤ b := by
  have hloop := @loop_total _ (fun a => decide (a < fit)) (fun a => some (.next (a * 2)))
    (fun b => 0 < b ∧ a ≤ b) (fun b => fit ≤ b ∧ a ≤ b) (fun b => fit - b) ?hexit ?hbody (fit + 1) a
    ⟨ha, Nat.le_refl a⟩ (by omega)
  case hexit =>
    intro b hb hguard
    have hle : ¬ b < fit := by simpa using hguard
    exact ⟨by omega, hb.2⟩
  case hbody =>
    intro b hb hguard
    have hlt : b < fit := by simpa using hguard
    exact Or.inl ⟨b * 2, rfl, ⟨by omega, by omega⟩, by omega⟩
  exact hloop

/-- The allocation holds the text and the terminator, and is not larger than
    allowed. -/
theorem allocFor_spec {s : Dynbuf} (h : s.Ok) {fit : Nat} (hpos : 0 < fit) (hfit : fit ≤ s.toobig) :
    ∃ a, s.allocFor fit = some a ∧ fit ≤ a ∧ s.allc ≤ a ∧ a ≤ s.toobig ∧ 0 < a := by
  by_cases hzero : s.allc = 0
  · refine ⟨_, by rw [allocFor, if_pos hzero], ?_⟩
    rw [hzero, minFirstAlloc]
    by_cases hbig : 32 > s.toobig
    · rw [if_pos hbig]
      omega
    · rw [if_neg hbig]
      by_cases hsmall : fit < 32
      · rw [if_pos hsmall]
        omega
      · rw [if_neg hsmall]
        omega
  · obtain ⟨b, hb, hfitb, hle⟩ := double_spec (by omega : 0 < s.allc) hpos
    have hallc : s.allc ≤ s.toobig := by
      cases hbufr : s.bufr with
      | none => exact absurd (h.null hbufr).2 hzero
      | some p => exact (h.block p hbufr).2.2.1
    refine ⟨if b > s.toobig then s.toobig else b, by simp [allocFor, hzero, hb], ?_⟩
    by_cases hbig : b > s.toobig
    · rw [if_pos hbig]
      omega
    · rw [if_neg hbig]
      omega

/-- Appending: text that does not fit frees the buffer; otherwise it is appended,
    unless there is no memory, which frees the buffer too. -/
theorem addn_spec (al : Allocator) {s : Dynbuf} (h : s.Ok) (mem : List Byte) :
    ∃ s' r, s.addn al mem = some (s', r) ∧ s'.Ok ∧ s'.toobig = s.toobig ∧
      (r = .TOO_LARGE ∧ s.toobig < s.content.length + mem.length + 1 ∧ s' = s.free ∨
        r = .OUT_OF_MEMORY ∧ s.content.length + mem.length + 1 ≤ s.toobig ∧
          (∃ p a, a ≤ s.toobig ∧ al.realloc p a = none) ∧ s' = s.free ∨
        r = .OK ∧ s.content.length + mem.length + 1 ≤ s.toobig ∧ s'.content = s.content ++ mem ∧
          s'.bufr.isSome = true) := by
  have hleng := h.length_content
  by_cases hbig : mem.length + s.leng + 1 > s.toobig
  · exact ⟨s.free, .TOO_LARGE, by simp [addn, nappend, hbig], ok_free s, rfl,
      Or.inl ⟨rfl, by omega, rfl⟩⟩
  · obtain ⟨a, ha, hfit, hallc, htoo, hpos⟩ := allocFor_spec h (Nat.succ_pos _) (Nat.le_of_not_lt hbig)
    by_cases hsame : a = s.allc
    · -- there is room in the block
      obtain ⟨p, hp⟩ : ∃ p, s.bufr = some p := by
        cases hbufr : s.bufr with
        | none =>
            have hnull := (h.null hbufr).2
            omega
        | some p => exact ⟨p, rfl⟩
      obtain ⟨hlen, -, -, -⟩ := h.block p hp
      obtain ⟨s', hs', hok, htext, htoobig, hsome⟩ :=
        @store_spec s mem p hlen (by omega) (by omega)
      refine ⟨s', .OK, by simp [addn, nappend, hbig, ha, hsame, hp, hs'], hok, htoobig,
        Or.inr (Or.inr ⟨rfl, by omega, ?_, hsome⟩)⟩
      rw [htext, content, hp]
      rfl
    · cases hre : al.realloc (s.bufr.getD []) a with
      | none =>
          exact ⟨s.free, .OUT_OF_MEMORY, by simp [addn, nappend, hbig, ha, hsame, hre], ok_free s, rfl,
            Or.inr (Or.inl ⟨rfl, by omega, ⟨_, a, htoo, hre⟩, rfl⟩)⟩
      | some p =>
          have hkeep : p.take s.leng = s.content := by
            refine al.keeps hre ?_ (by omega)
            rw [← hleng, content, List.length_take]
            exact Nat.min_le_right _ _
          obtain ⟨s', hs', hok, htext, htoobig, hsome⟩ :=
            @store_spec { s with allc := a } mem p (al.length_eq hre) (by simp; omega) htoo
          exact ⟨s', .OK, by simp [addn, nappend, hbig, ha, hsame, hre, hs'], hok, htoobig,
            Or.inr (Or.inr ⟨rfl, by omega, htext.trans (by rw [hkeep]), hsome⟩)⟩

/-- What a loop of appends comes to. -/
theorem addEach_spec (al : Allocator) (f : Byte → List Byte) (bytes : List Byte) {s : Dynbuf}
    (h : s.Ok) :
    ∃ s' r, s.addEach al f bytes = some (s', r) ∧ s'.Ok ∧ s'.toobig = s.toobig ∧
      (r = .OK ∧ s'.content = s.content ++ bytes.flatMap f ∧
          (s.bufr.isSome = true → s'.bufr.isSome = true) ∨
        r ≠ .OK ∧ s'.bufr = none ∧ (s.toobig ≤ (s.content ++ bytes.flatMap f).length ∨
          ∃ p a, a ≤ s.toobig ∧ al.realloc p a = none)) := by
  induction bytes generalizing s with
  | nil => exact ⟨s, .OK, rfl, h, rfl, Or.inl ⟨rfl, by simp, fun hs => hs⟩⟩
  | cons b bytes ih =>
      obtain ⟨s', r, hadd, hok, htoobig, hcase⟩ := addn_spec al h (f b)
      rw [List.flatMap_cons]
      obtain ⟨rfl, hbig, rfl⟩ | ⟨rfl, -, hmem, rfl⟩ | ⟨rfl, -, hcontent, hsome⟩ := hcase
      · refine ⟨s.free, .TOO_LARGE, by simp [addEach, hadd], hok, rfl,
          Or.inr ⟨by simp, rfl, Or.inl ?_⟩⟩
        rw [List.length_append, List.length_append]
        omega
      · exact ⟨s.free, .OUT_OF_MEMORY, by simp [addEach, hadd], hok, rfl,
          Or.inr ⟨by simp, rfl, Or.inr hmem⟩⟩
      · obtain ⟨s'', r, hrun, hok'', htoobig'', hcase⟩ := ih hok
        rw [hcontent, List.append_assoc, htoobig] at hcase
        refine ⟨s'', r, by simp [addEach, hadd, hrun], hok'', htoobig''.trans htoobig, ?_⟩
        obtain ⟨hr, htext, hkeep⟩ | hfail := hcase
        · exact Or.inl ⟨hr, htext, fun _ => hkeep hsome⟩
        · exact Or.inr hfail

/-! ## The text as a C string -/

/-- A block whose text is terminated, read as a C string, has the text up to its
    first NUL. -/
theorem ofBuf_eq_ofBuf_take {p : List Byte} {n : Nat} (hzero : p[n]? = some 0) :
    CStr.ofBuf p = CStr.ofBuf (p.take n) := by
  obtain ⟨hn, hval⟩ := List.getElem?_eq_some_iff.mp hzero
  have hsplit : p = p.take n ++ 0 :: p.drop (n + 1) := by
    rw [← hval, List.getElem_cons_drop, List.take_append_drop]
  have hcut : ∀ l r : List Byte, CStr.ofBuf (l ++ 0 :: r) = CStr.ofBuf l := by
    intro l r
    apply CStr.ext
    show (l ++ 0 :: r).takeWhile _ = l.takeWhile _
    rw [List.takeWhile_append, List.takeWhile_cons_of_neg (by simp), List.append_nil,
      ite_eq_right_iff]
    exact fun hall => ((List.takeWhile_prefix _).eq_of_length hall).symm
  exact (congrArg CStr.ofBuf hsplit).trans (hcut _ _)

theorem exists_block {s : Dynbuf} (hne : s.content ≠ []) : ∃ p, s.bufr = some p := by
  cases hbufr : s.bufr with
  | none => exact absurd (by simp [content, hbufr]) hne
  | some p => exact ⟨p, rfl⟩

/-- The C string that `Curl_dyn_ptr` points to. -/
theorem Ok.ofBuf_eq {s : Dynbuf} (h : s.Ok) {p : List Byte} (hp : s.bufr = some p)
    (hfree : (0 : Byte) ∉ s.content) :
    (CStr.ofBuf p).bytes = s.content ∧ s.content.length < s.toobig := by
  obtain ⟨hlen, hlt, hbig, hzero⟩ := h.block p hp
  have hcontent : s.content = p.take s.leng := by
    rw [content, hp]
    rfl
  refine ⟨?_, by rw [h.length_content]; omega⟩
  rw [hcontent] at hfree ⊢
  rw [ofBuf_eq_ofBuf_take hzero, CStr.ofBuf_of_nulFree hfree]

/-! ## The other operations -/

/-- A terminator behind the first `i` bytes of the text cuts the text there. -/
theorem terminate_spec {s : Dynbuf} {p : List Byte} {i : Nat} (hbufr : s.bufr = some p)
    (hlen : p.length = s.allc) (hi : i < s.allc) (hbig : s.allc ≤ s.toobig) :
    ∃ s', s.terminate i = some s' ∧ ({ s' with leng := i } : Dynbuf).Ok ∧
      ({ s' with leng := i } : Dynbuf).content = p.take i ∧ s'.toobig = s.toobig ∧
      s'.leng = s.leng ∧ s'.bufr.isSome = true := by
  obtain ⟨out, hout, hlenO, htake, hzero⟩ := @poke_zero i p (by omega)
  refine ⟨{ s with bufr := some out }, ?_, ok_of_block rfl (hlenO.trans hlen) hi hbig hzero,
    htake, rfl, rfl, rfl⟩
  rw [terminate, hbufr, Option.bind_some, hout, Option.map_some]

theorem reset_spec {s : Dynbuf} (h : s.Ok) :
    ∃ s', s.reset = some s' ∧ s'.Ok ∧ s'.content = [] ∧ s'.toobig = s.toobig := by
  by_cases hleng : s.leng = 0
  · obtain ⟨bufr, leng, allc, toobig⟩ := s
    obtain rfl : leng = 0 := hleng
    exact ⟨_, by simp [reset], h, by simp [content], rfl⟩
  · cases hbufr : s.bufr with
    | none => exact absurd (h.null hbufr).1 hleng
    | some p =>
        obtain ⟨hlen, hlt, hbig, -⟩ := h.block p hbufr
        obtain ⟨s', hs', hok, htext, htoobig, -, -⟩ :=
          @terminate_spec s p 0 hbufr hlen (by omega) hbig
        exact ⟨_, by simp [reset, hleng, hs'], hok, by simpa using htext, htoobig⟩

theorem setlen_spec {s : Dynbuf} (h : s.Ok) {set : Nat}
    (hsafe : s.bufr.isSome = true ∨ s.leng < set) :
    ∃ s' r, s.setlen set = some (s', r) ∧ s'.Ok ∧ s'.toobig = s.toobig ∧
      r = (if set ≤ s.content.length then .OK else .BAD_FUNCTION_ARGUMENT) ∧
      s'.content = if set ≤ s.content.length then s.content.take set else s.content := by
  rw [h.length_content]
  by_cases hset : set > s.leng
  · have hnot : ¬ set ≤ s.leng := by omega
    refine ⟨s, .BAD_FUNCTION_ARGUMENT, by simp [setlen, hset], h, rfl, ?_, ?_⟩
    · rw [if_neg hnot]
    · rw [if_neg hnot]
  · have hle : set ≤ s.leng := by omega
    obtain ⟨p, hp⟩ := Option.isSome_iff_exists.mp (hsafe.resolve_right hset)
    obtain ⟨hlen, hlt, hbig, -⟩ := h.block p hp
    obtain ⟨s', hs', hok, htext, htoobig, hleng, -⟩ :=
      @terminate_spec { s with leng := set } p set hp hlen (by simp; omega) hbig
    have hsame : ({ s' with leng := set } : Dynbuf) = s' := by
      obtain ⟨bufr, leng, allc, toobig⟩ := s'
      obtain rfl : leng = set := hleng
      rfl
    rw [hsame] at hok htext
    refine ⟨s', .OK, by simp [setlen, hset, hs'], hok, htoobig, ?_, ?_⟩
    · rw [if_pos hle]
    · rw [if_pos hle, htext, content, hp, Option.getD_some, List.take_take, Nat.min_eq_left hle]

theorem tail_spec {s : Dynbuf} (h : s.Ok) (trail : Nat) :
    ∃ s' r, s.tail trail = some (s', r) ∧ s'.Ok ∧ s'.toobig = s.toobig ∧
      r = (if trail ≤ s.content.length then .OK else .BAD_FUNCTION_ARGUMENT) ∧
      s'.content = if trail ≤ s.content.length then s.content.drop (s.content.length - trail)
        else s.content := by
  have hcontent := h.length_content
  rw [hcontent]
  by_cases htrail : trail > s.leng
  · have hnot : ¬ trail ≤ s.leng := by omega
    refine ⟨s, .BAD_FUNCTION_ARGUMENT, by simp [tail, htrail], h, rfl, ?_, ?_⟩
    · rw [if_neg hnot]
    · rw [if_neg hnot]
  · have hle : trail ≤ s.leng := by omega
    rw [if_pos hle, if_pos hle]
    by_cases hall : trail = s.leng
    · refine ⟨s, .OK, by simp [tail, hall], h, rfl, rfl, ?_⟩
      rw [hall, Nat.sub_self, List.drop_zero]
    · by_cases hzero : trail = 0
      · obtain ⟨s', hs', hok, htext, htoobig⟩ := reset_spec h
        refine ⟨s', .OK, by simp [tail, hzero, hs']; omega, hok, htoobig, rfl, ?_⟩
        rw [htext, hzero, Nat.sub_zero, ← hcontent, List.drop_length]
      · -- the tail is moved to the front and terminated there
        cases hbufr : s.bufr with
        | none =>
            have hnull := (h.null hbufr).1
            omega
        | some p =>
            obtain ⟨hlen, hlt, hbig, -⟩ := h.block p hbufr
            have hmoved : ((p.drop (s.leng - trail)).take trail).length = trail := by
              simp only [List.length_take, List.length_drop]
              omega
            obtain ⟨q, hq, hlenQ, htakeQ⟩ :=
              @poke_spec 0 ((p.drop (s.leng - trail)).take trail) p (by omega)
            obtain ⟨s', hs', hok, htext, htoobig, hleng, -⟩ :=
              @terminate_spec { s with bufr := some q, leng := trail } q trail rfl
                (hlenQ.trans hlen) (by simp; omega) hbig
            have hsame : ({ s' with leng := trail } : Dynbuf) = s' := by
              obtain ⟨bufr, leng, allc, toobig⟩ := s'
              obtain rfl : leng = trail := hleng
              rfl
            rw [hsame] at hok htext
            refine ⟨s', .OK, by simp [tail, htrail, hall, hzero, hbufr, hq, hs'], hok, htoobig, rfl, ?_⟩
            rw [Nat.zero_add, hmoved, List.take_zero, List.nil_append] at htakeQ
            rw [htext, htakeQ, content, hbufr, Option.getD_some, List.drop_take]
            congr 1
            omega

end Dynbuf

/-! ## Sequences of operations -/

/-- The operations; each time memory is needed, another allocator may answer. -/
inductive Op where
  | addn (al : Allocator) (mem : List Byte)
  | add (al : Allocator) (str : CStr)
  | reset
  | tail (trail : Nat)
  | setlen (set : Nat)
  | free

namespace Op

def step (s : Dynbuf) : Op → Option (Dynbuf × CURLcode)
  | .addn al mem => s.addn al mem
  | .add al str => s.add al str
  | .reset => s.reset.map fun s => (s, .OK)
  | .tail trail => s.tail trail
  | .setlen set => s.setlen set
  | .free => some (s.free, .OK)

/-- A new length is only set where there is a block, or where it is refused. -/
def Safe (s : Dynbuf) : Op → Prop
  | .setlen set => s.bufr.isSome = true ∨ s.leng < set
  | _ => True

/-- What an operation does to a text of bounded length when it answers `r`. -/
def effect (c : List Byte) (r : CURLcode) : Op → List Byte
  | .addn _ mem => if r = .OK then c ++ mem else []
  | .add _ str => if r = .OK then c ++ str.bytes else []
  | .reset => []
  | .tail trail => if r = .OK then c.drop (c.length - trail) else c
  | .setlen set => if r = .OK then c.take set else c
  | .free => []

/-- The answers of an append to such a text: memory may run out, but only where an
    allocation fails. -/
def Appends (al : Allocator) (toobig : Nat) (c mem : List Byte) (r : CURLcode) : Prop :=
  if toobig < c.length + mem.length + 1 then r = .TOO_LARGE
  else r = .OK ∨ r = .OUT_OF_MEMORY ∧ ∃ p a, a ≤ toobig ∧ al.realloc p a = none

/-- The answers an operation may give on such a text. -/
def Answers (toobig : Nat) (c : List Byte) (r : CURLcode) : Op → Prop
  | .addn al mem => Appends al toobig c mem r
  | .add al str => Appends al toobig c str.bytes r
  | .tail n | .setlen n => r = if n ≤ c.length then .OK else .BAD_FUNCTION_ARGUMENT
  | .reset | .free => r = .OK

theorem addn_appends (al : Allocator) {s : Dynbuf} (h : s.Ok) (mem : List Byte) :
    ∃ s' r, s.addn al mem = some (s', r) ∧ s'.Ok ∧ s'.toobig = s.toobig ∧
      Appends al s.toobig s.content mem r ∧ s'.content = if r = .OK then s.content ++ mem else [] := by
  obtain ⟨s', r, hrun, hok, htoobig, hcases⟩ := Dynbuf.addn_spec al h mem
  refine ⟨s', r, hrun, hok, htoobig, ?_, ?_⟩
  · rcases hcases with ⟨rfl, hbig, -⟩ | ⟨rfl, hfits, hfail, -⟩ | ⟨rfl, hfits, -, -⟩
    · exact (if_pos hbig).mpr rfl
    · exact (if_neg (by omega)).mpr (Or.inr ⟨rfl, hfail⟩)
    · exact (if_neg (by omega)).mpr (Or.inl rfl)
  · rcases hcases with ⟨rfl, -, rfl⟩ | ⟨rfl, -, -, rfl⟩ | ⟨rfl, -, htext, -⟩
    · rfl
    · rfl
    · exact htext

theorem step_spec {s : Dynbuf} (h : s.Ok) {op : Op} (hsafe : op.Safe s) :
    ∃ s' r, op.step s = some (s', r) ∧ s'.Ok ∧ s'.toobig = s.toobig ∧
      op.Answers s.toobig s.content r ∧ s'.content = op.effect s.content r := by
  cases op with
  | addn al mem => exact addn_appends al h mem
  | add al str => exact addn_appends al h str.bytes
  | reset =>
      obtain ⟨s', hrun, hok, htext, htoobig⟩ := Dynbuf.reset_spec h
      exact ⟨s', .OK, by simp [step, hrun], hok, htoobig, rfl, htext⟩
  | tail trail =>
      obtain ⟨s', r, hrun, hok, htoobig, rfl, htext⟩ := Dynbuf.tail_spec h trail
      refine ⟨s', _, hrun, hok, htoobig, rfl, htext.trans ?_⟩
      by_cases hle : trail ≤ s.content.length <;> simp [effect, hle]
  | setlen set =>
      obtain ⟨s', r, hrun, hok, htoobig, rfl, htext⟩ := Dynbuf.setlen_spec h hsafe
      refine ⟨s', _, hrun, hok, htoobig, rfl, htext.trans ?_⟩
      by_cases hle : set ≤ s.content.length <;> simp [effect, hle]
  | free => exact ⟨s.free, .OK, rfl, Dynbuf.ok_free s, rfl, rfl, rfl⟩

/-- A step that comes back was a safe one. -/
theorem safe_of_step {s : Dynbuf} {op : Op} {t : Dynbuf × CURLcode}
    (hstep : op.step s = some t) : op.Safe s := by
  cases op with
  | setlen set =>
      by_cases hset : s.leng < set
      · exact Or.inr hset
      · cases hbufr : s.bufr with
        | none => simp [step, Dynbuf.setlen, Dynbuf.terminate, hset, hbufr] at hstep
        | some p => exact Or.inl (by rw [hbufr]; rfl)
  | _ => trivial

end Op

/-- The text after some operations with their answers. -/
def contents (hist : List (Op × CURLcode)) : List Byte :=
  hist.foldl (fun c p => p.1.effect c p.2) []

/-- A buffer and the operations that led to it, with their answers. -/
def traceStep (t : Dynbuf × List (Op × CURLcode)) (op : Op) : Option (Dynbuf × List (Op × CURLcode)) :=
  (op.step t.1).map fun (s, r) => (s, t.2 ++ [(op, r)])

/-- The buffer holds the text its operations make up, and each of them gave one
    of the answers it may give on the text before it. -/
structure Tracks (toobig : Nat) (t : Dynbuf × List (Op × CURLcode)) : Prop where
  ok : t.1.Ok
  limit : t.1.toobig = toobig
  content : t.1.content = contents t.2
  answers : ∀ pre op r, pre ++ [(op, r)] <+: t.2 → op.Answers toobig (contents pre) r

theorem tracks_init (toobig : Nat) : Tracks toobig (Dynbuf.init toobig, []) := by
  refine ⟨Dynbuf.ok_init toobig, rfl, rfl, ?_⟩
  intro pre op r hpre
  simp [List.prefix_nil] at hpre

theorem Tracks.step {toobig : Nat} {t : Dynbuf × List (Op × CURLcode)} (h : Tracks toobig t) {op : Op}
    (hsafe : op.Safe t.1) : ∃ t', traceStep t op = some t' ∧ Tracks toobig t' := by
  obtain ⟨s', r, hrun, hok, htoobig, hanswer, htext⟩ := Op.step_spec h.ok hsafe
  rw [h.limit, h.content] at hanswer
  refine ⟨(s', t.2 ++ [(op, r)]), by simp [traceStep, hrun], hok, htoobig.trans h.limit, ?_, ?_⟩
  · rw [htext, h.content, contents, contents, List.foldl_append]
    rfl
  · intro pre op' r' hpre
    rcases List.prefix_concat_iff.mp hpre with heq | hshort
    · obtain ⟨rfl, hlast⟩ := List.append_inj' heq rfl
      obtain ⟨rfl, rfl⟩ := Prod.mk.inj (List.singleton_inj.mp hlast)
      exact hanswer
    · exact h.answers pre op' r' hshort

/-- Over any sequence of operations, whenever memory runs out: no store goes
    outside of the block and the buffer holds the text of bounded length that its
    operations and their answers make up, exactly as long as no length is set on
    a buffer that has no block. -/
theorem dynbuf_keeps_content (toobig : Nat) (ops : List Op) :
    (∀ pre, pre <+: ops → ∃ t, runOps traceStep (Dynbuf.init toobig, []) pre = some t ∧
        Tracks toobig t) ↔
      Along traceStep (Dynbuf.init toobig, []) ops (fun _ t op => op.Safe t.1) := by
  refine forall_initial_iff_along (tracks_init toobig) (fun _ h => h) ?_ ?_
  · intro _ t op _ _ _ h hsafe
    exact h.step hsafe
  · intro _ t op _ t' _ _ _ hstep _
    obtain ⟨p, hp, -⟩ := Option.map_eq_some_iff.mp hstep
    exact Op.safe_of_step hp

end Curl1C.Dyn
