/-
  Curl1C.Curl.Escape

  URL encoding and decoding of libcurl (escape.c), and the methods `ToURL` and
  `FromURL` of the component that use them.

  Main results: `toURL_fromURL` (the two methods are inverse, and what `ToURL`
  returns is percent-encoded text), `fromURL_cuts_at_zero` (what `FromURL` makes of
  other text, and where it loses the end of it).
-/

import Curl1C.Curl.Dynbuf
import Curl1C.Lib.Rfc3986

namespace Curl1C.Escape

open Lib Dyn Dyn.Dynbuf

/-! ## curl_ctype.h -/

def isUpper (x : Byte) : Bool := decide (0x41 ≤ x ∧ x ≤ 0x5A)

def isLower (x : Byte) : Bool := decide (0x61 ≤ x ∧ x ≤ 0x7A)

def isDigit (x : Byte) : Bool := decide (0x30 ≤ x ∧ x ≤ 0x39)

/-- `ISALNUM`. -/
def isAlnum (x : Byte) : Bool := isDigit x || isLower x || isUpper x

/-- `ISURLPUNTCS`. -/
def isUrlpuntcs (x : Byte) : Bool := decide (x = 0x2D ∨ x = 0x2E ∨ x = 0x5F ∨ x = 0x7E)

/-- `ISUNRESERVED`. -/
def isUnreserved (x : Byte) : Bool := isAlnum x || isUrlpuntcs x

/-- `ISXDIGIT`. -/
def isXdigit (x : Byte) : Bool :=
  isDigit x || decide (0x61 ≤ x ∧ x ≤ 0x66) || decide (0x41 ≤ x ∧ x ≤ 0x46)

/-! ## Encoding -/

/-- `const char hex[] = "0123456789ABCDEF";` -/
def hex : List Byte :=
  [0x30, 0x31, 0x32, 0x33, 0x34, 0x35, 0x36, 0x37, 0x38, 0x39, 0x41, 0x42, 0x43, 0x44, 0x45, 0x46]

/-- What is appended for one character. -/
def escapeByte (c : Byte) : List Byte :=
  if isUnreserved c then [c]
  else [0x25, hex.getD (c >>> 4).toNat 0, hex.getD (c &&& 0xF).toNat 0]

/-- `curl_easy_escape`.  The string is read with its terminator; a larger length
    makes it read behind that. -/
def curlEasyEscape (al : Allocator) (string : CStr) (inlength : Int) : Option (Option CStr) :=
  if inlength < 0 then some none
  else
    let length := if inlength ≠ 0 then inlength.toNat else string.length
    if length = 0 then some (strdup al .empty)
    else
      ((Dynbuf.init (curlMaxInputLength * 3)).addEach al escapeByte
        ((string.bytes ++ [0]).take length)).bind fun (d, r) =>
          if r ≠ .OK then some none
          else if length ≤ string.length + 1 then some (d.bufr.map CStr.ofBuf) else none

/-! ## Decoding -/

/-- `hextable`, from `'0'` on. -/
def hextable : List Byte :=
  [0, 1, 2, 3, 4, 5, 6, 7, 8, 9, 0, 0, 0, 0, 0, 0,
    0, 10, 11, 12, 13, 14, 15, 0, 0, 0, 0, 0, 0, 0, 0, 0,
    0, 0, 0, 0, 0, 0, 0, 0, 0, 0, 0, 0, 0, 0, 0, 0,
    0, 10, 11, 12, 13, 14, 15]

/-- `onehex2dec`; `none` is a read outside of the table. -/
def onehex2dec (x : Byte) : Option Byte :=
  if 0x30 ≤ x then hextable[x.toNat - 0x30]? else none

/-- `enum urlreject`. -/
inductive Urlreject where
  | NADA | CTRL | ZERO
deriving DecidableEq

/-- A decoded byte that is refused. -/
def rejects (ctrl : Urlreject) (c : Byte) : Bool :=
  decide (ctrl = .CTRL ∧ c < 0x20 ∨ ctrl = .ZERO ∧ c = 0)

/-- `*ns++ = in;`, unless the byte is refused. -/
def putDecoded (ctrl : Urlreject) (c : Byte) (ns : Nat) (ostring : List Byte) :
    Option (Except CURLcode (List Byte)) :=
  if rejects ctrl c then some (.error .URL_MALFORMAT)
  else (poke ns [c] ostring).map .ok

/-- An error is returned at once. -/
def onOk {α β : Type} (r : Option (Except CURLcode α)) (k : α → Option (Except CURLcode β)) :
    Option (Except CURLcode β) :=
  match r with
  | none => none
  | some (.error e) => some (.error e)
  | some (.ok a) => k a

/-- The loop of `Curl_urldecode` and the terminator: the bytes that are left of
    the string, and where the next one is stored. -/
def urldecodeLoop (ctrl : Urlreject) :
    List Byte → Nat → List Byte → Option (Except CURLcode (List Byte × Nat))
  | [], ns, ostring => (poke ns [0] ostring).map fun ostring => .ok (ostring, ns)
  | [c], ns, ostring =>
      onOk (putDecoded ctrl c ns ostring) fun ostring => urldecodeLoop ctrl [] (ns + 1) ostring
  | [c, x], ns, ostring =>
      onOk (putDecoded ctrl c ns ostring) fun ostring => urldecodeLoop ctrl [x] (ns + 1) ostring
  | c :: x :: y :: string, ns, ostring =>
      if c = 0x25 ∧ isXdigit x ∧ isXdigit y then
        (onehex2dec x).bind fun hi =>
          (onehex2dec y).bind fun lo =>
            onOk (putDecoded ctrl (hi <<< 4 ||| lo) ns ostring) fun ostring =>
              urldecodeLoop ctrl string (ns + 1) ostring
      else
        onOk (putDecoded ctrl c ns ostring) fun ostring =>
          urldecodeLoop ctrl (x :: y :: string) (ns + 1) ostring

/-- `Curl_urldecode`: the block at `*ostring` and `*olen`. -/
def curlUrldecode (al : Allocator) (string : CStr) (length : Nat) (ctrl : Urlreject) :
    Option (Except CURLcode (List Byte × Nat)) :=
  let alloc := if length ≠ 0 then length else string.length
  match al.realloc [] (alloc + 1) with
  | none => some (.error .OUT_OF_MEMORY)
  | some ns =>
      onOk (urldecodeLoop ctrl ((string.bytes ++ [0]).take alloc) 0 ns) fun r =>
        if alloc ≤ string.length + 1 then some (.ok r) else none

/-- `INT_MAX`. -/
def intMax : Nat := 2147483647

/-- `curl_easy_unescape` with a place for the length: the block it returns, NULL
    as the inner `none`. -/
def curlEasyUnescape (al : Allocator) (string : CStr) (length : Int) : Option (Option (List Byte)) :=
  if length ≥ 0 then
    (curlUrldecode al string length.toNat .NADA).map fun
    | .error _ => none
    | .ok (str, outputlen) => if outputlen ≤ intMax then some str else none
  else some none

/-! ## The methods -/

/-- `CcURL::ToURL`: the text that is returned, `none` where it is NULL. -/
def toURL (al : Allocator) (input : CStr) : Option (Option CStr) :=
  curlEasyEscape al input input.length

/-- `CcURL::FromURL`; `decodelen` is not used, so the text ends at the first NUL. -/
def fromURL (al : Allocator) (input : CStr) : Option (Option CStr) :=
  (curlEasyUnescape al input input.length).map fun output => output.map CStr.ofBuf

/-! ## What the loops compute -/

@[simp] theorem onOk_error {α β : Type} (e : CURLcode) (k : α → Option (Except CURLcode β)) :
    onOk (some (.error e)) k = some (.error e) := rfl

@[simp] theorem onOk_ok {α β : Type} (a : α) (k : α → Option (Except CURLcode β)) :
    onOk (some (.ok a)) k = k a := rfl

theorem escapeByte_eq (c : Byte) : escapeByte c = Rfc3986.encodeByte c := by
  revert c
  decide

theorem flatMap_escapeByte (s : List Byte) : s.flatMap escapeByte = Rfc3986.encode s :=
  congrArg s.flatMap (funext escapeByte_eq)

theorem isXdigit_eq (x : Byte) : isXdigit x = (Rfc3986.hexValue x).isSome := by
  revert x
  decide

theorem onehex2dec_eq {x : Byte} (h : isXdigit x = true) :
    onehex2dec x = (Rfc3986.hexValue x).map (BitVec.ofNat 8) := by
  revert x
  decide

theorem shiftLeft_or_eq {u v : Nat} (hu : u < 16) (hv : v < 16) :
    BitVec.ofNat 8 u <<< 4 ||| BitVec.ofNat 8 v = BitVec.ofNat 8 (16 * u + v) := by
  have hall : ∀ u < 16, ∀ v < 16,
      BitVec.ofNat 8 u <<< 4 ||| BitVec.ofNat 8 v = BitVec.ofNat 8 (16 * u + v) := by decide
  exact hall u hu v hv

theorem encode_ne_nil {s : List Byte} (hs : s ≠ []) : Rfc3986.encode s ≠ [] := by
  intro h
  have hdecode := Rfc3986.decode_encode s
  rw [h] at hdecode
  exact hs hdecode.symm

/-- `ToURL` returns the percent-encoding, or NULL when that is too long or memory
    runs out. -/
theorem toURL_spec (al : Allocator) (x : CStr) :
    ∃ r, toURL al x = some r ∧
      (∀ t, r = some t → t.bytes = Rfc3986.encode x.bytes ∧ t.length < curlMaxInputLength * 3) ∧
      (r = none → curlMaxInputLength * 3 ≤ (Rfc3986.encode x.bytes).length ∨
        ∃ p a, a ≤ curlMaxInputLength * 3 ∧ al.realloc p a = none) := by
  by_cases hnil : x.bytes = []
  · -- the empty string is copied by `strdup`
    have hcall : toURL al x = some (strdup al .empty) := by
      simp [toURL, curlEasyEscape, CStr.length, hnil]
    refine ⟨_, hcall, ?_, ?_⟩
    · intro t ht
      obtain ⟨block, -, rfl⟩ := Option.map_eq_some_iff.mp ht
      exact ⟨by rw [hnil]; rfl, by decide⟩
    · exact fun hnone => Or.inr ⟨[], 1, by decide, Option.map_eq_none_iff.mp hnone⟩
  · have hpos : x.length ≠ 0 := fun h => hnil (List.length_eq_zero_iff.mp h)
    have hneg : ¬ (x.length : Int) < 0 := by omega
    have hlen : ((x.length : Int).toNat) = x.length := Int.toNat_natCast _
    have htake : (x.bytes ++ [0]).take x.length = x.bytes := List.take_left' rfl
    obtain ⟨d, r, hrun, hok, htoobig, hcase⟩ :=
      addEach_spec al escapeByte x.bytes (ok_init (curlMaxInputLength * 3))
    rw [content_init, List.nil_append, flatMap_escapeByte] at hcase
    have hcall : toURL al x = if r ≠ .OK then some none else some (d.bufr.map CStr.ofBuf) := by
      simp only [toURL, curlEasyEscape, if_neg hneg, hlen, ite_self, if_neg hpos, htake, hrun,
        Option.bind_some, if_pos (Nat.le_succ x.length)]
    obtain ⟨rfl, htext, -⟩ | ⟨hr, -, hwhy⟩ := hcase
    · have hfree := Rfc3986.zero_notMem_of_encoded (Rfc3986.encoded_encode x.bytes)
      obtain ⟨p, hp⟩ := exists_block (by rw [htext]; exact encode_ne_nil hnil)
      obtain ⟨hbytes, hlt⟩ := hok.ofBuf_eq hp (by rw [htext]; exact hfree)
      refine ⟨some (CStr.ofBuf p), by rw [hcall, hp]; rfl, ?_, by simp⟩
      rintro t ⟨rfl⟩
      refine ⟨hbytes.trans htext, ?_⟩
      rw [CStr.length, hbytes]
      exact hlt.trans_eq htoobig
    · exact ⟨none, by rw [hcall, if_pos hr], by simp, fun _ => hwhy⟩

/-! ## Decoding -/

theorem pctValue_of_not_isXdigit {c x y : Byte} (h : ¬ (c = 0x25 ∧ isXdigit x ∧ isXdigit y)) :
    (if c = 0x25 then Rfc3986.pctValue x y else none) = none := by
  by_cases hc : c = 0x25
  · rw [if_pos hc, Rfc3986.pctValue]
    cases hx : Rfc3986.hexValue x with
    | none => rfl
    | some u =>
        cases hy : Rfc3986.hexValue y with
        | none => rfl
        | some v =>
            refine absurd ⟨hc, ?_, ?_⟩ h
            · rw [isXdigit_eq, hx]; rfl
            · rw [isXdigit_eq, hy]; rfl
  · rw [if_neg hc]

/-- One turn of the decoding loop: a byte of the decoded text is stored. -/
theorem urldecodeLoop_cons (ctrl : Urlreject) (c : Byte) (t : List Byte) :
    ∃ v t', Rfc3986.decode (c :: t) = v :: Rfc3986.decode t' ∧ t'.length ≤ t.length ∧
      ∀ ns ostring, urldecodeLoop ctrl (c :: t) ns ostring =
        onOk (putDecoded ctrl v ns ostring) fun ostring => urldecodeLoop ctrl t' (ns + 1) ostring := by
  match t with
  | [] => exact ⟨c, [], rfl, Nat.le_refl _, fun ns ostring => rfl⟩
  | [x] => exact ⟨c, [x], rfl, Nat.le_refl _, fun ns ostring => rfl⟩
  | x :: y :: string =>
      by_cases hpct : c = 0x25 ∧ isXdigit x ∧ isXdigit y
      · obtain ⟨rfl, hx, hy⟩ := hpct
        obtain ⟨u, hu⟩ := Option.isSome_iff_exists.mp (isXdigit_eq x ▸ hx)
        obtain ⟨v, hv⟩ := Option.isSome_iff_exists.mp (isXdigit_eq y ▸ hy)
        refine ⟨BitVec.ofNat 8 (16 * u + v), string, ?_, by simp; omega, fun ns ostring => ?_⟩
        · rw [Rfc3986.decode, if_pos rfl, Rfc3986.pctValue, hu, hv]
        · rw [urldecodeLoop, if_pos ⟨rfl, hx, hy⟩, onehex2dec_eq hx, onehex2dec_eq hy, hu, hv,
            ← shiftLeft_or_eq (Rfc3986.hexValue_lt hu) (Rfc3986.hexValue_lt hv)]
          rfl
      · refine ⟨c, x :: y :: string, ?_, Nat.le_refl _, fun ns ostring => ?_⟩
        · rw [Rfc3986.decode, pctValue_of_not_isXdigit hpct]
        · rw [urldecodeLoop, if_neg hpct]

/-- The decoding loop stays inside a block with room for the string and its
    terminator, and leaves the decoded text there, unless a byte is refused. -/
theorem urldecodeLoop_spec (ctrl : Urlreject) (t : List Byte) {ns : Nat} {ostring : List Byte}
    (hroom : ns + t.length < ostring.length) :
    if (Rfc3986.decode t).any (rejects ctrl) then
      urldecodeLoop ctrl t ns ostring = some (.error .URL_MALFORMAT)
    else ∃ out, urldecodeLoop ctrl t ns ostring = some (.ok (out, ns + (Rfc3986.decode t).length)) ∧
      out.take (ns + (Rfc3986.decode t).length) = ostring.take ns ++ Rfc3986.decode t ∧
      out[ns + (Rfc3986.decode t).length]? = some 0 := by
  -- by the length of the text, of which a turn takes one or three bytes
  induction hn : t.length using Nat.strong_induction_on generalizing t ns ostring with
  | _ n ih =>
      cases t with
      | nil =>
          obtain ⟨out, hout, -, htake, hzero⟩ := @poke_zero ns ostring (by simpa using hroom)
          exact ⟨out, by rw [urldecodeLoop, hout]; rfl, by simpa [Rfc3986.decode] using htake, hzero⟩
      | cons c t =>
          obtain ⟨v, t', hdecode, hlen, hturn⟩ := urldecodeLoop_cons ctrl c t
          rw [List.length_cons] at hroom hn
          rw [hdecode, hturn, List.any_cons]
          cases hv : rejects ctrl v with
          | true => simp [putDecoded, hv]
          | false =>
              obtain ⟨block, hblock, hsame, htake⟩ := @poke_spec ns [v] ostring (by simp; omega)
              rw [List.length_singleton] at htake
              have hput : putDecoded ctrl v ns ostring = some (.ok block) := by
                simp [putDecoded, hv, hblock]
              have hrest := ih t'.length (by omega) t' (by omega : ns + 1 + t'.length < block.length) rfl
              have hnext : ns + 1 + (Rfc3986.decode t').length = ns + (Rfc3986.decode t').length + 1 := by
                omega
              rw [hput, onOk_ok, Bool.false_or, List.length_cons]
              rw [htake, List.append_assoc, hnext] at hrest
              exact hrest

/-- `Curl_urldecode` of a whole string. -/
theorem curlUrldecode_spec (al : Allocator) (y : CStr) (ctrl : Urlreject) :
    curlUrldecode al y y.length ctrl = some (.error .OUT_OF_MEMORY) ∧
        al.realloc [] (y.length + 1) = none ∨
      curlUrldecode al y y.length ctrl = some (.error .URL_MALFORMAT) ∧
        (Rfc3986.decode y.bytes).any (rejects ctrl) = true ∨
      ∃ out, curlUrldecode al y y.length ctrl = some (.ok (out, (Rfc3986.decode y.bytes).length)) ∧
        (Rfc3986.decode y.bytes).any (rejects ctrl) = false ∧
        out.take (Rfc3986.decode y.bytes).length = Rfc3986.decode y.bytes ∧
        out[(Rfc3986.decode y.bytes).length]? = some 0 := by
  have htake : (y.bytes ++ [0]).take y.length = y.bytes := List.take_left' rfl
  cases hmem : al.realloc [] (y.length + 1) with
  | none => exact Or.inl ⟨by simp [curlUrldecode, hmem], rfl⟩
  | some block =>
      refine Or.inr ?_
      have hloop := @urldecodeLoop_spec ctrl y.bytes 0 block (by
        rw [al.length_eq hmem, CStr.length]
        omega)
      simp only [curlUrldecode, ite_self, hmem, htake]
      cases hany : (Rfc3986.decode y.bytes).any (rejects ctrl) with
      | true =>
          rw [hany, if_pos rfl] at hloop
          exact Or.inl ⟨by rw [hloop]; rfl, rfl⟩
      | false =>
          rw [hany, if_neg (by simp)] at hloop
          obtain ⟨out, hout, htext, hzero⟩ := hloop
          rw [Nat.zero_add] at hout htext hzero
          exact Or.inr ⟨out, by rw [hout, onOk_ok, if_pos (Nat.le_succ _)], rfl, htext, hzero⟩

/-- `FromURL` returns the decoded text up to its first NUL; only when there is no
    memory it returns NULL. -/
theorem fromURL_spec (al : Allocator) {y : CStr} (hy : y.length ≤ intMax) :
    fromURL al y = some (some (CStr.ofBuf (Rfc3986.decode y.bytes))) ∨
      fromURL al y = some none ∧ al.realloc [] (y.length + 1) = none := by
  have hnada : (Rfc3986.decode y.bytes).any (rejects .NADA) = false := by
    rw [List.any_eq_false]
    intro c _
    simp [rejects]
  have hpos : (y.length : Int) ≥ 0 := by omega
  have hlen : ((y.length : Int).toNat) = y.length := Int.toNat_natCast _
  have hle := Rfc3986.length_decode_le y.bytes
  obtain ⟨hcall, hmem⟩ | ⟨-, hany⟩ | ⟨out, hcall, -, htext, hzero⟩ := curlUrldecode_spec al y .NADA
  · refine Or.inr ⟨?_, hmem⟩
    simp only [fromURL, curlEasyUnescape, if_pos hpos, hlen, hcall]
    rfl
  · rw [hnada] at hany
    cases hany
  · refine Or.inl ?_
    simp only [fromURL, curlEasyUnescape, if_pos hpos, hlen, hcall]
    show some (Option.map CStr.ofBuf (if (Rfc3986.decode y.bytes).length ≤ intMax then some out
      else none)) = _
    rw [if_pos (hle.trans hy), Option.map_some, ofBuf_eq_ofBuf_take hzero, htext]

/-! ## The two methods -/

/-- What `ToURL` returns is percent-encoded and `FromURL` gives the text back.
    `ToURL` returns NULL only if the encoding has 24000000 bytes or more, and
    then always, or if memory runs out. -/
theorem toURL_fromURL (al al' : Allocator) (x : CStr) :
    ∃ r, toURL al x = some r ∧
      (∀ t, r = some t →
        Rfc3986.Encoded t.bytes ∧ t.bytes = Rfc3986.encode x.bytes ∧ t.length < 24000000 ∧
          (fromURL al' t = some (some x) ∨
            fromURL al' t = some none ∧ al'.realloc [] (t.length + 1) = none)) ∧
      (r = none → 24000000 ≤ (Rfc3986.encode x.bytes).length ∨
        ∃ p a, a ≤ 24000000 ∧ al.realloc p a = none) := by
  obtain ⟨r, hcall, hdone, hfail⟩ := toURL_spec al x
  refine ⟨r, hcall, fun t ht => ?_, hfail⟩
  obtain ⟨hbytes, hlt⟩ := hdone t ht
  have hlimit : t.length < 24000000 := hlt
  refine ⟨hbytes ▸ Rfc3986.encoded_encode x.bytes, hbytes, hlimit, ?_⟩
  have hback := fromURL_spec al' (show t.length ≤ intMax by rw [intMax]; omega)
  rwa [hbytes, Rfc3986.decode_encode, CStr.ofBuf_bytes] at hback

theorem exists_eq_ofBuf_append {b : List Byte} (hb : (0 : Byte) ∈ b) :
    ∃ rest, b = (CStr.ofBuf b).bytes ++ 0 :: rest := by
  induction b with
  | nil => cases hb
  | cons c b ih =>
      by_cases hc : c = 0
      · subst hc
        exact ⟨b, rfl⟩
      · obtain ⟨rest, hrest⟩ := ih ((List.mem_cons.mp hb).resolve_left (Ne.symm hc))
        refine ⟨rest, ?_⟩
        have hcons : (CStr.ofBuf (c :: b)).bytes = c :: (CStr.ofBuf b).bytes :=
          @List.takeWhile_cons_of_pos _ (fun b => decide (b ≠ 0)) c b (decide_eq_true hc)
        rw [hcons, List.cons_append, ← hrest]

/-- `FromURL` returns the whole decoded text if there is no `%00` in what it is
    given; otherwise the text ends in front of the first zero. -/
theorem fromURL_cuts_at_zero (al : Allocator) (y : CStr) (hy : y.length ≤ intMax)
    (hmem : al.realloc [] (y.length + 1) ≠ none) :
    ∃ u, fromURL al y = some (some u) ∧
      (¬ [0x25, 0x30, 0x30] <:+: y.bytes → u.bytes = Rfc3986.decode y.bytes) ∧
      ([0x25, 0x30, 0x30] <:+: y.bytes → ∃ rest, Rfc3986.decode y.bytes = u.bytes ++ 0 :: rest) := by
  obtain hcall | ⟨-, hnone⟩ := fromURL_spec al hy
  · refine ⟨_, hcall, fun hno => ?_, fun hyes => ?_⟩
    · rw [← Rfc3986.zero_mem_decode_iff y.nulFree] at hno
      exact CStr.ofBuf_of_nulFree hno
    · exact exists_eq_ofBuf_append ((Rfc3986.zero_mem_decode_iff y.nulFree).mpr hyes)
  · exact absurd hnone hmem

/-- The text `a%00b`, with memory at hand. -/
theorem fromURL_cuts_at_zero_a00b :
    ∃ u, fromURL .plenty (CStr.lit "a%00b") = some (some u) ∧
      (¬ [0x25, 0x30, 0x30] <:+: (CStr.lit "a%00b").bytes →
        u.bytes = Rfc3986.decode (CStr.lit "a%00b").bytes) ∧
      ([0x25, 0x30, 0x30] <:+: (CStr.lit "a%00b").bytes →
        ∃ rest, Rfc3986.decode (CStr.lit "a%00b").bytes = u.bytes ++ 0 :: rest) :=
  fromURL_cuts_at_zero .plenty (CStr.lit "a%00b") (by decide) (by simp [Allocator.plenty])

end Curl1C.Escape
