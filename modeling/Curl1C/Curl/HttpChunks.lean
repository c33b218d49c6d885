/-
  Curl1C.Curl.HttpChunks

  The decoder of chunked responses (lib/http_chunks.c), the writer of libcurl that
  a response passes through before it reaches the write callback.

  The decoder keeps its state between the buffers of a response.  A pass of its
  loop looks at the next byte and need not consume it; the data of a chunk goes to
  the next writer in one piece per buffer.

  Main result: `dechunk_iff`.
-/

import Curl1C.Curl.Escape
import Curl1C.Lib.Chunked

namespace Curl1C.HttpChunks

open Lib Dyn

/-- `ChunkyState`. -/
inductive ChunkyState where
  | HEX | LF | DATA | POSTLF | STOP | TRAILER | TRAILER_CR | TRAILER_POSTCR | DONE | FAILED
deriving DecidableEq

/-- `CHUNKcode`, without the two that nothing sets. -/
inductive CHUNKcode where
  | OK | TOO_LONG_HEX | ILLEGAL_HEX | BAD_CHUNK | OUT_OF_MEMORY | PASSTHRU_ERROR
deriving DecidableEq

/-- `CLIENTWRITE_BODY`, and `CLIENTWRITE_HEADER|CLIENTWRITE_TRAILER`. -/
inductive WriteType where
  | BODY | TRAILER
deriving DecidableEq

/-- The next writer: what it does with some bytes, and whether it accepts them; its errors
    are all `WRITE_ERROR` here. -/
structure Cwriter (σ : Type) where
  write : WriteType → List Byte → σ → σ × Bool

/-- `struct Curl_chunker`; the first `hexindex` bytes of `hexbuffer`. -/
structure Chunker where
  datasize : Nat
  state : ChunkyState
  last_code : CHUNKcode
  trailer : Dynbuf
  hexbuffer : List Byte
  ignore_body : Bool

/-- `CHUNK_MAXNUM_LEN`. -/
def chunkMaxnumLen : Nat := 16

/-- `DYN_H1_TRAILER`. -/
def dynH1Trailer : Nat := 4096

/-- `Curl_httpchunk_init`; the memory was zeroed. -/
def Chunker.init (ignore_body : Bool) : Chunker :=
  { datasize := 0, state := .HEX, last_code := .OK, trailer := Dynbuf.init dynH1Trailer,
    hexbuffer := [], ignore_body := ignore_body }

/-- `Curl_httpchunk_reset`. -/
def Chunker.reset (ch : Chunker) : Option Chunker :=
  ch.trailer.reset.map fun trailer =>
    { ch with hexbuffer := [], state := .HEX, last_code := .OK, trailer := trailer }

/-- `curlx_strtoofft` in base 16 on digits: the number, unless it is above
    `CURL_OFF_T_MAX`. -/
def strtoofft (digits : List Byte) : Option Nat :=
  let n := digits.foldl (fun n d => 16 * n + (Rfc3986.hexValue d).getD 0) 0
  if n < 2 ^ 63 then some n else none

/-! ## `httpchunk_readwrite` -/

/-- The locals of the loop, and what is returned. -/
structure Reading (σ : Type) where
  ch : Chunker
  out : σ
  buf : List Byte
  result : CURLcode

namespace Reading

variable {σ : Type}

/-- `ch->state = CHUNK_FAILED`, and return. -/
def fail (code : CHUNKcode) (result : CURLcode) (x : Reading σ) : Pass (Reading σ) :=
  .leave { x with
    ch := { x.ch with state := .FAILED, last_code := code }
    result := result }

/-- Go on behind the next byte. -/
def advance (x : Reading σ) : Reading σ := { x with buf := x.buf.tail }

@[simp] theorem advance_ch (x : Reading σ) : x.advance.ch = x.ch := rfl

/-- Give bytes to the next writer, and go on if it accepts them. -/
def write (w : Cwriter σ) (type : WriteType) (xs : List Byte) (x : Reading σ)
    (k : Reading σ → Option (Pass (Reading σ))) : Option (Pass (Reading σ)) :=
  let (out, ok) := w.write type xs x.out
  if ok then k { x with out := out } else some ({ x with out := out }.fail .PASSTHRU_ERROR .WRITE_ERROR)

/-- `CHUNK_HEX`. -/
def hex (b : Byte) (x : Reading σ) : Pass (Reading σ) :=
  if Escape.isXdigit b then
    if x.ch.hexbuffer.length ≥ chunkMaxnumLen then x.fail .TOO_LONG_HEX .RECV_ERROR
    else .next { x with ch := { x.ch with hexbuffer := x.ch.hexbuffer ++ [b] } }.advance
  else if x.ch.hexbuffer.length = 0 then x.fail .ILLEGAL_HEX .RECV_ERROR
  else match strtoofft x.ch.hexbuffer with
    | none => x.fail .ILLEGAL_HEX .RECV_ERROR
    -- the byte is looked at again
    | some n => .next { x with ch := { x.ch with datasize := n, state := .LF } }

/-- `CHUNK_LF`. -/
def lf (b : Byte) (x : Reading σ) : Pass (Reading σ) :=
  if b = 0x0a then
    .next { x with
      ch := { x.ch with state := if x.ch.datasize = 0 then .TRAILER else .DATA } }.advance
  else .next x.advance

/-- `CHUNK_DATA`. -/
def data (te_skip : Bool) (w : Cwriter σ) (x : Reading σ) : Option (Pass (Reading σ)) :=
  let piece := if x.ch.datasize < x.buf.length then x.ch.datasize else x.buf.length
  let go (x : Reading σ) : Option (Pass (Reading σ)) :=
    some (.next { x with
      ch := { x.ch with
        datasize := x.ch.datasize - piece
        state := if x.ch.datasize - piece = 0 then .POSTLF else .DATA }
      buf := x.buf.drop piece })
  if !te_skip && !x.ch.ignore_body then x.write w .BODY (x.buf.take piece) go else go x

/-- `CHUNK_POSTLF`. -/
def postlf (b : Byte) (x : Reading σ) : Option (Pass (Reading σ)) :=
  if b = 0x0a then x.ch.reset.map fun ch => .next { x with ch := ch }.advance
  else if b ≠ 0x0d then some (x.fail .BAD_CHUNK .RECV_ERROR)
  else some (.next x.advance)

/-- `Curl_dyn_addn(&ch->trailer, ...)`, and go on unless it fails. -/
def addTrailer (al : Allocator) (xs : List Byte) (x : Reading σ)
    (k : Reading σ → Option (Pass (Reading σ))) : Option (Pass (Reading σ)) :=
  (x.ch.trailer.addn al xs).bind fun (trailer, r) =>
    let x := { x with ch := { x.ch with trailer := trailer } }
    if r = .OK then k x else some (x.fail .OUT_OF_MEMORY r)

/-- The end of a trailer field, at its CR or its LF. -/
def trailerEnd (al : Allocator) (te_skip : Bool) (w : Cwriter σ) (b : Byte) (x : Reading σ) :
    Option (Pass (Reading σ)) :=
  x.addTrailer al [0x0d, 0x0a] fun x =>
    let go (x : Reading σ) : Option (Pass (Reading σ)) :=
      x.ch.trailer.reset.map fun trailer =>
        let x := { x with ch := { x.ch with trailer := trailer, state := .TRAILER_CR } }
        -- already on the LF
        if b = 0x0a then .next x else .next x.advance
    if !te_skip then x.write w .TRAILER x.ch.trailer.content go else go x

/-- `CHUNK_TRAILER`. -/
def trailer (al : Allocator) (te_skip : Bool) (w : Cwriter σ) (b : Byte) (x : Reading σ) :
    Option (Pass (Reading σ)) :=
  if b = 0x0d ∨ b = 0x0a then
    -- `Curl_dyn_ptr` is NULL as long as no field has been seen
    if x.ch.trailer.bufr.isSome then x.trailerEnd al te_skip w b
    else some (.next { x with ch := { x.ch with state := .TRAILER_POSTCR } })
  else x.addTrailer al [b] fun x => some (.next x.advance)

/-- `CHUNK_TRAILER_CR`. -/
def trailerCr (b : Byte) (x : Reading σ) : Pass (Reading σ) :=
  if b = 0x0a then .next { x with ch := { x.ch with state := .TRAILER_POSTCR } }.advance
  else x.fail .BAD_CHUNK .RECV_ERROR

/-- `CHUNK_TRAILER_POSTCR`. -/
def trailerPostcr (b : Byte) (x : Reading σ) : Pass (Reading σ) :=
  if b ≠ 0x0d ∧ b ≠ 0x0a then .next { x with ch := { x.ch with state := .TRAILER } }
  else
    let x := if b = 0x0d then x.advance else x
    .next { x with ch := { x.ch with state := .STOP } }

/-- `CHUNK_STOP`. -/
def stop (b : Byte) (x : Reading σ) : Pass (Reading σ) :=
  if b = 0x0a then
    -- the bytes left in the buffer are counted, the buffer is left alone
    .leave { x with ch := { x.ch with datasize := x.buf.length - 1, state := .DONE } }
  else x.fail .BAD_CHUNK .RECV_ERROR

/-- One pass of the loop. -/
def pass (al : Allocator) (te_skip : Bool) (w : Cwriter σ) (x : Reading σ) :
    Option (Pass (Reading σ)) :=
  let b := symbol x.buf
  match x.ch.state with
  | .HEX => some (x.hex b)
  | .LF => some (x.lf b)
  | .DATA => x.data te_skip w
  | .POSTLF => x.postlf b
  | .TRAILER => x.trailer al te_skip w b
  | .TRAILER_CR => some (x.trailerCr b)
  | .TRAILER_POSTCR => some (x.trailerPostcr b)
  | .STOP => some (x.stop b)
  | .DONE => some (.leave x)
  | .FAILED => some (.leave { x with result := .RECV_ERROR })

end Reading

section Readwrite

variable {σ : Type} (al : Allocator) (te_skip : Bool) (w : Cwriter σ)

/-- The loop of `httpchunk_readwrite`; no byte is looked at more than three times. -/
def readwriteLoop (x : Reading σ) : Option (Reading σ) :=
  loop (fun x => !x.buf.isEmpty) (Reading.pass al te_skip w) (3 * x.buf.length + 1) x

/-- `httpchunk_readwrite`: the decoder afterwards, the next writer, and the result. -/
def httpchunkReadwrite (buf : List Byte) (ch : Chunker) (out : σ) :
    Option (Chunker × σ × CURLcode) :=
  if ch.state = .DONE then some (ch, out, .OK)
  else if ch.state = .FAILED then some (ch, out, .RECV_ERROR)
  else
    let go (out : σ) : Option (Chunker × σ × CURLcode) :=
      (readwriteLoop al te_skip w
        { ch := ch, out := out, buf := buf, result := .OK }).map fun x =>
          (x.ch, x.out, x.result)
    -- without decoding, the client gets the bytes as they are
    if te_skip && !ch.ignore_body then
      let (out, ok) := w.write .BODY buf out
      if ok then go out
      else some ({ ch with state := .FAILED, last_code := .PASSTHRU_ERROR }, out, .WRITE_ERROR)
    else go out

/-- `cw_chunked_write`; `eos` says that the response ends with this buffer. -/
def cwChunkedWrite (eos no_body : Bool) (buf : List Byte) (ch : Chunker) (out : σ) :
    Option (Chunker × σ × CURLcode) :=
  (httpchunkReadwrite al te_skip w buf ch out).map fun (ch, out, r) =>
    if r ≠ .OK then (ch, out, r)
    else if ch.state ≠ .DONE ∧ eos ∧ !no_body then (ch, out, .PARTIAL_FILE)
    else (ch, out, .OK)

/-- The buffers of a response one after the other, until one of them fails; the last
    one ends the response. -/
def receive (no_body : Bool) : List (List Byte) → Chunker → σ → Option (Chunker × σ × CURLcode)
  | [], ch, out => some (ch, out, .OK)
  | buf :: bufs, ch, out =>
      (cwChunkedWrite al te_skip w bufs.isEmpty no_body buf ch out).bind fun (ch, out, r) =>
        if r = .OK then receive no_body bufs ch out else some (ch, out, r)

end Readwrite

/-! ## The decoder as a receiver -/

open Chunked (Phase Out Message push run)

/-- The characters of the coding in ASCII. -/
def signs : Chunked.Signs Byte :=
  { cr := 0x0d, lf := 0x0a, digit := Rfc3986.hexValue,
    cr_ne_lf := by decide, digit_cr := by decide, digit_lf := by decide }

/-- The limits of the decoder. -/
def limits : Chunked.Limits :=
  { digits := chunkMaxnumLen, size := 2 ^ 63 - 1, field := dynH1Trailer - 3, buffer := dynH1Trailer - 1,
    field_le := by decide }

/-- The decoder waits for what the phase says. -/
def Chunker.At (ch : Chunker) : Phase Byte → Prop
  | .size ds => ch.state = .HEX ∧ ch.hexbuffer = ds ∧ ch.trailer.bufr = none
  | .ext n => ch.state = .LF ∧ ch.datasize = n ∧ ch.trailer.bufr = none
  | .data n => ch.state = .DATA ∧ ch.datasize = n ∧ 0 < n ∧ ch.trailer.bufr = none
  | .dataEnd => ch.state = .POSTLF ∧ ch.trailer.bufr = none
  | .line =>
      ch.state = .TRAILER ∧ ch.trailer.bufr = none ∨
        ch.state = .TRAILER_POSTCR ∧ ch.trailer.content = []
  | .field xs => ch.state = .TRAILER ∧ ch.trailer.content = xs ∧ xs ≠ []
  | .fieldCr => ch.state = .TRAILER_CR ∧ ch.trailer.content = []
  | .lastCr => ch.state = .STOP
  | .done => ch.state = .DONE
  | .failed => ch.state = .FAILED

/-- The buffer of the trailer is in order, the body is wanted and nothing has failed. -/
structure Chunker.Ok (ch : Chunker) : Prop where
  trailer : ch.trailer.Ok
  toobig : ch.trailer.toobig = dynH1Trailer
  body : ch.ignore_body = false
  live : ch.state ≠ .FAILED

/-- There is memory for a trailer field. -/
def Provides (al : Allocator) : Prop := ∀ p a, a ≤ dynH1Trailer → al.realloc p a ≠ none

/-- A writer that accepts everything; `got` is what it has got. -/
structure Cwriter.Collects {σ : Type} (w : Cwriter σ) (got : σ → List (Out Byte)) : Prop where
  body : ∀ xs s, (w.write .BODY xs s).2 = true ∧
    got (w.write .BODY xs s).1 = got s ++ xs.map .data
  trailer : ∀ xs s, (w.write .TRAILER (xs ++ [0x0d, 0x0a]) s).2 = true ∧
    got (w.write .TRAILER (xs ++ [0x0d, 0x0a]) s).1 = got s ++ [.field xs]

section Trailer

variable {al : Allocator} {s : Dynbuf}

/-- What fits is appended. -/
theorem addn_of_fits (hal : Provides al) (h : s.Ok) (htoo : s.toobig = dynH1Trailer)
    {mem : List Byte} (hfits : s.content.length + mem.length + 1 ≤ dynH1Trailer) :
    ∃ s', s.addn al mem = some (s', .OK) ∧ s'.Ok ∧ s'.toobig = dynH1Trailer ∧
      s'.content = s.content ++ mem := by
  obtain ⟨s', r, hadd, hok, htoo', hcase⟩ := Dynbuf.addn_spec al h mem
  rw [htoo] at hcase htoo'
  obtain ⟨-, hbig, -⟩ | ⟨-, -, ⟨p, a, ha, hnone⟩, -⟩ | ⟨rfl, -, hcontent, -⟩ := hcase
  · omega
  · exact absurd hnone (hal p a ha)
  · exact ⟨s', hadd, hok, htoo', hcontent⟩

/-- What does not fit is refused. -/
theorem addn_of_large (h : s.Ok) (htoo : s.toobig = dynH1Trailer) {mem : List Byte}
    (hlarge : dynH1Trailer < s.content.length + mem.length + 1) :
    ∃ s' r, s.addn al mem = some (s', r) ∧ r ≠ .OK := by
  obtain ⟨s', r, hadd, -, -, hcase⟩ := Dynbuf.addn_spec al h mem
  rw [htoo] at hcase
  refine ⟨s', r, hadd, ?_⟩
  obtain ⟨rfl, -, -⟩ | ⟨rfl, hfits, -⟩ | ⟨-, hfits, -⟩ := hcase
  · simp
  · omega
  · omega

end Trailer

section Passes

variable {σ : Type} {al : Allocator} {w : Cwriter σ} {got : σ → List (Out Byte)}

/-- The loop as long as the decoder decodes. -/
abbrev decodeLoop (al : Allocator) (w : Cwriter σ) (n : Nat) (x : Reading σ) : Option (Reading σ) :=
  loop (fun x => !x.buf.isEmpty) (Reading.pass al false w) n x

/-- What up to `m` passes do to a decoder in a phase: it has gone over some bytes, or
    the loop is left. -/
inductive Passes (al : Allocator) (w : Cwriter σ) (got : σ → List (Out Byte)) (m : Nat)
    (ph : Phase Byte) (x : Reading σ) : Prop where
  | goes (k : Nat) (pre : List Byte) (y : Reading σ) (hk : k ≤ m) (hpre : pre ≠ [])
      (hbuf : x.buf = pre ++ y.buf)
      (hloop : ∀ n, decodeLoop al w (n + k) x = decodeLoop al w n y)
      (hat : y.ch.At (run signs limits ph pre).1) (hok : y.ch.Ok)
      (hgot : got y.out = got x.out ++ (run signs limits ph pre).2) (hres : y.result = .OK)
  | ends (k : Nat) (y : Reading σ) (hk : k ≤ m) (hloop : ∀ n, decodeLoop al w (n + k) x = some y)
      (hat : y.ch.At (run signs limits ph x.buf).1)
      (hgot : got y.out = got x.out ++ (run signs limits ph x.buf).2)
      (hres : y.result = .OK ∧ y.ch.state = .DONE ∨ y.result ≠ .OK ∧ y.ch.state = .FAILED)

variable {ph ph' : Phase Byte} {x y : Reading σ} {b : Byte} {rest : List Byte} {m : Nat}

theorem Passes.mono {m' : Nat} (h : Passes al w got m ph x) (hm : m ≤ m') :
    Passes al w got m' ph x := by
  cases h with
  | goes k pre y hk hpre hbuf hloop hat hok hgot hres =>
      exact .goes k pre y (Nat.le_trans hk hm) hpre hbuf hloop hat hok hgot hres
  | ends k y hk hloop hat hgot hres => exact .ends k y (Nat.le_trans hk hm) hloop hat hgot hres

/-- A pass over one byte. -/
theorem passes_next (hbuf : x.buf = b :: rest) (hpass : x.pass al false w = some (.next y))
    (hy : y.buf = rest) (hat : y.ch.At (push signs limits ph b).1) (hok : y.ch.Ok)
    (hgot : got y.out = got x.out ++ (push signs limits ph b).2) (hres : y.result = .OK) :
    Passes al w got 1 ph x := by
  refine .goes 1 [b] y (Nat.le_refl 1) (by simp) (by rw [hbuf, hy]; rfl) ?_ hat hok ?_ hres
  · intro n
    exact loop_next (by simp [hbuf]) hpass n
  · simpa [Chunked.run_cons] using hgot

/-- A pass that fails. -/
theorem passes_fail (hbuf : x.buf = b :: rest) (hpass : x.pass al false w = some (.leave y))
    (hpush : push signs limits ph b = (.failed, [])) (hstate : y.ch.state = .FAILED)
    (hout : y.out = x.out) (hres : y.result ≠ .OK) : Passes al w got 1 ph x := by
  have hrun : run signs limits ph x.buf = (.failed, []) := by
    rw [hbuf, Chunked.run_cons, hpush, Chunked.run_failed]
    rfl
  refine .ends 1 y (Nat.le_refl 1) ?_ ?_ ?_ (Or.inr ⟨hres, hstate⟩)
  · intro n
    exact loop_leave (by simp [hbuf]) hpass n
  · rw [hrun]
    exact hstate
  · rw [hrun, hout, List.append_nil]

/-- A pass that does not consume the byte it has looked at. -/
theorem Passes.of_pass {o : List (Out Byte)} (h : Passes al w got m ph' y) (hbuf : x.buf = b :: rest)
    (hpass : x.pass al false w = some (.next y)) (hy : y.buf = x.buf)
    (hpush : push signs limits ph b =
      ((push signs limits ph' b).1, o ++ (push signs limits ph' b).2))
    (hgot : got y.out = got x.out ++ o) : Passes al w got (m + 1) ph x := by
  have hrun : ∀ bs, run signs limits ph (b :: bs) =
      ((run signs limits ph' (b :: bs)).1, o ++ (run signs limits ph' (b :: bs)).2) := by
    intro bs
    rw [Chunked.run_cons, Chunked.run_cons, hpush]
    simp
  have hnext : ∀ n k, decodeLoop al w (n + (k + 1)) x = decodeLoop al w (n + k) y := fun n k =>
    loop_next (by simp [hbuf]) hpass (n + k)
  cases h with
  | goes k pre z hk hpre hsplit hloop hat hok hgot' hres =>
      obtain ⟨c, pre, rfl⟩ := List.exists_cons_of_ne_nil hpre
      obtain ⟨rfl, -⟩ := List.cons_eq_cons.mp (hbuf.symm.trans (hy.symm.trans hsplit))
      refine .goes (k + 1) _ z (Nat.succ_le_succ hk) hpre (hy ▸ hsplit) ?_ ?_ hok ?_ hres
      · intro n
        rw [hnext, hloop]
      · rw [hrun]
        exact hat
      · rw [hrun, hgot', hgot, List.append_assoc]
  | ends k z hk hloop hat hgot' hres =>
      rw [hy, hbuf] at hat hgot'
      refine .ends (k + 1) z (Nat.succ_le_succ hk) ?_ ?_ ?_ hres
      · intro n
        rw [hnext, hloop]
      · rw [hbuf, hrun]
        exact hat
      · rw [hbuf, hrun, hgot', hgot, List.append_assoc]

/-! ## The phases -/

section Phases

variable {ch : Chunker} {out : σ}

theorem passes_ext {n : Nat} (hok : ch.Ok) (hat : ch.At (.ext n)) :
    Passes al w got 1 (.ext n) ⟨ch, out, b :: rest, .OK⟩ := by
  obtain ⟨hstate, rfl, hnone⟩ := hat
  have hpass : Reading.pass al false w ⟨ch, out, b :: rest, .OK⟩ =
      some (Reading.lf b ⟨ch, out, b :: rest, .OK⟩) := by
    simp only [Reading.pass, hstate, symbol_cons]
  rw [Reading.lf] at hpass
  by_cases hlf : b = 0x0a
  · rw [if_pos hlf] at hpass
    have hpush : push signs limits (.ext ch.datasize) b = (.afterSize ch.datasize, []) :=
      congrArg (fun p => (p, [])) (if_pos hlf)
    refine passes_next rfl hpass rfl ?_ ⟨hok.trailer, hok.toobig, hok.body, ?_⟩ ?_ rfl
    · rw [hpush]
      by_cases hzero : ch.datasize = 0
      · rw [Phase.afterSize, if_pos hzero, if_pos hzero]
        exact Or.inl ⟨rfl, hnone⟩
      · rw [Phase.afterSize, if_neg hzero, if_neg hzero]
        exact ⟨rfl, rfl, Nat.pos_of_ne_zero hzero, hnone⟩
    · rw [Reading.advance_ch]
      split <;> simp
    · rw [hpush]
      exact (List.append_nil _).symm
  · rw [if_neg hlf] at hpass
    have hpush : push signs limits (.ext ch.datasize) b = (.ext ch.datasize, []) :=
      congrArg (fun p => (p, [])) (if_neg hlf)
    refine passes_next rfl hpass rfl ?_ hok ?_ rfl
    · rw [hpush]
      exact ⟨hstate, rfl, hnone⟩
    · rw [hpush]
      exact (List.append_nil _).symm

theorem strtoofft_eq (ds : List Byte) :
    strtoofft ds = if limits.size < signs.value ds then none else some (signs.value ds) := by
  have hlimit : limits.size = 2 ^ 63 - 1 := rfl
  have hiff : signs.value ds < 2 ^ 63 ↔ ¬ limits.size < signs.value ds := by
    rw [hlimit]
    omega
  show (if signs.value ds < 2 ^ 63 then some (signs.value ds) else none) = _
  by_cases hbig : limits.size < signs.value ds
  · rw [if_pos hbig, if_neg (fun h => hiff.mp h hbig)]
  · rw [if_neg hbig, if_pos (hiff.mpr hbig)]

theorem passes_size {ds : List Byte} (hok : ch.Ok) (hat : ch.At (.size ds)) :
    Passes al w got 2 (.size ds) ⟨ch, out, b :: rest, .OK⟩ := by
  obtain ⟨hstate, rfl, hnone⟩ := hat
  have hpass : Reading.pass al false w ⟨ch, out, b :: rest, .OK⟩ =
      some (Reading.hex b ⟨ch, out, b :: rest, .OK⟩) := by
    simp only [Reading.pass, hstate, symbol_cons]
  rw [Reading.hex] at hpass
  have hdigit : Escape.isXdigit b = (signs.digit b).isSome := Escape.isXdigit_eq b
  by_cases hhex : (signs.digit b).isSome = true
  · rw [hdigit, if_pos hhex] at hpass
    by_cases hlong : ch.hexbuffer.length ≥ chunkMaxnumLen
    · rw [if_pos hlong] at hpass
      have hpush : push signs limits (.size ch.hexbuffer) b = (.failed, []) := by
        have hdigits : ¬ ch.hexbuffer.length < limits.digits := Nat.not_lt.mpr hlong
        rw [push, if_pos hhex, if_neg hdigits]
      exact (passes_fail rfl hpass hpush rfl rfl (by simp)).mono (by omega)
    · rw [if_neg hlong] at hpass
      have hpush : push signs limits (.size ch.hexbuffer) b = (.size (ch.hexbuffer ++ [b]), []) := by
        have hdigits : ch.hexbuffer.length < limits.digits := Nat.lt_of_not_le hlong
        rw [push, if_pos hhex, if_pos hdigits]
      refine (passes_next rfl hpass rfl ?_ ⟨hok.trailer, hok.toobig, hok.body, hok.live⟩ ?_ rfl).mono
        (by omega)
      · rw [hpush]
        exact ⟨hstate, rfl, hnone⟩
      · rw [hpush]
        exact (List.append_nil _).symm
  · rw [hdigit, if_neg hhex] at hpass
    by_cases hempty : ch.hexbuffer.length = 0
    · rw [if_pos hempty] at hpass
      have hnil : ch.hexbuffer.isEmpty = true := by simpa using hempty
      have hpush : push signs limits (.size ch.hexbuffer) b = (.failed, []) := by
        rw [push, if_neg hhex, if_pos (Or.inl hnil)]
      exact (passes_fail rfl hpass hpush rfl rfl (by simp)).mono (by omega)
    · rw [if_neg hempty, strtoofft_eq] at hpass
      by_cases hbig : limits.size < signs.value ch.hexbuffer
      · rw [if_pos hbig] at hpass
        have hpush : push signs limits (.size ch.hexbuffer) b = (.failed, []) := by
          rw [push, if_neg hhex, if_pos (Or.inr hbig)]
        exact (passes_fail rfl hpass hpush rfl rfl (by simp)).mono (by omega)
      · -- the byte is looked at again as the rest of the line
        rw [if_neg hbig] at hpass
        have hne : ¬ (ch.hexbuffer.isEmpty = true ∨ limits.size < signs.value ch.hexbuffer) := by
          rw [not_or]
          exact ⟨by simpa using hempty, hbig⟩
        have hext : Passes al w got 1 (.ext (signs.value ch.hexbuffer))
            ⟨{ ch with datasize := signs.value ch.hexbuffer, state := .LF }, out, b :: rest, .OK⟩ :=
          passes_ext ⟨hok.trailer, hok.toobig, hok.body, by simp⟩ ⟨rfl, rfl, hnone⟩
        refine hext.of_pass (o := []) rfl hpass rfl ?_ (List.append_nil _).symm
        rw [push, if_neg hhex, if_neg hne]
        rfl

theorem passes_data (hw : w.Collects got) {n : Nat} (hok : ch.Ok) (hat : ch.At (.data n)) :
    Passes al w got 1 (.data n) ⟨ch, out, b :: rest, .OK⟩ := by
  obtain ⟨hstate, rfl, hpos, hnone⟩ := hat
  have hpiece : (if ch.datasize < (b :: rest).length then ch.datasize else (b :: rest).length) =
      ((b :: rest).take ch.datasize).length := by
    rw [List.length_take]
    split <;> omega
  obtain ⟨haccept, hwrote⟩ := hw.body ((b :: rest).take ch.datasize) out
  have htake : (b :: rest).take ((b :: rest).take ch.datasize).length = (b :: rest).take ch.datasize := by
    rw [List.length_take, List.take_eq_take_min]
    simp
  have hdrop : (b :: rest).drop ((b :: rest).take ch.datasize).length = (b :: rest).drop ch.datasize := by
    rw [List.length_take, List.drop_eq_drop_min]
    simp
  have hle : ((b :: rest).take ch.datasize).length ≤ ch.datasize := List.length_take_le _ _
  have hrun := @Chunked.run_data Byte _ signs limits _ ch.datasize hle hpos
  have hpass : Reading.pass al false w ⟨ch, out, b :: rest, .OK⟩ =
      some (.next ⟨{ ch with
        datasize := ch.datasize - ((b :: rest).take ch.datasize).length
        state := if ch.datasize - ((b :: rest).take ch.datasize).length = 0 then .POSTLF else .DATA },
        (w.write .BODY ((b :: rest).take ch.datasize) out).1, (b :: rest).drop ch.datasize, .OK⟩) := by
    simp only [Reading.pass, hstate, Reading.data, hpiece, hok.body, Reading.write, htake, haccept, hdrop]
    rfl
  refine .goes 1 ((b :: rest).take ch.datasize) _ (Nat.le_refl 1) ?_ (List.take_append_drop _ _).symm
    (fun n => loop_next rfl hpass n) ?_ ⟨hok.trailer, hok.toobig, hok.body, ?_⟩ ?_ rfl
  · simp [Nat.ne_of_gt hpos]
  · rw [hrun]
    by_cases hall : ((b :: rest).take ch.datasize).length = ch.datasize
    · rw [if_pos hall, if_pos (by omega)]
      exact ⟨rfl, hnone⟩
    · rw [if_neg hall, if_neg (by omega)]
      exact ⟨rfl, rfl, by omega, hnone⟩
  · dsimp only
    split <;> simp
  · rw [hrun]
    exact hwrote

theorem passes_dataEnd (hok : ch.Ok) (hat : ch.At .dataEnd) :
    Passes al w got 1 .dataEnd ⟨ch, out, b :: rest, .OK⟩ := by
  obtain ⟨hstate, hnone⟩ := hat
  have hpass : Reading.pass al false w ⟨ch, out, b :: rest, .OK⟩ =
      Reading.postlf b ⟨ch, out, b :: rest, .OK⟩ := by
    simp only [Reading.pass, hstate, symbol_cons]
  rw [Reading.postlf] at hpass
  by_cases hlf : b = 0x0a
  · have hleng : ch.trailer.leng = 0 := (hok.trailer.null hnone).1
    have hreset : ch.trailer.reset = some ch.trailer := by
      obtain ⟨datasize, state, last_code, ⟨bufr, leng, allc, toobig⟩, hexbuffer, ignore_body⟩ := ch
      obtain rfl : leng = 0 := hleng
      simp [Dynbuf.reset]
    have hpush : push signs limits .dataEnd b = (.size [], []) :=
      congrArg (fun p => (p, [])) (if_pos hlf)
    rw [if_pos hlf, Chunker.reset, hreset] at hpass
    refine passes_next rfl hpass rfl ?_ ⟨hok.trailer, hok.toobig, hok.body, by simp⟩ ?_ rfl
    · rw [hpush]
      exact ⟨rfl, rfl, hnone⟩
    · rw [hpush]
      exact (List.append_nil _).symm
  · rw [if_neg hlf] at hpass
    by_cases hcr : b = 0x0d
    · rw [if_neg (not_not_intro hcr)] at hpass
      have hpush : push signs limits .dataEnd b = (.dataEnd, []) :=
        congrArg (fun p => (p, [])) ((if_neg hlf).trans (if_pos hcr))
      refine passes_next rfl hpass rfl ?_ hok ?_ rfl
      · rw [hpush]
        exact ⟨hstate, hnone⟩
      · rw [hpush]
        exact (List.append_nil _).symm
    · rw [if_pos hcr] at hpass
      have hpush : push signs limits .dataEnd b = (.failed, []) :=
        congrArg (fun p => (p, [])) ((if_neg hlf).trans (if_neg hcr))
      exact passes_fail rfl hpass hpush rfl rfl (by simp)

theorem passes_lastCr (hat : ch.At .lastCr) :
    Passes al w got 1 .lastCr ⟨ch, out, b :: rest, .OK⟩ := by
  have hstate : ch.state = .STOP := hat
  have hpass : Reading.pass al false w ⟨ch, out, b :: rest, .OK⟩ =
      some (Reading.stop b ⟨ch, out, b :: rest, .OK⟩) := by
    simp only [Reading.pass, hstate, symbol_cons]
  rw [Reading.stop] at hpass
  by_cases hlf : b = 0x0a
  · rw [if_pos hlf] at hpass
    have hrun : run signs limits .lastCr (b :: rest) = (.done, []) := by
      have hpush : push signs limits .lastCr b = (.done, []) :=
        congrArg (fun p => (p, [])) (if_pos hlf)
      rw [Chunked.run_cons, hpush, Chunked.run_done]
      rfl
    refine .ends 1 _ (Nat.le_refl 1) (fun n => loop_leave rfl hpass n) ?_ ?_ (Or.inl ⟨rfl, rfl⟩)
    · rw [hrun]
      exact rfl
    · rw [hrun]
      exact (List.append_nil _).symm
  · rw [if_neg hlf] at hpass
    have hpush : push signs limits .lastCr b = (.failed, []) :=
      congrArg (fun p => (p, [])) (if_neg hlf)
    exact passes_fail rfl hpass hpush rfl rfl (by simp)

theorem passes_fieldCr (hok : ch.Ok) (hat : ch.At .fieldCr) :
    Passes al w got 1 .fieldCr ⟨ch, out, b :: rest, .OK⟩ := by
  obtain ⟨hstate, hcontent⟩ := hat
  have hpass : Reading.pass al false w ⟨ch, out, b :: rest, .OK⟩ =
      some (Reading.trailerCr b ⟨ch, out, b :: rest, .OK⟩) := by
    simp only [Reading.pass, hstate, symbol_cons]
  rw [Reading.trailerCr] at hpass
  by_cases hlf : b = 0x0a
  · rw [if_pos hlf] at hpass
    have hpush : push signs limits .fieldCr b = (.line, []) :=
      congrArg (fun p => (p, [])) (if_pos hlf)
    refine passes_next rfl hpass rfl ?_ ⟨hok.trailer, hok.toobig, hok.body, by simp⟩ ?_ rfl
    · rw [hpush]
      exact Or.inr ⟨rfl, hcontent⟩
    · rw [hpush]
      exact (List.append_nil _).symm
  · rw [if_neg hlf] at hpass
    have hpush : push signs limits .fieldCr b = (.failed, []) :=
      congrArg (fun p => (p, [])) (if_neg hlf)
    exact passes_fail rfl hpass hpush rfl rfl (by simp)

/-- A byte of a trailer field. -/
theorem passes_add (hal : Provides al) (hok : ch.Ok) (hstate : ch.state = .TRAILER)
    (hb : ¬ (b = 0x0d ∨ b = 0x0a))
    (hpush : push signs limits ph b = (Chunked.pushField limits ch.trailer.content b, [])) :
    Passes al w got 1 ph ⟨ch, out, b :: rest, .OK⟩ := by
  have hpass : Reading.pass al false w ⟨ch, out, b :: rest, .OK⟩ =
      Reading.addTrailer al [b] ⟨ch, out, b :: rest, .OK⟩ fun x => some (.next x.advance) := by
    simp only [Reading.pass, hstate, symbol_cons, Reading.trailer]
    exact if_neg hb
  rw [Reading.addTrailer] at hpass
  by_cases hroom : ch.trailer.content.length < limits.buffer
  · have hfits : ch.trailer.content.length + 1 + 1 ≤ dynH1Trailer := by
      have hlimit : limits.buffer = 4095 := rfl
      have htoo : dynH1Trailer = 4096 := rfl
      omega
    obtain ⟨s, hadd, hs, htoo, hcontent⟩ := addn_of_fits hal hok.trailer hok.toobig
      (show ch.trailer.content.length + [b].length + 1 ≤ dynH1Trailer from hfits)
    rw [Chunked.pushField, if_pos hroom] at hpush
    simp only [hadd, Option.bind_some, if_true] at hpass
    refine passes_next rfl hpass rfl ?_ ⟨hs, htoo, hok.body, hok.live⟩ ?_ rfl
    · rw [hpush]
      exact ⟨hstate, hcontent, by simp⟩
    · rw [hpush]
      exact (List.append_nil _).symm
  · have hlarge : dynH1Trailer < ch.trailer.content.length + 1 + 1 := by
      have hlimit : limits.buffer = 4095 := rfl
      have htoo : dynH1Trailer = 4096 := rfl
      omega
    obtain ⟨s, r, hadd, hr⟩ := @addn_of_large al _ hok.trailer hok.toobig [b] hlarge
    rw [Chunked.pushField, if_neg hroom] at hpush
    simp only [hadd, Option.bind_some, if_neg hr] at hpass
    exact passes_fail rfl hpass hpush rfl rfl hr

theorem content_of_none (hnone : ch.trailer.bufr = none) : ch.trailer.content = [] := by
  rw [Dynbuf.content, hnone]
  simp

theorem push_line (hb : ¬ (b = 0x0d ∨ b = 0x0a)) :
    push signs limits .line b = (Chunked.pushField limits [] b, []) := by
  rw [not_or] at hb
  exact congrArg (fun p => (p, [])) ((if_neg hb.1).trans (if_neg hb.2))

/-- A line of the trailer section begins, and the decoder knows it. -/
theorem passes_postcr (hal : Provides al) (hok : ch.Ok) (hstate : ch.state = .TRAILER_POSTCR)
    (hcontent : ch.trailer.content = []) :
    Passes al w got 2 .line ⟨ch, out, b :: rest, .OK⟩ := by
  have hpass : Reading.pass al false w ⟨ch, out, b :: rest, .OK⟩ =
      some (Reading.trailerPostcr b ⟨ch, out, b :: rest, .OK⟩) := by
    simp only [Reading.pass, hstate, symbol_cons]
  rw [Reading.trailerPostcr] at hpass
  by_cases hend : b = 0x0d ∨ b = 0x0a
  · have hnot : ¬ (b ≠ 0x0d ∧ b ≠ 0x0a) := fun h => hend.elim h.1 h.2
    rw [if_neg hnot] at hpass
    by_cases hcr : b = 0x0d
    · have hpush : push signs limits .line b = (.lastCr, []) :=
        congrArg (fun p => (p, [])) (if_pos hcr)
      rw [if_pos hcr] at hpass
      refine (passes_next rfl hpass rfl ?_ ⟨hok.trailer, hok.toobig, hok.body, by simp⟩ ?_
        rfl).mono (by omega)
      · rw [hpush]
        exact rfl
      · rw [hpush]
        exact (List.append_nil _).symm
    · rw [if_neg hcr] at hpass
      have hlf : b = 0x0a := hend.resolve_left hcr
      have hlast : Passes al w got 1 .lastCr ⟨{ ch with state := .STOP }, out, b :: rest, .OK⟩ :=
        passes_lastCr rfl
      refine hlast.of_pass (o := []) rfl hpass rfl ?_ (List.append_nil _).symm
      have hline : push signs limits .line b = (.done, []) :=
        congrArg (fun p => (p, [])) ((if_neg hcr).trans (if_pos hlf))
      have hstop : push signs limits .lastCr b = (.done, []) :=
        congrArg (fun p => (p, [])) (if_pos hlf)
      rw [hline, hstop]
      rfl
  · have hboth : b ≠ 0x0d ∧ b ≠ 0x0a := not_or.mp hend
    rw [if_pos hboth] at hpass
    have hadd : Passes al w got 1 .line ⟨{ ch with state := .TRAILER }, out, b :: rest, .OK⟩ :=
      passes_add hal ⟨hok.trailer, hok.toobig, hok.body, by simp⟩ rfl hend
        (by rw [push_line hend, hcontent])
    exact hadd.of_pass (o := []) rfl hpass rfl rfl (List.append_nil _).symm

theorem passes_line (hal : Provides al) (hok : ch.Ok) (hat : ch.At .line) :
    Passes al w got 3 .line ⟨ch, out, b :: rest, .OK⟩ := by
  obtain ⟨hstate, hnone⟩ | ⟨hstate, hcontent⟩ := hat
  · have hcontent : ch.trailer.content = [] := content_of_none hnone
    by_cases hend : b = 0x0d ∨ b = 0x0a
    · have hpass : Reading.pass al false w ⟨ch, out, b :: rest, .OK⟩ =
          some (.next ⟨{ ch with state := .TRAILER_POSTCR }, out, b :: rest, .OK⟩) := by
        simp only [Reading.pass, hstate, symbol_cons, Reading.trailer, hnone]
        exact if_pos hend
      have hpost : Passes al w got 2 .line
          ⟨{ ch with state := .TRAILER_POSTCR }, out, b :: rest, .OK⟩ :=
        passes_postcr hal ⟨hok.trailer, hok.toobig, hok.body, by simp⟩ rfl hcontent
      exact hpost.of_pass (o := []) rfl hpass rfl rfl (List.append_nil _).symm
    · exact (passes_add hal hok hstate hend (by rw [push_line hend, hcontent])).mono (by omega)
  · exact (passes_postcr hal hok hstate hcontent).mono (by omega)

/-- The end of a field that is not too long: the field goes to the next writer. -/
theorem trailerEnd_of_fits (hal : Provides al) (hw : w.Collects got) (hok : ch.Ok)
    (hfits : ch.trailer.content.length ≤ limits.field) (buf : List Byte) :
    ∃ ch' out', Reading.trailerEnd al false w b ⟨ch, out, buf, .OK⟩ =
        some (if b = 0x0a then .next ⟨ch', out', buf, .OK⟩ else .next ⟨ch', out', buf.tail, .OK⟩) ∧
      ch'.Ok ∧ ch'.At .fieldCr ∧ got out' = got out ++ [.field ch.trailer.content] := by
  have hlen : ch.trailer.content.length + [(0x0d : Byte), 0x0a].length + 1 ≤ dynH1Trailer := by
    have hlimit : limits.field = 4093 := rfl
    have htoo : dynH1Trailer = 4096 := rfl
    simp only [List.length_cons, List.length_nil]
    omega
  obtain ⟨s, hadd, hs, htoo, hcontent⟩ := addn_of_fits hal hok.trailer hok.toobig hlen
  obtain ⟨s', hreset, hs', hempty, htoo'⟩ := Dynbuf.reset_spec hs
  obtain ⟨haccept, hwrote⟩ := hw.trailer ch.trailer.content out
  rw [← hcontent] at haccept hwrote
  refine ⟨{ ch with trailer := s', state := .TRAILER_CR }, (w.write .TRAILER s.content out).1, ?_,
    ⟨hs', htoo'.trans htoo, hok.body, by simp⟩, ⟨rfl, hempty⟩, hwrote⟩
  simp only [Reading.trailerEnd, Reading.addTrailer, hadd, Option.bind_some, Reading.write, haccept,
    hreset, Option.map_some, Bool.not_false, if_true]
  rfl

theorem passes_field (hal : Provides al) (hw : w.Collects got) {xs : List Byte} (hok : ch.Ok)
    (hat : ch.At (.field xs)) : Passes al w got 2 (.field xs) ⟨ch, out, b :: rest, .OK⟩ := by
  obtain ⟨hstate, rfl, hne⟩ := hat
  by_cases hend : b = 0x0d ∨ b = 0x0a
  · obtain ⟨p, hp⟩ := Dynbuf.exists_block hne
    have hpass : Reading.pass al false w ⟨ch, out, b :: rest, .OK⟩ =
        Reading.trailerEnd al false w b ⟨ch, out, b :: rest, .OK⟩ := by
      simp only [Reading.pass, hstate, symbol_cons, Reading.trailer, hp]
      exact if_pos hend
    by_cases hfits : ch.trailer.content.length ≤ limits.field
    · obtain ⟨ch', out', hgo, hok', hat', hgot⟩ :=
        @trailerEnd_of_fits _ al w got b ch out hal hw hok hfits (b :: rest)
      rw [hgo] at hpass
      have hpush : push signs limits (.field ch.trailer.content) b =
          (if b = 0x0a then .line else .fieldCr, [.field ch.trailer.content]) :=
        (if_pos hend).trans (if_pos hfits)
      by_cases hlf : b = 0x0a
      · -- the LF is looked at once more, as the one behind a CR would be
        rw [if_pos hlf] at hpass hpush
        refine (passes_fieldCr hok' hat').of_pass (o := [.field ch.trailer.content]) rfl hpass rfl ?_
          hgot
        have hnext : push signs limits .fieldCr b = (.line, []) :=
          congrArg (fun p => (p, [])) (if_pos hlf)
        rw [hpush, hnext]
        rfl
      · rw [if_neg hlf] at hpass hpush
        refine (passes_next rfl hpass rfl ?_ hok' ?_ rfl).mono (by omega)
        · rw [hpush]
          exact hat'
        · rw [hpush]
          exact hgot
    · have hlarge : dynH1Trailer <
          ch.trailer.content.length + [(0x0d : Byte), 0x0a].length + 1 := by
        have hlimit : limits.field = 4093 := rfl
        have htoo : dynH1Trailer = 4096 := rfl
        simp only [List.length_cons, List.length_nil]
        omega
      obtain ⟨s, r, hadd, hr⟩ := @addn_of_large al _ hok.trailer hok.toobig _ hlarge
      have hpush : push signs limits (.field ch.trailer.content) b = (.failed, []) :=
        (if_pos hend).trans (if_neg hfits)
      simp only [Reading.trailerEnd, Reading.addTrailer, hadd, Option.bind_some, if_neg hr] at hpass
      exact (passes_fail rfl hpass hpush rfl rfl hr).mono (by omega)
  · have hpush : push signs limits (.field ch.trailer.content) b =
        (Chunked.pushField limits ch.trailer.content b, []) := if_neg hend
    exact (passes_add hal hok hstate hend hpush).mono (by omega)

theorem passes_done (hat : ch.At .done) : Passes al w got 1 .done ⟨ch, out, b :: rest, .OK⟩ := by
  have hstate : ch.state = .DONE := hat
  have hpass : Reading.pass al false w ⟨ch, out, b :: rest, .OK⟩ =
      some (.leave ⟨ch, out, b :: rest, .OK⟩) := by
    simp only [Reading.pass, hstate]
  refine .ends 1 _ (Nat.le_refl 1) (fun n => loop_leave rfl hpass n) ?_ ?_ (Or.inl ⟨rfl, hstate⟩)
  · rw [Chunked.run_done]
    exact hstate
  · rw [Chunked.run_done]
    exact (List.append_nil _).symm

/-- In every phase at most three passes bring the decoder over a byte. -/
theorem passes_of_at (hal : Provides al) (hw : w.Collects got) (hok : ch.Ok) (hat : ch.At ph) :
    Passes al w got 3 ph ⟨ch, out, b :: rest, .OK⟩ := by
  cases ph with
  | size ds => exact (passes_size hok hat).mono (by omega)
  | ext n => exact (passes_ext hok hat).mono (by omega)
  | data n => exact (passes_data hw hok hat).mono (by omega)
  | dataEnd => exact (passes_dataEnd hok hat).mono (by omega)
  | line => exact passes_line hal hok hat
  | field xs => exact (passes_field hal hw hok hat).mono (by omega)
  | fieldCr => exact (passes_fieldCr hok hat).mono (by omega)
  | lastCr => exact (passes_lastCr hat).mono (by omega)
  | done => exact (passes_done hat).mono (by omega)
  | failed => exact absurd hat hok.live

end Phases

/-! ## Buffers -/

/-- What is left of the decoder behind some bytes: where it is, and what the next writer
    has got. -/
structure Decoded (got : σ → List (Out Byte)) (ph : Phase Byte) (xs : List Byte) (out : σ)
    (r : Chunker × σ × CURLcode) : Prop where
  at_run : r.1.At (run signs limits ph xs).1
  ok : r.1.state = .DONE ∨ r.1.state = .FAILED ∨ r.1.Ok
  got_eq : got r.2.1 = got out ++ (run signs limits ph xs).2
  result : r.2.2 = .OK ↔ r.1.state ≠ .FAILED

theorem decodeLoop_spec (hal : Provides al) (hw : w.Collects got) {n : Nat} {buf : List Byte}
    {ch : Chunker} {out : σ} (hok : ch.Ok) (hat : ch.At ph) (hn : 3 * buf.length + 1 ≤ n) :
    ∃ y, decodeLoop al w n ⟨ch, out, buf, .OK⟩ = some y ∧
      Decoded got ph buf out (y.ch, y.out, y.result) := by
  -- the passes over a byte leave a shorter buffer
  induction hlen : buf.length using Nat.strongRecOn generalizing n buf ph ch out with
  | ind len ih =>
    cases buf with
    | nil =>
        obtain ⟨n, rfl⟩ := Nat.exists_eq_add_of_le' (Nat.le_of_add_left_le hn)
        refine ⟨⟨ch, out, [], .OK⟩, loop_exit rfl n, ?_⟩
        exact ⟨hat, Or.inr (Or.inr hok), (List.append_nil _).symm, iff_of_true rfl hok.live⟩
    | cons b rest =>
        have hstep : Passes al w got 3 ph ⟨ch, out, b :: rest, .OK⟩ := passes_of_at hal hw hok hat
        simp only [List.length_cons] at hn hlen
        cases hstep with
        | goes k pre y hk hpre hbuf hloop hat' hok' hgot hres =>
            obtain ⟨ch', out', buf', result⟩ := y
            obtain rfl : result = .OK := hres
            have hshort : (b :: rest).length = pre.length + buf'.length := by
              rw [show b :: rest = pre ++ buf' from hbuf, List.length_append]
            have hpos : 0 < pre.length := List.length_pos_of_ne_nil hpre
            simp only [List.length_cons] at hshort
            obtain ⟨z, hz, hdec⟩ := @ih buf'.length (by omega) _ (n - k) buf' ch' out' hok' hat'
              (by omega) rfl
            refine ⟨z, ?_, ?_⟩
            · have hfuel : n - k + k = n := by omega
              rw [← hz, ← hloop, hfuel]
            · have hrun : run signs limits ph (b :: rest) =
                  ((run signs limits (run signs limits ph pre).1 buf').1,
                    (run signs limits ph pre).2 ++
                      (run signs limits (run signs limits ph pre).1 buf').2) := by
                rw [show b :: rest = pre ++ buf' from hbuf, Chunked.run_append]
              refine ⟨?_, hdec.ok, ?_, hdec.result⟩
              · rw [hrun]
                exact hdec.at_run
              · rw [hrun, hdec.got_eq, hgot, List.append_assoc]
        | ends k y hk hloop hat' hgot hres =>
            refine ⟨y, ?_, hat', ?_, hgot, ?_⟩
            · have hfuel : n - k + k = n := by omega
              rw [← hloop (n - k), hfuel]
            · obtain ⟨-, hdone⟩ | ⟨-, hfailed⟩ := hres
              · exact Or.inl hdone
              · exact Or.inr (Or.inl hfailed)
            · obtain ⟨hres, hdone⟩ | ⟨hres, hfailed⟩ := hres
              · exact iff_of_true hres (by simp [hdone])
              · exact iff_of_false hres (not_not_intro hfailed)

theorem Chunker.At.done_iff {ch : Chunker} (h : ch.At ph) : ch.state = .DONE ↔ ph = .done := by
  cases ph <;> simp [Chunker.At] at h ⊢ <;> grind

theorem Chunker.At.failed_iff {ch : Chunker} (h : ch.At ph) : ch.state = .FAILED ↔ ph = .failed := by
  cases ph <;> simp [Chunker.At] at h ⊢ <;> grind

theorem httpchunkReadwrite_spec (hal : Provides al) (hw : w.Collects got) {ch : Chunker}
    (hat : ch.At ph) (hok : ch.state = .DONE ∨ ch.Ok) (buf : List Byte) (out : σ) :
    ∃ r, httpchunkReadwrite al false w buf ch out = some r ∧ Decoded got ph buf out r := by
  rw [httpchunkReadwrite]
  by_cases hdone : ch.state = .DONE
  · rw [if_pos hdone]
    obtain rfl : ph = .done := hat.done_iff.mp hdone
    refine ⟨_, rfl, ?_, Or.inl hdone, ?_, iff_of_true rfl (by simp [hdone])⟩
    · rw [Chunked.run_done]
      exact hat
    · rw [Chunked.run_done]
      exact (List.append_nil _).symm
  · have hok : ch.Ok := hok.resolve_left hdone
    rw [if_neg hdone, if_neg hok.live]
    obtain ⟨y, hloop, hdec⟩ := @decodeLoop_spec _ _ _ _ _ hal hw _ buf ch out hok hat (Nat.le_refl _)
    refine ⟨(y.ch, y.out, y.result), ?_, hdec⟩
    exact congrArg (Option.map fun x : Reading σ => (x.ch, x.out, x.result)) hloop

/-- What a response leaves behind: the decoder, what the next writer has got, and the
    result. -/
structure Received (got : σ → List (Out Byte)) (ph : Phase Byte) (xs : List Byte) (out : σ)
    (r : Chunker × σ × CURLcode) : Prop where
  at_run : r.1.At (run signs limits ph xs).1
  got_eq : got r.2.1 = got out ++ (run signs limits ph xs).2
  done : (run signs limits ph xs).1 = .done → r.2.2 = .OK
  failed : (run signs limits ph xs).1 = .failed → r.2.2 ≠ .OK
  cut : (run signs limits ph xs).1 ≠ .done → (run signs limits ph xs).1 ≠ .failed →
    r.2.2 = .PARTIAL_FILE

/-- A buffer that fails ends the response. -/
theorem Decoded.received_of_fail {xs : List Byte} {out : σ} {r : Chunker × σ × CURLcode}
    (h : Decoded got ph xs out r) (hr : r.2.2 ≠ .OK) (ys : List Byte) :
    Received got ph (xs ++ ys) out r := by
  have hfailed : (run signs limits ph xs).1 = .failed :=
    h.at_run.failed_iff.mp (not_not.mp fun hne => hr (h.result.mpr hne))
  have hrun : run signs limits ph (xs ++ ys) = (.failed, (run signs limits ph xs).2) := by
    rw [Chunked.run_append, hfailed, Chunked.run_failed, List.append_nil]
  refine ⟨?_, ?_, ?_, fun _ => hr, ?_⟩
  · rw [hrun, ← hfailed]
    exact h.at_run
  · rw [hrun]
    exact h.got_eq
  · rw [hrun]
    intro hdone
    cases hdone
  · rw [hrun]
    exact fun _ hne => absurd rfl hne

/-- The last buffer of a response. -/
theorem Decoded.received_last {xs : List Byte} {ch : Chunker} {out out' : σ}
    (h : Decoded got ph xs out (ch, out', .OK)) :
    Received got ph xs out (ch, out', if ch.state ≠ .DONE then .PARTIAL_FILE else .OK) := by
  have hlive : ch.state ≠ .FAILED := h.result.mp rfl
  refine ⟨h.at_run, h.got_eq, ?_, ?_, ?_⟩
  · intro hdone
    exact if_neg (not_not_intro (h.at_run.done_iff.mpr hdone))
  · intro hfailed
    exact absurd (h.at_run.failed_iff.mpr hfailed) hlive
  · intro hdone _
    exact if_pos fun hstate => hdone (h.at_run.done_iff.mp hstate)

theorem receive_spec (hal : Provides al) (hw : w.Collects got) {ch : Chunker} {out : σ}
    (hat : ch.At ph) (hok : ch.state = .DONE ∨ ch.Ok) (buf : List Byte) (bufs : List (List Byte)) :
    ∃ r, receive al false w false (buf :: bufs) ch out = some r ∧
      Received got ph (buf ++ bufs.flatten) out r := by
  induction bufs generalizing ph ch out buf with
  | nil =>
      obtain ⟨⟨ch', out', r⟩, hread, hdec⟩ := httpchunkReadwrite_spec hal hw hat hok buf out
      by_cases hr : r = .OK
      · subst hr
        refine ⟨_, ?_, by rw [List.flatten_nil, List.append_nil]; exact hdec.received_last⟩
        by_cases hdone : ch'.state = .DONE
        · simp [receive, cwChunkedWrite, hread, hdone]
        · simp [receive, cwChunkedWrite, hread, hdone]
      · exact ⟨_, by simp [receive, cwChunkedWrite, hread, hr], hdec.received_of_fail hr _⟩
  | cons next bufs ih =>
      obtain ⟨⟨ch', out', r⟩, hread, hdec⟩ := httpchunkReadwrite_spec hal hw hat hok buf out
      by_cases hr : r = .OK
      · subst hr
        have hlive : ch'.state ≠ .FAILED := hdec.result.mp rfl
        obtain ⟨r, hrest, hrec⟩ := @ih _ ch' out' hdec.at_run
          (hdec.ok.imp_right fun h => h.resolve_left hlive) next
        have hrun : run signs limits ph (buf ++ (next :: bufs).flatten) =
            ((run signs limits (run signs limits ph buf).1 (next ++ bufs.flatten)).1,
              (run signs limits ph buf).2 ++
                (run signs limits (run signs limits ph buf).1 (next ++ bufs.flatten)).2) := by
          rw [List.flatten_cons, Chunked.run_append]
        refine ⟨r, ?_, ?_, ?_, ?_, ?_, ?_⟩
        · rw [receive, cwChunkedWrite, hread]
          simpa using hrest
        · rw [hrun]
          exact hrec.at_run
        · rw [hrun, hrec.got_eq, hdec.got_eq, List.append_assoc]
        · rw [hrun]
          exact hrec.done
        · rw [hrun]
          exact hrec.failed
        · rw [hrun]
          exact hrec.cut
      · exact ⟨_, by simp [receive, cwChunkedWrite, hread, hr], hdec.received_of_fail hr _⟩

end Passes

theorem at_init : (Chunker.init false).At (.size []) := ⟨rfl, rfl, rfl⟩

theorem ok_init : (Chunker.init false).Ok := ⟨Dynbuf.ok_init _, rfl, rfl, by simp [Chunker.init]⟩

/-- However a response is cut into buffers, decoding it comes back, and with success exactly
    if the response begins with a chunked message within the limits; the next writer has then
    got the data and the trailer fields of that message, and nothing of what follows it.  If
    the response stops inside such a message, the result says so and the next writer has got
    the front part of what the message holds. -/
theorem dechunk_iff {σ : Type} {al : Allocator} (hal : Provides al) {w : Cwriter σ}
    {got : σ → List (Out Byte)} (hw : w.Collects got) (out : σ) {bufs : List (List Byte)}
    (hne : bufs ≠ []) :
    ∃ ch out' r, receive al false w false bufs (Chunker.init false) out = some (ch, out', r) ∧
      (r = .OK ↔ ∃ m : Message signs, m.Within limits ∧ m.text <+: bufs.flatten) ∧
      ∀ m : Message signs, m.Within limits →
        (m.text <+: bufs.flatten → got out' = got out ++ m.outs) ∧
        (bufs.flatten <+: m.text → bufs.flatten ≠ m.text →
          r = .PARTIAL_FILE ∧ ∃ front, front <+: m.outs ∧ got out' = got out ++ front) := by
  obtain ⟨buf, bufs, rfl⟩ := List.exists_cons_of_ne_nil hne
  obtain ⟨⟨ch, out', r⟩, hreceive, hrec⟩ :=
    @receive_spec σ al w got _ hal hw _ out at_init (Or.inr ok_init) buf bufs
  rw [← List.flatten_cons] at hrec
  refine ⟨ch, out', r, hreceive, ⟨?_, ?_⟩, fun m hm => ⟨?_, ?_⟩⟩
  · intro hr
    have hdone : (run signs limits (.size []) (buf :: bufs).flatten).1 = .done := by
      by_contra hnot
      have hcut := hrec.cut hnot fun hfailed => hrec.failed hfailed hr
      rw [show r = .OK from hr] at hcut
      cases hcut
    obtain ⟨m, hm, htext, -⟩ := (Chunked.run_done_iff).mp (Prod.ext hdone rfl)
    exact ⟨m, hm, htext⟩
  · rintro ⟨m, hm, htext⟩
    have hrun := (Chunked.run_done_iff).mpr ⟨m, hm, htext, rfl⟩
    exact hrec.done (by rw [hrun])
  · intro htext
    have hrun := (Chunked.run_done_iff).mpr ⟨m, hm, htext, rfl⟩
    rw [hrec.got_eq, hrun]
  · intro hfront hshort
    obtain ⟨hdone, hfailed, hprefix⟩ := Chunked.run_front hm hfront hshort
    exact ⟨hrec.cut hdone hfailed, _, hprefix, hrec.got_eq⟩

/-- A writer that keeps what it gets. -/
def keeping : Cwriter (List (Out Byte)) where
  write
    | .BODY, xs, s => (s ++ xs.map .data, true)
    | .TRAILER, xs, s => (s ++ [.field (xs.take (xs.length - 2))], true)

theorem keeping_collects : keeping.Collects id :=
  ⟨fun _ _ => ⟨rfl, rfl⟩, fun xs s => ⟨rfl, by simp [keeping]⟩⟩

/-- One byte in one chunk. -/
def oneByte : Message signs where
  pieces := [⟨⟨[0x31], [0x0d], by simp, by decide, by decide, by decide⟩, [0x61], 1, by simp, by decide⟩]
  last := ⟨[0x30], [0x0d], by simp, by decide, by decide, by decide⟩
  fields := []
  cr := true
  last_zero := by decide

/-- The chunk in three buffers. -/
theorem dechunk_iff_oneByte :
    ∃ ch, receive .plenty false keeping false
        [[0x31, 0x0d], [0x0a, 0x61, 0x0d, 0x0a, 0x30], [0x0d, 0x0a, 0x0d, 0x0a]]
        (Chunker.init false) [] = some (ch, [.data 0x61], .OK) := by
  have hwithin : oneByte.Within limits := by
    refine ⟨?_, ⟨by decide, by decide⟩, by simp [oneByte]⟩
    simp only [oneByte, List.mem_singleton, forall_eq]
    exact ⟨by decide, by decide⟩
  have hprovides : Provides .plenty := by
    intro p a _
    simp [Allocator.plenty]
  obtain ⟨ch, out', r, hreceive, hiff, hgot⟩ := dechunk_iff hprovides keeping_collects []
    (show [[(0x31 : Byte), 0x0d], [0x0a, 0x61, 0x0d, 0x0a, 0x30], [0x0d, 0x0a, 0x0d, 0x0a]] ≠ [] by simp)
  have htext : oneByte.text <+:
      [[(0x31 : Byte), 0x0d], [0x0a, 0x61, 0x0d, 0x0a, 0x30], [0x0d, 0x0a, 0x0d, 0x0a]].flatten :=
    ⟨[], rfl⟩
  have hout : out' = [.data 0x61] := (hgot oneByte hwithin).1 htext
  have hr : r = .OK := hiff.mpr ⟨oneByte, hwithin, htext⟩
  rw [hout, hr] at hreceive
  exact ⟨ch, hreceive⟩

end Curl1C.HttpChunks
