/-
  Curl1C.Mime.Content

  The levels of a nested multipart, and what reading the content of a part
  delivers.

  Each level (the parts, the multipart they make up, the part this multipart is
  the content of) is described by a `Level`: the functions of this level, what is
  still to be read in a state (`rest`), a bound on the turns that read nothing
  (`rank`), and what no read changes (`fixed`), among it the whole text.  A state
  makes sense for reading (`Inv`), is one in which nothing was read (`Fresh`), or
  may be one in which reading has to start anew (`Sound`).

  Main result: `Content.readContent_spec`.
-/

import Curl1C.Mime.Part

namespace Curl1C.Mime

open Lib

variable {μ π : Type}

/-! ## Levels -/

/-- What no read changes: the text, whether every source in it has a seek
    function, whether the size of every source in it is known, what the
    application has set in each of its parts, and the boundaries. -/
structure Fixed where
  text : Stream Byte
  seekable : Bool
  sized : Bool
  setup : List (Mimepart Unit)
  boundaries : List Boundary

/-- A level of a nested multipart. -/
structure Level (μ : Type) where
  read : ReadFn μ Byte
  seek : μ → μ × Bool
  size : μ → μ × Option Nat
  rest : μ → Stream Byte
  rank : μ → Nat
  fixed : μ → Fixed
  Inv : μ → Prop
  Fresh : μ → Prop
  Sound : μ → Prop

/-- Reading serves `rest` and leaves alone what is fixed. -/
def Level.Reads (L : Level μ) : Prop :=
  ∀ t, Serves (fun m => L.Inv m ∧ L.fixed m = t) L.rest L.rank L.read

/-- No level: there is nothing to read. -/
def Level.none : Level Empty where
  read := noSubparts
  seek := noSeek
  size := noSize
  rest := fun m => nomatch m
  rank := fun m => nomatch m
  fixed := fun m => nomatch m
  Inv := fun m => nomatch m
  Fresh := fun m => nomatch m
  Sound := fun m => nomatch m

theorem Level.none_reads : Level.none.Reads := fun _ _ _ _ m => nomatch m

/-! ## Segments -/

/-- `readback_bytes` hands over what its two strings have behind the offset. -/
theorem readbackBytes_spec {P : Type} {n : Nat} (hn : 0 < n) (bytes trail : List Byte)
    (st : MimeState P) {xs : List Byte} {st' : MimeState P}
    (h : readbackBytes n bytes trail st = (xs, st')) :
    st' = { st with offset := st'.offset } ∧ xs.length ≤ n ∧
      (bytes ++ trail).drop st.offset = xs ++ (bytes ++ trail).drop st'.offset ∧
      (xs = [] → (bytes ++ trail).drop st.offset = []) := by
  obtain ⟨rfl, rfl⟩ := Prod.mk.inj h
  -- the string the call copies from is the first of the two that is not used up
  obtain ⟨hpre, hnil⟩ : (if bytes.length > st.offset then bytes.drop st.offset
      else trail.drop (st.offset - bytes.length)) <+: (bytes ++ trail).drop st.offset ∧
      ((if bytes.length > st.offset then bytes.drop st.offset
      else trail.drop (st.offset - bytes.length)) = [] → (bytes ++ trail).drop st.offset = []) := by
    by_cases hin : bytes.length > st.offset
    · rw [if_pos hin, List.drop_append_of_le_length (by omega)]
      refine ⟨List.prefix_append _ _, fun hnil => ?_⟩
      have hlen := List.drop_eq_nil_iff.mp hnil
      omega
    · have hbytes : bytes.drop st.offset = [] := List.drop_of_length_le (by omega)
      rw [if_neg hin, List.drop_append, hbytes, List.nil_append]
      exact ⟨List.prefix_rfl, fun hnil => hnil⟩
  refine ⟨rfl, List.length_take_le _ _, ?_, ?_⟩
  · rw [← List.drop_drop]
    exact (List.prefix_iff_eq_append.mp ((List.take_prefix _ _).trans hpre)).symm
  · intro hxs
    exact hnil ((List.take_eq_nil_iff.mp hxs).resolve_left (by omega))

/-! ## The content of a part -/

namespace OpenFile

variable (f : OpenFile) (n : Nat)

theorem fread_append :
    (f.fread n).1 ++ f.bytes.drop (f.pos + (f.fread n).1.length) = f.bytes.drop f.pos := by
  rw [← List.drop_drop]
  exact List.prefix_iff_eq_append.mp (List.take_prefix n (f.bytes.drop f.pos))

variable {f n}

/-- A stream that meets its end stands behind its last byte. -/
theorem length_le_of_eof (hmore : f.eof = false) (h : (f.fread n).2.eof = true) :
    (f.fread n).2.bytes.length ≤ (f.fread n).2.pos := by
  simp only [fread, hmore, Bool.false_or, decide_eq_true_eq, List.length_take,
    List.length_drop] at h ⊢
  omega

end OpenFile

/-- What a file has to deliver when it is opened. -/
def FileSys.text (fs : FileSys) (name : Option CStr) : Stream Byte :=
  match name.bind fs.fopen with
  | none => .broken
  | some bytes => .ofList bytes

namespace Content

variable (fs : FileSys) (L : Level μ)

/-- What is still to be read of a content of which `offset` bytes were read. -/
def rest (offset : Nat) : Content μ → Stream Byte
  | .NONE => .done
  | .DATA data => .ofList (data.drop offset)
  | .FILE name _ none => fs.text name
  | .FILE _ _ (some f) => .ofList (f.bytes.drop f.pos)
  | .MULTIPART arg _ => L.rest arg

def rank : Content μ → Nat
  | .MULTIPART arg _ => L.rank arg
  | _ => 0

/-- A content of which nothing was read, without its subparts. -/
def source : Content μ → Content Unit
  | .NONE => .NONE
  | .DATA data => .DATA data
  | .FILE name datasize _ => .FILE name datasize none
  | .MULTIPART _ _ => .MULTIPART () none

def fixed (c : Content μ) : Fixed :=
  let setup := (initpart : Mimepart Unit).setContent c.source
  match c with
  | .NONE =>
      { text := .done, seekable := false, sized := true, setup := [setup], boundaries := [] }
  | .DATA data =>
      { text := .ofList data, seekable := true, sized := true, setup := [setup], boundaries := [] }
  | .FILE name datasize _ =>
      { text := fs.text name, seekable := datasize.isSome, sized := datasize.isSome,
        setup := [setup], boundaries := [] }
  | .MULTIPART arg _ => { L.fixed arg with setup := setup :: (L.fixed arg).setup }

/-- What is fixed of a multipart follows from what is fixed of its subparts. -/
theorem fixed_multipart {arg arg' : μ} (h : L.fixed arg' = L.fixed arg) (d d' : Option Nat) :
    (.MULTIPART arg' d' : Content μ).fixed fs L = (.MULTIPART arg d : Content μ).fixed fs L := by
  simp only [fixed, h, source]

/-- A file has a name, an open file is the one that its name opens, and a known size
    is its size. -/
def Sound (Sub : μ → Prop) : Content μ → Prop
  | .NONE => True
  | .DATA _ => True
  | .FILE name datasize fp =>
      (∀ f, fp = some f → name.bind fs.fopen = some f.bytes) ∧
        (∀ d, datasize = some d → ∃ bytes, name.bind fs.fopen = some bytes ∧ bytes.length = d) ∧
        name.isSome = true
  | .MULTIPART arg _ => Sub arg

/-- Nothing was read of the sources. -/
def Fresh : Content μ → Prop
  | .NONE => True
  | .DATA _ => True
  | .FILE _ _ fp => ∀ f, fp = some f → f.pos = 0 ∧ f.eof = false
  | .MULTIPART arg _ => L.Fresh arg

/-- The sources stand where `offset` bytes were read. -/
def Placed (offset : Nat) : Content μ → Prop
  | .NONE => True
  | .DATA _ => True
  | .FILE _ _ none => offset = 0
  | .FILE _ _ (some f) => f.pos = offset ∧ (f.eof = true → f.bytes.length ≤ f.pos)
  | .MULTIPART arg datasize =>
      ∀ d, datasize = some d → ∃ xs, L.rest arg = .ofList xs ∧ offset + xs.length = d

/-- What a read of a content comes to. -/
inductive ReadTo (hasread : Bool) (n offset : Nat) (c c' : Content μ) : Fetch Byte → Prop where
  | data {xs : List Byte} (hne : xs ≠ []) (hroom : xs.length ≤ n)
      (hrest : c.rest fs L offset = (c'.rest fs L (offset + xs.length)).prepend xs)
      (hplaced : c'.Placed L (offset + xs.length)) : ReadTo hasread n offset c c' (.data xs)
  | eof (hrest : c.rest fs L offset = .done)
      (hsub : ∀ arg d, c' = .MULTIPART arg d → L.rest arg = .done) :
      ReadTo hasread n offset c c' (.data [])
  | error (hrest : c.rest fs L offset = .broken) : ReadTo hasread n offset c c' .error
  | stop (hrest : c'.rest fs L offset = c.rest fs L offset) (hplaced : c'.Placed L offset)
      (hwhy : hasread = true ∨ c'.rank L < c.rank L) : ReadTo hasread n offset c c' .stop

variable {fs L}

/-- Where the size says that the end is reached, nothing is left. -/
theorem rest_eq_done {c : Content μ} {offset d : Nat} (hsound : c.Sound fs L.Inv)
    (hplaced : c.Placed L offset) (hd : c.datasize = some d) (hle : d ≤ offset) :
    c.rest fs L offset = .done := by
  match c with
  | .NONE => rfl
  | .DATA data =>
      obtain rfl : data.length = d := Option.some.inj hd
      show Stream.ofList (data.drop offset) = .done
      rw [List.drop_of_length_le hle]
      rfl
  | .FILE name datasize none =>
      obtain ⟨bytes, hopen, hlen⟩ := hsound.2.1 d hd
      have hzero : offset = 0 := hplaced
      obtain rfl : bytes = [] := List.length_eq_zero_iff.mp (by omega)
      simp [rest, FileSys.text, hopen, Stream.ofList, Stream.done]
  | .FILE name datasize (some f) =>
      obtain ⟨bytes, hopen, hlen⟩ := hsound.2.1 d hd
      obtain rfl : bytes = f.bytes := Option.some.inj (hopen.symm.trans (hsound.1 f rfl))
      obtain ⟨hpos, -⟩ : f.pos = offset ∧ _ := hplaced
      show Stream.ofList (f.bytes.drop f.pos) = .done
      rw [List.drop_of_length_le (by omega)]
      rfl
  | .MULTIPART arg datasize =>
      obtain ⟨xs, hrest, hlen⟩ := hplaced d hd
      obtain rfl : xs = [] := List.length_eq_zero_iff.mp (by omega)
      exact hrest

/-- An open stream at the offset hands over the next of its bytes. -/
theorem fread_readTo {name : Option CStr} {datasize : Option Nat} {fp : Option OpenFile} {f : OpenFile}
    {n : Nat} (hn : 0 < n) (hmore : f.eof = false)
    (hrest : (.FILE name datasize fp : Content μ).rest fs L f.pos = .ofList (f.bytes.drop f.pos)) :
    ReadTo fs L false n f.pos (.FILE name datasize fp) (.FILE name datasize (some (f.fread n).2))
      (.data (f.fread n).1) := by
  by_cases hnil : (f.fread n).1 = []
  · rw [hnil]
    refine .eof ?_ (by simp)
    rw [hrest, (List.take_eq_nil_iff.mp hnil).resolve_left (by omega)]
    rfl
  · refine .data hnil (List.length_take_le _ _) ?_ ⟨rfl, OpenFile.length_le_of_eof hmore⟩
    show _ = (Stream.ofList (f.bytes.drop (f.pos + (f.fread n).1.length))).prepend (f.fread n).1
    rw [hrest, Stream.prepend_ofList, OpenFile.fread_append]

/-- A read of a content comes back, with what comes next. -/
def ReadsOn (fs : FileSys) (L : Level μ) (fuel n : Nat) (hasread : Bool) (offset : Nat)
    (c : Content μ) : Prop :=
  ∃ c' hasread' r, Mimepart.readContent fs L.read fuel n hasread offset c = some (c', hasread', r) ∧
    c'.Sound fs L.Inv ∧ c'.fixed fs L = c.fixed fs L ∧ c'.rank L ≤ c.rank L ∧
    ReadTo fs L hasread n offset c c' r

section ReadsOn

variable {fuel n offset : Nat} {hasread : Bool} {name : Option CStr} {datasize : Option Nat}
  {fp : Option OpenFile} {f : OpenFile}

theorem readsOn_data (data : List Byte) (hn : 0 < n) :
    ReadsOn fs L fuel n hasread offset (.DATA data) := by
  refine ⟨.DATA data, hasread, _, rfl, trivial, rfl, Nat.le_refl _, ?_⟩
  by_cases hnil : (data.drop offset).take n = []
  · rw [hnil]
    refine .eof ?_ (by simp)
    show Stream.ofList (data.drop offset) = .done
    rw [(List.take_eq_nil_iff.mp hnil).resolve_left (by omega)]
    rfl
  · refine .data hnil (List.length_take_le _ _) ?_ trivial
    show Stream.ofList (data.drop offset) = (Stream.ofList (data.drop (offset + _))).prepend _
    rw [Stream.prepend_ofList, ← List.drop_drop,
      List.prefix_iff_eq_append.mp (List.take_prefix n (data.drop offset))]

/-- A file that is open, or could be opened now, and has not met its end. -/
theorem readsOn_opened (hsound : (.FILE name datasize fp : Content μ).Sound fs L.Inv) (hn : 0 < n)
    (hopen : Mimepart.openFile fs name fp = some (some f)) (hfile : name.bind fs.fopen = some f.bytes)
    (hfp : fp.any OpenFile.eof = false) (hmore : f.eof = false)
    (hrest : (.FILE name datasize fp : Content μ).rest fs L f.pos = .ofList (f.bytes.drop f.pos)) :
    ReadsOn fs L fuel n false f.pos (.FILE name datasize fp) := by
  refine ⟨.FILE name datasize (some (f.fread n).2), true, .data (f.fread n).1, ?_,
    ⟨?_, hsound.2⟩, rfl, Nat.le_refl _, fread_readTo hn hmore hrest⟩
  · simp [Mimepart.readContent, Mimepart.fileRead, hopen, hfp]
  · intro g hg
    obtain rfl := Option.some.inj hg
    exact hfile

/-- A file of which nothing was read. -/
theorem readsOn_closed (hsound : (.FILE name datasize none : Content μ).Sound fs L.Inv)
    (hn : 0 < n) : ReadsOn fs L fuel n hasread 0 (.FILE name datasize none) := by
  cases hasread with
  | true => exact ⟨_, _, _, rfl, hsound, rfl, Nat.le_refl _, .stop rfl rfl (Or.inl rfl)⟩
  | false =>
      obtain ⟨path, rfl⟩ := Option.isSome_iff_exists.mp hsound.2.2
      cases hopen : fs.fopen path with
      | none =>
          refine ⟨.FILE (some path) datasize none, true, .error, ?_, hsound, rfl, Nat.le_refl _, ?_⟩
          · simp [Mimepart.readContent, Mimepart.fileRead, Mimepart.openFile, hopen]
          · exact .error (by simp [rest, FileSys.text, hopen])
      | some bytes =>
          let f : OpenFile := { bytes := bytes, pos := 0, eof := false }
          have hnow : Mimepart.openFile fs (some path) none = some (some f) := by
            simp [Mimepart.openFile, hopen, f]
          exact readsOn_opened hsound hn hnow hopen rfl rfl (by simp [rest, FileSys.text, hopen, f])

/-- A file that is open. -/
theorem readsOn_open (hsound : (.FILE name datasize (some f) : Content μ).Sound fs L.Inv)
    (heof : f.eof = true → f.bytes.length ≤ f.pos) (hn : 0 < n) :
    ReadsOn fs L fuel n hasread f.pos (.FILE name datasize (some f)) := by
  cases hmore : f.eof with
  | true =>
      refine ⟨.FILE name datasize (some f), hasread, .data [], ?_, hsound, rfl, Nat.le_refl _, ?_⟩
      · simp [Mimepart.readContent, hmore]
      · refine .eof ?_ (by simp)
        show Stream.ofList (f.bytes.drop f.pos) = .done
        rw [List.drop_of_length_le (heof hmore)]
        rfl
  | false =>
      cases hasread with
      | true =>
          refine ⟨.FILE name datasize (some f), true, .stop, ?_, hsound, rfl, Nat.le_refl _, ?_⟩
          · simp [Mimepart.readContent, hmore]
          · exact .stop rfl ⟨rfl, heof⟩ (Or.inl rfl)
      | false => exact readsOn_opened hsound hn rfl (hsound.1 f rfl) hmore hmore rfl

theorem readsOn_multipart (hL : L.Reads) {arg : μ} (hinv : L.Inv arg)
    (hplaced : (.MULTIPART arg datasize : Content μ).Placed L offset) (hn : 0 < n)
    (hfuel : n + L.rank arg < fuel) :
    ReadsOn fs L fuel n hasread offset (.MULTIPART arg datasize) := by
  obtain ⟨arg', hasread', r, hrun, ⟨hinv', hfixed⟩, hrank, hserved⟩ :=
    @hL (L.fixed arg) fuel n hasread arg ⟨hinv, rfl⟩ hn hfuel
  refine ⟨.MULTIPART arg' datasize, hasread', r, ?_, hinv', fixed_multipart fs L hfixed _ _, hrank, ?_⟩
  · simp [Mimepart.readContent, hrun]
  · cases hserved with
    | @data xs hne hroom hrest =>
        refine .data hne hroom hrest ?_
        -- what is left has become shorter by what was read
        intro d hd
        obtain ⟨ys, hys, hlen⟩ := hplaced d hd
        rw [hys] at hrest
        obtain ⟨hvalues, hending⟩ := Stream.ext_iff.mp hrest
        refine ⟨(L.rest arg').values, Stream.ext rfl hending.symm, ?_⟩
        have hsum : ys.length = xs.length + (L.rest arg').values.length := by
          rw [← List.length_append]
          exact congrArg List.length hvalues
        omega
    | eof hrest hrest' =>
        refine .eof hrest ?_
        rintro m d hm
        obtain ⟨rfl, -⟩ := Content.MULTIPART.inj hm
        exact hrest'
    | error hrest hrest' => exact .error hrest
    | stop hrest hwhy =>
        refine .stop hrest ?_ hwhy
        intro d hd
        rw [hrest]
        exact hplaced d hd

/-- A read of a content that has not met the end of its file delivers what comes
    next. -/
theorem readContent_spec (hL : L.Reads) {c : Content μ} (hsound : c.Sound fs L.Inv)
    (hplaced : c.Placed L offset) (hn : 0 < n) (hfuel : n + c.rank L < fuel) :
    ReadsOn fs L fuel n hasread offset c := by
  match c with
  | .NONE => exact ⟨.NONE, hasread, _, rfl, trivial, rfl, Nat.le_refl _, .eof rfl (by simp)⟩
  | .DATA data => exact readsOn_data data hn
  | .FILE name datasize none =>
      obtain rfl : offset = 0 := hplaced
      exact readsOn_closed hsound hn
  | .FILE name datasize (some f) =>
      obtain ⟨rfl, heof⟩ : f.pos = offset ∧ _ := hplaced
      exact readsOn_open hsound heof hn
  | .MULTIPART arg datasize => exact readsOn_multipart hL hsound hplaced hn hfuel

end ReadsOn

theorem Sound.close {Sub : μ → Prop} {c : Content μ} (h : c.Sound fs Sub) :
    c.close.Sound fs Sub := by
  cases c with
  | FILE name datasize fp => exact ⟨by simp, h.2⟩
  | _ => exact h

theorem close_eq_multipart {c : Content μ} {arg : μ} {d : Option Nat}
    (h : c.close = .MULTIPART arg d) : c = .MULTIPART arg d := by
  cases c with
  | FILE name datasize fp => cases h
  | _ => exact h

end Content

end Curl1C.Mime
