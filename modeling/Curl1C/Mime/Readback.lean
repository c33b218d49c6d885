/-
  Curl1C.Mime.Readback

  What `readback_part` delivers: the headers of the part, and then its content.

  Main result: `Mimepart.level_reads` derives the level of a part from that of
  its subparts.
-/

import Curl1C.Mime.Content

namespace Curl1C.Mime

open Lib

variable {μ : Type}

/-! ## Parts -/

/-- Header lines. -/
def headerText (hdrs : List CStr) : List Byte := hdrs.flatMap fun hdr => hdr.bytes ++ crlf

/-- The caller's headers that are read back: not the content type, which is
    among the generated ones. -/
def keptHeaders (hdrs : List CStr) : List CStr :=
  hdrs.filter fun hdr => (matchHeader hdr contentType).isNone

/-- The lines from the pointer on, the first from the offset on. -/
def linesFrom (offset : Nat) : List CStr → List Byte
  | [] => []
  | hdr :: next => (hdr.bytes ++ crlf).drop offset ++ headerText next

/-- The same for the caller's headers. -/
def keptLinesFrom (offset : Nat) : List CStr → List Byte
  | [] => []
  | hdr :: next =>
      if (matchHeader hdr contentType).isSome then headerText (keptHeaders next)
      else (hdr.bytes ++ crlf).drop offset ++ headerText (keptHeaders next)

theorem linesFrom_zero (hdrs : List CStr) : linesFrom 0 hdrs = headerText hdrs := by
  cases hdrs <;> rfl

theorem keptLinesFrom_zero (hdrs : List CStr) :
    keptLinesFrom 0 hdrs = headerText (keptHeaders hdrs) := by
  cases hdrs with
  | nil => rfl
  | cons hdr next =>
      cases hmatch : matchHeader hdr contentType with
      | none => simp [keptLinesFrom, keptHeaders, headerText, hmatch]
      | some value => simp [keptLinesFrom, keptHeaders, headerText, hmatch]

theorem linesFrom_cons (offset : Nat) (hdr : CStr) (next : List CStr) :
    linesFrom offset (hdr :: next) = (hdr.bytes ++ crlf).drop offset ++ headerText next := rfl

theorem keptLinesFrom_skip {hdr : CStr} (h : (matchHeader hdr contentType).isSome = true)
    (offset : Nat) (next : List CStr) :
    keptLinesFrom offset (hdr :: next) = headerText (keptHeaders next) := if_pos h

theorem keptLinesFrom_keep {hdr : CStr} (h : (matchHeader hdr contentType).isSome = false)
    (offset : Nat) (next : List CStr) :
    keptLinesFrom offset (hdr :: next) =
      (hdr.bytes ++ crlf).drop offset ++ headerText (keptHeaders next) := by
  rw [keptLinesFrom, h]
  rfl

/-- The states in which no content was read yet. -/
def Mimestate.inHeader : Mimestate → Bool
  | .BEGIN | .CURLHEADERS | .USERHEADERS | .EOH | .BODY => true
  | _ => false

namespace Mimepart

/-- The headers of a part with the empty line that ends them. -/
def headers (part : Mimepart μ) : List Byte :=
  headerText part.curlheaders ++ (headerText (keptHeaders part.userheaders) ++ crlf)

/-- What is still to be read in front of the content. -/
def pending (part : Mimepart μ) : List Byte :=
  match part.state.state with
  | .BEGIN => if part.bodyOnly then [] else part.headers
  | .CURLHEADERS =>
      linesFrom part.state.offset part.state.ptr ++
        (headerText (keptHeaders part.userheaders) ++ crlf)
  | .USERHEADERS => keptLinesFrom part.state.offset part.state.ptr ++ crlf
  | .EOH => crlf.drop part.state.offset
  | _ => []

variable (fs : FileSys) (L : Level μ)

/-- What is still to be read of a part. -/
def rest (part : Mimepart μ) : Stream Byte :=
  if part.state.state.inHeader then (part.content.rest fs L 0).prepend part.pending
  else if part.state.state = .CONTENT then
    match part.lastreadstatus with
    | .ok => part.content.rest fs L part.state.offset
    | .eof => .done
    | .error => .broken
  else .done

/-- The turns that read nothing until the part ends. -/
def rank (part : Mimepart μ) : Nat :=
  part.content.rank L +
    match part.state.state with
    | .BEGIN => part.curlheaders.length + part.userheaders.length + 6
    | .CURLHEADERS => part.state.ptr.length + part.userheaders.length + 5
    | .USERHEADERS => part.state.ptr.length + 4
    | .EOH => 3
    | .BODY => 2
    | .CONTENT => 1
    | _ => 0

/-- The labels of a part beside its content. -/
def label (part : Mimepart μ) (setup : Mimepart Unit) : Mimepart Unit :=
  { setup with
    bodyOnly := part.bodyOnly
    curlheaders := part.curlheaders
    userheaders := part.userheaders
    mimetype := part.mimetype
    filename := part.filename
    name := part.name }

def fixed (part : Mimepart μ) : Fixed :=
  { part.content.fixed fs L with
    text := (part.content.fixed fs L).text.prepend (if part.bodyOnly then [] else part.headers)
    setup := (part.content.fixed fs L).setup.modifyHead part.label }

/-- How far reading has come. -/
inductive Stage (part : Mimepart μ) : Prop where
  | unread (htok : part.state.state.inHeader = true) (hok : part.lastreadstatus = .ok)
      (hplaced : part.content.Placed L 0) (hfresh : part.content.Fresh L)
  | reading (htok : part.state.state = .CONTENT) (hok : part.lastreadstatus = .ok)
      (hplaced : part.content.Placed L part.state.offset)
  | failed (htok : part.state.state = .CONTENT) (hstatus : part.lastreadstatus = .error)
  | ended (htok : part.state.state = .END ∨
        part.state.state = .CONTENT ∧ part.lastreadstatus = .eof)
      (hsub : ∀ arg d, part.content = .MULTIPART arg d → L.rest arg = .done)

structure Inv (part : Mimepart μ) : Prop where
  sound : part.content.Sound fs L.Inv
  stage : part.Stage L

/-- A part as `mime_part_rewind` may find it. -/
structure Sound (part : Mimepart μ) : Prop where
  content : part.content.Sound fs L.Sound
  fresh : part.state.state.inHeader = true → part.content.Fresh L

/-- A part as it was set up or rewound. -/
structure Fresh (part : Mimepart μ) : Prop where
  content : part.content.Sound fs L.Sound
  tok : part.state.state = .BEGIN ∨ part.state.state = part.targetstate
  ok : part.lastreadstatus = .ok
  fresh : part.content.Fresh L

/-- A part as a level above its subparts. -/
def level : Level (Mimepart μ) where
  read := readbackPart fs L.read
  seek := mimePartRewind L.seek
  size := curlMimeSize L.size
  rest := rest fs L
  rank := rank L
  fixed := fixed fs L
  Inv := Inv fs L
  Fresh := Fresh fs L
  Sound := Sound fs L

variable {fs L} {part : Mimepart μ}

theorem rest_of_inHeader (h : part.state.state.inHeader = true) :
    part.rest fs L = (part.content.rest fs L 0).prepend part.pending := by
  rw [rest, if_pos h]

theorem rest_of_ok (h : part.state.state = .CONTENT) (hok : part.lastreadstatus = .ok) :
    part.rest fs L = part.content.rest fs L part.state.offset := by
  simp [rest, h, hok, Mimestate.inHeader]

theorem rest_of_eof (h : part.state.state = .CONTENT) (heof : part.lastreadstatus = .eof) :
    part.rest fs L = .done := by
  simp [rest, h, heof, Mimestate.inHeader]

theorem rest_of_error (h : part.state.state = .CONTENT) (herr : part.lastreadstatus = .error) :
    part.rest fs L = .broken := by
  simp [rest, h, herr, Mimestate.inHeader]

theorem rest_of_end (h : part.state.state = .END) : part.rest fs L = .done := by
  simp [rest, h, Mimestate.inHeader]

/-! ### The content -/

theorem Inv.placed (h : part.Inv fs L) (htok : part.state.state = .CONTENT)
    (hok : part.lastreadstatus = .ok) : part.content.Placed L part.state.offset := by
  cases h.stage with
  | unread hin => simp [htok, Mimestate.inHeader] at hin
  | reading _ _ hplaced => exact hplaced
  | failed _ hstatus => simp [hok] at hstatus
  | ended hend => simp [htok, hok] at hend

theorem Inv.status_of_inHeader (h : part.Inv fs L) (hin : part.state.state.inHeader = true) :
    part.lastreadstatus = .ok := by
  cases h.stage with
  | unread _ hok => exact hok
  | reading _ hok => exact hok
  | failed htok => simp [htok, Mimestate.inHeader] at hin
  | ended htok => rcases htok with htok | ⟨htok, -⟩ <;> simp [htok, Mimestate.inHeader] at hin

theorem Inv.placed_of_inHeader (h : part.Inv fs L) (hin : part.state.state.inHeader = true) :
    part.content.Placed L 0 := by
  cases h.stage with
  | unread _ _ hplaced => exact hplaced
  | reading htok => simp [htok, Mimestate.inHeader] at hin
  | failed htok => simp [htok, Mimestate.inHeader] at hin
  | ended htok => rcases htok with htok | ⟨htok, -⟩ <;> simp [htok, Mimestate.inHeader] at hin

theorem Inv.fresh_of_inHeader (h : part.Inv fs L) (hin : part.state.state.inHeader = true) :
    part.content.Fresh L := by
  cases h.stage with
  | unread _ _ _ hfresh => exact hfresh
  | reading htok => simp [htok, Mimestate.inHeader] at hin
  | failed htok => simp [htok, Mimestate.inHeader] at hin
  | ended htok => rcases htok with htok | ⟨htok, -⟩ <;> simp [htok, Mimestate.inHeader] at hin

theorem Inv.not_boundary (h : part.Inv fs L) :
    part.state.state ≠ .BOUNDARY1 ∧ part.state.state ≠ .BOUNDARY2 := by
  cases h.stage with
  | unread hin => constructor <;> intro htok <;> simp [htok, Mimestate.inHeader] at hin
  | reading htok => simp [htok]
  | failed htok => simp [htok]
  | ended htok => rcases htok with htok | ⟨htok, -⟩ <;> simp [htok]

/-- A read that came to `r` leaves the part as the contract says. -/
theorem afterRead_served {content : Content μ} {hasread : Bool} {n : Nat} {r : Fetch Byte}
    (htok : part.state.state = .CONTENT) (hok : part.lastreadstatus = .ok)
    (hsound : content.Sound fs L.Inv) (hfixed : content.fixed fs L = part.content.fixed fs L)
    (hrank : content.rank L ≤ part.content.rank L)
    (hread : Content.ReadTo fs L hasread n part.state.offset part.content content r) :
    let part' := ({ part with content := content } : Mimepart μ).afterRead r
    (part'.Inv fs L ∧ part'.state.state = .CONTENT ∧ part'.fixed fs L = part.fixed fs L) ∧
      part'.rank L ≤ part.rank L ∧
      Served (rest fs L) (rank L) n hasread part part' r := by
  have hrest : part.rest fs L = part.content.rest fs L part.state.offset := rest_of_ok htok hok
  have hsame : ∀ q : Mimepart μ, q.content = content → q.bodyOnly = part.bodyOnly →
      q.curlheaders = part.curlheaders → q.userheaders = part.userheaders → q.label = part.label →
      q.fixed fs L = part.fixed fs L := by
    intro q hc hb hch hu hl
    simp only [fixed, headers, hc, hb, hch, hu, hl, hfixed]
  have hlow : ∀ q : Mimepart μ, q.content = content → q.state.state = .CONTENT →
      q.rank L ≤ part.rank L := by
    intro q hc hq
    simp only [rank, hc, hq, htok]
    omega
  cases hread with
  | @data xs hne hroom hafter hplaced =>
      obtain ⟨x, xs, rfl⟩ := List.exists_cons_of_ne_nil hne
      refine ⟨⟨⟨hsound, .reading htok rfl hplaced⟩, htok, hsame _ rfl rfl rfl rfl rfl⟩,
        hlow _ rfl htok, .data hne hroom ?_⟩
      rw [hrest, hafter]
      exact congrArg _ (Eq.symm (rest_of_ok htok rfl))
  | eof hend hsub =>
      exact ⟨⟨⟨hsound, .ended (Or.inr ⟨htok, rfl⟩) hsub⟩, htok, hsame _ rfl rfl rfl rfl rfl⟩,
        hlow _ rfl htok, .eof (hrest.trans hend) (rest_of_eof htok rfl)⟩
  | error hend =>
      exact ⟨⟨⟨hsound, .failed htok rfl⟩, htok, hsame _ rfl rfl rfl rfl rfl⟩, hlow _ rfl htok,
        .error (hrest.trans hend) (rest_of_error htok rfl)⟩
  | stop hafter hplaced hwhy =>
      refine ⟨⟨⟨hsound, .reading htok hok hplaced⟩, htok, hsame _ rfl rfl rfl rfl rfl⟩, hlow _ rfl htok,
        .stop ?_ ?_⟩
      · rw [hrest, ← hafter]
        exact rest_of_ok htok hok
      · refine hwhy.imp_right fun hlt => ?_
        simp only [rank, afterRead, htok]
        omega

/-- Reading the content serves what is left of it. -/
theorem readPartContent_serves (hL : L.Reads) (t : Fixed) :
    Serves (fun part : Mimepart μ => part.Inv fs L ∧ part.state.state = .CONTENT ∧ part.fixed fs L = t)
      (rest fs L) (rank L) (readPartContent fs L.read) := by
  rintro fuel n hasread part ⟨hinv, htok, rfl⟩ hn hfuel
  have hrank : part.rank L = part.content.rank L + 1 := by simp [rank, htok]
  cases hstage : part.lastreadstatus with
  | eof =>
      have hrest : part.rest fs L = .done := rest_of_eof htok hstage
      exact ⟨part, hasread, .data [], by simp [readPartContent, hstage], ⟨hinv, htok, rfl⟩,
        Nat.le_refl _, .eof hrest hrest⟩
  | error =>
      have hrest : part.rest fs L = .broken := rest_of_error htok hstage
      exact ⟨part, hasread, .error, by simp [readPartContent, hstage], ⟨hinv, htok, rfl⟩,
        Nat.le_refl _, .error hrest hrest⟩
  | ok =>
      have hplaced := hinv.placed htok hstage
      cases hend : part.atEnd with
      | true =>
          -- the size tells the end: the source is not asked
          obtain ⟨d, hd, hle⟩ : ∃ d, part.content.datasize = some d ∧ d ≤ part.state.offset := by
            simpa [atEnd, Option.any_eq_true] using hend
          have hdone := Content.rest_eq_done hinv.sound hplaced hd hle
          have hserved := @afterRead_served μ fs L part part.content hasread n (.data []) htok hstage
            hinv.sound rfl (Nat.le_refl _) (.eof hdone fun arg d harg => by
              rw [harg] at hdone
              exact hdone)
          refine ⟨part.afterRead (.data []), hasread, .data [], ?_, hserved.1, hserved.2⟩
          simp [readPartContent, hstage, hend]
      | false =>
          obtain ⟨content, hasread', r, hrun, hsound, hfixed, hlow, hread⟩ :=
            @Content.readContent_spec μ fs L fuel n part.state.offset hasread hL part.content
              hinv.sound hplaced hn (by omega)
          have hserved := afterRead_served htok hstage hsound hfixed hlow hread
          exact ⟨_, hasread', r, by simp [readPartContent, hstage, hend, hrun], hserved.1, hserved.2⟩

/-! ### The headers -/

/-- What a turn of the loop of `readback_part` has to come to. -/
def TurnsTo (fs : FileSys) (L : Level μ) (n : Nat) (hasread : Bool) (part : Mimepart μ)
    (out : Option (Mimepart μ × Bool × Turn Byte)) : Prop :=
  ∃ q hasread' t, out = some (q, hasread', t) ∧ (q.Inv fs L ∧ q.fixed fs L = part.fixed fs L) ∧
    q.rank L ≤ part.rank L ∧ Turned (rest fs L) (rank L) n hasread part q t

/-- A turn in the headers that takes the next of what is pending. -/
theorem turned_in_header {n : Nat} {hasread : Bool} {st : MimeState (List CStr)} {xs : List Byte}
    (hinv : part.Inv fs L) (htok : part.state.state.inHeader = true)
    (hst : st.state.inHeader = true)
    (hpend : part.pending = xs ++ ({ part with state := st } : Mimepart μ).pending)
    (hroom : xs.length ≤ n) (hrank : ({ part with state := st } : Mimepart μ).rank L ≤ part.rank L)
    (hlow : xs = [] → ({ part with state := st } : Mimepart μ).rank L < part.rank L) :
    part.TurnsTo fs L n hasread (some ({ part with state := st }, hasread, .emit xs)) := by
  refine ⟨_, _, _, rfl, ⟨⟨hinv.sound, ?_⟩, rfl⟩, hrank, .emit hroom ?_ hlow⟩
  · exact .unread hst (hinv.status_of_inHeader htok) (hinv.placed_of_inHeader htok)
      (hinv.fresh_of_inHeader htok)
  · rw [rest_of_inHeader htok, hpend, ← Stream.prepend_prepend]
    exact congrArg _ (Eq.symm (rest_of_inHeader hst))

theorem goto_turnsTo {n : Nat} {hasread : Bool} {tok : Mimestate} {ptr : List CStr}
    (hinv : part.Inv fs L) (htok : part.state.state.inHeader = true) (hst : tok.inHeader = true)
    (hpend : part.pending = ({ part with state := mimesetstate tok ptr } : Mimepart μ).pending)
    (hlow : ({ part with state := mimesetstate tok ptr } : Mimepart μ).rank L < part.rank L) :
    part.TurnsTo fs L n hasread (part.goto tok ptr hasread) :=
  turned_in_header hinv htok hst hpend (Nat.zero_le n) (Nat.le_of_lt hlow) fun _ => hlow

/-- A segment is read to its end, and then the next state is entered. -/
theorem segment_turnsTo {n : Nat} {hasread : Bool} {bytes trail : List Byte} {tok : Mimestate}
    {ptr : List CStr} (hn : 0 < n) (hinv : part.Inv fs L)
    (htok : part.state.state.inHeader = true) (hst : tok.inHeader = true)
    (hpend : ∀ offset, ({ part with state := { part.state with offset := offset } } :
      Mimepart μ).pending = (bytes ++ trail).drop offset ++
        ({ part with state := mimesetstate tok ptr } : Mimepart μ).pending)
    (hlow : ({ part with state := mimesetstate tok ptr } : Mimepart μ).rank L < part.rank L) :
    part.TurnsTo fs L n hasread (part.segment n bytes trail tok ptr hasread) := by
  obtain ⟨xs, st, hread⟩ : ∃ xs st, readbackBytes n bytes trail part.state = (xs, st) := ⟨_, _, rfl⟩
  obtain ⟨hstate, hroom, htext, hend⟩ := readbackBytes_spec hn bytes trail part.state hread
  have hhere : part.pending = (bytes ++ trail).drop part.state.offset ++
      ({ part with state := mimesetstate tok ptr } : Mimepart μ).pending := hpend part.state.offset
  by_cases hnil : xs = []
  · have hgo : part.segment n bytes trail tok ptr hasread = part.goto tok ptr hasread := by
      simp [segment, hread, hnil]
    rw [hgo]
    refine goto_turnsTo hinv htok hst ?_ hlow
    rw [hhere, hend hnil, List.nil_append]
  · have hgo : part.segment n bytes trail tok ptr hasread =
        some ({ part with state := st }, hasread, .emit xs) := by
      simp [segment, hread, hnil]
    rw [hgo]
    refine turned_in_header hinv htok ?_ ?_ hroom ?_ fun h => absurd h hnil
    · rw [hstate]
      exact htok
    · rw [hhere, htext, hstate, List.append_assoc, ← hpend]
    · rw [hstate]
      exact Nat.le_refl _

/-! ### The loop -/

/-- The subparts of a content that has ended have ended. -/
theorem Inv.sub_done (hinv : part.Inv fs L) (htok : part.state.state = .CONTENT)
    (hrest : part.rest fs L = .done) :
    ∀ arg d, part.content = .MULTIPART arg d → L.rest arg = .done := by
  intro arg d hcontent
  cases hinv.stage with
  | unread hin => simp [htok, Mimestate.inHeader] at hin
  | reading _ hok =>
      rw [rest_of_ok htok hok, hcontent] at hrest
      exact hrest
  | failed _ hstatus =>
      rw [rest_of_error htok hstatus] at hrest
      cases hrest
  | ended _ hsub => exact hsub arg d hcontent

/-- The part once its content has ended. -/
theorem finish_spec (hinv : part.Inv fs L)
    (hsub : ∀ arg d, part.content = .MULTIPART arg d → L.rest arg = .done) :
    (part.finish.Inv fs L ∧ part.finish.fixed fs L = part.fixed fs L) ∧
      part.finish.rank L ≤ part.rank L ∧ part.finish.rest fs L = .done := by
  have hfixed : part.content.close.fixed fs L = part.content.fixed fs L := by
    cases part.content <;> rfl
  have hrank : part.content.close.rank L = part.content.rank L := by
    cases part.content <;> rfl
  refine ⟨⟨⟨hinv.sound.close, .ended (Or.inl rfl) ?_⟩, ?_⟩, ?_, rest_of_end rfl⟩
  · intro arg d hclose
    exact hsub arg d (Content.close_eq_multipart hclose)
  · simp only [fixed, finish, hfixed]
    rfl
  · simp only [rank, finish, mimesetstate, hrank]
    omega

/-- One turn of the loop of `readback_part`. -/
theorem turn_turns (hL : L.Reads) (t : Fixed) :
    Turns (fun part : Mimepart μ => part.Inv fs L ∧ part.fixed fs L = t) (rest fs L) (rank L)
      (turn fs L.read) := by
  rintro fuel n hasread part ⟨hinv, rfl⟩ hn hfuel
  show part.TurnsTo fs L n hasread (turn fs L.read fuel n hasread part)
  cases htok : part.state.state with
  | BEGIN =>
      have hin : part.state.state.inHeader = true := by rw [htok]; rfl
      cases hbody : part.bodyOnly with
      | true =>
          have hgo : turn fs L.read fuel n hasread part =
              part.goto .BODY part.curlheaders hasread := by
            simp [turn, htok, hbody]
          rw [hgo]
          refine goto_turnsTo hinv hin rfl ?_ ?_
          · simp [pending, htok, hbody, mimesetstate]
          · simp [rank, htok, mimesetstate]
      | false =>
          have hgo : turn fs L.read fuel n hasread part =
              part.goto .CURLHEADERS part.curlheaders hasread := by
            simp [turn, htok, hbody]
          rw [hgo]
          refine goto_turnsTo hinv hin rfl ?_ ?_
          · simp [pending, htok, hbody, mimesetstate, headers, linesFrom_zero]
          · simp [rank, htok, mimesetstate]
  | CURLHEADERS =>
      have hin : part.state.state.inHeader = true := by rw [htok]; rfl
      cases hptr : part.state.ptr with
      | nil =>
          have hgo : turn fs L.read fuel n hasread part =
              part.goto .USERHEADERS part.userheaders hasread := by
            simp [turn, htok, hptr]
          rw [hgo]
          refine goto_turnsTo hinv hin rfl ?_ ?_
          · simp [pending, htok, hptr, mimesetstate, linesFrom, keptLinesFrom_zero]
          · simp [rank, htok, hptr, mimesetstate]
      | cons hdr next =>
          have hgo : turn fs L.read fuel n hasread part =
              part.segment n hdr.bytes crlf .CURLHEADERS next hasread := by
            simp [turn, htok, hptr]
          rw [hgo]
          refine segment_turnsTo hn hinv hin rfl ?_ ?_
          · intro offset
            simp [pending, htok, hptr, mimesetstate, linesFrom_cons, linesFrom_zero]
          · simp [rank, htok, hptr, mimesetstate]
  | USERHEADERS =>
      have hin : part.state.state.inHeader = true := by rw [htok]; rfl
      cases hptr : part.state.ptr with
      | nil =>
          have hgo : turn fs L.read fuel n hasread part = part.goto .EOH [] hasread := by
            simp [turn, htok, hptr]
          rw [hgo]
          refine goto_turnsTo hinv hin rfl ?_ ?_
          · simp [pending, htok, hptr, mimesetstate, keptLinesFrom]
          · simp [rank, htok, hptr, mimesetstate]
      | cons hdr next =>
          cases hmatch : (matchHeader hdr contentType).isSome with
          | true =>
              have hgo : turn fs L.read fuel n hasread part =
                  part.goto .USERHEADERS next hasread := by
                simp [turn, htok, hptr, hmatch]
              rw [hgo]
              refine goto_turnsTo hinv hin rfl ?_ ?_
              · simp [pending, htok, hptr, mimesetstate, keptLinesFrom_skip hmatch,
                  keptLinesFrom_zero]
              · simp [rank, htok, hptr, mimesetstate]
          | false =>
              have hgo : turn fs L.read fuel n hasread part =
                  part.segment n hdr.bytes crlf .USERHEADERS next hasread := by
                simp [turn, htok, hptr, hmatch]
              rw [hgo]
              refine segment_turnsTo hn hinv hin rfl ?_ ?_
              · intro offset
                simp [pending, htok, hptr, mimesetstate, keptLinesFrom_keep hmatch,
                  keptLinesFrom_zero]
              · simp [rank, htok, hptr, mimesetstate]
  | EOH =>
      have hin : part.state.state.inHeader = true := by rw [htok]; rfl
      have hgo : turn fs L.read fuel n hasread part = part.segment n crlf [] .BODY [] hasread := by
        simp [turn, htok]
      rw [hgo]
      refine segment_turnsTo hn hinv hin rfl ?_ ?_
      · intro offset
        simp [pending, htok, mimesetstate]
      · simp [rank, htok, mimesetstate]
  | BODY =>
      have hin : part.state.state.inHeader = true := by rw [htok]; rfl
      have hok := hinv.status_of_inHeader hin
      let q : Mimepart μ := { part with state := mimesetstate .CONTENT [] }
      have hrest : q.rest fs L = part.content.rest fs L 0 := rest_of_ok rfl hok
      refine ⟨q, hasread, .emit [], by simp [turn, htok, goto, q],
        ⟨⟨hinv.sound, .reading rfl hok (hinv.placed_of_inHeader hin)⟩, rfl⟩, ?_,
        .emit (Nat.zero_le n) ?_ ?_⟩
      · simp [rank, htok, mimesetstate, q]
      · simp [rest_of_inHeader hin, pending, htok, hrest]
      · simp [rank, htok, mimesetstate, q]
  | CONTENT =>
      obtain ⟨q, hasread', r, hrun, ⟨hinvQ, htokQ, hfixed⟩, hrank, hserved⟩ :=
        @readPartContent_serves μ fs L hL (part.fixed fs L) fuel n hasread part ⟨hinv, htok, rfl⟩ hn hfuel
      cases hserved with
      | @data xs hne hroom hrest =>
          obtain ⟨x, xs, rfl⟩ := List.exists_cons_of_ne_nil hne
          exact ⟨q, hasread', .emit (x :: xs), by simp [turn, htok, hrun], ⟨hinvQ, hfixed⟩, hrank,
            .emit hroom hrest fun h => absurd h hne⟩
      | eof hrest hrest' =>
          obtain ⟨⟨hinvF, hfixedF⟩, hrankF, hrestF⟩ :=
            finish_spec hinvQ (hinvQ.sub_done htokQ hrest')
          exact ⟨q.finish, hasread', .ret (.data []), by simp [turn, htok, hrun],
            ⟨hinvF, hfixedF.trans hfixed⟩, Nat.le_trans hrankF hrank,
            .ret (.eof hrest hrestF) fun xs h => (Fetch.data.inj h).symm⟩
      | error hrest hrest' =>
          exact ⟨q, hasread', .ret .error, by simp [turn, htok, hrun], ⟨hinvQ, hfixed⟩, hrank,
            .ret (.error hrest hrest') fun xs h => nomatch h⟩
      | stop hrest hwhy =>
          exact ⟨q, hasread', .ret .stop, by simp [turn, htok, hrun], ⟨hinvQ, hfixed⟩, hrank,
            .ret (.stop hrest hwhy) fun xs h => nomatch h⟩
  | END =>
      have hrest : part.rest fs L = .done := rest_of_end htok
      exact ⟨part, hasread, .ret (.data []), by simp [turn, htok], ⟨hinv, rfl⟩, Nat.le_refl _,
        .ret (.eof hrest hrest) fun xs h => (Fetch.data.inj h).symm⟩
  | BOUNDARY1 => exact absurd htok hinv.not_boundary.1
  | BOUNDARY2 => exact absurd htok hinv.not_boundary.2

/-- `readback_part` reads what is left of the part, whatever its subparts are. -/
theorem level_reads (hL : L.Reads) : (level fs L).Reads := fun t => fill_serves (turn_turns hL t)

end Mimepart

end Curl1C.Mime
