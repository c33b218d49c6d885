/-
  Curl1C.Mime.Headers

  The headers libcurl generates for the parts of a form (mime.c), and what
  `Curl_http_body` (http.c) does with the form in front of a transfer.

  Texts are built in growing buffers, so each of them may be refused because it
  is too long or because there is no memory.  `generated` states the headers of a
  part as texts; `prepareHeaders_spec` says that a part gets these or that memory
  ran out.
-/

import Curl1C.Mime.Part

namespace Curl1C.Mime

open Lib Dyn

variable {μ π : Type}

/-! ## Texts -/

/-- `enum mimestrategy`. -/
inductive Mimestrategy where
  | MAIL | FORM
deriving DecidableEq

/-- `mimetable`: a character and what replaces it. -/
def mimetable : List (Byte × List Byte) := [(0x5C, [0x5C, 0x5C]), (0x22, [0x5C, 0x22])]

/-- `formtable`: the quote as `%22`, CR as `%0D` and LF as `%0A`. -/
def formtable : List (Byte × List Byte) :=
  [(0x22, [0x25, 0x32, 0x32]), (0x0D, [0x25, 0x30, 0x44]), (0x0A, [0x25, 0x30, 0x41])]

/-- The table `escape_string` uses. -/
def escapeTable (formescape : Bool) (strategy : Mimestrategy) : List (Byte × List Byte) :=
  if strategy = .MAIL ∨ formescape then mimetable else formtable

/-- What is appended for one character. -/
def escapeChar (table : List (Byte × List Byte)) (c : Byte) : List Byte :=
  match table.find? fun p => decide (p.1 = c) with
  | some p => p.2
  | none => [c]

/-- `escape_string`; a failed append has freed the buffer, so NULL is returned. -/
def escapeString (mem : Memory) (table : List (Byte × List Byte)) (src : CStr) :
    Option (Option CStr) :=
  ((Dynbuf.init curlMaxInputLength).addn (mem []) []).bind fun (db, result) =>
    (if result ≠ .OK then some (db, result) else db.addEach (mem []) (escapeChar table) src.bytes).map
      fun (db, _) => db.bufr.map CStr.ofBuf

/-- `DYN_APRINTF`. -/
def dynAprintf : Nat := 8000000

/-- `curl_mvaprintf` of what the format and its arguments come to. -/
def curlMvaprintf (mem : Memory) (text : CStr) : Option (Option CStr) :=
  ((Dynbuf.init dynAprintf).addEach (mem []) (fun b => [b]) text.bytes).map fun (dyn, merr) =>
    if merr ≠ .OK then none
    else if dyn.leng ≠ 0 then dyn.bufr.map CStr.ofBuf
    else strdup (mem []) .empty

/-- `sizeof(struct curl_slist)` with pointers of 32 bits. -/
def sizeofSlist : Nat := 8

/-- `Curl_mime_add_header`. -/
def curlMimeAddHeader (mem : Memory) (slp : List CStr) (text : CStr) : Option (List CStr × CURLcode) :=
  (curlMvaprintf (mem.call 0) text).map fun s =>
    match s with
    | none => (slp, .OUT_OF_MEMORY)
    | some s =>
        if ((mem.call 1 []).realloc [] sizeofSlist).isSome then (slp ++ [s], .OK) else (slp, .OUT_OF_MEMORY)

/-! ## Content types -/

/-- `casecompare`. -/
def casecompare : List Byte → List Byte → Bool
  | a :: first, b :: second =>
      if rawToupper a ≠ rawToupper b then false else casecompare first second
  | first, second => first.isEmpty == second.isEmpty

/-- `ctts` of `Curl_mime_contenttype`. -/
def ctts : List (CStr × CStr) :=
  [(.lit ".gif", .lit "image/gif"), (.lit ".jpg", .lit "image/jpeg"),
    (.lit ".jpeg", .lit "image/jpeg"), (.lit ".png", .lit "image/png"),
    (.lit ".svg", .lit "image/svg+xml"), (.lit ".txt", .lit "text/plain"),
    (.lit ".htm", .lit "text/html"), (.lit ".html", .lit "text/html"),
    (.lit ".pdf", .lit "application/pdf"), (.lit ".xml", .lit "application/xml")]

/-- `Curl_mime_contenttype`. -/
def curlMimeContenttype (filename : Option CStr) : Option CStr :=
  filename.bind fun filename =>
    (ctts.find? fun ct => decide (filename.length ≥ ct.1.length) &&
      casecompare (filename.bytes.drop (filename.length - ct.1.length)) ct.1.bytes).map Prod.snd

/-- `content_type_match`. -/
def contentTypeMatch (contenttype : Option CStr) (target : CStr) : Bool :=
  contenttype.any fun contenttype =>
    strncasecompare contenttype target target.length &&
      [0, 0x09, 0x0D, 0x0A, 0x20, 0x3B].contains (symbol (contenttype.bytes.drop target.length))

/-! ## The headers of a part -/

/-- What `Curl_mime_prepare_headers` finds alike for a part and its subparts. -/
structure HeaderConfig where
  formescape : Bool
  strategy : Mimestrategy

def HeaderConfig.table (cfg : HeaderConfig) : List (Byte × List Byte) :=
  escapeTable cfg.formescape cfg.strategy

/-- Goes on unless there was an error. -/
def andOk {α : Type} (r : Option (α × CURLcode)) (k : α → Option (α × CURLcode)) : Option (α × CURLcode) :=
  r.bind fun (a, code) => if code = .OK then k a else some (a, code)

namespace Mimepart

/-- The content type given by the application. -/
def customct (part : Mimepart μ) : Option CStr :=
  part.mimetype.or ((searchHeader part.userheaders contentType).map CStr.ofBuf)

/-- The content type that is determined from the part. -/
def guessType (part : Mimepart μ) : Option CStr :=
  match part.content with
  | .MULTIPART _ _ => some (.lit "multipart/mixed")
  | .FILE data _ _ =>
      ((curlMimeContenttype part.filename).or (curlMimeContenttype data)).or
        (part.filename.map fun _ => .lit "application/octet-stream")
  | _ => curlMimeContenttype part.filename

def isMultipart (part : Mimepart μ) : Bool :=
  match part.content with
  | .MULTIPART _ _ => true
  | _ => false

/-- The content type of the header, if one is issued. -/
def issuedType (strategy : Mimestrategy) (contenttype : Option CStr) (part : Mimepart μ) :
    Option CStr :=
  let type := (part.customct.or contenttype).or part.guessType
  if ¬ part.isMultipart ∧ part.customct.isNone ∧ contentTypeMatch type (.lit "text/plain") ∧
      (strategy = .MAIL ∨ part.filename.isNone) then none
  else type

/-- The disposition of the header, if one is issued. -/
def issuedDisposition (contenttype disposition : Option CStr) (part : Mimepart μ) : Option CStr :=
  let disposition := disposition.or
    (if part.filename.isSome ∨ part.name.isSome ∨
        (contenttype.any fun type => !strncasecompare type (.lit "multipart/") 10) then
      some (.lit "attachment") else none)
  disposition.filter fun d =>
    !(casecompare d.bytes (CStr.lit "attachment").bytes && part.name.isNone && part.filename.isNone)

/-- A parameter in quotes. -/
def quotedParam (label : CStr) (value : Option CStr) : CStr :=
  match value with
  | none => .empty
  | some value => label ++ value ++ .lit "\""

/-- `"Content-Disposition: %s%s%s%s%s%s%s"` -/
def dispositionText (disposition : CStr) (name filename : Option CStr) : CStr :=
  .lit "Content-Disposition: " ++ disposition ++ quotedParam (.lit "; name=\"") name ++
    quotedParam (.lit "; filename=\"") filename

/-- `"Content-Type: %s%s%s"` -/
def typeText (type : CStr) (boundary : Option CStr) : CStr :=
  .lit "Content-Type: " ++ type ++
    match boundary with
    | none => .empty
    | some boundary => .lit "; boundary=" ++ boundary

/-- `"Content-Transfer-Encoding: %s"`, of a part without encoder. -/
def encodingText : CStr := .lit "Content-Transfer-Encoding: " ++ .lit "8bit"

def setHeaders (hdrs : List CStr) (part : Mimepart μ) : Mimepart μ := { part with curlheaders := hdrs }

def addHeader (mem : Memory) (text : CStr) (part : Mimepart μ) : Option (Mimepart μ × CURLcode) :=
  (curlMimeAddHeader mem part.curlheaders text).map fun (hdrs, r) => (part.setHeaders hdrs, r)

/-- `escape_string` of a text that may be NULL. -/
def escapeOption (mem : Memory) (cfg : HeaderConfig) (text : Option CStr) :
    Option (Option (Option CStr)) :=
  match text with
  | none => some (some none)
  | some text => (escapeString mem cfg.table text).map fun r => r.map some

/-- The content disposition, unless the caller has set one. -/
def addDisposition (mem : Memory) (cfg : HeaderConfig) (contenttype disposition : Option CStr)
    (part : Mimepart μ) : Option (Mimepart μ × CURLcode) :=
  if (searchHeader part.userheaders (.lit "Content-Disposition")).isSome then some (part, .OK)
  else
    match part.issuedDisposition contenttype disposition with
    | none => some (part, .OK)
    | some disposition =>
        (escapeOption (mem.call 0) cfg part.name).bind fun name =>
          match name with
          | none => some (part, .OUT_OF_MEMORY)
          | some name =>
              (escapeOption (mem.call 1) cfg part.filename).bind fun filename =>
                match filename with
                | none => some (part, .OUT_OF_MEMORY)
                | some filename =>
                    part.addHeader (mem.call 2) (dispositionText disposition name filename)

/-- The boundary named in the content type. -/
def boundary (boundaryOf : μ → CStr) (part : Mimepart μ) : Option CStr :=
  match part.content with
  | .MULTIPART arg _ => some (boundaryOf arg)
  | _ => none

/-- The content type, if there is one. -/
def addContentType (mem : Memory) (boundaryOf : μ → CStr) (contenttype : Option CStr)
    (part : Mimepart μ) : Option (Mimepart μ × CURLcode) :=
  match contenttype with
  | none => some (part, .OK)
  | some type => part.addHeader mem (typeText type (part.boundary boundaryOf))

/-- A transfer encoding is named in mails only. -/
def namesEncoding (strategy : Mimestrategy) (contenttype : Option CStr) (part : Mimepart μ) : Bool :=
  (searchHeader part.userheaders (.lit "Content-Transfer-Encoding")).isNone && contenttype.isSome &&
    decide (strategy = .MAIL) && !part.isMultipart

def addEncoding (mem : Memory) (cfg : HeaderConfig) (contenttype : Option CStr) (part : Mimepart μ) :
    Option (Mimepart μ × CURLcode) :=
  if part.namesEncoding cfg.strategy contenttype then part.addHeader mem encodingText
  else some (part, .OK)

/-- A part that is reading its generated headers starts over with others. -/
def restartHeaders (hdrs : List CStr) (part : Mimepart μ) : Mimepart μ :=
  { part with
    state := if part.state.state = .CURLHEADERS then mimesetstate .CURLHEADERS hdrs else part.state }

/-- The subparts, with the disposition that follows from the content type. -/
def prepareSubparts (sub : Option CStr → μ → Option (μ × CURLcode)) (contenttype : Option CStr)
    (part : Mimepart μ) : Option (Mimepart μ × CURLcode) :=
  match part.content with
  | .MULTIPART arg datasize =>
      let disposition :=
        if contentTypeMatch contenttype (.lit "multipart/form-data") then some (.lit "form-data")
        else none
      (sub disposition arg).map fun (arg, r) =>
        ({ part with content := .MULTIPART arg datasize }, r)
  | _ => some (part, .OK)

/-- `Curl_mime_prepare_headers`. -/
def prepareHeaders (mem : Memory) (cfg : HeaderConfig) (boundaryOf : μ → CStr)
    (sub : Option CStr → μ → Option (μ × CURLcode)) (contenttype disposition : Option CStr)
    (part : Mimepart μ) : Option (Mimepart μ × CURLcode) :=
  let part := (part.setHeaders []).restartHeaders []
  let contenttype := part.issuedType cfg.strategy contenttype
  andOk (part.addDisposition (mem.call 0) cfg contenttype disposition) fun part =>
    andOk (part.addContentType (mem.call 1) boundaryOf contenttype) fun part =>
      andOk (part.addEncoding (mem.call 2) cfg contenttype) fun part =>
        (part.restartHeaders part.curlheaders).prepareSubparts sub contenttype

end Mimepart

/-- The loop over the subparts of `Curl_mime_prepare_headers`. -/
def prepareParts (prepare : Memory → π → Option (π × CURLcode)) :
    Memory → List π → Option (List π × CURLcode)
  | _, [] => some ([], .OK)
  | mem, part :: parts =>
      (prepare (mem.call 0) part).bind fun (part, r) =>
        if r ≠ .OK then some (part :: parts, r)
        else (prepareParts prepare (mem.call 1) parts).map fun (parts, r) => (part :: parts, r)

def CurlMime.prepareHeaders (prepare : Memory → Option CStr → π → Option (π × CURLcode)) (mem : Memory)
    (disposition : Option CStr) (mime : CurlMime π) : Option (CurlMime π × CURLcode) :=
  (prepareParts (fun mem => prepare mem disposition) mem mime.parts).map fun (parts, r) =>
    ({ mime with parts := parts }, r)

/-! ## The texts that are built -/

/-- There is no memory, or one of the texts is too long to be built. -/
def Starved (mem : Memory) (texts : List CStr) : Prop :=
  (∃ path p a, (mem path).realloc p a = none) ∨ ∃ text ∈ texts, dynAprintf ≤ text.length

/-- What a call lacks, the function that makes it lacks. -/
theorem Starved.of_call {mem : Memory} {i : Nat} {texts : List CStr} (h : Starved (mem.call i) texts) :
    Starved mem texts := by
  obtain ⟨path, p, a, hmem⟩ | hlong := h
  · exact Or.inl ⟨i :: path, p, a, hmem⟩
  · exact Or.inr hlong

theorem Starved.of_le {mem : Memory} {s t : CStr} (h : Starved mem [s]) (hle : s.length ≤ t.length) :
    Starved mem [t] := by
  obtain hmem | ⟨text, htext, hlong⟩ := h
  · exact Or.inl hmem
  · rw [List.mem_singleton.mp htext] at hlong
    exact Or.inr ⟨t, List.mem_singleton_self t, hlong.trans hle⟩

theorem Starved.mono {mem : Memory} {texts texts' : List CStr} (h : Starved mem texts)
    (hsub : texts ⊆ texts') : Starved mem texts' := by
  obtain hmem | ⟨text, htext, hlong⟩ := h
  · exact Or.inl hmem
  · exact Or.inr ⟨text, hsub htext, hlong⟩

/-- A text as it stands in quotes. -/
def escaped (table : List (Byte × List Byte)) (src : CStr) : CStr :=
  CStr.ofBuf (src.bytes.flatMap (escapeChar table))

theorem zero_notMem_escapeChar (cfg : HeaderConfig) {c : Byte} (hc : c ≠ 0) :
    (0 : Byte) ∉ escapeChar cfg.table c := by
  have hboth : ∀ c : Byte, c ≠ 0 → (0 : Byte) ∉ escapeChar mimetable c ∧
      (0 : Byte) ∉ escapeChar formtable c := by decide
  rw [HeaderConfig.table, escapeTable]
  split
  · exact (hboth c hc).1
  · exact (hboth c hc).2

theorem escaped_bytes (cfg : HeaderConfig) (src : CStr) :
    (escaped cfg.table src).bytes = src.bytes.flatMap (escapeChar cfg.table) := by
  refine CStr.ofBuf_of_nulFree fun h => ?_
  obtain ⟨c, hc, hzero⟩ := List.mem_flatMap.mp h
  exact zero_notMem_escapeChar cfg (fun heq => src.nulFree (heq ▸ hc)) hzero

/-- `escape_string` makes the escaped text. -/
theorem escapeString_spec (mem : Memory) (cfg : HeaderConfig) (src : CStr) :
    escapeString mem cfg.table src = some (some (escaped cfg.table src)) ∨
      escapeString mem cfg.table src = some none ∧ Starved mem [escaped cfg.table src] := by
  obtain ⟨db, result, hadd, hok, htoobig, hcase⟩ :=
    Dynbuf.addn_spec (mem []) (Dynbuf.ok_init curlMaxInputLength) []
  obtain ⟨-, hbig, -⟩ | ⟨rfl, -, ⟨p, a, -, hmem⟩, rfl⟩ | ⟨rfl, -, hcontent, hsome⟩ := hcase
  · exact absurd hbig (by decide)
  · exact Or.inr ⟨by simp [escapeString, hadd, Dynbuf.free], Or.inl ⟨[], p, a, hmem⟩⟩
  · obtain ⟨db', r, hrun, hok', htoobig', hcase⟩ :=
      Dynbuf.addEach_spec (mem []) (escapeChar cfg.table) src.bytes hok
    rw [hcontent, Dynbuf.content_init, List.nil_append, List.nil_append, ← escaped_bytes,
      htoobig] at hcase
    have hcall : escapeString mem cfg.table src = some (db'.bufr.map CStr.ofBuf) := by
      simp [escapeString, hadd, hrun]
    obtain ⟨-, htext, hkeep⟩ | ⟨-, hnull, hwhy⟩ := hcase
    · obtain ⟨p, hp⟩ := Option.isSome_iff_exists.mp (hkeep hsome)
      have hbytes := (hok'.ofBuf_eq hp (by rw [htext]; exact (escaped cfg.table src).nulFree)).1
      refine Or.inl ?_
      rw [hcall, hp, Option.map_some, CStr.ext (hbytes.trans htext)]
    · refine Or.inr ⟨by rw [hcall, hnull]; rfl, ?_⟩
      obtain hlong | ⟨p, a, -, hmem⟩ := hwhy
      · exact Or.inr ⟨_, List.mem_singleton_self _, hlong⟩
      · exact Or.inl ⟨[], p, a, hmem⟩

theorem curlMvaprintf_spec (mem : Memory) {text : CStr} (hne : text.bytes ≠ []) :
    curlMvaprintf mem text = some (some text) ∨
      curlMvaprintf mem text = some none ∧ Starved mem [text] := by
  obtain ⟨dyn, merr, hrun, hok, htoobig, hcase⟩ :=
    Dynbuf.addEach_spec (mem []) (fun b => [b]) text.bytes (Dynbuf.ok_init dynAprintf)
  rw [Dynbuf.content_init, List.nil_append, List.flatMap_singleton'] at hcase
  obtain ⟨rfl, htext, -⟩ | ⟨hmerr, -, hwhy⟩ := hcase
  · obtain ⟨p, hp⟩ := Dynbuf.exists_block (htext ▸ hne)
    have hbytes := (hok.ofBuf_eq hp (htext ▸ text.nulFree)).1
    have hleng : dyn.leng ≠ 0 := by
      rw [← hok.length_content, htext]
      exact fun h => hne (List.length_eq_zero_iff.mp h)
    refine Or.inl ?_
    simp only [curlMvaprintf, hrun, Option.map_some, ne_eq, not_true_eq_false, if_false, hleng,
      not_false_eq_true, if_true, hp, CStr.ext (hbytes.trans htext)]
  · refine Or.inr ⟨by simp [curlMvaprintf, hrun, hmerr], ?_⟩
    obtain hlong | ⟨p, a, -, hmem⟩ := hwhy
    · exact Or.inr ⟨_, List.mem_singleton_self _, hlong⟩
    · exact Or.inl ⟨[], p, a, hmem⟩

theorem curlMimeAddHeader_spec (mem : Memory) (slp : List CStr) {text : CStr}
    (hne : text.bytes ≠ []) :
    curlMimeAddHeader mem slp text = some (slp ++ [text], .OK) ∨
      curlMimeAddHeader mem slp text = some (slp, .OUT_OF_MEMORY) ∧ Starved mem [text] := by
  obtain hs | ⟨hs, hwhy⟩ := curlMvaprintf_spec (mem.call 0) hne
  · cases hnode : (mem.call 1 []).realloc [] sizeofSlist with
    | none => exact Or.inr ⟨by simp [curlMimeAddHeader, hs, hnode], Or.inl ⟨[1], _, _, hnode⟩⟩
    | some node => exact Or.inl (by simp [curlMimeAddHeader, hs, hnode])
  · exact Or.inr ⟨by simp [curlMimeAddHeader, hs], hwhy.of_call⟩

/-! ## The headers that are generated -/

namespace Mimepart

/-- The content disposition of a part. -/
def dispositionLine (cfg : HeaderConfig) (contenttype disposition : Option CStr)
    (part : Mimepart μ) : Option CStr :=
  if (searchHeader part.userheaders (.lit "Content-Disposition")).isSome then none
  else (part.issuedDisposition contenttype disposition).map fun d =>
    dispositionText d (part.name.map (escaped cfg.table)) (part.filename.map (escaped cfg.table))

/-- The content type of a part. -/
def typeLine (boundaryOf : μ → CStr) (contenttype : Option CStr) (part : Mimepart μ) : Option CStr :=
  contenttype.map fun type => typeText type (part.boundary boundaryOf)

/-- The transfer encoding of a part. -/
def encodingLine (cfg : HeaderConfig) (contenttype : Option CStr) (part : Mimepart μ) :
    Option CStr :=
  if part.namesEncoding cfg.strategy contenttype then some encodingText else none

/-- The headers of a part. -/
def generated (cfg : HeaderConfig) (boundaryOf : μ → CStr) (contenttype disposition : Option CStr)
    (part : Mimepart μ) : List CStr :=
  let type := part.issuedType cfg.strategy contenttype
  (part.dispositionLine cfg type disposition).toList ++ ((part.typeLine boundaryOf type).toList ++
    (part.encodingLine cfg type).toList)

/-- What a step that may add a header comes to. -/
def Adds (mem : Memory) (part : Mimepart μ) (line : Option CStr)
    (out : Option (Mimepart μ × CURLcode)) : Prop :=
  out = some (part.setHeaders (part.curlheaders ++ line.toList), .OK) ∨
    out = some (part, .OUT_OF_MEMORY) ∧ Starved mem line.toList

variable {mem : Memory} {cfg : HeaderConfig} {part : Mimepart μ}

theorem adds_none : part.Adds mem none (some (part, .OK)) := by
  refine Or.inl ?_
  rw [Option.toList_none, List.append_nil]
  rfl

theorem addHeader_adds {text : CStr} (hne : text.bytes ≠ []) :
    part.Adds mem (some text) (part.addHeader mem text) := by
  obtain hadd | ⟨hadd, hwhy⟩ := curlMimeAddHeader_spec mem part.curlheaders hne
  · exact Or.inl (by rw [addHeader, hadd]; rfl)
  · exact Or.inr ⟨by rw [addHeader, hadd]; rfl, hwhy⟩

/-- A text that may be NULL is escaped, or it was too long or there was no memory. -/
theorem escapeOption_spec (mem : Memory) (cfg : HeaderConfig) (text : Option CStr) :
    escapeOption mem cfg text = some (some (text.map (escaped cfg.table))) ∨
      escapeOption mem cfg text = some none ∧ ∃ t, text = some t ∧ Starved mem [escaped cfg.table t] := by
  cases text with
  | none => exact Or.inl rfl
  | some text =>
      obtain h | ⟨h, hwhy⟩ := escapeString_spec mem cfg text
      · exact Or.inl (by rw [escapeOption, h]; rfl)
      · exact Or.inr ⟨by rw [escapeOption, h]; rfl, text, rfl, hwhy⟩

theorem length_le_dispositionText (d : CStr) (name filename : Option CStr) :
    (∀ t, name = some t → t.length ≤ (dispositionText d name filename).length) ∧
      ∀ t, filename = some t → t.length ≤ (dispositionText d name filename).length := by
  constructor
  · rintro t rfl
    simp only [dispositionText, quotedParam, CStr.length_append]
    omega
  · rintro t rfl
    simp only [dispositionText, quotedParam, CStr.length_append]
    omega

theorem Adds.of_call {i : Nat} {line : Option CStr} {out : Option (Mimepart μ × CURLcode)}
    (h : part.Adds (mem.call i) line out) : part.Adds mem line out :=
  h.imp_right fun hfail => ⟨hfail.1, hfail.2.of_call⟩

/-- A header is not empty. -/
theorem header_ne_nil {label : CStr} (h : label.bytes ≠ []) (s : CStr) : (label ++ s).bytes ≠ [] :=
  List.append_ne_nil_of_left_ne_nil h s.bytes

theorem addDisposition_adds (contenttype disposition : Option CStr) :
    part.Adds mem (part.dispositionLine cfg contenttype disposition)
      (part.addDisposition mem cfg contenttype disposition) := by
  rw [addDisposition, dispositionLine]
  split
  · exact adds_none
  · cases part.issuedDisposition contenttype disposition with
    | none => exact adds_none
    | some d =>
        obtain ⟨hname, hfile⟩ := length_le_dispositionText d (part.name.map (escaped cfg.table))
          (part.filename.map (escaped cfg.table))
        rw [Option.map_some]
        obtain h | ⟨h, t, ht, hwhy⟩ := escapeOption_spec (mem.call 0) cfg part.name
        · obtain h' | ⟨h', t, ht, hwhy⟩ := escapeOption_spec (mem.call 1) cfg part.filename
          · simp only [h, h', Option.bind_some]
            exact (addHeader_adds
              (header_ne_nil (header_ne_nil (header_ne_nil (by decide) _) _) _)).of_call
          · simp only [h, h', Option.bind_some]
            exact Or.inr ⟨rfl, hwhy.of_call.of_le (hfile _ (by rw [ht]; rfl))⟩
        · simp only [h, Option.bind_some]
          exact Or.inr ⟨rfl, hwhy.of_call.of_le (hname _ (by rw [ht]; rfl))⟩

theorem addContentType_adds (boundaryOf : μ → CStr) (contenttype : Option CStr) :
    part.Adds mem (part.typeLine boundaryOf contenttype)
      (part.addContentType mem boundaryOf contenttype) := by
  cases contenttype with
  | none => exact adds_none
  | some type => exact addHeader_adds (header_ne_nil (header_ne_nil (by decide) _) _)

theorem addEncoding_adds (contenttype : Option CStr) :
    part.Adds mem (part.encodingLine cfg contenttype) (part.addEncoding mem cfg contenttype) := by
  rw [encodingLine, addEncoding]
  split
  · exact addHeader_adds (by decide)
  · exact adds_none

theorem restartHeaders_twice (hdrs hdrs' hdrs'' : List CStr) (part : Mimepart μ) :
    ((((part.setHeaders hdrs).restartHeaders hdrs').setHeaders hdrs'').restartHeaders hdrs'') =
      (part.setHeaders hdrs'').restartHeaders hdrs'' := by
  simp only [restartHeaders, setHeaders]
  by_cases hstate : part.state.state = .CURLHEADERS
  · simp [hstate, mimesetstate]
  · simp [hstate]

theorem Adds.andOk {line : Option CStr} {out : Option (Mimepart μ × CURLcode)} (h : part.Adds mem line out)
    (k : Mimepart μ → Option (Mimepart μ × CURLcode)) :
    Mime.andOk out k = k (part.setHeaders (part.curlheaders ++ line.toList)) ∨
      Mime.andOk out k = some (part, .OUT_OF_MEMORY) ∧ Starved mem line.toList := by
  obtain rfl | ⟨rfl, hwhy⟩ := h
  · exact Or.inl rfl
  · exact Or.inr ⟨rfl, hwhy⟩

/-- A part gets the headers generated for it and goes on with its subparts, or it
    is left without some of them because there was no memory. -/
theorem prepareHeaders_spec (mem : Memory) (cfg : HeaderConfig) (boundaryOf : μ → CStr)
    (sub : Option CStr → μ → Option (μ × CURLcode)) (contenttype disposition : Option CStr)
    (part : Mimepart μ) :
    (part.prepareHeaders mem cfg boundaryOf sub contenttype disposition =
        let hdrs := part.generated cfg boundaryOf contenttype disposition
        ((part.setHeaders hdrs).restartHeaders hdrs).prepareSubparts sub
          (part.issuedType cfg.strategy contenttype)) ∨
      ∃ hdrs, part.prepareHeaders mem cfg boundaryOf sub contenttype disposition =
          some ((part.setHeaders hdrs).restartHeaders [], .OUT_OF_MEMORY) ∧
        Starved mem (part.generated cfg boundaryOf contenttype disposition) := by
  -- the headers do not depend on those added before, nor on how far reading has come
  let type := part.issuedType cfg.strategy contenttype
  let first := part.dispositionLine cfg type disposition
  let second := part.typeLine boundaryOf type
  let third := part.encodingLine cfg type
  let start := (part.setHeaders []).restartHeaders []
  have hgen : part.generated cfg boundaryOf contenttype disposition =
      first.toList ++ (second.toList ++ third.toList) := rfl
  have hstarved : ∀ texts, texts ⊆ first.toList ++ (second.toList ++ third.toList) →
      Starved mem texts → Starved mem (part.generated cfg boundaryOf contenttype disposition) :=
    fun texts hsub h => h.mono (hgen ▸ hsub)
  let k₃ : Mimepart μ → Option (Mimepart μ × CURLcode) := fun part =>
    (part.restartHeaders part.curlheaders).prepareSubparts sub type
  let k₂ : Mimepart μ → Option (Mimepart μ × CURLcode) := fun part =>
    andOk (part.addEncoding (mem.call 2) cfg type) k₃
  let k₁ : Mimepart μ → Option (Mimepart μ × CURLcode) := fun part =>
    andOk (part.addContentType (mem.call 1) boundaryOf type) k₂
  have h₁ : start.Adds mem first (start.addDisposition (mem.call 0) cfg type disposition) :=
    (addDisposition_adds type disposition).of_call
  have h₂ : ∀ hdrs, (start.setHeaders hdrs).Adds mem second
      ((start.setHeaders hdrs).addContentType (mem.call 1) boundaryOf type) := fun hdrs =>
    (addContentType_adds boundaryOf type).of_call
  have h₃ : ∀ hdrs, (start.setHeaders hdrs).Adds mem third
      ((start.setHeaders hdrs).addEncoding (mem.call 2) cfg type) := fun hdrs =>
    (addEncoding_adds type).of_call
  obtain hok₁ | ⟨hfail, hwhy⟩ := h₁.andOk k₁
  · obtain hok₂ | ⟨hfail, hwhy⟩ := (h₂ ([] ++ first.toList)).andOk k₂
    · obtain hok₃ | ⟨hfail, hwhy⟩ := (h₃ ([] ++ first.toList ++ second.toList)).andOk k₃
      · refine Or.inl (hok₁.trans (hok₂.trans (hok₃.trans ?_)))
        have hall : [] ++ first.toList ++ second.toList ++ third.toList =
            part.generated cfg boundaryOf contenttype disposition := by
          rw [hgen, List.nil_append, List.append_assoc]
        show prepareSubparts sub type
            (((part.setHeaders []).restartHeaders []).setHeaders
              ([] ++ first.toList ++ second.toList ++ third.toList) |>.restartHeaders
              ([] ++ first.toList ++ second.toList ++ third.toList)) = _
        rw [hall, restartHeaders_twice]
      · refine Or.inr ⟨_, hok₁.trans (hok₂.trans hfail), hstarved _ ?_ hwhy⟩
        exact List.Subset.trans (List.subset_append_right _ _) (List.subset_append_right _ _)
    · refine Or.inr ⟨_, hok₁.trans hfail, hstarved _ ?_ hwhy⟩
      exact List.Subset.trans (List.subset_append_left _ _) (List.subset_append_right _ _)
  · exact Or.inr ⟨_, hfail, hstarved _ (List.subset_append_left _ _) hwhy⟩

theorem prepareSubparts_multipart {arg : μ} {datasize : Option Nat}
    (hc : part.content = .MULTIPART arg datasize) (sub : Option CStr → μ → Option (μ × CURLcode))
    (contenttype : Option CStr) :
    part.prepareSubparts sub contenttype =
      (sub (if contentTypeMatch contenttype (.lit "multipart/form-data") then some (.lit "form-data")
        else none) arg).map fun (arg, r) => ({ part with content := .MULTIPART arg datasize }, r) := by
  simp only [prepareSubparts, hc]

/-- A part that differs in its generated headers only, and in how far these were
    read. -/
def Kept (part part' : Mimepart μ) : Prop :=
  ∃ hdrs st, st.state = part.state.state ∧ part' = { part with curlheaders := hdrs, state := st }

theorem Kept.refl (part : Mimepart μ) : part.Kept part := ⟨_, _, rfl, rfl⟩

theorem kept_restartHeaders (hdrs ptr : List CStr) (part : Mimepart μ) :
    part.Kept ((part.setHeaders hdrs).restartHeaders ptr) := by
  refine ⟨hdrs, _, ?_, rfl⟩
  by_cases hstate : part.state.state = .CURLHEADERS
  · simp [setHeaders, hstate, mimesetstate]
  · simp [setHeaders, hstate]

theorem Kept.state_eq {part' : Mimepart μ} (h : part.Kept part') :
    part'.state.state = part.state.state := by
  obtain ⟨hdrs, st, hst, rfl⟩ := h
  exact hst

/-- A part with these headers generated. -/
def withHeaders (hdrs : List CStr) (part : Mimepart μ) : Mimepart μ :=
  (part.setHeaders hdrs).restartHeaders hdrs

end Mimepart

/-- What preparing the parts of a multipart one by one comes to. -/
theorem prepareParts_spec {prepare : Memory → π → Option (π × CURLcode)} {Kept : π → π → Prop}
    {ready : π → π} {lines : π → List CStr} (hrefl : ∀ part, Kept part part)
    (h : ∀ mem part, prepare mem part = some (ready part, .OK) ∧ Kept part (ready part) ∨
      ∃ part', prepare mem part = some (part', .OUT_OF_MEMORY) ∧ Kept part part' ∧
        Starved mem (lines part))
    (mem : Memory) (parts : List π) :
    prepareParts prepare mem parts = some (parts.map ready, .OK) ∧
        List.Forall₂ Kept parts (parts.map ready) ∨
      ∃ parts', prepareParts prepare mem parts = some (parts', .OUT_OF_MEMORY) ∧
        List.Forall₂ Kept parts parts' ∧ ∃ part ∈ parts, Starved mem (lines part) := by
  induction parts generalizing mem with
  | nil => exact Or.inl ⟨rfl, .nil⟩
  | cons part parts ih =>
      obtain ⟨hone, hkept⟩ | ⟨part', hone, hkept, hwhy⟩ := h (mem.call 0) part
      · obtain ⟨hall, hkepts⟩ | ⟨parts', hall, hkepts, p, hp, hwhy⟩ := ih (mem.call 1)
        · exact Or.inl ⟨by simp [prepareParts, hone, hall], .cons hkept hkepts⟩
        · exact Or.inr ⟨ready part :: parts', by simp [prepareParts, hone, hall],
            .cons hkept hkepts, p, List.mem_cons_of_mem part hp, hwhy.of_call⟩
      · refine Or.inr ⟨part' :: parts, by simp [prepareParts, hone], .cons hkept ?_, part,
          List.mem_cons_self, hwhy.of_call⟩
        exact List.forall₂_same.mpr fun p _ => hrefl p

end Curl1C.Mime
