/-
  Curl1C.Curl.Request

  What kind of request an easy handle will send: the members of `struct
  UserDefined` that lib/setopt.c changes for it, the form a handle is given
  (`CURLOPT_MIMEPOST`), and the request `Curl_http_method` makes of them.  Whether
  it sends a mail depends on the recipients and on `CURLOPT_CONNECT_ONLY` too.

  A mime structure knows the part it is the content of (`parent`), and is refused
  by every other one.  The only parts here are the `set.mimepost` of the easy
  handles, so `parent` names a handle.

  `Handles.ofLog` is the state after the calls of a log.
-/

import Curl1C.Curl.Proc

namespace Curl1C

/-- `Curl_HttpReq` of http.h. -/
inductive HttpReq where
  | GET | POST | POST_FORM | POST_MIME | PUT | HEAD
deriving DecidableEq

/-- The members of `struct UserDefined` that decide what is sent; `mimepost` is the
    argument of a part of kind `MIMEKIND_MULTIPART`, `none` for `MIMEKIND_NONE`. -/
structure UserDefined where
  method : HttpReq
  opt_no_body : Bool
  mimepost : Option MimeId
  mail_rcpt : Option SlistId
  /-- `none` when it was made of an address -/
  connect_only : Option (BitVec 8)
deriving DecidableEq

/-- `Curl_init_userdefined`. -/
def UserDefined.init : UserDefined :=
  { method := .GET, opt_no_body := false, mimepost := none, mail_rcpt := none, connect_only := some 0 }

/-- The easy handles, and the `parent` of each mime structure. -/
structure Handles where
  set : HandleId → UserDefined
  parent : MimeId → Option HandleId

/-- `va_arg(param, long)` is not 0. -/
def OptVal.nonzero : OptVal → Bool
  | .long n => decide (n ≠ 0)
  | .offT n => decide (n % 4294967296 ≠ 0)
  | .null => false
  | _ => true

/-- `va_arg(param, long)`, as far as it is known. -/
def OptVal.vaLong : OptVal → Option Int
  | .long n => some n
  | .offT n => some (n.bmod 4294967296)
  | .null => some 0
  | _ => none

/-- `va_arg(param, struct curl_slist *)`; nothing but a list is given for it. -/
def OptVal.vaSlist : OptVal → Option SlistId
  | .slist l => some l
  | _ => none

/-- `CURLOPT_CONNECT_ONLY` when the member is `connect_only`: a number above 2 is refused. -/
def OptVal.connectOnly (connect_only : Option (BitVec 8)) (v : OptVal) : Option (BitVec 8) :=
  match v.vaLong with
  | none => none
  | some arg => if arg > 2 then connect_only else some (BitVec.ofInt 8 arg)

namespace Handles

/-! ## Forms -/

/-- Change the members of one handle. -/
def modify (h : HandleId) (f : UserDefined → UserDefined) (s : Handles) : Handles :=
  { s with set := Function.update s.set h (f (s.set h)) }

/-- Set the `parent` of a mime structure. -/
def setParent (m : MimeId) (part : Option HandleId) (s : Handles) : Handles :=
  { s with parent := Function.update s.parent m part }

/-- `mime_subparts_unbind`. -/
def mimeSubpartsUnbind (m : MimeId) (s : Handles) : Handles :=
  match s.parent m with
  | none => s
  | some h => (s.modify h fun set => { set with mimepost := none }).setParent m none

/-- `cleanup_part_content` of `set.mimepost`; its `freefunc` is
    `mime_subparts_unbind` as long as it has content. -/
def cleanupPartContent (h : HandleId) (s : Handles) : Handles :=
  let s := match (s.set h).mimepost with
    | none => s
    | some m => s.mimeSubpartsUnbind m
  s.modify h fun set => { set with mimepost := none }

/-- `Curl_mime_set_subparts` on `set.mimepost`, which is the root of its tree; the
    Boolean is whether it returns `CURLE_OK`. -/
def curlMimeSetSubparts (h : HandleId) (subparts : Option MimeId) (s : Handles) : Handles × Bool :=
  if (s.set h).mimepost = subparts ∧ subparts ≠ none then (s, true)
  else
    let s := s.cleanupPartContent h
    match subparts with
    | none => (s, true)
    | some m =>
        -- the old content is gone also when the new one is refused
        if (s.parent m).isSome then (s, false)
        else ((s.modify h fun set => { set with mimepost := some m }).setParent m (some h), true)

/-! ## Calls -/

/-- The mime structure a `CURLOPT_MIMEPOST` argument points to; a number or a text
    is no such pointer. -/
def mimeArg : OptVal → Option (Option MimeId)
  | .mime m => some (some m)
  | .null => some none
  | _ => none

/-- `CURLOPT_MIMEPOST`. -/
def setMimepost (h : HandleId) (v : OptVal) (s : Handles) : Handles :=
  match mimeArg v with
  | none => s
  | some subparts =>
      let (s, ok) := s.curlMimeSetSubparts h subparts
      if ok then s.modify h fun set => { set with method := .POST_MIME, opt_no_body := false } else s

/-- `Curl_vsetopt`, as far as it changes these members. -/
def vsetopt (h : HandleId) (o : CURLoption) (v : OptVal) (s : Handles) : Handles :=
  match o with
  | .NOBODY =>
      s.modify h fun set =>
        { set with
          opt_no_body := v.nonzero
          method := if v.nonzero then .HEAD else if set.method = .HEAD then .GET else set.method }
  | .UPLOAD | .PUT =>
      s.modify h fun set =>
        if v.nonzero then { set with method := .PUT, opt_no_body := false }
        else { set with method := .GET }
  | .COPYPOSTFIELDS | .POSTFIELDS => s.modify h fun set => { set with method := .POST }
  | .POST =>
      s.modify h fun set =>
        if v.nonzero then { set with method := .POST, opt_no_body := false }
        else { set with method := .GET }
  | .HTTPPOST => s.modify h fun set => { set with method := .POST_FORM, opt_no_body := false }
  | .HTTPGET =>
      s.modify h fun set =>
        if v.nonzero then { set with method := .GET, opt_no_body := false } else set
  | .MIMEPOST => s.setMimepost h v
  | .MAIL_RCPT => s.modify h fun set => { set with mail_rcpt := v.vaSlist }
  | .CONNECT_ONLY => s.modify h fun set => { set with connect_only := v.connectOnly set.connect_only }
  | _ => s

/-- One call. -/
def call (s : Handles) : Call → Handles
  | .easyInit h => s.modify h fun _ => .init
  | .easySetopt h o v => s.vsetopt h o v
  | .easyCleanup h => s.cleanupPartContent h
  | .mimeInit _ m => s.setParent m none
  | .mimeFree m => s.mimeSubpartsUnbind m
  | _ => s

/-- The handles after the calls of a log. -/
def ofLog (log : List Call) : Handles :=
  log.foldl call { set := fun _ => .init, parent := fun _ => none }

theorem ofLog_append (log calls : List Call) : ofLog (log ++ calls) = calls.foldl call (ofLog log) :=
  List.foldl_append

end Handles

/-! ## The request -/

/-- `data->state.upload`. -/
def UserDefined.upload (set : UserDefined) : Bool := decide (set.method = .PUT)

/-- The request of a transfer: `Curl_pretransfer`, `Curl_init_CONNECT` and
    `Curl_init_do` prepare what `Curl_http_method` decides, for a handle with the
    custom keyword `customrequest`. -/
def UserDefined.curlHttpMethod (customrequest : Option CStr) (set : UserDefined) : CStr × HttpReq :=
  let httpreq := set.method
  let httpreq := if set.opt_no_body then .HEAD else httpreq
  let httpreq := if set.upload then .PUT else httpreq
  let request := customrequest.getD <|
    if set.opt_no_body then .lit "HEAD"
    else match httpreq with
      | .POST | .POST_FORM | .POST_MIME => .lit "POST"
      | .PUT => .lit "PUT"
      | .HEAD => .lit "HEAD"
      | .GET => .lit "GET"
  (request, httpreq)

/-- The request of a handle without a custom keyword. -/
def UserDefined.httpreq (set : UserDefined) : HttpReq := (set.curlHttpMethod none).2

/-- Without a body there is neither an upload nor a form. -/
def UserDefined.Sane (set : UserDefined) : Prop :=
  set.opt_no_body = true → set.method ∈ [.HEAD, .GET, .POST]

theorem UserDefined.sane_init : UserDefined.init.Sane := by simp [Sane, init]

theorem UserDefined.Sane.has_body {set : UserDefined} (h : set.Sane) (hput : set.method = .PUT) :
    set.opt_no_body = false := by
  refine eq_false_of_ne_true fun hnobody => ?_
  have hmem := h hnobody
  rw [hput] at hmem
  simp at hmem

/-- So `Curl_http_method` has nothing to overrule. -/
theorem UserDefined.Sane.httpreq_eq {set : UserDefined} (h : set.Sane) :
    set.httpreq = if set.opt_no_body then .HEAD else set.method := by
  obtain ⟨method, nobody, mimepost, rcpt, connect⟩ := set
  cases nobody with
  | false => cases method <;> rfl
  | true =>
      have hmem : method ∈ [HttpReq.HEAD, .GET, .POST] := h rfl
      cases method with
      | PUT => simp at hmem
      | _ => rfl

namespace Handles

variable {s : Handles} {h : HandleId} {m : MimeId}

/-! ## What the calls leave alone -/

/-- The options that change what a handle will send. -/
def requestOptions : List CURLoption :=
  [.NOBODY, .UPLOAD, .PUT, .COPYPOSTFIELDS, .POSTFIELDS, .POST, .HTTPPOST, .HTTPGET, .MIMEPOST,
    .MAIL_RCPT, .CONNECT_ONLY]

theorem vsetopt_of_notMem {o : CURLoption} (ho : o ∉ requestOptions) (h : HandleId) (v : OptVal)
    (s : Handles) : s.vsetopt h o v = s := by
  simp only [requestOptions, List.mem_cons, List.not_mem_nil, or_false, not_or] at ho
  unfold vsetopt
  split <;> first | rfl | simp_all

@[simp] theorem modify_parent (f : UserDefined → UserDefined) : (s.modify h f).parent = s.parent := rfl

@[simp] theorem modify_set_self (f : UserDefined → UserDefined) :
    (s.modify h f).set h = f (s.set h) := Function.update_self _ _ _

@[simp] theorem modify_set_of_ne (f : UserDefined → UserDefined) {h' : HandleId} (hh : h' ≠ h) :
    (s.modify h f).set h' = s.set h' := Function.update_of_ne hh _ _

@[simp] theorem setParent_set (part : Option HandleId) : (s.setParent m part).set = s.set := rfl

@[simp] theorem setParent_parent (part : Option HandleId) :
    (s.setParent m part).parent = Function.update s.parent m part := rfl

/-- A change of other members leaves the forms alone. -/
theorem modify_mimepost {f : UserDefined → UserDefined} (hf : ∀ set, (f set).mimepost = set.mimepost)
    (h' : HandleId) : ((s.modify h f).set h').mimepost = (s.set h').mimepost := by
  by_cases hh : h' = h
  · rw [hh, modify_set_self, hf]
  · rw [modify_set_of_ne f hh]

/-- No option but `CURLOPT_MIMEPOST` concerns forms. -/
theorem vsetopt_forms {o : CURLoption} (ho : o ≠ .MIMEPOST) (v : OptVal) :
    (s.vsetopt h o v).parent = s.parent ∧
      ∀ h', ((s.vsetopt h o v).set h').mimepost = (s.set h').mimepost := by
  unfold vsetopt
  split
  case h_9 => exact absurd rfl ho
  all_goals
    first
    | exact ⟨rfl, fun _ => rfl⟩
    | refine ⟨rfl, modify_mimepost fun set => ?_⟩
      first
      | rfl
      | split <;> rfl

/-! ## Attaching a form -/

theorem cleanupPartContent_of_none (hnone : (s.set h).mimepost = none) :
    s.cleanupPartContent h = s := by
  simp only [cleanupPartContent, hnone, modify]
  have hsame : ({ s.set h with mimepost := none } : UserDefined) = s.set h := by rw [← hnone]
  rw [hsame, Function.update_eq_self]

/-- A form that is nowhere attached, or attached to this handle, is accepted. -/
theorem setMimepost_accepts
    (hfree : s.parent m = none ∧ (s.set h).mimepost = none ∨
      s.parent m = some h ∧ (s.set h).mimepost = some m) :
    let s' := s.setMimepost h (.mime m)
    s'.parent = Function.update s.parent m (some h) ∧
      s'.set h = { s.set h with method := .POST_MIME, opt_no_body := false, mimepost := some m } ∧
      ∀ h' ≠ h, s'.set h' = s.set h' := by
  rcases hfree with ⟨hparent, hnone⟩ | ⟨hparent, hsame⟩
  · have hset : s.curlMimeSetSubparts h (some m) =
        ((s.modify h fun set => { set with mimepost := some m }).setParent m (some h), true) := by
      simp [curlMimeSetSubparts, cleanupPartContent_of_none hnone, hnone, hparent]
    simp only [setMimepost, mimeArg, hset, if_true]
    refine ⟨rfl, by simp, fun h' hh => ?_⟩
    rw [modify_set_of_ne _ hh, setParent_set, modify_set_of_ne _ hh]
  · have hset : s.curlMimeSetSubparts h (some m) = (s, true) := by
      simp [curlMimeSetSubparts, hsame]
    simp only [setMimepost, mimeArg, hset, if_true]
    refine ⟨?_, by simp [hsame], fun h' hh => modify_set_of_ne _ hh⟩
    rw [modify_parent, ← hparent, Function.update_eq_self]

/-- A form that is attached to another handle is refused, and nothing changes. -/
theorem setMimepost_refuses {h' : HandleId} (hparent : s.parent m = some h')
    (hnone : (s.set h).mimepost = none) : s.setMimepost h (.mime m) = s := by
  have hset : s.curlMimeSetSubparts h (some m) = (s, false) := by
    simp [curlMimeSetSubparts, cleanupPartContent_of_none hnone, hnone, hparent]
  simp [setMimepost, mimeArg, hset]

/-! ## Requests without a body -/

/-- Every handle is sane. -/
def AllSane (s : Handles) : Prop := ∀ h, (s.set h).Sane

theorem AllSane.modify (hs : s.AllSane) {f : UserDefined → UserDefined}
    (hf : ∀ set, set.Sane → (f set).Sane) : (s.modify h f).AllSane := by
  intro h'
  by_cases hh : h' = h
  · rw [hh, modify_set_self]
    exact hf _ (hs h)
  · rw [modify_set_of_ne f hh]
    exact hs h'

theorem AllSane.setParent (hs : s.AllSane) (part : Option HandleId) : (s.setParent m part).AllSane := hs

/-- The content of the form is not asked about. -/
theorem AllSane.setContent (hs : s.AllSane) (content : Option MimeId) :
    (s.modify h fun set => { set with mimepost := content }).AllSane := hs.modify fun _ hset => hset

theorem AllSane.unbind (hs : s.AllSane) : (s.mimeSubpartsUnbind m).AllSane := by
  unfold mimeSubpartsUnbind
  split
  · exact hs
  · exact (hs.setContent none).setParent none

theorem AllSane.cleanup (hs : s.AllSane) : (s.cleanupPartContent h).AllSane := by
  unfold cleanupPartContent
  split
  · exact hs.setContent none
  · exact hs.unbind.setContent none

theorem AllSane.setMimepost (hs : s.AllSane) (v : OptVal) : (s.setMimepost h v).AllSane := by
  have hsub : ∀ subparts, (s.curlMimeSetSubparts h subparts).1.AllSane := by
    intro subparts
    unfold curlMimeSetSubparts
    split
    · exact hs
    · dsimp only
      split
      · exact hs.cleanup
      · split
        · exact hs.cleanup
        · exact (hs.cleanup.setContent _).setParent _
  unfold Handles.setMimepost
  split
  · exact hs
  · dsimp only
    split
    · exact (hsub _).modify fun set _ => by simp [UserDefined.Sane]
    · exact hsub _

theorem AllSane.vsetopt (hs : s.AllSane) (o : CURLoption) (v : OptVal) :
    (s.vsetopt h o v).AllSane := by
  unfold Handles.vsetopt
  split
  case h_9 => exact hs.setMimepost v
  case h_10 => exact hs.modify fun _ hset => hset
  case h_11 => exact hs.modify fun _ hset => hset
  case h_12 => exact hs
  all_goals
    refine hs.modify fun set hset => ?_
    unfold UserDefined.Sane at hset ⊢
    cases v.nonzero <;> cases hm : set.method <;> simp_all

theorem AllSane.call (hs : s.AllSane) (c : Call) : (s.call c).AllSane := by
  cases c with
  | easyInit h => exact hs.modify (f := fun _ => .init) fun _ _ => UserDefined.sane_init
  | easySetopt h o v => exact hs.vsetopt o v
  | easyCleanup h => exact hs.cleanup
  | mimeInit h m => exact hs
  | mimeFree m => exact hs.unbind
  | _ => exact hs

/-- Whatever calls are made, no handle without a body uploads or posts a form. -/
theorem allSane_ofLog (log : List Call) : (ofLog log).AllSane := by
  have hall : ∀ s : Handles, s.AllSane → (log.foldl Handles.call s).AllSane := by
    induction log with
    | nil => exact fun s hs => hs
    | cons c log ih => exact fun s hs => ih _ (hs.call c)
  exact hall _ fun _ => UserDefined.sane_init

end Handles

end Curl1C
