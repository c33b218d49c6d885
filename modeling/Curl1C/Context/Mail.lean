/-
  Curl1C.Context.Mail

  What a mail of a `CcURL` object is on the wire.

  `easy_perform` gives the text to libcurl through `read_callback`, asks for an upload,
  and announces no size.  A size that an earlier request of the same handle announced
  for its file is still set then: `announced` is what a script has led to.

  Main results: `mail_received_along`, and `mail_cut_along` for a mail with such a size.
-/

import Curl1C.Context.Files
import Curl1C.Context.Posting
import Curl1C.Context.ReadCallback
import Curl1C.Curl.Upload

namespace Curl1C

open Lib Upload Rfc5321 Smtp

/-! ## The announced size -/

/-- `CURLOPT_INFILESIZE` and `CURLOPT_INFILESIZE_LARGE`, with an argument of the type they
    are read with: a size below -1 is refused. -/
def setFilesize (filesize : Int) : CURLoption → OptVal → Int
  | .INFILESIZE, .long n => if n < -1 then filesize else n
  | .INFILESIZE_LARGE, .offT n => if n < -1 then filesize else n
  | _, _ => filesize

/-- `data->set.filesize` of the handle `h` after a call. -/
def Call.filesize (h : HandleId) (filesize : Int) : Call → Int
  | .easyInit h' => if h' = h then -1 else filesize
  | .easySetopt h' o v => if h' = h then setFilesize filesize o v else filesize
  | _ => filesize

/-- `data->set.filesize` of a handle. -/
def Proc.filesize (p : Proc) (h : HandleId) : Int := p.log.foldl (Call.filesize h) (-1)

/-- `data->set.filesize` of the object's handle, which is the announced size of an upload
    (`Curl_pretransfer`). -/
def St.filesize (st : St) : Int := st.proc.filesize st.obj.m_curl

/-- The options that announce a size. -/
def sizeOptions : List CURLoption := [.INFILESIZE, .INFILESIZE_LARGE]

theorem setFilesize_of_notMem {o : CURLoption} (ho : o ∉ sizeOptions) (filesize : Int) (v : OptVal) :
    setFilesize filesize o v = filesize := by
  unfold setFilesize
  split
  · exact absurd (by decide) ho
  · exact absurd (by decide) ho
  · rfl

namespace Proc

variable (p : Proc) (h : HandleId)

theorem filesize_of_log {p q : Proc} (calls : List Call) (hlog : q.log = p.log ++ calls)
    (h : HandleId) : q.filesize h = calls.foldl (Call.filesize h) (p.filesize h) := by
  rw [filesize, hlog, List.foldl_append]
  rfl

theorem applyCacheFlags_filesize :
    p.renewCurlShare.applyCacheFlags.filesize h = p.filesize h := by
  have hrenew : p.renewCurlShare.filesize h = p.filesize h := by
    unfold renewCurlShare
    split
    · exact filesize_of_log [.shareCleanup p.CurlShare, .shareInit p.nShare]
        (List.append_assoc _ _ _) h
    · rfl
  have hset : ∀ (q : Proc) s o d, (curlShareSetopt s o d q).filesize h = q.filesize h :=
    fun q s o d => filesize_of_log [.shareSetopt s o d] rfl h
  simp only [applyCacheFlags, hset, hrenew]

theorem assignCurlCache_filesize (h' : HandleId) :
    (p.assignCurlCache h').filesize h = p.filesize h := by
  have hset : (p.assignCurlCache h').filesize h =
      Call.filesize h (p.renewCurlShare.applyCacheFlags.filesize h)
        (.easySetopt h' .SHARE (.share p.renewCurlShare.applyCacheFlags.CurlShare)) :=
    filesize_of_log
      [.easySetopt h' .SHARE (.share p.renewCurlShare.applyCacheFlags.CurlShare)] rfl h
  rw [hset, applyCacheFlags_filesize]
  show (if h' = h then setFilesize _ _ _ else _) = _
  rw [setFilesize_of_notMem (by decide), ite_self]

end Proc

/-- `st'` has the handle of `st`, with the size it announces. -/
structure SizeKept (st st' : St) : Prop where
  m_curl : st'.obj.m_curl = st.obj.m_curl
  filesize : st'.filesize = st.filesize

namespace SizeKept

variable {st st' : St}

theorem refl (st : St) : SizeKept st st := ⟨rfl, rfl⟩

theorem trans {s t u : St} (hst : SizeKept s t) (htu : SizeKept t u) : SizeKept s u :=
  ⟨htu.m_curl.trans hst.m_curl, htu.filesize.trans hst.filesize⟩

/-- Calls that do not concern sizes. -/
theorem of_calls (calls : List Call) (hlog : st'.proc.log = st.proc.log ++ calls)
    (hcurl : st'.obj.m_curl = st.obj.m_curl)
    (hcalls : ∀ c ∈ calls, ∀ h n, Call.filesize h n c = n) : SizeKept st st' := by
  refine ⟨hcurl, ?_⟩
  have hfold : ∀ (l : List Call) (n : Int), (∀ c ∈ l, ∀ h n, Call.filesize h n c = n) →
      l.foldl (Call.filesize st.obj.m_curl) n = n := by
    intro l
    induction l with
    | nil => exact fun _ _ => rfl
    | cons c l ih =>
        intro n hl
        rw [List.foldl_cons, hl c List.mem_cons_self]
        exact ih n fun c' hc' => hl c' (List.mem_cons_of_mem c hc')
  rw [St.filesize, St.filesize, hcurl, Proc.filesize_of_log calls hlog, hfold calls _ hcalls]

theorem setopt {o : CURLoption} (ho : o ∉ sizeOptions) (v : OptVal) : SizeKept st (st.setopt o v) := by
  refine of_calls [.easySetopt st.obj.m_curl o v] rfl rfl ?_
  simp only [List.forall_mem_singleton, Call.filesize]
  intro h n
  rw [setFilesize_of_notMem ho, ite_self]

end SizeKept

theorem SizeKept.respects {os : List CURLoption} (hos : ∀ o ∈ os, o ∉ sizeOptions) :
    Respects os SizeKept where
  refl := SizeKept.refl
  trans := SizeKept.trans
  setopt v ho := SizeKept.setopt (hos _ ho) v
  other h := by
    cases h with
    | setopt o v ho hv => cases ho
    | request n c hc =>
        refine of_calls [c] rfl rfl ?_
        rw [List.forall_mem_singleton]
        intro h m
        cases c <;> first | rfl | cases hc
    | _ => exact ⟨rfl, rfl⟩

/-! ## The requests -/

/-- The request `env` of the object gets to announcing the size of a file. -/
def St.AnnouncesFile (env : PerformEnv) (st : St) : Prop :=
  st.SendsFile ∧ env.opensSource = true ∧ (env.statsSource = true ∨ env.unwinds .statSource = false) ∧
    -1 ≤ env.sourceSize

instance (env : PerformEnv) (st : St) : Decidable (st.AnnouncesFile env) :=
  inferInstanceAs (Decidable ((st.obj.isMultipart = false ∧ st.obj.pSrc.Type_ = .ttFile) ∧
    env.opensSource = true ∧ (env.statsSource = true ∨ env.unwinds .statSource = false) ∧
      -1 ≤ env.sourceSize))

/-- The size that is announced after the request `env`. -/
def St.sizeAfter (env : PerformEnv) (st : St) : Int :=
  if st.AnnouncesFile env then env.sourceSize else st.filesize

/-- `st'` has the handle of `st`, and announces what the request `env` leads to. -/
def SizeSet (env : PerformEnv) (st st' : St) : Prop :=
  st'.obj.m_curl = st.obj.m_curl ∧ st'.filesize = st.sizeAfter env

section Perform

variable {win : Win32} {env : PerformEnv} {st s t : St}

theorem SizeSet.trans (hs : SizeSet env st s) (hst : SizeKept s t) : SizeSet env st t :=
  ⟨hst.m_curl.trans hs.1, hst.filesize.trans hs.2⟩

theorem SizeKept.sizeSet (hnot : ¬ st.AnnouncesFile env) (hs : SizeKept st s) : SizeSet env st s :=
  ⟨hs.m_curl, by rw [hs.filesize, St.sizeAfter, if_neg hnot]⟩

theorem filesize_sendStream (fd : FileId) (f : Frame) :
    (f.sendStream env fd).st.filesize =
      if env.sourceSize < -1 then f.st.filesize else env.sourceSize := by
  have hbefore : SizeKept f.st ((f.setopt .UPLOAD (.long 1)).setopt .READDATA (.file fd)).st :=
    (SizeKept.setopt (by decide) _).trans (SizeKept.setopt (by decide) _)
  rw [← hbefore.filesize]
  have hlast := Proc.filesize_of_log
    [.easySetopt f.st.obj.m_curl .INFILESIZE_LARGE (.offT env.sourceSize)]
    (show (f.sendStream env fd).st.proc.log =
      ((f.setopt .UPLOAD (.long 1)).setopt .READDATA (.file fd)).st.proc.log ++ _ from rfl)
    f.st.obj.m_curl
  exact hlast.trans (if_pos rfl)

theorem sendFile_sizeSet (hsends : st.SendsFile) :
    ((Frame.enter st).sendFile env).Leaves (fun g => SizeSet env st g.st) (SizeSet env st) := by
  have hother : ∀ {s t : St}, Move [] 0 s t → SizeKept s t := (SizeKept.respects (List.forall_mem_nil _)).move
  have henter : SizeKept st (Frame.enter st).st := ⟨rfl, rfl⟩
  have hfopen : SizeKept st
      { (Frame.enter st).st with proc := (Frame.enter st).st.proc.fopen st.obj.pSrc.Data env.opensSource } :=
    henter.trans (hother (.request _ _ _ rfl))
  unfold Frame.sendFile
  dsimp only
  by_cases hopen : env.opensSource = true
  · rw [if_pos hopen]
    have hfstat : SizeKept st { (Frame.enter st).st with
        proc := ((Frame.enter st).st.proc.fopen st.obj.pSrc.Data env.opensSource).fstat
          (Frame.enter st).st.proc.nFile } :=
      hfopen.trans (hother (.request _ _ _ rfl))
    by_cases hraise : (!env.statsSource && env.unwinds .statSource) = true
    · rw [if_pos hraise]
      refine hfstat.sizeSet ?_
      rintro ⟨-, -, hstats, -⟩
      rw [Bool.and_eq_true, Bool.not_eq_true'] at hraise
      rcases hstats with hstats | hunwinds
      · rw [hraise.1] at hstats
        cases hstats
      · rw [hraise.2] at hunwinds
        cases hunwinds
    · rw [if_neg hraise]
      refine ⟨rfl, (filesize_sendStream _ _).trans ?_⟩
      unfold St.sizeAfter
      have hstats : env.statsSource = true ∨ env.unwinds .statSource = false := by
        cases hs : env.statsSource <;> cases hu : env.unwinds .statSource <;> simp_all
      by_cases hneg : env.sourceSize < -1
      · rw [if_pos hneg, if_neg fun h => absurd h.2.2.2 (Int.not_le.mpr hneg)]
        exact hfstat.filesize
      · rw [if_neg hneg, if_pos ⟨hsends, hopen, hstats, Int.not_lt.mp hneg⟩]
  · rw [if_neg hopen]
    split
    · exact hfopen.sizeSet fun h => hopen h.2.1
    · trivial

theorem sendSetup_sizeSet :
    ((Frame.enter st).sendSetup win env).Leaves (fun g => SizeSet env st g.st) (SizeSet env st) := by
  have henter : SizeKept st (Frame.enter st).st := ⟨rfl, rfl⟩
  by_cases hsends : st.SendsFile
  · rw [Frame.sendSetup_of_sendsFile hsends]
    exact sendFile_sizeSet hsends
  · have hnot : ¬ st.AnnouncesFile env := fun h => hsends h.1
    unfold Frame.sendSetup
    split
    · have hmoves := (Frame.sendMultipart_moves (Frame.enter st)).2
      exact (henter.trans ((SizeKept.respects (by decide)).moves hmoves)).sizeSet hnot
    · split
      · have hmoves := (@Frame.sendVariable_moves win (Frame.enter st)).2
        exact (henter.trans ((SizeKept.respects (by decide)).moves hmoves)).sizeSet hnot
      · rename_i hmulti _ htype
        exact absurd ⟨Bool.eq_false_iff.mpr hmulti, htype⟩ hsends
      · exact henter.sizeSet hnot

theorem step_easyPerform_sizeSet {st' : St} (h : step win st (.easyPerform env) = some st') :
    SizeSet env st st' :=
  step_easyPerform_leaves sendSetup_sizeSet
    (fun hmoves hs => hs.trans ((SizeKept.respects (by decide)).moves hmoves)) h

end Perform

/-! ## The other operations -/

/-- The script does not announce a size by itself. -/
def Op.LeavesSize : Op → Prop
  | .easySetopt name _ => ∀ o ∈ sizeOptions, curlOptionsFromString name ≠ .found o
  | _ => True

/-- The size that is announced after an operation. -/
def Op.sizeAfter (st : St) : Op → Int
  | .easyCleanup => -1
  | .easyPerform env => st.sizeAfter env
  | _ => st.filesize

theorem Proc.filesize_easyInit (p : Proc) : p.curlEasyInit.filesize p.nEasy = -1 :=
  (Proc.filesize_of_log [.easyInit p.nEasy] rfl _).trans (if_pos rfl)

theorem filesize_construct (junk : Junk) (p : Proc) : (construct junk p).filesize = -1 := by
  -- back over the options to the new handle
  have hoptions : ∀ st : St, SizeKept st ((((((st.setopt .SSL_VERIFYPEER (.long 0)).setopt
      .SSL_VERIFYHOST (.long 0)).setopt .ACCEPT_ENCODING (.str CStr.empty)).setopt .TRANSFER_ENCODING
        (.long 1)).setopt .VERBOSE (.long 1)).setopt .FOLLOWLOCATION (.long 1)) := fun st =>
    ((((SizeKept.setopt (by decide) _).trans (SizeKept.setopt (by decide) _)).trans
      (SizeKept.setopt (by decide) _)).trans (SizeKept.setopt (by decide) _)).trans
        ((SizeKept.setopt (by decide) _).trans (SizeKept.setopt (by decide) _))
  refine (hoptions _).filesize.trans ?_
  have hcalls := Proc.filesize_of_log
    [.slistAppend none (CStr.lit "pragma:"), .mimeInit p.nEasy (p.curlEasyInit.assignCurlCache p.nEasy).nMime]
    (show ((((p.curlEasyInit.assignCurlCache p.nEasy).curlSlistAppend none
      (CStr.lit "pragma:")).curlMimeInit p.nEasy).log) = _ from List.append_assoc _ _ _) p.nEasy
  exact hcalls.trans ((Proc.assignCurlCache_filesize _ _ _).trans p.filesize_easyInit)

theorem filesize_easyCleanup (st : St) : st.easyCleanup.filesize = -1 := by
  have hoptions : ∀ st : St, SizeKept st (((((st.setopt .SSL_VERIFYPEER (.long 0)).setopt
      .SSL_VERIFYHOST (.long 0)).setopt .ACCEPT_ENCODING (.str CStr.empty)).setopt .TRANSFER_ENCODING
        (.long 1)).setopt .VERBOSE (.long 1)) := fun st =>
    (((SizeKept.setopt (by decide) _).trans (SizeKept.setopt (by decide) _)).trans
      (SizeKept.setopt (by decide) _)).trans
        ((SizeKept.setopt (by decide) _).trans (SizeKept.setopt (by decide) _))
  exact (hoptions _).filesize.trans (Proc.filesize_easyInit _)

theorem easySetopt_sizeKept {name : CStr} {v : Value} {st st' : St}
    (hname : ∀ o ∈ sizeOptions, curlOptionsFromString name ≠ .found o)
    (h : (st.easySetopt name v).state = some st') : SizeKept st st' := by
  rcases easySetopt_cases h with ⟨-, rfl⟩ | ⟨-, rfl⟩ | ⟨-, rfl⟩ | ⟨o, a, ho, -, -, -, rfl⟩ | ⟨-, rfl⟩
  · have happend : SizeKept st ⟨st.proc.curlSlistAppend st.obj.headers v.string,
        { st.obj with headers := some (st.proc.slistHead st.obj.headers) }⟩ :=
      SizeKept.of_calls [.slistAppend st.obj.headers v.string] rfl rfl (by simp [Call.filesize])
    exact happend.trans (SizeKept.setopt (o := .HTTPHEADER) (by decide) _)
  · have hdata : SizeKept st { st with
        obj := { st.obj with pSrc := { st.obj.pSrc with Data := v.string } } } := ⟨rfl, rfl⟩
    exact hdata.trans ((SizeKept.setopt (o := .POSTFIELDS) (by decide) _).trans
      (SizeKept.setopt (o := .POSTFIELDSIZE) (by decide) _))
  · have happend : SizeKept st ⟨st.proc.curlSlistAppend st.obj.recipients v.string,
        { st.obj with recipients := some (st.proc.slistHead st.obj.recipients) }⟩ :=
      SizeKept.of_calls [.slistAppend st.obj.recipients v.string] rfl rfl (by simp [Call.filesize])
    exact (happend.trans (SizeKept.setopt (o := .MAIL_RCPT) (by decide) _)).trans ⟨rfl, rfl⟩
  · exact SizeKept.setopt (fun hmem => hname o hmem ho) a
  · exact SizeKept.refl _

theorem step_filesize {win : Win32} {op : Op} {st st' : St} (hop : op.LeavesSize)
    (h : step win st op = some st') : st'.filesize = op.sizeAfter st := by
  cases op with
  | easySetopt name v => exact (easySetopt_sizeKept hop h).filesize
  | easyPerform env => exact (step_easyPerform_sizeSet h).2
  | easyCleanup =>
      obtain rfl := Option.some.inj h
      exact filesize_easyCleanup st
  | debug v =>
      obtain rfl := Option.some.inj h
      exact ((SizeKept.respects (by decide)).moves (debug_moves 0 v st)).filesize
  | statusLine v =>
      obtain rfl := Option.some.inj h
      exact ((SizeKept.respects (by decide)).moves (statusLine_moves 0 v st)).filesize
  | assignCache =>
      obtain rfl := Option.some.inj h
      exact Proc.assignCurlCache_filesize _ _ _
  | useCache dns connect ssl cookie =>
      obtain rfl := Option.some.inj h
      exact Proc.assignCurlCache_filesize _ _ _
  | addPart name filename type data =>
      obtain rfl := Option.some.inj h
      exact Proc.filesize_of_log [.mimeAddpart st.obj.m_mime] rfl _
  | _ =>
      obtain rfl := Option.some.inj h
      rfl

section Announced

variable (win : Win32) (junk : Junk) (p : Proc)

/-- The size a script has led to, the last operation first in the argument. -/
def announcedRev : List Op → Int
  | [] => -1
  | .easyCleanup :: _ => -1
  | .easyPerform env :: before =>
      if (run win junk p before.reverse).any fun st => decide (st.AnnouncesFile env) then env.sourceSize
      else announcedRev before
  | _ :: before => announcedRev before

/-- The size of the last file the object's handle was used to send, -1 if there was none. -/
def announced (ops : List Op) : Int := announcedRev win junk p ops.reverse

variable {win junk p}

theorem announced_snoc {hist : List Op} {st : St} (hrun : run win junk p hist = some st)
    (hsize : st.filesize = announced win junk p hist) (op : Op) :
    announced win junk p (hist ++ [op]) = op.sizeAfter st := by
  rw [announced, List.reverse_append, List.reverse_singleton, List.singleton_append]
  cases op with
  | easyCleanup => rfl
  | easyPerform env =>
      rw [announcedRev, List.reverse_reverse, hrun, Option.any_some]
      show (if decide (st.AnnouncesFile env) = true then _ else announced win junk p hist) = st.sizeAfter env
      rw [St.sizeAfter, hsize]
      simp only [decide_eq_true_eq]
  | _ => exact hsize.symm

theorem run_filesize {ops : List Op} (hops : ∀ op ∈ ops, op.LeavesSize) {st : St}
    (hrun : run win junk p ops = some st) : st.filesize = announced win junk p ops := by
  have hall := @runOps_induct _ _ (step win)
    (fun hist st => run win junk p hist = some st ∧ st.filesize = announced win junk p hist)
    Op.LeavesSize (construct junk p) ⟨rfl, filesize_construct junk p⟩
    (fun hist op st st' hop hinv hstep => by
      refine ⟨runOps_snoc_eq_some.mpr ⟨st, hinv.1, hstep⟩, ?_⟩
      rw [step_filesize hop hstep, announced_snoc hinv.1 hinv.2])
  exact (hall ops hops st hrun).2

end Announced

/-! ## The request -/

theorem Handles.vsetopt_upload (h : HandleId) (s : Handles) :
    ((s.vsetopt h .UPLOAD (.long 1)).set h).method = .PUT := by
  simp [Handles.vsetopt, OptVal.nonzero]

theorem Frame.sendVariable_mail {win : Win32} {f : Frame} (hdata : f.st.obj.pSrc.Data.isEmpty = false)
    (hmail : f.st.obj.isPosting = true) : (f.sendVariable win).st.set.method = .PUT := by
  have hsome : ¬ f.st.obj.pSrc.Data.isEmpty = true := by simp [hdata]
  have hposting : ¬ f.st.obj.isPosting = false := by simp [hmail]
  unfold Frame.sendVariable
  simp only [if_neg hsome, if_neg hposting, Frame.setopt_st, St.set, St.setopt_handles, St.setopt_obj]
  exact Handles.vsetopt_upload _ _

/-- Only a mail from a variable fills `wt`. -/
theorem Frame.sendSetup_mail {win : Win32} {env : PerformEnv} {f g : Frame}
    (h : f.sendSetup win env = .ok g) (hf : f.wt = none) {wt : WriteThis} (hwt : g.wt = some wt) :
    f.st.obj.pSrc.Data.isEmpty = false ∧ f.st.obj.isPosting = true ∧ g = f.sendVariable win := by
  have hnone : ¬ f.wt = some wt := by simp [hf]
  rcases Frame.sendSetup_ok h with ⟨-, rfl⟩ | ⟨-, -, rfl⟩ | ⟨-, -, rfl⟩ | ⟨-, -, rfl⟩
  · exact absurd hwt hnone
  · unfold Frame.sendVariable at hwt
    by_cases hdata : f.st.obj.pSrc.Data.isEmpty = true
    · rw [if_pos hdata] at hwt
      exact absurd hwt hnone
    by_cases hmail : f.st.obj.isPosting = false
    · simp only [if_neg hdata, if_pos hmail] at hwt
      exact absurd hwt hnone
    · exact ⟨Bool.eq_false_iff.mpr hdata, by simpa using hmail, rfl⟩
  · exact absurd hwt hnone
  · exact absurd hwt hnone

/-- A mail is an upload, and announces what was announced before. -/
theorem performPoint_mail {win : Win32} {env : PerformEnv} {st : St} {f : Frame}
    (hpoint : st.performPoint win env = .ok f) {wt : WriteThis} (hwt : f.wt = some wt) :
    f.st.set.method = .PUT ∧ f.st.filesize = st.filesize := by
  obtain ⟨g', hg', hreach⟩ := St.performPoint_reaches hpoint
  have hsilent := hreach.2.silent
  obtain ⟨g, r, hg, hr, rfl⟩ := St.performPoint_ok hpoint
  obtain rfl : g = g' := Outcome.ok.inj (hg.symm.trans hg')
  have hgwt : g.wt = some wt := by
    rw [← (Frame.recvSetup_wt hr).1, ← (Frame.commonSetup_wt r).1]
    exact hwt
  obtain ⟨hdata, hmail, rfl⟩ := Frame.sendSetup_mail hg rfl hgwt
  constructor
  · rw [St.set, hsilent.handles, hsilent.m_curl]
    exact Frame.sendVariable_mail hdata hmail
  · have henter : SizeKept st (Frame.enter st).st := ⟨rfl, rfl⟩
    have hsend : SizeKept (Frame.enter st).st ((Frame.enter st).sendVariable win).st :=
      (SizeKept.respects (by decide)).moves (Frame.sendVariable_moves _).2
    exact ((henter.trans hsend).trans ((SizeKept.respects (by decide)).moves hreach.2)).filesize

/-! ## The mail on the wire -/

/-- `read_callback`, as libcurl calls it. -/
def readMail : Readfunc WriteThis := fun n wt =>
  (wt.readCallback ⟨1, n⟩).map fun (block, wt) => (wt, .bytes block)

/-- The configuration of a mail. -/
def mailConfig (upload_buffer_size : Nat) (crlf : Bool) (infilesize : Int) : Config :=
  { upload_buffer_size := upload_buffer_size, upload_chunky := false, crlf := crlf, smtp := true,
    infilesize := infilesize }

theorem readMail_eq {wt : WriteThis} (hwt : wt.sizeleft = wt.readptr.length) {n : Nat} (hpos : 0 < n)
    (hn : n < 2 ^ 32) :
    readMail n wt = some ({ readptr := wt.readptr.drop n, sizeleft := wt.readptr.length - n },
      .bytes (wt.readptr.take n)) := by
  have hoffers : (ReadCall.mk 1 n).Offers := by
    rw [ReadCall.Offers, ReadCall.room, Nat.one_mul]
    exact ⟨hpos, hn⟩
  have hcall := readCallback_eq hwt hoffers
  simp only [ReadCall.room, Nat.one_mul] at hcall
  exact congrArg (Option.map _) hcall

/-- The upload of the mail of a request, `none` if it sends no mail, or one without data
    (`smtp_dophase_done`).  `smtp_perform_mail` reads a form that is still set on the handle
    in place of the text; that upload is not modelled. -/
def Frame.uploadMail (f : Frame) (size : Nat) (crlf : Bool) (answers : List (Option Nat)) :
    Option (SingleRequest WriteThis × CURLcode) :=
  if StartsMail f.st.set ∧ f.st.set.opt_no_body = false ∧ f.st.set.mimepost = none then
    f.wt.bind fun wt => upload readMail (mailConfig size crlf f.st.filesize) answers (.start wt)
  else none

theorem performPoint_uploadMail {win : Win32} {env : PerformEnv} {st : St} {f : Frame}
    (hpoint : st.performPoint win env = .ok f) (hmail : f.wt ≠ none) (hput : f.st.set.method = .PUT)
    (hstarts : StartsMail f.st.set) (hform : f.st.set.mimepost = none) (size : Nat) (crlf : Bool) (answers : List (Option Nat)) :
    f.uploadMail size crlf answers = upload readMail (mailConfig size crlf f.st.filesize) answers
      (.start (.ofText (ansiToUtf8 win st.obj.pSrc.Data))) := by
  obtain ⟨wt, hwt⟩ := Option.ne_none_iff_exists'.mp hmail
  obtain ⟨hbody, rfl⟩ := performPoint_wt hpoint hwt
  have hsane : f.st.set.Sane := Handles.allSane_ofLog f.st.proc.log f.st.obj.m_curl
  rw [Frame.uploadMail, if_pos ⟨hstarts, hsane.has_body hput, hform⟩, hwt, Option.bind_some, hbody]

theorem run_mail {win : Win32} {junk : Junk} {p : Proc} {hist : List Op} {st : St} {env : PerformEnv}
    {f : Frame} (hhist : ∀ op ∈ hist, op.LeavesSize) (hrun : run win junk p hist = some st)
    (hpoint : st.performPoint win env = .ok f) (hmail : f.wt ≠ none) :
    f.st.set.method = .PUT ∧ f.st.filesize = announced win junk p hist := by
  obtain ⟨wt, hwt⟩ := Option.ne_none_iff_exists'.mp hmail
  obtain ⟨hput, hkept⟩ := performPoint_mail hpoint hwt
  exact ⟨hput, hkept.trans (run_filesize hhist hrun)⟩

theorem endsMail_of_put {set : UserDefined} (hput : set.method = .PUT) (hrcpt : set.mail_rcpt ≠ none)
    (hconnect : set.connect_only = some 0) : EndsMail set :=
  ⟨hconnect, hrcpt, Or.inl (decide_eq_true hput)⟩

/-- A size that the socket reaches within the first buffer of a mail: the mail ends there,
    and a server that follows RFC 5321 takes this part for all of it. -/
theorem upload_mail_cut {set : UserDefined} (hset : EndsMail set) {size : Nat} (hpos : 0 < size)
    (hlt : size < 2 ^ 32) (crlf : Bool) (text : CStr) {n : Nat} (hn : 0 < n)
    (hle : n ≤ (coded (mailConfig size crlf n) .line (text.bytes.take size)).length) :
    ∃ answers k, none ∉ answers ∧
      upload readMail (mailConfig size crlf n) answers (.start (.ofText text)) = some (k, .OK) ∧
      k.keep_send = false ∧ ∀ rest,
        receive marks (.at .line) (k.wire ++ (smtpDone set n k.smtp ++ rest)) =
          some (lined marks (converted (mailConfig size crlf n) (text.bytes.take size)), rest) := by
  have htext : (WriteThis.ofText text).sizeleft = (WriteThis.ofText text).readptr.length := rfl
  have hread : readMail (mailConfig size crlf n).upload_buffer_size (.ofText text) = _ :=
    readMail_eq htext hpos hlt
  have hsupplied : (WriteThis.ofText text).readptr = text.bytes.take size ++ text.bytes.drop size :=
    (List.take_append_drop size text.bytes).symm
  have hne : text.bytes.take size ≠ [] := by
    intro hnil
    rw [hnil, coded_nil, List.length_nil] at hle
    omega
  obtain ⟨k, hupload, hend, hwire, hsmtp⟩ :=
    @upload_cut _ readMail (mailConfig size crlf n) (fun wt => wt.sizeleft = wt.readptr.length)
      WriteThis.readptr _ _ _ htext (List.length_drop ..).symm hsupplied hread hne
      (List.length_take_le _ _) rfl n rfl hle
  refine ⟨_, k, ?_, hupload, hend, ?_⟩
  · simp
  · intro rest
    rw [hwire, hsmtp rfl, smtpDone_of hset, if_neg (by omega)]
    exact receive_mail _ _ rest

/-- At every mail of a script whose handle has recipients, is not to connect only, has no
    form left on it, and was used before to send a file that was not empty: if the socket
    takes as much as the size of that file from the first buffer, the mail ends with this
    buffer.  libcurl reports success, and the server has read a mail with the beginning of
    the text only. -/
theorem mail_cut_along (win : Win32) (junk : Junk) (p : Proc) (ops : List Op)
    (hops : ∀ op ∈ ops, op.LeavesSize) :
    Along (step win) (construct junk p) ops (AtRequest win fun hist st _ f =>
      f.wt ≠ none → f.st.set.mail_rcpt ≠ none → f.st.set.connect_only = some 0 →
        f.st.set.mimepost = none → 0 < announced win junk p hist →
        ∀ size crlf, 0 < size → size < 2 ^ 32 →
          announced win junk p hist ≤ (coded (mailConfig size crlf f.st.filesize) .line
            ((ansiToUtf8 win st.obj.pSrc.Data).bytes.take size)).length →
          ∃ answers k, none ∉ answers ∧ f.uploadMail size crlf answers = some (k, .OK) ∧
            k.keep_send = false ∧ ∀ rest,
              receive marks (.at .line) (k.wire ++ (smtpDone f.st.set f.st.filesize k.smtp ++ rest)) =
                some (lined marks (converted (mailConfig size crlf f.st.filesize)
                  ((ansiToUtf8 win st.obj.pSrc.Data).bytes.take size)), rest)) := by
  rintro hist op rest rfl st hrun env f rfl hpoint hmail hrcpt hconnect hform hfile size crlf hpos
    hlt hle
  obtain ⟨hput, hsize⟩ := run_mail (fun op hop => hops op (by simp [hop])) hrun hpoint hmail
  obtain ⟨n, hn⟩ := Int.eq_ofNat_of_zero_le (Int.le_of_lt hfile)
  have hsize' : f.st.filesize = n := hsize.trans hn
  have hends := endsMail_of_put hput hrcpt hconnect
  rw [hn, hsize'] at hle
  rw [hn] at hfile
  obtain ⟨answers, k, hsocket, hupload, hend, hread⟩ :=
    upload_mail_cut hends hpos hlt crlf _ (by omega) (Int.ofNat_le.mp hle)
  refine ⟨answers, k, hsocket, ?_, hend, ?_⟩
  · rw [performPoint_uploadMail hpoint hmail hput hends.starts hform, hsize']
    exact hupload
  · rw [hsize']
    exact hread

/-- A file of one byte, and then a mail with the text `hello`. -/
def fileThenHello : List Op :=
  [.setSourceType (Value.ofInt 1), .setSourceData (Value.ofString (CStr.lit "f")),
    .easyPerform { PerformEnv.answered with sourceSize := 1 },
    .setSourceType (Value.ofInt 0), .setSourceData (Value.ofString (CStr.lit "hello")),
    .easySetopt (CStr.lit "MAIL_RCPT") (Value.ofString (CStr.lit "a@b")), .easyPerform .answered]

theorem mail_cut_along_fileThenHello :
    ∃ st f answers k, run Win32.ascii Junk.zero dllMain (fileThenHello.take 6) = some st ∧
      st.performPoint Win32.ascii .answered = .ok f ∧ none ∉ answers ∧
      f.uploadMail 2 false answers = some (k, .OK) ∧
      receive marks (.at .line) (k.wire ++ (smtpDone f.st.set f.st.filesize k.smtp ++ [])) =
        some ((CStr.lit "he").bytes ++ [0x0d, 0x0a], []) := by
  have hops : ∀ op ∈ fileThenHello, op.LeavesSize := by
    simp only [fileThenHello, List.mem_cons, List.not_mem_nil, or_false, forall_eq_or_imp, forall_eq,
      Op.LeavesSize, and_true, true_and]
    decide
  have hpoint : ∃ st f, run Win32.ascii Junk.zero dllMain (fileThenHello.take 6) = some st ∧
      ansiToUtf8 Win32.ascii st.obj.pSrc.Data = CStr.lit "hello" ∧
      st.performPoint Win32.ascii .answered = .ok f ∧ f.wt ≠ none ∧ f.st.set.mail_rcpt ≠ none ∧
      f.st.set.connect_only = some 0 ∧ f.st.set.mimepost = none ∧ f.st.filesize = 1 :=
    ⟨_, _, rfl, rfl, rfl, nofun, by decide, by decide, by decide, by decide⟩
  obtain ⟨st, f, hrun, htext, hpoint, hmail, hrcpt, hconnect, hform, hsize⟩ := hpoint
  obtain ⟨answers, k, hsocket, hupload, -, hread⟩ := mail_cut_along Win32.ascii Junk.zero dllMain
    fileThenHello hops (fileThenHello.take 6) (.easyPerform .answered) [] rfl st hrun .answered f rfl hpoint
    hmail hrcpt hconnect hform (by decide) 2 false (by decide) (by decide) (by rw [htext, hsize]; decide)
  refine ⟨st, f, answers, k, hrun, hpoint, hsocket, hupload, ?_⟩
  rw [hread [], htext]
  rfl

end Curl1C
