/-
  Curl1C.Context.Files

  The streams of `easy_perform`: the source file it reads from and the
  destination file it writes to.

  A stream should be closed once before `easy_perform` is left, by return or by
  an error that unwinds, and not be used after that (`ClosedOnce`, a property
  of the calls the activation makes).  Only the calls that name a stream
  matter, so each phase is summed up by the list of those (`Adds`).

  Main result: `closesFiles_iff`.
-/

import Curl1C.Context.Run

namespace Curl1C

open Lib

/-! ## Streams in a list of calls -/

/-- The stream a call opens, uses, passes to libcurl or closes. -/
def Call.stream : Call → Option FileId
  | .fopen _ f => f
  | .fstat f | .fclose f | .easySetopt _ _ (.file f) => some f
  | _ => none

/-- Every stream that is opened is closed exactly once, and no stream is used,
    passed to libcurl or closed after it was closed. -/
structure ClosedOnce (calls : List Call) : Prop where
  once : ∀ name f, .fopen name (some f) ∈ calls → calls.count (.fclose f) = 1
  unused : calls.Pairwise fun c d => ∀ f, c = .fclose f → d.stream ≠ some f

/-- The calls that name a stream. -/
def fileCalls (calls : List Call) : List Call := calls.filter fun c => c.stream.isSome

@[simp] theorem fileCalls_append (l l' : List Call) :
    fileCalls (l ++ l') = fileCalls l ++ fileCalls l' := List.filter_append ..

/-- The other calls do not matter. -/
theorem closedOnce_fileCalls {calls : List Call} :
    ClosedOnce (fileCalls calls) ↔ ClosedOnce calls := by
  have hcount : ∀ f, (fileCalls calls).count (.fclose f) = calls.count (.fclose f) := by
    intro f
    exact List.count_filter rfl
  have hmem : ∀ name f, Call.fopen name (some f) ∈ fileCalls calls ↔
      Call.fopen name (some f) ∈ calls := by
    intro name f
    simp [fileCalls, Call.stream]
  have hpair : ((fileCalls calls).Pairwise fun c d => ∀ f, c = .fclose f → d.stream ≠ some f) ↔
      calls.Pairwise fun c d => ∀ f, c = .fclose f → d.stream ≠ some f := by
    unfold fileCalls
    rw [List.pairwise_filter]
    refine List.Pairwise.iff ?_
    intro c d
    constructor
    · rintro h f rfl hd
      exact h rfl (by simp [hd]) f rfl hd
    · intro h _ _
      exact h
  constructor
  · rintro ⟨honce, hunused⟩
    refine ⟨fun name f hopen => ?_, hpair.mp hunused⟩
    rw [← hcount]
    exact honce name f ((hmem name f).mpr hopen)
  · rintro ⟨honce, hunused⟩
    refine ⟨fun name f hopen => ?_, hpair.mpr hunused⟩
    rw [hcount]
    exact honce name f ((hmem name f).mp hopen)

/-- The calls made between two states. -/
def callsBetween (st st' : St) : List Call := st'.proc.log.drop st.proc.log.length

/-- `st'` comes after `st`, and `l` are the calls in between that name a
    stream. -/
def Adds (l : List Call) (st st' : St) : Prop :=
  ∃ new, st'.proc.log = st.proc.log ++ new ∧ fileCalls new = l

theorem Adds.refl (st : St) : Adds [] st st := ⟨[], by simp, rfl⟩

theorem Adds.trans {l l' : List Call} {s t u : St} (h : Adds l s t) (h' : Adds l' t u) :
    Adds (l ++ l') s u := by
  obtain ⟨new, hlog, hnew⟩ := h
  obtain ⟨new', hlog', hnew'⟩ := h'
  exact ⟨new ++ new', by rw [hlog', hlog, List.append_assoc], by simp [hnew, hnew']⟩

/-- One more call. -/
theorem Adds.call {l : List Call} {s t u : St} (h : Adds l s t) (c : Call)
    (hu : u.proc.log = t.proc.log ++ [c]) : Adds (l ++ fileCalls [c]) s u :=
  h.trans ⟨[c], hu, rfl⟩

/-- Options that do not hold a stream. -/
theorem Adds.setopt {l : List Call} {s t : St} (h : Adds l s t) (o : CURLoption) {v : OptVal}
    (hv : ∀ f, v ≠ .file f) : Adds l s (t.setopt o v) := by
  have hnone : fileCalls [.easySetopt t.obj.m_curl o v] = [] := by
    cases v with
    | file f => exact absurd rfl (hv f)
    | _ => rfl
  have hcall := h.call (.easySetopt t.obj.m_curl o v) (u := t.setopt o v) rfl
  rwa [hnone, List.append_nil] at hcall

theorem Adds.closedOnce_iff {l : List Call} {st st' : St} (h : Adds l st st') :
    ClosedOnce (callsBetween st st') ↔ ClosedOnce l := by
  obtain ⟨new, hlog, rfl⟩ := h
  rw [callsBetween, hlog, List.drop_left, closedOnce_fileCalls]

/-! ## What the phases do with streams -/

/-- The calls for a source stream that reaches the transfer. -/
def sourceCalls (h : HandleId) (name : CStr) : Option FileId → List Call
  | none => []
  | some f => [.fopen name (some f), .fstat f, .easySetopt h .READDATA (.file f)]

/-- The calls for a destination stream that reaches the transfer. -/
def destCalls (h : HandleId) (name : CStr) : Option FileId → List Call
  | none => []
  | some f => [.fopen name (some f), .easySetopt h .WRITEDATA (.file f)]

/-- `if(f) fclose(f)`. -/
def closeCalls : Option FileId → List Call
  | none => []
  | some f => [.fclose f]

namespace Frame

variable {win : Win32} {env : PerformEnv}

theorem sendVariable_adds (f : Frame) : Adds [] f.st (f.sendVariable win).st := by
  have hpost : ∀ body, Adds [] f.st { f.st with obj := { f.st.obj with PostFildsData := body } } :=
    fun _ => Adds.refl f.st
  unfold sendVariable
  split
  · exact Adds.refl f.st
  · dsimp only
    split
    · refine Adds.setopt (Adds.setopt (hpost _) _ ?_) _ ?_ <;> exact nofun
    · refine Adds.setopt (Adds.setopt (Adds.setopt (hpost _) _ ?_) _ ?_) _ ?_ <;> exact nofun

theorem sendMultipart_adds (f : Frame) : Adds [] f.st f.sendMultipart.st := by
  refine Adds.setopt (Adds.setopt (Adds.setopt (Adds.setopt (Adds.setopt (Adds.refl f.st)
    _ ?_) _ ?_) _ ?_) _ ?_) _ ?_ <;> exact nofun

theorem statusSetup_adds (f : Frame) : Adds [] f.st f.statusSetup.commonSetup.st := by
  have hstatus : Adds [] f.st f.statusSetup.st := by
    unfold statusSetup
    split
    · refine Adds.setopt (Adds.setopt (Adds.setopt (Adds.refl f.st) _ ?_) _ ?_) _ ?_ <;> exact nofun
    · exact Adds.setopt (Adds.refl f.st) _ nofun
  refine Adds.setopt (Adds.setopt (Adds.setopt hstatus _ ?_) _ ?_) _ ?_ <;> exact nofun

/-- `g` comes after `f` in the same activation, with the streams `fd` and `fp`
    and the calls `l` on streams in between. -/
structure Passed (f g : Frame) (l : List Call) (fd fp : Option FileId) : Prop where
  adds : Adds l f.st g.st
  dest : g.st.obj.pDest = f.st.obj.pDest
  handle : g.st.obj.m_curl = f.st.obj.m_curl
  fd : g.fd = fd
  fp : g.fp = fp

theorem Passed.trans {f g h : Frame} {l l' : List Call} {fd fp fd' fp' : Option FileId}
    (hfg : f.Passed g l fd fp) (hgh : g.Passed h l' fd' fp') :
    f.Passed h (l ++ l') fd' fp' where
  adds := hfg.adds.trans hgh.adds
  dest := hgh.dest.trans hfg.dest
  handle := hgh.handle.trans hfg.handle
  fd := hgh.fd
  fp := hgh.fp

/-- The options behind the destination touch no stream. -/
theorem statusSetup_passed (f : Frame) :
    f.Passed f.statusSetup.commonSetup [] f.fd f.fp where
  adds := f.statusSetup_adds
  dest := by unfold commonSetup statusSetup; split <;> rfl
  handle := by unfold commonSetup statusSetup; split <;> rfl
  fd := f.commonSetup_fd
  fp := f.commonSetup_fp

end Frame

/-- A request of the object reads a file. -/
def St.SendsFile (st : St) : Prop := st.obj.isMultipart = false ∧ st.obj.pSrc.Type_ = .ttFile

/-- A request of the object writes a file. -/
def St.ReceivesFile (st : St) : Prop := st.obj.pDest.Type_ = .ttFile

namespace Frame

variable {win : Win32} {env : PerformEnv}

/-- Without a source file, sending touches no stream. -/
theorem sendSetup_plain {f : Frame} (hplain : ¬ f.st.SendsFile) :
    ∃ g, f.sendSetup win env = .ok g ∧ f.Passed g [] f.fd f.fp ∧
      g.st.proc.nFile = f.st.proc.nFile := by
  unfold sendSetup
  by_cases hmulti : f.st.obj.isMultipart = true
  · rw [if_pos hmulti]
    exact ⟨_, rfl, ⟨f.sendMultipart_adds, rfl, rfl, rfl, rfl⟩, rfl⟩
  · rw [if_neg hmulti]
    cases htype : f.st.obj.pSrc.Type_ with
    | ttVariable =>
        refine ⟨_, rfl, ⟨f.sendVariable_adds, ?_, ?_, ?_, ?_⟩, ?_⟩ <;>
          (unfold sendVariable; split; rfl; dsimp only; split <;> rfl)
    | ttFile => exact absurd ⟨by simpa using hmulti, htype⟩ hplain
    | ttMsg => exact ⟨f, rfl, ⟨Adds.refl f.st, rfl, rfl, rfl, rfl⟩, rfl⟩

theorem sendSetup_of_sendsFile {f : Frame} (hsends : f.st.SendsFile) :
    f.sendSetup win env = f.sendFile env := by
  obtain ⟨hmulti, htype⟩ := hsends
  simp only [sendSetup, hmulti, htype, Bool.false_eq_true, if_false]

/-- A source file that does not open ends the request, or the process. -/
theorem sendSetup_notOpened {f : Frame} (hsends : f.st.SendsFile)
    (hopen : env.opensSource = false) :
    f.sendSetup win env = .crashed ∨
      ∃ st, f.sendSetup win env = .unwound st ∧ Adds [] f.st st := by
  rw [sendSetup_of_sendsFile hsends]
  unfold sendFile
  rw [hopen]
  cases env.unwinds .openSource with
  | false => exact Or.inl rfl
  | true => exact Or.inr ⟨_, rfl, (Adds.refl f.st).call (.fopen f.st.obj.pSrc.Data none) rfl⟩

/-- Opening the source and asking for its size. -/
theorem openSource_adds (f : Frame) :
    Adds [.fopen f.st.obj.pSrc.Data (some f.st.proc.nFile), .fstat f.st.proc.nFile] f.st
      f.openSource.st := by
  have hopen := (Adds.refl f.st).call (.fopen f.st.obj.pSrc.Data (some f.st.proc.nFile))
    (u := { f.st with proc := f.st.proc.fopen f.st.obj.pSrc.Data true }) rfl
  exact hopen.call (.fstat f.st.proc.nFile) rfl

/-- A source file whose size cannot be read is left open by the error that
    unwinds. -/
theorem sendSetup_notRead {f : Frame} (hsends : f.st.SendsFile) (hopen : env.opensSource = true)
    (hstat : env.statsSource = false) (hunwinds : env.unwinds .statSource = true) :
    f.sendSetup win env = .unwound f.openSource.st := by
  rw [sendSetup_of_sendsFile hsends]
  unfold sendFile
  rw [hopen, hstat, hunwinds]
  rfl

/-- A source file that opens is passed to libcurl. -/
theorem sendSetup_opened {f : Frame} (hsends : f.st.SendsFile) (hopen : env.opensSource = true)
    (hstat : env.statsSource = false → env.unwinds .statSource = false) :
    ∃ g, f.sendSetup win env = .ok g ∧
      f.Passed g (sourceCalls f.st.obj.m_curl f.st.obj.pSrc.Data (some f.st.proc.nFile))
        (some f.st.proc.nFile) f.fp ∧
      g.st.proc.nFile = f.st.proc.nFile + 1 := by
  have hread : (!env.statsSource && env.unwinds .statSource) = false := by
    cases hs : env.statsSource with
    | true => rfl
    | false => simp [hstat hs]
  have hsetup : f.sendSetup win env = .ok (f.openSource.sendStream env f.st.proc.nFile) := by
    rw [sendSetup_of_sendsFile hsends]
    unfold sendFile
    rw [hopen, hread]
    rfl
  refine ⟨_, hsetup, ⟨?_, rfl, rfl, rfl, rfl⟩, rfl⟩
  have hupload := f.openSource_adds.setopt .UPLOAD (v := .long 1) nofun
  have hdata := hupload.call (.easySetopt f.st.obj.m_curl .READDATA (.file f.st.proc.nFile))
    (u := (f.openSource.st.setopt .UPLOAD (.long 1)).setopt .READDATA (.file f.st.proc.nFile)) rfl
  exact Adds.setopt hdata .INFILESIZE_LARGE nofun

/-- Without a destination file, receiving touches no stream. -/
theorem recvSetup_plain {f : Frame} (hplain : ¬ f.st.ReceivesFile) :
    ∃ g, f.recvSetup env = .ok g ∧ f.Passed g [] f.fd f.fp := by
  unfold recvSetup
  cases htype : f.st.obj.pDest.Type_ with
  | ttVariable =>
      refine ⟨_, rfl, ?_, rfl, rfl, rfl, rfl⟩
      refine Adds.setopt (Adds.setopt (Adds.refl f.st) _ ?_) _ ?_ <;> exact nofun
  | ttFile => exact absurd htype hplain
  | ttMsg => exact ⟨f, rfl, Adds.refl f.st, rfl, rfl, rfl, rfl⟩

/-- A destination file that is created is passed to libcurl with
    `curl_fwrite`. -/
theorem recvSetup_created {f : Frame} (hreceives : f.st.ReceivesFile)
    (hcreate : env.createsDest = true) :
    ∃ g, f.recvSetup env = .ok g ∧
      f.Passed g (destCalls f.st.obj.m_curl f.st.obj.pDest.Data (some f.st.proc.nFile)) f.fd
        (some f.st.proc.nFile) ∧
      g.st.opts .WRITEFUNCTION = some (.fn .curlFwrite) := by
  have hsetup : f.recvSetup env = .ok ((f.openDest.setopt .WRITEDATA
      (.file f.st.proc.nFile)).setopt .WRITEFUNCTION (.fn .curlFwrite)) := by
    have htype : f.st.obj.pDest.Type_ = .ttFile := hreceives
    simp only [recvSetup, htype, hcreate, if_true]
    rfl
  refine ⟨_, hsetup, ⟨?_, rfl, rfl, rfl, rfl⟩, by simp⟩
  have hopen := (Adds.refl f.st).call (.fopen f.st.obj.pDest.Data (some f.st.proc.nFile))
    (u := f.openDest.st) rfl
  have hdata := hopen.call (.easySetopt f.st.obj.m_curl .WRITEDATA (.file f.st.proc.nFile))
    (u := f.openDest.st.setopt .WRITEDATA (.file f.st.proc.nFile)) rfl
  exact Adds.setopt hdata .WRITEFUNCTION nofun

/-- A destination file that cannot be created ends the request by the error, or
    leaves it with a NULL stream. -/
theorem recvSetup_notCreated {f : Frame} (hreceives : f.st.ReceivesFile)
    (hcreate : env.createsDest = false) :
    (env.unwinds .createDest = true ∧ ∃ st, f.recvSetup env = .unwound st ∧ Adds [] f.st st) ∨
    (env.unwinds .createDest = false ∧ ∃ g, f.recvSetup env = .ok g ∧ f.Passed g [] f.fd f.fp ∧
      g.st.opts .WRITEFUNCTION = some (.fn .curlFwrite)) := by
  have htype : f.st.obj.pDest.Type_ = .ttFile := hreceives
  have hopen := (Adds.refl f.st).call (.fopen f.st.obj.pDest.Data none)
    (u := { f.st with proc := f.st.proc.fopen f.st.obj.pDest.Data false }) rfl
  cases hunwinds : env.unwinds .createDest with
  | true =>
      refine Or.inl ⟨rfl, _, ?_, hopen⟩
      simp only [recvSetup, htype, hcreate, hunwinds, Bool.false_eq_true, if_false, if_true]
  | false =>
      have hsetup : f.recvSetup env = .ok ((({ f with st := { f.st with
          proc := f.st.proc.fopen f.st.obj.pDest.Data false } } : Frame).setopt .WRITEDATA
            .null).setopt .WRITEFUNCTION (.fn .curlFwrite)) := by
        simp only [recvSetup, htype, hcreate, hunwinds, Bool.false_eq_true, if_false]
      refine Or.inr ⟨rfl, _, hsetup, ⟨?_, rfl, rfl, rfl, rfl⟩, by simp⟩
      refine Adds.setopt (Adds.setopt hopen _ ?_) _ ?_ <;> exact nofun

/-! ## The transfer and what follows -/

theorem closeIfOpen_adds (s : Option FileId) (f : Frame) :
    Adds (closeCalls s) f.st (f.closeIfOpen s).st := by
  cases s with
  | none => exact Adds.refl f.st
  | some id => exact (Adds.refl f.st).call (.fclose id) rfl

/-- A transfer touches no stream of its own, if it comes back. -/
theorem transfer_passed (env : PerformEnv) (f : Frame) :
    f.transfer env = .crashed ∨
      ∃ g data, f.transfer env = .ok (g, data) ∧ f.Passed g [] f.fd f.fp := by
  have hcall := (Adds.refl f.st).call (.easyPerform f.st.obj.m_curl)
    (u := { f.st with proc := f.st.proc.curlEasyPerform f.st.obj.m_curl }) rfl
  unfold transfer
  dsimp only
  split
  · cases runOps swriteStep [] env.chunks with
    | none => exact Or.inl rfl
    | some data => exact Or.inr ⟨_, data, rfl, hcall, rfl, rfl, rfl, rfl⟩
  · exact Or.inr ⟨_, [], rfl, hcall, rfl, rfl, rfl, rfl⟩

/-- Only a transfer into the local string can fail to come back. -/
theorem transfer_toFile {f : Frame} (hwrite : f.st.opts .WRITEFUNCTION = some (.fn .curlFwrite)) :
    f.transfer env ≠ .crashed := by
  have hother : ¬ (f.st.opts .WRITEFUNCTION = some (.fn .curlSwrite) ∧
      f.st.opts .WRITEDATA = some (.data f.call)) := by
    rintro ⟨hswrite, -⟩
    rw [hwrite] at hswrite
    cases hswrite
  have hok : f.transfer env = .ok ({ f with st := { f.st with
      proc := f.st.proc.curlEasyPerform f.st.obj.m_curl } }, []) := if_neg hother
  rw [hok]
  nofun

/-- The object as the caller finds it after the last part of `easy_perform`. -/
def left (win : Win32) (env : PerformEnv) (f : Frame) (data : List Byte) : Option St :=
  ((f.finish win env data).bind fun r => .ok r.1).state

/-- The streams as `easy_perform` closes them before it looks at the result. -/
def closing (f : Frame) : Frame :=
  let f := { f with st := { f.st with proc := f.st.proc.curlEasyGetinfo f.st.obj.m_curl } }
  (f.closeIfOpen f.fp).closeIfOpen f.fd

theorem closing_adds (f : Frame) : Adds (closeCalls f.fp ++ closeCalls f.fd) f.st f.closing.st := by
  have hinfo := (Adds.refl f.st).call (.easyGetinfo f.st.obj.m_curl)
    (u := { f.st with proc := f.st.proc.curlEasyGetinfo f.st.obj.m_curl }) rfl
  have hfp := hinfo.trans (closeIfOpen_adds f.fp { f with st := { f.st with
    proc := f.st.proc.curlEasyGetinfo f.st.obj.m_curl } })
  exact hfp.trans (closeIfOpen_adds f.fd _)

theorem closing_fp (f : Frame) : f.closing.fp = f.fp := by
  unfold closing
  cases f.fp <;> cases f.fd <;> rfl

theorem closing_dest (f : Frame) : f.closing.st.obj.pDest = f.st.obj.pDest := by
  unfold closing
  cases f.fp <;> cases f.fd <;> rfl

/-- After a failed transfer the streams have been closed once. -/
theorem left_failed {f : Frame} (hfail : env.succeeds = false) (data : List Byte) :
    ∃ st, f.left win env data = some st ∧
      Adds (closeCalls f.fp ++ closeCalls f.fd) f.st st := by
  refine ⟨f.closing.st, ?_, f.closing_adds⟩
  unfold left finish
  rw [hfail]
  cases env.unwinds .transfer <;> rfl

theorem finish_of_succeeds {f : Frame} (hok : env.succeeds = true) (data : List Byte) :
    f.finish win env data = match f.closing.st.obj.pDest.Type_ with
      | .ttVariable => .ok ({ f.closing.st with obj := { f.closing.st.obj with
          pDest := { f.closing.st.obj.pDest with Data := utf8ToAnsi win (CStr.ofBuf data) } } },
          true)
      | .ttFile => match f.closing.fp with
        | none => .crashed
        | some id => .ok ({ f.closing.st with proc := f.closing.st.proc.fclose id }, true)
      | .ttMsg => .ok (f.closing.st, true) := by
  unfold finish
  rw [hok]
  rfl

/-- So they have after a successful one, unless the response went to a file. -/
theorem left_plain {f : Frame} (hok : env.succeeds = true) (hplain : ¬ f.st.ReceivesFile)
    (data : List Byte) :
    ∃ st, f.left win env data = some st ∧
      Adds (closeCalls f.fp ++ closeCalls f.fd) f.st st := by
  unfold left
  rw [finish_of_succeeds hok, closing_dest]
  cases htype : f.st.obj.pDest.Type_ with
  | ttVariable => exact ⟨_, rfl, f.closing_adds⟩
  | ttFile => exact absurd htype hplain
  | ttMsg => exact ⟨_, rfl, f.closing_adds⟩

/-- A destination file is closed again, and a NULL stream too. -/
theorem left_file {f : Frame} (hok : env.succeeds = true) (hreceives : f.st.ReceivesFile)
    (data : List Byte) :
    match f.fp with
    | none => f.left win env data = none
    | some id => ∃ st, f.left win env data = some st ∧
        Adds (closeCalls f.fp ++ closeCalls f.fd ++ [.fclose id]) f.st st := by
  have htype : f.st.obj.pDest.Type_ = .ttFile := hreceives
  have hleft : f.left win env data = match f.fp with
      | none => none
      | some id => some { f.closing.st with proc := f.closing.st.proc.fclose id } := by
    unfold left
    rw [finish_of_succeeds hok, closing_dest, htype, closing_fp]
    cases f.fp <;> rfl
  cases hfp : f.fp with
  | none => rw [hleft, hfp]
  | some id =>
      rw [hleft, hfp]
      have hclosed := f.closing_adds.call (.fclose id)
        (u := { f.closing.st with proc := f.closing.st.proc.fclose id }) rfl
      rw [hfp] at hclosed
      exact ⟨_, rfl, hclosed⟩

end Frame

/-! ## The result -/

variable (win : Win32) (env : PerformEnv)

/-- However `easy_perform` is left, every stream it opened has been closed once
    and not been used after that. -/
def ClosesFiles (st : St) : Prop :=
  ∀ st', step win st (.easyPerform env) = some st' → ClosedOnce (callsBetween st st')

/-- The outcomes for which the streams are handled properly: the size of a
    source file can be read or the error comes back; a response into a file
    fails; and a destination file that cannot be created does not unwind past
    an open source. -/
structure FilesHandled (st : St) : Prop where
  stat : st.SendsFile → env.opensSource = true → env.statsSource = false →
    env.unwinds .statSource = false
  dest : (st.SendsFile → env.opensSource = true) → st.ReceivesFile → env.createsDest = true →
    env.succeeds = false
  create : st.SendsFile → env.opensSource = true → st.ReceivesFile → env.createsDest = false →
    env.unwinds .createDest = false

variable {win env}

theorem step_of_unwound {st s : St} (h : st.performPoint win env = .unwound s) :
    step win st (.easyPerform env) = some s := by
  simp only [step, St.easyPerform, h, Outcome.bind, Outcome.state]

theorem step_of_transfer {st : St} {f g : Frame} {data : List Byte}
    (hpoint : st.performPoint win env = .ok f) (htransfer : f.transfer env = .ok (g, data)) :
    step win st (.easyPerform env) = g.left win env data := by
  simp only [step, St.easyPerform, hpoint, htransfer, Outcome.bind, Frame.left]
  cases g.finish win env data <;> rfl

theorem closesFiles_of_some {st st' : St} {l : List Call}
    (h : step win st (.easyPerform env) = some st') (hadds : Adds l st st') :
    ClosesFiles win env st ↔ ClosedOnce l := by
  rw [← hadds.closedOnce_iff]
  constructor
  · intro hcloses
    exact hcloses st' h
  · intro honce st'' h'
    obtain rfl : st' = st'' := Option.some.inj (h.symm.trans h')
    exact honce

theorem closesFiles_of_none {st : St} (h : step win st (.easyPerform env) = none) :
    ClosesFiles win env st := by
  intro st' h'
  rw [h] at h'
  cases h'

/-! ### Lists of calls -/

section Lists

variable (h h' : HandleId) (name name' : CStr) (fd : Option FileId)

/-- A source that is closed after the transfer. -/
theorem closedOnce_source : ClosedOnce (sourceCalls h name fd ++ closeCalls fd) := by
  cases fd with
  | none => exact ⟨by simp [sourceCalls, closeCalls], by simp [sourceCalls, closeCalls]⟩
  | some f => exact ⟨by simp [sourceCalls, closeCalls], by simp [sourceCalls, closeCalls]⟩

/-- A source that is left open. -/
theorem closedOnce_open_source_iff : ClosedOnce (sourceCalls h name fd) ↔ fd = none := by
  constructor
  · intro honce
    cases fd with
    | none => rfl
    | some f =>
        have hcount := honce.once name f (by simp [sourceCalls])
        simp [sourceCalls] at hcount
  · rintro rfl
    exact ⟨by simp [sourceCalls], by simp [sourceCalls]⟩

variable {fd}

/-- Both streams, closed after the transfer. -/
theorem closedOnce_both {fp : FileId} (hne : fd ≠ some fp) :
    ClosedOnce (sourceCalls h name fd ++ destCalls h' name' (some fp) ++
      (closeCalls (some fp) ++ closeCalls fd)) := by
  cases fd with
  | none =>
      exact ⟨by simp [sourceCalls, destCalls, closeCalls],
        by simp [sourceCalls, destCalls, closeCalls]⟩
  | some f =>
      have hdiff : f ≠ fp := fun heq => hne (congrArg some heq)
      constructor
      · intro name₁ f₁ hopen
        have hwhich : f₁ = f ∨ f₁ = fp := by
          simp only [sourceCalls, destCalls, closeCalls] at hopen
          simp at hopen
          exact hopen.imp And.right And.right
        rcases hwhich with rfl | rfl
        · simp [sourceCalls, destCalls, closeCalls, hdiff.symm]
        · simp [sourceCalls, destCalls, closeCalls, hdiff]
      · simp [sourceCalls, destCalls, closeCalls, Call.stream, hdiff]

/-- The destination closed a second time. -/
theorem not_closedOnce_twice {fp : FileId} :
    ¬ ClosedOnce (sourceCalls h name fd ++ destCalls h' name' (some fp) ++
      (closeCalls (some fp) ++ closeCalls fd ++ [.fclose fp])) := by
  intro honce
  have hcount := honce.once name' fp (by simp [destCalls])
  simp only [List.count_append, closeCalls, List.count_singleton_self] at hcount
  omega

end Lists

/-! ### A request whose source is set up -/

section Sent

variable {st : St} {g : Frame} {h : HandleId} {name : CStr} {fd : Option FileId}
  (hsend : (Frame.enter st).sendSetup win env = .ok g)
  (hpassed : (Frame.enter st).Passed g (sourceCalls h name fd) fd none)

include hsend hpassed

/-- The transfer of a request, with all its calls on streams before it. -/
theorem step_of_received {r : Frame} {l : List Call} {fp : Option FileId}
    (hrecv : g.recvSetup env = .ok r) (hr : g.Passed r l fd fp) :
    step win st (.easyPerform env) = none ∧
      r.statusSetup.commonSetup.transfer env = .crashed ∨
    ∃ t data, step win st (.easyPerform env) = t.left win env data ∧
      (Frame.enter st).Passed t (sourceCalls h name fd ++ l) fd fp := by
  have hpoint : st.performPoint win env = .ok r.statusSetup.commonSetup := by
    simp only [St.performPoint, hsend, hrecv, Outcome.bind]
  rcases Frame.transfer_passed env r.statusSetup.commonSetup with hcrash | ⟨t, data, ht, htp⟩
  · refine Or.inl ⟨?_, hcrash⟩
    simp only [step, St.easyPerform, hpoint, hcrash, Outcome.bind, Outcome.state]
  · refine Or.inr ⟨t, data, step_of_transfer hpoint ht, ?_⟩
    have hall := ((hpassed.trans hr).trans r.statusSetup_passed).trans htp
    rw [r.commonSetup_fd, r.commonSetup_fp, hr.fd, hr.fp, List.append_nil, List.append_nil] at hall
    exact hall

/-- Without a destination file the source is closed after the transfer. -/
theorem closesFiles_plain (hplain : ¬ st.ReceivesFile) : ClosesFiles win env st := by
  have hplain' : ¬ g.st.ReceivesFile := by
    rw [St.ReceivesFile, hpassed.dest]
    exact hplain
  obtain ⟨r, hrecv, hr⟩ := @Frame.recvSetup_plain env g hplain'
  rw [hpassed.fd, hpassed.fp] at hr
  rcases step_of_received hsend hpassed hrecv hr with ⟨hnone, -⟩ | ⟨t, data, hstep, ht⟩
  · exact closesFiles_of_none hnone
  · have hdest : ¬ t.st.ReceivesFile := by
      rw [St.ReceivesFile, ht.dest]
      exact hplain
    have hleft : ∃ st', t.left win env data = some st' ∧
        Adds (closeCalls t.fp ++ closeCalls t.fd) t.st st' := by
      cases hok : env.succeeds with
      | true => exact Frame.left_plain hok hdest data
      | false => exact Frame.left_failed hok data
    obtain ⟨st', hst', hadds⟩ := hleft
    rw [ht.fd, ht.fp] at hadds
    rw [closesFiles_of_some (hstep.trans hst') (ht.adds.trans hadds), List.append_nil]
    exact closedOnce_source h name fd

/-- A destination file that is created is closed twice after success. -/
theorem closesFiles_created (hreceives : st.ReceivesFile) (hcreate : env.createsDest = true)
    (hfresh : fd ≠ some g.st.proc.nFile) :
    ClosesFiles win env st ↔ env.succeeds = false := by
  have hreceives' : g.st.ReceivesFile := by
    rw [St.ReceivesFile, hpassed.dest]
    exact hreceives
  obtain ⟨r, hrecv, hr, hwrite⟩ := Frame.recvSetup_created hreceives' hcreate
  rw [hpassed.fd] at hr
  have hwrite' : r.statusSetup.commonSetup.st.opts .WRITEFUNCTION = some (.fn .curlFwrite) := by
    rw [Frame.commonSetup_opts _ (by decide), hwrite]
  rcases step_of_received hsend hpassed hrecv hr with ⟨-, hcrash⟩ | ⟨t, data, hstep, ht⟩
  · exact absurd hcrash (Frame.transfer_toFile hwrite')
  · cases hok : env.succeeds with
    | false =>
        -- the error is reported behind the closes of both streams
        obtain ⟨st', hst', hadds⟩ := @Frame.left_failed win env t hok data
        rw [ht.fd, ht.fp] at hadds
        rw [closesFiles_of_some (hstep.trans hst') (ht.adds.trans hadds)]
        simp only [iff_true]
        exact closedOnce_both _ _ _ _ hfresh
    | true =>
        -- the branch for a file closes `fp` again
        have hdest : t.st.ReceivesFile := by
          rw [St.ReceivesFile, ht.dest]
          exact hreceives
        have hleft := @Frame.left_file win env t hok hdest data
        rw [ht.fp] at hleft
        obtain ⟨st', hst', hadds⟩ := hleft
        rw [ht.fd] at hadds
        rw [closesFiles_of_some (hstep.trans hst') (ht.adds.trans hadds)]
        simp only [Bool.true_eq_false, iff_false]
        exact not_closedOnce_twice _ _ _ _

/-- A destination file that cannot be created leaves an open source behind when
    the error unwinds. -/
theorem closesFiles_notCreated (hreceives : st.ReceivesFile) (hcreate : env.createsDest = false) :
    ClosesFiles win env st ↔ (fd ≠ none → env.unwinds .createDest = false) := by
  have hreceives' : g.st.ReceivesFile := by
    rw [St.ReceivesFile, hpassed.dest]
    exact hreceives
  rcases Frame.recvSetup_notCreated hreceives' hcreate with
    ⟨hunwinds, s, hrecv, hadds⟩ | ⟨hback, r, hrecv, hr, hwrite⟩
  · have hpoint : st.performPoint win env = .unwound s := by
      simp only [St.performPoint, hsend, hrecv, Outcome.bind]
    rw [closesFiles_of_some (step_of_unwound hpoint) (hpassed.adds.trans hadds), List.append_nil,
      closedOnce_open_source_iff, hunwinds]
    simp
  · refine ⟨fun _ _ => hback, fun _ => ?_⟩
    rw [hpassed.fd, hpassed.fp] at hr
    rcases step_of_received hsend hpassed hrecv hr with ⟨hnone, -⟩ | ⟨t, data, hstep, ht⟩
    · exact closesFiles_of_none hnone
    · cases hok : env.succeeds with
      | false =>
          obtain ⟨st', hst', hadds⟩ := @Frame.left_failed win env t hok data
          rw [ht.fd, ht.fp] at hadds
          rw [closesFiles_of_some (hstep.trans hst') (ht.adds.trans hadds), List.append_nil]
          exact closedOnce_source h name fd
      | true =>
          -- `fclose(NULL)` takes the process down
          have hdest : t.st.ReceivesFile := by
            rw [St.ReceivesFile, ht.dest]
            exact hreceives
          have hleft := @Frame.left_file win env t hok hdest data
          rw [ht.fp] at hleft
          exact closesFiles_of_none (hstep.trans hleft)

/-- Once the source is set up, the destination decides. -/
theorem closesFiles_of_sent (hfresh : fd ≠ some g.st.proc.nFile) :
    ClosesFiles win env st ↔
      (st.ReceivesFile → env.createsDest = true → env.succeeds = false) ∧
      (fd ≠ none → st.ReceivesFile → env.createsDest = false →
        env.unwinds .createDest = false) := by
  by_cases hreceives : st.ReceivesFile
  · cases hcreate : env.createsDest with
    | true =>
        rw [closesFiles_created hsend hpassed hreceives hcreate hfresh]
        simp [hreceives]
    | false =>
        rw [closesFiles_notCreated hsend hpassed hreceives hcreate]
        simp [hreceives]
  · have hcloses := closesFiles_plain hsend hpassed hreceives
    simp [hreceives, hcloses]

end Sent

variable (win env)

/-- The streams of a request are closed exactly once for exactly the outcomes
    of `FilesHandled`. -/
theorem closesFiles_iff (st : St) : ClosesFiles win env st ↔ FilesHandled env st := by
  by_cases hsends : st.SendsFile
  · have hsends' : (Frame.enter st).st.SendsFile := hsends
    cases hopen : env.opensSource with
    | false =>
        -- whether the request crashes or unwinds, no stream has been opened
        have hhandled : FilesHandled env st := by
          constructor <;> simp [hsends, hopen]
        refine iff_of_true ?_ hhandled
        rcases @Frame.sendSetup_notOpened win env _ hsends' hopen with hcrash | ⟨s, hs, hadds⟩
        · refine closesFiles_of_none ?_
          simp only [step, St.easyPerform, St.performPoint, hcrash, Outcome.bind, Outcome.state]
        · have hpoint : st.performPoint win env = .unwound s := by
            simp only [St.performPoint, hs, Outcome.bind]
          refine (closesFiles_of_some (step_of_unwound hpoint) hadds).mpr ?_
          exact ⟨by simp, by simp⟩
    | true =>
        by_cases hstat : env.statsSource = false → env.unwinds .statSource = false
        · obtain ⟨g, hsend, hpassed, hnext⟩ := @Frame.sendSetup_opened win env _ hsends' hopen hstat
          have hfresh : some (Frame.enter st).st.proc.nFile ≠ some g.st.proc.nFile := by
            rw [hnext]
            simp
          rw [closesFiles_of_sent hsend hpassed hfresh]
          constructor
          · rintro ⟨hdest, hcreate⟩
            exact ⟨fun _ _ => hstat, fun _ => hdest, fun _ _ => hcreate (by simp)⟩
          · rintro ⟨-, hdest, hcreate⟩
            exact ⟨hdest fun _ => hopen, fun _ => hcreate hsends hopen⟩
        · -- the source is open when the error is thrown, and nothing closes it
          obtain ⟨hfails, hunwinds⟩ := Classical.not_imp.mp hstat
          have hunwinds' : env.unwinds .statSource = true := by simpa using hunwinds
          have hpoint : st.performPoint win env = .unwound (Frame.enter st).openSource.st := by
            simp only [St.performPoint, Outcome.bind,
              @Frame.sendSetup_notRead win env _ hsends' hopen hfails hunwinds']
          refine iff_of_false ?_ fun hhandled => hstat (hhandled.stat hsends hopen)
          rw [closesFiles_of_some (step_of_unwound hpoint) (Frame.enter st).openSource_adds]
          intro honce
          have hcount := honce.once _ _ (List.mem_cons_self ..)
          simp at hcount
  · have hplain : ¬ (Frame.enter st).st.SendsFile := hsends
    obtain ⟨g, hsend, hpassed, -⟩ := @Frame.sendSetup_plain win env _ hplain
    have hnone : (Frame.enter st).Passed g (sourceCalls st.obj.m_curl st.obj.pSrc.Data none) none
        none := hpassed
    rw [closesFiles_of_sent hsend hnone (by simp)]
    constructor
    · rintro ⟨hdest, -⟩
      exact ⟨fun h => absurd h hsends, fun _ => hdest, fun h => absurd h hsends⟩
    · rintro ⟨-, hdest, -⟩
      exact ⟨hdest fun h => absurd h hsends, fun h => absurd rfl h⟩

/-- A new object whose response goes to the file `f`. -/
def downloads : List Op :=
  [.setDestType (Value.ofInt 1), .setDestData (Value.ofString (CStr.lit "f"))]

/-- A successful download closes its destination twice. -/
theorem dest_closed_twice :
    ∃ st st', run Win32.ascii Junk.zero dllMain downloads = some st ∧
      step Win32.ascii st (.easyPerform .answered) = some st' ∧
      fileCalls (callsBetween st st') =
        [.fopen (CStr.lit "f") (some 0), .easySetopt 0 .WRITEDATA (.file 0), .fclose 0, .fclose 0] ∧
      ¬ ClosesFiles Win32.ascii .answered st := by
  have hrun : ∃ st st', run Win32.ascii Junk.zero dllMain downloads = some st ∧
      step Win32.ascii st (.easyPerform .answered) = some st' ∧
      fileCalls (callsBetween st st') =
        [.fopen (CStr.lit "f") (some 0), .easySetopt 0 .WRITEDATA (.file 0), .fclose 0,
          .fclose 0] :=
    ⟨_, _, rfl, rfl, by decide⟩
  obtain ⟨st, st', hst, hstep, hcalls⟩ := hrun
  refine ⟨st, st', hst, hstep, hcalls, fun hcloses => ?_⟩
  have honce := closedOnce_fileCalls.mpr (hcloses st' hstep)
  rw [hcalls] at honce
  have hcount := honce.once (CStr.lit "f") 0 (by simp)
  simp at hcount

end Curl1C
