/-
  Curl1C.Process.Resources

  The resources of the process, without the data in them: which share every
  easy handle is attached to, the share objects, the cache flags, how many
  handles, lists and mime structures there are and how often each has been
  freed (`Res`).

  Every libcurl call of the component acts on the resources alone
  (`res_curlEasyInit`, ...), so the methods do too: `Change` lists what one
  operation on an object can do to the resources and to the pointers the
  object holds, and `step_changes` says that there is nothing else.
-/

import Curl1C.Lib.Refcount
import Curl1C.Context.Run

namespace Curl1C

/-- The four kinds of data the cache flags govern. -/
@[ext] structure CacheBits where
  dns : Bool
  connect : Bool
  ssl : Bool
  cookie : Bool
deriving DecidableEq

/-- What the arguments of `UseCache` ask for. -/
def CacheBits.ofValues (dns connect ssl cookie : Value) : CacheBits :=
  { dns := !dns.isZero, connect := !connect.isZero, ssl := !ssl.isZero, cookie := !cookie.isZero }

/-- What the share object shares of them. -/
def Share.bits (sh : Share) : CacheBits :=
  { dns := sh.specifier .DNS, connect := sh.specifier .CONNECT,
    ssl := sh.specifier .SSL_SESSION, cookie := sh.specifier .COOKIE }

/-- What the flags of StdAfx.cpp ask for. -/
def Proc.cacheFlags (p : Proc) : CacheBits :=
  { dns := p.bUseCacheDNS, connect := p.bUseCacheCONNECT,
    ssl := p.bUseCacheSSL, cookie := p.bUseCacheCOOKIE }

/-- The resources of a process. -/
@[ext] structure Res where
  attached : HandleId → Option ShareId
  nEasy : Nat
  share : ShareId → Share
  nShare : Nat
  CurlShare : ShareId
  flags : CacheBits
  bNeedInitCache : Bool
  nSlist : Nat
  nMime : Nat
  handleFrees : HandleId → Nat
  listFrees : SlistId → Nat
  mimeFrees : MimeId → Nat

/-- The resources of `p`; what has been freed is read off the calls. -/
def Proc.res (p : Proc) : Res :=
  { attached := fun h => (p.easy h).share
    nEasy := p.nEasy
    share := p.share
    nShare := p.nShare
    CurlShare := p.CurlShare
    flags := p.cacheFlags
    bNeedInitCache := p.bNeedInitCache
    nSlist := p.nSlist
    nMime := p.nMime
    handleFrees := fun h => p.log.count (.easyCleanup h)
    listFrees := fun l => p.log.count (.slistFreeAll (some l))
    mimeFrees := fun m => p.log.count (.mimeFree m) }

namespace Res

/-! ## What a call does to the resources -/

/-- A new handle, attached to nothing. -/
def newHandle (r : Res) : Res :=
  { r with attached := Function.update r.attached r.nEasy none, nEasy := r.nEasy + 1 }

/-- The handle `h` leaves its share for `s`. -/
def attach (h : HandleId) (s : Option ShareId) (r : Res) : Res :=
  { r with
    attached := Function.update r.attached h s
    share := Proc.raiseDirty s (Proc.dropDirty (r.attached h) r.share) }

/-- The handle `h` is freed. -/
def freeHandle (h : HandleId) (r : Res) : Res :=
  { r.attach h none with
    handleFrees := Function.update r.handleFrees h (r.handleFrees h + 1) }

/-- A new string list. -/
def newList (r : Res) : Res := { r with nSlist := r.nSlist + 1 }

/-- The string list `l` is freed, if it is one. -/
def freeList (l : Option SlistId) (r : Res) : Res :=
  { r with listFrees := Lib.raiseCount l r.listFrees }

/-- A new mime structure. -/
def newMime (r : Res) : Res := { r with nMime := r.nMime + 1 }

/-- The mime structure `m` is freed. -/
def freeMime (m : MimeId) (r : Res) : Res :=
  { r with mimeFrees := Function.update r.mimeFrees m (r.mimeFrees m + 1) }

/-- The current share is freed unless it is in use, and a new one takes its
    place. -/
def renewShare (r : Res) : Res :=
  { r with
    share := Function.update
      (if Proc.shareInUse (r.share r.CurlShare) then r.share
        else Function.update r.share r.CurlShare { r.share r.CurlShare with live := false })
      r.nShare Share.new
    nShare := r.nShare + 1
    CurlShare := r.nShare }

/-- The specifier a share has once it took the flags. -/
def cacheSpecifier (flags : CacheBits) (spec : LockData → Bool) : LockData → Bool :=
  let spec := Proc.setSpecifier (Proc.shareFlag flags.dns) .DNS spec
  let spec := Proc.setSpecifier (Proc.shareFlag flags.connect) .CONNECT spec
  let spec := Proc.setSpecifier (Proc.shareFlag flags.ssl) .SSL_SESSION spec
  let spec := Proc.setSpecifier (Proc.shareFlag flags.cookie) .COOKIE spec
  Proc.setSpecifier .SHARE .HSTS (Proc.setSpecifier .SHARE .PSL spec)

/-- The current share takes the flags unless it is in use. -/
def applyFlags (r : Res) : Res :=
  { r with
    share :=
      if Proc.shareInUse (r.share r.CurlShare) then r.share
      else Function.update r.share r.CurlShare
        { r.share r.CurlShare with
          specifier := cacheSpecifier r.flags (r.share r.CurlShare).specifier } }

/-- The share that is current when the handle is attached. -/
def settleShare (r : Res) : Res := (if r.bNeedInitCache then r.renewShare else r).applyFlags

/-- `CcURL::AssignCurlCache` on the handle `h`. -/
def assign (h : HandleId) (r : Res) : Res :=
  let r := r.settleShare
  { r.attach h (if (r.share r.CurlShare).live then some r.CurlShare else none) with
    bNeedInitCache := false }

theorem attach_self (h : HandleId) (s : Option ShareId) (r : Res) :
    (r.attach h s).attached h = s := by
  simp only [attach, Function.update_self]

theorem attach_of_ne {h h' : HandleId} (hne : h' ≠ h) {s : Option ShareId} {r : Res} :
    (r.attach h s).attached h' = r.attached h' := by
  simp only [attach, Function.update_of_ne hne]

section Assign

variable (h : HandleId) (r : Res)

@[simp] theorem assign_nEasy : (r.assign h).nEasy = r.nEasy := by
  unfold assign settleShare
  split <;> rfl

@[simp] theorem assign_flags : (r.assign h).flags = r.flags := by
  unfold assign settleShare
  split <;> rfl

@[simp] theorem assign_nSlist : (r.assign h).nSlist = r.nSlist := by
  unfold assign settleShare
  split <;> rfl

@[simp] theorem assign_nMime : (r.assign h).nMime = r.nMime := by
  unfold assign settleShare
  split <;> rfl

@[simp] theorem assign_handleFrees : (r.assign h).handleFrees = r.handleFrees := by
  unfold assign settleShare
  split <;> rfl

@[simp] theorem assign_listFrees : (r.assign h).listFrees = r.listFrees := by
  unfold assign settleShare
  split <;> rfl

@[simp] theorem assign_mimeFrees : (r.assign h).mimeFrees = r.mimeFrees := by
  unfold assign settleShare
  split <;> rfl

end Assign

theorem cacheSpecifier_bits (flags : CacheBits) (sh : Share) :
    Share.bits { sh with specifier := cacheSpecifier flags sh.specifier } = flags := by
  obtain ⟨dns, connect, ssl, cookie⟩ := flags
  cases dns <;> cases connect <;> cases ssl <;> cases cookie <;> rfl

end Res

namespace Proc

variable (p : Proc)

/-! ## The calls act on the resources -/

/-- The calls that free something. -/
def frees : Call → Bool
  | .easyCleanup _ | .slistFreeAll (some _) | .mimeFree _ => true
  | _ => false

theorem count_snoc_of_ne {log : List Call} {c d : Call} (h : d ≠ c) :
    (log ++ [d]).count c = log.count c := by
  rw [List.count_append, List.count_singleton]
  simp [h]

/-- A call of the family `k` counts for its own argument only. -/
theorem count_snoc_family {k : Nat → Call} (hk : Function.Injective k) (log : List Call) (a : Nat) :
    (fun b => (log ++ [k a]).count (k b)) =
      Function.update (fun b => log.count (k b)) a (log.count (k a) + 1) := by
  funext b
  by_cases hb : b = a
  · rw [hb, Function.update_self, List.count_append, List.count_singleton_self]
  · have hne : k a ≠ k b := fun heq => hb (hk heq).symm
    rw [Function.update_of_ne hb, count_snoc_of_ne hne]

/-- A call that frees nothing and changes nothing. -/
theorem res_log {c : Call} (hc : frees c = false) :
    ({ p with log := p.log ++ [c] } : Proc).res = p.res := by
  have hne : ∀ d, frees d = true → c ≠ d := by
    rintro d hd rfl
    rw [hc] at hd
    cases hd
  refine Res.ext rfl rfl rfl rfl rfl rfl rfl rfl rfl ?_ ?_ ?_
  · exact funext fun h => count_snoc_of_ne (hne _ rfl)
  · exact funext fun l => count_snoc_of_ne (hne _ rfl)
  · exact funext fun m => count_snoc_of_ne (hne _ rfl)

theorem share_update (easy : HandleId → Easy) (h : HandleId) (e : Easy) :
    (fun h' => (Function.update easy h e h').share) =
      Function.update (fun h' => (easy h').share) h e.share := by
  funext h'
  by_cases hh : h' = h
  · rw [hh, Function.update_self, Function.update_self]
  · rw [Function.update_of_ne hh, Function.update_of_ne hh]

theorem res_curlEasyInit : p.curlEasyInit.res = p.res.newHandle := by
  -- apart from its log entry the call changes `easy` and `nEasy` only
  rw [← res_log p (show frees (.easyInit p.nEasy) = false from rfl)]
  exact Res.ext (share_update _ _ _) rfl rfl rfl rfl rfl rfl rfl rfl rfl rfl rfl

theorem res_curlEasySetopt_of_ne (h : HandleId) {o : CURLoption} (ho : o ≠ .SHARE) (v : OptVal) :
    (p.curlEasySetopt h o v).res = p.res := by
  rw [← res_log p (show frees (.easySetopt h o v) = false from rfl)]
  refine Res.ext ((share_update _ _ _).trans ?_) rfl (if_neg ho) rfl rfl rfl rfl rfl rfl rfl rfl rfl
  show Function.update (fun h => (p.easy h).share) h (if o = .SHARE then _ else _) = _
  rw [if_neg ho]
  exact Function.update_eq_self h _

theorem res_curlEasySetopt_share (h : HandleId) (v : OptVal) :
    (p.curlEasySetopt h .SHARE v).res = p.res.attach h (p.shareArg v) := by
  rw [← res_log p (show frees (.easySetopt h .SHARE v) = false from rfl)]
  exact Res.ext (share_update _ _ _) rfl rfl rfl rfl rfl rfl rfl rfl rfl rfl rfl

theorem res_curlEasyCleanup (h : HandleId) : (p.curlEasyCleanup h).res = p.res.freeHandle h := by
  refine Res.ext (share_update _ _ _) rfl rfl rfl rfl rfl rfl rfl rfl ?_ ?_ ?_
  · exact count_snoc_family (fun _ _ => Call.easyCleanup.inj) p.log h
  · exact funext fun l => count_snoc_of_ne (by simp)
  · exact funext fun m => count_snoc_of_ne (by simp)

theorem res_curlSlistAppend_new (s : CStr) :
    (p.curlSlistAppend none s).res = p.res.newList := by
  rw [← res_log p (show frees (.slistAppend none s) = false from rfl)]
  rfl

theorem res_curlSlistAppend_old (l : SlistId) (s : CStr) :
    (p.curlSlistAppend (some l) s).res = p.res := by
  rw [← res_log p (show frees (.slistAppend (some l) s) = false from rfl)]
  rfl

theorem res_curlSlistFreeAll (l : Option SlistId) :
    (p.curlSlistFreeAll l).res = p.res.freeList l := by
  cases l with
  | none => exact res_log p rfl
  | some l =>
      have hinj : Function.Injective fun l : SlistId => Call.slistFreeAll (some l) :=
        fun _ _ heq => Option.some.inj (Call.slistFreeAll.inj heq)
      refine Res.ext rfl rfl rfl rfl rfl rfl rfl rfl rfl ?_ ?_ ?_
      · exact funext fun h => count_snoc_of_ne (by simp)
      · exact count_snoc_family hinj p.log l
      · exact funext fun m => count_snoc_of_ne (by simp)

theorem res_curlMimeInit (h : HandleId) : (p.curlMimeInit h).res = p.res.newMime := by
  rw [← res_log p (show frees (.mimeInit h p.nMime) = false from rfl)]
  rfl

theorem res_curlMimeAddpart (m : MimeId) (part : MimePart) :
    (p.curlMimeAddpart m part).res = p.res := by
  rw [← res_log p (show frees (.mimeAddpart m) = false from rfl)]
  rfl

theorem res_curlMimeFree (m : MimeId) : (p.curlMimeFree m).res = p.res.freeMime m := by
  refine Res.ext rfl rfl rfl rfl rfl rfl rfl rfl rfl ?_ ?_ ?_
  · exact funext fun h => count_snoc_of_ne (by simp)
  · exact funext fun l => count_snoc_of_ne (by simp)
  · exact count_snoc_family (fun _ _ => Call.mimeFree.inj) p.log m

theorem res_renewCurlShare :
    p.renewCurlShare.res = if p.res.bNeedInitCache then p.res.renewShare else p.res := by
  show (if p.bNeedInitCache then _ else p).res = if p.bNeedInitCache then _ else _
  by_cases hneed : p.bNeedInitCache = true
  · have hcleanup := res_log p (show frees (.shareCleanup p.CurlShare) = false from rfl)
    have hinit := res_log { p with log := p.log ++ [.shareCleanup p.CurlShare] }
      (show frees (.shareInit p.nShare) = false from rfl)
    rw [if_pos hneed, if_pos hneed, ← hcleanup, ← hinit]
    rfl
  · rw [if_neg hneed, if_neg hneed]

theorem res_curlShareSetopt (s : ShareId) (o : ShareOption) (d : LockData) :
    (p.curlShareSetopt s o d).res = { p.res with share := (p.curlShareSetopt s o d).share } := by
  rw [← res_log p (show frees (.shareSetopt s o d) = false from rfl)]
  rfl

/-- The `curl_share_setopt` calls leave a share in use as it is. -/
theorem applyCacheFlags_share_of_inUse (hbusy : shareInUse (p.share p.CurlShare) = true) :
    p.applyCacheFlags.share = p.share := by
  simp only [applyCacheFlags, curlShareSetopt, hbusy, if_true]

/-- On a share that is not in use all of them take effect. -/
theorem applyCacheFlags_share_of_free (hfree : shareInUse (p.share p.CurlShare) = false) :
    p.applyCacheFlags.share = Function.update p.share p.CurlShare
      { p.share p.CurlShare with
        specifier := Res.cacheSpecifier p.cacheFlags (p.share p.CurlShare).specifier } := by
  -- setting the specifier does not put the share in use
  have hstill : ∀ spec, shareInUse { p.share p.CurlShare with specifier := spec } = false :=
    fun _ => hfree
  simp only [applyCacheFlags, curlShareSetopt, hfree, hstill, Function.update_self,
    Function.update_idem, Bool.false_eq_true, if_false]
  rfl

theorem res_applyCacheFlags : p.applyCacheFlags.res = p.res.applyFlags := by
  have hshare : p.applyCacheFlags.share = p.res.applyFlags.share := by
    by_cases hbusy : shareInUse (p.share p.CurlShare) = true
    · exact (applyCacheFlags_share_of_inUse p hbusy).trans (if_pos hbusy).symm
    · have hfree : shareInUse (p.share p.CurlShare) = false := by simpa using hbusy
      exact (applyCacheFlags_share_of_free p hfree).trans (if_neg hbusy).symm
  have hkeep : p.applyCacheFlags.res = { p.res with share := p.applyCacheFlags.share } := by
    simp only [applyCacheFlags, res_curlShareSetopt]
  rw [hkeep, hshare]
  rfl

theorem res_assignCurlCache (h : HandleId) : (p.assignCurlCache h).res = p.res.assign h := by
  have hsettle : p.renewCurlShare.applyCacheFlags.res = p.res.settleShare := by
    rw [res_applyCacheFlags, res_renewCurlShare]
    rfl
  -- the flag is cleared last, after the handle moved to the settled share
  show ({ (p.renewCurlShare.applyCacheFlags.curlEasySetopt h .SHARE
    (.share p.renewCurlShare.applyCacheFlags.CurlShare)).res with bNeedInitCache := false } : Res) = _
  rw [res_curlEasySetopt_share]
  show ({ p.renewCurlShare.applyCacheFlags.res.attach h
    (if (p.renewCurlShare.applyCacheFlags.res.share
        p.renewCurlShare.applyCacheFlags.res.CurlShare).live
      then some p.renewCurlShare.applyCacheFlags.res.CurlShare else none)
    with bNeedInitCache := false } : Res) = _
  rw [hsettle]
  rfl

end Proc

/-! ## The methods act on the resources -/

/-- The pointers of an object that its methods pass to libcurl and free. -/
structure Holdings where
  m_curl : HandleId
  m_mime : MimeId
  headers : Option SlistId
  recipients : Option SlistId

def CcURL.holdings (obj : CcURL) : Holdings :=
  { m_curl := obj.m_curl, m_mime := obj.m_mime,
    headers := obj.headers, recipients := obj.recipients }

/-- The lists an object holds are freed. -/
def Res.freeLists (o : Holdings) (r : Res) : Res := (r.freeList o.headers).freeList o.recipients

/-- What `AssignCurlCache` and `UseCache` write before they assign the cache. -/
def Op.renewal (op : Op) (r : Res) : Option Res :=
  match op with
  | .assignCache => some { r with bNeedInitCache := true }
  | .useCache dns connect ssl cookie =>
      some { r with
        bNeedInitCache := true
        flags := CacheBits.ofValues dns connect ssl cookie }
  | _ => none

theorem Op.renewal_eq {op : Op} {r r' : Res} (h : op.renewal r = some r') :
    ∃ flags, r' = { r with bNeedInitCache := true, flags := flags } := by
  cases op with
  | assignCache =>
      obtain rfl := Option.some.inj h
      exact ⟨r.flags, rfl⟩
  | useCache dns connect ssl cookie =>
      obtain rfl := Option.some.inj h
      exact ⟨_, rfl⟩
  | _ => cases h

/-- The operation replaces neither the handle nor the current share. -/
def Op.plain : Op → Bool
  | .easyCleanup | .assignCache | .useCache _ _ _ _ => false
  | _ => true

/-- What one operation on an object can do to the resources and to the pointers
    the object holds. -/
inductive Change (r : Res) (o : Holdings) (op : Op) : Res → Holdings → Prop where
  | same (hop : op.plain = true) : Change r o op r o
  /-- the script set `CURLOPT_SHARE` -/
  | detach (hop : op.plain = true) : Change r o op (r.attach o.m_curl none) o
  | headers (hop : op.plain = true) (hnone : o.headers = none) :
      Change r o op r.newList { o with headers := some r.nSlist }
  | recipients (hop : op.plain = true) (hnone : o.recipients = none) :
      Change r o op r.newList { o with recipients := some r.nSlist }
  /-- a new handle takes the place of the old one -/
  | cleanup (hop : op = .easyCleanup) :
      Change r o op (r.freeLists o).newHandle
        { o with m_curl := r.nEasy, headers := none, recipients := none }
  /-- the flags are written and the cache is assigned -/
  | renew (r' : Res) (hop : op.renewal r = some r') : Change r o op (r'.assign o.m_curl) o

/-- What one step does to the resources and to the object's pointers is a
    `Change`. -/
def Changes (st : St) (op : Op) (st' : St) : Prop :=
  Change st.proc.res st.obj.holdings op st'.proc.res st'.obj.holdings

/-- An operation that touches neither. -/
theorem Changes.same {st st' : St} {op : Op} (hop : op.plain = true)
    (hres : st'.proc.res = st.proc.res) (hobj : st'.obj.holdings = st.obj.holdings) :
    Changes st op st' := by
  unfold Changes
  rw [hres, hobj]
  exact .same hop

@[simp] theorem St.setopt_res {o : CURLoption} (ho : o ≠ .SHARE) (v : OptVal) (st : St) :
    (st.setopt o v).proc.res = st.proc.res :=
  Proc.res_curlEasySetopt_of_ne _ _ ho v

theorem St.setopt_script_share {v : Value} {a : OptVal} (ha : v.scriptArg = some a) (st : St) :
    (st.setopt .SHARE a).proc.res = st.proc.res.attach st.obj.m_curl none := by
  -- a number or a text is no share object to libcurl
  have hnone : st.proc.shareArg a = none := by
    unfold Value.scriptArg at ha
    split at ha
    · obtain rfl := Option.some.inj ha
      rfl
    split at ha
    · obtain rfl := Option.some.inj ha
      rfl
    · cases ha
  exact (Proc.res_curlEasySetopt_share _ _ _).trans (by rw [hnone])

/-- Appending to one of the lists makes a new list only where there was none. -/
theorem Proc.res_append (p : Proc) (l : Option SlistId) (s : CStr) :
    (l = none ∧ (p.curlSlistAppend l s).res = p.res.newList ∧ p.slistHead l = p.nSlist) ∨
    ((p.curlSlistAppend l s).res = p.res ∧ some (p.slistHead l) = l) := by
  cases l with
  | none => exact Or.inl ⟨rfl, p.res_curlSlistAppend_new s, rfl⟩
  | some id => exact Or.inr ⟨p.res_curlSlistAppend_old id s, rfl⟩

theorem St.appendHeader_changes {op : Op} (hop : op.plain = true) (s : CStr) (st : St) :
    Changes st op (st.appendHeader s) := by
  have hset : (st.appendHeader s).proc.res = (st.proc.curlSlistAppend st.obj.headers s).res :=
    St.setopt_res (by decide) _ _
  have hobj : (st.appendHeader s).obj.holdings =
    { st.obj.holdings with headers := some (st.proc.slistHead st.obj.headers) } := rfl
  rcases st.proc.res_append st.obj.headers s with ⟨hnone, hres, hhead⟩ | ⟨hres, hhead⟩
  · unfold Changes
    rw [hset, hres, hobj, hhead]
    exact .headers hop hnone
  · rw [hhead] at hobj
    exact .same hop (hset.trans hres) hobj

theorem St.appendRecipient_changes {op : Op} (hop : op.plain = true) (s : CStr) (st : St) :
    Changes st op (st.appendRecipient s) := by
  have hset :
      (st.appendRecipient s).proc.res = (st.proc.curlSlistAppend st.obj.recipients s).res :=
    St.setopt_res (by decide) _ _
  have hobj : (st.appendRecipient s).obj.holdings =
    { st.obj.holdings with recipients := some (st.proc.slistHead st.obj.recipients) } := rfl
  rcases st.proc.res_append st.obj.recipients s with ⟨hnone, hres, hhead⟩ | ⟨hres, hhead⟩
  · unfold Changes
    rw [hset, hres, hobj, hhead]
    exact .recipients hop hnone
  · rw [hhead] at hobj
    exact .same hop (hset.trans hres) hobj

theorem St.easySetopt_changes {name : CStr} {v : Value} {st st' : St}
    (h : (st.easySetopt name v).state = some st') : Changes st (.easySetopt name v) st' := by
  rcases easySetopt_cases h with
    ⟨-, rfl⟩ | ⟨-, rfl⟩ | ⟨-, rfl⟩ | ⟨o, a, -, -, ha, -, rfl⟩ | ⟨-, rfl⟩
  · exact st.appendHeader_changes rfl _
  · refine .same rfl ?_ rfl
    exact (St.setopt_res (by decide) _ _).trans (St.setopt_res (by decide) _ _)
  · exact st.appendRecipient_changes rfl _
  · by_cases ho : o = .SHARE
    · subst ho
      unfold Changes
      rw [St.setopt_script_share ha st]
      exact .detach rfl
    · exact .same rfl (St.setopt_res ho a st) rfl
  · exact .same rfl rfl rfl

/-- No part of `easy_perform` touches the resources. -/
theorem res_respects {os : List CURLoption} (hos : .SHARE ∉ os) :
    Respects os fun s t => t.proc.res = s.proc.res where
  refl _ := rfl
  trans hst htu := htu.trans hst
  setopt v ho := St.setopt_res (fun heq => hos (heq ▸ ho)) v _
  other h := by
    cases h with
    | setopt o v ho hv => cases ho
    | request n c hc =>
        have hfrees : Proc.frees c = false := by
          cases c <;> first | rfl | cases hc
        exact Proc.res_log _ hfrees
    | _ => rfl

theorem Moves.res {os : List CURLoption} {call : CallId} {st st' : St} (h : Moves os call st st')
    (hos : .SHARE ∉ os) : st'.proc.res = st.proc.res :=
  (res_respects hos).moves h

theorem St.easyCleanup_res (st : St) :
    st.easyCleanup.proc.res = (st.proc.res.freeLists st.obj.holdings).newHandle := by
  have hset : st.easyCleanup.proc.res =
      ((st.proc.curlSlistFreeAll st.obj.headers).curlSlistFreeAll
        st.obj.recipients).curlEasyInit.res := by
    simp only [St.easyCleanup, ne_eq, reduceCtorEq, not_false_eq_true, St.setopt_res]
  rw [hset, Proc.res_curlEasyInit, Proc.res_curlSlistFreeAll, Proc.res_curlSlistFreeAll]
  rfl

theorem Kept.holdings {st st' : St} (h : Kept st st') : st'.obj.holdings = st.obj.holdings := by
  simp only [CcURL.holdings, h.m_curl, h.m_mime, h.headers, h.recipients]

theorem St.assignCurlCache_changes {st : St} {op : Op} {p : Proc}
    (hop : op.renewal st.proc.res = some p.res) :
    Changes st op { st with proc := p.assignCurlCache st.obj.m_curl } := by
  unfold Changes
  rw [Proc.res_assignCurlCache]
  exact .renew p.res hop

/-- Every operation changes the resources and the object's pointers in one of
    the ways of `Change`. -/
theorem step_changes {win : Win32} {st st' : St} {op : Op} (h : step win st op = some st') :
    Changes st op st' := by
  cases op with
  | easySetopt name v => exact St.easySetopt_changes h
  | easyPerform env =>
      have hmoves := step_easyPerform_moves h
      exact .same rfl (hmoves.res (by decide))
        (hmoves.kept.holdings.trans (enter_kept st).holdings)
  | easyCleanup =>
      obtain rfl := Option.some.inj h
      unfold Changes
      rw [st.easyCleanup_res]
      exact .cleanup rfl
  | debug v =>
      obtain rfl := Option.some.inj h
      exact .same rfl ((debug_moves 0 v st).res (by decide)) (debug_kept v st).holdings
  | statusLine v =>
      obtain rfl := Option.some.inj h
      exact .same rfl ((statusLine_moves 0 v st).res (by decide)) (statusLine_kept v st).holdings
  -- both write the flags first and then assign the cache
  | assignCache =>
      obtain rfl := Option.some.inj h
      exact St.assignCurlCache_changes rfl
  | useCache dns connect ssl cookie =>
      obtain rfl := Option.some.inj h
      exact St.assignCurlCache_changes rfl
  | addPart name filename type data =>
      obtain rfl := Option.some.inj h
      exact .same rfl (Proc.res_curlMimeAddpart _ _ _) rfl
  | _ =>
      obtain rfl := Option.some.inj h
      exact .same rfl rfl rfl

/-! ## Construction and destruction -/

theorem construct_res (junk : Junk) (p : Proc) :
    (construct junk p).proc.res = (p.res.newHandle.assign p.res.nEasy).newList.newMime := by
  have hset : (construct junk p).proc.res =
      (((p.curlEasyInit.assignCurlCache p.nEasy).curlSlistAppend none
        (CStr.lit "pragma:")).curlMimeInit p.nEasy).res := by
    simp only [construct, ne_eq, reduceCtorEq, not_false_eq_true, St.setopt_res]
  rw [hset, Proc.res_curlMimeInit, Proc.res_curlSlistAppend_new, Proc.res_assignCurlCache,
    Proc.res_curlEasyInit]
  rfl

theorem construct_holdings (junk : Junk) (p : Proc) :
    (construct junk p).obj.holdings =
      { m_curl := p.res.nEasy, m_mime := p.res.nMime, headers := some p.res.nSlist,
        recipients := none } := by
  have hmime : (p.curlEasyInit.assignCurlCache p.nEasy).nMime = p.nMime := by
    have hres := congrArg Res.nMime (Proc.res_assignCurlCache p.curlEasyInit p.nEasy)
    exact hres.trans (Res.assign_nMime _ _)
  have hlist : (p.curlEasyInit.assignCurlCache p.nEasy).nSlist = p.nSlist :=
    Proc.assignCurlCache_nSlist _ _
  show Holdings.mk p.nEasy (p.curlEasyInit.assignCurlCache p.nEasy).nMime
    (some (p.curlEasyInit.assignCurlCache p.nEasy).nSlist) none = _
  rw [hmime, hlist]
  rfl

/-- What the destructor frees when it comes back. -/
theorem destroy_res {cookie : Nat} {st : St} {p : Proc} (h : destroy cookie st = some p) :
    (cookie = 0 ∧ p.res = (st.proc.res.freeLists st.obj.holdings).freeHandle st.obj.m_curl) ∨
    (cookie = 1 ∧ p.res =
      ((st.proc.res.freeLists st.obj.holdings).freeHandle st.obj.m_curl).freeMime st.obj.m_mime) := by
  have hfree : (((st.proc.curlSlistFreeAll st.obj.headers).curlSlistFreeAll
      st.obj.recipients).curlEasyCleanup st.obj.m_curl).res =
        (st.proc.res.freeLists st.obj.holdings).freeHandle st.obj.m_curl := by
    rw [Proc.res_curlEasyCleanup, Proc.res_curlSlistFreeAll, Proc.res_curlSlistFreeAll]
    rfl
  match cookie, h with
  | 0, h =>
      obtain rfl := Option.some.inj h
      exact Or.inl ⟨rfl, hfree⟩
  | 1, h =>
      obtain rfl := Option.some.inj h
      exact Or.inr ⟨rfl, by rw [Proc.res_curlMimeFree, hfree]⟩

end Curl1C
