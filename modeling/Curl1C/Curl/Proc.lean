/-
  Curl1C.Curl.Proc

  The process the component runs in: libcurl's heap (easy handles, share
  objects, string lists, mime structures) and the globals of StdAfx.cpp.

  Every libcurl or stdio call of the component is one function here; it has
  its effect on the heap and is appended to `log`.  A heap object is named by
  the number of objects of its kind created before it, so an id is never used
  twice and a pointer to an earlier object never equals a newer one.

  A handle is the map from option ids to the value it was last given, `none`
  being libcurl's default.  The share semantics are those of lib/share.c and
  of `CURLOPT_SHARE` in lib/setopt.c: a share counts the handles attached to it
  (`dirty`) and refuses to be changed or freed while there are any.
-/

import Mathlib.Logic.Function.Basic
import Curl1C.Text
import Curl1C.Curl.Option

namespace Curl1C

abbrev HandleId := Nat
abbrev ShareId := Nat
abbrev SlistId := Nat
abbrev MimeId := Nat
abbrev FileId := Nat

/-- One activation of `easy_perform`; names the locals of that activation. -/
abbrev CallId := Nat

/-- The functions the component hands to libcurl. -/
inductive Callback where
  | readCallback | curlSwrite | curlFwrite | progressFunction | myTrace
deriving DecidableEq

/-- The argument of a `curl_easy_setopt` call.  A `char *` stands for the text
    it points to; pointers to locals of `easy_perform` carry the activation. -/
inductive OptVal where
  | long (n : Int)
  | offT (n : Int)
  | str (s : CStr)
  | null
  | fn (f : Callback)
  | slist (l : SlistId)
  | mime (m : MimeId)
  | share (s : ShareId)
  | file (f : FileId)
  | data (call : CallId)
  | wt (call : CallId)
  | prog (call : CallId)
deriving DecidableEq

/-- `curl_lock_data` of curl.h. -/
inductive LockData where
  | NONE | SHARE | COOKIE | DNS | SSL_SESSION | CONNECT | PSL | HSTS
deriving DecidableEq

/-- `CURLSHOPT_SHARE` and `CURLSHOPT_UNSHARE`. -/
inductive ShareOption where
  | SHARE | UNSHARE
deriving DecidableEq

/-- The libcurl and stdio calls of the component, with their arguments. -/
inductive Call where
  | easyInit (h : HandleId)
  | easySetopt (h : HandleId) (o : CURLoption) (v : OptVal)
  | easyPerform (h : HandleId)
  | easyGetinfo (h : HandleId)
  | easyCleanup (h : HandleId)
  | slistAppend (l : Option SlistId) (s : CStr)
  | slistFreeAll (l : Option SlistId)
  | shareInit (s : ShareId)
  | shareSetopt (s : ShareId) (o : ShareOption) (d : LockData)
  | shareCleanup (s : ShareId)
  | mimeInit (h : HandleId) (m : MimeId)
  | mimeAddpart (m : MimeId)
  | mimeFree (m : MimeId)
  | fopen (name : CStr) (f : Option FileId)
  | fstat (f : FileId)
  | fclose (f : FileId)
deriving DecidableEq

/-! ## The heap -/

/-- An easy handle: its options and the share it is attached to. -/
structure Easy where
  opts : CURLoption → Option OptVal
  share : Option ShareId

/-- A handle as `curl_easy_init` returns it: every option at its default. -/
def Easy.new : Easy := { opts := fun _ => none, share := none }

/-- A share object: which data it shares (`specifier`), how many handles are
    attached (`dirty`), and whether its memory is still allocated. -/
structure Share where
  specifier : LockData → Bool
  dirty : Nat
  live : Bool

/-- A share as `curl_share_init` returns it. -/
def Share.new : Share :=
  { specifier := fun d => decide (d = .SHARE), dirty := 0, live := true }

/-- A part of a mime structure: the texts given to `curl_mime_name`, to
    `curl_mime_filename` and `curl_mime_filedata`, to `curl_mime_type`, and to
    `curl_mime_data`. -/
structure MimePart where
  name : Option CStr
  filename : Option CStr
  type : Option CStr
  data : Option CStr
deriving DecidableEq

/-- The process: libcurl's heap, the component's globals, and the calls made
    so far. -/
structure Proc where
  easy : HandleId → Easy
  nEasy : Nat
  share : ShareId → Share
  nShare : Nat
  slist : SlistId → List CStr
  nSlist : Nat
  mime : MimeId → List MimePart
  nMime : Nat
  nFile : Nat
  nCall : Nat
  CurlShare : ShareId
  bUseCacheDNS : Bool
  bUseCacheCONNECT : Bool
  bUseCacheSSL : Bool
  bUseCacheCOOKIE : Bool
  bNeedInitCache : Bool
  log : List Call

namespace Proc

/-! ## Easy handles -/

/-- `curl_easy_init`; the new handle is `p.nEasy`. -/
def curlEasyInit (p : Proc) : Proc :=
  { p with
    easy := Function.update p.easy p.nEasy Easy.new
    nEasy := p.nEasy + 1
    log := p.log ++ [.easyInit p.nEasy] }

/-- Another number of handles is attached to the share. -/
def changeDirty (f : Nat → Nat) (s : Option ShareId) (shares : ShareId → Share) : ShareId → Share :=
  match s with
  | none => shares
  | some s => Function.update shares s { shares s with dirty := f (shares s).dirty }

/-- One handle less is attached to the share. -/
def dropDirty : Option ShareId → (ShareId → Share) → ShareId → Share := changeDirty (· - 1)

/-- One handle more is attached to the share. -/
def raiseDirty : Option ShareId → (ShareId → Share) → ShareId → Share := changeDirty (· + 1)

/-- The share a `CURLOPT_SHARE` argument names: a live one
    (`GOOD_SHARE_HANDLE`) or none. -/
def shareArg (v : OptVal) (p : Proc) : Option ShareId :=
  match v with
  | .share s => if (p.share s).live then some s else none
  | _ => none

/-- `curl_easy_setopt`: the handle keeps the value; `CURLOPT_SHARE` also moves
    the handle from its old share to the new one. -/
def curlEasySetopt (h : HandleId) (o : CURLoption) (v : OptVal) (p : Proc) : Proc :=
  { p with
    easy := Function.update p.easy h
      { opts := Function.update (p.easy h).opts o (some v)
        share := if o = .SHARE then p.shareArg v else (p.easy h).share }
    share :=
      if o = .SHARE then raiseDirty (p.shareArg v) (dropDirty (p.easy h).share p.share)
      else p.share
    log := p.log ++ [.easySetopt h o v] }

/-- `curl_easy_perform`, as far as the heap is concerned. -/
def curlEasyPerform (h : HandleId) (p : Proc) : Proc :=
  { p with log := p.log ++ [.easyPerform h] }

/-- `curl_easy_getinfo`. -/
def curlEasyGetinfo (h : HandleId) (p : Proc) : Proc :=
  { p with log := p.log ++ [.easyGetinfo h] }

/-- `curl_easy_cleanup`: frees the handle, which leaves its share. -/
def curlEasyCleanup (h : HandleId) (p : Proc) : Proc :=
  { p with
    easy := Function.update p.easy h { p.easy h with share := none }
    share := dropDirty (p.easy h).share p.share
    log := p.log ++ [.easyCleanup h] }

/-! ## String lists -/

/-- The head `curl_slist_append` returns: that of the list, or of a new one. -/
def slistHead (l : Option SlistId) (p : Proc) : SlistId := l.getD p.nSlist

/-- `curl_slist_append`: a copy of `s` at the end of the list. -/
def curlSlistAppend (l : Option SlistId) (s : CStr) (p : Proc) : Proc :=
  { p with
    slist := Function.update p.slist (p.slistHead l)
      (match l with
        | none => [s]
        | some id => p.slist id ++ [s])
    nSlist := if l = none then p.nSlist + 1 else p.nSlist
    log := p.log ++ [.slistAppend l s] }

/-- `curl_slist_free_all`; does nothing on a NULL list. -/
def curlSlistFreeAll (l : Option SlistId) (p : Proc) : Proc :=
  { p with log := p.log ++ [.slistFreeAll l] }

/-! ## Shares -/

/-- `curl_share_init`; the new share is `p.nShare`. -/
def curlShareInit (p : Proc) : Proc :=
  { p with
    share := Function.update p.share p.nShare Share.new
    nShare := p.nShare + 1
    log := p.log ++ [.shareInit p.nShare] }

/-- Whether `CURLSHOPT_SHARE` accepts the data kind; the library is built with
    cookies, HSTS and SSL but without libpsl. -/
def shareable : LockData → Bool
  | .COOKIE | .DNS | .SSL_SESSION | .CONNECT | .HSTS => true
  | .NONE | .SHARE | .PSL => false

/-- The share refuses to be changed or freed. -/
def shareInUse (sh : Share) : Bool := !sh.live || decide (sh.dirty ≠ 0)

/-- The specifier bit `d` after `CURLSHOPT_SHARE` or `CURLSHOPT_UNSHARE`. -/
def setSpecifier (o : ShareOption) (d : LockData) (spec : LockData → Bool) : LockData → Bool :=
  match o with
  | .SHARE => if shareable d then Function.update spec d true else spec
  | .UNSHARE => Function.update spec d false

/-- `curl_share_setopt`; refused while a handle is attached. -/
def curlShareSetopt (s : ShareId) (o : ShareOption) (d : LockData) (p : Proc) : Proc :=
  { p with
    share :=
      if shareInUse (p.share s) then p.share
      else Function.update p.share s
        { p.share s with specifier := setSpecifier o d (p.share s).specifier }
    log := p.log ++ [.shareSetopt s o d] }

/-- `curl_share_cleanup`; refused while a handle is attached. -/
def curlShareCleanup (s : ShareId) (p : Proc) : Proc :=
  { p with
    share :=
      if shareInUse (p.share s) then p.share
      else Function.update p.share s { p.share s with live := false }
    log := p.log ++ [.shareCleanup s] }

/-! ## Mime structures -/

/-- `curl_mime_init`; the new structure is `p.nMime`. -/
def curlMimeInit (h : HandleId) (p : Proc) : Proc :=
  { p with
    mime := Function.update p.mime p.nMime []
    nMime := p.nMime + 1
    log := p.log ++ [.mimeInit h p.nMime] }

/-- `curl_mime_addpart` and the setters called on the new part. -/
def curlMimeAddpart (m : MimeId) (part : MimePart) (p : Proc) : Proc :=
  { p with
    mime := Function.update p.mime m (p.mime m ++ [part])
    log := p.log ++ [.mimeAddpart m] }

/-- `curl_mime_free`. -/
def curlMimeFree (m : MimeId) (p : Proc) : Proc :=
  { p with log := p.log ++ [.mimeFree m] }

/-! ## Files -/

/-- `fopen`; the new stream, if the file opens, is `p.nFile`. -/
def fopen (name : CStr) (opens : Bool) (p : Proc) : Proc :=
  { p with
    nFile := if opens then p.nFile + 1 else p.nFile
    log := p.log ++ [.fopen name (if opens then some p.nFile else none)] }

/-- `fstat` on the descriptor of a stream. -/
def fstat (f : FileId) (p : Proc) : Proc := { p with log := p.log ++ [.fstat f] }

/-- `fclose`. -/
def fclose (f : FileId) (p : Proc) : Proc := { p with log := p.log ++ [.fclose f] }

end Proc

end Curl1C
