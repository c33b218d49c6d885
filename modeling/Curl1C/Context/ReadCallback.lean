/-
  Curl1C.Context.ReadCallback

  `read_callback` of Context.cpp, through which libcurl pulls the text of a
  mail.

  `easy_perform` lets `WriteThis` point at the whole text; each call hands out
  the next block, as much as libcurl has room for, and moves the pointer and
  the count behind it.

  Main result: `readCallback_delivers`.
-/

import Mathlib.Data.List.Forall2
import Curl1C.Context.Run

namespace Curl1C

open Lib

/-! ## The callback -/

/-- One call of the callback: libcurl offers room for `size * nmemb` bytes. -/
structure ReadCall where
  size : Nat
  nmemb : Nat

namespace ReadCall

/-- The number of bytes there is room for. -/
def room (c : ReadCall) : Nat := c.size * c.nmemb

/-- There is room, and in a 32-bit address space. -/
def Offers (c : ReadCall) : Prop := 0 < c.room ∧ c.room < 2 ^ 32

end ReadCall

/-- `read_callback`: the block copied to `dest`, whose length is returned, and
    `*wt` afterwards.  `memcpy` must not read behind the text. -/
def WriteThis.readCallback (c : ReadCall) (wt : WriteThis) : Option (List Byte × WriteThis) :=
  let buffer_size := c.size * c.nmemb % 2 ^ 32
  if wt.sizeleft ≠ 0 then
    let copy_this_much := if wt.sizeleft > buffer_size then buffer_size else wt.sizeleft
    if copy_this_much ≤ wt.readptr.length then
      some (wt.readptr.take copy_this_much,
        { readptr := wt.readptr.drop copy_this_much, sizeleft := wt.sizeleft - copy_this_much })
    else none
  else some ([], wt)

/-- `*wt` and the blocks handed out so far. -/
structure Delivery where
  wt : WriteThis
  blocks : List (List Byte)

/-- The bytes handed out so far. -/
def Delivery.delivered (d : Delivery) : List Byte := d.blocks.flatten

/-- One call during a transfer. -/
def Delivery.step (d : Delivery) (c : ReadCall) : Option Delivery :=
  (d.wt.readCallback c).map fun (block, wt) => { wt := wt, blocks := d.blocks ++ [block] }

/-- `*wt` as `easy_perform` sets it up for a text. -/
def WriteThis.ofText (body : CStr) : WriteThis := { readptr := body.bytes, sizeleft := body.length }

/-! ## One call -/

/-- Where the count is that of the text left, a call hands out as much of it as
    there is room for. -/
theorem readCallback_eq {wt : WriteThis} (hwt : wt.sizeleft = wt.readptr.length) {c : ReadCall}
    (hc : c.Offers) :
    wt.readCallback c = some (wt.readptr.take c.room,
      { readptr := wt.readptr.drop c.room, sizeleft := wt.readptr.length - c.room }) := by
  obtain ⟨readptr, sizeleft⟩ := wt
  obtain rfl : sizeleft = readptr.length := hwt
  have hroom : c.size * c.nmemb % 2 ^ 32 = c.room := Nat.mod_eq_of_lt hc.2
  simp only [WriteThis.readCallback, hroom]
  by_cases hnil : readptr = []
  · subst hnil
    simp
  · have hpos := List.length_pos_of_ne_nil hnil
    rw [if_pos (by omega)]
    by_cases hmore : readptr.length > c.room
    · rw [if_pos hmore, if_pos (by omega)]
    · -- the last block
      have hle : readptr.length ≤ c.room := by omega
      rw [if_neg hmore, if_pos (Nat.le_refl _), List.take_of_length_le (Nat.le_refl _),
        List.take_of_length_le hle, List.drop_of_length_le (Nat.le_refl _),
        List.drop_of_length_le hle]
      simp [hle]

/-- What holds after the calls `hist`: what was handed out and what `*wt` points
    at make up the text, no block was larger than its room, and each call handed
    something out as long as there was something. -/
structure Delivering (body : CStr) (hist : List ReadCall) (d : Delivery) : Prop where
  text : d.delivered ++ d.wt.readptr = body.bytes
  count : d.wt.sizeleft = d.wt.readptr.length
  rooms : List.Forall₂ (fun c block => block.length ≤ c.room) hist d.blocks
  progress : d.wt.readptr = [] ∨ hist.length ≤ d.delivered.length

section Step

variable {body : CStr} {hist : List ReadCall} {d : Delivery} {c : ReadCall}

theorem delivering_start : Delivering body [] { wt := WriteThis.ofText body, blocks := [] } :=
  ⟨rfl, rfl, .nil, Or.inr (Nat.le_refl 0)⟩

/-- The text is complete exactly when nothing is left. -/
theorem Delivering.delivered_eq_iff (h : Delivering body hist d) :
    d.delivered = body.bytes ↔ d.wt.readptr = [] := by
  rw [← h.text, List.self_eq_append_right]

/-- A call with room keeps the invariant. -/
theorem Delivering.step (h : Delivering body hist d) (hc : c.Offers) :
    ∃ d', d.step c = some d' ∧ Delivering body (hist ++ [c]) d' := by
  refine ⟨_, congrArg (Option.map _) (readCallback_eq h.count hc), ?_, ?_, ?_, ?_⟩
  · have htext := h.text
    simp only [Delivery.delivered, List.flatten_append, List.flatten_singleton, List.append_assoc,
      List.take_append_drop] at htext ⊢
    exact htext
  · exact (List.length_drop ..).symm
  · exact List.rel_append h.rooms (.cons (List.length_take_le _ _) .nil)
  · simp only [Delivery.delivered, List.flatten_append, List.flatten_singleton, List.length_append,
      List.length_take, List.length_singleton]
    by_cases hnil : d.wt.readptr = []
    · exact Or.inl (by rw [hnil, List.drop_nil])
    · -- something is left, so this call hands out at least one byte
      have hlen : hist.length ≤ d.blocks.flatten.length := h.progress.resolve_left hnil
      have hpos := List.length_pos_of_ne_nil hnil
      have hroom := hc.1
      exact Or.inr (by omega)

/-- A call returns 0 exactly when everything has been handed out. -/
theorem Delivering.returns_zero_iff (h : Delivering body hist d) (hc : c.Offers) :
    ∃ block wt', d.wt.readCallback c = some (block, wt') ∧
      (block.length = 0 ↔ d.delivered = body.bytes) := by
  refine ⟨_, _, readCallback_eq h.count hc, ?_⟩
  have hroom := hc.1
  rw [h.delivered_eq_iff, ← List.length_eq_zero_iff, List.length_take]
  omega

/-- After as many calls as the text has bytes it is complete. -/
theorem Delivering.complete (h : Delivering body hist d) (hlen : body.length ≤ hist.length) :
    d.delivered = body.bytes := by
  rw [h.delivered_eq_iff]
  rcases h.progress with hnil | hcalls
  · exact hnil
  · have htotal : d.delivered.length + d.wt.readptr.length = body.length := by
      rw [← List.length_append, h.text]
      rfl
    exact List.length_eq_zero_iff.mp (by omega)

end Step

/-! ## The text of a mail -/

section Perform

variable {win : Win32} {env : PerformEnv}

theorem Frame.recvSetup_wt {g r : Frame} (h : g.recvSetup env = .ok r) :
    r.wt = g.wt ∧ r.st.obj = g.st.obj := by
  rcases Frame.recvSetup_ok h with ⟨-, rfl⟩ | ⟨-, -, rfl⟩ | ⟨-, -, rfl⟩ | ⟨-, rfl⟩ <;>
    exact ⟨rfl, rfl⟩

theorem Frame.commonSetup_wt (f : Frame) :
    f.statusSetup.commonSetup.wt = f.wt ∧ f.statusSetup.commonSetup.st.obj = f.st.obj := by
  unfold Frame.commonSetup Frame.statusSetup
  split <;> exact ⟨rfl, rfl⟩

/-- Only a mail from a variable fills `wt`, with the text that stays in
    `PostFildsData`. -/
theorem Frame.sendSetup_wt {f g : Frame} (h : f.sendSetup win env = .ok g) (hf : f.wt = none)
    {wt : WriteThis} (hwt : g.wt = some wt) :
    g.st.obj.PostFildsData = ansiToUtf8 win f.st.obj.pSrc.Data ∧
      wt = WriteThis.ofText g.st.obj.PostFildsData := by
  have hnone : ¬ f.wt = some wt := by simp [hf]
  rcases Frame.sendSetup_ok h with ⟨-, rfl⟩ | ⟨-, -, rfl⟩ | ⟨-, -, rfl⟩ | ⟨-, -, rfl⟩
  · exact absurd hwt hnone
  · unfold Frame.sendVariable at hwt ⊢
    by_cases hdata : f.st.obj.pSrc.Data.isEmpty = true
    · rw [if_pos hdata] at hwt
      exact absurd hwt hnone
    by_cases hmail : f.st.obj.isPosting = false
    · simp only [if_neg hdata, if_pos hmail] at hwt
      exact absurd hwt hnone
    · simp only [if_neg hdata, if_neg hmail] at hwt ⊢
      exact ⟨rfl, (Option.some.inj hwt).symm⟩
  · exact absurd hwt hnone
  · exact absurd hwt hnone

/-- What `wt` holds when the transfer starts. -/
theorem performPoint_wt {st : St} {f : Frame} (h : st.performPoint win env = .ok f)
    {wt : WriteThis} (hwt : f.wt = some wt) :
    f.st.obj.PostFildsData = ansiToUtf8 win st.obj.pSrc.Data ∧
      wt = WriteThis.ofText f.st.obj.PostFildsData := by
  obtain ⟨g, r, hg, hr, rfl⟩ := St.performPoint_ok h
  obtain ⟨hwt', hobj⟩ := Frame.commonSetup_wt r
  obtain ⟨hwt'', hobj'⟩ := Frame.recvSetup_wt hr
  rw [hobj, hobj']
  rw [hwt', hwt''] at hwt
  exact Frame.sendSetup_wt hg rfl hwt

end Perform

/-- Whatever room libcurl offers from call to call: what `read_callback` has
    handed out is the beginning of the mail's text and `*wt` describes exactly
    the rest, no block is larger than its room, and a call returns 0 exactly when
    the text is complete, which it is after at most as many calls as it has
    bytes. -/
theorem readCallback_delivers {win : Win32} {env : PerformEnv} {st : St} {f : Frame}
    (hpoint : st.performPoint win env = .ok f) {wt : WriteThis} (hwt : f.wt = some wt)
    {calls : List ReadCall} (hcalls : ∀ c ∈ calls, c.Offers) :
    ∃ d, runOps Delivery.step { wt := wt, blocks := [] } calls = some d ∧
      f.st.obj.PostFildsData = ansiToUtf8 win st.obj.pSrc.Data ∧
      d.delivered ++ d.wt.readptr = f.st.obj.PostFildsData.bytes ∧
      d.wt.sizeleft = d.wt.readptr.length ∧
      List.Forall₂ (fun c block => block.length ≤ c.room) calls d.blocks ∧
      (∀ c : ReadCall, c.Offers → ∃ block wt', d.wt.readCallback c = some (block, wt') ∧
        (block.length = 0 ↔ d.delivered = f.st.obj.PostFildsData.bytes)) ∧
      (f.st.obj.PostFildsData.length ≤ calls.length →
        d.delivered = f.st.obj.PostFildsData.bytes) := by
  obtain ⟨hbody, rfl⟩ := performPoint_wt hpoint hwt
  obtain ⟨d, hrun, h⟩ := runOps_total delivering_start
    (fun hist c d (hc : c.Offers) (h : Delivering _ hist d) => h.step hc) hcalls
  exact ⟨d, hrun, hbody, h.text, h.count, h.rooms, fun c hc => h.returns_zero_iff hc, h.complete⟩

/-- An object that sends a mail with the text `hi`. -/
def mailHi : St :=
  let st := construct { isPosting := true, m_StatusLine := 0 } dllMain
  { st with obj := { st.obj with pSrc := { Type_ := .ttVariable, Data := CStr.lit "hi" } } }

theorem readCallback_delivers_bytewise :
    ∃ f d, mailHi.performPoint Win32.ascii .answered = .ok f ∧
      runOps Delivery.step { wt := WriteThis.ofText (CStr.lit "hi"), blocks := [] }
        [⟨1, 1⟩, ⟨1, 1⟩] = some d ∧ d.delivered = (CStr.lit "hi").bytes := by
  have hpoint : ∃ f, mailHi.performPoint Win32.ascii .answered = .ok f ∧
      f.st.obj.PostFildsData = CStr.lit "hi" ∧ f.wt = some (WriteThis.ofText (CStr.lit "hi")) :=
    ⟨_, rfl, rfl, rfl⟩
  obtain ⟨f, hf, hbody, hwt⟩ := hpoint
  obtain ⟨d, hrun, -, -, -, -, -, hcomplete⟩ :=
    readCallback_delivers hf hwt (show ∀ c ∈ [(⟨1, 1⟩ : ReadCall), ⟨1, 1⟩], c.Offers by
      simp [ReadCall.Offers, ReadCall.room])
  rw [hbody] at hcomplete
  exact ⟨f, d, hf, hrun, hcomplete (by decide)⟩

end Curl1C
