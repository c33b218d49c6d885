/-
  Curl1C.Mime.Rewind

  Rewinding a part, and the size announced for it.

  libcurl rewinds the form before every transfer and computes its size then.
  `Level.Rewinds` says what the two come to: a rewind that succeeds leaves a
  state in which nothing was read; the size of such a state is the length of its
  text if all sizes in it are known, and the state it is left in is ready for
  reading.  Like `Level.Reads` it passes from a level to the one above.

  Main results: `Mimepart.level_rewinds`, `CurlMime.level_rewinds`.
-/

import Mathlib.Algebra.GroupWithZero.Nat
import Curl1C.Mime.Readback
import Curl1C.Mime.Multipart

namespace Curl1C.Mime

open Lib

variable {μ π : Type}

/-- The size of a text if it is known. -/
def Fixed.size (t : Fixed) : Option Nat := if t.sized then some t.text.values.length else none

/-- What rewinding and computing the size come to. -/
structure Level.Rewinds (L : Level μ) : Prop where
  fresh_sound : ∀ s, L.Fresh s → L.Sound s
  inv_sound : ∀ s, L.Inv s → L.Sound s
  /-- a source whose size is known can be read to its end -/
  sized_eof : ∀ s, L.Sound s → (L.fixed s).sized = true → (L.fixed s).text.ending = .eof
  seek_sound : ∀ s, L.Sound s → L.Sound (L.seek s).1 ∧ L.fixed (L.seek s).1 = L.fixed s
  seek_fresh : ∀ s, L.Sound s → (L.seek s).2 = true → L.Fresh (L.seek s).1
  seek_of_seekable : ∀ s, L.Sound s → (L.fixed s).seekable = true → (L.seek s).2 = true
  seek_of_fresh : ∀ s, L.Fresh s → (L.seek s).2 = true
  size_eq : ∀ s, L.Fresh s → (L.size s).2 = (L.fixed s).size
  size_fresh : ∀ s, L.Fresh s → L.Fresh (L.size s).1
  size_fixed : ∀ s, L.Fresh s → L.fixed (L.size s).1 = L.fixed s
  size_inv : ∀ s, L.Fresh s → L.Inv (L.size s).1
  size_rest : ∀ s, L.Fresh s → L.rest (L.size s).1 = (L.fixed s).text

theorem Level.none_rewinds : Level.none.Rewinds := by
  constructor <;> exact fun s => nomatch s

/-! ## The content of a part -/

namespace Content

variable {fs : FileSys} {L : Level μ} {c : Content μ}

theorem Sound.of_inv (hL : L.Rewinds) (h : c.Sound fs L.Inv) : c.Sound fs L.Sound := by
  cases c with
  | MULTIPART arg datasize => exact hL.inv_sound arg h
  | _ => exact h

theorem Sound.sized_eof (hL : L.Rewinds) (h : c.Sound fs L.Sound)
    (hsized : (c.fixed fs L).sized = true) : (c.fixed fs L).text.ending = .eof := by
  cases c with
  | NONE => rfl
  | DATA data => rfl
  | FILE name datasize fp =>
      obtain ⟨d, hd⟩ := Option.isSome_iff_exists.mp hsized
      obtain ⟨bytes, hopen, -⟩ := h.2.1 d hd
      simp [fixed, FileSys.text, hopen, Stream.ofList]
  | MULTIPART arg datasize => exact hL.sized_eof arg h hsized

/-- What seeking back to the start does. -/
theorem Sound.seek (hL : L.Rewinds) (h : c.Sound fs L.Sound) :
    (Mimepart.seek L.seek c).1.Sound fs L.Sound ∧
      (Mimepart.seek L.seek c).1.fixed fs L = c.fixed fs L ∧
      ((Mimepart.seek L.seek c).2 = true → (Mimepart.seek L.seek c).1.Fresh L) := by
  match c with
  | .NONE => exact ⟨trivial, rfl, fun _ => trivial⟩
  | .DATA data => exact ⟨trivial, rfl, fun _ => trivial⟩
  | .FILE name none fp => exact ⟨h, rfl, fun hres => nomatch hres⟩
  | .FILE name (some d) fp =>
      refine ⟨⟨?_, h.2⟩, rfl, fun _ => ?_⟩
      · intro f hf
        obtain ⟨g, hg, rfl⟩ := Option.map_eq_some_iff.mp hf
        exact h.1 g hg
      · intro f hf
        obtain ⟨g, hg, rfl⟩ := Option.map_eq_some_iff.mp hf
        exact ⟨rfl, rfl⟩
  | .MULTIPART arg datasize =>
      obtain ⟨hsound, hfixed⟩ := hL.seek_sound arg h
      exact ⟨hsound, fixed_multipart fs L hfixed _ _, hL.seek_fresh arg h⟩

/-- Where seeking fails on a content of which nothing was read, it does nothing. -/
theorem Fresh.seek_failed (hL : L.Rewinds) (h : c.Fresh L)
    (hres : (Mimepart.seek L.seek c).2 = false) : (Mimepart.seek L.seek c).1 = c := by
  match c with
  | .NONE => rfl
  | .DATA data => cases hres
  | .FILE name none fp => rfl
  | .FILE name (some d) fp => cases hres
  | .MULTIPART arg datasize =>
      have hok := hL.seek_of_fresh arg h
      exact absurd (hok.symm.trans hres) (by simp)

/-- What is to be read of a content of which nothing was read. -/
theorem Fresh.rest_eq (h : c.Fresh L) (hsound : c.Sound fs L.Sound)
    (hsub : ∀ arg d, c = .MULTIPART arg d → L.rest arg = (L.fixed arg).text) :
    c.rest fs L 0 = (c.fixed fs L).text := by
  match c with
  | .NONE => rfl
  | .DATA data => rfl
  | .FILE name datasize none => rfl
  | .FILE name datasize (some f) =>
      have hopen := hsound.1 f rfl
      have hpos := (h f rfl).1
      simp [rest, fixed, FileSys.text, hopen, hpos]
  | .MULTIPART arg datasize => exact hsub arg datasize rfl

section WithSize

variable (hL : L.Rewinds) (hfresh : c.Fresh L)

include hL hfresh

theorem Fresh.withSize : (c.withSize L.size).Fresh L := by
  cases c with
  | MULTIPART arg datasize => exact hL.size_fresh arg hfresh
  | _ => exact hfresh

theorem Fresh.withSize_fixed : (c.withSize L.size).fixed fs L = c.fixed fs L := by
  cases c with
  | MULTIPART arg datasize => exact fixed_multipart fs L (hL.size_fixed arg hfresh) _ _
  | _ => rfl

theorem Fresh.withSize_sound (h : c.Sound fs L.Sound) : (c.withSize L.size).Sound fs L.Inv := by
  cases c with
  | MULTIPART arg datasize => exact hL.size_inv arg hfresh
  | _ => exact h

/-- The size kept in the part is the length of the text. -/
theorem Fresh.withSize_datasize (h : c.Sound fs L.Sound) :
    (c.withSize L.size).datasize = (c.fixed fs L).size := by
  cases c with
  | NONE => rfl
  | DATA data => rfl
  | FILE name datasize fp =>
      cases datasize with
      | none => rfl
      | some d =>
          obtain ⟨bytes, hopen, hlen⟩ := h.2.1 d rfl
          simp [Content.withSize, Content.datasize, Fixed.size, fixed, FileSys.text, hopen,
            Stream.ofList, hlen]
  | MULTIPART arg datasize => exact hL.size_eq arg hfresh

theorem Fresh.withSize_placed (h : c.Sound fs L.Sound) : (c.withSize L.size).Placed L 0 := by
  match c with
  | .NONE => trivial
  | .DATA data => trivial
  | .FILE name datasize none => rfl
  | .FILE name datasize (some f) =>
      obtain ⟨hpos, heof⟩ := hfresh f rfl
      exact ⟨hpos, fun h => absurd (h.symm.trans heof) (by simp)⟩
  | .MULTIPART arg datasize =>
      intro d hd
      have hsize : (L.fixed arg).size = some d := (hL.size_eq arg hfresh).symm.trans hd
      rw [Fixed.size] at hsize
      split at hsize
      · rename_i hsized
        refine ⟨(L.fixed arg).text.values, ?_, ?_⟩
        · rw [hL.size_rest arg hfresh]
          exact Stream.ext rfl (hL.sized_eof arg h hsized)
        · rw [Nat.zero_add]
          exact Option.some.inj hsize
      · cases hsize

theorem Fresh.withSize_rest (h : c.Sound fs L.Sound) :
    (c.withSize L.size).rest fs L 0 = (c.fixed fs L).text := by
  cases c with
  | MULTIPART arg datasize => exact hL.size_rest arg hfresh
  | _ => exact hfresh.rest_eq h (by simp)

end WithSize

end Content

/-! ## Parts -/

/-- The size of header lines. -/
theorem slistSize_eq (hdrs : List CStr) (skip : Option CStr) :
    slistSize hdrs skip =
      (headerText (hdrs.filter fun hdr => skip.all fun lbl => (matchHeader hdr lbl).isNone)).length := by
  rw [slistSize]
  generalize hdrs.filter _ = kept
  have hfold : ∀ n, kept.foldl (fun size hdr => size + (hdr.length + 2)) n =
      n + (headerText kept).length := by
    induction kept with
    | nil => exact fun n => rfl
    | cons hdr kept ih =>
        intro n
        rw [List.foldl_cons, ih]
        simp only [headerText, List.flatMap_cons, List.length_append, CStr.length, crlf,
          List.length_cons, List.length_nil]
        omega
  rw [hfold, Nat.zero_add]

namespace Mimepart

variable {fs : FileSys} {L : Level μ} {part : Mimepart μ}

theorem headers_length : part.headers.length =
    slistSize part.curlheaders none + slistSize part.userheaders (some contentType) + 2 := by
  simp only [headers, slistSize_eq, keptHeaders, List.length_append, crlf]
  simp
  omega

theorem Fresh.inHeader (h : part.Fresh fs L) : part.state.state.inHeader = true := by
  rcases h.tok with htok | htok
  · rw [htok]
    rfl
  · rw [htok, targetstate]
    split <;> rfl

/-- Of a part of which nothing was read, the headers are still to come. -/
theorem Fresh.pending_eq (h : part.Fresh fs L) :
    part.pending = if part.bodyOnly then [] else part.headers := by
  rcases h.tok with htok | htok
  · simp [pending, htok]
  · cases hbody : part.bodyOnly with
    | true => simp [pending, htok, targetstate, hbody]
    | false => simp [pending, htok, targetstate, hbody]

/-- Behind its target state a part is rewound through its content. -/
theorem mimePartRewind_of_gt {sub : μ → μ × Bool}
    (h : part.state.state.toNat > part.targetstate.toNat) :
    part.mimePartRewind sub =
      ({ part with
          content := (seek sub part.content).1
          state := if (seek sub part.content).2 then mimesetstate part.targetstate [] else part.state
          lastreadstatus := .ok }, (seek sub part.content).2) := by
  simp [mimePartRewind, h]

theorem mimePartRewind_of_le {sub : μ → μ × Bool}
    (h : ¬ part.state.state.toNat > part.targetstate.toNat) :
    part.mimePartRewind sub =
      ({ part with state := mimesetstate part.targetstate [], lastreadstatus := .ok }, true) := by
  simp [mimePartRewind, h]

/-- A part that is not behind its target state has read no content. -/
theorem inHeader_of_le (h : ¬ part.state.state.toNat > part.targetstate.toNat) :
    part.state.state.inHeader = true := by
  have htarget : part.targetstate.toNat ≤ 4 := by
    rw [targetstate]
    split <;> decide
  have hle : part.state.state.toNat ≤ 4 := by omega
  revert hle
  cases part.state.state <;> simp [Mimestate.toNat, Mimestate.inHeader]

/-- What `mime_part_rewind` comes to. -/
theorem Sound.rewind (hL : L.Rewinds) (h : part.Sound fs L) :
    (part.mimePartRewind L.seek).1.Sound fs L ∧
      (part.mimePartRewind L.seek).1.fixed fs L = part.fixed fs L ∧
      ((part.mimePartRewind L.seek).2 = true → (part.mimePartRewind L.seek).1.Fresh fs L) := by
  by_cases hgt : part.state.state.toNat > part.targetstate.toNat
  · rw [mimePartRewind_of_gt hgt]
    obtain ⟨hsound, hfixed, hfresh⟩ := h.content.seek hL
    cases hres : (seek L.seek part.content).2 with
    | true =>
        refine ⟨⟨hsound, fun _ => hfresh hres⟩, ?_, fun _ => ⟨hsound, Or.inr rfl, rfl, hfresh hres⟩⟩
        simp only [fixed, hfixed]
        rfl
    | false =>
        refine ⟨⟨hsound, fun hin => ?_⟩, ?_, by simp⟩
        · -- the part stays where it is: nothing of its content was read or changed
          have hsame := (h.fresh hin).seek_failed hL hres
          show (seek L.seek part.content).1.Fresh L
          rw [hsame]
          exact h.fresh hin
        · simp only [fixed, hfixed]
          rfl
  · rw [mimePartRewind_of_le hgt]
    have hfresh := h.fresh (inHeader_of_le hgt)
    exact ⟨⟨h.content, fun _ => hfresh⟩, rfl, fun _ => ⟨h.content, Or.inr rfl, rfl, hfresh⟩⟩

theorem Sound.rewind_of_seekable (hL : L.Rewinds) (h : part.Sound fs L)
    (hseek : (part.fixed fs L).seekable = true) : (part.mimePartRewind L.seek).2 = true := by
  by_cases hgt : part.state.state.toNat > part.targetstate.toNat
  · rw [mimePartRewind_of_gt hgt]
    have hcontent := h.content
    show (seek L.seek part.content).2 = true
    replace hseek : (part.content.fixed fs L).seekable = true := hseek
    cases hkind : part.content with
    | NONE => simp [hkind, Content.fixed] at hseek
    | DATA data => rfl
    | FILE name datasize fp =>
        rw [hkind] at hseek
        obtain ⟨d, rfl⟩ := Option.isSome_iff_exists.mp hseek
        rfl
    | MULTIPART arg datasize =>
        rw [hkind] at hseek hcontent
        exact hL.seek_of_seekable arg hcontent hseek
  · rw [mimePartRewind_of_le hgt]

theorem Fresh.not_behind (h : part.Fresh fs L) :
    ¬ part.state.state.toNat > part.targetstate.toNat := by
  rcases h.tok with htok | htok
  · rw [htok]
    exact Nat.not_lt_zero _
  · rw [htok]
    exact Nat.lt_irrefl _

/-- The size of a part of which nothing was read. -/
theorem Fresh.size_eq (hL : L.Rewinds) (h : part.Fresh fs L) :
    (part.curlMimeSize L.size).2 = (part.fixed fs L).size := by
  have hsize := h.fresh.withSize_datasize hL h.content
  simp only [curlMimeSize]
  rw [hsize, Fixed.size, Fixed.size]
  show Option.map _ (if (part.content.fixed fs L).sized = true then _ else _) =
    if (part.content.fixed fs L).sized = true then _ else _
  cases hsized : (part.content.fixed fs L).sized with
  | false => rfl
  | true =>
      cases hbody : part.bodyOnly with
      | true => simp [fixed, hbody]
      | false =>
          simp only [if_true, Option.map_some, fixed, hbody, Stream.values_prepend,
            List.length_append, headers_length, Bool.false_eq_true, if_false]
          congr 1
          omega

/-- With its size the part is ready for reading, and has its whole text to
    deliver. -/
theorem Fresh.withSize (hL : L.Rewinds) (h : part.Fresh fs L) :
    (part.curlMimeSize L.size).1.Inv fs L ∧ (part.curlMimeSize L.size).1.Fresh fs L ∧
      (part.curlMimeSize L.size).1.fixed fs L = part.fixed fs L ∧
      (part.curlMimeSize L.size).1.rest fs L = (part.fixed fs L).text := by
  have hfixed : (part.content.withSize L.size).fixed fs L = part.content.fixed fs L :=
    h.fresh.withSize_fixed hL
  have hinv : (part.curlMimeSize L.size).1.Inv fs L :=
    ⟨h.fresh.withSize_sound hL h.content, .unread h.inHeader h.ok
      (h.fresh.withSize_placed hL h.content) (h.fresh.withSize hL)⟩
  refine ⟨hinv, ⟨hinv.sound.of_inv hL, h.tok, h.ok, h.fresh.withSize hL⟩, ?_, ?_⟩
  · simp only [curlMimeSize, fixed, hfixed]
    rfl
  · have hrest : (part.curlMimeSize L.size).1.rest fs L =
        ((part.content.withSize L.size).rest fs L 0).prepend part.pending :=
      rest_of_inHeader h.inHeader
    rw [hrest, h.fresh.withSize_rest hL h.content, h.pending_eq]
    rfl

/-- Rewinding passes from the subparts to the part. -/
theorem level_rewinds (hL : L.Rewinds) : (level fs L).Rewinds where
  fresh_sound := fun _ h => ⟨h.content, fun _ => h.fresh⟩
  inv_sound := fun _ h => ⟨h.sound.of_inv hL, h.fresh_of_inHeader⟩
  sized_eof := fun _ h hsized => h.content.sized_eof hL hsized
  seek_sound := fun _ h => ⟨(h.rewind hL).1, (h.rewind hL).2.1⟩
  seek_fresh := fun _ h => (h.rewind hL).2.2
  seek_of_seekable := fun _ h => h.rewind_of_seekable hL
  seek_of_fresh := fun part h => by
    show (part.mimePartRewind L.seek).2 = true
    rw [mimePartRewind_of_le h.not_behind]
  size_eq := fun _ h => h.size_eq hL
  size_fresh := fun _ h => (h.withSize hL).2.1
  size_fixed := fun _ h => (h.withSize hL).2.2.1
  size_inv := fun _ h => (h.withSize hL).1
  size_rest := fun _ h => (h.withSize hL).2.2.2

end Mimepart

/-! ## Multiparts -/

namespace CurlMime

variable {L : Level π} {mime : CurlMime π}

/-- The length of a multipart whose parts have no error: a boundary line for
    each part and one more. -/
theorem body_eof {b : List Byte} (hb : b.length = boundaryLen) {ss : List (Stream Byte)}
    (hss : ∀ s ∈ ss, s.ending = .eof) :
    (body b ss).ending = .eof ∧
      (body b ss).values.length + (boundaryTrail ss.head?).length =
        4 + (ss.map fun s => 52 + s.values.length).sum := by
  induction ss with
  | nil => exact ⟨rfl, rfl⟩
  | cons s ss ih =>
      obtain ⟨hending, hlen⟩ := ih fun t ht => hss t (List.mem_cons_of_mem s ht)
      obtain ⟨xs, e⟩ := s
      obtain rfl : e = .eof := hss _ List.mem_cons_self
      refine ⟨hending, ?_⟩
      have htrail : (boundaryTrail (some (⟨xs, .eof⟩ : Stream Byte))).length = 2 := rfl
      have hprefix : boundaryPrefix.length = 4 := rfl
      rw [boundaryLen] at hb
      simp only [body, Stream.andThen, Stream.values_prepend, List.length_append, List.head?_cons,
        List.map_cons, List.sum_cons, htrail]
      omega

theorem multipart_eof {b : List Byte} (hb : b.length = boundaryLen) {ss : List (Stream Byte)}
    (hss : ∀ s ∈ ss, s.ending = .eof) :
    (multipart b ss).ending = .eof ∧
      (multipart b ss).values.length = 52 + (ss.map fun s => 52 + s.values.length).sum := by
  obtain ⟨hending, hlen⟩ := body_eof hb hss
  refine ⟨hending, ?_⟩
  have hprefix : (boundaryPrefix.drop 2).length = 2 := rfl
  rw [boundaryLen] at hb
  simp only [multipart, Stream.values_prepend, List.length_append]
  omega

/-- The loop of `multipart_size`: one size that is not known is enough. -/
theorem foldl_size {sizeOf : π → Option Nat} {t : π → Fixed} {parts : List π}
    (h : ∀ p ∈ parts, sizeOf p = (t p).size) (acc : Option Nat) :
    parts.foldl
        (fun size part =>
          match sizeOf part with
          | none => none
          | some sz => size.map fun size => size + (52 + sz)) acc =
      if parts.all fun p => (t p).sized then
        acc.map fun n => n + (parts.map fun p => 52 + (t p).text.values.length).sum
      else none := by
  induction parts generalizing acc with
  | nil => cases acc <;> rfl
  | cons p ps ih =>
      rw [List.foldl_cons, ih (fun q hq => h q (List.mem_cons_of_mem p hq)), h p List.mem_cons_self]
      rw [Fixed.size, List.all_cons]
      cases hp : (t p).sized with
      | false => simp
      | true =>
          cases hps : ps.all fun p => (t p).sized with
          | false => simp
          | true =>
              cases acc with
              | none => rfl
              | some n =>
                  simp only [if_true, Option.map_some, List.map_cons, List.sum_cons, Bool.and_self]
                  congr 1
                  omega

theorem Sound.sized_eof (hL : L.Rewinds) (h : mime.Sound L)
    (hsized : (mime.fixed L).sized = true) :
    ∀ s ∈ mime.parts.map fun p => (L.fixed p).text, s.ending = .eof := by
  intro s hs
  obtain ⟨p, hp, rfl⟩ := List.mem_map.mp hs
  exact hL.sized_eof p (h.parts p hp) (List.all_eq_true.mp hsized p hp)

theorem Fresh.size_eq (hL : L.Rewinds) (h : mime.Fresh L) :
    (mime.multipartSize L.size).2 = (mime.fixed L).size := by
  have hsound : mime.Sound L := ⟨fun p hp => hL.fresh_sound p (h.parts p hp), fun _ => h.parts⟩
  have hfold := @foldl_size π (fun p => (L.size p).2) L.fixed mime.parts
    (fun p hp => hL.size_eq p (h.parts p hp)) (some 52)
  refine hfold.trans ?_
  rw [Fixed.size]
  cases hsized : (mime.fixed L).sized with
  | false =>
      have hall : (mime.parts.all fun p => (L.fixed p).sized) = false := hsized
      rw [hall]
      rfl
  | true =>
      have hall : (mime.parts.all fun p => (L.fixed p).sized) = true := hsized
      obtain ⟨-, hlen⟩ := multipart_eof mime.boundary.length_eq (hsound.sized_eof hL hsized)
      rw [hall, if_pos rfl, if_pos rfl, fixed, hlen, List.map_map]
      rfl

/-- Every part is rewound. -/
theorem Sound.seek (hL : L.Rewinds) (h : mime.Sound L) :
    (mime.mimeSubpartsSeek L.seek).1.Sound L ∧
      (mime.mimeSubpartsSeek L.seek).1.fixed L = mime.fixed L ∧
      ((mime.mimeSubpartsSeek L.seek).2 = true → (mime.mimeSubpartsSeek L.seek).1.Fresh L) := by
  by_cases hbegin : mime.state.state = .BEGIN
  · rw [mimeSubpartsSeek, if_pos hbegin]
    exact ⟨h, rfl, fun _ => ⟨hbegin, h.fresh hbegin⟩⟩
  · rw [mimeSubpartsSeek, if_neg hbegin]
    have hparts : ∀ q ∈ mime.parts.map fun p => (L.seek p).1, L.Sound q := by
      intro q hq
      obtain ⟨p, hp, rfl⟩ := List.mem_map.mp hq
      exact (hL.seek_sound p (h.parts p hp)).1
    have hfresh : (mime.parts.all fun p => (L.seek p).2) = true →
        ∀ q ∈ mime.parts.map fun p => (L.seek p).1, L.Fresh q := by
      intro hall q hq
      obtain ⟨p, hp, rfl⟩ := List.mem_map.mp hq
      exact hL.seek_fresh p (h.parts p hp) (List.all_eq_true.mp hall p hp)
    have hfixed : (mime.parts.map fun p => (L.seek p).1).map L.fixed = mime.parts.map L.fixed := by
      rw [List.map_map]
      exact List.map_congr_left fun p hp => (hL.seek_sound p (h.parts p hp)).2
    refine ⟨⟨hparts, ?_⟩, fixed_congr rfl hfixed, ?_⟩
    · intro htok
      cases hall : mime.parts.all fun p => (L.seek p).2 with
      | true => exact hfresh hall
      | false =>
          simp only [hall] at htok
          exact absurd htok hbegin
    · intro hres
      have hall : (mime.parts.all fun p => (L.seek p).2) = true := hres
      refine ⟨?_, hfresh hall⟩
      simp only [hall]
      rfl

/-- Where every source has a seek function, rewinding succeeds. -/
theorem Sound.seek_of_seekable (hL : L.Rewinds) (h : mime.Sound L)
    (hseek : (mime.fixed L).seekable = true) : (mime.mimeSubpartsSeek L.seek).2 = true := by
  by_cases hbegin : mime.state.state = .BEGIN
  · rw [mimeSubpartsSeek, if_pos hbegin]
  · rw [mimeSubpartsSeek, if_neg hbegin]
    refine List.all_eq_true.mpr fun p hp => ?_
    exact hL.seek_of_seekable p (h.parts p hp) (List.all_eq_true.mp hseek p hp)

/-- With its sizes the multipart is ready for reading, and has its whole text to
    deliver. -/
theorem Fresh.withSize (hL : L.Rewinds) (h : mime.Fresh L) :
    (mime.multipartSize L.size).1.Inv L ∧ (mime.multipartSize L.size).1.Fresh L ∧
      (mime.multipartSize L.size).1.fixed L = mime.fixed L ∧
      (mime.multipartSize L.size).1.rest L = (mime.fixed L).text := by
  have hfresh : ∀ q ∈ mime.parts.map fun p => (L.size p).1, L.Fresh q := by
    intro q hq
    obtain ⟨p, hp, rfl⟩ := List.mem_map.mp hq
    exact hL.size_fresh p (h.parts p hp)
  refine ⟨⟨?_, ?_, ?_, fun _ => hfresh⟩, ⟨h.tok, hfresh⟩, fixed_congr rfl ?_, ?_⟩
  · simp [multipartSize, h.tok]
  · intro q hq
    obtain ⟨p, hp, rfl⟩ := List.mem_map.mp hq
    exact hL.size_inv p (h.parts p hp)
  · simp [passed, multipartSize, h.tok]
  · simp only [multipartSize, List.map_map]
    exact List.map_congr_left fun p hp => hL.size_fixed p (h.parts p hp)
  · have hrest : (mime.parts.map fun p => (L.size p).1).map L.rest =
        mime.parts.map fun p => (L.fixed p).text := by
      rw [List.map_map]
      exact List.map_congr_left fun p hp => hL.size_rest p (h.parts p hp)
    simp only [rest, multipartSize, h.tok, hrest, fixed]

/-- Rewinding passes from the parts to the multipart. -/
theorem level_rewinds (hL : L.Rewinds) : (level L).Rewinds where
  fresh_sound := fun _ h => ⟨fun p hp => hL.fresh_sound p (h.parts p hp), fun _ => h.parts⟩
  inv_sound := fun _ h => ⟨fun p hp => hL.inv_sound p (h.parts p hp), h.fresh⟩
  sized_eof := fun mime h hsized =>
    (multipart_eof mime.boundary.length_eq (h.sized_eof hL hsized)).1
  seek_sound := fun _ h => ⟨(h.seek hL).1, (h.seek hL).2.1⟩
  seek_fresh := fun _ h => (h.seek hL).2.2
  seek_of_seekable := fun _ h => h.seek_of_seekable hL
  seek_of_fresh := fun mime h => by
    show (mime.mimeSubpartsSeek L.seek).2 = true
    rw [mimeSubpartsSeek, if_pos h.tok]
  size_eq := fun _ h => h.size_eq hL
  size_fresh := fun _ h => (h.withSize hL).2.1
  size_fixed := fun _ h => (h.withSize hL).2.2.1
  size_inv := fun _ h => (h.withSize hL).1
  size_rest := fun _ h => (h.withSize hL).2.2.2

end CurlMime

end Curl1C.Mime
