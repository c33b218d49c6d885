/-
  Curl1C.Mime.Multipart

  What `mime_subparts_read` delivers: the parts between their boundaries.

  Main result: `CurlMime.level_reads` derives the level of a multipart from that
  of its parts; with `Mimepart.level_reads` it covers multiparts nested to any
  depth.
-/

import Curl1C.Mime.Content

namespace Curl1C.Mime

open Lib

variable {π : Type}

namespace CurlMime

/-- What follows the line of a boundary when `ss` are the parts to come. -/
def body (b : List Byte) : List (Stream Byte) → Stream Byte
  | [] => .done
  | s :: ss => s.andThen ((body b ss).prepend (boundaryPrefix ++ (b ++ boundaryTrail ss.head?)))

/-- The text of a multipart with the parts `ss`. -/
def multipart (b : List Byte) (ss : List (Stream Byte)) : Stream Byte :=
  (body b ss).prepend (boundaryPrefix.drop 2 ++ (b ++ boundaryTrail ss.head?))

variable (L : Level π)

/-- The parts from the one that is being read on. -/
def left (mime : CurlMime π) : List π := mime.parts.drop mime.state.ptr

/-- What is still to be read of a multipart. -/
def rest (mime : CurlMime π) : Stream Byte :=
  let b := mime.boundary.bytes
  let ss := mime.left.map L.rest
  match mime.state.state with
  | .BEGIN | .BODY => multipart b (mime.parts.map L.rest)
  | .BOUNDARY1 =>
      (body b ss).prepend (boundaryPrefix.drop mime.state.offset ++ (b ++ boundaryTrail ss.head?))
  | .BOUNDARY2 => (body b ss).prepend ((b ++ boundaryTrail ss.head?).drop mime.state.offset)
  | .CONTENT => body b ss
  | _ => .done

/-- The turns that read nothing until the parts `ps` have ended. -/
def rankOf : List π → Nat
  | [] => 1
  | p :: ps => L.rank p + 4 + rankOf ps

def rank (mime : CurlMime π) : Nat :=
  match mime.state.state with
  | .BEGIN | .BODY => rankOf L mime.parts + 3
  | .BOUNDARY1 => rankOf L mime.left + 2
  | .BOUNDARY2 => rankOf L mime.left + 1
  | .CONTENT => rankOf L mime.left
  | _ => 0

def fixed (mime : CurlMime π) : Fixed where
  text := multipart mime.boundary.bytes (mime.parts.map fun p => (L.fixed p).text)
  seekable := mime.parts.all fun p => (L.fixed p).seekable
  sized := mime.parts.all fun p => (L.fixed p).sized
  setup := mime.parts.flatMap fun p => (L.fixed p).setup
  boundaries := mime.boundary :: mime.parts.flatMap fun p => (L.fixed p).boundaries

/-- The parts behind which reading has come. -/
def passed (mime : CurlMime π) : List π :=
  match mime.state.state with
  | .BOUNDARY1 | .BOUNDARY2 | .CONTENT => mime.parts.take mime.state.ptr
  | .END => mime.parts
  | _ => []

structure Inv (mime : CurlMime π) : Prop where
  tok : mime.state.state ∈ [.BEGIN, .BODY, .BOUNDARY1, .BOUNDARY2, .CONTENT, .END]
  parts : ∀ p ∈ mime.parts, L.Inv p
  passed : ∀ p ∈ mime.passed, L.rest p = .done
  fresh : mime.state.state = .BEGIN → ∀ p ∈ mime.parts, L.Fresh p

/-- A multipart as `mime_subparts_seek` may find it. -/
structure Sound (mime : CurlMime π) : Prop where
  parts : ∀ p ∈ mime.parts, L.Sound p
  fresh : mime.state.state = .BEGIN → ∀ p ∈ mime.parts, L.Fresh p

/-- A multipart as it was set up or rewound. -/
structure Fresh (mime : CurlMime π) : Prop where
  tok : mime.state.state = .BEGIN
  parts : ∀ p ∈ mime.parts, L.Fresh p

/-- A multipart as a level above its parts. -/
def level : Level (CurlMime π) where
  read := mimeSubpartsRead L.read
  seek := mimeSubpartsSeek L.seek
  size := multipartSize L.size
  rest := rest L
  rank := rank L
  fixed := fixed L
  Inv := Inv L
  Fresh := Fresh L
  Sound := Sound L

variable {L} {mime : CurlMime π}

/-- What is fixed depends on what is fixed of the parts. -/
theorem fixed_congr {m : CurlMime π} (hb : m.boundary = mime.boundary)
    (hparts : m.parts.map L.fixed = mime.parts.map L.fixed) : m.fixed L = mime.fixed L := by
  have htext : ∀ mime : CurlMime π, mime.fixed L =
      { text := multipart mime.boundary.bytes ((mime.parts.map L.fixed).map Fixed.text)
        seekable := (mime.parts.map L.fixed).all Fixed.seekable
        sized := (mime.parts.map L.fixed).all Fixed.sized
        setup := (mime.parts.map L.fixed).flatMap Fixed.setup
        boundaries := mime.boundary :: (mime.parts.map L.fixed).flatMap Fixed.boundaries } := by
    intro mime
    simp only [fixed, List.map_map, List.all_map, List.flatMap_map]
    rfl
  rw [htext m, htext mime, hb, hparts]

/-- The trail of a boundary depends on whether a part follows. -/
theorem boundaryTrail_left :
    boundaryTrail (mime.left.map L.rest).head? = boundaryTrail mime.parts[mime.state.ptr]? := by
  simp [boundaryTrail, left, List.head?_drop]

/-- What a turn of the loop of `mime_subparts_read` has to come to. -/
def TurnsTo (L : Level π) (n : Nat) (hasread : Bool) (mime : CurlMime π)
    (out : Option (CurlMime π × Bool × Turn Byte)) : Prop :=
  ∃ m hasread' t, out = some (m, hasread', t) ∧ (m.Inv L ∧ m.fixed L = mime.fixed L) ∧
    m.rank L ≤ mime.rank L ∧ Turned (rest L) (rank L) n hasread mime m t

/-- A boundary is read to its end, and then the next state is entered. -/
theorem segment_turnsTo {n : Nat} {hasread : Bool} {bytes trail : List Byte} {tok : Mimestate}
    (hn : 0 < n) (hinv : mime.Inv L)
    (hgoto : ({ mime with state := mimesetstate tok mime.state.ptr } : CurlMime π).Inv L)
    (hrest : ∀ offset, ({ mime with state := { mime.state with offset := offset } } :
      CurlMime π).rest L = (({ mime with state := mimesetstate tok mime.state.ptr } :
        CurlMime π).rest L).prepend ((bytes ++ trail).drop offset))
    (hlow : ({ mime with state := mimesetstate tok mime.state.ptr } : CurlMime π).rank L <
      mime.rank L) :
    mime.TurnsTo L n hasread (mime.segment n bytes trail tok hasread) := by
  obtain ⟨xs, st, hread⟩ : ∃ xs st, readbackBytes n bytes trail mime.state = (xs, st) := ⟨_, _, rfl⟩
  obtain ⟨hstate, hroom, htext, hend⟩ := readbackBytes_spec hn bytes trail mime.state hread
  have hhere := hrest mime.state.offset
  by_cases hnil : xs = []
  · have hgo : mime.segment n bytes trail tok hasread = mime.goto tok mime.state.ptr hasread := by
      simp [segment, hread, hnil]
    rw [hgo]
    refine ⟨_, _, _, rfl, ⟨hgoto, rfl⟩, Nat.le_of_lt hlow,
      .emit (Nat.zero_le n) ?_ fun _ => hlow⟩
    rw [hend hnil] at hhere
    exact hhere
  · have hgo : mime.segment n bytes trail tok hasread =
        some ({ mime with state := st }, hasread, .emit xs) := by
      simp [segment, hread, hnil]
    rw [hgo, hstate]
    refine ⟨_, _, _, rfl, ⟨⟨hinv.tok, hinv.parts, hinv.passed, hinv.fresh⟩, rfl⟩, Nat.le_refl _,
      .emit hroom ?_ fun h => absurd h hnil⟩
    rw [htext, ← Stream.prepend_prepend, ← hrest] at hhere
    exact hhere

/-- A multipart whose part at the position `pre.length` is being read. -/
structure At (mime : CurlMime π) (pre : List π) (part : π) (post : List π) : Prop where
  tok : mime.state.state = .CONTENT
  ptr : mime.state.ptr = pre.length
  parts : mime.parts = pre ++ part :: post

namespace At

variable {pre post : List π} {part q : π} (h : mime.At pre part post)

include h

theorem getElem? : mime.parts[mime.state.ptr]? = some part := by
  simp [h.parts, h.ptr]

theorem set : mime.parts.set mime.state.ptr q = pre ++ q :: post := by
  simp [h.parts, h.ptr]

/-- The same with the part as a read leaves it. -/
theorem replace : ({ mime with parts := pre ++ q :: post } : CurlMime π).At pre q post :=
  ⟨h.tok, h.ptr, rfl⟩

theorem rank_eq : mime.rank L = L.rank part + 4 + rankOf L post := by
  simp [rank, left, h.tok, h.ptr, h.parts, rankOf]

theorem rest_eq : mime.rest L = (L.rest part).andThen
    ((body mime.boundary.bytes (post.map L.rest)).prepend (boundaryPrefix ++
      (mime.boundary.bytes ++ boundaryTrail (post.map L.rest).head?))) := by
  simp [rest, left, h.tok, h.ptr, h.parts, body]

theorem passed_eq : mime.passed = pre := by
  simp [passed, h.tok, h.ptr, h.parts]

/-- A read of a part leaves what is fixed alone. -/
theorem fixed_eq (hq : L.fixed q = L.fixed part) (st : MimeState Nat) :
    ({ mime with parts := pre ++ q :: post, state := st } : CurlMime π).fixed L = mime.fixed L := by
  refine fixed_congr rfl ?_
  simp only [h.parts, List.map_append, List.map_cons, hq]

theorem parts_inv (hinv : mime.Inv L) (hq : L.Inv q) : ∀ p ∈ pre ++ q :: post, L.Inv p := by
  intro p hp
  have hparts := h.parts
  rcases List.mem_append.mp hp with hp | hp
  · exact hinv.parts p (by simp [hparts, hp])
  · rcases List.mem_cons.mp hp with rfl | hp
    · exact hq
    · exact hinv.parts p (by simp [hparts, hp])

theorem pre_done (hinv : mime.Inv L) : ∀ p ∈ pre, L.rest p = .done := by
  rw [← h.passed_eq]
  exact hinv.passed

theorem replace_inv (hinv : mime.Inv L) (hq : L.Inv q) :
    ({ mime with parts := pre ++ q :: post } : CurlMime π).Inv L := by
  refine ⟨hinv.tok, h.parts_inv hinv hq, ?_, ?_⟩
  · rw [(h.replace : At _ pre q post).passed_eq]
    exact h.pre_done hinv
  · intro hbegin
    cases hbegin.symm.trans h.tok

end At

/-- The multipart at the boundary behind a part that has ended. -/
def behind (mime : CurlMime π) (pre : List π) (q : π) (post : List π) : CurlMime π :=
  { mime with
    parts := pre ++ q :: post
    state := mimesetstate .BOUNDARY1 (pre.length + 1) }

section Behind

variable {pre post : List π} {q : π}

theorem behind_left : (mime.behind pre q post).left = post := by
  have hsplit : pre ++ q :: post = (pre ++ [q]) ++ post := by simp
  show (pre ++ q :: post).drop (pre.length + 1) = post
  rw [hsplit, List.drop_left' (by simp)]

theorem behind_rank : (mime.behind pre q post).rank L = rankOf L post + 2 := by
  show rankOf L (mime.behind pre q post).left + 2 = _
  rw [behind_left]

theorem behind_rest : (mime.behind pre q post).rest L =
    (body mime.boundary.bytes (post.map L.rest)).prepend (boundaryPrefix ++
      (mime.boundary.bytes ++ boundaryTrail (post.map L.rest).head?)) := by
  have hleft := @behind_left π mime pre post q
  show (body mime.boundary.bytes ((mime.behind pre q post).left.map L.rest)).prepend
    (boundaryPrefix.drop 0 ++ (mime.boundary.bytes ++
      boundaryTrail ((mime.behind pre q post).left.map L.rest).head?)) = _
  rw [hleft, List.drop_zero]

theorem behind_passed : (mime.behind pre q post).passed = pre ++ [q] := by
  have hsplit : pre ++ q :: post = (pre ++ [q]) ++ post := by simp
  show (pre ++ q :: post).take (pre.length + 1) = _
  rw [hsplit, List.take_left' (by simp)]

end Behind

/-- A turn that reads from a part. -/
theorem content_turnsTo (hL : L.Reads) {fuel n : Nat} {hasread : Bool} {part : π}
    {pre post : List π} (hn : 0 < n) (hinv : mime.Inv L) (hat : mime.At pre part post)
    (hfuel : n + mime.rank L < fuel) :
    mime.TurnsTo L n hasread (turn L.read fuel n hasread mime) := by
  have htok := hat.tok
  have hpart := hat.getElem?
  have hrank : mime.rank L = L.rank part + 4 + rankOf L post := hat.rank_eq
  have hmem : part ∈ mime.parts := by simp [hat.parts]
  obtain ⟨q, hasread', r, hrun, ⟨hinvQ, hfixed⟩, hrankQ, hserved⟩ :=
    @hL (L.fixed part) fuel n hasread part ⟨hinv.parts part hmem, rfl⟩ hn (by omega)
  have hset : mime.parts.set mime.state.ptr q = pre ++ q :: post := hat.set
  have hrankM : (⟨mime.boundary, pre ++ q :: post, mime.state⟩ : CurlMime π).rank L =
      L.rank q + 4 + rankOf L post := hat.replace.rank_eq
  cases hserved with
  | @data xs hne hroom hread =>
      obtain ⟨x, xs, rfl⟩ := List.exists_cons_of_ne_nil hne
      refine ⟨_, hasread', .emit (x :: xs), by simp [turn, htok, hpart, hrun, hset],
        ⟨hat.replace_inv hinv hinvQ, hat.fixed_eq hfixed mime.state⟩, by omega,
        .emit hroom ?_ fun h => absurd h hne⟩
      rw [hat.rest_eq, hread, Stream.prepend_andThen]
      exact congrArg _ hat.replace.rest_eq.symm
  | eof hdone hdone' =>
      refine ⟨mime.behind pre q post, hasread', .emit [],
        by simp [turn, htok, hpart, hrun, hset, behind, ← hat.ptr],
        ⟨⟨by simp [behind, mimesetstate], hat.parts_inv hinv hinvQ, ?_, by simp [behind, mimesetstate]⟩,
          hat.fixed_eq hfixed _⟩,
        ?_, .emit (Nat.zero_le n) ?_ fun _ => ?_⟩
      · rw [behind_passed]
        intro p hp
        rcases List.mem_append.mp hp with hp | hp
        · exact hat.pre_done hinv p hp
        · obtain rfl := List.mem_singleton.mp hp
          exact hdone'
      · rw [behind_rank]
        omega
      · rw [hat.rest_eq, behind_rest, hdone]
        rfl
      · rw [behind_rank]
        omega
  | error hbroken hbroken' =>
      refine ⟨_, hasread', .ret .error, by simp [turn, htok, hpart, hrun, hset],
        ⟨hat.replace_inv hinv hinvQ, hat.fixed_eq hfixed mime.state⟩, by omega,
        .ret (.error ?_ ?_) (by simp)⟩
      · rw [hat.rest_eq, hbroken, Stream.broken_andThen]
      · rw [hat.replace.rest_eq, hbroken', Stream.broken_andThen]
  | stop hsame hwhy =>
      refine ⟨_, hasread', .ret .stop, by simp [turn, htok, hpart, hrun, hset],
        ⟨hat.replace_inv hinv hinvQ, hat.fixed_eq hfixed mime.state⟩, by omega,
        .ret (.stop ?_ ?_) (by simp)⟩
      · rw [hat.rest_eq, hat.replace.rest_eq, hsame]
      · refine hwhy.imp_right fun hlow => ?_
        omega

/-- One turn of the loop of `mime_subparts_read`. -/
theorem turn_turns (hL : L.Reads) (t : Fixed) :
    Turns (fun mime : CurlMime π => mime.Inv L ∧ mime.fixed L = t) (rest L) (rank L)
      (turn L.read) := by
  rintro fuel n hasread mime ⟨hinv, rfl⟩ hn hfuel
  show mime.TurnsTo L n hasread (turn L.read fuel n hasread mime)
  have hvalid := hinv.tok
  -- the first boundary comes without the CRLF in front of it
  have hstart : mime.state.state = .BEGIN ∨ mime.state.state = .BODY →
      mime.TurnsTo L n hasread (turn L.read fuel n hasread mime) := by
    intro htok
    refine ⟨{ mime with state := { mimesetstate .BOUNDARY1 0 with offset := 2 } }, hasread,
      .emit [], ?_, ⟨⟨by simp [mimesetstate], hinv.parts, by simp [passed, mimesetstate],
        by simp [mimesetstate]⟩, rfl⟩, ?_,
      .emit (Nat.zero_le n) ?_ fun _ => ?_⟩
    · rcases htok with htok | htok <;> simp [turn, htok]
    · rcases htok with htok | htok <;> simp [rank, htok, left, mimesetstate]
    · rcases htok with htok | htok <;> simp [rest, htok, left, mimesetstate, multipart]
    · rcases htok with htok | htok <;> simp [rank, htok, left, mimesetstate]
  cases htok : mime.state.state with
  | BEGIN => exact hstart (Or.inl htok)
  | BODY => exact hstart (Or.inr htok)
  | BOUNDARY1 =>
      have hgo : turn L.read fuel n hasread mime =
          mime.segment n boundaryPrefix [] .BOUNDARY2 hasread := by simp [turn, htok]
      rw [hgo]
      refine segment_turnsTo hn hinv
        ⟨by simp [mimesetstate], hinv.parts, ?_, by simp [mimesetstate]⟩ ?_ ?_
      · have hpassed := hinv.passed
        simpa [passed, htok, mimesetstate] using hpassed
      · intro offset
        simp [rest, htok, mimesetstate, left]
      · simp [rank, htok, mimesetstate, left]
  | BOUNDARY2 =>
      have hgo : turn L.read fuel n hasread mime =
          mime.segment n mime.boundary.bytes (boundaryTrail mime.parts[mime.state.ptr]?) .CONTENT
            hasread := by simp [turn, htok]
      rw [hgo]
      refine segment_turnsTo hn hinv
        ⟨by simp [mimesetstate], hinv.parts, ?_, by simp [mimesetstate]⟩ ?_ ?_
      · have hpassed := hinv.passed
        simpa [passed, htok, mimesetstate] using hpassed
      · intro offset
        rw [← @boundaryTrail_left π L mime]
        simp [rest, htok, mimesetstate, left]
      · simp [rank, htok, mimesetstate, left]
  | CONTENT =>
      cases hpart : mime.parts[mime.state.ptr]? with
      | none =>
          have hlen : mime.parts.length ≤ mime.state.ptr := List.getElem?_eq_none_iff.mp hpart
          have hleft : mime.left = [] := List.drop_of_length_le hlen
          refine ⟨{ mime with state := mimesetstate .END mime.parts.length }, hasread, .emit [],
            by simp [turn, htok, hpart, goto], ⟨⟨by simp [mimesetstate], hinv.parts, ?_,
              by simp [mimesetstate]⟩, rfl⟩, ?_, .emit (Nat.zero_le n) ?_ fun _ => ?_⟩
          · have hpassed := hinv.passed
            simpa [passed, htok, mimesetstate, List.take_of_length_le hlen] using hpassed
          · simp [rank, mimesetstate]
          · simp [rest, htok, hleft, mimesetstate, body]
          · simp [rank, htok, hleft, mimesetstate, rankOf]
      | some part =>
          obtain ⟨hlt, hget⟩ := List.getElem?_eq_some_iff.mp hpart
          have hat : mime.At (mime.parts.take mime.state.ptr) part
              (mime.parts.drop (mime.state.ptr + 1)) := by
            refine ⟨htok, (List.length_take_of_le (Nat.le_of_lt hlt)).symm, ?_⟩
            rw [← hget, List.getElem_cons_drop, List.take_append_drop]
          exact content_turnsTo hL hn hinv hat hfuel
  | END =>
      have hrest : mime.rest L = .done := by simp [rest, htok]
      exact ⟨mime, hasread, .ret (.data []), by simp [turn, htok], ⟨hinv, rfl⟩, Nat.le_refl _,
        .ret (.eof hrest hrest) fun xs h => (Fetch.data.inj h).symm⟩
  | CURLHEADERS => simp [htok] at hvalid
  | USERHEADERS => simp [htok] at hvalid
  | EOH => simp [htok] at hvalid

/-- A boundary line is never empty. -/
theorem prepend_boundary_ne_done {s : Stream Byte} {xs ys : List Byte} (b : Boundary) :
    s.prepend (xs ++ (b.bytes ++ ys)) ≠ .done := by
  intro h
  obtain ⟨hnil, -⟩ := Stream.prepend_eq_done_iff.mp h
  have hb := b.length_eq
  rw [(List.append_eq_nil_iff.mp (List.append_eq_nil_iff.mp hnil).2).1] at hb
  cases hb

/-- Reading has come behind every part of a multipart that has ended. -/
theorem passed_of_done (hinv : mime.Inv L) (h : mime.rest L = .done) :
    mime.state.state ≠ .BEGIN ∧ mime.passed = mime.parts := by
  have hvalid := hinv.tok
  -- what follows a boundary line is empty only if no part follows
  have hbody : ∀ ps : List π, body mime.boundary.bytes (ps.map L.rest) = .done → ps = [] := by
    intro ps hps
    cases ps with
    | nil => rfl
    | cons p ps =>
        exact absurd (Stream.andThen_eq_done hps).2 (prepend_boundary_ne_done mime.boundary)
  have hall : mime.left = [] → mime.parts.take mime.state.ptr = mime.parts := fun hleft =>
    List.take_of_length_le (List.drop_eq_nil_iff.mp hleft)
  cases htok : mime.state.state with
  | BEGIN =>
      simp only [rest, htok, multipart] at h
      exact absurd h (prepend_boundary_ne_done mime.boundary)
  | BODY =>
      simp only [rest, htok, multipart] at h
      exact absurd h (prepend_boundary_ne_done mime.boundary)
  | BOUNDARY1 =>
      simp only [rest, htok] at h
      exact absurd h (prepend_boundary_ne_done mime.boundary)
  | BOUNDARY2 =>
      simp only [rest, htok] at h
      refine ⟨by simp, ?_⟩
      rw [passed, htok]
      exact hall (hbody _ (Stream.prepend_eq_done_iff.mp h).2)
  | CONTENT =>
      simp only [rest, htok] at h
      refine ⟨by simp, ?_⟩
      rw [passed, htok]
      exact hall (hbody _ h)
  | END => exact ⟨by simp, by rw [passed, htok]⟩
  | CURLHEADERS => simp [htok] at hvalid
  | USERHEADERS => simp [htok] at hvalid
  | EOH => simp [htok] at hvalid

/-- `mime_subparts_read` reads what is left of the multipart. -/
theorem level_reads (hL : L.Reads) : (level L).Reads := fun t => fill_serves (turn_turns hL t)

end CurlMime

end Curl1C.Mime
