/-
  Curl1C.Lib.Reader

  Functions that are called again and again to fill a buffer with the next
  bytes of a text ("pull" readers), and the loops such functions are made of.

  What a state has still to deliver is a `Stream`: values, and how they end.
  `Serves read Inv rest rank` says that one call of `read` hands over a piece
  of `rest`, as long as the buffer allows, and reports the end only where
  there is nothing left.  A call may also stop early; it does so only if its
  allowance of slow reads was used up before it started, or if it got on
  (`rank`) without delivering anything.

  `fill` is the loop such a reader runs while there is room in the buffer.
  `fill_serves` lifts what one turn of the loop does to the whole call, so that
  readers can be nested to any depth.  `pull` repeats a call that stopped early,
  and `pulls_delivers` is about any number of calls with buffers of any sizes.
-/

import Mathlib.Data.List.Forall2
import Curl1C.Lib.Loop

namespace Curl1C.Lib

variable {σ β : Type*}

/-! ## Streams -/

/-- How a text ends. -/
inductive Ending where
  | eof
  | error
deriving DecidableEq

/-- The values still to come, and what comes after them. -/
@[ext] structure Stream (β : Type*) where
  values : List β
  ending : Ending
deriving DecidableEq

namespace Stream

/-- Nothing more to come. -/
def done : Stream β := ⟨[], .eof⟩

/-- Nothing more to come, for an error. -/
def broken : Stream β := ⟨[], .error⟩

/-- A text without an error. -/
def ofList (xs : List β) : Stream β := ⟨xs, .eof⟩

/-- Values in front of a stream. -/
def prepend (xs : List β) (s : Stream β) : Stream β := ⟨xs ++ s.values, s.ending⟩

/-- One stream after the other; what follows an error is never reached. -/
def andThen (s t : Stream β) : Stream β :=
  match s.ending with
  | .eof => t.prepend s.values
  | .error => s

@[simp] theorem prepend_nil (s : Stream β) : s.prepend [] = s := rfl

@[simp] theorem prepend_prepend (xs ys : List β) (s : Stream β) :
    (s.prepend ys).prepend xs = s.prepend (xs ++ ys) := by
  simp [prepend]

@[simp] theorem values_prepend (xs : List β) (s : Stream β) :
    (s.prepend xs).values = xs ++ s.values := rfl

@[simp] theorem ending_prepend (xs : List β) (s : Stream β) :
    (s.prepend xs).ending = s.ending := rfl

@[simp] theorem done_andThen (t : Stream β) : (done : Stream β).andThen t = t := rfl

@[simp] theorem broken_andThen (t : Stream β) : (broken : Stream β).andThen t = broken := rfl

@[simp] theorem ofList_andThen (xs : List β) (t : Stream β) :
    (ofList xs).andThen t = t.prepend xs := rfl

@[simp] theorem prepend_andThen (xs : List β) (s t : Stream β) :
    (s.prepend xs).andThen t = (s.andThen t).prepend xs := by
  obtain ⟨ys, e⟩ := s
  cases e <;> simp [andThen, prepend]

theorem prepend_eq_done_iff {xs : List β} {s : Stream β} : s.prepend xs = done ↔ xs = [] ∧ s = done := by
  obtain ⟨ys, e⟩ := s
  simp [prepend, done, and_assoc]

/-- Two streams end together only if both have ended. -/
theorem andThen_eq_done {s t : Stream β} (h : s.andThen t = done) : s = done ∧ t = done := by
  obtain ⟨xs, e⟩ := s
  cases e with
  | eof =>
      obtain ⟨rfl, ht⟩ := prepend_eq_done_iff.mp h
      exact ⟨rfl, ht⟩
  | error => cases h

@[simp] theorem values_done : (done : Stream β).values = [] := rfl

@[simp] theorem values_broken : (broken : Stream β).values = [] := rfl

@[simp] theorem prepend_ofList (xs ys : List β) :
    (ofList ys).prepend xs = ofList (xs ++ ys) := rfl

end Stream

/-! ## One call -/

/-- What a call returns. -/
inductive Fetch (β : Type*) where
  /-- the values put into the buffer; none of them at the end of the text -/
  | data (xs : List β)
  | error
  /-- nothing, but the text has not ended -/
  | stop
deriving DecidableEq

/-- What a call returns that found `got` in the buffer when it met `r`:
    `return cursize? cursize: sz`. -/
def Fetch.orGot (got : List β) (r : Fetch β) : Fetch β :=
  if got.isEmpty then r else .data got

/-- A reader: fuel, room in the buffer (never 0), whether the slow read of this
    call has been made, and the state. -/
abbrev ReadFn (σ β : Type*) := Nat → Nat → Bool → σ → Option (σ × Bool × Fetch β)

section Contract

variable (Inv : σ → Prop) (rest : σ → Stream β) (rank : σ → Nat)

/-- The outcomes of a call with room `n` that leads from `s` to `s'`. -/
inductive Served (n : Nat) (spent : Bool) (s s' : σ) : Fetch β → Prop where
  | data {xs : List β} (hne : xs ≠ []) (hroom : xs.length ≤ n)
      (hrest : rest s = (rest s').prepend xs) : Served n spent s s' (.data xs)
  | eof (hrest : rest s = .done) (hrest' : rest s' = .done) : Served n spent s s' (.data [])
  | error (hrest : rest s = .broken) (hrest' : rest s' = .broken) : Served n spent s s' .error
  | stop (hrest : rest s' = rest s) (hwhy : spent = true ∨ rank s' < rank s) :
      Served n spent s s' .stop

/-- Every call with room comes back, keeps the invariant, does not raise the
    rank, and hands over what comes next. -/
def Serves (read : ReadFn σ β) : Prop :=
  ∀ {fuel n : Nat} {spent : Bool} {s : σ}, Inv s → 0 < n → n + rank s < fuel →
    ∃ s' spent' r, read fuel n spent s = some (s', spent', r) ∧ Inv s' ∧ rank s' ≤ rank s ∧
      Served rest rank n spent s s' r

/-! ## Loops that fill the buffer -/

/-- What one turn of the loop does: it puts values into the buffer, possibly
    none, and goes on, or the call returns. -/
inductive Turn (β : Type*) where
  | emit (xs : List β)
  | ret (r : Fetch β)

abbrev TurnFn (σ β : Type*) := Nat → Nat → Bool → σ → Option (σ × Bool × Turn β)

/-- The outcomes of a turn.  One that delivers nothing and goes on lowers the
    rank. -/
inductive Turned (n : Nat) (spent : Bool) (s s' : σ) : Turn β → Prop where
  | emit {xs : List β} (hroom : xs.length ≤ n) (hrest : rest s = (rest s').prepend xs)
      (hrank : xs = [] → rank s' < rank s) : Turned n spent s s' (.emit xs)
  | ret {r : Fetch β} (hserved : Served rest rank n spent s s' r)
      (hempty : ∀ xs, r = .data xs → xs = []) : Turned n spent s s' (.ret r)

/-- Every turn with room comes back, keeps the invariant, does not raise the
    rank, and has one of these outcomes. -/
def Turns (turn : TurnFn σ β) : Prop :=
  ∀ {fuel n : Nat} {spent : Bool} {s : σ}, Inv s → 0 < n → n + rank s < fuel →
    ∃ s' spent' t, turn fuel n spent s = some (s', spent', t) ∧ Inv s' ∧ rank s' ≤ rank s ∧
      Turned rest rank n spent s s' t

end Contract

/-- The locals of the loop: what is in the buffer, the room left in it, and what
    the call returns when nothing was got. -/
structure Filling (σ β : Type*) where
  state : σ
  spent : Bool
  got : List β
  left : Nat
  last : Fetch β

/-- One turn of the loop. -/
def Filling.turn (turn : TurnFn σ β) (fuel : Nat) (f : Filling σ β) :
    Option (Pass (Filling σ β)) :=
  (turn fuel f.left f.spent f.state).map fun (s, spent, t) =>
    match t with
    | .emit xs =>
        .next { f with state := s, spent := spent, got := f.got ++ xs, left := f.left - xs.length }
    | .ret r => .leave { f with state := s, spent := spent, last := r }

/-- `while(bufsize) { … }` -/
def fill (turn : TurnFn σ β) : ReadFn σ β := fun fuel n spent s =>
  (loop (fun f => decide (0 < f.left)) (Filling.turn turn fuel) fuel
    { state := s, spent := spent, got := [], left := n, last := .data [] }).map fun f =>
      (f.state, f.spent, f.last.orGot f.got)

section Fill

variable {Inv : σ → Prop} {rest : σ → Stream β} {rank : σ → Nat} {turn : TurnFn σ β}

/-- What holds at the head of the loop of a call with room `n` from `s₀`. -/
structure InFill (Inv : σ → Prop) (rest : σ → Stream β) (rank : σ → Nat) (n : Nat) (spent : Bool)
    (s₀ : σ) (f : Filling σ β) : Prop where
  inv : Inv f.state
  room : f.got.length + f.left = n
  text : rest s₀ = (rest f.state).prepend f.got
  rank_le : rank f.state ≤ rank s₀
  /-- as long as nothing was got, every turn has lowered the rank -/
  idle : f.got = [] → f.spent = spent ∨ rank f.state < rank s₀

variable {n : Nat} {spent : Bool} {s₀ s' : σ} {f : Filling σ β} {r : Fetch β}

/-- A call that got something returns it. -/
theorem InFill.served_got (h : InFill Inv rest rank n spent s₀ f) (hgot : f.got ≠ [])
    (hsame : rest s' = rest f.state) : Served rest rank n spent s₀ s' (r.orGot f.got) := by
  have hnot : f.got.isEmpty = false := by
    rw [Bool.eq_false_iff, ne_eq, List.isEmpty_iff]
    exact hgot
  have hroom := h.room
  rw [Fetch.orGot, hnot]
  exact .data hgot (by omega) (by rw [hsame, h.text])

/-- A turn that returns ends the call as the contract says. -/
theorem InFill.served_ret (h : InFill Inv rest rank n spent s₀ f)
    (hrank : rank s' ≤ rank f.state) (hserved : Served rest rank f.left f.spent f.state s' r)
    (hempty : ∀ xs, r = .data xs → xs = []) :
    Served rest rank n spent s₀ s' (r.orGot f.got) := by
  have hsame : rest s' = rest f.state := by
    cases hserved with
    | data hne _ _ => exact absurd (hempty _ rfl) hne
    | eof hrest hrest' => rw [hrest, hrest']
    | error hrest hrest' => rw [hrest, hrest']
    | stop hrest _ => exact hrest
  by_cases hgot : f.got = []
  · have htext : rest s₀ = rest f.state := by rw [h.text, hgot, Stream.prepend_nil]
    rw [Fetch.orGot, hgot]
    cases hserved with
    | data hne _ _ => exact absurd (hempty _ rfl) hne
    | eof hrest hrest' => exact .eof (htext.trans hrest) hrest'
    | error hrest hrest' => exact .error (htext.trans hrest) hrest'
    | stop _ hwhy =>
        refine .stop (hsame.trans htext.symm) ?_
        -- the allowance was used up before the call, or a turn of it lowered the rank
        rcases h.idle hgot with hspent | hlow
        · rcases hwhy with htrue | hlow
          · exact Or.inl (hspent.symm.trans htrue)
          · exact Or.inr (Nat.lt_of_lt_of_le hlow h.rank_le)
        · exact Or.inr (Nat.lt_of_le_of_lt hrank hlow)
  · exact h.served_got hgot hsame

/-- A turn that goes on keeps the invariant of the loop. -/
theorem InFill.emit (h : InFill Inv rest rank n spent s₀ f) {spent' : Bool} {xs : List β}
    (hinv : Inv s') (hrank : rank s' ≤ rank f.state) (hroom : xs.length ≤ f.left)
    (hrest : rest f.state = (rest s').prepend xs) (hlower : xs = [] → rank s' < rank f.state) :
    InFill Inv rest rank n spent s₀
      { f with
        state := s', spent := spent', got := f.got ++ xs, left := f.left - xs.length } := by
  have hsum := h.room
  refine ⟨hinv, ?_, ?_, Nat.le_trans hrank h.rank_le, ?_⟩
  · simp only [List.length_append]
    omega
  · rw [h.text, hrest, Stream.prepend_prepend]
  · intro hnil
    obtain ⟨-, rfl⟩ := List.append_eq_nil_iff.mp hnil
    exact Or.inr (Nat.lt_of_lt_of_le (hlower rfl) h.rank_le)

/-- The loop of such turns is a reader. -/
theorem fill_serves (hturn : Turns Inv rest rank turn) : Serves Inv rest rank (fill turn) := by
  intro fuel n spent s hs hn hfuel
  have hloop := @loop_total _ (fun f : Filling σ β => decide (0 < f.left))
    (Filling.turn turn fuel) (InFill Inv rest rank n spent s)
    (fun f => Inv f.state ∧ rank f.state ≤ rank s ∧
      Served rest rank n spent s f.state (f.last.orGot f.got))
    (fun f => f.left + rank f.state) ?hexit ?hbody fuel
    { state := s, spent := spent, got := [], left := n, last := .data [] }
    ⟨hs, by simp, by simp, Nat.le_refl _, fun _ => Or.inl rfl⟩ hfuel
  case hexit =>
    intro f hI hguard
    have hleft : f.left = 0 := by simpa using hguard
    have hroom := hI.room
    refine ⟨hI.inv, hI.rank_le, hI.served_got ?_ rfl⟩
    intro hnil
    rw [hnil, List.length_nil] at hroom
    omega
  case hbody =>
    intro f hI hguard
    have hleft : 0 < f.left := by simpa using hguard
    have hroom := hI.room
    have hrankle := hI.rank_le
    obtain ⟨s', spent', t, hrun, hinv, hrank, hturned⟩ :=
      @hturn fuel f.left f.spent f.state hI.inv hleft (by omega)
    cases hturned with
    | @emit xs hxs hrest hlower =>
        refine Or.inl ⟨_, by rw [Filling.turn, hrun]; rfl,
          hI.emit hinv hrank hxs hrest hlower, ?_⟩
        -- the turn used up room, or it lowered the rank
        cases xs with
        | nil =>
            have hlow := hlower rfl
            simp only [List.length_nil]
            omega
        | cons x xs =>
            simp only [List.length_cons] at hxs ⊢
            omega
    | @ret r hserved hempty =>
        exact Or.inr ⟨{ f with state := s', spent := spent', last := r },
          by rw [Filling.turn, hrun]; rfl, hinv, Nat.le_trans hrank hrankle,
          hI.served_ret hrank hserved hempty⟩
  obtain ⟨f, hf, hinv, hrank, hserved⟩ := hloop
  exact ⟨f.state, f.spent, _, by rw [fill, hf]; rfl, hinv, hrank, hserved⟩

end Fill

/-! ## Calls that are repeated when they stop early -/

/-- `do { … } while(ret == STOP_FILLING)`, each time with a new allowance of
    slow reads; the last argument bounds the number of times. -/
def pull (read : ReadFn σ β) (fuel n : Nat) : Nat → σ → Option (σ × Fetch β)
  | 0, _ => none
  | k + 1, s =>
      (read fuel n false s).bind fun (s', _, r) =>
        match r with
        | .stop => pull read fuel n k s'
        | r => some (s', r)

/-- The outcomes of such a call. -/
inductive Delivered (rest : σ → Stream β) (n : Nat) (s s' : σ) : Fetch β → Prop where
  | data {xs : List β} (hne : xs ≠ []) (hroom : xs.length ≤ n)
      (hrest : rest s = (rest s').prepend xs) : Delivered rest n s s' (.data xs)
  | eof (hrest : rest s = .done) (hrest' : rest s' = .done) : Delivered rest n s s' (.data [])
  | error (hrest : rest s = .broken) (hrest' : rest s' = .broken) : Delivered rest n s s' .error

section Pull

variable {Inv : σ → Prop} {rest : σ → Stream β} {rank : σ → Nat} {read : ReadFn σ β}

/-- A call that starts with its allowance stops early only after it lowered the
    rank, so repeating it ends. -/
theorem pull_delivers (hread : Serves Inv rest rank read) {fuel n k : Nat} {s : σ} (hs : Inv s)
    (hn : 0 < n) (hfuel : n + rank s < fuel) (hk : rank s < k) :
    ∃ s' r, pull read fuel n k s = some (s', r) ∧ Inv s' ∧ rank s' ≤ rank s ∧
      Delivered rest n s s' r := by
  induction k generalizing s with
  | zero => exact absurd hk (Nat.not_lt_zero _)
  | succ k ih =>
      obtain ⟨s', spent', r, hrun, hinv, hrank, hserved⟩ := @hread fuel n false s hs hn hfuel
      cases hserved with
      | data hne hroom hrest =>
          exact ⟨s', _, by simp [pull, hrun], hinv, hrank, .data hne hroom hrest⟩
      | eof hrest hrest' => exact ⟨s', _, by simp [pull, hrun], hinv, hrank, .eof hrest hrest'⟩
      | error hrest hrest' => exact ⟨s', _, by simp [pull, hrun], hinv, hrank, .error hrest hrest'⟩
      | stop hrest hwhy =>
          have hlow : rank s' < rank s := by simpa using hwhy
          obtain ⟨u, r, hpull, hinvU, hrankU, hdel⟩ := ih hinv (by omega) (by omega)
          refine ⟨u, r, by simp [pull, hrun, hpull], hinvU, by omega, ?_⟩
          cases hdel with
          | data hne hroom hu => exact .data hne hroom (hrest ▸ hu)
          | eof hs' hu => exact .eof (hrest ▸ hs') hu
          | error hs' hu => exact .error (hrest ▸ hs') hu

/-! ## Any number of calls -/

/-- Calls with buffers of the sizes `ns`, one after the other, and what they
    return. -/
def pulls (read : ReadFn σ β) (fuel : Nat) : List Nat → σ → Option (σ × List (Fetch β))
  | [], s => some (s, [])
  | n :: ns, s =>
      (pull read fuel n fuel s).bind fun (t, r) =>
        (pulls read fuel ns t).map fun (u, rs) => (u, r :: rs)

/-- What a call at the end of a text returns. -/
def Ending.reply : Ending → Fetch β
  | .eof => .data []
  | .error => .error

/-- The values of what a call returns. -/
def Fetch.values : Fetch β → List β
  | .data xs => xs
  | .error => []
  | .stop => []

/-- Calls with room for `ns` values that return `rs` deliver the text: first
    pieces of it, none of them empty and none longer than its buffer, and when
    all of it was delivered its ending, as often as there are calls. -/
structure Delivers (text : Stream β) (ns : List Nat) (rs : List (Fetch β)) : Prop where
  replies : ∃ (blocks : List (List β)) (k : Nat), rs = blocks.map Fetch.data ++ List.replicate k text.ending.reply ∧
    (∀ b ∈ blocks, b ≠ []) ∧ blocks.flatten <+: text.values ∧
    (k ≠ 0 → blocks.flatten = text.values)
  rooms : List.Forall₂ (fun n r => (Fetch.values r).length ≤ n) ns rs

theorem Delivers.nil (text : Stream β) : Delivers text [] [] :=
  ⟨⟨[], 0, rfl, by simp, List.nil_prefix, by simp⟩, .nil⟩

/-- A piece in front of a delivery. -/
theorem Delivers.cons_data {text : Stream β} {ns : List Nat} {rs : List (Fetch β)} {xs : List β}
    {n : Nat} (h : Delivers text ns rs) (hne : xs ≠ []) (hroom : xs.length ≤ n) :
    Delivers (text.prepend xs) (n :: ns) (.data xs :: rs) := by
  obtain ⟨⟨blocks, k, rfl, hblocks, hpre, hall⟩, hrooms⟩ := h
  refine ⟨⟨xs :: blocks, k, rfl, ?_, ?_, ?_⟩, .cons hroom hrooms⟩
  · simpa using ⟨hne, hblocks⟩
  · simpa using hpre
  · intro hk
    simp [hall hk]

/-- The ending in front of a delivery that has nothing else to deliver. -/
theorem Delivers.cons_reply {e : Ending} {ns : List Nat} {rs : List (Fetch β)} {n : Nat}
    (h : Delivers ⟨[], e⟩ ns rs) : Delivers ⟨[], e⟩ (n :: ns) (e.reply :: rs) := by
  obtain ⟨⟨blocks, k, rfl, hblocks, hpre, -⟩, hrooms⟩ := h
  obtain rfl : blocks = [] := by
    cases blocks with
    | nil => rfl
    | cons b blocks =>
        have hflat : (b :: blocks).flatten = [] := List.prefix_nil.mp hpre
        exact absurd (List.append_eq_nil_iff.mp hflat).1 (hblocks b List.mem_cons_self)
  refine ⟨⟨[], k + 1, rfl, by simp, List.nil_prefix, fun _ => rfl⟩, .cons ?_ hrooms⟩
  cases e <;> exact Nat.zero_le n

/-- Any number of calls with any buffers deliver what the state has to deliver,
    and what they leave is what the state has still to deliver then. -/
theorem pulls_delivers (hread : Serves Inv rest rank read) {fuel : Nat} {ns : List Nat} {s : σ}
    (hs : Inv s) (hns : ∀ n ∈ ns, 0 < n ∧ n + rank s < fuel) (hfuel : rank s < fuel) :
    ∃ s' rs, pulls read fuel ns s = some (s', rs) ∧ Inv s' ∧ rank s' ≤ rank s ∧
      Delivers (rest s) ns rs ∧ rest s = (rest s').prepend (rs.map Fetch.values).flatten := by
  induction ns generalizing s with
  | nil => exact ⟨s, [], rfl, hs, Nat.le_refl _, .nil _, rfl⟩
  | cons n ns ih =>
      obtain ⟨hn, hroom⟩ := hns n List.mem_cons_self
      obtain ⟨t, r, hpull, hinv, hrank, hdel⟩ := pull_delivers hread hs hn hroom hfuel
      obtain ⟨u, rs, hpulls, hinvU, hrankU, hrs, hleft⟩ := ih hinv
        (fun m hm => ⟨(hns m (List.mem_cons_of_mem n hm)).1, by
          have := (hns m (List.mem_cons_of_mem n hm)).2
          omega⟩) (by omega)
      refine ⟨u, r :: rs, by simp [pulls, hpull, hpulls], hinvU, by omega, ?_, ?_⟩
      · cases hdel with
        | data hne hlen hrest =>
            rw [hrest]
            exact hrs.cons_data hne hlen
        | eof hrest hrest' =>
            rw [hrest'] at hrs
            rw [hrest]
            exact hrs.cons_reply
        | error hrest hrest' =>
            rw [hrest'] at hrs
            rw [hrest]
            exact hrs.cons_reply
      · cases hdel with
        | data hne hlen hrest =>
            rw [hrest, hleft]
            simp [Fetch.values]
        | eof hrest hrest' =>
            rw [hrest, ← hrest', hleft]
            simp [Fetch.values]
        | error hrest hrest' =>
            rw [hrest, ← hrest', hleft]
            simp [Fetch.values]

end Pull

end Curl1C.Lib
