/-
  Curl1C.NoCaseMap.HashSize

  `CNoCaseMapBase::CalcHashSize`: the number of buckets for a number of keys.

  Small tables take their size from a fixed list.  For large ones a loop of
  trial divisions counts up to the next prime, in 32-bit arithmetic and
  without a bound; it has to be shown that it gets there, and that no square
  `i * i` wraps on the way.  `calcHashSizeChecked` is the same function where
  an operation that wraps has no result.

  Main result: `calcHashSize_prime`.
-/

import Mathlib.NumberTheory.Bertrand

namespace Curl1C

/-! ## The function -/

/-- The loop of `CalcHashSize`, `none` if it takes more than `fuel` rounds.
    A divisor sends it back to `i = 3` with the next odd number. -/
def primeLoop : Nat → Nat → Nat → Option Nat
  | 0, _, _ => none
  | fuel + 1, hs, i =>
      if i * i % 2 ^ 32 ≤ hs then
        if hs % i = 0 then primeLoop fuel ((hs + 2) % 2 ^ 32) 3
        else primeLoop fuel hs ((i + 2) % 2 ^ 32)
      else some hs

/-- `CNoCaseMapBase::CalcHashSize`.  There are fewer than `2 ^ 48` pairs of a
    number and a divisor to try. -/
def calcHashSize (nCount : Nat) : Option Nat :=
  let hs := (nCount + nCount / 2) % 2 ^ 32 ||| 1
  if hs > 101 then primeLoop (2 ^ 48) hs 3
  else if hs ≤ 13 then some 13
  else if hs ≤ 23 then some 23
  else if hs ≤ 37 then some 37
  else if hs ≤ 53 then some 53
  else if hs ≤ 71 then some 71
  else some 101

/-- A result that fits into 32 bits. -/
def checked (n : Nat) : Option Nat := if n < 2 ^ 32 then some n else none

/-- The loop of `CalcHashSize` as long as nothing wraps. -/
def primeLoopChecked : Nat → Nat → Nat → Option Nat
  | 0, _, _ => none
  | fuel + 1, hs, i =>
      (checked (i * i)).bind fun square =>
        if square ≤ hs then
          if hs % i = 0 then (checked (hs + 2)).bind fun hs => primeLoopChecked fuel hs 3
          else (checked (i + 2)).bind fun i => primeLoopChecked fuel hs i
        else some hs

/-- `CalcHashSize` as long as nothing wraps. -/
def calcHashSizeChecked (nCount : Nat) : Option Nat :=
  (checked (nCount + nCount / 2)).bind fun n =>
    if (n ||| 1) > 101 then primeLoopChecked (2 ^ 48) (n ||| 1) 3 else calcHashSize nCount

/-- What comes after an operation is reached only if it does not wrap. -/
theorem bind_checked_eq_some_iff {n size : Nat} {f : Nat → Option Nat} :
    (checked n).bind f = some size ↔ n < 2 ^ 32 ∧ f n = some size := by
  unfold checked
  split
  · rename_i hfits
    rw [Option.bind_some, and_iff_right hfits]
  · rename_i hwraps
    exact iff_of_false (Option.some_ne_none size).symm fun h => hwraps h.1

theorem checked_of_lt {n : Nat} (hn : n < 2 ^ 32) : checked n = some n := if_pos hn

/-- Where nothing wraps, the loop does the same in 32 bits. -/
theorem primeLoop_of_checked {fuel hs i size : Nat}
    (h : primeLoopChecked fuel hs i = some size) : primeLoop fuel hs i = some size := by
  induction fuel generalizing hs i with
  | zero => cases h
  | succ fuel ih =>
      rw [primeLoopChecked, bind_checked_eq_some_iff] at h
      obtain ⟨hfits, h⟩ := h
      rw [primeLoop, Nat.mod_eq_of_lt hfits]
      by_cases hle : i * i ≤ hs
      · rw [if_pos hle] at h ⊢
        by_cases hdvd : hs % i = 0
        · rw [if_pos hdvd, bind_checked_eq_some_iff] at h
          rw [if_pos hdvd, Nat.mod_eq_of_lt h.1]
          exact ih h.2
        · rw [if_neg hdvd, bind_checked_eq_some_iff] at h
          rw [if_neg hdvd, Nat.mod_eq_of_lt h.1]
          exact ih h.2
      · rw [if_neg hle] at h ⊢
        exact h

theorem calcHashSize_of_checked {nCount size : Nat} (h : calcHashSizeChecked nCount = some size) :
    calcHashSize nCount = some size := by
  rw [calcHashSizeChecked, bind_checked_eq_some_iff] at h
  obtain ⟨hfits, h⟩ := h
  by_cases hlarge : (nCount + nCount / 2 ||| 1) > 101
  · rw [if_pos hlarge] at h
    rw [calcHashSize, Nat.mod_eq_of_lt hfits]
    rw [if_pos hlarge]
    exact primeLoop_of_checked h
  · rwa [if_neg hlarge] at h

/-- The loop passes only over odd numbers, also if it wraps. -/
theorem primeLoop_odd {fuel hs i size : Nat} (hodd : hs % 2 = 1)
    (h : primeLoop fuel hs i = some size) : size % 2 = 1 := by
  induction fuel generalizing hs i with
  | zero => cases h
  | succ fuel ih =>
      rw [primeLoop] at h
      split at h
      · split at h
        · exact ih (by omega) h
        · exact ih hodd h
      · cases h
        exact hodd

/-- No size is 0. -/
theorem calcHashSize_pos {nCount size : Nat} (h : calcHashSize nCount = some size) : 0 < size := by
  have hodd : ((nCount + nCount / 2) % 2 ^ 32 ||| 1) % 2 = 1 := by simp
  rw [calcHashSize] at h
  split at h
  · have hsize := primeLoop_odd hodd h
    omega
  · split_ifs at h
    all_goals
      cases h
      decide

/-! ## The loop finds the next prime -/

/-- A loop on its way to the prime `p`: `hs` is odd and `p` is the first prime
    from `hs` on; `i` is odd, and nothing below it divides `hs`. -/
structure Seeking (p hs i : Nat) : Prop where
  le : hs ≤ p
  two_lt : 2 < hs
  first : ∀ q, q.Prime → hs ≤ q → p ≤ q
  oddSize : hs % 2 = 1
  oddDiv : i % 2 = 1
  start : 3 ≤ i
  small : i ≤ 65535
  tried : ∀ j, 2 ≤ j → j < i → ¬ j ∣ hs

/-- What is left to try. -/
def Seeking.measure (p hs i : Nat) : Nat := (p - hs) * 65536 + (65536 - i)

section Loop

variable {p hs i : Nat}

theorem Seeking.measure_divides (hnext : hs + 2 ≤ p) :
    Seeking.measure p (hs + 2) 3 < Seeking.measure p hs i := by
  obtain ⟨gap, rfl⟩ := Nat.exists_eq_add_of_le hnext
  have hnew : hs + 2 + gap - (hs + 2) = gap := by omega
  have hold : hs + 2 + gap - hs = gap + 2 := by omega
  rw [Seeking.measure, Seeking.measure, hnew, hold]
  omega

theorem Seeking.measure_misses (hi : i ≤ 65535) :
    Seeking.measure p hs (i + 2) < Seeking.measure p hs i := by
  rw [Seeking.measure, Seeking.measure]
  omega

/-- At an odd number nothing but 2 has been tried. -/
theorem seeking_start (hle : hs ≤ p) (htwo : 2 < hs) (hfirst : ∀ q, q.Prime → hs ≤ q → p ≤ q)
    (hodd : hs % 2 = 1) : Seeking p hs 3 := by
  refine ⟨hle, htwo, hfirst, hodd, rfl, le_rfl, by decide, ?_⟩
  intro j hj hj3 hdvd
  obtain rfl : j = 2 := by omega
  omega

theorem Seeking.square_lt (h : Seeking p hs i) : i * i < 2 ^ 32 := by
  have hsquare : i * i ≤ 65535 * 65535 := Nat.mul_le_mul h.small h.small
  omega

/-- A divisor that was not reached by its square means that `hs` is prime. -/
theorem Seeking.done (h : Seeking p hs i) (hlt : hs < i * i) : hs = p := by
  have hprime : hs.Prime := by
    by_contra hnot
    have htwo := h.two_lt
    have hsq := Nat.minFac_sq_le_self (by omega) hnot
    have hfac : hs.minFac < i := by
      by_contra hge
      have hmul := Nat.mul_le_mul (Nat.le_of_not_lt hge) (Nat.le_of_not_lt hge)
      rw [pow_two] at hsq
      omega
    exact h.tried _ (Nat.minFac_prime (by omega)).two_le hfac (Nat.minFac_dvd hs)
  exact Nat.le_antisymm h.le (h.first hs hprime le_rfl)

/-- A divisor moves the search to the next odd number. -/
theorem Seeking.divides (h : Seeking p hs i) (hp : p.Prime) (hle : i * i ≤ hs) (hdvd : hs % i = 0) :
    hs + 2 ≤ p ∧ Seeking p (hs + 2) 3 := by
  have hi := h.start
  have hodd := h.oddSize
  have hlt : i < hs := by nlinarith
  have hne : hs ≠ p := by
    rintro rfl
    have hone := (Nat.dvd_prime hp).mp (Nat.dvd_of_mod_eq_zero hdvd)
    omega
  -- the odd prime is not the even number in between either
  have hpodd : p % 2 = 1 := hp.eq_two_or_odd.resolve_left (by have := h.le; omega)
  have hnext : hs + 2 ≤ p := by have := h.le; omega
  have hfirst : ∀ q, q.Prime → hs + 2 ≤ q → p ≤ q := fun q hq hle => h.first q hq (by omega)
  exact ⟨hnext, seeking_start hnext (by omega) hfirst (by omega)⟩

/-- Without a divisor the search goes on with the next odd one. -/
theorem Seeking.misses (h : Seeking p hs i) (hp : p < 65535 * 65535) (hle : i * i ≤ hs)
    (hdvd : hs % i ≠ 0) : Seeking p hs (i + 2) := by
  have hodd := h.oddDiv
  have hsmall : i < 65535 := by
    by_contra hge
    have := Nat.mul_le_mul (Nat.le_of_not_lt hge) (Nat.le_of_not_lt hge)
    have := h.le
    omega
  refine ⟨h.le, h.two_lt, h.first, h.oddSize, by omega, by omega, by omega, ?_⟩
  intro j hj hlt hdvd'
  rcases Nat.lt_or_ge j i with hji | hji
  · exact h.tried j hj hji hdvd'
  · rcases Nat.eq_or_lt_of_le hji with rfl | hji
    · exact hdvd (Nat.mod_eq_zero_of_dvd hdvd')
    · -- the even number in between cannot divide an odd one
      obtain rfl : j = i + 1 := by omega
      have heven : 2 ∣ i + 1 := by omega
      have := heven.trans hdvd'
      have := h.oddSize
      omega

/-- The loop ends at the prime it seeks, and nothing wraps on the way. -/
theorem primeLoopChecked_eq (hp : p.Prime) (hbound : p < 65535 * 65535) :
    ∀ fuel hs i, Seeking p hs i → Seeking.measure p hs i < fuel →
      primeLoopChecked fuel hs i = some p := by
  intro fuel
  -- on the fuel; each round keeps `Seeking` and lowers the measure
  induction fuel with
  | zero => exact fun _ _ _ h => absurd h (Nat.not_lt_zero _)
  | succ fuel ih =>
      intro hs i h hfuel
      rw [primeLoopChecked, checked_of_lt h.square_lt, Option.bind_some]
      by_cases hle : i * i ≤ hs
      · rw [if_pos hle]
        by_cases hdvd : hs % i = 0
        · obtain ⟨hnext, hseek⟩ := h.divides hp hle hdvd
          have hless := @Seeking.measure_divides p hs i hnext
          rw [if_pos hdvd, checked_of_lt (by omega), Option.bind_some]
          exact ih _ _ hseek (by omega)
        · have hseek := h.misses hbound hle hdvd
          have hsmall := hseek.small
          have hless := @Seeking.measure_misses p hs i h.small
          rw [if_neg hdvd, checked_of_lt (by omega), Option.bind_some]
          exact ih _ _ hseek (by omega)
      · rw [if_neg hle, h.done (by omega)]

end Loop

/-! ## The size of a table -/

/-- The first prime from a number on, and no farther than its double. -/
theorem exists_first_prime {n : Nat} (hn : n ≠ 0) :
    ∃ p, p.Prime ∧ n ≤ p ∧ p ≤ 2 * n ∧ ∀ q, q.Prime → n ≤ q → p ≤ q := by
  classical
  obtain ⟨b, hb, hlt, hle⟩ := Nat.exists_prime_lt_and_le_two_mul n hn
  have hex : ∃ p, p.Prime ∧ n ≤ p := ⟨b, hb, hlt.le⟩
  refine ⟨Nat.find hex, (Nat.find_spec hex).1, (Nat.find_spec hex).2, ?_, ?_⟩
  · exact (Nat.find_min' hex ⟨hb, hlt.le⟩).trans hle
  · exact fun q hq hnq => Nat.find_min' hex ⟨hq, hnq⟩

/-- What `CalcHashSize` finds for up to `2 ^ 30` keys. -/
theorem calcHashSizeChecked_eq {nCount : Nat} (hn : nCount ≤ 2 ^ 30) :
    ∃ size, calcHashSizeChecked nCount = some size ∧ 13 ≤ size ∧ size.Prime ∧
      nCount + nCount / 2 ≤ size ∧
      (101 < size → IsLeast {p | p.Prime ∧ (nCount + nCount / 2 ||| 1) ≤ p} size) := by
  have hodd : (nCount + nCount / 2 ||| 1) % 2 = 1 := by simp
  have hhalf : (nCount + nCount / 2 ||| 1) / 2 = (nCount + nCount / 2) / 2 := by
    rw [Nat.or_div_two]
    simp
  rw [calcHashSizeChecked, checked_of_lt (by omega), Option.bind_some]
  by_cases hlarge : (nCount + nCount / 2 ||| 1) > 101
  · obtain ⟨p, hp, hle, hdouble, hfirst⟩ :=
      exists_first_prime (n := nCount + nCount / 2 ||| 1) (by omega)
    have hseek := seeking_start hle (by omega) hfirst hodd
    have hfuel : Seeking.measure p (nCount + nCount / 2 ||| 1) 3 < 2 ^ 48 := by
      rw [Seeking.measure]
      omega
    rw [if_pos hlarge]
    refine ⟨p, primeLoopChecked_eq hp (by omega) _ _ _ hseek hfuel, by omega, hp, by omega, ?_⟩
    intro _
    exact ⟨⟨hp, hle⟩, fun q hq => hfirst q hq.1 hq.2⟩
  · -- a size from the fixed list
    rw [if_neg hlarge, calcHashSize, Nat.mod_eq_of_lt (show nCount + nCount / 2 < 2 ^ 32 by omega)]
    rw [if_neg hlarge]
    split_ifs
    all_goals exact ⟨_, rfl, by decide, by norm_num, by omega, fun h => absurd h (by decide)⟩

/-- For every number of keys below `2 ^ 30` the search comes to an end, and no
    operation on the way wraps.  The size is a prime from 13 on that is not less
    than one and a half times the number of keys, and if it is not from the fixed
    list it is the first prime from where the search starts. -/
theorem calcHashSize_prime {nCount : Nat} (hn : nCount < 2 ^ 30) :
    ∃ size, calcHashSize nCount = some size ∧ calcHashSizeChecked nCount = some size ∧
      size.Prime ∧ 13 ≤ size ∧ nCount + nCount / 2 ≤ size ∧
      (101 < size → IsLeast {p | p.Prime ∧ (nCount + nCount / 2 ||| 1) ≤ p} size) := by
  obtain ⟨size, hsize, hlow, hprime, hroom, hleast⟩ := calcHashSizeChecked_eq hn.le
  exact ⟨size, calcHashSize_of_checked hsize, hsize, hprime, hlow, hroom, hleast⟩

/-- The search from 105 on passes over 105 and ends at 107. -/
theorem calcHashSize_prime_seventy : calcHashSize 70 = some 107 := by
  obtain ⟨size, hsize, -, hprime, -, hroom, hleast⟩ :=
    calcHashSize_prime (show 70 < 2 ^ 30 by decide)
  obtain ⟨⟨-, hle⟩, hfirst⟩ := hleast (by omega)
  have hupper : size ≤ 107 := hfirst ⟨by norm_num, by decide⟩
  have hlower : 105 ≤ size := hle
  have hodd : ¬ Nat.Prime 105 ∧ ¬ Nat.Prime 106 := by norm_num
  obtain rfl | rfl | rfl : size = 105 ∨ size = 106 ∨ size = 107 := by omega
  · exact absurd hprime hodd.1
  · exact absurd hprime hodd.2
  · exact hsize

end Curl1C
