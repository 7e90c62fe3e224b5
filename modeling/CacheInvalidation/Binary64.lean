import Mathlib.Data.Rat.Floor
import Mathlib.Algebra.Order.Field.Power

/-!
# Doubles

The smearers compute in `double`. A `double` is kept here as the rational it denotes, and
each arithmetic operation of the source is the exact result rounded by `roundDouble`: to
the nearest number with a 53-bit significand, ties to even, as IEEE 754 binary64 rounds.
The exponent is not bounded, so there is no overflow and no subnormal range; the delays and
fractions the smearers see stay far inside the normal range.

`roundDouble` computes on naturals: the binade of `n / d` from the binary digits of `n` and
`d` and one comparison (`binade`), then the quotient scaled into `[2 ^ 52, 2 ^ 53)`, rounded
half to even (`roundHalfEven`). What the proofs use of it is:

* `roundDouble_le_roundDouble`: rounding is monotone;
* `roundDouble_neg`: rounding is symmetric;
* `abs_roundDouble_sub_le`: rounding errs by at most `2 ^ -53` of the value.

A `double` made an `int64`, by `static_cast` or as an `int64` argument, is truncated toward
zero (`truncToInt`).
-/

namespace CacheInvalidation

/-! ## The binade -/

/-- The binary digits of `n`, halving at most `fuel` times: `⌊log₂ n⌋ + 1` once `n ≤ fuel`,
and `0` for `0`. -/
def binaryDigits : ℕ → ℕ → ℕ
  | 0, _ => 0
  | fuel + 1, n => if n = 0 then 0 else binaryDigits fuel (n / 2) + 1

theorem binaryDigits_zero (fuel : ℕ) : binaryDigits fuel 0 = 0 := by
  cases fuel <;> rfl

theorem binaryDigits_spec : ∀ (fuel n : ℕ), 0 < n → n ≤ fuel →
    2 ^ binaryDigits fuel n ≤ 2 * n ∧ n < 2 ^ binaryDigits fuel n
  | 0, _, _, hf => absurd hf (by omega)
  | fuel + 1, n, hn, hf => by
    rw [binaryDigits, if_neg (by omega), pow_succ]
    rcases Nat.lt_or_ge n 2 with h | h
    · obtain rfl : n = 1 := by omega
      simp [binaryDigits_zero]
    · obtain ⟨h₁, h₂⟩ := binaryDigits_spec fuel (n / 2) (by omega) (by omega)
      omega

/-- `n / d < 2 ^ e`, decided on naturals. -/
def ltTwoPow (n d : ℕ) (e : ℤ) : Bool :=
  n * 2 ^ (-e).toNat < d * 2 ^ e.toNat

/-- The binade of `n / d`: the `e` with `2 ^ e ≤ n / d < 2 ^ (e + 1)`. The binary digits of
`n` and `d` give `e` or `e + 1`; one comparison tells which. -/
def binade (n d : ℕ) : ℤ :=
  let e : ℤ := (binaryDigits n n : ℤ) - binaryDigits d d
  if ltTwoPow n d e then e - 1 else e

theorem two_zpow_eq (e : ℤ) : (2 : ℚ) ^ e = 2 ^ e.toNat / 2 ^ (-e).toNat := by
  rw [← zpow_natCast, ← zpow_natCast, ← zpow_sub₀ two_ne_zero]
  congr 1
  omega

theorem two_zpow_mul_sub (e : ℤ) (c : ℕ) : (2 : ℚ) ^ e * 2 ^ ((c : ℤ) - e) = 2 ^ c := by
  rw [← zpow_add₀ two_ne_zero, add_sub_cancel, zpow_natCast]

theorem ltTwoPow_iff {n d : ℕ} (hd : 0 < d) (e : ℤ) :
    ltTwoPow n d e = true ↔ (n : ℚ) / d < 2 ^ e := by
  rw [two_zpow_eq, div_lt_div_iff₀ (by exact_mod_cast hd) (by positivity),
    mul_comm (2 ^ e.toNat : ℚ)]
  simp only [ltTwoPow, decide_eq_true_eq]
  exact_mod_cast Iff.rfl

theorem binade_spec {n d : ℕ} (hn : 0 < n) (hd : 0 < d) :
    (2 : ℚ) ^ binade n d ≤ n / d ∧ (n : ℚ) / d < 2 ^ (binade n d + 1) := by
  obtain ⟨ha₁, ha₂⟩ := binaryDigits_spec n n hn le_rfl
  obtain ⟨hb₁, hb₂⟩ := binaryDigits_spec d d hd le_rfl
  set a := binaryDigits n n
  set b := binaryDigits d d
  have hdq : (0 : ℚ) < d := Nat.cast_pos.2 hd
  have hpow : ∀ c : ℤ, (2 : ℚ) ^ ((a : ℤ) - b + c) = 2 ^ a * 2 ^ c / 2 ^ b := fun c => by
    rw [zpow_add₀ two_ne_zero, zpow_sub₀ two_ne_zero, zpow_natCast, zpow_natCast,
      div_mul_eq_mul_div]
  -- `n / d` lies between `2 ^ (a - b - 1)` and `2 ^ (a - b + 1)`
  have hlo : (2 : ℚ) ^ ((a : ℤ) - b - 1) ≤ n / d := by
    have : 2 ^ a * d ≤ n * 2 ^ b * 2 :=
      calc 2 ^ a * d ≤ 2 * n * d := Nat.mul_le_mul_right _ ha₁
        _ ≤ 2 * n * 2 ^ b := Nat.mul_le_mul_left _ hb₂.le
        _ = n * 2 ^ b * 2 := by ring
    rw [sub_eq_add_neg, hpow, zpow_neg_one, div_le_div_iff₀ (by positivity) hdq,
      mul_right_comm, mul_inv_le_iff₀ (two_pos : (0 : ℚ) < 2)]
    exact_mod_cast this
  have hhi : (n : ℚ) / d < 2 ^ ((a : ℤ) - b + 1) := by
    have : n * 2 ^ b < 2 ^ a * 2 * d :=
      calc n * 2 ^ b < 2 ^ a * 2 ^ b := Nat.mul_lt_mul_of_pos_right ha₂ (by positivity)
        _ ≤ 2 ^ a * (2 * d) := Nat.mul_le_mul_left _ hb₁
        _ = 2 ^ a * 2 * d := by ring
    rw [hpow, zpow_one, div_lt_div_iff₀ hdq (by positivity)]
    exact_mod_cast this
  unfold binade
  dsimp only
  split
  · rename_i h
    rw [ltTwoPow_iff hd] at h
    rw [sub_add_cancel]
    exact ⟨hlo, h⟩
  · rename_i h
    rw [ltTwoPow_iff hd, not_lt] at h
    exact ⟨h, hhi⟩

/-! ## Rounding a positive quotient -/

/-- `N / D` rounded to the nearest natural, half to even. -/
def roundHalfEven (N D : ℕ) : ℕ :=
  if D < 2 * (N % D) ∨ (2 * (N % D) = D ∧ N / D % 2 = 1) then N / D + 1 else N / D

/-- The rounded quotient is within half a unit of `N / D`. -/
theorem roundHalfEven_spec (N : ℕ) {D : ℕ} (hD : 0 < D) :
    |(roundHalfEven N D : ℚ) - N / D| ≤ 1 / 2 := by
  have hDq : (0 : ℚ) < D := Nat.cast_pos.2 hD
  have hsplit : (N : ℚ) / D = (N / D : ℕ) + ((N % D : ℕ) : ℚ) / D := by
    have hN : (N : ℚ) = D * (N / D : ℕ) + (N % D : ℕ) := by
      exact_mod_cast (Nat.div_add_mod N D).symm
    rw [hN, add_div, mul_div_cancel_left₀ _ hDq.ne']
  have hr1 : ((N % D : ℕ) : ℚ) / D < 1 := (div_lt_one hDq).2 (Nat.cast_lt.2 (Nat.mod_lt _ hD))
  unfold roundHalfEven
  rw [hsplit]
  split
  · -- rounded up: the error is `1 - N % D / D`, and `N % D / D ≥ 1 / 2`
    have h2 : (1 : ℚ) / 2 ≤ ((N % D : ℕ) : ℚ) / D := by
      rw [div_le_div_iff₀ two_pos hDq]
      exact_mod_cast (by omega : 1 * D ≤ N % D * 2)
    rw [Nat.cast_succ, add_sub_add_left_eq_sub, abs_of_nonneg (sub_nonneg.2 hr1.le)]
    linarith only [h2]
  · -- rounded down: the error is `-(N % D / D)`, and `N % D / D ≤ 1 / 2`
    rw [sub_add_cancel_left, abs_neg, abs_of_nonneg (by positivity), div_le_div_iff₀ hDq two_pos]
    exact_mod_cast (by omega : N % D * 2 ≤ 1 * D)

/-- `n / d` rounded to 53 significant bits: scaled by `2 ^ k` into `[2 ^ 52, 2 ^ 53)`, rounded
half to even, and scaled back. -/
def roundPos (n d : ℕ) : ℚ :=
  let k := 52 - binade n d
  mkRat (roundHalfEven (n * 2 ^ k.toNat) (d * 2 ^ (-k).toNat) * 2 ^ (-k).toNat) (2 ^ k.toNat)

theorem roundPos_eq (n d : ℕ) :
    roundPos n d = (roundHalfEven (n * 2 ^ (52 - binade n d).toNat)
      (d * 2 ^ (-(52 - binade n d)).toNat) : ℚ) / 2 ^ (52 - binade n d) := by
  rw [roundPos, Rat.mkRat_eq_div, two_zpow_eq]
  push_cast
  rw [div_div_eq_mul_div]

theorem roundPos_zero (d : ℕ) : roundPos 0 d = 0 := by
  simp [roundPos, roundHalfEven]

/-- What `roundPos n d` is: a natural `R` over the scale `2 ^ k` that puts `n / d` into
`[2 ^ 52, 2 ^ 53)`, within half a unit of the scaled value. -/
theorem roundPos_spec {n d : ℕ} (hn : 0 < n) (hd : 0 < d) :
    ∃ R : ℕ, roundPos n d = R / 2 ^ (52 - binade n d) ∧
      |(R : ℚ) - n / d * 2 ^ (52 - binade n d)| ≤ 1 / 2 ∧
      2 ^ 52 ≤ (n : ℚ) / d * 2 ^ (52 - binade n d) ∧
      (n : ℚ) / d * 2 ^ (52 - binade n d) < 2 ^ 53 := by
  obtain ⟨hlo, hhi⟩ := binade_spec hn hd
  have hk : (0 : ℚ) < 2 ^ (52 - binade n d) := by positivity
  refine ⟨_, roundPos_eq n d, ?_, ?_, ?_⟩
  · have h := roundHalfEven_spec (n * 2 ^ (52 - binade n d).toNat)
      (Nat.mul_pos hd (by positivity) : 0 < d * 2 ^ (-(52 - binade n d)).toNat)
    have hs : ((n * 2 ^ (52 - binade n d).toNat : ℕ) : ℚ) /
        (d * 2 ^ (-(52 - binade n d)).toNat : ℕ) = n / d * 2 ^ (52 - binade n d) := by
      rw [two_zpow_eq (52 - binade n d)]
      push_cast
      ring
    rwa [hs] at h
  · calc (2 : ℚ) ^ 52 = 2 ^ binade n d * 2 ^ ((52 : ℕ) - binade n d) :=
          (two_zpow_mul_sub _ 52).symm
      _ ≤ _ := by push_cast; exact mul_le_mul_of_nonneg_right hlo hk.le
  · calc (n : ℚ) / d * 2 ^ (52 - binade n d) < 2 ^ (binade n d + 1) * 2 ^ (52 - binade n d) :=
          mul_lt_mul_of_pos_right hhi hk
      _ = 2 ^ 53 := by
        rw [← zpow_add₀ two_ne_zero,
          show binade n d + 1 + (52 - binade n d) = (53 : ℕ) by omega, zpow_natCast]

/-- A positive quotient rounds into its own binade, ends included. -/
theorem roundPos_mem {n d : ℕ} (hn : 0 < n) (hd : 0 < d) :
    2 ^ binade n d ≤ roundPos n d ∧ roundPos n d ≤ 2 ^ (binade n d + 1) := by
  obtain ⟨R, hR, herr, hlo, hhi⟩ := roundPos_spec hn hd
  have hk : (0 : ℚ) < 2 ^ (52 - binade n d) := by positivity
  obtain ⟨herr₁, herr₂⟩ := abs_sub_le_iff.1 herr
  -- the natural `R` is between `2 ^ 52` and `2 ^ 53`
  have hR₁ : 2 ^ 52 ≤ R := by
    have : (2 : ℚ) ^ 52 < R + 1 := calc
      (2 : ℚ) ^ 52 ≤ n / d * 2 ^ (52 - binade n d) := hlo
      _ ≤ R + 1 / 2 := sub_le_iff_le_add'.1 herr₂
      _ < R + 1 := by norm_num
    exact Nat.lt_succ_iff.1 (by exact_mod_cast this)
  have hR₂ : R ≤ 2 ^ 53 := by
    have : (R : ℚ) < 2 ^ 53 + 1 := calc
      (R : ℚ) ≤ n / d * 2 ^ (52 - binade n d) + 1 / 2 := sub_le_iff_le_add'.1 herr₁
      _ < 2 ^ 53 + 1 / 2 := add_lt_add_right hhi _
      _ < 2 ^ 53 + 1 := by norm_num
    exact Nat.lt_succ_iff.1 (by exact_mod_cast this)
  have h52 := two_zpow_mul_sub (binade n d) 52
  have h53 := two_zpow_mul_sub (binade n d + 1) 53
  rw [show ((53 : ℕ) : ℤ) - (binade n d + 1) = (52 : ℕ) - binade n d by omega] at h53
  push_cast at h52 h53
  rw [hR, le_div_iff₀ hk, div_le_iff₀ hk, h52, h53]
  exact ⟨by exact_mod_cast hR₁, by exact_mod_cast hR₂⟩

/-- Rounding a positive quotient errs by at most `2 ^ -53` of it. -/
theorem abs_roundPos_sub_le {n d : ℕ} (hn : 0 < n) (hd : 0 < d) :
    |roundPos n d - n / d| ≤ n / d / 2 ^ 53 := by
  obtain ⟨R, hR, herr, hlo, -⟩ := roundPos_spec hn hd
  have hk : (0 : ℚ) < 2 ^ (52 - binade n d) := by positivity
  rw [hR, ← mul_div_cancel_right₀ ((n : ℚ) / d) hk.ne', ← sub_div, abs_div, abs_of_pos hk,
    div_le_div_iff₀ hk (by positivity), div_mul_cancel₀ _ hk.ne']
  calc |(R : ℚ) - n / d * 2 ^ (52 - binade n d)| * 2 ^ 53 ≤ 1 / 2 * 2 ^ 53 :=
        mul_le_mul_of_nonneg_right herr (by positivity)
    _ = 2 ^ 52 := by norm_num
    _ ≤ _ := hlo

/-- Within one binade rounding is monotone, each rounded value being within half a unit of
its scaled value; across binades, the binade bounds keep the rounded values apart. -/
theorem roundPos_le_roundPos {n d n' d' : ℕ} (hn : 0 < n) (hd : 0 < d) (hn' : 0 < n')
    (hd' : 0 < d') (h : (n : ℚ) / d < n' / d') : roundPos n d ≤ roundPos n' d' := by
  obtain ⟨hlo, hhi⟩ := binade_spec hn hd
  obtain ⟨hlo', hhi'⟩ := binade_spec hn' hd'
  rcases lt_trichotomy (binade n d) (binade n' d') with hb | hb | hb
  · -- a lower binade rounds at most to the start of the next
    calc roundPos n d ≤ 2 ^ (binade n d + 1) := (roundPos_mem hn hd).2
      _ ≤ 2 ^ binade n' d' := zpow_le_zpow_right₀ one_le_two (by omega)
      _ ≤ roundPos n' d' := (roundPos_mem hn' hd').1
  · -- one binade: the naturals over its scale are within half a unit of ordered values
    obtain ⟨R, hR, herr, -⟩ := roundPos_spec hn hd
    obtain ⟨R', hR', herr', -⟩ := roundPos_spec hn' hd'
    rw [← hb] at hR' herr'
    have hk : (0 : ℚ) < 2 ^ (52 - binade n d) := by positivity
    have : (R : ℚ) < R' + 1 := calc
      (R : ℚ) ≤ n / d * 2 ^ (52 - binade n d) + 1 / 2 :=
        sub_le_iff_le_add'.1 (abs_sub_le_iff.1 herr).1
      _ < n' / d' * 2 ^ (52 - binade n d) + 1 / 2 :=
        add_lt_add_right (mul_lt_mul_of_pos_right h hk) _
      _ ≤ R' + 1 / 2 + 1 / 2 :=
        add_le_add_right (sub_le_iff_le_add'.1 (abs_sub_le_iff.1 herr').2) _
      _ = R' + 1 := by ring
    have hRR : R ≤ R' := Nat.lt_succ_iff.1 (by exact_mod_cast this)
    rw [hR, hR']
    exact div_le_div_of_nonneg_right (by exact_mod_cast hRR) hk.le
  · -- a higher binade cannot hold a smaller value
    have := (zpow_lt_zpow_iff_right₀ one_lt_two).1 (hlo.trans_lt (h.trans hhi'))
    omega

/-! ## Rounding to a double -/

/-- A rational rounded to the nearest `double`, ties to even: its magnitude rounded to 53
significant bits, its sign kept. -/
def roundDouble (x : ℚ) : ℚ :=
  if x < 0 then -roundPos x.num.natAbs x.den else roundPos x.num.natAbs x.den

theorem natAbs_num_div_den {x : ℚ} (hx : 0 < x) : (x.num.natAbs : ℚ) / x.den = x := by
  rw [Nat.cast_natAbs, Int.cast_abs, abs_of_pos (Int.cast_pos.2 (Rat.num_pos.2 hx)),
    Rat.num_div_den]

theorem roundDouble_of_pos {x : ℚ} (hx : 0 < x) :
    roundDouble x = roundPos x.num.natAbs x.den :=
  if_neg (not_lt.2 hx.le)

@[simp] theorem roundDouble_zero : roundDouble 0 = 0 := by
  simp [roundDouble, roundPos_zero]

/-- Rounding is symmetric: a `double` keeps its sign apart from its magnitude. -/
theorem roundDouble_neg (x : ℚ) : roundDouble (-x) = -roundDouble x := by
  rcases lt_trichotomy x 0 with hx | rfl | hx
  · rw [roundDouble, if_neg (by linarith), roundDouble, if_pos hx, neg_neg,
      Rat.num_neg_eq_neg_num, Int.natAbs_neg, Rat.den_neg_eq_den]
  · simp
  · rw [roundDouble, if_pos (by linarith), roundDouble_of_pos hx, Rat.num_neg_eq_neg_num,
      Int.natAbs_neg, Rat.den_neg_eq_den]

theorem roundDouble_pos {x : ℚ} (hx : 0 < x) : 0 < roundDouble x := by
  rw [roundDouble_of_pos hx]
  exact (zpow_pos two_pos _).trans_le
    (roundPos_mem (Int.natAbs_pos.2 (Rat.num_pos.2 hx).ne') x.den_pos).1

theorem roundDouble_nonneg {x : ℚ} (hx : 0 ≤ x) : 0 ≤ roundDouble x := by
  rcases hx.eq_or_lt with rfl | hx
  · simp
  · exact (roundDouble_pos hx).le

theorem roundDouble_le_roundDouble_of_pos {x y : ℚ} (hx : 0 < x) (h : x < y) :
    roundDouble x ≤ roundDouble y := by
  have hy := hx.trans h
  rw [roundDouble_of_pos hx, roundDouble_of_pos hy]
  refine roundPos_le_roundPos (Int.natAbs_pos.2 (Rat.num_pos.2 hx).ne') x.den_pos
    (Int.natAbs_pos.2 (Rat.num_pos.2 hy).ne') y.den_pos ?_
  rwa [natAbs_num_div_den hx, natAbs_num_div_den hy]

/-- Rounding is monotone. -/
theorem roundDouble_le_roundDouble {x y : ℚ} (h : x ≤ y) : roundDouble x ≤ roundDouble y := by
  rcases h.eq_or_lt with rfl | h
  · exact le_rfl
  rcases lt_or_le 0 x with hx | hx
  · exact roundDouble_le_roundDouble_of_pos hx h
  rcases lt_or_le y 0 with hy | hy
  · -- both negative: the magnitudes round the other way
    have := roundDouble_le_roundDouble_of_pos (neg_pos.2 hy) (neg_lt_neg h)
    rw [roundDouble_neg, roundDouble_neg] at this
    exact neg_le_neg_iff.1 this
  · have h₁ := roundDouble_nonneg (neg_nonneg.2 hx)
    rw [roundDouble_neg] at h₁
    linarith [roundDouble_nonneg hy]

/-- Rounding errs by at most `2 ^ -53` of the value. -/
theorem abs_roundDouble_sub_le (x : ℚ) : |roundDouble x - x| ≤ |x| / 2 ^ 53 := by
  have hpos : ∀ x : ℚ, 0 < x → |roundDouble x - x| ≤ |x| / 2 ^ 53 := fun x hx => by
    have := abs_roundPos_sub_le (Int.natAbs_pos.2 (Rat.num_pos.2 hx).ne') x.den_pos
    rw [natAbs_num_div_den hx, ← roundDouble_of_pos hx] at this
    rwa [abs_of_pos hx]
  rcases lt_trichotomy x 0 with hx | rfl | hx
  · have := hpos (-x) (neg_pos.2 hx)
    rwa [roundDouble_neg, abs_neg, ← neg_add', abs_neg, ← sub_eq_add_neg] at this
  · simp
  · exact hpos x hx

/-- For a nonnegative value: the rounded value is within `2 ^ -53` of it, either way. -/
theorem roundDouble_mem {x : ℚ} (hx : 0 ≤ x) :
    x - x / 2 ^ 53 ≤ roundDouble x ∧ roundDouble x ≤ x + x / 2 ^ 53 := by
  have h := abs_roundDouble_sub_le x
  rw [abs_of_nonneg hx, abs_sub_le_iff] at h
  exact ⟨sub_le_comm.1 h.2, sub_le_iff_le_add'.1 h.1⟩

set_option maxRecDepth 20000 in
theorem roundDouble_one : roundDouble 1 = 1 := by
  with_unfolding_all decide

set_option maxRecDepth 20000 in
theorem roundDouble_two : roundDouble 2 = 2 := by
  with_unfolding_all decide

set_option maxRecDepth 20000 in
theorem roundDouble_hundred : roundDouble 100 = 100 := by
  with_unfolding_all decide

theorem roundDouble_neg_one : roundDouble (-1) = -1 := by
  rw [roundDouble_neg, roundDouble_one]

/-! ## Doubles made integers -/

/-- A double made an `int64`: truncation toward zero. -/
def truncToInt (x : ℚ) : Int :=
  x.num.tdiv x.den

theorem truncToInt_of_nonneg {x : ℚ} (hx : 0 ≤ x) : truncToInt x = ⌊x⌋ := by
  rw [truncToInt, Rat.floor_def, Int.tdiv_eq_ediv (Rat.num_nonneg.2 hx) (Int.natCast_nonneg _)]

theorem truncToInt_nonneg {x : ℚ} (hx : 0 ≤ x) : 0 ≤ truncToInt x := by
  rw [truncToInt_of_nonneg hx]
  exact Int.floor_nonneg.2 hx

theorem truncToInt_le_truncToInt {x y : ℚ} (hx : 0 ≤ x) (h : x ≤ y) :
    truncToInt x ≤ truncToInt y := by
  rw [truncToInt_of_nonneg hx, truncToInt_of_nonneg (hx.trans h)]
  exact Int.floor_mono h

end CacheInvalidation
