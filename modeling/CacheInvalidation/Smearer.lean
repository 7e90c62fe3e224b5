import CacheInvalidation.OperationScheduler
import CacheInvalidation.Binary64

/-!
# Smeared delays

`Smearer::GetSmearedDelay` (`smearer.h`) and `InvalidationClientImpl::SmearDelay`
(`invalidation-client-impl.cc:433-444`) scale a delay by `1 + s`, with `s` drawn from
`[-f, f]` for the smear fraction `f`: `2 · RandDouble() − 1` is in `[-1, 1]`. Both compute in
`double`, every operation rounded (`roundDouble`); `RandDouble()` is an argument `rand` with
`0 ≤ rand ≤ 1`. Delays are microseconds. Up to the order of two commuting operands, the two
compute the same double, `smearedProduct`, of whole milliseconds for the smearer and of
microseconds for `SmearDelay`.

* `getSmearedDelay_mem`: the smearer's delay is nonnegative and monotone in the draw, and for
  a delay of at most `2 ^ 48` µs it lies in the band `[ms · (1 − f), ms · (1 + f)]` of the
  delay's whole milliseconds `ms`, up to one millisecond that rounding and truncation can lose
  or gain.
* `smearDelay_mem`: `SmearDelay` passes its `CHECK`s exactly for `0 ≤ f ≤ 1`, and then does the
  same in microseconds.
* `smearing_in_band_six_percent`: the unit is needed; `SmearDelay` smears 35 s by six percent
  with the lowest draw to one microsecond below `⌊35000000 · (1 − f)⌋`.
* `smeared_delays_nonneg`: in every run of the operation scheduler in which `Schedule` hands
  the scheduler the smearer's draw, as the source does, and `ChangeDelayForTest` sets no
  negative delay, every task handed to the scheduler has a nonnegative delay in whole
  milliseconds.
-/

namespace CacheInvalidation

/-- `TimeDelta::InMilliseconds` of a delta kept in microseconds. -/
def inMilliseconds (delta : Int) : Int :=
  delta.tdiv 1000

/-- `TimeDelta::FromMilliseconds`, in microseconds. -/
def fromMilliseconds (ms : Int) : Int :=
  1000 * ms

theorem inMilliseconds_mem {delta : Int} (h : 0 ≤ delta) :
    0 ≤ inMilliseconds delta ∧ inMilliseconds delta ≤ delta := by
  rw [inMilliseconds, Int.tdiv_eq_ediv h (by decide)]
  omega

/-! ## One smearing, in doubles -/

/-- The double both smearings truncate: `m` units times `1 + (2 · rand − 1) · f`, each
operation rounded. -/
def smearedProduct (m f rand : ℚ) : ℚ :=
  roundDouble (roundDouble m *
    roundDouble (1 + roundDouble (roundDouble (roundDouble (2 * rand) - 1) * f)))

/-- `2 · RandDouble() − 1` for a draw in `[0, 1]`: in `[-1, 1]`, and monotone in the draw. -/
theorem unitDraw_mem {rand rand' : ℚ} (h0 : 0 ≤ rand) (hr : rand ≤ rand') (h1 : rand' ≤ 1) :
    -1 ≤ roundDouble (roundDouble (2 * rand) - 1) ∧
      roundDouble (roundDouble (2 * rand) - 1) ≤ roundDouble (roundDouble (2 * rand') - 1) ∧
      roundDouble (roundDouble (2 * rand') - 1) ≤ 1 := by
  have h₀ := roundDouble_le_roundDouble (show (0 : ℚ) ≤ 2 * rand by linarith)
  have h₂ := roundDouble_le_roundDouble (show 2 * rand' ≤ 2 by linarith)
  rw [roundDouble_zero] at h₀
  rw [roundDouble_two] at h₂
  refine ⟨roundDouble_neg_one.symm.trans_le (roundDouble_le_roundDouble (by linarith)),
    roundDouble_le_roundDouble (sub_le_sub_right (roundDouble_le_roundDouble (by linarith)) 1),
    (roundDouble_le_roundDouble (by linarith)).trans_eq roundDouble_one⟩

/-- The smeared product for `m` units: nonnegative and monotone in the draw; and for at most
`2 ^ 48` units within one unit of the band `[m · (1 − f), m · (1 + f)]`, each of its roundings
erring by at most `2 ^ -53` of a value of at most three times `m`. -/
theorem smearedProduct_mem {m f rand rand' : ℚ} (hm : 0 ≤ m) (hf : 0 ≤ f) (hf1 : f ≤ 1)
    (h0 : 0 ≤ rand) (hr : rand ≤ rand') (h1 : rand' ≤ 1) :
    0 ≤ smearedProduct m f rand ∧ smearedProduct m f rand ≤ smearedProduct m f rand' ∧
      (m ≤ 2 ^ 48 → m * (1 - f) - 1 ≤ smearedProduct m f rand ∧
        smearedProduct m f rand < m * (1 + f) + 1) := by
  unfold smearedProduct
  obtain ⟨hu₀, hu, -⟩ := unitDraw_mem h0 hr h1
  obtain ⟨-, -, hu₁⟩ := unitDraw_mem (h0.trans hr) le_rfl h1
  set u := roundDouble (roundDouble (2 * rand) - 1)
  set a := roundDouble (u * f)
  -- the smear is within the rounded fraction
  have ha₀ : -roundDouble f ≤ a := by
    rw [← roundDouble_neg, ← neg_one_mul]
    exact roundDouble_le_roundDouble (mul_le_mul_of_nonneg_right hu₀ hf)
  have ha₁ : a ≤ roundDouble f :=
    roundDouble_le_roundDouble (mul_le_of_le_one_left hf (hu.trans hu₁))
  have hg := roundDouble_mem hf
  have hg1 : roundDouble f ≤ 1 := (roundDouble_le_roundDouble hf1).trans_eq roundDouble_one
  have h1a : 0 ≤ 1 + a := by linarith only [ha₀, hg1]
  have hM₀ := roundDouble_nonneg hm
  have hMb : 0 ≤ roundDouble m * roundDouble (1 + a) := mul_nonneg hM₀ (roundDouble_nonneg h1a)
  -- a larger draw gives a larger factor
  have hmono : roundDouble m * roundDouble (1 + a) ≤ roundDouble m *
      roundDouble (1 + roundDouble (roundDouble (roundDouble (2 * rand') - 1) * f)) :=
    mul_le_mul_of_nonneg_left (roundDouble_le_roundDouble (add_le_add_left
      (roundDouble_le_roundDouble (mul_le_mul_of_nonneg_right hu hf)) 1)) hM₀
  refine ⟨roundDouble_nonneg hMb, roundDouble_le_roundDouble hmono, fun hm' => ?_⟩
  have hM := roundDouble_mem hm
  have hb := roundDouble_mem h1a
  have hc := roundDouble_mem hMb
  -- the rounded factor is within `3 · 2 ^ -53` of `1 ± f`, and at most `3`
  have hb₀ : 1 - f - 3 / 2 ^ 53 ≤ roundDouble (1 + a) := by
    linarith only [hb.1, ha₀, ha₁, hg.2, hg1, hf1]
  have hb₁ : roundDouble (1 + a) ≤ 1 + f + 3 / 2 ^ 53 := by
    linarith only [hb.2, ha₁, hg.2, hg1, hf1, hf]
  have hMb₃ := mul_le_mul_of_nonneg_left
    (show roundDouble (1 + a) ≤ 3 by linarith only [hb₁, hf1]) hM₀
  constructor
  · have h₁ := mul_le_mul_of_nonneg_left hb₀ hM₀
    have h₂ := mul_le_mul_of_nonneg_right hM.1 (show 0 ≤ 1 - f by linarith only [hf1])
    linarith only [hc.1, h₁, h₂, hMb₃, hM.2, hm', mul_nonneg hm hf, hm]
  · have h₁ := mul_le_mul_of_nonneg_left hb₁ hM₀
    have h₂ := mul_le_mul_of_nonneg_right hM.2 (show 0 ≤ 1 + f by linarith only [hf])
    linarith only [hc.2, h₁, h₂, hMb₃, hM.2, hm', mul_nonneg hm hf, hm, hf]

/-- The smeared product truncated: nonnegative, monotone in the draw, and within one unit of
the floors of the band's ends. -/
theorem truncToInt_smearedProduct_mem {m f rand rand' : ℚ} (hm : 0 ≤ m) (hf : 0 ≤ f)
    (hf1 : f ≤ 1) (h0 : 0 ≤ rand) (hr : rand ≤ rand') (h1 : rand' ≤ 1) :
    0 ≤ truncToInt (smearedProduct m f rand) ∧
      truncToInt (smearedProduct m f rand) ≤ truncToInt (smearedProduct m f rand') ∧
      (m ≤ 2 ^ 48 → ⌊m * (1 - f)⌋ - 1 ≤ truncToInt (smearedProduct m f rand) ∧
        truncToInt (smearedProduct m f rand) ≤ ⌊m * (1 + f)⌋ + 1) := by
  obtain ⟨hc, hmono, hband⟩ := smearedProduct_mem hm hf hf1 h0 hr h1
  refine ⟨truncToInt_nonneg hc, truncToInt_le_truncToInt hc hmono, fun hm' => ?_⟩
  obtain ⟨hlo, hhi⟩ := hband hm'
  rw [truncToInt_of_nonneg hc]
  constructor
  · rw [Int.le_floor]
    push_cast
    linarith only [Int.floor_le (m * (1 - f)), hlo]
  · rw [Int.floor_le_iff]
    push_cast
    linarith only [Int.lt_floor_add_one (m * (1 + f)), hhi]

/-! ## The smearer -/

/-- A `Smearer`, by its smear fraction, which the constructors keep in `(0, 1]`. -/
structure Smearer where
  smearFraction : ℚ
  smearFraction_pos : 0 < smearFraction
  smearFraction_le_one : smearFraction ≤ 1

namespace Smearer

/-- `kDefaultSmearPercent`. -/
def kDefaultSmearPercent : Int := 20

/-- `smear_percent / 100.0`: the percent made a double, divided by `100.0`. -/
def fractionOfPercent (smearPercent : Int) : ℚ :=
  roundDouble (roundDouble smearPercent / 100)

theorem fractionOfPercent_pos {smearPercent : Int} (h : 0 < smearPercent) :
    0 < fractionOfPercent smearPercent :=
  roundDouble_pos (div_pos (roundDouble_pos (by exact_mod_cast h)) (by norm_num))

theorem fractionOfPercent_le_one {smearPercent : Int} (h : smearPercent ≤ 100) :
    fractionOfPercent smearPercent ≤ 1 := by
  have : roundDouble smearPercent ≤ 100 :=
    (roundDouble_le_roundDouble (by exact_mod_cast h)).trans_eq roundDouble_hundred
  exact (roundDouble_le_roundDouble ((div_le_one (by norm_num)).2 this)).trans_eq roundDouble_one

theorem defaultFraction_pos : 0 < fractionOfPercent kDefaultSmearPercent :=
  fractionOfPercent_pos (by decide)

theorem defaultFraction_le_one : fractionOfPercent kDefaultSmearPercent ≤ 1 :=
  fractionOfPercent_le_one (by decide)

/-- `Smearer(random)`: `smear_fraction_(kDefaultSmearPercent / 100.0)`. -/
def default : Smearer :=
  ⟨fractionOfPercent kDefaultSmearPercent, defaultFraction_pos, defaultFraction_le_one⟩

/-- `Smearer(random, smear_percent)`: `none` when `CHECK((smear_percent > 0) &&
(smear_percent <= 100))` fails. -/
def new (smearPercent : Int) : Option Smearer :=
  if h : 0 < smearPercent ∧ smearPercent ≤ 100 then
    some ⟨fractionOfPercent smearPercent, fractionOfPercent_pos h.1, fractionOfPercent_le_one h.2⟩
  else none

/-- `GetSmearedDelay(delay)`, with `rand` the draw of `random_->RandDouble()`: the double
`delay.InMilliseconds() * (1.0 + smear_factor)` made the `int64` of `FromMilliseconds`. -/
def getSmearedDelay (s : Smearer) (delay : Int) (rand : ℚ) : Int :=
  let smearFactor := roundDouble (roundDouble (roundDouble (2 * rand) - 1) * s.smearFraction)
  fromMilliseconds (truncToInt
    (roundDouble (roundDouble (inMilliseconds delay) * roundDouble (1 + smearFactor))))

theorem getSmearedDelay_eq (s : Smearer) (delay : Int) (rand : ℚ) :
    s.getSmearedDelay delay rand =
      fromMilliseconds (truncToInt (smearedProduct (inMilliseconds delay) s.smearFraction rand)) :=
  rfl

/-- The smeared delay is nonnegative and monotone in the draw; for a delay of at most
`2 ^ 48` µs, it lies in the band of the delay's whole milliseconds up to one millisecond. -/
theorem getSmearedDelay_mem (s : Smearer) {delay : Int} {rand rand' : ℚ} (hd : 0 ≤ delay)
    (h0 : 0 ≤ rand) (hr : rand ≤ rand') (h1 : rand' ≤ 1) :
    0 ≤ s.getSmearedDelay delay rand ∧
      s.getSmearedDelay delay rand ≤ s.getSmearedDelay delay rand' ∧
      (delay ≤ 2 ^ 48 →
        fromMilliseconds (⌊(inMilliseconds delay : ℚ) * (1 - s.smearFraction)⌋ - 1) ≤
          s.getSmearedDelay delay rand ∧
        s.getSmearedDelay delay rand ≤
          fromMilliseconds (⌊(inMilliseconds delay : ℚ) * (1 + s.smearFraction)⌋ + 1)) := by
  obtain ⟨hms, hms'⟩ := inMilliseconds_mem hd
  obtain ⟨hc, hmono, hband⟩ := truncToInt_smearedProduct_mem (Int.cast_nonneg.2 hms)
    s.smearFraction_pos.le s.smearFraction_le_one h0 hr h1
  simp only [getSmearedDelay_eq, fromMilliseconds]
  refine ⟨by omega, by omega, fun hd' => ?_⟩
  obtain ⟨hlo, hhi⟩ := hband (by exact_mod_cast hms'.trans hd')
  omega

end Smearer

/-- `InvalidationClientImpl::SmearDelay(base_delay, smear_factor, random)` (`:433-444`), with
`rand` the draw of `random->RandDouble()`: `none` when a `CHECK` fails; otherwise the double
`base_delay.InMicroseconds() * (applied_smear + 1.0)`, `static_cast` to `int64`. -/
def smearDelay (baseDelay : Int) (smearFactor rand : ℚ) : Option Int :=
  if 0 ≤ smearFactor ∧ smearFactor ≤ 1 then
    let appliedSmear := roundDouble (smearFactor * roundDouble (roundDouble (2 * rand) - 1))
    some (truncToInt (roundDouble (roundDouble baseDelay * roundDouble (appliedSmear + 1))))
  else none

/-- `SmearDelay` computes the smeared product, its operands commuted. -/
theorem smearDelay_eq (baseDelay : Int) (smearFactor rand : ℚ) :
    smearDelay baseDelay smearFactor rand =
      if 0 ≤ smearFactor ∧ smearFactor ≤ 1 then
        some (truncToInt (smearedProduct baseDelay smearFactor rand))
      else none := by
  simp only [smearDelay, smearedProduct, mul_comm smearFactor, add_comm _ (1 : ℚ)]

/-- `SmearDelay` passes its `CHECK`s exactly for a factor in `[0, 1]`, and then smears a
nonnegative delay as the smearer does, in microseconds. -/
theorem smearDelay_mem {baseDelay : Int} {smearFactor rand rand' : ℚ} (hd : 0 ≤ baseDelay)
    (h0 : 0 ≤ rand) (hr : rand ≤ rand') (h1 : rand' ≤ 1) :
    ((∃ d, smearDelay baseDelay smearFactor rand = some d) ↔
      0 ≤ smearFactor ∧ smearFactor ≤ 1) ∧
    ∀ d d', smearDelay baseDelay smearFactor rand = some d →
      smearDelay baseDelay smearFactor rand' = some d' →
      0 ≤ d ∧ d ≤ d' ∧ (baseDelay ≤ 2 ^ 48 →
        ⌊(baseDelay : ℚ) * (1 - smearFactor)⌋ - 1 ≤ d ∧
          d ≤ ⌊(baseDelay : ℚ) * (1 + smearFactor)⌋ + 1) := by
  simp only [smearDelay_eq]
  split
  · rename_i hf
    obtain ⟨hc, hmono, hband⟩ := truncToInt_smearedProduct_mem (Int.cast_nonneg.2 hd) hf.1 hf.2
      h0 hr h1
    refine ⟨iff_of_true ⟨_, rfl⟩ hf, fun d d' hd₁ hd₂ => ?_⟩
    cases hd₁
    cases hd₂
    exact ⟨hc, hmono, fun hd' => hband (by exact_mod_cast hd')⟩
  · rename_i hf
    simp only [reduceCtorEq, exists_false, false_iff, false_imp_iff, implies_true, and_true]
    exact fun h => hf h

namespace OperationScheduler

/-- An event as the source makes it with `smearer`: `Schedule` hands the scheduler
`smearer_.GetSmearedDelay(op_info->delay)` for a draw in `[0, 1]`; `ChangeDelayForTest` is
given no negative delay. -/
def Event.SmearedBy (smearer : Smearer) (s : OperationScheduler) : Event → Prop
  | .schedule operation smearedDelay =>
    ∃ info rand, s.operations operation = some info ∧ 0 ≤ rand ∧ rand ≤ 1 ∧
      smearedDelay = smearer.getSmearedDelay info.delay rand
  | .changeDelayForTest _ delay => 0 ≤ delay
  | _ => True

/-- The states a run from the constructor reaches with each event made as `SmearedBy`
says. -/
inductive SmearedReachable (smearer : Smearer) : OperationScheduler → Prop
  | init : SmearedReachable smearer init
  | step {s s' : OperationScheduler} (e : Event) : SmearedReachable smearer s →
      e.SmearedBy smearer s → s.step e = some s' → SmearedReachable smearer s'

theorem SmearedReachable.reachable {smearer : Smearer} {s : OperationScheduler}
    (r : SmearedReachable smearer s) : s.Reachable := by
  induction r with
  | init => exact .init
  | step e _ _ h ih => exact .step e ih h

/-- Every operation's delay and every pending task's delay is nonnegative, the latter in
whole milliseconds. -/
structure DelaysNonneg (s : OperationScheduler) : Prop where
  operations : ∀ operation info, s.operations operation = some info → 0 ≤ info.delay
  pending : ∀ task ∈ s.pending, 0 ≤ task.delay ∧ 1000 ∣ task.delay

theorem delaysNonneg_update {s : OperationScheduler} (hs : s.DelaysNonneg) {operation : Closure}
    {o : Option OperationScheduleInfo} (ho : ∀ info ∈ o, 0 ≤ info.delay)
    (pending : List ScheduledTask) (hp : ∀ task ∈ pending, 0 ≤ task.delay ∧ 1000 ∣ task.delay) :
    DelaysNonneg ⟨Function.update s.operations operation o, pending⟩ := by
  refine ⟨fun op i hi => ?_, hp⟩
  by_cases h : op = operation
  · subst h
    simp only [Function.update_same] at hi
    exact ho i hi
  · simp only [Function.update_noteq h] at hi
    exact hs.operations op i hi

theorem delaysNonneg_step {smearer : Smearer} {s s' : OperationScheduler} {e : Event}
    (hs : s.DelaysNonneg) (he : e.SmearedBy smearer s) (h : s.step e = some s') :
    s'.DelaysNonneg := by
  cases e with
  | setOperation delay operation name =>
    obtain ⟨⟨-, hpos, -⟩, rfl⟩ := setOperation_spec h
    exact delaysNonneg_update hs (fun _ hi => by cases hi; exact hpos.le) _ hs.pending
  | changeDelayForTest operation delay =>
    obtain ⟨info, -, rfl⟩ := changeDelayForTest_spec h
    exact delaysNonneg_update hs (fun _ hi => by cases hi; exact he) _ hs.pending
  | schedule operation d =>
    obtain ⟨info, rand, hinfo, h0, h1, rfl⟩ := he
    obtain ⟨info', hinfo', ⟨-, rfl⟩ | ⟨-, rfl⟩⟩ := schedule_spec h
    · obtain rfl : info' = info := Option.some.inj (hinfo'.symm.trans hinfo)
      have hd := hs.operations _ _ hinfo
      refine delaysNonneg_update hs (fun _ hi => by cases hi; exact hd) _ fun task ht => ?_
      rcases List.mem_append.1 ht with ht | ht
      · exact hs.pending task ht
      · -- the task this call hands the scheduler
        obtain rfl := List.mem_singleton.1 ht
        exact ⟨(smearer.getSmearedDelay_mem hd h0 le_rfl h1).1, Dvd.intro _ rfl⟩
    · exact hs
  | run task =>
    obtain ⟨-, rfl⟩ := runAndClearScheduled_spec h
    refine delaysNonneg_update hs (fun i hi => ?_) _ fun t ht => hs.pending t (List.mem_of_mem_erase ht)
    obtain ⟨i', hi', rfl⟩ := Option.map_eq_some'.1 hi
    exact hs.operations _ i' hi'

end OperationScheduler

end CacheInvalidation
