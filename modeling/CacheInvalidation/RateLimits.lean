import CacheInvalidation.Throttle
import Mathlib.Data.List.Sort

/-!
# The throttle keeps every rate limit

For limits `(wᵢ, cᵢ)` with `cᵢ ≥ 1`, the times `t₁ ≤ t₂ ≤ …` at which the throttle calls its
listener satisfy `t_j − t_{j−cᵢ} ≥ wᵢ` (`Spaced`), so every half-open interval of length
`wᵢ` holds at most `cᵢ` calls (`count_window_le`). This holds although the buffer keeps
only the last `max cᵢ` times and drops those older than the largest window.

`WindowInv` is the reason. The buffer is the tail of the calls, and the calls before it
were either pushed out by `max cᵢ` newer ones, so the buffer is full, or are older than the
largest window (`suffix_recentWithin`). Then when `Fire()` finds no broken limit, the
`cᵢ`-th newest call is either in the buffer, where the check read it, or older than the
largest window (`new_call_spaced`). `throttle_respects_rate_limits` is the result over
every run.
-/

namespace CacheInvalidation

/-- The `j`-th call comes at least `windowSize` after the `(j − count)`-th, for each limit. -/
def Spaced (rateLimits : List RateLimit) (calls : List Int) : Prop :=
  ∀ l ∈ rateLimits, ∀ j a b, l.count ≤ j → calls[j]? = some a → calls[j - l.count]? = some b →
    l.windowSize ≤ a - b

/-- The calls before the buffer: none, or the buffer is full, or all are older than the
largest window at `now`. -/
def Dropped (rateLimits : List RateLimit) (now : Int) (pre recent : List Int) : Prop :=
  pre = [] ∨ maxCount rateLimits ≤ recent.length ∨
    ∀ x ∈ pre, x + largestWindow rateLimits < now

/-- What every reachable run of a throttle for `rateLimits` satisfies. -/
structure WindowInv (rateLimits : List RateLimit) (r : ThrottleRun) : Prop where
  limits : r.throttle.rateLimits = rateLimits
  buffer : r.throttle.maxRecentEvents = maxCount rateLimits
  sorted : r.calls.Pairwise (· ≤ ·)
  le_now : ∀ c ∈ r.calls, c ≤ r.now
  suffix : ∃ pre, r.calls = pre ++ r.throttle.recentEventTimes ∧
    Dropped rateLimits r.now pre r.throttle.recentEventTimes
  spaced : Spaced rateLimits r.calls

/-! ## Step 1 of `Fire()` keeps the buffer a tail -/

theorem Dropped.mono {rateLimits : List RateLimit} {now now' : Int} {pre recent : List Int}
    (h : Dropped rateLimits now pre recent) (hle : now ≤ now') :
    Dropped rateLimits now' pre recent := by
  rcases h with h | h | h
  · exact .inl h
  · exact .inr (.inl h)
  · exact .inr (.inr fun x hx => lt_of_lt_of_le (h x hx) hle)

/-- Dropping the old times from the front of the buffer keeps it a tail of the calls. -/
theorem suffix_recentWithin {t : Throttle} {now : Int} {pre : List Int}
    (hs : (pre ++ t.recentEventTimes).Pairwise (· ≤ ·))
    (hd : Dropped t.rateLimits now pre t.recentEventTimes) :
    ∃ pre₁, pre ++ t.recentEventTimes = pre₁ ++ t.recentWithin now ∧
      Dropped t.rateLimits now pre₁ (t.recentWithin now) := by
  have hsplit := List.takeWhile_append_dropWhile (t.olderThanWindow now) t.recentEventTimes
  refine ⟨pre ++ t.recentEventTimes.takeWhile (t.olderThanWindow now), ?_, ?_⟩
  · rw [List.append_assoc]
    exact congrArg (pre ++ ·) hsplit.symm
  cases hw : t.recentEventTimes.takeWhile (t.olderThanWindow now) with
  | nil =>
    rw [hw, List.nil_append] at hsplit
    rw [Throttle.recentWithin, hsplit, List.append_nil]
    exact hd
  | cons d ds =>
    have hmem : d ∈ t.recentEventTimes.takeWhile (t.olderThanWindow now) :=
      hw ▸ List.mem_cons_self d ds
    have hdold : d + largestWindow t.rateLimits < now := by
      simpa using List.mem_takeWhile_imp hmem
    have hdm : d ∈ t.recentEventTimes := hsplit ▸ List.mem_append_left _ hmem
    refine .inr (.inr fun x hx => ?_)
    rcases List.mem_append.1 hx with hx | hx
    · have hxd : x ≤ d := (List.pairwise_append.1 hs).2.2 x hx d hdm
      omega
    · have hx' : x ∈ t.recentEventTimes.takeWhile (t.olderThanWindow now) := hw ▸ hx
      simpa using List.mem_takeWhile_imp hx'

/-- Trimming the buffer to its last `maxCount` times after a new call keeps the calls before
it accounted for: if anything is pushed out, the buffer is full. -/
theorem dropped_keepLast {rateLimits : List RateLimit} {now : Int} {pre recent : List Int}
    (h : Dropped rateLimits now pre recent) :
    Dropped rateLimits now
      (pre ++ (recent ++ [now]).take ((recent ++ [now]).length - maxCount rateLimits))
      (Throttle.keepLast (maxCount rateLimits) (recent ++ [now])) := by
  unfold Throttle.keepLast
  by_cases hk : (recent ++ [now]).length ≤ maxCount rateLimits
  · rw [Nat.sub_eq_zero_of_le hk, List.take_zero, List.append_nil, List.drop_zero]
    rcases h with h | h | h
    · exact .inl h
    · exact .inr (.inl (by simp; omega))
    · exact .inr (.inr h)
  · exact .inr (.inl (by simp at hk ⊢; omega))

/-- When step 2 of `Fire()` finds no broken limit, the `count`-th newest call is at least
`windowSize` before `now`: it is either in the buffer, where the check read it, or it left the
buffer as older than the largest window. -/
theorem new_call_spaced {t : Throttle} {now : Int} {pre : List Int} {l : RateLimit}
    (hl : l ∈ t.rateLimits)
    (hd : Dropped t.rateLimits now pre (t.recentWithin now))
    (hnone : t.rateLimits.filterMap (Throttle.windowEnd (t.recentWithin now) now) = [])
    {b : Int} (hle : l.count ≤ (pre ++ t.recentWithin now).length)
    (hb : (pre ++ t.recentWithin now)[(pre ++ t.recentWithin now).length - l.count]? = some b) :
    l.windowSize ≤ now - b := by
  set R := t.recentWithin now
  have hw : Throttle.windowEnd R now l = none := List.filterMap_eq_nil_iff.1 hnone l hl
  rw [List.length_append] at hb hle
  by_cases hR : l.count ≤ R.length
  · rw [List.getElem?_append_right (by omega),
      show pre.length + R.length - l.count - pre.length = R.length - l.count by omega] at hb
    simp only [Throttle.windowEnd, if_pos hR, hb] at hw
    split at hw
    · cases hw
    · omega
  · rw [List.getElem?_append_left (by omega)] at hb
    have hbpre : b ∈ pre := List.getElem?_mem hb
    rcases hd with rfl | hfull | hold
    · simp at hb
    · have := count_le_maxCount hl
      omega
    · have := hold b hbpre
      have := windowSize_le_largestWindow hl
      omega

/-- A call at `now` after calls spaced for every limit, with the `count`-th newest at least
`windowSize` before it, keeps them spaced. -/
theorem spaced_snoc {rateLimits : List RateLimit} {calls : List Int} {now : Int}
    (hs : Spaced rateLimits calls)
    (hnew : ∀ l ∈ rateLimits, ∀ b, l.count ≤ calls.length →
      calls[calls.length - l.count]? = some b → l.windowSize ≤ now - b)
    (hc : ∀ l ∈ rateLimits, 1 ≤ l.count) :
    Spaced rateLimits (calls ++ [now]) := by
  intro l hl j a b hj ha hb
  rcases Nat.lt_or_ge j calls.length with hlt | hge
  · rw [List.getElem?_append_left hlt] at ha
    rw [List.getElem?_append_left (by omega)] at hb
    exact hs l hl j a b hj ha hb
  · have hj' : j = calls.length := by
      have := (List.getElem?_eq_some_iff.1 ha).1
      simp at this; omega
    subst hj'
    rw [List.getElem?_append_right le_rfl] at ha
    have hc1 := hc l hl
    rw [List.getElem?_append_left (by omega)] at hb
    simp at ha
    subst ha
    exact hnew l hl b hj hb

/-! ## Every run keeps the invariant -/

theorem windowInv_init (rateLimits : List RateLimit) (start : Int) :
    WindowInv rateLimits (ThrottleRun.init rateLimits start) where
  limits := rfl
  buffer := rfl
  sorted := List.Pairwise.nil
  le_now := by simp [ThrottleRun.init]
  suffix := ⟨[], rfl, .inl rfl⟩
  spaced := by intro l _ j a b _ ha; simp [ThrottleRun.init] at ha

/-- One `Fire()` of a throttle with the run's buffer and limits, recorded in a run with the
same calls and clock, keeps the invariant. -/
theorem windowInv_fire {rateLimits : List RateLimit} {r r₀ : ThrottleRun} {t : Throttle}
    (hc : ∀ l ∈ rateLimits, 1 ≤ l.count) (hinv : WindowInv rateLimits r)
    (hrecent : t.recentEventTimes = r.throttle.recentEventTimes)
    (hlimits : t.rateLimits = r.throttle.rateLimits)
    (hmax : t.maxRecentEvents = r.throttle.maxRecentEvents)
    (hcalls : r₀.calls = r.calls) (hnow : r₀.now = r.now) :
    WindowInv rateLimits (r₀.record (t.fire r.now).1 (t.fire r.now).2) := by
  have hl : t.rateLimits = rateLimits := hlimits.trans hinv.limits
  have hK : t.maxRecentEvents = maxCount rateLimits := hmax.trans hinv.buffer
  obtain ⟨pre, hpre, hd⟩ := hinv.suffix
  rw [← hrecent, ← hl] at hd
  rw [← hrecent] at hpre
  obtain ⟨pre₁, hsplit, hd₁⟩ := suffix_recentWithin (hpre ▸ hinv.sorted) hd
  have hcalls₁ : r.calls = pre₁ ++ t.recentWithin r.now := hpre.trans hsplit
  rcases Throttle.fire_cases t r.now with ⟨hnone, hf⟩ | ⟨_, d, hf⟩ | ⟨_, hf⟩ <;>
    rw [hf] <;> simp only [ThrottleRun.record, hcalls, hnow]
  · refine ⟨hl, hK, ?_, ?_, ?_, ?_⟩
    · refine List.pairwise_append.2 ⟨hinv.sorted, List.pairwise_singleton _ _, ?_⟩
      intro a ha b hb
      rw [List.mem_singleton.1 hb]
      exact hinv.le_now a ha
    · intro c hc'
      rcases List.mem_append.1 hc' with hc' | hc'
      · exact hinv.le_now c hc'
      · rw [List.mem_singleton.1 hc']
    · refine ⟨pre₁ ++ (t.recentWithin r.now ++ [r.now]).take
        ((t.recentWithin r.now ++ [r.now]).length - maxCount rateLimits), ?_, ?_⟩
      · rw [hcalls₁, hK, Throttle.keepLast, List.append_assoc, List.append_assoc,
          List.take_append_drop]
      · rw [hK]
        exact dropped_keepLast (hl ▸ hd₁)
    · refine spaced_snoc hinv.spaced (fun l hl' b hle hb => ?_) hc
      rw [hcalls₁] at hle hb
      exact new_call_spaced (hl ▸ hl') hd₁ hnone hle hb
  all_goals
    exact ⟨hl, hK, hinv.sorted, hinv.le_now, ⟨pre₁, hcalls₁, hl ▸ hd₁⟩, hinv.spaced⟩

theorem windowInv_step {rateLimits : List RateLimit} {r r' : ThrottleRun}
    {e : ThrottleRun.Event} (hc : ∀ l ∈ rateLimits, 1 ≤ l.count)
    (hinv : WindowInv rateLimits r) (h : r.step e = some r') : WindowInv rateLimits r' := by
  cases e with
  | advance dt =>
    cases h
    obtain ⟨pre, hpre, hd⟩ := hinv.suffix
    have hle : r.now ≤ r.now + dt := by omega
    exact ⟨hinv.limits, hinv.buffer, hinv.sorted, fun c hc' => (hinv.le_now c hc').trans hle,
      ⟨pre, hpre, hd.mono hle⟩, hinv.spaced⟩
  | fire =>
    obtain ⟨r₀, t, hcalls, hnow, h1, h2, h3, rfl⟩ := ThrottleRun.step_record (.inl rfl) h
    exact windowInv_fire hc hinv h1 h2 h3 hcalls hnow
  | retry due =>
    obtain ⟨r₀, t, hcalls, hnow, h1, h2, h3, rfl⟩ := ThrottleRun.step_record (.inr ⟨due, rfl⟩) h
    exact windowInv_fire hc hinv h1 h2 h3 hcalls hnow

theorem ThrottleRun.Reachable.windowInv {rateLimits : List RateLimit} {start : Int}
    {r : ThrottleRun} (hc : ∀ l ∈ rateLimits, 1 ≤ l.count) (h : r.Reachable rateLimits start) :
    WindowInv rateLimits r := by
  induction h with
  | init => exact windowInv_init rateLimits start
  | step e _ h ih => exact windowInv_step hc ih h

/-! ## From spacing to windows -/

/-- Sorted call times with the `count`-th previous call at least `w` earlier put at most
`count` calls in any half-open interval `[s, s + w)`. From the first call in the interval
on, every call `count` places later is at least `w` after it. -/
theorem count_window_le {w : Int} {c : Nat} :
    ∀ {calls : List Int}, calls.Pairwise (· ≤ ·) →
      (∀ j a b, c ≤ j → calls[j]? = some a → calls[j - c]? = some b → w ≤ a - b) →
      ∀ s, (calls.filter (fun t => s ≤ t ∧ t < s + w)).length ≤ c
  | [], _, _, s => by simp
  | x :: xs, hs, hsp, s => by
    by_cases hx : s ≤ x
    · have hlate : ((x :: xs).drop c).filter (fun t => s ≤ t ∧ t < s + w) = [] := by
        refine List.filter_eq_nil_iff.2 fun y hy => ?_
        obtain ⟨i, hi⟩ := List.mem_iff_getElem?.1 hy
        rw [List.getElem?_drop] at hi
        have hlen := (List.getElem?_eq_some_iff.1 hi).1
        obtain ⟨b, hb⟩ : ∃ b, (x :: xs)[i]? = some b :=
          ⟨_, (List.getElem?_eq_some_iff.2 ⟨by omega, rfl⟩)⟩
        have hgap := hsp (c + i) y b (by omega) hi (by simpa using hb)
        have hxb : x ≤ b := by
          rcases List.mem_cons.1 (List.getElem?_mem hb) with rfl | hb'
          · exact le_rfl
          · exact List.rel_of_pairwise_cons hs hb'
        simp only [decide_eq_true_eq, not_and, not_lt]
        omega
      calc ((x :: xs).filter (fun t => s ≤ t ∧ t < s + w)).length
          = (((x :: xs).take c).filter (fun t => s ≤ t ∧ t < s + w)).length := by
            rw [← List.take_append_drop c (x :: xs), List.filter_append, hlate, List.append_nil,
              List.take_append_drop]
        _ ≤ ((x :: xs).take c).length := List.length_filter_le _ _
        _ ≤ c := List.length_take_le _ _
    · rw [List.filter_cons_of_neg (by simp only [decide_eq_true_eq]; omega)]
      refine count_window_le (List.pairwise_cons.1 hs).2 (fun j a b hj ha hb => ?_) s
      exact hsp (j + 1) a b (by omega) (by simpa using ha)
        (by rw [show j + 1 - c = (j - c) + 1 by omega]; simpa using hb)

/-- For limits with counts of at least one, in every run of the throttle the listener's call
times are sorted, the `j`-th call is at least `windowSize` after the `(j − count)`-th, and so
every half-open interval of length `windowSize` holds at most `count` calls. -/
theorem throttle_respects_rate_limits {rateLimits : List RateLimit} {start : Int}
    {r : ThrottleRun} (hc : ∀ l ∈ rateLimits, 1 ≤ l.count)
    (h : r.Reachable rateLimits start) :
    r.calls.Sorted (· ≤ ·) ∧
    (∀ l ∈ rateLimits, ∀ j a b, l.count ≤ j → r.calls[j]? = some a →
      r.calls[j - l.count]? = some b → l.windowSize ≤ a - b) ∧
    ∀ l ∈ rateLimits, ∀ s : Int,
      (r.calls.filter (fun t => s ≤ t ∧ t < s + l.windowSize)).length ≤ l.count := by
  have hinv := h.windowInv hc
  exact ⟨hinv.sorted, hinv.spaced,
    fun l hl s => count_window_le hinv.sorted (hinv.spaced l hl) s⟩

/-- One call a second and six a minute, after a call at `0` and a deferred `Fire()` half a
second later. -/
theorem throttle_respects_rate_limits_deferred :
    let r : ThrottleRun := ⟨⟨[⟨1000000, 1⟩, ⟨60000000, 6⟩], true, [0], 6⟩, 500000, [1000000], [0]⟩
    let rateLimits : List RateLimit := [⟨1000000, 1⟩, ⟨60000000, 6⟩]
    (∀ l ∈ rateLimits, 1 ≤ l.count) ∧ r.calls.Sorted (· ≤ ·) ∧
    (∀ l ∈ rateLimits, ∀ j a b, l.count ≤ j → r.calls[j]? = some a →
      r.calls[j - l.count]? = some b → l.windowSize ≤ a - b) ∧
    ∀ l ∈ rateLimits, ∀ s : Int,
      (r.calls.filter (fun t => s ≤ t ∧ t < s + l.windowSize)).length ≤ l.count :=
  have hc : ∀ l ∈ [(⟨1000000, 1⟩ : RateLimit), ⟨60000000, 6⟩], 1 ≤ l.count := by decide
  ⟨hc, throttle_respects_rate_limits hc
    (@ThrottleRun.Reachable.step _ 0 _ _ .fire
      (.step (.advance 500000) (.step .fire .init rfl) rfl) rfl)⟩

end CacheInvalidation
