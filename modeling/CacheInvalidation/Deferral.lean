import CacheInvalidation.Outbound

/-!
# A deferred fire is retried when the limits first allow

When `Fire()` finds a limit broken it defers to `t*`, the latest instant at which a broken
limit's window ends (§4.3). `t*` is exact: from the deferral on, a `Fire()` would find some
limit broken at every instant before `t*` and none from `t*` on (`deferral_exact`). While
the retry waits, the buffer is only trimmed, unless the listener is called, and trimming
changes no verdict (`broken_trim`).

`RetryDue` says this of every pending retry until the listener is called again, and holds
in every reachable state (`retryDue_step`). So the scheduler that runs the retry at its due
time, as `ScheduleWithDelay` does, has it call the listener then, and not a moment
earlier (`retry_fires_when_due`). `client_retry_fires_when_due` is the same for the client:
the `RetryFire` task its throttle schedules, at the due time the client's scheduler keeps
for it, makes the outbound listener's call.

The buffer is an optimisation: it holds the last `max cᵢ` calls, trimmed of those older than
the largest window. A limit it finds broken is broken over the full history of calls
(`wouldViolate_of_broken`), and one it finds kept is kept (`not_wouldViolate_of_not_broken`).
So `Fire()` keeps the contract `throttle.h` states: it calls the listener exactly when one
more call breaks no window of any limit (`WouldViolate`), and otherwise defers or drops
(`throttle_fire_keeps_contract`).
-/

namespace CacheInvalidation

namespace Throttle

/-- Some limit is broken at `now`, after step 1 of `Fire()`: step 2 finds an instant to
defer to. -/
def Broken (t : Throttle) (now : Int) : Prop :=
  t.rateLimits.filterMap (windowEnd (t.recentWithin now) now) ≠ []

instance (t : Throttle) (now : Int) : Decidable (t.Broken now) :=
  inferInstanceAs (Decidable (_ ≠ []))

/-! ## Reading the buffer -/

/-- A suffix of the buffer that holds the `count`-th newest time reads the same one. -/
theorem getElem?_sub_of_suffix {R R' : List Int} (hs : R' <:+ R) {n : Nat} (hn : n ≤ R'.length) :
    R'[R'.length - n]? = R[R.length - n]? := by
  obtain ⟨P, rfl⟩ := hs
  rw [List.length_append, List.getElem?_append_right (by omega)]
  congr 1
  omega

theorem windowEnd_eq_some {R : List Int} {now e : Int} {l : RateLimit} :
    windowEnd R now l = some e ↔ ∃ s, l.count ≤ R.length ∧ R[R.length - l.count]? = some s ∧
      now - s < l.windowSize ∧ e = s + l.windowSize := by
  unfold windowEnd
  split
  · cases R[R.length - l.count]? with
    | none => simp
    | some s => by_cases hw : now - s < l.windowSize <;> simp [hw, *, eq_comm]
  · simp [*]

/-- Dropping a prefix by `q` and then by a weaker `p` is dropping it by `p`. -/
theorem dropWhile_dropWhile_of_imp {p q : Int → Bool} (h : ∀ a, q a → p a) :
    ∀ l : List Int, (l.dropWhile q).dropWhile p = l.dropWhile p
  | [] => rfl
  | a :: l => by
    by_cases ha : q a
    · rw [List.dropWhile_cons_of_pos ha, dropWhile_dropWhile_of_imp h l,
        List.dropWhile_cons_of_pos (h a ha)]
    · rw [List.dropWhile_cons_of_neg ha]

/-- Trimming the buffer at `c` and then at a later `T` is trimming it at `T`. -/
theorem recentWithin_trim {t : Throttle} {c T : Int} (hc : c ≤ T) (flag : Bool) :
    ({ t with recentEventTimes := t.recentWithin c, timerScheduled := flag } : Throttle).recentWithin T =
      t.recentWithin T :=
  dropWhile_dropWhile_of_imp (fun a ha => by simp only [olderThanWindow_iff] at ha ⊢; omega) _

/-- Trimming leaves every verdict from then on as it was. -/
theorem broken_trim {t : Throttle} {c T : Int} (hc : c ≤ T) (flag : Bool) :
    ({ t with recentEventTimes := t.recentWithin c, timerScheduled := flag } : Throttle).Broken T ↔
      t.Broken T := by
  unfold Broken
  rw [recentWithin_trim hc flag]

/-- A time the trimming keeps, with the `n` times after it, leaves at least `n + 1`. -/
theorem length_dropWhile_ge {p : Int → Bool} :
    ∀ {l : List Int} {i : Nat} (hi : i < l.length), p (l.get ⟨i, hi⟩) = false →
      l.length - i ≤ (l.dropWhile p).length
  | [], _, hi, _ => absurd hi (Nat.not_lt_zero _)
  | a :: l, 0, _, hp => by
    simp only [List.get_eq_getElem, List.getElem_cons_zero] at hp
    simp [List.dropWhile_cons_of_neg (by simpa using hp)]
  | a :: l, i + 1, hi, hp => by
    have ih := length_dropWhile_ge (l := l) (i := i) (by simpa using hi) (by simpa using hp)
    by_cases ha : p a
    · rw [List.dropWhile_cons_of_pos ha]
      simp only [List.length_cons]
      omega
    · rw [List.dropWhile_cons_of_neg ha]
      simp only [List.length_cons]
      omega

/-! ## The deferral is exact -/

/-- `t*` is the earliest instant from `now` on at which no limit is broken, over any trimming
of the buffer that keeps what the limits' windows still see. -/
theorem deferral_exact {limits : List RateLimit} {R : List Int} {now tStar T : Int}
    (hmax : (limits.filterMap (windowEnd R now)).max? = some tStar) (hT : now ≤ T)
    (p : Int → Bool) (hp : ∀ l ∈ limits, ∀ e, T < e + l.windowSize → p e = false) :
    T < tStar ↔ limits.filterMap (windowEnd (R.dropWhile p) T) ≠ [] := by
  have hsuf := List.dropWhile_suffix p (l := R)
  constructor
  · -- the limit whose window ends at `t*` is still broken at `T`
    intro hlt
    obtain ⟨l, hl, hw⟩ := List.mem_filterMap.1 (List.max?_mem (fun a b => by rw [Int.max_def]; split <;> simp) hmax)
    obtain ⟨s, hcount, hs, -, rfl⟩ := windowEnd_eq_some.1 hw
    have hkeep : l.count ≤ (R.dropWhile p).length := by
      obtain ⟨hi, hs'⟩ := List.getElem?_eq_some_iff.1 hs
      have := length_dropWhile_ge (p := p) hi (by rw [List.get_eq_getElem, hs']; exact hp l hl s hlt)
      omega
    refine List.ne_nil_of_mem (List.mem_filterMap.2 ⟨l, hl, windowEnd_eq_some.2
      ⟨s, hkeep, (getElem?_sub_of_suffix hsuf hkeep).trans hs, by omega, rfl⟩⟩)
  · -- a limit broken at `T` was broken at `now` too, with its window ending by `t*`
    intro hne
    obtain ⟨e, he⟩ := List.exists_mem_of_ne_nil _ hne
    obtain ⟨l, hl, hw⟩ := List.mem_filterMap.1 he
    obtain ⟨s, hcount, hs, hlt, rfl⟩ := windowEnd_eq_some.1 hw
    rw [getElem?_sub_of_suffix hsuf hcount] at hs
    have hbroken : now - s < l.windowSize := by omega
    have hle : s + l.windowSize ≤ tStar :=
      (List.max?_le_iff (fun _ _ _ => Int.max_le) hmax).1 le_rfl _ (List.mem_filterMap.2
        ⟨l, hl, windowEnd_eq_some.2 ⟨s, hcount.trans hsuf.length_le, hs, hbroken, rfl⟩⟩)
    omega

/-- The throttle a deferral leaves finds a limit broken exactly before the instant it
defers to. -/
theorem fire_deferred_due {t : Throttle} {now d : Int} (h : (t.fire now).2 = .deferred d) :
    ∀ T, now ≤ T → (T < now + d ↔ (t.fire now).1.Broken T) := by
  intro T hT
  cases hmax : (t.rateLimits.filterMap (windowEnd (t.recentWithin now) now)).max? with
  | none => simp [fire, hmax] at h
  | some tStar =>
    cases hf : t.timerScheduled
    · simp only [fire, hmax, hf, Bool.not_false, ite_true, FireOutcome.deferred.injEq] at h ⊢
      rw [show now + d = tStar by omega]
      exact deferral_exact hmax hT _ fun l hl e he => by
        simpa [olderThanWindow] using (show ¬ e + largestWindow t.rateLimits < T by
          have := windowSize_le_largestWindow hl; omega)
    · simp [fire, hmax, hf] at h

/-- A `Fire()` that finds no limit broken calls the listener. -/
theorem fire_of_not_broken {t : Throttle} {now : Int} (h : ¬ t.Broken now) :
    (t.fire now).2 = .invoked := by
  simp only [Broken, not_not] at h
  simp [fire, h]

/-- `Fire()` calls the listener exactly when it finds no limit broken. -/
theorem fire_invoked_iff {t : Throttle} {now : Int} :
    (t.fire now).2 = .invoked ↔ ¬ t.Broken now := by
  refine ⟨fun h hb => ?_, fire_of_not_broken⟩
  cases hmax : (t.rateLimits.filterMap (windowEnd (t.recentWithin now) now)).max? with
  | none => exact hb (List.max?_eq_none_iff.1 hmax)
  | some tStar => cases hf : t.timerScheduled <;> simp [fire, hmax, hf] at h

end Throttle

/-- What `throttle.h` says `Fire()` must not do, in its own words: calling the listener at
`now`, after the calls so far, would put more than `count` calls in some window of
`windowSize` of one of the limits. -/
def WouldViolate (rateLimits : List RateLimit) (calls : List Int) (now : Int) : Prop :=
  ∃ l ∈ rateLimits, ∃ t : Int,
    l.count < ((calls ++ [now]).filter fun c => t ≤ c ∧ c < t + l.windowSize).length

namespace ThrottleRun

/-- Every pending retry falls due exactly when the limits first allow a call, from now on,
as long as the listener has not been called since it fell due. -/
def RetryDue (r : ThrottleRun) : Prop :=
  ∀ due ∈ r.retries, (∀ c ∈ r.calls, c < due) →
    ∀ T, r.now ≤ T → (T < due ↔ r.throttle.Broken T)

/-- Recording a `Fire()` where no retry was pending. -/
theorem retryDue_record_of_nil (r₀ : ThrottleRun) (t : Throttle) (hr₀ : r₀.retries = []) :
    (r₀.record (t.fire r₀.now).1 (t.fire r₀.now).2).RetryDue := by
  intro due hdue _ T hT
  cases ho : (t.fire r₀.now).2 with
  | deferred d =>
    simp only [ho, record, hr₀, List.nil_append, List.mem_singleton] at hdue hT
    subst hdue
    exact Throttle.fire_deferred_due ho T hT
  | _ => simp [ho, record, hr₀] at hdue

theorem retryDue_step {r r' : ThrottleRun} {e : Event} (ht : r.TimerTracked) (hr : r.RetryDue)
    (h : r.step e = some r') : r'.RetryDue := by
  cases e with
  | advance dt =>
    cases h
    exact fun due hdue hq T hT => hr due hdue hq T (by simp only at hT; omega)
  | fire =>
    cases h
    rcases Throttle.fire_cases r.throttle r.now with ⟨hnone, hf⟩ | ⟨h0, d, -⟩ | ⟨-, hf⟩
    · -- a call now: a pending retry would have found a limit broken
      rw [hf]
      intro due hdue hq
      have hlt : r.now < due := hq r.now (by simp [record])
      have hb := (hr due hdue (fun c hc => hq c (by simp [record, hc])) r.now le_rfl).1 hlt
      exact absurd hnone hb
    · -- a deferral: no retry was pending
      have hnil : r.retries = [] := List.eq_nil_of_length_eq_zero (by simpa [TimerTracked, h0] using ht)
      exact retryDue_record_of_nil r r.throttle hnil
    · -- a drop: the buffer is only trimmed
      rw [hf]
      intro due hdue hq T hT
      rw [hr due hdue hq T hT]
      exact (Throttle.broken_trim hT _).symm
  | retry due₀ =>
    simp only [step] at h
    split at h
    · cases h
      -- at most one retry was pending: this one
      have hnil : r.retries.erase due₀ = [] := by
        apply List.eq_nil_of_length_eq_zero
        rw [List.length_erase_of_mem ‹_›]
        have := ht.flag_iff.2
        omega
      exact retryDue_record_of_nil { r with retries := r.retries.erase due₀ } _ hnil
    · cases h

theorem Reachable.retryDue {rateLimits : List RateLimit} {start : Int} {r : ThrottleRun}
    (h : r.Reachable rateLimits start) : r.RetryDue := by
  induction h with
  | init => intro _ h; cases h
  | step e hr hs ih => exact retryDue_step hr.timerTracked ih hs

/-- A deferred `Fire()` is retried when the limits first allow a call. In every reachable
state, for a pending retry, as long as the listener has not been called since it fell due:
at every time from now on, some limit is broken exactly before the retry's due time; so the
scheduler running it at or after its due time has it call the listener. -/
theorem retry_fires_when_due {rateLimits : List RateLimit} {start : Int} {r : ThrottleRun}
    (h : r.Reachable rateLimits start) {due : Int} (hdue : due ∈ r.retries)
    (hquiet : ∀ c ∈ r.calls, c < due) :
    (∀ T, r.now ≤ T → (T < due ↔ r.throttle.Broken T)) ∧
    (due ≤ r.now → ∃ r', r.step (.retry due) = some r' ∧ r'.calls = r.calls ++ [r.now]) := by
  have hd := h.retryDue due hdue hquiet
  refine ⟨hd, fun hle => ?_⟩
  have hnb : ¬ r.throttle.Broken r.now := fun hb => absurd ((hd r.now le_rfl).2 hb) (by omega)
  have hinv : (r.throttle.retryFire r.now).2 = .invoked :=
    Throttle.fire_of_not_broken (t := { r.throttle with timerScheduled := false }) hnb
  refine ⟨_, by rw [step, if_pos hdue], ?_⟩
  rw [hinv]
  rfl

/-! ## `Fire()` keeps its contract -/

/-- A limit the trimmed buffer finds broken is really broken: the `count` newest calls and a
new one would all fall in the window that starts at the `count`-th newest. -/
theorem wouldViolate_of_broken {rateLimits : List RateLimit} {r : ThrottleRun} {T : Int}
    (hinv : WindowInv rateLimits r) (hT : r.now ≤ T) (hb : r.throttle.Broken T) :
    WouldViolate rateLimits r.calls T := by
  obtain ⟨e, he⟩ := List.exists_mem_of_ne_nil _ hb
  obtain ⟨l, hl, hw⟩ := List.mem_filterMap.1 he
  obtain ⟨s, hcount, hs, hlt, -⟩ := Throttle.windowEnd_eq_some.1 hw
  -- the trimmed buffer is a tail of the calls
  obtain ⟨pre, hpre, -⟩ := hinv.suffix
  have hsuf : r.throttle.recentWithin T <:+ r.calls :=
    hpre ▸ (List.dropWhile_suffix _).trans (List.suffix_append _ _)
  rw [Throttle.getElem?_sub_of_suffix hsuf hcount] at hs
  have hlen := hcount.trans hsuf.length_le
  obtain ⟨hi, rfl⟩ := List.getElem?_eq_some_iff.1 hs
  -- the `count` newest calls run from `s` to `now`
  set newest := r.calls.drop (r.calls.length - l.count)
  have hnewest : newest = r.calls[r.calls.length - l.count] ::
      r.calls.drop (r.calls.length - l.count + 1) := (List.getElem_cons_drop _ _ hi).symm
  have hsorted : newest.Pairwise (· ≤ ·) := hinv.sorted.sublist (List.drop_sublist _ _)
  rw [hnewest] at hsorted
  have hs_le : r.calls[r.calls.length - l.count] ≤ T :=
    (hinv.le_now _ (List.getElem_mem _)).trans hT
  have hin : ∀ c ∈ newest ++ [T], r.calls[r.calls.length - l.count] ≤ c ∧
      c < r.calls[r.calls.length - l.count] + l.windowSize := by
    intro c hc
    rcases List.mem_append.1 hc with hc | hc
    · have hcT : c ≤ T := (hinv.le_now c ((List.drop_sublist _ _).subset hc)).trans hT
      rw [hnewest] at hc
      rcases List.mem_cons.1 hc with rfl | hc
      · omega
      · have := List.rel_of_pairwise_cons hsorted hc
        omega
    · rw [List.mem_singleton.1 hc]
      omega
  refine ⟨l, hinv.limits ▸ hl, r.calls[r.calls.length - l.count], ?_⟩
  calc l.count < (newest ++ [T]).length := by simp [newest]; omega
    _ = ((newest ++ [T]).filter fun c => r.calls[r.calls.length - l.count] ≤ c ∧
          c < r.calls[r.calls.length - l.count] + l.windowSize).length := by
        rw [List.filter_eq_self.2 fun c hc => by simpa using hin c hc]
    _ ≤ _ := (((List.drop_sublist _ _).append_right [T]).filter _).length_le

/-- With no limit broken, a call at `T` is recorded and the run goes on, keeping every
window within its count. -/
theorem not_wouldViolate_of_not_broken {rateLimits : List RateLimit} {start : Int}
    {r : ThrottleRun} {T : Int} (hc : ∀ l ∈ rateLimits, 1 ≤ l.count)
    (hr : r.Reachable rateLimits start) (hT : r.now ≤ T) (hnb : ¬ r.throttle.Broken T) :
    ¬ WouldViolate rateLimits r.calls T := by
  have hadv : r.step (.advance (T - r.now).toNat) = some { r with now := T } := by
    simp only [step, Option.some.injEq]
    congr 1
    omega
  have hr₂ := (hr.step _ hadv).step .fire rfl
  have hinv := hr₂.windowInv hc
  rintro ⟨l, hl, t, hlt⟩
  have hle := count_window_le hinv.sorted (hinv.spaced l hl) t
  simp only [record, Throttle.fire_of_not_broken hnb] at hle
  omega

/-- `Fire()` keeps the contract `throttle.h` gives it: "If calling the listener would not
violate the rate limits, does so. Otherwise, schedules a timer [...] unless such a timer is
already set, in which case does nothing." In every reachable state, for limits with counts
of at least one, a `Fire()` at any time from now on calls the listener exactly when one more
call then breaks no window of any limit, although the throttle reads only its trimmed buffer;
otherwise it defers when no retry is pending, and drops the call when one is. -/
theorem throttle_fire_keeps_contract {rateLimits : List RateLimit} {start : Int}
    {r : ThrottleRun} (hc : ∀ l ∈ rateLimits, 1 ≤ l.count) (hr : r.Reachable rateLimits start)
    {T : Int} (hT : r.now ≤ T) :
    ((r.throttle.fire T).2 = .invoked ↔ ¬ WouldViolate rateLimits r.calls T) ∧
    (WouldViolate rateLimits r.calls T → r.retries = [] →
      ∃ d, (r.throttle.fire T).2 = .deferred d) ∧
    (WouldViolate rateLimits r.calls T → r.retries ≠ [] → (r.throttle.fire T).2 = .dropped) := by
  have hiff : r.throttle.Broken T ↔ WouldViolate rateLimits r.calls T :=
    ⟨wouldViolate_of_broken (hr.windowInv hc) hT,
      fun hv => by_contra fun hnb => not_wouldViolate_of_not_broken hc hr hT hnb hv⟩
  have hflag := hr.timerTracked.flag_iff
  refine ⟨Throttle.fire_invoked_iff.trans (not_congr hiff), fun hv hnil => ?_, fun hv hne => ?_⟩
  all_goals
    have hinv : (r.throttle.fire T).2 ≠ .invoked :=
      fun h => Throttle.fire_invoked_iff.1 h (hiff.2 hv)
    rcases Throttle.fire_timer r.throttle T with ⟨h1, -⟩ | ⟨d, h1, h0, -⟩ | ⟨h1, h0, -⟩
  · exact absurd h1 hinv
  · exact ⟨d, h1⟩
  · simp [hnil] at hflag
    simp [hflag] at h0
  · exact absurd h1 hinv
  · have := List.length_pos.2 hne
    simp only [h0, Bool.false_eq_true, false_iff] at hflag
    omega
  · exact h1

/-- One call a second and six a minute: half a second after a call at `0`, a call would break
the one-a-second limit, and with no retry pending a `Fire()` defers. -/
theorem throttle_fire_keeps_contract_within_second :
    let r : ThrottleRun := ⟨⟨[⟨1000000, 1⟩, ⟨60000000, 6⟩], false, [0], 6⟩, 500000, [], [0]⟩
    let rateLimits : List RateLimit := [⟨1000000, 1⟩, ⟨60000000, 6⟩]
    (∀ l ∈ rateLimits, 1 ≤ l.count) ∧ r.Reachable rateLimits 0 ∧ r.now ≤ 500000 ∧
    WouldViolate rateLimits r.calls 500000 ∧
    ((r.throttle.fire 500000).2 = .invoked ↔ ¬ WouldViolate rateLimits r.calls 500000) ∧
    (WouldViolate rateLimits r.calls 500000 → r.retries = [] →
      ∃ d, (r.throttle.fire 500000).2 = .deferred d) ∧
    (WouldViolate rateLimits r.calls 500000 → r.retries ≠ [] →
      (r.throttle.fire 500000).2 = .dropped) :=
  have hc : ∀ l ∈ [(⟨1000000, 1⟩ : RateLimit), ⟨60000000, 6⟩], 1 ≤ l.count := by decide
  have hr : Reachable [⟨1000000, 1⟩, ⟨60000000, 6⟩] 0
      ⟨⟨[⟨1000000, 1⟩, ⟨60000000, 6⟩], false, [0], 6⟩, 500000, [], [0]⟩ :=
    .step (.advance 500000) (.step .fire .init rfl) rfl
  ⟨hc, hr, le_rfl, ⟨⟨1000000, 1⟩, List.mem_cons_self _ _, 0, by decide⟩,
    throttle_fire_keeps_contract hc hr le_rfl⟩

end ThrottleRun

namespace Ticl

open InvalidationClientImpl

/-- A deferred `OutboundDataReady` is served when the limits first allow it. Over every run
from the constructor, the client's scheduler keeps one due time for each pending `RetryFire`
task. For a due time it keeps, as long as the outbound listener has not been called since
then, a `Fire()` from now on would find some limit broken exactly before it, and running the
task at or after it calls the outbound listener. -/
theorem client_retry_fires_when_due {config : ClientConfig} {clientType now : Int}
    {persistentState : Option TiclState} {es : List Event} {t : Ticl}
    {sent : List ClientToServerMessage}
    (h : (Ticl.new config clientType now persistentState).run es = some (t, sent)) :
    t.client.retryFireDue.length = t.client.internalTasks.count .retryFire ∧
    ∀ due ∈ t.client.retryFireDue,
      (∀ c ∈ t.client.networkManager.outboundListenerCalls, c < due) →
      (∀ T, t.client.now ≤ T → (T < due ↔ t.client.networkManager.throttle.Broken T)) ∧
      (due ≤ t.client.now → ∃ t', t.step (.runInternalTask .retryFire) = some (t', none) ∧
        t'.client.networkManager.outboundListenerCalls =
          t.client.networkManager.outboundListenerCalls ++ [t.client.now]) := by
  obtain ⟨r, hr, hs⟩ := simulates_run h
  refine ⟨hs.dues ▸ hs.retries, fun due hdue hq => ?_⟩
  rw [← hs.dues] at hdue
  rw [← hs.calls] at hq
  obtain ⟨hbroken, hfires⟩ := ThrottleRun.retry_fires_when_due hr hdue hq
  rw [hs.now, hs.throttle] at hbroken
  refine ⟨hbroken, fun hle => ?_⟩
  -- at most one retry is pending: this one
  obtain ⟨d, rest, hcons⟩ := List.exists_cons_of_ne_nil (List.ne_nil_of_mem hdue)
  have hrest : rest = [] := by simpa [hcons] using hr.timerTracked.flag_iff.2
  obtain rfl : due = d := by simpa [hcons, hrest] using hdue
  have hm : InternalTask.retryFire ∈ t.client.internalTasks :=
    List.count_pos_iff.1 (hs.retries ▸ List.length_pos_of_mem hdue)
  -- the task runs the throttle run's retry, which calls the listener
  obtain ⟨r', he, hs'⟩ := hs.runRetryFire hcons
  obtain ⟨r'', he', hcalls⟩ := hfires (hs.now ▸ hle)
  obtain rfl : r' = r'' := Option.some.inj (he.symm.trans he')
  refine ⟨_, if_pos hm, ?_⟩
  rw [← hs'.calls, hcalls, hs.calls, hs.now]

/-- Two ticks of a fresh client half a second apart, with the protocol's limits, and half a
second more: the second tick's `RetryFire` task is due at `1 s`, and running it then calls the
outbound listener. -/
theorem client_retry_fires_when_due_after_second :
    let config : ClientConfig := ⟨2, 10, [⟨1000000, 1⟩, ⟨60000000, 6⟩], 60000000, 60000000⟩
    let es : List Event :=
      [.runInternalTask .periodicTask, .advanceTime 500000, .runInternalTask .periodicTask,
        .advanceTime 500000]
    ∃ t sent, (Ticl.new config 0 0 none).run es = some (t, sent) ∧
      t.client.networkManager.outboundListenerCalls = [0] ∧
      t.client.retryFireDue = [1000000] ∧
      ((Ticl.new config 0 0 none).run (es ++ [.runInternalTask .retryFire])).map
        (fun r => r.1.client.networkManager.outboundListenerCalls) = some [0, 1000000] ∧
      t.client.retryFireDue.length = t.client.internalTasks.count .retryFire ∧
      ∀ due ∈ t.client.retryFireDue,
        (∀ c ∈ t.client.networkManager.outboundListenerCalls, c < due) →
        (∀ T, t.client.now ≤ T → (T < due ↔ t.client.networkManager.throttle.Broken T)) ∧
        (due ≤ t.client.now → ∃ t', t.step (.runInternalTask .retryFire) = some (t', none) ∧
          t'.client.networkManager.outboundListenerCalls =
            t.client.networkManager.outboundListenerCalls ++ [t.client.now]) := by
  intro config es
  obtain ⟨t, sent, h⟩ : ∃ t sent, (Ticl.new config 0 0 none).run es = some (t, sent) :=
    ⟨_, _, rfl⟩
  have hview : ((Ticl.new config 0 0 none).run es).map
      (fun r => (r.1.client.networkManager.outboundListenerCalls, r.1.client.retryFireDue)) =
        some ([0], [1000000]) := by decide
  rw [h] at hview
  obtain ⟨hcalls, hdues⟩ := Prod.mk.inj (Option.some.inj hview)
  exact ⟨t, sent, h, hcalls, hdues, by decide, client_retry_fires_when_due h⟩

end Ticl

end CacheInvalidation
