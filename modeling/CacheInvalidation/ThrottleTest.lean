import CacheInvalidation.Deferral
import CacheInvalidation.DeterministicScheduler

/-!
# The throttle test's fixture refines the throttle's runs

`throttle_test.cc` runs a `Throttle` on the `DeterministicScheduler`: the test calls `Fire()`,
moves the clock forward with `ModifyTime` or `SetTime`, and calls `RunReadyTasks()`, which runs
the throttle's `RetryFire` closure once it is due. The program the scheduler's tasks act on is
`ThrottleTest`, the throttle with the times its listener was called, and `retryFire` is the
closure.

`Simulates` reads the fixture and its scheduler as a `ThrottleRun`: the same throttle, clock
and calls, and a pending retry for each queued `RetryFire`, due at its entry's time. Every
step of a test keeps it (`simulates_step`), the loop of `RunReadyTasks` one retry at a time,
so every state a test reaches is a reachable state of the throttle's run (`simulates_run`).
The run's invariants then hold of the test: the listener's calls respect every limit, which
is what `IncrementAndCheckRateLimits` asserts, at most one `RetryFire` is queued, and
`RunReadyTasks` returns after at most one task (`throttle_test_respects_rate_limits`).

The abstract run lets the scheduler run a retry at any moment; the test scheduler runs it
only once due, and `RunReadyTasks` leaves none overdue. With `RetryDue`, a queued retry falls
due exactly when the limits first allow a call, and the first `RunReadyTasks` at or after
that time calls the listener, once (`throttle_test_serves_retry_when_due`): "after one
second, one (and only one) buffered call is triggered", for every run of the test.
Together they give the header's contract for `Fire()` followed by `RunReadyTasks()`: the
listener is called now, or a retry is queued that is served once the limits allow a call
(`throttle_test_fire_not_lost`). Nor are `Fire()` calls queued up: the listener's calls and
the queued retries together never outnumber them, and without a `Fire()` the listener is
called at most once more (`throttle_test_fires_not_queued_up`).
-/

namespace CacheInvalidation

namespace Throttle

/-- A deferral's delay is positive: the retry is never due at once. -/
theorem fire_deferred_pos {t : Throttle} {now d : Int} (h : (t.fire now).2 = .deferred d) :
    0 < d := by
  have hb : t.Broken now := by
    by_contra hnb
    rw [fire_of_not_broken hnb] at h
    cases h
  have hdue := fire_deferred_due h now le_rfl
  rcases fire_cases t now with ⟨-, hf⟩ | ⟨-, d', hf⟩ | ⟨-, hf⟩ <;> rw [hf] at h hdue
  · cases h
  · have := hdue.2 ((broken_trim le_rfl true).2 hb)
    omega
  · cases h

end Throttle

/-- The throttle test's fixture, but for the scheduler: the throttle, and the times its
listener was called (`call_count_` is their number). -/
structure ThrottleTest where
  throttle : Throttle
  calls : List Int
  deriving DecidableEq, Repr

namespace ThrottleTest

open DeterministicScheduler

/-- What a `Fire()` at `now` did, applied to the fixture: the listener's call is recorded,
and a deferral hands the throttle's `RetryFire` closure to `Schedule`. -/
def record (f : ThrottleTest) (now : Int) (r : Throttle × FireOutcome) :
    ThrottleTest × List (Int × Unit) :=
  match r.2 with
  | .invoked => (⟨r.1, f.calls ++ [now]⟩, [])
  | .deferred delay => (⟨r.1, f.calls⟩, [(delay, ())])
  | .dropped => (⟨r.1, f.calls⟩, [])

/-- `throttle->Fire()`, as the test calls it. -/
def fire (f : ThrottleTest) (now : Int) : ThrottleTest × List (Int × Unit) :=
  f.record now (f.throttle.fire now)

/-- The `RetryFire` closure, as the scheduler runs it. -/
def retryFire (f : ThrottleTest) (now : Int) (_ : Unit) : ThrottleTest × List (Int × Unit) :=
  f.record now (f.throttle.retryFire now)

/-- `SetUp()`, `StartScheduler()` and the throttle's construction, with the clock at
`start`. -/
def init (rateLimits : List RateLimit) (start : Int) :
    ThrottleTest × DeterministicScheduler Unit :=
  (⟨Throttle.new rateLimits, []⟩, (DeterministicScheduler.new start).startScheduler)

/-- What the tests do between `StartScheduler()` and `StopScheduler()`: call `Fire()`, move
the clock forward (`ModifyTime`, or `SetTime` to a later time), and call
`RunReadyTasks()`. -/
def TestStep : Event ThrottleTest Unit → Prop
  | .outside move => move = fire
  | .modifyTime deltaTime => 0 ≤ deltaTime
  | .runReadyTasks _ => True
  | _ => False

/-- A `Fire()` schedules its retry a positive delay ahead. -/
theorem record_fire_delay_pos (f : ThrottleTest) (now : Int) (t : Throttle) :
    ∀ c ∈ (f.record now (t.fire now)).2, 0 < c.1 := by
  intro c hc
  unfold record at hc
  split at hc
  · cases hc
  · rename_i delay hd
    rw [List.mem_singleton.1 hc]
    exact Throttle.fire_deferred_pos hd
  · cases hc

/-- The fixture and its scheduler read as a run of the throttle: the same throttle, clock and
calls, and a pending retry for each queued `RetryFire`, due at its entry's time. -/
structure Simulates (f : ThrottleTest) (s : DeterministicScheduler Unit) (r : ThrottleRun) :
    Prop where
  throttle : r.throttle = f.throttle
  now : r.now = s.currentTime
  calls : r.calls = f.calls
  retries : r.retries.Perm (s.workQueue.map (·.time))
  started : s.started = true
  not_stopped : s.stopped = false

theorem simulates_init (rateLimits : List RateLimit) (start : Int) :
    Simulates (init rateLimits start).1 (init rateLimits start).2
      (ThrottleRun.init rateLimits start) :=
  ⟨rfl, rfl, rfl, .nil, rfl, rfl⟩

/-- Recording one `Fire()` on both sides: the closure's `Schedule` call succeeds, and the
fixture reads as the run's `record`. -/
theorem Simulates.record {f : ThrottleTest} {s : DeterministicScheduler Unit} {r : ThrottleRun}
    (h : Simulates f s r) (t : Throttle) (o : FireOutcome) :
    ∃ s', s.scheduleAll (f.record s.currentTime (t, o)).2 = some s' ∧
      Simulates (f.record s.currentTime (t, o)).1 s' (r.record t o) := by
  cases o with
  | invoked =>
    refine ⟨s, rfl, rfl, h.now, ?_, h.retries, h.started, h.not_stopped⟩
    show r.calls ++ [r.now] = f.calls ++ [s.currentTime]
    rw [h.calls, h.now]
  | deferred delay =>
    refine ⟨{ s with
      workQueue := s.workQueue ++ [⟨s.currentTime + delay, false, s.currentId, ()⟩]
      currentId := s.currentId + 1 }, ?_, rfl, h.now, h.calls, ?_, h.started, h.not_stopped⟩
    · simp [record, scheduleAll, schedule, h.started, h.not_stopped]
    · simpa [ThrottleRun.record, h.now] using h.retries.append_right [s.currentTime + delay]
  | dropped => exact ⟨s, rfl, rfl, h.now, h.calls, h.retries, h.started, h.not_stopped⟩

/-- One turn of `RunReadyTasks`'s loop is a retry of the throttle's run. -/
theorem Simulates.turn {f : ThrottleTest} {s s₁ s₂ : DeterministicScheduler Unit}
    {r : ThrottleRun} {top : TaskEntry Unit} (h : Simulates f s r)
    (hn : s.runNextTask = some (top, s₁))
    (hs : s₁.scheduleAll (f.retryFire s.currentTime top.task).2 = some s₂) :
    ∃ r', r.step (.retry top.time) = some r' ∧
      Simulates (f.retryFire s.currentTime top.task).1 s₂ r' := by
  obtain ⟨rest, rfl, -, hperm, -⟩ := runNextTask_spec hn
  have hq : r.retries.Perm (top.time :: rest.map (·.time)) :=
    h.retries.trans (hperm.map TaskEntry.time)
  have hmem : top.time ∈ r.retries := hq.symm.subset (List.mem_cons_self _ _)
  have h₁ : Simulates f { s with workQueue := rest } { r with retries := r.retries.erase top.time } :=
    ⟨h.throttle, h.now, h.calls, by simpa using hq.erase top.time, h.started, h.not_stopped⟩
  obtain ⟨s₃, hs₃, h₃⟩ := h₁.record (f.throttle.retryFire s.currentTime).1
    (f.throttle.retryFire s.currentTime).2
  obtain rfl : s₂ = s₃ := Option.some.inj (hs.symm.trans hs₃)
  refine ⟨_, ?_, h₃⟩
  rw [ThrottleRun.step, if_pos hmem, h.throttle, h.now]

/-- One step of a test, read on the throttle's run: some steps of the run. -/
theorem simulates_step {rateLimits : List RateLimit} {start : Int} {f f' : ThrottleTest}
    {s s' : DeterministicScheduler Unit} {e : Event ThrottleTest Unit}
    {ran : List (TaskEntry Unit)} {r : ThrottleRun} (he : TestStep e)
    (hr : r.Reachable rateLimits start) (h : Simulates f s r)
    (hs : step retryFire f s e = some (f', s', ran)) :
    ∃ r', r'.Reachable rateLimits start ∧ Simulates f' s' r' := by
  cases e with
  | outside move =>
    obtain rfl : move = fire := he
    obtain ⟨s₁, h₁, hr₁⟩ := Option.map_eq_some'.1 hs
    simp only [Prod.mk.injEq] at hr₁
    obtain ⟨rfl, rfl, -⟩ := hr₁
    obtain ⟨s₂, hs₂, h₂⟩ := h.record (f.throttle.fire s.currentTime).1
      (f.throttle.fire s.currentTime).2
    obtain rfl : s₁ = s₂ := Option.some.inj (h₁.symm.trans hs₂)
    exact ⟨_, hr.step .fire (by rw [ThrottleRun.step, h.throttle, h.now]), h₂⟩
  | modifyTime deltaTime =>
    simp only [step, Option.some.injEq, Prod.mk.injEq] at hs
    obtain ⟨rfl, rfl, -⟩ := hs
    have hd : (0 : Int) ≤ deltaTime := he
    exact ⟨_, hr.step (.advance deltaTime.toNat) rfl, h.throttle,
      by simp only [modifyTime_currentTime, h.now]; omega, h.calls, h.retries, h.started, h.not_stopped⟩
  | runReadyTasks fuel =>
    refine (runReadyTasks_preserves retryFire
      (fun f s _ => ∃ r, r.Reachable rateLimits start ∧ Simulates f s r)
      (fun ⟨r, hr, h⟩ hn hs => ?_) [] ⟨r, hr, h⟩ hs).1
    obtain ⟨r', hstep, h'⟩ := h.turn hn hs
    exact ⟨r', hr.step _ hstep, h'⟩
  | _ => exact he.elim

theorem simulates_run {rateLimits : List RateLimit} {start : Int}
    {es : List (Event ThrottleTest Unit)} {f : ThrottleTest} {s : DeterministicScheduler Unit}
    {log : List (Int × TaskEntry Unit)} (hes : ∀ e ∈ es, TestStep e)
    (h : run retryFire (init rateLimits start).1 (init rateLimits start).2 es = some (f, s, log)) :
    ∃ r, r.Reachable rateLimits start ∧ Simulates f s r := by
  simpa using run_preserves retryFire TestStep
    (fun f s _ => ∃ r, r.Reachable rateLimits start ∧ Simulates f s r)
    (fun he ⟨r, hr, h⟩ hs => simulates_step he hr h hs) [] hes
    ⟨_, .init, simulates_init rateLimits start⟩ h

/-- At most one `RetryFire` is queued, as the throttle's run has at most one retry pending. -/
theorem Simulates.queue_le_one {rateLimits : List RateLimit} {start : Int} {f : ThrottleTest}
    {s : DeterministicScheduler Unit} {r : ThrottleRun} (hr : r.Reachable rateLimits start)
    (h : Simulates f s r) : s.workQueue.length ≤ 1 := by
  have := hr.timerTracked.flag_iff.2
  rwa [h.retries.length_eq, List.length_map] at this

/-- With at most one `RetryFire` queued, `RunReadyTasks` returns after running it at most:
a retry the closure schedules again is not yet due. -/
theorem Simulates.runReadyTasks_isSome {f : ThrottleTest} {s : DeterministicScheduler Unit}
    {r : ThrottleRun} (h : Simulates f s r) (hq : s.workQueue.length ≤ 1) :
    (runReadyTasks retryFire 2 f s).isSome := by
  simp only [runReadyTasks]
  split
  · rfl
  · rename_i top s₁ hn
    obtain ⟨rest, rfl, -, hperm, -⟩ := runNextTask_spec hn
    have hrest : rest = [] := by
      have := hperm.length_eq
      simp only [List.length_cons] at this
      exact List.eq_nil_of_length_eq_zero (by omega)
    subst hrest
    have h₁ : Simulates f { s with workQueue := [] } { r with retries := [] } :=
      ⟨h.throttle, h.now, h.calls, .nil, h.started, h.not_stopped⟩
    obtain ⟨s₂, hs₂, -⟩ := h₁.record (f.throttle.retryFire s.currentTime).1
      (f.throttle.retryFire s.currentTime).2
    have hfuture : ∀ e ∈ s₂.workQueue, s₂.currentTime < e.time := by
      intro e he
      rw [scheduleAll_currentTime hs₂]
      rcases scheduleAll_workQueue hs₂ e he with he | ⟨c, hc, hce⟩
      · cases he
      · have := record_fire_delay_pos f s.currentTime _ c hc
        dsimp only at hce ⊢
        omega
    have hs₂' : ({ s with workQueue := [] } : DeterministicScheduler Unit).scheduleAll
        (f.retryFire s.currentTime top.task).2 = some s₂ := hs₂
    rw [hs₂', Option.some_bind]
    simp only [runReadyTasks, runNextTask_eq_none.2 hfuture, Option.map_some', Option.isSome_some]

/-- A queued `RetryFire` not yet due, in a state that reads as a reachable run of the throttle:
the limits are broken exactly until its time, and once the clock is set to any time from then
on, `RunReadyTasks` runs it alone and the listener is called once, at that time. -/
theorem Simulates.serves_retry {rateLimits : List RateLimit} {start : Int} {f : ThrottleTest}
    {s : DeterministicScheduler Unit} {r : ThrottleRun} (hc : ∀ l ∈ rateLimits, 1 ≤ l.count)
    (hr : r.Reachable rateLimits start) (hsim : Simulates f s r) {e : TaskEntry Unit}
    (he : e ∈ s.workQueue) (hfuture : s.currentTime < e.time) :
    (∀ T, s.currentTime ≤ T → (T < e.time ↔ f.throttle.Broken T)) ∧
    ∀ T, e.time ≤ T → ∃ f' s', runReadyTasks retryFire 2 f (s.setTime T) = some (f', s', [e]) ∧
      f'.calls = f.calls ++ [T] := by
  have hquiet : ∀ c ∈ r.calls, c < e.time := fun c hc' => by
    have := (hr.windowInv hc).le_now c hc'
    rw [hsim.now] at this
    omega
  have hdue := (ThrottleRun.retry_fires_when_due hr
    (hsim.retries.symm.subset (List.mem_map_of_mem _ he)) hquiet).1
  rw [hsim.throttle, hsim.now] at hdue
  refine ⟨hdue, fun T hT => ?_⟩
  obtain ⟨a, ha⟩ := List.length_eq_one.1
    (le_antisymm (hsim.queue_le_one hr) (List.length_pos_of_mem he))
  rw [ha, List.mem_singleton] at he
  subst he
  have hinvoked : (f.throttle.retryFire T).2 = .invoked :=
    Throttle.fire_of_not_broken (t := { f.throttle with timerScheduled := false })
      fun hb => absurd ((hdue T (by omega)).2 hb) (by omega)
  have hn : (s.setTime T).runNextTask = some (e, { s.setTime T with workQueue := [] }) := by
    simp [runNextTask, ha, popTop, hT]
  have hrun : f.retryFire T e.task = (⟨(f.throttle.retryFire T).1, f.calls ++ [T]⟩, []) := by
    simp only [retryFire, ThrottleTest.record, hinvoked]
  refine ⟨⟨(f.throttle.retryFire T).1, f.calls ++ [T]⟩, { s.setTime T with workQueue := [] }, ?_,
    rfl⟩
  simp only [runReadyTasks, hn, setTime_currentTime, hrun, scheduleAll, Option.some_bind]
  rfl

/-- A `Fire()` at `now`, made when the listener had been called at `calls`, is served or
pending: the listener has been called at `now` since, or the throttle's timer is set. -/
def ServedOrPending (calls : List Int) (now : Int) (f : ThrottleTest) : Prop :=
  (∃ l, f.calls = calls ++ l ∧ now ∈ l) ∨
    (f.throttle.timerScheduled = true ∧ ∃ l, f.calls = calls ++ l)

theorem ServedOrPending.prefix {calls : List Int} {now : Int} {f : ThrottleTest}
    (h : ServedOrPending calls now f) : ∃ l, f.calls = calls ++ l := by
  rcases h with ⟨l, hl, -⟩ | ⟨-, l, hl⟩ <;> exact ⟨l, hl⟩

/-- Every `Fire()` at `now`, the one a `RetryFire` makes included, leaves the fixture served or
pending: it calls the listener, or it sets the timer, or it finds the timer set. -/
theorem servedOrPending_record {calls : List Int} {now : Int} {f : ThrottleTest} (t : Throttle)
    (hf : ∃ l, f.calls = calls ++ l) : ServedOrPending calls now (f.record now (t.fire now)).1 := by
  obtain ⟨l, hl⟩ := hf
  rcases Throttle.fire_timer t now with ⟨h1, -⟩ | ⟨d, h1, -, h2⟩ | ⟨h1, -, h2⟩
  · exact .inl ⟨l ++ [now], by simp [record, h1, hl], by simp⟩
  · exact .inr ⟨by simpa [record, h1] using h2, l, by simp [record, h1, hl]⟩
  · exact .inr ⟨by simpa [record, h1] using h2, l, by simp [record, h1, hl]⟩

/-- `RunReadyTasks` at `now` keeps a `Fire()` at `now` served or pending. -/
theorem runReadyTasks_servedOrPending {calls : List Int} {now : Int} {fuel : Nat}
    {f f' : ThrottleTest} {s s' : DeterministicScheduler Unit} {ran : List (TaskEntry Unit)}
    (h : ServedOrPending calls now f) (hnow : s.currentTime = now)
    (hr : runReadyTasks retryFire fuel f s = some (f', s', ran)) : ServedOrPending calls now f' := by
  refine (runReadyTasks_preserves retryFire
    (fun f s _ => ServedOrPending calls now f ∧ s.currentTime = now)
    (@fun env _ _ _ _ _ ⟨hp, ht⟩ hn hs => ⟨?_, ?_⟩) [] ⟨h, hnow⟩ hr).1.1
  · rw [← ht]
    exact servedOrPending_record { env.throttle with timerScheduled := false } hp.prefix
  · obtain ⟨rest, rfl, -⟩ := runNextTask_spec hn
    exact (scheduleAll_currentTime hs).trans ht

/-- For limits with counts of at least one, over every run of the throttle test (`Fire()`,
the clock moved forward and `RunReadyTasks()`, in any order): the listener's calls are sorted,
each call is at least `windowSize` after the one `count` calls before it, and no interval of
length `windowSize` holds more than `count` calls, which is what
`IncrementAndCheckRateLimits` asserts; at most one `RetryFire` is queued; and
`RunReadyTasks` returns after running at most that one. -/
theorem throttle_test_respects_rate_limits {rateLimits : List RateLimit} {start : Int}
    {es : List (Event ThrottleTest Unit)} {f : ThrottleTest} {s : DeterministicScheduler Unit}
    {log : List (Int × TaskEntry Unit)} (hc : ∀ l ∈ rateLimits, 1 ≤ l.count)
    (hes : ∀ e ∈ es, TestStep e)
    (h : run retryFire (init rateLimits start).1 (init rateLimits start).2 es = some (f, s, log)) :
    f.calls.Sorted (· ≤ ·) ∧
    (∀ l ∈ rateLimits, ∀ j a b, l.count ≤ j → f.calls[j]? = some a →
      f.calls[j - l.count]? = some b → l.windowSize ≤ a - b) ∧
    (∀ l ∈ rateLimits, ∀ t : Int,
      (f.calls.filter (fun c => t ≤ c ∧ c < t + l.windowSize)).length ≤ l.count) ∧
    s.workQueue.length ≤ 1 ∧ (runReadyTasks retryFire 2 f s).isSome := by
  obtain ⟨r, hr, hsim⟩ := simulates_run hes h
  have hinv := hr.windowInv hc
  have hsorted : f.calls.Pairwise (· ≤ ·) := hsim.calls ▸ hinv.sorted
  have hspaced : Spaced rateLimits f.calls := hsim.calls ▸ hinv.spaced
  have hq := hsim.queue_le_one hr
  exact ⟨hsorted, hspaced, fun l hl t => count_window_le hsorted (hspaced l hl) t, hq,
    hsim.runReadyTasks_isSome hq⟩

/-- The scripted test's start, with one call a second and six a minute: a `Fire()` at `0`
calls the listener, and one `80 ms` later queues a `RetryFire` for `1 s`. -/
theorem throttle_test_respects_rate_limits_scripted :
    ∃ f s log, (∀ l ∈ ([⟨1000000, 1⟩, ⟨60000000, 6⟩] : List RateLimit), 1 ≤ l.count) ∧
      (∀ e ∈ ([.outside fire, .runReadyTasks 2, .modifyTime 80000, .outside fire,
        .runReadyTasks 2] : List (Event ThrottleTest Unit)), TestStep e) ∧
      run retryFire (init [⟨1000000, 1⟩, ⟨60000000, 6⟩] 0).1 (init [⟨1000000, 1⟩, ⟨60000000, 6⟩] 0).2
        [.outside fire, .runReadyTasks 2, .modifyTime 80000, .outside fire, .runReadyTasks 2] =
        some (f, s, log) ∧
      f.calls = [0] ∧ s.workQueue.map (·.time) = [1000000] ∧
      f.calls.Sorted (· ≤ ·) ∧
      (∀ l ∈ ([⟨1000000, 1⟩, ⟨60000000, 6⟩] : List RateLimit), ∀ j a b, l.count ≤ j →
        f.calls[j]? = some a → f.calls[j - l.count]? = some b → l.windowSize ≤ a - b) ∧
      (∀ l ∈ ([⟨1000000, 1⟩, ⟨60000000, 6⟩] : List RateLimit), ∀ t : Int,
        (f.calls.filter (fun c => t ≤ c ∧ c < t + l.windowSize)).length ≤ l.count) ∧
      s.workQueue.length ≤ 1 ∧ (runReadyTasks retryFire 2 f s).isSome := by
  obtain ⟨⟨f, s, log⟩, h⟩ := Option.isSome_iff_exists.1 (show (run retryFire
      (init [⟨1000000, 1⟩, ⟨60000000, 6⟩] 0).1 (init [⟨1000000, 1⟩, ⟨60000000, 6⟩] 0).2
      [.outside fire, .runReadyTasks 2, .modifyTime 80000, .outside fire,
        .runReadyTasks 2]).isSome by decide)
  have hout : (run retryFire (init [⟨1000000, 1⟩, ⟨60000000, 6⟩] 0).1
      (init [⟨1000000, 1⟩, ⟨60000000, 6⟩] 0).2 [.outside fire, .runReadyTasks 2,
        .modifyTime 80000, .outside fire, .runReadyTasks 2]).map
      (fun r => (r.1.calls, r.2.1.workQueue.map (·.time))) = some ([0], [1000000]) := by decide
  rw [h] at hout
  simp only [Option.map_some', Option.some.injEq, Prod.mk.injEq] at hout
  have hc : ∀ l ∈ ([⟨1000000, 1⟩, ⟨60000000, 6⟩] : List RateLimit), 1 ≤ l.count := by decide
  have hes : ∀ e ∈ ([.outside fire, .runReadyTasks 2, .modifyTime 80000, .outside fire,
      .runReadyTasks 2] : List (Event ThrottleTest Unit)), TestStep e := by
    intro e he
    simp only [List.mem_cons, List.mem_singleton, List.not_mem_nil, or_false] at he
    rcases he with rfl | rfl | rfl | rfl | rfl <;>
      first | exact rfl | trivial | exact (by decide : (0 : Int) ≤ 80000)
  exact ⟨f, s, log, hc, hes, h, hout.1, hout.2, throttle_test_respects_rate_limits hc hes h⟩

/-- Over every run of the throttle test, a queued `RetryFire` not yet due falls due exactly
when the limits first allow a call: from now until its time some limit is broken, and at its
time none. Once the clock is set to any time from then on, `RunReadyTasks` runs that retry
alone, and the listener is called once, at that time. -/
theorem throttle_test_serves_retry_when_due {rateLimits : List RateLimit} {start : Int}
    {es : List (Event ThrottleTest Unit)} {f : ThrottleTest} {s : DeterministicScheduler Unit}
    {log : List (Int × TaskEntry Unit)} (hc : ∀ l ∈ rateLimits, 1 ≤ l.count)
    (hes : ∀ e ∈ es, TestStep e)
    (h : run retryFire (init rateLimits start).1 (init rateLimits start).2 es = some (f, s, log))
    {e : TaskEntry Unit} (he : e ∈ s.workQueue) (hfuture : s.currentTime < e.time) :
    (∀ T, s.currentTime ≤ T → (T < e.time ↔ f.throttle.Broken T)) ∧
    ∀ T, e.time ≤ T → ∃ f' s', runReadyTasks retryFire 2 f (s.setTime T) = some (f', s', [e]) ∧
      f'.calls = f.calls ++ [T] := by
  obtain ⟨r, hr, hsim⟩ := simulates_run hes h
  exact hsim.serves_retry hc hr he hfuture

/-- The scripted test's start: the `RetryFire` that the `Fire()` at `80 ms` queues is due at
`1 s`, the limits are broken until then, and with the clock set to `1 s` or later,
`RunReadyTasks` calls the listener once. -/
theorem throttle_test_serves_retry_when_due_after_one_second :
    ∃ f s log e, (∀ l ∈ ([⟨1000000, 1⟩, ⟨60000000, 6⟩] : List RateLimit), 1 ≤ l.count) ∧
      (∀ e ∈ ([.outside fire, .runReadyTasks 2, .modifyTime 80000, .outside fire,
        .runReadyTasks 2] : List (Event ThrottleTest Unit)), TestStep e) ∧
      run retryFire (init [⟨1000000, 1⟩, ⟨60000000, 6⟩] 0).1 (init [⟨1000000, 1⟩, ⟨60000000, 6⟩] 0).2
        [.outside fire, .runReadyTasks 2, .modifyTime 80000, .outside fire, .runReadyTasks 2] =
        some (f, s, log) ∧
      e ∈ s.workQueue ∧ s.currentTime < e.time ∧ f.calls = [0] ∧ e.time = 1000000 ∧
      (∀ T, s.currentTime ≤ T → (T < e.time ↔ f.throttle.Broken T)) ∧
      ∀ T, e.time ≤ T → ∃ f' s', runReadyTasks retryFire 2 f (s.setTime T) = some (f', s', [e]) ∧
        f'.calls = f.calls ++ [T] := by
  obtain ⟨⟨f, s, log⟩, h⟩ := Option.isSome_iff_exists.1 (show (run retryFire
      (init [⟨1000000, 1⟩, ⟨60000000, 6⟩] 0).1 (init [⟨1000000, 1⟩, ⟨60000000, 6⟩] 0).2
      [.outside fire, .runReadyTasks 2, .modifyTime 80000, .outside fire,
        .runReadyTasks 2]).isSome by decide)
  have hout : (run retryFire (init [⟨1000000, 1⟩, ⟨60000000, 6⟩] 0).1
      (init [⟨1000000, 1⟩, ⟨60000000, 6⟩] 0).2 [.outside fire, .runReadyTasks 2,
        .modifyTime 80000, .outside fire, .runReadyTasks 2]).map
      (fun r => (r.1.calls, r.2.1.currentTime, r.2.1.workQueue.map (·.time))) =
      some ([0], 80000, [1000000]) := by decide
  rw [h] at hout
  simp only [Option.map_some', Option.some.injEq, Prod.mk.injEq] at hout
  obtain ⟨hcalls, hnow, hq⟩ := hout
  obtain ⟨e, _, he, hte, -⟩ := List.map_eq_cons_iff.1 hq
  have hc : ∀ l ∈ ([⟨1000000, 1⟩, ⟨60000000, 6⟩] : List RateLimit), 1 ≤ l.count := by decide
  have hes : ∀ e ∈ ([.outside fire, .runReadyTasks 2, .modifyTime 80000, .outside fire,
      .runReadyTasks 2] : List (Event ThrottleTest Unit)), TestStep e := by
    intro e he
    simp only [List.mem_cons, List.mem_singleton, List.not_mem_nil, or_false] at he
    rcases he with rfl | rfl | rfl | rfl | rfl <;>
      first | exact rfl | trivial | exact (by decide : (0 : Int) ≤ 80000)
  have hmem : e ∈ s.workQueue := by rw [he]; exact List.mem_cons_self e _
  have hfuture : s.currentTime < e.time := by rw [hnow, hte]; decide
  exact ⟨f, s, log, e, hc, hes, h, hmem, hfuture, hcalls, hte,
    throttle_test_serves_retry_when_due hc hes h hmem hfuture⟩

/-- No `Fire()` is lost. Over every run of the throttle test, a `Fire()` followed by
`RunReadyTasks()` returns, and then either the listener has been called at that time since, or
a `RetryFire` is queued for a later time: due exactly when the limits first allow a call, and
run alone, calling the listener once, by the first `RunReadyTasks` at or after that time. -/
theorem throttle_test_fire_not_lost {rateLimits : List RateLimit} {start : Int}
    {es : List (Event ThrottleTest Unit)} {f : ThrottleTest} {s : DeterministicScheduler Unit}
    {log : List (Int × TaskEntry Unit)} (hc : ∀ l ∈ rateLimits, 1 ≤ l.count)
    (hes : ∀ e ∈ es, TestStep e)
    (h : run retryFire (init rateLimits start).1 (init rateLimits start).2 es = some (f, s, log)) :
    ∃ f' s' log', run retryFire f s [.outside fire, .runReadyTasks 2] = some (f', s', log') ∧
      ((∃ l, f'.calls = f.calls ++ l ∧ s.currentTime ∈ l) ∨
        ∃ e ∈ s'.workQueue, s.currentTime < e.time ∧
          (∀ T, s.currentTime ≤ T → (T < e.time ↔ f'.throttle.Broken T)) ∧
          ∀ T, e.time ≤ T → ∃ f'' s'',
            runReadyTasks retryFire 2 f' (s'.setTime T) = some (f'', s'', [e]) ∧
            f''.calls = f'.calls ++ [T]) := by
  obtain ⟨r, hr, hsim⟩ := simulates_run hes h
  -- the `Fire()`
  obtain ⟨s₁, hs₁, hsim₁⟩ := hsim.record (f.throttle.fire s.currentTime).1
    (f.throttle.fire s.currentTime).2
  have hs₁' : s.scheduleAll (fire f s.currentTime).2 = some s₁ := hs₁
  have hr₁ := hr.step .fire (by rw [ThrottleRun.step, hsim.throttle, hsim.now])
  -- the `RunReadyTasks()`
  obtain ⟨⟨f', s', ran⟩, hrr⟩ := Option.isSome_iff_exists.1
    (hsim₁.runReadyTasks_isSome (hsim₁.queue_le_one hr₁))
  have hrr' : runReadyTasks retryFire 2 (fire f s.currentTime).1 s₁ = some (f', s', ran) := hrr
  have ht₁ : s₁.currentTime = s.currentTime := scheduleAll_currentTime hs₁
  have ht' : s'.currentTime = s.currentTime := ((runReadyTasks_preserves retryFire
    (fun _ _ _ => True) (fun _ _ _ => trivial) [] trivial hrr).2).trans ht₁
  obtain ⟨r', hr', hsim'⟩ := simulates_step (e := .runReadyTasks 2) trivial hr₁ hsim₁ hrr
  refine ⟨f', s', ran.map (s₁.currentTime, ·), by
    simp only [run, step, hs₁', hrr', Option.map_some', Option.some_bind, List.map_nil,
      List.nil_append, List.append_nil], ?_⟩
  rcases runReadyTasks_servedOrPending
      (servedOrPending_record f.throttle ⟨[], (List.append_nil f.calls).symm⟩) ht₁ hrr
    with hcall | ⟨hflag, -⟩
  · exact .inl hcall
  · -- the timer is set, so its `RetryFire` is queued, and `RunReadyTasks` left it in the future
    have hlen : s'.workQueue.length = 1 := by
      rw [← List.length_map s'.workQueue TaskEntry.time, ← hsim'.retries.length_eq,
        ← hr'.timerTracked.flag_iff.1.1 (hsim'.throttle ▸ hflag)]
    obtain ⟨e, he⟩ := List.length_eq_one.1 hlen
    have hmem : e ∈ s'.workQueue := by rw [he]; exact List.mem_singleton_self e
    have hfuture := runReadyTasks_future retryFire hrr e hmem
    obtain ⟨hbroken, hserve⟩ := hsim'.serves_retry hc hr' hmem hfuture
    rw [ht'] at hfuture hbroken
    exact .inr ⟨e, hmem, hfuture, hbroken, hserve⟩

/-- The scripted test's first `Fire()` at `0` calls the listener; `80 ms` later a `Fire()` and
`RunReadyTasks()` leave a `RetryFire` queued for `1 s`. -/
theorem throttle_test_fire_not_lost_deferred :
    ∃ f s log, (∀ l ∈ ([⟨1000000, 1⟩, ⟨60000000, 6⟩] : List RateLimit), 1 ≤ l.count) ∧
      (∀ e ∈ ([.outside fire, .runReadyTasks 2, .modifyTime 80000] :
        List (Event ThrottleTest Unit)), TestStep e) ∧
      run retryFire (init [⟨1000000, 1⟩, ⟨60000000, 6⟩] 0).1 (init [⟨1000000, 1⟩, ⟨60000000, 6⟩] 0).2
        [.outside fire, .runReadyTasks 2, .modifyTime 80000] = some (f, s, log) ∧
      f.calls = [0] ∧ s.currentTime = 80000 ∧
      ∃ f' s' log', run retryFire f s [.outside fire, .runReadyTasks 2] = some (f', s', log') ∧
        ((∃ l, f'.calls = f.calls ++ l ∧ s.currentTime ∈ l) ∨
          ∃ e ∈ s'.workQueue, s.currentTime < e.time ∧
            (∀ T, s.currentTime ≤ T → (T < e.time ↔ f'.throttle.Broken T)) ∧
            ∀ T, e.time ≤ T → ∃ f'' s'',
              runReadyTasks retryFire 2 f' (s'.setTime T) = some (f'', s'', [e]) ∧
              f''.calls = f'.calls ++ [T]) := by
  obtain ⟨⟨f, s, log⟩, h⟩ := Option.isSome_iff_exists.1 (show (run retryFire
      (init [⟨1000000, 1⟩, ⟨60000000, 6⟩] 0).1 (init [⟨1000000, 1⟩, ⟨60000000, 6⟩] 0).2
      [.outside fire, .runReadyTasks 2, .modifyTime 80000]).isSome by decide)
  have hout : (run retryFire (init [⟨1000000, 1⟩, ⟨60000000, 6⟩] 0).1
      (init [⟨1000000, 1⟩, ⟨60000000, 6⟩] 0).2
      [.outside fire, .runReadyTasks 2, .modifyTime 80000]).map
      (fun r => (r.1.calls, r.2.1.currentTime)) = some ([0], 80000) := by decide
  rw [h] at hout
  simp only [Option.map_some', Option.some.injEq, Prod.mk.injEq] at hout
  have hc : ∀ l ∈ ([⟨1000000, 1⟩, ⟨60000000, 6⟩] : List RateLimit), 1 ≤ l.count := by decide
  have hes : ∀ e ∈ ([.outside fire, .runReadyTasks 2, .modifyTime 80000] :
      List (Event ThrottleTest Unit)), TestStep e := by
    intro e he
    simp only [List.mem_cons, List.mem_singleton, List.not_mem_nil, or_false] at he
    rcases he with rfl | rfl | rfl <;>
      first | exact rfl | trivial | exact (by decide : (0 : Int) ≤ 80000)
  exact ⟨f, s, log, hc, hes, h, hout.1, hout.2, throttle_test_fire_not_lost hc hes h⟩

/-! ## `Fire()` calls are not queued up -/

/-- An event of the test outside the scheduler: a `Fire()`. -/
def isFire : Event ThrottleTest Unit → Bool
  | .outside _ => true
  | _ => false

/-- A `Fire()` outcome calls the listener or hands `Schedule` a retry, not both, and the calls
only grow. -/
theorem record_load (f : ThrottleTest) (now : Int) (r : Throttle × FireOutcome) :
    ∃ l, (f.record now r).1.calls = f.calls ++ l ∧ l.length + (f.record now r).2.length ≤ 1 := by
  unfold record
  split
  · exact ⟨[now], rfl, Nat.le_refl _⟩
  · exact ⟨[], (List.append_nil _).symm, Nat.le_refl _⟩
  · exact ⟨[], (List.append_nil _).symm, Nat.zero_le _⟩

/-- The retries `StopScheduler` runs call the listener at most once each. -/
theorem foldl_retryFire_load (now : Int) :
    ∀ (ran : List (TaskEntry Unit)) (f : ThrottleTest),
      ∃ l, (ran.foldl (fun f e => (f.retryFire now e.task).1) f).calls = f.calls ++ l ∧
        l.length ≤ ran.length
  | [], f => ⟨[], (List.append_nil _).symm, Nat.le_refl _⟩
  | e :: ran, f => by
    obtain ⟨l₁, h₁, hl₁⟩ := record_load f now (f.throttle.retryFire now)
    obtain ⟨l₂, h₂, hl₂⟩ := foldl_retryFire_load now ran (f.retryFire now e.task).1
    refine ⟨l₁ ++ l₂, ?_, ?_⟩
    · rw [List.foldl_cons, h₂, ← List.append_assoc]
      exact congrArg (· ++ l₂) h₁
    · simp only [List.length_append, List.length_cons]
      omega

/-- One event raises the listener's calls plus the queued retries by at most one for a
`Fire()`, and not at all otherwise: each turn of `RunReadyTasks` takes a retry off before it
calls the listener or queues the next, and `StopScheduler` empties the queue. -/
theorem step_load {f f' : ThrottleTest} {s s' : DeterministicScheduler Unit}
    {e : Event ThrottleTest Unit} {ran : List (TaskEntry Unit)}
    (he : ∀ move, e = .outside move → move = fire)
    (h : step retryFire f s e = some (f', s', ran)) :
    ∃ l, f'.calls = f.calls ++ l ∧
      l.length + s'.workQueue.length ≤ s.workQueue.length + (if isFire e then 1 else 0) := by
  cases e with
  | outside move =>
    obtain rfl := he move rfl
    obtain ⟨s₁, h₁, hr⟩ := Option.map_eq_some'.1 h
    simp only [Prod.mk.injEq] at hr
    obtain ⟨rfl, rfl, -⟩ := hr
    obtain ⟨l, hl, hlen⟩ := record_load f s.currentTime (f.throttle.fire s.currentTime)
    have := scheduleAll_length h₁
    exact ⟨l, hl, by simp only [fire, isFire, if_true] at *; omega⟩
  | runReadyTasks fuel =>
    refine (runReadyTasks_preserves retryFire
      (fun f₁ s₁ _ => ∃ l, f₁.calls = f.calls ++ l ∧ l.length + s₁.workQueue.length ≤
        s.workQueue.length)
      (@fun f₁ s₁ _ s₃ top _ ⟨l, hl, hlen⟩ hn hs => ?_) [] ⟨[], (List.append_nil _).symm,
        by simp⟩ h).1.imp fun _ ⟨hl, hlen⟩ => ⟨hl, Nat.le_add_right_of_le hlen⟩
    obtain ⟨rest, rfl, -, hperm, -⟩ := runNextTask_spec hn
    obtain ⟨l₁, hl₁, hlen₁⟩ := record_load f₁ s₁.currentTime (f₁.throttle.retryFire s₁.currentTime)
    have hq := scheduleAll_length hs
    have hrest := hperm.length_eq
    refine ⟨l ++ l₁, by rw [← List.append_assoc, ← hl]; exact hl₁, ?_⟩
    simp only [retryFire, List.length_append, List.length_cons] at *
    omega
  | stopScheduler =>
    simp only [step, Option.some.injEq, Prod.ext_iff] at h
    obtain ⟨rfl, rfl, rfl⟩ := h
    obtain ⟨l, hl, hlen⟩ := foldl_retryFire_load s.currentTime (stopScheduler retryFire f s).2.2 f
    have := hlen.trans ((List.length_filter_le _ _).trans (popAll_length_le _ _))
    refine ⟨l, hl, show l.length + 0 ≤ s.workQueue.length + 0 by omega⟩
  | _ =>
    simp only [step, Option.some.injEq, Prod.mk.injEq] at h
    obtain ⟨rfl, rfl, -⟩ := h
    exact ⟨[], (List.append_nil _).symm, by simp [isFire, startScheduler]⟩

/-- Over a run whose only code outside the scheduler is `Fire()`, the listener's calls plus
the queued retries grow by at most the number of `Fire()` calls. -/
theorem run_load {f f' : ThrottleTest} {s s' : DeterministicScheduler Unit}
    {log : List (Int × TaskEntry Unit)} :
    ∀ {es : List (Event ThrottleTest Unit)}, (∀ e ∈ es, ∀ move, e = .outside move → move = fire) →
      run retryFire f s es = some (f', s', log) →
      ∃ l, f'.calls = f.calls ++ l ∧ l.length + s'.workQueue.length ≤
        s.workQueue.length + es.countP isFire
  | [], _, h => by
    simp only [run, Option.some.injEq, Prod.mk.injEq] at h
    obtain ⟨rfl, rfl, -⟩ := h
    exact ⟨[], (List.append_nil _).symm, by simp⟩
  | e :: es, hes, h => by
    obtain ⟨f₁, s₁, ran, log₁, h₁, h₂, -⟩ := run_cons retryFire h
    obtain ⟨l₁, hl₁, hlen₁⟩ := step_load (hes e (List.mem_cons_self _ _)) h₁
    obtain ⟨l₂, hl₂, hlen₂⟩ := run_load (fun e' he' => hes e' (List.mem_cons_of_mem _ he')) h₂
    refine ⟨l₁ ++ l₂, by rw [hl₂, hl₁, List.append_assoc], ?_⟩
    rw [List.countP_cons, List.length_append]
    omega

/-- "The prior fire() calls don't get queued up". Over every run of the throttle test, the
listener's calls and the queued `RetryFire`s together number at most the `Fire()` calls, and at
most one `RetryFire` is queued. From the state a run reaches, whatever follows without a
`Fire()` (the clock set or moved either way, `RunReadyTasks()`, `StopScheduler()`) calls the
listener at most once more, and only if a `RetryFire` is queued. -/
theorem throttle_test_fires_not_queued_up {rateLimits : List RateLimit} {start : Int}
    {es : List (Event ThrottleTest Unit)} {f : ThrottleTest} {s : DeterministicScheduler Unit}
    {log : List (Int × TaskEntry Unit)} (hes : ∀ e ∈ es, TestStep e)
    (h : run retryFire (init rateLimits start).1 (init rateLimits start).2 es = some (f, s, log)) :
    f.calls.length + s.workQueue.length ≤ es.countP isFire ∧ s.workQueue.length ≤ 1 ∧
    ∀ {es' : List (Event ThrottleTest Unit)} {f' : ThrottleTest} {s' : DeterministicScheduler Unit}
      {log' : List (Int × TaskEntry Unit)}, es'.countP isFire = 0 →
      run retryFire f s es' = some (f', s', log') →
      ∃ l, f'.calls = f.calls ++ l ∧ l.length ≤ s.workQueue.length := by
  obtain ⟨r, hr, hsim⟩ := simulates_run hes h
  obtain ⟨l, hl, hlen⟩ := run_load (fun e he move hm => by subst hm; exact hes _ he) h
  -- the run starts with no calls and nothing queued
  have hl' : f.calls = l := hl
  have hlen' : l.length + s.workQueue.length ≤ 0 + es.countP isFire := hlen
  refine ⟨by rw [hl']; omega, hsim.queue_le_one hr, fun hno h' => ?_⟩
  obtain ⟨l₁, hl₁, hlen₁⟩ := run_load (fun e he move hm => by
    subst hm; exact absurd rfl (List.countP_eq_zero.1 hno _ he)) h'
  rw [hno] at hlen₁
  exact ⟨l₁, hl₁, by omega⟩

/-- The scripted test's start: two `Fire()` calls, one call of the listener and one
`RetryFire` queued. -/
theorem throttle_test_fires_not_queued_up_scripted :
    ∃ f s log, (∀ e ∈ ([.outside fire, .runReadyTasks 2, .modifyTime 80000, .outside fire,
        .runReadyTasks 2] : List (Event ThrottleTest Unit)), TestStep e) ∧
      run retryFire (init [⟨1000000, 1⟩, ⟨60000000, 6⟩] 0).1 (init [⟨1000000, 1⟩, ⟨60000000, 6⟩] 0).2
        [.outside fire, .runReadyTasks 2, .modifyTime 80000, .outside fire, .runReadyTasks 2] =
        some (f, s, log) ∧
      f.calls = [0] ∧ s.workQueue.length = 1 ∧
      f.calls.length + s.workQueue.length ≤ ([.outside fire, .runReadyTasks 2, .modifyTime 80000,
        .outside fire, .runReadyTasks 2] : List (Event ThrottleTest Unit)).countP isFire ∧
      s.workQueue.length ≤ 1 ∧
      ∀ {es' : List (Event ThrottleTest Unit)} {f' : ThrottleTest} {s' : DeterministicScheduler Unit}
        {log' : List (Int × TaskEntry Unit)}, es'.countP isFire = 0 →
        run retryFire f s es' = some (f', s', log') →
        ∃ l, f'.calls = f.calls ++ l ∧ l.length ≤ s.workQueue.length := by
  obtain ⟨⟨f, s, log⟩, h⟩ := Option.isSome_iff_exists.1 (show (run retryFire
      (init [⟨1000000, 1⟩, ⟨60000000, 6⟩] 0).1 (init [⟨1000000, 1⟩, ⟨60000000, 6⟩] 0).2
      [.outside fire, .runReadyTasks 2, .modifyTime 80000, .outside fire,
        .runReadyTasks 2]).isSome by decide)
  have hout : (run retryFire (init [⟨1000000, 1⟩, ⟨60000000, 6⟩] 0).1
      (init [⟨1000000, 1⟩, ⟨60000000, 6⟩] 0).2 [.outside fire, .runReadyTasks 2,
        .modifyTime 80000, .outside fire, .runReadyTasks 2]).map
      (fun r => (r.1.calls, r.2.1.workQueue.length)) = some ([0], 1) := by decide
  rw [h] at hout
  simp only [Option.map_some', Option.some.injEq, Prod.mk.injEq] at hout
  have hes : ∀ e ∈ ([.outside fire, .runReadyTasks 2, .modifyTime 80000, .outside fire,
      .runReadyTasks 2] : List (Event ThrottleTest Unit)), TestStep e := by
    intro e he
    simp only [List.mem_cons, List.mem_singleton, List.not_mem_nil, or_false] at he
    rcases he with rfl | rfl | rfl | rfl | rfl <;>
      first | exact rfl | trivial | exact (by decide : (0 : Int) ≤ 80000)
  exact ⟨f, s, log, hes, h, hout.1, hout.2, throttle_test_fires_not_queued_up hes h⟩

end ThrottleTest

end CacheInvalidation
