import CacheInvalidation.OperationScheduler

/-!
# The throttle and its deferred retry

`Throttle` calls its listener unless that would break one of its rate limits; then it
schedules one `RetryFire` for the earliest instant the limits allow, unless one is already
scheduled (`timer_scheduled_`), in which case the call is dropped. `RetryFire` lowers the
flag and fires again. The body of `Fire()` is in `throttle.cc`, which is not here, so
`Throttle.fire` follows the algorithm of the spec (§4.3) over the fields `throttle.h`
declares.

A run is the throttle with the scheduler around it: a clock that never goes back, the
pending `RetryFire` tasks (by due time), and the times the listener was called. The
scheduler may run a pending retry at any moment, early or late. Times and delays are
integers, in microseconds.

`TimerTracked` says the number of pending retries is the flag, read as `0` or `1`
(`timerTracked_step`). So in every reachable state the flag is up exactly when one retry is
pending, and never two, and every `Fire()`, also the one inside a retry, either calls the
listener or returns with a retry pending (`throttle_timer_tracks_retry`).
-/

namespace CacheInvalidation

/-- `RateLimit`: at most `count` events over any `windowSize`. -/
structure RateLimit where
  windowSize : Int
  count : Nat
  deriving DecidableEq, Repr

/-- The largest count of a list of limits: the length `max_recent_events_` of the buffer. -/
def maxCount (rateLimits : List RateLimit) : Nat :=
  (rateLimits.map (·.count)).foldr max 0

/-- The largest window of a list of limits. -/
def largestWindow (rateLimits : List RateLimit) : Int :=
  (rateLimits.map (·.windowSize)).foldr max 0

theorem count_le_maxCount {rateLimits : List RateLimit} {l : RateLimit} (h : l ∈ rateLimits) :
    l.count ≤ maxCount rateLimits := by
  induction rateLimits with
  | nil => cases h
  | cons l' ls ih =>
    simp only [maxCount, List.map_cons, List.foldr_cons] at ih ⊢
    rcases List.mem_cons.1 h with rfl | h
    · omega
    · have := ih h; omega

theorem windowSize_le_largestWindow {rateLimits : List RateLimit} {l : RateLimit}
    (h : l ∈ rateLimits) : l.windowSize ≤ largestWindow rateLimits := by
  induction rateLimits with
  | nil => cases h
  | cons l' ls ih =>
    simp only [largestWindow, List.map_cons, List.foldr_cons] at ih ⊢
    rcases List.mem_cons.1 h with rfl | h
    · omega
    · have := ih h; omega

/-- `Throttle`'s own state. `listener_` and `scheduler_` belong to the run around it. -/
structure Throttle where
  rateLimits : List RateLimit
  timerScheduled : Bool
  /-- `recent_event_times_`, oldest first. -/
  recentEventTimes : List Int
  maxRecentEvents : Nat
  deriving DecidableEq, Repr

/-- What one `Fire()` did. -/
inductive FireOutcome
  | invoked
  | deferred (delay : Int)
  | dropped
  deriving DecidableEq, Repr

namespace Throttle

/-- Modelled from the spec: the constructor in `throttle.cc`, which is absent. No timer, no
recent events, and a buffer as long as the largest count. -/
def new (rateLimits : List RateLimit) : Throttle :=
  ⟨rateLimits, false, [], maxCount rateLimits⟩

/-- Step 2 of the spec's `Fire()` for one limit: when the buffer holds `count` events and
the `count`-th newest is less than `windowSize` before `now`, the instant its window ends. -/
def windowEnd (recent : List Int) (now : Int) (l : RateLimit) : Option Int :=
  if l.count ≤ recent.length then
    match recent[recent.length - l.count]? with
    | some start => if now - start < l.windowSize then some (start + l.windowSize) else none
    | none => none
  else none

/-- The last `n` elements of a list: the buffer after `pop_front` trims it to `n`. -/
def keepLast (n : Nat) (l : List Int) : List Int :=
  l.drop (l.length - n)

/-- A buffered time `e` older than the largest window at `now`. -/
def olderThanWindow (t : Throttle) (now e : Int) : Bool :=
  e + largestWindow t.rateLimits < now

@[simp] theorem olderThanWindow_iff (t : Throttle) (now e : Int) :
    t.olderThanWindow now e = true ↔ e + largestWindow t.rateLimits < now := by
  simp [olderThanWindow]

/-- Modelled from the spec (§4.3), step 1 of `Fire()`: drop the times older than the
largest window, popping them from the front. -/
def recentWithin (t : Throttle) (now : Int) : List Int :=
  t.recentEventTimes.dropWhile (t.olderThanWindow now)

/-- Modelled from the spec (§4.3), since `throttle.cc` is absent: `Fire()` at `now`.
1. drop the times older than the largest window;
2. find the latest instant a broken limit allows;
3. if none is broken, record `now` and call the listener;
4. otherwise schedule `RetryFire` for that instant unless a retry is already scheduled. -/
def fire (t : Throttle) (now : Int) : Throttle × FireOutcome :=
  let recent := t.recentWithin now
  match (t.rateLimits.filterMap (windowEnd recent now)).max? with
  | none => ({ t with recentEventTimes := keepLast t.maxRecentEvents (recent ++ [now]) }, .invoked)
  | some tStar =>
    if !t.timerScheduled then
      ({ t with recentEventTimes := recent, timerScheduled := true }, .deferred (tStar - now))
    else ({ t with recentEventTimes := recent }, .dropped)

/-- `RetryFire()`: lower the flag, then `Fire()`. -/
def retryFire (t : Throttle) (now : Int) : Throttle × FireOutcome :=
  { t with timerScheduled := false }.fire now

/-- Everything one `Fire()` can do: call the listener when no limit is broken; otherwise
schedule a retry if the flag is down, or drop the call if it is up. -/
theorem fire_cases (t : Throttle) (now : Int) :
    (t.rateLimits.filterMap (windowEnd (t.recentWithin now) now) = [] ∧
      t.fire now =
        ({ t with recentEventTimes := keepLast t.maxRecentEvents (t.recentWithin now ++ [now]) },
          .invoked)) ∨
    (t.timerScheduled = false ∧ ∃ d,
      t.fire now = ({ t with recentEventTimes := t.recentWithin now, timerScheduled := true },
        .deferred d)) ∨
    (t.timerScheduled = true ∧
      t.fire now = ({ t with recentEventTimes := t.recentWithin now }, .dropped)) := by
  cases h : (t.rateLimits.filterMap (windowEnd (t.recentWithin now) now)).max? with
  | none => exact .inl ⟨List.max?_eq_none_iff.1 h, by simp only [fire, h]⟩
  | some tStar =>
    cases ht : t.timerScheduled
    · exact .inr (.inl ⟨rfl, tStar - now, by simp [fire, h, ht]⟩)
    · exact .inr (.inr ⟨rfl, by simp [fire, h, ht]⟩)

/-- `fire` never touches the limits or the buffer's length. -/
@[simp] theorem fire_rateLimits (t : Throttle) (now : Int) :
    (t.fire now).1.rateLimits = t.rateLimits := by
  rcases fire_cases t now with ⟨_, h⟩ | ⟨_, d, h⟩ | ⟨_, h⟩ <;> rw [h]

@[simp] theorem fire_maxRecentEvents (t : Throttle) (now : Int) :
    (t.fire now).1.maxRecentEvents = t.maxRecentEvents := by
  rcases fire_cases t now with ⟨_, h⟩ | ⟨_, d, h⟩ | ⟨_, h⟩ <;> rw [h]

/-- What `fire` does to the timer flag: it raises it exactly when it defers, and a drop
happens only with the flag already up. -/
theorem fire_timer (t : Throttle) (now : Int) :
    ((t.fire now).2 = .invoked ∧ (t.fire now).1.timerScheduled = t.timerScheduled) ∨
    (∃ d, (t.fire now).2 = .deferred d ∧ t.timerScheduled = false ∧
      (t.fire now).1.timerScheduled = true) ∨
    ((t.fire now).2 = .dropped ∧ t.timerScheduled = true ∧
      (t.fire now).1.timerScheduled = true) := by
  rcases fire_cases t now with ⟨_, h⟩ | ⟨h0, d, h⟩ | ⟨h0, h⟩ <;> rw [h]
  · exact .inl ⟨rfl, rfl⟩
  · exact .inr (.inl ⟨d, rfl, h0, rfl⟩)
  · exact .inr (.inr ⟨rfl, h0, h0⟩)

end Throttle

/-- A throttle with its scheduler and listener: the clock, the due times of the pending
`RetryFire` tasks, and the times the listener was called. -/
structure ThrottleRun where
  throttle : Throttle
  now : Int
  retries : List Int
  calls : List Int
  deriving DecidableEq, Repr

namespace ThrottleRun

/-- A run starting at `start`, with a fresh throttle for `rateLimits`. -/
def init (rateLimits : List RateLimit) (start : Int) : ThrottleRun :=
  ⟨Throttle.new rateLimits, start, [], []⟩

/-- Apply what `Fire()` did: a listener call, or a `RetryFire` handed to the scheduler. -/
def record (r : ThrottleRun) (t : Throttle) : FireOutcome → ThrottleRun
  | .invoked => { r with throttle := t, calls := r.calls ++ [r.now] }
  | .deferred d => { r with throttle := t, retries := r.retries ++ [r.now + d] }
  | .dropped => { r with throttle := t }

/-- The calls and the scheduler's moves. -/
inductive Event
  | fire
  | retry (due : Int)
  | advance (dt : Nat)

/-- One event; `none` when the scheduler has no retry due at `due`. -/
def step (r : ThrottleRun) : Event → Option ThrottleRun
  | .fire => some (r.record (r.throttle.fire r.now).1 (r.throttle.fire r.now).2)
  | .retry due =>
    if due ∈ r.retries then
      some ({ r with retries := r.retries.erase due }.record
        (r.throttle.retryFire r.now).1 (r.throttle.retryFire r.now).2)
    else none
  | .advance dt => some { r with now := r.now + dt }

/-- The states runs reach from `init rateLimits start`. -/
inductive Reachable (rateLimits : List RateLimit) (start : Int) : ThrottleRun → Prop
  | init : Reachable rateLimits start (init rateLimits start)
  | step {r r' : ThrottleRun} (e : Event) :
      Reachable rateLimits start r → r.step e = some r' → Reachable rateLimits start r'

@[simp] theorem record_throttle (r : ThrottleRun) (t : Throttle) (o : FireOutcome) :
    (r.record t o).throttle = t := by
  cases o <;> rfl

@[simp] theorem record_now (r : ThrottleRun) (t : Throttle) (o : FireOutcome) :
    (r.record t o).now = r.now := by
  cases o <;> rfl

/-- The number of pending retries is the timer flag. -/
def TimerTracked (r : ThrottleRun) : Prop :=
  r.retries.length = r.throttle.timerScheduled.toNat

/-- Recording one `Fire()` of a throttle whose flag matched the pending retries. -/
theorem timerTracked_record {r : ThrottleRun} {t : Throttle} {now : Int}
    (hr : r.retries.length = t.timerScheduled.toNat) :
    (r.record (t.fire now).1 (t.fire now).2).TimerTracked := by
  rcases Throttle.fire_timer t now with ⟨h1, h2⟩ | ⟨d, h1, h0, h2⟩ | ⟨h1, h0, h2⟩ <;>
    simp_all [TimerTracked, record]

theorem timerTracked_step {r r' : ThrottleRun} {e : Event} (hr : r.TimerTracked)
    (h : r.step e = some r') : r'.TimerTracked := by
  cases e with
  | fire => cases h; exact timerTracked_record hr
  | retry due =>
    simp only [step] at h
    split at h
    · cases h
      rename_i hdue
      have hlen : r.retries.length = 1 := by
        have := List.length_pos_of_mem hdue
        unfold TimerTracked at hr
        cases hb : r.throttle.timerScheduled <;> simp_all
      exact timerTracked_record (by simp [List.length_erase_of_mem hdue, hlen])
    · cases h
  | advance dt => cases h; exact hr

theorem Reachable.timerTracked {rateLimits : List RateLimit} {start : Int} {r : ThrottleRun}
    (h : r.Reachable rateLimits start) : r.TimerTracked := by
  induction h with
  | init => rfl
  | step e _ h ih => exact timerTracked_step ih h

/-- The throttle a step hands to `record`, from a state with the same clock and calls. -/
theorem step_record {r r' : ThrottleRun} {e : Event} (he : e = .fire ∨ ∃ due, e = .retry due)
    (h : r.step e = some r') :
    ∃ r₀ : ThrottleRun, ∃ t : Throttle, r₀.calls = r.calls ∧ r₀.now = r.now ∧
      t.recentEventTimes = r.throttle.recentEventTimes ∧ t.rateLimits = r.throttle.rateLimits ∧
      t.maxRecentEvents = r.throttle.maxRecentEvents ∧
      r' = r₀.record (t.fire r.now).1 (t.fire r.now).2 := by
  rcases he with rfl | ⟨due, rfl⟩
  · exact ⟨r, r.throttle, rfl, rfl, rfl, rfl, rfl, (Option.some.inj h).symm⟩
  · simp only [step] at h
    split at h
    · exact ⟨{ r with retries := r.retries.erase due }, { r.throttle with timerScheduled := false },
        rfl, rfl, rfl, rfl, rfl, (Option.some.inj h).symm⟩
    · cases h

/-- The flag, read off the pending retries. -/
theorem TimerTracked.flag_iff {r : ThrottleRun} (h : r.TimerTracked) :
    (r.throttle.timerScheduled = true ↔ r.retries.length = 1) ∧ r.retries.length ≤ 1 := by
  unfold TimerTracked at h
  rw [h]
  cases r.throttle.timerScheduled <;> simp

/-- In every reachable state the flag is up exactly when one retry is pending, and never
two are; every `Fire()`, the one a retry makes included, either calls the listener before
it returns or returns with a retry pending. -/
theorem throttle_timer_tracks_retry {rateLimits : List RateLimit} {start : Int}
    {r : ThrottleRun} (h : r.Reachable rateLimits start) :
    (r.throttle.timerScheduled = true ↔ r.retries.length = 1) ∧ r.retries.length ≤ 1 ∧
    ∀ e r', (e = .fire ∨ ∃ due, e = .retry due) → r.step e = some r' →
      r'.calls = r.calls ++ [r.now] ∨ r'.retries.length = 1 := by
  refine ⟨h.timerTracked.flag_iff.1, h.timerTracked.flag_iff.2, fun e r' he hs => ?_⟩
  have ht' : r'.TimerTracked := (Reachable.step e h hs).timerTracked
  obtain ⟨r₀, t, hc, hn, -, -, -, rfl⟩ := step_record he hs
  unfold TimerTracked at ht'
  rcases Throttle.fire_timer t r.now with ⟨h1, -⟩ | ⟨d, h1, -, h2⟩ | ⟨h1, -, h2⟩
  · left; simp [h1, record, hc, hn]
  · right; simp_all
  · right; simp_all

/-- The protocol's limits, one call a second and six a minute: after a call at `0` and a
second `Fire()` half a second later, one retry is pending for `1 s` and the flag is up. -/
theorem throttle_timer_tracks_retry_deferred :
    let r : ThrottleRun := ⟨⟨[⟨1000000, 1⟩, ⟨60000000, 6⟩], true, [0], 6⟩, 500000, [1000000], [0]⟩
    (r.throttle.timerScheduled = true ↔ r.retries.length = 1) ∧ r.retries.length ≤ 1 ∧
    ∀ e r', (e = .fire ∨ ∃ due, e = .retry due) → r.step e = some r' →
      r'.calls = r.calls ++ [r.now] ∨ r'.retries.length = 1 :=
  @throttle_timer_tracks_retry [⟨1000000, 1⟩, ⟨60000000, 6⟩] 0 _
    (.step .fire (.step (.advance 500000) (.step .fire .init rfl) rfl) rfl)

end ThrottleRun

end CacheInvalidation
