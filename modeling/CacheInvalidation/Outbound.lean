import CacheInvalidation.ClientRun
import CacheInvalidation.RateLimits

/-!
# The client's outbound throttle

The client fires its network manager's `Throttle` from three places: `PeriodicTask` and
`AcknowledgeInvalidation` through `OutboundDataReady`, and the throttle's own `RetryFire`,
which runs as a task on the internal scheduler. `ThrottleRun` is the throttle alone, with
the scheduler's pending retries kept as their due times. A client `Simulates` a throttle run
when the throttles and clocks agree, the run's pending retries are the due times the client's
scheduler keeps, one for each `RetryFire` task, and the outbound listener was called at the
same times.

Each step of the client is at most one step of the throttle run (`simulates_step`): a fire
where the client fires, a retry where it runs a `RetryFire` task, the clock where time
passes, and nothing otherwise. So every run of the client is simulated by a reachable
throttle run (`simulates_run`), and the throttle's laws hold of the client:

* `client_timer_tracks_retry_task`: the throttle's timer flag is up exactly when one
  `RetryFire` task is pending, and never two are;
* `client_respects_rate_limits`: the outbound listener is called at most `count` times in
  any window of length `windowSize`.
-/

namespace CacheInvalidation

namespace InvalidationClientImpl

/-- What a throttle run sees of a client: the throttle, the clock, the pending `RetryFire`
tasks with their due times, and the times of the outbound listener's calls. -/
def throttleView (c : InvalidationClientImpl) : Throttle × Int × Nat × List Int × List Int :=
  (c.networkManager.throttle, c.now, c.internalTasks.count .retryFire, c.retryFireDue,
    c.networkManager.outboundListenerCalls)

/-- The client's throttle, clock, `RetryFire` tasks with their due times, and listener calls
are a throttle run's. -/
structure Simulates (c : InvalidationClientImpl) (r : ThrottleRun) : Prop where
  throttle : r.throttle = c.networkManager.throttle
  now : r.now = c.now
  retries : r.retries.length = c.internalTasks.count .retryFire
  calls : r.calls = c.networkManager.outboundListenerCalls
  dues : r.retries = c.retryFireDue

theorem Simulates.of_throttleView {c c' : InvalidationClientImpl} {r : ThrottleRun}
    (h : Simulates c r) (hv : c'.throttleView = c.throttleView) : Simulates c' r := by
  simp only [throttleView, Prod.mk.injEq] at hv
  obtain ⟨h₁, h₂, h₃, h₄, h₅⟩ := hv
  exact ⟨h.throttle.trans h₁.symm, h.now.trans h₂.symm, h.retries.trans h₃.symm,
    h.calls.trans h₅.symm, h.dues.trans h₄.symm⟩

/-! ## The methods that leave the throttle alone -/

theorem dispatch_throttleView {c c' : InvalidationClientImpl} {bundle : ServerToClientMessage}
    {a : MessageAction} (h : c.dispatch bundle a = some c') : c'.throttleView = c.throttleView := by
  cases a <;> simp only [dispatch, Option.some.injEq, reduceCtorEq] at h <;> subst h <;>
    simp [throttleView, handleNewSession, handleLostSession, forgetClientId, handleObjectControl,
      foldl_processInvalidation, writeState, scheduleOnListenerThread,
      NetworkManager.recordImplicitHeartbeat]

theorem handleInboundMessage_throttleView (c : InvalidationClientImpl)
    (bundle : ServerToClientMessage) :
    (c.handleInboundMessage bundle).throttleView = c.throttleView := by
  unfold handleInboundMessage
  split
  · rfl
  · dsimp only
    split
    · rfl
    · rename_i c' h
      have := dispatch_throttleView h
      simp only [throttleView, Prod.mk.injEq] at this ⊢
      exact this

theorem handleSeqnoWritebackResult_throttleView (c : InvalidationClientImpl) (m : Int)
    (success : Bool) : (c.handleSeqnoWritebackResult m success).throttleView = c.throttleView := by
  unfold handleSeqnoWritebackResult
  split <;> rfl

theorem takeOutboundMessage_throttleView {c c' : InvalidationClientImpl}
    {msg : ClientToServerMessage} (h : c.takeOutboundMessage = some (c', msg)) :
    c'.throttleView = c.throttleView := by
  obtain ⟨⟨sm, rm, rfl⟩, -⟩ := takeOutboundMessage_spec c h
  rfl

/-- Taking a task other than a retry off the scheduler leaves the throttle's view alone. -/
theorem erase_throttleView {c : InvalidationClientImpl} {task : InternalTask}
    (ht : task ≠ .retryFire) :
    { c with internalTasks := c.internalTasks.erase task }.throttleView = c.throttleView := by
  simp [throttleView, List.count_erase_of_ne (Ne.symm ht)]

/-! ## Firing -/

/-- Taking what the throttle did is recording it in the throttle run. -/
theorem Simulates.applyFire {c : InvalidationClientImpl} {r : ThrottleRun} (h : Simulates c r)
    (t : Throttle) (o : FireOutcome) :
    Simulates (c.applyNetworkResult (c.networkManager.applyFire c.now (t, o))) (r.record t o) := by
  obtain ⟨h₁, h₂, h₃, h₄, h₅⟩ := h
  rw [h₅] at h₃
  cases o <;> constructor <;>
    simp [applyNetworkResult, NetworkManager.applyFire, ThrottleRun.record, schedule, *]

theorem Simulates.outboundDataReady {c : InvalidationClientImpl} {r : ThrottleRun}
    (h : Simulates c r) :
    Simulates c.outboundDataReady (r.record (r.throttle.fire r.now).1 (r.throttle.fire r.now).2) := by
  rw [h.throttle, h.now]
  exact h.applyFire _ _

theorem Simulates.retryFire {c : InvalidationClientImpl} {r : ThrottleRun} (h : Simulates c r) :
    Simulates c.retryFire
      (r.record (r.throttle.retryFire r.now).1 (r.throttle.retryFire r.now).2) := by
  rw [h.throttle, h.now]
  exact h.applyFire _ _

/-- Running a `RetryFire` task is running the throttle run's oldest pending retry, whenever
it is due. -/
theorem Simulates.runRetryFire {c : InvalidationClientImpl} {r : ThrottleRun} (h : Simulates c r)
    {due : Int} {rest : List Int} (hdue : r.retries = due :: rest) :
    ∃ r', r.step (.retry due) = some r' ∧
      Simulates ({ c with internalTasks := c.internalTasks.erase .retryFire }.runInternalTask .retryFire) r' := by
  have hmem : due ∈ r.retries := hdue ▸ List.mem_cons_self due rest
  have h₁ : Simulates { c with internalTasks := c.internalTasks.erase .retryFire
                               retryFireDue := c.retryFireDue.tail }
      { r with retries := r.retries.erase due } := by
    refine ⟨h.throttle, h.now, ?_, h.calls, ?_⟩
    · have hlen := h.retries
      simp only [List.length_erase_of_mem hmem, List.count_erase_self] at hlen ⊢
      omega
    · rw [← h.dues, hdue, List.erase_cons_head, List.tail_cons]
  exact ⟨_, if_pos hmem, h₁.retryFire⟩

/-- A tick fires the throttle at most once. -/
theorem Simulates.periodicTask {c : InvalidationClientImpl} {r : ThrottleRun}
    (h : Simulates c r) :
    Simulates c.periodicTask r ∨ ∃ r', r.step .fire = some r' ∧ Simulates c.periodicTask r' := by
  have hp : ∀ c' : InvalidationClientImpl,
      (c'.schedule .periodicTask).throttleView = c'.throttleView := fun c' => by
    simp [throttleView, schedule]
  have hx : Simulates c.checkExhaustion r := h.of_throttleView (by
    unfold checkExhaustion; split <;> rfl)
  unfold InvalidationClientImpl.periodicTask periodicTaskBody
  split
  · exact .inl ((h.of_throttleView (hp c)))
  · rcases signalIfDataToSend_cases c.checkExhaustion with hs | hs <;> rw [hs]
    · exact .inl (hx.of_throttleView (hp _))
    · exact .inr ⟨_, rfl, hx.outboundDataReady.of_throttleView (hp _)⟩

end InvalidationClientImpl

/-! ## Runs -/

namespace Ticl

open InvalidationClientImpl

/-- One step of the client is at most one step of the throttle run it simulates. -/
theorem simulates_step {t t' : Ticl} {e : Event} {out : Option ClientToServerMessage}
    {r : ThrottleRun} (hs : Simulates t.client r) (h : t.step e = some (t', out)) :
    Simulates t'.client r ∨ ∃ e' r', r.step e' = some r' ∧ Simulates t'.client r' := by
  cases e with
  | takeOutboundMessage =>
    obtain ⟨c', msg, hc, rfl, rfl⟩ := step_takeOutboundMessage h
    exact .inl (hs.of_throttleView (takeOutboundMessage_throttleView hc))
  | handleInboundMessage bundle =>
    cases h
    exact .inl (hs.of_throttleView (handleInboundMessage_throttleView _ bundle))
  | runInternalTask task =>
    obtain ⟨hm, rfl, rfl⟩ := step_runInternalTask h
    cases task with
    | retryFire =>
      -- a pending retry task is a pending throttle retry
      obtain ⟨due, rest, hr⟩ := List.exists_cons_of_length_pos (hs.retries ▸ List.count_pos_iff.2 hm)
      obtain ⟨r', he, h₁⟩ := hs.runRetryFire hr
      exact .inr ⟨.retry due, r', he, h₁⟩
    | periodicTask =>
      rcases (hs.of_throttleView
        (erase_throttleView (show InternalTask.periodicTask ≠ .retryFire by decide))).periodicTask with h₁ | ⟨r', he, h₁⟩
      · exact .inl h₁
      · exact .inr ⟨.fire, r', he, h₁⟩
    | acknowledgeInvalidation inv =>
      have h₁ : Simulates { t.client with
          internalTasks := t.client.internalTasks.erase (.acknowledgeInvalidation inv)
          pendingInvalidationAcks := inv :: t.client.pendingInvalidationAcks } r :=
        hs.of_throttleView (erase_throttleView (show InternalTask.acknowledgeInvalidation inv ≠ .retryFire by simp))
      exact .inr ⟨.fire, _, rfl, h₁.outboundDataReady⟩
    | handleSeqnoWritebackResult m success =>
      exact .inl ((hs.of_throttleView (erase_throttleView
        (show InternalTask.handleSeqnoWritebackResult m success ≠ .retryFire by simp))).of_throttleView
        (handleSeqnoWritebackResult_throttleView _ m success))
    | handleBestEffortWrite result =>
      exact .inl (hs.of_throttleView
        (erase_throttleView (show InternalTask.handleBestEffortWrite result ≠ .retryFire by simp)))
  | runListenerTask =>
    obtain ⟨_, _, -, rfl, rfl⟩ := step_runListenerTask h
    exact .inl (hs.of_throttleView rfl)
  | runAck ack =>
    obtain ⟨-, rfl, rfl⟩ := step_runAck h
    exact .inl (hs.of_throttleView (by
      simp [throttleView, scheduleAcknowledgeInvalidation, schedule]))
  | completeWrite w success =>
    obtain ⟨-, rfl, rfl⟩ := step_completeWrite h
    exact .inl (hs.of_throttleView (by
      cases hc : w.callback <;>
        simp [throttleView, completeWrite, schedule, WriteCallback.task, hc]))
  | advanceTime dt =>
    cases h
    exact .inr ⟨.advance dt, _, rfl, ⟨hs.throttle, by simp [hs.now], hs.retries, hs.calls, hs.dues⟩⟩
  | _ =>
    cases h
    exact .inl (hs.of_throttleView rfl)

/-- A fresh client is a fresh throttle run started at its clock. -/
theorem simulates_new (config : ClientConfig) (clientType now : Int)
    (persistentState : Option TiclState) :
    Simulates (Ticl.new config clientType now persistentState).client
      (ThrottleRun.init config.rateLimits now) := by
  constructor <;> simp only [Ticl.new, InvalidationClientImpl.new] <;> split <;> rfl

/-- Every run of the client from the constructor is simulated by a reachable throttle run. -/
theorem simulates_run {config : ClientConfig} {clientType now : Int}
    {persistentState : Option TiclState} {es : List Event} {t : Ticl}
    {sent : List ClientToServerMessage}
    (h : (Ticl.new config clientType now persistentState).run es = some (t, sent)) :
    ∃ r, r.Reachable config.rateLimits now ∧ Simulates t.client r := by
  refine Run.preserves (fun _ => True)
    (fun t => ∃ r, r.Reachable config.rateLimits now ∧ Simulates t.client r)
    (fun _ ⟨r, hr, hs⟩ h => ?_) (fun _ _ => trivial)
    ⟨_, .init, simulates_new config clientType now persistentState⟩ h
  rcases simulates_step hs h with hs' | ⟨e', r', he, hs'⟩
  · exact ⟨r, hr, hs'⟩
  · exact ⟨r', .step e' hr he, hs'⟩

/-! ## The throttle's laws, for the client -/

/-- Over every run from the constructor, the throttle's timer flag is up exactly when one
`RetryFire` task is pending on the internal scheduler, and never two are: a deferred
`OutboundDataReady` is never lost. -/
theorem client_timer_tracks_retry_task {config : ClientConfig} {clientType now : Int}
    {persistentState : Option TiclState} {es : List Event} {t : Ticl}
    {sent : List ClientToServerMessage}
    (h : (Ticl.new config clientType now persistentState).run es = some (t, sent)) :
    (t.client.networkManager.throttle.timerScheduled = true ↔
      t.client.internalTasks.count .retryFire = 1) ∧
    t.client.internalTasks.count .retryFire ≤ 1 := by
  obtain ⟨r, hr, hs⟩ := simulates_run h
  have := hr.timerTracked.flag_iff
  rwa [hs.throttle, hs.retries] at this

/-- Two ticks of a fresh client half a second apart, with the protocol's limits: the first
calls the outbound listener, the second is deferred to a `RetryFire` task. -/
theorem client_timer_tracks_retry_task_deferred :
    let config : ClientConfig := ⟨2, 10, [⟨1000000, 1⟩, ⟨60000000, 6⟩], 60000000, 60000000⟩
    let es : List Event :=
      [.runInternalTask .periodicTask, .advanceTime 500000, .runInternalTask .periodicTask]
    ∃ t sent, (Ticl.new config 0 0 none).run es = some (t, sent) ∧
      t.client.internalTasks.count .retryFire = 1 ∧
      (t.client.networkManager.throttle.timerScheduled = true ↔
        t.client.internalTasks.count .retryFire = 1) ∧
      t.client.internalTasks.count .retryFire ≤ 1 := by
  intro config es
  obtain ⟨t, sent, h⟩ : ∃ t sent, (Ticl.new config 0 0 none).run es = some (t, sent) :=
    ⟨_, _, rfl⟩
  have hcount : ((Ticl.new config 0 0 none).run es).map
      (fun r => r.1.client.internalTasks.count .retryFire) = some 1 := by decide
  rw [h] at hcount
  exact ⟨t, sent, h, Option.some.inj hcount, client_timer_tracks_retry_task h⟩

/-- For limits with counts of at least one, over every run from the constructor the outbound
listener is called at sorted times, each at least `windowSize` after the call `count`
places earlier, so at most `count` times in any half-open window of length `windowSize`. -/
theorem client_respects_rate_limits {config : ClientConfig} {clientType now : Int}
    {persistentState : Option TiclState} {es : List Event} {t : Ticl}
    {sent : List ClientToServerMessage} (hc : ∀ l ∈ config.rateLimits, 1 ≤ l.count)
    (h : (Ticl.new config clientType now persistentState).run es = some (t, sent)) :
    t.client.networkManager.outboundListenerCalls.Sorted (· ≤ ·) ∧
    (∀ l ∈ config.rateLimits, ∀ j a b, l.count ≤ j →
      t.client.networkManager.outboundListenerCalls[j]? = some a →
      t.client.networkManager.outboundListenerCalls[j - l.count]? = some b →
      l.windowSize ≤ a - b) ∧
    ∀ l ∈ config.rateLimits, ∀ s : Int,
      (t.client.networkManager.outboundListenerCalls.filter
        (fun x => s ≤ x ∧ x < s + l.windowSize)).length ≤ l.count := by
  obtain ⟨r, hr, hs⟩ := simulates_run h
  have hinv := hr.windowInv hc
  rw [← hs.calls]
  exact ⟨hinv.sorted, hinv.spaced, fun l hl s => count_window_le hinv.sorted (hinv.spaced l hl) s⟩

/-- The same two ticks: one call, at `0`. -/
theorem client_respects_rate_limits_two_ticks :
    let config : ClientConfig := ⟨2, 10, [⟨1000000, 1⟩, ⟨60000000, 6⟩], 60000000, 60000000⟩
    let es : List Event :=
      [.runInternalTask .periodicTask, .advanceTime 500000, .runInternalTask .periodicTask]
    (∀ l ∈ config.rateLimits, 1 ≤ l.count) ∧
    ∃ t sent, (Ticl.new config 0 0 none).run es = some (t, sent) ∧
      t.client.networkManager.outboundListenerCalls = [0] ∧
      ∀ l ∈ config.rateLimits, ∀ s : Int,
        (t.client.networkManager.outboundListenerCalls.filter
          (fun x => s ≤ x ∧ x < s + l.windowSize)).length ≤ l.count := by
  intro config es
  have hc : ∀ l ∈ config.rateLimits, 1 ≤ l.count := by decide
  obtain ⟨t, sent, h⟩ : ∃ t sent, (Ticl.new config 0 0 none).run es = some (t, sent) :=
    ⟨_, _, rfl⟩
  have hcalls : ((Ticl.new config 0 0 none).run es).map
      (fun r => r.1.client.networkManager.outboundListenerCalls) = some [0] := by decide
  rw [h] at hcalls
  exact ⟨hc, t, sent, h, Option.some.inj hcalls, (client_respects_rate_limits hc h).2.2⟩

end Ticl

end CacheInvalidation
