import CacheInvalidation.ClientRun

/-!
# Acks follow delivery

An ack goes to the server only for an invalidation the listener was handed. The chain has
four links, each a field of `AcksDelivered`: an invalidation reaches the listener only from
an inbound message, in the `Invalidate` or `InvalidateAll` call `ProcessInvalidation`
(`:329-347`) schedules with its ack closure; the application holds a closure only once that
call has run; `ScheduleAcknowledgeInvalidation` (`:357-364`) runs for a closure the
application holds; and `AcknowledgeInvalidation` (`:349-355`) queues the ack that
`TakeOutboundMessage` (`:395-424`) puts on the wire.

`acksDelivered_step` says one step keeps the chain, from what `step_listener` and the
conservation laws of `ClientRun` say a step can do.
`acks_follow_delivery` is the law over every run from the constructor: each ack a message
has carried, with the client's stamp taken off, is for a closure the listener already holds,
and each closure it holds is for an invalidation that arrived in an inbound message of the
run. Since every prefix of a run is a run, the listener's call ran before the ack went out.
-/

namespace CacheInvalidation

namespace InvalidationClientImpl

section Listener

variable (c : InvalidationClientImpl)

/-- The listener calls a method adds carry closures for the given invalidations only. -/
def AddsListenerCalls (received : List Invalidation) (c' : InvalidationClientImpl) : Prop :=
  ∃ l, c'.listenerTasks = c.listenerTasks ++ l ∧
    ∀ task ∈ l, ∀ ack ∈ task.ackClosure, ack.invalidation ∈ received

theorem addsListenerCalls_of_eq {received : List Invalidation} {c'}
    (h : c'.listenerTasks = c.listenerTasks) : c.AddsListenerCalls received c' :=
  ⟨[], by simp [h], by simp⟩

/-- A session status call carries no closure. -/
theorem addsListenerCalls_sessionStatusChanged {received : List Invalidation} {c'}
    (b : Bool) (h : c'.listenerTasks = c.listenerTasks ++ [.sessionStatusChanged b]) :
    c.AddsListenerCalls received c' :=
  ⟨_, h, by simp [ListenerTask.ackClosure]⟩

@[simp] theorem invalidationTask_ackClosure (inv : Invalidation) :
    (invalidationTask inv).ackClosure = some ⟨inv⟩ := by
  unfold invalidationTask
  split <;> rfl

/-- Of the branches of the `switch`, only `HandleObjectControl` hands out closures, for the
bundle's invalidations. -/
theorem dispatch_addsListenerCalls {bundle : ServerToClientMessage} {a : MessageAction}
    {c' : InvalidationClientImpl} (h : c.dispatch bundle a = some c') :
    c.AddsListenerCalls bundle.invalidation c' := by
  cases a <;> simp only [dispatch, Option.some.injEq, reduceCtorEq] at h <;> subst h
  · exact addsListenerCalls_sessionStatusChanged _ true rfl
  · exact addsListenerCalls_of_eq _ rfl
  · exact addsListenerCalls_sessionStatusChanged _ false rfl
  · refine ⟨_, handleObjectControl_listenerTasks c bundle, fun task ht ack hack => ?_⟩
    obtain ⟨inv, hinv, rfl⟩ := List.mem_map.1 ht
    simp only [invalidationTask_ackClosure, Option.mem_def, Option.some.injEq] at hack
    exact hack ▸ hinv

theorem handleInboundMessage_addsListenerCalls (bundle : ServerToClientMessage) :
    c.AddsListenerCalls bundle.invalidation (c.handleInboundMessage bundle) := by
  unfold handleInboundMessage
  split
  · exact addsListenerCalls_of_eq _ rfl
  · dsimp only
    split
    · exact addsListenerCalls_of_eq _ rfl
    · rename_i c' h
      exact (dispatch_addsListenerCalls _ h :)

/-- No internal task touches the listener's queue. -/
theorem runInternalTask_listenerTasks (task : InternalTask) :
    (c.runInternalTask task).listenerTasks = c.listenerTasks := by
  have hnet : ∀ (c : InvalidationClientImpl) r, (c.applyNetworkResult r).listenerTasks = c.listenerTasks :=
    fun _ r => by obtain ⟨n, _ | _⟩ := r <;> rfl
  have hex : c.checkExhaustion.listenerTasks = c.listenerTasks := by
    unfold checkExhaustion; split <;> rfl
  cases task with
  | periodicTask =>
    show c.periodicTaskBody.listenerTasks = c.listenerTasks
    unfold periodicTaskBody
    split
    · rfl
    · rcases signalIfDataToSend_cases c.checkExhaustion with h | h <;> rw [h]
      · exact hex
      · exact (hnet _ _).trans hex
  | handleSeqnoWritebackResult m success => exact (handleSeqnoWritebackResult_queues c m success).2.2
  | acknowledgeInvalidation inv => exact hnet _ _
  | retryFire => exact hnet _ _
  | handleBestEffortWrite result => rfl

end Listener

end InvalidationClientImpl

namespace Ticl

/-- The invalidations an event brings in: those of an inbound message. -/
def Event.received : Event → List Invalidation
  | .handleInboundMessage bundle => bundle.invalidation
  | _ => []

section Step

variable {t t' : Ticl} {e : Event} {out : Option ClientToServerMessage}

/-- What a step does on the listener's side: it adds listener calls whose closures are for
invalidations it brought in, and leaves the closures the application holds as they are; or
it runs the oldest call, whose closure the application then holds. -/
theorem step_listener (h : t.step e = some (t', out)) :
    (t'.heldAcks = t.heldAcks ∧ t.client.AddsListenerCalls e.received t'.client) ∨
      ∃ task, t.client.listenerTasks = task :: t'.client.listenerTasks ∧
        t'.heldAcks = t.heldAcks ++ task.ackClosure.toList := by
  cases e with
  | handleInboundMessage bundle =>
    cases h
    exact .inl ⟨rfl, t.client.handleInboundMessage_addsListenerCalls bundle⟩
  | takeOutboundMessage =>
    obtain ⟨c', msg, hc, rfl, rfl⟩ := step_takeOutboundMessage h
    obtain ⟨⟨sm, rm, rfl⟩, -⟩ := InvalidationClientImpl.takeOutboundMessage_spec _ hc
    exact .inl ⟨rfl, InvalidationClientImpl.addsListenerCalls_of_eq _ rfl⟩
  | runInternalTask task =>
    obtain ⟨-, rfl, rfl⟩ := step_runInternalTask h
    exact .inl ⟨rfl, InvalidationClientImpl.addsListenerCalls_of_eq _
      (InvalidationClientImpl.runInternalTask_listenerTasks _ task)⟩
  | runListenerTask =>
    obtain ⟨task, rest, hq, rfl, rfl⟩ := step_runListenerTask h
    exact .inr ⟨task, hq, rfl⟩
  | runAck ack =>
    obtain ⟨-, rfl, rfl⟩ := step_runAck h
    exact .inl ⟨rfl, InvalidationClientImpl.addsListenerCalls_of_eq _ rfl⟩
  | completeWrite w success =>
    obtain ⟨-, rfl, rfl⟩ := step_completeWrite h
    exact .inl ⟨rfl, InvalidationClientImpl.addsListenerCalls_of_eq _ rfl⟩
  | _ =>
    cases h
    exact .inl ⟨rfl, InvalidationClientImpl.addsListenerCalls_of_eq _ rfl⟩

/-- A closure the application holds, it keeps. -/
theorem step_heldAcks_mono (h : t.step e = some (t', out)) {ack : AckClosure}
    (ha : ack ∈ t.heldAcks) : ack ∈ t'.heldAcks := by
  rcases step_listener h with ⟨hh, -⟩ | ⟨_, -, hh⟩ <;> rw [hh]
  · exact ha
  · exact List.mem_append_left _ ha

/-- The ack a step acknowledges is that of an `AcknowledgeInvalidation` task that was
pending. -/
theorem step_acknowledged (h : t.step e = some (t', out)) :
    ∀ inv ∈ e.acknowledged, InternalTask.acknowledgeInvalidation inv ∈ t.client.internalTasks := by
  cases e with
  | runInternalTask task =>
    obtain ⟨hm, -, -⟩ := step_runInternalTask h
    cases task <;> simp [Event.acknowledged, InternalTask.acked, hm]
  | _ => simp [Event.acknowledged]

/-- An `AcknowledgeInvalidation` task a step schedules is for a closure the application
holds. -/
theorem step_schedules_acknowledgeInvalidation (h : t.step e = some (t', out)) :
    ∀ inv, InternalTask.acknowledgeInvalidation inv ∈ e.schedules → ⟨inv⟩ ∈ t.heldAcks := by
  cases e with
  | runInternalTask task => cases task <;> simp [Event.schedules, InternalTask.successors]
  | runAck ack =>
    obtain ⟨hm, -, -⟩ := step_runAck h
    simpa [Event.schedules] using hm
  | completeWrite w success =>
    cases hc : w.callback <;> simp [Event.schedules, WriteCallback.task, hc]
  | _ => simp [Event.schedules]

end Step

/-! ## The chain from inbound message to ack -/

/-- Where the acks of a client come from, given the invalidations `received` so far. -/
structure AcksDelivered (received : List Invalidation) (t : Ticl) : Prop where
  /-- A queued ack is for a closure the application holds. -/
  pending : ∀ inv ∈ t.client.pendingInvalidationAcks, ⟨inv⟩ ∈ t.heldAcks
  /-- So is a pending `AcknowledgeInvalidation`. -/
  scheduled : ∀ inv, InternalTask.acknowledgeInvalidation inv ∈ t.client.internalTasks →
    ⟨inv⟩ ∈ t.heldAcks
  /-- A closure the application holds is for an invalidation received. -/
  held : ∀ ack ∈ t.heldAcks, ack.invalidation ∈ received
  /-- So is a closure still on its way to the listener. -/
  listener : ∀ task ∈ t.client.listenerTasks, ∀ ack ∈ task.ackClosure, ack.invalidation ∈ received

section Chain

variable {received : List Invalidation} {t t' : Ticl} {e : Event}
  {out : Option ClientToServerMessage}

/-- The acks a step sends and those it leaves queued are for closures the application
held before the step. -/
theorem AcksDelivered.acks_held (hp : AcksDelivered received t) (h : t.step e = some (t', out)) :
    ∀ inv ∈ ackedOnWire out.toList ++ t'.client.pendingInvalidationAcks, ⟨inv⟩ ∈ t.heldAcks := by
  intro inv hinv
  rcases List.mem_append.1 ((Ticl.step_acks h).subset hinv) with hinv | hinv
  · exact hp.pending inv hinv
  · exact hp.scheduled inv (step_acknowledged h inv (Option.mem_toList.1 hinv))

theorem acksDelivered_step (he : ∀ inv ∈ e.received, inv ∈ received)
    (hp : AcksDelivered received t) (h : t.step e = some (t', out)) :
    AcksDelivered received t' := by
  have pending : ∀ inv ∈ t'.client.pendingInvalidationAcks, ⟨inv⟩ ∈ t'.heldAcks :=
    fun inv hinv => step_heldAcks_mono h (hp.acks_held h inv (List.mem_append_right _ hinv))
  have scheduled : ∀ inv, InternalTask.acknowledgeInvalidation inv ∈ t'.client.internalTasks →
      ⟨inv⟩ ∈ t'.heldAcks := by
    intro inv hinv
    obtain ⟨n, hperm⟩ := step_internalTasks h
    rcases List.mem_append.1 (hperm.subset (List.mem_append_right _ hinv)) with hinv | hinv
    · rcases List.mem_append.1 hinv with hinv | hinv
      · exact step_heldAcks_mono h (hp.scheduled inv hinv)
      · exact step_heldAcks_mono h (step_schedules_acknowledgeInvalidation h inv hinv)
    · cases (List.eq_of_mem_replicate hinv)
  rcases step_listener h with ⟨hh, l, hl, hnew⟩ | ⟨task', hq, hh⟩
  · -- listener calls added, no closure handed over
    refine ⟨pending, scheduled, fun ack hack => hp.held ack (hh ▸ hack), fun task ht ack hack => ?_⟩
    rcases List.mem_append.1 (hl ▸ ht) with ht | ht
    · exact hp.listener task ht ack hack
    · exact he _ (hnew task ht ack hack)
  · -- the oldest call ran, and the application now holds its closure
    refine ⟨pending, scheduled, fun ack hack => ?_,
      fun task ht => hp.listener task (hq ▸ List.mem_cons_of_mem _ ht)⟩
    rcases List.mem_append.1 (hh ▸ hack) with hack | hack
    · exact hp.held ack hack
    · exact hp.listener task' (hq ▸ List.mem_cons_self _ _) ack (Option.mem_toList.1 hack)

/-- A closure held stays held over a run. -/
theorem heldAcks_run {a : AckClosure} {es : List Event} {sent : List ClientToServerMessage}
    (ha : a ∈ t.heldAcks) (h : t.run es = some (t', sent)) : a ∈ t'.heldAcks :=
  Run.preserves (fun _ => True) (fun t => a ∈ t.heldAcks) (fun _ ha hs => step_heldAcks_mono hs ha)
    (fun _ _ => trivial) ha h

/-- Over a run that brings in only invalidations of `received`, the chain holds throughout,
and every ack sent is for a closure the application holds at the end. -/
theorem acksDelivered_run : ∀ {es : List Event} {t t' : Ticl} {sent : List ClientToServerMessage},
    (∀ e ∈ es, ∀ inv ∈ e.received, inv ∈ received) → AcksDelivered received t →
      t.run es = some (t', sent) →
      AcksDelivered received t' ∧ ∀ inv ∈ ackedOnWire sent, ⟨inv⟩ ∈ t'.heldAcks
  | [], t, t', sent, _, hp, h => by
    simp only [run, Option.some.injEq, Prod.mk.injEq] at h
    obtain ⟨rfl, rfl⟩ := h
    exact ⟨hp, by simp [ackedOnWire]⟩
  | e :: es, t, t', sent, he, hp, h => by
    obtain ⟨t₁, out, sent', h₁, h₂, rfl⟩ := run_cons h
    obtain ⟨hp', hsent⟩ := acksDelivered_run (fun e' h' => he e' (List.mem_cons_of_mem _ h'))
      (acksDelivered_step (he e (List.mem_cons_self _ _)) hp h₁) h₂
    refine ⟨hp', fun inv hinv => ?_⟩
    rcases List.mem_append.1 ((ackedOnWire_append _ _) ▸ hinv) with hinv | hinv
    · -- sent by this step: held before it, so held at the end
      exact heldAcks_run (step_heldAcks_mono h₁ (hp.acks_held h₁ inv (List.mem_append_left _ hinv))) h₂
    · exact hsent inv hinv

end Chain

theorem acksDelivered_new (config : ClientConfig) (clientType now : Int)
    (persistentState : Option TiclState) (received : List Invalidation) :
    AcksDelivered received (Ticl.new config clientType now persistentState) := by
  refine ⟨by simp [new_pendingInvalidationAcks], by simp [new_internalTasks], by simp [Ticl.new],
    fun task ht ack hack => ?_⟩
  simp only [Ticl.new, InvalidationClientImpl.new] at ht
  split at ht <;>
    simp_all [InvalidationClientImpl.allocateNewSequenceNumbers, InvalidationClientImpl.writeState,
      InvalidationClientImpl.scheduleOnListenerThread, InvalidationClientImpl.schedule,
      ListenerTask.ackClosure]

/-- Acks follow delivery: over every run from the constructor, each ack a message has
carried, with the client's stamp taken off, is for a closure the application holds, that is,
one an `Invalidate` or `InvalidateAll` call that has run handed it; and each closure it holds
is for an invalidation that arrived in an inbound message of the run. -/
theorem acks_follow_delivery {config : ClientConfig} {clientType now : Int}
    {persistentState : Option TiclState} {es : List Event} {t : Ticl}
    {sent : List ClientToServerMessage}
    (h : (Ticl.new config clientType now persistentState).run es = some (t, sent)) :
    (∀ inv ∈ ackedOnWire sent, (⟨inv⟩ : AckClosure) ∈ t.heldAcks) ∧
    ∀ ack ∈ t.heldAcks, ack.invalidation ∈ es.flatMap Event.received := by
  obtain ⟨hp, hsent⟩ := acksDelivered_run
    (fun e he inv hinv => List.mem_flatMap.2 ⟨e, he, hinv⟩) (acksDelivered_new _ _ _ _ _) h
  exact ⟨hsent, hp.held⟩

/-- One invalidation delivered, acked by the application, and taken out: the one ack on the
wire is for the closure its `Invalidate` call handed over. -/
theorem acks_follow_delivery_acked_once :
    let inv : Invalidation := ⟨⟨2, [97]⟩, 7, none, some []⟩
    let es : List Event :=
      [.handleInboundMessage
          { messageType := some .typeAssignClientId
            clientUniquifier := some [117]
            sessionToken := some [116] },
        .handleInboundMessage
          { messageType := some .typeObjectControl
            sessionToken := some [116]
            invalidation := [inv] },
        .runListenerTask, .runListenerTask, .runAck ⟨inv⟩,
        .runInternalTask (.acknowledgeInvalidation inv), .takeOutboundMessage]
    ∃ t sent, (Ticl.new ⟨2, 10, [⟨1000000, 1⟩], 60000000, 60000000⟩ 0 0 none).run es = some (t, sent) ∧
      ackedOnWire sent = [inv] ∧
      (∀ inv ∈ ackedOnWire sent, (⟨inv⟩ : AckClosure) ∈ t.heldAcks) ∧
      ∀ ack ∈ t.heldAcks, ack.invalidation ∈ es.flatMap Event.received := by
  intro inv es
  obtain ⟨t, sent, h⟩ : ∃ t sent,
      (Ticl.new ⟨2, 10, [⟨1000000, 1⟩], 60000000, 60000000⟩ 0 0 none).run es = some (t, sent) :=
    ⟨_, _, rfl⟩
  have hw : ((Ticl.new ⟨2, 10, [⟨1000000, 1⟩], 60000000, 60000000⟩ 0 0 none).run es).map
      (fun r => ackedOnWire r.2) = some [inv] := by decide
  rw [h] at hw
  exact ⟨t, sent, h, Option.some.inj hw, acks_follow_delivery h⟩

end Ticl

end CacheInvalidation
