import CacheInvalidation.Client

/-!
# Runs of the client

A `Ticl` is an `InvalidationClientImpl` together with the one part of the application its
laws speak of: the ack closures the listener has been handed. `Ticl.step` is one thing that
can happen next: an application call, an inbound message, a `TakeOutboundMessage`, the
internal scheduler running any pending task, the listener thread running its oldest call,
the application running an ack closure it holds (a permanent callback, so as often as it
likes), the persistence layer reporting any pending write, or time passing. `Ticl.run` runs
a list of them and collects the messages taken.

Two conservation laws hold of every step, and so of every run:

* the internal scheduler loses no task: what a step runs and what it leaves pending is what
  was pending plus what it schedules, throttle retries apart (`step_internalTasks`);
* no ack is lost or made up: the acks a step puts on the wire, with the client's stamp
  taken off, and those it leaves queued are those queued before and the one it acknowledges
  (`step_acks`).

From them, over every run from the constructor:

* `periodic_task_pending_once`: exactly one `PeriodicTask` is pending, whichever exit each
  tick took;
* `acks_neither_lost_nor_duplicated`: the acks sent and those queued are, as a multiset, the
  invalidations acknowledged, each acknowledged once per run of an ack closure, and each
  `TakeOutboundMessage` takes the newest acks the message has room for.

`handleInboundMessage_delivers_in_order` is the delivery side: an object-control bundle is
handed to the listener one call per invalidation, in bundle order, each with the closure
that acks that invalidation.
-/

namespace CacheInvalidation

/-- The ack closure a listener call carries. -/
def ListenerTask.ackClosure : ListenerTask → Option AckClosure
  | .sessionStatusChanged _ => none
  | .invalidate _ ack => some ack
  | .invalidateAll ack => some ack

/-- A client with the ack closures its listener holds. -/
structure Ticl where
  client : InvalidationClientImpl
  heldAcks : List AckClosure
  deriving DecidableEq, Repr

namespace Ticl

/-- A client just constructed, whose listener holds nothing yet. -/
def new (config : ClientConfig) (clientType now : Int) (persistentState : Option TiclState) :
    Ticl :=
  ⟨InvalidationClientImpl.new config clientType now persistentState, []⟩

/-- What can happen to a running client. -/
inductive Event
  | register (oid : ObjectId)
  | unregister (oid : ObjectId)
  | permanentShutdown
  | handleInboundMessage (bundle : ServerToClientMessage)
  | takeOutboundMessage
  | runInternalTask (task : InternalTask)
  | runListenerTask
  | runAck (ack : AckClosure)
  | completeWrite (w : PendingWrite) (success : Bool)
  | advanceTime (dt : Nat)
  deriving DecidableEq, Repr

/-- One event, with the message it takes, if any; `none` if the event cannot happen (the
task or write is not pending, the closure is not held) or a `CHECK` fails. -/
def step (t : Ticl) : Event → Option (Ticl × Option ClientToServerMessage)
  | .register oid => some (⟨t.client.register oid, t.heldAcks⟩, none)
  | .unregister oid => some (⟨t.client.unregister oid, t.heldAcks⟩, none)
  | .permanentShutdown => some (⟨t.client.permanentShutdown, t.heldAcks⟩, none)
  | .handleInboundMessage bundle => some (⟨t.client.handleInboundMessage bundle, t.heldAcks⟩, none)
  | .takeOutboundMessage => t.client.takeOutboundMessage.map fun r => (⟨r.1, t.heldAcks⟩, some r.2)
  | .runInternalTask task =>
    if task ∈ t.client.internalTasks then
      some (⟨{ t.client with internalTasks := t.client.internalTasks.erase task }.runInternalTask task,
        t.heldAcks⟩, none)
    else none
  | .runListenerTask =>
    match t.client.listenerTasks with
    | [] => none
    | task :: rest => some (⟨{ t.client with listenerTasks := rest }, t.heldAcks ++ task.ackClosure.toList⟩, none)
  | .runAck ack =>
    if ack ∈ t.heldAcks then some (⟨t.client.scheduleAcknowledgeInvalidation ack, t.heldAcks⟩, none)
    else none
  | .completeWrite w success =>
    if w ∈ t.client.pendingWrites then some (⟨t.client.completeWrite w success, t.heldAcks⟩, none)
    else none
  | .advanceTime dt => some (⟨{ t.client with now := t.client.now + dt }, t.heldAcks⟩, none)

/-! Each guarded event, inverted once: what it needs, and the state it leaves. -/

section Inversion

variable {t t' : Ticl} {out : Option ClientToServerMessage}

theorem step_takeOutboundMessage (h : t.step .takeOutboundMessage = some (t', out)) :
    ∃ c' msg, t.client.takeOutboundMessage = some (c', msg) ∧ out = some msg ∧
      t' = ⟨c', t.heldAcks⟩ := by
  simp only [step, Option.map_eq_some'] at h
  obtain ⟨⟨c', msg⟩, hc, hr⟩ := h
  cases hr
  exact ⟨c', msg, hc, rfl, rfl⟩

theorem step_runInternalTask {task : InternalTask}
    (h : t.step (.runInternalTask task) = some (t', out)) :
    task ∈ t.client.internalTasks ∧ out = none ∧
      t' = ⟨{ t.client with internalTasks := t.client.internalTasks.erase task }.runInternalTask task,
        t.heldAcks⟩ := by
  simp only [step, Option.ite_none_right_eq_some, Option.some.injEq, Prod.mk.injEq] at h
  exact ⟨h.1, h.2.2.symm, h.2.1.symm⟩

theorem step_runListenerTask (h : t.step .runListenerTask = some (t', out)) :
    ∃ task rest, t.client.listenerTasks = task :: rest ∧ out = none ∧
      t' = ⟨{ t.client with listenerTasks := rest }, t.heldAcks ++ task.ackClosure.toList⟩ := by
  simp only [step] at h
  split at h
  · cases h
  · cases h
    exact ⟨_, _, ‹_›, rfl, rfl⟩

theorem step_runAck {ack : AckClosure} (h : t.step (.runAck ack) = some (t', out)) :
    ack ∈ t.heldAcks ∧ out = none ∧
      t' = ⟨t.client.scheduleAcknowledgeInvalidation ack, t.heldAcks⟩ := by
  simp only [step, Option.ite_none_right_eq_some, Option.some.injEq, Prod.mk.injEq] at h
  exact ⟨h.1, h.2.2.symm, h.2.1.symm⟩

theorem step_completeWrite {w : PendingWrite} {success : Bool}
    (h : t.step (.completeWrite w success) = some (t', out)) :
    w ∈ t.client.pendingWrites ∧ out = none ∧
      t' = ⟨t.client.completeWrite w success, t.heldAcks⟩ := by
  simp only [step, Option.ite_none_right_eq_some, Option.some.injEq, Prod.mk.injEq] at h
  exact ⟨h.1, h.2.2.symm, h.2.1.symm⟩

end Inversion

/-- A run of events, with the messages taken, oldest first; `none` if some event cannot
happen. -/
def run (t : Ticl) : List Event → Option (Ticl × List ClientToServerMessage)
  | [] => some (t, [])
  | e :: es =>
    match t.step e with
    | none => none
    | some (t', out) =>
      match t'.run es with
      | none => none
      | some (t'', sent) => some (t'', out.toList ++ sent)

theorem run_cons {t t'' : Ticl} {e : Event} {es : List Event} {sent : List ClientToServerMessage}
    (h : t.run (e :: es) = some (t'', sent)) :
    ∃ t' out sent', t.step e = some (t', out) ∧ t'.run es = some (t'', sent') ∧
      sent = out.toList ++ sent' := by
  simp only [run] at h
  split at h
  · cases h
  · rename_i t' out _
    split at h
    · cases h
    · rename_i sent' _
      simp only [Option.some.injEq, Prod.mk.injEq] at h
      obtain ⟨rfl, rfl⟩ := h
      exact ⟨t', out, sent', ‹_›, ‹_›, rfl⟩

/-- What every step of an allowed kind preserves, every run of such steps preserves. -/
theorem Run.preserves (E : Event → Prop) (P : Ticl → Prop)
    (hstep : ∀ {t t' : Ticl} {e : Event} {out}, E e → P t → t.step e = some (t', out) → P t') :
    ∀ {es : List Event} {t t' : Ticl} {sent}, (∀ e ∈ es, E e) → P t →
      t.run es = some (t', sent) → P t'
  | [], t, t', sent, _, hp, h => by
    simp only [run, Option.some.injEq, Prod.mk.injEq] at h
    exact h.1 ▸ hp
  | e :: es, t, t', sent, he, hp, h => by
    obtain ⟨t₁, out, sent', h₁, h₂, -⟩ := run_cons h
    exact Run.preserves E P hstep (fun e' h' => he e' (List.mem_cons_of_mem _ h'))
      (hstep (he e (List.mem_cons_self _ _)) hp h₁) h₂

/-! ## The internal scheduler -/

/-- The internal task an event runs. -/
def Event.runs : Event → Option InternalTask
  | .runInternalTask task => some task
  | _ => none

/-- The tasks an event hands the internal scheduler, throttle retries apart. -/
def Event.schedules : Event → List InternalTask
  | .runInternalTask task => task.successors
  | .runAck ack => [.acknowledgeInvalidation ack.invalidation]
  | .completeWrite w success => [w.callback.task success]
  | _ => []

/-- The scheduler loses no task: the task a step runs and the tasks it leaves pending are the
tasks pending before, those it schedules, and throttle retries. -/
theorem step_internalTasks {t t' : Ticl} {e : Event} {out : Option ClientToServerMessage}
    (h : t.step e = some (t', out)) :
    ∃ n, (e.runs.toList ++ t'.client.internalTasks).Perm
      (t.client.internalTasks ++ e.schedules ++ List.replicate n .retryFire) := by
  cases e with
  | takeOutboundMessage =>
    obtain ⟨c', msg, hc, rfl, rfl⟩ := step_takeOutboundMessage h
    obtain ⟨⟨sm, rm, rfl⟩, -⟩ := InvalidationClientImpl.takeOutboundMessage_spec _ hc
    exact ⟨0, by simp [Event.runs, Event.schedules]⟩
  | handleInboundMessage bundle =>
    cases h
    exact ⟨0, by simp [(InvalidationClientImpl.handleInboundMessage_queues _ bundle).1, Event.runs,
      Event.schedules]⟩
  | runInternalTask task =>
    obtain ⟨hm, rfl, rfl⟩ := step_runInternalTask h
    obtain ⟨n, hn⟩ := InvalidationClientImpl.runInternalTask_internalTasks
      { t.client with internalTasks := t.client.internalTasks.erase task } task
    refine ⟨n, ?_⟩
    rw [hn]
    simp only [Event.runs, Event.schedules, Option.toList_some, List.singleton_append,
      List.append_assoc]
    refine ((List.perm_cons_erase hm).append_right _).symm.trans ?_
    exact (List.Perm.append_left _ List.perm_append_comm)
  | runListenerTask =>
    obtain ⟨_, _, -, rfl, rfl⟩ := step_runListenerTask h
    exact ⟨0, by simp [Event.runs, Event.schedules]⟩
  | runAck ack =>
    obtain ⟨-, rfl, rfl⟩ := step_runAck h
    exact ⟨0, by simp [InvalidationClientImpl.scheduleAcknowledgeInvalidation, Event.runs,
      Event.schedules]⟩
  | completeWrite w success =>
    obtain ⟨-, rfl, rfl⟩ := step_completeWrite h
    exact ⟨0, by simp [Event.runs, Event.schedules]⟩
  | _ =>
    cases h
    exact ⟨0, by simp [InvalidationClientImpl.register, InvalidationClientImpl.unregister,
      InvalidationClientImpl.permanentShutdown, Event.runs, Event.schedules]⟩

/-- The count of any task but a throttle retry, through one step. -/
theorem count_step {t t' : Ticl} {e : Event} {out : Option ClientToServerMessage}
    (h : t.step e = some (t', out)) {task : InternalTask} (ht : task ≠ .retryFire) :
    e.runs.toList.count task + t'.client.internalTasks.count task =
      t.client.internalTasks.count task + e.schedules.count task := by
  obtain ⟨n, hp⟩ := step_internalTasks h
  have := hp.count_eq task
  simp only [List.count_append, List.count_replicate, beq_iff_eq, Ne.symm ht, if_false] at this
  omega

/-- A step runs a `PeriodicTask` exactly when it schedules one. -/
theorem Event.count_runs_periodicTask (e : Event) :
    e.runs.toList.count .periodicTask = e.schedules.count .periodicTask := by
  cases e with
  | runInternalTask task => cases task <;> simp [Event.runs, Event.schedules, InternalTask.successors]
  | completeWrite w success =>
    cases h : w.callback <;> simp [Event.runs, Event.schedules, WriteCallback.task, h]
  | _ => simp [Event.runs, Event.schedules]

/-- The constructor schedules the first tick and nothing else. -/
theorem new_internalTasks (config : ClientConfig) (clientType now : Int)
    (persistentState : Option TiclState) :
    (Ticl.new config clientType now persistentState).client.internalTasks = [.periodicTask] := by
  simp only [Ticl.new, InvalidationClientImpl.new]
  split <;> rfl

/-- Exactly one `PeriodicTask` is pending in every state a run from the constructor
reaches, and each tick, whichever exit it takes, leaves exactly one more than it found. -/
theorem periodic_task_pending_once {config : ClientConfig} {clientType now : Int}
    {persistentState : Option TiclState} {es : List Event} {t : Ticl}
    {sent : List ClientToServerMessage}
    (h : (Ticl.new config clientType now persistentState).run es = some (t, sent)) :
    t.client.internalTasks.count .periodicTask = 1 ∧
    ∀ c : InvalidationClientImpl,
      c.periodicTask.internalTasks.count .periodicTask = c.internalTasks.count .periodicTask + 1 := by
  refine ⟨?_, fun c => ?_⟩
  · refine Run.preserves (fun _ => True) (fun t => t.client.internalTasks.count .periodicTask = 1)
      (fun _ hp hs => ?_) (fun _ _ => trivial) (by simp [new_internalTasks]) h
    have := count_step hs (by decide : InternalTask.periodicTask ≠ .retryFire)
    rw [Event.count_runs_periodicTask] at this
    omega
  · obtain ⟨n, hn⟩ := c.periodicTaskBody_addsRetries
    simp [hn, List.count_replicate]

/-- The run of one tick from a fresh start: one `PeriodicTask` is pending after it. -/
theorem periodic_task_pending_once_after_tick :
    ∃ t sent, (Ticl.new ⟨2, 10, [⟨1000000, 1⟩], 60000000, 60000000⟩ 0 0 none).run
        [.runInternalTask .periodicTask] = some (t, sent) ∧
      t.client.internalTasks.count .periodicTask = 1 ∧
      ∀ c : InvalidationClientImpl,
        c.periodicTask.internalTasks.count .periodicTask = c.internalTasks.count .periodicTask + 1 :=
  ⟨_, _, rfl, @periodic_task_pending_once ⟨2, 10, [⟨1000000, 1⟩], 60000000, 60000000⟩ 0 0 none
    [.runInternalTask .periodicTask] _ _ rfl⟩

/-! ## Acks -/

/-- The invalidation an event passes to `AcknowledgeInvalidation`. -/
def Event.acknowledged : Event → Option Invalidation
  | .runInternalTask task => task.acked
  | _ => none

/-- The invalidation whose ack closure an event runs. -/
def Event.ackInvoked : Event → Option Invalidation
  | .runAck ack => some ack.invalidation
  | _ => none

/-- The acks a list of messages carries, each with the client's stamp taken off. -/
def ackedOnWire (sent : List ClientToServerMessage) : List Invalidation :=
  sent.flatMap fun msg => msg.ackedInvalidation.map InvalidationClientImpl.stripClientStamp

@[simp] theorem ackedOnWire_append (sent sent' : List ClientToServerMessage) :
    ackedOnWire (sent ++ sent') = ackedOnWire sent ++ ackedOnWire sent' := by
  simp [ackedOnWire]

/-- No step loses or makes up an ack: the acks it sends and those it leaves queued are those
queued before and the one it acknowledges. -/
theorem step_acks {t t' : Ticl} {e : Event} {out : Option ClientToServerMessage}
    (h : t.step e = some (t', out)) :
    (ackedOnWire out.toList ++ t'.client.pendingInvalidationAcks).Perm
      (t.client.pendingInvalidationAcks ++ e.acknowledged.toList) := by
  cases e with
  | takeOutboundMessage =>
    obtain ⟨c', msg, hc, rfl, rfl⟩ := step_takeOutboundMessage h
    obtain ⟨⟨sm, rm, rfl⟩, ha⟩ := InvalidationClientImpl.takeOutboundMessage_spec _ hc
    simp [ackedOnWire, ha, Event.acknowledged]
  | handleInboundMessage bundle =>
    cases h
    simp [(InvalidationClientImpl.handleInboundMessage_queues _ bundle).2, ackedOnWire,
      Event.acknowledged]
  | runInternalTask task =>
    obtain ⟨-, rfl, rfl⟩ := step_runInternalTask h
    simp only [InvalidationClientImpl.runInternalTask_pendingInvalidationAcks, ackedOnWire,
      Option.toList_none, List.flatMap_nil, List.nil_append, Event.acknowledged]
    exact List.perm_append_comm
  | runListenerTask =>
    obtain ⟨_, _, -, rfl, rfl⟩ := step_runListenerTask h
    simp [ackedOnWire, Event.acknowledged]
  | runAck ack =>
    obtain ⟨-, rfl, rfl⟩ := step_runAck h
    simp [InvalidationClientImpl.scheduleAcknowledgeInvalidation, ackedOnWire, Event.acknowledged]
  | completeWrite w success =>
    obtain ⟨-, rfl, rfl⟩ := step_completeWrite h
    simp [ackedOnWire, Event.acknowledged]
  | _ =>
    cases h
    simp [InvalidationClientImpl.register, InvalidationClientImpl.unregister,
      InvalidationClientImpl.permanentShutdown, ackedOnWire, Event.acknowledged]

/-- Over a run: the acks sent and those left queued are those queued at the start and the
invalidations acknowledged on the way. -/
theorem acks_run {t t' : Ticl} {es : List Event} {sent : List ClientToServerMessage}
    (h : t.run es = some (t', sent)) :
    (ackedOnWire sent ++ t'.client.pendingInvalidationAcks).Perm
      (t.client.pendingInvalidationAcks ++ es.filterMap Event.acknowledged) := by
  induction es generalizing t sent with
  | nil =>
    simp only [run, Option.some.injEq, Prod.mk.injEq] at h
    obtain ⟨rfl, rfl⟩ := h
    simp [ackedOnWire]
  | cons e es ih =>
    obtain ⟨t₁, out, sent', h₁, h₂, rfl⟩ := run_cons h
    have hf : (e :: es).filterMap Event.acknowledged = e.acknowledged.toList ++ es.filterMap Event.acknowledged := by
      cases he : e.acknowledged <;> simp [List.filterMap_cons, he]
    -- the rest of the run, then this step
    rw [ackedOnWire_append, List.append_assoc, hf]
    refine ((ih h₂).append_left _).trans ?_
    simpa only [List.append_assoc] using (step_acks h₁).append_right (es.filterMap Event.acknowledged)

/-- An `AcknowledgeInvalidation` task runs for an invalidation exactly when the step
acknowledges it. -/
theorem Event.count_runs_acknowledgeInvalidation (e : Event) (inv : Invalidation) :
    e.runs.toList.count (.acknowledgeInvalidation inv) = e.acknowledged.toList.count inv := by
  cases e with
  | runInternalTask task =>
    cases task <;> simp [Event.runs, Event.acknowledged, InternalTask.acked, List.count_singleton]
  | _ => simp [Event.runs, Event.acknowledged]

/-- Only an ack closure schedules an `AcknowledgeInvalidation`, for its own invalidation. -/
theorem Event.count_schedules_acknowledgeInvalidation (e : Event) (inv : Invalidation) :
    e.schedules.count (.acknowledgeInvalidation inv) = e.ackInvoked.toList.count inv := by
  cases e with
  | runInternalTask task =>
    cases task <;> simp [Event.schedules, Event.ackInvoked, InternalTask.successors]
  | runAck ack => simp [Event.schedules, Event.ackInvoked, List.count_singleton]
  | completeWrite w success =>
    cases h : w.callback <;> simp [Event.schedules, Event.ackInvoked, WriteCallback.task, h]
  | _ => simp [Event.schedules, Event.ackInvoked]

/-- Over a run, each `AcknowledgeInvalidation` task for an invalidation that runs was pending
at the start or scheduled by a run of its ack closure. -/
theorem acknowledged_count_run {t t' : Ticl} {es : List Event} {sent : List ClientToServerMessage}
    (h : t.run es = some (t', sent)) (inv : Invalidation) :
    (es.filterMap Event.acknowledged).count inv +
        t'.client.internalTasks.count (.acknowledgeInvalidation inv) =
      t.client.internalTasks.count (.acknowledgeInvalidation inv) +
        (es.filterMap Event.ackInvoked).count inv := by
  induction es generalizing t sent with
  | nil =>
    simp only [run, Option.some.injEq, Prod.mk.injEq] at h
    obtain ⟨rfl, rfl⟩ := h
    simp
  | cons e es ih =>
    obtain ⟨t₁, out, sent', h₁, h₂, -⟩ := run_cons h
    have hs := count_step h₁ (by simp : InternalTask.acknowledgeInvalidation inv ≠ .retryFire)
    rw [Event.count_runs_acknowledgeInvalidation, Event.count_schedules_acknowledgeInvalidation] at hs
    have := ih h₂
    simp only [List.filterMap_eq_flatMap_toList, List.flatMap_cons, List.count_append] at this ⊢
    omega

theorem new_pendingInvalidationAcks (config : ClientConfig) (clientType now : Int)
    (persistentState : Option TiclState) :
    (Ticl.new config clientType now persistentState).client.pendingInvalidationAcks = [] := by
  simp only [Ticl.new, InvalidationClientImpl.new]
  split <;> rfl

/-- Over every run from the constructor, no ack is lost or duplicated: the acks sent, with
the client's stamp taken off, and those still queued are, as a multiset, the invalidations
acknowledged, and each goes out at most once per run of its ack closure. Each
`TakeOutboundMessage` takes the newest `min(n, max(0, max_ops_per_message −
register_operation_size))` of the `n` queued acks for an object-control message, newest
first, and none otherwise. -/
theorem acks_neither_lost_nor_duplicated {config : ClientConfig} {clientType now : Int}
    {persistentState : Option TiclState} {es : List Event} {t : Ticl}
    {sent : List ClientToServerMessage}
    (h : (Ticl.new config clientType now persistentState).run es = some (t, sent)) :
    (ackedOnWire sent ++ t.client.pendingInvalidationAcks).Perm (es.filterMap Event.acknowledged) ∧
    (∀ inv, (ackedOnWire sent).count inv ≤ (es.filterMap Event.ackInvoked).count inv) ∧
    ∀ (c c' : InvalidationClientImpl) (msg : ClientToServerMessage),
      c.takeOutboundMessage = some (c', msg) →
      let k := if msg.messageType = some .typeObjectControl then
        (c.config.maxOpsPerMessage - msg.registerOperation.length).toNat else 0
      c'.pendingInvalidationAcks = c.pendingInvalidationAcks.drop k ∧
      msg.ackedInvalidation.map InvalidationClientImpl.stripClientStamp = c.pendingInvalidationAcks.take k ∧
      msg.ackedInvalidation.length = min k c.pendingInvalidationAcks.length := by
  have hperm := acks_run h
  rw [new_pendingInvalidationAcks, List.nil_append] at hperm
  refine ⟨hperm, fun inv => ?_, fun c c' msg hc => ?_⟩
  · have hw := hperm.count_eq inv
    have hs := acknowledged_count_run h inv
    simp only [List.count_append] at hw
    simp only [new_internalTasks, List.count_singleton, beq_iff_eq, reduceCtorEq, if_false] at hs
    omega
  · obtain ⟨⟨sm, rm, rfl⟩, ha⟩ := InvalidationClientImpl.takeOutboundMessage_spec _ hc
    simp [ha]

/-- One invalidation delivered, acked by the application, and taken out: it goes on the
wire once, stamped by the client. -/
theorem acks_neither_lost_nor_duplicated_acked_once :
    let inv : Invalidation := ⟨⟨2, [97]⟩, 7, none, some []⟩
    let es : List Event :=
      [.handleInboundMessage
          { messageType := some .typeAssignClientId
            clientUniquifier := some [117]
            sessionToken := some [116] },
        .handleInboundMessage
          { messageType := some .typeObjectControl
            sessionToken := some [116]
            invalidation := [inv] },
        .runListenerTask, .runListenerTask, .runAck ⟨inv⟩,
        .runInternalTask (.acknowledgeInvalidation inv), .takeOutboundMessage]
    ∃ t sent, (Ticl.new ⟨2, 10, [⟨1000000, 1⟩], 60000000, 60000000⟩ 0 0 none).run es = some (t, sent) ∧
      (ackedOnWire sent ++ t.client.pendingInvalidationAcks).Perm (es.filterMap Event.acknowledged) ∧
      sent.flatMap ClientToServerMessage.ackedInvalidation = [⟨⟨2, [97]⟩, 7, none, some [⟨"C", 0⟩]⟩] := by
  intro _ es
  obtain ⟨t, sent, h⟩ : ∃ t sent,
      (Ticl.new ⟨2, 10, [⟨1000000, 1⟩], 60000000, 60000000⟩ 0 0 none).run es = some (t, sent) :=
    ⟨_, _, rfl⟩
  have hw : ((Ticl.new ⟨2, 10, [⟨1000000, 1⟩], 60000000, 60000000⟩ 0 0 none).run es).map
      (fun r => r.2.flatMap ClientToServerMessage.ackedInvalidation) =
      some [⟨⟨2, [97]⟩, 7, none, some [⟨"C", 0⟩]⟩] := by decide
  rw [h] at hw
  exact ⟨t, sent, h, (acks_neither_lost_nor_duplicated h).1, Option.some.inj hw⟩

end Ticl

/-! ## Delivery -/

namespace InvalidationClientImpl

/-- An object-control bundle that arrives with no writeback in flight is handed to the
listener one call per invalidation, in bundle order: `InvalidateAll` for the object of
source `INTERNAL` named exactly `"ALL"`, `Invalidate` for any other, each with the closure of
its own invalidation; and running that closure schedules `AcknowledgeInvalidation` for that
invalidation. -/
theorem handleInboundMessage_delivers_in_order (c : InvalidationClientImpl)
    (bundle : ServerToClientMessage) (hw : c.awaitingSeqnoWriteback = false)
    (hc : (c.sessionManager.processMessage bundle).2 = .processObjectControl) :
    (c.handleInboundMessage bundle).listenerTasks = c.listenerTasks ++ bundle.invalidation.map
      (fun inv => if inv.objectId.source = objectIdSourceInternal ∧
          inv.objectId.name = invalidateAllObjectName
        then .invalidateAll ⟨inv⟩ else .invalidate inv ⟨inv⟩) ∧
    ∀ (c' : InvalidationClientImpl) (inv : Invalidation),
      (c'.scheduleAcknowledgeInvalidation ⟨inv⟩).internalTasks =
        c'.internalTasks ++ [.acknowledgeInvalidation inv] := by
  refine ⟨?_, fun _ _ => rfl⟩
  simp only [handleInboundMessage, hw, hc, dispatch, Bool.false_eq_true, ite_false]
  rw [handleObjectControl_listenerTasks]
  simp [invalidationTask, isInvalidateAll]

/-- A bundle with the invalidate-all object and an object whose name only begins with
`"ALL"`, after a fresh client was assigned its id. -/
theorem handleInboundMessage_delivers_in_order_all_prefix :
    let c := (InvalidationClientImpl.new ⟨2, 10, [⟨1000000, 1⟩], 60000000, 60000000⟩ 0 0 none).handleInboundMessage
      { messageType := some .typeAssignClientId, clientUniquifier := some [117], sessionToken := some [116] }
    let all : ObjectId := ⟨objectIdSourceInternal, invalidateAllObjectName⟩
    let allX : ObjectId := ⟨objectIdSourceInternal, invalidateAllObjectName ++ [88]⟩
    let bundle : ServerToClientMessage :=
      { messageType := some .typeObjectControl
        sessionToken := some [116]
        invalidation := [⟨all, 5, none, none⟩, ⟨allX, 6, none, none⟩] }
    c.awaitingSeqnoWriteback = false ∧
    (c.sessionManager.processMessage bundle).2 = .processObjectControl ∧
    (c.handleInboundMessage bundle).listenerTasks =
      [.sessionStatusChanged true, .invalidateAll ⟨⟨all, 5, none, none⟩⟩,
        .invalidate ⟨allX, 6, none, none⟩ ⟨⟨allX, 6, none, none⟩⟩] := by
  intro c all allX bundle
  refine ⟨rfl, rfl, ?_⟩
  rw [(handleInboundMessage_delivers_in_order c bundle rfl rfl).1]
  decide

end InvalidationClientImpl

end CacheInvalidation
