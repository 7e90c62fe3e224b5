import CacheInvalidation.ClientRun

/-!
# Restarts and sequence numbers

A `World` is the client across crashes: the blob the persistence layer holds, the running
incarnation, and every message any incarnation sent, with the client uniquifier it was
sent under. A write the persistence layer reports as successful has committed its blob
(`commit`). A crash loses the incarnation with its pending tasks and writes, and the next
one is constructed from the committed blob (`World.step`).

The constructor reserves a block of sequence numbers before a restarted client may use it:
it writes back `sequence_number_limit + seqno_block_size` and sets
`awaiting_seqno_writeback_` (`:103-119`). `HandleInboundMessage` and `PeriodicTask` test
the flag, and `PeriodicTask` forgets the client id once the counter has passed the block
(`:181-187`). `TakeOutboundMessage` (`:373-431`) tests neither, and the application may
call it at any time. Three runs follow from that:

* `message_taken_before_writeback`: a restarted client sends a registration under the
  persisted session token before the writeback has returned;
* `message_taken_past_reserved_block`: after four `Register`s with a block of two, the next
  message carries an operation beyond the block;
* `seqno_reused_after_restart`: the first incarnation sends sequence number 2, the last of
  its block, and the incarnation restarted from the blob that `HandleNewSession` wrote with
  that limit starts counting at 2 again, under the same uniquifier.
-/

namespace CacheInvalidation

/-- The client across crashes. -/
structure World where
  durable : Option TiclState
  ticl : Ticl
  sent : List (Bytes × ClientToServerMessage)
  deriving DecidableEq, Repr

namespace World

/-- The first incarnation, from the blob the persistence layer holds. -/
def new (config : ClientConfig) (clientType now : Int) (durable : Option TiclState) : World :=
  ⟨durable, Ticl.new config clientType now durable, []⟩

/-- What can happen: an event of the running incarnation, or a crash. -/
inductive Event
  | client (e : Ticl.Event)
  | crash
  deriving DecidableEq, Repr

/-- The blob after an event: a write reported successful has committed. -/
def commit (durable : Option TiclState) : Ticl.Event → Option TiclState
  | .completeWrite w true => some w.state
  | _ => durable

/-- One event. A message goes out under the uniquifier the session manager holds; a crash
restarts the client, with its configuration and clock, from the committed blob. -/
def step (w : World) : Event → Option World
  | .client e =>
    (w.ticl.step e).map fun r =>
      ⟨commit w.durable e, r.1,
        w.sent ++ r.2.toList.map fun msg => (w.ticl.client.sessionManager.clientUniquifier, msg)⟩
  | .crash =>
    let c := w.ticl.client
    some ⟨w.durable, Ticl.new c.config c.clientType c.now w.durable, w.sent⟩

/-- A run of events; `none` if some event cannot happen. -/
def run (w : World) : List Event → Option World
  | [] => some w
  | e :: es => (w.step e).bind fun w' => w'.run es

end World

/-! ## Three runs -/

/-- Scenario 2 of the spec: a client restarted from `{u, t, 100}` with blocks of 50 takes a
message before the writeback of its new block has returned. The message carries the
persisted session token and a registration with sequence number 100, and the client is
still waiting for the writeback. -/
theorem message_taken_before_writeback :
    ((Ticl.new ⟨50, 10, [⟨1000000, 1⟩], 60000000, 60000000⟩ 0 0 (some ⟨[117], [116], 100⟩)).run
        [.register ⟨1, [111]⟩, .takeOutboundMessage]).map
      (fun r => (r.1.client.awaitingSeqnoWriteback,
        r.2.map fun msg => (msg.sessionToken, msg.registerOperation.map (·.sequenceNumber)))) =
      some (true, [(some [116], [100])]) := by
  decide

/-- A client restarted from `{u, t, 100}` with blocks of 2 reserves up to 102. Four
`Register`s take 100 to 103, and before any tick the next message carries 103, in a state
whose counter, 104, is past the block. -/
theorem message_taken_past_reserved_block :
    ((Ticl.new ⟨2, 10, [⟨1000000, 1⟩], 60000000, 60000000⟩ 0 0 (some ⟨[117], [116], 100⟩)).run
        [.completeWrite ⟨⟨[117], [116], 102⟩, .handleSeqnoWritebackResult 102⟩ true,
          .runInternalTask (.handleSeqnoWritebackResult 102 true),
          .register ⟨1, [111]⟩, .register ⟨1, [112]⟩, .register ⟨1, [113]⟩, .register ⟨1, [114]⟩]).map
      (fun r => (r.1.client.registrationManager.currentOpSeqno,
        r.1.client.registrationManager.maximumOpSeqnoInclusive,
        r.1.client.takeOutboundMessage.map fun m => m.2.registerOperation.map (·.sequenceNumber))) =
      some (104, 102, some [100, 101, 102, 103]) := by
  decide

/-- With blocks of 2, a fresh client is assigned `u` and writes `{u, t, 2}`, which commits.
Two `Register`s take 1 and 2, and a message carries both. After a crash the client restarts
from `{u, t, 2}`, reserves up to 4, and its first `Register` takes 2 again: two messages
under `u` carry sequence number 2, for different objects. -/
theorem seqno_reused_after_restart :
    ((World.new ⟨2, 10, [⟨1000000, 1⟩], 60000000, 60000000⟩ 0 0 none).run
        [.client (.handleInboundMessage
            { messageType := some .typeAssignClientId
              clientUniquifier := some [117]
              sessionToken := some [116] }),
          .client (.completeWrite ⟨⟨[117], [116], 2⟩, .handleBestEffortWrite⟩ true),
          .client (.register ⟨1, [111]⟩), .client (.register ⟨1, [112]⟩),
          .client .takeOutboundMessage,
          .crash,
          .client (.completeWrite ⟨⟨[117], [116], 4⟩, .handleSeqnoWritebackResult 4⟩ true),
          .client (.runInternalTask (.handleSeqnoWritebackResult 4 true)),
          .client (.register ⟨1, [113]⟩),
          .client .takeOutboundMessage]).map
      (fun w => w.sent.map fun m =>
        (m.1, m.2.registerOperation.map fun op => (op.objectId.name, op.sequenceNumber))) =
      some [([117], [([111], 1), ([112], 2)]), ([117], [([113], 2)])] := by
  decide

/-! ## What the gates do hold -/

/-- The tasks that fire the throttle: `AcknowledgeInvalidation` and `RetryFire`. -/
def InternalTask.firesThrottle : InternalTask → Bool
  | .acknowledgeInvalidation _ | .retryFire => true
  | _ => false

namespace Ticl

/-- The event that runs `HandleSeqnoWritebackResult`. -/
def Event.runsSeqnoWriteback : Event → Bool
  | .runInternalTask (.handleSeqnoWritebackResult _ _) => true
  | _ => false

/-- A restarted client whose seqno writeback has not returned: the flag is set, the throttle
has never fired, and nothing pending could fire it. -/
structure WritebackPending (rateLimits : List RateLimit) (t : Ticl) : Prop where
  awaiting : t.client.awaitingSeqnoWriteback = true
  throttle : t.client.networkManager.throttle = Throttle.new rateLimits
  calls : t.client.networkManager.outboundListenerCalls = []
  heldAcks : t.heldAcks = []
  listener : ∀ task ∈ t.client.listenerTasks, task.ackClosure = none
  internal : ∀ task ∈ t.client.internalTasks, task.firesThrottle = false

theorem writebackPending_new (config : ClientConfig) (clientType now : Int) (blob : TiclState) :
    WritebackPending config.rateLimits (Ticl.new config clientType now (some blob)) := by
  constructor <;>
    simp [Ticl.new, InvalidationClientImpl.new, InvalidationClientImpl.allocateNewSequenceNumbers,
      InvalidationClientImpl.writeState, InvalidationClientImpl.scheduleOnListenerThread,
      InvalidationClientImpl.schedule, NetworkManager.new, ListenerTask.ackClosure,
      InternalTask.firesThrottle]

/-- No step but `HandleSeqnoWritebackResult` ends the wait. -/
theorem writebackPending_step {rateLimits : List RateLimit} {t t' : Ticl} {e : Event}
    {out : Option ClientToServerMessage} (he : e.runsSeqnoWriteback = false)
    (hp : WritebackPending rateLimits t) (h : t.step e = some (t', out)) :
    WritebackPending rateLimits t' := by
  obtain ⟨ha, hth, hc, hh, hl, hi⟩ := hp
  cases e with
  | takeOutboundMessage =>
    obtain ⟨c', msg, hc', rfl, rfl⟩ := step_takeOutboundMessage h
    obtain ⟨⟨sm, rm, rfl⟩, -⟩ := InvalidationClientImpl.takeOutboundMessage_spec _ hc'
    exact ⟨ha, hth, hc, hh, hl, hi⟩
  | handleInboundMessage bundle =>
    cases h
    simp only [InvalidationClientImpl.handleInboundMessage, ha, ite_true]
    exact ⟨ha, hth, hc, hh, hl, hi⟩
  | runInternalTask task =>
    obtain ⟨hm, rfl, rfl⟩ := step_runInternalTask h
    have hrest : ∀ x ∈ t.client.internalTasks.erase task, x.firesThrottle = false :=
      fun x hx => hi x (List.mem_of_mem_erase hx)
    cases task with
    | periodicTask =>
      have hbody : ({ t.client with internalTasks := t.client.internalTasks.erase .periodicTask }
          ).runInternalTask .periodicTask = { t.client with
            internalTasks := t.client.internalTasks.erase .periodicTask ++ [.periodicTask] } := by
        simp [InvalidationClientImpl.runInternalTask, InvalidationClientImpl.periodicTask,
          InvalidationClientImpl.periodicTaskBody, ha, InvalidationClientImpl.schedule]
      rw [hbody]
      refine ⟨ha, hth, hc, hh, hl, ?_⟩
      simp only [List.mem_append, List.mem_singleton]
      rintro x (hx | rfl)
      · exact hrest x hx
      · rfl
    | handleBestEffortWrite result => exact ⟨ha, hth, hc, hh, hl, hrest⟩
    | handleSeqnoWritebackResult m success => simp [Event.runsSeqnoWriteback] at he
    | acknowledgeInvalidation inv => exact absurd (hi _ hm) (by simp [InternalTask.firesThrottle])
    | retryFire => exact absurd (hi _ hm) (by simp [InternalTask.firesThrottle])
  | runListenerTask =>
    obtain ⟨task, rest, hq, rfl, rfl⟩ := step_runListenerTask h
    have hnone := hl task (by simp [hq])
    exact ⟨ha, hth, hc, by simp [hh, hnone], fun x hx => hl x (by simp [hq, hx]), hi⟩
  | runAck ack =>
    simp [step, hh] at h
  | completeWrite w success =>
    obtain ⟨-, rfl, rfl⟩ := step_completeWrite h
    refine ⟨ha, hth, hc, hh, hl, ?_⟩
    simp only [InvalidationClientImpl.completeWrite_internalTasks, List.mem_append,
      List.mem_singleton]
    rintro x (hx | rfl)
    · exact hi x hx
    · cases w.callback <;> rfl
  | _ =>
    cases h
    exact ⟨ha, hth, hc, hh, hl, hi⟩

/-- While the seqno writeback of a restarted client is in flight, the gates that test the flag
hold: over every run from the blob in which `HandleSeqnoWritebackResult` has not run, the
flag stays set, every inbound message leaves the client as it is, a tick does nothing but
reschedule itself, and the throttle has never fired, so the outbound listener has never
been called. -/
theorem writeback_gates_inbound_and_ticks {config : ClientConfig} {clientType now : Int}
    {blob : TiclState} {es : List Event} {t : Ticl} {sent : List ClientToServerMessage}
    (hw : ∀ e ∈ es, e.runsSeqnoWriteback = false)
    (h : (Ticl.new config clientType now (some blob)).run es = some (t, sent)) :
    t.client.awaitingSeqnoWriteback = true ∧
    (∀ bundle, t.client.handleInboundMessage bundle = t.client) ∧
    t.client.periodicTask = t.client.schedule .periodicTask ∧
    t.client.networkManager.throttle = Throttle.new config.rateLimits ∧
    t.client.networkManager.outboundListenerCalls = [] := by
  have hp := Run.preserves (fun e => e.runsSeqnoWriteback = false)
    (WritebackPending config.rateLimits) writebackPending_step hw
    (writebackPending_new config clientType now blob) h
  exact ⟨hp.awaiting, fun _ => by simp [InvalidationClientImpl.handleInboundMessage, hp.awaiting],
    by simp [InvalidationClientImpl.periodicTask, InvalidationClientImpl.periodicTaskBody, hp.awaiting],
    hp.throttle, hp.calls⟩

/-- The restart of scenario 2, with a `Register`, a tick, an object-control message and a
`TakeOutboundMessage` before the writeback returns. -/
theorem writeback_gates_inbound_and_ticks_scenario :
    let config : ClientConfig := ⟨50, 10, [⟨1000000, 1⟩], 60000000, 60000000⟩
    let es : List Event :=
      [.register ⟨1, [111]⟩, .runInternalTask .periodicTask,
        .handleInboundMessage { messageType := some .typeObjectControl, sessionToken := some [116] },
        .takeOutboundMessage]
    (∀ e ∈ es, e.runsSeqnoWriteback = false) ∧
    ∃ t sent, (Ticl.new config 0 0 (some ⟨[117], [116], 100⟩)).run es = some (t, sent) ∧
      t.client.awaitingSeqnoWriteback = true ∧
      (∀ bundle, t.client.handleInboundMessage bundle = t.client) ∧
      t.client.periodicTask = t.client.schedule .periodicTask ∧
      t.client.networkManager.throttle = Throttle.new config.rateLimits ∧
      t.client.networkManager.outboundListenerCalls = [] := by
  intro config es
  have hw : ∀ e ∈ es, e.runsSeqnoWriteback = false := by decide
  obtain ⟨t, sent, h⟩ : ∃ t sent, (Ticl.new config 0 0 (some ⟨[117], [116], 100⟩)).run es =
      some (t, sent) := ⟨_, _, rfl⟩
  exact ⟨hw, t, sent, h, writeback_gates_inbound_and_ticks hw h⟩

end Ticl

end CacheInvalidation
