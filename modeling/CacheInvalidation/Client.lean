import CacheInvalidation.Managers

/-!
# The invalidation client

`InvalidationClientImpl` (`invalidation-client-impl.cc`) with the system resources it runs
on. The resources are what the client hands work to: the internal scheduler's pending tasks
(`ScheduleImmediately`, `ScheduleWithDelay`), the listener thread's tasks
(`ScheduleOnListenerThread`), the persistence writes not yet reported, and the clock. Each
method is a function from the client's state to the next; a method that can fail a `CHECK`
returns an `Option`.

The delays of scheduled tasks are left out: the scheduler may run any pending task next,
which covers every choice of delay, `SmearDelay`'s included. `DoPeriodicCheck` of the
persistence manager and `AddHeartbeat` of the network manager change nothing the model
keeps, and the logging is left out.

* `periodicTask` is the body of `PeriodicTask` (`:161-208`) under its `Finally` guard, which
  schedules the next tick however the body exits;
* `handleInboundMessage` (`:282-326`) drops every message while the seqno writeback is in
  flight, and delivers the invalidations of an object-control bundle in order
  (`handleObjectControl`, `processInvalidation`);
* `takeOutboundMessage` (`:373-431`) moves the newest acks into an object-control message
  (`addAcks`), never past `max_ops_per_message` operations and acks together, and up to it
  while acks are queued (`take_outbound_message_respects_max_ops`).
-/

namespace CacheInvalidation

/-- The ack closure `ProcessInvalidation` hands the listener:
`NewPermanentCallback(this, &ScheduleAcknowledgeInvalidation, invalidation)`. -/
structure AckClosure where
  invalidation : Invalidation
  deriving DecidableEq, Repr

/-- A task on the internal scheduler. -/
inductive InternalTask
  | periodicTask
  | handleSeqnoWritebackResult (maximumOpSeqnoInclusive : Int) (success : Bool)
  | handleBestEffortWrite (result : Bool)
  | acknowledgeInvalidation (invalidation : Invalidation)
  | retryFire
  deriving DecidableEq, Repr

/-- The successor a task schedules for itself: `PeriodicTask`'s, through its `Finally`
guard. -/
def InternalTask.successors : InternalTask → List InternalTask
  | .periodicTask => [.periodicTask]
  | _ => []

/-- The invalidation a task passes to `AcknowledgeInvalidation`. -/
def InternalTask.acked : InternalTask → Option Invalidation
  | .acknowledgeInvalidation inv => some inv
  | _ => none

/-- A task on the listener thread: a call of the application's `InvalidationListener`. -/
inductive ListenerTask
  | sessionStatusChanged (hasSession : Bool)
  | invalidate (invalidation : Invalidation) (ack : AckClosure)
  | invalidateAll (ack : AckClosure)
  deriving DecidableEq, Repr

/-- The callback a persistence write reports to. -/
inductive WriteCallback
  | handleSeqnoWritebackResult (maximumOpSeqnoInclusive : Int)
  | handleBestEffortWrite
  deriving DecidableEq, Repr

/-- The task a write's callback becomes once the result is known. -/
def WriteCallback.task (success : Bool) : WriteCallback → InternalTask
  | .handleSeqnoWritebackResult maximumOpSeqnoInclusive =>
    .handleSeqnoWritebackResult maximumOpSeqnoInclusive success
  | .handleBestEffortWrite => .handleBestEffortWrite success

/-- A `WriteState` call whose result the persistence layer has not reported yet. -/
structure PendingWrite where
  state : TiclState
  callback : WriteCallback
  deriving DecidableEq, Repr

/-- An `InvalidationClientImpl` with its resources. `pendingInvalidationAcks` is the vector
`pending_invalidation_acks_` newest first: its `back()` is the head. `retryFireDue` is what
the internal scheduler keeps of the pending `RetryFire` tasks: the time each is due to run,
oldest first, `ScheduleWithDelay(delay, ...)` at `now` running it at `now + delay`. -/
structure InvalidationClientImpl where
  config : ClientConfig
  clientType : Int
  sessionManager : SessionManager
  registrationManager : RegistrationUpdateManager
  networkManager : NetworkManager
  awaitingSeqnoWriteback : Bool
  pendingInvalidationAcks : List Invalidation
  internalTasks : List InternalTask
  retryFireDue : List Int := []
  listenerTasks : List ListenerTask
  pendingWrites : List PendingWrite
  now : Int
  deriving DecidableEq, Repr

namespace InvalidationClientImpl

/-! ## The resources -/

/-- `ScheduleImmediately` and `ScheduleWithDelay` on the internal scheduler. -/
def schedule (c : InvalidationClientImpl) (task : InternalTask) : InvalidationClientImpl :=
  { c with internalTasks := c.internalTasks ++ [task] }

/-- `ScheduleOnListenerThread`. -/
def scheduleOnListenerThread (c : InvalidationClientImpl) (task : ListenerTask) :
    InvalidationClientImpl :=
  { c with listenerTasks := c.listenerTasks ++ [task] }

/-- `PersistenceManager::WriteState(serialized, callback)`: the blob is `SerializeState`d
state, kept here as the state itself. -/
def writeState (c : InvalidationClientImpl) (state : TiclState) (callback : WriteCallback) :
    InvalidationClientImpl :=
  { c with pendingWrites := c.pendingWrites ++ [⟨state, callback⟩] }

/-- The network manager's new state, with the throttle's `RetryFire` handed to the internal
scheduler, due after the delay the throttle asked for, if it asked for one. -/
def applyNetworkResult (c : InvalidationClientImpl) :
    NetworkManager × Option Int → InvalidationClientImpl
  | (n, some delay) =>
    { c with networkManager := n, retryFireDue := c.retryFireDue ++ [c.now + delay] }.schedule
      .retryFire
  | (n, none) => { c with networkManager := n }

/-- `NetworkManager::OutboundDataReady`. -/
def outboundDataReady (c : InvalidationClientImpl) : InvalidationClientImpl :=
  c.applyNetworkResult (c.networkManager.outboundDataReady c.now)

/-- The throttle's `RetryFire`, run by the internal scheduler. -/
def retryFire (c : InvalidationClientImpl) : InvalidationClientImpl :=
  c.applyNetworkResult (c.networkManager.retryFire c.now)

/-! ## Sequence numbers and the persisted state -/

/-- Modelled from the spec: `ForgetClientId`, absent from the source (§4.7): back to no
client id, and the counter back to `kFirstSequenceNumber` with a block of
`seqno_block_size`. -/
def forgetClientId (c : InvalidationClientImpl) : InvalidationClientImpl :=
  { c with
    sessionManager := c.sessionManager.forgetClientId
    registrationManager := c.registrationManager.resetSeqnos c.config.seqnoBlockSize }

/-- `AllocateNewSequenceNumbers` (`:103-119`): write back a blob claiming the next block, and
wait for it. -/
def allocateNewSequenceNumbers (c : InvalidationClientImpl) (persistentState : TiclState) :
    InvalidationClientImpl :=
  let maximumOpSeqnoInclusive := persistentState.sequenceNumberLimit + c.config.seqnoBlockSize
  let newState := { persistentState with sequenceNumberLimit := maximumOpSeqnoInclusive }
  { c with awaitingSeqnoWriteback := true }.writeState newState
    (.handleSeqnoWritebackResult maximumOpSeqnoInclusive)

/-- `HandleSeqnoWritebackResult` (`:121-140`). -/
def handleSeqnoWritebackResult (c : InvalidationClientImpl) (maximumOpSeqnoInclusive : Int)
    (success : Bool) : InvalidationClientImpl :=
  let c := { c with awaitingSeqnoWriteback := false }
  if success then
    { c with registrationManager := c.registrationManager.updateMaximumSeqno maximumOpSeqnoInclusive }
  else c.forgetClientId

/-- The constructor (`:29-101`), from what `DeserializeState` made of the persisted blob:
`none` when there was none or it did not parse. -/
def new (config : ClientConfig) (clientType now : Int) (persistentState : Option TiclState) :
    InvalidationClientImpl :=
  let (uniquifier, sessionToken, initialSeqno) :=
    match persistentState with
    | some s => (s.uniquifier, s.sessionToken, s.sequenceNumberLimit)
    | none => ([], [], kFirstSequenceNumber)
  let c : InvalidationClientImpl :=
    { config, clientType, now
      sessionManager := SessionManager.new uniquifier sessionToken
      registrationManager := RegistrationUpdateManager.new initialSeqno
      networkManager := NetworkManager.new config now
      awaitingSeqnoWriteback := false
      pendingInvalidationAcks := []
      internalTasks := []
      listenerTasks := []
      pendingWrites := [] }
  let c :=
    match persistentState with
    | some s =>
      let c := { c with registrationManager := c.registrationManager.handleNewSession }
      (c.scheduleOnListenerThread (.sessionStatusChanged true)).allocateNewSequenceNumbers s
    | none =>
      { c with registrationManager := c.registrationManager.updateMaximumSeqno config.seqnoBlockSize }
  c.schedule .periodicTask

/-! ## The periodic task -/

/-- "Check if we have run out of sequence numbers. If so, restart as a new client."
(`:181-187`) -/
def checkExhaustion (c : InvalidationClientImpl) : InvalidationClientImpl :=
  if c.registrationManager.currentOpSeqno > c.registrationManager.maximumOpSeqnoInclusive then
    c.forgetClientId
  else c

/-- The rest of the tick (`:189-207`): signal outbound data when there is session data, or a
session and registrations or a heartbeat to send. -/
def signalIfDataToSend (c : InvalidationClientImpl) : InvalidationClientImpl :=
  let haveSessionData := c.sessionManager.hasDataToSend
  let haveRegistrationData := c.registrationManager.doPeriodicRegistrationCheck
  let shouldHeartbeatOrPoll := c.networkManager.hasDataToSend c.now
  if !haveSessionData && !c.sessionManager.hasSession then c
  else if haveSessionData || haveRegistrationData || shouldHeartbeatOrPoll then
    c.outboundDataReady
  else c

/-- The body of `PeriodicTask` (`:174-207`), up to whichever `return` it takes: nothing while
the seqno writeback is in flight. -/
def periodicTaskBody (c : InvalidationClientImpl) : InvalidationClientImpl :=
  if c.awaitingSeqnoWriteback then c else c.checkExhaustion.signalIfDataToSend

/-- `PeriodicTask`: the `Finally` guard reschedules the task at scope exit, after the body. -/
def periodicTask (c : InvalidationClientImpl) : InvalidationClientImpl :=
  c.periodicTaskBody.schedule .periodicTask

/-! ## The application's calls -/

/-- `Register`. -/
def register (c : InvalidationClientImpl) (oid : ObjectId) : InvalidationClientImpl :=
  { c with registrationManager := c.registrationManager.register oid }

/-- `Unregister`. -/
def unregister (c : InvalidationClientImpl) (oid : ObjectId) : InvalidationClientImpl :=
  { c with registrationManager := c.registrationManager.unregister oid }

/-- `PermanentShutdown`. -/
def permanentShutdown (c : InvalidationClientImpl) : InvalidationClientImpl :=
  { c with sessionManager := c.sessionManager.shutdown }

/-! ## Inbound messages -/

/-- `HandleNewSession` (`:233-262`): write the new state best-effort, with the limit of the
current block. -/
def handleNewSession (c : InvalidationClientImpl) : InvalidationClientImpl :=
  let c := { c with
    registrationManager := c.registrationManager.handleNewSession
    networkManager := c.networkManager.recordImplicitHeartbeat c.now }
  let state : TiclState :=
    ⟨c.sessionManager.clientUniquifier, c.sessionManager.sessionToken,
      c.registrationManager.maximumOpSeqnoInclusive⟩
  (c.writeState state .handleBestEffortWrite).scheduleOnListenerThread (.sessionStatusChanged true)

/-- `HandleLostSession` (`:264-270`). -/
def handleLostSession (c : InvalidationClientImpl) : InvalidationClientImpl :=
  { c with registrationManager := c.registrationManager.handleLostSession
    }.scheduleOnListenerThread (.sessionStatusChanged false)

/-- The object id `ProcessInvalidation` delivers as `InvalidateAll`: source `INTERNAL` and
name exactly `"ALL"`. -/
def isInvalidateAll (oid : ObjectId) : Bool :=
  oid.source = objectIdSourceInternal ∧ oid.name = invalidateAllObjectName

/-- The listener task `ProcessInvalidation` schedules for one invalidation. -/
def invalidationTask (inv : Invalidation) : ListenerTask :=
  if isInvalidateAll inv.objectId then .invalidateAll ⟨inv⟩ else .invalidate inv ⟨inv⟩

/-- `ProcessInvalidation` (`:329-347`). -/
def processInvalidation (c : InvalidationClientImpl) (inv : Invalidation) :
    InvalidationClientImpl :=
  c.scheduleOnListenerThread (invalidationTask inv)

/-- `HandleObjectControl` (`:272-280`): the registration results, then each invalidation of
the bundle in order. -/
def handleObjectControl (c : InvalidationClientImpl) (bundle : ServerToClientMessage) :
    InvalidationClientImpl :=
  bundle.invalidation.foldl processInvalidation
    { c with registrationManager := c.registrationManager.processInboundMessage bundle }

/-- The `switch` of `HandleInboundMessage` (`:300-320`) on the action the session manager
chose; `none` for a message to ignore. -/
def dispatch (c : InvalidationClientImpl) (bundle : ServerToClientMessage) :
    MessageAction → Option InvalidationClientImpl
  | .ignoreMessage => none
  | .acquireSession => some c.handleNewSession
  | .loseClientId => some c.forgetClientId
  | .loseSession => some c.handleLostSession
  | .processObjectControl => some (c.handleObjectControl bundle)

/-- `HandleInboundMessage` (`:282-326`), on the parsed bundle: nothing while the seqno
writeback is in flight; otherwise classify, dispatch, and take the new intervals unless the
message was ignored. -/
def handleInboundMessage (c : InvalidationClientImpl) (bundle : ServerToClientMessage) :
    InvalidationClientImpl :=
  if c.awaitingSeqnoWriteback then c
  else
    let classified := c.sessionManager.processMessage bundle
    let c := { c with sessionManager := classified.1 }
    match c.dispatch bundle classified.2 with
    | none => c
    | some c => { c with networkManager := c.networkManager.handleInboundMessage bundle }

/-! ## Acks -/

/-- `ScheduleAcknowledgeInvalidation` (`:357-364`): what running an ack closure does. -/
def scheduleAcknowledgeInvalidation (c : InvalidationClientImpl) (ack : AckClosure) :
    InvalidationClientImpl :=
  c.schedule (.acknowledgeInvalidation ack.invalidation)

/-- `AcknowledgeInvalidation` (`:349-355`): `push_back`, then signal outbound data. -/
def acknowledgeInvalidation (c : InvalidationClientImpl) (inv : Invalidation) :
    InvalidationClientImpl :=
  { c with pendingInvalidationAcks := inv :: c.pendingInvalidationAcks }.outboundDataReady

/-- The client's stamp on an acked invalidation that carries a component stamp log:
`("C", now)`, in milliseconds (`:414-421`). -/
def addClientStamp (nowMs : Int) (inv : Invalidation) : Invalidation :=
  match inv.componentStampLog with
  | some log => { inv with componentStampLog := some (log ++ [⟨"C", nowMs⟩]) }
  | none => inv

/-- The ack loop of `TakeOutboundMessage` (`:400-423`), over the queue newest first: while
acks are queued and `registration_count + invalidation_acks_sent < max_ops_per_message`,
copy the newest into the message, stamped, and pop it. Returns the acks added and the queue
left. -/
def addAcks (maxOpsPerMessage registrationCount nowMs : Int) :
    Int → List Invalidation → List Invalidation × List Invalidation
  | _, [] => ([], [])
  | invalidationAcksSent, inv :: rest =>
    if registrationCount + invalidationAcksSent < maxOpsPerMessage then
      let (acked, left) := addAcks maxOpsPerMessage registrationCount nowMs (invalidationAcksSent + 1) rest
      (addClientStamp nowMs inv :: acked, left)
    else ([], inv :: rest)

/-- `TakeOutboundMessage` up to the acks (`:377-390`): the session action, then, if that set
no type, the registration manager's operations. -/
def buildOutboundMessage (c : InvalidationClientImpl) :
    InvalidationClientImpl × ClientToServerMessage :=
  let (sessionManager, message) := c.sessionManager.addSessionAction {}
  let c := { c with sessionManager }
  if message.messageType.isNone then
    let (registrationManager, message) :=
      c.registrationManager.addOutboundData c.config.maxOpsPerMessage message
    ({ c with registrationManager }, message)
  else (c, message)

/-- The acks of `TakeOutboundMessage` (`:395-424`), added to an object-control message
only. -/
def addInvalidationAcks (c : InvalidationClientImpl) (message : ClientToServerMessage) :
    InvalidationClientImpl × ClientToServerMessage :=
  if message.messageType = some .typeObjectControl then
    let (acked, left) := addAcks c.config.maxOpsPerMessage message.registerOperation.length
      (c.now.tdiv 1000) 0 c.pendingInvalidationAcks
    ({ c with pendingInvalidationAcks := left },
      { message with ackedInvalidation := message.ackedInvalidation ++ acked })
  else (c, message)

/-- `TakeOutboundMessage` (`:373-431`): build the message, add acks, let the network manager
stamp it. `none` when a closing `CHECK` fails. -/
def takeOutboundMessage (c : InvalidationClientImpl) :
    Option (InvalidationClientImpl × ClientToServerMessage) :=
  let (c, message) := c.buildOutboundMessage
  let (c, message) := c.addInvalidationAcks message
  let (networkManager, message) :=
    c.networkManager.finalizeOutboundMessage c.clientType c.now message
  if message.messageType.isSome ∧ message.clientType.isSome then
    some ({ c with networkManager }, message)
  else none

/-- The acks an invalidation goes out with, read back: the client's stamp taken off. -/
def stripClientStamp (inv : Invalidation) : Invalidation :=
  match inv.componentStampLog with
  | some log => { inv with componentStampLog := some log.dropLast }
  | none => inv

@[simp] theorem stripClientStamp_addClientStamp (nowMs : Int) (inv : Invalidation) :
    stripClientStamp (addClientStamp nowMs inv) = inv := by
  obtain ⟨o, v, p, log⟩ := inv
  cases log <;> simp [addClientStamp, stripClientStamp]

@[simp] theorem stripClientStamp_comp_addClientStamp (nowMs : Int) :
    stripClientStamp ∘ addClientStamp nowMs = id :=
  funext (stripClientStamp_addClientStamp nowMs)

/-! ## The scheduler and the persistence layer -/

/-- `HandleBestEffortWrite` (`:142-144`) only logs the result. -/
def handleBestEffortWrite (c : InvalidationClientImpl) (_ : Bool) : InvalidationClientImpl := c

/-- What the internal scheduler runs for a task; running a `RetryFire` uses up its due
time. -/
def runInternalTask (c : InvalidationClientImpl) : InternalTask → InvalidationClientImpl
  | .periodicTask => c.periodicTask
  | .handleSeqnoWritebackResult maximumOpSeqnoInclusive success =>
    c.handleSeqnoWritebackResult maximumOpSeqnoInclusive success
  | .handleBestEffortWrite result => c.handleBestEffortWrite result
  | .acknowledgeInvalidation inv => c.acknowledgeInvalidation inv
  | .retryFire => { c with retryFireDue := c.retryFireDue.tail }.retryFire

/-- Modelled from the spec: the persistence layer reports a write once it has committed or
failed (§6), by running its callback; the callback is queued with the internal tasks, so it
may run at any later point. -/
def completeWrite (c : InvalidationClientImpl) (w : PendingWrite) (success : Bool) :
    InvalidationClientImpl :=
  { c with pendingWrites := c.pendingWrites.erase w }.schedule (w.callback.task success)

/-! ## What each method does to the queues -/

section Frame

variable (c : InvalidationClientImpl)

@[simp] theorem schedule_internalTasks (t : InternalTask) :
    (c.schedule t).internalTasks = c.internalTasks ++ [t] := rfl
@[simp] theorem schedule_pendingInvalidationAcks (t : InternalTask) :
    (c.schedule t).pendingInvalidationAcks = c.pendingInvalidationAcks := rfl

/-- The tasks a method adds to the internal scheduler are throttle retries only. -/
def AddsRetries (c' : InvalidationClientImpl) : Prop :=
  ∃ n, c'.internalTasks = c.internalTasks ++ List.replicate n .retryFire

theorem addsRetries_of_eq {c'} (h : c'.internalTasks = c.internalTasks) : c.AddsRetries c' :=
  ⟨0, by simp [h]⟩

theorem AddsRetries.trans {c c₁ c₂ : InvalidationClientImpl} (h₁ : c.AddsRetries c₁)
    (h₂ : c₁.AddsRetries c₂) : c.AddsRetries c₂ := by
  obtain ⟨n₁, h₁⟩ := h₁
  obtain ⟨n₂, h₂⟩ := h₂
  exact ⟨n₁ + n₂, by rw [h₂, h₁, List.append_assoc, List.replicate_add]⟩

/-- Adding retries changes the count of no other task. -/
theorem AddsRetries.count_eq {c c' : InvalidationClientImpl} (h : c.AddsRetries c') {t : InternalTask}
    (ht : t ≠ .retryFire) : c'.internalTasks.count t = c.internalTasks.count t := by
  obtain ⟨n, h⟩ := h
  rw [h, List.count_append, List.count_replicate]
  simp [Ne.symm ht]

theorem applyNetworkResult_addsRetries (r : NetworkManager × Option Int) :
    c.AddsRetries (c.applyNetworkResult r) := by
  obtain ⟨n, _ | _⟩ := r
  · exact ⟨0, by simp [applyNetworkResult]⟩
  · exact ⟨1, rfl⟩

@[simp] theorem applyNetworkResult_pendingInvalidationAcks (r : NetworkManager × Option Int) :
    (c.applyNetworkResult r).pendingInvalidationAcks = c.pendingInvalidationAcks := by
  obtain ⟨n, _ | _⟩ := r <;> rfl

@[simp] theorem outboundDataReady_pendingInvalidationAcks :
    c.outboundDataReady.pendingInvalidationAcks = c.pendingInvalidationAcks :=
  c.applyNetworkResult_pendingInvalidationAcks _

@[simp] theorem checkExhaustion_internalTasks :
    c.checkExhaustion.internalTasks = c.internalTasks := by
  unfold checkExhaustion; split <;> rfl

@[simp] theorem checkExhaustion_pendingInvalidationAcks :
    c.checkExhaustion.pendingInvalidationAcks = c.pendingInvalidationAcks := by
  unfold checkExhaustion; split <;> rfl

/-- The three outcomes of the tick's last step: nothing, or `OutboundDataReady`. -/
theorem signalIfDataToSend_cases :
    c.signalIfDataToSend = c ∨ c.signalIfDataToSend = c.outboundDataReady := by
  simp only [signalIfDataToSend]
  split
  · exact .inl rfl
  · split
    · exact .inr rfl
    · exact .inl rfl

theorem periodicTaskBody_addsRetries : c.AddsRetries c.periodicTaskBody := by
  unfold periodicTaskBody
  split
  · exact addsRetries_of_eq _ rfl
  · rcases signalIfDataToSend_cases c.checkExhaustion with h | h <;> rw [h]
    · exact addsRetries_of_eq _ (checkExhaustion_internalTasks c)
    · exact (addsRetries_of_eq _ (checkExhaustion_internalTasks c)).trans
        (applyNetworkResult_addsRetries _ _)

@[simp] theorem periodicTaskBody_pendingInvalidationAcks :
    c.periodicTaskBody.pendingInvalidationAcks = c.pendingInvalidationAcks := by
  unfold periodicTaskBody
  split
  · rfl
  · rcases signalIfDataToSend_cases c.checkExhaustion with h | h <;> simp [h]

@[simp] theorem periodicTask_internalTasks :
    c.periodicTask.internalTasks = c.periodicTaskBody.internalTasks ++ [.periodicTask] := rfl
@[simp] theorem periodicTask_pendingInvalidationAcks :
    c.periodicTask.pendingInvalidationAcks = c.periodicTaskBody.pendingInvalidationAcks := rfl

theorem handleSeqnoWritebackResult_queues (m : Int) (success : Bool) :
    (c.handleSeqnoWritebackResult m success).internalTasks = c.internalTasks ∧
    (c.handleSeqnoWritebackResult m success).pendingInvalidationAcks = c.pendingInvalidationAcks ∧
    (c.handleSeqnoWritebackResult m success).listenerTasks = c.listenerTasks := by
  unfold handleSeqnoWritebackResult
  split <;> exact ⟨rfl, rfl, rfl⟩

/-- The loop of `HandleObjectControl` schedules one listener task per invalidation, in
order, and does nothing else. -/
theorem foldl_processInvalidation (l : List Invalidation) (c : InvalidationClientImpl) :
    l.foldl processInvalidation c =
      { c with listenerTasks := c.listenerTasks ++ l.map invalidationTask } := by
  induction l generalizing c with
  | nil => simp
  | cons inv l ih => simp [ih, processInvalidation, scheduleOnListenerThread]

theorem handleObjectControl_listenerTasks (bundle : ServerToClientMessage) :
    (c.handleObjectControl bundle).listenerTasks =
      c.listenerTasks ++ bundle.invalidation.map invalidationTask := by
  simp [handleObjectControl, foldl_processInvalidation]

/-- No branch of the `switch` touches the internal scheduler or the acks. -/
theorem dispatch_queues {bundle : ServerToClientMessage} {a : MessageAction}
    {c' : InvalidationClientImpl} (h : c.dispatch bundle a = some c') :
    c'.internalTasks = c.internalTasks ∧ c'.pendingInvalidationAcks = c.pendingInvalidationAcks := by
  cases a <;> simp only [dispatch, Option.some.injEq, reduceCtorEq] at h <;> subst h
  · exact ⟨rfl, rfl⟩
  · exact ⟨rfl, rfl⟩
  · exact ⟨rfl, rfl⟩
  · simp [handleObjectControl, foldl_processInvalidation]

theorem handleInboundMessage_queues (bundle : ServerToClientMessage) :
    (c.handleInboundMessage bundle).internalTasks = c.internalTasks ∧
    (c.handleInboundMessage bundle).pendingInvalidationAcks = c.pendingInvalidationAcks := by
  unfold handleInboundMessage
  split
  · exact ⟨rfl, rfl⟩
  · dsimp only
    split
    · exact ⟨rfl, rfl⟩
    · rename_i c' h
      exact (dispatch_queues _ h :)

/-- The session action adds no acks and no registration operations. -/
theorem addSessionAction_message (m : SessionManager) (msg : ClientToServerMessage) :
    (m.addSessionAction msg).2.ackedInvalidation = msg.ackedInvalidation ∧
      (m.addSessionAction msg).2.registerOperation = msg.registerOperation := by
  unfold SessionManager.addSessionAction
  split <;> (try split) <;> exact ⟨rfl, rfl⟩

/-- Building the message touches only the session and registration managers, and adds no
acks. -/
theorem buildOutboundMessage_spec :
    (∃ sessionManager registrationManager,
      c.buildOutboundMessage.1 = { c with sessionManager, registrationManager }) ∧
    c.buildOutboundMessage.2.ackedInvalidation = [] := by
  have h := (addSessionAction_message c.sessionManager {}).1
  unfold buildOutboundMessage
  split
  rename_i heq
  rw [heq] at h
  dsimp only
  split
  · exact ⟨⟨_, _, rfl⟩, by simpa [RegistrationUpdateManager.addOutboundData] using h⟩
  · exact ⟨⟨_, _, rfl⟩, h⟩

/-- The registration manager puts at most `max_ops_per_message` operations in a message. -/
theorem buildOutboundMessage_registerOperation :
    c.buildOutboundMessage.2.registerOperation.length ≤ c.config.maxOpsPerMessage.toNat := by
  have h := (addSessionAction_message c.sessionManager {}).2
  unfold buildOutboundMessage
  split
  rename_i heq
  rw [heq] at h
  dsimp only at h ⊢
  split
  · rw [RegistrationUpdateManager.addOutboundData, List.length_append, h, List.length_map]
    exact (Nat.zero_add _).trans_le (List.length_take_le _ _)
  · rw [h]
    exact Nat.zero_le _

/-- The ack loop takes the newest `max_ops_per_message − registration_count − sent` acks,
none when that is not positive, stamped and newest first, and leaves the rest. -/
theorem addAcks_eq (maxOps registrationCount nowMs : Int) :
    ∀ (sent : Int) (pending : List Invalidation),
      addAcks maxOps registrationCount nowMs sent pending =
        ((pending.take (maxOps - registrationCount - sent).toNat).map (addClientStamp nowMs),
          pending.drop (maxOps - registrationCount - sent).toNat)
  | _, [] => by simp [addAcks]
  | sent, inv :: rest => by
    unfold addAcks
    split
    · rw [addAcks_eq maxOps registrationCount nowMs (sent + 1) rest,
        show (maxOps - registrationCount - sent).toNat =
          (maxOps - registrationCount - (sent + 1)).toNat + 1 by omega]
      simp
    · rw [show (maxOps - registrationCount - sent).toNat = 0 by omega]
      simp

/-- What `addInvalidationAcks` does: for an object-control message, the newest acks move
from the queue into the message; otherwise nothing changes. -/
theorem addInvalidationAcks_eq (m : ClientToServerMessage) :
    c.addInvalidationAcks m =
      let k := if m.messageType = some .typeObjectControl then
        (c.config.maxOpsPerMessage - m.registerOperation.length).toNat else 0
      ({ c with pendingInvalidationAcks := c.pendingInvalidationAcks.drop k },
        { m with ackedInvalidation :=
          m.ackedInvalidation ++ (c.pendingInvalidationAcks.take k).map (addClientStamp (c.now.tdiv 1000)) }) := by
  unfold addInvalidationAcks
  split <;> simp [*, addAcks_eq]

/-- Each task adds its own successor and throttle retries to the scheduler, nothing
else. -/
theorem runInternalTask_internalTasks (task : InternalTask) :
    ∃ n, (c.runInternalTask task).internalTasks =
      c.internalTasks ++ List.replicate n .retryFire ++ task.successors := by
  cases task with
  | periodicTask =>
    obtain ⟨n, h⟩ := periodicTaskBody_addsRetries c
    exact ⟨n, by simp [runInternalTask, h, InternalTask.successors]⟩
  | handleSeqnoWritebackResult m success =>
    exact ⟨0, by simp [runInternalTask, (handleSeqnoWritebackResult_queues c m success).1,
      InternalTask.successors]⟩
  | handleBestEffortWrite result => exact ⟨0, by simp [runInternalTask, handleBestEffortWrite,
      InternalTask.successors]⟩
  | acknowledgeInvalidation inv =>
    obtain ⟨n, h⟩ := applyNetworkResult_addsRetries
      { c with pendingInvalidationAcks := inv :: c.pendingInvalidationAcks } (c.networkManager.outboundDataReady c.now)
    exact ⟨n, by simp [runInternalTask, acknowledgeInvalidation, outboundDataReady, h,
      InternalTask.successors]⟩
  | retryFire =>
    obtain ⟨n, h⟩ := applyNetworkResult_addsRetries { c with retryFireDue := c.retryFireDue.tail }
      (c.networkManager.retryFire c.now)
    exact ⟨n, by simp [runInternalTask, retryFire, h, InternalTask.successors]⟩

/-- Only `AcknowledgeInvalidation` queues an ack, at the newest end. -/
theorem runInternalTask_pendingInvalidationAcks (task : InternalTask) :
    (c.runInternalTask task).pendingInvalidationAcks =
      task.acked.toList ++ c.pendingInvalidationAcks := by
  cases task with
  | handleSeqnoWritebackResult m success =>
    exact (handleSeqnoWritebackResult_queues c m success).2.1
  | acknowledgeInvalidation inv => simp [runInternalTask, acknowledgeInvalidation, InternalTask.acked]
  | _ => simp [runInternalTask, handleBestEffortWrite, retryFire, InternalTask.acked]

@[simp] theorem completeWrite_internalTasks (w : PendingWrite) (success : Bool) :
    (c.completeWrite w success).internalTasks = c.internalTasks ++ [w.callback.task success] := rfl
@[simp] theorem completeWrite_pendingInvalidationAcks (w : PendingWrite) (success : Bool) :
    (c.completeWrite w success).pendingInvalidationAcks = c.pendingInvalidationAcks := rfl

/-- What `TakeOutboundMessage` does: for an object-control message the newest
`max_ops_per_message − register_operation_size` acks, or all of them if fewer, go out
stamped and newest first, and none otherwise; the network manager counts the message and
records the send; the session and registration managers take their turn; nothing else
changes. -/
theorem takeOutboundMessage_spec {c' : InvalidationClientImpl} {msg : ClientToServerMessage}
    (h : c.takeOutboundMessage = some (c', msg)) :
    let k := if msg.messageType = some .typeObjectControl then
      (c.config.maxOpsPerMessage - msg.registerOperation.length).toNat else 0
    (∃ sessionManager registrationManager, c' = { c with
      sessionManager, registrationManager
      pendingInvalidationAcks := c.pendingInvalidationAcks.drop k
      networkManager := { c.networkManager with
        messageId := c.networkManager.messageId + 1
        lastSendTime := c.now } }) ∧
    msg.ackedInvalidation = (c.pendingInvalidationAcks.take k).map (addClientStamp (c.now.tdiv 1000)) := by
  obtain ⟨⟨sm, rm, hb⟩, ha⟩ := buildOutboundMessage_spec c
  rcases hb' : c.buildOutboundMessage with ⟨c₁, m₁⟩
  rw [hb'] at hb ha
  dsimp only at hb ha
  subst hb
  simp only [takeOutboundMessage, hb', addInvalidationAcks_eq, NetworkManager.finalizeOutboundMessage,
    Option.ite_none_right_eq_some, Option.some.injEq, Prod.mk.injEq] at h
  obtain ⟨-, rfl, rfl⟩ := h
  exact ⟨⟨sm, rm, rfl⟩, by simp [ha]⟩

/-- The acks and the network manager's stamp leave the registration operations as built. -/
theorem takeOutboundMessage_registerOperation {c' : InvalidationClientImpl}
    {msg : ClientToServerMessage} (h : c.takeOutboundMessage = some (c', msg)) :
    msg.registerOperation = c.buildOutboundMessage.2.registerOperation := by
  rcases hb : c.buildOutboundMessage with ⟨c₁, m₁⟩
  simp only [takeOutboundMessage, hb, addInvalidationAcks_eq, NetworkManager.finalizeOutboundMessage,
    Option.ite_none_right_eq_some, Option.some.injEq, Prod.mk.injEq] at h
  obtain ⟨-, -, rfl⟩ := h
  rfl

end Frame

/-- Every message `TakeOutboundMessage` hands out, from any state of the client, carries at
most `max_ops_per_message` registration operations and acks together: the registration
manager adds at most that many operations, and the ack loop stops when operations and acks
reach it. The loop also fills the message: if acks are left queued after an object-control
message, it holds exactly `max_ops_per_message` of them. -/
theorem take_outbound_message_respects_max_ops {c c' : InvalidationClientImpl}
    {msg : ClientToServerMessage} (h : c.takeOutboundMessage = some (c', msg)) :
    msg.registerOperation.length + msg.ackedInvalidation.length ≤ c.config.maxOpsPerMessage.toNat ∧
    (msg.messageType = some .typeObjectControl → c'.pendingInvalidationAcks ≠ [] →
      msg.registerOperation.length + msg.ackedInvalidation.length =
        c.config.maxOpsPerMessage.toNat) := by
  obtain ⟨⟨sm, rm, rfl⟩, hacks⟩ := takeOutboundMessage_spec c h
  have hreg := buildOutboundMessage_registerOperation c
  rw [← takeOutboundMessage_registerOperation c h] at hreg
  rw [hacks, List.length_map, List.length_take]
  refine ⟨by split <;> omega, fun hty hleft => ?_⟩
  -- acks are left, so the loop stopped at the bound
  rw [if_pos hty] at hleft ⊢
  have := mt List.drop_eq_nil_iff.2 hleft
  omega

/-- With room for two, a message with one pending registration takes the newest of two
queued acks and leaves the other. -/
theorem take_outbound_message_respects_max_ops_one_registration :
    let c : InvalidationClientImpl :=
      { config := ⟨10, 2, [], 1000, 1000⟩, clientType := 1
        sessionManager := ⟨.haveSession, [1], [2], false⟩
        registrationManager := ⟨[(⟨1, [7]⟩, ⟨.typeRegister, none, 1⟩)], 2, 10⟩
        networkManager := NetworkManager.new ⟨10, 2, [], 1000, 1000⟩ 0
        awaitingSeqnoWriteback := false
        pendingInvalidationAcks := [⟨⟨1, [8]⟩, 4, none, none⟩, ⟨⟨1, [9]⟩, 3, none, none⟩]
        internalTasks := [], listenerTasks := [], pendingWrites := [], now := 0 }
    ∃ c' msg, c.takeOutboundMessage = some (c', msg) ∧ msg.registerOperation.length = 1 ∧
      msg.ackedInvalidation = [⟨⟨1, [8]⟩, 4, none, none⟩] ∧
      c'.pendingInvalidationAcks = [⟨⟨1, [9]⟩, 3, none, none⟩] ∧
      (msg.registerOperation.length + msg.ackedInvalidation.length ≤
        c.config.maxOpsPerMessage.toNat ∧
      (msg.messageType = some .typeObjectControl → c'.pendingInvalidationAcks ≠ [] →
        msg.registerOperation.length + msg.ackedInvalidation.length =
          c.config.maxOpsPerMessage.toNat)) := by
  intro c
  obtain ⟨⟨c', msg⟩, h⟩ := Option.isSome_iff_exists.1 (show c.takeOutboundMessage.isSome by decide)
  have hout : c.takeOutboundMessage.map (fun r => (r.2.registerOperation.length,
      r.2.ackedInvalidation, r.1.pendingInvalidationAcks)) =
      some (1, [⟨⟨1, [8]⟩, 4, none, none⟩], [⟨⟨1, [9]⟩, 3, none, none⟩]) := by decide
  rw [h] at hout
  simp only [Option.map_some', Option.some.injEq, Prod.mk.injEq] at hout
  exact ⟨c', msg, h, hout.1, hout.2.1, hout.2.2, take_outbound_message_respects_max_ops h⟩

end InvalidationClientImpl

end CacheInvalidation
