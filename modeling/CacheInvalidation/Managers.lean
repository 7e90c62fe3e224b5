import CacheInvalidation.Wire
import Mathlib.Data.List.Sort

/-!
# The managers the client drives

`invalidation-client-impl.cc` hands most of its work to a `SessionManager`, a
`RegistrationUpdateManager` and a `NetworkManager`, whose sources are not here. Each is
modelled from the spec, under the names the client calls: the session state machine of
§4.5, the registration table with its sequence-number counter of §4.4, and the outbound
cadence of §4.6, whose `OutboundDataReady` fires a `Throttle` (`Throttle.fire`). Times are
microseconds.

The client reads the counter through `currentOpSeqno` and `maximumOpSeqnoInclusive`. A
`Register` or `Unregister` that leaves the desired state apart from the confirmed one takes
`op_seqno := current_op_seqno++` (`setDesired_currentOpSeqno`).
-/

namespace CacheInvalidation

/-! ## The session manager -/

/-- Modelled from the spec: the session states of §4.5. -/
inductive SessionState
  | noClientId
  | haveClientIdNoSession
  | haveSession
  | shutdown
  deriving DecidableEq, Repr

/-- What `SessionManager::ProcessMessage` tells the client to do with a message. -/
inductive MessageAction
  | ignoreMessage
  | acquireSession
  | loseClientId
  | loseSession
  | processObjectControl
  deriving DecidableEq, Repr

/-- Modelled from the spec: the `SessionManager` of §4.5. `shutdownSent` records that the
one `TYPE_SHUTDOWN` message went out. -/
structure SessionManager where
  state : SessionState
  clientUniquifier : Bytes
  sessionToken : Bytes
  shutdownSent : Bool
  deriving DecidableEq, Repr

namespace SessionManager

/-- Modelled from the spec: the constructor, from the persisted uniquifier and token, both
empty on a fresh start. -/
def new (uniquifier sessionToken : Bytes) : SessionManager :=
  let state :=
    if uniquifier = [] then .noClientId
    else if sessionToken = [] then .haveClientIdNoSession
    else .haveSession
  ⟨state, uniquifier, sessionToken, false⟩

/-- Modelled from the spec: `ProcessMessage`, the transition table of §4.5. A message the
table does not cover, for the wrong token or client or malformed, is ignored. -/
def processMessage (m : SessionManager) (bundle : ServerToClientMessage) :
    SessionManager × MessageAction :=
  match m.state, bundle.messageType, bundle.clientUniquifier, bundle.sessionToken with
  | .noClientId, some .typeAssignClientId, some u, some t =>
    ({ m with state := .haveSession, clientUniquifier := u, sessionToken := t }, .acquireSession)
  | .haveClientIdNoSession, some .typeUpdateSession, some u, some t =>
    if u = m.clientUniquifier then ({ m with state := .haveSession, sessionToken := t }, .acquireSession)
    else (m, .ignoreMessage)
  | .haveSession, some .typeObjectControl, _, some t =>
    if t = m.sessionToken then (m, .processObjectControl) else (m, .ignoreMessage)
  | .haveSession, some .typeInvalidateSession, _, some t =>
    if t = m.sessionToken then
      ({ m with state := .haveClientIdNoSession, sessionToken := [] }, .loseSession)
    else (m, .ignoreMessage)
  | .haveSession, some .typeInvalidateClientId, some u, _
  | .haveClientIdNoSession, some .typeInvalidateClientId, some u, _ =>
    if u = m.clientUniquifier then
      ({ m with state := .noClientId, clientUniquifier := [], sessionToken := [] }, .loseClientId)
    else (m, .ignoreMessage)
  | _, _, _, _ => (m, .ignoreMessage)

/-- Modelled from the spec: `Shutdown`, from any state. -/
def shutdown (m : SessionManager) : SessionManager :=
  { m with state := .shutdown }

/-- Modelled from the spec: `HasDataToSend`: a client id or a session to ask for, or the
shutdown message still to send. -/
def hasDataToSend (m : SessionManager) : Bool :=
  match m.state with
  | .noClientId | .haveClientIdNoSession => true
  | .haveSession => false
  | .shutdown => !m.shutdownSent

/-- Modelled from the spec: `HasSession`. -/
def hasSession (m : SessionManager) : Bool :=
  m.state = .haveSession

/-- Modelled from the spec: `AddSessionAction`. With a session it sets no type, so the
registration manager may make the message an object-control one. -/
def addSessionAction (m : SessionManager) (msg : ClientToServerMessage) :
    SessionManager × ClientToServerMessage :=
  match m.state with
  | .noClientId => (m, { msg with messageType := some .typeInitialize })
  | .haveClientIdNoSession =>
    (m, { msg with messageType := some .typeUpdateSession, clientUniquifier := some m.clientUniquifier })
  | .haveSession => (m, { msg with sessionToken := some m.sessionToken })
  | .shutdown =>
    if m.shutdownSent then (m, msg)
    else ({ m with shutdownSent := true },
      { msg with messageType := some .typeShutdown, sessionToken := some m.sessionToken })

/-- Modelled from the spec: what `ForgetClientId` does to the session (§4.7). -/
def forgetClientId (m : SessionManager) : SessionManager :=
  { m with state := .noClientId, clientUniquifier := [], sessionToken := [] }

end SessionManager

/-! ## The registration update manager -/

/-- Modelled from the spec: a registration record (§3). `confirmed = none` is `UNKNOWN`. -/
structure RegistrationRecord where
  desired : RegistrationOpType
  confirmed : Option RegistrationOpType
  opSeqno : Int
  deriving DecidableEq, Repr

/-- Modelled from the spec: a record whose operation is still to be sent (§3, §4.4). A
registration is pending until the server confirms it; an unregistration only while the
server is known to hold the registration. So after a new session, whose confirmed states are
all `UNKNOWN`, exactly the records desired registered resurface. -/
def RegistrationRecord.isPending (r : RegistrationRecord) : Bool :=
  match r.desired with
  | .typeRegister => r.confirmed ≠ some .typeRegister
  | .typeUnregister => r.confirmed = some .typeRegister

/-- Modelled from the spec: `RegistrationUpdateManager::kFirstSequenceNumber`. Scenario 1 of
§8 gives the first operation `op_seqno = 1`. -/
def kFirstSequenceNumber : Int := 1

/-- Modelled from the spec: the registration table and the sequence-number counter (§4.4). -/
structure RegistrationUpdateManager where
  registrations : List (ObjectId × RegistrationRecord)
  currentOpSeqno : Int
  maximumOpSeqnoInclusive : Int
  deriving DecidableEq, Repr

namespace RegistrationUpdateManager

/-- Modelled from the spec: the constructor counts from `initialSeqno`; no number is
reserved until `UpdateMaximumSeqno`. -/
def new (initialSeqno : Int) : RegistrationUpdateManager :=
  ⟨[], initialSeqno, initialSeqno - 1⟩

/-- The record of `oid`; an object never named is desired and confirmed unregistered. -/
def record (m : RegistrationUpdateManager) (oid : ObjectId) : RegistrationRecord :=
  ((m.registrations.find? (·.1 = oid)).map (·.2)).getD ⟨.typeUnregister, some .typeUnregister, 0⟩

/-- Replace the record of `oid`. -/
def setRecord (m : RegistrationUpdateManager) (oid : ObjectId) (r : RegistrationRecord) :
    RegistrationUpdateManager :=
  { m with registrations := m.registrations.filter (·.1 ≠ oid) ++ [(oid, r)] }

/-- Modelled from the spec: `Register` and `Unregister` set the desired state; if it now
differs from the confirmed one, the record takes `op_seqno := current_op_seqno++`. -/
def setDesired (m : RegistrationUpdateManager) (oid : ObjectId) (op : RegistrationOpType) :
    RegistrationUpdateManager :=
  let r := m.record oid
  if some op = r.confirmed then m.setRecord oid { r with desired := op }
  else { m.setRecord oid { r with desired := op, opSeqno := m.currentOpSeqno } with
    currentOpSeqno := m.currentOpSeqno + 1 }

/-- Modelled from the spec: `Register`. -/
def register (m : RegistrationUpdateManager) (oid : ObjectId) : RegistrationUpdateManager :=
  m.setDesired oid .typeRegister

/-- Modelled from the spec: `Unregister`. -/
def unregister (m : RegistrationUpdateManager) (oid : ObjectId) : RegistrationUpdateManager :=
  m.setDesired oid .typeUnregister

/-- Modelled from the spec: `HandleNewSession`: every confirmed state becomes `UNKNOWN`, and
the registrations resurface as pending against the new session. -/
def handleNewSession (m : RegistrationUpdateManager) : RegistrationUpdateManager :=
  { m with registrations := m.registrations.map fun e => (e.1, { e.2 with confirmed := none }) }

/-- Modelled from the spec: `HandleLostSession` has the same effect on the table. -/
def handleLostSession (m : RegistrationUpdateManager) : RegistrationUpdateManager :=
  m.handleNewSession

/-- Modelled from the spec: `DoPeriodicRegistrationCheck`: some operation is pending. -/
def doPeriodicRegistrationCheck (m : RegistrationUpdateManager) : Bool :=
  m.registrations.any (·.2.isPending)

/-- The pending records, oldest `op_seqno` first. -/
def pendingByAge (m : RegistrationUpdateManager) : List (ObjectId × RegistrationRecord) :=
  (m.registrations.filter (·.2.isPending)).insertionSort (fun a b => a.2.opSeqno ≤ b.2.opSeqno)

/-- Modelled from the spec: `AddOutboundData` makes the message an object-control one and
adds up to `max_ops_per_message` pending operations, oldest first. A sent operation stays
pending until confirmed, with its `op_seqno`. -/
def addOutboundData (m : RegistrationUpdateManager) (maxOpsPerMessage : Int)
    (msg : ClientToServerMessage) : RegistrationUpdateManager × ClientToServerMessage :=
  let ops := (m.pendingByAge.take maxOpsPerMessage.toNat).map fun e => ⟨e.1, e.2.desired, e.2.opSeqno⟩
  (m, { msg with
    messageType := some .typeObjectControl
    registerOperation := msg.registerOperation ++ ops })

/-- Modelled from the spec: one registration result of `ProcessInboundMessage`: a success
for a record's object and `op_seqno` confirms its desired state. -/
def processResult (m : RegistrationUpdateManager) (res : RegistrationUpdateResult) :
    RegistrationUpdateManager :=
  match m.registrations.find? (·.1 = res.operation.objectId) with
  | some (oid, r) =>
    if res.success ∧ r.opSeqno = res.operation.sequenceNumber then
      m.setRecord oid { r with confirmed := some r.desired }
    else m
  | none => m

/-- Modelled from the spec: `ProcessInboundMessage`. -/
def processInboundMessage (m : RegistrationUpdateManager) (bundle : ServerToClientMessage) :
    RegistrationUpdateManager :=
  bundle.registrationResult.foldl processResult m

/-- Modelled from the spec: `UpdateMaximumSeqno`. -/
def updateMaximumSeqno (m : RegistrationUpdateManager) (limit : Int) : RegistrationUpdateManager :=
  { m with maximumOpSeqnoInclusive := limit }

/-- Modelled from the spec: what `ForgetClientId` does to the counter (§4.7). -/
def resetSeqnos (m : RegistrationUpdateManager) (seqnoBlockSize : Int) : RegistrationUpdateManager :=
  { m with currentOpSeqno := kFirstSequenceNumber, maximumOpSeqnoInclusive := seqnoBlockSize }

/-- A state change takes the next sequence number; any other call leaves the counter. -/
theorem setDesired_currentOpSeqno (m : RegistrationUpdateManager) (oid : ObjectId)
    (op : RegistrationOpType) :
    (m.setDesired oid op).currentOpSeqno =
      if some op = (m.record oid).confirmed then m.currentOpSeqno else m.currentOpSeqno + 1 := by
  unfold setDesired
  by_cases h : some op = (m.record oid).confirmed <;> simp [h, setRecord]

end RegistrationUpdateManager

/-! ## The network manager -/

/-- Modelled from the spec: the `NetworkManager` of §4.6. `outboundListenerCalls` holds the
times, oldest first, at which it called the outbound listener that
`RegisterOutboundListener` installed. -/
structure NetworkManager where
  throttle : Throttle
  heartbeatInterval : Int
  pollingInterval : Int
  lastSendTime : Int
  lastPollTime : Int
  messageId : Nat
  outboundListenerCalls : List Int
  deriving DecidableEq, Repr

namespace NetworkManager

/-- Modelled from the spec: the constructor, with the configured intervals and limits. -/
def new (config : ClientConfig) (now : Int) : NetworkManager :=
  ⟨Throttle.new config.rateLimits, config.heartbeatInterval, config.pollingInterval, now, now, 0, []⟩

/-- Modelled from the spec: `HasDataToSend`: a heartbeat or a poll is due. -/
def hasDataToSend (n : NetworkManager) (now : Int) : Bool :=
  n.lastSendTime + n.heartbeatInterval ≤ now ∨ n.lastPollTime + n.pollingInterval ≤ now

/-- Modelled from the spec: `RecordImplicitHeartbeat`. -/
def recordImplicitHeartbeat (n : NetworkManager) (now : Int) : NetworkManager :=
  { n with lastSendTime := now }

/-- Modelled from the spec: `HandleInboundMessage` takes the server's fresh intervals. -/
def handleInboundMessage (n : NetworkManager) (bundle : ServerToClientMessage) : NetworkManager :=
  { n with
    heartbeatInterval := bundle.nextHeartbeatIntervalMs.getD n.heartbeatInterval
    pollingInterval := bundle.nextPollIntervalMs.getD n.pollingInterval }

/-- Modelled from the spec: `FinalizeOutboundMessage` stamps the message id and the client
type; the message goes out now. -/
def finalizeOutboundMessage (n : NetworkManager) (clientType now : Int)
    (msg : ClientToServerMessage) : NetworkManager × ClientToServerMessage :=
  ({ n with messageId := n.messageId + 1, lastSendTime := now },
    { msg with messageId := some n.messageId, clientType := some clientType })

/-- What the throttle did at `now`, applied to the network manager: the outbound listener was
called, or a `RetryFire` is to be scheduled after the returned delay. -/
def applyFire (n : NetworkManager) (now : Int) : Throttle × FireOutcome → NetworkManager × Option Int
  | (t, .invoked) =>
    ({ n with throttle := t, outboundListenerCalls := n.outboundListenerCalls ++ [now] }, none)
  | (t, .deferred d) => ({ n with throttle := t }, some d)
  | (t, .dropped) => ({ n with throttle := t }, none)

/-- Modelled from the spec: `OutboundDataReady` fires the throttle. -/
def outboundDataReady (n : NetworkManager) (now : Int) : NetworkManager × Option Int :=
  n.applyFire now (n.throttle.fire now)

/-- The throttle's `RetryFire`, run by the scheduler. -/
def retryFire (n : NetworkManager) (now : Int) : NetworkManager × Option Int :=
  n.applyFire now (n.throttle.retryFire now)

end NetworkManager

end CacheInvalidation
