import CacheInvalidation.ProtoConverter
import CacheInvalidation.Throttle

/-!
# What the client reads and writes

`invalidation-client-impl.cc` is the first version of the client. It speaks the protocol
messages `ClientToServerMessage` and `ServerToClientMessage`, persists a `TiclState`, and is
configured by a `ClientConfig`. The schemas are not in the source; each type here has the
fields the modelled code reads or writes, under their names. A field of a message that can
be unset is an `Option`; a repeated field is a `List`, in order.
-/

namespace CacheInvalidation

/-- `ObjectId_Source_INTERNAL` (`invalidation-client-impl.cc:337`), the source of the client's
own objects: the enumerator `INTERNAL` of the schema's `ObjectId.Source`. The schema is not
among the sources; `1` is the number the released schema gives it. Nothing here depends on
that number: every statement and witness names the constant, never its value. -/
def objectIdSourceInternal : Int := 1

/-- `InvalidationClientImpl::INVALIDATE_ALL_OBJECT_NAME`, the bytes of `"ALL"`. -/
def invalidateAllObjectName : Bytes := [65, 76, 76]

/-- An object id: its source and `name().string_value()`. -/
structure ObjectId where
  source : Int
  name : Bytes
  deriving DecidableEq, Repr

/-- A `ComponentStamp`: which component handled an invalidation, and when, in
milliseconds. -/
structure ComponentStamp where
  component : String
  time : Int
  deriving DecidableEq, Repr

/-- An `Invalidation` on the wire; `componentStampLog` is `none` when the message has no
`component_stamp_log`. -/
structure Invalidation where
  objectId : ObjectId
  version : Int
  payload : Option Bytes := none
  componentStampLog : Option (List ComponentStamp) := none
  deriving DecidableEq, Repr

/-- The type of a registration operation. -/
inductive RegistrationOpType
  | typeRegister
  | typeUnregister
  deriving DecidableEq, Repr

/-- A `RegistrationUpdate`: one operation on one object, with its sequence number. -/
structure RegistrationUpdate where
  objectId : ObjectId
  type : RegistrationOpType
  sequenceNumber : Int
  deriving DecidableEq, Repr

/-- A `RegistrationUpdateResult`: the server's answer to one operation. -/
structure RegistrationUpdateResult where
  operation : RegistrationUpdate
  success : Bool
  deriving DecidableEq, Repr

/-- The type of an outbound message. -/
inductive ClientMessageType
  | typeInitialize
  | typeUpdateSession
  | typeObjectControl
  | typeShutdown
  deriving DecidableEq, Repr

/-- The type of an inbound message. -/
inductive ServerMessageType
  | typeAssignClientId
  | typeUpdateSession
  | typeInvalidateSession
  | typeInvalidateClientId
  | typeObjectControl
  deriving DecidableEq, Repr

/-- A `ClientToServerMessage`. -/
structure ClientToServerMessage where
  messageType : Option ClientMessageType := none
  clientUniquifier : Option Bytes := none
  sessionToken : Option Bytes := none
  registerOperation : List RegistrationUpdate := []
  ackedInvalidation : List Invalidation := []
  messageId : Option Nat := none
  clientType : Option Int := none
  deriving DecidableEq, Repr

/-- A `ServerToClientMessage`, as `ParseFromString` leaves it. -/
structure ServerToClientMessage where
  messageType : Option ServerMessageType := none
  clientUniquifier : Option Bytes := none
  sessionToken : Option Bytes := none
  registrationResult : List RegistrationUpdateResult := []
  invalidation : List Invalidation := []
  nextHeartbeatIntervalMs : Option Int := none
  nextPollIntervalMs : Option Int := none
  deriving DecidableEq, Repr

/-- The persisted `TiclState`. -/
structure TiclState where
  uniquifier : Bytes
  sessionToken : Bytes
  sequenceNumberLimit : Int
  deriving DecidableEq, Repr

/-- The `ClientConfig` fields the modelled code reads, with the outbound throttle's limits and
the initial heartbeat and polling intervals, in microseconds. -/
structure ClientConfig where
  seqnoBlockSize : Int
  maxOpsPerMessage : Int
  rateLimits : List RateLimit
  heartbeatInterval : Int
  pollingInterval : Int
  deriving DecidableEq, Repr

end CacheInvalidation
