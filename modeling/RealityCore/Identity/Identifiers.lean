import RealityCore.Library.JavaText
import RealityCore.Library.Regex

/-!
# Opaque identifiers

Every identifier type wraps a string of one reviewed form, checked when the value is built.
The types differ only in their names, and are kept apart so that one cannot stand for
another.
-/

namespace RealityCore

open Java (Text Throwable)
open Regex (Pattern fullMatch)

/-- `[A-Za-z0-9][A-Za-z0-9._:-]{0,127}` -/
def IdentifierValue.FORM : Pattern Char :=
  .seq (.set Char.isAlphanum)
    (.many (.set fun c => c.isAlphanum || ".:_-".toList.contains c) 0 (some 127))

/-- A string that `IdentifierValue.require` accepts. -/
def IdentifierValue.Accepted (value : Text) : Prop :=
  Java.isBlank value = false ∧ fullMatch IdentifierValue.FORM value = true

instance (value : Text) : Decidable (IdentifierValue.Accepted value) :=
  inferInstanceAs (Decidable (_ ∧ _))

/-- `IdentifierValue.require`: the message names the identifier type; `none` is `null`. -/
def IdentifierValue.require (type : Text) :
    Option Text → Except Throwable { value : Text // IdentifierValue.Accepted value }
  | none => .error (.illegalArgument (type ++ " must be 1-128 ASCII identifier characters".toList))
  | some value =>
    if h : IdentifierValue.Accepted value then .ok ⟨value, h⟩
    else .error (.illegalArgument (type ++ " must be 1-128 ASCII identifier characters".toList))

/-- Opaque identity of the principal initiating an operation. -/
structure ActorId where
  value : Text
  accepted : IdentifierValue.Accepted value
  deriving DecidableEq

/-- Opaque identifier for a server-authorized GUI session. -/
structure SessionId where
  value : Text
  accepted : IdentifierValue.Accepted value
  deriving DecidableEq

/-- Opaque identifier for one client or adapter request. -/
structure RequestId where
  value : Text
  accepted : IdentifierValue.Accepted value
  deriving DecidableEq

/-- Idempotency key for one mutation operation. -/
structure OperationId where
  value : Text
  accepted : IdentifierValue.Accepted value
  deriving DecidableEq

/-- Opaque identity of the resource or aggregate affected by an operation. -/
structure SubjectId where
  value : Text
  accepted : IdentifierValue.Accepted value
  deriving DecidableEq

/-- Opaque identifier for an emitted domain event. -/
structure EventId where
  value : Text
  accepted : IdentifierValue.Accepted value
  deriving DecidableEq

/-- Opaque identifier used to connect requests, operations and emitted events. -/
structure CorrelationId where
  value : Text
  accepted : IdentifierValue.Accepted value
  deriving DecidableEq

/-- `ActorId.of` -/
def ActorId.of (value : Option Text) : Except Throwable ActorId := do
  let v ← IdentifierValue.require "ActorId".toList value
  pure ⟨v.1, v.2⟩

/-- `SessionId.of` -/
def SessionId.of (value : Option Text) : Except Throwable SessionId := do
  let v ← IdentifierValue.require "SessionId".toList value
  pure ⟨v.1, v.2⟩

/-- `RequestId.of` -/
def RequestId.of (value : Option Text) : Except Throwable RequestId := do
  let v ← IdentifierValue.require "RequestId".toList value
  pure ⟨v.1, v.2⟩

/-- `OperationId.of` -/
def OperationId.of (value : Option Text) : Except Throwable OperationId := do
  let v ← IdentifierValue.require "OperationId".toList value
  pure ⟨v.1, v.2⟩

/-- `SubjectId.of` -/
def SubjectId.of (value : Option Text) : Except Throwable SubjectId := do
  let v ← IdentifierValue.require "SubjectId".toList value
  pure ⟨v.1, v.2⟩

/-- `EventId.of` -/
def EventId.of (value : Option Text) : Except Throwable EventId := do
  let v ← IdentifierValue.require "EventId".toList value
  pure ⟨v.1, v.2⟩

/-- `CorrelationId.of` -/
def CorrelationId.of (value : Option Text) : Except Throwable CorrelationId := do
  let v ← IdentifierValue.require "CorrelationId".toList value
  pure ⟨v.1, v.2⟩

/-- `IdentifierValue.redacted`, of the simple name of the type. -/
def IdentifierValue.redacted (type : Text) : Text := type ++ "[redacted]".toList

/-- `ActorId.toString` -/
def ActorId.toText (_ : ActorId) : Text := IdentifierValue.redacted "ActorId".toList

/-- `SessionId.toString` -/
def SessionId.toText (_ : SessionId) : Text := IdentifierValue.redacted "SessionId".toList

/-- `RequestId.toString` -/
def RequestId.toText (_ : RequestId) : Text := IdentifierValue.redacted "RequestId".toList

/-- `OperationId.toString` -/
def OperationId.toText (_ : OperationId) : Text := IdentifierValue.redacted "OperationId".toList

/-- `SubjectId.toString` -/
def SubjectId.toText (_ : SubjectId) : Text := IdentifierValue.redacted "SubjectId".toList

/-- `EventId.toString` -/
def EventId.toText (_ : EventId) : Text := IdentifierValue.redacted "EventId".toList

/-- `CorrelationId.toString` -/
def CorrelationId.toText (_ : CorrelationId) : Text :=
  IdentifierValue.redacted "CorrelationId".toList

end RealityCore
