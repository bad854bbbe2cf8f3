import RealityCore.Library.JavaText

/-!
# Structured failures

A failure carries a stable code, parameters and a retry flag. Building one checks the
parameters, so the construction itself can raise; the lemma below gives the bounds under
which it does not.
-/

namespace RealityCore

open Java (Text Throwable)

/-- Stable machine-readable failure codes. -/
inductive ErrorCode where
  | malformedRequest
  | permissionDenied
  | invalidSession
  | sessionExpired
  | revisionConflict
  | operationAlreadyProcessed
  | notFound
  | invalidArgument
  | insufficientFunds
  | unsupportedOperation
  | invariantViolation
  | internalFailure
  deriving DecidableEq

namespace ErrorCode

/-- The wire value. -/
def code : ErrorCode → Text
  | malformedRequest => "malformed_request".toList
  | permissionDenied => "permission_denied".toList
  | invalidSession => "invalid_session".toList
  | sessionExpired => "session_expired".toList
  | revisionConflict => "revision_conflict".toList
  | operationAlreadyProcessed => "operation_already_processed".toList
  | notFound => "not_found".toList
  | invalidArgument => "invalid_argument".toList
  | insufficientFunds => "insufficient_funds".toList
  | unsupportedOperation => "unsupported_operation".toList
  | invariantViolation => "invariant_violation".toList
  | internalFailure => "internal_failure".toList

/-- Whether a caller may retry, unless a failure says otherwise. -/
def retryableByDefault : ErrorCode → Bool
  | revisionConflict => true
  | internalFailure => true
  | _ => false

end ErrorCode

/-- Structured failure data. -/
structure ErrorInfo where
  errorCode : ErrorCode
  parameters : List (Text × Text)
  retryable : Bool
  deriving DecidableEq

namespace ErrorInfo

/-- One round of the loop in `ErrorInfo.copyParameters`; `none` is `null`. -/
def copyParameter : Option Text × Option Text → Except Throwable (Text × Text)
  | (some key, some value) =>
    if Java.isBlank key ∨ 64 < Java.length key ∨ 1024 < Java.length value then
      .error (.illegalArgument "ErrorInfo parameter key/value is invalid".toList)
    else .ok (key, value)
  | _ => .error (.illegalArgument "ErrorInfo parameter key/value is invalid".toList)

/-- `ErrorInfo.copyParameters` -/
def copyParameters (source : List (Option Text × Option Text)) :
    Except Throwable (List (Text × Text)) :=
  if 64 < source.length then
    .error (.illegalArgument "ErrorInfo supports at most 64 parameters".toList)
  else source.mapM copyParameter

/-- `ErrorInfo.of` with parameters and an explicit retry flag. -/
def ofRetryable (errorCode : ErrorCode) (parameters : List (Option Text × Option Text))
    (retryable : Bool) : Except Throwable ErrorInfo := do
  let copy ← copyParameters parameters
  pure ⟨errorCode, copy, retryable⟩

/-- `ErrorInfo.of` with parameters. -/
def ofParameters (errorCode : ErrorCode) (parameters : List (Option Text × Option Text)) :
    Except Throwable ErrorInfo :=
  ofRetryable errorCode parameters errorCode.retryableByDefault

/-- `ErrorInfo.of` -/
def of (errorCode : ErrorCode) : Except Throwable ErrorInfo := ofParameters errorCode []

/-- A failure without parameters is always built. -/
theorem of_eq (errorCode : ErrorCode) :
    of errorCode = .ok ⟨errorCode, [], errorCode.retryableByDefault⟩ := rfl

/-- The bounds that the copying loop checks. -/
def ValidParameter (p : Text × Text) : Prop :=
  Java.isBlank p.1 = false ∧ Java.length p.1 ≤ 64 ∧ Java.length p.2 ≤ 1024

/-- The parameters of a Java map without `null`. -/
def present (parameters : List (Text × Text)) : List (Option Text × Option Text) :=
  parameters.map fun p => (some p.1, some p.2)

/-- Valid parameters are copied unchanged. -/
theorem mapM_copyParameter_eq {parameters : List (Text × Text)}
    (h : ∀ p ∈ parameters, ValidParameter p) :
    (present parameters).mapM copyParameter = .ok parameters := by
  induction parameters with
  | nil => rfl
  | cons p parameters ih =>
    obtain ⟨hp, htail⟩ := List.forall_mem_cons.mp h
    have hcopy : copyParameter (some p.1, some p.2) = .ok p := by
      simp [copyParameter, hp.1, Nat.not_lt.mpr hp.2.1, Nat.not_lt.mpr hp.2.2]
    have hrest := ih htail
    simp only [present] at hrest
    simp [present, List.mapM_cons, hcopy, hrest, bind, Except.bind, pure, Except.pure]

/-- A failure with at most 64 valid parameters is always built. -/
theorem ofParameters_eq (errorCode : ErrorCode) {parameters : List (Text × Text)}
    (hlength : parameters.length ≤ 64) (h : ∀ p ∈ parameters, ValidParameter p) :
    ofParameters errorCode (present parameters) =
      .ok ⟨errorCode, parameters, errorCode.retryableByDefault⟩ := by
  have hlength' : (present parameters).length ≤ 64 := by simpa [present] using hlength
  rw [ofParameters, ofRetryable, copyParameters, if_neg (Nat.not_lt.mpr hlength'),
    mapM_copyParameter_eq h]
  rfl

end ErrorInfo

/-- Success or failure; a success may carry no value. -/
structure Result (T : Type) where
  value : Option T
  error : Option ErrorInfo

namespace Result

/-- `Result.success()` -/
def success : Result Unit := ⟨none, none⟩

/-- `Result.failure` -/
def failure {T : Type} (error : ErrorInfo) : Result T := ⟨none, some error⟩

/-- `Result.isSuccess` -/
def isSuccess {T : Type} (r : Result T) : Bool := r.error.isNone

end Result

end RealityCore
