import RealityCore.Gui.ErrorInfo
import RealityCore.Gui.Revision
import RealityCore.Identity.Identifiers

/-!
# Server-issued GUI sessions

`validate` checks a mutation request against the session in a fixed order: missing
arguments, actor, session, expiry, revision. A failure carries the code of the first check
that does not pass, and only the last one discloses revisions. The lemmas say that
validation never raises and exactly when it succeeds.
-/

namespace RealityCore

open Java (Instant Text Throwable)
open Regex (Pattern fullMatch)

/-- `[A-Za-z]{2,8}(?:-[A-Za-z0-9]{1,8}){0,3}` -/
def LocaleTag.FORM : Pattern Char :=
  .seq (.many (.set Char.isAlpha) 2 (some 6))
    (.many (.seq (.set (· == '-')) (.many (.set Char.isAlphanum) 1 (some 7))) 0 (some 3))

/-- BCP-47-shaped locale tag used for adapter-side localization. -/
structure LocaleTag where
  value : Text
  short : Java.length value ≤ 35
  form : fullMatch LocaleTag.FORM value = true
  deriving DecidableEq

/-- Required metadata for every mutation request. -/
structure MutationRequestMetadata where
  requestId : RequestId
  operationId : OperationId
  sessionId : SessionId
  expectedVersion : Revision
  deriving DecidableEq

/-- Immutable server-issued session state. -/
structure GuiSession where
  sessionId : SessionId
  actor : ActorId
  locale : LocaleTag
  streamerMode : Bool
  expiresAt : Instant
  revision : Revision
  deriving DecidableEq

namespace GuiSession

/-- `GuiSession.open` -/
def openSession (sessionId : SessionId) (actor : ActorId) (locale : LocaleTag)
    (streamerMode : Bool) (expiresAt : Instant) (revision : Revision) : GuiSession :=
  ⟨sessionId, actor, locale, streamerMode, expiresAt, revision⟩

section Open

variable (sessionId : SessionId) (actor : ActorId) (locale : LocaleTag) (streamerMode : Bool)
  (expiresAt : Instant) (revision : Revision)

@[simp] theorem openSession_locale :
    (openSession sessionId actor locale streamerMode expiresAt revision).locale = locale := rfl

@[simp] theorem openSession_streamerMode :
    (openSession sessionId actor locale streamerMode expiresAt revision).streamerMode =
      streamerMode := rfl

@[simp] theorem openSession_expiresAt :
    (openSession sessionId actor locale streamerMode expiresAt revision).expiresAt =
      expiresAt := rfl

@[simp] theorem openSession_revision :
    (openSession sessionId actor locale streamerMode expiresAt revision).revision = revision := rfl

end Open

/-- `GuiSession.isExpired` -/
def isExpired (s : GuiSession) (now : Instant) : Bool := !now.isBefore s.expiresAt

/-- The parameters of a revision conflict. -/
def conflictParameters (s : GuiSession) (request : MutationRequestMetadata) : List (Text × Text) :=
  [("expectedVersion".toList, request.expectedVersion.toText),
    ("currentVersion".toList, s.revision.toText)]

/-- A failed validation with the given failure, which may itself raise. -/
def fail (failure : Except Throwable ErrorInfo) : Except Throwable (Result Unit) := do
  pure (Result.failure (← failure))

/-- `GuiSession.validate`; `none` is `null`. -/
def validate (s : GuiSession) :
    Option MutationRequestMetadata → Option ActorId → Option Instant →
      Except Throwable (Result Unit)
  | some request, some authenticatedActor, some now =>
    if s.actor ≠ authenticatedActor then fail (ErrorInfo.of .invalidSession)
    else if s.sessionId ≠ request.sessionId then fail (ErrorInfo.of .invalidSession)
    else if s.isExpired now then fail (ErrorInfo.of .sessionExpired)
    else if s.revision ≠ request.expectedVersion then
      fail (ErrorInfo.ofParameters .revisionConflict
        (ErrorInfo.present (s.conflictParameters request)))
    else pure Result.success
  | _, _, _ => fail (ErrorInfo.of .malformedRequest)

/-- A request that the session authorizes: the right actor, the right session, in time. -/
def Authorizes (s : GuiSession) (request : MutationRequestMetadata) (actor : ActorId)
    (now : Instant) : Prop :=
  s.actor = actor ∧ s.sessionId = request.sessionId ∧ now.isBefore s.expiresAt = true

instance (s : GuiSession) (request : MutationRequestMetadata) (actor : ActorId) (now : Instant) :
    Decidable (s.Authorizes request actor now) := inferInstanceAs (Decidable (_ ∧ _))

/-- The failure of a revision conflict is always built: its values are short. -/
theorem conflict_eq (s : GuiSession) (request : MutationRequestMetadata) :
    ErrorInfo.ofParameters .revisionConflict (ErrorInfo.present (s.conflictParameters request)) =
      .ok ⟨.revisionConflict, s.conflictParameters request, true⟩ := by
  have hshort (r : Revision) : Java.length r.toText ≤ 1024 := by
    have hdigits := r.length_toText_le
    have hunits := Java.length_le r.toText
    omega
  apply ErrorInfo.ofParameters_eq .revisionConflict (by simp [conflictParameters])
  intro p hp
  simp only [conflictParameters, List.mem_cons, List.not_mem_nil, or_false] at hp
  have hexpected : Java.isBlank "expectedVersion".toList = false ∧
      Java.length "expectedVersion".toList ≤ 64 := by decide
  have hcurrent : Java.isBlank "currentVersion".toList = false ∧
      Java.length "currentVersion".toList ≤ 64 := by decide
  rcases hp with rfl | rfl
  · exact ⟨hexpected.1, hexpected.2, hshort _⟩
  · exact ⟨hcurrent.1, hcurrent.2, hshort _⟩

/-- Validation of a complete request never raises, and answers by the first failing check. -/
theorem validate_some (s : GuiSession) (request : MutationRequestMetadata) (actor : ActorId)
    (now : Instant) :
    s.validate (some request) (some actor) (some now) = .ok
      (if s.actor ≠ actor then .failure ⟨.invalidSession, [], false⟩
      else if s.sessionId ≠ request.sessionId then .failure ⟨.invalidSession, [], false⟩
      else if s.isExpired now then .failure ⟨.sessionExpired, [], false⟩
      else if s.revision ≠ request.expectedVersion then
        .failure ⟨.revisionConflict, s.conflictParameters request, true⟩
      else .success) := by
  simp only [validate, conflict_eq, ErrorInfo.of_eq]
  split_ifs <;> rfl

/-- Validation of an incomplete request never raises and reports a malformed request. -/
theorem validate_none (s : GuiSession) {request : Option MutationRequestMetadata}
    {actor : Option ActorId} {now : Option Instant}
    (h : request = none ∨ actor = none ∨ now = none) :
    s.validate request actor now = .ok (.failure ⟨.malformedRequest, [], false⟩) := by
  rcases request with _ | request
  · rfl
  · rcases actor with _ | actor
    · rfl
    · rcases now with _ | now
      · rfl
      · simp at h

/-- A complete request succeeds when it is authorized and names the current revision, and
otherwise fails. -/
theorem validate_some_cases (s : GuiSession) (request : MutationRequestMetadata)
    (actor : ActorId) (now : Instant) :
    (s.Authorizes request actor now ∧ request.expectedVersion = s.revision ∧
      s.validate (some request) (some actor) (some now) = .ok .success) ∨
    (¬(s.Authorizes request actor now ∧ request.expectedVersion = s.revision) ∧
      ∃ error, s.validate (some request) (some actor) (some now) = .ok (.failure error)) := by
  rw [validate_some]
  by_cases hactor : s.actor = actor
  · by_cases hsession : s.sessionId = request.sessionId
    · by_cases hnow : now.isBefore s.expiresAt = true
      · by_cases hrevision : s.revision = request.expectedVersion
        · left
          simp [Authorizes, isExpired, hactor, hsession, hnow, hrevision]
        · right
          simp [Authorizes, isExpired, hactor, hsession, hnow, hrevision, Ne.symm hrevision]
      · right
        simp [Authorizes, isExpired, hactor, hsession, hnow]
    · right
      simp [Authorizes, hactor, hsession]
  · right
    simp [Authorizes, hactor]

end GuiSession

end RealityCore
