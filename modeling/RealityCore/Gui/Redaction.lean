import RealityCore.Gui.Delta
import RealityCore.Gui.Secrecy
import RealityCore.Library.JavaInstant

/-!
# What the logs show

The texts of the values are built from the texts of their parts. Identifiers are redacted, and
snapshots, deltas and failures show how many fields and parameters they hold, so two values whose
other parts are the same have the same text.
-/

namespace RealityCore

open Java (Text booleanText intText)

/-- `LocaleTag.toString` -/
def LocaleTag.toText (locale : LocaleTag) : Text := locale.value

/-- `MutationRequestMetadata.toString` -/
def MutationRequestMetadata.toText (request : MutationRequestMetadata) : Text :=
  "MutationRequestMetadata[requestId=".toList ++ request.requestId.toText ++
    ", operationId=".toList ++ request.operationId.toText ++
    ", sessionId=".toList ++ request.sessionId.toText ++
    ", expectedVersion=".toList ++ request.expectedVersion.toText ++ "]".toList

/-- `GuiSession.toString` -/
def GuiSession.toText (session : GuiSession) : Text :=
  "GuiSession[locale=".toList ++ session.locale.toText ++
    ", streamerMode=".toList ++ booleanText session.streamerMode ++
    ", expiresAt=".toList ++ session.expiresAt.toText ++
    ", revision=".toList ++ session.revision.toText ++ "]".toList

/-- `GuiSnapshot.toString` -/
def GuiSnapshot.toText (snapshot : GuiSnapshot) : Text :=
  "GuiSnapshot[revision=".toList ++ snapshot.revision.toText ++
    ", locale=".toList ++ snapshot.locale.toText ++
    ", streamerMode=".toList ++ booleanText snapshot.streamerMode ++
    ", fieldCount=".toList ++ intText snapshot.values.size ++ "]".toList

/-- `GuiDelta.toString` -/
def GuiDelta.toText (delta : GuiDelta) : Text :=
  "GuiDelta[fromRevision=".toList ++ delta.fromRevision.toText ++
    ", toRevision=".toList ++ delta.toRevision.toText ++
    ", locale=".toList ++ delta.locale.toText ++
    ", streamerMode=".toList ++ booleanText delta.streamerMode ++
    ", updatedCount=".toList ++ intText delta.updatedValues.size ++
    ", removedCount=".toList ++ intText delta.removedKeys.size ++ "]".toList

/-- `ErrorInfo.toString` -/
def ErrorInfo.toText (error : ErrorInfo) : Text :=
  "ErrorInfo[code=".toList ++ error.errorCode.code ++
    ", parameterCount=".toList ++ intText error.parameters.length ++
    ", retryable=".toList ++ booleanText error.retryable ++ "]".toList

/-- The request, the operation and the session of a request are redacted. -/
theorem MutationRequestMetadata.toText_congr {request other : MutationRequestMetadata}
    (h : request.expectedVersion = other.expectedVersion) : request.toText = other.toText := by
  unfold toText
  rw [h]
  rfl

/-- The actor and the identifier of a session are not shown. -/
theorem GuiSession.toText_congr {session other : GuiSession}
    (hlocale : session.locale = other.locale)
    (hmode : session.streamerMode = other.streamerMode)
    (hexpires : session.expiresAt = other.expiresAt)
    (hrevision : session.revision = other.revision) : session.toText = other.toText := by
  unfold toText
  rw [hlocale, hmode, hexpires, hrevision]

/-- A snapshot shows how many fields it holds. -/
theorem GuiSnapshot.toText_congr {snapshot other : GuiSnapshot}
    (hrevision : snapshot.revision = other.revision) (hlocale : snapshot.locale = other.locale)
    (hmode : snapshot.streamerMode = other.streamerMode)
    (hcount : snapshot.values.size = other.values.size) : snapshot.toText = other.toText := by
  unfold toText
  rw [hrevision, hlocale, hmode, hcount]

/-- A delta shows how many fields it updates and removes. -/
theorem GuiDelta.toText_congr {delta other : GuiDelta}
    (hfrom : delta.fromRevision = other.fromRevision) (hto : delta.toRevision = other.toRevision)
    (hlocale : delta.locale = other.locale) (hmode : delta.streamerMode = other.streamerMode)
    (hupdated : delta.updatedValues.size = other.updatedValues.size)
    (hremoved : delta.removedKeys.size = other.removedKeys.size) : delta.toText = other.toText := by
  unfold toText
  rw [hfrom, hto, hlocale, hmode, hupdated, hremoved]

/-- A failure shows how many parameters it carries. -/
theorem ErrorInfo.toText_congr {error other : ErrorInfo} (hcode : error.errorCode = other.errorCode)
    (hcount : error.parameters.length = other.parameters.length)
    (hretryable : error.retryable = other.retryable) : error.toText = other.toText := by
  unfold toText
  rw [hcode, hcount, hretryable]

/-- All identifiers of a type have one text, and the texts of requests, sessions, snapshots, deltas
and failures depend on their public parts and on counts only. -/
theorem toText_redacted :
    ((∀ a b : ActorId, a.toText = b.toText) ∧ (∀ a b : SessionId, a.toText = b.toText) ∧
      (∀ a b : RequestId, a.toText = b.toText) ∧ (∀ a b : OperationId, a.toText = b.toText) ∧
      (∀ a b : SubjectId, a.toText = b.toText) ∧ (∀ a b : EventId, a.toText = b.toText) ∧
      ∀ a b : CorrelationId, a.toText = b.toText) ∧
    (∀ request other : MutationRequestMetadata,
      request.expectedVersion = other.expectedVersion → request.toText = other.toText) ∧
    (∀ session other : GuiSession, session.locale = other.locale →
      session.streamerMode = other.streamerMode → session.expiresAt = other.expiresAt →
        session.revision = other.revision → session.toText = other.toText) ∧
    (∀ snapshot other : GuiSnapshot, snapshot.revision = other.revision →
      snapshot.locale = other.locale → snapshot.streamerMode = other.streamerMode →
        snapshot.values.size = other.values.size → snapshot.toText = other.toText) ∧
    (∀ delta other : GuiDelta, delta.fromRevision = other.fromRevision →
      delta.toRevision = other.toRevision → delta.locale = other.locale →
        delta.streamerMode = other.streamerMode →
          delta.updatedValues.size = other.updatedValues.size →
            delta.removedKeys.size = other.removedKeys.size → delta.toText = other.toText) ∧
    ∀ error other : ErrorInfo, error.errorCode = other.errorCode →
      error.parameters.length = other.parameters.length → error.retryable = other.retryable →
        error.toText = other.toText := by
  refine ⟨⟨fun _ _ => rfl, fun _ _ => rfl, fun _ _ => rfl, fun _ _ => rfl, fun _ _ => rfl,
    fun _ _ => rfl, fun _ _ => rfl⟩, fun _ _ h => MutationRequestMetadata.toText_congr h, ?_, ?_,
    ?_, fun _ _ hcode hcount hretryable => ErrorInfo.toText_congr hcode hcount hretryable⟩
  · intro session other hlocale hmode hexpires hrevision
    exact GuiSession.toText_congr hlocale hmode hexpires hrevision
  · intro snapshot other hrevision hlocale hmode hcount
    exact GuiSnapshot.toText_congr hrevision hlocale hmode hcount
  · intro delta other hfrom hto hlocale hmode hupdated hremoved
    exact GuiDelta.toText_congr hfrom hto hlocale hmode hupdated hremoved

/-- The brief session with another actor. -/
def otherSession : GuiSession :=
  .openSession ⟨"s-9".toList, by decide⟩ ⟨"a-9".toList, by decide⟩ GuiSession.briefSession.locale
    false GuiSession.briefSession.expiresAt .initial

/-- A request of another client. -/
def otherRequest : MutationRequestMetadata :=
  ⟨⟨"r-9".toList, by decide⟩, ⟨"o-9".toList, by decide⟩, ⟨"s-9".toList, by decide⟩, .initial⟩

/-- A snapshot with a field. -/
def secretSnapshot (key : GuiFieldValidation.Key) (value : GuiFieldValidation.FieldValue) :
    GuiSnapshot :=
  ⟨GuiSession.briefSession.sessionId, .initial, GuiSession.briefSession.locale, true,
    ⟨[(key, value)], List.nodup_singleton key⟩⟩

/-- A delta with other fields than that of the balance. -/
def marketDelta : GuiDelta :=
  ⟨otherRequest.sessionId, GuiDelta.balanceDelta.fromRevision, GuiDelta.balanceDelta.toRevision,
    GuiDelta.balanceDelta.locale, true,
    ⟨[(⟨"market.open".toList, by decide⟩, ⟨"yes".toList, by decide⟩)], by decide⟩,
    ⟨[⟨"market.fee".toList, by decide⟩], by decide⟩, GuiDelta.balanceDelta.after, by decide⟩

/-- The logs do not tell these values apart. -/
theorem toText_redacted_values :
    GuiSession.strayRequest.toText = otherRequest.toText ∧
      GuiSession.briefSession.toText = otherSession.toText ∧
      (secretSnapshot ⟨"wallet".toList, by decide⟩ ⟨"120".toList, by decide⟩).toText =
        (secretSnapshot ⟨"shop".toList, by decide⟩ ⟨"closed".toList, by decide⟩).toText ∧
      GuiDelta.balanceDelta.toText = marketDelta.toText ∧
      ErrorInfo.toText ⟨.notFound, [("id".toList, "1".toList)], false⟩ =
        ErrorInfo.toText ⟨.notFound, [("name".toList, "x".toList)], false⟩ := by
  obtain ⟨-, hrequest, hsession, hsnapshot, hdelta, herror⟩ := toText_redacted
  -- part by part: comparing whole sessions would first tell their identifiers apart
  have hlocale : otherSession.locale = GuiSession.briefSession.locale :=
    GuiSession.openSession_locale _ _ _ _ _ _
  have hmode : otherSession.streamerMode = false :=
    GuiSession.openSession_streamerMode _ _ _ _ _ _
  have hexpires : otherSession.expiresAt = GuiSession.briefSession.expiresAt :=
    GuiSession.openSession_expiresAt _ _ _ _ _ _
  have hrevision : otherSession.revision = .initial := GuiSession.openSession_revision _ _ _ _ _ _
  exact ⟨hrequest _ _ rfl, hsession _ _ hlocale.symm hmode.symm hexpires.symm hrevision.symm,
    hsnapshot _ _ rfl rfl rfl rfl, hdelta _ _ rfl rfl rfl rfl rfl rfl, herror _ _ rfl rfl rfl⟩

end RealityCore
