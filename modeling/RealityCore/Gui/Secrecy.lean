import RealityCore.Gui.Server

/-!
# What a validation discloses

A caller that is not the session's actor, or names another session, gets an answer that does not
depend on any session, request or time. Revisions are disclosed to the right caller in time only,
so for all others two sessions that differ in their revision cannot be told apart.
-/

namespace RealityCore

open Java (Instant Text)

namespace GuiSession

variable {s : GuiSession} {request : MutationRequestMetadata} {actor : ActorId} {now : Instant}

/-- The answer to every wrong actor and for every wrong session. -/
def invalidSession : Result Unit := .failure ⟨.invalidSession, [], false⟩

/-- A wrong actor gets the answer for invalid sessions. -/
theorem validate_wrongActor (h : s.actor ≠ actor) :
    s.validate (some request) (some actor) (some now) = .ok invalidSession := by
  rw [validate_some, if_pos h, invalidSession]

/-- A wrong session gets the answer for invalid sessions. -/
theorem validate_wrongSession (h : s.sessionId ≠ request.sessionId) :
    s.validate (some request) (some actor) (some now) = .ok invalidSession := by
  rw [validate_some, if_pos h, ite_self, invalidSession]

/-- An expired session is reported without its revision. -/
theorem validate_expired (hactor : s.actor = actor) (hsession : s.sessionId = request.sessionId)
    (h : s.isExpired now = true) :
    s.validate (some request) (some actor) (some now) =
      .ok (.failure ⟨.sessionExpired, [], false⟩) := by
  rw [validate_some, if_neg (not_not.mpr hactor), if_neg (not_not.mpr hsession), if_pos h]

/-- A request that the session does not authorize gets an answer without parameters, the same for
every revision of the session. -/
theorem validate_unauthorized (h : ¬s.Authorizes request actor now) (revision : Revision) :
    ∃ code retryable,
      s.validate (some request) (some actor) (some now) = .ok (.failure ⟨code, [], retryable⟩) ∧
        (s.atRevision revision).validate (some request) (some actor) (some now) =
          .ok (.failure ⟨code, [], retryable⟩) := by
  let t := s.atRevision revision
  by_cases hactor : s.actor = actor
  · by_cases hsession : s.sessionId = request.sessionId
    · have hexpired : s.isExpired now = true := by
        simpa [Authorizes, hactor, hsession, isExpired] using h
      have hother : t.validate (some request) (some actor) (some now) =
          .ok (.failure ⟨.sessionExpired, [], false⟩) := validate_expired hactor hsession hexpired
      exact ⟨_, _, validate_expired hactor hsession hexpired, hother⟩
    · have hother : t.validate (some request) (some actor) (some now) = .ok invalidSession :=
        validate_wrongSession hsession
      exact ⟨_, _, validate_wrongSession hsession, hother⟩
  · have hother : t.validate (some request) (some actor) (some now) = .ok invalidSession :=
      validate_wrongActor hactor
    exact ⟨_, _, validate_wrongActor hactor, hother⟩

/-- Validation never raises, and its answer is a success exactly for a complete request that the
session authorizes and that names its revision. -/
theorem validate_answers (s : GuiSession) (request : Option MutationRequestMetadata)
    (actor : Option ActorId) (now : Option Instant) :
    ∃ result, s.validate request actor now = .ok result ∧
      (result.isSuccess = true ↔ ∃ r a t, request = some r ∧ actor = some a ∧ now = some t ∧
        s.Authorizes r a t ∧ r.expectedVersion = s.revision) := by
  by_cases hnull : request = none ∨ actor = none ∨ now = none
  · refine ⟨_, validate_none s hnull, iff_of_false (by decide) ?_⟩
    rintro ⟨r, a, t, rfl, rfl, rfl, -⟩
    simp at hnull
  · obtain ⟨hrequest, hactor, hnow⟩ := by simpa only [not_or] using hnull
    obtain ⟨r, rfl⟩ := Option.ne_none_iff_exists'.mp hrequest
    obtain ⟨a, rfl⟩ := Option.ne_none_iff_exists'.mp hactor
    obtain ⟨t, rfl⟩ := Option.ne_none_iff_exists'.mp hnow
    have hiff : ∀ P : MutationRequestMetadata → ActorId → Instant → Prop,
        (∃ r' a' t', some r = some r' ∧ some a = some a' ∧ some t = some t' ∧ P r' a' t') ↔
          P r a t := by simp
    simp only [hiff]
    rcases s.validate_some_cases r a t with ⟨hauth, hversion, h⟩ | ⟨hnot, error, h⟩
    · exact ⟨_, h, iff_of_true rfl ⟨hauth, hversion⟩⟩
    · exact ⟨_, h, iff_of_false (by simp [Result.isSuccess, Result.failure]) hnot⟩

/-- Validation is total and exact, and it is secret: wrong actors cannot tell two sessions apart,
nor can callers with a wrong session, and revisions are disclosed to the right actor of the right
session in time only, with no argument missing. -/
theorem validate_total_and_secret :
    (∀ (s : GuiSession) (request : Option MutationRequestMetadata) (actor : Option ActorId)
        (now : Option Instant), ∃ result, s.validate request actor now = .ok result ∧
      (result.isSuccess = true ↔ ∃ r a t, request = some r ∧ actor = some a ∧ now = some t ∧
        (s.actor = a ∧ s.sessionId = r.sessionId ∧ t.isBefore s.expiresAt = true) ∧
          r.expectedVersion = s.revision)) ∧
    (∀ (s t : GuiSession) (request other : MutationRequestMetadata) (actor caller : ActorId)
        (now later : Instant), s.actor ≠ actor → t.actor ≠ caller →
      s.validate (some request) (some actor) (some now) =
        t.validate (some other) (some caller) (some later)) ∧
    (∀ (s t : GuiSession) (request other : MutationRequestMetadata) (now later : Instant),
      s.sessionId ≠ request.sessionId → t.sessionId ≠ other.sessionId →
      s.validate (some request) (some s.actor) (some now) =
        t.validate (some other) (some t.actor) (some later)) ∧
    (∀ (s : GuiSession) (request : MutationRequestMetadata) (actor : ActorId) (now : Instant)
        (revision : Revision),
      ¬(s.actor = actor ∧ s.sessionId = request.sessionId ∧ now.isBefore s.expiresAt = true) →
      ∃ code retryable,
        s.validate (some request) (some actor) (some now) = .ok (.failure ⟨code, [], retryable⟩) ∧
          (s.atRevision revision).validate (some request) (some actor) (some now) =
            .ok (.failure ⟨code, [], retryable⟩)) ∧
    ∀ (s : GuiSession) (request : Option MutationRequestMetadata) (actor : Option ActorId)
        (now : Option Instant) (revision : Revision),
      request = none ∨ actor = none ∨ now = none → ∃ code retryable,
        s.validate request actor now = .ok (.failure ⟨code, [], retryable⟩) ∧
          (s.atRevision revision).validate request actor now =
            .ok (.failure ⟨code, [], retryable⟩) := by
  refine ⟨validate_answers, fun _ _ _ _ _ _ _ _ hs ht => ?_, fun _ _ _ _ _ _ hs ht => ?_,
    fun _ _ _ _ revision h => validate_unauthorized h revision,
    fun s _ _ _ revision h => ⟨_, _, validate_none s h, validate_none (s.atRevision revision) h⟩⟩
  · rw [validate_wrongActor hs, validate_wrongActor ht]
  · rw [validate_wrongSession hs, validate_wrongSession ht]

/-- A session that ends shortly after the epoch. -/
def briefSession : GuiSession :=
  openSession ⟨"s-15".toList, by decide⟩ ⟨"a-15".toList, by decide⟩
    ⟨"ja".toList, by decide, by decide⟩ false ⟨60, 250000000, by decide, by decide⟩ .initial

/-- A request for another session. -/
def strayRequest : MutationRequestMetadata :=
  ⟨⟨"r-15".toList, by decide⟩, ⟨"o-15".toList, by decide⟩, ⟨"s-16".toList, by decide⟩, .initial⟩

/-- Another actor, a wrong session and a late request learn nothing about the brief session. -/
theorem validate_total_and_secret_brief :
    (∃ result, briefSession.validate (some strayRequest) none none = .ok result) ∧
      briefSession.validate (some strayRequest) (some ⟨"a-2".toList, by decide⟩)
          (some briefSession.expiresAt) =
        (briefSession.atRevision ⟨7, by decide⟩).validate (some strayRequest)
          (some ⟨"a-3".toList, by decide⟩) (some briefSession.expiresAt) ∧
      briefSession.validate (some strayRequest) (some briefSession.actor)
          (some briefSession.expiresAt) =
        briefSession.validate (some strayRequest) (some briefSession.actor)
          (some ⟨-1, 0, by decide, by decide⟩) ∧
      ∃ code retryable,
        briefSession.validate (some ⟨strayRequest.requestId, strayRequest.operationId,
            briefSession.sessionId, .initial⟩) (some briefSession.actor)
          (some briefSession.expiresAt) = .ok (.failure ⟨code, [], retryable⟩) := by
  obtain ⟨htotal, hactor, hsession, hrevision, -⟩ := validate_total_and_secret
  obtain ⟨result, hresult, -⟩ := htotal briefSession (some strayRequest) none none
  refine ⟨⟨result, hresult⟩, hactor _ _ _ _ _ _ _ _ (by decide) (by decide),
    hsession _ _ _ _ _ _ (by decide) (by decide), ?_⟩
  obtain ⟨code, retryable, hcode, -⟩ := hrevision briefSession
    ⟨strayRequest.requestId, strayRequest.operationId, briefSession.sessionId, .initial⟩
    briefSession.actor briefSession.expiresAt .initial (by decide)
  exact ⟨code, retryable, hcode⟩

end GuiSession

end RealityCore
