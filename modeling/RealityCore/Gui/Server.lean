import RealityCore.Gui.Session
import RealityCore.Library.Versioned

/-!
# Optimistic concurrency over whole runs

A server validates each event against the session it holds. On success it issues the
session again at the next revision; on failure it keeps the session. Events come from any
clients in any order, so a run is an arbitrary list of events. The server simulates the
version register of the library: an authorized request is offered at its expected version,
and everything else is refused.
-/

namespace RealityCore

open Java (Instant Throwable)

/-- One event at the server; `none` is `null`. -/
structure MutationEvent where
  request : Option MutationRequestMetadata
  authenticatedActor : Option ActorId
  now : Option Instant

/-- What happens to an event. -/
inductive ServerReply where
  | accepted
  | rejected (error : ErrorInfo)
  | raised (exception : Throwable)
  deriving DecidableEq

namespace GuiSession

/-- The same session, issued at another revision. -/
def atRevision (s : GuiSession) (revision : Revision) : GuiSession :=
  openSession s.sessionId s.actor s.locale s.streamerMode s.expiresAt revision

/-- Validate one event, and issue the session again at the next revision on success. -/
def serve (s : GuiSession) (e : MutationEvent) : GuiSession × ServerReply :=
  match s.validate e.request e.authenticatedActor e.now with
  | .error exception => (s, .raised exception)
  | .ok result =>
    match result.error with
    | some error => (s, .rejected error)
    | none =>
      match s.revision.next with
      | .ok revision => (s.atRevision revision, .accepted)
      | .error exception => (s, .raised exception)

/-- The event is a complete request that the session authorizes. -/
def Admits (s : GuiSession) (e : MutationEvent) (request : MutationRequestMetadata) : Prop :=
  ∃ actor now, e = ⟨some request, some actor, some now⟩ ∧ s.Authorizes request actor now

/-- The version at which an event is offered to the register. -/
def offered (s : GuiSession) : MutationEvent → Option ℕ
  | ⟨some request, some actor, some now⟩ =>
    if s.Authorizes request actor now then some request.expectedVersion.number else none
  | _ => none

/-- The register's view of a reply. -/
def registerReply : ServerReply → Versioned.Reply
  | .accepted => .accepted
  | .rejected _ => .refused
  | .raised _ => .exhausted

/-- An event offered at a version is an authorized request that expects it. -/
theorem offered_eq_some_iff {s : GuiSession} {e : MutationEvent} {version : ℕ} :
    s.offered e = some version ↔
      ∃ request, s.Admits e request ∧ request.expectedVersion.number = version := by
  obtain ⟨request, actor, now⟩ := e
  rcases request with _ | request <;> rcases actor with _ | actor <;> rcases now with _ | now
  all_goals simp [offered, Admits]

/-- A validated event is accepted below the largest revision and raises there. -/
theorem serve_of_success {s : GuiSession} {e : MutationEvent}
    (h : s.validate e.request e.authenticatedActor e.now = .ok .success) :
    (s.revision.number < Revision.maxNumber ∧ ∃ revision,
        revision.number = s.revision.number + 1 ∧
          s.serve e = (s.atRevision revision, .accepted)) ∨
      (s.revision.number = Revision.maxNumber ∧ s.serve e = (s, .raised .arithmetic)) := by
  rcases Nat.lt_or_eq_of_le s.revision.number_le_maxNumber with hlt | hmax
  · obtain ⟨revision, hnext, hnumber⟩ := Revision.next_of_lt hlt
    exact Or.inl ⟨hlt, revision, hnumber, by simp [serve, h, Result.success, hnext]⟩
  · exact Or.inr ⟨hmax, by simp [serve, h, Result.success, Revision.next_of_max hmax]⟩

/-- Everything a step can do: accept or raise on an event offered at the current revision,
and reject every other event. -/
theorem serve_cases (s : GuiSession) (e : MutationEvent) :
    (s.offered e = some s.revision.number ∧
      ((s.revision.number < Revision.maxNumber ∧ ∃ revision,
          revision.number = s.revision.number + 1 ∧
            s.serve e = (s.atRevision revision, .accepted)) ∨
        (s.revision.number = Revision.maxNumber ∧ s.serve e = (s, .raised .arithmetic)))) ∨
    (s.offered e ≠ some s.revision.number ∧ ∃ error, s.serve e = (s, .rejected error)) := by
  obtain ⟨request, actor, now⟩ := e
  have hmissing (h : request = none ∨ actor = none ∨ now = none)
      (hoffered : s.offered ⟨request, actor, now⟩ = none) :
      s.offered ⟨request, actor, now⟩ ≠ some s.revision.number ∧
        ∃ error, s.serve ⟨request, actor, now⟩ = (s, .rejected error) :=
    ⟨by simp [hoffered], _, by rw [serve, validate_none s h]; rfl⟩
  rcases request with _ | request
  · exact Or.inr (hmissing (by simp) rfl)
  rcases actor with _ | actor
  · exact Or.inr (hmissing (by simp) rfl)
  rcases now with _ | now
  · exact Or.inr (hmissing (by simp) rfl)
  rcases validate_some_cases s request actor now with
    ⟨hauth, hcurrent, hsuccess⟩ | ⟨hnot, error, hfail⟩
  · exact Or.inl ⟨by simp [offered, hauth, hcurrent], serve_of_success hsuccess⟩
  · refine Or.inr ⟨fun hoffered => hnot ?_, error, by simp [serve, hfail, Result.failure]⟩
    obtain ⟨r, ⟨a, t, hevent, hauth⟩, hversion⟩ := offered_eq_some_iff.mp hoffered
    simp only [MutationEvent.mk.injEq, Option.some.injEq] at hevent
    obtain ⟨rfl, rfl, rfl⟩ := hevent
    exact ⟨hauth, Revision.number_inj.mp hversion⟩

/-- Everything but the revision stays as it was when the session was opened. -/
def SameSession (opened s : GuiSession) : Prop := s = opened.atRevision s.revision

/-- A step changes nothing but the revision. -/
theorem serve_sameSession {opened s : GuiSession} (h : SameSession opened s) (e : MutationEvent) :
    SameSession opened (s.serve e).1 := by
  rcases serve_cases s e with ⟨-, ⟨-, revision, -, hserve⟩ | ⟨-, hserve⟩⟩ | ⟨-, error, hserve⟩
  · rw [hserve, SameSession, h]
    rfl
  · rwa [hserve]
  · rwa [hserve]

/-- Authorization does not read the revision, so the same events are offered throughout. -/
theorem offered_sameSession {opened s : GuiSession} (h : SameSession opened s)
    (e : MutationEvent) : s.offered e = opened.offered e := by
  rw [h]
  rfl

/-- One step of the server is one step of the version register. -/
theorem serve_simulates {opened s : GuiSession} (h : SameSession opened s) (e : MutationEvent) :
    Versioned.offer Revision.maxNumber s.revision.number (opened.offered e) =
      ((s.serve e).1.revision.number, registerReply (s.serve e).2) := by
  rw [← offered_sameSession h e]
  rcases serve_cases s e with
    ⟨hoffered, ⟨hlt, revision, hnumber, hserve⟩ | ⟨hmax, hserve⟩⟩ | ⟨hoffered, error, hserve⟩
  · simp [Versioned.offer, hoffered, hlt, hserve, registerReply, atRevision, openSession, hnumber]
  · simp [Versioned.offer, hoffered, hmax, hserve, registerReply]
  · simp [Versioned.offer, hoffered, hserve, registerReply]

/-- An accepted or raising event was offered by the session. -/
theorem serve_admits {opened s : GuiSession} (h : SameSession opened s) (e : MutationEvent)
    (hreply : ∀ error, (s.serve e).2 ≠ .rejected error) :
    ∃ request, opened.Admits e request := by
  rcases serve_cases s e with ⟨hoffered, -⟩ | ⟨-, error, hserve⟩
  · rw [offered_sameSession h] at hoffered
    obtain ⟨request, hadmits, -⟩ := offered_eq_some_iff.mp hoffered
    exact ⟨request, hadmits⟩
  · exact absurd (by rw [hserve]) (hreply error)

/-- The requests that a run accepted, in order. -/
def acceptedRequests (log : List (MutationEvent × ServerReply)) : List MutationRequestMetadata :=
  log.filterMap fun entry => if entry.2 = .accepted then entry.1.request else none

/-- The accepted requests of the server are those of the register it simulates. -/
theorem acceptedRequests_versions (opened : GuiSession)
    (log : List (MutationEvent × ServerReply))
    (hlog : ∀ entry ∈ log, entry.2 = .accepted → ∃ request, opened.Admits entry.1 request) :
    Versioned.withReply .accepted (log.map (Prod.map opened.offered registerReply)) =
      (acceptedRequests log).map fun request => some request.expectedVersion.number := by
  induction log with
  | nil => rfl
  | cons entry log ih =>
    obtain ⟨hentry, hrest⟩ := List.forall_mem_cons.mp hlog
    obtain ⟨e, reply⟩ := entry
    rw [List.map_cons, Prod.map, Versioned.withReply_cons, ih hrest]
    cases reply with
    | accepted =>
      obtain ⟨request, actor, now, rfl, hauth⟩ := hentry rfl
      simp [registerReply, acceptedRequests, offered, hauth]
    | rejected error => simp [registerReply, acceptedRequests]
    | raised exception => simp [registerReply, acceptedRequests]

/-- An exception is raised only for an offered request at the largest revision. -/
theorem serve_raised {opened s : GuiSession} (h : SameSession opened s) (e : MutationEvent)
    (exception : Throwable) (hreply : (s.serve e).2 = .raised exception) :
    exception = .arithmetic ∧ opened.offered e = some Revision.maxNumber := by
  rw [← offered_sameSession h e]
  rcases serve_cases s e with
    ⟨hoffered, ⟨-, revision, -, hserve⟩ | ⟨hmax, hserve⟩⟩ | ⟨-, error, hserve⟩
  · simp [hserve] at hreply
  · rw [hserve] at hreply
    exact ⟨(ServerReply.raised.inj hreply).symm, by rw [hoffered, hmax]⟩
  · simp [hserve] at hreply

/-- At the largest revision the session stays and nothing is accepted. -/
theorem serve_of_max {s : GuiSession} (h : s.revision.number = Revision.maxNumber)
    (e : MutationEvent) : (s.serve e).1 = s ∧ (s.serve e).2 ≠ .accepted := by
  rcases serve_cases s e with ⟨-, ⟨hlt, -⟩ | ⟨-, hserve⟩⟩ | ⟨-, error, hserve⟩
  · exact absurd h (Nat.ne_of_lt hlt)
  · simp [hserve]
  · simp [hserve]

/-- What the next event does after any run: a request for the current revision that the opened
session admits is accepted below the largest revision and raises at it, with the session kept, and
every other event is rejected. -/
structure Advances (opened s : GuiSession) (e : MutationEvent) : Prop where
  accepts : ∀ request, opened.Admits e request → request.expectedVersion = s.revision →
    s.revision.number < Revision.maxNumber → ∃ revision,
      revision.number = s.revision.number + 1 ∧ s.serve e = (s.atRevision revision, .accepted)
  raises : ∀ request, opened.Admits e request → request.expectedVersion = s.revision →
    s.revision.number = Revision.maxNumber → s.serve e = (s, .raised .arithmetic)
  rejects : (∀ request, opened.Admits e request → request.expectedVersion ≠ s.revision) →
    ∃ error, s.serve e = (s, .rejected error)

/-- A step advances as it should wherever the opened session is held. -/
theorem advances_of_sameSession {opened s : GuiSession} (h : SameSession opened s)
    (e : MutationEvent) : Advances opened s e := by
  have hoffered {request : MutationRequestMetadata} (hadmits : opened.Admits e request)
      (hcurrent : request.expectedVersion = s.revision) :
      s.offered e = some s.revision.number := by
    rw [offered_sameSession h, ← hcurrent]
    exact offered_eq_some_iff.mpr ⟨request, hadmits, rfl⟩
  rcases serve_cases s e with ⟨hcurrent, hserve⟩ | ⟨hother, error, hserve⟩
  · refine ⟨fun request _ _ hlt => ?_, fun request _ _ hmax => ?_, fun hnone => ?_⟩
    · rcases hserve with ⟨-, hserve⟩ | ⟨hmax, -⟩
      · exact hserve
      · exact absurd hmax (Nat.ne_of_lt hlt)
    · rcases hserve with ⟨hlt, -⟩ | ⟨-, hserve⟩
      · exact absurd hmax (Nat.ne_of_lt hlt)
      · exact hserve
    · rw [offered_sameSession h] at hcurrent
      obtain ⟨request, hadmits, hversion⟩ := offered_eq_some_iff.mp hcurrent
      exact absurd (Revision.number_inj.mp hversion) (hnone request hadmits)
  · exact ⟨fun request hadmits hcurrent _ => absurd (hoffered hadmits hcurrent) hother,
      fun request hadmits hcurrent _ => absurd (hoffered hadmits hcurrent) hother,
      fun _ => ⟨error, hserve⟩⟩

/-- Over any run, in any interleaving, the accepted requests expect consecutive revisions
from the one at which the session was opened; each was sent by the session's own actor for
this session and in time; the session ends at the revision after the last accepted one, with
nothing else changed; an exception is raised only by a request for the largest revision. The
next event after the run is accepted when it is an admitted request for the current revision,
but for the largest one, where it raises and the session stays. -/
theorem run_accepts_consecutive_revisions (opened : GuiSession) (events : List MutationEvent) :
    let result := Machine.run serve opened events
    let accepted := acceptedRequests result.1
    (accepted.map fun request => request.expectedVersion.number) =
        List.range' opened.revision.number accepted.length ∧
      result.2 = opened.atRevision result.2.revision ∧
      result.2.revision.number = opened.revision.number + accepted.length ∧
      (∀ entry ∈ result.1, entry.2 = .accepted → ∃ request actor now,
        entry.1 = ⟨some request, some actor, some now⟩ ∧ actor = opened.actor ∧
          request.sessionId = opened.sessionId ∧ now.isBefore opened.expiresAt = true) ∧
      (∀ entry ∈ result.1, ∀ exception, entry.2 = .raised exception →
        exception = .arithmetic ∧ ∃ request, opened.Admits entry.1 request ∧
          request.expectedVersion.number = Revision.maxNumber) ∧
      (result.2.revision.number = Revision.maxNumber → ∀ e,
        (result.2.serve e).1 = result.2 ∧ (result.2.serve e).2 ≠ .accepted) ∧
      ∀ e, Advances opened result.2 e := by
  intro result accepted
  have hopened : SameSession opened opened := rfl
  have hstep (s : GuiSession) (e : MutationEvent) (h : SameSession opened s) :=
    serve_sameSession h e
  let admitted (e : MutationEvent) (reply : ServerReply) : Prop :=
    (∀ error, reply ≠ .rejected error) → ∃ request, opened.Admits e request
  let atLimit (e : MutationEvent) (reply : ServerReply) : Prop := ∀ exception,
    reply = .raised exception → exception = .arithmetic ∧ opened.offered e = some Revision.maxNumber
  have hadmits : ∀ entry ∈ result.1, admitted entry.1 entry.2 :=
    Machine.run_log hstep (fun s e h => serve_admits h e) hopened events
  have hraised : ∀ entry ∈ result.1, atLimit entry.1 entry.2 :=
    Machine.run_log hstep (fun s e h => serve_raised h e) hopened events
  have hsimulates := Machine.run_simulation hstep (fun s e h => serve_simulates h e) hopened events
  have haccepted : ∀ entry ∈ result.1, entry.2 = .accepted →
      ∃ request, opened.Admits entry.1 request :=
    fun entry hentry hreply => hadmits entry hentry (by simp [hreply])
  obtain ⟨hversions, hfinal⟩ := Versioned.accepted_consecutive Revision.maxNumber
    opened.revision.number (events.map opened.offered)
  rw [hsimulates, acceptedRequests_versions opened result.1 haccepted, List.length_map]
    at hversions hfinal
  have hlast : SameSession opened result.2 := Machine.run_invariant hstep hopened events
  refine ⟨?_, hlast, hfinal, ?_, ?_, serve_of_max, advances_of_sameSession hlast⟩
  · apply List.map_injective_iff.mpr fun _ _ => Option.some.inj
    simpa only [List.map_map, Function.comp_def] using hversions
  · intro entry hentry hreply
    obtain ⟨request, actor, now, hevent, hactor, hsession, hnow⟩ := haccepted entry hentry hreply
    exact ⟨request, actor, now, hevent, hactor.symm, hsession.symm, hnow⟩
  · intro entry hentry exception hreply
    obtain ⟨harithmetic, hoffered⟩ := hraised entry hentry exception hreply
    exact ⟨harithmetic, offered_eq_some_iff.mp hoffered⟩

/-- A session at the revision before the largest one. -/
def lastSession : GuiSession :=
  openSession ⟨"s-1".toList, by decide⟩ ⟨"a-1".toList, by decide⟩
    ⟨"en".toList, by decide, by decide⟩ false ⟨0, 0, by decide, by decide⟩
    ⟨9223372036854775806, by decide⟩

/-- A request in time, which expects the revision that is given. -/
def lastEvent (revision : Revision) : MutationEvent :=
  ⟨some ⟨⟨"r-1".toList, by decide⟩, ⟨"o-1".toList, by decide⟩, lastSession.sessionId, revision⟩,
    some lastSession.actor, some ⟨-1, 0, by decide, by decide⟩⟩

/-- The session admits the request. -/
theorem admits_lastEvent (revision : Revision) :
    lastSession.Admits (lastEvent revision) ⟨⟨"r-1".toList, by decide⟩, ⟨"o-1".toList, by decide⟩,
      lastSession.sessionId, revision⟩ :=
  ⟨lastSession.actor, ⟨-1, 0, by decide, by decide⟩, rfl, rfl, rfl, by decide⟩

/-- The request for the current revision is accepted, and then the one for the largest revision
raises. -/
theorem run_accepts_consecutive_revisions_limit :
    let accepted := lastEvent ⟨9223372036854775806, by decide⟩
    let raising := lastEvent ⟨9223372036854775807, by decide⟩
    (Machine.run serve lastSession [accepted, raising]).1 =
      [(accepted, .accepted), (raising, .raised .arithmetic)] := by
  intro accepted raising
  have hfirst := (run_accepts_consecutive_revisions lastSession []).2.2.2.2.2.2 accepted
  obtain ⟨revision, hnumber, hserve⟩ := hfirst.accepts _ (admits_lastEvent _) rfl (by decide)
  have hsecond := (run_accepts_consecutive_revisions lastSession [accepted]).2.2.2.2.2.2 raising
  have hlast : (Machine.run serve lastSession [accepted]).2 = lastSession.atRevision revision :=
    congrArg Prod.fst hserve
  rw [hlast] at hsecond
  have hraised := hsecond.raises _ (admits_lastEvent _) (Revision.number_inj.mp hnumber.symm)
    hnumber
  change [(accepted, (lastSession.serve accepted).2),
    (raising, ((lastSession.serve accepted).1.serve raising).2)] = _
  have hstep : lastSession.serve accepted = (lastSession.atRevision revision, .accepted) := hserve
  rw [hstep, hraised]

end GuiSession

end RealityCore
