import RealityCore.Library.Machine

/-!
# A register under optimistic concurrency

The register is a version below a limit. A request names the version it was prepared for;
it is accepted exactly when that is the current version, and then the version advances by
one. At the limit nothing can advance any more. Over a whole run the accepted requests name
consecutive versions, so no version is accepted twice and none is skipped.
-/

namespace Versioned

/-- What the register answers to one request. -/
inductive Reply where
  | accepted
  | exhausted
  | refused
  deriving DecidableEq

/-- Offer one request to the register; `none` is a request that names no version. -/
def offer (limit version : ℕ) (request : Option ℕ) : ℕ × Reply :=
  if request = some version then
    if version < limit then (version + 1, .accepted) else (version, .exhausted)
  else (version, .refused)

/-- The requests of a log that got the given reply. -/
def withReply {R : Type*} (reply : Reply) (log : List (R × Reply)) : List R :=
  (log.filter fun entry => entry.2 = reply).map Prod.fst

@[simp] theorem withReply_cons {R : Type*} (reply reply' : Reply) (request : R)
    (log : List (R × Reply)) :
    withReply reply ((request, reply') :: log) =
      if reply' = reply then request :: withReply reply log else withReply reply log := by
  by_cases h : reply' = reply <;> simp [withReply, h]

/-- The accepted requests of a run name consecutive versions, and the version has advanced
once for each of them. -/
theorem accepted_consecutive (limit version : ℕ) (requests : List (Option ℕ)) :
    let result := Machine.run (offer limit) version requests
    withReply .accepted result.1 =
        (List.range' version (withReply .accepted result.1).length).map some ∧
      result.2 = version + (withReply .accepted result.1).length := by
  induction requests generalizing version with
  | nil => exact ⟨rfl, rfl⟩
  | cons request requests ih =>
    obtain ⟨hnext, hnext'⟩ := ih (version + 1)
    simp only [Machine.run, offer]
    split
    case isFalse h => simpa using ih version
    case isTrue h =>
      split
      case isFalse hlimit => simpa using ih version
      case isTrue hlimit =>
        simp only [withReply_cons, if_true, List.length_cons, List.range'_succ, List.map_cons, h]
        exact ⟨congrArg _ hnext, by omega⟩

end Versioned
