import RealityCore.Library.Hashing
import RealityCore.Library.Outcome
import RealityCore.Library.PythonInt

/-!
# Downloading the JDK archive

`_download_and_verify` tries a download a bounded number of times. An attempt reads the body of a
response under a limit while hashing it; the hash object and the size are variables of the function
that outlive an attempt, and each response that gets as far as its body starts them anew.
-/

namespace RealityCore.Toolchain

open Outcome (guard_eq_ok_iff bind_eq_ok_iff)
open Python (Bytes Hasher Str Text intOfText? points)

def MAX_ARCHIVE_BYTES : ℕ := 512 * 1024 * 1024

def DOWNLOAD_ATTEMPTS : ℕ := 2

def EXPECTED_ARCHIVE_SHA256 : String :=
  "be7668bc030d578b83d6d5ef9221d6d6729bbbca8cf94a7d52e16ac68b5a5a35"

/-- What an attempt raises: `OSError` and `URLError`, or the error of the script itself. -/
inductive AttemptError where
  | transportError
  | verificationError (message : String)
  deriving DecidableEq

/-- The error of a download, with the one from which it is raised. -/
structure VerificationError where
  message : String
  cause : Option AttemptError
  deriving DecidableEq

/-- A response: its status, its `Content-Length`, what the reads of its body return, and whether
the read after these raises an error. -/
structure Response where
  status : ℕ
  contentLength : Option Str
  chunks : List Bytes
  cut : Bool

/-- An attempt to open the URL. -/
inductive Attempt where
  | connectionError
  | response (response : Response)

/-- The variables `digest` and `total`. -/
structure Locals (hasher : Hasher 64) where
  digest : hasher.State
  total : ℕ

/-- `digest = hashlib.sha256()` and `total = 0` -/
def Locals.start (hasher : Hasher 64) : Locals hasher := ⟨hasher.new, 0⟩

/-- The check of the declared size, for the values of the decimal characters. -/
def checkContentLength (decimal : Char → Option ℕ) (contentLength : Option Str) :
    Except AttemptError Unit :=
  match contentLength with
  | none => .ok ()
  | some text =>
    match intOfText? decimal text with
    | none => .error (.verificationError "JDK archive Content-Length is invalid")
    | some declaredSize =>
      if declaredSize ≤ 0 ∨ (MAX_ARCHIVE_BYTES : ℤ) < declaredSize then
        .error (.verificationError "JDK archive Content-Length is outside the limit")
      else .ok ()

/-- The checks of a response before its body is read. -/
def checkHeaders (decimal : Char → Option ℕ) (response : Response) : Except AttemptError Unit :=
  if response.status ≠ 200 then
    .error (.verificationError "JDK archive download did not return HTTP 200")
  else checkContentLength decimal response.contentLength

variable {hasher : Hasher 64}

/-- The loop over the body, with the variables that it leaves. -/
def readBody (cut : Bool) : List Bytes → Locals hasher → Locals hasher × Except AttemptError Unit
  | [], locals => (locals, if cut then .error .transportError else .ok ())
  | chunk :: chunks, locals =>
    if chunk = [] then (locals, .ok ())
    else
      let total := locals.total + chunk.length
      if MAX_ARCHIVE_BYTES < total then
        ({ locals with total },
          .error (.verificationError "JDK archive exceeded the bounded download limit"))
      else readBody cut chunks ⟨hasher.update locals.digest chunk, total⟩

/-- The check of the digest. -/
def checkDigest (locals : Locals hasher) : Except AttemptError Unit :=
  if locals.total = 0 ∨ hasher.hexdigest locals.digest ≠ points EXPECTED_ARCHIVE_SHA256 then
    .error (.verificationError "downloaded JDK archive SHA-256 is not exact")
  else .ok ()

/-- The body of the `try` statement, with the variables that it leaves. -/
def tryDownload (decimal : Char → Option ℕ) (attempt : Attempt) (locals : Locals hasher) :
    Locals hasher × Except AttemptError Unit :=
  match attempt with
  | .connectionError => (locals, .error .transportError)
  | .response response =>
    match checkHeaders decimal response with
    | .error error => (locals, .error error)
    | .ok () =>
      let (locals, outcome) := readBody response.cut response.chunks (.start hasher)
      (locals, outcome >>= fun _ => checkDigest locals)

/-- A download: the attempts made, with what each of them left, and the outcome. -/
structure Download (hasher : Hasher 64) where
  made : List (Locals hasher × Except AttemptError Unit)
  outcome : Except VerificationError Unit

/-- The loop over the attempts, with the last error. -/
def downloadLoop (decimal : Char → Option ℕ) :
    List Attempt → Locals hasher → Option AttemptError → Download hasher
  | [], _, lastError =>
    ⟨[], .error ⟨"unable to download and verify the exact JDK archive", lastError⟩⟩
  | attempt :: attempts, locals, _ =>
    let result := tryDownload decimal attempt locals
    match result.2 with
    | .ok () => ⟨[result], .ok ()⟩
    | .error error =>
      let later := downloadLoop decimal attempts result.1 (some error)
      { later with made := result :: later.made }

/-- `_download_and_verify()`, where the sequence of attempts is what opening the URL gives each
time. The variables have any values before. -/
def downloadAndVerify (decimal : Char → Option ℕ) (attempts : ℕ → Attempt)
    (locals : Locals hasher) : Download hasher :=
  downloadLoop decimal ((List.range DOWNLOAD_ATTEMPTS).map attempts) locals none

/-- The body that reads return before an empty chunk, or nothing when it is cut. -/
def body? (cut : Bool) : List Bytes → Option Bytes
  | [] => if cut then none else some []
  | chunk :: chunks => if chunk = [] then some [] else (body? cut chunks).map (chunk ++ ·)

/-- A response with exactly the archive. -/
structure Response.IsExact (decimal : Char → Option ℕ) (hasher : Hasher 64) (response : Response) :
    Prop where
  status : response.status = 200
  contentLength : ∀ text, response.contentLength = some text → ∃ size : ℤ,
    intOfText? decimal text = some size ∧ 1 ≤ size ∧ size ≤ MAX_ARCHIVE_BYTES
  body : ∃ body, body? response.cut response.chunks = some body ∧ body ≠ [] ∧
    body.length ≤ MAX_ARCHIVE_BYTES ∧ hasher.hash body = points EXPECTED_ARCHIVE_SHA256

/-- An attempt that gets exactly the archive. -/
def Attempt.IsExact (decimal : Char → Option ℕ) (hasher : Hasher 64) (attempt : Attempt) : Prop :=
  ∃ response, attempt = .response response ∧ response.IsExact decimal hasher

/-- The variables hold chunks of one response only. -/
structure Locals.IsPartOf (locals : Locals hasher) (response : Response) : Prop where
  total : ∃ received, received <+: response.chunks ∧ locals.total = received.flatten.length
  digest : ∃ hashed, hashed <+: response.chunks ∧
    locals.digest = hasher.update hasher.new hashed.flatten

/-- A declared size is accepted when it is a number in the range. -/
theorem checkContentLength_eq_ok_iff {decimal : Char → Option ℕ} {contentLength : Option Str} :
    checkContentLength decimal contentLength = .ok () ↔
      ∀ text, contentLength = some text → ∃ size : ℤ,
        intOfText? decimal text = some size ∧ 1 ≤ size ∧ size ≤ MAX_ARCHIVE_BYTES := by
  cases contentLength with
  | none => simp [checkContentLength]
  | some text =>
    cases hsize : intOfText? decimal text with
    | none => simp [checkContentLength, hsize]
    | some size =>
      have hrange : ¬(size ≤ 0 ∨ (MAX_ARCHIVE_BYTES : ℤ) < size) ↔
          1 ≤ size ∧ size ≤ MAX_ARCHIVE_BYTES := by omega
      simp [checkContentLength, hsize, hrange]

/-- A response is accepted before its body when its status and its declared size are. -/
theorem checkHeaders_eq_ok_iff {decimal : Char → Option ℕ} {response : Response} :
    checkHeaders decimal response = .ok () ↔ response.status = 200 ∧
      ∀ text, response.contentLength = some text → ∃ size : ℤ,
        intOfText? decimal text = some size ∧ 1 ≤ size ∧ size ≤ MAX_ARCHIVE_BYTES := by
  rw [checkHeaders, guard_eq_ok_iff, not_not, checkContentLength_eq_ok_iff]

/-- A body is read to its end when it is whole and within the limit, and all of it is hashed. -/
theorem readBody_eq_ok_iff {cut : Bool} {chunks : List Bytes} {locals final : Locals hasher}
    (htotal : locals.total ≤ MAX_ARCHIVE_BYTES) :
    readBody cut chunks locals = (final, .ok ()) ↔ ∃ body, body? cut chunks = some body ∧
      locals.total + body.length ≤ MAX_ARCHIVE_BYTES ∧
      final = ⟨hasher.update locals.digest body, locals.total + body.length⟩ := by
  induction chunks generalizing locals with
  | nil =>
    cases cut with
    | true => simp [readBody, body?]
    | false => simp [readBody, body?, hasher.update_nil, htotal, eq_comm]
  | cons chunk chunks ih =>
    by_cases hempty : chunk = []
    · simp [readBody, body?, hempty, hasher.update_nil, htotal, eq_comm]
    · rw [readBody, if_neg hempty, body?, if_neg hempty]
      simp only [Option.map_eq_some_iff]
      by_cases hlimit : MAX_ARCHIVE_BYTES < locals.total + chunk.length
      · rw [if_pos hlimit]
        constructor
        · intro h
          cases congrArg Prod.snd h
        · rintro ⟨_, ⟨body, -, rfl⟩, hlength, -⟩
          rw [List.length_append] at hlength
          omega
      · rw [if_neg hlimit, ih (Nat.not_lt.mp hlimit)]
        simp only [hasher.update_append, Nat.add_assoc]
        constructor
        · rintro ⟨body, hbody, hlength, rfl⟩
          exact ⟨chunk ++ body, ⟨body, hbody, rfl⟩, by rwa [List.length_append],
            by rw [List.length_append]⟩
        · rintro ⟨_, ⟨body, hbody, rfl⟩, hlength, rfl⟩
          rw [List.length_append] at hlength ⊢
          exact ⟨body, hbody, hlength, rfl⟩

/-- What a loop over a body leaves is made of the first chunks of the body. -/
theorem readBody_prefix (cut : Bool) (chunks : List Bytes) (locals : Locals hasher) :
    (∃ received, received <+: chunks ∧
        (readBody cut chunks locals).1.total = locals.total + received.flatten.length) ∧
      ∃ hashed, hashed <+: chunks ∧
        (readBody cut chunks locals).1.digest = hasher.update locals.digest hashed.flatten := by
  induction chunks generalizing locals with
  | nil => exact ⟨⟨[], List.nil_prefix, rfl⟩, [], List.nil_prefix, (hasher.update_nil _).symm⟩
  | cons chunk chunks ih =>
    rw [readBody]
    by_cases hempty : chunk = []
    · rw [if_pos hempty]
      exact ⟨⟨[], List.nil_prefix, rfl⟩, [], List.nil_prefix, (hasher.update_nil _).symm⟩
    rw [if_neg hempty]
    by_cases hlimit : MAX_ARCHIVE_BYTES < locals.total + chunk.length
    · rw [if_pos hlimit]
      refine ⟨⟨[chunk], ⟨chunks, rfl⟩, ?_⟩, [], List.nil_prefix, (hasher.update_nil _).symm⟩
      rw [List.flatten_singleton]
    · rw [if_neg hlimit]
      obtain ⟨⟨received, hreceived, htotal⟩, hashed, hhashed, hdigest⟩ :=
        ih ⟨hasher.update locals.digest chunk, locals.total + chunk.length⟩
      refine ⟨⟨chunk :: received, (List.prefix_cons_inj chunk).mpr hreceived, ?_⟩,
        chunk :: hashed, (List.prefix_cons_inj chunk).mpr hhashed, ?_⟩
      · rw [htotal, List.flatten_cons, List.length_append, Nat.add_assoc]
      · rw [hdigest, List.flatten_cons, hasher.update_append]

/-- The digest is accepted when it is the expected one, of some octets. -/
theorem checkDigest_eq_ok_iff {locals : Locals hasher} :
    checkDigest locals = .ok () ↔
      locals.total ≠ 0 ∧ hasher.hexdigest locals.digest = points EXPECTED_ARCHIVE_SHA256 := by
  rw [checkDigest, guard_eq_ok_iff, not_or, not_not, and_iff_left rfl]

/-- What is known of a response is known of its attempt. -/
theorem isExact_response_iff {decimal : Char → Option ℕ} {response : Response} :
    (Attempt.response response).IsExact decimal hasher ↔ response.IsExact decimal hasher := by
  constructor
  · rintro ⟨_, h, hexact⟩
    obtain rfl := Attempt.response.inj h
    exact hexact
  · exact fun hexact => ⟨response, rfl, hexact⟩

/-- A body is read and its digest accepted exactly when it is the archive. -/
theorem readBody_checkDigest_iff {cut : Bool} {chunks : List Bytes} :
    ((readBody cut chunks (.start hasher)).2 >>= fun _ =>
        checkDigest (readBody cut chunks (.start hasher)).1) = .ok () ↔
      ∃ body, body? cut chunks = some body ∧ body ≠ [] ∧ body.length ≤ MAX_ARCHIVE_BYTES ∧
        hasher.hash body = points EXPECTED_ARCHIVE_SHA256 := by
  have hread : ∀ final : Locals hasher, readBody cut chunks (.start hasher) = (final, .ok ()) ↔
      ∃ body, body? cut chunks = some body ∧ body.length ≤ MAX_ARCHIVE_BYTES ∧
        final = ⟨hasher.update hasher.new body, body.length⟩ := by
    intro final
    rw [readBody_eq_ok_iff (Nat.zero_le _)]
    simp only [Locals.start, Nat.zero_add]
  generalize readBody cut chunks (.start hasher) = result at hread
  obtain ⟨final, outcome⟩ := result
  rw [bind_eq_ok_iff]
  constructor
  · rintro ⟨⟨⟩, hok, hdigest⟩
    obtain ⟨body, hbody, hlength, hfinal⟩ := (hread final).mp (Prod.ext rfl hok)
    rw [hfinal, checkDigest_eq_ok_iff] at hdigest
    exact ⟨body, hbody, List.length_pos_iff.mp (Nat.pos_of_ne_zero hdigest.1), hlength, hdigest.2⟩
  · rintro ⟨body, hbody, hne, hlength, hhash⟩
    obtain ⟨rfl, rfl⟩ := Prod.mk.inj ((hread _).mpr ⟨body, hbody, hlength, rfl⟩)
    exact ⟨(), rfl, checkDigest_eq_ok_iff.mpr ⟨(List.length_pos_iff.mpr hne).ne', hhash⟩⟩

/-- Whatever the variables hold before, an attempt succeeds exactly when it gets the archive. -/
theorem tryDownload_eq_ok_iff {decimal : Char → Option ℕ} {attempt : Attempt}
    {locals : Locals hasher} :
    (tryDownload decimal attempt locals).2 = .ok () ↔ attempt.IsExact decimal hasher := by
  cases attempt with
  | connectionError =>
    constructor
    · intro h
      cases h
    · rintro ⟨response, h, -⟩
      cases h
  | response response =>
    rw [isExact_response_iff, tryDownload]
    cases hheaders : checkHeaders decimal response with
    | error error =>
      constructor
      · intro h
        cases h
      · intro hexact
        rw [checkHeaders_eq_ok_iff.mpr ⟨hexact.status, hexact.contentLength⟩] at hheaders
        cases hheaders
    | ok =>
      obtain ⟨hstatus, hlength⟩ := checkHeaders_eq_ok_iff.mp hheaders
      refine Iff.trans readBody_checkDigest_iff ⟨fun hbody => ⟨hstatus, hlength, hbody⟩, ?_⟩
      exact fun hexact => hexact.body

/-- An attempt that gets as far as a body leaves chunks of this body only. -/
theorem tryDownload_isPartOf {decimal : Char → Option ℕ} {response : Response}
    (h : checkHeaders decimal response = .ok ()) (locals : Locals hasher) :
    (tryDownload decimal (.response response) locals).1.IsPartOf response := by
  obtain ⟨⟨received, hreceived, htotal⟩, hdigest⟩ :=
    readBody_prefix response.cut response.chunks (.start hasher)
  rw [tryDownload, h]
  exact ⟨⟨received, hreceived, htotal.trans (Nat.zero_add _)⟩, hdigest⟩

/-- A loop makes the attempts in order, each with what the one before left. -/
theorem downloadLoop_made (decimal : Char → Option ℕ) (attempts : List Attempt)
    (locals : Locals hasher) (lastError : Option AttemptError) :
    (downloadLoop decimal attempts locals lastError).made.length ≤ attempts.length ∧
      ∀ (i : ℕ) result, (downloadLoop decimal attempts locals lastError).made[i]? = some result →
        ∃ (attempt : Attempt) (before : Locals hasher), attempts[i]? = some attempt ∧
          result = tryDownload decimal attempt before := by
  induction attempts generalizing locals lastError with
  | nil => simp [downloadLoop]
  | cons attempt attempts ih =>
    rw [downloadLoop]
    cases hresult : (tryDownload decimal attempt locals).2 with
    | ok =>
      refine ⟨by simp, fun i result hi => ?_⟩
      cases i with
      | zero => exact ⟨attempt, locals, rfl, (Option.some.inj hi).symm⟩
      | succ i => cases hi
    | error error =>
      obtain ⟨hlength, hmade⟩ := ih (tryDownload decimal attempt locals).1 (some error)
      refine ⟨Nat.succ_le_succ hlength, fun i result hi => ?_⟩
      cases i with
      | zero => exact ⟨attempt, locals, rfl, (Option.some.inj hi).symm⟩
      | succ i => exact hmade i result hi

/-- A loop returns exactly when one of the attempts that it makes succeeds. -/
theorem downloadLoop_outcome {decimal : Char → Option ℕ} {attempts : List Attempt}
    {locals : Locals hasher} {lastError : Option AttemptError} :
    (downloadLoop decimal attempts locals lastError).outcome = .ok () ↔
      ∃ result ∈ (downloadLoop decimal attempts locals lastError).made, result.2 = .ok () := by
  induction attempts generalizing locals lastError with
  | nil => simp [downloadLoop]
  | cons attempt attempts ih =>
    rw [downloadLoop]
    cases hresult : (tryDownload decimal attempt locals).2 with
    | ok => simp [hresult]
    | error error =>
      simp only [List.mem_cons, exists_eq_or_imp, hresult, reduceCtorEq, false_or]
      exact ih

/-- A loop returns when one of its attempts gets the archive. -/
theorem downloadLoop_of_exact {decimal : Char → Option ℕ} {attempts : List Attempt}
    {locals : Locals hasher} {lastError : Option AttemptError}
    (h : ∃ attempt ∈ attempts, attempt.IsExact decimal hasher) :
    (downloadLoop decimal attempts locals lastError).outcome = .ok () := by
  induction attempts generalizing locals lastError with
  | nil => simp at h
  | cons attempt attempts ih =>
    rw [downloadLoop]
    cases hresult : (tryDownload decimal attempt locals).2 with
    | ok => rfl
    | error error =>
      have hfirst : ¬attempt.IsExact decimal hasher := by
        intro hexact
        have hok : (tryDownload decimal attempt locals).2 = .ok () :=
          tryDownload_eq_ok_iff.mpr hexact
        rw [hresult] at hok
        cases hok
      obtain ⟨exact, hmem, hexact⟩ := h
      rcases List.mem_cons.mp hmem with rfl | hlater
      · exact absurd hexact hfirst
      · exact ih ⟨exact, hlater, hexact⟩

/-- At most so many attempts are made, and a download returns exactly when one of them gets the
archive, which one of the attempts allowed then does. What an attempt comes to depends on its own
response only, and so do the digest and the size that it leaves. -/
theorem downloadAndVerify_exact (decimal : Char → Option ℕ) (attempts : ℕ → Attempt)
    (locals : Locals hasher) :
    (downloadAndVerify decimal attempts locals).made.length ≤ DOWNLOAD_ATTEMPTS ∧
      ((downloadAndVerify decimal attempts locals).outcome = .ok () ↔
        ∃ i < (downloadAndVerify decimal attempts locals).made.length,
          (attempts i).IsExact decimal hasher) ∧
      ((downloadAndVerify decimal attempts locals).outcome = .ok () ↔
        ∃ i < DOWNLOAD_ATTEMPTS, (attempts i).IsExact decimal hasher) ∧
      ∀ (i : ℕ) result, (downloadAndVerify decimal attempts locals).made[i]? = some result →
        (result.2 = .ok () ↔ (attempts i).IsExact decimal hasher) ∧
          ∀ response, attempts i = .response response → checkHeaders decimal response = .ok () →
            result.1.IsPartOf response := by
  rw [downloadAndVerify]
  set attemptList := (List.range DOWNLOAD_ATTEMPTS).map attempts with hlist
  obtain ⟨hlength, hmade⟩ := downloadLoop_made decimal attemptList locals none
  rw [hlist, List.length_map, List.length_range] at hlength
  have hresult : ∀ (i : ℕ) result, (downloadLoop decimal attemptList locals none).made[i]? =
      some result → ∃ before, result = tryDownload decimal (attempts i) before := by
    intro i result hi
    obtain ⟨attempt, before, hattempt, hbefore⟩ := hmade i result hi
    rw [hlist, List.getElem?_map, Option.map_eq_some_iff] at hattempt
    obtain ⟨index, hindex, rfl⟩ := hattempt
    obtain ⟨_, rfl⟩ := List.getElem?_eq_some_iff.mp hindex
    rw [List.getElem_range] at hbefore
    exact ⟨before, hbefore⟩
  have hmadeExact : (downloadLoop decimal attemptList locals none).outcome = .ok () ↔
      ∃ i < (downloadLoop decimal attemptList locals none).made.length,
        (attempts i).IsExact decimal hasher := by
    rw [downloadLoop_outcome]
    constructor
    · rintro ⟨result, hmem, hok⟩
      obtain ⟨i, hi, rfl⟩ := List.getElem_of_mem hmem
      obtain ⟨before, hbefore⟩ := hresult i _ (List.getElem?_eq_getElem hi)
      exact ⟨i, hi, tryDownload_eq_ok_iff.mp (hbefore ▸ hok)⟩
    · rintro ⟨i, hi, hexact⟩
      obtain ⟨before, hbefore⟩ := hresult i _ (List.getElem?_eq_getElem hi)
      exact ⟨_, List.getElem_mem hi, hbefore ▸ tryDownload_eq_ok_iff.mpr hexact⟩
  refine ⟨hlength, hmadeExact, ?_, ?_⟩
  · constructor
    · intro hok
      obtain ⟨i, hi, hexact⟩ := hmadeExact.mp hok
      exact ⟨i, hi.trans_le hlength, hexact⟩
    · rintro ⟨i, hi, hexact⟩
      exact downloadLoop_of_exact
        ⟨attempts i, List.mem_map_of_mem (List.mem_range.mpr hi), hexact⟩
  · intro i result hi
    obtain ⟨before, rfl⟩ := hresult i result hi
    refine ⟨tryDownload_eq_ok_iff, fun response hresponse hheaders => ?_⟩
    rw [hresponse]
    exact tryDownload_isPartOf hheaders before

end RealityCore.Toolchain
