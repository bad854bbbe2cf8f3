import RealityCore.Library.FileSystem
import RealityCore.Source.ScanFile
import RealityCore.Workflow.AssertExact
import RealityCore.Workflow.Fuel

/-!
# Checking a workflow file

`_parse_workflow` reads the octets of a file under a limit, refuses control characters and a byte
order mark, and parses the text. The three checks of `verify_workflow` accept exactly the encodings
of the texts that pass them, and they fail by a `WorkflowError` only, but for a file that cannot be
read.
-/

namespace RealityCore.Workflow

open Outcome (bind_eq_ok_iff bind_eq_error_iff guard_eq_ok_iff)
open Python (Bytes Node Str decodeUtf8 encodeUtf8)
open Regex (Pattern search)

def MAX_WORKFLOW_BYTES : ℕ := 128 * 1024

/-- `[\x00-\x08\x0b\x0c\x0e-\x1f\x7f]` -/
def CONTROL_BYTE_RE : Pattern UInt8 :=
  .set fun b => b ≤ 8 || b == 0x0b || b == 0x0c || (0x0e ≤ b && b ≤ 0x1f) || b == 0x7f

/-- `unicodedata.category(character) in {"Cc", "Cf"} and character != "\n"` -/
def isControl (c : Char) : Bool :=
  SourceScan.controlRanges.any (fun (low, high) => low ≤ c.toNat && c.toNat ≤ high) &&
    !(c == '\n')

/-- What leaves the script: `WorkflowError` and `KeyError` of the checks, `AssertionError`,
`OSError`, and the exceptions that `main` does not catch. -/
inductive GateFailure where
  | failure (failure : Failure)
  | assertionError (message : Str)
  | osError
  | uncaught (name : String)
  deriving DecidableEq

/-- A check with its failure as one of the script. -/
def lifting {α : Type} (result : Result α) : Except GateFailure α := result.mapError .failure

/-- `_parse_workflow(path)` after the octets are read. -/
def parseOctets (data : Bytes) : Result (Value × Str) :=
  if (search CONTROL_BYTE_RE data).isSome ∨ [0xef, 0xbb, 0xbf] <+: data then
    reject "workflow must be UTF-8 without BOM or control bytes"
  else
    match decodeUtf8 data with
    | none => reject "workflow is not UTF-8"
    | some text =>
      if text.any isControl then reject "workflow contains a control character"
      else do
        let parser ← Parser.init text
        let value ← parser.parse
        .ok (value, text)

/-- `_parse_workflow(path)` -/
def parseWorkflow (node : Node) : Except GateFailure (Value × Str) :=
  let refused := lifting (reject "workflow is missing, symlinked, or exceeds the bounded size")
  match node.fileSize with
  | none => refused
  | some size =>
    if MAX_WORKFLOW_BYTES < size then refused
    else
      match node with
      | .file data => lifting (parseOctets data)
      | _ => .error .osError

/-- `_parse_workflow`, `_assert_exact` and `_verify_run_lines`, with the text of the file. -/
def checkWorkflow (isAlnum : Char → Bool) (node : Node) : Except GateFailure Str := do
  let (actual, text) ← parseWorkflow node
  lifting (assertExact expectedWorkflow actual "workflow".toList)
  lifting (verifyRunLines isAlnum actual)
  .ok text

/-- A text whose encoding passes the checks of a workflow file. -/
structure Passes (isAlnum : Char → Bool) (text : Str) : Prop where
  bounded : (encodeUtf8 text).length ≤ MAX_WORKFLOW_BYTES
  octets : ¬(search CONTROL_BYTE_RE (encodeUtf8 text)).isSome
  unmarked : ¬[0xef, 0xbb, 0xbf] <+: encodeUtf8 text
  characters : ¬text.any isControl
  verified : verifyText isAlnum text = .ok ()

/-! ## What is accepted -/

/-- A check that is lifted passes when it does. -/
theorem lifting_eq_ok_iff {α : Type} {result : Result α} {a : α} :
    lifting result = .ok a ↔ result = .ok a := by
  cases result <;> simp [lifting, Except.mapError]

/-- Octets are accepted when they are the encoding of a text that is parsed. -/
theorem parseOctets_eq_ok_iff {data : Bytes} {value : Value} {text : Str} :
    parseOctets data = .ok (value, text) ↔ data = encodeUtf8 text ∧
      ¬(search CONTROL_BYTE_RE data).isSome ∧ ¬[0xef, 0xbb, 0xbf] <+: data ∧
      ¬text.any isControl ∧ ∃ parser, Parser.init text = .ok parser ∧
        parser.parse = .ok value := by
  rw [parseOctets, reject, guard_eq_ok_iff, not_or]
  cases hdecode : decodeUtf8 data with
  | none =>
    refine iff_of_false (by simp [reject]) ?_
    rintro ⟨rfl, -⟩
    rw [Python.decodeUtf8_encodeUtf8] at hdecode
    cases hdecode
  | some decoded =>
    have hdata := Python.encodeUtf8_of_decodeUtf8 hdecode
    simp only [reject, guard_eq_ok_iff, bind_eq_ok_iff, Except.ok.injEq, Prod.mk.injEq]
    constructor
    · rintro ⟨⟨hoctets, hmark⟩, hcharacters, parser, hinit, _, hparse, rfl, rfl⟩
      exact ⟨hdata.symm, hoctets, hmark, hcharacters, parser, hinit, hparse⟩
    · rintro ⟨rfl, hoctets, hmark, hcharacters, parser, hinit, hparse⟩
      obtain rfl : text = decoded := by
        simpa using (Python.decodeUtf8_encodeUtf8 text).symm.trans hdecode
      exact ⟨⟨hoctets, hmark⟩, hcharacters, parser, hinit, _, hparse, rfl, rfl⟩

/-- A file that is parsed is there, short enough, and holds accepted octets. -/
theorem parseWorkflow_eq_ok_iff {node : Node} {result : Value × Str} :
    parseWorkflow node = .ok result ↔ ∃ data, node = .file data ∧
      data.length ≤ MAX_WORKFLOW_BYTES ∧ parseOctets data = .ok result := by
  cases node with
  | file data =>
    change (if MAX_WORKFLOW_BYTES < data.length then _ else _) = Except.ok result ↔ _
    rw [reject, lifting, Except.mapError, guard_eq_ok_iff, Nat.not_lt, lifting_eq_ok_iff]
    simp
  | unreadable size =>
    change (if MAX_WORKFLOW_BYTES < size then _ else _) = Except.ok result ↔ _
    rw [reject, lifting, Except.mapError, guard_eq_ok_iff]
    simp
  | _ => simp [parseWorkflow, Node.fileSize, lifting, reject, Except.mapError]

/-- The files that pass the checks hold the encodings of the texts that do. -/
theorem checkWorkflow_eq_ok_iff {isAlnum : Char → Bool} {node : Node} {text : Str} :
    checkWorkflow isAlnum node = .ok text ↔
      node = .file (encodeUtf8 text) ∧ Passes isAlnum text := by
  simp only [checkWorkflow, bind_eq_ok_iff, lifting_eq_ok_iff, parseWorkflow_eq_ok_iff,
    Except.ok.injEq]
  constructor
  · rintro ⟨⟨value, _⟩, ⟨data, rfl, hlength, hparse⟩, ⟨⟩, hexact, ⟨⟩, hlines, rfl⟩
    obtain ⟨rfl, hoctets, hmark, hcharacters, parser, hinit, hvalue⟩ :=
      parseOctets_eq_ok_iff.mp hparse
    refine ⟨rfl, hlength, hoctets, hmark, hcharacters, ?_⟩
    exact bind_eq_ok_iff.mpr ⟨parser, hinit, bind_eq_ok_iff.mpr ⟨value, hvalue,
      bind_eq_ok_iff.mpr ⟨(), hexact, hlines⟩⟩⟩
  · rintro ⟨rfl, hpasses⟩
    obtain ⟨parser, hinit, hrest⟩ := bind_eq_ok_iff.mp hpasses.verified
    obtain ⟨value, hvalue, hrest⟩ := bind_eq_ok_iff.mp hrest
    obtain ⟨⟨⟩, hexact, hlines⟩ := bind_eq_ok_iff.mp hrest
    refine ⟨(value, text), ⟨_, rfl, hpasses.bounded, ?_⟩, (), hexact, (), hlines, rfl⟩
    exact parseOctets_eq_ok_iff.mpr ⟨rfl, hpasses.octets, hpasses.unmarked, hpasses.characters,
      parser, hinit, hvalue⟩

/-! ## How the checks fail -/

/-- The comparison with the expected tree fails by a rejection only. -/
theorem onlyRejects_assertExact (expected actual : Value) (path : Str) :
    OnlyRejects (assertExact expected actual path) := by
  intro e he
  have hagree := agree_assertExact expected actual path
  rw [he] at hagree
  generalize hother : Any.assertExact expected.toJson actual.toJson _ = other at hagree
  cases hagree with
  | error hshown =>
    obtain ⟨message, hfailure, -⟩ := Any.assertExact_names hother
    cases hshown with
    | workflowError message => exact ⟨message, rfl⟩
    | keyError key => cases hfailure

/-- The check of the run lines fails by a rejection only. -/
theorem onlyRejects_verifyRunLines (isAlnum : Char → Bool) (workflow : Value) :
    OnlyRejects (verifyRunLines isAlnum workflow) := by
  intro e he
  obtain ⟨_, run, _, -, -, hrun⟩ := Outcome.forM_eq_error_iff.mp he
  exact OnlyRejects.ite (onlyRejects_reject _)
    (.ite (onlyRejects_reject _) (onlyRejects_ok ())) e hrun

/-- Parsing octets fails by a rejection only. -/
theorem onlyRejects_parseOctets (data : Bytes) : OnlyRejects (parseOctets data) := by
  refine .ite (onlyRejects_reject _) ?_
  cases decodeUtf8 data with
  | none => exact onlyRejects_reject _
  | some text =>
    exact .ite (onlyRejects_reject _) (.bind (onlyRejects_init text) fun parser =>
      .bind parser.onlyRejects_parse fun value => onlyRejects_ok _)

/-- A failure that is a `WorkflowError`. -/
def isWorkflowError : GateFailure → Bool
  | .failure (.workflowError _) => true
  | _ => false

/-- A lifted check that only rejects fails with a `WorkflowError`. -/
theorem isWorkflowError_of_lifting {α : Type} {result : Result α} {e : GateFailure}
    (h : OnlyRejects result) (he : lifting result = .error e) : isWorkflowError e = true := by
  cases result with
  | ok a => cases he
  | error failure =>
    obtain ⟨message, rfl⟩ := h failure rfl
    rw [← Except.error.inj he]
    rfl

/-- A file with octets passes or is refused with a `WorkflowError`. -/
theorem checkWorkflow_eq_error {isAlnum : Char → Bool} {data : Bytes} {e : GateFailure}
    (h : checkWorkflow isAlnum (.file data) = .error e) : isWorkflowError e = true := by
  rcases bind_eq_error_iff.mp h with hparse | ⟨⟨actual, text⟩, -, hrest⟩
  · change (if MAX_WORKFLOW_BYTES < data.length then _ else _) = Except.error e at hparse
    split at hparse
    · exact isWorkflowError_of_lifting (onlyRejects_reject _) hparse
    · exact isWorkflowError_of_lifting (onlyRejects_parseOctets data) hparse
  rcases bind_eq_error_iff.mp hrest with hexact | ⟨-, -, hrest⟩
  · exact isWorkflowError_of_lifting (onlyRejects_assertExact _ _ _) hexact
  rcases bind_eq_error_iff.mp hrest with hlines | ⟨-, -, hrest⟩
  · exact isWorkflowError_of_lifting (onlyRejects_verifyRunLines _ _) hlines
  · cases hrest

end RealityCore.Workflow
