import RealityCore.Library.FileSystem
import RealityCore.Library.Replacement
import RealityCore.Metadata.ReviewedGraph

/-!
# Verifying the metadata file

`verify_file` reads the octets of the file under a limit, parses them and verifies the tree. The
script accepts a file only when it refuses each of four changed texts, so an accepted text holds the
four fragments that are changed. An error of the XML parser that is no `ParseError` is caught
nowhere, for the file as for a changed text.
-/

namespace RealityCore.DependencyMetadata

open Outcome (bind_eq_ok_iff bind_eq_error_iff guard_eq_ok_iff map_eq_ok_iff)
open Python (Bytes Node Replacement Str decodeUtf8 encodeUtf8 encodeUtf8_injective expectRefusal)
open Xml (Element ParserFailure)

def MAX_BYTES : ℕ := 256 * 1024

/-- The exceptions of the script. -/
inductive Failure where
  | metadataError (message : String)
  | assertionError (message : String)
  | osError
  | unicodeDecodeError
  | otherError
  deriving DecidableEq

/-- `raise MetadataError(message)` -/
def reject {α : Type} (message : String) : Except Failure α := .error (.metadataError message)

/-- `_read(path)` -/
def read (node : Node) : Except Failure Bytes :=
  let refused := reject "verification metadata is missing, symlinked, or oversized"
  match node.fileSize with
  | none => refused
  | some size =>
    if MAX_BYTES < size then refused
    else
      match node with
      | .file data =>
        if 0 ∈ data ∨ data.getLast? ≠ some 0x0a then
          reject "verification metadata is not bounded UTF-8 text"
        else
          match decodeUtf8 data with
          | none => reject "verification metadata is not UTF-8"
          | some _ => .ok data
      | _ => .error .osError

variable (fromString : Bytes → Except ParserFailure Element)

/-- `verify_file(path)`, where a `ParseError` and an `OSError` are refused alike. -/
def verifyFile (node : Node) : Except Failure (ℕ × ℕ) :=
  match read node with
  | .error .osError => reject "verification metadata is not valid XML"
  | .error failure => .error failure
  | .ok data =>
    match fromString data with
    | .error .parseError => reject "verification metadata is not valid XML"
    | .error .otherError => .error .otherError
    | .ok root => (verifyTree root).mapError .metadataError

/-- A named change of the text. -/
structure Mutation where
  name : String
  old : String
  new : String

/-- `original.replace(old, new, 1)` -/
def Mutation.replacement (mutation : Mutation) : Replacement Char :=
  ⟨mutation.old.toList, mutation.new.toList⟩

/-- The mutations of `_negative_self_test`. -/
def mutations : List Mutation := [
  ⟨"checksum-deletion", "         </artifact>\n", ""⟩,
  ⟨"checksum-tamper", "b509448ac506d607319f182537f0b35d71007582ec741832a1f111e5b5b70b38",
    "0000000000000000000000000000000000000000000000000000000000000000"⟩,
  ⟨"different-version", "version=\"5.11.4\"", "version=\"5.11.5\""⟩,
  ⟨"unapproved-artifact", "</components>",
    ("      <component group=\"example\" name=\"unexpected\" version=\"1.0.0\"/>\n" ++
      "   </components>")⟩]

/-- The verification of a text that is written to a file. -/
def verifyText (text : Str) : Except Failure Unit :=
  (verifyFile fromString (.file (encodeUtf8 text))).map fun _ => ()

/-- `except MetadataError` -/
def isMetadataError : Failure → Bool
  | .metadataError _ => true
  | _ => false

/-- `_negative_self_test(path)` -/
def negativeSelfTest (node : Node) : Except Failure ℕ := do
  let data ← read node
  match decodeUtf8 data with
  | none => .error .unicodeDecodeError
  | some original => do
    mutations.forM fun mutation =>
      expectRefusal isMetadataError
        (.assertionError ("dependency metadata mutation was accepted: " ++ mutation.name))
        (verifyText fromString (mutation.replacement.apply original))
    .ok mutations.length

/-- `except (OSError, MetadataError, AssertionError)` -/
def isCaught : Failure → Bool
  | .metadataError _ | .assertionError _ | .osError => true
  | .unicodeDecodeError | .otherError => false

/-- `main(argv)` -/
def main (node : Node) : Except Failure ℕ :=
  match (do
    let counts ← verifyFile fromString node
    let negative ← negativeSelfTest fromString node
    .ok (counts, negative) : Except Failure ((ℕ × ℕ) × ℕ)) with
  | .ok _ => .ok 0
  | .error failure => if isCaught failure then .ok 1 else .error failure

/-! ## What is accepted -/

/-- A text whose encoding is read from its file. -/
structure Bounded (text : Str) : Prop where
  short : (encodeUtf8 text).length ≤ MAX_BYTES
  noNul : 0 ∉ encodeUtf8 text
  terminated : (encodeUtf8 text).getLast? = some 0x0a

/-- A text whose encoding is an accepted file. -/
structure Passes (text : Str) : Prop extends Bounded text where
  accepted : ∃ root, fromString (encodeUtf8 text) = .ok root ∧ Accepted root

/-- A text for whose encoding the parser raises what the script does not catch. -/
structure Raises (text : Str) : Prop extends Bounded text where
  raises : fromString (encodeUtf8 text) = .error .otherError

/-- A text that is not refused. -/
def Unrefused (text : Str) : Prop := Passes fromString text ∨ Raises fromString text

/-- A file is read when it is the encoding of a short text that ends in a newline. -/
theorem read_eq_ok_iff {node : Node} {data : Bytes} :
    read node = .ok data ↔
      ∃ text, node = .file (encodeUtf8 text) ∧ Bounded text ∧ data = encodeUtf8 text := by
  cases node with
  | file content =>
    change (if MAX_BYTES < content.length then _ else _) = Except.ok data ↔ _
    rw [reject, guard_eq_ok_iff, Nat.not_lt, reject, guard_eq_ok_iff, not_or, not_not]
    cases hcontent : decodeUtf8 content with
    | none =>
      refine iff_of_false (by simp [reject]) ?_
      rintro ⟨text, hnode, -⟩
      rw [Node.file.inj hnode, Python.decodeUtf8_encodeUtf8] at hcontent
      cases hcontent
    | some text =>
      obtain rfl := Python.encodeUtf8_of_decodeUtf8 hcontent
      constructor
      · rintro ⟨hshort, ⟨hnul, hend⟩, hdata⟩
        exact ⟨text, rfl, ⟨hshort, hnul, hend⟩, (Except.ok.inj hdata).symm⟩
      · rintro ⟨found, hnode, ⟨hshort, hnul, hend⟩, rfl⟩
        rw [← Node.file.inj hnode] at hshort hnul hend ⊢
        exact ⟨hshort, ⟨hnul, hend⟩, rfl⟩
  | unreadable size =>
    change (if MAX_BYTES < size then _ else _) = Except.ok data ↔ _
    rw [reject, guard_eq_ok_iff]
    simp
  | _ => simp [read, Node.fileSize, reject]

/-- A file that is not read is refused, by the script or by the system. -/
theorem read_eq_error {node : Node} {failure : Failure} (h : read node = .error failure) :
    failure = .osError ∨ ∃ message, failure = .metadataError message := by
  have hrefused (message : String) (hmessage : reject (α := Bytes) message = .error failure) :
      failure = .osError ∨ ∃ message, failure = .metadataError message :=
    .inr ⟨message, (Except.error.inj hmessage).symm⟩
  cases node with
  | file data =>
    change (if MAX_BYTES < data.length then _ else _) = Except.error failure at h
    split at h
    · exact hrefused _ h
    split at h
    · exact hrefused _ h
    cases hdecode : decodeUtf8 data with
    | none => exact hrefused _ (hdecode ▸ h)
    | some text => simp [hdecode] at h
  | unreadable size =>
    change (if MAX_BYTES < size then _ else _) = Except.error failure at h
    split at h
    · exact hrefused _ h
    · exact .inl (Except.error.inj h).symm
  | _ => exact hrefused _ h

/-- The verification of a file that is read ends as the parser and the tree say. -/
theorem verifyFile_of_read {node : Node} {data : Bytes} (h : read node = .ok data) :
    verifyFile fromString node = match fromString data with
      | .error .parseError => reject "verification metadata is not valid XML"
      | .error .otherError => .error .otherError
      | .ok root => (verifyTree root).mapError .metadataError := by
  rw [verifyFile, h]

/-- The files that are accepted are the encodings of the texts that pass. -/
theorem verifyFile_eq_ok_iff {node : Node} {counts : ℕ × ℕ} :
    verifyFile fromString node = .ok counts ↔
      ∃ text, node = .file (encodeUtf8 text) ∧ Passes fromString text ∧ counts = (10, 20) := by
  cases hread : read node with
  | error failure =>
    have hno : ∀ text, node = .file (encodeUtf8 text) → ¬Bounded text := fun text hnode hbounded =>
      nomatch hread.symm.trans (read_eq_ok_iff.mpr ⟨text, hnode, hbounded, rfl⟩)
    refine iff_of_false ?_ fun ⟨text, hnode, hpasses, _⟩ => hno text hnode hpasses.toBounded
    rw [verifyFile, hread]
    rcases read_eq_error hread with rfl | ⟨message, rfl⟩ <;> simp [reject]
  | ok data =>
    obtain ⟨text, rfl, hbounded, rfl⟩ := read_eq_ok_iff.mp hread
    have htree : verifyFile fromString (.file (encodeUtf8 text)) = .ok counts ↔
        ∃ root, fromString (encodeUtf8 text) = .ok root ∧ verifyTree root = .ok counts := by
      rw [verifyFile_of_read fromString hread]
      rcases fromString (encodeUtf8 text) with (_ | _) | root
      · simp [reject]
      · simp
      · cases htree : verifyTree root <;> simp [htree, Except.mapError]
    simp only [htree, verifyTree_eq_ok_iff]
    constructor
    · rintro ⟨root, hroot, haccepted, hcounts⟩
      exact ⟨text, rfl, ⟨hbounded, root, hroot, haccepted⟩, hcounts⟩
    · rintro ⟨found, hnode, ⟨-, root, hroot, haccepted⟩, hcounts⟩
      exact ⟨root, Node.file.inj hnode ▸ hroot, haccepted, hcounts⟩

/-- The verification raises what is not caught exactly where the parser does. -/
theorem verifyFile_eq_otherError_iff {node : Node} :
    verifyFile fromString node = .error .otherError ↔
      ∃ text, node = .file (encodeUtf8 text) ∧ Raises fromString text := by
  constructor
  · intro h
    cases hread : read node with
    | error failure =>
      rw [verifyFile, hread] at h
      rcases read_eq_error hread with rfl | ⟨message, rfl⟩ <;> cases h
    | ok data =>
      obtain ⟨text, rfl, hbounded, rfl⟩ := read_eq_ok_iff.mp hread
      refine ⟨text, rfl, hbounded, ?_⟩
      rw [verifyFile_of_read fromString hread] at h
      rcases hroot : fromString (encodeUtf8 text) with (_ | _) | root
      · simp [hroot, reject] at h
      · rfl
      · cases htree : verifyTree root <;> simp [hroot, htree, Except.mapError] at h
  · rintro ⟨text, rfl, hraises⟩
    rw [verifyFile_of_read fromString (read_eq_ok_iff.mpr ⟨text, rfl, hraises.toBounded, rfl⟩),
      hraises.raises]

/-- The verification fails by a `MetadataError`, or as the parser does. -/
theorem verifyFile_eq_error {node : Node} {failure : Failure}
    (h : verifyFile fromString node = .error failure) :
    (∃ message, failure = .metadataError message) ∨ failure = .otherError := by
  cases hread : read node with
  | error raised =>
    rw [verifyFile, hread] at h
    rcases read_eq_error hread with rfl | ⟨message, rfl⟩ <;>
      exact .inl ⟨_, (Except.error.inj h).symm⟩
  | ok data =>
    rw [verifyFile_of_read fromString hread] at h
    rcases hroot : fromString data with (_ | _) | root
    · rw [hroot] at h
      exact .inl ⟨_, (Except.error.inj h).symm⟩
    · rw [hroot] at h
      exact .inr (Except.error.inj h).symm
    · rw [hroot] at h
      cases htree : verifyTree root with
      | ok counts => simp [htree, Except.mapError] at h
      | error message =>
        simp only [htree, Except.mapError] at h
        exact .inl ⟨message, (Except.error.inj h).symm⟩

/-- A text ends the verification in the way of its file. -/
theorem verifyText_eq_error_iff {text : Str} {failure : Failure} :
    verifyText fromString text = .error failure ↔
      verifyFile fromString (.file (encodeUtf8 text)) = .error failure := by
  rw [verifyText]
  cases verifyFile fromString (.file (encodeUtf8 text)) <;> simp [Except.map]

/-- The texts that are accepted are those that pass. -/
theorem verifyText_eq_ok_iff (text : Str) :
    verifyText fromString text = .ok () ↔ Passes fromString text := by
  rw [verifyText, map_eq_ok_iff]
  constructor
  · rintro ⟨counts, hcounts, -⟩
    obtain ⟨found, hdata, hpasses, -⟩ := (verifyFile_eq_ok_iff fromString).mp hcounts
    exact encodeUtf8_injective (Node.file.inj hdata) ▸ hpasses
  · intro hpasses
    exact ⟨_, (verifyFile_eq_ok_iff fromString).mpr ⟨text, rfl, hpasses, rfl⟩, rfl⟩

/-- The texts for which the parser's error escapes. -/
theorem verifyText_eq_otherError_iff (text : Str) :
    verifyText fromString text = .error .otherError ↔ Raises fromString text := by
  rw [verifyText_eq_error_iff, verifyFile_eq_otherError_iff]
  constructor
  · rintro ⟨found, hdata, hraises⟩
    exact encodeUtf8_injective (Node.file.inj hdata) ▸ hraises
  · intro hraises
    exact ⟨text, rfl, hraises⟩

/-- A text is refused with a `MetadataError` exactly when it neither passes nor lets the parser
raise. -/
theorem verifyText_refuses_iff (text : Str) :
    (∃ error, verifyText fromString text = .error error ∧ isMetadataError error = true) ↔
      ¬Unrefused fromString text := by
  rw [Unrefused, ← verifyText_eq_ok_iff, ← verifyText_eq_otherError_iff]
  cases htext : verifyText fromString text with
  | ok => simp
  | error failure =>
    rcases verifyFile_eq_error fromString ((verifyText_eq_error_iff fromString).mp htext) with
      ⟨message, rfl⟩ | rfl
    · simp [isMetadataError]
    · simp [isMetadataError]

section SelfTest

variable {fromString} {text : Str}

/-- The self test of a text that passes is the loop over the mutations. -/
theorem negativeSelfTest_of_passes (h : Passes fromString text) :
    negativeSelfTest fromString (.file (encodeUtf8 text)) =
      mutations.forM (fun mutation =>
        expectRefusal isMetadataError
          (.assertionError ("dependency metadata mutation was accepted: " ++ mutation.name))
          (verifyText fromString (mutation.replacement.apply text))) >>= fun _ =>
        .ok mutations.length := by
  rw [negativeSelfTest, read_eq_ok_iff.mpr ⟨text, rfl, h.toBounded, rfl⟩]
  change (match decodeUtf8 (encodeUtf8 text) with | none => _ | some original => _) = _
  rw [Python.decodeUtf8_encodeUtf8]

/-- The self test passes when each mutation breaks the text. -/
theorem negativeSelfTest_eq_ok_iff (h : Passes fromString text) :
    (∃ count, negativeSelfTest fromString (.file (encodeUtf8 text)) = .ok count) ↔
      ∀ mutation ∈ mutations, mutation.replacement.Breaks (Unrefused fromString) text := by
  rw [← Python.forM_expectRefusal_iff (verifyText_refuses_iff fromString) (.inl h),
    negativeSelfTest_of_passes h]
  constructor
  · rintro ⟨count, hcount⟩
    obtain ⟨⟨⟩, hloop, -⟩ := bind_eq_ok_iff.mp hcount
    exact hloop
  · intro hloop
    exact ⟨_, bind_eq_ok_iff.mpr ⟨(), hloop, rfl⟩⟩

/-- The self test raises what is not caught when the parser does for the first mutation that does
not break the text. -/
theorem negativeSelfTest_eq_otherError_iff (h : Passes fromString text) :
    negativeSelfTest fromString (.file (encodeUtf8 text)) = .error .otherError ↔
      ∃ front mutation rest, mutations = front ++ mutation :: rest ∧
        (∀ earlier ∈ front, earlier.replacement.Breaks (Unrefused fromString) text) ∧
        Raises fromString (mutation.replacement.apply text) := by
  simp only [negativeSelfTest_of_passes h, bind_eq_error_iff, reduceCtorEq, and_false, exists_false,
    or_false]
  refine (Python.forM_expectRefusal_eq_error_iff (verifyText_refuses_iff fromString)
    (.inl h)).trans (exists₃_congr fun front mutation rest => ?_)
  refine and_congr_right fun _ => and_congr_right fun _ => ?_
  rw [← verifyText_eq_otherError_iff]
  simp [isMetadataError]

/-- The self test fails by an error that is caught, or as the parser does. -/
theorem negativeSelfTest_eq_error (h : Passes fromString text) {failure : Failure}
    (hfailure : negativeSelfTest fromString (.file (encodeUtf8 text)) = .error failure) :
    isCaught failure = true ∨ failure = .otherError := by
  rw [negativeSelfTest_of_passes h] at hfailure
  rcases bind_eq_error_iff.mp hfailure with hloop | ⟨-, -, hcount⟩
  · obtain ⟨-, mutation, -, -, -, ⟨-, rfl⟩ | ⟨hraised, -⟩⟩ :=
      (Python.forM_expectRefusal_eq_error_iff (verifyText_refuses_iff fromString) (.inl h)).mp hloop
    · exact .inl rfl
    · rcases verifyFile_eq_error fromString ((verifyText_eq_error_iff fromString).mp hraised) with
        ⟨message, rfl⟩ | rfl
      · exact .inl rfl
      · exact .inr rfl
  · cases hcount

end SelfTest

/-- What is said of the text of a file is said of the only one. -/
theorem exists_file_eq_iff {text : Str} {P : Str → Prop} :
    (∃ found, Node.file (encodeUtf8 text) = .file (encodeUtf8 found) ∧ P found) ↔ P text := by
  constructor
  · rintro ⟨found, hnode, hfound⟩
    exact encodeUtf8_injective (Node.file.inj hnode) ▸ hfound
  · intro h
    exact ⟨text, rfl, h⟩

/-- The parser does not raise for a text that passes. -/
theorem Passes.not_raises {text : Str} (h : Passes fromString text) : ¬Raises fromString text := by
  obtain ⟨root, hroot, -⟩ := h.accepted
  intro hraises
  cases hroot.symm.trans hraises.raises

/-- The status of a file that is refused. -/
theorem main_of_verifyFile_error {node : Node} {failure : Failure}
    (h : verifyFile fromString node = .error failure) :
    main fromString node = if isCaught failure then .ok 1 else .error failure := by
  rw [main, h]
  rfl

/-- The status of a file that is accepted is that of its self test. -/
theorem main_of_passes {text : Str} (h : Passes fromString text) :
    main fromString (.file (encodeUtf8 text)) =
      match negativeSelfTest fromString (.file (encodeUtf8 text)) with
      | .ok _ => .ok 0
      | .error failure => if isCaught failure then .ok 1 else .error failure := by
  rw [main, (verifyFile_eq_ok_iff fromString).mpr ⟨text, rfl, h, rfl⟩]
  cases negativeSelfTest fromString (.file (encodeUtf8 text)) <;> rfl

/-- The status is zero exactly when the file is the encoding of a text that passes, that holds the
four fragments of the self test, and that is refused with any first one of them replaced. An error
of the parser escapes exactly when it is raised for the file, or for the first changed text that is
not refused. The status is one for every other file. -/
theorem main_eq_zero_iff_breaks (node : Node) :
    (main fromString node = .ok 0 ↔ ∃ text, node = .file (encodeUtf8 text) ∧
      Passes fromString text ∧
      ∀ mutation ∈ mutations, mutation.replacement.Breaks (Unrefused fromString) text) ∧
    (main fromString node = .error .otherError ↔ ∃ text, node = .file (encodeUtf8 text) ∧
      (Raises fromString text ∨ Passes fromString text ∧
        ∃ front mutation rest, mutations = front ++ mutation :: rest ∧
          (∀ earlier ∈ front, earlier.replacement.Breaks (Unrefused fromString) text) ∧
          Raises fromString (mutation.replacement.apply text))) ∧
    (main fromString node ≠ .ok 0 → main fromString node ≠ .error .otherError →
      main fromString node = .ok 1) := by
  cases hverify : verifyFile fromString node with
  | error failure =>
    have hpasses (text : Str) (hnode : node = .file (encodeUtf8 text)) :
        ¬Passes fromString text := fun h =>
      nomatch hverify.symm.trans ((verifyFile_eq_ok_iff fromString).mpr ⟨text, hnode, h, rfl⟩)
    have hraises : (∃ text, node = .file (encodeUtf8 text) ∧ Raises fromString text) ↔
        failure = .otherError := by
      rw [← verifyFile_eq_otherError_iff, hverify, Except.error.injEq]
    rw [main_of_verifyFile_error fromString hverify]
    refine ⟨iff_of_false ?_ fun ⟨text, hnode, h, _⟩ => hpasses text hnode h, ?_, ?_⟩
    · cases hcaught : isCaught failure <;> simp
    · rw [← exists_congr fun text => and_congr_right fun hnode =>
        (or_iff_left fun h => hpasses text hnode h.1).symm, hraises]
      cases failure <;> simp [isCaught]
    · rcases verifyFile_eq_error fromString hverify with ⟨message, rfl⟩ | rfl <;> simp [isCaught]
  | ok counts =>
    obtain ⟨text, rfl, h, -⟩ := (verifyFile_eq_ok_iff fromString).mp hverify
    rw [exists_file_eq_iff, exists_file_eq_iff, or_iff_right h.not_raises, and_iff_right h,
      and_iff_right h, ← negativeSelfTest_eq_ok_iff h, ← negativeSelfTest_eq_otherError_iff h,
      main_of_passes fromString h]
    cases hself : negativeSelfTest fromString (.file (encodeUtf8 text)) with
    | ok count => simp
    | error failure =>
      rcases negativeSelfTest_eq_error h hself with hcaught | rfl
      · have hother : failure ≠ .otherError := by
          rintro rfl
          cases hcaught
        simp [hcaught, hother]
      · simp [isCaught]

end RealityCore.DependencyMetadata
