import RealityCore.Library.FileSystem
import RealityCore.Library.Hashing
import RealityCore.Library.JsonLoads
import RealityCore.Library.Recorder
import RealityCore.Library.RegexLanguage

/-!
# The bill of materials of clean builds

A second script stores the digest of the bill of materials of one build, and compares that of the
next build with it. Its state has two members only, and its reader checks them one by one.
-/

namespace RealityCore.Sbom

open Outcome (guard_eq_ok_iff map_eq_ok_iff)
open Python (Bytes Dict Files Hasher Hook IsHex IsPlain Json JsonLoads LoadsError Node PurePath Str
  Text decodeUtf8 encodeUtf8 isHexPoint points)
open Recorder (Attempt Event RecordedLast Script)
open Regex (fullMatch)

def MAX_SBOM_BYTES : ℕ := 512 * 1024

/-- The exceptions of the script. Other errors are those of `json.loads` for an integer with too
many digits and for a document with too many levels. -/
inductive ReproducibilityFailure where
  | sbomReproducibilityError (message : String)
  | osError
  | otherError
  deriving DecidableEq

/-- `raise SbomReproducibilityError(message)` -/
def disagree {α : Type} (message : String) : Except ReproducibilityFailure α :=
  .error (.sbomReproducibilityError message)

/-- `except (OSError, SbomReproducibilityError)` -/
def isCaught : ReproducibilityFailure → Bool
  | .sbomReproducibilityError _ | .osError => true
  | .otherError => false

/-- `_digest(path)` -/
def digest (sha256 : Hasher 64) (files : Files) (path : PurePath) :
    Except ReproducibilityFailure Text :=
  match (files path).fileSize with
  | none => disagree "SBOM is missing or is a symlink"
  | some size =>
    if MAX_SBOM_BYTES < size then disagree "SBOM exceeds the bounded size"
    else
      match files path with
      | .file data => .ok (sha256.hash data)
      | _ => .error .osError

/-- `{"schemaVersion": version, "sha256": digest}` -/
def digestState (version : Json) (digest : Text) : Json :=
  .object [(points "schemaVersion", version), (points "sha256", .str digest)]

/-- `no_duplicates(pairs)` -/
def noDuplicates : Hook ReproducibilityFailure :=
  Json.ofDistinctPairs (.sbomReproducibilityError "SBOM state contains duplicate keys")

/-- The checks of a document. -/
def checkState : Json → Except ReproducibilityFailure Json
  | .object value =>
    if Dict.keys value ≠ ["schemaVersion", "sha256"].map points then
      disagree "SBOM state shape is not canonical"
    else
      match Dict.get? value (points "schemaVersion"), Dict.get? value (points "sha256") with
      | some version, some (.str digest) =>
        if ¬version.equal (.int 1) ∨ ¬fullMatch (.times (.set isHexPoint) 64) digest then
          disagree "SBOM state is not canonical"
        else .ok (.object value)
      | _, _ => disagree "SBOM state is not canonical"
  | _ => disagree "SBOM state shape is not canonical"

/-- `json.loads(data.decode("utf-8"), object_pairs_hook=no_duplicates)`, where octets that are not a
text and a text that is not a document are refused alike. -/
def loadState (json : JsonLoads) (data : Bytes) :
    Except (LoadsError ReproducibilityFailure) Json :=
  match decodeUtf8 data with
  | none => .error .decodeError
  | some text => json.loads noDuplicates text

/-- `_read_state(path)` -/
def readState (json : JsonLoads) (files : Files) (path : PurePath) :
    Except ReproducibilityFailure Json :=
  match files path with
  | .missing | .directory | .symlink => disagree "SBOM state is missing or is a symlink"
  | .unreadable _ => .error .osError
  | .file data =>
    if 16 * 1024 < data.length ∨ 0 ∈ data then disagree "SBOM state is too large or contains NUL"
    else
      match loadState json data with
      | .error .decodeError => disagree "SBOM state is not valid JSON"
      | .error (.hookError failure) => .error failure
      | .error .otherError => .error .otherError
      | .ok value => checkState value

/-- `json.dumps(current, indent=2) + "\n"` -/
def stateText (current : Json) : Str := current.dumpsIndent 2 0 ++ ['\n']

/-- What `main(argv)` does under `try`, for the SBOM and the state at these paths. -/
def script (json : JsonLoads) (sha256 : Hasher 64) (sbom path : PurePath) :
    Script Files Node ReproducibilityFailure Json where
  collect node files :=
    (digest sha256 (Function.update files path node) sbom).map (digestState (.int 1))
  store current := Node.written (encodeUtf8 (stateText current))
  unstored := .osError
  load node files := readState json (Function.update files path node) path
  same first current := first.equal current
  different := .sbomReproducibilityError "clean-build SBOM hashes differ"

/-- `main(argv)`, with what it leaves at the path of the state. -/
def main (json : JsonLoads) (sha256 : Hasher 64) (sbom path : PurePath) (node : Node)
    (event : Event Files) : Node × Except ReproducibilityFailure ℕ :=
  (script json sha256 sbom path).main isCaught node event

/-! ## What is read -/

/-- The members of a state. -/
theorem get?_schemaVersion (version held : Json) :
    Dict.get? [(points "schemaVersion", version), (points "sha256", held)]
      (points "schemaVersion") = some version := by
  rw [Dict.get?_cons, if_pos rfl]

theorem get?_sha256 (version held : Json) :
    Dict.get? [(points "schemaVersion", version), (points "sha256", held)] (points "sha256") =
      some held := by
  rw [Dict.get?_cons, if_neg (Python.points_inj.not.mpr (by decide)), Dict.get?_cons, if_pos rfl]

/-- The digest of a file that is there and is short enough. -/
theorem digest_eq_ok_iff {sha256 : Hasher 64} {files : Files} {path : PurePath} {result : Text} :
    digest sha256 files path = .ok result ↔ ∃ content, files path = .file content ∧
      content.length ≤ MAX_SBOM_BYTES ∧ result = sha256.hash content := by
  unfold digest
  cases hnode : files path with
  | file content =>
    change (if MAX_SBOM_BYTES < content.length then _ else Except.ok _) = _ ↔ _
    rw [disagree, guard_eq_ok_iff, Nat.not_lt, Except.ok.injEq]
    constructor
    · rintro ⟨hlength, rfl⟩
      exact ⟨content, rfl, hlength, rfl⟩
    · rintro ⟨other, hother, hlength, rfl⟩
      obtain rfl := Node.file.inj hother
      exact ⟨hlength, rfl⟩
  | unreadable size =>
    change (if MAX_SBOM_BYTES < size then _ else _) = Except.ok result ↔ _
    rw [disagree, guard_eq_ok_iff]
    simp
  | _ => simp [Node.fileSize, disagree]

/-- A value is equal to one when it is a number of that value. -/
theorem equal_one_iff {value : Json} : value.equal (.int 1) = true ↔ value.IsOne := by
  rw [Json.equal, Bool.and_eq_true, Json.same_one_iff, decide_eq_true_iff]
  refine ⟨And.right, fun h => ⟨fun hnan => ?_, h⟩⟩
  rw [Json.IsOne, hnan] at h
  cases h

/-- A document passes exactly when it is a state, but for the kind of number that is its version. -/
theorem checkState_eq_ok_iff {document value : Json} :
    checkState document = .ok value ↔
      value = document ∧ ∃ version digest, version.IsOne ∧ IsHex 64 digest ∧
        document = digestState version digest := by
  cases document with
  | object members =>
    rw [checkState, disagree, guard_eq_ok_iff, not_not]
    constructor
    · rintro ⟨hkeys, hvalue⟩
      obtain ⟨⟨_, version⟩, _, rfl, rfl, hrest⟩ := List.map_eq_cons_iff.mp hkeys
      obtain ⟨⟨_, held⟩, _, rfl, rfl, hnil⟩ := List.map_eq_cons_iff.mp hrest
      obtain rfl := List.map_eq_nil_iff.mp hnil
      rw [get?_schemaVersion, get?_sha256] at hvalue
      cases held with
      | str digest =>
        rw [disagree, guard_eq_ok_iff, not_or, not_not, not_not, equal_one_iff,
          Regex.fullMatch_times_set_iff] at hvalue
        exact ⟨(Except.ok.inj hvalue.2).symm, version, digest, hvalue.1.1, hvalue.1.2, rfl⟩
      | _ => cases hvalue
    · rintro ⟨rfl, version, digest, hversion, hdigest, hmembers⟩
      obtain rfl := Json.object.inj hmembers
      refine ⟨rfl, ?_⟩
      rw [get?_schemaVersion, get?_sha256]
      rw [disagree, guard_eq_ok_iff, not_or, not_not, not_not, equal_one_iff,
        Regex.fullMatch_times_set_iff]
      exact ⟨⟨hversion, hdigest⟩, rfl⟩
  | _ => simp [checkState, disagree, digestState]

/-- A file is read as the state that it is loaded as, but for the kind of number that is its
version. -/
theorem readState_eq_ok_iff {json : JsonLoads} {files : Files} {path : PurePath} {value : Json} :
    readState json files path = .ok value ↔ ∃ data, files path = .file data ∧
      data.length ≤ 16 * 1024 ∧ 0 ∉ data ∧ loadState json data = .ok value ∧
      ∃ version digest, version.IsOne ∧ IsHex 64 digest ∧ value = digestState version digest := by
  unfold readState
  cases hnode : files path with
  | file data =>
    dsimp only
    rw [disagree, guard_eq_ok_iff, not_or, Nat.not_lt]
    constructor
    · rintro ⟨⟨hlength, hnul⟩, hvalue⟩
      refine ⟨data, rfl, hlength, hnul, ?_⟩
      cases hload : loadState json data with
      | ok document =>
        rw [hload] at hvalue
        obtain ⟨rfl, hstate⟩ := checkState_eq_ok_iff.mp hvalue
        exact ⟨rfl, hstate⟩
      | error error =>
        rw [hload] at hvalue
        cases error <;> cases hvalue
    · rintro ⟨other, hother, hlength, hnul, hload, hstate⟩
      obtain rfl := Node.file.inj hother
      refine ⟨⟨hlength, hnul⟩, ?_⟩
      rw [hload]
      exact checkState_eq_ok_iff.mpr ⟨rfl, hstate⟩
  | _ => simp [disagree]

/-- States are equal when their digests are and the version is one. -/
theorem digestState_equal_iff {version : Json} {digest other : Text} :
    (digestState version digest).equal (digestState (.int 1) other) = true ↔
      version.IsOne ∧ digest = other := by
  have hsame : (digestState version digest).same (digestState (.int 1) other) = true ↔
      version.same (.int 1) = true ∧ (Json.str digest).same (.str other) = true := by
    rw [digestState, digestState, Json.same, Bool.and_eq_true, Json.sameMembers_iff]
    simp only [List.forall_mem_cons, get?_schemaVersion, get?_sha256, Option.some.injEq,
      exists_eq_left', List.length_cons, List.not_mem_nil, false_implies, implies_true, and_true,
      beq_self_eq_true, true_and]
  rw [Json.equal, Bool.and_eq_true, hsame, Json.same_one_iff, decide_eq_true_iff]
  constructor
  · rintro ⟨-, hversion, hdigest⟩
    exact ⟨hversion, eq_of_beq hdigest⟩
  · rintro ⟨hversion, rfl⟩
    exact ⟨by simp [Json.numeric, digestState], hversion, beq_self_eq_true digest⟩

/-- A comparison with any file passes exactly when the file holds a state with the digest of the
bill of materials, whatever kind of number its version is. -/
theorem compare_with_file_iff (json : JsonLoads) (sha256 : Hasher 64) (sbom path : PurePath)
    (hpath : sbom ≠ path) (node : Node) (files : Files) (attempt : Attempt) :
    (main json sha256 sbom path node ⟨.compare, files, attempt⟩).2 = .ok 0 ↔
      ∃ content data version, files sbom = .file content ∧ content.length ≤ MAX_SBOM_BYTES ∧
        node = .file data ∧ data.length ≤ 16 * 1024 ∧ 0 ∉ data ∧ Json.IsOne version ∧
        loadState json data = .ok (digestState version (sha256.hash content)) := by
  have hbeside : Function.update files path node sbom = files sbom :=
    Function.update_of_ne hpath _ _
  have hself : Function.update files path node path = node := Function.update_self _ _ _
  refine Script.status_eq_zero_iff.trans (Script.compare_isOk_iff.trans ?_)
  simp only [script, map_eq_ok_iff, digest_eq_ok_iff, readState_eq_ok_iff, hbeside, hself]
  constructor
  · rintro ⟨_, first, ⟨_, ⟨content, hfile, hlength, rfl⟩, rfl⟩,
      ⟨data, hnode, hdata, hnul, hload, version, digest, -, -, rfl⟩, hequal⟩
    obtain ⟨hversion, rfl⟩ := digestState_equal_iff.mp hequal
    exact ⟨content, data, version, hfile, hlength, hnode, hdata, hnul, hversion, hload⟩
  · rintro ⟨content, data, version, hfile, hlength, hnode, hdata, hnul, hversion, hload⟩
    exact ⟨_, _, ⟨_, ⟨content, hfile, hlength, rfl⟩, rfl⟩, ⟨data, hnode, hdata, hnul, hload,
      version, _, hversion, sha256.hexdigest_hex _, rfl⟩,
      digestState_equal_iff.mpr ⟨hversion, rfl⟩⟩

/-- The files of a build with a bill of materials of some spaces. -/
def spaceFiles (length : ℕ) : Files := fun _ => .file (List.replicate length 32)

/-- The state of a bill of materials of one space, with the truth value for its version. -/
def trueState : Json :=
  digestState (.bool true) ((Hasher.ofNumber 64 List.length).hash [32])

/-- A state with the truth value for its version passes. -/
theorem compare_with_file_iff_true :
    (main (.ofDocument (stateText trueState) trueState) (.ofNumber 64 List.length) [points "sbom"]
      [points "state"] (.file (encodeUtf8 (stateText trueState)))
        ⟨.compare, spaceFiles 1, .refused⟩).2 = .ok 0 := by
  refine (compare_with_file_iff _ _ _ _ (by decide) _ _ _).mpr ⟨_, _, .bool true, rfl,
    by decide +kernel, rfl, by decide +kernel, by decide +kernel,
    Json.isOne_iff.mpr (.tail _ (.head _)), ?_⟩
  rw [loadState, Python.decodeUtf8_encodeUtf8]
  exact JsonLoads.loads_ofDocument rfl

/-! ## Runs -/

/-- The digest of a bill of materials that is there and is short enough. -/
def HasDigest (sha256 : Hasher 64) (sbom : PurePath) (files : Files) (digest : Text) : Prop :=
  ∃ content, files sbom = .file content ∧ content.length ≤ MAX_SBOM_BYTES ∧
    digest = sha256.hash content

/-- What is collected from the files of a build. -/
def collected (sha256 : Hasher 64) (sbom : PurePath) (files : Files) : Option Json :=
  ((digest sha256 files sbom).map (digestState (.int 1))).toOption

/-- What is collected is the state of a digest. -/
theorem collected_eq_some_iff {sha256 : Hasher 64} {sbom : PurePath} {files : Files}
    {state : Json} : collected sha256 sbom files = some state ↔
      ∃ digest, HasDigest sha256 sbom files digest ∧ state = digestState (.int 1) digest := by
  simp only [HasDigest, ← digest_eq_ok_iff, collected]
  cases digest sha256 files sbom <;> simp [Except.map, Except.toOption, eq_comm]

/-- A digest of a file is a hash. -/
theorem HasDigest.isHex {sha256 : Hasher 64} {sbom : PurePath} {files : Files} {digest : Text}
    (h : HasDigest sha256 sbom files digest) : IsHex 64 digest := by
  obtain ⟨content, -, -, rfl⟩ := h
  exact sha256.hexdigest_hex _

/-- A state is written as a short plain text. -/
theorem stateText_spec {digest : Text} (h : IsHex 64 digest) :
    IsPlain (stateText (digestState (.int 1) digest)) ∧
      (stateText (digestState (.int 1) digest)).length ≤ 16 * 1024 := by
  have hlines : ∀ line ∈ Json.membersIndent 2 1
      [(points "schemaVersion", .int 1), (points "sha256", .str digest)],
      IsPlain line ∧ line.length ≤ 800 := by
    have hhash := Python.length_writeText_le digest
    have hkey : (Python.writeText (points "sha256") ++ ": ".toList).length = 10 := by decide
    simp only [Json.membersIndent, List.forall_mem_cons, List.not_mem_nil, false_implies,
      implies_true, and_true]
    refine ⟨⟨by decide, by decide⟩,
      ((Python.isPlain_writeText _).append (by decide)).append (Python.isPlain_writeText digest),
      ?_⟩
    rw [List.length_append, hkey]
    change 10 + (Python.writeText digest).length ≤ 800
    rw [h.1] at hhash
    omega
  rw [stateText, digestState, Json.dumpsIndent, Nat.zero_add]
  refine ⟨(Json.isPlain_writeItems (by decide) (by decide) fun line hline =>
    (hlines line hline).1).append (by decide), ?_⟩
  have hwritten := Json.length_writeItems_le 2 0 "\x7b" "\x7d" fun line hline =>
    (hlines line hline).2
  have hcount : (Json.membersIndent 2 1
      [(points "schemaVersion", .int 1), (points "sha256", .str digest)]).length = 2 := rfl
  have hbraces : "\x7b".toList.length + "\x7d".toList.length = 2 := by decide
  rw [hcount, hbraces] at hwritten
  rw [List.length_append, List.length_singleton]
  omega

/-- The octets of a state that are enough for it: all but the newline at its end. -/
def enoughOctets (state : Json) : ℕ := (stateText state).length - 1

/-- A state that is loaded when it is written. -/
structure IsLoaded (json : JsonLoads) (state : Json) : Prop where
  isState : ∃ digest, IsHex 64 digest ∧ state = digestState (.int 1) digest
  loadsWritten : json.LoadsWritten noDuplicates (stateText state) state

/-- A state of which a part is written is read when the part is enough for it. -/
theorem readState_written {json : JsonLoads} {path : PurePath} {state : Json}
    (h : IsLoaded json state) (length : ℕ) (found : Json) :
    readState json (fun _ => .file ((encodeUtf8 (stateText state)).take length)) path = .ok found ↔
      enoughOctets state ≤ length ∧ found = state := by
  obtain ⟨digest, hdigest, hstate⟩ := h.isState
  obtain ⟨hplain, hlength⟩ := stateText_spec hdigest
  rw [← hstate] at hplain hlength
  have hload : loadState json ((encodeUtf8 (stateText state)).take length) =
      json.loads noDuplicates ((stateText state).take length) := by
    rw [loadState, Python.take_encodeUtf8 hplain, Python.decodeUtf8_encodeUtf8]
  have hbound : ((encodeUtf8 (stateText state)).take length).length ≤ 16 * 1024 := by
    refine (List.length_take_le' length _).trans ?_
    rwa [Python.length_encodeUtf8 hplain]
  have hnul : 0 ∉ (encodeUtf8 (stateText state)).take length := fun hmem =>
    Python.zero_notMem_encodeUtf8 hplain (List.mem_of_mem_take hmem)
  rw [readState_eq_ok_iff, enoughOctets, Nat.sub_le_iff_le_add, ← h.loadsWritten length found,
    ← hload]
  constructor
  · rintro ⟨data, hfile, -, -, hfound, -⟩
    rwa [← Node.file.inj hfile] at hfound
  · intro hfound
    refine ⟨_, rfl, hbound, hnul, hfound, .int 1, digest, Json.isOne_iff.mpr (.head _), hdigest, ?_⟩
    rw [hload] at hfound
    rw [((h.loadsWritten length found).mp hfound).2, hstate]

/-- What the script reads at the path of the state. -/
def readNode (json : JsonLoads) (path : PurePath) (node : Node) :
    Except ReproducibilityFailure Json :=
  readState json (fun _ => node) path

/-- The script reads what stands at the path of the state. -/
theorem load_script (json : JsonLoads) (sha256 : Hasher 64) (sbom path : PurePath) (node : Node)
    (files : Files) : (script json sha256 sbom path).load node files = readNode json path node := by
  change readState json (Function.update files path node) path = _
  rw [readNode, readState, readState, Function.update_self]

/-- The script keeps what it collects, when the state is not stored over the bill of materials. -/
theorem keeps_script (json : JsonLoads) (sha256 : Hasher 64) {sbom path : PurePath}
    (hpath : sbom ≠ path) :
    (script json sha256 sbom path).Keeps (collected sha256 sbom) enoughOctets (IsLoaded json)
      (Node.Stands (readNode json path) (IsLoaded json)) where
  collect_eq := by
    intro node kept files _
    refine Option.ext fun state => ?_
    change collected sha256 sbom (Function.update files path node) = _ ↔ _
    simp only [collected_eq_some_iff, HasDigest, Function.update_of_ne hpath]
  store := by
    intro node kept state attempt hstands hgood
    obtain ⟨digest, hdigest, rfl⟩ := hgood.isState
    refine hstands.written hgood ?_ (readState_written hgood) attempt
    rw [enoughOctets, Python.length_encodeUtf8 (stateText_spec hdigest).1]
    exact Nat.sub_le _ _
  store_isOk _ attempt hstands := hstands.written_snd _ attempt
  same_iff := by
    intro node kept files current hstands hcollected
    obtain ⟨other, -, rfl⟩ := collected_eq_some_iff.mp hcollected
    simp only [load_script, hstands.read_iff]
    have hsame : ∀ first, kept = some first →
        ((script json sha256 sbom path).same first (digestState (.int 1) other) = true ↔
          first = digestState (.int 1) other) := by
      intro first hfirst
      obtain ⟨digest, -, rfl⟩ := (hstands.isGood first hfirst).isState
      change (digestState (.int 1) digest).equal (digestState (.int 1) other) = true ↔ _
      rw [digestState_equal_iff]
      simp [digestState, Json.isOne_iff]
    constructor
    · rintro ⟨first, hfirst, heq⟩
      rw [hfirst, (hsame first hfirst).mp heq]
    · exact fun hkept => ⟨_, hkept, (hsame _ hkept).mpr rfl⟩

/-- Where nothing stands, nothing is kept. -/
theorem stands_missing (json : JsonLoads) (path : PurePath) :
    Node.Stands (readNode json path) (IsLoaded json) .missing none where
  isFile := .inl rfl
  read_iff value := iff_of_false (fun h : disagree _ = .ok value => nomatch h) (by simp)
  isGood value h := nomatch h

/-- What is at the path of the state after some runs, when nothing was there before. -/
def stateAfter (json : JsonLoads) (sha256 : Hasher 64) (sbom path : PurePath)
    (runs : List (Event Files)) : Node :=
  (Machine.run (main json sha256 sbom path) .missing runs).2

/-- After any runs, `--compare` passes exactly when the bill of materials has the digest that was
recorded last: by the last run that began to write a state, if it wrote all of it but perhaps the
newline. -/
theorem compare_sbom_after_runs (json : JsonLoads) (sha256 : Hasher 64) (sbom path : PurePath)
    (hpath : sbom ≠ path) (runs : List (Event Files))
    (hloads : ∀ run ∈ runs, ∀ digest, HasDigest sha256 sbom run.source digest →
      json.LoadsWritten noDuplicates (stateText (digestState (.int 1) digest))
        (digestState (.int 1) digest))
    (files : Files) (attempt : Attempt) :
    (main json sha256 sbom path (stateAfter json sha256 sbom path runs)
        ⟨.compare, files, attempt⟩).2 = .ok 0 ↔
      ∃ digest, HasDigest sha256 sbom files digest ∧
        RecordedLast (HasDigest sha256 sbom)
          (fun digest => enoughOctets (digestState (.int 1) digest)) runs digest := by
  refine (keeps_script json sha256 hpath).main_after_runs isCaught
    (fun _ _ => collected_eq_some_iff) (fun source other digest other' h h' heq => ?_)
    (stands_missing json path) runs (fun run hrun digest h => ?_) files attempt
  · simpa [digestState] using heq
  · exact ⟨⟨digest, h.isHex, rfl⟩, hloads run hrun digest h⟩

/-- The digest of a bill of materials of one space. -/
def spaceDigest : Text := (Hasher.ofNumber 64 List.length).hash [32]

/-- A bill of materials of one space has this digest only. -/
theorem hasDigest_spaceFiles_iff {digest : Text} :
    HasDigest (.ofNumber 64 List.length) [points "sbom"] (spaceFiles 1) digest ↔
      digest = spaceDigest := by
  constructor
  · rintro ⟨content, hfile, -, hdigest⟩
    have hcontent : [32] = content := Node.file.inj hfile
    rw [hdigest, ← hcontent, spaceDigest]
  · rintro rfl
    exact ⟨[32], rfl, by decide, rfl⟩

/-- A reader of the state of a bill of materials of one space. -/
def spaceReader : JsonLoads :=
  .ofWritten (stateText (digestState (.int 1) spaceDigest)) (digestState (.int 1) spaceDigest)

/-- The reader loads the state of this bill of materials. -/
theorem loadsWritten_spaceReader {digest : Text}
    (h : HasDigest (.ofNumber 64 List.length) [points "sbom"] (spaceFiles 1) digest) :
    spaceReader.LoadsWritten noDuplicates (stateText (digestState (.int 1) digest))
      (digestState (.int 1) digest) := by
  rw [hasDigest_spaceFiles_iff.mp h]
  exact JsonLoads.loadsWritten_ofWritten rfl

/-- What is at the path of the state after some runs of the script with the reader. -/
def spaceStateAfter (runs : List (Event Files)) : Node :=
  stateAfter spaceReader (.ofNumber 64 List.length) [points "sbom"] [points "state"] runs

/-- The status of a comparison with the reader. -/
def compareSpace (node : Node) : Except ReproducibilityFailure ℕ :=
  (main spaceReader (.ofNumber 64 List.length) [points "sbom"] [points "state"] node
    ⟨.compare, spaceFiles 1, .refused⟩).2

/-- A run without a bill of materials keeps the state that is stored, which a later bill of
materials is compared with; a run that fails while it writes the same state over leaves none. -/
theorem compare_sbom_after_runs_space :
    compareSpace (spaceStateAfter
        [⟨.write, spaceFiles 1, .whole⟩, ⟨.write, fun _ => .missing, .whole⟩]) = .ok 0 ∧
      compareSpace (spaceStateAfter
        [⟨.write, spaceFiles 1, .whole⟩, ⟨.write, spaceFiles 1, .cut 0⟩]) ≠ .ok 0 := by
  have hspace : HasDigest (.ofNumber 64 List.length) [points "sbom"] (spaceFiles 1) spaceDigest :=
    hasDigest_spaceFiles_iff.mpr rfl
  have hmissing (digest : Text) :
      ¬HasDigest (.ofNumber 64 List.length) [points "sbom"] (fun _ => .missing) digest := by
    rintro ⟨content, hfile, -⟩
    cases hfile
  constructor
  · refine (compare_sbom_after_runs _ _ _ _ (by decide) _ (fun run hrun digest h => ?_) _ _).mpr
      ⟨spaceDigest, hspace, [], _, _, rfl, ⟨rfl, hspace, trivial⟩, fun later hlater => ?_⟩
    · simp only [List.mem_cons, List.not_mem_nil, or_false] at hrun
      rcases hrun with rfl | rfl
      · exact loadsWritten_spaceReader h
      · exact absurd h (hmissing digest)
    · rw [List.mem_singleton.mp hlater]
      rintro ⟨-, -, digest, h⟩
      exact hmissing digest h
  · refine (compare_sbom_after_runs _ _ _ _ (by decide) _
      (fun run hrun digest h => ?_) _ _).not.mpr ?_
    · simp only [List.mem_cons, List.not_mem_nil, or_false] at hrun
      rcases hrun with rfl | rfl <;> exact loadsWritten_spaceReader h
    · rintro ⟨digest, hdigest, hlast⟩
      obtain rfl := hasDigest_spaceFiles_iff.mp hdigest
      have hlast : RecordedLast _ _ ([⟨.write, spaceFiles 1, .whole⟩] ++
        [⟨.write, spaceFiles 1, .cut 0⟩]) spaceDigest := hlast
      refine Recorder.not_recordedLast_of_cut hspace ?_ hlast
      decide +kernel

end RealityCore.Sbom
