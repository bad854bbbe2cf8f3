import RealityCore.Source.ScanFile

/-!
# Local paths in a scanned text

Each check looks at the leftmost match of its pattern only. A match in a leading `#!` line or
of the text `/dev/null` is exempt, and an exempt first match ends the check, so what comes
after it is not looked at. The scan reports a local path exactly when the leftmost match of
one of the two path patterns is not exempt.
-/

namespace RealityCore.SourceScan

open Python (Str Bytes decodeUtf8 encodeUtf8 decodeUtf8_encodeUtf8)
open Regex (Pattern Match Occurs search)

/-- The two patterns for local paths. -/
def posixPatterns : List (Pattern Char) := [POSIX_ABSOLUTE_RE, POSIX_MULTI_SEGMENT_RE]

/-- Matches that are no local path: in the shebang line, or the null device. -/
def Exempt (text : Str) (m : Match Char) : Prop :=
  startsInShebang text m = true ∨ m.text = "/dev/null".toList

/-- A leftmost occurrence of a path pattern is not exempt. -/
def LeadsWithLocalPath (text : Str) : Prop :=
  ∃ r ∈ posixPatterns, ∃ m, Occurs r text m ∧ (∀ m', Occurs r text m' → m.index ≤ m'.index) ∧
    ¬Exempt text m

/-- Every occurrence of a path pattern is exempt. -/
def OnlyExemptPaths (text : Str) : Prop :=
  ∀ r ∈ posixPatterns, ∀ m, Occurs r text m → Exempt text m

/-- A regular file of admitted size with the given content. -/
structure SourceFile.Holds (path : SourceFile) (data : Bytes) : Prop where
  isSymlink : path.isSymlink = .ok false
  isFile : path.isFile = .ok true
  size : ∃ size ≤ MAX_FILE_BYTES, path.size = .ok size
  readBytes : path.readBytes = .ok data

/-- A regular file of admitted size is read. -/
theorem SourceFile.Holds.read {path : SourceFile} {data : Bytes} (h : path.Holds data) :
    path.read = .ok data := by
  obtain ⟨size, hle, hsize⟩ := h.size
  have hnot : ¬size > MAX_FILE_BYTES := not_lt.mpr hle
  simp [SourceFile.read, h.isSymlink, h.isFile, hsize, h.readBytes, hnot, bind, Except.bind, pure,
    Except.pure]

/-- Findings of one file differ in their reasons. -/
theorem finding_injective (relativePath : Str) : Function.Injective (finding relativePath) := by
  intro a b h
  exact String.toList_injective (List.append_cancel_left h)

/-- The octets of a file never give the reason for local paths. -/
theorem posix_reason_notMem_byteReasons (suffix : Str) (data : Bytes) :
    POSIX_REASON ∉ byteReasons suffix data := by
  have hmagic : ∀ magic ∈ BINARY_MAGICS, magic.2 ++ " detected" ≠ POSIX_REASON := by decide
  have hfilter : ∀ p, POSIX_REASON ∉ (BINARY_MAGICS.filter p).map (·.2 ++ " detected") := by
    intro p hreason
    obtain ⟨magic, hmem, heq⟩ := List.mem_map.mp hreason
    exact hmagic magic (List.mem_of_mem_filter hmem) heq
  simp only [byteReasons, List.mem_append, not_or]
  refine ⟨⟨⟨⟨⟨?_, hfilter _⟩, ?_⟩, ?_⟩, ?_⟩, ?_⟩
  all_goals split <;> decide

/-- A path check reports exactly when the leftmost match of its pattern is not exempt. -/
theorem reports_iff {check : Check} (hposix : check.isPosixPath = true) (text : Str) :
    check.reports text = true ↔ ∃ m, Occurs check.pattern text m ∧
      (∀ m', Occurs check.pattern text m' → m.index ≤ m'.index) ∧ ¬Exempt text m := by
  have hreports : check.reports text = true ↔
      ∃ m, search check.pattern text = some m ∧ ¬Exempt text m := by
    cases hsearch : search check.pattern text <;>
      simp [Check.reports, Exempt, hsearch, hposix]
  simp only [hreports, Regex.search_eq_some_iff, and_assoc]

/-- The text gives the reason for local paths exactly when it leads with one. -/
theorem posix_reason_mem_textReasons (isAlnum : Char → Bool) (text : Str) :
    POSIX_REASON ∈ textReasons isAlnum text ↔ LeadsWithLocalPath text := by
  have hcontrol : POSIX_REASON ∉
      (if hasUnsafeControls text then ["control character is not public source"] else []) := by
    split <;> decide
  have habsolute := @reports_iff ⟨POSIX_ABSOLUTE_RE, true, POSIX_REASON⟩ rfl text
  have hsegment := @reports_iff ⟨POSIX_MULTI_SEGMENT_RE, true, POSIX_REASON⟩ rfl text
  have hchecks : POSIX_REASON ∈ textReasons isAlnum text ↔
      ∃ check ∈ checks isAlnum, check.reports text = true ∧ check.reason = POSIX_REASON := by
    rw [textReasons, List.mem_append, or_iff_right hcontrol]
    simp only [List.mem_map, List.mem_filter, and_assoc]
  simp only [LeadsWithLocalPath, posixPatterns, List.exists_mem_cons_iff, List.not_mem_nil,
    false_and, exists_false, or_false]
  rw [← habsolute, ← hsegment, hchecks]
  simp [checks, POSIX_REASON]

/-- The scan of a readable text reports a local path exactly when the text leads with one. -/
theorem finding_mem_scanFile_iff {path : SourceFile} {data : Bytes} {text : Str}
    (isAlnum : Char → Bool) (relativePath : Str) (hdata : path.Holds data)
    (htext : decodeUtf8 data = some text) :
    finding relativePath POSIX_REASON ∈ scanFile isAlnum path relativePath ↔
      LeadsWithLocalPath text := by
  rw [scanFile, hdata.read]
  simp only [List.mem_map_of_injective (finding_injective relativePath), contentReasons, htext,
    List.mem_append, or_iff_right (posix_reason_notMem_byteReasons path.suffix data)]
  exact posix_reason_mem_textReasons isAlnum text

/-- Every local path leads to a finding exactly when the text leads with a local path, or all
occurrences of the two patterns are exempt. -/
theorem scanFile_reports_paths_iff {path : SourceFile} {data : Bytes} {text : Str}
    (isAlnum : Char → Bool) (relativePath : Str) (hdata : path.Holds data)
    (htext : decodeUtf8 data = some text) :
    (∀ r ∈ posixPatterns, (∃ m, Occurs r text m ∧ ¬Exempt text m) →
        finding relativePath POSIX_REASON ∈ scanFile isAlnum path relativePath) ↔
      LeadsWithLocalPath text ∨ OnlyExemptPaths text := by
  rw [finding_mem_scanFile_iff isAlnum relativePath hdata htext]
  constructor
  · intro h
    by_cases hlead : LeadsWithLocalPath text
    · exact .inl hlead
    · refine .inr fun r hr m hm => ?_
      by_contra hex
      exact hlead (h r hr ⟨m, hm, hex⟩)
  · rintro (hlead | hexempt) r hr ⟨m, hm, hex⟩
    · exact hlead
    · exact absurd (hexempt r hr m hm) hex

/-- The regular file with the given text. -/
def SourceFile.ofText (suffix text : Str) : SourceFile where
  isSymlink := .ok false
  isFile := .ok true
  size := .ok (encodeUtf8 text).length
  readBytes := .ok (encodeUtf8 text)
  suffix := suffix

/-- A file made of a short text holds the encoding of that text. -/
theorem SourceFile.holds_ofText {suffix text : Str}
    (h : (encodeUtf8 text).length ≤ MAX_FILE_BYTES) :
    (SourceFile.ofText suffix text).Holds (encodeUtf8 text) where
  isSymlink := rfl
  isFile := rfl
  size := ⟨_, h, rfl⟩
  readBytes := rfl

/-- A script with a local path below its shebang line. -/
def scriptWithPath : Str := "#!/bin/sh\n/home/user/x\n".toList

/-- The path below the shebang line is not exempt. -/
theorem occurs_below_shebang :
    ∃ m, Occurs POSIX_ABSOLUTE_RE scriptWithPath m ∧ ¬Exempt scriptWithPath m := by
  refine ⟨⟨⟨"\nhs/nib/!#".toList, "/home/user/x\n".toList⟩,
    ⟨"/emoh/\nhs/nib/!#".toList, "user/x\n".toList⟩⟩, ⟨by decide, by decide +kernel⟩, ?_⟩
  unfold Exempt
  decide +kernel

/-- The scan of the script reports nothing at all. -/
theorem scanFile_scriptWithPath :
    scanFile (fun _ => false) (.ofText ".sh".toList scriptWithPath) "run.sh".toList = [] := by
  rw [scanFile, (SourceFile.holds_ofText (by decide)).read]
  simp only [contentReasons, decodeUtf8_encodeUtf8, List.map_eq_nil_iff]
  decide +kernel

/-- The shebang line hides the path below it. -/
theorem scanFile_misses_path_below_shebang :
    (∃ m, Occurs POSIX_ABSOLUTE_RE scriptWithPath m ∧ ¬Exempt scriptWithPath m) ∧
      scanFile (fun _ => false) (.ofText ".sh".toList scriptWithPath) "run.sh".toList = [] :=
  ⟨occurs_below_shebang, scanFile_scriptWithPath⟩

/-- The script neither leads with a local path nor has exempt ones only. -/
theorem scanFile_reports_paths_iff_script :
    ¬(∀ r ∈ posixPatterns, (∃ m, Occurs r scriptWithPath m ∧ ¬Exempt scriptWithPath m) →
        finding "run.sh".toList POSIX_REASON ∈
          scanFile (fun _ => false) (.ofText ".sh".toList scriptWithPath) "run.sh".toList) ∧
      ¬(LeadsWithLocalPath scriptWithPath ∨ OnlyExemptPaths scriptWithPath) := by
  have hiff := scanFile_reports_paths_iff (fun _ => false) "run.sh".toList
    (@SourceFile.holds_ofText ".sh".toList scriptWithPath (by decide))
    (decodeUtf8_encodeUtf8 scriptWithPath)
  have hmisses : ¬∀ r ∈ posixPatterns,
      (∃ m, Occurs r scriptWithPath m ∧ ¬Exempt scriptWithPath m) →
        finding "run.sh".toList POSIX_REASON ∈
          scanFile (fun _ => false) (.ofText ".sh".toList scriptWithPath) "run.sh".toList := by
    intro hreports
    have hfinding := hreports POSIX_ABSOLUTE_RE List.mem_cons_self occurs_below_shebang
    rw [scanFile_scriptWithPath] at hfinding
    cases hfinding
  exact ⟨hmisses, hiff.not.mp hmisses⟩

end RealityCore.SourceScan
