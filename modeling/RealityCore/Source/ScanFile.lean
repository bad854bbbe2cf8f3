import RealityCore.Library.PythonBytes
import RealityCore.Source.Patterns

/-!
# Scanning one source file

`scanFile` reads one path and reports what is not public source in it: the kind and size of
the file, its name, its octets, and the nine patterns in its text. A finding is a line of
the report, the path of the file with a reason.
-/

namespace RealityCore.SourceScan

open Python (Str Bytes decodeUtf8)
open Regex (Pattern Match search)

def MAX_FILE_BYTES : ℕ := 2 * 1024 * 1024

def MAX_LINE_BYTES : ℕ := 64 * 1024

def BINARY_EXTENSIONS : List String :=
  [".7z", ".bin", ".bz2", ".class", ".dll", ".dylib", ".exe", ".gif", ".gz", ".ico", ".jar",
    ".jpeg", ".jpg", ".keystore", ".mp3", ".mp4", ".otf", ".p12", ".pdf", ".png", ".so", ".tar",
    ".tgz", ".ttf", ".woff", ".woff2", ".xz", ".zip"]

def BINARY_MAGICS : List (Bytes × String) :=
  [([0x7f, 0x45, 0x4c, 0x46], "ELF binary"), ([0x4d, 0x5a], "PE/DOS binary"),
    ([0x50, 0x4b, 3, 4], "ZIP container"),
    ([0x52, 0x61, 0x72, 0x21, 0x1a, 7], "RAR container"),
    ([0x37, 0x7a, 0xbc, 0xaf, 0x27, 0x1c], "7-Zip container"), ([0x1f, 0x8b], "gzip stream"),
    ([0x42, 0x5a, 0x68], "bzip2 stream"), ([0xfd, 0x37, 0x7a, 0x58, 0x5a, 0], "XZ stream"),
    ([0x25, 0x50, 0x44, 0x46, 0x2d], "PDF document"),
    ([0x89, 0x50, 0x4e, 0x47, 0x0d, 0x0a, 0x1a, 0x0a], "PNG image"),
    ([0xff, 0xd8, 0xff], "JPEG image"), ([0x47, 0x49, 0x46, 0x38], "GIF image"),
    ([0xca, 0xfe, 0xba, 0xbe], "Java class file"), ([0xcf, 0xfa, 0xed, 0xfe], "Mach-O binary"),
    ([0xfe, 0xed, 0xfa, 0xcf], "Mach-O binary")]

def UTF16_BOMS : List Bytes :=
  [[0xff, 0xfe], [0xfe, 0xff], [0xff, 0xfe, 0, 0], [0, 0, 0xfe, 0xff]]

def UTF8_BOM : Bytes := [0xef, 0xbb, 0xbf]

/-- `[\x00-\x08\x0b\x0c\x0e-\x1f\x7f]` -/
def CONTROL_BYTE_RE : Pattern UInt8 :=
  .set fun b => b ≤ 8 || b == 0x0b || b == 0x0c || (0x0e ≤ b && b ≤ 0x1f) || b == 0x7f

/-- The code point ranges of the categories `Cc` and `Cf`. -/
def controlRanges : List (ℕ × ℕ) :=
  [(0, 0x1f), (0x7f, 0x9f), (0xad, 0xad), (0x600, 0x605), (0x61c, 0x61c), (0x6dd, 0x6dd),
    (0x70f, 0x70f), (0x890, 0x891), (0x8e2, 0x8e2), (0x180e, 0x180e), (0x200b, 0x200f),
    (0x202a, 0x202e), (0x2060, 0x2064), (0x2066, 0x206f), (0xfeff, 0xfeff), (0xfff9, 0xfffb),
    (0x110bd, 0x110bd), (0x110cd, 0x110cd), (0x13430, 0x1343f), (0x1bca0, 0x1bca3),
    (0x1d173, 0x1d17a), (0xe0001, 0xe0001), (0xe0020, 0xe007f)]

/-- A control or format character other than the tabulator and the line ends. -/
def isUnsafeControl (c : Char) : Bool :=
  controlRanges.any (fun (low, high) => low ≤ c.toNat && c.toNat ≤ high) &&
    !(c == '\t' || c == '\n' || c == '\r')

/-- `_has_unsafe_controls` -/
def hasUnsafeControls (value : Str) : Bool := value.any isUnsafeControl

/-- `str.lower` of one character, exact where the result is ASCII. -/
def lower (c : Char) : Char := if c = '\u212a' then 'k' else c.toLower

/-- What the file system answers about a path: each answer or the class of an `OSError`. -/
structure SourceFile where
  isSymlink : Except String Bool
  isFile : Except String Bool
  size : Except String ℕ
  readBytes : Except String Bytes
  suffix : Str

/-- `_finding` -/
def finding (relativePath : Str) (reason : String) : Str :=
  relativePath ++ ": ".toList ++ reason.toList

/-- Open a file: its octets, or the reason why it is not looked into. -/
def SourceFile.read (path : SourceFile) : Except String Bytes :=
  let answers : Except String (Except String Bytes) := do
    if ← path.isSymlink then return .error "symlink is not public source"
    if !(← path.isFile) then return .error "tracked path is not a regular file"
    let size ← path.size
    if size > MAX_FILE_BYTES then return .error "file exceeds the bounded size limit"
    return .ok (← path.readBytes)
  match answers with
  | .error errorClass => .error ("file could not be read: " ++ errorClass)
  | .ok answer => answer

/-- The reasons found in the name and the octets of a file. -/
def byteReasons (suffix : Str) (data : Bytes) : List String :=
  (if BINARY_EXTENSIONS.any (·.toList == suffix.map lower) then
    ["binary extension is not public source"] else []) ++
  (BINARY_MAGICS.filter fun (magic, _) => magic.isPrefixOf data).map (·.2 ++ " detected") ++
  (if (search CONTROL_BYTE_RE data).isSome then ["control byte is not public source"] else []) ++
  (if UTF16_BOMS.any (·.isPrefixOf data) then
    ["UTF-16/32 encoding is not public source"] else []) ++
  (if UTF8_BOM.isPrefixOf data then ["UTF-8 BOM is not public source"] else []) ++
  (if (data.splitOn 0x0a).any (·.length > MAX_LINE_BYTES) then
    ["line exceeds the bounded length limit"] else [])

/-- A pattern of the text scan, with what its findings say. -/
structure Check where
  pattern : Pattern Char
  isPosixPath : Bool
  reason : String

/-- The reason of both patterns for local paths. -/
def POSIX_REASON : String := "POSIX local absolute path"

/-- The checks of the text scan, in the order in which they report. -/
def checks (isAlnum : Char → Bool) : List Check :=
  [⟨PRIVATE_KEY_RE, false, "private-key marker"⟩,
    ⟨GITHUB_TOKEN_RE isAlnum, false, "GitHub token pattern"⟩,
    ⟨AWS_ACCESS_KEY_RE isAlnum, false, "AWS access-key pattern"⟩,
    ⟨AWS_ASSIGNMENT_RE isAlnum, false, "AWS credential assignment"⟩,
    ⟨SECRET_ASSIGNMENT_RE isAlnum, false, "secret assignment"⟩,
    ⟨POSIX_ABSOLUTE_RE, true, POSIX_REASON⟩,
    ⟨POSIX_MULTI_SEGMENT_RE, true, POSIX_REASON⟩,
    ⟨WINDOWS_ABSOLUTE_RE, false, "Windows local absolute path"⟩,
    ⟨UNC_ABSOLUTE_RE, false, "UNC local absolute path"⟩]

/-- The index at which the first line ends. -/
def firstLineEnd (text : Str) : ℕ := text.idxOf '\n'

/-- A match inside a leading `#!` line. -/
def startsInShebang (text : Str) (m : Match Char) : Bool :=
  "#!".toList.isPrefixOf text && m.index < firstLineEnd text

/-- One round of the loop over the checks: only the first match is looked at. -/
def Check.reports (check : Check) (text : Str) : Bool :=
  match search check.pattern text with
  | none => false
  | some m => !(check.isPosixPath && startsInShebang text m) && m.text != "/dev/null".toList

/-- The reasons found in the text of a file. -/
def textReasons (isAlnum : Char → Bool) (text : Str) : List String :=
  (if hasUnsafeControls text then ["control character is not public source"] else []) ++
    ((checks isAlnum).filter (·.reports text)).map (·.reason)

/-- The reasons found in the octets of a file, and in its text when it has one. -/
def contentReasons (isAlnum : Char → Bool) (suffix : Str) (data : Bytes) : List String :=
  byteReasons suffix data ++
    match decodeUtf8 data with
    | none => ["file is not UTF-8 text"]
    | some text => textReasons isAlnum text

/-- `_scan_file` -/
def scanFile (isAlnum : Char → Bool) (path : SourceFile) (relativePath : Str) : List Str :=
  match path.read with
  | .error reason => [finding relativePath reason]
  | .ok data => (contentReasons isAlnum path.suffix data).map (finding relativePath)

end RealityCore.SourceScan
