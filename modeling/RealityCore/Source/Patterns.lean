import RealityCore.Library.PythonText
import RealityCore.Library.Regex

/-!
# The patterns of the public source scan

The nine expressions searched in every scanned text. Word characters and the case-blind
comparison are those of Python text patterns: beyond ASCII a word character is what
`str.isalnum` accepts, which is the parameter of the patterns that use `\b`.
-/

namespace RealityCore.SourceScan

open Python (Str isSpace)
open Regex (Pattern)

/-- `[A-Za-z0-9_]` -/
def isAsciiWord (c : Char) : Bool := c.isAlphanum || c == '_'

/-- `[A-Za-z0-9_.-]` -/
def isSegment (c : Char) : Bool := isAsciiWord c || c == '.' || c == '-'

/-- `\w`: the parameter is `str.isalnum`, consulted beyond ASCII. -/
def isWord (isAlnum : Char → Bool) (c : Char) : Bool :=
  isAsciiWord c || (128 ≤ c.toNat && isAlnum c)

/-- Letters beyond ASCII that a case-blind comparison identifies with an ASCII letter. -/
def asciiFold : List (Char × Char) :=
  [('\u0130', 'i'), ('\u0131', 'i'), ('\u017f', 's'), ('\u212a', 'k')]

/-- A lower-case literal under `(?i)`. -/
def ignoringCase (literal c : Char) : Bool :=
  c.toLower == literal || asciiFold.contains (c, literal)

/-- A lower-case text under `(?i)`. -/
def textIgnoringCase : Str → Pattern Char
  | [] => .empty
  | c :: rest => .seq (.set (ignoringCase c)) (textIgnoringCase rest)

/-- The patterns in sequence. -/
def sequence : List (Pattern Char) → Pattern Char
  | [] => .empty
  | [r] => r
  | r :: rest => .seq r (sequence rest)

/-- `[_-]?` -/
def optionalJoint : Pattern Char := .optional (.set fun c => c == '_' || c == '-')

/-- `\s*[:=]\s*['\"]?` -/
def assignment : Pattern Char :=
  sequence [.star (.set isSpace), .set fun c => c == ':' || c == '=', .star (.set isSpace),
    .optional (.set fun c => c == '\x27' || c == '\x22')]

/-- `-----BEGIN (?:[A-Z0-9]+ )*PRIVATE KEY-----` -/
def PRIVATE_KEY_RE : Pattern Char :=
  sequence [.text "-----BEGIN ".toList,
    .star (.seq (.plus (.set fun c => c.isUpper || c.isDigit)) (.set (· == ' '))),
    .text "PRIVATE KEY-----".toList]

def GITHUB_TOKEN_PREFIXES : List String :=
  ["ghp_", "gho_", "ghu_", "ghs_", "ghr_", "github_pat_"]

/-- `\b(?:..)[A-Za-z0-9_]{20,}\b` with the token prefixes. -/
def GITHUB_TOKEN_RE (isAlnum : Char → Bool) : Pattern Char :=
  sequence [.wordBoundary (isWord isAlnum),
    .choice (GITHUB_TOKEN_PREFIXES.map fun pre => .text pre.toList),
    .many (.set isAsciiWord) 20 none, .wordBoundary (isWord isAlnum)]

def AWS_ACCESS_KEY_PREFIXES : List String := ["AKIA", "ASIA"]

/-- `\b(?:..)[0-9A-Z]{16}\b` with the key prefixes. -/
def AWS_ACCESS_KEY_RE (isAlnum : Char → Bool) : Pattern Char :=
  sequence [.wordBoundary (isWord isAlnum),
    .choice (AWS_ACCESS_KEY_PREFIXES.map fun pre => .text pre.toList),
    .times (.set fun c => c.isDigit || c.isUpper) 16, .wordBoundary (isWord isAlnum)]

/-- `(?i)\b(?:aws[_-]?(?:access[_-]?key[_-]?id|secret[_-]?access[_-]?key))\b`, an assignment
and `[A-Za-z0-9/+=]{16,}`. -/
def AWS_ASSIGNMENT_RE (isAlnum : Char → Bool) : Pattern Char :=
  sequence [.wordBoundary (isWord isAlnum), textIgnoringCase "aws".toList, optionalJoint,
    .alt
      (sequence [textIgnoringCase "access".toList, optionalJoint, textIgnoringCase "key".toList,
        optionalJoint, textIgnoringCase "id".toList])
      (sequence [textIgnoringCase "secret".toList, optionalJoint,
        textIgnoringCase "access".toList, optionalJoint, textIgnoringCase "key".toList]),
    .wordBoundary (isWord isAlnum), assignment,
    .many (.set fun c => c.isAlphanum || c == '/' || c == '+' || c == '=' ||
      asciiFold.any (·.1 == c)) 16 none]

/-- `(?i)\b(?:password|passwd|secret|token|api[_-]?key)\b`, an assignment and
``[^\s'\"`]{8,}``. -/
def SECRET_ASSIGNMENT_RE (isAlnum : Char → Bool) : Pattern Char :=
  sequence [.wordBoundary (isWord isAlnum),
    .choice [textIgnoringCase "password".toList, textIgnoringCase "passwd".toList,
      textIgnoringCase "secret".toList, textIgnoringCase "token".toList,
      sequence [textIgnoringCase "api".toList, optionalJoint, textIgnoringCase "key".toList]],
    .wordBoundary (isWord isAlnum), assignment,
    .many (.set fun c => !(isSpace c || c == '\x27' || c == '\x22' || c == '\x60')) 8 none]

def POSIX_ROOT_NAMES : List String :=
  ["bin", "boot", "data", "etc", "home", "lib", "lib32", "lib64", "media", "mnt", "opt", "proc",
    "project", "projects", "repo", "repos", "root", "run", "sbin", "src", "srv", "sys", "tmp",
    "usr", "var", "work", "workspace", "workspaces", "Users"]

/-- `(?<![A-Za-z0-9_])/(?:..)(?:/|$)` with the root names. -/
def POSIX_ABSOLUTE_RE : Pattern Char :=
  sequence [.notBehind isAsciiWord, .set (· == '/'),
    .choice (POSIX_ROOT_NAMES.map fun name => .text name.toList),
    .alt (.set (· == '/')) (.dollar '\n')]

/-- `(?<![A-Za-z0-9_/:.<])/(?!/)[A-Za-z0-9_.-]+/[A-Za-z0-9_.-]+(?:/[A-Za-z0-9_.-]+)*` -/
def POSIX_MULTI_SEGMENT_RE : Pattern Char :=
  sequence [.notBehind fun c => isAsciiWord c || c == '/' || c == ':' || c == '.' || c == '<',
    .set (· == '/'), .notAhead (· == '/'), .plus (.set isSegment), .set (· == '/'),
    .plus (.set isSegment), .star (.seq (.set (· == '/')) (.plus (.set isSegment)))]

/-- `[\\/]` -/
def isSlash (c : Char) : Bool := c == '\\' || c == '/'

/-- `(?<![A-Za-z0-9_])[A-Za-z]:[\\/]` -/
def WINDOWS_ABSOLUTE_RE : Pattern Char :=
  sequence [.notBehind isAsciiWord, .set Char.isAlpha, .set (· == ':'), .set isSlash]

/-- `(?<![A-Za-z0-9_])\\\\[A-Za-z0-9_.-]+[\\/]` -/
def UNC_ABSOLUTE_RE : Pattern Char :=
  sequence [.notBehind isAsciiWord, .set (· == '\\'), .set (· == '\\'), .plus (.set isSegment),
    .set isSlash]

end RealityCore.SourceScan
