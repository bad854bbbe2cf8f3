import Mathlib.Data.List.Lex
import Mathlib.Data.List.Sort
import RealityCore.Archive.Content
import RealityCore.Library.Glob

/-!
# The staged file that is hashed

The POM and the module of a snapshot have a timestamp in their names. The script that compares two
builds selects the only file with such a name.
-/

namespace RealityCore.Archive

open Python (PurePath Text glob isDigitPoint points)
open Regex (Pattern fullMatch)

/-- The extensions of the staged files. -/
inductive Extension where
  | pom
  | module
  deriving DecidableEq

/-- The extension in an f-string. -/
def Extension.format : Extension → String
  | pom => "pom"
  | module => "module"

/-- The extension as a text of code points. -/
def Extension.text (extension : Extension) : Text := points extension.format

/-- `reality-core-0\.1\.0-[0-9]{8}\.[0-9]{6}-[0-9]+\.{extension}` -/
def stagedName (extension : Extension) : Pattern Python.CodePoint :=
  .concat [.text (points "reality-core-0.1.0-"), .times (.set isDigitPoint) 8, .text (points "."),
    .times (.set isDigitPoint) 6, .text (points "-"), .plus (.set isDigitPoint),
    .text (points "." ++ extension.text)]

/-- `_staged_file(root, extension)` -/
def stagedFile (listing : PurePath → List Text) (root : PurePath) (extension : Extension) :
    Result PurePath :=
  let directory := root.join (points
    "build/staging/repository/io/github/yu1sh/reality/reality-core/0.1.0-SNAPSHOT")
  let candidates := ((glob listing directory
      (points "reality-core-0.1.0-*." ++ extension.text)).filter fun path =>
        fullMatch (stagedName extension) path.name).insertionSort (· ≤ ·)
  Outcome.only (.artifactError ("expected one timestamped staged " ++ extension.format ++
    " file").toList) candidates

end RealityCore.Archive
