import RealityCore.Library.JsonDumps

/-!
# The text of a Python value

`str` and `repr` of what `json.loads` makes of a document. A text is written between quotes, with
escapes for what is not printable.
-/

namespace Python

/-- A code point in the `repr` of a text with a quote: the parameter is `str.isprintable`, consulted
beyond ASCII. -/
def reprPoint (isPrintable : CodePoint → Bool) (quote : Char) (p : CodePoint) : Text :=
  if p.val = quote.toNat ∨ p.val = '\\'.toNat then [CodePoint.ofChar '\\', p]
  else if p.val = '\t'.toNat then points "\\t"
  else if p.val = '\n'.toNat then points "\\n"
  else if p.val = '\r'.toNat then points "\\r"
  else if (0x20 ≤ p.val ∧ p.val < 0x7f) ∨ (0x80 ≤ p.val ∧ isPrintable p = true) then [p]
  else
    let escape :=
      if p.val ≤ 0xff then 'x' :: hexDigits 2 p.val
      else if p.val ≤ 0xffff then 'u' :: hexDigits 4 p.val
      else 'U' :: hexDigits 8 p.val
    ('\\' :: escape).map CodePoint.ofChar

/-- `repr(text)` -/
def reprText (isPrintable : CodePoint → Bool) (text : Text) : Text :=
  let quote := if CodePoint.ofChar '\'' ∈ text ∧ CodePoint.ofChar '"' ∉ text then '"' else '\''
  [CodePoint.ofChar quote] ++ text.flatMap (reprPoint isPrintable quote) ++ [CodePoint.ofChar quote]

/-- `repr(value)` of a float -/
def PyFloat.text (value : PyFloat) : Text :=
  match value.value with
  | .finite _ => value.repr.map CodePoint.ofChar
  | .infinite negative => if negative then points "-inf" else points "inf"
  | .nan => points "nan"

namespace Json

mutual

/-- `repr(value)` -/
def repr (isPrintable : CodePoint → Bool) : Json → Text
  | .null => points "None"
  | .bool value => if value then points "True" else points "False"
  | .int value => points (toString value)
  | .float value => value.text
  | .str value => reprText isPrintable value
  | .list items =>
    points "[" ++ List.intercalate (points ", ") (reprItems isPrintable items) ++ points "]"
  | .object members =>
    points "\x7b" ++ List.intercalate (points ", ") (reprMembers isPrintable members) ++
      points "\x7d"

/-- The items of a list in its `repr`. -/
def reprItems (isPrintable : CodePoint → Bool) : List Json → List Text
  | [] => []
  | value :: rest => repr isPrintable value :: reprItems isPrintable rest

/-- The members of a dictionary in its `repr`. -/
def reprMembers (isPrintable : CodePoint → Bool) : List (Text × Json) → List Text
  | [] => []
  | (key, value) :: rest =>
    (reprText isPrintable key ++ points ": " ++ repr isPrintable value) ::
      reprMembers isPrintable rest

end

/-- `str(value)` -/
def toText (isPrintable : CodePoint → Bool) : Json → Text
  | .str value => value
  | value => repr isPrintable value

end Json

end Python
