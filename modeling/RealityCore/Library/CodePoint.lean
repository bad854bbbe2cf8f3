import RealityCore.Library.DateTime
import RealityCore.Library.PythonBytes

/-!
# Python text with surrogates

A `str` may hold surrogates, which JSON escapes can produce and which no encoding has. A text is
then a list of code points; without surrogates it is a text of characters.
-/

namespace Python

/-- A code point, surrogates included. -/
abbrev CodePoint := Fin 0x110000

/-- A Python `str`, as its list of code points. -/
abbrev Text := List CodePoint

instance lawfulBEqText : LawfulBEq Text := inferInstance

/-- Characters have code points. -/
theorem toNat_lt_codePoints (c : Char) : c.toNat < 0x110000 := by
  have hvalid : c.toNat.isValidChar := c.valid
  rcases hvalid with hlow | ⟨-, hhigh⟩
  · exact hlow.trans (by decide)
  · exact hhigh

/-- The code point of a character. -/
def CodePoint.ofChar (c : Char) : CodePoint := ⟨c.toNat, toNat_lt_codePoints c⟩

/-- The character at a code point, but for a surrogate. -/
def CodePoint.toChar? (p : CodePoint) : Option Char :=
  if p.val.isValidChar then some (Char.ofNat p.val) else none

/-- A text literal. -/
def points (text : String) : Text := text.toList.map CodePoint.ofChar

/-- The characters of a text without surrogates. -/
def toStr? (text : Text) : Option Str := text.mapM CodePoint.toChar?

/-- `text.encode("utf-8")`, with `none` for `UnicodeEncodeError`. -/
def encode? (text : Text) : Option Bytes := (toStr? text).map encodeUtf8

/-- A character is at its code point. -/
@[simp] theorem CodePoint.toChar?_ofChar (c : Char) : (CodePoint.ofChar c).toChar? = some c := by
  have hvalid : c.toNat.isValidChar := c.valid
  simp [CodePoint.toChar?, CodePoint.ofChar, hvalid]

/-- Different characters are at different code points. -/
theorem CodePoint.ofChar_injective : Function.Injective CodePoint.ofChar := fun c d hcd => by
  simpa using congrArg CodePoint.toChar? hcd

/-- A code point with a character is the one of this character. -/
theorem CodePoint.toChar?_eq_some_iff {p : CodePoint} {c : Char} :
    p.toChar? = some c ↔ p = CodePoint.ofChar c := by
  constructor
  · intro h
    rw [CodePoint.toChar?, Option.ite_none_right_eq_some] at h
    obtain ⟨hvalid, hchar⟩ := h
    apply Fin.ext
    rw [← Option.some.inj hchar, CodePoint.ofChar, Char.ofNat, dif_pos hvalid]
    rfl
  · rintro rfl
    exact CodePoint.toChar?_ofChar c

/-- Different literals are different texts. -/
@[simp] theorem points_inj {text other : String} : points text = points other ↔ text = other := by
  refine ⟨fun h => ?_, congrArg points⟩
  exact String.toList_inj.mp (List.map_injective_iff.mpr CodePoint.ofChar_injective h)

/-- The text with these characters. -/
def ofStr (text : Str) : Text := text.map CodePoint.ofChar

/-- Texts of different characters are different. -/
theorem ofStr_injective : Function.Injective ofStr :=
  List.map_injective_iff.mpr CodePoint.ofChar_injective

/-- Texts of characters one after the other are the text of all their characters. -/
theorem ofStr_append (a b : Str) : ofStr (a ++ b) = ofStr a ++ ofStr b := List.map_append

/-- The characters of a text are those that it is made of. -/
theorem toStr?_eq_some_iff {text : Text} {characters : Str} :
    toStr? text = some characters ↔ text = ofStr characters := by
  induction text generalizing characters with
  | nil => simp [toStr?, ofStr, eq_comm]
  | cons p text ih =>
    simp only [toStr?] at ih
    cases characters with
    | nil => simp [toStr?, ofStr, List.mapM_cons, Option.bind_eq_some_iff]
    | cons c characters =>
      simp [toStr?, ofStr, List.mapM_cons, Option.bind_eq_some_iff,
        CodePoint.toChar?_eq_some_iff, ih]

/-- The octets of a code point in the name of a file: a surrogate from `U+DC80` to `U+DCFF` stands
for an octet that is not UTF-8. -/
def fsencodePoint? (p : CodePoint) : Option Bytes :=
  match p.toChar? with
  | some c => some (String.utf8EncodeChar c)
  | none =>
    if 0xdc80 ≤ p.val ∧ p.val ≤ 0xdcff then some [UInt8.ofNat (p.val - 0xdc00)] else none

/-- `os.fsencode(text)`, with `none` for `UnicodeEncodeError`. -/
def fsencode? (text : Text) : Option Bytes := (text.mapM fsencodePoint?).map List.flatten

/-- A text without surrogates is encoded as UTF-8. -/
theorem fsencode?_ofStr (text : Str) : fsencode? (ofStr text) = some (encodeUtf8 text) := by
  have hmapM : (ofStr text).mapM fsencodePoint? = some (text.map String.utf8EncodeChar) := by
    induction text with
    | nil => rfl
    | cons c text ih =>
      rw [ofStr] at ih ⊢
      simp [List.mapM_cons, fsencodePoint?, ih]
  rw [fsencode?, hmapM, Option.map_some, encodeUtf8, List.flatMap_def]

/-- `[0-9]` -/
def isDigitPoint (p : CodePoint) : Bool := '0'.toNat ≤ p.val && p.val ≤ '9'.toNat

/-- `[A-Za-z0-9_]` -/
def isAsciiWordPoint (p : CodePoint) : Bool :=
  isDigitPoint p || ('A'.toNat ≤ p.val && p.val ≤ 'Z'.toNat) ||
    ('a'.toNat ≤ p.val && p.val ≤ 'z'.toNat) || p.val == '_'.toNat

/-- `\w`: the parameter is `str.isalnum`, consulted beyond ASCII. -/
def isWordPoint (isAlnum : CodePoint → Bool) (p : CodePoint) : Bool :=
  isAsciiWordPoint p || (128 ≤ p.val && isAlnum p)

/-- Code points as an alphabet for dates and times. -/
def textAlphabet (isAlnum : CodePoint → Bool) : DateTime.Alphabet CodePoint where
  is c p := p.val == c.toNat
  digit := isDigitPoint
  isWord := isWordPoint isAlnum
  isWord_two p h := by
    simp [isWordPoint, isAsciiWordPoint, isDigitPoint, eq_of_beq h]
  isWord_digit p h := by
    simp [isWordPoint, isAsciiWordPoint, h]
  not_isWord mark hmark p h := by
    have hval : p.val = mark.toNat := eq_of_beq h
    simp only [List.mem_cons, List.not_mem_nil, or_false] at hmark
    rcases hmark with rfl | rfl | rfl | rfl <;>
      simp [isWordPoint, isAsciiWordPoint, isDigitPoint, hval]

end Python
