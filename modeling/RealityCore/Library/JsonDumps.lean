import RealityCore.Library.Json
import Mathlib.Data.List.Lex
import Mathlib.Data.List.Sort

/-!
# Writing JSON documents

`json.dumps` with sorted keys and its defaults otherwise: separators with a space, and escapes
for all characters but the printing ASCII ones. With an indentation each item is on a line of its
own, and the keys are in the order of the dictionary.
-/

namespace Python

/-- A lower-case hexadecimal digit. -/
def hexDigit (n : ℕ) : Char := Nat.digitChar (n % 16)

/-- The lower-case hexadecimal digits of a number, as many as asked for. -/
def hexDigits : ℕ → ℕ → Str
  | 0, _ => []
  | count + 1, n => hexDigits count (n / 16) ++ [hexDigit n]

/-- `\uXXXX` -/
def escapeUnit (n : ℕ) : Str :=
  ['\\', 'u', hexDigit (n / 4096), hexDigit (n / 256), hexDigit (n / 16), hexDigit n]

/-- The escape of a code point, a pair of surrogates beyond the first plane. -/
def escapePoint (n : ℕ) : Str :=
  if n < 0x10000 then escapeUnit n
  else
    escapeUnit (0xd800 + (n - 0x10000) / 0x400) ++ escapeUnit (0xdc00 + (n - 0x10000) % 0x400)

/-- The escapes of one letter. -/
def shortEscapes : List (ℕ × Str) :=
  [(0x22, ['\\', '"']), (0x5c, ['\\', '\\']), (0x0a, ['\\', 'n']), (0x0d, ['\\', 'r']),
    (0x09, ['\\', 't']), (0x0c, ['\\', 'f']), (0x08, ['\\', 'b'])]

/-- A code point in a JSON string. -/
def writePoint (p : CodePoint) : Str :=
  match shortEscapes.lookup p.val with
  | some escape => escape
  | none => if 0x20 ≤ p.val ∧ p.val ≤ 0x7e then [Char.ofNat p.val] else escapePoint p.val

/-- A JSON string. -/
def writeText (text : Text) : Str := ['"'] ++ text.flatMap writePoint ++ ['"']

namespace Json

mutual

/-- `json.dumps(value, sort_keys=True)` -/
def dumps : Json → Str
  | .null => "null".toList
  | .bool value => if value then "true".toList else "false".toList
  | .int value => (toString value).toList
  | .float value => value.repr
  | .str value => writeText value
  | .list items => "[".toList ++ join ", ".toList (dumpItems items) ++ "]".toList
  | .object members =>
    "\x7b".toList ++
      join ", ".toList
        (((dumpMembers members).insertionSort fun member next => member.1 ≤ next.1).map
          fun member => writeText member.1 ++ ": ".toList ++ member.2) ++ "\x7d".toList

/-- The members with their values written. -/
def dumpMembers : List (Text × Json) → List (Text × Str)
  | [] => []
  | (key, value) :: rest => (key, dumps value) :: dumpMembers rest

/-- The items written. -/
def dumpItems : List Json → List Str
  | [] => []
  | value :: rest => dumps value :: dumpItems rest

end

mutual

/-- `json.dumps(value)`, with the keys in the order of the dictionary. -/
def dumpsInOrder : Json → Str
  | .list items => "[".toList ++ join ", ".toList (itemsInOrder items) ++ "]".toList
  | .object members =>
    "\x7b".toList ++ join ", ".toList (membersInOrder members) ++ "\x7d".toList
  | value => dumps value

/-- The items in their order. -/
def itemsInOrder : List Json → List Str
  | [] => []
  | value :: rest => dumpsInOrder value :: itemsInOrder rest

/-- The members in their order. -/
def membersInOrder : List (Text × Json) → List Str
  | [] => []
  | (key, value) :: rest =>
    (writeText key ++ ": ".toList ++ dumpsInOrder value) :: membersInOrder rest

end

/-- A line break and the indentation of a level. -/
def breakLine (indent level : ℕ) : Str := '\n' :: List.replicate (indent * level) ' '

/-- The items of a value between its brackets. -/
def writeItems (indent level : ℕ) (opening closing : String) (items : List Str) : Str :=
  if items = [] then opening.toList ++ closing.toList
  else
    opening.toList ++ breakLine indent (level + 1) ++
      join (',' :: breakLine indent (level + 1)) items ++ breakLine indent level ++ closing.toList

mutual

/-- `json.dumps(value, indent=indent)`, at a level. -/
def dumpsIndent (indent level : ℕ) : Json → Str
  | .list items => writeItems indent level "[" "]" (itemsIndent indent (level + 1) items)
  | .object members =>
    writeItems indent level "\x7b" "\x7d" (membersIndent indent (level + 1) members)
  | value => dumps value

/-- The items of a list, at a level. -/
def itemsIndent (indent level : ℕ) : List Json → List Str
  | [] => []
  | value :: rest => dumpsIndent indent level value :: itemsIndent indent level rest

/-- The members of a dictionary, at a level. -/
def membersIndent (indent level : ℕ) : List (Text × Json) → List Str
  | [] => []
  | (key, value) :: rest =>
    (writeText key ++ ": ".toList ++ dumpsIndent indent level value) ::
      membersIndent indent level rest

end

end Json

/-! ## Sizes and characters -/

/-- A hexadecimal digit is an ASCII character. -/
theorem isPlain_hexDigit (n : ℕ) : 0 < (hexDigit n).toNat ∧ (hexDigit n).toNat < 128 := by
  have hall : ∀ k < 16, 0 < (Nat.digitChar k).toNat ∧ (Nat.digitChar k).toNat < 128 := by decide
  exact hall (n % 16) (Nat.mod_lt n (by decide))

/-- An escape is plain. -/
theorem isPlain_escapeUnit (n : ℕ) : IsPlain (escapeUnit n) := by
  simp only [IsPlain, escapeUnit, List.forall_mem_cons, isPlain_hexDigit,
    List.not_mem_nil, false_implies, implies_true, and_true]
  decide

/-- A code point is written as a few ASCII characters. -/
theorem writePoint_spec (p : CodePoint) : IsPlain (writePoint p) ∧ (writePoint p).length ≤ 12 := by
  rw [writePoint]
  split
  · next escape h =>
    have hall : ∀ item ∈ shortEscapes, IsPlain item.2 ∧ item.2.length ≤ 12 := by decide
    exact hall (p.val, escape) (Dict.mem_of_get? h)
  · split
    · next h =>
      have hall : ∀ n < 127, 0x20 ≤ n →
          0 < (Char.ofNat n).toNat ∧ (Char.ofNat n).toNat < 128 := by decide
      refine ⟨List.forall_mem_singleton.mpr (hall p.val (Nat.lt_succ_of_le h.2) h.1), ?_⟩
      rw [List.length_singleton]
      decide
    · rw [escapePoint]
      split
      · exact ⟨isPlain_escapeUnit _, show 6 ≤ 12 by decide⟩
      · exact ⟨(isPlain_escapeUnit _).append (isPlain_escapeUnit _), Nat.le_refl 12⟩

/-- A JSON string is plain. -/
theorem isPlain_writeText (text : Text) : IsPlain (writeText text) := by
  have hquote : IsPlain ['"'] := by decide
  refine (hquote.append fun c hc => ?_).append hquote
  obtain ⟨p, -, hp⟩ := List.mem_flatMap.mp hc
  exact (writePoint_spec p).1 c hp

/-- A JSON string has at most as many characters for each code point. -/
theorem length_writeText_le (text : Text) : (writeText text).length ≤ 12 * text.length + 2 := by
  have hpoints : (text.flatMap writePoint).length ≤ 12 * text.length := by
    induction text with
    | nil => exact Nat.le_refl 0
    | cons p text ih =>
      rw [List.flatMap_cons, List.length_append, List.length_cons]
      have := (writePoint_spec p).2
      omega
  rw [writeText, List.length_append, List.length_append, List.length_singleton]
  omega

/-- Plain texts joined by a plain one are plain. -/
theorem isPlain_join {separator : Str} {items : List Str} (hseparator : IsPlain separator)
    (h : ∀ item ∈ items, IsPlain item) : IsPlain (join separator items) := by
  induction items with
  | nil => exact nofun
  | cons item items ih =>
    obtain ⟨hitem, hitems⟩ := List.forall_mem_cons.mp h
    cases items with
    | nil => rwa [join, List.intercalate_singleton]
    | cons next rest =>
      rw [join, List.intercalate_cons_cons]
      exact (hitem.append hseparator).append (ih hitems)

/-- Joined texts are as long as the longest of them for each, with a separator. -/
theorem length_join_le (separator : Str) {items : List Str} {bound : ℕ}
    (h : ∀ item ∈ items, item.length ≤ bound) :
    (join separator items).length ≤ items.length * (bound + separator.length) := by
  induction items with
  | nil => simp [join, List.intercalate]
  | cons item items ih =>
    obtain ⟨hitem, hitems⟩ := List.forall_mem_cons.mp h
    cases items with
    | nil =>
      rw [join, List.intercalate_singleton, List.length_singleton, Nat.one_mul]
      omega
    | cons next rest =>
      have hrest := ih hitems
      rw [join, List.intercalate_cons_cons, ← join, List.length_append, List.length_append,
        List.length_cons, Nat.succ_mul]
      omega

namespace Json

/-- There is a line for each member. -/
theorem length_membersIndent (indent level : ℕ) (members : List (Text × Json)) :
    (membersIndent indent level members).length = members.length := by
  induction members with
  | nil => rfl
  | cons member rest ih => rw [membersIndent, List.length_cons, ih, List.length_cons]

/-- Members with texts are written as the texts are. -/
theorem mem_membersIndent_zip {indent level : ℕ} {keys texts : List Text} {line : Str}
    (h : line ∈ membersIndent indent level (keys.zip (texts.map .str))) :
    ∃ key ∈ keys, ∃ text ∈ texts, line = writeText key ++ ": ".toList ++ writeText text := by
  induction keys generalizing texts with
  | nil => cases h
  | cons key keys ih =>
    cases texts with
    | nil => cases h
    | cons text texts =>
      rw [List.map_cons, List.zip_cons_cons, membersIndent] at h
      rcases List.mem_cons.mp h with rfl | hrest
      · exact ⟨key, .head _, text, .head _, rfl⟩
      · obtain ⟨key', hkey, text', htext, rfl⟩ := ih hrest
        exact ⟨key', .tail _ hkey, text', .tail _ htext, rfl⟩

/-- A line break with its indentation is plain. -/
theorem isPlain_breakLine (indent level : ℕ) : IsPlain (breakLine indent level) := by
  intro c hc
  rcases List.mem_cons.mp hc with rfl | hspace
  · decide
  · rw [List.eq_of_mem_replicate hspace]
    decide

/-- Plain items are written as a plain text. -/
theorem isPlain_writeItems {indent level : ℕ} {opening closing : String} {items : List Str}
    (hopening : IsPlain opening.toList) (hclosing : IsPlain closing.toList)
    (h : ∀ item ∈ items, IsPlain item) :
    IsPlain (writeItems indent level opening closing items) := by
  have hcomma : IsPlain (',' :: breakLine indent (level + 1)) :=
    List.forall_mem_cons.mpr ⟨by decide, isPlain_breakLine _ _⟩
  rw [writeItems]
  split
  · exact hopening.append hclosing
  · exact (((hopening.append (isPlain_breakLine _ _)).append (isPlain_join hcomma h)).append
      (isPlain_breakLine _ _)).append hclosing

/-- Items are written in lines as long as the longest of them. -/
theorem length_writeItems_le (indent level : ℕ) (opening closing : String) {bound : ℕ}
    {items : List Str} (h : ∀ item ∈ items, item.length ≤ bound) :
    (writeItems indent level opening closing items).length ≤
      opening.toList.length + closing.toList.length +
        (items.length + 2) * (bound + 2 + indent * (level + 1)) := by
  have hbreak : ∀ level, (breakLine indent level).length = 1 + indent * level := by
    intro level
    rw [breakLine, List.length_cons, List.length_replicate, Nat.add_comm]
  have hjoin := length_join_le (',' :: breakLine indent (level + 1)) h
  have hlevel : indent * level ≤ indent * (level + 1) := Nat.mul_le_mul_left _ (Nat.le_succ level)
  rw [List.length_cons, hbreak, show bound + (1 + indent * (level + 1) + 1) =
    bound + 2 + indent * (level + 1) by omega] at hjoin
  rw [writeItems, Nat.add_mul]
  split
  · rw [List.length_append]
    omega
  · simp only [List.length_append, hbreak]
    omega

end Json

end Python
