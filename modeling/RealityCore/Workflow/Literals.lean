import RealityCore.Workflow.Reviewed

/-!
# Reading off written texts and trees

The characters of a string literal are read off once, literal by literal, before a property of
the texts is computed. The lemmas follow the functions with which the trees are written.
-/

namespace RealityCore.Workflow

open Python (Str Dict unlines)

/-- A property is shown of what a value is read as. -/
theorem of_read {α : Type*} (P : α → Prop) {value read : α} (hread : value = read) (h : P read) :
    P value :=
  hread ▸ h

/-- A literal in a list of texts. -/
theorem texts_cons {text : Str} {rest : List String} {texts : List Str}
    (h : rest.map String.toList = texts) :
    (String.ofList text :: rest).map String.toList = text :: texts := by
  rw [List.map_cons, String.toList_ofList, h]

/-- A text in two literals. -/
theorem texts_cons_append {front back : Str} {rest : List String} {texts : List Str}
    (h : rest.map String.toList = texts) :
    ((String.ofList front ++ String.ofList back) :: rest).map String.toList =
      (front ++ back) :: texts := by
  rw [List.map_cons, String.toList_append, String.toList_ofList, String.toList_ofList, h]

/-- A string value. -/
theorem str_ofList (text : Str) : str (String.ofList text) = .scalar (.str text) := by
  rw [str, String.toList_ofList]

/-- The empty dictionary. -/
theorem dict_nil : dict [] = .map [] := rfl

/-- An entry of a dictionary. -/
theorem dict_cons {key : Str} {value read : Value} {rest : List (String × Value)}
    {entries : Dict Str Value} (hvalue : value = read) (hrest : dict rest = .map entries) :
    dict ((String.ofList key, value) :: rest) = .map ((key, read) :: entries) := by
  rw [dict] at hrest ⊢
  rw [List.map_cons, Value.map.inj hrest, String.toList_ofList, hvalue]

/-- An item of a list. -/
theorem list_cons {item read : Value} {items rest : List Value} (hitem : item = read)
    (hrest : Value.list items = .list rest) :
    Value.list (item :: items) = .list (read :: rest) := by
  rw [hitem, Value.list.inj hrest]

/-- A step that runs some commands. -/
theorem runStep_ofList {name : Str} {commands : List String} {texts : List Str}
    (h : commands.map String.toList = texts) :
    runStep (String.ofList name) commands = .map [(['n', 'a', 'm', 'e'], .scalar (.str name)),
      (['r', 'u', 'n'], .scalar (.str (unlines texts)))] := by
  rw [runStep, h]
  exact dict_cons (str_ofList name) (dict_cons rfl rfl)

end RealityCore.Workflow
