import RealityCore.Workflow.Parser

/-!
# The fuel of the parser

Each function of the parser leaves a last stretch of its lines, and reading a line takes two units
of the fuel at most. So with the fuel that `parse` supplies the only failure is a rejection.
-/

namespace RealityCore.Workflow

open Outcome (bind_eq_ok_iff bind_eq_error_iff)
open Python (Str Dict)

/-- A run fails by a rejection only. -/
def OnlyRejects {α : Type} (r : Result α) : Prop :=
  ∀ e, r = .error e → ∃ message, e = .workflowError message

/-- A run that returns does not fail. -/
theorem onlyRejects_ok {α : Type} (a : α) : OnlyRejects (.ok a : Result α) := nofun

/-- A rejection is one. -/
theorem onlyRejects_reject {α : Type} (message : String) :
    OnlyRejects (reject message : Result α) := by
  intro e he
  exact ⟨_, (Except.error.inj he).symm⟩

/-- A rejection that names a key is one. -/
theorem onlyRejects_rejectKey {α : Type} (problem : String) (key : Str) :
    OnlyRejects (rejectKey problem key : Result α) := by
  intro e he
  exact ⟨_, (Except.error.inj he).symm⟩

/-- A choice between two runs. -/
theorem OnlyRejects.ite {α : Type} {c : Prop} [Decidable c] {r r' : Result α}
    (h : OnlyRejects r) (h' : OnlyRejects r') : OnlyRejects (if c then r else r') := by
  by_cases hc : c
  · rwa [if_pos hc]
  · rwa [if_neg hc]

/-- A sequence of two runs. -/
theorem OnlyRejects.bind {α β : Type} {r : Result α} {f : α → Result β} (h : OnlyRejects r)
    (hf : ∀ a, OnlyRejects (f a)) : OnlyRejects (r >>= f) := by
  intro e he
  rcases bind_eq_error_iff.mp he with he | ⟨a, -, he⟩
  · exact h e he
  · exact hf a e he

/-- A scalar is read or rejected. -/
theorem onlyRejects_scalar (value : Str) : OnlyRejects (scalar value) := by
  unfold scalar
  refine .ite (onlyRejects_ok _) (.ite (onlyRejects_ok _) (.ite (onlyRejects_ok _) ?_))
  exact .ite (onlyRejects_reject _) (.ite (onlyRejects_reject _) (onlyRejects_ok _))

/-- A mapping line is split or rejected. -/
theorem onlyRejects_splitMapping (line : Str) : OnlyRejects (splitMapping line) := by
  unfold splitMapping
  exact .ite (onlyRejects_reject _) (.ite (onlyRejects_reject _) (onlyRejects_ok _))

/-- Further entries are added to a list item or rejected. -/
theorem onlyRejects_addExtra (item extra : Dict Str Value) : OnlyRejects (addExtra item extra) := by
  induction extra generalizing item with
  | nil => exact onlyRejects_ok item
  | cons entry extra ih =>
    obtain ⟨key, value⟩ := entry
    rw [addExtra]
    exact .ite (onlyRejects_rejectKey _ key) (ih (item.set key value))

/-- A raw line is read or rejected. -/
theorem onlyRejects_readLine (number : ℕ) (raw : Str) : OnlyRejects (readLine number raw) := by
  have hreject (problem : String) :
      OnlyRejects (rejectLine number problem : Result (Option Line)) := by
    intro e he
    exact ⟨_, (Except.error.inj he).symm⟩
  unfold readLine
  refine .ite (hreject _) (.ite (hreject _) (.ite (onlyRejects_ok _) (.ite (hreject _) ?_)))
  exact .ite (onlyRejects_reject _) (.ite (onlyRejects_reject _) (onlyRejects_ok _))

/-- A loop whose rounds fail by a rejection only does so too. -/
theorem OnlyRejects.mapM {α β : Type} {f : α → Result β} {items : List α}
    (h : ∀ a, OnlyRejects (f a)) : OnlyRejects (items.mapM f) := by
  induction items with
  | nil => exact onlyRejects_ok []
  | cons item items ih =>
    rw [List.mapM_cons]
    exact (h item).bind fun b => ih.bind fun bs => onlyRejects_ok (b :: bs)

/-- The parser object is built from a text, or the text is rejected. -/
theorem onlyRejects_init (text : Str) : OnlyRejects (Parser.init text) := by
  unfold Parser.init
  refine .ite (onlyRejects_reject _) (.ite (onlyRejects_reject _) ?_)
  refine .bind (.mapM fun item => onlyRejects_readLine item.2 item.1) fun lines => ?_
  split
  · exact onlyRejects_reject _
  · exact onlyRejects_ok _

/-- A run that leaves a last stretch of its lines, and that fails by a rejection only when it has
enough fuel. -/
structure Orderly {α : Type} (enough : Prop) (lines : List Line)
    (r : Result (α × List Line)) : Prop where
  suffix : ∀ a rest, r = .ok (a, rest) → rest <:+ lines
  rejects : enough → OnlyRejects r

namespace Orderly

variable {α β : Type} {enough enough' : Prop} {lines lines' : List Line}

/-- A run that returns with a last stretch of the lines. -/
theorem ok {rest : List Line} (a : α) (h : rest <:+ lines) : Orderly enough lines (.ok (a, rest)) :=
  ⟨fun _ _ heq => by
    obtain ⟨-, rfl⟩ := Prod.mk.inj (Except.ok.inj heq)
    exact h, fun _ => onlyRejects_ok _⟩

/-- A run that is rejected. -/
theorem reject (message : String) :
    Orderly enough lines (Workflow.reject message : Result (α × List Line)) :=
  ⟨nofun, fun _ => onlyRejects_reject message⟩

/-- A run of fewer lines, with more fuel, is one of all of them. -/
theorem mono {r : Result (α × List Line)} (h : Orderly enough lines r) (hlines : lines <:+ lines')
    (henough : enough' → enough) : Orderly enough' lines' r :=
  ⟨fun a rest heq => (h.suffix a rest heq).trans hlines, fun he => h.rejects (henough he)⟩

/-- A choice between two runs. -/
theorem ite {c : Prop} [Decidable c] {r r' : Result (α × List Line)}
    (h : c → Orderly enough lines r)
    (h' : ¬c → Orderly enough lines r') : Orderly enough lines (if c then r else r') := by
  by_cases hc : c
  · rw [if_pos hc]
    exact h hc
  · rw [if_neg hc]
    exact h' hc

/-- A run that goes on with what a step without lines returns. -/
theorem bind {r : Result α} {f : α → Result (β × List Line)} (h : OnlyRejects r)
    (hf : ∀ a, Orderly enough lines (f a)) : Orderly enough lines (r >>= f) := by
  refine ⟨fun b rest heq => ?_, fun he => h.bind fun a => (hf a).rejects he⟩
  obtain ⟨a, -, heq⟩ := bind_eq_ok_iff.mp heq
  exact (hf a).suffix b rest heq

/-- A run that goes on with the lines that another one leaves. -/
theorem andThen {r : Result (α × List Line)} {f : α × List Line → Result (β × List Line)}
    (h : Orderly enough lines r)
    (hf : ∀ a rest, rest <:+ lines → Orderly enough rest (f (a, rest))) :
    Orderly enough lines (r >>= f) := by
  refine ⟨fun b rest heq => ?_, fun he e heq => ?_⟩
  · obtain ⟨⟨a, between⟩, hr, heq⟩ := bind_eq_ok_iff.mp heq
    have hbetween := h.suffix a between hr
    exact ((hf a between hbetween).suffix b rest heq).trans hbetween
  · rcases bind_eq_error_iff.mp heq with heq | ⟨⟨a, between⟩, hr, heq⟩
    · exact h.rejects he e heq
    · exact (hf a between (h.suffix a between hr)).rejects he e heq

/-- A run whose value is replaced. -/
theorem map {r : Result (α × List Line)} (h : Orderly enough lines r) (g : α → β) :
    Orderly enough lines (do
      let (a, rest) ← r
      .ok (g a, rest)) :=
  h.andThen fun a rest _ => ok (g a) (List.suffix_refl rest)

end Orderly

/-! ## The helpers -/

section Helpers

variable {enough : Prop} {lines : List Line}
  {readBlock : List Line → ℕ → Result (Value × List Line)}

/-- The lines of a block scalar. -/
theorem orderly_blockLines (indent : ℕ) : Orderly enough lines (blockLines indent lines) := by
  induction lines with
  | nil => exact .ok [] (List.suffix_refl [])
  | cons line lines ih =>
    rw [blockLines]
    refine .ite (fun _ => .ite (fun _ => .reject _) fun _ => ?_) fun _ =>
      .ok [] (List.suffix_refl _)
    exact (ih.map _).mono (List.suffix_cons line lines) id

/-- The value of a key that opens no block scalar. -/
theorem orderly_keyValue (hblock : ∀ indent, Orderly enough lines (readBlock lines indent))
    (value : Str) (indent : ℕ) : Orderly enough lines (keyValue readBlock value lines indent) := by
  unfold keyValue
  refine .ite (fun _ => .bind (onlyRejects_scalar value) fun scalarValue =>
    .ok scalarValue (List.suffix_refl lines)) fun _ => ?_
  cases lines with
  | nil => exact .ok _ (List.suffix_refl [])
  | cons line rest => exact .ite (fun _ => hblock line.indent) fun _ => .ok _ (List.suffix_refl _)

/-- The value of a key. -/
theorem orderly_entryValue (hblock : ∀ indent, Orderly enough lines (readBlock lines indent))
    (value : Str) (indent : ℕ) :
    Orderly enough lines (entryValue readBlock value lines indent) := by
  rw [entryValue]
  refine .ite (fun _ => .ite (fun _ => .reject _) fun _ => ?_) fun _ =>
    orderly_keyValue hblock value indent
  exact (orderly_blockLines indent).map fun contents => Value.scalar (.str (blockString contents))

/-- The block of a list item. -/
theorem orderly_itemBlock (hblock : ∀ indent, Orderly enough lines (readBlock lines indent))
    (indent : ℕ) : Orderly enough lines (itemBlock readBlock lines indent) := by
  unfold itemBlock
  cases lines with
  | nil => exact .reject _
  | cons line rest => exact .ite (fun _ => .reject _) fun _ => hblock line.indent

/-- The further entries of a list item. -/
theorem orderly_extraEntries {readMap : List Line → ℕ → Result (Dict Str Value × List Line)}
    (hmap : ∀ indent, Orderly enough lines (readMap lines indent)) (indent : ℕ) :
    Orderly enough lines (extraEntries readMap lines indent) := by
  unfold extraEntries
  cases lines with
  | nil => exact .ok [] (List.suffix_refl [])
  | cons line rest => exact .ite (fun _ => hmap line.indent) fun _ => .ok [] (List.suffix_refl _)

end Helpers

/-! ## The three functions -/

/-- A block is read with two units of the fuel for each line and two more. -/
def OrderlyBlock (fuel : ℕ) : Prop :=
  ∀ lines indent, Orderly (2 * lines.length + 2 ≤ fuel) lines (block fuel lines indent)

/-- The entries of a dictionary are read with two units of the fuel for each line and one more. -/
def OrderlyMap (fuel : ℕ) : Prop :=
  ∀ lines indent result, Orderly (2 * lines.length + 1 ≤ fuel) lines (map fuel lines indent result)

/-- The items of a list are read with two units of the fuel for each line and one more. -/
def OrderlyList (fuel : ℕ) : Prop :=
  ∀ lines indent result, Orderly (2 * lines.length + 1 ≤ fuel) lines (list fuel lines indent result)

/-- A run without fuel needs some. -/
theorem orderly_outOfFuel {α : Type} (lines : List Line) (n : ℕ) :
    Orderly (n + 1 ≤ 0) lines (.error .outOfFuel : Result (α × List Line)) :=
  ⟨nofun, fun h => absurd h (Nat.not_succ_le_zero n)⟩

/-- The line that a round reads pays for a block on the lines behind it. -/
theorem Orderly.afterLine {α : Type} {fuel : ℕ} {rest : List Line} {r : Result (α × List Line)}
    (line : Line) (h : Orderly (2 * rest.length + 2 ≤ fuel) rest r) :
    Orderly (2 * (line :: rest).length + 1 ≤ fuel + 1) (line :: rest) r :=
  h.mono (List.suffix_cons line rest) (by rw [List.length_cons]; omega)

/-- A block takes one unit before its entries or items. -/
theorem orderlyBlock_succ {fuel : ℕ} (hmap : OrderlyMap fuel) (hlist : OrderlyList fuel) :
    OrderlyBlock (fuel + 1) := by
  intro lines indent
  cases lines with
  | nil =>
    rw [block]
    exact .reject _
  | cons line rest =>
    rw [block]
    refine .ite (fun _ => .reject _) fun _ => .ite (fun _ => ?_) fun _ => ?_
    · exact ((hlist (line :: rest) indent []).map Value.list).mono (List.suffix_refl _) (by omega)
    · exact ((hmap (line :: rest) indent []).map Value.map).mono (List.suffix_refl _) (by omega)

/-- An entry takes one unit and its line, which pays for a block below. -/
theorem orderlyMap_succ {fuel : ℕ} (hblock : OrderlyBlock fuel) (hmap : OrderlyMap fuel) :
    OrderlyMap (fuel + 1) := by
  intro lines indent result
  cases lines with
  | nil =>
    rw [map]
    exact .ok result (List.suffix_refl [])
  | cons line rest =>
    rw [map]
    refine .ite (fun _ => .ok result (List.suffix_refl _)) fun _ =>
      .bind (onlyRejects_splitMapping _) fun split => ?_
    refine .ite (fun _ => ⟨nofun, fun _ => onlyRejects_rejectKey _ _⟩) fun _ => ?_
    refine .afterLine line ?_
    refine (orderly_entryValue (hblock rest) split.2 indent).andThen fun child left hleft => ?_
    have hlength := hleft.length_le
    exact (hmap left indent _).mono (List.suffix_refl left) (by omega)

/-- An item takes one unit and its line, which pays for a block and further entries below. -/
theorem orderlyList_succ {fuel : ℕ} (hblock : OrderlyBlock fuel) (hmap : OrderlyMap fuel)
    (hlist : OrderlyList fuel) : OrderlyList (fuel + 1) := by
  intro lines indent result
  cases lines with
  | nil =>
    rw [list]
    exact .ok result (List.suffix_refl [])
  | cons line rest =>
    rw [list]
    refine .ite (fun _ => .ok result (List.suffix_refl _)) fun _ => ?_
    refine .afterLine line ?_
    refine .ite (fun _ => ?_) fun _ => .bind (onlyRejects_splitMapping _) fun split => ?_
    · refine (orderly_itemBlock (hblock rest) indent).andThen fun item left hleft => ?_
      have hlength := hleft.length_le
      exact (hlist left indent _).mono (List.suffix_refl left) (by omega)
    refine .ite (fun _ => .reject _) fun _ => .ite (fun _ => .reject _) fun _ => ?_
    refine (orderly_keyValue (hblock rest) split.2 indent).andThen fun child left hleft => ?_
    have hlength := hleft.length_le
    refine Orderly.andThen (orderly_extraEntries (fun below =>
      (hmap left below []).mono (List.suffix_refl left) (by omega)) indent)
        fun extra last hlast => ?_
    have hlength' := hlast.length_le
    refine .bind (onlyRejects_addExtra _ extra) fun item => ?_
    exact (hlist last indent _).mono (List.suffix_refl last) (by omega)

/-- At every amount of fuel the three functions are orderly. -/
theorem orderly_functions (fuel : ℕ) : OrderlyBlock fuel ∧ OrderlyMap fuel ∧ OrderlyList fuel := by
  induction fuel with
  | zero =>
    refine ⟨fun lines indent => ?_, fun lines indent result => ?_, fun lines indent result => ?_⟩
    · rw [block]
      exact orderly_outOfFuel lines _
    · rw [map]
      exact orderly_outOfFuel lines _
    · rw [list]
      exact orderly_outOfFuel lines _
  | succ fuel ih =>
    obtain ⟨hblock, hmap, hlist⟩ := ih
    exact ⟨orderlyBlock_succ hmap hlist, orderlyMap_succ hblock hmap,
      orderlyList_succ hblock hmap hlist⟩

/-- Parsing the lines of a parser object returns a value or rejects them. -/
theorem Parser.onlyRejects_parse (p : Parser) : OnlyRejects p.parse := by
  refine ((orderly_functions _).1 p.lines _).rejects (le_refl _) |>.bind fun result => ?_
  exact .ite (onlyRejects_reject _) (onlyRejects_ok _)

end RealityCore.Workflow
