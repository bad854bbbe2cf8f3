import RealityCore.Workflow.KeyLines
import RealityCore.Workflow.Render
import Mathlib.Data.List.Chain

/-!
# Canonical lines

The parser accepts the same tree on different lines: it takes any deeper indentation, a missing
space after the colon, a leading zero and three block indicators. Lines without these liberties
are the rendering of the tree they are parsed to.
-/

namespace RealityCore.Workflow

open Python (Str Dict isLineBreak rstrip splitLines partition NoLeadingZero)

/-- A text behind a key that is written in one way only. -/
def CanonicalRaw (raw : Str) : Prop :=
  raw ≠ "|-".toList ∧ raw ≠ "|+".toList ∧ (IsDigits raw → NoLeadingZero raw)

/-- The colon behind the key ends the line or is followed by a space and a canonical value. -/
def Line.CanonicalKey (line : Line) : Prop :=
  match partition line.keyText ':' with
  | (_, [], _) => True
  | (_, _, tail) => (tail = [] ∨ tail.head? = some ' ') ∧ CanonicalRaw (dropSpace tail)

/-- A line is at most two columns deeper than the line before it. -/
def Line.Step (line next : Line) : Prop := next.indent ≤ line.indent + 2

instance : DecidableRel Line.Step := fun _ _ => inferInstanceAs (Decidable (_ ≤ _))

instance : DecidablePred CanonicalRaw := fun _ => inferInstanceAs (Decidable (_ ∧ _ ∧ _))

instance : DecidablePred Line.CanonicalKey := fun line => by
  unfold Line.CanonicalKey
  split <;> infer_instance

mutual

/-- A value whose list items start with a scalar and whose block strings have a line. -/
def settled : Value → Bool
  | .map entries => entriesSettled entries
  | .list items => itemsSettled items
  | .scalar value => value != .str ['\n']

/-- Settled values of entries. -/
def entriesSettled : List (Str × Value) → Bool
  | [] => true
  | (_, value) :: rest => settled value && entriesSettled rest

/-- Settled items of a list. -/
def itemsSettled : List Value → Bool
  | [] => true
  | .map ((_, .scalar value) :: others) :: rest =>
    value != .str ['\n'] && (entriesSettled others && itemsSettled rest)
  | _ :: _ => false

end

/-- What stands behind the dash ends like the line. -/
theorem Line.rstrip_keyText {line : Line} (h : rstrip line.content = line.content) :
    rstrip line.keyText = line.keyText := by
  by_cases hitem : line.isItem = true
  · rw [Line.content_of_isItem hitem] at h
    exact Python.rstrip_tail (Python.rstrip_tail h)
  · rw [Line.keyText_of_not_isItem (by simpa using hitem), h]

/-- A canonical key line is its key, a colon and, behind a space, a canonical value if any. -/
theorem Line.CanonicalKey.keyText_eq {line : Line} (hcanonical : line.CanonicalKey)
    (htrimmed : rstrip line.content = line.content) {key raw : Str}
    (hsplit : splitMapping line.keyText = .ok (key, raw)) :
    CanonicalRaw raw ∧ line.keyText = key ++ ':' :: if raw = [] then [] else ' ' :: raw := by
  obtain ⟨tail, htext, hkey, rfl⟩ := splitMapping_eq_ok_iff.mp hsplit
  have hend := Line.rstrip_keyText htrimmed
  rw [Line.CanonicalKey, htext, Python.partition_append hkey.colon_notMem] at hcanonical
  obtain ⟨htail, hraw⟩ := hcanonical
  refine ⟨hraw, ?_⟩
  rw [htext] at hend ⊢
  rcases htail with rfl | hspace
  · rfl
  · obtain ⟨rest, rfl⟩ := List.head?_eq_some_iff.mp hspace
    cases rest with
    | nil =>
      rw [Python.rstrip_eq_self_iff] at hend
      have hlast := hend (by simp)
      simp at hlast
      exact absurd hlast (by decide)
    | cons c rest => rfl

/-- A line in canonical form, as an accepted text holds it. -/
structure Line.Exact (line : Line) : Prop where
  readable : line.Readable
  plain : line.Plain
  key : line.CanonicalKey

/-- What canonical lines are, for the lines of a segment. -/
def Rendered : Segment → List Line → Prop
  | .block indent value, lines => settled value → lines = renderValue indent value
  | .value raw indent value, lines => settled value → CanonicalRaw raw → '\n' ∉ raw →
      indent % 2 = 0 → (∀ line ∈ lines.head?, line.indent ≤ indent + 2) →
      raw = value.raw ∧ lines = renderValue (indent + 2) value
  | .entries indent entries, lines => entriesSettled entries → lines = renderEntries indent entries
  | .items indent items, lines => itemsSettled items → lines = renderItems indent items
  | .extra indent entries, lines => entriesSettled entries → indent % 2 = 0 →
      (∀ line ∈ lines.head?, line.indent ≤ indent + 2) →
      lines = renderEntries (indent + 2) entries

/-- A block string of at least one line is written as its lines. -/
theorem renderValue_blockString {indent : ℕ} {lines : List Line}
    (hlines : ∀ line ∈ lines, line.indent = indent) (hplain : ∀ line ∈ lines, line.Plain)
    (hsettled : settled (.scalar (.str (blockString (lines.map Line.content))))) :
    (Value.scalar (.str (blockString (lines.map Line.content)))).raw = "|".toList ∧
      lines = renderValue indent (.scalar (.str (blockString (lines.map Line.content)))) := by
  have hne : lines.map Line.content ≠ [] := by
    intro hnil
    rw [hnil] at hsettled
    exact absurd hsettled (by decide)
  have htext : (Scalar.str (blockString (lines.map Line.content))).IsText := by
    simp [Scalar.IsText, blockString]
  have hsplit : splitLines (blockString (lines.map Line.content)) = lines.map Line.content := by
    rw [blockString, Python.join_newline_append hne, Python.splitLines_unlines]
    exact List.forall_mem_map.mpr fun line hline => (hplain line hline).2
  refine ⟨by rw [Value.raw, Scalar.write, if_pos htext], ?_⟩
  rw [renderValue, if_pos htext, hsplit, List.map_map]
  conv_lhs => rw [← List.map_id lines]
  apply List.map_congr_left
  intro line hline
  rw [id, Function.comp_apply, ← hlines line hline]

/-- A plain scalar in canonical form is written as it was read. -/
theorem raw_of_scalar {raw : Str} {value : Value} (hne : raw ≠ []) (hcanonical : CanonicalRaw raw)
    (hnewline : '\n' ∉ raw) (h : scalar raw = .ok value) :
    raw = value.raw ∧ ∀ indent, renderValue indent value = [] := by
  rcases scalar_eq_ok h with ⟨hnil, -⟩ | ⟨rfl, rfl⟩ | ⟨rfl, rfl⟩ | ⟨hdigits, rfl⟩ | ⟨-, rfl⟩
  · exact absurd hnil hne
  · exact ⟨by decide, fun _ => rfl⟩
  · exact ⟨by decide, fun _ => rfl⟩
  · exact ⟨(Python.toDigits_decimal hdigits.2 hne (hcanonical.2.2 hdigits)).symm, fun _ => rfl⟩
  · have htext : ¬(Scalar.str raw).IsText := fun hlast => hnewline (List.mem_of_getLast? hlast)
    exact ⟨(if_neg htext).symm, fun indent => by rw [renderValue, if_neg htext]⟩

/-- A scalar behind a key that opens no block scalar stands on the line of the key. -/
theorem Parses.scalar_inv {raw : Str} {indent : ℕ} {value : Scalar} {lines following : List Line}
    (h : Parses (.value raw indent (.scalar value)) lines following)
    (hraw : raw ∉ blockIndicators) :
    lines = [] ∧ raw ≠ [] ∧ Workflow.scalar raw = .ok (.scalar value) := by
  cases h with
  | text hmem => exact absurd hmem hraw
  | scalar _ hne hscalar => exact ⟨rfl, hne, hscalar⟩
  | nested _ hblock => cases hblock

/-- The indentation below a key is the canonical one when it is even and one step deeper. -/
theorem indent_eq_of_step {indent : ℕ} {line : Line} (hline : line.Readable)
    (heven : indent % 2 = 0) (hdeeper : indent < line.indent) (hstep : line.indent ≤ indent + 2) :
    line.indent = indent + 2 := by
  have := hline.even
  omega

/-- The text of a canonical key line whose value is rendered. -/
theorem Line.Exact.keyText_eq {line : Line} (h : line.Exact) {key raw : Str} {value : Value}
    (hsplit : splitMapping line.keyText = .ok (key, raw)) (hraw : raw = value.raw) :
    line.keyText = keyLine key value := by
  rw [(h.key.keyText_eq h.readable.trimmed hsplit).2, hraw, keyLine]

/-- One entry in canonical form is the rendering of its key and value. -/
theorem Rendered.entry {indent : ℕ} {key raw : Str} {value : Value} {entries : Dict Str Value}
    {line : Line} {below rest : List Line} (hsteps : (line :: (below ++ rest)).IsChain Line.Step)
    (hline : line.Exact) (hindent : line.indent = indent) (hitem : line.isItem = false)
    (hsplit : splitMapping line.content = .ok (key, raw))
    (hvalue : Rendered (.value raw indent value) below)
    (hentries : Rendered (.entries indent entries) rest) :
    Rendered (.entries indent ((key, value) :: entries)) (line :: (below ++ rest)) := by
  intro hsettled
  rw [entriesSettled, Bool.and_eq_true] at hsettled
  rw [← Line.keyText_of_not_isItem hitem] at hsplit
  have hcanonical := (hline.key.keyText_eq hline.readable.trimmed hsplit).1
  have hhead : ∀ next ∈ below.head?, next.indent ≤ indent + 2 := fun next hnext =>
    hindent ▸ hsteps.rel_head? (List.mem_head?_append_of_mem_head? hnext)
  obtain ⟨hraw, hbelow⟩ := hvalue hsettled.1 hcanonical (hline.plain.newline_notMem hsplit)
    (hindent ▸ hline.readable.even) hhead
  have hcontent : line.content = keyLine key value := by
    rw [← Line.keyText_of_not_isItem hitem, hline.keyText_eq hsplit hraw]
  rw [renderEntries, ← hbelow, ← hentries hsettled.2, ← hcontent, ← hindent]

/-- One item in canonical form whose first value is a scalar is the rendering of its entries. -/
theorem Rendered.item {indent : ℕ} {key raw : Str} {value : Value} {entries : Dict Str Value}
    {items : List Value} {line : Line} {below extra rest following : List Line}
    (hsteps : (line :: (below ++ (extra ++ rest))).IsChain Line.Step) (hline : line.Exact)
    (hindent : line.indent = indent) (hitem : line.isItem = true)
    (hsplit : splitMapping (line.content.drop 2) = .ok (key, raw)) (hraw : raw ∉ blockIndicators)
    (hvalue : Parses (.value raw indent value) below following)
    (hextra : Rendered (.extra indent entries) extra)
    (hitems : Rendered (.items indent items) rest) :
    Rendered (.items indent (.map ((key, value) :: entries) :: items))
      (line :: (below ++ (extra ++ rest))) := by
  intro hsettled
  cases value with
  | scalar value =>
    rw [itemsSettled, Bool.and_eq_true, Bool.and_eq_true] at hsettled
    obtain ⟨-, hentries, hrest⟩ := hsettled
    obtain ⟨rfl, hne, hscalar⟩ := hvalue.scalar_inv hraw
    rw [← Line.keyText_of_isItem hitem] at hsplit
    have hcanonical := (hline.key.keyText_eq hline.readable.trimmed hsplit).1
    obtain ⟨hwrite, hbelow⟩ :=
      raw_of_scalar hne hcanonical (hline.plain.newline_notMem hsplit) hscalar
    have hhead : ∀ next ∈ extra.head?, next.indent ≤ indent + 2 := by
      intro next hnext
      have hfirst : next ∈ (extra ++ rest).head? := List.mem_head?_append_of_mem_head? hnext
      exact hindent ▸ hsteps.rel_head? hfirst
    have hmore := hextra hentries (hindent ▸ hline.readable.even) hhead
    have hcontent : line.content = '-' :: ' ' :: keyLine key (.scalar value) := by
      rw [Line.content_of_isItem hitem, hline.keyText_eq hsplit hwrite]
    rw [renderItems, hbelow, ← hmore, ← hitems hrest, ← hcontent, ← hindent]
  | map _ => exact absurd hsettled Bool.false_ne_true
  | list _ => exact absurd hsettled Bool.false_ne_true

/-- Canonical lines are the rendering of the value they are parsed to. -/
theorem Parses.rendered {segment : Segment} {lines following : List Line}
    (h : Parses segment lines following) (hsteps : lines.IsChain Line.Step)
    (hlines : ∀ line ∈ lines, line.Exact) : Rendered segment lines := by
  induction h with
  | map _ _ ih => exact ih hsteps hlines
  | list _ _ ih => exact ih hsteps hlines
  | text hraw hfolded hbody hstop =>
    intro hsettled hcanonical _ _ _
    obtain ⟨hwrite, hrender⟩ := renderValue_blockString hbody
      (fun line hline => (hlines line hline).plain) hsettled
    have hbar : ∀ word ∈ blockIndicators, word.head? ≠ some '>' → word ≠ "|-".toList →
        word ≠ "|+".toList → word = "|".toList := by decide
    exact ⟨(hbar _ hraw hfolded hcanonical.1 hcanonical.2.1).trans hwrite.symm, hrender⟩
  | scalar hraw hne hscalar =>
    intro _ hcanonical hnewline _ _
    obtain ⟨hwrite, hrender⟩ := raw_of_scalar hne hcanonical hnewline hscalar
    exact ⟨hwrite, (hrender _).symm⟩
  | empty => exact fun _ _ _ _ _ => ⟨rfl, rfl⟩
  | nested hdeeper hblock ih =>
    intro hsettled _ _ heven hhead
    have hrender := ih hsteps hlines hsettled
    obtain ⟨line, hline, hindent, -⟩ := hblock.head?_block
    have hbelow := indent_eq_of_step (hlines line (List.mem_of_head? hline)).readable heven
      (hindent ▸ hdeeper) (hhead line hline)
    rw [← hbelow, hindent]
    refine ⟨?_, hrender⟩
    cases hblock <;> rfl
  | entriesEnd => exact fun _ => rfl
  | itemsEnd => exact fun _ => rfl
  | extraEnd => exact fun _ _ _ => rfl
  | @extra indent entries line lines following hfirst hdeeper hentries ih =>
    intro hsettled heven hhead
    cases lines with
    | nil =>
      cases hentries
      rfl
    | cons first rest =>
      obtain rfl : first = line := Option.some.inj hfirst
      have hbelow := indent_eq_of_step (hlines first List.mem_cons_self).readable heven hdeeper
        (hhead first rfl)
      rw [← hbelow]
      exact ih hsteps hlines hsettled
  | @entry _ _ _ _ _ line below rest _ hindent hitem hsplit _ _ _ ihvalue ihentries =>
    obtain ⟨hline, htail⟩ := List.forall_mem_cons.mp hlines
    obtain ⟨hbelow, hrest⟩ := List.forall_mem_append.mp htail
    have hchain : (below ++ rest).IsChain Line.Step := hsteps.tail
    exact (ihvalue hchain.left_of_append hbelow).entry hsteps hline hindent hitem hsplit
      (ihentries hchain.right_of_append hrest)
  | @item _ _ _ _ _ _ line below extra rest _ hindent hitem hsplit _ hraw _ hvalue _ _ _
      ihextra ihitems =>
    obtain ⟨hline, htail⟩ := List.forall_mem_cons.mp hlines
    obtain ⟨-, htail⟩ := List.forall_mem_append.mp htail
    obtain ⟨hextra, hrest⟩ := List.forall_mem_append.mp htail
    have hchain : (extra ++ rest).IsChain Line.Step := hsteps.tail.right_of_append
    exact Rendered.item hsteps hline hindent hitem hsplit hraw hvalue
      (ihextra hchain.left_of_append hextra) (ihitems hchain.right_of_append hrest)

end RealityCore.Workflow
