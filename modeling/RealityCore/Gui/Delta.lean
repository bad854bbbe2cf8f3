import RealityCore.Gui.Fields
import RealityCore.Gui.Session
import RealityCore.Library.MapPatch

/-!
# Snapshots and deltas

A snapshot holds the fields of the GUI at a revision, and a delta the changes from one revision to
a later one. The constructor refuses a delta that updates and removes the same field, so a client
may apply the two parts in any order; and a chain of deltas moves strictly forward.
-/

namespace RealityCore

open GuiFieldValidation (Key FieldValue copyValues copyKeys)
open Java (Text Throwable)
open MapPatch (putAll removeAll)
open Outcome (bind_eq_ok_iff guard_eq_ok_iff)

/-- `Objects.requireNonNull`; `none` is `null`. -/
def requireNonNull {α : Type} (name : Text) : Option α → Except Throwable α
  | none => .error (.nullPointer name)
  | some value => .ok value

/-- Immutable point-in-time GUI data. -/
structure GuiSnapshot where
  sessionId : SessionId
  revision : Revision
  locale : LocaleTag
  streamerMode : Bool
  values : Java.Map Key FieldValue

/-- `GuiSnapshot.of` -/
def GuiSnapshot.of (sessionId : Option SessionId) (revision : Option Revision)
    (locale : Option LocaleTag) (streamerMode : Bool)
    (values : Option (Java.Map (Option Text) (Option Text))) : Except Throwable GuiSnapshot := do
  let sessionId ← requireNonNull "sessionId".toList sessionId
  let revision ← requireNonNull "revision".toList revision
  let locale ← requireNonNull "locale".toList locale
  let values ← copyValues values
  pure ⟨sessionId, revision, locale, streamerMode, values⟩

/-- Immutable GUI change set, which moves strictly forward from its base revision. -/
structure GuiDelta where
  sessionId : SessionId
  fromRevision : Revision
  toRevision : Revision
  locale : LocaleTag
  streamerMode : Bool
  updatedValues : Java.Map Key FieldValue
  removedKeys : Java.Set Key
  after : toRevision.isAfter fromRevision = true
  disjoint : ∀ key ∈ removedKeys.members, key ∉ updatedValues.entries.keys

namespace GuiDelta

/-- `GuiDelta.of` -/
def of (sessionId : Option SessionId) (fromRevision toRevision : Option Revision)
    (locale : Option LocaleTag) (streamerMode : Bool)
    (updatedValues : Option (Java.Map (Option Text) (Option Text)))
    (removedKeys : Option (Java.Set (Option Text))) : Except Throwable GuiDelta := do
  let sessionId ← requireNonNull "sessionId".toList sessionId
  let fromRevision ← requireNonNull "fromRevision".toList fromRevision
  let toRevision ← requireNonNull "toRevision".toList toRevision
  if hafter : toRevision.isAfter fromRevision = true then do
    let locale ← requireNonNull "locale".toList locale
    let updatedValues ← copyValues updatedValues
    let removedKeys ← copyKeys removedKeys
    if hdisjoint : ∀ key ∈ removedKeys.members, key ∉ updatedValues.entries.keys then
      pure ⟨sessionId, fromRevision, toRevision, locale, streamerMode, updatedValues, removedKeys,
        hafter, hdisjoint⟩
    else
      .error (.illegalArgument "A GUI field cannot be updated and removed in one delta".toList)
  else .error (.illegalArgument "GuiDelta toRevision must be after fromRevision".toList)

/-- The fields that a delta updates, with their texts. -/
def updates (delta : GuiDelta) : List (Text × Text) :=
  delta.updatedValues.entries.map fun field => (field.1.1, field.2.1)

/-- The texts of the keys that a delta removes. -/
def removals (delta : GuiDelta) : List Text := delta.removedKeys.members.map (·.1)

/-! ## One delta -/

/-- A field that is removed is not updated. -/
theorem notMem_updates (delta : GuiDelta) :
    ∀ key ∈ delta.removals, key ∉ delta.updates.map Prod.fst := by
  intro key hkey hmem
  obtain ⟨removed, hremoved, rfl⟩ := List.mem_map.mp hkey
  rw [updates, List.map_map] at hmem
  obtain ⟨field, hfield, heq⟩ := List.mem_map.mp hmem
  have hsame : field.1 = removed := Subtype.ext heq
  exact delta.disjoint removed hremoved (hsame ▸ List.mem_map_of_mem hfield)

/-- A client may put the updated values and remove the removed keys in any order. -/
theorem putAll_removeAll (delta : GuiDelta) (m : Text → Option Text) :
    putAll delta.updates (removeAll delta.removals m) =
      removeAll delta.removals (putAll delta.updates m) :=
  MapPatch.putAll_removeAll delta.notMem_updates m

/-- A built delta holds the values and the keys that it is built from. -/
theorem of_eq_ok {sessionId : Option SessionId} {fromRevision toRevision : Option Revision}
    {locale : Option LocaleTag} {streamerMode : Bool}
    {values : Option (Java.Map (Option Text) (Option Text))}
    {keys : Option (Java.Set (Option Text))} {delta : GuiDelta}
    (h : of sessionId fromRevision toRevision locale streamerMode values keys = .ok delta) :
    (∃ given, values = some given ∧
        delta.updates.map (fun field => (some field.1, some field.2)) = given.entries) ∧
      ∃ given, keys = some given ∧ delta.removals.map some = given.members := by
  obtain ⟨session, -, h⟩ := bind_eq_ok_iff.mp h
  obtain ⟨base, -, h⟩ := bind_eq_ok_iff.mp h
  obtain ⟨target, -, h⟩ := bind_eq_ok_iff.mp h
  by_cases hafter : target.isAfter base = true
  swap
  · rw [dif_neg hafter] at h
    cases h
  rw [dif_pos hafter] at h
  obtain ⟨tag, -, h⟩ := bind_eq_ok_iff.mp h
  obtain ⟨copy, hcopy, h⟩ := bind_eq_ok_iff.mp h
  obtain ⟨removed, hremoved, h⟩ := bind_eq_ok_iff.mp h
  by_cases hdisjoint : ∀ key ∈ removed.members, key ∉ copy.entries.keys
  swap
  · rw [dif_neg hdisjoint] at h
    cases h
  rw [dif_pos hdisjoint] at h
  rw [← Except.ok.inj h, updates, removals, List.map_map, List.map_map]
  exact ⟨GuiFieldValidation.copyValues_eq_ok hcopy, GuiFieldValidation.copyKeys_eq_ok hremoved⟩

/-! ## Chains of deltas -/

/-- Each delta starts at the revision that the one before it ends at. -/
def Chained (deltas : List GuiDelta) : Prop :=
  deltas.IsChain fun delta following => delta.toRevision = following.fromRevision

/-- The revisions along a chain that starts with the given delta. -/
def revisions (first : GuiDelta) (rest : List GuiDelta) : List Revision :=
  first.fromRevision :: (first :: rest).map toRevision

/-- A delta moves forward. -/
theorem number_lt (delta : GuiDelta) : delta.fromRevision.number < delta.toRevision.number :=
  Revision.isAfter_iff.mp delta.after

/-- Each revision along a chain is after the one before it. -/
theorem isChain_revisions {first : GuiDelta} {rest : List GuiDelta} (h : Chained (first :: rest)) :
    (revisions first rest).IsChain fun r s => r.number < s.number := by
  induction rest generalizing first with
  | nil => exact List.isChain_cons_cons.mpr ⟨first.number_lt, .singleton _⟩
  | cons delta rest ih =>
    obtain ⟨hnext, hrest⟩ := List.isChain_cons_cons.mp h
    have htail := ih hrest
    rw [revisions, ← hnext] at htail
    exact List.isChain_cons_cons.mpr ⟨first.number_lt, htail⟩

/-- Along a chain the revisions are strictly increasing. -/
theorem pairwise_revisions {first : GuiDelta} {rest : List GuiDelta}
    (h : Chained (first :: rest)) :
    (revisions first rest).Pairwise fun r s => r.number < s.number := by
  have : IsTrans Revision fun r s => r.number < s.number := ⟨fun _ _ _ => Nat.lt_trans⟩
  exact List.isChain_iff_pairwise.mp (isChain_revisions h)

/-- A chain has at most as many deltas as its revisions advance. -/
theorem length_le_of_chained {first : GuiDelta} {rest : List GuiDelta}
    (h : Chained (first :: rest)) :
    first.fromRevision.number + (first :: rest).length ≤
      ((first :: rest).getLast (List.cons_ne_nil _ _)).toRevision.number := by
  induction rest generalizing first with
  | nil => exact first.number_lt
  | cons delta rest ih =>
    obtain ⟨hnext, hrest⟩ := List.isChain_cons_cons.mp h
    have htail := ih hrest
    have hfirst := first.number_lt
    rw [hnext] at hfirst
    rw [List.getLast_cons (List.cons_ne_nil delta rest)]
    simp only [List.length_cons] at htail ⊢
    omega

/-- A built delta holds what it is built from, and its two parts may be applied in any order. Along
a chain the revisions are strictly increasing, none repeats, and there are at most as many deltas
as revisions between the first and the last one. -/
theorem of_and_chain :
    (∀ (sessionId : Option SessionId) (fromRevision toRevision : Option Revision)
        (locale : Option LocaleTag) (streamerMode : Bool)
        (values : Option (Java.Map (Option Text) (Option Text)))
        (keys : Option (Java.Set (Option Text))) (delta : GuiDelta),
      of sessionId fromRevision toRevision locale streamerMode values keys = .ok delta →
        (∀ m, putAll delta.updates (removeAll delta.removals m) =
          removeAll delta.removals (putAll delta.updates m)) ∧
        (∃ given, values = some given ∧
          delta.updates.map (fun field => (some field.1, some field.2)) = given.entries) ∧
        ∃ given, keys = some given ∧ delta.removals.map some = given.members) ∧
    ∀ (first : GuiDelta) (rest : List GuiDelta), Chained (first :: rest) →
      (revisions first rest).Pairwise (fun r s => s.isAfter r = true) ∧
        (revisions first rest).Nodup ∧
        first.fromRevision.number + (first :: rest).length ≤
          ((first :: rest).getLast (List.cons_ne_nil _ _)).toRevision.number := by
  refine ⟨fun _ _ _ _ _ _ _ delta h => ⟨delta.putAll_removeAll, of_eq_ok h⟩, fun first rest h => ?_⟩
  have hpairwise := pairwise_revisions h
  refine ⟨hpairwise.imp Revision.isAfter_iff.mpr, hpairwise.imp ?_, length_le_of_chained h⟩
  rintro r s hlt rfl
  exact Nat.lt_irrefl _ hlt

/-- A delta that updates a balance and closes a shop. -/
def balanceDelta : GuiDelta :=
  ⟨⟨"s-4".toList, by decide⟩, ⟨4, by decide⟩, ⟨6, by decide⟩, ⟨"de".toList, by decide, by decide⟩,
    true, ⟨[(⟨"wallet.balance".toList, by decide⟩, ⟨"120".toList, by decide⟩)], by decide⟩,
    ⟨[⟨"shop.open".toList, by decide⟩], by decide⟩, by decide, by decide⟩

/-- A delta without changes that follows it. -/
def emptyDelta : GuiDelta :=
  ⟨balanceDelta.sessionId, balanceDelta.toRevision, ⟨9, by decide⟩, balanceDelta.locale,
    true, .empty, .empty, by decide, by simp [Java.Set.empty]⟩

/-- The delta of the balance is built, and no revision repeats along it and the following one. -/
theorem of_and_chain_balance :
    (∃ values keys, of (some balanceDelta.sessionId) (some balanceDelta.fromRevision)
          (some balanceDelta.toRevision) (some balanceDelta.locale) true (some values) (some keys) =
        .ok balanceDelta ∧
      balanceDelta.updates.map (fun field => (some field.1, some field.2)) = values.entries ∧
      putAll balanceDelta.updates (removeAll balanceDelta.removals fun _ => none) =
        removeAll balanceDelta.removals (putAll balanceDelta.updates fun _ => none)) ∧
      (revisions balanceDelta [emptyDelta]).Nodup := by
  have hof : of (some balanceDelta.sessionId) (some balanceDelta.fromRevision)
      (some balanceDelta.toRevision) (some balanceDelta.locale) true
      (some ⟨[(some "wallet.balance".toList, some "120".toList)], by decide⟩)
      (some ⟨[some "shop.open".toList], by decide⟩) = .ok balanceDelta := rfl
  obtain ⟨hput, ⟨given, hgiven, hvalues⟩, -⟩ := of_and_chain.1 _ _ _ _ _ _ _ _ hof
  refine ⟨⟨_, _, hof, ?_, hput _⟩, ?_⟩
  · rw [hvalues, ← Option.some.inj hgiven]
  · exact (of_and_chain.2 balanceDelta [emptyDelta]
      (List.isChain_cons_cons.mpr ⟨rfl, .singleton _⟩)).2.1

end GuiDelta

end RealityCore
