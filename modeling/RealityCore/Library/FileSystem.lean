import RealityCore.Library.PurePath
import RealityCore.Library.Recorder

/-!
# The files that a program reads

What stands at a path does not change while the program runs, but for a file that it writes itself.
What was in this file is gone as soon as it is opened, so that a write that fails later leaves a
part of what was to be written.
-/

namespace Python

open Recorder (Attempt keepValue)

/-- What stands at a path. -/
inductive Node where
  | missing
  | directory
  | symlink
  | unreadable (size : ℕ)
  | file (content : Bytes)

/-- `path.stat().st_size` of a file, or nothing when there is no file or a symbolic link. -/
def Node.fileSize : Node → Option ℕ
  | .unreadable size => some size
  | .file content => some content.length
  | _ => none

/-- A file with these octets in the place of what was there. A symbolic link is followed. -/
def Node.replaced (data : Bytes) : Node → Node
  | .missing | .file _ => .file data
  | .unreadable _ => .unreadable data.length
  | node => node

/-- What stands at a path after `path.write_text(text)` with these octets, and whether all of them
were written. A directory is never opened. -/
def Node.written (data : Bytes) (attempt : Attempt) (node : Node) : Node × Bool :=
  match attempt, node with
  | .refused, node => (node, false)
  | _, .directory => (.directory, false)
  | .whole, node => (node.replaced data, true)
  | .cut length, node => (node.replaced (data.take length), false)

/-- The paths with what stands there. -/
abbrev Files := PurePath → Node

/-- What stands at a path can be written over, and is read as the value that is kept, a good one. -/
structure Node.Stands {F : Type*} {β : Type} (read : Node → Except F β) (good : β → Prop)
    (node : Node) (kept : Option β) : Prop where
  isFile : node = .missing ∨ ∃ data, node = .file data
  read_iff : ∀ value, read node = .ok value ↔ kept = some value
  isGood : ∀ value, kept = some value → good value

/-- What can be written over is written over, unless the attempt is refused. -/
theorem Node.Stands.written_fst {F : Type*} {β : Type} {read : Node → Except F β} {good : β → Prop}
    {node : Node} {kept : Option β} (h : Node.Stands read good node kept) (data : Bytes)
    (attempt : Attempt) :
    (node.written data attempt).1 = match attempt with
      | .whole => .file data
      | .refused => node
      | .cut length => .file (data.take length) := by
  rcases h.isFile with rfl | ⟨before, rfl⟩ <;> cases attempt <;> rfl

/-- An attempt succeeds when all is written. -/
theorem Node.Stands.written_snd {F : Type*} {β : Type} {read : Node → Except F β} {good : β → Prop}
    {node : Node} {kept : Option β} (h : Node.Stands read good node kept) (data : Bytes)
    (attempt : Attempt) : (node.written data attempt).2 = true ↔ attempt = .whole := by
  rcases h.isFile with rfl | ⟨before, rfl⟩ <;> cases attempt <;> simp [Node.written]

/-- A value whose text is read as this value, when enough of it is there, is kept when it is
written. -/
theorem Node.Stands.written {F : Type*} {β : Type} {read : Node → Except F β} {good : β → Prop}
    {node : Node} {kept : Option β} (h : Node.Stands read good node kept) {data : Bytes}
    {value : β} {enough : β → ℕ} (hgood : good value) (henough : enough value ≤ data.length)
    (hread : ∀ length found, read (.file (data.take length)) = .ok found ↔
      enough value ≤ length ∧ found = value) (attempt : Attempt) :
    Node.Stands read good (node.written data attempt).1 (keepValue enough kept value attempt) := by
  have hleft (length : ℕ) : Node.Stands read good (.file (data.take length))
      (if enough value ≤ length then some value else none) := by
    refine ⟨.inr ⟨_, rfl⟩, fun found => ?_, fun found hfound => ?_⟩
    · rw [hread, Option.ite_none_right_eq_some, Option.some.injEq, eq_comm (a := found)]
    · obtain ⟨-, hfound⟩ := Option.ite_none_right_eq_some.mp hfound
      exact Option.some.inj hfound ▸ hgood
  rw [h.written_fst]
  cases attempt with
  | refused => exact h
  | whole =>
    have hwhole := hleft data.length
    rwa [if_pos henough, List.take_length] at hwhole
  | cut length => exact hleft length

end Python
