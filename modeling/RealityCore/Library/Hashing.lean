import RealityCore.Library.JsonDumps

/-!
# Hashing in chunks

A hash object takes octets in any number of updates, and only their concatenation counts. A file is
read in chunks of one size, but for the last one.
-/

namespace Python

/-- `[0-9a-f]` -/
def isHexPoint (p : CodePoint) : Bool := isDigitPoint p || ('a'.toNat ≤ p.val && p.val ≤ 'f'.toNat)

/-- A text of as many lower-case hexadecimal digits. -/
def IsHex (digits : ℕ) (text : Text) : Prop :=
  text.length = digits ∧ ∀ p ∈ text, isHexPoint p = true

/-- A hexadecimal digit is one of sixteen characters. -/
theorem isHexPoint_hexDigit (n : ℕ) : isHexPoint (CodePoint.ofChar (hexDigit n)) = true := by
  have hall : ∀ k < 16, isHexPoint (CodePoint.ofChar (Nat.digitChar k)) = true := by decide
  exact hall (n % 16) (Nat.mod_lt n (by decide))

/-- The digits of a number are hexadecimal. -/
theorem isHex_hexDigits (count n : ℕ) : IsHex count ((hexDigits count n).map CodePoint.ofChar) := by
  induction count generalizing n with
  | zero => exact ⟨rfl, nofun⟩
  | succ count ih =>
    obtain ⟨hlength, hdigits⟩ := ih (n / 16)
    rw [hexDigits, List.map_append]
    refine ⟨by rw [List.length_append, hlength]; rfl, fun p hp => ?_⟩
    rcases List.mem_append.mp hp with hfront | hlast
    · exact hdigits p hfront
    · rw [List.mem_singleton.mp hlast]
      exact isHexPoint_hexDigit n

/-- A hash algorithm whose digest has a number of hexadecimal digits: `hashlib.new(name)`. -/
structure Hasher (digits : ℕ) where
  State : Type
  new : State
  update : State → Bytes → State
  hexdigest : State → Text
  update_nil : ∀ state, update state [] = state
  update_append : ∀ state data more, update (update state data) more = update state (data ++ more)
  hexdigest_hex : ∀ state, IsHex digits (hexdigest state)

namespace Hasher

variable {digits : ℕ} (hasher : Hasher digits)

/-- `hashlib.new(name, data).hexdigest()` -/
def hash (data : Bytes) : Text := hasher.hexdigest (hasher.update hasher.new data)

/-- The algorithm that keeps the octets until it computes a number of them. -/
def ofNumber (digits : ℕ) (number : Bytes → ℕ) : Hasher digits where
  State := Bytes
  new := []
  update state data := state ++ data
  hexdigest state := (hexDigits digits (number state)).map CodePoint.ofChar
  update_nil := List.append_nil
  update_append := List.append_assoc
  hexdigest_hex state := isHex_hexDigits digits (number state)

end Hasher

/-- At most so many chunks. -/
def takeChunks (size : ℕ) : ℕ → Bytes → List Bytes
  | 0, _ => []
  | count + 1, data =>
    let chunk := data.take size
    if chunk = [] then [] else chunk :: takeChunks size count (data.drop size)

/-- `list(iter(lambda: stream.read(size), b""))`: each chunk but the last, empty one has octets. -/
def readChunks (size : ℕ) (data : Bytes) : List Bytes := takeChunks size data.length data

/-- As many chunks as octets are all of them. -/
theorem flatten_takeChunks {size count : ℕ} {data : Bytes} (hsize : 0 < size)
    (hcount : data.length ≤ count) : (takeChunks size count data).flatten = data := by
  induction count generalizing data with
  | zero =>
    rw [List.eq_nil_of_length_eq_zero (Nat.le_zero.mp hcount)]
    rfl
  | succ count ih =>
    rw [takeChunks]
    by_cases hchunk : data.take size = []
    · rw [if_pos hchunk, (List.take_eq_nil_iff.mp hchunk).resolve_left hsize.ne']
      rfl
    · have hrest : (data.drop size).length ≤ count := by
        rw [List.length_drop]
        omega
      rw [if_neg hchunk, List.flatten_cons, ih hrest, List.take_append_drop]

/-- The chunks of a file are all of it. -/
theorem flatten_readChunks {size : ℕ} (hsize : 0 < size) (data : Bytes) :
    (readChunks size data).flatten = data :=
  flatten_takeChunks hsize (Nat.le_refl _)

/-- Hashing chunks one after the other is hashing all of them. -/
theorem Hasher.foldl_update {digits : ℕ} (hasher : Hasher digits) (chunks : List Bytes)
    (state : hasher.State) :
    chunks.foldl hasher.update state = hasher.update state chunks.flatten := by
  induction chunks generalizing state with
  | nil => exact (hasher.update_nil state).symm
  | cons chunk chunks ih => rw [List.foldl_cons, ih, hasher.update_append, List.flatten_cons]

end Python
