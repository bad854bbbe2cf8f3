import RealityCore.Library.PythonText

/-!
# Python bytes and the UTF-8 codec

A `bytes` value is the list of its octets. Decoding is strict: a text is the only one with
its encoding, and octets that encode no text are refused.
-/

namespace Python

/-- A Python `bytes` value. -/
abbrev Bytes := List UInt8

/-- `text.encode("utf-8")` for a text without surrogates. -/
def encodeUtf8 (text : Str) : Bytes := text.flatMap String.utf8EncodeChar

/-- `data.decode("utf-8")`, with `none` for `UnicodeDecodeError`. -/
def decodeUtf8 (data : Bytes) : Option Str :=
  data.toByteArray.utf8Decode?.map Array.toList

/-- Decoding inverts encoding. -/
@[simp] theorem decodeUtf8_encodeUtf8 (text : Str) : decodeUtf8 (encodeUtf8 text) = some text := by
  have h : (encodeUtf8 text).toByteArray.utf8Decode? = some text.toArray :=
    List.utf8Decode?_utf8Encode
  simp [decodeUtf8, h]

/-- A text is the only one with its encoding. -/
theorem encodeUtf8_injective : Function.Injective encodeUtf8 := fun a b h => by
  have hdecode := congrArg decodeUtf8 h
  rwa [decodeUtf8_encodeUtf8, decodeUtf8_encodeUtf8, Option.some.injEq] at hdecode

/-- Octets that decode to a text are its encoding. -/
theorem encodeUtf8_of_decodeUtf8 {data : Bytes} {text : Str} (h : decodeUtf8 data = some text) :
    encodeUtf8 text = data := by
  obtain ⟨chars, hchars, rfl⟩ := Option.map_eq_some_iff.mp h
  have hsome : data.toByteArray.utf8Decode?.isSome := by simp [hchars]
  have hget : data.toByteArray.utf8Decode?.get hsome = chars := by simp [hchars]
  have hencode : (encodeUtf8 chars.toList).toByteArray = data.toByteArray := by
    have := ByteArray.utf8Encode_get_utf8Decode? (h := hsome)
    rwa [hget] at this
  simpa using congrArg (fun b => b.data.toList) hencode

/-- Texts are encoded one after the other. -/
theorem encodeUtf8_append (a b : Str) : encodeUtf8 (a ++ b) = encodeUtf8 a ++ encodeUtf8 b := by
  simp [encodeUtf8]

/-- A text of ASCII characters other than NUL. -/
def IsPlain (text : Str) : Prop := ∀ c ∈ text, 0 < c.toNat ∧ c.toNat < 128

/-- Whether a text is plain is checked character by character. -/
theorem all_iff_isPlain {text : Str} :
    (text.all fun c => decide (0 < c.toNat ∧ c.toNat < 128)) = true ↔ IsPlain text := by
  rw [List.all_eq_true]
  exact forall₂_congr fun c _ => decide_eq_true_iff

instance decidableIsPlain (text : Str) : Decidable (IsPlain text) :=
  decidable_of_iff _ all_iff_isPlain

/-- Plain texts one after the other are a plain text. -/
theorem IsPlain.append {a b : Str} (ha : IsPlain a) (hb : IsPlain b) : IsPlain (a ++ b) :=
  List.forall_mem_append.mpr ⟨ha, hb⟩

/-- An ASCII character is one octet. -/
theorem utf8EncodeChar_of_lt {c : Char} (h : c.toNat < 128) :
    String.utf8EncodeChar c = [UInt8.ofNat c.toNat] := by
  have hle : c.val.toNat ≤ 0x7f := Nat.le_of_lt_succ h
  rw [String.utf8EncodeChar, if_pos hle]
  rfl

/-- A plain text has as many octets as characters. -/
theorem length_encodeUtf8 {text : Str} (h : IsPlain text) :
    (encodeUtf8 text).length = text.length := by
  induction text with
  | nil => rfl
  | cons c text ih =>
    obtain ⟨hc, htext⟩ := List.forall_mem_cons.mp h
    change (String.utf8EncodeChar c ++ encodeUtf8 text).length = _
    rw [utf8EncodeChar_of_lt hc.2, List.length_append, ih htext, List.length_singleton,
      Nat.add_comm, List.length_cons]

/-- The first octets of a plain text are those of its first characters. -/
theorem take_encodeUtf8 {text : Str} (h : IsPlain text) (length : ℕ) :
    (encodeUtf8 text).take length = encodeUtf8 (text.take length) := by
  induction text generalizing length with
  | nil => simp [encodeUtf8]
  | cons c text ih =>
    obtain ⟨hc, htext⟩ := List.forall_mem_cons.mp h
    cases length with
    | zero => simp [encodeUtf8]
    | succ length =>
      change (String.utf8EncodeChar c ++ encodeUtf8 text).take (length + 1) =
        String.utf8EncodeChar c ++ encodeUtf8 (text.take length)
      rw [utf8EncodeChar_of_lt hc.2, List.singleton_append, List.singleton_append,
        List.take_succ_cons, ih htext]

/-- A plain text has no NUL byte. -/
theorem zero_notMem_encodeUtf8 {text : Str} (h : IsPlain text) : 0 ∉ encodeUtf8 text := by
  intro hzero
  obtain ⟨c, hc, hmem⟩ := List.mem_flatMap.mp hzero
  obtain ⟨hpos, hlt⟩ := h c hc
  rw [utf8EncodeChar_of_lt hlt, List.mem_singleton] at hmem
  have hvalue := congrArg UInt8.toNat hmem
  simp only [UInt8.toNat_ofNat, Nat.reducePow, UInt8.toNat_ofNat'] at hvalue
  omega

/-- Splitting at a mark gives back the records that it terminates. -/
theorem splitOn_terminated {records : List Bytes} {mark : UInt8}
    (h : ∀ record ∈ records, record ≠ [] ∧ mark ∉ record) :
    ((records.flatMap (· ++ [mark])).splitOn mark).filter (· ≠ []) = records := by
  induction records with
  | nil => simp
  | cons record records ih =>
    obtain ⟨hne, hmark⟩ := h record List.mem_cons_self
    have hsplit : (record :: records).flatMap (· ++ [mark]) =
        record ++ mark :: records.flatMap (· ++ [mark]) := by simp
    rw [hsplit, List.splitOn_append_cons_self_of_not_mem hmark, List.filter_cons_of_pos (by simpa),
      ih fun r hr => h r (List.mem_cons_of_mem record hr)]

end Python
