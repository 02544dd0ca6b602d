import MapQuery.Json.Reader
import MapQuery.Text.Percent

/-!
# Percent decoding

A percent-encoded text stands for bytes, which are the text in UTF-8. Every text is decoded from its
encoded form, which holds nothing but unreserved characters and percent signs.
-/

set_option autoImplicit false

namespace MapQuery.Percent

/-- The bytes of a percent-encoded text: a percent sign and two hexadecimal digits stand for one
byte, any other character for itself. -/
def bytes? : Text → Option (List UInt8)
  | [] => some []
  | '%' :: high :: low :: rest => do
    let high ← Json.hexDigit? high
    let low ← Json.hexDigit? low
    let bytes ← bytes? rest
    some (UInt8.ofNat (16 * high + low) :: bytes)
  | c :: rest => if c = '%' then none else (bytes? rest).map (String.utf8EncodeChar c ++ ·)

/-- The text of a percent-encoded text, if its bytes are UTF-8. -/
def decode? (t : Text) : Option Text :=
  (bytes? t).bind fun bytes => bytes.toByteArray.utf8Decode?.map Array.toList

theorem hexDigit?_hexDigit {n : Nat} (h : n < 16) : Json.hexDigit? (hexDigit n) = some n := by
  have hdigits : ∀ m : Fin 16, Json.hexDigit? (hexDigit m) = some m.val := by decide
  exact hdigits ⟨n, h⟩

theorem isUnreserved_hexDigit {n : Nat} (h : n < 16) : isUnreserved (hexDigit n) = true := by
  have hdigits : ∀ m : Fin 16, isUnreserved (hexDigit m) = true := by decide
  exact hdigits ⟨n, h⟩

theorem bytes?_cons {c : Char} (h : c ≠ '%') (rest : Text) :
    bytes? (c :: rest) = (bytes? rest).map (String.utf8EncodeChar c ++ ·) := by
  rw [bytes?]
  · exact if_neg h
  · intro high low rest' hc
    exact absurd hc h

theorem bytes?_encodeByte (b : UInt8) (rest : Text) :
    bytes? (encodeByte b ++ rest) = (bytes? rest).map (b :: ·) := by
  have hb := b.toNat_lt
  have hhigh := hexDigit?_hexDigit (n := b.toNat / 16) (by omega)
  have hlow := hexDigit?_hexDigit (n := b.toNat % 16) (by omega)
  have hbyte : UInt8.ofNat (16 * (b.toNat / 16) + b.toNat % 16) = b := by
    rw [Nat.div_add_mod, UInt8.ofNat_toNat]
  simp only [encodeByte, List.cons_append, List.nil_append, bytes?, hhigh, hlow,
    Option.bind_eq_bind, Option.bind_some, hbyte]
  cases bytes? rest <;> rfl

theorem bytes?_flatMap_encodeByte (bytes : List UInt8) (rest : Text) :
    bytes? (bytes.flatMap encodeByte ++ rest) = (bytes? rest).map (bytes ++ ·) := by
  induction bytes with
  | nil => simp
  | cons b bytes ih =>
    rw [List.flatMap_cons, List.append_assoc, bytes?_encodeByte, ih, Option.map_map]
    rfl

theorem bytes?_encodeChar (c : Char) (rest : Text) :
    bytes? (encodeChar c ++ rest) = (bytes? rest).map (String.utf8EncodeChar c ++ ·) := by
  unfold encodeChar
  split
  · next hc =>
    refine bytes?_cons ?_ rest
    rintro rfl
    exact absurd hc (by decide)
  · exact bytes?_flatMap_encodeByte _ rest

theorem bytes?_encode (t : Text) : bytes? (encode t) = some (t.flatMap String.utf8EncodeChar) := by
  induction t with
  | nil => rfl
  | cons c t ih =>
    change bytes? (encodeChar c ++ encode t) = _
    rw [bytes?_encodeChar, ih]
    rfl

theorem decode?_encode (t : Text) : decode? (encode t) = some t := by
  have hbytes : (t.flatMap String.utf8EncodeChar).toByteArray = t.utf8Encode := rfl
  rw [decode?, bytes?_encode, Option.bind_some, hbytes, List.utf8Decode?_utf8Encode]
  rfl

theorem mem_encode {t : Text} {c : Char} (h : c ∈ encode t) : isUnreserved c = true ∨ c = '%' := by
  obtain ⟨d, -, hc⟩ := List.mem_flatMap.1 h
  unfold encodeChar at hc
  split at hc
  · next hd =>
    rw [List.mem_singleton.1 hc]
    exact .inl hd
  · obtain ⟨b, -, hc⟩ := List.mem_flatMap.1 hc
    have hb := b.toNat_lt
    simp only [encodeByte, List.mem_cons, List.not_mem_nil, or_false] at hc
    rcases hc with rfl | rfl | rfl
    · exact .inr rfl
    · exact .inl (isUnreserved_hexDigit (by omega))
    · exact .inl (isUnreserved_hexDigit (by omega))

/-- What separates parameters does not occur in them once they are encoded. -/
theorem not_mem_encode {c : Char} (h : isUnreserved c = false) (hc : c ≠ '%') (t : Text) :
    c ∉ encode t := by
  intro hmem
  rcases mem_encode hmem with hu | rfl
  · rw [h] at hu
    cases hu
  · exact hc rfl

end MapQuery.Percent
