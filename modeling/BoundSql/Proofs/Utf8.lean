import BoundSql.Text.Utf8

/-!
# Texts as bytes

* `Utf8.encode`            the bytes of a text;
* `Utf8.length_encode`     as many as its size says;
* `Utf8.decode?_eq_some_iff`   bytes are read as the one text that they encode;
* `Utf8.utf8EncodeChar_cases`  a character is its own byte, or bytes that are no ASCII.
-/

namespace BoundSql.Utf8

def encode (t : Text) : List UInt8 := t.flatMap String.utf8EncodeChar

theorem encode_nil : encode [] = [] := rfl
theorem encode_cons (c : Char) (t : Text) :
    encode (c :: t) = String.utf8EncodeChar c ++ encode t := List.flatMap_cons
theorem encode_append (t u : Text) : encode (t ++ u) = encode t ++ encode u := List.flatMap_append

theorem length_encode (t : Text) : (encode t).length = Text.size t := by
  induction t with
  | nil => rfl
  | cons c t ih =>
    rw [encode_cons, List.length_append, String.length_utf8EncodeChar, ih, Text.size_cons]

theorem utf8Encode_eq_iff {t : Text} {bytes : List UInt8} :
    t.utf8Encode = ⟨bytes.toArray⟩ ↔ encode t = bytes := by
  show (encode t).toByteArray = ⟨bytes.toArray⟩ ↔ _
  constructor
  · intro h
    have hdata := congrArg ByteArray.data h
    rw [List.data_toByteArray] at hdata
    exact List.toArray_inj hdata
  · rintro rfl
    exact ByteArray.ext List.data_toByteArray

theorem decode?_eq_some_iff {bytes : List UInt8} {t : Text} :
    decode? bytes = some t ↔ encode t = bytes := by
  unfold decode? String.fromUTF8?
  constructor
  · intro h
    split at h
    · rename_i hvalid
      cases h
      exact utf8Encode_eq_iff.mp String.utf8Encode_toList
    · cases h
  · intro h
    have hbytes := utf8Encode_eq_iff.mpr h
    have hvalid : ByteArray.IsValidUTF8 ⟨bytes.toArray⟩ := ⟨t, hbytes.symm⟩
    rw [dif_pos hvalid]
    have hstring : String.fromUTF8 _ hvalid = String.ofList t := by
      rw [← String.toByteArray_inj, String.toByteArray_ofList, hbytes]
      rfl
    rw [hstring, Option.map_some, String.toList_ofList]

/-- a character is its own byte, or its bytes are no ASCII -/
theorem utf8EncodeChar_cases (c : Char) :
    (c.toNat < 128 ∧ String.utf8EncodeChar c = [UInt8.ofNat c.toNat]) ∨
      (128 ≤ c.toNat ∧ ∀ b ∈ String.utf8EncodeChar c, 128 ≤ b.toNat) := by
  have hval : c.val.toNat = c.toNat := rfl
  unfold String.utf8EncodeChar
  simp only [hval]
  split
  · exact .inl ⟨by omega, rfl⟩
  · refine .inr ⟨by omega, ?_⟩
    split
    · simp only [List.mem_cons, List.not_mem_nil, or_false, forall_eq_or_imp, forall_eq,
        UInt8.toNat_ofNat']
      omega
    · split
      all_goals
        simp only [List.mem_cons, List.not_mem_nil, or_false, forall_eq_or_imp, forall_eq,
          UInt8.toNat_ofNat']
        omega

end BoundSql.Utf8
