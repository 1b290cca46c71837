import Mathlib

/-! The order of texts by their bytes. Texts are compared by their characters, and that is the order of
their bytes: a character further on has a greater first byte, or the same first byte and a greater one
behind it. -/
namespace MessageLisp.Text

/-- The bytes of a text. -/
def bytes (text : String) : List UInt8 :=
  text.toByteArray.data.toList

theorem bytes_eq (text : String) : bytes text = text.toList.flatMap String.utf8EncodeChar := by
  rw [bytes, ← String.utf8Encode_toList, List.utf8Encode]
  simp

theorem cons_lt_cons {a b : Nat} {rest rest' : List UInt8} (hByte : b < 256) (hLe : a ≤ b)
    (hRest : a = b → rest < rest') : UInt8.ofNat a :: rest < UInt8.ofNat b :: rest' := by
  rw [List.cons_lt_cons_iff]
  rcases Nat.lt_or_eq_of_le hLe with hLess | rfl
  · left
    rw [UInt8.lt_iff_toNat_lt, UInt8.toNat_ofNat_of_lt' (hLess.trans hByte),
      UInt8.toNat_ofNat_of_lt' hByte]
    exact hLess
  · exact .inr ⟨rfl, hRest rfl⟩

/-- The bytes of a smaller character come first, whatever follows. -/
theorem encode_append_lt {c d : Char} (h : c < d) (rest rest' : List UInt8) :
    String.utf8EncodeChar c ++ rest < String.utf8EncodeChar d ++ rest' := by
  have hLess : c.val.toNat < d.val.toNat := h
  have hBound : d.val.toNat < 1114112 := by
    rcases d.valid with hLow | ⟨-, hHigh⟩
    · exact hLow.trans (by decide)
    · exact hHigh
  simp only [String.utf8EncodeChar]
  generalize c.val.toNat = m at *
  generalize d.val.toNat = n at *
  -- One to four bytes on either side. No byte of `c` is greater than its counterpart before they
  -- first differ, and they do not agree to the end.
  split_ifs
  all_goals
    simp only [List.cons_append, List.nil_append]
    repeat refine cons_lt_cons (by omega) (by omega) fun _ => ?_
    omega

theorem flatMap_encode_lt {cs ds : List Char} (h : cs < ds) :
    cs.flatMap String.utf8EncodeChar < ds.flatMap String.utf8EncodeChar := by
  induction h with
  | @nil d ds =>
      obtain ⟨byte, rest, hBytes⟩ := List.exists_cons_of_ne_nil (String.utf8EncodeChar_ne_nil (c := d))
      rw [List.flatMap_nil, List.flatMap_cons, hBytes]
      exact List.nil_lt_cons _ _
  | rel hLess =>
      rw [List.flatMap_cons, List.flatMap_cons]
      exact encode_append_lt hLess _ _
  | cons _ ih =>
      rw [List.flatMap_cons, List.flatMap_cons]
      exact List.Lex.append_left _ ih _

theorem bytes_lt_of_lt {a b : String} (h : a < b) : bytes a < bytes b := by
  rw [bytes_eq, bytes_eq]
  exact flatMap_encode_lt (String.lt_iff.mp h)

end MessageLisp.Text
