import Mathlib.Data.List.Lex
import Mathlib.Data.String.Basic

/-!
# The order of UTF-8

Texts compared byte by byte in UTF-8 are in the order of their code points: `bytes_lt_iff`. The
first byte of an encoding tells its length, and a longer encoding begins with a larger byte; among
encodings of one length the bytes are the digits of the code point.
-/

namespace Utf8

open String (utf8EncodeChar)

/-- The UTF-8 bytes of a text. -/
def bytes (s : String) : List UInt8 :=
  s.toList.flatMap utf8EncodeChar

/-- They are the bytes Lean keeps a string in. -/
example (s : String) : (bytes s).toByteArray = s.toByteArray :=
  String.utf8Encode_toList

/-- The first byte that differs decides. -/
theorem cons_lt_cons {a b : Nat} {l m : List UInt8} (ha : a < 256) (hb : b < 256) (hle : a ≤ b)
    (h : a = b → l < m) : UInt8.ofNat a :: l < UInt8.ofNat b :: m := by
  rw [List.cons_lt_cons_iff, UInt8.lt_iff_toNat_lt, UInt8.toNat_ofNat_of_lt' ha,
    UInt8.toNat_ofNat_of_lt' hb]
  rcases Nat.lt_or_eq_of_le hle with hlt | rfl
  · exact Or.inl hlt
  · exact Or.inr ⟨rfl, h rfl⟩

/-- The bytes of the smaller of two characters come first, whatever follows them. -/
theorem encode_append_lt {c d : Char} (h : c < d) (l m : List UInt8) :
    utf8EncodeChar c ++ l < utf8EncodeChar d ++ m := by
  have hlt : c.val.toNat < d.val.toNat := h
  have hd : d.val.toNat < 0x110000 := by
    rcases d.valid with hlow | ⟨-, hhigh⟩
    · omega
    · exact hhigh
  simp only [utf8EncodeChar]
  generalize c.val.toNat = x at *
  generalize d.val.toNat = y at *
  repeat' split
  -- byte by byte, up to the one that differs; after it the code points would be equal
  all_goals
    simp only [List.cons_append, List.nil_append]
    repeat refine cons_lt_cons (by omega) (by omega) (by omega) fun _ => ?_
    omega

theorem encode_ne_nil (c : Char) : utf8EncodeChar c ≠ [] := by
  intro h
  have hsize := String.length_utf8EncodeChar c
  rw [h] at hsize
  exact absurd hsize.symm (Nat.pos_iff_ne_zero.mp c.utf8Size_pos)

theorem flatMap_lt_flatMap {cs ds : List Char} (h : cs < ds) :
    cs.flatMap utf8EncodeChar < ds.flatMap utf8EncodeChar := by
  induction h with
  | @nil d ds =>
      have hne : (d :: ds).flatMap utf8EncodeChar ≠ [] := by
        rw [List.flatMap_cons]
        exact List.append_ne_nil_of_left_ne_nil (encode_ne_nil d) _
      obtain ⟨b, l, hbl⟩ := List.exists_cons_of_ne_nil hne
      rw [List.flatMap_nil, hbl]
      exact List.nil_lt_cons b l
  | cons _ ih =>
      rw [List.flatMap_cons, List.flatMap_cons]
      exact List.Lex.append_left _ ih _
  | rel hlt =>
      rw [List.flatMap_cons, List.flatMap_cons]
      exact encode_append_lt hlt _ _

/-- **The order of UTF-8** is the order of the code points. -/
theorem bytes_lt_iff {s t : String} : bytes s < bytes t ↔ s < t := by
  constructor
  · intro h
    -- no other order of the texts is compatible with that of the bytes
    rcases lt_trichotomy s.toList t.toList with hlt | heq | hgt
    · exact hlt
    · rw [bytes, bytes, heq] at h
      exact absurd h (List.lt_irrefl _)
    · exact absurd h (List.lt_asymm (flatMap_lt_flatMap hgt))
  · exact fun h => flatMap_lt_flatMap h

end Utf8
