import Mathlib.Data.String.Basic

/-! # The order of texts

Texts are compared character by character. That is the order of their bytes: a character with a
smaller code point has a smaller byte where its UTF-8 encoding first differs.
-/

namespace GoSchema.Text

def bytes (text : String) : List UInt8 :=
  text.toUTF8.data.toList

/-- Two lists differ at some place, and the first one is smaller there. -/
def DiffersBelow : List UInt8 → List UInt8 → Prop
  | x :: xs, y :: ys => x.toNat < y.toNat ∨ x.toNat = y.toNat ∧ DiffersBelow xs ys
  | _, _ => False

theorem DiffersBelow.append_lt {xs ys : List UInt8} (below : DiffersBelow xs ys)
    (ms ns : List UInt8) : xs ++ ms < ys ++ ns := by
  induction xs generalizing ys with
  | nil => cases ys <;> cases below
  | cons x xs ih =>
      cases ys with
      | nil => cases below
      | cons y ys =>
          rw [List.cons_append, List.cons_append, List.cons_lt_cons_iff]
          rcases below with here | ⟨same, later⟩
          · exact .inl here
          · exact .inr ⟨UInt8.toNat_inj.mp same, ih later⟩

/-- A smaller character has a smaller encoding. -/
theorem differsBelow_encoding {c d : Char} (below : c < d) :
    DiffersBelow (String.utf8EncodeChar c) (String.utf8EncodeChar d) := by
  have less : c.val.toNat < d.val.toNat := below
  have bound : d.val.toNat < 0x110000 := by
    rcases d.valid with low | ⟨-, high⟩
    · exact Nat.lt_trans low (by decide)
    · exact high
  have digits : c.val.toNat / 4096 < d.val.toNat / 4096 ∨
      c.val.toNat / 4096 = d.val.toNat / 4096 ∧
        (c.val.toNat / 64 % 64 < d.val.toNat / 64 % 64 ∨
          c.val.toNat / 64 % 64 = d.val.toNat / 64 % 64 ∧ c.val.toNat % 64 < d.val.toNat % 64) := by
    omega
  -- a shorter encoding begins with a smaller byte, and those of one length are compared by digits
  simp only [String.utf8EncodeChar]
  repeat' split
  all_goals
    simp (disch := omega) only [DiffersBelow, UInt8.toNat_ofNat', Nat.mod_eq_of_lt]
    omega

theorem bytes_eq (text : String) : bytes text = text.toList.flatMap String.utf8EncodeChar := by
  rw [bytes, String.toUTF8_eq_toByteArray, ← String.utf8Encode_toList, List.utf8Encode,
    List.toList_data_toByteArray]

theorem flatMap_lt {cs ds : List Char} (below : cs < ds) :
    cs.flatMap String.utf8EncodeChar < ds.flatMap String.utf8EncodeChar := by
  induction cs generalizing ds with
  | nil =>
      cases ds with
      | nil => cases below
      | cons d ds =>
          obtain ⟨b, bs, encoding⟩ := List.exists_cons_of_ne_nil (String.utf8EncodeChar_ne_nil (c := d))
          rw [List.flatMap_nil, List.flatMap_cons, encoding, List.cons_append]
          exact List.nil_lt_cons b _
  | cons c cs ih =>
      cases ds with
      | nil => cases below
      | cons d ds =>
          rw [List.flatMap_cons, List.flatMap_cons]
          rcases List.cons_lt_cons_iff.mp below with here | ⟨rfl, later⟩
          · exact (differsBelow_encoding here).append_lt _ _
          · exact List.append_left_lt (ih later)

/-- The order of texts is the order of their bytes. -/
theorem bytes_lt_bytes (s t : String) : bytes s < bytes t ↔ s < t := by
  rw [bytes_eq, bytes_eq]
  constructor
  · intro below
    rcases lt_trichotomy s t with less | rfl | greater
    · exact less
    · exact absurd below (List.lt_irrefl _)
    · exact absurd below (List.lt_asymm (flatMap_lt greater))
  · exact flatMap_lt

theorem bytes_le_bytes (s t : String) : bytes s ≤ bytes t ↔ s ≤ t :=
  not_congr (bytes_lt_bytes t s)

end GoSchema.Text
