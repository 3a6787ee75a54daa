/-
# `MethodSkeleton.Proofs.Text.Bytes` — texts and their bytes

Bytes are read as a text exactly if they are its encoding in UTF-8 (`fromUTF8?_eq_some_iff`).

Texts are compared by the code points of their characters.  That is the order of their bytes
(`bytesBefore_iff`): the encoding of the smaller of two characters is smaller in the first byte in
which the two differ (`utf8EncodeChar_append_lt`), and what stands behind does not matter.
-/
import Mathlib.Data.String.Basic

namespace MethodSkeleton

/-! ## Reading -/

theorem fromUTF8?_eq_some_iff {bytes : ByteArray} {text : String} :
    String.fromUTF8? bytes = some text ↔ bytes = text.toUTF8 := by
  constructor
  · intro h
    unfold String.fromUTF8? at h
    split at h
    · cases h
      rfl
    · cases h
  · rintro rfl
    exact dif_pos text.isValidUTF8

theorem fromUTF8?_toUTF8 (text : String) : String.fromUTF8? text.toUTF8 = some text :=
  fromUTF8?_eq_some_iff.mpr rfl

/-! ## The order -/

/-- The bytes of a text in UTF-8. -/
def utf8Bytes (s : String) : List UInt8 := s.toUTF8.data.toList

/-- The bytes of the first text come before those of the second, compared from the front. -/
def BytesBefore (s t : String) : Prop := utf8Bytes s < utf8Bytes t

instance (s t : String) : Decidable (BytesBefore s t) :=
  inferInstanceAs (Decidable (utf8Bytes s < utf8Bytes t))

theorem utf8Bytes_eq (s : String) : utf8Bytes s = s.toList.flatMap String.utf8EncodeChar := by
  conv_lhs => rw [← String.ofList_toList (s := s)]
  rw [utf8Bytes, String.toUTF8, String.toByteArray_ofList, List.utf8Encode,
    List.toList_data_toByteArray]

/-! ### Characters -/

theorem toNat_ofNat_of_lt {n : Nat} (h : n < 256) : (UInt8.ofNat n).toNat = n := by
  rw [UInt8.toNat_ofNat', Nat.mod_eq_of_lt h]

theorem toNat_val_le (c : Char) : c.val.toNat ≤ 0x10ffff := by
  rcases c.valid with h | ⟨_, h⟩
  · have hlt : c.val.toNat < 0xd800 := h
    omega
  · have hlt : c.val.toNat < 0x110000 := h
    omega

/-- Numbers in groups of six bits are told apart by the first group in which they differ. -/
theorem sextets_lt {n m : Nat} (hlt : n < m) :
    n / 262144 < m / 262144 ∨ n / 262144 = m / 262144 ∧
      (n / 4096 % 64 < m / 4096 % 64 ∨ n / 4096 % 64 = m / 4096 % 64 ∧
        (n / 64 % 64 < m / 64 % 64 ∨ n / 64 % 64 = m / 64 % 64 ∧ n % 64 < m % 64)) := by
  rcases Nat.lt_or_ge (n / 64) (m / 64) with hsecond | hsecond
  · rcases Nat.lt_or_ge (n / 4096) (m / 4096) with hthird | hthird
    · omega
    · omega
  · omega

/-- Characters are told apart by the first byte in which their encodings differ. -/
theorem utf8EncodeChar_append_lt {c d : Char} (h : c < d) (u v : List UInt8) :
    String.utf8EncodeChar c ++ u < String.utf8EncodeChar d ++ v := by
  have hlt : c.val.toNat < d.val.toNat := h
  have hle := toNat_val_le d
  unfold String.utf8EncodeChar
  generalize c.val.toNat = n at hlt ⊢
  generalize d.val.toNat = m at hlt hle ⊢
  dsimp only
  by_cases hshort : n ≤ 0xffff
  · -- a longer encoding has a greater first byte, and one of up to three bytes has few groups
    (repeat' split) <;>
    simp (disch := omega) only [List.cons_append, List.nil_append, List.cons_lt_cons_iff,
      UInt8.lt_iff_toNat_lt, ← UInt8.toNat_inj, toNat_ofNat_of_lt] <;>
    omega
  · have hn : ∀ k ≤ 0xffff, ¬ n ≤ k := fun k hk hnk => hshort (Nat.le_trans hnk hk)
    have hm : ∀ k ≤ 0xffff, ¬ m ≤ k := fun k hk hmk =>
      hn k hk (Nat.le_trans (Nat.le_of_lt hlt) hmk)
    simp (disch := omega) only [hn, hm, if_false, List.cons_append, List.cons_lt_cons_iff,
      UInt8.lt_iff_toNat_lt, ← UInt8.toNat_inj, toNat_ofNat_of_lt, Nat.mod_eq_of_lt,
      Nat.add_lt_add_iff_right, Nat.add_right_cancel_iff]
    have hsextets := sextets_lt hlt
    tauto

/-! ### Texts -/

theorem flatMap_utf8EncodeChar_lt {cs ds : List Char} (h : cs < ds) :
    cs.flatMap String.utf8EncodeChar < ds.flatMap String.utf8EncodeChar := by
  induction cs generalizing ds with
  | nil =>
      cases ds with
      | nil => cases h
      | cons d ds =>
          obtain ⟨b, bs, hbs⟩ := List.exists_cons_of_ne_nil (@String.utf8EncodeChar_ne_nil d)
          rw [List.flatMap_nil, List.flatMap_cons, hbs]
          exact List.nil_lt_cons _ _
  | cons c cs ih =>
      cases ds with
      | nil => cases h
      | cons d ds =>
          rw [List.flatMap_cons, List.flatMap_cons]
          rcases List.cons_lt_cons_iff.mp h with hlt | ⟨rfl, hrest⟩
          · exact utf8EncodeChar_append_lt hlt _ _
          · exact List.append_left_lt (ih hrest)

/-- **The order of texts is that of their bytes.** -/
theorem bytesBefore_iff {s t : String} : BytesBefore s t ↔ s < t := by
  rw [BytesBefore, utf8Bytes_eq, utf8Bytes_eq]
  constructor
  · intro h
    rcases lt_trichotomy s t with hlt | rfl | hgt
    · exact hlt
    · exact absurd h (List.lt_irrefl _)
    · exact absurd (List.lt_trans h (flatMap_utf8EncodeChar_lt hgt)) (List.lt_irrefl _)
  · exact flatMap_utf8EncodeChar_lt

end MethodSkeleton
