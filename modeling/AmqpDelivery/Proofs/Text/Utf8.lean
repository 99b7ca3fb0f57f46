import Mathlib.Algebra.Group.Nat.Defs

/-!
# Texts and their bytes

A text is read back from its bytes in UTF-8, and only from these (`fromUTF8?_eq_some_iff`), and
texts are in order if and only if their bytes are (`lt_iff_utf8Bytes_lt`). The second comes from
what UTF-8 does to two characters (`below_utf8EncodeChar`): either already the lead byte tells them
apart, or they have the same shape and their bits are laid out from the highest to the lowest.
-/

namespace AmqpDelivery.Text

/-! ## Bytes and back -/

theorem toUTF8_of_fromUTF8? {bytes : ByteArray} {s : String}
    (h : String.fromUTF8? bytes = some s) : s.toUTF8 = bytes := by
  unfold String.fromUTF8? at h
  split at h
  · cases h
    rfl
  · cases h

theorem fromUTF8?_toUTF8 (s : String) : String.fromUTF8? s.toUTF8 = some s := by
  rw [String.fromUTF8?, String.toUTF8_eq_toByteArray, dif_pos s.isValidUTF8]
  rfl

theorem fromUTF8?_eq_some_iff {bytes : ByteArray} {s : String} :
    String.fromUTF8? bytes = some s ↔ bytes = s.toUTF8 := by
  constructor
  · intro h
    exact (toUTF8_of_fromUTF8? h).symm
  · rintro rfl
    exact fromUTF8?_toUTF8 s

/-- The bytes of a text in UTF-8. -/
def utf8Bytes (s : String) : List UInt8 := s.toUTF8.data.toList

theorem utf8Bytes_eq (s : String) : utf8Bytes s = s.toList.flatMap String.utf8EncodeChar := by
  rw [utf8Bytes, String.toUTF8_eq_toByteArray, ← String.utf8Encode_toList, List.utf8Encode,
    List.toList_data_toByteArray]

/-! ## Rows of bytes -/

/-- There is a place where both rows have a byte and these differ, and at the first such place the
byte of the first row is the lesser one. -/
def Below : List UInt8 → List UInt8 → Prop
  | x :: l, y :: m => x < y ∨ x = y ∧ Below l m
  | _, _ => False

section Rows

variable {x y : UInt8} {l m : List UInt8}

/-- What follows does not matter. -/
theorem Below.append (h : Below l m) (a b : List UInt8) : Below (l ++ a) (m ++ b) := by
  induction l generalizing m with
  | nil => exact h.elim
  | cons x l ih =>
      cases m with
      | nil => exact h.elim
      | cons y m => exact h.imp_right fun hrest => ⟨hrest.1, ih hrest.2⟩

theorem Below.lt (h : Below l m) : l < m := by
  induction l generalizing m with
  | nil => exact h.elim
  | cons x l ih =>
      cases m with
      | nil => exact h.elim
      | cons y m => exact List.cons_lt_cons_iff.mpr (h.imp_right fun hrest => ⟨hrest.1, ih hrest.2⟩)

theorem below_concat (l : List UInt8) (h : x < y) : Below (l ++ [x]) (l ++ [y]) := by
  induction l with
  | nil => exact Or.inl h
  | cons z l ih => exact Or.inr ⟨rfl, ih⟩

theorem below_of_head (hx : l.head? = some x) (hy : m.head? = some y) (h : x < y) : Below l m := by
  obtain ⟨l, rfl⟩ := List.head?_eq_some_iff.mp hx
  obtain ⟨m, rfl⟩ := List.head?_eq_some_iff.mp hy
  exact Or.inl h

end Rows

/-! ## Characters -/

/-- A lead byte, the first possible one being given, and so many bytes of six bits each. -/
def sextets (lead : Nat) : Nat → Nat → List UInt8
  | 0, n => [UInt8.ofNat (n + lead)]
  | k + 1, n => sextets lead k (n / 64) ++ [UInt8.ofNat (n % 64 + 0x80)]

/-- The first possible lead byte for a code point, and how many bytes follow it. -/
def shape (n : Nat) : Nat × Nat :=
  if n ≤ 0x7f then (0, 0)
  else if n ≤ 0x7ff then (0xc0, 1)
  else if n ≤ 0xffff then (0xe0, 2)
  else (0xf0, 3)

section Characters

variable {lead k n m : Nat} {c d : Char}

theorem ofNat_lt_ofNat (h : n < m) (hm : m < 256) : UInt8.ofNat n < UInt8.ofNat m := by
  rw [UInt8.lt_iff_toNat_lt, UInt8.toNat_ofNat_of_lt' hm,
    UInt8.toNat_ofNat_of_lt' (Nat.lt_trans h hm)]
  exact h

theorem head?_sextets (lead k n : Nat) :
    (sextets lead k n).head? = some (UInt8.ofNat (n / 64 ^ k + lead)) := by
  induction k generalizing n with
  | zero => rw [Nat.pow_zero, Nat.div_one]; rfl
  | succ k ih =>
      rw [sextets, List.head?_append, ih, Nat.div_div_eq_div_mul, Nat.pow_succ']
      rfl

/-- Numbers in order give rows in order, if they have the same shape. -/
theorem below_sextets (h : n < m) (hlead : m / 64 ^ k + lead < 256) :
    Below (sextets lead k n) (sextets lead k m) := by
  induction k generalizing n m with
  | zero =>
      rw [Nat.pow_zero, Nat.div_one] at hlead
      exact Or.inl (ofNat_lt_ofNat (Nat.add_lt_add_right h lead) hlead)
  | succ k ih =>
      rw [Nat.pow_succ', ← Nat.div_div_eq_div_mul] at hlead
      -- the last six bits decide only where the others agree
      by_cases hfront : n / 64 < m / 64
      · exact (ih hfront hlead).append _ _
      · have hsame : n / 64 = m / 64 := by omega
        rw [sextets, sextets, hsame]
        exact below_concat _ (ofNat_lt_ofNat (by omega) (by omega))

/-- The shape is given by where the code point lies. -/
theorem shape_cases (n : Nat) :
    n ≤ 0x7f ∧ shape n = (0, 0) ∨
      (0x7f < n ∧ n ≤ 0x7ff) ∧ shape n = (0xc0, 1) ∨
      (0x7ff < n ∧ n ≤ 0xffff) ∧ shape n = (0xe0, 2) ∨
      0xffff < n ∧ shape n = (0xf0, 3) := by
  unfold shape
  grind

theorem toNat_lt (c : Char) : c.toNat < 0x110000 := by
  have hvalid := c.valid
  unfold UInt32.isValidChar Nat.isValidChar at hvalid
  show c.val.toNat < 0x110000
  omega

/-- A character is written as its code point in the shape for it. -/
theorem utf8EncodeChar_eq (c : Char) :
    String.utf8EncodeChar c = sextets (shape c.toNat).1 (shape c.toNat).2 c.toNat := by
  have hlast := toNat_lt c
  have hval : c.val.toNat = c.toNat := rfl
  unfold String.utf8EncodeChar
  -- the lead byte has room for all the bits that are left, so none is cut off
  rcases shape_cases c.toNat with ⟨h, hshape⟩ | ⟨h, hshape⟩ | ⟨h, hshape⟩ | ⟨h, hshape⟩
  · rw [hshape]
    simp only [hval, sextets, if_pos h, Nat.add_zero]
  · have hnot1 : ¬ c.toNat ≤ 0x7f := Nat.not_le.mpr h.1
    have hlead : c.toNat / 64 % 32 = c.toNat / 64 := Nat.mod_eq_of_lt (by omega)
    rw [hshape]
    simp only [hval, sextets, List.singleton_append, if_neg hnot1, if_pos h.2, hlead]
  · have hnot2 : ¬ c.toNat ≤ 0x7ff := Nat.not_le.mpr h.1
    have hnot1 : ¬ c.toNat ≤ 0x7f := by omega
    have hlead : c.toNat / 4096 % 16 = c.toNat / 64 / 64 := by omega
    rw [hshape]
    simp only [hval, sextets, List.cons_append, List.nil_append, if_neg hnot1, if_neg hnot2,
      if_pos h.2, hlead]
  · have hnot3 : ¬ c.toNat ≤ 0xffff := Nat.not_le.mpr h
    have hnot2 : ¬ c.toNat ≤ 0x7ff := by omega
    have hnot1 : ¬ c.toNat ≤ 0x7f := by omega
    have hlead : c.toNat / 262144 % 8 = c.toNat / 64 / 64 / 64 := by omega
    have hnext : c.toNat / 4096 % 64 = c.toNat / 64 / 64 % 64 := by omega
    rw [hshape]
    simp only [hval, sextets, List.cons_append, List.nil_append, if_neg hnot1, if_neg hnot2,
      if_neg hnot3, hlead, hnext]

/-- A code point leaves room for its lead byte. -/
theorem lead_lt (h : n < 0x110000) : n / 64 ^ (shape n).2 + (shape n).1 < 256 := by
  rcases shape_cases n with ⟨hn, hshape⟩ | ⟨hn, hshape⟩ | ⟨hn, hshape⟩ | ⟨hn, hshape⟩ <;>
    simp only [hshape] <;> omega

/-- The greater code point has the greater lead byte, if the shapes differ. -/
theorem lead_lt_lead (h : n < m) (hshape : shape n ≠ shape m) :
    n / 64 ^ (shape n).2 + (shape n).1 < m / 64 ^ (shape m).2 + (shape m).1 := by
  -- each shape has lead bytes of its own, and those of a longer shape are greater
  rcases shape_cases n with ⟨hn, hn'⟩ | ⟨hn, hn'⟩ | ⟨hn, hn'⟩ | ⟨hn, hn'⟩ <;>
    rcases shape_cases m with ⟨hm, hm'⟩ | ⟨hm, hm'⟩ | ⟨hm, hm'⟩ | ⟨hm, hm'⟩ <;>
      simp only [hn', hm', ne_eq, not_true_eq_false] at hshape ⊢ <;> omega

theorem below_utf8EncodeChar (h : c < d) :
    Below (String.utf8EncodeChar c) (String.utf8EncodeChar d) := by
  have hlt : c.toNat < d.toNat := UInt32.lt_iff_toNat_lt.mp h
  have hlead := lead_lt (toNat_lt d)
  rw [utf8EncodeChar_eq, utf8EncodeChar_eq]
  by_cases hshape : shape c.toNat = shape d.toNat
  · rw [hshape]
    exact below_sextets hlt hlead
  · exact below_of_head (head?_sextets _ _ _) (head?_sextets _ _ _)
      (ofNat_lt_ofNat (lead_lt_lead hlt hshape) hlead)

end Characters

/-! ## Texts -/

section Texts

variable {s t : String}

theorem flatMap_utf8EncodeChar_lt {cs ds : List Char} (h : cs < ds) :
    cs.flatMap String.utf8EncodeChar < ds.flatMap String.utf8EncodeChar := by
  induction h with
  | @nil d ds =>
      obtain ⟨x, l, hx⟩ := List.exists_cons_of_ne_nil (String.utf8EncodeChar_ne_nil (c := d))
      rw [List.flatMap_nil, List.flatMap_cons, hx]
      exact List.nil_lt_cons _ _
  | @cons c cs ds _ ih =>
      rw [List.flatMap_cons, List.flatMap_cons]
      exact List.append_left_lt ih
  | @rel c cs d ds hlt =>
      rw [List.flatMap_cons, List.flatMap_cons]
      exact ((below_utf8EncodeChar hlt).append _ _).lt

theorem utf8Bytes_lt (h : s < t) : utf8Bytes s < utf8Bytes t := by
  rw [utf8Bytes_eq, utf8Bytes_eq]
  exact flatMap_utf8EncodeChar_lt h

/-- Texts are in order if and only if their bytes are. -/
theorem lt_iff_utf8Bytes_lt : s < t ↔ utf8Bytes s < utf8Bytes t := by
  refine ⟨utf8Bytes_lt, fun h => ?_⟩
  rcases Decidable.em (s < t) with hlt | hnot
  · exact hlt
  · -- otherwise the bytes would be the same, or in order the other way round
    rcases Decidable.em (t < s) with hgt | hnot'
    · exact absurd (utf8Bytes_lt hgt) (List.lt_asymm h)
    · have heq : s = t := String.le_antisymm (String.not_lt.mp hnot') (String.not_lt.mp hnot)
      exact absurd h (heq ▸ List.lt_irrefl _)

end Texts

end AmqpDelivery.Text
