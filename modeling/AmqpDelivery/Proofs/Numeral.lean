import AmqpDelivery.Proofs.Decimal
import Mathlib.Data.Nat.Digits.Defs

/-!
# Which texts are numbers

A text spells a number if it consists of ASCII digits, after one plus sign or none, that have this
value (`Spells`). The reader of 64-bit numbers takes exactly the texts that spell one
(`readUInt64?_eq_some_iff`) and refuses all the others (`readUInt64?_eq_none_iff`).
-/

namespace AmqpDelivery.Decimal

/-- The value of a row of digits, the most significant first. -/
def numeral (ds : List Char) : Nat := Nat.ofDigits 10 (ds.map fun c => c.toNat - 48).reverse

/-- The text consists of one digit or more, after at most one plus sign, and they have the value. -/
def Spells (s : String) (n : Nat) : Prop :=
  ∃ ds, ds ≠ [] ∧ (∀ c ∈ ds, c.isDigit = true) ∧ (s.toList = ds ∨ s.toList = '+' :: ds) ∧
    numeral ds = n

section Digits

variable {c : Char} {ds : List Char} {acc n : Nat}

theorem isDigit_iff : c.isDigit = true ↔ 48 ≤ c.toNat ∧ c.toNat ≤ 57 := by
  rw [Char.isDigit, Bool.and_eq_true, decide_eq_true_eq, decide_eq_true_eq]
  exact Iff.rfl

theorem digit?_of_isDigit (h : c.isDigit = true) : digit? c = some (c.toNat - 48) := by
  rw [digit?, if_pos (isDigit_iff.mp h)]

theorem digit?_of_not_isDigit (h : ¬ c.isDigit = true) : digit? c = none := by
  rw [digit?, if_neg (mt isDigit_iff.mpr h)]

theorem numeral_cons (c : Char) (ds : List Char) :
    numeral (c :: ds) = numeral ds + 10 ^ ds.length * (c.toNat - 48) := by
  rw [numeral, List.map_cons, Nat.ofDigits_reverse_cons, List.length_map, numeral]

/-- Reading goes on over a row of digits, however long, and adds its value without loss. -/
theorem valueFrom_of_digits (hds : ∀ c ∈ ds, c.isDigit = true) (acc : Nat) :
    valueFrom acc ds = some (acc * 10 ^ ds.length + numeral ds) := by
  induction ds generalizing acc with
  | nil => simp [valueFrom, numeral]
  | cons c rest ih =>
      have hrest : ∀ d ∈ rest, d.isDigit = true := fun d hd => hds d (List.mem_cons_of_mem c hd)
      rw [valueFrom, digit?_of_isDigit (hds c List.mem_cons_self)]
      simp only [ih hrest, numeral_cons, List.length_cons, Option.some.injEq]
      ring

/-- Reading stops at anything else. -/
theorem valueFrom_of_not_digits (hds : ¬ ∀ c ∈ ds, c.isDigit = true) (acc : Nat) :
    valueFrom acc ds = none := by
  induction ds generalizing acc with
  | nil => exact absurd (List.forall_mem_nil _) hds
  | cons c rest ih =>
      rw [valueFrom]
      by_cases hc : c.isDigit = true
      · have hrest : ¬ ∀ d ∈ rest, d.isDigit = true := fun h =>
          hds (List.forall_mem_cons.mpr ⟨hc, h⟩)
        rw [digit?_of_isDigit hc]
        exact ih hrest _
      · rw [digit?_of_not_isDigit hc]

/-- What is read as a value: a row of digits that is not empty. -/
theorem value?_eq_some_iff :
    value? ds = some n ↔ ds ≠ [] ∧ (∀ c ∈ ds, c.isDigit = true) ∧ numeral ds = n := by
  cases ds with
  | nil => simp [value?]
  | cons c rest =>
      rw [value?]
      by_cases hds : ∀ d ∈ c :: rest, d.isDigit = true
      · rw [valueFrom_of_digits hds, Nat.zero_mul, Nat.zero_add, Option.some.injEq]
        exact ⟨fun hn => ⟨List.cons_ne_nil c rest, hds, hn⟩, fun h => h.2.2⟩
      · rw [valueFrom_of_not_digits hds]
        constructor
        · rintro ⟨⟩
        · rintro ⟨-, h, -⟩
          exact absurd h hds

theorem dropPlus_of_not_mem (h : '+' ∉ ds) : dropPlus ds = ds := by
  unfold dropPlus
  split
  · exact absurd List.mem_cons_self h
  · rfl

end Digits

section Texts

variable {s : String} {n : Nat} {k : UInt64}

/-- The digits of a text are what follows its plus sign, or else the whole of it. -/
theorem spells_iff : Spells s n ↔ value? (dropPlus s.toList) = some n := by
  rw [value?_eq_some_iff]
  constructor
  · rintro ⟨ds, hne, hds, hs | hs, hn⟩
    · -- a row of digits does not begin with a plus sign
      have hplus : '+' ∉ ds := fun h => absurd (hds '+' h) (by decide)
      rw [hs, dropPlus_of_not_mem hplus]
      exact ⟨hne, hds, hn⟩
    · rw [hs]
      exact ⟨hne, hds, hn⟩
  · intro h
    refine ⟨dropPlus s.toList, h.1, h.2.1, ?_, h.2.2⟩
    unfold dropPlus
    split
    · exact Or.inr (by assumption)
    · exact Or.inl rfl

/-- A text is read as a 64-bit number just if it spells it. -/
theorem readUInt64?_eq_some_iff : readUInt64? s = some k ↔ Spells s k.toNat := by
  rw [spells_iff, readUInt64?]
  cases value? (dropPlus s.toList) with
  | none => simp
  | some n =>
      simp only [Option.some.injEq]
      by_cases hn : n < UInt64.size
      · rw [if_pos hn, Option.some.injEq]
        constructor
        · rintro rfl
          exact (UInt64.toNat_ofNat_of_lt' hn).symm
        · rintro rfl
          exact UInt64.ofNat_toNat
      · rw [if_neg hn]
        constructor
        · rintro ⟨⟩
        · rintro rfl
          exact absurd k.toNat_lt hn

/-- A text is refused just if it spells no number that fits. -/
theorem readUInt64?_eq_none_iff :
    readUInt64? s = none ↔ ¬ ∃ n < UInt64.size, Spells s n := by
  constructor
  · rintro hnone ⟨n, hn, hspells⟩
    rw [← UInt64.toNat_ofNat_of_lt' hn] at hspells
    rw [readUInt64?_eq_some_iff.mpr hspells] at hnone
    cases hnone
  · intro hnot
    cases hread : readUInt64? s with
    | none => rfl
    | some k => exact absurd ⟨k.toNat, k.toNat_lt, readUInt64?_eq_some_iff.mp hread⟩ hnot

/-- What is written for a 64-bit number is read back. -/
theorem readUInt64?_ofNat (k : UInt64) : readUInt64? (ofNat k.toNat) = some k := by
  rw [readUInt64?_eq_some_iff, spells_iff, toList_ofNat, dropPlus_of_not_mem (not_mem_digits rfl),
    value?_digits]

end Texts

end AmqpDelivery.Decimal
