import AmqpDelivery.Decimal.Natural
import Mathlib.Tactic.Ring

/-!
# Decimal numbers are read back

A natural number that is written in decimal consists of digits (`mem_digits`) and is read back by
its value (`value?_digits`), so different numbers have different texts (`digits_injective`).
-/

namespace AmqpDelivery.Decimal

theorem toList_ofNat (n : Nat) : (ofNat n).toList = digits n := String.toList_ofList

theorem digit?_digitChar {d : Nat} (h : d < 10) : digit? (digitChar d) = some d :=
  (by decide : ∀ d < 10, digit? (digitChar d) = some d) d h

/-- What is written consists of digits. -/
theorem mem_digits {n : Nat} {c : Char} (h : c ∈ digits n) : ∃ d < 10, c = digitChar d := by
  induction n using digits.induct with
  | case1 n hn =>
      rw [digits, if_pos hn, List.mem_singleton] at h
      exact ⟨n, hn, h⟩
  | case2 n hn ih =>
      rw [digits, if_neg hn, List.mem_append, List.mem_singleton] at h
      rcases h with h | h
      · exact ih h
      · exact ⟨n % 10, Nat.mod_lt n (by decide), h⟩

/-- A character that is no digit is not written. -/
theorem not_mem_digits {n : Nat} {c : Char} (h : digit? c = none) : c ∉ digits n := by
  intro hmem
  obtain ⟨d, hd, rfl⟩ := mem_digits hmem
  rw [digit?_digitChar hd] at h
  cases h

theorem digits_ne_nil (n : Nat) : digits n ≠ [] := by
  rw [digits]
  split <;> simp

theorem valueFrom_append (acc : Nat) (cs ds : List Char) :
    valueFrom acc (cs ++ ds) = (valueFrom acc cs).bind fun n => valueFrom n ds := by
  induction cs generalizing acc with
  | nil => rfl
  | cons c rest ih =>
      rw [List.cons_append, valueFrom, valueFrom]
      cases digit? c with
      | none => rfl
      | some d => exact ih _

/-- Digits that follow a number are appended to it. -/
theorem valueFrom_digits (acc n : Nat) :
    valueFrom acc (digits n) = some (acc * 10 ^ (digits n).length + n) := by
  induction n using digits.induct generalizing acc with
  | case1 n hn =>
      rw [digits, if_pos hn, valueFrom, digit?_digitChar hn]
      simp [valueFrom, Nat.mul_comm]
  | case2 n hn ih =>
      have hlast : n % 10 < 10 := Nat.mod_lt n (by decide)
      have hn' : 10 * (n / 10) + n % 10 = n := Nat.div_add_mod n 10
      rw [digits, if_neg hn, valueFrom_append, ih, Option.bind_some, valueFrom,
        digit?_digitChar hlast, List.length_append, List.length_singleton]
      simp only [valueFrom, Option.some.injEq]
      calc 10 * (acc * 10 ^ (digits (n / 10)).length + n / 10) + n % 10
          = acc * 10 ^ ((digits (n / 10)).length + 1) + (10 * (n / 10) + n % 10) := by ring
        _ = acc * 10 ^ ((digits (n / 10)).length + 1) + n := by rw [hn']

/-- A written number is read back. -/
theorem value?_digits (n : Nat) : value? (digits n) = some n := by
  have hvalue := valueFrom_digits 0 n
  cases hdigits : digits n with
  | nil => exact absurd hdigits (digits_ne_nil n)
  | cons c rest =>
      rw [hdigits] at hvalue
      simpa [value?] using hvalue

theorem digits_injective {m n : Nat} (h : digits m = digits n) : m = n := by
  have hvalue := value?_digits m
  rw [h, value?_digits] at hvalue
  exact (Option.some.inj hvalue).symm

end AmqpDelivery.Decimal
