import AmqpDelivery.Connection.Backoff
import Mathlib.Algebra.Group.Nat.Defs

/-!
# How long a wait is

A wait is computed in 64 bits, and it is the wait that arithmetic without bounds gives
(`toNat_backoffDelay`): the factor fits into 64 bits, and a product that does not is at least as
great as any bound that the settings can name. So waits are bounded, do not get shorter from attempt
to attempt, and double until the bound or the seventeenth attempt (`backoff_exact`).
-/

namespace AmqpDelivery

/-! ## Words -/

theorem toNat_maxUInt64 : maxUInt64.toNat = 2 ^ 64 - 1 := by decide

theorem toNat_min (a b : UInt64) : (min a b).toNat = min a.toNat b.toNat := by
  show (if a ≤ b then a else b).toNat = min a.toNat b.toNat
  split
  · next h =>
    rw [UInt64.le_iff_toNat_le] at h
    omega
  · next h =>
    rw [UInt64.le_iff_toNat_le] at h
    omega

/-- A product is exact if it fits into 64 bits, and the greatest number of 64 bits otherwise. -/
theorem toNat_saturatingMul (a b : UInt64) :
    (saturatingMul a b).toNat = min (a.toNat * b.toNat) (2 ^ 64 - 1) := by
  unfold saturatingMul
  split
  · next hfits =>
    have hle : a.toNat * b.toNat ≤ 2 ^ 64 - 1 := Nat.le_sub_one_of_lt hfits
    rw [UInt64.toNat_mul, Nat.mod_eq_of_lt hfits, Nat.min_eq_left hle]
  · next hlarge =>
    have hle : 2 ^ 64 - 1 ≤ a.toNat * b.toNat := by
      have hsize : UInt64.size ≤ a.toNat * b.toNat := Nat.not_lt.mp hlarge
      exact Nat.le_trans (by decide) hsize
    rw [toNat_maxUInt64, Nat.min_eq_right hle]

/-! ## Waits -/

/-- The power of two by which the first interval is multiplied. -/
def backoffFactor (attempt : UInt32) : UInt64 := 1 <<< UInt64.ofNat (backoffExponent attempt)

section Delays

variable (s : ReconnectSettings) {attempt a b : UInt32}

/-- Attempts are counted from one, and a count of zero is taken for one. -/
theorem backoffExponent_eq (attempt : UInt32) :
    backoffExponent attempt = min (max attempt.toNat 1 - 1) 16 := by
  unfold backoffExponent
  omega

theorem backoffDelay_eq (attempt : UInt32) :
    backoffDelay s attempt =
      min (saturatingMul s.initialIntervalMs (backoffFactor attempt)) s.maxIntervalMs := rfl

/-- No bit is shifted out of the factor. -/
theorem toNat_backoffFactor (attempt : UInt32) :
    (backoffFactor attempt).toNat = 2 ^ backoffExponent attempt := by
  have hexponent : backoffExponent attempt ≤ 16 := Nat.min_le_right _ _
  have hshift : (UInt64.ofNat (backoffExponent attempt)).toNat % 64 = backoffExponent attempt := by
    rw [UInt64.toNat_ofNat_of_lt' (show backoffExponent attempt < 2 ^ 64 by omega)]
    exact Nat.mod_eq_of_lt (by omega)
  have hfits : 2 ^ backoffExponent attempt < 2 ^ 64 :=
    Nat.pow_lt_pow_right (by decide) (by omega)
  rw [backoffFactor, UInt64.toNat_shiftLeft, hshift, UInt64.toNat_one, Nat.one_shiftLeft,
    Nat.mod_eq_of_lt hfits]

/-- The wait is the one that arithmetic without bounds gives. -/
theorem toNat_backoffDelay (attempt : UInt32) :
    (backoffDelay s attempt).toNat =
      min (s.initialIntervalMs.toNat * 2 ^ backoffExponent attempt) s.maxIntervalMs.toNat := by
  -- a product that was cut off lies above the bound, cut off or not
  have hbound : s.maxIntervalMs.toNat ≤ 2 ^ 64 - 1 := Nat.le_sub_one_of_lt s.maxIntervalMs.toNat_lt
  rw [backoffDelay_eq, toNat_min, toNat_saturatingMul, toNat_backoffFactor, Nat.min_assoc,
    Nat.min_eq_right hbound]

theorem backoffDelay_le (attempt : UInt32) : backoffDelay s attempt ≤ s.maxIntervalMs := by
  rw [UInt64.le_iff_toNat_le, toNat_backoffDelay]
  exact Nat.min_le_right _ _

theorem backoffExponent_mono (h : a ≤ b) : backoffExponent a ≤ backoffExponent b := by
  rw [UInt32.le_iff_toNat_le] at h
  unfold backoffExponent
  omega

theorem backoffDelay_mono (h : a ≤ b) : backoffDelay s a ≤ backoffDelay s b := by
  have hpower : 2 ^ backoffExponent a ≤ 2 ^ backoffExponent b :=
    Nat.pow_le_pow_right (by decide) (backoffExponent_mono h)
  have hproduct := Nat.mul_le_mul_left s.initialIntervalMs.toNat hpower
  rw [UInt64.le_iff_toNat_le, toNat_backoffDelay, toNat_backoffDelay]
  omega

/-- Up to the sixteenth attempt the interval doubles once more. -/
theorem backoffExponent_succ (hfirst : 1 ≤ attempt) (hlast : attempt ≤ 16) :
    backoffExponent (attempt + 1) = backoffExponent attempt + 1 := by
  have hone : 1 ≤ attempt.toNat := UInt32.le_iff_toNat_le.mp hfirst
  have hsixteen : attempt.toNat ≤ 16 := UInt32.le_iff_toNat_le.mp hlast
  have hnext : (attempt + 1).toNat = attempt.toNat + 1 := by
    rw [UInt32.toNat_add]
    exact Nat.mod_eq_of_lt (show attempt.toNat + 1 < 2 ^ 32 by omega)
  unfold backoffExponent
  omega

theorem toNat_backoffDelay_succ (hfirst : 1 ≤ attempt) (hlast : attempt ≤ 16) :
    (backoffDelay s (attempt + 1)).toNat =
      min s.maxIntervalMs.toNat (2 * (backoffDelay s attempt).toNat) := by
  have hdouble : s.initialIntervalMs.toNat * 2 ^ (backoffExponent attempt + 1) =
      2 * (s.initialIntervalMs.toNat * 2 ^ backoffExponent attempt) := by
    rw [Nat.pow_succ, ← Nat.mul_assoc, Nat.mul_comm _ 2]
  rw [toNat_backoffDelay, toNat_backoffDelay, backoffExponent_succ hfirst hlast, hdouble]
  omega

end Delays

/-- For any settings and any number of an attempt: the factor is exact, the product is exact or the
greatest number of 64 bits, the wait is what arithmetic without bounds gives, and it is within its
bound. A later attempt is not followed by a shorter wait, and up to the sixteenth attempt the next
wait is twice as long, or as long as the bound allows. -/
theorem backoff_exact (s : ReconnectSettings) :
    (∀ attempt : UInt32,
      let doublings := min (max attempt.toNat 1 - 1) 16
      backoffDelay s attempt =
        min (saturatingMul s.initialIntervalMs (backoffFactor attempt)) s.maxIntervalMs ∧
      (backoffFactor attempt).toNat = 2 ^ doublings ∧
      (saturatingMul s.initialIntervalMs (backoffFactor attempt)).toNat =
        min (s.initialIntervalMs.toNat * 2 ^ doublings) (2 ^ 64 - 1) ∧
      (backoffDelay s attempt).toNat =
        min (s.initialIntervalMs.toNat * 2 ^ doublings) s.maxIntervalMs.toNat ∧
      backoffDelay s attempt ≤ s.maxIntervalMs) ∧
    (∀ earlier later : UInt32, earlier ≤ later →
      backoffDelay s earlier ≤ backoffDelay s later) ∧
    ∀ attempt : UInt32, 1 ≤ attempt → attempt ≤ 16 →
      (backoffDelay s (attempt + 1)).toNat =
        min s.maxIntervalMs.toNat (2 * (backoffDelay s attempt).toNat) := by
  refine ⟨?_, ?_, ?_⟩
  · intro attempt doublings
    have hdoublings : backoffExponent attempt = doublings := backoffExponent_eq attempt
    have hfactor : (backoffFactor attempt).toNat = 2 ^ doublings := by
      rw [toNat_backoffFactor, hdoublings]
    refine ⟨backoffDelay_eq s attempt, hfactor, ?_, ?_, backoffDelay_le s attempt⟩
    · rw [toNat_saturatingMul, hfactor]
    · rw [toNat_backoffDelay, hdoublings]
  · intro earlier later h
    exact backoffDelay_mono s h
  · intro attempt hfirst hlast
    exact toNat_backoffDelay_succ s hfirst hlast

/-- The first interval no longer fits into 64 bits when it is doubled. -/
def steepReconnect : ReconnectSettings :=
  { initialIntervalMs := 0x8000000000000000, maxIntervalMs := 0xFFFFFFFFFFFFFFFF }

theorem backoff_exact_steep :
    (backoffDelay steepReconnect 0).toNat = 2 ^ 63 ∧
      (saturatingMul steepReconnect.initialIntervalMs (backoffFactor 2)).toNat = 2 ^ 64 - 1 ∧
      (2 : UInt32) ≤ 0xFFFFFFFF ∧
      backoffDelay steepReconnect 2 ≤ backoffDelay steepReconnect 0xFFFFFFFF ∧
      (1 : UInt32) ≤ 16 ∧
      (backoffDelay steepReconnect (16 + 1)).toNat =
        min (2 ^ 64 - 1) (2 * (backoffDelay steepReconnect 16).toNat) := by
  obtain ⟨hexact, hmono, hdouble⟩ := backoff_exact steepReconnect
  obtain ⟨-, -, -, hzero, -⟩ := hexact 0
  obtain ⟨-, -, hsecond, -⟩ := hexact 2
  refine ⟨hzero.trans (by decide), hsecond.trans (by decide), by decide, ?_, by decide, ?_⟩
  · exact hmono 2 0xFFFFFFFF (by decide)
  · exact hdouble 16 (by decide) (by decide)

/-- The wait doubles until it would pass the bound. -/
example : [1, 2, 4, 5, 60].map (backoffDelay { initialIntervalMs := 100, maxIntervalMs := 1000 }) =
    [100, 200, 800, 1000, 1000] := by decide

end AmqpDelivery
