import AmqpDelivery.Connection.Backoff

/-!
# How often a connection is attempted

Attempts that fail are followed by their waits (`dialFrom_failures`). From this come the three ways
in which dialing goes on: it ends with the first attempt that succeeds (`dial_connected`), or with
the last attempt that the settings allow (`dial_spent`), or it still waits (`dial_waiting`).
-/

namespace AmqpDelivery

variable {α : Type}

/-- The waits that follow the attempts `first`, `first + 1` and so on, `n` in number. -/
def backoffsFrom (s : ReconnectSettings) (first n : Nat) : List UInt64 :=
  (List.range' first n).map fun k => backoffDelay s (UInt32.ofNat k)

/-- The waits that follow the first `n` attempts. -/
def backoffs (s : ReconnectSettings) (n : Nat) : List UInt64 := backoffsFrom s 1 n

/-- The settings allow another attempt after so many failures. -/
def ReconnectSettings.Allows (s : ReconnectSettings) (failures : Nat) : Prop :=
  s.maxAttempts = 0 ∨ failures < s.maxAttempts.toNat

section Failures

variable {s : ReconnectSettings} {m k : Nat}

theorem ReconnectSettings.Allows.mono (h : s.Allows k) (hle : m ≤ k) : s.Allows m :=
  h.imp_right fun hlt => Nat.lt_of_le_of_lt hle hlt

theorem afterFailure_of_allows (h : s.Allows k) (hk : k < UInt32.size) (text : String) :
    afterFailure s (UInt32.ofNat k) text = .retryAfter (backoffDelay s (UInt32.ofNat k)) := by
  refine if_neg ?_
  rintro ⟨hbounded, hspent⟩
  rw [UInt32.le_iff_toNat_le, UInt32.toNat_ofNat_of_lt' hk] at hspent
  rcases h with hzero | hlt
  · exact hbounded hzero
  · exact absurd hlt (Nat.not_lt.mpr hspent)

theorem afterFailure_of_spent (h : s.maxAttempts ≠ 0) (text : String) :
    afterFailure s s.maxAttempts text = .giveUp (.connection text) :=
  if_pos ⟨h, UInt32.le_refl _⟩

/-- Without a bound on the attempts, a failure is followed by a wait. -/
theorem afterFailure_of_unbounded (h : s.maxAttempts = 0) (failures : UInt32) (text : String) :
    afterFailure s failures text = .retryAfter (backoffDelay s failures) := by
  refine if_neg ?_
  rintro ⟨hbounded, -⟩
  exact hbounded h

theorem backoffsFrom_succ (s : ReconnectSettings) (first n : Nat) :
    backoffsFrom s first (n + 1) =
      backoffDelay s (UInt32.ofNat first) :: backoffsFrom s (first + 1) n := by
  rw [backoffsFrom, List.range'_succ, List.map_cons, backoffsFrom]

theorem ofNat_succ (m : Nat) : UInt32.ofNat m + 1 = UInt32.ofNat (m + 1) := by
  simp [UInt32.ofNat_add]

end Failures

/-- The record with attempts and waits before it. -/
def DialRecord.after (r : DialRecord α) (attempts : Nat) (waits : List UInt64) : DialRecord α :=
  ⟨r.result, r.attempts + attempts, waits ++ r.waits⟩

section Dials

variable {s : ReconnectSettings} {m : Nat} {texts : List String}

theorem dialFrom_error_of_retry {failures : UInt32} {text : String} {ms : UInt64}
    (h : afterFailure s (failures + 1) text = .retryAfter ms) (rest : List (Except String α)) :
    dialFrom s failures (.error text :: rest) = (dialFrom s (failures + 1) rest).after 1 [ms] := by
  simp only [dialFrom, h]
  rfl

theorem dialFrom_error_of_giveUp {failures : UInt32} {text : String} {f : Failure}
    (h : afterFailure s (failures + 1) text = .giveUp f) (rest : List (Except String α)) :
    dialFrom s failures (.error text :: rest) = ⟨some (.error f), 1, []⟩ := by
  simp only [dialFrom, h]

/-- As long as the settings allow it, every attempt that fails is followed by the wait that belongs
to its number. -/
theorem dialFrom_failures (hallows : s.Allows (m + texts.length))
    (hfits : m + texts.length < UInt32.size) (rest : List (Except String α)) :
    dialFrom s (UInt32.ofNat m) (texts.map .error ++ rest) =
      (dialFrom s (UInt32.ofNat (m + texts.length)) rest).after texts.length
        (backoffsFrom s (m + 1) texts.length) := by
  induction texts generalizing m with
  | nil => rfl
  | cons text texts ih =>
      have hlength : m + (text :: texts).length = m + 1 + texts.length := by
        rw [List.length_cons]
        omega
      rw [hlength] at hallows hfits ⊢
      have hretry : afterFailure s (UInt32.ofNat m + 1) text =
          .retryAfter (backoffDelay s (UInt32.ofNat (m + 1))) := by
        rw [ofNat_succ]
        exact afterFailure_of_allows (hallows.mono (Nat.le_add_right _ _)) (by omega) text
      rw [List.map_cons, List.cons_append, dialFrom_error_of_retry hretry, ofNat_succ,
        ih hallows hfits, List.length_cons, backoffsFrom_succ]
      simp only [DialRecord.after, List.cons_append, List.nil_append, Nat.add_assoc]

/-- Dialing ends with the first attempt that succeeds, if the settings allow it. -/
theorem dial_connected (hallows : s.Allows texts.length) (hfits : texts.length < UInt32.size)
    (c : α) (rest : List (Except String α)) :
    dial s (texts.map .error ++ .ok c :: rest) =
      ⟨some (.ok c), texts.length + 1, backoffs s texts.length⟩ := by
  have h := dialFrom_failures (m := 0) (by rwa [Nat.zero_add]) (by rwa [Nat.zero_add])
    (Except.ok c :: rest)
  refine h.trans ?_
  simp only [dialFrom, DialRecord.after, List.append_nil, Nat.add_comm 1]
  rfl

/-- Dialing ends with the last attempt that the settings allow, and with its error. -/
theorem dial_spent (hbounded : s.maxAttempts ≠ 0) (hspent : texts.length + 1 = s.maxAttempts.toNat)
    (text : String) (rest : List (Except String α)) :
    dial s (texts.map .error ++ .error text :: rest) =
      ⟨some (.error (.connection text)), texts.length + 1, backoffs s texts.length⟩ := by
  have hlt : s.maxAttempts.toNat < UInt32.size := s.maxAttempts.toNat_lt
  have hallows : s.Allows (0 + texts.length) := Or.inr (by omega)
  have hlast : UInt32.ofNat (0 + texts.length) + 1 = s.maxAttempts := by
    rw [ofNat_succ, Nat.zero_add, hspent, UInt32.ofNat_toNat]
  have hgive : afterFailure s (UInt32.ofNat (0 + texts.length) + 1) text =
      .giveUp (.connection text) := by
    rw [hlast]
    exact afterFailure_of_spent hbounded text
  have h := dialFrom_failures hallows (by omega) (Except.error text :: rest)
  rw [dialFrom_error_of_giveUp hgive] at h
  refine h.trans ?_
  simp only [DialRecord.after, List.append_nil, Nat.add_comm 1]
  rfl

/-- As long as all attempts failed and the settings allow another, dialing waits for it. -/
theorem dial_waiting (hallows : s.Allows texts.length) (hfits : texts.length < UInt32.size) :
    dial s (texts.map .error : List (Except String α)) =
      ⟨none, texts.length, backoffs s texts.length⟩ := by
  have h := dialFrom_failures (m := 0) (by rwa [Nat.zero_add]) (by rwa [Nat.zero_add])
    ([] : List (Except String α))
  rw [List.append_nil] at h
  refine h.trans ?_
  simp only [dialFrom, DialRecord.after, List.append_nil, Nat.zero_add]
  rfl

/-- Without a bound on the attempts, dialing does not fail. -/
theorem dialFrom_unbounded (h : s.maxAttempts = 0) (failures : UInt32)
    (outcomes : List (Except String α)) (f : Failure) :
    (dialFrom s failures outcomes).result ≠ some (.error f) := by
  induction outcomes generalizing failures with
  | nil => rintro ⟨⟩
  | cons outcome rest ih =>
      cases outcome with
      | ok c => rintro ⟨⟩
      | error text =>
          rw [dialFrom_error_of_retry (afterFailure_of_unbounded h _ text)]
          exact ih _

end Dials

end AmqpDelivery
