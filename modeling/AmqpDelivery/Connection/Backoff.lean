import AmqpDelivery.Settings.Basic

/-!
# Backoff

The wait before a broken connection is dialed again and before a failed consumer starts again. It
doubles with every attempt up to a bound, in 64-bit arithmetic that stops at the greatest number
instead of wrapping around.
-/

namespace AmqpDelivery

/-- The greatest 64-bit number. -/
def maxUInt64 : UInt64 := UInt64.ofNat (UInt64.size - 1)

/-- A product that stops at the greatest 64-bit number. -/
def saturatingMul (a b : UInt64) : UInt64 :=
  if a.toNat * b.toNat < UInt64.size then a * b else maxUInt64

/-- How often the first interval has doubled before the given attempt, counted from one. -/
def backoffExponent (attempt : UInt32) : Nat := min (attempt.toNat - 1) 16

/-- The wait in milliseconds before the attempt that follows `attempt` others. -/
def backoffDelay (s : ReconnectSettings) (attempt : UInt32) : UInt64 :=
  min (saturatingMul s.initialIntervalMs (1 <<< UInt64.ofNat (backoffExponent attempt)))
    s.maxIntervalMs

/-- What follows a failed attempt to connect. -/
inductive AfterFailure where
  | giveUp (failure : Failure)
  | retryAfter (ms : UInt64)
deriving DecidableEq

/-- After `failures` failed attempts, the last for the reason `text`: give up if the attempts are
bounded and spent, otherwise wait and try again. -/
def afterFailure (s : ReconnectSettings) (failures : UInt32) (text : String) : AfterFailure :=
  if s.maxAttempts ≠ 0 ∧ s.maxAttempts ≤ failures then .giveUp (.connection text)
  else .retryAfter (backoffDelay s failures)

/-- A sequence of attempts: what it led to, how many attempts were made, and the waits between
them. -/
structure DialRecord (α : Type) where
  result : Option (Except Failure α)
  attempts : Nat
  waits : List UInt64

/-- Dials against the given outcomes, `failures` attempts having failed before. The record has no
result if the outcomes end first. -/
def dialFrom {α : Type} (s : ReconnectSettings) (failures : UInt32) :
    List (Except String α) → DialRecord α
  | [] => ⟨none, 0, []⟩
  | .ok connection :: _ => ⟨some (.ok connection), 1, []⟩
  | .error text :: rest =>
      match afterFailure s (failures + 1) text with
      | .giveUp failure => ⟨some (.error failure), 1, []⟩
      | .retryAfter ms =>
          let later := dialFrom s (failures + 1) rest
          ⟨later.result, later.attempts + 1, ms :: later.waits⟩

/-- Dials until an attempt succeeds or the attempts are spent. -/
def dial {α : Type} (s : ReconnectSettings) (outcomes : List (Except String α)) : DialRecord α :=
  dialFrom s 0 outcomes

end AmqpDelivery
