/-!
# Natural numbers in decimal

Writing a natural number without leading zeros, and the stricter of the two readings the engine
knows: an optional plus sign and ASCII digits whose value fits 64 bits.
-/

namespace AmqpDelivery.Decimal

/-- The character of a digit below ten. -/
def digitChar (d : Nat) : Char := Char.ofNat (48 + d)

/-- The digits of `n`, the most significant first, without leading zeros. -/
def digits (n : Nat) : List Char :=
  if n < 10 then [digitChar n] else digits (n / 10) ++ [digitChar (n % 10)]
termination_by n
decreasing_by omega

/-- A natural number as text. -/
def ofNat (n : Nat) : String := String.ofList (digits n)

/-- An integer as text, negative numbers with a minus sign. -/
def ofInt (n : Int) : String :=
  match n with
  | .ofNat n => ofNat n
  | .negSucc n => "-" ++ ofNat (n + 1)

/-- The value of an ASCII digit. -/
def digit? (c : Char) : Option Nat :=
  if 48 ≤ c.toNat ∧ c.toNat ≤ 57 then some (c.toNat - 48) else none

/-- The value of a run of digits that continues the number `acc`. -/
def valueFrom (acc : Nat) : List Char → Option Nat
  | [] => some acc
  | c :: rest =>
      match digit? c with
      | some d => valueFrom (10 * acc + d) rest
      | none => none

/-- The value of a non-empty run of digits. -/
def value? : List Char → Option Nat
  | [] => none
  | c :: rest => valueFrom 0 (c :: rest)

/-- Drops one leading plus sign. -/
def dropPlus : List Char → List Char
  | '+' :: rest => rest
  | cs => cs

/-- A number below `2 ^ 64` written with ASCII digits after at most one plus sign. -/
def readUInt64? (s : String) : Option UInt64 :=
  match value? (dropPlus s.toList) with
  | some n => if n < UInt64.size then some (UInt64.ofNat n) else none
  | none => none

end AmqpDelivery.Decimal
