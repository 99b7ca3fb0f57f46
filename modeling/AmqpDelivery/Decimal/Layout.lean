import AmqpDelivery.Decimal.Shortest

/-!
# Decimal notation of binary64 values

Two layouts of the shortest digits: the positional one, which never uses an exponent, and the
compact one of JSON text, which keeps a decimal point and switches to an exponent for very large
and very small values.
-/

namespace AmqpDelivery.Decimal

/-- `n` zeros. -/
def zeros (n : Nat) : List Char := List.replicate n '0'

/-- The digits of `d` as a whole number or with a point among or after leading zeros. -/
def Scaled.positional (d : Scaled) : List Char :=
  let cs := Decimal.digits d.digits
  let point := (cs.length : Int) + d.exponent
  if 0 ≤ d.exponent then cs ++ zeros d.exponent.toNat
  else if 0 < point then cs.take point.toNat ++ '.' :: cs.drop point.toNat
  else ['0', '.'] ++ zeros (-point).toNat ++ cs

/-- The digits of `d` with one digit before the point and a decimal exponent. -/
def Scaled.scientific (d : Scaled) : List Char :=
  let cs := Decimal.digits d.digits
  let power := ofInt ((cs.length : Int) + d.exponent - 1)
  let body := if cs.length ≤ 1 then cs else cs.take 1 ++ '.' :: cs.drop 1
  body ++ 'e' :: power.toList

/-- Puts a minus sign before the digits of a negative value. -/
def signed (negative : Bool) (cs : List Char) : String :=
  String.ofList (if negative then '-' :: cs else cs)

/-- Plain text: always positional, whole numbers without a point. -/
def plain (bits : UInt64) : String :=
  match Binary64.ofBits bits with
  | .finite negative x =>
      signed negative (if x.mantissa = 0 then ['0'] else (x.shortest .up).positional)
  | .infinite negative => signed negative "inf".toList
  | .notANumber => "NaN"

/-- Plain text that shows a point also for whole numbers. -/
def plainWithPoint (bits : UInt64) : String :=
  let text := plain bits
  match Binary64.ofBits bits with
  | .finite _ _ => if text.toList.contains '.' then text else text ++ ".0"
  | _ => text

/-- JSON text: positional with a point while the point falls within sixteen digits or at most four
zeros follow it, otherwise with an exponent. Infinite values and non-numbers are `null`. -/
def json (bits : UInt64) : String :=
  match Binary64.ofBits bits with
  | .finite negative x =>
      if x.mantissa = 0 then signed negative ['0', '.', '0']
      else
        let d := x.shortest .toEven
        let point := ((Decimal.digits d.digits).length : Int) + d.exponent
        if 0 ≤ d.exponent ∧ point ≤ 16 then signed negative (d.positional ++ ['.', '0'])
        else if -5 < point ∧ point ≤ 16 then signed negative d.positional
        else signed negative d.scientific
  | _ => "null"

end AmqpDelivery.Decimal
