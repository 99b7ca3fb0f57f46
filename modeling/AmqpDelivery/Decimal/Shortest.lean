import AmqpDelivery.Decimal.Natural

/-!
# Shortest decimals of binary64 values

A finite binary64 value stands for an interval of real numbers, those that round to it. `shortest`
picks the decimal with the fewest digits in that interval and, among those, the closest to the
value itself; a tie between two equally close decimals goes by the rule of the format.
-/

namespace AmqpDelivery.Decimal

/-- A finite value without its sign, `mantissa * 2 ^ exponent`. -/
structure Magnitude where
  mantissa : Nat
  exponent : Int
  /-- The gap to the next value below is half the gap to the next value above. -/
  narrowBelow : Bool

/-- What the bits of a binary64 value stand for. -/
inductive Binary64 where
  | finite (negative : Bool) (magnitude : Magnitude)
  | infinite (negative : Bool)
  | notANumber

/-- Reads sign, exponent and fraction out of the bits. -/
def Binary64.ofBits (bits : UInt64) : Binary64 :=
  let negative := (bits >>> 63) == 1
  let field := ((bits >>> 52) &&& 0x7FF).toNat
  let fraction := (bits &&& 0xFFFFFFFFFFFFF).toNat
  if field = 0x7FF then
    if fraction = 0 then .infinite negative else .notANumber
  else if field = 0 then
    .finite negative ⟨fraction, -1074, false⟩
  else
    .finite negative ⟨0x10000000000000 + fraction, (field : Int) - 1075, fraction == 0 && 1 < field⟩

/-- The power `b ^ e`, or one if `e` is negative: a power of either sign is the quotient of
`wholePower b e` and `wholePower b (-e)`. -/
def wholePower (b : Nat) (e : Int) : Nat := Nat.pow b e.toNat

/-- The decimal `digits * 10 ^ exponent`. -/
structure Scaled where
  digits : Nat
  exponent : Int

/-- Compares `d` with `n * 2 ^ e`. -/
def Scaled.compareBinary (d : Scaled) (n : Nat) (e : Int) : Ordering :=
  compare (d.digits * wholePower 10 d.exponent * wholePower 2 (-e))
    (n * wholePower 2 e * wholePower 10 (-d.exponent))

/-- `d` rounds to `x`: it lies between the midpoints to the neighbours of `x`, which belong to the
interval exactly when the mantissa is even. -/
def Magnitude.readsBack (x : Magnitude) (d : Scaled) : Bool :=
  let low := if x.narrowBelow then 4 * x.mantissa - 1 else 4 * x.mantissa - 2
  let ends := x.mantissa % 2 == 0
  let below := d.compareBinary low (x.exponent - 2)
  let above := d.compareBinary (4 * x.mantissa + 2) (x.exponent - 2)
  (below == .gt || ends && below == .eq) && (above == .lt || ends && above == .eq)

/-- `⌊x / 10 ^ e⌋`. -/
def Magnitude.quotient (x : Magnitude) (e : Int) : Nat :=
  (x.mantissa * wholePower 2 x.exponent * wholePower 10 (-e))
    / (wholePower 10 e * wholePower 2 (-x.exponent))

/-- Where a format sends a value that lies halfway between two decimals of equal length. -/
inductive Tie where
  | up
  | toEven

/-- The candidate on the grid `10 ^ e`: of the neighbours of `x` the one that reads back, and of
two such the closer. -/
def Magnitude.onGrid? (x : Magnitude) (tie : Tie) (e : Int) : Option Scaled :=
  let floor := x.quotient e
  let low : Scaled := ⟨floor, e⟩
  let high : Scaled := ⟨floor + 1, e⟩
  match x.readsBack low, x.readsBack high with
  | false, false => none
  | true, false => some low
  | false, true => some high
  | true, true =>
      match (Scaled.mk (2 * floor + 1) e).compareBinary (2 * x.mantissa) x.exponent with
      | .lt => some high
      | .gt => some low
      | .eq =>
          match tie with
          | .up => some high
          | .toEven => if floor % 2 = 0 then some low else some high

/-- The least power of ten above `x`, searched around an estimate from the binary logarithm. -/
def Magnitude.scale (x : Magnitude) : Int :=
  let estimate := ((Nat.log2 x.mantissa : Int) + x.exponent) * 30103 / 100000
  let candidates := (List.range 5).map fun (i : Nat) => estimate - 1 + (i : Int)
  (candidates.find? fun k => (Scaled.mk 1 k).compareBinary x.mantissa x.exponent == .gt).getD
    (estimate + 3)

/-- Moves trailing zeros of the digits into the exponent. -/
def Scaled.strip (d : Scaled) : Scaled :=
  if 10 ≤ d.digits ∧ d.digits % 10 = 0 then strip ⟨d.digits / 10, d.exponent + 1⟩ else d
termination_by d.digits
decreasing_by all_goals omega

/-- The shortest decimal that reads back, for a value other than zero. -/
def Magnitude.shortest (x : Magnitude) (tie : Tie) : Scaled :=
  let k := x.scale
  match (List.range 17).findSome? fun (n : Nat) => x.onGrid? tie (k - 1 - (n : Int)) with
  | some d => d.strip
  | none => ⟨x.mantissa * wholePower 2 x.exponent * wholePower 5 (-x.exponent), min x.exponent 0⟩

end AmqpDelivery.Decimal
