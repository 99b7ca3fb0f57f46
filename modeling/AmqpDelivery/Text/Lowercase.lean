import AmqpDelivery.Text.CaseData

/-!
# Lowercase text

Lowercasing goes character by character, with two exceptions: the dotted capital I becomes an i
followed by a combining dot, and a capital sigma that ends a word becomes the final sigma.
-/

namespace AmqpDelivery.Text

/-- The lowercase form of a single character. -/
def lowerChar (c : Char) : List Char :=
  if c.toNat < 0x80 then [c.toLower]
  else if c.toNat = 0x130 then ['i', Char.ofNat 0x307]
  else match lowerRuns.findSome? (·.lower? c.toNat) with
    | some code => [Char.ofNat code]
    | none => [c]

/-- Skipped when the neighbours of a sigma are looked up. -/
def isTransparent (c : Char) : Bool := inRanges transparentRanges c.toNat

/-- Has a case and is not skipped. -/
def isCased (c : Char) : Bool := inRanges casedRanges c.toNat

/-- The first character that is not skipped has a case. -/
def meetsCased : List Char → Bool
  | [] => false
  | c :: rest => if isTransparent c then meetsCased rest else isCased c

/-- Lowercases the characters `rest`, where `before` holds the characters already passed, the
nearest first. -/
def lowerFrom (before : List Char) : List Char → List Char
  | [] => []
  | c :: rest =>
      let form :=
        if c.toNat = 0x3A3 then
          if meetsCased before && !meetsCased rest then [Char.ofNat 0x3C2] else [Char.ofNat 0x3C3]
        else lowerChar c
      form ++ lowerFrom (c :: before) rest

/-- The text in lowercase. -/
def lowercase (s : String) : String := String.ofList (lowerFrom [] s.toList)

end AmqpDelivery.Text
