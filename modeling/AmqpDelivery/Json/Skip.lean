import AmqpDelivery.Json.Reader

/-!
# Skipping JSON values

A value that nobody asks for is checked for its form and dropped. Skipping keeps the open brackets
in a list instead of nesting, so it has no depth limit, and it looks neither at the range of numbers
nor at surrogate pairs.
-/

namespace AmqpDelivery.Json

open Scan

/-- An open bracket. -/
inductive Bracket where
  | list
  | object

/-- The byte that closes a bracket. -/
def Bracket.closer : Bracket → UInt8
  | .list => 93
  | .object => 125

/-- The text ends inside the bracket. -/
def Bracket.cut : Bracket → Cause
  | .list => .endInList
  | .object => .endInObject

/-- Something other than a comma or the closer follows an item. -/
def Bracket.expected : Bracket → Cause
  | .list => .expectedListCommaOrEnd
  | .object => .expectedObjectCommaOrEnd

/-- Skips an exponent, from the letter on. -/
def skipExponent : Scan Unit := do
  skip
  match ← peek with
  | some 43 | some 45 => skip
  | _ => pure ()
  match ← next with
  | some b => if isDigit b then do let _ ← skipDigits else fail .invalidNumber
  | none => fail .invalidNumber

/-- Skips an exponent if one follows. -/
def skipTail : Scan Unit := do
  match ← peek with
  | some 101 | some 69 => skipExponent
  | _ => pure ()

/-- Skips a number, behind its sign. -/
def skipNumber : Scan Unit := do
  match ← next with
  | some 48 =>
      match ← peek with
      | some c => if isDigit c then failAtNext .invalidNumber
      | none => pure ()
  | some b => if isDigit b then do let _ ← skipDigits else fail .invalidNumber
  | none => fail .invalidNumber
  match ← peek with
  | some 46 =>
      skip
      if (← skipDigits) = 0 then failAtNext .invalidNumber
      skipTail
  | _ => skipTail

/-- Skips the rest of a string, behind its opening quote or a later part of it. -/
def skipTextFrom : Nat → Scan Unit
  | 0 => fail .endInText
  | fuel + 1 => do
      let text ← read
      modify (spanEnd isPlain text)
      match ← peek with
      | none => fail .endInText
      | some 34 => skip
      | some 92 =>
          skip
          match ← next with
          | none => fail .endInText
          | some b =>
              if (simpleEscape? b).isSome then skipTextFrom fuel
              else if b = 117 then
                let _ ← readHex
                skipTextFrom fuel
              else fail .invalidEscape
      | some _ => fail .controlCharacter

/-- Skips a string, behind its opening quote. -/
def skipText : Scan Unit := do
  skipTextFrom ((← read).size + 1)

/-- Skips a key with its colon. -/
def skipKey : Scan Unit := do
  skipBlanks
  match ← peek with
  | some 34 => skip
  | some _ => failAtNext .keyMustBeText
  | none => failAtNext .endInObject
  skipText
  readColon

mutual

/-- Skips a value and what is left of the brackets around it, the innermost first. -/
def skipValue : Nat → List Bracket → Scan Unit
  | 0, _ => fail .endInValue
  | fuel + 1, around => do
      skipBlanks
      match ← peek with
      | none => failAtNext .endInValue
      | some b =>
          if b = 91 then do skip; skipItems fuel .list around false
          else if b = 123 then do skip; skipItems fuel .object around false
          else
            if b = 110 then do skip; expectLetters nullLetters
            else if b = 116 then do skip; expectLetters trueLetters
            else if b = 102 then do skip; expectLetters falseLetters
            else if b = 45 then do skip; skipNumber
            else if isDigit b then skipNumber
            else if b = 34 then do skip; skipText
            else failAtNext .expectedValue
            match around with
            | [] => pure ()
            | bracket :: rest => skipItems fuel bracket rest true

/-- Skips to the end of `bracket` and of the brackets around it; `afterItem` tells that an item has
just been read. -/
def skipItems : Nat → Bracket → List Bracket → Bool → Scan Unit
  | 0, bracket, _, _ => fail bracket.cut
  | fuel + 1, bracket, around, afterItem => do
      skipBlanks
      match ← peek with
      | none => failAtNext bracket.cut
      | some b =>
          if b = 44 && afterItem then do
            skip
            skipItem fuel bracket around
          else if b = bracket.closer then do
            skip
            match around with
            | [] => pure ()
            | outer :: rest => skipItems fuel outer rest true
          else if afterItem then failAtNext bracket.expected
          else skipItem fuel bracket around

/-- Skips one item of `bracket` and what follows it. -/
def skipItem : Nat → Bracket → List Bracket → Scan Unit
  | 0, bracket, _ => fail bracket.cut
  | fuel + 1, bracket, around => do
      match bracket with
      | .list => pure ()
      | .object => skipKey
      skipValue fuel (bracket :: around)

end

/-- Skips one value. -/
def skipOne : Scan Unit := do
  skipValue (3 * (← read).size + 3) []

end AmqpDelivery.Json
