import AmqpDelivery.Json.Basic
import AmqpDelivery.Json.Fault
import AmqpDelivery.Decimal.Natural

/-!
# Reading JSON text

A reader walks over the bytes of a text and either yields a value and the place behind it or stops
at the first fault. `Json.ofBytes` accepts a text that holds one value, with blanks around it and at
most 127 enclosing brackets.

Numbers with a fraction or an exponent are scaled in binary64 arithmetic from at most 64 bits of
their leading digits, so the last bit of such a number can differ from the nearest value.
-/

namespace AmqpDelivery.Json

/-- A computation that consumes bytes of a fixed text. -/
abbrev Scan := ReaderT ByteArray (StateT Nat (Except Fault))

namespace Scan

/-- The next byte, which stays unread. -/
def peek : Scan (Option UInt8) := do
  let text ← read
  let i ← get
  return text[i]?

/-- Moves over the next byte. -/
def skip : Scan Unit := modify (· + 1)

/-- Reads the next byte. -/
def next : Scan (Option UInt8) := do
  let b ← peek
  if b.isSome then skip
  return b

/-- Stops with a fault that shows behind the bytes read so far. -/
def fail {α : Type} (cause : Cause) : Scan α := do
  throw ⟨cause, ← get⟩

/-- Stops with a fault that shows at the byte to be read next. -/
def failAtNext {α : Type} (cause : Cause) : Scan α := do
  let text ← read
  throw ⟨cause, min text.size ((← get) + 1)⟩

end Scan

open Scan

/-- The first place from `i` on whose byte does not satisfy `p`. -/
def spanEnd (p : UInt8 → Bool) (text : ByteArray) (i : Nat) : Nat :=
  if h : i < text.size then
    if p text[i] then spanEnd p text (i + 1) else i
  else i
termination_by text.size - i

/-- Blanks between the parts of a text. -/
def isBlank (b : UInt8) : Bool := b == 32 || b == 9 || b == 10 || b == 13

/-- An ASCII digit. -/
def isDigit (b : UInt8) : Bool := 48 ≤ b && b ≤ 57

/-- Moves over blanks. -/
def skipBlanks : Scan Unit := do
  let text ← read
  modify (spanEnd isBlank text)

/-- Moves over digits and tells how many there were. -/
def skipDigits : Scan Nat := do
  let text ← read
  let i ← get
  let j := spanEnd isDigit text i
  set j
  return j - i

/-- Reads the remaining letters of a literal name. -/
def expectLetters : List UInt8 → Scan Unit
  | [] => pure ()
  | b :: rest => do
      match ← next with
      | none => fail .endInValue
      | some c => if c = b then expectLetters rest else fail .expectedIdent

/-- The letters of `null` after the first. -/
def nullLetters : List UInt8 := [117, 108, 108]

/-- The letters of `true` after the first. -/
def trueLetters : List UInt8 := [114, 117, 101]

/-- The letters of `false` after the first. -/
def falseLetters : List UInt8 := [97, 108, 115, 101]

section Numbers

/-- Divides by `10 ^ 308` until the decimal exponent is within reach. -/
def scaleDown (f : Float) (exponent : Int) : Float × Int :=
  if h : exponent < -308 then
    if f == 0 then (f, 0) else scaleDown (f / Float.ofScientific 1 false 308) (exponent + 308)
  else (f, exponent)
termination_by (-exponent).toNat
decreasing_by omega

/-- `significand * 10 ^ exponent`, or nothing when the value is too large. -/
def scaled? (significand : UInt64) (exponent : Int) : Option Float :=
  let (f, e) := scaleDown significand.toFloat exponent
  if e < 0 then some (f / Float.ofScientific 1 false (-e).toNat)
  else if e ≤ 308 then
    let g := f * Float.ofScientific 1 false e.toNat
    if g.isInf then none else some g
  else if f == 0 then some f
  else none

/-- The number with the given parts. -/
def finish (positive : Bool) (significand : UInt64) (exponent : Int) : Scan Number := do
  match scaled? significand exponent with
  | some f => return .binary (if positive then f.toBits else (-f).toBits)
  | none => fail .numberOutOfRange

/-- The digits before `stop` appended to `significand` while the result fits 64 bits, with the place
of the first digit left out. -/
def accumulate (text : ByteArray) (stop : Nat) (significand : UInt64) (i : Nat) : UInt64 × Nat :=
  if h : i < stop ∧ i < text.size then
    let grown := significand.toNat * 10 + (text[i].toNat - 48)
    if grown < UInt64.size then accumulate text stop (UInt64.ofNat grown) (i + 1)
    else (significand, i)
  else (significand, i)
termination_by stop - i

/-- Reads digits as long as the significand fits 64 bits and tells how many were taken. -/
def takeDigits (significand : UInt64) : Scan (UInt64 × Nat) := do
  let text ← read
  let i ← get
  let (s, j) := accumulate text (spanEnd isDigit text i) significand i
  set j
  return (s, j - i)

/-- The value of a run of digits, with the place of the digit that pushes it beyond 31 bits. -/
def smallValue (text : ByteArray) (stop : Nat) (value : Nat) (i : Nat) : Nat × Option Nat :=
  if h : i < stop ∧ i < text.size then
    let grown := value * 10 + (text[i].toNat - 48)
    if grown < 0x80000000 then smallValue text stop grown (i + 1) else (value, some (i + 1))
  else (value, none)
termination_by stop - i

/-- Reads an exponent, from the letter on. -/
def readExponent (positive : Bool) (significand : UInt64) (start : Int) : Scan Number := do
  skip
  let up ←
    match ← peek with
    | some 43 => do skip; pure true
    | some 45 => do skip; pure false
    | _ => pure true
  match ← next with
  | none => fail .endInValue
  | some b =>
      if !isDigit b then fail .invalidNumber
      let text ← read
      let i ← get
      let stop := spanEnd isDigit text i
      match smallValue text stop (b.toNat - 48) i with
      | (value, none) =>
          set stop
          let e := if up then start + (value : Int) else start - (value : Int)
          finish positive significand (max (-2147483648) (min 2147483647 e))
      | (_, some place) =>
          if significand ≠ 0 && up then
            set place
            fail .numberOutOfRange
          else
            set stop
            return .binary (if positive then (0.0 : Float).toBits else (-0.0 : Float).toBits)

/-- Reads an exponent if one follows. -/
def readTail (positive : Bool) (significand : UInt64) (exponent : Int) : Scan Number := do
  match ← peek with
  | some 101 | some 69 => readExponent positive significand exponent
  | _ => finish positive significand exponent

/-- Reads a fraction, from the point on. -/
def readFraction (positive : Bool) (significand : UInt64) (exponent : Int) : Scan Number := do
  skip
  let (s, taken) ← takeDigits significand
  let more ← skipDigits
  if taken = 0 && more = 0 then
    match ← peek with
    | some _ => failAtNext .invalidNumber
    | none => failAtNext .endInValue
  readTail positive s (exponent - (taken : Int))

/-- Reads what may follow the whole part of a number. -/
def readRest (positive : Bool) (significand : UInt64) (exponent : Nat) : Scan Number := do
  match ← peek with
  | some 46 => readFraction positive significand exponent
  | some 101 | some 69 => readExponent positive significand exponent
  | _ =>
      if 0 < exponent then finish positive significand exponent
      else if positive then return .natural significand
      else if 0 < significand.toNat ∧ significand.toNat ≤ 0x8000000000000000 then
        return .negative (Int64.ofInt (-(significand.toNat : Int)))
      else return .binary (-significand.toFloat).toBits

/-- Reads a number, behind its sign. -/
def readNumber (positive : Bool) : Scan Number := do
  match ← next with
  | none => fail .endInValue
  | some b =>
      if b = 48 then
        match ← peek with
        | some c => if isDigit c then failAtNext .invalidNumber
        | none => pure ()
        readRest positive 0 0
      else if isDigit b then
        let (s, _) ← takeDigits (UInt64.ofNat (b.toNat - 48))
        let more ← skipDigits
        readRest positive s more
      else fail .invalidNumber

end Numbers

section Text

/-- The value of a hexadecimal digit. -/
def hexValue? (b : UInt8) : Option Nat :=
  if isDigit b then some (b.toNat - 48)
  else if 97 ≤ b && b ≤ 102 then some (b.toNat - 87)
  else if 65 ≤ b && b ≤ 70 then some (b.toNat - 55)
  else none

/-- The value of four hexadecimal digits. -/
def hexValue4? (a b c d : UInt8) : Option Nat := do
  return (((← hexValue? a) * 16 + (← hexValue? b)) * 16 + (← hexValue? c)) * 16 + (← hexValue? d)

/-- Reads four hexadecimal digits. -/
def readHex : Scan Nat := do
  let text ← read
  let i ← get
  match text[i]?, text[i + 1]?, text[i + 2]?, text[i + 3]? with
  | some a, some b, some c, some d =>
      set (i + 4)
      match hexValue4? a b c d with
      | some n => return n
      | none => fail .invalidEscape
  | _, _, _, _ =>
      set text.size
      fail .endInText

/-- Reads one byte of the second half of a surrogate pair. -/
def expectPair (b : UInt8) : Scan Unit := do
  match ← peek with
  | none => fail .endInText
  | some c =>
      skip
      if c ≠ b then fail .truncatedSurrogate

/-- Reads the code point of an escape, behind the letter u. -/
def readCodePoint : Scan Char := do
  let n ← readHex
  if 0xDC00 ≤ n && n ≤ 0xDFFF then fail .loneSurrogate
  if n < 0xD800 || 0xDBFF < n then return Char.ofNat n
  expectPair 92
  expectPair 117
  let m ← readHex
  if m < 0xDC00 || 0xDFFF < m then fail .loneSurrogate
  return Char.ofNat ((n - 0xD800) * 1024 + (m - 0xDC00) + 0x10000)

/-- The character of an escape with a letter of its own. -/
def simpleEscape? (b : UInt8) : Option Char :=
  match b with
  | 34 => some '"'
  | 92 => some '\\'
  | 47 => some '/'
  | 98 => some (Char.ofNat 8)
  | 102 => some (Char.ofNat 12)
  | 110 => some '\n'
  | 114 => some '\r'
  | 116 => some '\t'
  | _ => none

/-- Reads an escape, behind its backslash. -/
def readEscape : Scan Char := do
  match ← next with
  | none => fail .endInText
  | some b =>
      match simpleEscape? b with
      | some c => return c
      | none => if b = 117 then readCodePoint else fail .invalidEscape

/-- A byte that stands for itself inside a string. -/
def isPlain (b : UInt8) : Bool := b ≠ 34 && b ≠ 92 && 32 ≤ b

/-- Reads the rest of a string, behind its opening quote or a later part of it. -/
def readTextFrom : Nat → ByteArray → Scan String
  | 0, _ => fail .endInText
  | fuel + 1, done => do
      let text ← read
      let i ← get
      let j := spanEnd isPlain text i
      let done := done ++ text.extract i j
      set j
      match ← peek with
      | none => fail .endInText
      | some 34 =>
          skip
          match String.fromUTF8? done with
          | some s => return s
          | none => fail .invalidCodePoint
      | some 92 =>
          skip
          let c ← readEscape
          readTextFrom fuel (done ++ (String.singleton c).toUTF8)
      | some _ =>
          skip
          fail .controlCharacter

/-- Reads a string, behind its opening quote. -/
def readText : Scan String := do
  readTextFrom ((← read).size + 1) ByteArray.empty

end Text

/-- Moves to the next item of a list; `first` tells that none was read yet. -/
def nextItem (first : Bool) : Scan Bool := do
  skipBlanks
  match ← peek with
  | none => failAtNext .endInList
  | some b =>
      if b = 93 then return false
      else if first then return true
      else if b = 44 then
        skip
        skipBlanks
        match ← peek with
        | some 93 => failAtNext .trailingComma
        | some _ => return true
        | none => failAtNext .endInValue
      else failAtNext .expectedListCommaOrEnd

/-- Moves to the next key of an object; `first` tells that none was read yet. -/
def nextKey (first : Bool) : Scan Bool := do
  skipBlanks
  match ← peek with
  | none => failAtNext .endInObject
  | some b =>
      if b = 125 then return false
      else if first then
        if b = 34 then return true else failAtNext .keyMustBeText
      else if b = 44 then
        skip
        skipBlanks
        match ← peek with
        | some 34 => return true
        | some 125 => failAtNext .trailingComma
        | some _ => failAtNext .keyMustBeText
        | none => failAtNext .endInValue
      else failAtNext .expectedObjectCommaOrEnd

/-- Reads the colon between a key and its value. -/
def readColon : Scan Unit := do
  skipBlanks
  match ← peek with
  | some 58 => skip
  | some _ => failAtNext .expectedColon
  | none => failAtNext .endInObject

/-- Nesting that a text may not reach. -/
def depthLimit : Nat := 128

mutual

/-- Reads a value. `depth` brackets may still be opened, the last of them not. -/
def readValue : Nat → Nat → Scan Json
  | 0, _ => fail .endInValue
  | fuel + 1, depth => do
      skipBlanks
      match ← peek with
      | none => failAtNext .endInValue
      | some b =>
          if b = 110 then do skip; expectLetters nullLetters; return .null
          else if b = 116 then do skip; expectLetters trueLetters; return .bool true
          else if b = 102 then do skip; expectLetters falseLetters; return .bool false
          else if b = 45 then do skip; return .number (← readNumber false)
          else if isDigit b then return .number (← readNumber true)
          else if b = 34 then do skip; return .text (← readText)
          else if b = 91 then do
            if depth ≤ 1 then failAtNext .tooDeep
            skip
            let items ← readItems fuel (depth - 1) true
            skip
            return .array items
          else if b = 123 then do
            if depth ≤ 1 then failAtNext .tooDeep
            skip
            let members ← readMembers fuel (depth - 1) true []
            skip
            return .object members
          else failAtNext .expectedValue

/-- Reads the items of an array up to its closing bracket. -/
def readItems : Nat → Nat → Bool → Scan (List Json)
  | 0, _, _ => fail .endInList
  | fuel + 1, depth, first => do
      if ← nextItem first then
        let item ← readValue fuel depth
        return item :: (← readItems fuel depth false)
      else return []

/-- Reads the members of an object up to its closing brace. -/
def readMembers : Nat → Nat → Bool → List (String × Json) → Scan (List (String × Json))
  | 0, _, _, _ => fail .endInObject
  | fuel + 1, depth, first, members => do
      if ← nextKey first then
        skip
        let key ← readText
        readColon
        let value ← readValue fuel depth
        readMembers fuel depth false (Entries.put key value members)
      else return members

end

/-- Only blanks are left. -/
def expectEnd : Scan Unit := do
  skipBlanks
  match ← peek with
  | some _ => failAtNext .trailingCharacters
  | none => pure ()

/-- Reads a text that consists of one value; a bracket takes two turns and any other byte fewer. -/
def readWhole : Scan Json := do
  let value ← readValue (2 * (← read).size + 2) depthLimit
  expectEnd
  return value

/-- The number of bytes before `offset` that lie on its line. -/
def column (text : ByteArray) : Nat → Nat
  | 0 => 0
  | offset + 1 => if text[offset]? = some 10 then 0 else column text offset + 1

/-- The number of line ends before `offset`. -/
def lineEnds (text : ByteArray) : Nat → Nat
  | 0 => 0
  | offset + 1 => lineEnds text offset + if text[offset]? = some 10 then 1 else 0

/-- The wording of a fault with its place. -/
def Fault.message (fault : Fault) (text : ByteArray) : String :=
  fault.cause.text ++ " at line " ++ Decimal.ofNat (lineEnds text fault.offset + 1) ++ " column "
    ++ Decimal.ofNat (column text fault.offset)

/-- Runs a reader over a whole text and words its fault. -/
def Scan.onText {α : Type} (scan : Scan α) (text : ByteArray) : Except String α :=
  match StateT.run (ReaderT.run scan text) 0 with
  | .ok (value, _) => .ok value
  | .error fault => .error (fault.message text)

/-- The value that a text holds, or the wording of its first fault. -/
def ofBytes (text : ByteArray) : Except String Json := readWhole.onText text

end AmqpDelivery.Json
