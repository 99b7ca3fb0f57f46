import AmqpDelivery.Text.Hidden

/-!
# Quoted literals

Text between double quotes, with the quote, the backslash and everything that would not show as
itself written as an escape.
-/

namespace AmqpDelivery.Text

/-- Digits of `n` in lowercase hexadecimal, without leading zeros. -/
def hexDigits (n : Nat) : List Char := Nat.toDigits 16 n

/-- A code point written as an escape. -/
def codePointEscape (c : Char) : List Char :=
  ['\\', 'u', '\x7b'] ++ hexDigits c.toNat ++ ['\x7d']

/-- One character inside a quoted literal. -/
def quotedChar (c : Char) : List Char :=
  if c.toNat = 0 then ['\\', '0']
  else if c = '\t' then ['\\', 't']
  else if c = '\n' then ['\\', 'n']
  else if c = '\r' then ['\\', 'r']
  else if c = '"' then ['\\', '"']
  else if c = '\\' then ['\\', '\\']
  else if c.toNat < 0x20 || c.toNat = 0x7F then codePointEscape c
  else if c.toNat < 0x80 then [c]
  else if isHidden c then codePointEscape c
  else [c]

/-- The text as a quoted literal. -/
def quoted (s : String) : String :=
  String.ofList ('"' :: (s.toList.flatMap quotedChar ++ ['"']))

end AmqpDelivery.Text
