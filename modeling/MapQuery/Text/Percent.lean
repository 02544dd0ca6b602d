import MapQuery.Text.Basic

/-!
# Percent encoding

Every UTF-8 byte outside the unreserved characters becomes a percent sign and two capital
hexadecimal digits.
-/

set_option autoImplicit false

namespace MapQuery.Percent

/-- Characters that stand for themselves: ASCII letters, digits and `-` `_` `.` `~`. -/
def isUnreserved (c : Char) : Bool := c.isAlphanum || "-_.~".toList.contains c

/-- The capital hexadecimal digit of a number below sixteen. -/
def hexDigit (n : Nat) : Char := if n < 10 then Char.ofNat (48 + n) else Char.ofNat (55 + n)

def encodeByte (b : UInt8) : Text := ['%', hexDigit (b.toNat / 16), hexDigit (b.toNat % 16)]

def encodeChar (c : Char) : Text :=
  if isUnreserved c then [c] else (String.utf8EncodeChar c).flatMap encodeByte

def encode (t : Text) : Text := t.flatMap encodeChar

end MapQuery.Percent
