import MapQuery.Text.Basic
import MapQuery.Text.HiddenTable

/-!
# Escaped text

A text between double quotes in which every character can be seen: quotes and backslashes are
escaped, line ends and tabs have letters, and whatever does not show is written by its code point.
-/

set_option autoImplicit false

namespace MapQuery

/-- Whether a character has no visible form of its own. -/
def isHidden (c : Char) : Bool := Hidden.ranges.any fun r => r.1 ≤ c.toNat && c.toNat ≤ r.2

namespace Text

def escapedChar (c : Char) : Text :=
  if c = '\x00' then "\\0"
  else if c = '\t' then "\\t"
  else if c = '\r' then "\\r"
  else if c = '\n' then "\\n"
  else if c = '\\' then "\\\\"
  else if c = '"' then "\\\""
  else if isHidden c then "\\u\x7b" ++ Nat.toDigits 16 c.toNat ++ "\x7d"
  else [c]

/-- The text in double quotes with everything escaped that would not show. -/
def escaped (t : Text) : Text := '"' :: (t.flatMap escapedChar ++ ['"'])

end Text
end MapQuery
