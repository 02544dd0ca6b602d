import MapQuery.Text.Basic

/-!
# Markup text

Text inside XML elements and attribute values: the five characters with a meaning in markup are
written as entities.
-/

set_option autoImplicit false

namespace MapQuery.Markup

/-- A character as it stands in markup. -/
def encodeChar (c : Char) : Text :=
  if c = '&' then "&amp;"
  else if c = '<' then "&lt;"
  else if c = '>' then "&gt;"
  else if c = '"' then "&quot;"
  else if c = '\'' then "&apos;"
  else [c]

/-- A text as it stands in markup. -/
def encode (t : Text) : Text := t.flatMap encodeChar

/-- An attribute, with the blank in front of it. -/
def attributeText (a : Text × Text) : Text := " " ++ a.1 ++ "=\"" ++ encode a.2 ++ "\""

def element (name : Text) (attributes : List (Text × Text)) (content : Text) : Text :=
  "<" ++ name ++ attributes.flatMap attributeText ++ ">" ++ content ++ "</" ++ name ++ ">"

end MapQuery.Markup
