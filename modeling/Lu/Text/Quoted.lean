import Lu.Text.Printable

namespace Lu

/-- A number in hexadecimal, with zeros in front up to the given width. -/
def hexText (width n : Nat) : String :=
  let digits := Nat.toDigits 16 n
  String.ofList (List.replicate (width - digits.length) '0' ++ digits)

/-- A character of a string in an outline: quotes, backslashes and control characters are
escaped. -/
def outlineChar (c : Char) : String :=
  if c = '"' then "\\\""
  else if c = '\\' then "\\\\"
  else if c = '\n' then "\\n"
  else if c = '\r' then "\\r"
  else if c = '\t' then "\\t"
  else if c = '\x08' then "\\b"
  else if c = '\x0c' then "\\f"
  else if c.toNat < 0x20 then "\\u" ++ hexText 4 c.toNat
  else c.toString

/-- A string in an outline. -/
def outlineQuoted (text : String) : String :=
  "\"" ++ String.join (text.toList.map outlineChar) ++ "\""

/-- A character of a string in a listing: what cannot be seen, or only together with its
neighbour, is shown by its code. -/
def listingChar (c : Char) : String :=
  if c = '"' then "\\\""
  else if c = '\\' then "\\\\"
  else if c = '\n' then "\\n"
  else if c = '\r' then "\\r"
  else if c = '\t' then "\\t"
  else if c = '\x00' then "\\0"
  else if isShown c then c.toString
  else "\\u\x7b" ++ hexText 1 c.toNat ++ "\x7d"

/-- A string in a listing. -/
def listingQuoted (text : String) : String :=
  "\"" ++ String.join (text.toList.map listingChar) ++ "\""

end Lu
