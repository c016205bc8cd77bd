namespace Lu

/-- What a listing shows: values by the names of their kinds and of their parts. -/
inductive Listing where
  | word (text : String)
  | tagged (name : String) (item : Listing)
  | record (name : String) (fields : List (String × Listing))
  | list (items : List Listing)
deriving Inhabited

namespace Listing

/-- An optional part is there under a tag, or the word for none. -/
def ofOption {α : Type} (listing : α → Listing) : Option α → Listing
  | some value => tagged "Some" (listing value)
  | none => word "None"

/-- The listing on one line. -/
def inline : Listing → String
  | word text => text
  | tagged name item => name ++ "(" ++ item.inline ++ ")"
  | record name fields => name ++ " \x7b" ++ inlineFields " " fields ++ " \x7d"
  | list items => "[" ++ inlineItems "" items ++ "]"
where
  inlineFields (before : String) : List (String × Listing) → String
    | [] => ""
    | (name, value) :: rest => before ++ name ++ ": " ++ value.inline ++ inlineFields ", " rest
  inlineItems (before : String) : List Listing → String
    | [] => ""
    | item :: rest => before ++ item.inline ++ inlineItems ", " rest

/-- Writes the listing after a text, every part on a line of its own, which ends with a comma and
is indented by four blanks more than the whole. Only the first line is not indented. -/
def writeLines (indent : String) (before : String) : Listing → String
  | word text => before ++ text
  | tagged name item =>
    let inner := indent ++ "    "
    item.writeLines inner (before ++ name ++ "(\n" ++ inner) ++ ",\n" ++ indent ++ ")"
  | record name fields =>
    writeFields (indent ++ "    ") (before ++ name ++ " \x7b\n") fields ++ indent ++ "\x7d"
  | list [] => before ++ "[]"
  | list items => writeItems (indent ++ "    ") (before ++ "[\n") items ++ indent ++ "]"
where
  writeFields (indent before : String) : List (String × Listing) → String
    | [] => before
    | (name, value) :: rest =>
      writeFields indent (value.writeLines indent (before ++ indent ++ name ++ ": ") ++ ",\n") rest
  writeItems (indent before : String) : List Listing → String
    | [] => before
    | item :: rest => writeItems indent (item.writeLines indent (before ++ indent) ++ ",\n") rest

/-- The listing with its parts on lines of their own. -/
def lines (listing : Listing) : String := listing.writeLines "" ""

end Listing

end Lu
