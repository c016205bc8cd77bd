import Lu.Text.Listing
import Lu.Text.Quoted
import Lu.Value.Basic

namespace Lu

/-- A value in a listing, with the name of its kind. -/
def Value.listing : Value → Listing
  | .int n => .tagged "Int" (.word (toString n.toInt))
  | .float x => .tagged "Float" (.word (FloatLayout.listing.write x))
  | .str text => .tagged "String" (.word (listingQuoted text))
  | .void => .word "Void"
  | .nil => .word "Nil"

end Lu
