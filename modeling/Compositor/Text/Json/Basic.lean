/-!
# JSON

A value as JSON can say it. Whole numbers and floats are kept apart, and the members of an object
keep the order in which they came.
-/

namespace Compositor.Text

inductive Json where
  | null
  | bool (b : Bool)
  | int (n : Int)
  | float (x : Float)
  | text (s : String)
  | array (items : List Json)
  | object (members : List (String × Json))

namespace Json

/-- The value of a name. Of members with the same name the last one counts. -/
def member? (name : String) : Json → Option Json
  | object members => (members.reverse.find? (·.1 == name)).map (·.2)
  | _ => none

end Json

end Compositor.Text
