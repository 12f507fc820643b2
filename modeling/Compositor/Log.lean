/-!
# Log events

What happened, at a level, with named values. Operations that log return or collect events; how an
event reads is decided here.
-/

namespace Compositor.Log

inductive Level where
  | trace
  | debug
  | warn
deriving DecidableEq, Repr

def Level.name : Level → String
  | trace => "TRACE"
  | debug => "DEBUG"
  | warn => "WARN"

structure Event where
  level : Level
  message : String
  fields : List (String × String)
deriving DecidableEq, Repr

/-- The level, the message, and every field as a name and a value. -/
def Event.render (e : Event) : String :=
  " ".intercalate
    (e.level.name :: e.message :: e.fields.map fun (name, value) => name ++ "=" ++ value)

end Compositor.Log
