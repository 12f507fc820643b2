import Compositor.Text.Decimal
import Compositor.Text.Json.Basic

/-!
# Writing JSON

A value is written in two ways: on one line without blanks, or laid out with one item a line,
indented by two blanks a level, the members of an object in the order of their names.
-/

namespace Compositor.Text.Json

/-- Floats are written with all places while the point is at most sixteen digits behind and five
digits before the first one. -/
def floats : Layout := ⟨-4, 16⟩

/-- A float with its sign; zero has one too. -/
def writeFloat (x : Float) : String :=
  (if x.toBits < 0x8000000000000000 then "" else "-") ++ writeShortest floats x

/-- A character inside a quoted text. -/
def escape (c : Char) : String :=
  match c with
  | '"' => "\\\""
  | '\\' => "\\\\"
  | '\n' => "\\n"
  | '\r' => "\\r"
  | '\t' => "\\t"
  | '\x08' => "\\b"
  | '\x0c' => "\\f"
  | c =>
    if c.toNat < 32 then
      "\\u00" ++ String.ofList [(c.toNat / 16).digitChar, (c.toNat % 16).digitChar]
    else c.toString

def quote (s : String) : String :=
  "\"" ++ String.join (s.toList.map escape) ++ "\""

/-- Lines between brackets, each but the last followed by a comma. -/
def enclose (opening closing indent : String) : List String → String
  | [] => opening ++ closing
  | items =>
    let inner := "\n" ++ indent ++ "  "
    opening ++ inner ++ ("," ++ inner).intercalate items ++ "\n" ++ indent ++ closing

/-- The named lines of an object in the order of their names. -/
def sortLines (lines : List (String × String)) : List String :=
  (lines.mergeSort fun a b => a.1 ≤ b.1).map fun (name, line) => quote name ++ ": " ++ line

mutual

/-- The text of a value on one line. -/
def write : Json → String
  | null => "null"
  | bool b => if b then "true" else "false"
  | int n => s!"{n}"
  | float x => writeFloat x
  | text s => quote s
  | array items => "[" ++ ",".intercalate (writeItems items) ++ "]"
  | object members => "\x7b" ++ ",".intercalate (writeMembers members) ++ "\x7d"

def writeItems : List Json → List String
  | [] => []
  | item :: rest => write item :: writeItems rest

def writeMembers : List (String × Json) → List String
  | [] => []
  | (name, value) :: rest => (quote name ++ ":" ++ write value) :: writeMembers rest

end

mutual

/-- The text of a value whose first line is already indented. -/
def render (indent : String) : Json → String
  | null => "null"
  | bool b => if b then "true" else "false"
  | int n => s!"{n}"
  | float x => writeFloat x
  | text s => quote s
  | array items => enclose "[" "]" indent (renderItems (indent ++ "  ") items)
  | object members =>
    enclose "\x7b" "\x7d" indent (sortLines (renderMembers (indent ++ "  ") members))

def renderItems (indent : String) : List Json → List String
  | [] => []
  | item :: rest => render indent item :: renderItems indent rest

def renderMembers (indent : String) : List (String × Json) → List (String × String)
  | [] => []
  | (name, value) :: rest => (name, render indent value) :: renderMembers indent rest

end

end Compositor.Text.Json
