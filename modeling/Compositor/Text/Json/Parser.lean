import Compositor.Text.Decimal
import Compositor.Text.Json.Basic

/-!
# Reading JSON

A text is read in one walk. The walk collects the characters of a word or of a quoted text, and
hands what it completes to a stack of containers that are still open. A container closes into a
value of the container around it, so the walk needs no recursion and ends with the text.

A whole number that 64 bits hold, with a sign or without, stays whole. Every other number is the
float that it is read as.
-/

namespace Compositor.Text.Json

/-! ## Words -/

/-- Whether a number is whole and 64 bits hold it. Minus zero is a float. -/
def whole? (word : List Char) : Option Int :=
  match (String.ofList word).toInt? with
  | some n =>
    if -0x8000000000000000 ≤ n ∧ n < 0x10000000000000000 ∧ word ≠ ['-', '0'] then some n
    else none
  | none => none

/-- The value of a number. -/
def ofNumber (word : List Char) : Json :=
  match whole? word, word with
  | some n, _ => int n
  | none, '-' :: digits => float (-(Decimal.read digits).toFloat)
  | none, digits => float (Decimal.read digits).toFloat

/-- The value of a word outside of quoted texts. -/
def ofWord? (word : List Char) : Option Json :=
  match String.ofList word with
  | "null" => some null
  | "true" => some (bool true)
  | "false" => some (bool false)
  | _ => if word.any Char.isDigit then some (ofNumber word) else none

/-! ## Quoted texts -/

private def digit? (c : Char) : Option Nat :=
  let c := c.toLower
  if c.isDigit then some (c.toNat - 48)
  else if 'a' ≤ c ∧ c ≤ 'f' then some (c.toNat - 87)
  else none

/-- The code unit of four hexadecimal digits. -/
def unit? (a b c d : Char) : Option Nat := do
  return (((← digit? a) * 16 + (← digit? b)) * 16 + (← digit? c)) * 16 + (← digit? d)

/-- The character of a letter after a backslash. -/
def unescaped? (c : Char) : Option Char :=
  match c with
  | '"' | '\\' | '/' => some c
  | 'b' => some '\x08'
  | 'f' => some '\x0c'
  | 'n' => some '\n'
  | 'r' => some '\r'
  | 't' => some '\t'
  | _ => none

/-- A quoted text without its escapes, appended to what is done of it. Two code units make one
character if the first is a high and the second a low surrogate; a surrogate alone is refused. -/
def unescape (done : String) : List Char → Option String
  | [] => some done
  | '\\' :: 'u' :: a :: b :: c :: d :: '\\' :: 'u' :: e :: f :: g :: h :: rest =>
    match unit? a b c d, unit? e f g h with
    | some high, some low =>
      if 0xD800 ≤ high ∧ high < 0xDC00 then
        if 0xDC00 ≤ low ∧ low < 0xE000 then
          unescape
            (done.push (Char.ofNat (0x10000 + (high - 0xD800) * 0x400 + (low - 0xDC00)))) rest
        else none
      else if 0xDC00 ≤ high ∧ high < 0xE000 then none
      else unescape (done.push (Char.ofNat high)) ('\\' :: 'u' :: e :: f :: g :: h :: rest)
    | _, _ => none
  | '\\' :: 'u' :: a :: b :: c :: d :: rest =>
    match unit? a b c d with
    | some n => if 0xD800 ≤ n ∧ n < 0xE000 then none else unescape (done.push (Char.ofNat n)) rest
    | none => none
  | '\\' :: c :: rest =>
    match unescaped? c with
    | some c => unescape (done.push c) rest
    | none => none
  | c :: rest => unescape (done.push c) rest

/-! ## Containers -/

/-- A container that is not closed yet, with its contents in reverse. -/
inductive Opened where
  | array (items : List Json)
  /-- The name waits for its value. -/
  | object (members : List (String × Json)) (name : Option String)

/-- What is read so far. -/
structure Reading where
  /-- The open containers, the innermost first. -/
  opened : List Opened := []
  /-- A complete value that the innermost container has not taken in yet. -/
  value : Option Json := none

namespace Reading

/-- Complete a value. -/
def add (r : Reading) (v : Json) : Option Reading :=
  if r.value.isSome then none else some { r with value := some v }

/-- Open a container. -/
def push (r : Reading) (container : Opened) : Option Reading :=
  match r.opened, r.value with
  | .object _ none :: _, _ | _, some _ => none
  | opened, none => some ⟨container :: opened, none⟩

/-- Make a text the name of the next member. -/
def colon (r : Reading) : Option Reading :=
  match r with
  | ⟨.object members none :: rest, some (.text name)⟩ =>
    some ⟨.object members (some name) :: rest, none⟩
  | _ => none

/-- Take a value in, and go on to the next. -/
def comma (r : Reading) : Option Reading :=
  match r with
  | ⟨.array items :: rest, some v⟩ => some ⟨.array (v :: items) :: rest, none⟩
  | ⟨.object members (some name) :: rest, some v⟩ =>
    some ⟨.object ((name, v) :: members) none :: rest, none⟩
  | _ => none

def closeArray (r : Reading) : Option Reading :=
  match r with
  | ⟨.array [] :: rest, none⟩ => some ⟨rest, some (.array [])⟩
  | ⟨.array items :: rest, some v⟩ => some ⟨rest, some (.array (v :: items).reverse)⟩
  | _ => none

def closeObject (r : Reading) : Option Reading :=
  match r with
  | ⟨.object [] none :: rest, none⟩ => some ⟨rest, some (.object [])⟩
  | ⟨.object members (some name) :: rest, some v⟩ =>
    some ⟨rest, some (.object ((name, v) :: members).reverse)⟩
  | _ => none

/-- The value of a text that is complete. -/
def result (r : Reading) : Option Json :=
  match r with
  | ⟨[], v⟩ => v
  | _ => none

end Reading

/-! ## The walk -/

/-- Where the walk is. Characters are collected in reverse. -/
inductive Place where
  | between
  | word (collected : List Char)
  | quoted (collected : List Char)
  /-- After a backslash in a quoted text. -/
  | escaped (collected : List Char)

namespace Place

/-- Take in a character outside of words and quoted texts. -/
def start (r : Reading) (c : Char) : Option (Place × Reading) :=
  match c with
  | '"' => some (quoted [], r)
  | '[' => r.push (.array []) |>.map (between, ·)
  | '\x7b' => r.push (.object [] none) |>.map (between, ·)
  | ']' => r.closeArray.map (between, ·)
  | '\x7d' => r.closeObject.map (between, ·)
  | ',' => r.comma.map (between, ·)
  | ':' => r.colon.map (between, ·)
  | ' ' | '\t' | '\n' | '\r' => some (between, r)
  | c => if c.isAlphanum ∨ c = '-' then some (word [c], r) else none

/-- Hand over a word that is complete. -/
def finish (collected : List Char) (r : Reading) : Option Reading :=
  (ofWord? collected.reverse).bind r.add

/-- Take in one character. -/
def step (walk : Place × Reading) (c : Char) : Option (Place × Reading) :=
  match walk with
  | (between, r) => start r c
  | (word collected, r) =>
    if c.isAlphanum ∨ c ∈ ['-', '+', '.'] then some (word (c :: collected), r)
    else (finish collected r).bind (start · c)
  | (quoted collected, r) =>
    match c with
    | '"' => do return (between, ← r.add (.text (← unescape "" collected.reverse)))
    | '\\' => some (escaped (c :: collected), r)
    | _ => some (quoted (c :: collected), r)
  | (escaped collected, r) => some (quoted (c :: collected), r)

end Place

/-- The value that a text says, if it says one. -/
def parse? (text : String) : Option Json := do
  match ← text.toList.foldlM Place.step (.between, {}) with
  | (.between, r) => r.result
  | (.word collected, r) => (← Place.finish collected r).result
  | _ => none

end Compositor.Text.Json
