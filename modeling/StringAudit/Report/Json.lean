/-!
# JSON

A JSON value is printed over several lines, with two blanks for each level of nesting.  A list or object
without members stays on one line.  Only the double quote, the backslash and the control characters below
U+0020 are escaped.
-/

namespace StringAudit

/-- A JSON value; the members of an object keep their order. -/
inductive Json
  | text (s : String)
  | number (n : Nat)
  | truth (b : Bool)
  | list (members : List Json)
  | object (members : List (String × Json))

namespace Json

/-- The four hexadecimal digits of a control character. -/
def controlDigits (n : Nat) : List Char :=
  let digits := Nat.toDigits 16 n
  List.replicate (4 - digits.length) '0' ++ digits

/-- A character inside a JSON text. -/
def escape (c : Char) : List Char :=
  if c = '"' then ['\\', '"']
  else if c = '\\' then ['\\', '\\']
  else if c = '\x08' then ['\\', 'b']
  else if c = '\x0c' then ['\\', 'f']
  else if c = '\n' then ['\\', 'n']
  else if c = '\r' then ['\\', 'r']
  else if c = '\t' then ['\\', 't']
  else if c.toNat < 0x20 then '\\' :: 'u' :: controlDigits c.toNat
  else [c]

/-- A JSON text. -/
def quote (s : String) : String :=
  String.ofList ('"' :: s.toList.flatMap escape ++ ['"'])

/-- A new line at a level of nesting. -/
def newLine (level : Nat) : String :=
  String.ofList ('\n' :: List.replicate (2 * level) ' ')

/-- Members between brackets, each on a line of its own. -/
def enclose (first last : String) (level : Nat) (members : List String) : String :=
  if members.isEmpty then first ++ last
  else first ++ newLine (level + 1) ++ ("," ++ newLine (level + 1)).intercalate members ++
    newLine level ++ last

mutual

/-- The text of a value at a level of nesting. -/
def printAt (level : Nat) : Json → String
  | text s => quote s
  | number n => toString n
  | truth b => if b then "true" else "false"
  | list members => enclose "[" "]" level (printList level members)
  | object members => enclose "\x7b" "\x7d" level (printMembers level members)

/-- The texts of the members of a list. -/
def printList (level : Nat) : List Json → List String
  | [] => []
  | value :: rest => printAt (level + 1) value :: printList level rest

/-- The texts of the members of an object. -/
def printMembers (level : Nat) : List (String × Json) → List String
  | [] => []
  | (key, value) :: rest =>
      (quote key ++ ": " ++ printAt (level + 1) value) :: printMembers level rest

end

/-- The text of a value. -/
def print (value : Json) : String :=
  printAt 0 value

end Json

end StringAudit
