import StringAudit.Text.Quoted

/-!
# Wide texts

A text is a sequence of characters.  The program also meets sequences of code points in which a surrogate
stands alone: a path whose bytes are no UTF-8 has one for each of those bytes, and an escape in the settings
file can name one.  Such a text is torn.  A wide text is a text or a torn one.
-/

namespace StringAudit

/-- A code point: a character, or a surrogate, counted from U+D800. -/
inductive CodePoint
  | char (c : Char)
  | surrogate (n : Fin 0x800)
  deriving DecidableEq, Repr

/-- The number of a code point. -/
def CodePoint.toNat : CodePoint → Nat
  | char c => c.toNat
  | surrogate n => 0xD800 + n

/-- The character that a code point is, unless it is a surrogate. -/
def CodePoint.char? : CodePoint → Option Char
  | char c => some c
  | surrogate _ => none

/-- A text with a surrogate: the characters before the first one, that one, and what follows it. -/
structure Torn where
  front : String
  surrogate : Fin 0x800
  rest : List CodePoint
  deriving DecidableEq, Repr

/-- A text, or a torn one. -/
inductive WideText
  | sound (text : String)
  | torn (text : Torn)
  deriving DecidableEq, Repr

namespace WideText

instance : Coe String WideText :=
  ⟨sound⟩

/-- The code points of a text. -/
def pointsOf (s : String) : List CodePoint :=
  s.toList.map .char

/-- The code points of a wide text. -/
def points : WideText → List CodePoint
  | sound s => pointsOf s
  | torn t => pointsOf t.front ++ .surrogate t.surrogate :: t.rest

/-- The wide text of code points, behind characters that were read before. -/
def ofPointsAfter (front : List Char) : List CodePoint → WideText
  | [] => sound (String.ofList front)
  | .char c :: rest => ofPointsAfter (front ++ [c]) rest
  | .surrogate n :: rest => torn ⟨String.ofList front, n, rest⟩

/-- The wide text of code points. -/
def ofPoints (points : List CodePoint) : WideText :=
  ofPointsAfter [] points

/-- One wide text behind another. -/
def append : WideText → WideText → WideText
  | sound s, sound s' => sound (s ++ s')
  | sound s, torn t => torn { t with front := s ++ t.front }
  | torn t, after => torn { t with rest := t.rest ++ after.points }

instance : Append WideText :=
  ⟨append⟩

/-- The text that a wide text is, unless it is torn. -/
def sound? : WideText → Option String
  | sound s => some s
  | torn _ => none

/-- The text with the replacement character for every surrogate. -/
def plain : WideText → String
  | sound s => s
  | torn t =>
      t.front ++ String.ofList ('\uFFFD' :: t.rest.map fun
        | .char c => c
        | .surrogate _ => '\uFFFD')

/-- The numbers of the code points of a wide text. -/
def numbers (text : WideText) : List Nat :=
  text.points.map CodePoint.toNat

/-- Wide texts are compared by the numbers of their code points. -/
instance : LE WideText :=
  ⟨fun a b => ¬ List.Lex (· < ·) b.numbers a.numbers⟩

instance (a b : WideText) : Decidable (a ≤ b) :=
  @instDecidableNot _ (@List.decidableLex Nat instDecidableEqNat (· < ·) Nat.decLt b.numbers a.numbers)

/-- Wide texts in ascending order. -/
def sorted (texts : List WideText) : List WideText :=
  texts.mergeSort fun a b => decide (a ≤ b)

/-- Wide texts with another one between them. -/
def join (between : WideText) : List WideText → WideText
  | [] => sound ""
  | [text] => text
  | text :: rest => text ++ between ++ join between rest

/-- A code point inside the quotes `mark`, written in ASCII. -/
def quotedPoint (mark : Char) : CodePoint → List Char
  | .char c => Text.quotedChar Text.isPlainAscii mark c
  | .surrogate n => '\\' :: 'u' :: Text.hexadecimal 4 (0xD800 + n)

/-- A wide text in quotes, written in ASCII alone. -/
def quotedAscii : WideText → String
  | sound s => Text.quotedAscii s
  | torn t =>
      let points := (torn t).points
      let mark := Text.quoteMark (points.filterMap CodePoint.char?)
      String.ofList (mark :: points.flatMap (quotedPoint mark) ++ [mark])

end WideText

end StringAudit
