import ValueCore.Text.Unseen
/-!
# Quoted texts and written characters

How a text and a character are written so that they can be read back.  A text
stands between double quotes, and the quote, the backslash, the newline, the tab
and the carriage return inside it are written as two characters.  A character is
written after a backslash, by name if it is one of six blanks and controls and
by itself if not.

`debugText` and `debugChar` write the stricter form that host values show: every
character that leaves no mark on paper is escaped as well.
-/

namespace ValueCore.Text

/-! ## Texts -/

/-- One character inside quotes. -/
def escapeChar : Char → List Char
  | '\n' => ['\\', 'n']
  | '\t' => ['\\', 't']
  | '\r' => ['\\', 'r']
  | '\\' => ['\\', '\\']
  | '"' => ['\\', '"']
  | c => [c]

/-- The characters of a text inside quotes. -/
def escape (cs : List Char) : List Char :=
  cs.flatMap escapeChar

/-- A text as written: escaped, between double quotes. -/
def quoted (s : String) : String :=
  String.ofList ('"' :: escape s.toList ++ ['"'])

/-! ## Characters -/

/-- The name of a character, or the character itself. -/
def charName : Char → String
  | '\n' => "newline"
  | ' ' => "space"
  | '\t' => "tab"
  | '\r' => "return"
  | '\x08' => "backspace"
  | '\x0c' => "formfeed"
  | c => c.toString

/-- A character as written: its name after a backslash. -/
def writtenChar (c : Char) : String :=
  "\\" ++ charName c

/-! ## The strict form -/

/-- A code point in hexadecimal between braces. -/
def hexEscape (c : Char) : List Char :=
  ['\\', 'u', '{'] ++ Nat.toDigits 16 c.toNat ++ ['}']

/-- One character in the strict form, where `quote` is the enclosing mark. -/
def debugEscapeChar (quote : Char) (c : Char) : List Char :=
  match c with
  | '\n' => ['\\', 'n']
  | '\t' => ['\\', 't']
  | '\r' => ['\\', 'r']
  | '\\' => ['\\', '\\']
  | '\x00' => ['\\', '0']
  | c => if c = quote then ['\\', c] else if isUnseen c then hexEscape c else [c]

/-- A text in the strict form, between double quotes. -/
def debugText (s : String) : String :=
  String.ofList ('"' :: s.toList.flatMap (debugEscapeChar '"') ++ ['"'])

/-- A character in the strict form, between single quotes. -/
def debugChar (c : Char) : String :=
  String.ofList ('\'' :: debugEscapeChar '\'' c ++ ['\''])

example : escape ['a', '"', '\\'] = ['a', '\\', '"', '\\', '\\'] := by decide

end ValueCore.Text
