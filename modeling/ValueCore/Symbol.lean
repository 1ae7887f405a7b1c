import ValueCore.Hash.Combine
import ValueCore.Hash.Murmur
import ValueCore.Text.Units
/-!
# Symbols

A symbol is a name, in a namespace or in none.  Symbols are equal by content and
written with a slash between namespace and name.

`Symbol.parse` cuts at the first slash, except that a lone slash is a name.  The
text of a parsed symbol is the text it was parsed from.  A symbol is not always
the one parsed from its text, since its name or namespace may hold slashes.
-/

namespace ValueCore

/-- A name, in a namespace or in none. -/
structure Symbol where
  /-- The namespace, if there is one. -/
  ns? : Option String
  /-- The name. -/
  name : String
deriving DecidableEq

namespace Symbol

/-- The characters before the first slash and those after it, or nothing if there is
no slash. -/
def cutAtSlash : List Char → Option (List Char × List Char)
  | [] => none
  | c :: rest =>
    if c = '/' then some ([], rest)
    else (cutAtSlash rest).map fun cut => (c :: cut.1, cut.2)

/-- The symbol that a text names. -/
def parse (text : String) : Symbol :=
  if text = "/" then ⟨none, text⟩
  else
    match cutAtSlash text.toList with
    | none => ⟨none, text⟩
    | some cut => ⟨some (String.ofList cut.1), String.ofList cut.2⟩

/-- The namespace and the name with a slash between, or the name alone. -/
def text (s : Symbol) : String :=
  match s.ns? with
  | none => s.name
  | some ns => ns ++ "/" ++ s.name

/-- A symbol as written for debugging. -/
def debugText (s : Symbol) : String := "Symbol(" ++ s.text ++ ")"

/-- The order of symbols: those without a namespace first, then by namespace, then by
name, each as texts. -/
def order (a b : Symbol) : Ordering :=
  match a.ns?, b.ns? with
  | none, some _ => .lt
  | some _, none => .gt
  | none, none => Text.order a.name b.name
  | some x, some y => (Text.order x y).then (Text.order a.name b.name)

/-- The polynomial hash of the namespace, `0` without one. -/
def namespaceHash (s : Symbol) : UInt32 :=
  match s.ns? with
  | none => 0
  | some ns => Text.polynomialHash ns

/-- The hash that agrees with equality of content. -/
def hash (s : Symbol) : UInt32 :=
  combineHash (Text.polynomialHash s.name) s.namespaceHash

/-- The value hash. -/
def hashEq (s : Symbol) : UInt32 :=
  combineHash (Murmur.hashUnits (Text.units s.name)) s.namespaceHash

end Symbol

end ValueCore
