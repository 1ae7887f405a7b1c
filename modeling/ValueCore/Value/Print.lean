import ValueCore.Text.Quoted
import ValueCore.Value.Basic
/-!
# Written values

How a value is written.  Texts are quoted, characters stand after a backslash,
keywords after a colon.  A list is written between parentheses, a vector between
brackets, a map between braces with commas, and a set as a map with a hash mark in
front and no commas.  Functions and host objects have no form that can be read
back.  Metadata is not written.

With a *print length* `n`, every collection at every depth shows its first `n`
elements and then `...` if there are more.

The text goes to the front of a list of characters that is already written, so
that long texts take linear time.
-/

namespace ValueCore

/-- The raw name of a function.  A decorated function has the name of its target. -/
def Function.name : Function → String
  | .native _ info _ => info.name
  | .callable _ name _ _ => name
  | .decorated _ target _ => target.name

namespace Value

/-- A text put in front of `after`. -/
def put (s : String) (after : List Char) : List Char := s.toList ++ after

/-- Whether position `i` is past a print length. -/
def pastLimit (limit : Option Nat) (i : Nat) : Bool :=
  match limit with
  | some n => n ≤ i
  | none => false

mutual

/-- A value as written, in front of `after`. -/
def write (limit : Option Nat) (v : Value) (after : List Char) : List Char :=
  match v with
  | .nil => put "nil" after
  | .bool b => put (if b then "true" else "false") after
  | .num n => put n.text after
  | .char c => put (Text.writtenChar c) after
  | .str _ s => put (Text.quoted s) after
  | .sym s => put s.text after
  | .kw k => put k.text after
  | .seq .list _ items _ => '(' :: writeItems limit 0 items (')' :: after)
  | .seq .vector _ items _ => '[' :: writeItems limit 0 items (']' :: after)
  | .map _ entries _ => '{' :: writeEntries limit 0 entries ('}' :: after)
  | .set _ items _ => '#' :: '{' :: writeItems limit 0 items ('}' :: after)
  | .fn f => put "#<fn " (put f.name ('>' :: after))
  | .object _ facets items _ =>
    put "#object[" <| put facets.typeName <| ' ' ::
      match facets.debug with
      | .text s => put s (']' :: after)
      | .call name => put name ('(' :: writeArguments limit true items (')' :: ']' :: after))
termination_by structural v

/-- The elements from position `i` on, with a blank between. -/
def writeItems (limit : Option Nat) (i : Nat) (items : List Value) (after : List Char) :
    List Char :=
  match items with
  | [] => after
  | x :: rest =>
    let shown :=
      if pastLimit limit i then put "..." after
      else write limit x (writeItems limit (i + 1) rest after)
    if i = 0 then shown else ' ' :: shown
termination_by structural items

/-- The entries from position `i` on, with a comma and a blank between. -/
def writeEntries (limit : Option Nat) (i : Nat) (entries : List (Value × Value))
    (after : List Char) : List Char :=
  match entries with
  | [] => after
  | e :: rest =>
    let shown :=
      if pastLimit limit i then put "..." after
      else writeEntry limit e (writeEntries limit (i + 1) rest after)
    if i = 0 then shown else ',' :: ' ' :: shown
termination_by structural entries

/-- Key and value of an entry, with a blank between. -/
def writeEntry (limit : Option Nat) (e : Value × Value) (after : List Char) : List Char :=
  match e with
  | (k, v) => write limit k (' ' :: write limit v after)
termination_by structural e

/-- The elements of an object, with a comma and a blank between.  No limit applies to
their number. -/
def writeArguments (limit : Option Nat) (first : Bool) (items : List Value)
    (after : List Char) : List Char :=
  match items with
  | [] => after
  | x :: rest =>
    let shown := write limit x (writeArguments limit false rest after)
    if first then shown else ',' :: ' ' :: shown
termination_by structural items

end

/-- A value as written under a print length. -/
def text (limit : Option Nat) (v : Value) : String := String.ofList (write limit v [])

end Value

/-! ## Tables in no order -/

namespace Value

mutual

/-- Whether the written form shows a table of two entries or more, so that it depends on
their order. -/
def showsTable (v : Value) : Bool :=
  match v with
  | .seq _ _ items _ => anyShowsTable items
  | .map _ entries _ => 2 ≤ entries.length || anyEntryShowsTable entries
  | .set _ items _ => 2 ≤ items.length || anyShowsTable items
  | .object _ facets items _ =>
    match facets.debug with
    | .text _ => false
    | .call _ => anyShowsTable items
  | _ => false
termination_by structural v

/-- Whether one of the written forms shows such a table. -/
def anyShowsTable (items : List Value) : Bool :=
  match items with
  | [] => false
  | x :: rest => x.showsTable || anyShowsTable rest
termination_by structural items

/-- Whether one of the written entries shows such a table. -/
def anyEntryShowsTable (entries : List (Value × Value)) : Bool :=
  match entries with
  | [] => false
  | e :: rest => entryShowsTable e || anyEntryShowsTable rest
termination_by structural entries

/-- Whether key or value shows such a table. -/
def entryShowsTable (e : Value × Value) : Bool :=
  match e with
  | (k, v) => k.showsTable || v.showsTable
termination_by structural e

end

end Value

/-! ## Debug forms of functions -/

/-- A function as written for debugging. -/
def Function.debugText (f : Function) : String := "#<fn " ++ f.name ++ ">"

/-- A native function as written for debugging. -/
def NativeInfo.debugText (n : NativeInfo) : String := "#<native-fn " ++ n.name ++ ">"

end ValueCore
