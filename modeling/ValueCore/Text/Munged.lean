/-!
# Munged names

Names of functions are kept in a form that is safe as an identifier.  `munge`
replaces every reader character by a token between underscores, such as `_PLUS_`,
and a dash by a lone underscore.  `demunge` reads the readable name back: at an
underscore the longest token wins, and `$`, which stands between a namespace and
a name, becomes `/`.

Reading is not always the inverse of writing.  An underscore or a `$` in the
readable name is lost, and a dash may join the letters after it to a token.
-/

namespace ValueCore.Text

/-- The word between the underscores of a reader character's token.  The dash has
the empty word, and its token is a lone underscore. -/
def tokenWords : List (Char × String) :=
  [(':', "COLON"), ('+', "PLUS"), ('>', "GT"), ('<', "LT"), ('=', "EQ"),
   ('~', "TILDE"), ('!', "BANG"), ('@', "CIRCA"), ('#', "SHARP"),
   ('\'', "SINGLEQUOTE"), ('"', "DOUBLEQUOTE"), ('%', "PERCENT"), ('^', "CARET"),
   ('&', "AMPERSAND"), ('*', "STAR"), ('|', "BAR"), ('\x7b', "LBRACE"),
   ('\x7d', "RBRACE"), ('[', "LBRACK"), (']', "RBRACK"), ('/', "SLASH"),
   ('\\', "BSLASH"), ('?', "QMARK")]

/-- Every replaced character with its token. -/
def tokens : List (Char × List Char) :=
  ('-', ['_']) :: tokenWords.map fun e => (e.1, '_' :: e.2.toList ++ ['_'])

/-- The token of a character, or the character itself. -/
def mungeChar (c : Char) : List Char :=
  match tokens.find? (fun e => e.1 == c) with
  | some e => e.2
  | none => [c]

/-- The identifier form of a readable name. -/
def mungeChars (cs : List Char) : List Char :=
  cs.flatMap mungeChar

/-- The longer of two tokens, the first on a tie. -/
def longerToken (best e : Char × List Char) : Char × List Char :=
  if best.2.length < e.2.length then e else best

/-- The longest token that `cs` starts with. -/
def tokenAt? (cs : List Char) : Option (Char × List Char) :=
  match tokens.filter (fun e => e.2.isPrefixOf cs) with
  | [] => none
  | e :: rest => some (rest.foldl longerToken e)

/-- What one step of reading yields: the readable character and how many further
characters it took up. -/
def demungeStep (c : Char) (rest : List Char) : Char × Nat :=
  if c = '_' then
    match tokenAt? (c :: rest) with
    | some e => (e.1, e.2.length - 1)
    | none => (c, 0)
  else if c = '$' then ('/', 0)
  else (c, 0)

/-- The readable form of an identifier. -/
def demungeChars : List Char → List Char
  | [] => []
  | c :: rest =>
    let step := demungeStep c rest
    step.1 :: demungeChars (rest.drop step.2)
termination_by cs => cs.length
decreasing_by simp only [List.length_cons, List.length_drop]; omega

/-- `mungeChars` on texts. -/
def munge (name : String) : String :=
  String.ofList (mungeChars name.toList)

/-- `demungeChars` on texts. -/
def demunge (name : String) : String :=
  String.ofList (demungeChars name.toList)

end ValueCore.Text
