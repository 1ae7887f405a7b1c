import ValueCore.Value.Print
/-!
# Where a written text ends

A written text can be told from what comes after it, and the text can be read off it.

Inside the quotes a character is written in one of two ways (`Escaped`): by itself, if it is
neither a quote nor a backslash, or as a letter after a backslash, which stands for one
character only.  So the first thing written decides which way it is and how much belongs to
the character (`Escaped.append_inj`).  Nothing written for a character begins with a quote.
Hence a quote where the next character could begin is the closing one, also after a run of
backslashes (`escape_append_inj`).
-/

namespace ValueCore

namespace Text

/-! ## Characters inside quotes -/

/-- The character that a letter after a backslash stands for. -/
def ofLetter : Char → Char
  | 'n' => '\n'
  | 't' => '\t'
  | 'r' => '\r'
  | c => c

/-- A character and a way to write it inside quotes. -/
inductive Escaped : Char → List Char → Prop where
  /-- A letter after a backslash. -/
  | letter {d : Char} (visible : d ∉ ['\n', '\t', '\r']) : Escaped (ofLetter d) ['\\', d]
  /-- The character itself. -/
  | plain {c : Char} (quote : c ≠ '"') (backslash : c ≠ '\\')
      (visible : c ∉ ['\n', '\t', '\r']) : Escaped c [c]

theorem escaped_escapeChar (c : Char) : Escaped c (escapeChar c) := by
  unfold escapeChar
  split
  · exact .letter (d := 'n') (by decide)
  · exact .letter (d := 't') (by decide)
  · exact .letter (d := 'r') (by decide)
  · exact .letter (d := '\\') (by decide)
  · exact .letter (d := '"') (by decide)
  · next newline tab ret backslash quote =>
    exact .plain quote backslash (by simpa using ⟨newline, tab, ret⟩)

namespace Escaped

variable {c d : Char} {w w' x y : List Char}

/-- What is written for a character is no part of what is written for another one. -/
theorem append_inj (h : Escaped c w) (h' : Escaped d w') (same : w ++ x = w' ++ y) :
    c = d ∧ x = y := by
  cases h with
  | letter =>
    cases h' with
    | letter =>
      simp only [List.cons_append, List.nil_append, List.cons.injEq, true_and] at same
      exact ⟨congrArg ofLetter same.1, same.2⟩
    | plain quote backslash =>
      simp only [List.cons_append, List.nil_append, List.cons.injEq] at same
      exact absurd same.1.symm backslash
  | plain quote backslash =>
    cases h' with
    | letter =>
      simp only [List.cons_append, List.nil_append, List.cons.injEq] at same
      exact absurd same.1 backslash
    | plain => simpa using same

theorem append_ne_quote (h : Escaped c w) : w ++ x ≠ '"' :: y := by
  cases h with
  | letter => simp
  | plain quote => simp [quote]

theorem visible (h : Escaped c w) (control : d ∈ ['\n', '\t', '\r']) : d ∉ w := by
  have backslash : '\\' ∉ ['\n', '\t', '\r'] := by decide
  cases h with
  | letter visible =>
    simp only [List.mem_cons, List.not_mem_nil, or_false, not_or]
    exact ⟨fun same => backslash (same ▸ control), fun same => visible (same ▸ control)⟩
  | plain quote backslash visible =>
    rw [List.mem_singleton]
    exact fun same => visible (same ▸ control)

end Escaped

/-! ## Texts -/

theorem escape_cons (c : Char) (s u : List Char) :
    escape (c :: s) ++ u = escapeChar c ++ (escape s ++ u) := by
  rw [escape, List.flatMap_cons, List.append_assoc, escape]

/-- The closing quote is found again, and the text before it. -/
theorem escape_append_inj {s t u v : List Char}
    (same : escape s ++ '"' :: u = escape t ++ '"' :: v) : s = t ∧ u = v := by
  induction s generalizing t with
  | nil =>
    cases t with
    | nil => simpa [escape] using same
    | cons d t =>
      rw [escape_cons] at same
      exact absurd same.symm (escaped_escapeChar d).append_ne_quote
  | cons c s ih =>
    cases t with
    | nil =>
      rw [escape_cons] at same
      exact absurd same (escaped_escapeChar c).append_ne_quote
    | cons d t =>
      rw [escape_cons, escape_cons] at same
      obtain ⟨first, rest⟩ := (escaped_escapeChar c).append_inj (escaped_escapeChar d) same
      obtain ⟨others, after⟩ := ih rest
      exact ⟨by rw [first, others], after⟩

theorem notMem_escape (s : List Char) {d : Char} (control : d ∈ ['\n', '\t', '\r']) :
    d ∉ escape s := by
  intro mem
  obtain ⟨c, -, here⟩ := List.mem_flatMap.mp mem
  exact (escaped_escapeChar c).visible control here

theorem toList_quoted (s : String) : (quoted s).toList = '"' :: escape s.toList ++ ['"'] :=
  String.toList_ofList

theorem quoted_append_inj {s t u v : String} (same : quoted s ++ u = quoted t ++ v) :
    s = t ∧ u = v := by
  have chars := congrArg String.toList same
  simp only [String.toList_append, toList_quoted, List.cons_append, List.append_assoc,
    List.nil_append, List.cons.injEq, true_and] at chars
  obtain ⟨texts, after⟩ := escape_append_inj chars
  exact ⟨String.toList_inj.mp texts, String.toList_inj.mp after⟩

theorem notMem_quoted (s : String) {d : Char} (control : d ∈ ['\n', '\t', '\r']) :
    d ∉ (quoted s).toList := by
  have quote : '"' ∉ ['\n', '\t', '\r'] := by decide
  have other : d ≠ '"' := fun same => quote (same ▸ control)
  simp [toList_quoted, other, notMem_escape s.toList control]

end Text

namespace Value

theorem text_str (limit : Option Nat) (i : Nat) (s : String) :
    (Value.str i s).text limit = Text.quoted s := by
  rw [text, write, put, List.append_nil, String.ofList_toList]

/-- A text as a value is written so that its end is seen and nothing is lost: whatever comes
after, the whole can be taken apart in one way only.  There is no line break, tab or carriage
return in it. -/
theorem text_str_append_inj (limit limit' : Option Nat) (i j : Nat) (s t u v : String) :
    ((Value.str i s).text limit ++ u = (Value.str j t).text limit' ++ v ↔ s = t ∧ u = v) ∧
      '\n' ∉ ((Value.str i s).text limit).toList ∧
      '\t' ∉ ((Value.str i s).text limit).toList ∧
      '\r' ∉ ((Value.str i s).text limit).toList := by
  rw [text_str, text_str]
  refine ⟨⟨Text.quoted_append_inj, ?_⟩, Text.notMem_quoted s (by decide),
    Text.notMem_quoted s (by decide), Text.notMem_quoted s (by decide)⟩
  rintro ⟨rfl, rfl⟩
  rfl

example : ((Value.str 0 "a\\\"n\n").text none) = "\"a\\\\\\\"n\\n\"" := by decide

end Value

end ValueCore
