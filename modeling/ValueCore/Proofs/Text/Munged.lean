import Mathlib.Data.List.Infix
import ValueCore.Text.Munged
/-!
# Which names can be read back

Reading goes through a munged name from left to right and takes the longest token at each
underscore.  The tokens of words cannot be mistaken for one another, since none of them starts
another one (`eq_or_dash_of_starts`).  The dash has a lone underscore, which starts all of them.
So a name is read back character by character as long as no dash is taken for the start of
another token.

A dash is taken for that if the word of a token follows and after it a character that is
replaced, since a replaced character is written with an underscore in front
(`word_prefix_mungeChars`).  Then reading goes wrong at that dash, whatever comes after it.

Underscores and dollar signs are never read (`notMem_demungeChars`), so a name that has one of
them is lost.  There are no other losses (`demunge_munge_iff`).
-/

namespace ValueCore.Text

/-! ## The table of tokens -/

/-- A character that is not written as itself. -/
def Replaced (c : Char) : Prop := mungeChar c ≠ [c]

theorem mem_tokens {e : Char × List Char} :
    e ∈ tokens ↔ e = ('-', ['_']) ∨
      ∃ w ∈ tokenWords, e = (w.1, '_' :: (w.2.toList ++ ['_'])) := by
  simp [tokens, eq_comm]

theorem mungeChar_of_mem {e : Char × List Char} (mem : e ∈ tokens) : mungeChar e.1 = e.2 := by
  have table : ∀ e ∈ tokens, mungeChar e.1 = e.2 := by decide +kernel
  exact table e mem

/-- Neither an underscore nor a dollar sign has a token. -/
theorem ne_of_mem_tokens {e : Char × List Char} (mem : e ∈ tokens) : e.1 ≠ '_' ∧ e.1 ≠ '$' := by
  have table : ∀ e ∈ tokens, e.1 ≠ '_' ∧ e.1 ≠ '$' := by decide +kernel
  exact table e mem

/-- Only the token of the dash starts another one. -/
theorem eq_or_dash_of_starts {e e' : Char × List Char} (mem : e ∈ tokens) (mem' : e' ∈ tokens)
    (h : e.2 <+: e'.2) : e' = e ∨ e.1 = '-' := by
  have table : ∀ e ∈ tokens, ∀ e' ∈ tokens, e.2 <+: e'.2 → e' = e ∨ e.1 = '-' := by decide +kernel
  exact table e mem e' mem' h

theorem eq_of_mem_of_dash {e : Char × List Char} (mem : e ∈ tokens) (dash : e.1 = '-') :
    e.2 = ['_'] := by
  rw [← mungeChar_of_mem mem, dash]
  decide

/-- A token starts with an underscore. -/
theorem exists_token_tail {e : Char × List Char} (mem : e ∈ tokens) :
    ∃ tail, e.2 = '_' :: tail := by
  rcases mem_tokens.mp mem with rfl | ⟨w, -, rfl⟩
  · exact ⟨[], rfl⟩
  · exact ⟨w.2.toList ++ ['_'], rfl⟩

/-- A replaced character is one that has a token. -/
theorem replaced_iff {c : Char} : Replaced c ↔ (c, mungeChar c) ∈ tokens := by
  constructor
  · intro replaced
    rw [Replaced, mungeChar] at replaced
    rw [mungeChar]
    split at replaced
    next e found =>
      have key : e.1 = c := by simpa using List.find?_some found
      rw [← key]
      exact List.mem_of_find?_eq_some found
    next => exact absurd rfl replaced
  · intro mem same
    obtain ⟨tail, token⟩ := exists_token_tail mem
    have key := (ne_of_mem_tokens mem).1
    simp_all

/-- Words are made of capital letters, and no capital letter has a token. -/
theorem not_replaced_of_mem_word {w : Char × String} (mem : w ∈ tokenWords) {c : Char}
    (inside : c ∈ w.2.toList) : c ≠ '_' ∧ ¬ Replaced c := by
  have words : (tokenWords.all fun w => w.2.toList.all Char.isUpper) = true := by decide
  have keys : ∀ e ∈ tokens, e.1.isUpper = false := by decide
  have capital : c.isUpper = true :=
    List.all_eq_true.mp (List.all_eq_true.mp words w mem) c inside
  constructor
  · rintro rfl
    cases capital
  · intro replaced
    have other : c.isUpper = false := keys _ (replaced_iff.mp replaced)
    rw [capital] at other
    cases other

/-! ## The longest token -/

theorem longerToken_eq (e e' : Char × List Char) :
    longerToken e e' = e ∧ e'.2.length ≤ e.2.length ∨
      longerToken e e' = e' ∧ e.2.length ≤ e'.2.length := by
  by_cases longer : e.2.length < e'.2.length
  · exact Or.inr ⟨by simp [longerToken, longer], Nat.le_of_lt longer⟩
  · exact Or.inl ⟨by simp [longerToken, longer], Nat.le_of_not_lt longer⟩

theorem foldl_longerToken (best : Char × List Char) (es : List (Char × List Char)) :
    es.foldl longerToken best ∈ best :: es ∧
      ∀ e ∈ best :: es, e.2.length ≤ (es.foldl longerToken best).2.length := by
  induction es generalizing best with
  | nil => simp
  | cons e es ih =>
    obtain ⟨mem, longest⟩ := ih (longerToken best e)
    rw [List.foldl_cons]
    generalize es.foldl longerToken (longerToken best e) = last at mem longest ⊢
    simp only [List.mem_cons, forall_eq_or_imp] at mem longest ⊢
    rcases longerToken_eq best e with ⟨kept, shorter⟩ | ⟨taken, shorter⟩
    · rw [kept] at mem longest
      have first := longest.1
      exact ⟨mem.imp_right Or.inr, first, by omega, longest.2⟩
    · rw [taken] at mem longest
      have first := longest.1
      exact ⟨Or.inr mem, by omega, first, longest.2⟩

/-- At an underscore there always is a token, and the longest one is read. -/
theorem exists_tokenAt (cs : List Char) :
    ∃ e ∈ tokens, tokenAt? ('_' :: cs) = some e ∧ e.2 <+: '_' :: cs ∧
      ∀ e' ∈ tokens, e'.2 <+: '_' :: cs → e'.2.length ≤ e.2.length := by
  have starts : ∀ e, e ∈ tokens.filter (fun e => e.2.isPrefixOf ('_' :: cs)) ↔
      e ∈ tokens ∧ e.2 <+: '_' :: cs := by simp
  have dash : ('-', ['_']) ∈ tokens.filter (fun e => e.2.isPrefixOf ('_' :: cs)) := by
    simp [tokens]
  rw [tokenAt?]
  cases found : tokens.filter (fun e => e.2.isPrefixOf ('_' :: cs)) with
  | nil => simp [found] at dash
  | cons best es =>
    obtain ⟨mem, longest⟩ := foldl_longerToken best es
    rw [found] at starts
    obtain ⟨token, here⟩ := (starts _).mp mem
    exact ⟨_, token, rfl, here, fun e' token' here' => longest e' ((starts e').mpr ⟨token', here'⟩)⟩

/-! ## Reading -/

theorem demungeChars_nil : demungeChars [] = [] := by
  rw [demungeChars]

/-- Reading goes on after the longest token. -/
theorem exists_demungeChars_underscore (cs : List Char) :
    ∃ e ∈ tokens, ∃ rest, '_' :: cs = e.2 ++ rest ∧
      (∀ e' ∈ tokens, e'.2 <+: '_' :: cs → e'.2.length ≤ e.2.length) ∧
      demungeChars ('_' :: cs) = e.1 :: demungeChars rest := by
  obtain ⟨e, mem, token, ⟨rest, whole⟩, longest⟩ := exists_tokenAt cs
  refine ⟨e, mem, rest, whole.symm, longest, ?_⟩
  obtain ⟨tail, starts⟩ := exists_token_tail mem
  rw [starts, List.cons_append, List.cons_inj_right] at whole
  rw [demungeChars, demungeStep, if_pos rfl, token]
  simp [starts, ← whole]

theorem demungeChars_cons_of_ne {c : Char} (h : c ≠ '_') (cs : List Char) :
    demungeChars (c :: cs) = (if c = '$' then '/' else c) :: demungeChars cs := by
  rw [demungeChars, demungeStep, if_neg h]
  split <;> simp

/-- Neither an underscore nor a dollar sign is ever read. -/
theorem notMem_demungeChars (cs : List Char) :
    '_' ∉ demungeChars cs ∧ '$' ∉ demungeChars cs := by
  induction size : cs.length using Nat.strongRecOn generalizing cs with
  | ind n ih =>
    subst size
    cases cs with
    | nil => simp [demungeChars_nil]
    | cons c cs =>
      by_cases underscore : c = '_'
      · subst underscore
        obtain ⟨e, mem, rest, whole, -, reads⟩ := exists_demungeChars_underscore cs
        obtain ⟨tail, starts⟩ := exists_token_tail mem
        have smaller : rest.length < ('_' :: cs).length := by
          rw [whole, starts, List.length_append, List.length_cons]
          omega
        have later := ih _ smaller rest rfl
        have first := ne_of_mem_tokens mem
        rw [reads]
        simp [later, first.1.symm, first.2.symm]
      · rw [demungeChars_cons_of_ne underscore]
        have later := ih _ (by simp) cs rfl
        split <;> simp_all [eq_comm]

/-! ## Writing -/

theorem mungeChars_cons (c : Char) (cs : List Char) :
    mungeChars (c :: cs) = mungeChar c ++ mungeChars cs :=
  List.flatMap_cons

theorem mungeChars_cons_of_not_replaced {c : Char} (h : ¬ Replaced c) (cs : List Char) :
    mungeChars (c :: cs) = c :: mungeChars cs := by
  rw [mungeChars_cons, not_not.mp h]
  rfl

/-- A replaced character is written with an underscore in front. -/
theorem exists_mungeChars_cons {c : Char} (h : Replaced c) (cs : List Char) :
    ∃ tail, mungeChar c = '_' :: tail ∧ mungeChars (c :: cs) = '_' :: (tail ++ mungeChars cs) := by
  obtain ⟨tail, starts⟩ : ∃ tail, mungeChar c = '_' :: tail :=
    exists_token_tail (replaced_iff.mp h)
  exact ⟨tail, starts, by rw [mungeChars_cons, starts, List.cons_append]⟩

/-- A word and an underscore are written first if the word comes first and then a character
that gives the underscore. -/
theorem word_prefix_mungeChars {word : List Char} (plain : ∀ c ∈ word, c ≠ '_' ∧ ¬ Replaced c)
    (cs : List Char) :
    word ++ ['_'] <+: mungeChars cs ↔ ∃ c, (c = '_' ∨ Replaced c) ∧ word ++ [c] <+: cs := by
  induction word generalizing cs with
  | nil =>
    cases cs with
    | nil => simp [mungeChars]
    | cons d cs =>
      by_cases replaced : Replaced d
      · obtain ⟨tail, -, starts⟩ := exists_mungeChars_cons replaced cs
        simp [starts, replaced]
      · simp [mungeChars_cons_of_not_replaced replaced, replaced, eq_comm]
  | cons a word ih =>
    have first := plain a List.mem_cons_self
    have later := ih fun c mem => plain c (List.mem_cons_of_mem a mem)
    cases cs with
    | nil => simp [mungeChars]
    | cons d cs =>
      by_cases replaced : Replaced d
      · obtain ⟨tail, -, starts⟩ := exists_mungeChars_cons replaced cs
        have apart : a ≠ d := by
          intro same
          exact first.2 (same ▸ replaced)
        simp [starts, first.1, apart]
      · simp only [mungeChars_cons_of_not_replaced replaced, List.cons_append,
          List.cons_prefix_cons, later]
        exact exists_and_left.symm.trans (exists_congr fun c => and_left_comm)

/-! ## Dashes -/

/-- The word of a token and a replaced character come first. -/
def Joins (cs : List Char) : Prop :=
  ∃ w ∈ tokenWords, ∃ c, Replaced c ∧ w.2.toList ++ [c] <+: cs

theorem joins_iff {cs : List Char} (underscore : '_' ∉ cs) :
    Joins cs ↔ ∃ w ∈ tokenWords, '_' :: (w.2.toList ++ ['_']) <+: mungeChars ('-' :: cs) := by
  have dash : mungeChars ('-' :: cs) = '_' :: mungeChars cs := rfl
  simp only [Joins, dash, List.cons_prefix_cons, true_and]
  refine exists_congr fun w => and_congr_right fun mem => ?_
  rw [word_prefix_mungeChars fun c => not_replaced_of_mem_word mem]
  refine exists_congr fun c => and_congr_left fun here => ?_
  have other : c ≠ '_' := by
    intro same
    exact underscore (here.subset (by simp [same]))
  simp [other]

/-- A dash that joins what follows is not read. -/
theorem demungeChars_dash_ne {cs : List Char} (underscore : '_' ∉ cs) (joins : Joins cs)
    (out : List Char) : demungeChars (mungeChars ('-' :: cs)) ≠ '-' :: out := by
  obtain ⟨w, mem, token⟩ := (joins_iff underscore).mp joins
  obtain ⟨e, mem', rest, -, longest, reads⟩ := exists_demungeChars_underscore (mungeChars cs)
  have longer := longest _ (mem_tokens.mpr (Or.inr ⟨w, mem, rfl⟩)) token
  have first : e.1 ≠ '-' := by
    intro dash
    rw [eq_of_mem_of_dash mem' dash] at longer
    simp at longer
  show demungeChars ('_' :: mungeChars cs) ≠ '-' :: out
  simp [reads, first]

/-- A dash that joins nothing is read as itself. -/
theorem demungeChars_dash {cs : List Char} (underscore : '_' ∉ cs) (apart : ¬ Joins cs) :
    demungeChars (mungeChars ('-' :: cs)) = '-' :: demungeChars (mungeChars cs) := by
  obtain ⟨e, mem, rest, whole, -, reads⟩ := exists_demungeChars_underscore (mungeChars cs)
  rcases mem_tokens.mp mem with rfl | ⟨w, word, rfl⟩
  · show demungeChars ('_' :: mungeChars cs) = _
    have after : mungeChars cs = rest := by simpa using whole
    rw [reads, after]
  · exact absurd ((joins_iff underscore).mpr ⟨w, word, rest, whole.symm⟩) apart

/-- Any other replaced character is read from its token. -/
theorem demungeChars_replaced {c : Char} (replaced : Replaced c) (other : c ≠ '-')
    (cs : List Char) : demungeChars (mungeChars (c :: cs)) = c :: demungeChars (mungeChars cs) := by
  have token := replaced_iff.mp replaced
  obtain ⟨tail, starts, written⟩ := exists_mungeChars_cons replaced cs
  obtain ⟨e, mem, rest, whole, longest, reads⟩ :=
    exists_demungeChars_underscore (tail ++ mungeChars cs)
  have here : mungeChar c <+: '_' :: (tail ++ mungeChars cs) := by simp [starts]
  have within : mungeChar c <+: e.2 :=
    List.prefix_of_prefix_length_le here ⟨rest, whole.symm⟩ (longest _ token here)
  obtain rfl := (eq_or_dash_of_starts token mem within).resolve_right other
  have after : mungeChars cs = rest := by simpa [starts] using whole
  rw [written, reads, after]

/-! ## Reading back -/

/-- A name without underscores and dollar signs is read back if no dash joins what follows. -/
theorem demungeChars_mungeChars_iff {cs : List Char} (underscore : '_' ∉ cs)
    (dollar : '$' ∉ cs) :
    demungeChars (mungeChars cs) = cs ↔ ∀ w ∈ tokenWords, ∀ c, Replaced c →
      ¬ '-' :: (w.2.toList ++ [c]) <:+: cs := by
  induction cs with
  | nil => simp [mungeChars, demungeChars_nil]
  | cons c cs ih =>
    simp only [List.mem_cons, not_or] at underscore dollar
    have later := ih underscore.2 dollar.2
    have front : (∀ w ∈ tokenWords, ∀ d, Replaced d →
          ¬ '-' :: (w.2.toList ++ [d]) <:+: c :: cs) ↔
        ¬ (c = '-' ∧ Joins cs) ∧ demungeChars (mungeChars cs) = cs := by
      rw [later]
      simp only [List.infix_cons_iff, List.cons_prefix_cons, Joins]
      grind
    rw [front]
    by_cases dash : c = '-'
    · subst dash
      by_cases joins : Joins cs
      · simp [joins, demungeChars_dash_ne underscore.2 joins]
      · simp [joins, demungeChars_dash underscore.2 joins]
    · by_cases replaced : Replaced c
      · simp [dash, demungeChars_replaced replaced dash]
      · rw [mungeChars_cons_of_not_replaced replaced, demungeChars_cons_of_ne (Ne.symm underscore.1),
          if_neg (Ne.symm dollar.1)]
        simp [dash]

/-- A name is read back from its munged form just if it has no underscore, no dollar sign and
no dash with the word of a token and then a replaced character behind it. -/
theorem demunge_munge_iff (name : String) :
    demunge (munge name) = name ↔
      '_' ∉ name.toList ∧ '$' ∉ name.toList ∧
        ∀ w ∈ tokenWords, ∀ c, Replaced c → ¬ '-' :: (w.2.toList ++ [c]) <:+: name.toList := by
  have lists : demunge (munge name) = name ↔
      demungeChars (mungeChars name.toList) = name.toList := by
    rw [demunge, munge, String.toList_ofList, ← String.toList_inj, String.toList_ofList]
  rw [lists]
  constructor
  · intro same
    have unread := notMem_demungeChars (mungeChars name.toList)
    rw [same] at unread
    exact ⟨unread.1, unread.2, (demungeChars_mungeChars_iff unread.1 unread.2).mp same⟩
  · rintro ⟨underscore, dollar, dashes⟩
    exact (demungeChars_mungeChars_iff underscore dollar).mpr dashes

example : demunge (munge "-GT-") = ">" := by cbv

end ValueCore.Text
