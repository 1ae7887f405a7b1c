import Mathlib.Data.Nat.Log
import Mathlib.Tactic.Linarith
import ValueCore.Proofs.Function.Failure
import ValueCore.Proofs.Function.Search
/-!
# The number of comparisons

A sort is run with its comparisons noted and the calls of its function watched, beside the plain
sort (`Function.Tallies`).  Nothing is assumed of the function: it may answer as it likes, may
change its mind and may fail.

*Comparisons.*  A merge of two runs makes fewer comparisons than there are values, whatever the
answers are.  So the sort makes no more than the recurrence of its halves allows
(`Function.mostComparisons`).  The recurrence has a closed form for each power of two between the
number of values and its double (`mostComparisons_add_pow`), and `2 ^ ⌈log₂ n⌉` is such a power.

*Calls.*  A comparison makes one call or two, and one that is answered by a number makes no second
one.  This holds of all comparisons together (`Function.Tally`).
-/

namespace ValueCore.Function

variable {σ α β : Type}

/-! ## The recurrence -/

/-- The most comparisons in a sort of `n` values: those of the halves and of their merge. -/
def mostComparisons (n : Nat) : Nat :=
  if n ≤ 1 then 0
  else mostComparisons (n / 2) + mostComparisons (n - n / 2) + (n - 1)
termination_by n
decreasing_by all_goals omega

/-- The recurrence solved, for each power of two from `n` to `2 * n`. -/
theorem mostComparisons_add_pow {n c : Nat} (lower : n ≤ 2 ^ c) (upper : 2 ^ c ≤ 2 * n) :
    mostComparisons n + 2 ^ c = n * c + 1 := by
  induction n using Nat.strongRecOn generalizing c with
  | ind n ih =>
    rw [mostComparisons]
    split
    · next short =>
      have one : n = 1 := by
        have positive := Nat.two_pow_pos c
        omega
      subst one
      match c with
      | 0 => rfl
      | 1 => rfl
      | c + 2 =>
        have large : 2 ^ 2 ≤ 2 ^ (c + 2) := Nat.pow_le_pow_right Nat.two_pos (Nat.le_add_left 2 c)
        omega
    · next long =>
      cases c with
      | zero => omega
      | succ c =>
        have doubled : 2 ^ (c + 1) = 2 * 2 ^ c := Nat.pow_succ'
        have even : 2 ^ c ≤ 2 * (n / 2) := by
          cases c with
          | zero => omega
          | succ c =>
            have doubled' : 2 ^ (c + 1) = 2 * 2 ^ c := Nat.pow_succ'
            omega
        have left := ih (n / 2) (by omega) (c := c) (by omega) even
        have right := ih (n - n / 2) (by omega) (c := c) (by omega) (by omega)
        have whole : n / 2 * c + (n - n / 2) * c = n * c := by
          rw [← Nat.add_mul]
          congr 1
          omega
        rw [doubled, Nat.mul_succ]
        omega

theorem pow_clog_le {n : Nat} (positive : 0 < n) : 2 ^ Nat.clog 2 n ≤ 2 * n := by
  rcases Nat.eq_or_lt_of_le positive with one | more
  · rw [← one, Nat.clog_one_right]
    decide
  · have below := Nat.pow_pred_clog_lt_self Nat.one_lt_two more
    have some := Nat.clog_pos Nat.one_lt_two more
    have doubled : 2 ^ Nat.clog 2 n = 2 * 2 ^ (Nat.clog 2 n).pred := by
      rw [← Nat.pow_succ', Nat.succ_pred_eq_of_pos some]
    omega

/-- The recurrence solved by the logarithm to the base `2`, rounded up. -/
theorem mostComparisons_eq (n : Nat) :
    (mostComparisons n : Int) = n * Nat.clog 2 n - 2 ^ Nat.clog 2 n + 1 := by
  rcases Nat.eq_zero_or_pos n with zero | positive
  · subst zero
    rw [mostComparisons, Nat.clog_zero_right]
    rfl
  have lower : n ≤ 2 ^ Nat.clog 2 n := Nat.le_pow_clog Nat.one_lt_two n
  have closed := mostComparisons_add_pow lower (pow_clog_le positive)
  have closed' : (mostComparisons n : Int) + 2 ^ Nat.clog 2 n = n * Nat.clog 2 n + 1 := by
    exact_mod_cast closed
  linarith

/-! ## Calls of comparisons -/

/-- An answer is a number. -/
def Call.Numbered (call : Call) : Prop := ∃ n, call.outcome = .ok (.num n)

/-- How many calls some comparisons make. -/
structure Tally (calls : List Call) (pairs : List (Value × Value)) : Prop where
  /-- A comparison makes two calls at most. -/
  twice : calls.length ≤ 2 * pairs.length
  /-- A comparison that is answered by a number makes one call. -/
  once : (∀ call ∈ calls, call.Numbered) → calls.length = pairs.length

theorem tally_nil : Tally [] [] := ⟨Nat.le_refl 0, fun _ => rfl⟩

theorem Tally.append {calls calls' : List Call} {pairs pairs' : List (Value × Value)}
    (h : Tally calls pairs) (h' : Tally calls' pairs') :
    Tally (calls ++ calls') (pairs ++ pairs') := by
  constructor
  · have most := h.twice
    have most' := h'.twice
    simp only [List.length_append]
    omega
  · intro numbered
    have left := h.once fun call mem => numbered call (List.mem_append_left _ mem)
    have right := h'.once fun call mem => numbered call (List.mem_append_right _ mem)
    simp only [List.length_append, left, right]

/-- One comparison. -/
theorem Compared.tally {a b : Value} {calls : List Call} {outcome : Except Error Int}
    (h : Compared .ofEither a b calls outcome) : Tally calls [(a, b)] := by
  -- A second call is only made after an answer that is no number.
  have turns : ∀ {v : Value}, Reading.ofEither v = .turn → ¬ ∃ n, v = .num n := by
    rintro v turn ⟨n, rfl⟩
    cases turn
  have double : ∀ {v : Value} {outcome : Except Error Value}, Reading.ofEither v = .turn →
      Tally [⟨[a, b], .ok v⟩, ⟨[b, a], outcome⟩] [(a, b)] := by
    intro v outcome turn
    refine ⟨Nat.le_refl 2, fun numbered => ?_⟩
    obtain ⟨n, answer⟩ := numbered _ List.mem_cons_self
    exact absurd ⟨n, Except.ok.inj answer⟩ (turns turn)
  have single : ∀ call : Call, Tally [call] [(a, b)] := fun call => ⟨Nat.le_succ 1, fun _ => rfl⟩
  cases h with
  | whole round =>
    cases round with
    | once taken => exact single _
    | twice taken => exact double taken
  | short cut =>
    cases cut with
    | first => exact single _
    | second taken => exact double taken
    | rejected taken => exact single _

/-! ## Tallied computations -/

/-- A computation with its comparisons noted and its calls watched comes to the same as the plain
one and leaves the same state.  It makes at most `most` comparisons, the calls are theirs, and an
answer is as `Q` says. -/
def Tallies (tallied : Eval ((σ × List Call) × List (Value × Value)) α) (plain : Eval σ α)
    (most : Nat) (Q : α → Prop) : Prop :=
  ∀ s log notes, ∃ outcome s' calls pairs,
    plain.run.run s = (outcome, s') ∧
    tallied.run.run ((s, log), notes) = (outcome, (s', log ++ calls), notes ++ pairs) ∧
    Tally calls pairs ∧ pairs.length ≤ most ∧ ∀ a, outcome = .ok a → Q a

section Tallies

variable {most most' : Nat} {Q : α → Prop} {P : β → Prop}

theorem Tallies.mono {m' : Eval ((σ × List Call) × List (Value × Value)) α} {m : Eval σ α}
    (h : Tallies m' m most Q) (le : most ≤ most') : Tallies m' m most' Q := by
  intro s log notes
  obtain ⟨outcome, s', calls, pairs, plain, tallied, tally, few, answer⟩ := h s log notes
  exact ⟨outcome, s', calls, pairs, plain, tallied, tally, Nat.le_trans few le, answer⟩

theorem tallies_pure {a : α} (answer : Q a) :
    Tallies (pure a : Eval ((σ × List Call) × List (Value × Value)) α) (pure a) 0 Q := by
  intro s log notes
  refine ⟨.ok a, s, [], [], rfl, ?_, tally_nil, Nat.le_refl 0, ?_⟩
  · rw [List.append_nil, List.append_nil]
    rfl
  · intro b same
    cases same
    exact answer

/-- Comparisons add up, and nothing comes after a failure. -/
theorem Tallies.bind {m' : Eval ((σ × List Call) × List (Value × Value)) α} {m : Eval σ α}
    {k' : α → Eval ((σ × List Call) × List (Value × Value)) β} {k : α → Eval σ β}
    (first : Tallies m' m most Q) (rest : ∀ a, Q a → Tallies (k' a) (k a) most' P) :
    Tallies (m' >>= k') (m >>= k) (most + most') P := by
  intro s log notes
  obtain ⟨outcome, s₁, calls, pairs, plain, tallied, tally, few, answer⟩ := first s log notes
  rw [Eval.run_bind, Eval.run_bind, plain, tallied]
  cases outcome with
  | error e =>
    have few' := Nat.le_trans few (Nat.le_add_right most most')
    refine ⟨.error e, s₁, calls, pairs, rfl, rfl, tally, few', ?_⟩
    intro b same
    cases same
  | ok a =>
    obtain ⟨outcome, s₂, calls', pairs', plain', tallied', tally', few', answer'⟩ :=
      rest a (answer a rfl) s₁ (log ++ calls) (notes ++ pairs)
    refine ⟨outcome, s₂, calls ++ calls', pairs ++ pairs', plain', ?_, tally.append tally', ?_,
      answer'⟩
    · rw [← List.append_assoc, ← List.append_assoc]
      exact tallied'
    · rw [List.length_append]
      omega

/-- A comparison is one comparison. -/
theorem tallies_noted (call : List Value → Eval σ Value) (a b : Value) :
    Tallies (noted (compareBy .ofEither (recorded call)) a b) (compareBy .ofEither call a b) 1
      fun _ => True := by
  intro s log notes
  obtain ⟨outcome, s', calls, plain, watched, compared⟩ :=
    watches_comparison .ofEither call a b s log
  have noting : (noted (compareBy .ofEither (recorded call)) a b).run.run ((s, log), notes) =
      (((compareBy .ofEither (recorded call) a b).run.run (s, log)).1,
        ((compareBy .ofEither (recorded call) a b).run.run (s, log)).2, notes ++ [(a, b)]) := rfl
  refine ⟨outcome, s', calls, [(a, b)], plain, ?_, compared.tally, Nat.le_refl 1, ?_⟩
  · rw [noting, watched]
  · intro _ _
    trivial

end Tallies

/-! ## Sorts -/

section Sorting

variable {compare' : Comparison ((σ × List Call) × List (Value × Value))} {compare : Comparison σ}

/-- A merge takes a value out by each comparison, and the last value is not compared. -/
theorem tallies_merge
    (compares : ∀ a b, Tallies (compare' a b) (compare a b) 1 fun _ => True)
    (left right : List Value) :
    Tallies (merge compare' left right) (merge compare left right)
      (left.length + right.length - 1) fun out => out.length = left.length + right.length := by
  induction left generalizing right with
  | nil =>
    rw [merge, merge]
    exact (tallies_pure (by simp)).mono (Nat.zero_le _)
  | cons l left takeLeft =>
    induction right with
    | nil =>
      rw [merge, merge]
      · exact (tallies_pure (by simp)).mono (Nat.zero_le _)
      · simp
      · simp
    | cons r right takeRight =>
      rw [merge, merge]
      have rest : (l :: left).length + (r :: right).length - 1 =
          1 + (left.length + right.length) := by
        simp only [List.length_cons]
        omega
      rw [rest]
      apply (compares l r).bind
      intro c _
      by_cases take : c ≤ 0
      · rw [if_pos take, if_pos take]
        apply Tallies.mono ((takeLeft (r :: right)).bind fun out size => tallies_pure ?_)
        · simp only [List.length_cons]
          omega
        · simp only [List.length_cons, size]
          omega
      · rw [if_neg take, if_neg take]
        apply Tallies.mono (takeRight.bind fun out size => tallies_pure ?_)
        · simp only [List.length_cons]
          omega
        · simp only [List.length_cons, size]
          omega

/-- A sort follows the recurrence. -/
theorem tallies_mergeSort
    (compares : ∀ a b, Tallies (compare' a b) (compare a b) 1 fun _ => True)
    (items : List Value) :
    Tallies (mergeSort compare' items) (mergeSort compare items) (mostComparisons items.length)
      fun out => out.length = items.length := by
  induction size : items.length using Nat.strongRecOn generalizing items with
  | ind n ih =>
    subst size
    rw [mergeSort, mergeSort, mostComparisons]
    split
    · exact tallies_pure rfl
    · next long =>
      dsimp only
      have left : (items.take (items.length / 2)).length = items.length / 2 := by
        rw [List.length_take]
        omega
      have right : (items.drop (items.length / 2)).length = items.length - items.length / 2 :=
        List.length_drop
      rw [Nat.add_assoc]
      apply (ih _ (by omega) _ left).bind
      intro sorted hl
      apply (ih _ (by omega) _ right).bind
      intro sorted' hr
      have merged := tallies_merge compares sorted sorted'
      have whole : sorted.length + sorted'.length = items.length := by omega
      rw [whole] at merged
      exact merged

/-- Whatever a function answers, sorting `n` values with it compares at most
`n * ⌈log₂ n⌉ - 2 ^ ⌈log₂ n⌉ + 1` times.  The function is called at most twice for each comparison,
and once if it only answers numbers. -/
theorem sort_comparisons (host : Host σ) (f : Function) (items : List Value) (s : σ) :
    ∃ outcome s' calls pairs,
      (f.sort host items).run.run s = (outcome, s') ∧
      (mergeSort (noted (f.watched.compareWith (f.watching host))) items).run.run ((s, []), []) =
        (outcome, (s', calls), pairs) ∧
      (pairs.length : Int) ≤
        items.length * Nat.clog 2 items.length - 2 ^ Nat.clog 2 items.length + 1 ∧
      calls.length ≤ 2 * pairs.length ∧
      ((∀ call ∈ calls, call.Numbered) → calls.length = pairs.length) := by
  have compares : ∀ a b, Tallies (noted (f.watched.compareWith (f.watching host)) a b)
      (f.compareWith host a b) 1 fun _ => True := by
    intro a b
    rw [compareWith_eq, compareWith_eq, invoke_watched]
    exact tallies_noted (f.invoke host) a b
  obtain ⟨outcome, s', calls, pairs, plain, tallied, tally, few, -⟩ :=
    tallies_mergeSort compares items s [] []
  refine ⟨outcome, s', calls, pairs, plain, tallied, ?_, tally.twice, tally.once⟩
  rw [← mostComparisons_eq]
  exact_mod_cast few

end Sorting

end ValueCore.Function
