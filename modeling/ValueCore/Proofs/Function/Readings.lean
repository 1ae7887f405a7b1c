import ValueCore.Proofs.Function.Alongside
/-!
# Predicates and three-way functions

A function can tell a relation "less" to a comparison in two ways.  It answers with a boolean for
each pair (`Decides`), or with a number whose sign says which of the two is less (`Grades`).  The
relation need not be an order.

For a function that decides a relation, reading the answer as a boolean and reading it by its
truth come to the same, call by call.  For one that grades it, so do reading the answer as a
boolean or number and reading it as a number.  Both kinds of functions compare with the sign
that the relation gives (`signBy`), so they are concordant, and sorts and searches with them
cannot be told apart (`readings_agree`).
-/

namespace ValueCore.Function

open Eval

variable {σ τ : Type}

/-- The sign of two values in a relation. -/
def signBy (less : Value → Value → Bool) (a b : Value) : Int :=
  if less a b then -1 else if less b a then 1 else 0

/-- A function answers on each pair of values whether the first is less. -/
def Decides (host : Host σ) (I : σ → Prop) (f : Function) (less : Value → Value → Bool) : Prop :=
  ∀ a b s, I s → (f.invoke host [a, b]).Yields s fun v s' => I s' ∧ v = .bool (less a b)

/-- A function answers on each pair of values with a number that has the right sign as a 32-bit
integer. -/
def Grades (host : Host σ) (I : σ → Prop) (f : Function) (less : Value → Value → Bool) : Prop :=
  ∀ a b s, I s → (f.invoke host [a, b]).Yields s fun v s' =>
    I s' ∧ ∃ n : Number, v = .num n ∧ n.intValue.toInt.sign = signBy less a b

section Readings

variable {host : Host σ} {I : σ → Prop} {f : Function} {less : Value → Value → Bool} {s : σ}

theorem Decides.compareWith (h : Decides host I f less) (a b : Value) (hs : I s) :
    (f.compareWith host a b).Yields s fun c s' => I s' ∧ c = signBy less a b := by
  rw [Function.compareWith, yields_bind]
  refine (h a b s hs).mono ?_
  rintro v s₁ ⟨hs₁, rfl⟩
  cases first : less a b with
  | true => exact yields_pure.mpr ⟨hs₁, by simp [signBy, first]⟩
  | false =>
    show Yields (f.invoke host [b, a] >>= _) s₁ _
    rw [yields_bind]
    refine (h b a s₁ hs₁).mono ?_
    rintro w s₂ ⟨hs₂, rfl⟩
    rw [yields_pure]
    exact ⟨hs₂, by cases second : less b a <;> simp [signBy, first, second, Value.truthy]⟩

/-- A boolean is read as by its truth. -/
theorem Decides.predicateCompare (h : Decides host I f less) (a b : Value) (hs : I s) :
    (f.predicateCompare host a b).run.run s = (f.compareWith host a b).run.run s := by
  obtain ⟨_, s₁, ends, -, rfl⟩ := h a b s hs
  rw [Function.predicateCompare, Function.compareWith, run_bind, run_bind, ends]
  cases less a b with
  | true => rfl
  | false => rfl

theorem Grades.compareWith (h : Grades host I f less) (a b : Value) (hs : I s) :
    (f.compareWith host a b).Yields s fun c s' => I s' ∧ c.sign = signBy less a b := by
  rw [Function.compareWith, yields_bind]
  refine (h a b s hs).mono ?_
  rintro v s₁ ⟨hs₁, n, rfl, sign⟩
  exact yields_pure.mpr ⟨hs₁, sign⟩

/-- A number is read as a number. -/
theorem Grades.threeWayCompare (h : Grades host I f less) (a b : Value) (hs : I s) :
    (f.threeWayCompare host a b).run.run s = (f.compareWith host a b).run.run s := by
  obtain ⟨_, s₁, ends, -, n, rfl, -⟩ := h a b s hs
  rw [Function.threeWayCompare, Function.compareWith, run_bind, run_bind, ends]
  rfl

end Readings

section Agreement

variable {host : Host σ} {host' : Host τ} {I : σ → Prop} {J : τ → Prop} {f g : Function}
  {less : Value → Value → Bool} {s : σ} {t : τ}

/-- A function that decides a relation compares with the sign of one that grades it. -/
theorem compareWith_yieldsBoth (decides : Decides host I f less) (grades : Grades host' J g less)
    (a b : Value) (hs : I s) (ht : J t) :
    YieldsBoth (f.compareWith host a b) (g.compareWith host' a b) s t
      fun c s' d t' => (I s' ∧ J t') ∧ c = d.sign ∧ c = signBy less a b := by
  refine (yieldsBoth_of_yields (decides.compareWith a b hs) (grades.compareWith a b ht)).mono ?_
  rintro c s' d t' ⟨⟨hs', rfl⟩, ht', sign⟩
  exact ⟨⟨hs', ht'⟩, sign.symm, rfl⟩

theorem concordant_of_readings (decides : Decides host I f less) (grades : Grades host' J g less) :
    Concordant (fun s t => I s ∧ J t) (f.compareWith host) (g.compareWith host') := by
  rintro a b s t ⟨hs, ht⟩
  refine (compareWith_yieldsBoth decides grades a b hs ht).mono ?_
  rintro c s' d t' ⟨related, rfl, _⟩
  exact ⟨Int.sign_sign, related⟩

/-- A function that decides a relation and one that grades it are interchangeable.  Each of them
compares alike in both readings, the two compare with one sign, and sorts and searches with them
come to the same. -/
theorem readings_agree (decides : Decides host I f less) (grades : Grades host' J g less)
    (hs : I s) (ht : J t) :
    (∀ a b, (f.predicateCompare host a b).run.run s = (f.compareWith host a b).run.run s ∧
        (g.threeWayCompare host' a b).run.run t = (g.compareWith host' a b).run.run t ∧
        YieldsBoth (f.compareWith host a b) (g.compareWith host' a b) s t
          fun c s' d t' => (I s' ∧ J t') ∧ c = d.sign ∧ c = signBy less a b) ∧
      (∀ items, YieldsBoth (f.sort host items) (g.sort host' items) s t
        fun out s' out' t' => out = out' ∧ I s' ∧ J t') ∧
      ∀ elements key, YieldsBoth (f.search host elements key) (g.search host' elements key) s t
        fun result s' result' t' => result = result' ∧ I s' ∧ J t' := by
  have concordant := concordant_of_readings decides grades
  refine ⟨?_, ?_, ?_⟩
  · intro a b
    exact ⟨decides.predicateCompare a b hs, grades.threeWayCompare a b ht,
      compareWith_yieldsBoth decides grades a b hs ht⟩
  · intro items
    exact mergeSort_yieldsBoth concordant items ⟨hs, ht⟩
  · intro elements key
    exact search_yieldsBoth concordant elements key ⟨hs, ht⟩

end Agreement

/-- Each of three numbers beats the next one, and the last one beats the first. -/
def beats : Value → Value → Bool
  | .num (.int x), .num (.int y) => (x.toInt + 1) % 3 = y.toInt
  | _, _ => false

/-- Two functions for a relation in a circle, one of which answers with numbers. -/
theorem readings_agree_circle :
    let host := countingHost fun label a b =>
      if label = 0 then .bool (beats a b)
      else .int (if beats a b then -7 else if beats b a then 7 else 0)
    let items : List Value := [.int 2, .int 0, .int 1, .int 0]
    YieldsBoth ((binary 0).sort host items) ((binary 1).sort host items) 0 0
        (fun out _ out' _ => out = out') ∧
      YieldsBoth ((binary 0).search host items (.int 1)) ((binary 1).search host items (.int 1)) 0 0
        fun result _ result' _ => result = result' := by
  intro host items
  have decides : Decides host (fun _ => True) (binary 0) beats := by
    intro a b s _
    exact ⟨_, _, invoke_binary _ 0 a b s, trivial, rfl⟩
  have grades : Grades host (fun _ => True) (binary 1) beats := by
    intro a b s _
    refine ⟨_, _, invoke_binary _ 1 a b s, trivial, _, rfl, ?_⟩
    rw [signBy]
    cases beats a b with
    | true => rfl
    | false => cases beats b a <;> rfl
  obtain ⟨-, sorts, searches⟩ := readings_agree decides grades (s := 0) (t := 0) trivial trivial
  exact ⟨(sorts items).mono fun _ _ _ _ same => same.1,
    (searches items (.int 1)).mono fun _ _ _ _ same => same.1⟩

end ValueCore.Function
