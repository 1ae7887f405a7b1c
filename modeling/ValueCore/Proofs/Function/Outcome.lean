import ValueCore.Function.Invoke
/-!
# Outcomes of computations

A call may change the state of the host and may fail, so what it does depends on the state in
which it starts.  `Eval.Yields m s Q` says that `m`, started in `s`, does not fail and that
`Q` holds of its answer and of the state that it leaves.  It passes through `pure` and
`bind` as a precondition, so what a loop yields follows from what its steps yield.

A host that counts its calls is given at the end (`countingHost`).  Its functions always answer
the same and never leave the state as it was.
-/

namespace ValueCore.Eval

variable {σ α β : Type}

/-- From a state, a computation comes to an answer and a state with `Q`. -/
def Yields (m : Eval σ α) (s : σ) (Q : α → σ → Prop) : Prop :=
  ∃ a s', m.run.run s = (.ok a, s') ∧ Q a s'

variable {m : Eval σ α} {f : α → Eval σ β} {s : σ}

/-- The second computation starts where the first one ends, unless that fails. -/
theorem run_bind : (m >>= f).run.run s =
    match m.run.run s with
    | (.ok a, s') => (f a).run.run s'
    | (.error e, s') => (.error e, s') := by
  cases ends : m.run.run s with
  | mk result s' =>
    have first : (m >>= f).run.run s = (ExceptT.bindCont f (m.run.run s).1).run (m.run.run s).2 :=
      rfl
    rw [first, ends]
    cases result <;> rfl

theorem Yields.mono {Q R : α → σ → Prop} (h : m.Yields s Q)
    (imp : ∀ a s', Q a s' → R a s') : m.Yields s R := by
  obtain ⟨a, s', ends, post⟩ := h
  exact ⟨a, s', ends, imp a s' post⟩

theorem yields_pure {Q : α → σ → Prop} {a : α} :
    Yields (pure a : Eval σ α) s Q ↔ Q a s := by
  constructor
  · rintro ⟨b, s', ends, post⟩
    cases ends
    exact post
  · intro post
    exact ⟨a, s, rfl, post⟩

theorem yields_bind {Q : β → σ → Prop} :
    Yields (m >>= f) s Q ↔ m.Yields s fun a s' => (f a).Yields s' Q := by
  constructor
  · rintro ⟨b, s'', ends, post⟩
    rw [run_bind] at ends
    split at ends
    · next a s' first => exact ⟨a, s', first, b, s'', ends, post⟩
    · cases ends
  · rintro ⟨a, s', first, b, s'', second, post⟩
    exact ⟨b, s'', by rw [run_bind, first]; exact second, post⟩

end ValueCore.Eval

namespace ValueCore

/-! ## Hosts that count -/

/-- A host of functions of two values, by their labels, that counts the calls. -/
def countingHost (answer : Nat → Value → Value → Value) : Host Nat where
  native label args := do
    modify (· + 1)
    match args with
    | [a, b] => pure (answer label a b)
    | _ => throw (.internal "two arguments")
  invoke _ _ := throw (.internal "no callables")
  applyTo _ _ := throw (.internal "no callables")

/-- A native function of two arguments. -/
def Function.binary (label : Nat) : Function :=
  .native label { name := "binary", arity := .exactly [2], label } none

theorem Function.invoke_binary (answer : Nat → Value → Value → Value) (label : Nat) (a b : Value)
    (s : Nat) :
    ((Function.binary label).invoke (countingHost answer) [a, b]).run.run s =
      (.ok (answer label a b), s + 1) :=
  rfl

end ValueCore
