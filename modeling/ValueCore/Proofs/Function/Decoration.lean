import ValueCore.Function.Invoke
import ValueCore.Value.Metadata
import ValueCore.Value.Print
/-!
# Decorated functions

A function is decorated in two ways.  A new decorator can be put around it, and it can be
given other metadata, which is no more than the function itself if there is none to give or
the function has it already.  The two may be mixed, so there can be decorators around
decorators.

Under all of them is one function, the *root*.  Each step leaves the root as it is
(`Decoration.root_apply`), so a whole sequence does (`root_decorate`).  A decorated function
has the name of its root, and it hands every argument list to the root's entry point for
whole lists, whichever entry point of its own is called.  What it has as metadata is what the
last step with an effect gave (`metadata?_decorate`).
-/

namespace ValueCore.Function

variable {σ : Type}

/-! ## Steps -/

/-- A way to decorate a function, with the allocation of a new function. -/
inductive Decoration where
  /-- A new decorator around the function. -/
  | wrap (fresh : Nat) (md : Metadata)
  /-- Other metadata for the function. -/
  | annotate (fresh : Nat) (md : Option Metadata)

/-- Whether a function has this allocation of metadata. -/
def carries (f : Function) (md : Metadata) : Bool := f.metadata?.any md.same

/-- Whether a step is one that gives other metadata. -/
def Decoration.annotates : Decoration → Bool
  | .wrap _ _ => false
  | .annotate _ _ => true

/-- The function that a step makes. -/
def Decoration.apply : Decoration → Function → Function
  | .wrap fresh md, f => .decorated fresh f md
  | .annotate fresh md, f => f.withMetadata fresh md

/-- The metadata that a step gives to a function, if it has an effect on it. -/
def Decoration.given? : Decoration → Function → Option Metadata
  | .wrap _ md, _ => some md
  | .annotate _ md, f => md.filter fun md => !f.carries md

/-- The function after some steps. -/
def decorate (f : Function) (steps : List Decoration) : Function :=
  steps.foldl (fun g step => step.apply g) f

/-- The metadata that the last step with an effect gives. -/
def lastGiven? (f : Function) : List Decoration → Option Metadata
  | [] => none
  | step :: rest => (lastGiven? (step.apply f) rest).or (step.given? f)

/-- The function under all decorations. -/
def root : Function → Function
  | .decorated _ target _ => target.root
  | f => f

/-! ## What a decorated function does -/

theorem root_of_plain {f : Function} (plain : f.target? = none) : f.root = f := by
  cases f with
  | native | callable => rfl
  | decorated => cases plain

theorem name_root (f : Function) : f.root.name = f.name := by
  match f with
  | .native _ _ _ | .callable _ _ _ _ => rfl
  | .decorated _ target _ => exact target.name_root

theorem applyTo_root (host : Host σ) (f : Function) (args : List Value) :
    f.root.applyTo host args = f.applyTo host args := by
  match f with
  | .native _ _ _ | .callable _ _ _ _ => rfl
  | .decorated _ target _ => exact target.applyTo_root host args

/-- One function has the name of another, and it does with every argument list what the
other does with a whole one. -/
structure StandsFor (host : Host σ) (g f : Function) : Prop where
  name : g.name = f.name
  invoke : ∀ args, g.invoke host args = f.applyTo host args
  applyTo : ∀ args, g.applyTo host args = f.applyTo host args

/-- A decorated function never uses the positional entry point of its root. -/
theorem standsFor_root (host : Host σ) {f target : Function} (h : f.target? = some target) :
    StandsFor host f f.root where
  name := f.name_root.symm
  applyTo args := (f.applyTo_root host args).symm
  invoke args := by
    cases f with
    | native | callable => cases h
    | decorated => exact (applyTo_root host _ args).symm

/-! ## What metadata does -/

section Metadata

variable (f : Function) (fresh : Nat)

theorem withMetadata_none : f.withMetadata fresh none = f := rfl

variable {md : Metadata}

theorem withMetadata_of_carries (has : f.carries md) : f.withMetadata fresh (some md) = f :=
  if_pos has

theorem withMetadata_of_not_carries (lacks : f.carries md = false) :
    f.withMetadata fresh (some md) = .decorated fresh (f.target?.getD f) md :=
  if_neg (Bool.not_eq_true _ ▸ lacks)

theorem root_target : (f.target?.getD f).root = f.root := by
  cases f <;> rfl

/-- New metadata takes the place of one decorator, if there is any. -/
theorem layers_target : (f.target?.getD f).layers + 1 = max f.layers 1 := by
  cases f with
  | native | callable => rfl
  | decorated _ target _ =>
    simp only [target?, Option.getD_some, layers]
    omega

end Metadata

/-! ## One step -/

namespace Decoration

variable {f : Function} {step : Decoration} {md : Metadata}

/-- A step without effect gives the function itself. -/
theorem apply_of_none (h : step.given? f = none) : step.apply f = f := by
  cases step with
  | wrap => cases h
  | annotate fresh md =>
    cases md with
    | none => exact f.withMetadata_none fresh
    | some md =>
      refine f.withMetadata_of_carries fresh ?_
      simpa [given?] using h

/-- A step with an effect gives a function that decorates one with the same root. -/
theorem apply_of_some (h : step.given? f = some md) :
    ∃ fresh target, step.apply f = .decorated fresh target md ∧ target.root = f.root ∧
      (step.annotates → target.layers + 1 = max f.layers 1) := by
  cases step with
  | wrap fresh md =>
    cases h
    exact ⟨fresh, f, rfl, rfl, fun kept => absurd kept Bool.false_ne_true⟩
  | annotate fresh given =>
    obtain ⟨rfl, lacks⟩ := Option.filter_eq_some_iff.mp h
    refine ⟨fresh, f.target?.getD f, ?_, f.root_target, fun _ => f.layers_target⟩
    refine f.withMetadata_of_not_carries fresh ?_
    simpa using lacks

theorem root_apply (step : Decoration) (f : Function) : (step.apply f).root = f.root := by
  cases h : step.given? f with
  | none => rw [apply_of_none h]
  | some md =>
    obtain ⟨fresh, target, made, same, -⟩ := apply_of_some h
    rw [made]
    exact same

end Decoration

/-! ## Sequences of steps -/

section Sequence

variable {f : Function} {steps : List Decoration} {md : Metadata}

theorem root_decorate (f : Function) (steps : List Decoration) :
    (f.decorate steps).root = f.root := by
  induction steps generalizing f with
  | nil => rfl
  | cons step rest ih => exact (ih (step.apply f)).trans (step.root_apply f)

/-- Steps without effect give the function itself. -/
theorem decorate_of_none (h : f.lastGiven? steps = none) : f.decorate steps = f := by
  induction steps generalizing f with
  | nil => rfl
  | cons step rest ih =>
    obtain ⟨later, here⟩ := Option.or_eq_none_iff.mp h
    exact (ih later).trans (Decoration.apply_of_none here)

/-- After some step with an effect, the function is decorated and has the metadata that the
last such step gave. -/
theorem metadata?_decorate (h : f.lastGiven? steps = some md) :
    (f.decorate steps).metadata? = some md ∧ ∃ target, (f.decorate steps).target? = some target := by
  induction steps generalizing f with
  | nil => cases h
  | cons step rest ih =>
    rcases Option.or_eq_some_iff.mp h with later | ⟨later, here⟩
    · exact ih later
    · obtain ⟨fresh, target, made, -, -⟩ := Decoration.apply_of_some here
      have whole : f.decorate (step :: rest) = .decorated fresh target md :=
        (decorate_of_none later).trans made
      rw [whole]
      exact ⟨rfl, target, rfl⟩

theorem layers_apply {step : Decoration} (only : step.annotates) (f : Function) :
    max (step.apply f).layers 1 = max f.layers 1 := by
  cases h : step.given? f with
  | none => rw [Decoration.apply_of_none h]
  | some md =>
    obtain ⟨fresh, target, made, -, one⟩ := Decoration.apply_of_some h
    rw [made, layers, one only]
    omega

/-- However often a function gets other metadata, it has as many decorators as before, or
one if it had none. -/
theorem max_layers_decorate (only : ∀ step ∈ steps, step.annotates) :
    max (f.decorate steps).layers 1 = max f.layers 1 := by
  induction steps generalizing f with
  | nil => rfl
  | cons step rest ih =>
    obtain ⟨first, others⟩ := List.forall_mem_cons.mp only
    exact (ih others).trans (layers_apply first f)

/-- Steps that have an effect on an undecorated function make one that stands for it and has
the metadata of the last such step.  A native function's complaint about the number of
arguments comes through with its name.  Metadata that is absent or already there changes
nothing.  Other metadata takes the place of one decorator, or of none, and a function that
had no decorator is the target of the new one. -/
theorem decorate_refines (host : Host σ) (plain : f.target? = none) (steps : List Decoration) :
    (∀ md, f.lastGiven? steps = some md →
      (f.decorate steps).metadata? = some md ∧
      StandsFor host (f.decorate steps) f ∧
      ∀ id info own args, f = .native id info own → info.arity.accepts args.length = false →
        (f.decorate steps).invoke host args = throw (.arity args.length f.name none)) ∧
    (f.lastGiven? steps = none → f.decorate steps = f) ∧
    ∀ (h : Function) (fresh : Nat),
      h.withMetadata fresh none = h ∧
      (∀ md, h.carries md → h.withMetadata fresh (some md) = h) ∧
      (∀ md, h.carries md = false →
        h.withMetadata fresh (some md) = .decorated fresh (h.target?.getD h) md ∧
        (h.withMetadata fresh (some md)).metadata? = some md ∧
        (h.withMetadata fresh (some md)).layers = max h.layers 1) ∧
      ∀ again : List Decoration, (∀ step ∈ again, step.annotates) →
        (h.decorate again).layers ≤ max h.layers 1 := by
  refine ⟨fun md given => ?_, decorate_of_none, fun h fresh => ?_⟩
  · obtain ⟨has, target, there⟩ := metadata?_decorate given
    have stands : StandsFor host (f.decorate steps) f := by
      have same := standsFor_root host there
      rwa [root_decorate, root_of_plain plain] at same
    refine ⟨has, stands, ?_⟩
    rintro id info own args rfl refused
    rw [stands.invoke, applyTo, callNative, if_neg (Bool.not_eq_true _ ▸ refused)]
    rfl
  · refine ⟨h.withMetadata_none fresh, fun md => h.withMetadata_of_carries fresh,
      fun md lacks => ?_, fun again only => ?_⟩
    · rw [h.withMetadata_of_not_carries fresh lacks]
      exact ⟨rfl, rfl, h.layers_target⟩
    · rw [← max_layers_decorate only]
      exact Nat.le_max_left _ 1

end Sequence

/-- A host that counts calls in three different ways. -/
def tallyHost : Host Nat where
  native _ _ := do
    modify (· + 1)
    pure .nil
  invoke _ _ := do
    modify (· + 10)
    pure .nil
  applyTo _ args := do
    modify (· + 100)
    pure (.vector 0 args)

/-- A callable with metadata of its own, and a native function called with too few arguments,
after steps with and without effect. -/
theorem decorate_refines_mixed :
    let own : Metadata := .mk 1 []
    let last : Metadata := .mk 4 []
    let steps : List Decoration := [.annotate 20 none, .annotate 21 (some own),
      .annotate 22 (some (.mk 2 [])), .wrap 23 (.mk 3 []), .annotate 24 (some last),
      .annotate 25 (some last)]
    let probe : Function := .callable 10 "probe" 0 (some own)
    let unary : Function := .native 11 { name := "one_arg", arity := .exactly [1], label := 0 } own
    (probe.decorate steps).layers = 2 ∧
      (probe.decorate steps).metadata? = some last ∧
      ((probe.decorate steps).invoke tallyHost [.nil]).run 0 =
        (.ok (.vector 0 [.nil]), 100) ∧
      (unary.decorate steps).metadata? = some last ∧
      (unary.decorate steps).invoke tallyHost [] = throw (.arity 0 "one_arg" none) := by
  intro own last steps probe unary
  have first := (decorate_refines (f := probe) tallyHost rfl steps).1 last rfl
  have second := (decorate_refines (f := unary) tallyHost rfl steps).1 last rfl
  refine ⟨rfl, first.1, ?_, second.1, second.2.2 _ _ _ [] rfl rfl⟩
  rw [first.2.1.invoke]
  rfl

end ValueCore.Function
