import ValueCore.Proofs.Value.Parts
import ValueCore.Value.Equivalence
/-!
# Shared allocations

The definitions of values take an allocation for a number and do not ask whether two values
under one number have the same contents.  A `Memory` is a set of values of which this holds, as
it does of all values of a running program.

Values under one number are *kin*: they differ at most in metadata, or as a list and a vector of
the same elements, or are functions.  Identical values are under one number and of one kind
(`Memory.twin`).  Such *twins* cannot be told apart by identity, equality of content, equivalence
or either of the hashes.
-/

namespace ValueCore

namespace Value

/-! ## Twins -/

/-- Two values are the same but for the metadata that they carry themselves, or they are
one function. -/
inductive Twin : Value → Value → Prop where
  | same {v : Value} : Twin v v
  | seq {f : SeqForm} {i : Nat} {xs : List Value} {m m' : Option Metadata} :
    Twin (.seq f i xs m) (.seq f i xs m')
  | map {i : Nat} {es : List (Value × Value)} {m m' : Option Metadata} :
    Twin (.map i es m) (.map i es m')
  | set {i : Nat} {xs : List Value} {m m' : Option Metadata} :
    Twin (.set i xs m) (.set i xs m')
  | fn {f g : Function} (h : f.id = g.id) : Twin (.fn f) (.fn g)

/-- Two values have the same contents, or they are one function. -/
inductive Kin : Value → Value → Prop where
  | same {v : Value} : Kin v v
  | seq {f g : SeqForm} {i : Nat} {xs : List Value} {m m' : Option Metadata} :
    Kin (.seq f i xs m) (.seq g i xs m')
  | map {i : Nat} {es : List (Value × Value)} {m m' : Option Metadata} :
    Kin (.map i es m) (.map i es m')
  | set {i : Nat} {xs : List Value} {m m' : Option Metadata} :
    Kin (.set i xs m) (.set i xs m')
  | fn {f g : Function} (h : f.id = g.id) : Kin (.fn f) (.fn g)

namespace Kin

variable {a b : Value}

theorem symm (h : Kin a b) : Kin b a := by
  cases h with
  | same => exact .same
  | seq => exact .seq
  | map => exact .map
  | set => exact .set
  | fn h => exact .fn h.symm

theorem trans {c : Value} (h : Kin a b) (h' : Kin b c) : Kin a c := by
  cases h with
  | same => exact h'
  | seq =>
    cases h' with
    | same => exact .seq
    | seq => exact .seq
  | map =>
    cases h' with
    | same => exact .map
    | map => exact .map
  | set =>
    cases h' with
    | same => exact .set
    | set => exact .set
  | fn here =>
    cases h' with
    | same => exact .fn here
    | fn there => exact .fn (here.trans there)

theorem allocation?_eq (h : Kin a b) : a.allocation? = b.allocation? := by
  cases h with
  | fn h => simp only [allocation?, h]
  | _ => rfl

end Kin

namespace Twin

variable {a b : Value}

theorem symm (h : Twin a b) : Twin b a := by
  cases h with
  | same => exact .same
  | seq => exact .seq
  | map => exact .map
  | set => exact .set
  | fn h => exact .fn h.symm

theorem children_eq (h : Twin a b) : a.children = b.children := by
  cases h <;> rfl

theorem elements?_eq (h : Twin a b) : a.elements? = b.elements? := by
  cases h <;> rfl

theorem home?_eq (h : Twin a b) : a.home? = b.home? := by
  cases h <;> rfl

theorem isNaN_eq (h : Twin a b) : a.isNaN = b.isNaN := by
  cases h <;> rfl

theorem nanFree (h : Twin a b) (free : NaNFree a) : NaNFree b := by
  refine everywhere_iff.mpr ⟨h.isNaN_eq.symm.trans free.here, fun x mem => ?_⟩
  rw [← h.children_eq] at mem
  exact free.child mem

/-! ## What twins agree on -/

theorem identical_left (h : Twin a b) (c : Value) : identical a c = identical b c := by
  cases h with
  | same => rfl
  | seq => cases c <;> rfl
  | map => cases c <;> rfl
  | set => cases c <;> rfl
  | fn h => cases c <;> simp only [identical, h]

theorem identical_right (h : Twin a b) (c : Value) : identical c a = identical c b := by
  cases h with
  | same => rfl
  | seq => cases c <;> rfl
  | map => cases c <;> rfl
  | set => cases c <;> rfl
  | fn h => cases c <;> simp only [identical, h]

theorem hash_eq (h : Twin a b) : a.hash = b.hash := by
  cases h with
  | same => rfl
  | seq => rfl
  | map => rfl
  | set => rfl
  | fn h => simp only [hash, h]

theorem hashEq_eq (h : Twin a b) : a.hashEq = b.hashEq := by
  cases h with
  | same => rfl
  | seq => rfl
  | map => rfl
  | set => rfl
  | fn h => simp only [hashEq, h]

theorem equals_left (h : Twin a b) (c : Value) : equals a c = equals b c := by
  rw [equals.eq_def, equals.eq_def b, h.identical_left c]
  cases h with
  | same => rfl
  | seq => cases c <;> rfl
  | map => cases c <;> rfl
  | set => cases c <;> rfl
  | fn h => cases c <;> rfl

theorem equals_right (h : Twin a b) (c : Value) : equals c a = equals c b := by
  rw [equals.eq_def, equals.eq_def c b, h.identical_right c]
  cases h with
  | same => rfl
  | seq => cases c <;> rfl
  | map => cases c <;> rfl
  | set => cases c <;> rfl
  | fn h => cases c <;> rfl

theorem leafEquiv_left (h : Twin a b) (c : Value) : leafEquiv a c = leafEquiv b c := by
  simp only [leafEquiv, h.equals_left, h.equals_right]

theorem leafEquiv_right (h : Twin a b) (c : Value) : leafEquiv c a = leafEquiv c b := by
  cases h with
  | same => rfl
  | seq => exact Twin.seq.equals_right c
  | map => exact Twin.map.equals_right c
  | set => exact Twin.set.equals_right c
  | fn h => exact (Twin.fn h).equals_right c

theorem structuralEquiv_left (h : Twin a b) (same : Places) (c : Value) :
    structuralEquiv same a c = structuralEquiv same b c := by
  cases h with
  | same => rfl
  | seq => simp only [structuralEquiv]
  | map => simp only [structuralEquiv]
  | set => simp only [structuralEquiv]
  | fn h => simp only [structuralEquiv, (Twin.fn h).leafEquiv_left]

theorem structuralEquiv_right (h : Twin a b) (same : Places) (c : Value) :
    structuralEquiv same c a = structuralEquiv same c b := by
  rw [structuralEquiv.eq_def, structuralEquiv.eq_def same c b, h.elements?_eq, h.home?_eq]
  have leaf := h.leafEquiv_right
  have listed := h.equals_right
  cases h with
  | same => rfl
  | seq => cases c <;> simp only [leaf, listed]
  | map => cases c <;> simp only [leaf, listed]
  | set => cases c <;> simp only [leaf, listed]
  | fn h => cases c <;> simp only [leaf, listed]

theorem equivSharing_left (h : Twin a b) (same : Places) (c : Value) :
    equivSharing same a c = equivSharing same b c := by
  rw [equivSharing, equivSharing, dispatchEquiv, dispatchEquiv, h.identical_left,
    h.structuralEquiv_left]
  cases h <;> rfl

theorem dispatchEquiv_right (h : Twin a b) (same : Places) (c : Value) :
    dispatchEquiv same c a = dispatchEquiv same c b := by
  rw [dispatchEquiv, dispatchEquiv, h.structuralEquiv_right]
  cases h <;> rfl

theorem equivSharing_right (h : Twin a b) (same : Places) (c : Value) :
    equivSharing same c a = equivSharing same c b := by
  rw [equivSharing, equivSharing, h.identical_right, h.dispatchEquiv_right]

end Twin

end Value

/-! ## Memories -/

/-- Some values, of which those under one allocation have the same contents. -/
structure Memory where
  /-- The values. -/
  holds : Value → Prop
  /-- Values under one number are kin. -/
  shared : ∀ {u v : Value} {number : Allocation}, holds u → holds v →
    u.allocation? = some number → v.allocation? = some number → Value.Kin u v
  /-- A symbol has one cell among all handles. -/
  interned : ∀ {k l : Keyword}, holds (.kw k) → holds (.kw l) → k.symbol = l.symbol →
    k.cell = l.cell

namespace Memory

variable {μ : Memory} {a b c : Value}

/-- A value is in a memory with all its parts. -/
def Contains (μ : Memory) : Value → Prop := Value.Everywhere μ.holds

/-- Identical values are twins. -/
theorem twin (ha : μ.holds a) (hb : μ.holds b) (h : a.identical b = true) : Value.Twin a b := by
  have kin : ∀ number, a.allocation? = some number → b.allocation? = some number →
      Value.Kin a b := fun _ => μ.shared ha hb
  cases a with
  | nil => cases b <;> first | exact .same | cases h
  | bool x =>
    cases b with
    | bool y =>
      rw [beq_iff_eq.mp h]
      exact .same
    | _ => cases h
  | num x =>
    cases b with
    | num y =>
      cases x with
      | big i n =>
        cases y with
        | big j n' =>
          cases beq_iff_eq.mp h
          cases kin _ rfl rfl
          exact .same
        | _ => cases h
      | ratio i r =>
        cases y with
        | ratio j r' =>
          cases beq_iff_eq.mp h
          cases kin _ rfl rfl
          exact .same
        | _ => cases h
      | _ => cases h
    | _ => cases h
  | str i s =>
    cases b with
    | str j s' =>
      cases beq_iff_eq.mp h
      cases kin _ rfl rfl
      exact .same
    | _ => cases h
  | kw k =>
    cases b with
    | kw l =>
      have cells : l.cell = k.cell := (beq_iff_eq.mp h).symm
      cases kin _ rfl (congrArg (some ∘ Allocation.keyword) cells)
      exact .same
    | _ => cases h
  | seq f i xs m =>
    cases b with
    | seq g j ys m' =>
      simp only [Value.identical, Bool.and_eq_true, decide_eq_true_eq, beq_iff_eq] at h
      obtain ⟨⟨rfl, rfl⟩, -⟩ := h
      cases kin _ rfl rfl with
      | same => exact .same
      | seq => exact .seq
    | _ => cases h
  | map i es m =>
    cases b with
    | map j es' m' =>
      cases beq_iff_eq.mp h
      cases kin _ rfl rfl with
      | same => exact .same
      | map => exact .map
    | _ => cases h
  | set i xs m =>
    cases b with
    | set j ys m' =>
      cases beq_iff_eq.mp h
      cases kin _ rfl rfl with
      | same => exact .same
      | set => exact .set
    | _ => cases h
  | fn f =>
    cases b with
    | fn g => exact .fn (beq_iff_eq.mp h)
    | _ => cases h
  | object i facets xs alikes =>
    cases b with
    | object j facets' ys alikes' =>
      cases beq_iff_eq.mp h
      cases kin _ rfl rfl
      exact .same
    | _ => cases h
  | char c => cases h
  | sym s => cases h

theorem identical_symm (ha : μ.holds a) (hb : μ.holds b) (h : a.identical b = true) :
    b.identical a = true := by
  have twin := μ.twin ha hb h
  rw [← twin.identical_left, ← h, twin.identical_right]

/-! ## Memories of a few values -/

/-- A value is held directly, in no allocation. -/
def Direct : Value → Prop
  | .nil | .bool _ | .char _ | .sym _ | .num (.int _) | .num (.float _) => True
  | _ => False

theorem allocation?_of_direct (direct : Direct a) : a.allocation? = none := by
  cases a with
  | num x => cases x <;> first | rfl | cases direct
  | _ => first | rfl | cases direct

/-- Values in allocations of their own, no keywords among them, and all that is held
directly. -/
def ofList (vs : List Value) (apart : vs.Pairwise fun u v => u.allocation? ≠ v.allocation?)
    (keywords : ∀ k, .kw k ∉ vs) : Memory where
  holds v := Direct v ∨ v ∈ vs
  shared {u v number} hu hv here there := by
    rcases hu with direct | mem
    · rw [allocation?_of_direct direct] at here
      cases here
    rcases hv with direct | mem'
    · rw [allocation?_of_direct direct] at there
      cases there
    have once : vs.Pairwise fun u v => u.allocation? = v.allocation? → u = v :=
      apart.imp fun other same => absurd same other
    have once' : vs.Pairwise (flip fun u v => u.allocation? = v.allocation? → u = v) :=
      apart.imp fun other same => absurd same.symm other
    rw [once.forall_of_forall_of_flip (fun _ _ _ => rfl) once' mem mem' (here.trans there.symm)]
    exact .same
  interned {k l} hk _ _ := by
    rcases hk with direct | mem
    · cases direct
    · exact absurd mem (keywords k)

/-- The values of a memory, with any metadata, and lists beside vectors of the same
elements. -/
def withKin (μ : Memory) : Memory where
  holds v := ∃ u, μ.holds u ∧ Value.Kin u v
  shared := by
    rintro v v' number ⟨u, held, kin⟩ ⟨u', held', kin'⟩ here there
    rw [← kin.allocation?_eq] at here
    rw [← kin'.allocation?_eq] at there
    exact kin.symm.trans ((μ.shared held held' here there).trans kin')
  interned := by
    rintro k l ⟨u, held, kin⟩ ⟨u', held', kin'⟩ symbols
    cases kin
    cases kin'
    exact μ.interned held held' symbols

end Memory

end ValueCore
