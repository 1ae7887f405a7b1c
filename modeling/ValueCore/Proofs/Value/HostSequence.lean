import ValueCore.Proofs.Value.Copy
import ValueCore.Value.Objects
/-!
# Host sequences

A host object may be a sequence like the built-in ones (`Facets.Sequence`).  Then two different
computations answer whether it is equivalent to a list or vector: from its side its own
equivalence, and from the other side the look of the list or vector at the elements that the
object gives.  Both come to the same, with objects among the elements to any depth
(`host_sequence_symmetric`).

They do because equivalence of formed values is symmetric altogether.  What it says of two
sequential values of whatever kind is that their elements are equivalent place by place
(`equiv_iff_elements`).
-/

namespace ValueCore.Value

variable {μ : Memory} {a b : Value} {xs ys : List Value}

/-- Two sequential values are equivalent if their elements are.  The first must not have a NaN,
with which it would not be equivalent to itself place by place. -/
theorem equiv_iff_elements (ha : Formed μ a) (hb : Formed μ b) (free : NaNFree a)
    (hx : a.elements? = some xs) (hy : b.elements? = some ys) :
    equiv a b = true ↔ List.Forall₂ (fun x y => equiv x y = true) xs ys := by
  have left : ∀ x ∈ xs, x ∈ a.children := fun x mem => by rwa [children_of_elements hx]
  have right : ∀ y ∈ ys, y ∈ b.children := fun y mem => by rwa [children_of_elements hy]
  have self : ∀ x ∈ xs, equiv x x = true := fun x mem =>
    equiv_of_copy (ha.child (left x mem)) (ha.child (left x mem)) (free.child (left x mem))
      (Copy.refl x)
  rw [equiv_iff ha hb]
  constructor
  · rintro (ident | alike)
    -- One value seen twice: the scan meets each element with itself.
    · have twin := μ.twin ha.level.held hb.level.held ident
      have same : xs = ys := by
        rw [twin.elements?_eq, hy, Option.some.injEq] at hx
        exact hx.symm
      subst same
      exact List.forall₂_same.mpr self
    · cases alike with
      | seq hx' hy' pairs =>
        rw [hx, Option.some.injEq] at hx'
        rw [hy, Option.some.injEq] at hy'
        subst hx' hy'
        rw [← @map_snd_placed a.home? 0 xs, ← @map_snd_placed b.home? 0 ys,
          List.forall₂_map_left_iff, List.forall₂_map_right_iff]
        refine forall₂_of_mem pairs fun x mem y _ linked => ?_
        rcases linked.cases with ⟨-, one⟩ | tie
        · rw [← one]
          exact self _ (value_mem_of_mem_placed mem)
        · exact tie
      | _ => cases hx
  · intro pairs
    refine .inr (linked_of_related ha hb (.of_elements hx hy ?_))
    exact forall₂_of_mem pairs fun x hx y hy tie =>
      ⟨ha.child (left x hx), hb.child (right y hy), tie⟩

/-- The same by positions. -/
theorem forall₂_equiv_iff : List.Forall₂ (fun x y => equiv x y = true) xs ys ↔
    xs.length = ys.length ∧
      ∀ (k : Nat) x y, xs[k]? = some x → ys[k]? = some y → equiv x y = true := by
  rw [List.forall₂_iff_get]
  refine and_congr_right' ⟨fun all k x y hx hy => ?_, fun all k hx hy => ?_⟩
  · obtain ⟨inside, rfl⟩ := List.getElem?_eq_some_iff.mp hx
    obtain ⟨inside', rfl⟩ := List.getElem?_eq_some_iff.mp hy
    exact all k inside inside'
  · exact all k _ _ (List.getElem?_eq_getElem hx) (List.getElem?_eq_getElem hy)

section Host

variable {i : Nat} {facets : Facets} {alikes : List Value}

theorem formed_object : Formed μ (.object i facets xs alikes) ↔
    (μ.holds (.object i facets xs alikes) ∧ facets.Sequence) ∧ ∀ x ∈ xs, Formed μ x := by
  rw [Formed, everywhere_iff]
  exact and_congr_left' (and_congr_right' (and_iff_right List.Pairwise.nil))

theorem elements_of_sequence (sequence : facets.Sequence) :
    (object i facets xs alikes).elements? = some xs := by
  obtain ⟨n, coll⟩ := sequence.collection?
  simp [elements?, coll]

/-- A host sequence and a sequence of any kind are equivalent in both directions or in none.  They
are if they have equivalent elements in the same order, and then they have one value hash.  Shared
places change nothing. -/
theorem host_sequence_symmetric {v : Value} (ho : Formed μ (.object i facets xs alikes))
    (hv : Formed μ v) (elements : v.elements? = some ys)
    (fo : NaNFree (.object i facets xs alikes)) (fv : NaNFree v) :
    let o : Value := .object i facets xs alikes
    equiv o v = equiv v o ∧
      (equiv o v = true ↔ xs.length = ys.length ∧
        ∀ (k : Nat) x y, xs[k]? = some x → ys[k]? = some y → equiv x y = true) ∧
      (equiv o v = true → o.hashEq = v.hashEq) ∧
      (∀ same : Places, same.Sound o v → equivSharing same o v = equiv o v) ∧
      ∀ same : Places, same.Sound v o → equivSharing same v o = equiv v o := by
  intro o
  have items : o.elements? = some xs := elements_of_sequence (formed_object.mp ho).1.2
  have laws := lawful_formed μ
  refine ⟨?_, ?_, laws.hashEq_eq ho hv, fun _ => equivSharing_eq_equiv ho hv fo,
    fun _ => equivSharing_eq_equiv hv ho fv⟩
  · rw [Bool.eq_iff_iff]
    exact ⟨laws.symm ho hv, laws.symm hv ho⟩
  · rw [equiv_iff_elements ho hv fo items elements, forall₂_equiv_iff]

end Host

/-! ## Pairs -/

/-- A pair is a host sequence. -/
theorem formed_pair {i : Nat} {x y : Value} :
    Formed μ (pair i x y) ↔ μ.holds (pair i x y) ∧ Formed μ x ∧ Formed μ y := by
  have inside : ∀ P : Value → Prop, (∀ z ∈ [x, y], P z) ↔ P x ∧ P y := by simp
  rw [pair, formed_object, inside]
  exact and_congr_left' (and_iff_left ⟨rfl, 2, rfl⟩)

theorem everywhere_pair {P : Value → Prop} {i : Nat} {x y : Value} :
    Everywhere P (pair i x y) ↔ P (pair i x y) ∧ Everywhere P x ∧ Everywhere P y := by
  rw [everywhere_iff]
  simp [pair, children]

/-- A pair with a pair in it, and a list with a vector and a pair in it. -/
theorem host_sequence_symmetric_nested :
    let o : Value := pair 0 (pair 1 (.int 1) (.int 2)) (.vector 2 [.int 3, .int 4])
    let v : Value := .list 3 [.vector 4 [.float ⟨0x3ff0000000000000⟩, .int 2],
      pair 5 (.int 3) (.float ⟨0x4010000000000000⟩)]
    equiv o v = true ∧ equiv v o = true ∧ o.hashEq = v.hashEq := by
  intro o v
  let μ : Memory := .ofList
    [o, pair 1 (.int 1) (.int 2), .vector 2 [.int 3, .int 4], v,
      .vector 4 [.float ⟨0x3ff0000000000000⟩, .int 2],
      pair 5 (.int 3) (.float ⟨0x4010000000000000⟩)]
    (by decide) (by simp [o, v, pair, list, vector])
  have ho : Formed μ o := by
    simp [o, int, vector, formed_pair, formed_num, formed_seq, μ, Memory.ofList, Memory.Direct]
  have hv : Formed μ v := by
    simp [v, int, float, list, vector, formed_pair, formed_num, formed_seq, μ, Memory.ofList,
      Memory.Direct]
  have fo : NaNFree o := by
    simp [NaNFree, o, int, vector, everywhere_pair, everywhere_seq, everywhere_num, isNaN,
      Number.isNaN]
    decide
  have fv : NaNFree v := by
    simp [NaNFree, v, int, float, list, vector, everywhere_pair, everywhere_seq, everywhere_num,
      isNaN, Number.isNaN]
    decide
  obtain ⟨symm, -, hashes, -⟩ := host_sequence_symmetric ho hv rfl fo fv
  have tie : equiv o v = true := by decide +kernel
  exact ⟨tie, symm ▸ tie, hashes tie⟩

end ValueCore.Value
