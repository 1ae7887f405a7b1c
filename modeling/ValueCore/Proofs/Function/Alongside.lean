import ValueCore.Function.Search
import ValueCore.Function.Sort
import ValueCore.Proofs.Function.Outcome
/-!
# Computations side by side

`Eval.YieldsBoth m m' s t Q` says that `m`, started in `s`, and `m'`, started in `t`, both come to
answers, and that `Q` holds of the answers and of the states that are left.  The two may have
different hosts.  As a precondition it passes through `pure` and `bind`, so what two runs of one
loop have in common follows from what their steps have in common.

A sort and a search look at nothing but the signs of comparisons.  So two comparisons whose
signs are the same (`Concordant`) make for the same list and the same result.  For a search the
rule is stated with an invariant of its window (`searchWindow_yieldsBoth`), which then holds of
the empty window at the end.
-/

namespace ValueCore

variable {σ τ α β γ δ : Type}

namespace Eval

/-- From two states, two computations come to answers and states with `Q`. -/
def YieldsBoth (m : Eval σ α) (m' : Eval τ β) (s : σ) (t : τ) (Q : α → σ → β → τ → Prop) : Prop :=
  ∃ a s' b t', m.run.run s = (.ok a, s') ∧ m'.run.run t = (.ok b, t') ∧ Q a s' b t'

variable {m : Eval σ α} {m' : Eval τ β} {s : σ} {t : τ} {Q : α → σ → β → τ → Prop}

theorem YieldsBoth.mono {P : α → σ → β → τ → Prop} (h : YieldsBoth m m' s t P)
    (imp : ∀ a s' b t', P a s' b t' → Q a s' b t') : YieldsBoth m m' s t Q := by
  obtain ⟨a, s', b, t', first, second, post⟩ := h
  exact ⟨a, s', b, t', first, second, imp a s' b t' post⟩

theorem yieldsBoth_of_yields {P : α → σ → Prop} {P' : β → τ → Prop} (h : m.Yields s P)
    (h' : m'.Yields t P') : YieldsBoth m m' s t fun a s' b t' => P a s' ∧ P' b t' := by
  obtain ⟨a, s', first, post⟩ := h
  obtain ⟨b, t', second, post'⟩ := h'
  exact ⟨a, s', b, t', first, second, post, post'⟩

theorem yieldsBoth_pure {a : α} {b : β} (post : Q a s b t) :
    YieldsBoth (pure a : Eval σ α) (pure b : Eval τ β) s t Q :=
  ⟨a, s, b, t, rfl, rfl, post⟩

/-- The second computations start where the first ones end. -/
theorem YieldsBoth.bind {k : α → Eval σ γ} {k' : β → Eval τ δ} {P : γ → σ → δ → τ → Prop}
    (first : YieldsBoth m m' s t Q)
    (rest : ∀ a s' b t', Q a s' b t' → YieldsBoth (k a) (k' b) s' t' P) :
    YieldsBoth (m >>= k) (m' >>= k') s t P := by
  obtain ⟨a, s₁, b, t₁, left, right, post⟩ := first
  obtain ⟨c, s₂, d, t₂, left', right', post'⟩ := rest a s₁ b t₁ post
  refine ⟨c, s₂, d, t₂, ?_, ?_, post'⟩
  · rw [run_bind, left]
    exact left'
  · rw [run_bind, right]
    exact right'

end Eval

open Eval

/-! ## Signs -/

theorem neg_iff_of_sign_eq {c d : Int} (h : c.sign = d.sign) : c < 0 ↔ d < 0 := by
  rw [← Int.sign_eq_neg_one_iff_neg, h, Int.sign_eq_neg_one_iff_neg]

theorem pos_iff_of_sign_eq {c d : Int} (h : c.sign = d.sign) : 0 < c ↔ 0 < d := by
  rw [← Int.sign_eq_one_iff_pos, h, Int.sign_eq_one_iff_pos]

/-- From states in a relation, two comparisons have one sign and leave states in the relation. -/
def Concordant (S : σ → τ → Prop) (compare : Comparison σ) (compare' : Comparison τ) : Prop :=
  ∀ a b s t, S s t → YieldsBoth (compare a b) (compare' a b) s t
    fun c s' d t' => c.sign = d.sign ∧ S s' t'

section Loops

variable {S : σ → τ → Prop} {compare : Comparison σ} {compare' : Comparison τ} {s : σ} {t : τ}

/-! ## Sorts -/

theorem merge_yieldsBoth (concordant : Concordant S compare compare') (left right : List Value)
    (related : S s t) :
    YieldsBoth (merge compare left right) (merge compare' left right) s t
      fun out s' out' t' => out = out' ∧ S s' t' := by
  induction left generalizing right s t with
  | nil =>
    rw [merge, merge]
    exact yieldsBoth_pure ⟨rfl, related⟩
  | cons l left takeLeft =>
    induction right generalizing s t with
    | nil =>
      rw [merge, merge]
      · exact yieldsBoth_pure ⟨rfl, related⟩
      · simp
      · simp
    | cons r right takeRight =>
      rw [merge, merge]
      apply (concordant l r s t related).bind
      rintro c s₁ d t₁ ⟨sign, related₁⟩
      have same : c ≤ 0 ↔ d ≤ 0 := by
        rw [← Int.not_lt, ← Int.not_lt, pos_iff_of_sign_eq sign]
      by_cases take : c ≤ 0
      · rw [if_pos take, if_pos (same.mp take)]
        apply (takeLeft (r :: right) related₁).bind
        rintro out s₂ out' t₂ ⟨agree, related₂⟩
        exact yieldsBoth_pure ⟨by rw [agree], related₂⟩
      · rw [if_neg take, if_neg (mt same.mpr take)]
        apply (takeRight related₁).bind
        rintro out s₂ out' t₂ ⟨agree, related₂⟩
        exact yieldsBoth_pure ⟨by rw [agree], related₂⟩

/-- Sorts by concordant comparisons give one list. -/
theorem mergeSort_yieldsBoth (concordant : Concordant S compare compare') (items : List Value)
    (related : S s t) :
    YieldsBoth (mergeSort compare items) (mergeSort compare' items) s t
      fun out s' out' t' => out = out' ∧ S s' t' := by
  induction size : items.length using Nat.strongRecOn generalizing items s t with
  | ind n ih =>
    subst size
    rw [mergeSort, mergeSort]
    split
    · exact yieldsBoth_pure ⟨rfl, related⟩
    · next long =>
      have proper : 0 < items.length / 2 ∧ items.length / 2 < items.length := by omega
      dsimp only
      generalize items.length / 2 = half at proper ⊢
      have shorter : (items.take half).length < items.length := by simp; omega
      have shorter' : (items.drop half).length < items.length := by simp; omega
      apply (ih _ shorter (items.take half) related rfl).bind
      rintro left s₁ left' t₁ ⟨agree, related₁⟩
      apply (ih _ shorter' (items.drop half) related₁ rfl).bind
      rintro right s₂ right' t₂ ⟨agree', related₂⟩
      rw [← agree, ← agree']
      exact merge_yieldsBoth concordant left right related₂

/-! ## Searches -/

/-- Two searches go through the same windows if their comparisons have one sign at each middle.
What holds of the first window and is kept by a step holds of the empty window at the end. -/
theorem searchWindow_yieldsBoth {elements : Array Value} {key : Value}
    {P : Nat → Nat → σ → τ → Prop} {Q : SearchResult → σ → τ → Prop}
    (step : ∀ low high mid s t (inside : mid < elements.size), low < high →
      mid = low + (high - low) / 2 → high ≤ elements.size → P low high s t →
      YieldsBoth (compare key elements[mid]) (compare' key elements[mid]) s t
        fun c s' d t' => c.sign = d.sign ∧ (c < 0 → P low mid s' t') ∧
          (0 < c → P (mid + 1) high s' t') ∧ (c = 0 → Q (.found mid) s' t'))
    (stop : ∀ low s t, low ≤ elements.size → P low low s t → Q (.insertAt low) s t)
    {low high : Nat} (order : low ≤ high) (bound : high ≤ elements.size) (start : P low high s t) :
    YieldsBoth (searchWindow compare elements key low high bound)
      (searchWindow compare' elements key low high bound) s t
      fun result s' result' t' => result = result' ∧ Q result s' t' := by
  induction size : high - low using Nat.strongRecOn generalizing low high s t with
  | ind n ih =>
    subst size
    rw [searchWindow, searchWindow]
    split
    · next proper =>
      dsimp only
      have inside : low + (high - low) / 2 < elements.size := by omega
      apply (step low high _ s t inside proper rfl bound start).bind
      rintro c s₁ d t₁ ⟨sign, less, greater, equal⟩
      by_cases below : c < 0
      · rw [if_pos below, if_pos ((neg_iff_of_sign_eq sign).mp below)]
        exact ih _ (by omega) (by omega) _ (less below) rfl
      · rw [if_neg below, if_neg (mt (neg_iff_of_sign_eq sign).mpr below)]
        by_cases above : 0 < c
        · rw [if_pos above, if_pos ((pos_iff_of_sign_eq sign).mp above)]
          exact ih _ (by omega) (by omega) bound (greater above) rfl
        · rw [if_neg above, if_neg (mt (pos_iff_of_sign_eq sign).mpr above)]
          exact yieldsBoth_pure ⟨rfl, equal (by omega)⟩
    · next done =>
      have empty : low = high := by omega
      subst empty
      exact yieldsBoth_pure ⟨rfl, stop low s t bound start⟩

/-- Searches with concordant comparisons come to one result. -/
theorem Function.search_yieldsBoth {host : Host σ} {host' : Host τ} {f g : Function}
    (concordant : Concordant S (f.compareWith host) (g.compareWith host'))
    (elements : List Value) (key : Value) (related : S s t) :
    YieldsBoth (f.search host elements key) (g.search host' elements key) s t
      fun result s' result' t' => result = result' ∧ S s' t' := by
  apply searchWindow_yieldsBoth (P := fun _ _ => S) (Q := fun _ => S)
  · intro low high mid s t inside _ _ _ related
    refine (concordant key elements.toArray[mid] s t related).mono ?_
    rintro c s' d t' ⟨sign, kept⟩
    exact ⟨sign, fun _ => kept, fun _ => kept, fun _ => kept⟩
  · intro low s t _ kept
    exact kept
  · exact Nat.zero_le _
  · exact related

end Loops

end ValueCore
