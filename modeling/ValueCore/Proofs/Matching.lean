import Mathlib.Algebra.BigOperators.Group.List.Basic
import Mathlib.Data.Fintype.EquivFin
import Mathlib.Data.List.Pairwise
import Mathlib.Data.List.Perm.Basic
/-!
# Matchings of lists

Two lists *match* under a relation if the second one can be put in an order in which it is
related to the first place by place.  This is how the elements of two sets, or the entries
of two maps, belong together.

A matching comes from a search.  If the lists are of one length, every element of the first
finds one of the second, and no two of them find the same, then nothing of the second is
left over (`Matching.of_search`).
-/

namespace ValueCore

variable {α β γ : Type}

/-- Some order of the second list is related to the first list place by place. -/
def Matching (r : α → β → Prop) (xs : List α) (ys : List β) : Prop :=
  ∃ zs, List.Forall₂ r xs zs ∧ zs.Perm ys

theorem forall₂_trans {r : α → β → Prop} {s : β → γ → Prop} {t : α → γ → Prop}
    (comp : ∀ x y z, r x y → s y z → t x z) {xs : List α} {ys : List β} {zs : List γ}
    (h : List.Forall₂ r xs ys) (h' : List.Forall₂ s ys zs) : List.Forall₂ t xs zs := by
  induction h generalizing zs with
  | nil =>
    cases h'
    exact .nil
  | cons first _ ih =>
    cases h' with
    | cons first' rest' => exact .cons (comp _ _ _ first first') (ih rest')

theorem forall₂_symm {r : α → β → Prop} {s : β → α → Prop} (turn : ∀ x y, r x y → s y x)
    {xs : List α} {ys : List β} (h : List.Forall₂ r xs ys) : List.Forall₂ s ys xs :=
  List.Forall₂.flip (h.imp turn)

/-- Related lists have the same values of a function that related elements agree on. -/
theorem map_eq_of_forall₂ {r : α → β → Prop} {f : α → γ} {g : β → γ}
    (agree : ∀ x y, r x y → f x = g y) {xs : List α} {ys : List β}
    (h : List.Forall₂ r xs ys) : xs.map f = ys.map g := by
  induction h with
  | nil => rfl
  | cons first _ ih => rw [List.map_cons, List.map_cons, agree _ _ first, ih]

theorem exists_of_forall₂ {r : α → β → Prop} {xs : List α} {ys : List β}
    (h : List.Forall₂ r xs ys) {x : α} (mem : x ∈ xs) : ∃ y ∈ ys, r x y := by
  induction h with
  | nil => cases mem
  | cons first _ ih =>
    rcases List.mem_cons.mp mem with rfl | later
    · exact ⟨_, List.mem_cons_self, first⟩
    · obtain ⟨y, mem', related⟩ := ih later
      exact ⟨y, List.mem_cons_of_mem _ mem', related⟩

/-- What follows for the elements of the two lists follows place by place. -/
theorem forall₂_of_mem {r s : α → β → Prop} {xs : List α} {ys : List β}
    (h : List.Forall₂ r xs ys) (imp : ∀ x ∈ xs, ∀ y ∈ ys, r x y → s x y) :
    List.Forall₂ s xs ys := by
  induction h with
  | nil => exact .nil
  | cons first _ ih =>
    refine .cons (imp _ List.mem_cons_self _ List.mem_cons_self first) (ih ?_)
    intro x hx y hy
    exact imp x (List.mem_cons_of_mem _ hx) y (List.mem_cons_of_mem _ hy)

namespace Matching

variable {r : α → β → Prop} {xs : List α} {ys : List β}

/-- What follows for the elements of the two lists follows for their matching. -/
theorem of_mem {s : α → β → Prop} (h : Matching r xs ys)
    (imp : ∀ x ∈ xs, ∀ y ∈ ys, r x y → s x y) : Matching s xs ys := by
  obtain ⟨zs, related, perm⟩ := h
  exact ⟨zs, forall₂_of_mem related fun x hx y hy => imp x hx y (perm.subset hy), perm⟩

theorem symm {s : β → α → Prop} (turn : ∀ x y, r x y → s y x) (h : Matching r xs ys) :
    Matching s ys xs := by
  obtain ⟨zs, related, perm⟩ := h
  exact List.perm_comp_forall₂ perm.symm (forall₂_symm turn related)

theorem trans {s : β → γ → Prop} {t : α → γ → Prop} {zs : List γ}
    (comp : ∀ x y z, r x y → s y z → t x z) (h : Matching r xs ys) (h' : Matching s ys zs) :
    Matching t xs zs := by
  obtain ⟨ys', related, perm⟩ := h
  obtain ⟨zs', related', perm'⟩ := h'
  obtain ⟨ws, related'', perm''⟩ := List.perm_comp_forall₂ perm related'
  exact ⟨ws, forall₂_trans comp related related'', perm''.trans perm'⟩

/-- What matches under functions of the elements matches as it is. -/
theorem of_map {α' β' : Type} {f : α' → α} {g : β' → β} {xs : List α'} {ys : List β'}
    (h : Matching r (xs.map f) (ys.map g)) : Matching (fun x y => r (f x) (g y)) xs ys := by
  obtain ⟨zs, related, perm⟩ := h
  have values : List.Forall₂ (fun z y => z = g y) (ys.map g) ys :=
    List.forall₂_map_left_iff.mpr (List.forall₂_same.mpr fun _ _ => rfl)
  obtain ⟨ws, same, perm'⟩ := List.perm_comp_forall₂ perm values
  refine ⟨ws, forall₂_trans ?_ (List.forall₂_map_left_iff.mp related) same, perm'⟩
  rintro x z y tie rfl
  exact tie

theorem length_eq (h : Matching r xs ys) : xs.length = ys.length := by
  obtain ⟨zs, related, perm⟩ := h
  rw [related.length_eq, perm.length_eq]

theorem exists_right (h : Matching r xs ys) {x : α} (mem : x ∈ xs) : ∃ y ∈ ys, r x y := by
  obtain ⟨zs, related, perm⟩ := h
  obtain ⟨y, mem', holds⟩ := exists_of_forall₂ related mem
  exact ⟨y, perm.subset mem', holds⟩

theorem exists_left (h : Matching r xs ys) {y : β} (mem : y ∈ ys) : ∃ x ∈ xs, r x y :=
  (h.symm (s := flip r) fun _ _ related => related).exists_right mem

/-- A sum over matching lists of what related elements agree on is one sum. -/
theorem sum_eq {M : Type} [AddCommMonoid M] {f : α → M} {g : β → M}
    (agree : ∀ x y, r x y → f x = g y) (h : Matching r xs ys) :
    (xs.map f).sum = (ys.map g).sum := by
  obtain ⟨zs, related, perm⟩ := h
  rw [map_eq_of_forall₂ agree related, (perm.map g).sum_eq]

/-- A search in which no two positions find the same sends positions to different ones. -/
theorem exists_injective_of_search (found : Nat → Nat → Prop)
    (search : ∀ i x, xs[i]? = some x → ∃ j y, ys[j]? = some y ∧ found i j ∧ r x y)
    (once : ∀ i i' j, found i j → found i' j → i = i') :
    ∃ f : Fin xs.length → Fin ys.length, Function.Injective f ∧
      ∀ i, r (xs.get i) (ys.get (f i)) := by
  have choice : ∀ i : Fin xs.length, ∃ j : Fin ys.length,
      found i j ∧ r (xs.get i) (ys.get j) := by
    intro i
    obtain ⟨j, y, at_j, found, related⟩ := search i xs[i] (List.getElem?_eq_getElem i.isLt)
    obtain ⟨bound, rfl⟩ := List.getElem?_eq_some_iff.mp at_j
    exact ⟨⟨j, bound⟩, found, related⟩
  choose f found related using choice
  exact ⟨f, fun i i' same => Fin.ext (once i i' (f i) (found i) (same ▸ found i')), related⟩

/-- A search in which no two positions find the same uses up a list of the same length. -/
theorem of_search (found : Nat → Nat → Prop) (length : xs.length = ys.length)
    (search : ∀ i x, xs[i]? = some x → ∃ j y, ys[j]? = some y ∧ found i j ∧ r x y)
    (once : ∀ i i' j, found i j → found i' j → i = i') : Matching r xs ys := by
  obtain ⟨f, injective, related⟩ := exists_injective_of_search found search once
  have bijective : Function.Bijective f :=
    (Fintype.bijective_iff_injective_and_card f).mpr ⟨injective, by simp [length]⟩
  have all : ((List.finRange xs.length).map f).Perm (List.finRange ys.length) := by
    refine (List.perm_ext_iff_of_nodup ((List.nodup_finRange _).map injective)
      (List.nodup_finRange _)).mpr fun j => ?_
    obtain ⟨i, rfl⟩ := bijective.surjective j
    simp
  refine ⟨((List.finRange xs.length).map f).map ys.get, ?_, ?_⟩
  · have places : List.Forall₂ r ((List.finRange xs.length).map xs.get)
        (((List.finRange xs.length).map f).map ys.get) := by
      rw [List.map_map, List.forall₂_map_left_iff, List.forall₂_map_right_iff]
      exact List.forall₂_same.mpr fun i _ => related i
    rwa [List.map_get_finRange] at places
  · have order := all.map ys.get
    rwa [List.map_get_finRange] at order

end Matching

/-! ## Lists without related elements -/

section Apart

variable {E : α → α → Prop} {xs ys : List α}

/-- In a list without related elements, those related to one element are at one place. -/
theorem index_eq_of_apart (symm : ∀ x y, E x y → E y x) (trans : ∀ x y z, E x y → E y z → E x z)
    (apart : xs.Pairwise fun x y => ¬ E x y) {i j : Nat} {x y z : α} (hx : xs[i]? = some x)
    (hy : xs[j]? = some y) (h : E x z) (h' : E y z) : i = j := by
  obtain ⟨bi, rfl⟩ := List.getElem?_eq_some_iff.mp hx
  obtain ⟨bj, rfl⟩ := List.getElem?_eq_some_iff.mp hy
  have both := trans _ _ _ h (symm _ _ h')
  rcases Nat.lt_trichotomy i j with lt | eq | gt
  · exact absurd both (List.pairwise_iff_getElem.mp apart i j bi bj lt)
  · exact eq
  · exact absurd (symm _ _ both) (List.pairwise_iff_getElem.mp apart j i bj bi gt)

/-- In a list without related elements, two that are related are one. -/
theorem eq_of_apart (symm : ∀ x y, E x y → E y x) (apart : xs.Pairwise fun x y => ¬ E x y)
    {x y : α} (hx : x ∈ xs) (hy : y ∈ xs) (h : E x y) : x = y := by
  have back : Std.Symm fun x y => ¬ E x y := ⟨fun x y none tie => none (symm y x tie)⟩
  by_contra other
  exact apart.forall hx hy other h

/-- The elements at two positions are related. -/
def RelatedAt (E : α → α → Prop) (xs ys : List α) (i j : Nat) : Prop :=
  ∃ x y, xs[i]? = some x ∧ ys[j]? = some y ∧ E x y

theorem exists_relatedAt (there : ∀ x ∈ xs, ∃ y ∈ ys, E x y) (i : Nat) (x : α)
    (hx : xs[i]? = some x) : ∃ j y, ys[j]? = some y ∧ RelatedAt E xs ys i j ∧ E x y := by
  obtain ⟨y, mem, tie⟩ := there x (List.mem_of_getElem? hx)
  obtain ⟨j, hy⟩ := List.getElem?_of_mem mem
  exact ⟨j, y, hy, ⟨x, y, hx, hy, tie⟩, tie⟩

theorem RelatedAt.once (symm : ∀ x y, E x y → E y x)
    (trans : ∀ x y z, E x y → E y z → E x z) (apart : xs.Pairwise fun x y => ¬ E x y)
    (i i' j : Nat) (h : RelatedAt E xs ys i j) (h' : RelatedAt E xs ys i' j) : i = i' := by
  obtain ⟨x, y, hx, hy, tie⟩ := h
  obtain ⟨x', y', hx', hy', tie'⟩ := h'
  rw [hy, Option.some.injEq] at hy'
  subst hy'
  exact index_eq_of_apart symm trans apart hx hx' tie tie'

/-- A list without related elements matches any list of the same length that has related
ones. -/
theorem Matching.of_apart (symm : ∀ x y, E x y → E y x)
    (trans : ∀ x y z, E x y → E y z → E x z) (apart : xs.Pairwise fun x y => ¬ E x y)
    (length : xs.length = ys.length) (there : ∀ x ∈ xs, ∃ y ∈ ys, E x y) : Matching E xs ys :=
  .of_search _ length (exists_relatedAt there) (RelatedAt.once symm trans apart)

theorem length_le_of_apart (symm : ∀ x y, E x y → E y x)
    (trans : ∀ x y z, E x y → E y z → E x z) (apart : xs.Pairwise fun x y => ¬ E x y)
    (there : ∀ x ∈ xs, ∃ y ∈ ys, E x y) : xs.length ≤ ys.length := by
  obtain ⟨f, injective, -⟩ := Matching.exists_injective_of_search _ (exists_relatedAt there)
    (RelatedAt.once symm trans apart)
  simpa using Fintype.card_le_of_injective f injective

/-- If all elements of a list weigh the same and a list of the same length has no other
weights, the lists weigh the same. -/
theorem sum_eq_of_constant {M : Type} [AddCommMonoid M] {f : α → M}
    (length : xs.length = ys.length) (level : ∀ x ∈ xs, ∀ y ∈ xs, f x = f y)
    (back : ∀ y ∈ ys, ∃ x ∈ xs, f x = f y) : (xs.map f).sum = (ys.map f).sum := by
  cases xs with
  | nil => rw [List.length_eq_zero_iff.mp length.symm]
  | cons x₀ rest =>
    have left : ∀ w ∈ (x₀ :: rest).map f, w = f x₀ := by
      intro w mem
      obtain ⟨x, mem', rfl⟩ := List.mem_map.mp mem
      exact level x mem' x₀ List.mem_cons_self
    have right : ∀ w ∈ ys.map f, w = f x₀ := by
      intro w mem
      obtain ⟨y, mem', rfl⟩ := List.mem_map.mp mem
      obtain ⟨x, mem'', same⟩ := back y mem'
      rw [← same]
      exact level x mem'' x₀ List.mem_cons_self
    rw [List.sum_eq_card_nsmul _ _ left, List.sum_eq_card_nsmul _ _ right, List.length_map,
      List.length_map, length]

/-- Two lists hold the same up to a relation, each of the first kind of element once.  If
the others of the second kind all weigh the same, so do the lists. -/
theorem sum_eq_of_level {M : Type} [AddCommMonoid M] {f : α → M} {once : α → Prop}
    (symm : ∀ x y, E x y → E y x) (trans : ∀ x y z, E x y → E y z → E x z)
    (agree : ∀ x y, E x y → f x = f y) (keep : ∀ x y, E x y → once x → once y)
    (apart : xs.Pairwise fun x y => once x → ¬ E x y)
    (apart' : ys.Pairwise fun x y => once x → ¬ E x y)
    (level : ∀ x ∈ xs, ∀ y ∈ xs, ¬ once x → ¬ once y → f x = f y)
    (length : xs.length = ys.length) (there : ∀ x ∈ xs, ∃ y ∈ ys, E x y)
    (back : ∀ y ∈ ys, ∃ x ∈ xs, E x y) : (xs.map f).sum = (ys.map f).sum := by
  classical
  let p : α → Bool := fun x => decide (once x)
  have there' : ∀ x ∈ xs.filter p, ∃ y ∈ ys.filter p, E x y := by
    intro x mem
    obtain ⟨mem, first⟩ := List.mem_filter.mp mem
    obtain ⟨y, mem', tie⟩ := there x mem
    have first' : once y := keep x y tie (of_decide_eq_true first)
    exact ⟨y, List.mem_filter.mpr ⟨mem', decide_eq_true first'⟩, tie⟩
  have back' : ∀ y ∈ ys.filter p, ∃ x ∈ xs.filter p, E y x := by
    intro y mem
    obtain ⟨mem, first⟩ := List.mem_filter.mp mem
    obtain ⟨x, mem', tie⟩ := back y mem
    have tie' := symm _ _ tie
    have first' : once x := keep y x tie' (of_decide_eq_true first)
    exact ⟨x, List.mem_filter.mpr ⟨mem', decide_eq_true first'⟩, tie'⟩
  have alone : (xs.filter p).Pairwise fun x y => ¬ E x y :=
    List.pairwise_filter.mpr (apart.imp fun h first _ => h (of_decide_eq_true first))
  have alone' : (ys.filter p).Pairwise fun x y => ¬ E x y :=
    List.pairwise_filter.mpr (apart'.imp fun h first _ => h (of_decide_eq_true first))
  have length' : (xs.filter p).length = (ys.filter p).length :=
    le_antisymm (length_le_of_apart symm trans alone there')
      (length_le_of_apart symm trans alone' back')
  have first : ((xs.filter p).map f).sum = ((ys.filter p).map f).sum :=
    (Matching.of_apart symm trans alone length' there').sum_eq agree
  have split := List.filter_append_perm p xs
  have split' := List.filter_append_perm p ys
  have length'' : (xs.filter (! p ·)).length = (ys.filter (! p ·)).length := by
    have total := split.length_eq
    have total' := split'.length_eq
    rw [List.length_append] at total total'
    omega
  have second : ((xs.filter (! p ·)).map f).sum = ((ys.filter (! p ·)).map f).sum := by
    refine sum_eq_of_constant length'' (fun x mem y mem' => ?_) fun y mem => ?_
    · obtain ⟨mem, later⟩ := List.mem_filter.mp mem
      obtain ⟨mem', later'⟩ := List.mem_filter.mp mem'
      exact level x mem y mem' (by simpa [p] using later) (by simpa [p] using later')
    · obtain ⟨mem, later⟩ := List.mem_filter.mp mem
      obtain ⟨x, mem', tie⟩ := back y mem
      have late : ¬ once y := by simpa [p] using later
      have later' : ¬ once x := fun early => late (keep x y tie early)
      exact ⟨x, List.mem_filter.mpr ⟨mem', by simpa [p] using later'⟩, agree x y tie⟩
  rw [← (split.map f).sum_eq, ← (split'.map f).sum_eq, List.map_append, List.map_append,
    List.sum_append, List.sum_append, first, second]

end Apart

end ValueCore
