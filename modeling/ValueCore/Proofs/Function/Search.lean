import ValueCore.Proofs.Function.Alongside
/-!
# Searching with a function

The comparisons of a search are told by writing them down (`noted`).  That changes nothing else,
so the noted search and the plain one are run side by side, under one invariant of the window
(`Searched`).

* The window is at least halved by each probe, so there are at most as many probes as the number
  of elements has binary digits (`mostProbes`).
* A probe is at the middle of the window, and that is a position of the list.
* If the answers fall along the list, from positive ones through zeros to negative ones, all
  elements before the window compare above zero and all after it below (`Excluded`).

A search that ends at an element has compared it as zero.  A search that ends with an empty
window has excluded all elements.
-/

namespace ValueCore

open Eval

variable {σ : Type}

/-! ## Noted comparisons -/

/-- A comparison that is made and then written down. -/
def noted (compare : Comparison σ) : Comparison (σ × List (Value × Value)) := fun a b =>
  ExceptT.mk do
    let (s, log) ← get
    let (outcome, s') := Id.run ((compare a b).run.run s)
    set (s', log ++ [(a, b)])
    pure outcome

/-- The search that writes its comparisons down. -/
def Function.notedSearch (host : Host σ) (f : Function) (elements : List Value) (key : Value) :
    Eval (σ × List (Value × Value)) SearchResult :=
  searchWindow (noted (f.compareWith host)) elements.toArray key 0 elements.length (by simp)

theorem noted_run {compare : Comparison σ} {a b : Value} {s s' : σ} {c : Int}
    (ends : (compare a b).run.run s = (.ok c, s')) (log : List (Value × Value)) :
    (noted compare a b).run.run (s, log) = (.ok c, s', log ++ [(a, b)]) := by
  have noting : (noted compare a b).run.run (s, log) =
      (((compare a b).run.run s).1, ((compare a b).run.run s).2, log ++ [(a, b)]) := rfl
  rw [noting, ends]

/-! ## The number of probes -/

/-- The most probes of a search among `n` elements. -/
def mostProbes (n : Nat) : Nat := if n = 0 then 0 else n.log2 + 1

/-- A probe pays for the window that it leaves. -/
theorem mostProbes_lt {m n : Nat} (proper : 0 < n) (half : m ≤ n / 2) :
    mostProbes m < mostProbes n := by
  have some : n ≠ 0 := Nat.ne_of_gt proper
  simp only [mostProbes, some, if_false]
  split
  · exact Nat.succ_pos _
  · next nonempty =>
    have digits : n < 2 ^ (n.log2 + 1) := Nat.lt_log2_self
    rw [Nat.succ_lt_succ_iff, Nat.log2_lt nonempty]
    omega

/-! ## Excluded elements -/

/-- The signs of the answers fall along the list. -/
def Falling (answer : Value → Int) (elements : List Value) : Prop :=
  elements.Pairwise fun x y => (answer y).sign ≤ (answer x).sign

/-- All elements before `low` compare above zero and all from `high` on below it. -/
def Excluded (answer : Value → Int) (elements : List Value) (low high : Nat) : Prop :=
  (∀ e ∈ elements.take low, 0 < answer e) ∧ ∀ e ∈ elements.drop high, answer e < 0

/-- A result is right by the answers.  What is found compares as zero.  If the answers fall, a
key that is not found would go between the elements above zero and those below it. -/
def Located (answer : Value → Int) (elements : List Value) : SearchResult → Prop
  | .found i => ∃ inside : i < elements.length, answer elements[i] = 0
  | .insertAt i => i ≤ elements.length ∧ (Falling answer elements → Excluded answer elements i i)

section Excluded

variable {answer : Value → Int} {elements : List Value} {low high mid : Nat}

/-- With an element that compares below zero, all later ones are excluded. -/
theorem Excluded.below (h : Excluded answer elements low high) (falling : Falling answer elements)
    (inside : mid < elements.length) (below : answer elements[mid] < 0) :
    Excluded answer elements low mid := by
  refine ⟨h.1, ?_⟩
  have later : Falling answer (elements.drop mid) := falling.drop
  rw [List.drop_eq_getElem_cons inside] at later ⊢
  intro e mem
  rcases List.mem_cons.mp mem with rfl | after
  · exact below
  · have sign := List.rel_of_pairwise_cons later after
    rw [Int.sign_eq_neg_one_of_neg below] at sign
    exact Int.sign_neg_iff.mp (by omega)

/-- With an element that compares above zero, all earlier ones are excluded. -/
theorem Excluded.above (h : Excluded answer elements low high) (falling : Falling answer elements)
    (inside : mid < elements.length) (above : 0 < answer elements[mid]) :
    Excluded answer elements (mid + 1) high := by
  refine ⟨?_, h.2⟩
  have earlier : Falling answer (elements.take (mid + 1)) := falling.take
  rw [Falling, List.take_succ_eq_append_getElem inside, List.pairwise_append] at earlier
  rw [List.take_succ_eq_append_getElem inside]
  intro e mem
  rcases List.mem_append.mp mem with before | here
  · have sign := earlier.2.2 e before _ (List.mem_singleton_self _)
    rw [Int.sign_eq_one_of_pos above] at sign
    exact Int.sign_pos_iff.mp (by omega)
  · rw [List.mem_singleton.mp here]
    exact above

/-- If the answers fall, a key is found just if an element compares as zero. -/
theorem Located.found_iff {result : SearchResult} (located : Located answer elements result)
    (falling : Falling answer elements) :
    (∃ i, result = .found i) ↔ ∃ e ∈ elements, answer e = 0 := by
  cases result with
  | found i =>
    obtain ⟨inside, zero⟩ := located
    exact ⟨fun _ => ⟨elements[i], List.getElem_mem inside, zero⟩, fun _ => ⟨i, rfl⟩⟩
  | insertAt i =>
    have excluded := located.2 falling
    constructor
    · rintro ⟨_, found⟩
      cases found
    · rintro ⟨e, mem, zero⟩
      rw [← List.take_append_drop i elements] at mem
      rcases List.mem_append.mp mem with before | after
      · have above := excluded.1 e before
        omega
      · have below := excluded.2 e after
        omega

end Excluded

/-! ## The search -/

/-- A noted search and a plain one are in one state.  What is written down are comparisons of the
key with elements, and `spare` more may come. -/
structure Searched (I : σ → Prop) (elements : List Value) (key : Value) (spare : Nat)
    (noting : σ × List (Value × Value)) (plain : σ) : Prop where
  state : noting.1 = plain
  kept : I plain
  probes : ∃ probes : List (Fin elements.length),
    noting.2 = (probes.map fun i => (key, elements[i])) ∧
      probes.length + spare ≤ mostProbes elements.length

section Search

variable {I : σ → Prop} {answer : Value → Int} {elements : List Value} {key : Value} {s : σ}

/-- One more probe uses up some of what is spare. -/
theorem Searched.probe {spare fewer mid : Nat} {noting : σ × List (Value × Value)} {s' : σ}
    (h : Searched I elements key spare noting s) (fewer_lt : fewer < spare)
    (inside : mid < elements.length) (kept : I s') :
    Searched I elements key fewer (s', noting.2 ++ [(key, elements[mid])]) s' := by
  obtain ⟨probes, log, most⟩ := h.probes
  refine ⟨rfl, kept, probes ++ [⟨mid, inside⟩], by simp [log], ?_⟩
  rw [List.length_append, List.length_singleton]
  omega

/-- A noted search and a plain one end alike, with few probes and a right result. -/
theorem searchWindow_located {compare : Comparison σ}
    (answers : ∀ e ∈ elements, ∀ s, I s →
      (compare key e).Yields s fun c s' => I s' ∧ c = answer e) (hs : I s) :
    YieldsBoth
      (searchWindow (noted compare) elements.toArray key 0 elements.toArray.size (Nat.le_refl _))
      (searchWindow compare elements.toArray key 0 elements.toArray.size (Nat.le_refl _)) (s, []) s
      fun result noting result' plain => result = result' ∧
        Searched I elements key 0 noting plain ∧ Located answer elements result := by
  -- The invariant: what halving the window takes is spare, and all outside it is excluded.
  apply searchWindow_yieldsBoth (P := fun low high noting plain =>
    Searched I elements key (mostProbes (high - low)) noting plain ∧
      (Falling answer elements → Excluded answer elements low high))
  · rintro low high mid ⟨s₀, log⟩ plain inside proper middle bound ⟨searched, excluded⟩
    obtain rfl : s₀ = plain := searched.state
    rw [List.size_toArray] at inside
    rw [List.getElem_toArray]
    obtain ⟨c, s', ends, kept, rfl⟩ :=
      answers elements[mid] (List.getElem_mem inside) s₀ searched.kept
    have probed : ∀ rest ≤ (high - low) / 2,
        Searched I elements key (mostProbes rest) (s', log ++ [(key, elements[mid])]) s' :=
      fun rest half => searched.probe (mostProbes_lt (by omega) half) inside kept
    refine ⟨_, _, _, _, noted_run ends log, ends, rfl, fun below => ⟨?_, ?_⟩,
      fun above => ⟨?_, ?_⟩, fun zero => ⟨?_, ?_⟩⟩
    · exact probed (mid - low) (by omega)
    · exact fun falling => (excluded falling).below falling inside below
    · exact probed (high - (mid + 1)) (by omega)
    · exact fun falling => (excluded falling).above falling inside above
    · exact probed 0 (by omega)
    · exact ⟨inside, zero⟩
  · rintro low noting plain bound ⟨searched, excluded⟩
    rw [Nat.sub_self] at searched
    rw [List.size_toArray] at bound
    exact ⟨searched, bound, excluded⟩
  · exact Nat.zero_le _
  · refine ⟨⟨rfl, hs, [], rfl, ?_⟩, fun _ => ?_⟩
    · simp
    · simp [Excluded]

/-- A search among elements that a function always compares alike comes to a result.  It probes
positions of the list alone, and at most one more than the binary logarithm of their number.  What
it finds compares as zero.  If the answers fall along the list, it finds something just if there
is something to find, and else gives the place where the answers change their sign. -/
theorem Function.search_locates (host : Host σ) (f : Function)
    (answers : ∀ e ∈ elements, ∀ s, I s →
      (f.compareWith host key e).Yields s fun c s' => I s' ∧ c = answer e) (hs : I s) :
    ∃ (result : SearchResult) (s' : σ) (probes : List (Fin elements.length)),
      (f.search host elements key).run.run s = (.ok result, s') ∧ I s' ∧
        (f.notedSearch host elements key).run.run (s, []) =
          (.ok result, s', probes.map fun i => (key, elements[i])) ∧
        probes.length ≤ mostProbes elements.length ∧
        (∀ i, result = .found i → ∃ inside : i < elements.length, answer elements[i] = 0) ∧
        (∀ i, result = .insertAt i → i ≤ elements.length) ∧
        (Falling answer elements →
          ((∃ i, result = .found i) ↔ ∃ e ∈ elements, answer e = 0) ∧
            ∀ i, result = .insertAt i → (∀ e ∈ elements.take i, 0 < answer e) ∧
              ∀ e ∈ elements.drop i, answer e < 0) := by
  obtain ⟨_, ⟨_, _⟩, result, s', noting, plain, rfl, searched, located⟩ :=
    searchWindow_located answers hs
  obtain ⟨rfl, kept, probes, rfl, most⟩ := searched
  refine ⟨_, _, probes, plain, kept, noting, most, ?_, ?_, fun falling => ⟨?_, ?_⟩⟩
  · rintro i rfl
    exact located
  · rintro i rfl
    exact located.1
  · exact located.found_iff falling
  · rintro i rfl
    exact located.2 falling

/-- Whether the first of two numbers is below the second. -/
def numberBelow : Value → Value → Bool
  | .num x, .num y => x.compare y < 0
  | _, _ => false

/-- Among five numbers, a key between the second and the third would go between them. -/
theorem Function.search_locates_between :
    let host := countingHost fun _ a b => .bool (numberBelow a b)
    let elements : List Value := [.int 1, .int 3, .int 5, .int 7, .int 9]
    ∃ (s' : Nat) (probes : List (Fin 5)),
      ((Function.binary 0).search host elements (.int 4)).run.run 0 = (.ok (.insertAt 2), s') ∧
        probes.length ≤ 3 ∧
        ((Function.binary 0).notedSearch host elements (.int 4)).run.run (0, []) =
          (.ok (.insertAt 2), s', probes.map fun i => (.int 4, elements[i])) := by
  intro host elements
  let answer : Value → Int := fun e => if numberBelow (.int 4) e then -1 else 1
  have answers : ∀ e ∈ elements, ∀ s : Nat, True →
      ((Function.binary 0).compareWith host (.int 4) e).Yields s fun c _ => True ∧ c = answer e := by
    intro e mem s _
    simp only [elements, List.mem_cons, List.not_mem_nil, or_false] at mem
    rcases mem with rfl | rfl | rfl | rfl | rfl
    all_goals exact ⟨_, _, rfl, trivial, by decide +kernel⟩
  have falling : Falling answer elements := by
    simp only [Falling, answer]
    decide +kernel
  have three : mostProbes elements.length = 3 := by decide
  have missing : ¬ ∃ e ∈ elements, answer e = 0 := by decide +kernel
  have between : ∀ i ≤ 5, (∀ e ∈ elements.take i, 0 < answer e) →
      (∀ e ∈ elements.drop i, answer e < 0) → i = 2 := by decide +kernel
  obtain ⟨result, s', probes, plain, -, noting, most, -, bound, located⟩ :=
    Function.search_locates (I := fun _ => True) host (Function.binary 0) answers (s := 0) trivial
  obtain ⟨found, gap⟩ := located falling
  cases result with
  | found i => exact absurd (found.mp ⟨i, rfl⟩) missing
  | insertAt i =>
    obtain ⟨before, after⟩ := gap i rfl
    obtain rfl := between i (bound i rfl) before after
    rw [three] at most
    exact ⟨s', probes, plain, most, noting⟩

end Search

end ValueCore
