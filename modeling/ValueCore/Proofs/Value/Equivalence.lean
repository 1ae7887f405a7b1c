import ValueCore.Proofs.Value.Alike
import ValueCore.Proofs.Value.Search
import ValueCore.Value.Draft
/-!
# Equivalence is a partial equivalence relation

In a layout of a memory two values are equivalent if they are identical or `Alike`, up to
the children that meet in their spots (`equivSharing_iff_of_level`).  In this form nothing is
left of the look-ups.  A search through two maps of one size goes one way only, but it uses the
second map up, since no two keys of the first meet and so no key is found twice.

The argument needs of the children what it shows of the values: equivalence is symmetric
and transitive and agrees with the value hash.  The three are one structure `Lawful`.  It
passes from the children to the values (`Lawful.step`), and so by induction on the size to
all formed values (`lawful_formedIn`).  There is no reflexivity among them, as a NaN is not
equivalent to itself.

Children in one place meet, NaN or not.  So what is carried through the induction is a relation
of children with their spots (`Linked`).  It is symmetric and transitive because one place is
one value and because places are an equivalence relation.

`equiv` is the case of values in no place, where only clones share the places of their elements
(`Layout.own`).
-/

namespace ValueCore.Value

/-! ## Formed values -/

/-- No key of a map and no element of a set is equivalent to a later one. -/
def DistinctIn (same : Places) (v : Value) : Prop :=
  v.keys.Pairwise fun x y => equivSharing same x y = false

/-- The same where only clones share places. -/
def Distinct (v : Value) : Prop := v.keys.Pairwise fun x y => equiv x y = false

instance (v : Value) : Decidable v.Distinct :=
  inferInstanceAs (Decidable (v.keys.Pairwise fun x y => equiv x y = false))

/-- What equivalence needs of a value if it is already understood on the children, which
are those with `P`. -/
structure Level {μ : Memory} (L : Layout μ) (P : Value → Prop) (v : Value) : Prop where
  held : μ.holds v
  distinct : v.DistinctIn L.same
  plain : v.Plain
  children : ∀ x ∈ v.children, P x

/-- A value of a memory, made as tables make it in a layout, in which all host objects are
sequences. -/
def FormedIn {μ : Memory} (L : Layout μ) : Value → Prop :=
  Everywhere fun u => μ.holds u ∧ u.DistinctIn L.same ∧ u.Plain

/-- A value that is formed where only clones share places. -/
def Formed (μ : Memory) : Value → Prop :=
  Everywhere fun u => μ.holds u ∧ u.Distinct ∧ u.Plain

theorem formedIn_own {μ : Memory} {v : Value} : FormedIn (Layout.own μ) v ↔ Formed μ v :=
  Iff.rfl

theorem FormedIn.level {μ : Memory} {L : Layout μ} {v : Value} (h : FormedIn L v) :
    Level L (FormedIn L) v :=
  ⟨h.here.1, h.here.2.1, h.here.2.2, fun _ mem => h.child mem⟩

theorem FormedIn.contains {μ : Memory} {L : Layout μ} {v : Value} (h : FormedIn L v) :
    μ.Contains v :=
  h.mono fun _ conditions => conditions.1

theorem Formed.level {μ : Memory} {v : Value} (h : Formed μ v) :
    Level (Layout.own μ) (Formed μ) v :=
  FormedIn.level (formedIn_own.mpr h)

theorem Formed.distinct {μ : Memory} {v : Value} (h : Formed μ v) : v.Distinct := h.here.2.1

theorem Formed.contains {μ : Memory} {v : Value} (h : Formed μ v) : μ.Contains v :=
  h.mono fun _ conditions => conditions.1

theorem formed_num {μ : Memory} {n : Number} : Formed μ (.num n) ↔ μ.holds (.num n) := by
  rw [Formed, everywhere_num]
  exact and_iff_left ⟨List.Pairwise.nil, trivial⟩

theorem formed_seq {μ : Memory} {f : SeqForm} {i : Nat} {xs : List Value}
    {m : Option Metadata} :
    Formed μ (.seq f i xs m) ↔ μ.holds (.seq f i xs m) ∧ ∀ x ∈ xs, Formed μ x := by
  rw [Formed, everywhere_seq]
  exact and_congr_left' (and_iff_left ⟨List.Pairwise.nil, trivial⟩)

theorem formed_map {μ : Memory} {i : Nat} {es : List (Value × Value)} {m : Option Metadata} :
    Formed μ (.map i es m) ↔ (μ.holds (.map i es m) ∧ Distinct (.map i es m)) ∧
      ∀ e ∈ es, Formed μ e.1 ∧ Formed μ e.2 := by
  rw [Formed, everywhere_map]
  exact and_congr_left' (and_congr_right' (and_iff_left trivial))

theorem formed_set {μ : Memory} {i : Nat} {xs : List Value} {m : Option Metadata} :
    Formed μ (.set i xs m) ↔
      (μ.holds (.set i xs m) ∧ Distinct (.set i xs m)) ∧ ∀ x ∈ xs, Formed μ x := by
  rw [Formed, everywhere_set]
  exact and_congr_left' (and_congr_right' (and_iff_left trivial))

/-! ## Laws below a level -/

/-- Equivalence is symmetric and transitive and agrees with the value hash. -/
structure Lawful (same : Places) (P : Value → Prop) : Prop where
  symm : ∀ {x y}, P x → P y → equivSharing same x y = true → equivSharing same y x = true
  trans : ∀ {x y z}, P x → P y → P z → equivSharing same x y = true →
    equivSharing same y z = true → equivSharing same x z = true
  hashEq_eq : ∀ {x y}, P x → P y → equivSharing same x y = true → x.hashEq = y.hashEq

/-- Two children have `P` and are equivalent as they lie. -/
def Linked {μ : Memory} (L : Layout μ) (P : Value → Prop) (x y : Placed) : Prop :=
  (μ.Lies x ∧ P x.2) ∧ (μ.Lies y ∧ P y.2) ∧ Meets L.same x y

section Laws

variable {μ : Memory} {L : Layout μ} {P : Value → Prop} {a b c : Value}

section Linked

variable {x y z : Placed}

/-- Linked children are in one place, and then one value, or they are equivalent. -/
theorem Linked.cases (h : Linked L P x y) :
    (L.same.meet x.1 y.1 = true ∧ x.2 = y.2) ∨ equivSharing L.same x.2 y.2 = true := by
  obtain ⟨⟨lx, -⟩, ⟨ly, -⟩, meets⟩ := h
  rcases Bool.or_eq_true_iff.mp meets with place | tie
  · exact Or.inl ⟨place, Layout.eq_of_meet lx ly place⟩
  · exact Or.inr tie

theorem Linked.symm (lawful : Lawful L.same P) (h : Linked L P x y) : Linked L P y x := by
  refine ⟨h.2.1, h.1, ?_⟩
  rcases h.cases with ⟨place, -⟩ | tie
  · exact meets_of_meet (Layout.meet_symm place)
  · exact meets_of_equivSharing (lawful.symm h.1.2 h.2.1.2 tie)

theorem Linked.trans (lawful : Lawful L.same P) (h : Linked L P x y) (h' : Linked L P y z) :
    Linked L P x z := by
  refine ⟨h.1, h'.2.1, ?_⟩
  rcases h.cases with ⟨place, one⟩ | tie
  · rcases h'.cases with ⟨place', -⟩ | tie'
    · exact meets_of_meet (Layout.meet_trans place place')
    · exact meets_of_equivSharing (by rwa [one])
  · refine meets_of_equivSharing ?_
    rcases h'.cases with ⟨-, one⟩ | tie'
    · rwa [← one]
    · exact lawful.trans h.1.2 h.2.1.2 h'.2.1.2 tie tie'

theorem Linked.hashEq_eq (lawful : Lawful L.same P) (h : Linked L P x y) :
    x.2.hashEq = y.2.hashEq := by
  rcases h.cases with ⟨-, one⟩ | tie
  · rw [one]
  · exact lawful.hashEq_eq h.1.2 h.2.1.2 tie

/-- Children that meet are linked. -/
theorem linked_of_meets (la : Level L P a) (lb : Level L P b) (hx : a.HasChild x)
    (hy : b.HasChild y) (h : Meets L.same x y) : Linked L P x y :=
  ⟨⟨hx.lies la.held, la.children _ hx.1⟩, ⟨hy.lies lb.held, lb.children _ hy.1⟩, h⟩

/-- The keys of a table are not linked with one another. -/
theorem Level.pairwise_keys (level : Level L P a) {home : Allocation} (table : home.IsTable) :
    (placed (some home) 0 a.keys).Pairwise fun x y => ¬ Linked L P x y := by
  refine pairwise_placed level.distinct fun lt apart linked => ?_
  rcases linked.cases with ⟨place, -⟩ | tie
  · exact absurd (L.once table place) (Nat.ne_of_lt lt)
  · rw [apart] at tie
    cases tie

/-- Nor are the entries of a map. -/
theorem Level.pairwise_entries {i : Nat} {es : List (Value × Value)} {m : Option Metadata}
    (level : Level L P (.map i es m)) :
    (placedEntries (some (.map i)) 0 es).Pairwise fun e e' => ¬ Linked L P e.1 e'.1 := by
  have keys := level.pairwise_keys (show (Allocation.map i).IsTable from trivial)
  rw [Value.keys, ← map_fst_placedEntries] at keys
  exact List.pairwise_map.mp keys

end Linked

/-! ## From equivalence to likeness -/

/-- Nothing but a leaf is equivalent to a leaf, and only by content. -/
theorem equals_of_leafEquiv (plain : b.Plain) (h : leafEquiv a b = true) :
    equals a b = true := by
  cases b with
  | object i facets items alikes =>
    obtain ⟨_, n, coll⟩ := plain
    simp [leafEquiv, coll] at h
  | _ => exact h

theorem alike_of_elementsEquiv {xs ys : List Value} (la : Level L P a) (lb : Level L P b)
    (ha : a.elements? = some xs) (hb : b.elements? = some ys)
    (h : elementsEquiv L.same a.home? 0 xs (placed b.home? 0 ys) = true) :
    Alike (Linked L P) a b :=
  .seq ha hb (forall₂_of_mem (elementsEquiv_iff.mp h) fun _ hx _ hy meets =>
    linked_of_meets la lb (hasChild_of_elements ha hx) (hasChild_of_elements hb hy) meets)

theorem alike_of_membersEquiv {i j : Nat} {xs ys : List Value} {m m' : Option Metadata}
    (lawful : Lawful L.same P) (la : Level L P (.set i xs m)) (lb : Level L P (.set j ys m'))
    (length : xs.length = ys.length)
    (h : membersEquiv L.same (some (.set i)) 0 xs (placed (some (.set j)) 0 ys) = true) :
    Alike (Linked L P) (.set i xs m) (.set j ys m') := by
  refine .set (.of_apart (fun _ _ tie => tie.symm lawful)
    (fun _ _ _ tie tie' => tie.trans lawful tie') (la.pairwise_keys trivial) ?_ fun x hx => ?_)
  · rw [length_placed, length_placed, length]
  · obtain ⟨y, hy, -, meets⟩ := membersEquiv_iff.mp h x hx
    exact ⟨y, hy, linked_of_meets la lb (hasChild_of_members hx) (hasChild_of_members hy) meets⟩

theorem alike_of_entriesEquiv {i j : Nat} {xs ys : List (Value × Value)}
    {m m' : Option Metadata} (lawful : Lawful L.same P) (la : Level L P (.map i xs m))
    (lb : Level L P (.map j ys m')) (length : xs.length = ys.length)
    (h : entriesEquiv L.same (some (.map i)) 0 xs (placedEntries (some (.map j)) 0 ys) = true) :
    Alike (Linked L P) (.map i xs m) (.map j ys m') := by
  refine .map (.of_apart (fun _ _ both => ⟨both.1.symm lawful, both.2.symm lawful⟩)
    (fun _ _ _ both both' => ⟨both.1.trans lawful both'.1, both.2.trans lawful both'.2⟩)
    (la.pairwise_entries.imp fun apart both => apart both.1) ?_ fun e he => ?_)
  · rw [length_placedEntries, length_placedEntries, length]
  · obtain ⟨y, hy, key, val⟩ := (entriesEquiv_iff.mp h e he).exists_meets
    have left := hasChild_of_entries (m := m) he
    have right := hasChild_of_entries (m := m') hy
    exact ⟨y, hy, linked_of_meets la lb left.1 right.1 key,
      linked_of_meets la lb left.2 right.2 val⟩

/-- Equivalent values are identical or alike. -/
theorem alike_of_equivSharing (lawful : Lawful L.same P) (la : Level L P a) (lb : Level L P b)
    (h : equivSharing L.same a b = true) : identical a b = true ∨ Alike (Linked L P) a b := by
  rw [equivSharing, Bool.or_eq_true] at h
  rcases h with ident | h
  · exact Or.inl ident
  rw [dispatchEquiv] at h
  cases a with
  | nil =>
    cases b with
    | nil => exact Or.inl rfl
    | _ => cases h
  | num x =>
    cases b with
    | num y => exact Or.inr (.num h)
    | _ => exact absurd (equals_of_leafEquiv lb.plain h) (by simp [equals, identical])
  | seq f i xs m =>
    simp only [dispatch, structuralEquiv] at h
    cases hb : b.elements? with
    | none => simp [hb] at h
    | some ys =>
      rw [hb] at h
      exact Or.inr (alike_of_elementsEquiv la lb rfl hb h)
  | map i xs m =>
    cases b with
    | map j ys m' =>
      simp only [dispatch, structuralEquiv, Bool.and_eq_true, beq_iff_eq] at h
      exact Or.inr (alike_of_entriesEquiv lawful la lb h.1 h.2)
    | _ => cases h
  | set i xs m =>
    cases b with
    | set j ys m' =>
      simp only [dispatch, structuralEquiv, Bool.and_eq_true, beq_iff_eq] at h
      exact Or.inr (alike_of_membersEquiv lawful la lb h.1 h.2)
    | _ => cases h
  | object i facets xs alikes =>
    obtain ⟨-, n, coll⟩ := la.plain
    simp only [dispatch, structuralEquiv, coll] at h
    cases hb : b.elements? with
    | none => simp [hb] at h
    | some ys =>
      rw [hb] at h
      have ha : (Value.object i facets xs alikes).elements? = some xs := by
        simp [elements?, coll]
      exact Or.inr (alike_of_elementsEquiv la lb ha hb h)
  | bool x =>
    have eq := equals_of_leafEquiv lb.plain h
    cases b <;> simp_all [equals, identical]
  | char x =>
    have eq := equals_of_leafEquiv lb.plain h
    cases b with
    | char y =>
      obtain rfl : x = y := by simpa [equals, identical] using eq
      exact Or.inr .char
    | _ => simp [equals, identical] at eq
  | str i x =>
    have eq := equals_of_leafEquiv lb.plain h
    cases b with
    | str j y =>
      rw [equals, Bool.or_eq_true, beq_iff_eq] at eq
      rcases eq with ident | rfl
      · exact Or.inl ident
      · exact Or.inr .str
    | _ => simp [equals, identical] at eq
  | sym x =>
    have eq := equals_of_leafEquiv lb.plain h
    cases b with
    | sym y =>
      obtain rfl : x = y := by simpa [equals, identical] using eq
      exact Or.inr .sym
    | _ => simp [equals, identical] at eq
  | kw k =>
    have eq := equals_of_leafEquiv lb.plain h
    cases b <;> simp_all [equals, identical]
  | fn f =>
    have eq := equals_of_leafEquiv lb.plain h
    cases b <;> simp_all [equals, identical]

/-! ## From likeness to equivalence -/

theorem membersEquiv_of_matching {home : Option Allocation} (lawful : Lawful L.same P)
    {xs : List Value} {ys : List Placed} (h : Matching (Linked L P) (placed home 0 xs) ys) :
    membersEquiv L.same home 0 xs ys = true := by
  refine membersEquiv_iff.mpr fun x hx => ?_
  obtain ⟨y, hy, tie⟩ := h.exists_right hx
  exact ⟨y, hy, tie.hashEq_eq lawful, tie.2.2⟩

/-- The first key that is found is the right one, since all that are found are linked. -/
theorem entriesEquiv_of_matching {i j : Nat} {xs ys : List (Value × Value)}
    {m m' : Option Metadata} (lawful : Lawful L.same P) (la : Level L P (.map i xs m))
    (lb : Level L P (.map j ys m'))
    (h : Matching (Entrywise (Linked L P)) (placedEntries (some (.map i)) 0 xs)
      (placedEntries (some (.map j)) 0 ys)) :
    entriesEquiv L.same (some (.map i)) 0 xs (placedEntries (some (.map j)) 0 ys) = true := by
  refine entriesEquiv_iff.mpr fun e he => ?_
  obtain ⟨y, hy, key, val⟩ := h.exists_right he
  refine findsEntry_of_unique hy (key.hashEq_eq lawful) key.2.2 val.2.2 fun y' hy' meets => ?_
  have key' : Linked L P e.1 y'.1 := linked_of_meets la lb (hasChild_of_entries he).1
    (hasChild_of_entries hy').1 meets
  have turn : ∀ d d' : Placed × Placed, Linked L P d.1 d'.1 → Linked L P d'.1 d.1 :=
    fun _ _ tie => tie.symm lawful
  exact eq_of_apart turn lb.pairwise_entries hy' hy ((key'.symm lawful).trans lawful key)

/-- What is alike is equivalent by kind and structure. -/
theorem dispatchEquiv_of_alike (lawful : Lawful L.same P) (la : Level L P a) (lb : Level L P b)
    (h : Alike (Linked L P) a b) : dispatchEquiv L.same a b = true := by
  rw [dispatchEquiv]
  cases h with
  | num h => exact h
  | char => simp [dispatch, structuralEquiv, leafEquiv, equals]
  | str => simp [dispatch, structuralEquiv, leafEquiv, equals]
  | sym => simp [dispatch, structuralEquiv, leafEquiv, equals]
  | map h =>
    have length := h.length_eq
    rw [length_placedEntries, length_placedEntries] at length
    simp only [dispatch, structuralEquiv, Bool.and_eq_true, beq_iff_eq]
    exact ⟨length, entriesEquiv_of_matching lawful la lb h⟩
  | set h =>
    have length := h.length_eq
    rw [length_placed, length_placed] at length
    simp only [dispatch, structuralEquiv, Bool.and_eq_true, beq_iff_eq]
    exact ⟨length, membersEquiv_of_matching lawful h⟩
  | seq ha hb h =>
    have meets := elementsEquiv_iff.mpr (h.imp fun _ _ tie => tie.2.2)
    cases a with
    | seq f i xs m =>
      cases ha
      simp only [dispatch, structuralEquiv, hb]
      exact meets
    | object i facets xs alikes =>
      obtain ⟨-, n, coll⟩ := la.plain
      have xs_eq := children_of_elements ha
      simp only [dispatch, structuralEquiv, coll, hb]
      rw [show xs = _ from xs_eq]
      exact meets
    | _ => cases ha

/-- Equivalence is identity or likeness, one level down. -/
theorem equivSharing_iff_of_level (lawful : Lawful L.same P) (la : Level L P a)
    (lb : Level L P b) :
    equivSharing L.same a b = true ↔ identical a b = true ∨ Alike (Linked L P) a b := by
  constructor
  · exact alike_of_equivSharing lawful la lb
  · rintro (ident | alike)
    · rw [equivSharing, ident, Bool.true_or]
    · rw [equivSharing, dispatchEquiv_of_alike lawful la lb alike, Bool.or_true]

/-! ## The laws of equivalence -/

/-- If the laws hold of the children, they hold of the values. -/
theorem Lawful.step (lawful : Lawful L.same P) : Lawful L.same (Level L P) where
  symm {x y} lx ly h := by
    refine (equivSharing_iff_of_level lawful ly lx).mpr ?_
    rcases (equivSharing_iff_of_level lawful lx ly).mp h with ident | alike
    · exact Or.inl (μ.identical_symm lx.held ly.held ident)
    · exact Or.inr (alike.symm fun _ _ tie => tie.symm lawful)
  trans {x y z} lx ly lz h h' := by
    rcases (equivSharing_iff_of_level lawful lx ly).mp h with ident | alike
    · rw [(μ.twin lx.held ly.held ident).equivSharing_left]
      exact h'
    rcases (equivSharing_iff_of_level lawful ly lz).mp h' with ident | alike'
    · rw [← (μ.twin ly.held lz.held ident).equivSharing_right]
      exact h
    exact (equivSharing_iff_of_level lawful lx lz).mpr
      (Or.inr (alike.trans (fun _ _ _ tie tie' => tie.trans lawful tie') alike'))
  hashEq_eq {x y} lx ly h := by
    rcases (equivSharing_iff_of_level lawful lx ly).mp h with ident | alike
    · exact (μ.twin lx.held ly.held ident).hashEq_eq
    · exact alike.hashEq_eq (fun _ _ tie => tie.hashEq_eq lawful) lx.plain ly.plain

theorem Lawful.mono {same : Places} {P Q : Value → Prop} (lawful : Lawful same Q)
    (imp : ∀ {x}, P x → Q x) : Lawful same P where
  symm px py h := lawful.symm (imp px) (imp py) h
  trans px py pz h h' := lawful.trans (imp px) (imp py) (imp pz) h h'
  hashEq_eq px py h := lawful.hashEq_eq (imp px) (imp py) h

theorem lawful_below (L : Layout μ) (n : Nat) :
    Lawful L.same fun v => FormedIn L v ∧ sizeOf v < n := by
  induction n with
  | zero =>
    refine ⟨?_, ?_, ?_⟩
    · rintro x y ⟨-, small⟩
      cases small
    · rintro x y z ⟨-, small⟩
      cases small
    · rintro x y ⟨-, small⟩
      cases small
  | succ n ih =>
    refine (Lawful.step ih).mono ?_
    rintro x ⟨formed, small⟩
    have level := formed.level
    refine ⟨level.held, level.distinct, level.plain, fun y mem => ⟨level.children y mem, ?_⟩⟩
    have below := sizeOf_lt_of_mem_children mem
    omega

/-- Equivalence of the values of a memory is symmetric and transitive and agrees with the
value hash, in every layout. -/
theorem lawful_formedIn (L : Layout μ) : Lawful L.same (FormedIn L) := by
  refine ⟨?_, ?_, ?_⟩
  · intro x y fx fy h
    exact (lawful_below L (sizeOf x + sizeOf y + 1)).symm ⟨fx, by omega⟩ ⟨fy, by omega⟩ h
  · intro x y z fx fy fz h h'
    exact (lawful_below L (sizeOf x + sizeOf y + sizeOf z + 1)).trans
      ⟨fx, by omega⟩ ⟨fy, by omega⟩ ⟨fz, by omega⟩ h h'
  · intro x y fx fy h
    exact (lawful_below L (sizeOf x + sizeOf y + 1)).hashEq_eq ⟨fx, by omega⟩
      ⟨fy, by omega⟩ h

/-- The same where only clones share places. -/
theorem lawful_formed (μ : Memory) : Lawful Places.own (Formed μ) :=
  lawful_formedIn (Layout.own μ)

/-- Equivalent values are equivalent to the same values, on either side. -/
theorem equiv_congr (ha : Formed μ a) (hb : Formed μ b) (hc : Formed μ c)
    (h : equiv a b = true) : equiv a c = equiv b c ∧ equiv c a = equiv c b := by
  have laws := lawful_formed μ
  have back : equiv b a = true := laws.symm ha hb h
  refine ⟨Bool.eq_iff_iff.mpr ⟨?_, ?_⟩, Bool.eq_iff_iff.mpr ⟨?_, ?_⟩⟩
  · exact laws.trans hb ha hc back
  · exact laws.trans ha hb hc h
  · exact fun tie => laws.trans hc ha hb tie h
  · exact fun tie => laws.trans hc hb ha tie back

/-- Two values have `P` and are equivalent. -/
def Related (P : Value → Prop) (x y : Value) : Prop := P x ∧ P y ∧ equiv x y = true

/-- The keys of a table are not related with one another. -/
theorem Distinct.apart (distinct : a.Distinct) :
    a.keys.Pairwise fun x y => ¬ Related P x y :=
  distinct.imp fun apart tie => absurd (tie.2.2.symm.trans apart) (by decide)

theorem Related.symm {x y : Value} (h : Related (Formed μ) x y) : Related (Formed μ) y x :=
  ⟨h.2.1, h.1, (lawful_formed μ).symm h.1 h.2.1 h.2.2⟩

theorem Related.trans {x y z : Value} (h : Related (Formed μ) x y) (h' : Related (Formed μ) y z) :
    Related (Formed μ) x z :=
  ⟨h.1, h'.2.1, (lawful_formed μ).trans h.1 h.2.1 h'.2.1 h.2.2 h'.2.2⟩

/-- Related children are linked. -/
theorem linked_of_related (ha : Formed μ a) (hb : Formed μ b)
    (h : Alike (fun x y => Related (Formed μ) x.2 y.2) a b) :
    Alike (Linked (Layout.own μ) (Formed μ)) a b :=
  h.of_hasChild fun _ _ hx hy tie =>
    linked_of_meets ha.level hb.level hx hy (meets_of_equivSharing tie.2.2)

/-- Two formed values are equivalent if they are identical or alike. -/
theorem equiv_iff (ha : Formed μ a) (hb : Formed μ b) :
    equiv a b = true ↔
      identical a b = true ∨ Alike (Linked (Layout.own μ) (Formed μ)) a b :=
  equivSharing_iff_of_level (lawful_formed μ) ha.level hb.level

/-- Equivalent values have one value hash, whatever places they share, at any depth and as a
whole, and NaNs in them included. -/
theorem hashEq_eq_of_equiv {L : Layout μ} (ha : FormedIn L a) (hb : FormedIn L b)
    {s t : Option Spot} (place : L.same.meet s t = true → a = b)
    (h : equivAt L.same s t a b = true) : a.hashEq = b.hashEq := by
  rcases Bool.or_eq_true_iff.mp h with here | tie
  · rw [place here]
  · exact (lawful_formedIn L).hashEq_eq ha hb tie

/-- Two sets in different orders, with the numbers in other representations.  Each holds the
elements of one sequence, a NaN among them, here in a list and there in a vector. -/
theorem hashEq_eq_of_equiv_sets :
    let nan : Value := .float ⟨0x7ff8000000000000⟩
    let a : Value := .set 0 [.int 1, .vector 1 [.list 2 [nan, .int 2]]] none
    let b : Value :=
      .set 3 [.list 4 [.vector 2 [nan, .int 2]], .float ⟨0x3ff0000000000000⟩] none
    equiv a b = true ∧ a.hashEq = b.hashEq := by
  intro nan a b
  let vs : List Value := [a, .vector 1 [.list 2 [nan, .int 2]], .list 2 [nan, .int 2], b,
    .list 4 [.vector 2 [nan, .int 2]]]
  let ν : Memory := .ofList vs (by decide) (by simp [vs, a, b, list, vector])
  let μ : Memory := ν.withKin
  have listed : ∀ v ∈ vs, μ.holds v := fun v mem => ⟨v, .inr mem, .same⟩
  have turned : μ.holds (.vector 2 [nan, .int 2]) :=
    ⟨.list 2 [nan, .int 2], .inr (by simp [vs]), .seq⟩
  have number : ∀ n, Memory.Direct (.num n) → Formed μ (.num n) := fun n direct =>
    formed_num.mpr ⟨.num n, .inl direct, .same⟩
  have items : ∀ x ∈ [nan, .int 2], Formed μ x := by
    simpa using ⟨number (.float _) trivial, number (.int 2) trivial⟩
  have left : Formed μ (.vector 1 [.list 2 [nan, .int 2]]) :=
    formed_seq.mpr ⟨listed _ (by simp [vs, vector]),
      List.forall_mem_singleton.mpr (formed_seq.mpr ⟨listed _ (by simp [vs, list]), items⟩)⟩
  have right : Formed μ (.list 4 [.vector 2 [nan, .int 2]]) :=
    formed_seq.mpr ⟨listed _ (by simp [vs, list]),
      List.forall_mem_singleton.mpr (formed_seq.mpr ⟨turned, items⟩)⟩
  have distinct : a.Distinct ∧ b.Distinct := by decide +kernel
  have ha : Formed μ a := formed_set.mpr
    ⟨⟨listed a (by simp [vs]), distinct.1⟩, by simpa using ⟨number (.int 1) trivial, left⟩⟩
  have hb : Formed μ b := formed_set.mpr
    ⟨⟨listed b (by simp [vs]), distinct.2⟩, by simpa using ⟨right, number (.float _) trivial⟩⟩
  have same : equiv a b = true := by decide +kernel
  exact ⟨same, hashEq_eq_of_equiv (L := .own μ) (s := none) (t := none) ha hb
    (fun here => by cases here) same⟩

end Laws

end ValueCore.Value
