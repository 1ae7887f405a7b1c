import ValueCore.Proofs.Value.Copy
/-!
# Equality of content

Equality of content goes through maps and sets in both directions and asks for an equal
entry or element each time.  `Resembles r` says this of the first level, as `Alike r` does
for equivalence, but it is weaker: entries that resemble one another need not be as many
on both sides.

Equality is symmetric and transitive, and every value has the content of itself and its
copies (`equals_of_copy`), since two NaNs have one content.  So it is an equivalence relation
on all built-in values (`equals_equivalence`).  Where there is no NaN, equal values are
equivalent (`equiv_of_equals`), and then their entries do match one to one.  An entry that a
scan finds is then the one that a look-up by hash comes to (`find?_answersTo`), since no other
key of the table is equivalent to its key.
-/

namespace ValueCore.Value

/-! ## One level of equality -/

/-- Two values have the same content at the first level, up to a relation of what they are
made of.  Maps and sets only need to hold the same up to the relation, however often. -/
inductive Resembles (r : Value → Value → Prop) : Value → Value → Prop where
  | num {x y : Number} (h : x.sameContent y = true) : Resembles r (.num x) (.num y)
  | char {c : Char} : Resembles r (.char c) (.char c)
  | str {i j : Nat} {s : String} : Resembles r (.str i s) (.str j s)
  | sym {s : Symbol} : Resembles r (.sym s) (.sym s)
  | seq {f g : SeqForm} {i j : Nat} {xs ys : List Value} {m m' : Option Metadata}
      (h : List.Forall₂ r xs ys) : Resembles r (.seq f i xs m) (.seq g j ys m')
  | map {i j : Nat} {xs ys : List (Value × Value)} {m m' : Option Metadata}
      (length : xs.length = ys.length) (there : ∀ e ∈ xs, ∃ e' ∈ ys, Entrywise r e e')
      (back : ∀ e' ∈ ys, ∃ e ∈ xs, Entrywise r e e') :
      Resembles r (.map i xs m) (.map j ys m')
  | set {i j : Nat} {xs ys : List Value} {m m' : Option Metadata}
      (length : xs.length = ys.length) (there : ∀ x ∈ xs, ∃ y ∈ ys, r x y)
      (back : ∀ y ∈ ys, ∃ x ∈ xs, r x y) : Resembles r (.set i xs m) (.set j ys m')

theorem equalsPairwise_iff {xs ys : List Value} :
    equalsPairwise xs ys = true ↔ List.Forall₂ (fun x y => equals x y = true) xs ys := by
  induction xs generalizing ys with
  | nil => cases ys <;> simp [equalsPairwise]
  | cons x xs ih => cases ys <;> simp [equalsPairwise, ih]

theorem itemsWithin_iff {xs ys : List Value} :
    itemsWithin xs ys = true ↔ ∀ x ∈ xs, ∃ y ∈ ys, equals x y = true := by
  induction xs with
  | nil => simp [itemsWithin]
  | cons x xs ih => simp [itemsWithin, ih]

theorem itemAmong_iff {xs : List Value} {y : Value} :
    itemAmong xs y = true ↔ ∃ x ∈ xs, equals x y = true := by
  induction xs with
  | nil => simp [itemAmong]
  | cons x xs ih => simp [itemAmong, ih]

theorem entryEquals_iff {e e' : Value × Value} :
    entryEquals e e' = true ↔ Entrywise (fun x y => equals x y = true) e e' := by
  obtain ⟨k, v⟩ := e
  rw [entryEquals, Bool.and_eq_true, Entrywise]

theorem entriesWithin_iff {xs ys : List (Value × Value)} :
    entriesWithin xs ys = true ↔ ∀ e ∈ xs, ∃ e' ∈ ys, entryEquals e e' = true := by
  induction xs with
  | nil => simp [entriesWithin]
  | cons e xs ih => simp [entriesWithin, ih]

theorem entryAmong_iff {xs : List (Value × Value)} {e' : Value × Value} :
    entryAmong xs e' = true ↔ ∃ e ∈ xs, entryEquals e e' = true := by
  induction xs with
  | nil => simp [entryAmong]
  | cons e xs ih => simp [entryAmong, ih]

/-- Built-in values of equal content are identical or resemble each other. -/
theorem equals_iff {a b : Value} (ha : a.isObject = false) :
    equals a b = true ↔
      identical a b = true ∨ Resembles (fun x y => equals x y = true) a b := by
  rw [equals.eq_def, Bool.or_eq_true]
  refine or_congr_right ⟨fun h => ?_, fun h => ?_⟩
  · cases a <;> cases b <;> try cases h
    case num.num x y => exact .num h
    case char.char x y => rw [beq_iff_eq.mp h]; exact .char
    case str.str i x j y => rw [beq_iff_eq.mp h]; exact .str
    case sym.sym x y => rw [of_decide_eq_true h]; exact .sym
    case seq.seq => exact .seq (equalsPairwise_iff.mp h)
    case map.map =>
      simp only [Bool.and_eq_true, beq_iff_eq, List.all_eq_true, entriesWithin_iff,
        entryAmong_iff, entryEquals_iff] at h
      exact .map h.1.1 h.1.2 h.2
    case set.set =>
      simp only [Bool.and_eq_true, beq_iff_eq, List.all_eq_true, itemsWithin_iff,
        itemAmong_iff] at h
      exact .set h.1.1 h.1.2 h.2
    case object.object => cases ha
  · cases h with
    | num h => exact h
    | char => exact beq_self_eq_true _
    | str => exact beq_self_eq_true _
    | sym => exact decide_eq_true rfl
    | seq h => exact equalsPairwise_iff.mpr h
    | map length there back =>
      simp only [Bool.and_eq_true, beq_iff_eq, List.all_eq_true, entriesWithin_iff,
        entryAmong_iff, entryEquals_iff]
      exact ⟨⟨length, there⟩, back⟩
    | set length there back =>
      simp only [Bool.and_eq_true, beq_iff_eq, List.all_eq_true, itemsWithin_iff,
        itemAmong_iff]
      exact ⟨⟨length, there⟩, back⟩

namespace Resembles

variable {r s t : Value → Value → Prop} {a b c : Value}

theorem of_mem (h : Resembles r a b)
    (imp : ∀ x ∈ a.children, ∀ y ∈ b.children, r x y → s x y) : Resembles s a b := by
  cases h with
  | num h => exact .num h
  | char => exact .char
  | str => exact .str
  | sym => exact .sym
  | seq h => exact .seq (forall₂_of_mem h imp)
  | @map i j xs ys m m' length there back =>
    have entries : ∀ e ∈ xs, ∀ e' ∈ ys, Entrywise r e e' → Entrywise s e e' := by
      rintro e mem e' mem' ⟨key, val⟩
      exact ⟨imp _ (key_mem_children mem) _ (key_mem_children mem') key,
        imp _ (val_mem_children mem) _ (val_mem_children mem') val⟩
    refine .map length (fun e mem => ?_) fun e' mem' => ?_
    · obtain ⟨e', mem', tie⟩ := there e mem
      exact ⟨e', mem', entries e mem e' mem' tie⟩
    · obtain ⟨e, mem, tie⟩ := back e' mem'
      exact ⟨e, mem, entries e mem e' mem' tie⟩
  | set length there back =>
    refine .set length (fun x mem => ?_) fun y mem' => ?_
    · obtain ⟨y, mem', tie⟩ := there x mem
      exact ⟨y, mem', imp x mem y mem' tie⟩
    · obtain ⟨x, mem, tie⟩ := back y mem'
      exact ⟨x, mem, imp x mem y mem' tie⟩

theorem symm (turn : ∀ x y, r x y → s y x) (h : Resembles r a b) : Resembles s b a := by
  cases h with
  | num h => exact .num (Number.sameContent_iff.mpr (Number.sameContent_iff.mp h).symm)
  | char => exact .char
  | str => exact .str
  | sym => exact .sym
  | seq h => exact .seq (forall₂_symm turn h)
  | map length there back =>
    refine .map length.symm (fun e mem => ?_) fun e mem => ?_
    · obtain ⟨e', mem', key, val⟩ := back e mem
      exact ⟨e', mem', turn _ _ key, turn _ _ val⟩
    · obtain ⟨e', mem', key, val⟩ := there e mem
      exact ⟨e', mem', turn _ _ key, turn _ _ val⟩
  | set length there back =>
    refine .set length.symm (fun y mem => ?_) fun x mem => ?_
    · obtain ⟨x, mem', tie⟩ := back y mem
      exact ⟨x, mem', turn _ _ tie⟩
    · obtain ⟨y, mem', tie⟩ := there x mem
      exact ⟨y, mem', turn _ _ tie⟩

theorem trans (comp : ∀ x y z, r x y → s y z → t x z) (h : Resembles r a b)
    (h' : Resembles s b c) : Resembles t a c := by
  cases h with
  | num h =>
    cases h' with
    | num h' =>
      rw [Number.sameContent_iff] at h h'
      exact .num (Number.sameContent_iff.mpr (h.trans h'))
  | char =>
    cases h' with
    | char => exact .char
  | str =>
    cases h' with
    | str => exact .str
  | sym =>
    cases h' with
    | sym => exact .sym
  | seq h =>
    cases h' with
    | seq h' => exact .seq (forall₂_trans comp h h')
  | map length there back =>
    cases h' with
    | map length' there' back' =>
      refine .map (length.trans length') (fun e mem => ?_) fun e'' mem'' => ?_
      · obtain ⟨e', mem', key, val⟩ := there e mem
        obtain ⟨e'', mem'', key', val'⟩ := there' e' mem'
        exact ⟨e'', mem'', comp _ _ _ key key', comp _ _ _ val val'⟩
      · obtain ⟨e', mem', key', val'⟩ := back' e'' mem''
        obtain ⟨e, mem, key, val⟩ := back e' mem'
        exact ⟨e, mem, comp _ _ _ key key', comp _ _ _ val val'⟩
  | set length there back =>
    cases h' with
    | set length' there' back' =>
      refine .set (length.trans length') (fun x mem => ?_) fun z mem'' => ?_
      · obtain ⟨y, mem', tie⟩ := there x mem
        obtain ⟨z, mem'', tie'⟩ := there' y mem'
        exact ⟨z, mem'', comp _ _ _ tie tie'⟩
      · obtain ⟨y, mem', tie'⟩ := back' z mem''
        obtain ⟨x, mem, tie⟩ := back y mem'
        exact ⟨x, mem, comp _ _ _ tie tie'⟩

theorem of_matching_map {i j : Nat} {xs ys : List (Value × Value)} {m m' : Option Metadata}
    (h : Matching (Entrywise r) xs ys) : Resembles r (.map i xs m) (.map j ys m') :=
  .map h.length_eq (fun _ mem => h.exists_right mem) fun _ mem => h.exists_left mem

theorem of_matching_set {i j : Nat} {xs ys : List Value} {m m' : Option Metadata}
    (h : Matching r xs ys) : Resembles r (.set i xs m) (.set j ys m') :=
  .set h.length_eq (fun _ mem => h.exists_right mem) fun _ mem => h.exists_left mem

theorem exists_left {y : Value}
    (h : Resembles r a b) (mem : y ∈ b.children) : ∃ x ∈ a.children, r x y := by
  cases h with
  | num h => cases mem
  | char => cases mem
  | str => cases mem
  | sym => cases mem
  | seq h =>
    obtain ⟨x, mem', tie⟩ := exists_of_forall₂ (forall₂_symm (s := flip r) (fun _ _ h => h) h) mem
    exact ⟨x, mem', tie⟩
  | map length there back =>
    obtain ⟨e', mem', here⟩ := exists_entry_of_mem_children mem
    obtain ⟨e, mem'', tie⟩ := back e' mem'
    rcases here with rfl | rfl
    · exact ⟨e.1, key_mem_children mem'', tie.1⟩
    · exact ⟨e.2, val_mem_children mem'', tie.2⟩
  | set length there back => exact back y mem

end Resembles

/-! ## The laws of equality -/

section Laws

variable {μ : Memory} {a b c : Value}

theorem equals_symm (ha : μ.Contains a) (hb : μ.Contains b) (ba : Builtin a) (bb : Builtin b)
    (h : equals a b = true) : equals b a = true := by
  induction a using children_induction generalizing b with
  | step a ih =>
    rw [equals_iff bb.here]
    rcases (equals_iff ba.here).mp h with ident | alike
    · exact Or.inl (μ.identical_symm ha.here hb.here ident)
    · refine Or.inr ((alike.of_mem fun x hx y hy tie => ?_).symm fun _ _ h => h)
      exact ih x hx (ha.child hx) (hb.child hy) (ba.child hx) (bb.child hy) tie

theorem equals_trans (ha : μ.Contains a) (hb : μ.Contains b) (hc : μ.Contains c)
    (ba : Builtin a) (bb : Builtin b) (bc : Builtin c) (h : equals a b = true)
    (h' : equals b c = true) : equals a c = true := by
  induction a using children_induction generalizing b c with
  | step a ih =>
    rcases (equals_iff ba.here).mp h with ident | alike
    · rw [(μ.twin ha.here hb.here ident).equals_left]
      exact h'
    rcases (equals_iff bb.here).mp h' with ident | alike'
    · rw [← (μ.twin hb.here hc.here ident).equals_right]
      exact h
    have inside : Resembles (fun x y => x ∈ a.children ∧ y ∈ b.children ∧ equals x y = true) a b :=
      alike.of_mem fun x hx y hy tie => ⟨hx, hy, tie⟩
    have inside' : Resembles (fun y z => z ∈ c.children ∧ equals y z = true) b c :=
      alike'.of_mem fun y _ z hz tie => ⟨hz, tie⟩
    refine (equals_iff ba.here).mpr (Or.inr (inside.trans ?_ inside'))
    rintro x y z ⟨hx, hy, tie⟩ ⟨hz, tie'⟩
    exact ih x hx (ha.child hx) (hb.child hy) (hc.child hz) (ba.child hx) (bb.child hy)
      (bc.child hz) tie tie'

/-- A value has the content of its copies, NaNs included. -/
theorem equals_of_copy (ha : μ.Contains a) (hb : μ.Contains b) (ba : Builtin a)
    (h : Copy a b) : equals a b = true := by
  induction a using children_induction generalizing b with
  | step a ih =>
    have child : ∀ x ∈ a.children, ∀ y ∈ b.children, Copy x y → equals x y = true := by
      intro x hx y hy copy
      exact ih x hx (ha.child hx) (hb.child hy) (ba.child hx) copy
    rw [equals_iff ba.here]
    cases h with
    | nil => exact Or.inl rfl
    | bool => exact Or.inl (beq_self_eq_true _)
    | int => exact Or.inr (.num (Number.sameContent_iff.mpr rfl))
    | big => exact Or.inr (.num (Number.sameContent_iff.mpr rfl))
    | float => exact Or.inr (.num (Number.sameContent_iff.mpr rfl))
    | ratio => exact Or.inr (.num (Number.sameContent_iff.mpr rfl))
    | char => exact Or.inr .char
    | str => exact Or.inr .str
    | sym => exact Or.inr .sym
    | kw h => exact Or.inl (beq_iff_eq.mpr (μ.interned ha.here hb.here h))
    | seq h => exact Or.inr (.seq (forall₂_of_mem h child))
    | @map i j xs ys zs m m' keys vals order =>
      rw [List.forall₂_map_left_iff, List.forall₂_map_right_iff] at keys vals
      have entries : Matching (Entrywise Copy) xs ys :=
        ⟨zs, List.Forall₂.mp (fun _ _ k v => ⟨k, v⟩) keys vals, order⟩
      have alike : Resembles Copy (.map i xs m) (.map j ys m') := .of_matching_map entries
      exact Or.inr (alike.of_mem child)
    | @set i j xs ys zs m m' h order =>
      have alike : Resembles Copy (.set i xs m) (.set j ys m') := .of_matching_set ⟨zs, h, order⟩
      exact Or.inr (alike.of_mem child)
    | fn h => exact Or.inl (beq_iff_eq.mpr h)
    | object h => cases ba.here

theorem equals_self (ha : μ.Contains a) (ba : Builtin a) : equals a a = true :=
  equals_of_copy ha ha ba (Copy.refl a)

theorem equals_comm (ha : μ.Contains a) (hb : μ.Contains b) (ba : Builtin a)
    (bb : Builtin b) : equals a b = equals b a := by
  rw [Bool.eq_iff_iff]
  constructor
  · exact equals_symm ha hb ba bb
  · exact equals_symm hb ha bb ba

/-- Equal values are equal to the same values. -/
theorem equals_congr (ha : μ.Contains a) (hb : μ.Contains b) (hc : μ.Contains c)
    (ba : Builtin a) (bb : Builtin b) (bc : Builtin c) (h : equals a b = true) :
    equals a c = equals b c := by
  have h' : equals b a = true := equals_symm ha hb ba bb h
  rw [Bool.eq_iff_iff]
  constructor
  · exact equals_trans hb ha hc bb ba bc h'
  · exact equals_trans ha hb hc ba bb bc h

/-! ## The two scans -/

section Scans

variable {i j : Nat} {m m' : Option Metadata}

/-- Sets are scanned in both directions, and each scan may ask from its own side. -/
theorem equals_sets {xs ys : List Value} (ha : μ.Contains (.set i xs m))
    (hb : μ.Contains (.set j ys m')) (ba : Builtin (.set i xs m))
    (bb : Builtin (.set j ys m')) :
    equals (.set i xs m) (.set j ys m') =
      (i == j || (xs.length == ys.length && (xs.all fun x => ys.any fun y => equals x y) &&
        ys.all fun y => xs.any fun x => equals y x)) := by
  have turn : ∀ x ∈ xs, ∀ y ∈ ys, equals x y = equals y x := by
    intro x hx y hy
    exact equals_comm (ha.child hx) (hb.child hy) (ba.child hx) (bb.child hy)
  have back : (∀ y ∈ ys, ∃ x ∈ xs, equals x y = true) ↔
      ∀ y ∈ ys, ∃ x ∈ xs, equals y x = true :=
    forall₂_congr fun y hy => exists_congr fun x => and_congr_right fun hx => by
      rw [turn x hx y hy]
  rw [Bool.eq_iff_iff, equals, identical]
  simp only [Bool.or_eq_true, Bool.and_eq_true, List.all_eq_true, List.any_eq_true,
    itemsWithin_iff, itemAmong_iff, back]

/-- Maps are scanned in both directions, and each scan may ask from its own side. -/
theorem equals_maps {xs ys : List (Value × Value)} (ha : μ.Contains (.map i xs m))
    (hb : μ.Contains (.map j ys m')) (ba : Builtin (.map i xs m))
    (bb : Builtin (.map j ys m')) :
    equals (.map i xs m) (.map j ys m') =
      (i == j || (xs.length == ys.length &&
        (xs.all fun e => ys.any fun e' => entryEquals e e') &&
        ys.all fun e' => xs.any fun e => entryEquals e' e)) := by
  have turn : ∀ e ∈ xs, ∀ e' ∈ ys, entryEquals e e' = entryEquals e' e := by
    intro e he e' he'
    have key : equals e.1 e'.1 = equals e'.1 e.1 :=
      equals_comm (ha.child (key_mem_children he)) (hb.child (key_mem_children he'))
        (ba.child (key_mem_children he)) (bb.child (key_mem_children he'))
    have val : equals e.2 e'.2 = equals e'.2 e.2 :=
      equals_comm (ha.child (val_mem_children he)) (hb.child (val_mem_children he'))
        (ba.child (val_mem_children he)) (bb.child (val_mem_children he'))
    rw [entryEquals, entryEquals, key, val]
  have back : (∀ e' ∈ ys, ∃ e ∈ xs, entryEquals e e' = true) ↔
      ∀ e' ∈ ys, ∃ e ∈ xs, entryEquals e' e = true :=
    forall₂_congr fun e' he' => exists_congr fun e => and_congr_right fun he => by
      rw [turn e he e' he']
  rw [Bool.eq_iff_iff, equals, identical]
  simp only [Bool.or_eq_true, Bool.and_eq_true, List.all_eq_true, List.any_eq_true,
    entriesWithin_iff, entryAmong_iff, back]

end Scans

/-- Equality of content is an equivalence relation on built-in values, with NaNs anywhere in
them.  Copies are interchangeable, whatever order their maps and sets are in. -/
theorem equals_equivalence (ha : μ.Contains a) (hb : μ.Contains b) (hc : μ.Contains c)
    (ba : Builtin a) (bb : Builtin b) (bc : Builtin c) :
    equals a b = equals b a ∧
      (equals a b = true → equals b c = true → equals a c = true) ∧
      equals a a = true ∧
      (Copy a b → equals a b = true ∧ equals a c = equals b c ∧ equals c a = equals c b) ∧
      (∀ i j xs ys m m', a = .map i xs m → b = .map j ys m' →
        equals a b =
          (i == j || (xs.length == ys.length &&
            (xs.all fun e => ys.any fun e' => entryEquals e e') &&
            ys.all fun e' => xs.any fun e => entryEquals e' e))) ∧
      ∀ i j xs ys m m', a = .set i xs m → b = .set j ys m' →
        equals a b =
          (i == j || (xs.length == ys.length &&
            (xs.all fun x => ys.any fun y => equals x y) &&
            ys.all fun y => xs.any fun x => equals y x)) := by
  refine ⟨equals_comm ha hb ba bb, equals_trans ha hb hc ba bb bc, equals_self ha ba, ?_, ?_, ?_⟩
  · intro copy
    have same : equals a b = true := equals_of_copy ha hb ba copy
    have left : equals a c = equals b c := equals_congr ha hb hc ba bb bc same
    refine ⟨same, left, ?_⟩
    rw [equals_comm hc ha bc ba, equals_comm hc hb bc bb, left]
  · intro i j xs ys m m' hxs hys
    subst hxs hys
    exact equals_maps ha hb ba bb
  · intro i j xs ys m m' hxs hys
    subst hxs hys
    exact equals_sets ha hb ba bb

/-- Maps with two NaN keys and one that holds a NaN: a copy in another order, and a map that
has the keys in other numbers. -/
theorem equals_equivalence_nanKeys :
    let nan : Value := .float ⟨0x7ff8000000000000⟩
    let a : Value := .map 0 [(nan, .int 1), (nan, .int 1), (.vector 1 [nan], .int 3)] none
    let b : Value := .map 2 [(.vector 3 [nan], .int 3), (nan, .int 1), (nan, .int 1)] none
    let c : Value :=
      .map 4 [(nan, .int 1), (.vector 5 [nan], .int 3), (.vector 6 [nan], .int 3)] none
    equals a b = equals b a ∧ equals a b = true ∧ equals a c = true ∧
      equals a c = equals b c := by
  intro nan a b c
  let μ : Memory := .ofList
    [a, b, c, .vector 1 [nan], .vector 3 [nan], .vector 5 [nan], .vector 6 [nan]]
    (by decide +kernel) (by simp [a, b, c, vector])
  have contains : μ.Contains a ∧ μ.Contains b ∧ μ.Contains c := by
    simp [Memory.Contains, everywhere_map, everywhere_seq, everywhere_num, a, b, c, nan, vector,
      int, float, μ, Memory.ofList, Memory.Direct]
  have builtin : Builtin a ∧ Builtin b ∧ Builtin c := by
    simp [Builtin, everywhere_map, everywhere_seq, everywhere_num, isObject, a, b, c, nan, vector,
      int, float]
  have inside : Copy (.vector 1 [nan]) (.vector 3 [nan]) := .seq (.cons .float .nil)
  have keys : List.Forall₂ Copy [nan, nan, .vector 1 [nan]] [nan, nan, .vector 3 [nan]] :=
    .cons .float (.cons .float (.cons inside .nil))
  have vals : List.Forall₂ Copy [.int 1, .int 1, .int 3] [.int 1, .int 1, .int 3] :=
    .cons .int (.cons .int (.cons .int .nil))
  have order := List.perm_append_singleton (vector 3 [nan], int 3) [(nan, int 1), (nan, int 1)]
  have copy : Copy a b := by
    apply Copy.map _ _ order
    · exact keys
    · exact vals
  obtain ⟨symm, trans, -, copies, -⟩ := equals_equivalence contains.1 contains.2.1 contains.2.2
    builtin.1 builtin.2.1 builtin.2.2
  have other : equals b c = true := by decide +kernel
  exact ⟨symm, (copies copy).1, trans (copies copy).1 other, (copies copy).2.1⟩

/-! ## Equality and NaNs -/

/-- A NaN in one of two values of equal content has a NaN in the other for a partner. -/
theorem nanFree_of_equals (ha : μ.Contains a) (hb : μ.Contains b) (ba : Builtin a)
    (fa : NaNFree a) (h : equals a b = true) : NaNFree b := by
  induction a using children_induction generalizing b with
  | step a ih =>
    rcases (equals_iff ba.here).mp h with ident | alike
    · exact (μ.twin ha.here hb.here ident).nanFree fa
    · refine everywhere_iff.mpr ⟨?_, fun y hy => ?_⟩
      · cases alike with
        | num same => exact (Number.isNaN_eq_of_sameContent same).symm.trans fa.here
        | _ => rfl
      · obtain ⟨x, hx, tie⟩ := alike.exists_left hy
        exact ih x hx (ha.child hx) (hb.child hy) (ba.child hx) (fa.child hx) tie

/-- Without NaNs, equal content makes values equivalent. -/
theorem equiv_of_equals (ha : Formed μ a) (hb : Formed μ b) (ba : Builtin a)
    (fa : NaNFree a) (h : equals a b = true) : equiv a b = true := by
  induction a using children_induction generalizing b with
  | step a ih =>
    rcases (equals_iff ba.here).mp h with ident | alike
    · exact (equiv_iff ha hb).mpr (Or.inl ident)
    have alike' := alike.of_mem (s := Related (Formed μ)) fun x hx y hy tie =>
      ⟨ha.child hx, hb.child hy,
        ih x hx (ha.child hx) (hb.child hy) (ba.child hx) (fa.child hx) tie⟩
    refine (equiv_iff ha hb).mpr (Or.inr (linked_of_related ha hb ?_))
    cases alike' with
    | num same => exact .num (Number.equal_of_sameContent same fa.here)
    | char => exact .char
    | str => exact .str
    | sym => exact .sym
    | seq pairs => exact .of_elements rfl rfl pairs
    | map length there back =>
      refine .of_entries (.of_apart (fun _ _ both => ⟨both.1.symm, both.2.symm⟩)
        (fun _ _ _ both both' => ⟨both.1.trans both'.1, both.2.trans both'.2⟩) ?_ length there)
      exact (List.pairwise_map.mp ha.distinct.apart).imp fun apart both => apart both.1
    | set length there back =>
      exact .of_members (.of_apart (fun _ _ tie => tie.symm) (fun _ _ _ tie tie' => tie.trans tie')
        ha.distinct.apart length there)

/-! ## Scans and look-ups -/

section Keys

variable {α : Type} {key : α → Value} {items : List α} {v k : Value} {x y : α}

/-- No two items of a table have equivalent keys. -/
theorem eq_of_equiv_keys (hv : Formed μ v) (keys : v.keys = items.map key)
    (hkeys : ∀ x ∈ items, Formed μ (key x)) (hx : x ∈ items) (hy : y ∈ items)
    (tie : equiv (key x) (key y) = true) : x = y := by
  have apart := hv.distinct.apart (P := Formed μ)
  rw [keys, List.pairwise_map] at apart
  have turn : ∀ x y, Related (Formed μ) (key x) (key y) → Related (Formed μ) (key y) (key x) :=
    fun _ _ tie => tie.symm
  exact eq_of_apart turn apart hx hy ⟨hkeys x hx, hkeys y hy, tie⟩

/-- Of distinct keys, a look-up finds the one that is equivalent. -/
theorem find?_answersTo (hv : Formed μ v) (keys : v.keys = items.map key) (hk : Formed μ k)
    (hkeys : ∀ x ∈ items, Formed μ (key x)) (hx : x ∈ items) (tie : equiv k (key x) = true) :
    items.find? (fun y => answersTo k.hashEq k (key y)) = some x := by
  have laws := lawful_formed μ
  have answers : answersTo k.hashEq k (key x) = true := by
    simp [answersTo, tie, laws.hashEq_eq hk (hkeys x hx) tie]
  cases found : items.find? (fun y => answersTo k.hashEq k (key y)) with
  | none => exact absurd answers (List.find?_eq_none.mp found x hx)
  | some y =>
    have hy : y ∈ items := List.mem_of_find?_eq_some found
    have answer : answersTo k.hashEq k (key y) = true := by simpa using List.find?_some found
    have tie' : equiv k (key y) = true := (Bool.and_eq_true_iff.mp answer).2
    have back : equiv (key y) (key x) = true :=
      laws.trans (hkeys y hy) hk (hkeys x hx) (laws.symm hk (hkeys y hy) tie') tie
    rw [eq_of_equiv_keys hv keys hkeys hy hx back]

end Keys

/-- Where there is no NaN, equality of content refines equivalence, in shared places too, and
values of equal content have one value hash.  What a scan of maps or sets finds is what a
look-up finds. -/
theorem equals_refines_equiv (ha : Formed μ a) (hb : Formed μ b) (ba : Builtin a)
    (fa : NaNFree a) :
    (equals a b = true → equiv a b = true ∧ a.hashEq = b.hashEq ∧
        ∀ same : Places, same.Sound a b → equivSharing same a b = true) ∧
      (∀ i j xs ys m m', a = .map i xs m → b = .map j ys m' →
        ∀ e ∈ xs, ∀ e' ∈ ys, equals e.1 e'.1 = true → Entries.find? ys e.1 = some e') ∧
      ∀ i j xs ys m m', a = .set i xs m → b = .set j ys m' →
        ∀ x ∈ xs, ∀ y ∈ ys, equals x y = true → Members.find? ys x = some y := by
  refine ⟨?_, ?_, ?_⟩
  · intro h
    have tie : equiv a b = true := equiv_of_equals ha hb ba fa h
    refine ⟨tie, (lawful_formed μ).hashEq_eq ha hb tie, fun same sound => ?_⟩
    rw [equivSharing_eq_equiv ha hb fa sound, tie]
  · intro i j xs ys m m' hxs hys e mem e' mem' same
    subst hxs hys
    have child : e.1 ∈ (Value.map i xs m).children := key_mem_children mem
    have inside : ∀ d ∈ ys, Formed μ d.1 := fun d mem => hb.child (key_mem_children mem)
    have tie : equiv e.1 e'.1 = true :=
      equiv_of_equals (ha.child child) (inside e' mem') (ba.child child) (fa.child child) same
    exact find?_answersTo hb rfl (ha.child child) inside mem' tie
  · intro i j xs ys m m' hxs hys x mem y mem' same
    subst hxs hys
    have inside : ∀ d ∈ ys, Formed μ d := fun d mem => hb.child mem
    have tie : equiv x y = true :=
      equiv_of_equals (ha.child mem) (inside y mem') (ba.child mem) (fa.child mem) same
    exact find?_answersTo hb ys.map_id.symm (ha.child mem) inside mem' tie

/-- Maps in different orders, with a list and a vector for a key and a set under another. -/
theorem equals_refines_equiv_nested :
    let xs : List (Value × Value) :=
      [(.list 1 [.int 1], .int 2), (.int 3, .set 2 [.int 4, .int 5] none)]
    let ys : List (Value × Value) :=
      [(.int 3, .set 4 [.int 5, .int 4] none), (.vector 5 [.int 1], .int 2)]
    let a : Value := .map 0 xs none
    let b : Value := .map 3 ys none
    equals a b = true ∧ equiv a b = true ∧ a.hashEq = b.hashEq ∧
      Entries.find? ys (.list 1 [.int 1]) = some (.vector 5 [.int 1], .int 2) := by
  intro xs ys a b
  let μ : Memory := .ofList [a, .list 1 [.int 1], .set 2 [.int 4, .int 5] none, b,
    .set 4 [.int 5, .int 4] none, .vector 5 [.int 1]] (by decide) (by simp [a, b, list, vector])
  have distinct : a.Distinct ∧ b.Distinct := by decide +kernel
  have members : (Value.set 2 [.int 4, .int 5] none).Distinct ∧
      (Value.set 4 [.int 5, .int 4] none).Distinct := by decide +kernel
  simp only [int] at members
  have ha : Formed μ a := by
    refine formed_map.mpr ⟨⟨.inr (by simp [a]), distinct.1⟩, ?_⟩
    simp [xs, int, list, formed_num, formed_seq, formed_set, members, μ, Memory.ofList,
      Memory.Direct]
  have hb : Formed μ b := by
    refine formed_map.mpr ⟨⟨.inr (by simp [b]), distinct.2⟩, ?_⟩
    simp [ys, int, vector, formed_num, formed_seq, formed_set, members, μ, Memory.ofList,
      Memory.Direct]
  have ba : Builtin a := by
    simp [Builtin, everywhere_map, everywhere_seq, everywhere_set, everywhere_num, isObject, a,
      xs, list, int]
  have fa : NaNFree a := by
    simp [NaNFree, everywhere_map, everywhere_seq, everywhere_set, everywhere_num, isNaN,
      Number.isNaN, a, xs, list, int]
  have same : equals a b = true := by decide +kernel
  have key : equals (.list 1 [.int 1]) (.vector 5 [.int 1]) = true := by decide +kernel
  obtain ⟨refines, scans, -⟩ := equals_refines_equiv ha hb ba fa
  obtain ⟨tie, hashes, -⟩ := refines same
  exact ⟨same, tie, hashes, scans 0 3 xs ys none none rfl rfl (.list 1 [.int 1], .int 2)
    (by simp [xs]) (.vector 5 [.int 1], .int 2) (by simp [ys]) key⟩

end Laws

end ValueCore.Value
