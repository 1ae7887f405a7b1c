import ValueCore.Proofs.Value.Parts
import ValueCore.Value.Kind
import ValueCore.Value.Print
/-!
# Abridged values

Under a print length a collection shows its first elements and, if there are more, that
something is left out.

`write` puts a text in front of another one and counts positions.  Neither is seen in what it
comes to: the text of a value does not depend on what follows (`write_eq`), and the loops over
elements, over entries and over arguments are one loop over texts (`joinFrom`) that differ in
their separator.  What this loop comes to is told without positions by `abridged`.

So the text of a collection is given by the texts of its first elements under the same limit,
and the text of a value that has no collection longer than the limit is its full text
(`text_abridged`).
-/

namespace ValueCore.Value

variable {limit : Option Nat} {n : Nat} {v : Value}

/-! ## The loop over texts -/

/-- Texts from position `i` on, each but the first after a separator. -/
def joinFrom (separator : String) (limit : Option Nat) (i : Nat) : List String → List Char
  | [] => []
  | t :: rest =>
    let shown :=
      if pastLimit limit i then "...".toList
      else t.toList ++ joinFrom separator limit (i + 1) rest
    if i = 0 then shown else separator.toList ++ shown

/-- The text of an entry. -/
def entryText (limit : Option Nat) (e : Value × Value) : String :=
  e.1.text limit ++ " " ++ e.2.text limit

theorem toList_text (limit : Option Nat) (v : Value) :
    (v.text limit).toList = write limit v [] :=
  String.toList_ofList

/-- A value is written as its text in front of what follows. -/
def Fronts (limit : Option Nat) (v : Value) : Prop :=
  ∀ after, write limit v after = (v.text limit).toList ++ after

theorem writeItems_eq (items : List Value) (fronts : ∀ x ∈ items, Fronts limit x) (i : Nat)
    (after : List Char) :
    writeItems limit i items after = joinFrom " " limit i (items.map (text limit)) ++ after := by
  induction items generalizing i with
  | nil => rfl
  | cons x rest ih =>
    rw [List.forall_mem_cons] at fronts
    simp only [writeItems, List.map_cons, joinFrom, fronts.1 _, ih fronts.2]
    split <;> split <;> simp [put]

theorem writeEntry_eq {e : Value × Value} (fronts : Fronts limit e.1 ∧ Fronts limit e.2)
    (after : List Char) : writeEntry limit e after = (entryText limit e).toList ++ after := by
  obtain ⟨k, w⟩ := e
  simp [writeEntry, fronts.1 _, fronts.2 _, entryText]

theorem writeEntries_eq (entries : List (Value × Value))
    (fronts : ∀ e ∈ entries, Fronts limit e.1 ∧ Fronts limit e.2) (i : Nat)
    (after : List Char) :
    writeEntries limit i entries after =
      joinFrom ", " limit i (entries.map (entryText limit)) ++ after := by
  induction entries generalizing i with
  | nil => rfl
  | cons e rest ih =>
    rw [List.forall_mem_cons] at fronts
    simp only [writeEntries, List.map_cons, joinFrom, writeEntry_eq fronts.1, ih fronts.2]
    split <;> split <;> simp [put]

/-- Arguments are entries without a limit to their number. -/
theorem writeArguments_eq (items : List Value) (fronts : ∀ x ∈ items, Fronts limit x) (i : Nat)
    (after : List Char) :
    writeArguments limit (i == 0) items after =
      joinFrom ", " none i (items.map (text limit)) ++ after := by
  induction items generalizing i with
  | nil => rfl
  | cons x rest ih =>
    rw [List.forall_mem_cons] at fronts
    have later := ih fronts.2 (i + 1)
    rw [beq_false_of_ne (Nat.succ_ne_zero i)] at later
    simp only [writeArguments, List.map_cons, joinFrom, fronts.1 _, later, pastLimit]
    split <;> simp_all

theorem fronts_of_children (h : ∀ x ∈ v.children, Fronts limit x) : Fronts limit v := by
  intro after
  rw [toList_text]
  cases v with
  | seq f i xs m =>
    have items := writeItems_eq xs h
    cases f <;> simp [write, items]
  | map i es m =>
    have entries : ∀ e ∈ es, Fronts limit e.1 ∧ Fronts limit e.2 := fun e mem =>
      ⟨h _ (key_mem_children mem), h _ (val_mem_children mem)⟩
    simp [write, writeEntries_eq es entries]
  | set i xs m =>
    have items := writeItems_eq xs h
    simp [write, items]
  | object i facets xs alikes =>
    have arguments := writeArguments_eq xs h 0
    rw [beq_self_eq_true] at arguments
    rw [write, write]
    cases facets.debug with
    | text s => simp [put]
    | call name => simp [put, arguments]
  | _ => simp [write, put]

/-- What follows a value does not change its text. -/
theorem write_eq (limit : Option Nat) (v : Value) : Fronts limit v := by
  induction v using children_induction with
  | step v ih => exact fronts_of_children ih

/-! ## First elements -/

/-- Texts with a separator between, of which only the first `n` are shown, and three dots
after them if there are more. -/
def abridged (separator : String) (n : Nat) (texts : List String) : String :=
  separator.intercalate (texts.take n) ++
    if n < texts.length then (if 0 < n then separator else "") ++ "..." else ""

theorem toList_intercalate_cons (separator t : String) (texts : List String) :
    (separator.intercalate (t :: texts)).toList =
      t.toList ++ texts.flatMap fun u => separator.toList ++ u.toList := by
  induction texts generalizing t with
  | nil => simp
  | cons u texts ih => simp [String.intercalate_cons_cons, ih]

/-- The loop past the first position, when `n` more texts can be shown. -/
theorem joinFrom_succ (separator : String) (n i : Nat) (texts : List String) :
    joinFrom separator (some (i + 1 + n)) (i + 1) texts =
      ((texts.take n).flatMap fun u => separator.toList ++ u.toList) ++
        if n < texts.length then separator.toList ++ "...".toList else [] := by
  induction texts generalizing n i with
  | nil => simp [joinFrom]
  | cons t rest ih =>
    cases n with
    | zero => simp [joinFrom, pastLimit]
    | succ n =>
      have next : i + 1 + (n + 1) = i + 1 + 1 + n := by omega
      have within : ¬ i + 1 + 1 + n ≤ i + 1 := by omega
      simp [joinFrom, pastLimit, next, within, ih]

theorem joinFrom_zero (separator : String) (n : Nat) (texts : List String) :
    joinFrom separator (some n) 0 texts = (abridged separator n texts).toList := by
  cases texts with
  | nil => simp [joinFrom, abridged]
  | cons t rest =>
    cases n with
    | zero => simp [joinFrom, pastLimit, abridged]
    | succ n =>
      have loop := joinFrom_succ separator n 0 rest
      rw [Nat.zero_add, Nat.add_comm] at loop
      rw [joinFrom, if_pos rfl, loop, abridged, List.take_succ_cons, String.toList_append,
        toList_intercalate_cons, List.append_assoc]
      by_cases more : n < rest.length <;> simp [pastLimit, more]

/-- A limit that is not reached is none. -/
theorem joinFrom_of_le (separator : String) (i : Nat) {texts : List String}
    (enough : i + texts.length ≤ n) :
    joinFrom separator (some n) i texts = joinFrom separator none i texts := by
  induction texts generalizing i with
  | nil => rfl
  | cons t rest ih =>
    rw [List.length_cons] at enough
    have within : ¬ n ≤ i := by omega
    simp [joinFrom, pastLimit, within, ih (i + 1) (by omega)]

/-! ## Texts of collections -/

section Collections

variable (limit : Option Nat) (i : Nat) (xs : List Value) (es : List (Value × Value))
  (m : Option Metadata)

theorem toList_text_seq (f : SeqForm) :
    ((seq f i xs m).text limit).toList =
      (match f with | .list => '(' | .vector => '[') ::
        joinFrom " " limit 0 (xs.map (text limit)) ++
        [match f with | .list => ')' | .vector => ']'] := by
  have items := writeItems_eq xs fun x _ => write_eq limit x
  rw [toList_text]
  cases f <;> simp [write, items]

theorem toList_text_map :
    ((map i es m).text limit).toList =
      '{' :: joinFrom ", " limit 0 (es.map (entryText limit)) ++ ['}'] := by
  have entries := writeEntries_eq es fun e _ =>
    ⟨write_eq limit e.1, write_eq limit e.2⟩
  rw [toList_text]
  simp [write, entries]

theorem toList_text_set :
    ((set i xs m).text limit).toList =
      '#' :: '{' :: joinFrom " " limit 0 (xs.map (text limit)) ++ ['}'] := by
  have items := writeItems_eq xs fun x _ => write_eq limit x
  rw [toList_text]
  simp [write, items]

end Collections

/-- No collection in a value has more than `n` elements or entries. -/
def Within (n : Nat) : Value → Prop :=
  Everywhere fun u => ∀ c, u.collection? = some c → c.count ≤ n

/-- Where no collection is longer than the limit, nothing is left out. -/
theorem text_of_within (within : Within n v) : v.text (some n) = v.text none := by
  induction v using children_induction with
  | step v ih =>
    have child : ∀ x ∈ v.children, x.text (some n) = x.text none := fun x mem =>
      ih x mem (within.child mem)
    have here := within.here
    rw [← String.toList_inj]
    cases v with
    | seq f i xs m =>
      have texts : xs.map (text (some n)) = xs.map (text none) := List.map_congr_left child
      have length : 0 + (xs.map (text none)).length ≤ n := by simpa using here _ rfl
      rw [toList_text_seq, toList_text_seq, texts, joinFrom_of_le " " 0 length]
    | map i es m =>
      have texts : es.map (entryText (some n)) = es.map (entryText none) :=
        List.map_congr_left fun e mem => by
          rw [entryText, entryText, child _ (key_mem_children mem),
            child _ (val_mem_children mem)]
      have length : 0 + (es.map (entryText none)).length ≤ n := by simpa using here _ rfl
      rw [toList_text_map, toList_text_map, texts, joinFrom_of_le ", " 0 length]
    | set i xs m =>
      have texts : xs.map (text (some n)) = xs.map (text none) := List.map_congr_left child
      have length : 0 + (xs.map (text none)).length ≤ n := by simpa using here _ rfl
      rw [toList_text_set, toList_text_set, texts, joinFrom_of_le " " 0 length]
    | object i facets xs alikes =>
      have texts : xs.map (text (some n)) = xs.map (text none) := List.map_congr_left child
      have arguments : ∀ limit after, writeArguments limit true xs after =
          joinFrom ", " none 0 (xs.map (text limit)) ++ after := fun limit =>
        writeArguments_eq xs (fun x _ => write_eq limit x) 0
      simp [toList_text, write, arguments, texts]
    | _ => rfl

/-! ## What is shown inside -/

/-- The elements, or the keys and values, that a collection shows. -/
def shown (n : Nat) : Value → List Value
  | .seq _ _ items _ => items.take n
  | .map _ entries _ => (entries.take n).flatMap fun e => [e.1, e.2]
  | .set _ items _ => items.take n
  | _ => []

/-- A part of a value, at any depth, that is shown in it. -/
inductive ShownIn (n : Nat) : Value → Value → Prop where
  | self {v : Value} : ShownIn n v v
  | inside {u x v : Value} : x ∈ v.shown n → ShownIn n u x → ShownIn n u v

theorem infix_intercalate (separator : String) {t : String} {texts : List String}
    (mem : t ∈ texts) : t.toList <:+: (separator.intercalate texts).toList := by
  induction texts with
  | nil => cases mem
  | cons t' rest ih =>
    cases rest with
    | nil =>
      rw [List.mem_singleton.mp mem, String.intercalate_singleton]
    | cons t'' rest =>
      rw [String.intercalate_cons_cons, String.toList_append, String.toList_append]
      rcases List.mem_cons.mp mem with rfl | later
      · exact (List.prefix_append _ _).isInfix.trans (List.prefix_append _ _).isInfix
      · exact (ih later).trans (List.suffix_append _ _).isInfix

theorem infix_joinFrom (separator : String) {t : String} {texts : List String}
    (mem : t ∈ texts.take n) : t.toList <:+: joinFrom separator (some n) 0 texts := by
  rw [joinFrom_zero, abridged, String.toList_append]
  exact (infix_intercalate separator mem).trans (List.prefix_append _ _).isInfix

theorem infix_of_mem_shown {x : Value} (mem : x ∈ v.shown n) :
    (x.text (some n)).toList <:+: (v.text (some n)).toList := by
  cases v with
  | seq f i xs m =>
    rw [toList_text_seq]
    have inside := infix_joinFrom " " (List.map_take ▸ List.mem_map_of_mem (f := text (some n)) mem)
    exact inside.trans ⟨[_], [_], rfl⟩
  | map i es m =>
    rw [toList_text_map]
    obtain ⟨e, here, part⟩ := List.mem_flatMap.mp mem
    have inside := infix_joinFrom ", "
      (List.map_take ▸ List.mem_map_of_mem (f := entryText (some n)) here)
    refine List.IsInfix.trans ?_ (inside.trans ⟨['{'], ['}'], rfl⟩)
    simp only [List.mem_cons, List.not_mem_nil, or_false] at part
    rcases part with rfl | rfl
    · exact ⟨[], ' ' :: (e.2.text (some n)).toList, by simp [entryText]⟩
    · exact ⟨(e.1.text (some n)).toList ++ [' '], [], by simp [entryText]⟩
  | set i xs m =>
    rw [toList_text_set]
    have inside := infix_joinFrom " " (List.map_take ▸ List.mem_map_of_mem (f := text (some n)) mem)
    exact inside.trans ⟨['#', '{'], ['}'], rfl⟩
  | _ => cases mem

theorem infix_of_shownIn {u : Value} (h : ShownIn n u v) :
    (u.text (some n)).toList <:+: (v.text (some n)).toList := by
  induction h with
  | self => exact List.infix_rfl
  | inside mem _ ih => exact ih.trans (infix_of_mem_shown mem)

/-! ## The print length -/

/-- Under a print length `n` every collection shows its first `n` elements, written in the same
way, and says whether there are more.  All that is shown in a value, at any depth, stands in its
text.  If no collection in it has more than `n` elements, the text is that without a limit. -/
theorem text_abridged (n : Nat) (v : Value) :
    (∀ i xs m, (seq .list i xs m).text (some n) =
      "(" ++ abridged " " n (xs.map (text (some n))) ++ ")") ∧
    (∀ i xs m, (seq .vector i xs m).text (some n) =
      "[" ++ abridged " " n (xs.map (text (some n))) ++ "]") ∧
    (∀ i es m, (map i es m).text (some n) =
      "\x7b" ++ abridged ", " n (es.map (entryText (some n))) ++ "\x7d") ∧
    (∀ i xs m, (set i xs m).text (some n) =
      "#\x7b" ++ abridged " " n (xs.map (text (some n))) ++ "\x7d") ∧
    (∀ u, ShownIn n u v → (u.text (some n)).toList <:+: (v.text (some n)).toList) ∧
    (Within n v → v.text (some n) = v.text none) := by
  refine ⟨?_, ?_, ?_, ?_, fun u => infix_of_shownIn, text_of_within⟩
  · intro i xs m
    rw [← String.toList_inj, toList_text_seq, joinFrom_zero]
    simp
  · intro i xs m
    rw [← String.toList_inj, toList_text_seq, joinFrom_zero]
    simp
  · intro i es m
    rw [← String.toList_inj, toList_text_map, joinFrom_zero]
    simp
  · intro i xs m
    rw [← String.toList_inj, toList_text_set, joinFrom_zero]
    simp

/-- A map with a list for a key and a set under it: cut at every depth, cut down to nothing,
and in full. -/
theorem text_abridged_nested :
    let key : Value := .list 1 [.int 1, .int 2]
    let v : Value := .map 0 [(key, .set 2 [.int 3, .int 4] none), (.int 5, .vector 3 [])] none
    v.text (some 1) = "\x7b(1 ...) #\x7b3 ...\x7d, ...\x7d" ∧
      v.text (some 0) = "\x7b...\x7d" ∧
      (key.text (some 1)).toList <:+: (v.text (some 1)).toList ∧
      v.text (some 2) = v.text none := by
  intro key v
  have part : ShownIn 1 key v := .inside (by simp [shown, v]) .self
  have within : Within 2 v := by
    simp [Within, everywhere_map, everywhere_seq, everywhere_set, everywhere_num, collection?, v,
      key, list, vector, int]
  obtain ⟨-, -, -, -, inside, -⟩ := text_abridged 1 v
  obtain ⟨-, -, -, -, -, full⟩ := text_abridged 2 v
  exact ⟨by decide +kernel, by decide +kernel, inside key part, full within⟩

end ValueCore.Value
