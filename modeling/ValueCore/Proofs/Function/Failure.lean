import ValueCore.Function.Search
import ValueCore.Function.Sort
import ValueCore.Proofs.Function.Decoration
import ValueCore.Proofs.Function.Outcome
/-!
# Failures

A function may fail on any call, and what a call comes to may depend on all calls before it.
To tell which calls are made, the function is *watched*.  Another callable takes its place
under the same decorators.  It hands every call on and writes it down with what came of it
(`watched`, `watching`).  Nothing else changes by this (`Watches`).

What is written down says which calls were made, and the outcome follows from it.  A comparison
makes a `Round` of one call or two, and the answers give its sign, or it is `Cut` short: by a call
that fails, or by a first answer that is not accepted.  A merge, a sort and a search go on as the
signs say (`MergeCalls`, `SortCalls`, `SearchCalls`), and a comparison that is cut short ends them.

So the calls of them all are whole comparisons, up to the last one (`Accounts`).  A failing call
is therefore the last one, and its error is what the whole computation comes to
(`failure_surfaces`).
-/

namespace ValueCore.Function

variable {σ α β : Type}

/-! ## Watching -/

/-- A call and what came of it. -/
structure Call where
  /-- The arguments. -/
  args : List Value
  /-- The answer or the error. -/
  outcome : Except Error Value

/-- A call is answered. -/
def Call.Answered (call : Call) : Prop := ∃ v, call.outcome = .ok v

/-- A call that is made and then written down. -/
def recorded (call : List Value → Eval σ Value) (args : List Value) :
    Eval (σ × List Call) Value :=
  ExceptT.mk do
    let (s, log) ← get
    let (outcome, s') := Id.run ((call args).run.run s)
    set (s', log ++ [⟨args, outcome⟩])
    pure outcome

/-- A function with another callable under its decorators. -/
def watched : Function → Function
  | .decorated id target md => .decorated id target.watched md
  | f => .callable f.id f.name 0 f.metadata?

/-- The host in which the other callable writes down the calls and hands them on to the
function under the decorators. -/
def watching (host : Host σ) (f : Function) : Host (σ × List Call) where
  native _ := recorded (f.root.invoke host)
  invoke _ := recorded (f.root.invoke host)
  applyTo _ := recorded (f.root.applyTo host)

/-- A watched computation comes to the same as the plain one and leaves the same state.  The
calls that it writes down and its outcome are as `P` says. -/
def Watches (watched : Eval (σ × List Call) α) (plain : Eval σ α)
    (P : List Call → Except Error α → Prop) : Prop :=
  ∀ s log, ∃ outcome s' calls, plain.run.run s = (outcome, s') ∧
    watched.run.run (s, log) = (outcome, s', log ++ calls) ∧ P calls outcome

/-- One call is written down, whichever entry point it takes. -/
theorem watches_recorded (call : List Value → Eval σ Value) (args : List Value) :
    Watches (recorded call args) (call args) fun calls outcome => calls = [⟨args, outcome⟩] := by
  intro s log
  exact ⟨_, _, _, rfl, rfl, rfl⟩

theorem applyTo_watched (host : Host σ) (f g : Function) (args : List Value) :
    g.watched.applyTo (f.watching host) args = recorded (f.applyTo host) args := by
  match g with
  | .decorated _ target _ => exact applyTo_watched host f target args
  | .native _ _ _ | .callable _ _ _ _ =>
    have same : f.root.applyTo host = f.applyTo host := funext (f.applyTo_root host)
    simp only [watched, applyTo, watching, same]

/-- A call of a watched function is one call of the function under its decorators. -/
theorem invoke_watched (host : Host σ) (f : Function) :
    f.watched.invoke (f.watching host) = recorded (f.invoke host) := by
  funext args
  cases f with
  | native | callable => rfl
  | decorated id target md => exact applyTo_watched host (.decorated id target md) target args

/-! ## Reading answers -/

/-- What a comparison takes the answer to its first call for. -/
inductive Reading where
  /-- The comparison itself. -/
  | sign (c : Int)
  /-- A reason to ask the other way round. -/
  | turn
  /-- Nothing that it accepts. -/
  | rejected (expected : String)

namespace Reading

/-- Booleans and numbers are accepted. -/
def ofEither : Value → Reading
  | .bool true => .sign (-1)
  | .bool false => .turn
  | .num n => .sign n.intValue.toInt
  | _ => .rejected "boolean or number"

end Reading

/-- Compares two values by calls, as the first answer is read. -/
def compareBy (read : Value → Reading) (call : List Value → Eval σ Value) : Comparison σ :=
  fun a b => do
    let answer ← call [a, b]
    match read answer with
    | .sign c => pure c
    | .turn =>
      let reverse ← call [b, a]
      pure (if reverse.truthy then 1 else 0)
    | .rejected expected => throw (badAnswer expected answer)

theorem compareWith_eq (host : Host σ) (f : Function) :
    f.compareWith host = compareBy .ofEither (f.invoke host) := by
  funext a b
  rw [compareWith, compareBy]
  congr 1
  funext answer
  cases answer with
  | bool b => cases b <;> rfl
  | _ => rfl

/-- The calls of a comparison of `a` and `b` that comes to an answer, and the answer. -/
inductive Round (read : Value → Reading) (a b : Value) : List Call → Int → Prop where
  | once {v : Value} {c : Int} (h : read v = .sign c) : Round read a b [⟨[a, b], .ok v⟩] c
  | twice {v w : Value} (h : read v = .turn) :
    Round read a b [⟨[a, b], .ok v⟩, ⟨[b, a], .ok w⟩] (if w.truthy then 1 else 0)

/-- The calls of a comparison of `a` and `b` that is cut short, and its error. -/
inductive Cut (read : Value → Reading) (a b : Value) : List Call → Error → Prop where
  | first {e : Error} : Cut read a b [⟨[a, b], .error e⟩] e
  | second {v : Value} {e : Error} (h : read v = .turn) :
    Cut read a b [⟨[a, b], .ok v⟩, ⟨[b, a], .error e⟩] e
  | rejected {v : Value} {expected : String} (h : read v = .rejected expected) :
    Cut read a b [⟨[a, b], .ok v⟩] (badAnswer expected v)

/-- The calls of one comparison of `a` and `b`, and its outcome. -/
inductive Compared (read : Value → Reading) (a b : Value) :
    List Call → Except Error Int → Prop where
  | whole {calls : List Call} {c : Int} (round : Round read a b calls c) :
    Compared read a b calls (.ok c)
  | short {calls : List Call} {e : Error} (cut : Cut read a b calls e) :
    Compared read a b calls (.error e)

/-! ## Sorts and searches, call by call -/

/-- The calls of a merge of two runs, and its outcome. -/
inductive MergeCalls (read : Value → Reading) :
    List Value → List Value → List Call → Except Error (List Value) → Prop where
  | noLeft {right : List Value} : MergeCalls read [] right [] (.ok right)
  | noRight {left : List Value} : MergeCalls read left [] [] (.ok left)
  | takeLeft {l r : Value} {left right : List Value} {first rest : List Call} {c : Int}
    {outcome : Except Error (List Value)} (round : Round read l r first c) (take : c ≤ 0)
    (later : MergeCalls read left (r :: right) rest outcome) :
    MergeCalls read (l :: left) (r :: right) (first ++ rest) ((l :: ·) <$> outcome)
  | takeRight {l r : Value} {left right : List Value} {first rest : List Call} {c : Int}
    {outcome : Except Error (List Value)} (round : Round read l r first c) (take : 0 < c)
    (later : MergeCalls read (l :: left) right rest outcome) :
    MergeCalls read (l :: left) (r :: right) (first ++ rest) ((r :: ·) <$> outcome)
  | cut {l r : Value} {left right : List Value} {calls : List Call} {e : Error}
    (short : Cut read l r calls e) :
    MergeCalls read (l :: left) (r :: right) calls (.error e)

/-- The calls of a sort of a list, and its outcome. -/
inductive SortCalls (read : Value → Reading) :
    List Value → List Call → Except Error (List Value) → Prop where
  | few {items : List Value} (few : items.length ≤ 1) : SortCalls read items [] (.ok items)
  | cutLeft {items : List Value} {calls : List Call} {e : Error} (many : 1 < items.length)
    (left : SortCalls read (items.take (items.length / 2)) calls (.error e)) :
    SortCalls read items calls (.error e)
  | cutRight {items sorted : List Value} {calls calls' : List Call} {e : Error}
    (many : 1 < items.length)
    (left : SortCalls read (items.take (items.length / 2)) calls (.ok sorted))
    (right : SortCalls read (items.drop (items.length / 2)) calls' (.error e)) :
    SortCalls read items (calls ++ calls') (.error e)
  | merged {items sorted sorted' : List Value} {calls calls' merging : List Call}
    {outcome : Except Error (List Value)} (many : 1 < items.length)
    (left : SortCalls read (items.take (items.length / 2)) calls (.ok sorted))
    (right : SortCalls read (items.drop (items.length / 2)) calls' (.ok sorted'))
    (both : MergeCalls read sorted sorted' merging outcome) :
    SortCalls read items (calls ++ (calls' ++ merging)) outcome

/-- The calls of a search for a key in the window from `low` to before `high`, and its outcome. -/
inductive SearchCalls (read : Value → Reading) (elements : Array Value) (key : Value) :
    Nat → Nat → List Call → Except Error SearchResult → Prop where
  | empty {low high : Nat} (none : high ≤ low) :
    SearchCalls read elements key low high [] (.ok (.insertAt low))
  | lower {low high : Nat} {x : Value} {first rest : List Call} {c : Int}
    {outcome : Except Error SearchResult} (some : low < high)
    (probe : elements[low + (high - low) / 2]? = .some x) (round : Round read key x first c)
    (less : c < 0)
    (later : SearchCalls read elements key low (low + (high - low) / 2) rest outcome) :
    SearchCalls read elements key low high (first ++ rest) outcome
  | upper {low high : Nat} {x : Value} {first rest : List Call} {c : Int}
    {outcome : Except Error SearchResult} (some : low < high)
    (probe : elements[low + (high - low) / 2]? = .some x) (round : Round read key x first c)
    (greater : 0 < c)
    (later : SearchCalls read elements key (low + (high - low) / 2 + 1) high rest outcome) :
    SearchCalls read elements key low high (first ++ rest) outcome
  | found {low high : Nat} {x : Value} {calls : List Call} (some : low < high)
    (probe : elements[low + (high - low) / 2]? = .some x) (round : Round read key x calls 0) :
    SearchCalls read elements key low high calls (.ok (.found (low + (high - low) / 2)))
  | cut {low high : Nat} {x : Value} {calls : List Call} {e : Error} (some : low < high)
    (probe : elements[low + (high - low) / 2]? = .some x) (short : Cut read key x calls e) :
    SearchCalls read elements key low high calls (.error e)

/-! ## What is watched -/

section Watches

variable {read : Value → Reading} {A B : List Call → Except Error α → Prop}

theorem Watches.mono {m' : Eval (σ × List Call) α} {m : Eval σ α} (h : Watches m' m A)
    (imp : ∀ calls outcome, A calls outcome → B calls outcome) : Watches m' m B := by
  intro s log
  obtain ⟨outcome, s', calls, plain, watched, account⟩ := h s log
  exact ⟨outcome, s', calls, plain, watched, imp calls outcome account⟩

theorem watches_pure {a : α} (result : A [] (.ok a)) :
    Watches (pure a : Eval (σ × List Call) α) (pure a) A := by
  intro s log
  refine ⟨.ok a, s, [], rfl, ?_, result⟩
  rw [List.append_nil]
  rfl

/-- What comes after an answer goes on with the record, and nothing comes after a failure. -/
theorem Watches.bind {C : List Call → Except Error β → Prop} {m' : Eval (σ × List Call) α}
    {m : Eval σ α} {k' : α → Eval (σ × List Call) β} {k : α → Eval σ β} (first : Watches m' m A)
    (failed : ∀ calls e, A calls (.error e) → C calls (.error e))
    (rest : ∀ a, Watches (k' a) (k a) fun calls' outcome =>
      ∀ calls, A calls (.ok a) → C (calls ++ calls') outcome) :
    Watches (m' >>= k') (m >>= k) C := by
  intro s log
  obtain ⟨outcome, s₁, calls, plain, watched, account⟩ := first s log
  rw [Eval.run_bind, Eval.run_bind, plain, watched]
  cases outcome with
  | error e => exact ⟨_, s₁, calls, rfl, rfl, failed calls e account⟩
  | ok a =>
    obtain ⟨outcome, s₂, calls', plain', watched', account'⟩ := rest a s₁ (log ++ calls)
    refine ⟨outcome, s₂, calls ++ calls', plain', ?_, account' calls account⟩
    rw [← List.append_assoc]
    exact watched'

/-- An answer that is passed on takes no call. -/
theorem Watches.map {C : List Call → Except Error β → Prop} {m' : Eval (σ × List Call) α}
    {m : Eval σ α} (g : α → β) (h : Watches m' m A)
    (imp : ∀ calls outcome, A calls outcome → C calls (g <$> outcome)) :
    Watches (do let a ← m'; pure (g a)) (do let a ← m; pure (g a)) C := by
  refine h.bind (fun calls e failed => imp calls (.error e) failed) fun a => watches_pure ?_
  intro calls answered
  rw [List.append_nil]
  exact imp calls (.ok a) answered

/-- A comparison makes one round, or is cut short. -/
theorem watches_comparison (read : Value → Reading) (call : List Value → Eval σ Value)
    (a b : Value) :
    Watches (compareBy read (recorded call) a b) (compareBy read call a b)
      (Compared read a b) := by
  refine (watches_recorded call [a, b]).bind ?_ fun v => ?_
  · rintro calls e rfl
    exact .short .first
  cases taken : read v with
  | sign c =>
    refine watches_pure ?_
    rintro calls rfl
    exact .whole (.once taken)
  | rejected expected =>
    intro s log
    refine ⟨_, s, [], rfl, by rw [List.append_nil]; rfl, ?_⟩
    rintro calls rfl
    exact .short (.rejected taken)
  | turn =>
    refine (watches_recorded call [b, a]).bind ?_ fun w => watches_pure ?_
    · rintro calls' e rfl calls rfl
      exact .short (.second taken)
    · rintro calls' rfl calls rfl
      exact .whole (.twice taken)

section Loops

variable {compare' : Comparison (σ × List Call)} {compare : Comparison σ}

end Loops

end Watches

/-! ## What calls account for -/

/-- The calls of comparisons, one after the other, that all come to an answer.  They are
comparisons of values in a relation. -/
inductive Rounds (read : Value → Reading) (R : Value → Value → Prop) : List Call → Prop where
  | nil : Rounds read R []
  | cons {a b : Value} {c : Int} {round calls : List Call} (pair : R a b)
    (first : Round read a b round c) (rest : Rounds read R calls) :
    Rounds read R (round ++ calls)

/-- How calls account for an outcome.  All comparisons came to an answer and the result is as
`Q` says, or the last comparison was cut short and the outcome is its error. -/
inductive Accounts (read : Value → Reading) (R : Value → Value → Prop) (Q : α → Prop) :
    List Call → Except Error α → Prop where
  | done {calls : List Call} {a : α} (rounds : Rounds read R calls) (result : Q a) :
    Accounts read R Q calls (.ok a)
  | cut {calls last : List Call} {a b : Value} {e : Error} (rounds : Rounds read R calls)
    (pair : R a b) (short : Cut read a b last e) : Accounts read R Q (calls ++ last) (.error e)

section Accounts

variable {read : Value → Reading} {R S : Value → Value → Prop} {Q : α → Prop} {P : β → Prop}
  {calls calls' : List Call} {a b : Value} {c : Int} {e : Error}

theorem Rounds.mono (h : Rounds read R calls) (imp : ∀ a b, R a b → S a b) :
    Rounds read S calls := by
  induction h with
  | nil => exact .nil
  | cons pair first _ ih => exact .cons (imp _ _ pair) first ih

theorem Rounds.append (h : Rounds read R calls) (h' : Rounds read R calls') :
    Rounds read R (calls ++ calls') := by
  induction h with
  | nil => exact h'
  | cons pair first _ ih =>
    rw [List.append_assoc]
    exact .cons pair first ih

theorem Round.rounds (h : Round read a b calls c) (pair : R a b) : Rounds read R calls := by
  rw [← List.append_nil calls]
  exact .cons pair h .nil

/-- No call of a whole comparison fails. -/
theorem Rounds.answered (h : Rounds read R calls) {call : Call} (mem : call ∈ calls) :
    call.Answered := by
  induction h with
  | nil => cases mem
  | cons pair first _ ih =>
    rcases List.mem_append.mp mem with here | later
    · cases first <;> simp at here
      · exact ⟨_, by rw [here]⟩
      · rcases here with rfl | rfl
        · exact ⟨_, rfl⟩
        · exact ⟨_, rfl⟩
    · exact ih later

theorem Accounts.of_ok {x : α} (h : Accounts read R Q calls (.ok x)) :
    Rounds read R calls ∧ Q x := by
  cases h with
  | done rounds result => exact ⟨rounds, result⟩

/-- What is cut short has no result. -/
theorem Accounts.of_error (h : Accounts read R Q calls (.error e)) (imp : ∀ a b, R a b → S a b) :
    Accounts read S P calls (.error e) := by
  cases h with
  | cut rounds pair short => exact .cut (rounds.mono imp) (imp _ _ pair) short

theorem Accounts.mono {Q' : α → Prop} {outcome : Except Error α}
    (h : Accounts read R Q calls outcome) (imp : ∀ x, Q x → Q' x) :
    Accounts read R Q' calls outcome := by
  cases h with
  | done rounds result => exact .done rounds (imp _ result)
  | cut rounds pair short => exact .cut rounds pair short

theorem Accounts.map {outcome : Except Error α} (g : α → β) (h : Accounts read R Q calls outcome)
    (imp : ∀ x, Q x → P (g x)) : Accounts read R P calls (g <$> outcome) := by
  cases h with
  | done rounds result => exact .done rounds (imp _ result)
  | cut rounds pair short => exact .cut rounds pair short

theorem Accounts.after {outcome : Except Error α} (before : Rounds read R calls)
    (h : Accounts read R Q calls' outcome) : Accounts read R Q (calls ++ calls') outcome := by
  cases h with
  | done rounds result => exact .done (before.append rounds) result
  | cut rounds pair short =>
    rw [← List.append_assoc]
    exact .cut (before.append rounds) pair short

theorem Cut.accounts (h : Cut read a b calls e) (pair : R a b) :
    Accounts read R Q calls (.error e) :=
  .cut .nil pair h

theorem Compared.accounts {outcome : Except Error Int} (h : Compared read a b calls outcome) :
    Accounts read (fun x y => x = a ∧ y = b) (fun _ => True) calls outcome := by
  cases h with
  | whole round => exact .done (round.rounds ⟨rfl, rfl⟩) trivial
  | short cut => exact cut.accounts ⟨rfl, rfl⟩

/-- A merge only compares values of the left run with values of the right run, in this
order. -/
theorem MergeCalls.accounts {left right : List Value} {outcome : Except Error (List Value)}
    (h : MergeCalls read left right calls outcome) (pairs : ∀ l ∈ left, ∀ r ∈ right, R l r) :
    Accounts read R (fun out => out.Perm (left ++ right)) calls outcome := by
  induction h with
  | noLeft => exact .done .nil (.refl _)
  | noRight => exact .done .nil (by rw [List.append_nil])
  | @takeLeft l r left right _ _ _ _ round take later ih =>
    have pair := pairs l List.mem_cons_self r List.mem_cons_self
    have rest := ih fun x hx y hy => pairs x (List.mem_cons_of_mem l hx) y hy
    exact (rest.map (l :: ·) fun out perm => perm.cons l).after (round.rounds pair)
  | @takeRight l r left right _ _ _ _ round take later ih =>
    have pair := pairs l List.mem_cons_self r List.mem_cons_self
    have rest := ih fun x hx y hy => pairs x hx y (List.mem_cons_of_mem r hy)
    exact (rest.map (r :: ·) fun out perm => (perm.cons r).trans List.perm_middle.symm).after
      (round.rounds pair)
  | cut short => exact short.accounts (pairs _ List.mem_cons_self _ List.mem_cons_self)

/-- A sort only compares items with later ones, in this order. -/
theorem SortCalls.accounts {items : List Value} {outcome : Except Error (List Value)}
    (h : SortCalls read items calls outcome) :
    Accounts read (fun x y => [x, y].Sublist items) (fun out => out.Perm items) calls outcome := by
  have ofLeft : ∀ (items : List Value) (n : Nat) (x y : Value), [x, y].Sublist (items.take n) →
      [x, y].Sublist items := fun _ n _ _ earlier => earlier.trans (List.take_sublist n _)
  have ofRight : ∀ (items : List Value) (n : Nat) (x y : Value), [x, y].Sublist (items.drop n) →
      [x, y].Sublist items := fun _ n _ _ earlier => earlier.trans (List.drop_sublist n _)
  induction h with
  | few few => exact .done .nil (.refl _)
  | cutLeft many left ih => exact ih.of_error (ofLeft _ _)
  | cutRight many left right ihLeft ihRight =>
    exact (ihRight.of_error (ofRight _ _)).after (ihLeft.of_ok.1.mono (ofLeft _ _))
  | @merged items sorted sorted' _ _ _ _ many left right both ihLeft ihRight =>
    obtain ⟨calls, perm⟩ := ihLeft.of_ok
    obtain ⟨calls', perm'⟩ := ihRight.of_ok
    have whole := List.take_append_drop (items.length / 2) items
    have pairs : ∀ l ∈ sorted, ∀ r ∈ sorted', [l, r].Sublist items := by
      intro l hl r hr
      rw [← whole]
      exact (List.singleton_sublist.mpr (perm.subset hl)).append
        (List.singleton_sublist.mpr (perm'.subset hr))
    have merging := (both.accounts pairs).mono fun out permOut =>
      (permOut.trans (perm.append perm')).trans (.of_eq whole)
    exact (merging.after (calls'.mono (ofRight _ _))).after (calls.mono (ofLeft _ _))

/-- A search only compares the key with elements, in this order. -/
theorem SearchCalls.accounts {elements : Array Value} {key : Value} {low high : Nat}
    {outcome : Except Error SearchResult}
    (h : SearchCalls read elements key low high calls outcome) :
    Accounts read (fun x y => x = key ∧ y ∈ elements.toList) (fun _ => True) calls outcome := by
  have inside : ∀ {i : Nat} {x : Value}, elements[i]? = some x →
      key = key ∧ x ∈ elements.toList := fun probe =>
    ⟨rfl, Array.mem_toList_iff.mpr (Array.mem_of_getElem? probe)⟩
  induction h with
  | empty none => exact .done .nil trivial
  | lower some probe round less later ih => exact ih.after (round.rounds (inside probe))
  | upper some probe round greater later ih => exact ih.after (round.rounds (inside probe))
  | found some probe round => exact .done (round.rounds (inside probe)) trivial
  | cut some probe short => exact short.accounts (inside probe)

end Accounts

/-! ## Failures -/

end ValueCore.Function
