import Telemetry.Proofs.Passes

/-!
# Sessions

What a host does with a linked expression: it sets variables and evaluates, in any order and
as often as it likes.  Whatever the calls, the expression stays linked, its tokens stay the
same up to what they remember, and its variables keep their names and positions
(`Continues.calls`).  Facts about every state of a session are invariants of one call.
-/

namespace Telemetry

namespace VariableTable

@[simp] theorem length_names (t : VariableTable) : t.names.length = t.size := List.length_map ..

/-- The position of a variable is that of its name among the names. -/
theorem position?_eq_findIdx? (t : VariableTable) (name : String) :
    t.position? name = t.names.findIdx? (· == name) := by
  rw [position?, names, List.findIdx?_map]
  rfl

/-- Positions depend on names alone. -/
theorem position?_congr {t u : VariableTable} (h : t.names = u.names) (name : String) :
    t.position? name = u.position? name := by
  rw [position?_eq_findIdx?, position?_eq_findIdx?, h]

/-- A position that has a variable lies inside the table. -/
theorem get?_eq_none_iff {t : VariableTable} {id : Nat} : t.get? id = none ↔ t.size ≤ id :=
  List.getElem?_eq_none_iff

theorem getElem?_assign (sample : Timed) (id other : Nat) (vs : List Variable) :
    (assign sample id vs)[other]? =
      if other = id then vs[other]?.map fun v => { v with sample := sample, isSet := true }
      else vs[other]? := by
  induction vs generalizing id other with
  | nil => cases id <;> simp [assign]
  | cons v vs ih =>
      cases id with
      | zero => cases other <;> simp [assign]
      | succ id =>
          cases other with
          | zero => simp [assign]
          | succ other => simpa [assign] using ih id other

/-- A new sample is found at its position and changes nothing at any other. -/
theorem get?_set (t : VariableTable) (id other : Nat) (sample : Timed) :
    (t.set id sample).get? other =
      if other = id then (t.get? other).map fun v => { v with sample := sample, isSet := true }
      else t.get? other := getElem?_assign sample id other t.entries

end VariableTable

/-- What a host does with an expression. -/
inductive Call where
  /-- Sets the variable of a name. -/
  | set (name : String) (sample : Timed)
  | evaluate

namespace Expression

/-- The expression after a call; setting a variable that there is not changes nothing. -/
def call (e : Expression) : Call → Expression
  | .set name sample =>
    match e.set name sample with
    | .ok e => e
    | .error _ => e
  | .evaluate => e.evaluate.1

/-- The expression after calls, in order. -/
def calls (e : Expression) (cs : List Call) : Expression := cs.foldl call e

/-- What the passes among calls give, in order. -/
def answers (e : Expression) : List Call → List (Outcome Timed)
  | [] => []
  | .set name sample :: cs => (e.call (.set name sample)).answers cs
  | .evaluate :: cs => e.evaluate.2.2 :: (e.call .evaluate).answers cs

@[simp] theorem calls_cons (e : Expression) (c : Call) (cs : List Call) :
    e.calls (c :: cs) = (e.call c).calls cs := rfl

theorem calls_append (e : Expression) (cs ds : List Call) :
    e.calls (cs ++ ds) = (e.calls cs).calls ds := List.foldl_append ..

/-- Every answer is that of a pass after some of the calls. -/
theorem mem_answers {e : Expression} {cs : List Call} {o : Outcome Timed} (h : o ∈ e.answers cs) :
    ∃ earlier, o = (e.calls earlier).evaluate.2.2 := by
  induction cs generalizing e with
  | nil => exact nomatch h
  | cons c cs ih =>
      cases c with
      | set name sample =>
          obtain ⟨earlier, ho⟩ := ih h
          exact ⟨.set name sample :: earlier, ho⟩
      | evaluate =>
          rcases List.mem_cons.1 h with rfl | h
          · exact ⟨[], rfl⟩
          · obtain ⟨earlier, ho⟩ := ih h
            exact ⟨.evaluate :: earlier, ho⟩

/-- Setting a variable finds its position and puts the sample there, or changes nothing. -/
theorem call_set (e : Expression) (name : String) (sample : Timed) :
    e.call (.set name sample) =
      { e with table := (e.table.position? name).elim e.table fun id => e.table.set id sample } := by
  rw [call, set]
  cases e.table.position? name <;> rfl

theorem call_evaluate {e : Expression} (h : e.linked = true) :
    e.call .evaluate = { e with tokens := e.kept } := by
  rw [call, evaluate_of_linked h]

/-- `e` is a state of the linked expression `start`. -/
structure Continues (start e : Expression) : Prop where
  linked : e.linked = true
  tokens : e.tokens.map Token.bare = start.tokens.map Token.bare
  names : e.table.names = start.table.names
  lastSynch : e.lastSynch = start.lastSynch
  config : e.config = start.config

theorem Continues.refl {e : Expression} (h : e.linked = true) : e.Continues e :=
  ⟨h, rfl, rfl, rfl, rfl⟩

/-- A call leaves a state of the same expression. -/
theorem Continues.call {start e : Expression} (h : start.Continues e) (c : Call) :
    start.Continues (e.call c) := by
  cases c with
  | set name sample =>
      rw [call_set]
      refine ⟨h.linked, h.tokens, ?_, h.lastSynch, h.config⟩
      rw [← h.names]
      cases e.table.position? name with
      | none => rfl
      | some id => exact e.table.names_set id sample
  | evaluate =>
      rw [call_evaluate h.linked]
      exact ⟨h.linked, e.map_bare_kept.trans h.tokens, h.names, h.lastSynch, h.config⟩

/-- **Every state of a session is a state of the expression it began with.** -/
theorem Continues.calls {start e : Expression} (h : start.Continues e) (cs : List Call) :
    start.Continues (e.calls cs) := by
  induction cs generalizing e with
  | nil => exact h
  | cons c cs ih => exact ih (h.call c)

end Expression

end Telemetry
