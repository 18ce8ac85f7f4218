import Telemetry.Replay.Run

/-!
# Replays row by row

A replay as a list of turns, one for each row: what the row comes to (`Verdict`), the expression
that it leaves, and the commands that it gives.  Neither the format nor the number of the row has
a part in what the expression goes through; the report and the counts are read off the turns.

* `Run.step_eq`: a step of the replay is the turn of its row, taken down.
* `Run.steps_eq`: so a run over rows is the list of their turns, taken down one after the other.
* `report_replay`, `summary_replay`: the report of a replay is the lines of its verdicts with their
  numbers and then the summary, and the summary counts the verdicts.
-/

namespace Telemetry.Replay

/-! ### Verdicts -/

/-- What a row comes to. -/
inductive Verdict where
  | result (x : Timed)
  /-- There is no synchronized value, and nothing is said. -/
  | skipped
  | failure (fault : RecordFault)

namespace Verdict

/-- What a fault comes to. -/
def ofFault : RecordFault → Verdict
  | .refused .synchronizationUnavailable => skipped
  | fault => failure fault

/-- The line of the report, if there is one. -/
def line? (format : Format) (number : Nat) : Verdict → Option (List Char)
  | result x => some (format.result number x)
  | skipped => none
  | failure fault => some (format.failure number fault.message)

def isResult : Verdict → Bool
  | result _ => true
  | _ => false

def isSkipped : Verdict → Bool
  | skipped => true
  | _ => false

def isFailure : Verdict → Bool
  | failure _ => true
  | _ => false

/-- Every verdict is of one of the three sorts. -/
theorem count_sorts (vs : List Verdict) :
    vs.countP isResult + vs.countP isSkipped + vs.countP isFailure = vs.length := by
  induction vs with
  | nil => rfl
  | cons v vs ih =>
      rw [List.countP_cons, List.countP_cons, List.countP_cons, List.length_cons]
      cases v <;> simp only [isResult, isSkipped, isFailure, if_true, if_false,
        Bool.false_eq_true] <;> omega

end Verdict

/-! ### Turns -/

/-- What a row does. -/
structure Turn where
  verdict : Verdict
  /-- The expression after the row. -/
  expression : Expression
  commands : List Command := []

/-- The verdict of the outcome of a pass. -/
def Verdict.ofOutcome : Outcome Timed → Verdict
  | .ok x => result x
  | .error fault => ofFault (.refused fault)

/-- The turn of a row: a row that is no record, and a record that cannot be assigned, leaves the
expression as it was; any other is evaluated. -/
def Table.turn (t : Table) (number : Nat) (row : Csv.Row) (e : Expression) : Turn :=
  match t.record number row with
  | .error fault => { verdict := .ofFault fault, expression := e }
  | .ok record =>
    match Run.assign t record e with
    | .error fault => { verdict := .ofFault (.refused fault), expression := e }
    | .ok e => ⟨.ofOutcome e.evaluate.2.2, e.evaluate.1, e.evaluate.2.1⟩

/-- The turns of rows, the first of which is the `number`th. -/
def Table.turns (t : Table) : Nat → List Csv.Row → Expression → List Turn
  | _, [], _ => []
  | number, row :: rows, e =>
    t.turn number row e :: turns t (number + 1) rows (t.turn number row e).expression

/-- The expression after turns. -/
def lastExpression (e : Expression) (us : List Turn) : Expression :=
  us.foldl (fun _ u => u.expression) e

theorem lastExpression_append (e : Expression) (us vs : List Turn) :
    lastExpression e (us ++ vs) = lastExpression (lastExpression e us) vs :=
  List.foldl_append

theorem Table.length_turns (t : Table) (number : Nat) (rows : List Csv.Row) (e : Expression) :
    (t.turns number rows e).length = rows.length := by
  induction rows generalizing number e with
  | nil => rfl
  | cons row rows ih => rw [turns, List.length_cons, List.length_cons, ih]

/-- The turns of rows and further rows. -/
theorem Table.turns_append (t : Table) (number : Nat) (front back : List Csv.Row)
    (e : Expression) :
    t.turns number (front ++ back) e =
      t.turns number front e ++
        t.turns (number + front.length) back (lastExpression e (t.turns number front e)) := by
  induction front generalizing number e with
  | nil => rfl
  | cons row front ih =>
      have hnumber : number + 1 + front.length = number + (row :: front).length := by
        rw [List.length_cons]
        omega
      rw [List.cons_append, turns, ih, hnumber]
      rfl

/-! ### What is taken down -/

/-- The summary with a turn counted and its commands obeyed. -/
def Summary.add (s : Summary) (u : Turn) : Summary where
  evaluated := s.evaluated + if u.verdict.isResult then 1 else 0
  skipped := s.skipped + if u.verdict.isSkipped then 1 else 0
  failed := s.failed + if u.verdict.isFailure then 1 else 0
  cursor := s.cursor.obeyAll u.commands

/-- The summary of turns. -/
def Summary.of (us : List Turn) : Summary where
  evaluated := (us.map Turn.verdict).countP Verdict.isResult
  skipped := (us.map Turn.verdict).countP Verdict.isSkipped
  failed := (us.map Turn.verdict).countP Verdict.isFailure
  cursor := ({} : Cursor).obeyAll (us.flatMap Turn.commands)

theorem Summary.of_concat (us : List Turn) (u : Turn) :
    Summary.of (us ++ [u]) = (Summary.of us).add u := by
  have hcursor : (us ++ [u]).flatMap Turn.commands = us.flatMap Turn.commands ++ u.commands := by
    rw [List.flatMap_append, List.flatMap_singleton]
  simp only [Summary.of, Summary.add, List.map_append, List.map_singleton, List.countP_append,
    List.countP_singleton, hcursor, Cursor.obeyAll, List.foldl_append]

/-- The lines of verdicts, the first of which has the given number. -/
def entries (format : Format) (number : Nat) (vs : List Verdict) : List (List Char) :=
  (vs.zipIdx number).filterMap fun v => v.1.line? format v.2

theorem entries_append (format : Format) (number : Nat) (vs ws : List Verdict) :
    entries format number (vs ++ ws) =
      entries format number vs ++ entries format (number + vs.length) ws := by
  rw [entries, List.zipIdx_append, List.filterMap_append]
  rfl

theorem entries_cons (format : Format) (number : Nat) (v : Verdict) (vs : List Verdict) :
    entries format number (v :: vs) =
      (v.line? format number).toList ++ entries format (number + 1) vs := by
  rw [entries, List.zipIdx_cons, List.filterMap_cons]
  cases hline : v.line? format number <;> rfl

namespace Run

/-- A turn, taken down. -/
def take (format : Format) (number : Nat) (u : Turn) (s : Run) : Run where
  expression := u.expression
  summary := s.summary.add u
  lines := (u.verdict.line? format number).toList ++ s.lines

theorem fail_eq (format : Format) (number : Nat) (fault : RecordFault) (s : Run) :
    s.fail format number fault =
      s.take format number { verdict := .ofFault fault, expression := s.expression } := by
  cases fault with
  | refused fault => cases fault <;> rfl
  | _ => rfl

/-- **A step is the turn of its row, taken down.** -/
theorem step_eq (t : Table) (format : Format) (number : Nat) (row : Csv.Row) (s : Run) :
    s.step t format number row = s.take format number (t.turn number row s.expression) := by
  rw [step, Table.turn]
  cases t.record number row with
  | error fault => exact fail_eq format number fault s
  | ok record =>
      dsimp only
      cases assign t record s.expression with
      | error fault => exact fail_eq format number (.refused fault) s
      | ok e =>
          dsimp only
          generalize e.evaluate = pass
          obtain ⟨after, commands, outcome⟩ := pass
          cases outcome with
          | ok x => rfl
          | error fault => cases fault <;> rfl

/-- **A run over rows is their turns, taken down one after the other.** -/
theorem steps_eq (t : Table) (format : Format) (number : Nat) (rows : List Csv.Row) (s : Run) :
    let us := t.turns number rows s.expression
    steps t format number rows s =
      ⟨lastExpression s.expression us, us.foldl Summary.add s.summary,
        (entries format number (us.map Turn.verdict)).reverse ++ s.lines⟩ := by
  induction rows generalizing number s with
  | nil => rfl
  | cons row rows ih =>
      intro us
      have hline : ∀ line : Option (List Char), line.toList.reverse = line.toList := by
        intro line
        cases line <;> rfl
      rw [steps, ih, step_eq]
      show _ = (⟨_, _, (entries format number (((t.turn number row s.expression) ::
        t.turns (number + 1) rows (t.turn number row s.expression).expression).map
          Turn.verdict)).reverse ++ s.lines⟩ : Run)
      rw [List.map_cons, entries_cons, List.reverse_append, hline, List.append_assoc]
      rfl

end Run

/-! ### Replays -/

/-- The turns of all rows of a table. -/
def Table.play (t : Table) (e : Expression) : List Turn := t.turns 1 t.rows e

/-- What the rows of a table come to, in order. -/
def Table.verdicts (t : Table) (e : Expression) : List Verdict := (t.play e).map Turn.verdict

theorem Table.length_verdicts (t : Table) (e : Expression) :
    (t.verdicts e).length = t.rows.length := by
  rw [verdicts, List.length_map, play, length_turns]

theorem foldl_add_eq (us : List Turn) : us.foldl Summary.add {} = Summary.of us := by
  -- from turns that have been taken down already, since the sum grows at its end
  suffices hfrom : ∀ done, us.foldl Summary.add (Summary.of done) = Summary.of (done ++ us) from
    hfrom []
  induction us with
  | nil => intro done; rw [List.append_nil]; rfl
  | cons u us ih =>
      intro done
      rw [List.foldl_cons, ← Summary.of_concat, ih, List.append_assoc]
      rfl

/-- The summary of a replay counts its verdicts. -/
theorem summary_replay (e : Expression) (t : Table) (format : Format) :
    (replay e t format).summary = Summary.of (t.play e) := by
  rw [replay, Run.steps_eq]
  exact foldl_add_eq _

/-- The expression after a replay. -/
theorem expression_replay (e : Expression) (t : Table) (format : Format) :
    (replay e t format).expression = lastExpression e (t.play e) := by
  rw [replay, Run.steps_eq]
  rfl

/-- **The report of a replay** is the lines of its verdicts, and then the summary. -/
theorem report_replay (e : Expression) (t : Table) (format : Format) :
    (replay e t format).report format =
      entries format 1 (t.verdicts e) ++ [format.summary (replay e t format).summary] := by
  have hlines : (replay e t format).lines = (entries format 1 (t.verdicts e)).reverse := by
    rw [replay, Run.steps_eq]
    exact List.append_nil _
  rw [Run.report, List.reverse_cons, hlines, List.reverse_reverse]

end Telemetry.Replay
