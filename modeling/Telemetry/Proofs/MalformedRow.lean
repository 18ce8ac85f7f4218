import Telemetry.Proofs.Compilation
import Telemetry.Proofs.Verdicts

/-!
# Rows that are no records

A row that is no record is a line of the report and a failure in the summary, and nothing else
comes of it.  Its cells are read before any of them is assigned, so the expression does not see
even the good ones; and the rows behind it are counted on, so of the further report only the
numbers change.

* `Table.turns_unplaced`: what rows come to depends on their fields alone, except for the number
  and the place that a fault on the length of a row quotes.
* `verdict_of_record_error`: a row that is no record fails, and is never passed over in silence.
* `replay_insert_malformed`: a replay with such a row inserted, and the replay without it.
-/

namespace Telemetry

/-- The only fault of a literal is that the item has the form of a kind and not a value of it. -/
theorem Literal.fault_of_parse? {item : List Char} {fault : Fault}
    (h : Literal.parse? item = .error fault) :
    ∃ reason, fault = .parse (String.ofList item) reason := by
  have hrefused : ∀ reason, (.error (.parse (String.ofList item) reason) :
      Outcome (Option Value)) = .error fault →
      ∃ reason, fault = .parse (String.ofList item) reason :=
    fun reason hreason => ⟨reason, (Except.error.inj hreason).symm⟩
  rw [parse?] at h
  dsimp only at h
  split at h
  · split at h
    · exact nomatch h
    · exact hrefused _ h
  · split at h
    · split at h
      · exact nomatch h
      · exact hrefused _ h
    · split at h
      · split at h
        · exact nomatch h
        · exact hrefused _ h
      · split at h
        · exact nomatch h
        · exact hrefused _ h
      · split at h
        · exact nomatch h
        · split at h
          · exact nomatch h
          · exact hrefused _ h
        · exact nomatch h

namespace Replay

/-! ### What rows come to -/

/-- A fault without the number and the place of the row, which a fault on the length of a row
quotes. -/
def RecordFault.unplaced : RecordFault → RecordFault
  | .length _ _ found expected => .length 0 {} found expected
  | fault => fault

/-- A verdict without the number and the place of the row. -/
def Verdict.unplaced : Verdict → Verdict
  | .failure fault => .failure fault.unplaced
  | v => v

/-- A turn without the number and the place of the row. -/
def Turn.unplaced (u : Turn) : Turn := { u with verdict := u.verdict.unplaced }

theorem Verdict.unplaced_ofFault (fault : RecordFault) :
    (ofFault fault).unplaced = ofFault fault.unplaced := by
  cases fault with
  | refused fault => cases fault <;> rfl
  | _ => rfl

theorem Verdict.isResult_unplaced (v : Verdict) : v.unplaced.isResult = v.isResult := by
  cases v <;> rfl

theorem Verdict.isSkipped_unplaced (v : Verdict) : v.unplaced.isSkipped = v.isSkipped := by
  cases v <;> rfl

theorem Verdict.isFailure_unplaced (v : Verdict) : v.unplaced.isFailure = v.isFailure := by
  cases v <;> rfl

namespace Table

/-- The record of a row depends on its fields alone. -/
theorem record_unplaced (t : Table) {row row' : Csv.Row} (number number' : Nat)
    (hfields : row'.fields = row.fields) :
    (∃ record, t.record number row = .ok record ∧ t.record number' row' = .ok record) ∨
      ∃ fault fault', t.record number row = .error fault ∧ t.record number' row' = .error fault' ∧
        fault'.unplaced = fault.unplaced := by
  have hsame : ∀ outcome : Except RecordFault Record,
      (∃ record, outcome = .ok record ∧ outcome = .ok record) ∨
        ∃ fault fault', outcome = .error fault ∧ outcome = .error fault' ∧
          fault'.unplaced = fault.unplaced := by
    intro outcome
    cases outcome with
    | ok record => exact Or.inl ⟨record, rfl, rfl⟩
    | error fault => exact Or.inr ⟨fault, fault, rfl, rfl, rfl⟩
  rw [record, record, hfields]
  dsimp only
  by_cases hlength : (row.fields.map Text.trim).length ≠ t.columns.length
  · rw [if_pos hlength, if_pos hlength]
    exact Or.inr ⟨_, _, rfl, rfl, rfl⟩
  · rw [if_neg hlength, if_neg hlength]
    exact hsame _

/-- What a row comes to depends on its fields alone. -/
theorem turn_unplaced (t : Table) {row row' : Csv.Row} (number number' : Nat) (e : Expression)
    (hfields : row'.fields = row.fields) :
    (t.turn number' row' e).unplaced = (t.turn number row e).unplaced := by
  rw [turn, turn]
  rcases t.record_unplaced number number' hfields with
    ⟨record, hold, hnew⟩ | ⟨fault, fault', hold, hnew, hfault⟩
  · rw [hold, hnew]
  · rw [hold, hnew]
    simp only [Turn.unplaced, Verdict.unplaced_ofFault, hfault]

/-- **What rows come to** depends on their fields alone, and not on their numbers. -/
theorem turns_unplaced (t : Table) {rows rows' : List Csv.Row} (number number' : Nat)
    (e : Expression) (hfields : rows'.map Csv.Row.fields = rows.map Csv.Row.fields) :
    (t.turns number' rows' e).map Turn.unplaced = (t.turns number rows e).map Turn.unplaced := by
  induction rows generalizing rows' number number' e with
  | nil => rw [List.map_eq_nil_iff.1 hfields, turns, turns]
  | cons row rows ih =>
      obtain ⟨row', rest, rfl, hrow, hrest⟩ := List.map_eq_cons_iff.1 hfields
      have hturn := t.turn_unplaced number number' e hrow
      -- the rest starts from one expression, so the numbers may differ in it as well
      have hnext : (t.turn number' row' e).expression = (t.turn number row e).expression := by
        show (t.turn number' row' e).unplaced.expression = _
        rw [hturn]
        rfl
      rw [turns, turns, List.map_cons, List.map_cons, hturn, hnext, ih _ _ _ hrest]

/-- The cells of a record have nothing to do with the other rows. -/
theorem cells_rows (t : Table) (rows : List Csv.Row) (index : Nat) (fields : List (List Char)) :
    ({ t with rows := rows } : Table).cells index fields = t.cells index fields := by
  induction fields generalizing index with
  | nil => rfl
  | cons cs fields ih => rw [cells, cells, ih]

theorem turn_rows (t : Table) (rows : List Csv.Row) (number : Nat) (row : Csv.Row)
    (e : Expression) :
    ({ t with rows := rows } : Table).turn number row e = t.turn number row e := by
  have hrecord : ({ t with rows := rows } : Table).record number row = t.record number row := by
    rw [record, record]
    simp only [cells_rows]
  rw [turn, turn, hrecord]
  rfl

/-- What a row comes to has nothing to do with the other rows, but through the expression. -/
theorem turns_rows (t : Table) (all : List Csv.Row) (number : Nat) (rows : List Csv.Row)
    (e : Expression) :
    ({ t with rows := all } : Table).turns number rows e = t.turns number rows e := by
  induction rows generalizing number e with
  | nil => rfl
  | cons row rows ih => rw [turns, turns, turn_rows, ih]

/-- The turns of a table whose rows are a front and a back. -/
theorem play_rows_append (t : Table) (front back : List Csv.Row) (e : Expression) :
    ({ t with rows := front ++ back } : Table).play e =
      t.turns 1 front e ++
        t.turns (front.length + 1) back (lastExpression e (t.turns 1 front e)) := by
  rw [play, turns_rows, turns_append, Nat.add_comm 1]

end Table

/-! ### Rows that fail to be records -/

theorem Table.fault_of_cells {t : Table} {index : Nat} {fields : List (List Char)} {fault : Fault}
    (h : t.cells index fields = .error fault) : ∃ item reason, fault = .parse item reason := by
  induction fields generalizing index with
  | nil => exact nomatch h
  | cons cs fields ih =>
      rw [cells] at h
      split at h
      · exact ih h
      · rcases bind_eq_error h with hcell | ⟨x, -, h⟩
        · exact ⟨_, Literal.fault_of_parse? (map_eq_error hcell)⟩
        · rcases bind_eq_error h with hcells | ⟨others, -, h⟩
          · exact ih hcells
          · exact nomatch h

/-- **A row that is no record fails**: it is never passed over in silence. -/
theorem verdict_of_record_error {t : Table} {number : Nat} {row : Csv.Row} {fault : RecordFault}
    (h : t.record number row = .error fault) : Verdict.ofFault fault = .failure fault := by
  rw [Table.record] at h
  dsimp only at h
  split at h
  · cases h
    rfl
  · rcases bind_eq_error h with htime | ⟨time, -, h⟩
    · cases elim_eq_error htime
      rfl
    · rcases bind_eq_error h with hinstant | ⟨instant, -, h⟩
      · cases elim_eq_error hinstant
        rfl
      · rcases bind_eq_error h with hcells | ⟨cells, -, h⟩
        · obtain ⟨refusal, hread, rfl⟩ := mapError_eq_error hcells
          obtain ⟨item, reason, rfl⟩ := Table.fault_of_cells hread
          rfl
        · exact nomatch h

/-- The turn of a row that is no record. -/
theorem turn_of_record_error {t : Table} {number : Nat} {row : Csv.Row} {fault : RecordFault}
    (e : Expression) (h : t.record number row = .error fault) :
    t.turn number row e = { verdict := .failure fault, expression := e } := by
  rw [Table.turn, h]
  show Turn.mk (Verdict.ofFault fault) e [] = _
  rw [verdict_of_record_error h]

/-! ### One row more -/

/-- The numbers and places of rows do not count in the summary. -/
theorem Summary.of_map_unplaced (us : List Turn) :
    Summary.of (us.map Turn.unplaced) = Summary.of us := by
  have hcount : ∀ p : Verdict → Bool, (∀ v, p v.unplaced = p v) →
      ((us.map Turn.unplaced).map Turn.verdict).countP p = (us.map Turn.verdict).countP p := by
    intro p hp
    rw [List.countP_map, List.countP_map, List.countP_map]
    exact congrArg (List.countP · us) (funext fun u => hp u.verdict)
  have hcommands : (us.map Turn.unplaced).flatMap Turn.commands = us.flatMap Turn.commands := by
    rw [List.flatMap_map]
    rfl
  rw [of, of, hcommands, hcount _ Verdict.isResult_unplaced, hcount _ Verdict.isSkipped_unplaced,
    hcount _ Verdict.isFailure_unplaced]

/-- A failure that gives no command is counted, and nothing else. -/
theorem Summary.of_insert_failure (us vs : List Turn) (fault : RecordFault) (e : Expression) :
    Summary.of (us ++ { verdict := .failure fault, expression := e } :: vs) =
      { Summary.of (us ++ vs) with failed := (Summary.of (us ++ vs)).failed + 1 } := by
  simp only [of, List.map_append, List.map_cons, List.countP_append, List.countP_cons,
    List.flatMap_append, List.flatMap_cons]
  rfl

theorem lastExpression_map_unplaced (e : Expression) (us : List Turn) :
    lastExpression e (us.map Turn.unplaced) = lastExpression e us :=
  List.foldl_map

/-- **A row that is no record changes nothing but its own line.**  The rows in front of it come
to the same verdicts, and so do those behind it, except for the number and the place that a fault
on the length of a row quotes.  The report has the line of the failure between theirs and numbers
the later ones by one more; the summary has one failure more and the same cursor; and the same
expression is left. -/
theorem replay_insert_malformed (e : Expression) (t : Table) (format : Format)
    {front back back' : List Csv.Row} {bad : Csv.Row} {fault : RecordFault}
    (hbad : t.record (front.length + 1) bad = .error fault)
    (hback : back'.map Csv.Row.fields = back.map Csv.Row.fields) :
    let short : Table := { t with rows := front ++ back }
    let long : Table := { t with rows := front ++ bad :: back' }
    ∃ before after after', before.length = front.length ∧
      after'.map Verdict.unplaced = after.map Verdict.unplaced ∧
      short.verdicts e = before ++ after ∧
      long.verdicts e = before ++ .failure fault :: after' ∧
      (replay e short format).report format =
        entries format 1 before ++ entries format (front.length + 1) after ++
          [format.summary (replay e short format).summary] ∧
      (replay e long format).report format =
        entries format 1 before ++ format.failure (front.length + 1) fault.message ::
          entries format (front.length + 2) after' ++
          [format.summary (replay e long format).summary] ∧
      (replay e long format).summary =
        { (replay e short format).summary with
          failed := (replay e short format).summary.failed + 1 } ∧
      (replay e long format).expression = (replay e short format).expression := by
  intro short long
  let us := t.turns 1 front e
  let middle := lastExpression e us
  let vs := t.turns (front.length + 1) back middle
  let ws := t.turns (front.length + 2) back' middle
  have hsame : ws.map Turn.unplaced = vs.map Turn.unplaced :=
    t.turns_unplaced _ _ middle hback
  have hshort : short.play e = us ++ vs := t.play_rows_append front back e
  have hlong : long.play e = us ++ { verdict := .failure fault, expression := middle } :: ws := by
    rw [Table.play_rows_append, Table.turns, turn_of_record_error _ hbad]
  have hlength : (us.map Turn.verdict).length = front.length := by
    rw [List.length_map, Table.length_turns]
  have hverdicts : short.verdicts e = us.map Turn.verdict ++ vs.map Turn.verdict := by
    rw [Table.verdicts, hshort, List.map_append]
  have hverdicts' : long.verdicts e =
      us.map Turn.verdict ++ .failure fault :: ws.map Turn.verdict := by
    rw [Table.verdicts, hlong, List.map_append, List.map_cons]
  refine ⟨us.map Turn.verdict, vs.map Turn.verdict, ws.map Turn.verdict, hlength, ?_, hverdicts,
    hverdicts', ?_, ?_, ?_, ?_⟩
  · have hmap := congrArg (List.map Turn.verdict) hsame
    rw [List.map_map, List.map_map] at hmap
    rw [List.map_map, List.map_map]
    exact hmap
  · rw [report_replay, hverdicts, entries_append, hlength, Nat.add_comm 1]
  · rw [report_replay, hverdicts', entries_append, hlength, Nat.add_comm 1, entries_cons]
    rfl
  · have hsummary : Summary.of (us ++ ws) = Summary.of (us ++ vs) := by
      rw [← Summary.of_map_unplaced, List.map_append, hsame, ← List.map_append,
        Summary.of_map_unplaced]
    rw [summary_replay, summary_replay, hshort, hlong, Summary.of_insert_failure, hsummary]
  · have hlast : lastExpression middle ws = lastExpression middle vs := by
      rw [← lastExpression_map_unplaced, hsame, lastExpression_map_unplaced]
    rw [expression_replay, expression_replay, hshort, hlong, lastExpression_append,
      lastExpression_append]
    exact hlast

/-- A table whose columns feed both variables of the example. -/
def feedColumns : Table := ⟨["time".toList, "A".toList, "B".toList], 0, []⟩

/-- A row with two samples. -/
def fullRow : Csv.Row := ⟨["1".toList, "1".toList, "2".toList], {}⟩

/-- A row whose last cell has the form of a date, behind a cell that is in order. -/
def undatedRow : Csv.Row := ⟨["2".toList, "7".toList, "#x#".toList], { line := 2, byte := 6 }⟩

/-- A row that is too short, at a line. -/
def shortRow (line : Nat) : Csv.Row := ⟨["3".toList, "1".toList], { line := line, byte := 14 }⟩

/-- The lines that a replay prints for its rows, and how many rows gave a result, were passed over and
failed. -/
def Run.printed (run : Run) : List (List Char) × Nat × Nat × Nat :=
  ((run.report .text).dropLast, run.summary.evaluated, run.summary.skipped, run.summary.failed)

/-- The cell in front of the one that is no date does not reach the running total.  The row adds its
own line and a failure; the row behind it is too short in either replay, and is numbered on. -/
theorem replay_insert_undated :
    ∃ e fault, Definition.feed.compile {} = .ok e ∧
      feedColumns.record ([fullRow].length + 1) undatedRow = .error fault ∧
      [shortRow 3, fullRow].map Csv.Row.fields = [shortRow 2, fullRow].map Csv.Row.fields ∧
      let short : Table := { feedColumns with rows := [fullRow] ++ [shortRow 2, fullRow] }
      let long : Table :=
        { feedColumns with rows := [fullRow] ++ undatedRow :: [shortRow 3, fullRow] }
      (∃ before after after', before.length = [fullRow].length ∧
        after'.map Verdict.unplaced = after.map Verdict.unplaced ∧
        short.verdicts e = before ++ after ∧
        long.verdicts e = before ++ .failure fault :: after' ∧
        (replay e short .text).report .text =
          entries .text 1 before ++ entries .text ([fullRow].length + 1) after ++
            [Format.text.summary (replay e short .text).summary] ∧
        (replay e long .text).report .text =
          entries .text 1 before ++ Format.text.failure ([fullRow].length + 1) fault.message ::
            entries .text ([fullRow].length + 2) after' ++
            [Format.text.summary (replay e long .text).summary] ∧
        (replay e long .text).summary =
          { (replay e short .text).summary with
            failed := (replay e short .text).summary.failed + 1 } ∧
        (replay e long .text).expression = (replay e short .text).expression) ∧
      (replay e short .text).printed =
        (["1\t1970-01-01T00:00:00.000000001Z\t3".toList,
          "2\terror\tCSV error: record 2 (line: 2, byte: 14): ".toList ++
            "found record with 2 fields, but the previous record has 3 fields".toList], 1, 1, 1) ∧
      (replay e long .text).printed =
        (["1\t1970-01-01T00:00:00.000000001Z\t3".toList,
          "2\terror\tParse error at '#x#': invalid date literal".toList,
          "3\terror\tCSV error: record 3 (line: 3, byte: 14): ".toList ++
            "found record with 2 fields, but the previous record has 3 fields".toList], 1, 1, 2) := by
  obtain ⟨e, he, -⟩ := Definition.compile_feed
  obtain ⟨fault, hbad⟩ : ∃ fault, feedColumns.record 2 undatedRow = .error fault := by
    have hrefused : (feedColumns.record 2 undatedRow).toOption.isNone = true := by decide +kernel
    cases h : feedColumns.record 2 undatedRow with
    | ok record =>
        rw [h] at hrefused
        exact nomatch hrefused
    | error fault => exact ⟨fault, rfl⟩
  have hshort : ((Definition.feed.compile {}).toOption.map fun e =>
      (replay e { feedColumns with rows := [fullRow] ++ [shortRow 2, fullRow] } .text).printed) =
      some (["1\t1970-01-01T00:00:00.000000001Z\t3".toList,
        "2\terror\tCSV error: record 2 (line: 2, byte: 14): ".toList ++
          "found record with 2 fields, but the previous record has 3 fields".toList], 1, 1, 1) := by
    decide +kernel
  have hlong : ((Definition.feed.compile {}).toOption.map fun e =>
      (replay e { feedColumns with rows := [fullRow] ++ undatedRow :: [shortRow 3, fullRow] }
        .text).printed) =
      some (["1\t1970-01-01T00:00:00.000000001Z\t3".toList,
        "2\terror\tParse error at '#x#': invalid date literal".toList,
        "3\terror\tCSV error: record 3 (line: 3, byte: 14): ".toList ++
          "found record with 2 fields, but the previous record has 3 fields".toList], 1, 1, 2) := by
    decide +kernel
  rw [he, Except.toOption, Option.map_some, Option.some.injEq] at hshort hlong
  exact ⟨e, fault, he, hbad, rfl, replay_insert_malformed e feedColumns .text hbad rfl, hshort,
    hlong⟩

end Replay

end Telemetry
