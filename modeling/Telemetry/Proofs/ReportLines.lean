import Mathlib.Algebra.GroupWithZero.Nat
import Mathlib.Data.List.Forall2
import Telemetry.Proofs.LineFeeds
import Telemetry.Proofs.Verdicts

/-!
# Lines of a report

A replay reports one line for each row that is not passed over, in the order of the rows and
beginning with the number of the row, and then the summary.  In JSON each of them is a line of the
output.  In text the value or the message stands in the line as it is, and a line feed in it ends
the line before its end: then, and only then, the output does not split into the lines of the
report.

* `splitOn_text_iff`: when a text splits into the lines that it was written from.
* `count_feeds_of_line`: the line feeds inside a line of the report.
* `lines_of_replay`: the lines of the output of a replay, and when they are those of the report.
* `result_over_two_lines`: one row whose result takes two lines.
-/

namespace Telemetry.Replay

/-! ### Texts and their lines -/

/-- The line feeds of lines: one behind each, and those inside. -/
theorem count_text (lines : List (List Char)) :
    (Run.text lines).count '\n' = lines.length + (lines.map (List.count '\n')).sum := by
  induction lines with
  | nil => rfl
  | cons line lines ih =>
      have hcons : Run.text (line :: lines) = line ++ ['\n'] ++ Run.text lines := rfl
      rw [hcons, List.count_append, List.count_append, ih, List.map_cons, List.sum_cons,
        List.length_cons, List.count_singleton_self]
      omega

theorem splitOn_text {lines : List (List Char)} (h : ∀ line ∈ lines, '\n' ∉ line) :
    (Run.text lines).splitOn '\n' = lines ++ [[]] := by
  induction lines with
  | nil => rfl
  | cons line lines ih =>
      have hcons : Run.text (line :: lines) = line ++ '\n' :: Run.text lines :=
        List.append_assoc line ['\n'] _
      rw [hcons, List.splitOn_append_cons_self_of_not_mem (h line List.mem_cons_self),
        ih fun other hother => h other (List.mem_cons_of_mem line hother)]
      rfl

/-- **A text splits into the lines that it was written from** just if none of them has a line
feed inside. -/
theorem splitOn_text_iff (lines : List (List Char)) :
    (Run.text lines).splitOn '\n' = lines ++ [[]] ↔ ∀ line ∈ lines, '\n' ∉ line := by
  refine ⟨fun h line hline => ?_, splitOn_text⟩
  -- there is one part more than line feeds, so none is left for the inside of a line
  have hlength := congrArg List.length h
  rw [length_splitOn, count_text, List.length_append, List.length_singleton] at hlength
  have hnone : (lines.map (List.count '\n')).sum = 0 := by omega
  have hzero := List.sum_eq_zero_iff_forall_eq_nat.1 hnone _ (List.mem_map_of_mem hline)
  exact List.count_eq_zero.1 hzero

/-! ### The line of a verdict -/

/-- What a verdict says in its own words: the value or the message. -/
def Verdict.said : Verdict → List Char
  | result x => x.value.toText.toList
  | skipped => []
  | failure fault => fault.message.toList

/-- The line feeds inside the line of a verdict: in text those of what it says. -/
def Format.feeds (v : Verdict) : Format → Nat
  | .text => v.said.count '\n'
  | .json => 0

/-- How the line of a row begins. -/
def Format.opening (number : Nat) : Format → List Char
  | .text => Number.digits number ++ ['\t']
  | .json => '{' :: ("\"line\":".toList ++ Number.digits number ++ [','])

theorem tabbed_three (a b c : List Char) :
    tabbed [a, b, c] = a ++ ['\t'] ++ (b ++ ['\t'] ++ c) := by
  simp [tabbed, List.intercalate]

theorem integer_natCast (n : Nat) : Json.integer n = Number.digits n := by
  rw [Json.integer, Number.integerText, if_neg (Int.not_lt.2 (Int.natCast_nonneg n))]
  rfl

/-- An object begins with its first field. -/
theorem opening_isPrefix_object (number : Nat) (field : String × List Char)
    (fields : List (String × List Char)) :
    Format.json.opening number <+:
      Json.object (("line", Json.integer number) :: field :: fields) := by
  have hname : "\"line\":".toList = Text.quote "line".toList ++ [':'] := by decide +kernel
  have hfront : Text.quote "line".toList ++ [':'] ++ Number.digits number ++ [','] =
      (Text.quote "line".toList ++ ':' :: Number.digits number) ++ [','] := by
    rw [List.append_assoc (Text.quote "line".toList)]
    rfl
  rw [Format.opening, hname, hfront, Json.object, List.map_cons, List.map_cons,
    List.intercalate_cons_cons, integer_natCast, List.append_assoc _ _ ['}']]
  exact List.cons_prefix_cons.2 ⟨rfl, List.prefix_append _ _⟩

namespace Verdict

/-- A line begins with the number of its row. -/
theorem opening_isPrefix {format : Format} {number : Nat} {v : Verdict} {line : List Char}
    (h : v.line? format number = some line) : format.opening number <+: line := by
  cases v with
  | skipped => exact nomatch h
  | result x =>
      cases h
      cases format with
      | text =>
          rw [Format.result, tabbed_three]
          exact List.prefix_append _ _
      | json => exact opening_isPrefix_object number _ _
  | failure fault =>
      cases h
      cases format with
      | text =>
          rw [Format.failure, tabbed_three]
          exact List.prefix_append _ _
      | json => exact opening_isPrefix_object number _ _

/-- The line feeds inside a line. -/
theorem count_feeds_of_line {format : Format} {number : Nat} {v : Verdict} {line : List Char}
    (h : v.line? format number = some line) : line.count '\n' = format.feeds v := by
  have htabbed : ∀ {front : List Char} (cs : List Char), '\n' ∉ front →
      (tabbed [Number.digits number, front, cs]).count '\n' = cs.count '\n' := by
    intro front cs hfront
    rw [tabbed_three]
    simp [List.count_append, List.count_eq_zero.2 hfront,
      List.count_eq_zero.2 (Number.notMem_digits number)]
  cases v with
  | skipped => exact nomatch h
  | result x =>
      cases h
      cases format with
      | text => exact htabbed _ (notMem_stamp x.time)
      | json =>
          refine List.count_eq_zero.2 (Json.notMem_object ?_)
          simp [Json.notMem_ofValue]
  | failure fault =>
      cases h
      cases format with
      | text => exact htabbed _ (by decide)
      | json =>
          refine List.count_eq_zero.2 (Json.notMem_object ?_)
          simp

end Verdict

/-! ### The lines of a replay -/

/-- The rows that have a line: those that are not passed over, with their numbers. -/
def reported (number : Nat) (vs : List Verdict) : List (Verdict × Nat) :=
  (vs.zipIdx number).filter fun v => !v.1.isSkipped

theorem reported_cons (number : Nat) (v : Verdict) (vs : List Verdict) :
    reported number (v :: vs) =
      (if v.isSkipped then [] else [(v, number)]) ++ reported (number + 1) vs := by
  rw [reported, List.zipIdx_cons, List.filter_cons]
  cases v <;> rfl

/-- As many rows have a line as give a result or fail. -/
theorem length_reported (number : Nat) (vs : List Verdict) :
    (reported number vs).length = vs.countP Verdict.isResult + vs.countP Verdict.isFailure := by
  induction vs generalizing number with
  | nil => rfl
  | cons v vs ih =>
      rw [reported_cons, List.length_append, ih, List.countP_cons, List.countP_cons]
      cases v <;> simp [Verdict.isSkipped, Verdict.isResult, Verdict.isFailure] <;> omega

/-- The numbers of the rows that have a line ascend. -/
theorem numbers_ascend (number : Nat) (vs : List Verdict) :
    ((reported number vs).map Prod.snd).Pairwise (· < ·) := by
  have hsub : ((reported number vs).map Prod.snd).Sublist ((vs.zipIdx number).map Prod.snd) :=
    List.filter_sublist.map Prod.snd
  rw [List.zipIdx_map_snd] at hsub
  exact List.Pairwise.sublist hsub List.pairwise_lt_range'

/-- The lines of verdicts are those of the rows that have one. -/
theorem forall₂_entries (format : Format) (number : Nat) (vs : List Verdict) :
    List.Forall₂ (fun v line => v.1.line? format v.2 = some line) (reported number vs)
      (entries format number vs) := by
  induction vs generalizing number with
  | nil => exact .nil
  | cons v vs ih =>
      rw [reported_cons, entries_cons]
      cases v with
      | skipped => exact ih (number + 1)
      | _ => exact .cons rfl (ih (number + 1))

/-- The line feeds inside the lines of verdicts. -/
theorem map_count_entries (format : Format) (number : Nat) (vs : List Verdict) :
    (entries format number vs).map (List.count '\n') =
      (reported number vs).map fun v => format.feeds v.1 := by
  have hsame : List.Forall₂ (· = ·) ((reported number vs).map fun v => format.feeds v.1)
      ((entries format number vs).map (List.count '\n')) := by
    rw [List.forall₂_map_left_iff, List.forall₂_map_right_iff]
    exact (forall₂_entries format number vs).imp fun v line hline =>
      (Verdict.count_feeds_of_line hline).symm
  rw [List.forall₂_eq_eq_eq] at hsame
  exact hsame.symm

/-- When no line of verdicts has a line feed inside. -/
theorem notMem_entries_iff (format : Format) (number : Nat) (vs : List Verdict) :
    (∀ line ∈ entries format number vs, '\n' ∉ line) ↔
      format = .json ∨ ∀ v ∈ reported number vs, '\n' ∉ v.1.said := by
  have hcounts : (∀ line ∈ entries format number vs, line.count '\n' = 0) ↔
      ∀ v ∈ reported number vs, format.feeds v.1 = 0 := by
    rw [← List.forall_mem_map (P := (· = 0)), map_count_entries, List.forall_mem_map]
  simp only [List.count_eq_zero] at hcounts
  rw [hcounts]
  cases format with
  | text => simp [Format.feeds, List.count_eq_zero]
  | json => simp [Format.feeds]

/-- **The lines of a replay.**  Every row is counted once.  Each row that gives a result or fails
has one line of the report, in the order of the rows, which begins with the number of the row; the
numbers ascend, and the summary comes last.  The output has one line feed for each of these lines,
and in text those inside the values and messages besides.  It splits into the lines of the report
in JSON, and in text just if no value and no message has a line feed. -/
theorem lines_of_replay (e : Expression) (t : Table) (format : Format) :
    let run := replay e t format
    let rows := reported 1 (t.verdicts e)
    run.summary.evaluated + run.summary.skipped + run.summary.failed = t.rows.length ∧
      rows.length = run.summary.evaluated + run.summary.failed ∧
      (rows.map Prod.snd).Pairwise (· < ·) ∧
      (∃ lines, run.report format = lines ++ [format.summary run.summary] ∧
        List.Forall₂ (fun v line =>
          v.1.line? format v.2 = some line ∧ format.opening v.2 <+: line) rows lines) ∧
      (Run.text (run.report format)).count '\n' =
        run.summary.evaluated + run.summary.failed + 1 +
          (rows.map fun v => format.feeds v.1).sum ∧
      ((Run.text (run.report format)).splitOn '\n' = run.report format ++ [[]] ↔
        format = .json ∨ ∀ v ∈ rows, '\n' ∉ v.1.said) := by
  intro run rows
  have hreport : run.report format =
      entries format 1 (t.verdicts e) ++ [format.summary run.summary] := report_replay e t format
  have hlines := forall₂_entries format 1 (t.verdicts e)
  have hrows : rows.length = run.summary.evaluated + run.summary.failed := by
    rw [summary_replay]
    exact length_reported 1 (t.verdicts e)
  have hsummary := format.notMem_summary run.summary
  refine ⟨?_, hrows, numbers_ascend 1 _, ⟨_, hreport, ?_⟩, ?_, ?_⟩
  · rw [summary_replay, ← t.length_verdicts e]
    exact Verdict.count_sorts _
  · exact hlines.imp fun v line hline => ⟨hline, Verdict.opening_isPrefix hline⟩
  · rw [hreport, count_text, List.map_append, map_count_entries, List.sum_append,
      List.length_append, ← hlines.length_eq, List.map_singleton, List.sum_singleton,
      List.count_eq_zero.2 hsummary, List.length_singleton]
    show rows.length + 1 + _ = _
    rw [hrows]
    rfl
  · rw [splitOn_text_iff, hreport, ← notMem_entries_iff, List.forall_mem_append]
    exact and_iff_left (List.forall_mem_singleton.2 hsummary)

/-- A definition that gives a variable back. -/
def Definition.echo : Definition :=
  { name := "echo"
    sequence := .items ["P".toList]
    config := none }

/-- A table of one record, whose cell is a text of two lines. -/
def twoLineCell : List Char := "time,P\n1,\"a\nb\"\n".toList

/-- Whether the output of a replay in text has another number of line feeds than the report has
lines. -/
def spreads (e : Expression) (t : Table) : Bool :=
  let run := replay e t .text
  (Run.text (run.report .text)).count '\n' ≠ run.summary.evaluated + run.summary.failed + 1

/-- **A result can take two lines.**  It is not so that the output of every replay has one line
for each result and each failure and one for the summary. -/
theorem result_over_two_lines :
    ¬ ∀ (d : Definition) (e : Expression) (cs : List Char) (t : Table) (format : Format),
      d.compile {} = .ok e → Table.ofText? "time" cs = some t →
        (Run.text ((replay e t format).report format)).count '\n' =
          (replay e t format).summary.evaluated + (replay e t format).summary.failed + 1 := by
  intro hall
  have hcheck : (Definition.echo.compile {}).toOption.any
      (fun e => (Table.ofText? "time" twoLineCell).any (spreads e)) = true := by decide +kernel
  cases he : Definition.echo.compile {} with
  | error refusal =>
      rw [he] at hcheck
      exact nomatch hcheck
  | ok e =>
      rw [he] at hcheck
      cases ht : Table.ofText? "time" twoLineCell with
      | none =>
          rw [ht] at hcheck
          exact nomatch hcheck
      | some t =>
          rw [ht] at hcheck
          exact of_decide_eq_true hcheck (hall _ e _ t .text he ht)

end Telemetry.Replay
