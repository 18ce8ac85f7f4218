import Telemetry.Proofs.SourceItems
import Telemetry.Proofs.StatelessPasses

/-!
# Texts as constants

Every text can be written as a constant: between quotes, with the quotes in it doubled (`quoted`).
What is written so is one item of a source text, trimming leaves it as it is, the reader of literals
undoes the doubling (`Literal.replaceAll_doubled`, `Literal.parse?_quoted`), and the expression of
it gives the text (`Expression.texts_written`).  Nothing is asked of the text: it may be empty,
consist of quotes or blanks, or have the form of another literal.
-/

namespace Telemetry

/-! ### Quoting and its undoing -/

namespace Literal

/-- A text as it is written between quotes. -/
def quoted (s : List Char) : List Char := '"' :: (doubled s ++ ['"'])

/-- **Replacing doubled quotes by single ones undoes the doubling.**  From left to right every
quote of the doubled text is met together with its double. -/
theorem replaceAll_doubled (s : List Char) :
    Text.replaceAll ['"', '"'] ['"'] (doubled s) = s := by
  induction s with
  | nil => simp [doubled, Text.replaceAll]
  | cons c s ih =>
      rw [doubled_cons]
      by_cases hquote : c = '"'
      · subst hquote
        have hpair : ['"', '"'].isPrefixOf ('"' :: '"' :: doubled s) = true := rfl
        rw [if_pos rfl, List.cons_append, List.cons_append, List.nil_append, Text.replaceAll,
          if_pos hpair]
        show '"' :: Text.replaceAll ['"', '"'] ['"'] (doubled s) = '"' :: s
        rw [ih]
      · have hapart : ['"', '"'].isPrefixOf (c :: doubled s) = false := by
          rw [List.isPrefixOf, beq_false_of_ne (Ne.symm hquote), Bool.false_and]
        rw [if_neg hquote, List.singleton_append, Text.replaceAll,
          if_neg (ne_true_of_eq_false hapart), ih]

/-- What is written between quotes is read as the text. -/
theorem parse?_quoted (s : List Char) :
    parse? (quoted s) = .ok (some (.text (String.ofList s))) := by
  rw [quoted, parse?_text, replaceAll_doubled]

/-- A quote at each end leaves nothing to trim. -/
theorem trim_quoted (s : List Char) : Text.trim (quoted s) = quoted s := by
  refine Text.trim_of_ends ?_ ?_
  · intro c hc
    rw [← Option.some.inj hc]
    rfl
  · intro c hc
    rw [quoted, ← List.cons_append, List.getLast?_concat] at hc
    rw [← Option.some.inj hc]
    rfl

end Literal

/-! ### Expressions of texts -/

namespace Source

open Literal

/-- Two texts and the sign that joins them. -/
def joining (s t : List Char) : List Char := quoted s ++ ' ' :: (quoted t ++ [' ', '&'])

/-- The text of one constant is one item. -/
theorem items_quoted (s : List Char) : items (quoted s) = .ok [quoted s] := items_of_item (.text s)

/-- Two constants and a sign are three items. -/
theorem items_joining (s t : List Char) :
    items (joining s t) = .ok [quoted s, quoted t, ['&']] := by
  have hgap : ∀ c ∈ [' '], Text.isBlank c = true := List.all_eq_true.1 rfl
  have hsign : Item ['&'] := .word (by decide) (by decide) (by simp [Text.isBlank])
  have hnone : ∀ c ∈ [], Text.isBlank c = true := List.forall_mem_nil _
  have hread := items_joined.1 [] [⟨quoted s, [' '], .text s, hgap⟩,
    ⟨quoted t, [' '], .text t, hgap⟩, ⟨['&'], [], hsign, hnone⟩] hnone (by simp)
  simpa [joining, joined] using hread

end Source

namespace Expression

open Literal

variable {config : Configuration}

/-- What is written between quotes is a constant. -/
theorem pushItem_quoted (e : Expression) (s : List Char) :
    e.pushItem (quoted s) = .ok (e.pushConstant (.text (String.ofList s))) := by
  rw [pushItem, parse?_quoted]

/-- The sign that joins texts is their function. -/
theorem pushItem_join (e : Expression) :
    e.pushItem ['&'] = .ok (e.push (.function (.operator (.textual .concat)))) := by
  have hliteral : parse? ['&'] = .ok none := rfl
  rw [pushItem, hliteral]
  rfl

/-- An expression of items that need no trimming is made of them one by one and linked. -/
theorem ofSource_eq (hconfig : config.check = .ok ()) {source : String} {xs : List (List Char)}
    (hitems : Source.items source.toList = .ok xs) (hxs : ∀ x ∈ xs, Text.trim x = x ∧ x ≠ []) :
    ofSource config source =
      (xs.foldlM pushItem { config := config }).bind fun e => e.link.2.map fun _ => e.link.1 := by
  have htrimmed : (xs.map Text.trim).filter (! ·.isEmpty) = xs := by
    rw [List.map_congr_left fun x hx => (hxs x hx).1, List.map_id', List.filter_eq_self]
    intro x hx
    rw [Bool.not_eq_true', List.isEmpty_eq_false_iff]
    exact (hxs x hx).2
  have hnew : new config = .ok { config := config } := by rw [new, hconfig]; rfl
  rw [ofSource, hitems]
  show ofItems config xs = _
  rw [ofItems, hnew, htrimmed]
  rfl

/-- Where the tokens remember nothing and give the same under any variables, every pass of every
session answers so. -/
theorem answer_of_walk {e : Expression} {x : Timed} (hlinked : e.IsLinked)
    (hstateless : e.isStateful = false)
    (hwalk : ∀ table, (walk table none e.tokens {}).outcome.bind Stack.result = .ok x)
    (cs : List Call) : (e.calls cs).evaluate.2.2 = .ok x := by
  have hlast : e.lastSynch = none := hlinked.last.trans (Link.lastSynch?_of_stateless hstateless)
  have hnow : (e.calls cs).linked = true := (hlinked.calls cs).linked
  rw [outcome_of_linked hnow, calls_of_stateless hlinked hstateless cs, walked, commonKey?, fed,
    hlast]
  exact hwalk _

/-- **Every text can be written as a constant.**  What is written between quotes is one item, is
read as the text, and is an expression, under any limits that are in range, of which every pass
gives the text; and two such constants with the joining sign behind them give the one text and
then the other.  As constants do, the results belong to no instant. -/
theorem texts_written (s t : String) :
    Source.items (quoted s.toList) = .ok [quoted s.toList] ∧
      parse? (quoted s.toList) = .ok (some (.text s)) ∧
      ∀ config : Configuration, config.check = .ok () →
        (∃ e, ofSource config (String.ofList (quoted s.toList)) = .ok e ∧
          ∀ cs, (e.calls cs).evaluate.2.2 = .ok (.constant (.text s))) ∧
        ∃ e, ofSource config (String.ofList (Source.joining s.toList t.toList)) = .ok e ∧
          ∀ cs, (e.calls cs).evaluate.2.2 = .ok (.constant (.text (s ++ t))) := by
  have hquoted : ∀ u : String,
      Text.trim (quoted u.toList) = quoted u.toList ∧ quoted u.toList ≠ [] :=
    fun u => ⟨trim_quoted u.toList, List.cons_ne_nil _ _⟩
  have hsign : Text.trim ['&'] = ['&'] ∧ ['&'] ≠ [] := ⟨rfl, List.cons_ne_nil _ _⟩
  have htext : ∀ u : String, String.ofList u.toList = u := fun u => String.ofList_toList
  refine ⟨Source.items_quoted s.toList, ?_, fun config hconfig => ⟨?_, ?_⟩⟩
  · rw [parse?_quoted, htext]
  · let start : Expression := { config := config }
    let draft := start.pushConstant (.text s)
    have hlink : draft.link.2 = .ok () := rfl
    refine ⟨draft.link.1, ?_, answer_of_walk (isLinked_link rfl hlink) rfl fun _ => rfl⟩
    have hitems :
        Source.items (String.ofList (quoted s.toList)).toList = .ok [quoted s.toList] := by
      rw [String.toList_ofList, Source.items_quoted]
    have hmade : [quoted s.toList].foldlM pushItem start = .ok draft := by
      rw [List.foldlM_cons, pushItem_quoted, htext]
      rfl
    rw [ofSource_eq hconfig hitems (List.forall_mem_singleton.2 (hquoted s)), hmade]
    rfl
  · let start : Expression := { config := config }
    let draft := ((start.pushConstant (.text s)).pushConstant (.text t)).push
      (.function (.operator (.textual .concat)))
    have hlink : draft.link.2 = .ok () := rfl
    refine ⟨draft.link.1, ?_, answer_of_walk (isLinked_link rfl hlink) rfl fun _ => ?_⟩
    · have hitems : Source.items (String.ofList (Source.joining s.toList t.toList)).toList =
          .ok [quoted s.toList, quoted t.toList, ['&']] := by
        rw [String.toList_ofList, Source.items_joining]
      have hmade : [quoted s.toList, quoted t.toList, ['&']].foldlM pushItem start = .ok draft := by
        rw [List.foldlM_cons, pushItem_quoted, htext]
        show [quoted t.toList, ['&']].foldlM pushItem _ = _
        rw [List.foldlM_cons, pushItem_quoted, htext]
        show [['&']].foldlM pushItem _ = _
        rw [List.foldlM_cons, pushItem_join]
        rfl
      rw [ofSource_eq hconfig hitems, hmade]
      · rfl
      · simp [hquoted, hsign]
    · have hjoined : String.ofList (s.toList ++ t.toList) = s ++ t := by
        rw [String.ofList_append, htext, htext]
      rw [← hjoined]
      rfl

/-- A text of quotes and blanks and one that looks like a date, joined. -/
theorem texts_written_of_quotes :
    let config : Configuration := {}
    config.check = .ok () ∧
      Source.items (quoted [' ', '"', '"']) = .ok ["\" \"\"\"\"\"".toList] ∧
      ∃ e, ofSource config "\" \"\"\"\"\" \"#2024-01-01#\" &" = .ok e ∧
        ∀ cs, (e.calls cs).evaluate.2.2 = .ok (.constant (.text " \"\"#2024-01-01#")) := by
  intro config
  have hconfig : config.check = .ok () := rfl
  obtain ⟨hitems, -, hwritten⟩ := texts_written " \"\"" "#2024-01-01#"
  exact ⟨hconfig, hitems, (hwritten config hconfig).2⟩

end Expression

end Telemetry
