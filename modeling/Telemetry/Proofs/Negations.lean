import Mathlib.Data.List.Forall2
import Telemetry.Proofs.NumberTexts
import Telemetry.Proofs.Rendering
import Telemetry.Proofs.ScriptCode
import Telemetry.Proofs.Walk

/-!
# Brackets and minus signs in scripts

A script is a phrase, whatever the constants, the names of variables and the nesting of operators:
its quoted texts end, its brackets are balanced, and nothing in it begins another kind of text.  Two
minus signs stand in a row in it for one reason only, which is that a negation has a constant below
zero for its operand, as it stands or through functions that pass their operand through
(`Script.code_of_render`).  The constants that are negated are found by a run of their own over the
tokens, which keeps for each text on the stack what a negation would make of it (`Script.Outline`).
-/

namespace Telemetry

/-- Whether a value is a number below zero. -/
def Value.isBelowZero : Value → Bool
  | .int i => decide (i.toInt < 0)
  | .float x => decide (x < 0.0)
  | _ => false

namespace Script

/-! ### Which constants are negated -/

/-- What is kept of a text on the stack. -/
structure Entry where
  /-- The constant that the text is, if it is nothing more. -/
  constant? : Option Value := none
  /-- The constants behind the minus sign of a negation in it. -/
  negated : List Value := []

/-- What is kept of a function on arguments. -/
def Entry.ofCall (f : Function) (args : List Entry) : Entry :=
  match f, args with
  | .secondName, k :: _ | .valueSynch, k :: _ => k
  | .operator (.arithmetic .negate), k :: _ => { negated := k.constant?.toList ++ k.negated }
  | _, ks => { negated := ks.flatMap Entry.negated }

/-- What is kept of the stack, newest first, and of the directives in order. -/
structure Outline where
  stack : List Entry := []
  directives : List Entry := []

/-- What is kept after one token. -/
def Outline.step (s : Outline) : Token → Outline
  | .constant x => { s with stack := { constant? := some x.value } :: s.stack }
  | .reference _ | .synch _ => { s with stack := {} :: s.stack }
  | .function f =>
    let k := Entry.ofCall f (s.stack.take f.inputs).reverse
    let below := s.stack.drop f.inputs
    if f.outputs = 0 then ⟨below, s.directives ++ [k]⟩ else ⟨k :: below, s.directives⟩

/-- The constants that are negated as they stand in the script of tokens. -/
def negatedConstants (tokens : List Token) : List Value :=
  let s := tokens.foldl Outline.step {}
  (s.directives ++ s.stack).flatMap Entry.negated

/-! ### Phrases and their minus signs -/

/-- Some value is below zero. -/
def AnyBelowZero (vs : List Value) : Prop := ∃ v ∈ vs, v.isBelowZero = true

/-- A text is a phrase, and two minus signs stand in a row in its code exactly if `p`. -/
def Spells (text : List Char) (p : Prop) : Prop := ∃ code, Phrase text code ∧ (Doubled code ↔ p)

section Spells

variable {text as code : List Char} {p q : Prop}

/-- A phrase and its code begin with the same character. -/
theorem Phrase.head?_eq (h : Phrase text code) : text.head? = code.head? := by
  have hcode := h.code?_eq
  cases text with
  | nil => rw [← Option.some.inj hcode]
  | cons c cs =>
      rw [code?] at hcode
      obtain ⟨rest, -, rfl⟩ := Option.map_eq_some_iff.1 hcode
      rfl

theorem Spells.congr (h : Spells text p) (hpq : p ↔ q) : Spells text q := by
  obtain ⟨code, hphrase, hcode⟩ := h
  exact ⟨code, hphrase, hcode.trans hpq⟩

theorem Spells.append (h : Spells text p) (has : Spells as q) : Spells (text ++ as) (p ∨ q) := by
  obtain ⟨code, hphrase, hcode⟩ := h
  obtain ⟨other, hother, hdoubled⟩ := has
  refine ⟨code ++ other, hphrase.append hother, ?_⟩
  rw [doubled_append hphrase.last, hcode, hdoubled]

theorem Spells.enclosed (h : Spells text p) {front back : Char} (hb : Brackets front back) :
    Spells (front :: (text ++ [back])) p := by
  obtain ⟨code, hphrase, hcode⟩ := h
  refine ⟨_, hphrase.enclosed hb, ?_⟩
  have hfront : ¬ Doubled [front] ∧ [front].getLast? ≠ some '-' := by cases hb <;> decide
  have hback : ¬ Doubled [back] := by cases hb <;> decide
  rw [← List.singleton_append, doubled_append hfront.2, doubled_append hphrase.last, hcode]
  simp only [hfront.1, hback, or_false, false_or]

/-- A minus sign between a bracket and a phrase makes two in a row if the phrase begins with one. -/
theorem Spells.negated (h : Spells text p) :
    Spells ('(' :: '-' :: (text ++ [')'])) (text.head? = some '-' ∨ p) := by
  obtain ⟨code, hphrase, hcode⟩ := h
  have hround := hphrase.enclosed .round
  refine ⟨'(' :: '-' :: (code ++ [')']), ⟨fun rest => ?_, fun opened => ?_, ?_, ?_⟩, ?_⟩
  · have hreads := hphrase.reads (')' :: rest)
    simp only [List.cons_append, List.append_assoc, List.nil_append, code?, Char.reduceEq,
      if_false, hreads, Option.map_map, Function.comp_def]
  · exact hround.level opened
  · rw [← List.cons_append, ← List.cons_append, List.getLast?_concat]
    decide
  · have hminus : '-' ∉ strange := by decide
    obtain ⟨hfront, hrest⟩ := List.forall_mem_cons.1 hround.ordinary
    exact List.forall_mem_cons.2 ⟨hfront, List.forall_mem_cons.2 ⟨hminus, hrest⟩⟩
  · have hfront : ¬ Doubled ['('] := by decide
    have hback : ¬ Doubled [')'] := by decide
    have hhead : (code ++ [')']).head? = some '-' ↔ text.head? = some '-' := by
      rw [hphrase.head?_eq]
      cases code <;> simp
    rw [← List.singleton_append, doubled_append (by decide), doubled_minus, hhead,
      doubled_append hphrase.last, hcode]
    simp only [hfront, hback, or_false, false_or]

theorem not_doubled (h : '-' ∉ text) : ¬ Doubled text := fun hdoubled =>
  h (hdoubled.subset List.mem_cons_self)

theorem spells_quote (cs : List Char) : Spells (Text.quote cs) False :=
  ⟨_, phrase_quote cs, by decide⟩

theorem spells_word (h : text.all isWordly = true) (hlast : text.getLast? ≠ some '-')
    (hdoubled : ¬ Doubled text) : Spells text False :=
  ⟨text, phrase_word (List.all_eq_true.1 h) hlast, iff_of_false hdoubled id⟩

theorem isWordly_of_isAlphanum {c : Char} (h : c.isAlphanum = true) : isWordly c = true := by
  have hall : (['"', '(', ')', '[', ']', '{', '}', '\'', '`', '/'].all (!·.isAlphanum)) = true := by
    decide
  rw [isWordly, Bool.not_eq_true', ← Bool.not_eq_true, List.contains_iff_mem]
  intro hmem
  have hnot := List.all_eq_true.1 hall c hmem
  rw [h] at hnot
  exact nomatch hnot

/-- Letters and digits are words. -/
theorem spells_name (h : text.all Char.isAlphanum = true) : Spells text False := by
  have hall := List.all_eq_true.1 h
  have hminus : '-' ∉ text := fun hmem => absurd (hall _ hmem) (by decide)
  exact spells_word (List.all_eq_true.2 fun c hc => isWordly_of_isAlphanum (hall c hc))
    (fun hlast => hminus (List.mem_of_getLast? hlast)) (not_doubled hminus)

end Spells

/-! ### Numbers -/

section Numbers

open Number

variable {ds cs : List Char}

theorem notMem_digits (h : ∀ c ∈ ds, c.isDigit = true) : '-' ∉ ds := fun hmem =>
  absurd (h _ hmem) (by decide)

theorem notMem_mantissa (h : Mantissa Char.isDigit cs) : '-' ∉ cs := by
  cases h with
  | whole hds => exact notMem_digits hds.2
  | pointed hds hfraction _ =>
      rw [List.mem_append, List.mem_cons, not_or, not_or]
      exact ⟨notMem_digits hds, by decide, notMem_digits hfraction⟩

/-- The sign of an exponent stands between its mark and its digits. -/
theorem exponent_minus (h : Exponent Char.isDigit cs) : ¬ Doubled cs ∧ cs.getLast? ≠ some '-' := by
  cases h with
  | none => decide
  | @some mark sign ds hmark hsign hds =>
      have hmarked : mark ≠ '-' := by rcases hmark with rfl | rfl <;> decide
      have hminus := notMem_digits hds.2
      refine ⟨?_, fun hlast => ?_⟩
      · cases hsign with
        | none => exact not_doubled (by simpa [hmarked.symm] using hminus)
        | plus => exact not_doubled (by simpa [hmarked.symm] using hminus)
        | minus =>
            have hfront : [mark].getLast? ≠ some '-' := by simpa using hmarked
            have hlone : ¬ Doubled [mark] := not_doubled (by simpa using hmarked.symm)
            rw [List.singleton_append, ← List.singleton_append, doubled_append hfront,
              doubled_minus]
            rintro (hfirst | hhead | hrest)
            · exact hlone hfirst
            · exact hminus (List.mem_of_mem_head? hhead)
            · exact not_doubled hminus hrest
      · rw [← List.cons_append, List.getLast?_append_of_ne_nil _ hds.1] at hlast
        exact hminus (List.mem_of_getLast? hlast)

/-- A number without a sign is a word, with a minus sign in its exponent at most. -/
structure Modest (cs : List Char) : Prop where
  wordly : cs.all isWordly = true
  single : ¬ Doubled cs
  head : cs.head? ≠ some '-'
  last : cs.getLast? ≠ some '-'
  nonempty : cs ≠ []

theorem modest_of_form (h : UnsignedForm Char.isDigit cs) : Modest cs := by
  have hwordly : cs.all isWordly = true := by
    refine List.all_eq_true.2 fun c hc => ?_
    have hclass : c.isDigit = true ∨ c ∈ marks := NumberForm.mem ⟨.none, h⟩ hc
    rcases hclass with hdigit | hmark
    · exact isWordly_of_isAlphanum (by simp [Char.isAlphanum, hdigit])
    · have hmarks : marks.all isWordly = true := by decide
      exact List.all_eq_true.1 hmarks c hmark
  have hhead : cs.head? ≠ some '-' := fun hhead => (h.head_ne isDigit_marks _ hhead).2 rfl
  obtain @⟨mantissa, exponent, hmantissa, hexponent⟩ := h
  have hminus := notMem_mantissa hmantissa
  have hfront : mantissa.getLast? ≠ some '-' := fun hlast => hminus (List.mem_of_getLast? hlast)
  obtain ⟨hdoubled, hlast⟩ := exponent_minus hexponent
  refine ⟨hwordly, ?_, hhead, ?_, ?_⟩
  · rw [doubled_append hfront, not_or]
    exact ⟨not_doubled hminus, hdoubled⟩
  · rw [List.getLast?_append]
    intro heq
    rcases Option.or_eq_some_iff.1 heq with heq | ⟨-, heq⟩
    · exact hlast heq
    · exact hfront heq
  · cases hmantissa with
    | whole hds => exact List.append_ne_nil_of_left_ne_nil hds.1 _
    | pointed => simp

theorem modest_of_unsigned (h : Unsigned cs) : Modest cs := by
  rcases h with hform | rfl | rfl
  · exact modest_of_form hform
  · exact ⟨by decide, by decide, by decide, by decide, by decide⟩
  · exact ⟨by decide, by decide, by decide, by decide, by decide⟩

/-- A number begins with a minus sign if it has one, and has no two in a row. -/
theorem spells_number (negative : Bool) (h : Unsigned cs) :
    Spells (minus negative ++ cs) False ∧
      ((minus negative ++ cs).head? = some '-' ↔ negative = true) := by
  have hcs := modest_of_unsigned h
  cases negative with
  | false =>
      exact ⟨spells_word hcs.wordly hcs.last hcs.single, iff_of_false hcs.head nofun⟩
  | true =>
      refine ⟨spells_word ?_ ?_ ?_, iff_of_true rfl rfl⟩
      · show (isWordly '-' && cs.all isWordly) = true
        rw [hcs.wordly]
        rfl
      · rw [List.getLast?_append_of_ne_nil _ hcs.nonempty]
        exact hcs.last
      · show ¬ Doubled ('-' :: cs)
        rw [doubled_minus, not_or]
        exact ⟨hcs.head, hcs.single⟩

end Numbers

/-! ### Constants and variables -/

/-- What is written of a text on the stack: it is a phrase that begins with a minus sign if it is a
constant below zero, and has two in a row if such a constant is negated in it. -/
structure Entry.Written (k : Entry) (text : List Char) : Prop where
  spells : Spells text (AnyBelowZero k.negated)
  head : text.head? = some '-' ↔ AnyBelowZero k.constant?.toList

theorem anyBelowZero_nil : ¬ AnyBelowZero [] := nofun

theorem anyBelowZero_singleton (v : Value) : AnyBelowZero [v] ↔ v.isBelowZero = true := by
  simp [AnyBelowZero]

theorem anyBelowZero_append (vs ws : List Value) :
    AnyBelowZero (vs ++ ws) ↔ AnyBelowZero vs ∨ AnyBelowZero ws := by
  simp only [AnyBelowZero, List.mem_append, or_and_right, exists_or]

/-- A phrase that begins otherwise than with a minus sign and is no constant. -/
theorem written_of_spells {text : List Char} {vs : List Value} (h : Spells text (AnyBelowZero vs))
    (hhead : text.head? ≠ some '-') : Entry.Written { negated := vs } text :=
  ⟨h, iff_of_false hhead anyBelowZero_nil⟩

/-- An integer is a number with its own sign. -/
theorem spells_integer (i : Int) :
    Spells (Number.integerText i) False ∧
      ((Number.integerText i).head? = some '-' ↔ i < 0) := by
  rw [Number.integerText_eq]
  have hnumber := spells_number (decide (i < 0)) (Number.unsigned_digits i.natAbs)
  rwa [decide_eq_true_iff] at hnumber

theorem written_constant (v : Value) :
    Entry.Written { constant? := some v } (constant v).toList := by
  have hnumber : ∀ {text : List Char}, Spells text False →
      (text.head? = some '-' ↔ v.isBelowZero = true) →
      Entry.Written { constant? := some v } text := fun hspells hhead =>
    ⟨hspells.congr (iff_of_false id anyBelowZero_nil).symm.symm,
      hhead.trans (anyBelowZero_singleton v).symm⟩
  cases v with
  | int i =>
      obtain ⟨hspells, hhead⟩ := spells_integer i.toInt
      have htext : (constant (.int i)).toList = Number.integerText i.toInt := String.toList_ofList
      rw [htext]
      exact hnumber hspells (hhead.trans decide_eq_true_iff.symm)
  | float x =>
      obtain ⟨rest, htext, hrest⟩ := Number.valueText_eq x
      obtain ⟨hspells, hhead⟩ := spells_number (decide (x < 0.0)) hrest
      have htext : (constant (.float x)).toList = Number.minus (decide (x < 0.0)) ++ rest :=
        String.toList_ofList.trans htext
      rw [htext]
      exact hnumber hspells hhead
  | text s =>
      have htext : (constant (.text s)).toList = Text.quote s.toList := String.toList_ofList
      rw [htext]
      exact hnumber (spells_quote _) (iff_of_false nofun nofun)
  | date t =>
      have htext : (constant (.date t)).toList =
          "new Date".toList ++ '(' :: (Number.integerText (t.toInt / 1000000) ++ [')']) := by
        simp [constant, String.toList_append]
      have hword : Spells "new Date".toList False := spells_word (by decide) (by decide) (by decide)
      rw [htext]
      refine hnumber ((hword.append ((spells_integer _).1.enclosed .round)).congr ?_)
        (iff_of_false nofun nofun)
      rw [or_self]

theorem spells_reference (table : VariableTable) (id : Nat) :
    Spells (reference table id).toList False := by
  have htext : (reference table id).toList =
      ['v'] ++ '[' :: (Text.quote ((table.get? id).elim "" Variable.name).toList ++ [']']) := by
    simp [reference, quoted, String.toList_append]
  have hword : Spells ['v'] False := spells_name (by decide)
  rw [htext]
  exact (hword.append ((spells_quote _).enclosed .square)).congr (or_self False).to_iff

theorem written_reference (table : VariableTable) (id : Nat) :
    Entry.Written {} (reference table id).toList := by
  have hspells := spells_reference table id
  refine written_of_spells (hspells.congr (iff_of_false not_false anyBelowZero_nil)) ?_
  simp [reference, String.toList_append]

/-! ### Functions on arguments -/

/-- What is written of texts, one by one. -/
abbrev Entries (ks : List Entry) (texts : List String) : Prop :=
  List.Forall₂ (fun k text => k.Written text.toList) ks texts

section Arguments

variable {ks : List Entry}

theorem Entries.of_one {args : Vector String 1} (h : Entries ks args.toList) :
    ∃ k a, ks = [k] ∧ args = #v[a] ∧ k.Written a.toList :=
  match args, h with
  | ⟨⟨[_]⟩, _⟩, .cons ha .nil => ⟨_, _, rfl, rfl, ha⟩

theorem Entries.of_two {args : Vector String 2} (h : Entries ks args.toList) :
    ∃ k l a b, ks = [k, l] ∧ args = #v[a, b] ∧ k.Written a.toList ∧ l.Written b.toList :=
  match args, h with
  | ⟨⟨[_, _]⟩, _⟩, .cons ha (.cons hb .nil) => ⟨_, _, _, _, rfl, rfl, ha, hb⟩

theorem Entries.of_three {args : Vector String 3} (h : Entries ks args.toList) :
    ∃ k l m a b c, ks = [k, l, m] ∧ args = #v[a, b, c] ∧ k.Written a.toList ∧
      l.Written b.toList ∧ m.Written c.toList :=
  match args, h with
  | ⟨⟨[_, _, _]⟩, _⟩, .cons ha (.cons hb (.cons hc .nil)) =>
    ⟨_, _, _, _, _, _, rfl, rfl, ha, hb, hc⟩

theorem spells_commas {texts : List String} (h : Entries ks texts) :
    Spells (commas texts).toList (AnyBelowZero (ks.flatMap Entry.negated)) := by
  rw [commas, String.toList_intercalate]
  induction h with
  | nil =>
      have hempty : Spells [] False := spells_word (by decide) (by decide) (by decide)
      exact hempty.congr (iff_of_false not_false anyBelowZero_nil)
  | @cons k text ks texts hfirst hrest ih =>
      cases hrest with
      | nil => simpa [List.intercalate] using hfirst.spells
      | @cons l next ks texts hnext hlast =>
          have hcomma : Spells ", ".toList False :=
            spells_word (by decide) (by decide) (by decide)
          rw [List.map_cons, List.map_cons, List.intercalate_cons_cons, ← List.map_cons,
            List.append_assoc, List.flatMap_cons]
          refine (hfirst.spells.append (hcomma.append ih)).congr ?_
          rw [false_or, anyBelowZero_append]

/-- A call whose names are words. -/
theorem written_invoke {n : Nat} {args : Vector String n} (h : Entries ks args.toList)
    {object name : String} (hobject : object.toList.all Char.isAlphanum = true)
    (hsome : object.toList ≠ []) (hname : name.toList.all Char.isAlphanum = true) :
    Entry.Written { negated := ks.flatMap Entry.negated } (invoke object name args).toList := by
  have htext : (invoke object name args).toList =
      object.toList ++
        (['.'] ++ (name.toList ++ '(' :: ((commas args.toList).toList ++ [')']))) := by
    simp [invoke, String.toList_append]
  have hpoint : Spells ['.'] False := spells_word (by decide) (by decide) (by decide)
  have hcall := (spells_name hobject).append (hpoint.append ((spells_name hname).append
    ((spells_commas h).enclosed .round)))
  rw [htext]
  refine written_of_spells (hcall.congr (by simp only [false_or])) ?_
  rw [List.head?_append_of_ne_nil _ hsome]
  intro hhead
  exact absurd (List.all_eq_true.1 hobject _ (List.mem_of_mem_head? hhead)) (by decide)

/-- A phrase between brackets begins with no minus sign. -/
theorem written_enclosed {text : List Char} {vs : List Value}
    (h : Spells text (AnyBelowZero vs)) :
    Entry.Written { negated := vs } ('(' :: (text ++ [')'])) :=
  written_of_spells (h.enclosed .round) (by simp)

theorem written_between {args : Vector String 2} (h : Entries ks args.toList) {symbol : String}
    (hsymbol : Spells (' ' :: (symbol.toList ++ [' '])) False) :
    Entry.Written { negated := ks.flatMap Entry.negated } (between symbol args).toList := by
  obtain ⟨k, l, a, b, rfl, rfl, hk, hl⟩ := h.of_two
  have htext : (between symbol #v[a, b]).toList =
      '(' :: ((a.toList ++ ((' ' :: (symbol.toList ++ [' '])) ++ b.toList)) ++ [')']) := by
    simp [between, String.toList_append]
  rw [htext]
  refine written_enclosed ((hk.spells.append (hsymbol.append hl.spells)).congr ?_)
  simp [anyBelowZero_append]

theorem written_comparison {args : Vector String 2} (h : Entries ks args.toList) (op : Comparison) :
    Entry.Written { negated := ks.flatMap Entry.negated } (comparison op args).toList := by
  obtain ⟨k, l, a, b, rfl, rfl, hk, hl⟩ := h.of_two
  have hsymbol : Spells (' ' :: ((comparisonSymbol op).toList ++ [' '])) False := by
    cases op <;> exact spells_word (by decide) (by decide) (by decide)
  have htruth : Spells " ? -1 : 0".toList False := spells_word (by decide) (by decide) (by decide)
  have htext : (comparison op #v[a, b]).toList =
      '(' :: ((b.toList ++ ((' ' :: ((comparisonSymbol op).toList ++ [' '])) ++
        (a.toList ++ " ? -1 : 0".toList))) ++ [')']) := by
    simp [comparison, String.toList_append]
  rw [htext]
  refine written_enclosed ((hl.spells.append (hsymbol.append (hk.spells.append htruth))).congr ?_)
  simp [anyBelowZero_append, or_comm]

theorem written_joined {args : Vector String 2} (h : Entries ks args.toList) :
    Entry.Written { negated := ks.flatMap Entry.negated } (joined args).toList := by
  obtain ⟨k, l, a, b, rfl, rfl, hk, hl⟩ := h.of_two
  have hleft : Spells "String".toList False := spells_word (by decide) (by decide) (by decide)
  have hright : Spells " + String".toList False := spells_word (by decide) (by decide) (by decide)
  have htext : (joined #v[a, b]).toList =
      '(' :: (("String".toList ++ ('(' :: (a.toList ++ [')']) ++ (" + String".toList ++
        '(' :: (b.toList ++ [')'])))) ++ [')']) := by
    simp [joined, String.toList_append]
  rw [htext]
  refine written_enclosed ((hleft.append ((hk.spells.enclosed .round).append
    (hright.append (hl.spells.enclosed .round)))).congr ?_)
  simp [anyBelowZero_append]

theorem written_chosen {args : Vector String 3} (h : Entries ks args.toList) :
    Entry.Written { negated := ks.flatMap Entry.negated } (chosen args).toList := by
  obtain ⟨k, l, m, a, b, c, rfl, rfl, hk, hl, hm⟩ := h.of_three
  have hthen : Spells " ? ".toList False := spells_word (by decide) (by decide) (by decide)
  have helse : Spells " : ".toList False := spells_word (by decide) (by decide) (by decide)
  have htext : (chosen #v[a, b, c]).toList =
      '(' :: ((a.toList ++ (" ? ".toList ++ (b.toList ++ (" : ".toList ++
        c.toList)))) ++ [')']) := by
    simp [chosen, String.toList_append]
  rw [htext]
  refine written_enclosed ((hk.spells.append (hthen.append (hl.spells.append
    (helse.append hm.spells)))).congr ?_)
  simp [anyBelowZero_append]

theorem written_complement {args : Vector String 1} (h : Entries ks args.toList) :
    Entry.Written { negated := ks.flatMap Entry.negated } (behind "~" args).toList := by
  obtain ⟨k, a, rfl, rfl, hk⟩ := h.of_one
  have hsign : Spells ['~'] False := spells_word (by decide) (by decide) (by decide)
  have htext : (behind "~" #v[a]).toList = '(' :: ((['~'] ++ a.toList) ++ [')']) := by
    simp [behind, String.toList_append]
  rw [htext]
  refine written_enclosed ((hsign.append hk.spells).congr ?_)
  simp

/-- A negation puts its minus sign right in front of its argument. -/
theorem written_negation {args : Vector String 1} (h : Entries ks args.toList) :
    ∃ k, ks = [k] ∧ Entry.Written { negated := k.constant?.toList ++ k.negated }
      (behind "-" args).toList := by
  obtain ⟨k, a, rfl, rfl, hk⟩ := h.of_one
  have htext : (behind "-" #v[a]).toList = '(' :: '-' :: (a.toList ++ [')']) := by
    simp [behind, String.toList_append]
  rw [htext]
  refine ⟨k, rfl, written_of_spells (hk.spells.negated.congr ?_) (by simp)⟩
  rw [hk.head, anyBelowZero_append]

theorem written_arithmetic (op : Arithmetic) (hop : op ≠ .negate)
    {args : Vector String op.arity} (h : Entries ks args.toList) :
    Entry.Written { negated := ks.flatMap Entry.negated } (arithmetic op args).toList := by
  cases op with
  | add | subtract | multiply =>
      exact written_between h (spells_word (by decide) (by decide) (by decide))
  | negate => exact absurd rfl hop
  | _ => exact written_invoke h (by decide) (by decide) (by decide)

theorem written_bitwise (op : Bitwise) {args : Vector String op.arity}
    (h : Entries ks args.toList) :
    Entry.Written { negated := ks.flatMap Entry.negated } (bitwise op args).toList := by
  cases op with
  | not => exact written_complement h
  | _ => exact written_between h (spells_word (by decide) (by decide) (by decide))

/-- The names of functions are words. -/
theorem name_alphanum (f : Function) : f.name.toList.all Char.isAlphanum = true := by
  cases f with
  | operator op => cases op with
    | arithmetic op | comparison op | bitwise op | analysis op | textual op | conversion op =>
        cases op <;> decide
    | dating op => cases op with
      | part component => cases component <;> decide
      | _ => decide
  | aggregate a =>
      have hlabel : a.policy.label.toList.all Char.isAlphanum = true := by
        cases a.policy <;> decide
      have hstatistic : a.statistic.name.toList.all Char.isAlphanum = true := by
        cases a.statistic <;> decide
      rw [Function.name, Aggregate.name, String.toList_append, List.all_append, hlabel, hstatistic]
      rfl
  | incremental i =>
      have hnames : ["Integrate", "RateOfChange", "Delta"].all
          (·.toList.all Char.isAlphanum) = true := by decide
      exact List.all_eq_true.1 hnames i.name (by cases i <;> simp [Incremental.name])
  | secondName | valueSynch => decide
  | directive d => cases d <;> decide

theorem written_expr (f : Function) {n : Nat} {args : Vector String n}
    (h : Entries ks args.toList) :
    Entry.Written { negated := ks.flatMap Entry.negated } (invoke "Expr" f.name args).toList :=
  written_invoke h (by decide) (by decide) (name_alphanum f)

theorem written_operator (op : Operator) (hop : op ≠ .arithmetic .negate)
    {args : Vector String op.arity} (h : Entries ks args.toList) :
    Entry.Written { negated := ks.flatMap Entry.negated } (operator op args).toList := by
  cases op with
  | arithmetic op => exact written_arithmetic op (fun heq => hop (heq ▸ rfl)) h
  | comparison op => exact written_comparison h op
  | bitwise op => exact written_bitwise op h
  | analysis op =>
      have hname : (analysisName op).toList.all Char.isAlphanum = true := by cases op <;> decide
      exact written_invoke h (by decide) (by decide) hname
  | textual op => cases op with
    | concat => exact written_joined h
    | _ => exact written_invoke h (by decide) (by decide) (by decide)
  | conversion op => cases op with
    | choose => exact written_chosen h
    | _ => exact written_invoke h (by decide) (by decide) (by decide)
  | dating op => exact written_expr (.operator (.dating op)) h

theorem ofCall_operator {op : Operator} (hop : op ≠ .arithmetic .negate) (ks : List Entry) :
    Entry.ofCall (.operator op) ks = { negated := ks.flatMap Entry.negated } := by
  unfold Entry.ofCall
  split
  · next heq => cases heq
  · next heq => cases heq
  · next heq => exact absurd (Function.operator.inj heq) hop
  · rfl

/-- **A function on arguments is written as its outline says.** -/
theorem written_function (f : Function) (args : Vector String f.inputs)
    (h : Entries ks args.toList) : (Entry.ofCall f ks).Written (function f args).toList := by
  cases f with
  | operator op =>
      by_cases hop : op = .arithmetic .negate
      · subst hop
        obtain ⟨k, rfl, hk⟩ := written_negation h
        exact hk
      · rw [ofCall_operator hop]
        exact written_operator op hop h
  | secondName =>
      obtain ⟨k, l, a, b, rfl, rfl, hk, -⟩ := Entries.of_two h
      exact hk
  | valueSynch =>
      obtain ⟨k, a, rfl, rfl, hk⟩ := Entries.of_one h
      exact hk
  | aggregate a => exact written_expr (.aggregate a) h
  | incremental i => exact written_expr (.incremental i) h
  | directive d => exact written_expr (.directive d) h

end Arguments

/-! ### The whole script -/

/-- What is kept of texts of a state. -/
structure Outline.Written (o : Outline) (s : State) : Prop where
  stack : Entries o.stack s.stack
  directives : Entries o.directives s.directives

/-- One token. -/
theorem Outline.Written.step {o : Outline} {s next : State} {table : VariableTable} {t : Token}
    (h : o.Written s) (hnext : Script.step table s t = .ok next) : (o.step t).Written next := by
  cases t with
  | constant x =>
      cases hnext
      exact ⟨.cons (written_constant x.value) h.stack, h.directives⟩
  | reference id =>
      cases hnext
      exact ⟨.cons (written_reference table id) h.stack, h.directives⟩
  | synch y =>
      cases hnext
      refine ⟨.cons ?_ h.stack, h.directives⟩
      have hargs : Entries [{}] (#v[reference table y.source] : Vector String 1).toList :=
        .cons (written_reference table y.source) .nil
      exact written_invoke hargs (by decide) (by decide) (by decide)
  | function f =>
      rw [Script.step] at hnext
      split at hnext
      · next henough =>
          have hbelow : Entries (o.stack.drop f.inputs) (s.stack.drop f.inputs) :=
            List.forall₂_drop _ h.stack
          have htaken : Entries (o.stack.take f.inputs).reverse (s.stack.take f.inputs).reverse :=
            List.rel_reverse (List.forall₂_take _ h.stack)
          have hcall := written_function f
            ⟨(s.stack.take f.inputs).reverse.toArray, by simp [Nat.min_eq_left henough]⟩ htaken
          cases hnext
          show (if f.outputs = 0 then _ else _ : Outline).Written (if f.outputs = 0 then _ else _)
          split
          · exact ⟨hbelow, List.rel_append h.directives (.cons hcall .nil)⟩
          · exact ⟨.cons hcall hbelow, h.directives⟩
      · cases hnext

/-- All tokens. -/
theorem Outline.Written.fold {table : VariableTable} {tokens : List Token} {o : Outline}
    {s last : State} (h : o.Written s) (hlast : tokens.foldlM (Script.step table) s = .ok last) :
    (tokens.foldl Outline.step o).Written last := by
  induction tokens generalizing o s with
  | nil =>
      cases hlast
      exact h
  | cons t ts ih =>
      rw [List.foldlM_cons] at hlast
      obtain ⟨next, hnext, hrest⟩ := bind_eq_ok hlast
      exact ih (h.step hnext) hrest

/-- A script spells what the run over its tokens keeps. -/
theorem spells_render {e : Expression} {text : String} (h : render e = .ok text) :
    Spells text.toList (AnyBelowZero (negatedConstants e.tokens)) := by
  rw [render] at h
  obtain ⟨s, hfold, h⟩ := bind_eq_ok h
  have hlast : (e.tokens.foldl Outline.step {}).Written s := Outline.Written.fold ⟨.nil, .nil⟩ hfold
  rw [negatedConstants]
  generalize e.tokens.foldl Outline.step {} = o at hlast ⊢
  obtain ⟨ks, ds⟩ := o
  obtain ⟨stack, directives⟩ := s
  obtain ⟨hstack, hdirectives⟩ := hlast
  change Entries ks stack at hstack
  change Entries ds directives at hdirectives
  -- the stack that is left holds the script and nothing else
  cases hstack with
  | nil => cases h
  | @cons k body ks rest hbody hrest =>
      cases hrest with
      | cons hnext hlater => cases h
      | nil =>
          have hall : Entries (ds ++ [k]) (directives ++ [body]) :=
            List.rel_append hdirectives (.cons hbody .nil)
          cases hdirectives with
          | nil =>
              cases h
              simpa using hbody.spells
          | cons hfirst hrest =>
              cases h
              simpa [String.toList_append] using (spells_commas hall).enclosed .round

/-- **A script is well-formed code**: its texts between quotes end, its brackets are balanced, and
outside of these texts it has no other quotes and no slash.  Two minus signs stand in a row there
exactly if a constant below zero is negated. -/
theorem code_of_render {e : Expression} {text : String} (h : render e = .ok text) :
    ∃ code, code? .code text.toList = some code ∧ Balanced code ∧ (∀ c ∈ code, c ∉ strange) ∧
      (Doubled code ↔ ∃ v ∈ negatedConstants e.tokens, v.isBelowZero = true) := by
  obtain ⟨code, hphrase, hdoubled⟩ := spells_render h
  exact ⟨code, hphrase.code?_eq, hphrase.balanced, hphrase.ordinary, hdoubled⟩

/-- Minus five, negated through a function that passes it through, and joined with a text of
brackets and minus signs. -/
def negatedFive : Expression :=
  { tokens := [.constant (.constant (.int (-5))), .function .valueSynch,
      .function (.operator (.arithmetic .negate)), .constant (.constant (.text "--(")),
      .function (.operator (.textual .concat))] }

theorem code_of_negatedFive :
    render negatedFive = .ok "(String((--5)) + String(\"--(\"))" ∧
      ∃ code, code? .code "(String((--5)) + String(\"--(\"))".toList = some code ∧ Balanced code ∧
        (∀ c ∈ code, c ∉ strange) ∧
        (Doubled code ↔ ∃ v ∈ negatedConstants negatedFive.tokens, v.isBelowZero = true) := by
  have htext : render negatedFive = .ok "(String((--5)) + String(\"--(\"))" := by rfl
  exact ⟨htext, code_of_render htext⟩

/-- **The negation of a negative constant is written as a decrement.** -/
theorem decrement_of_negatedFive :
    render { tokens := [.constant (.constant (.int (-5))),
        .function (.operator (.arithmetic .negate))] } = .ok "(--5)" ∧
      code? .code "(--5)".toList = some "(--5)".toList ∧ Doubled "(--5)".toList := by
  exact ⟨rfl, by decide, by decide⟩

end Script

end Telemetry
