import Mathlib.Data.List.Infix
import Mathlib.Tactic.SplitIfs
import Telemetry.Script

/-!
# What of a text is code

A reader of JavaScript takes a text apart into texts between double quotes, which mean themselves,
and code (`Script.code?`).  Of code it is asked whether its brackets are closed in the order in
which they are opened (`Script.Balanced`), whether two minus signs stand in a row in it
(`Script.Doubled`), and whether it has a character that begins another kind of text or a comment
(`Script.strange`).

The texts that a script is put together from are phrases (`Script.Phrase`): words without quotes
and brackets (`phrase_word`), quoted texts (`phrase_quote`), phrases behind each other
(`Phrase.append`) and phrases between brackets (`Phrase.enclosed`).  A phrase is read alone as it is
read in front of anything else (`Phrase.code?_eq`), so what is asked of its code is found from its
parts.
-/

namespace Telemetry.Script

/-- Where a reader stands: in code, inside a text between quotes, or there behind a backslash. -/
inductive Place where
  | code
  | text
  | escaped

/-- What of a text is code for a reader who stands at a place: all but the insides of texts between
double quotes.  None if such a text does not end, or if a line ends in it. -/
def code? : Place → List Char → Option (List Char)
  | .code, [] => some []
  | .code, c :: cs => (code? (if c = '"' then .text else .code) cs).map (c :: ·)
  | .text, c :: cs =>
    if c = '"' then (code? .code cs).map (c :: ·)
    else if c = '\n' ∨ c = '\r' then none
    else code? (if c = '\\' then .escaped else .text) cs
  | .escaped, _ :: cs => code? .text cs
  | _, [] => none

/-- The bracket that closes a bracket. -/
def closing? : Char → Option Char
  | '(' => some ')'
  | '[' => some ']'
  | '{' => some '}'
  | _ => none

/-- The brackets that have to be closed after a character, innermost first.  None if it closes what
is not open. -/
def bracket (opened : List Char) (c : Char) : Option (List Char) :=
  match closing? c with
  | some d => some (d :: opened)
  | none =>
    if c ∈ [')', ']', '}'] then
      match opened with
      | d :: outer => if d = c then some outer else none
      | [] => none
    else some opened

/-- Every bracket is closed, by one of its kind and after those that are opened behind it. -/
def Balanced (code : List Char) : Prop := code.foldlM bracket [] = some []

instance (code : List Char) : Decidable (Balanced code) :=
  inferInstanceAs (Decidable (_ = _))

/-- Two minus signs stand in a row. -/
def Doubled (code : List Char) : Prop := ['-', '-'] <:+: code

instance (code : List Char) : Decidable (Doubled code) :=
  inferInstanceAs (Decidable (_ <:+: _))

/-- The characters that begin another text than one between double quotes, or a comment. -/
def strange : List Char := ['\'', '`', '/']

example : code? .code "(\"--)\" + x[\"\\\"\"])".toList = some "(\"\" + x[\"\"])".toList := by
  decide

example : Balanced "(f[(1)])".toList ∧ ¬ Balanced "([)]".toList ∧ ¬ Balanced "(1".toList := by
  decide

/-! ### Minus signs -/

section Doubled

variable {as bs : List Char}

theorem doubled_append (h : as.getLast? ≠ some '-') :
    Doubled (as ++ bs) ↔ Doubled as ∨ Doubled bs := by
  unfold Doubled
  rw [List.infix_append_iff]
  refine or_congr_right ⟨?_, Or.inl⟩
  rintro (hbs | ⟨front, back, hparts, hfront, hback⟩)
  · exact hbs
  · rcases List.eq_nil_or_concat front with rfl | ⟨init, c, rfl⟩
    · rw [hparts, List.nil_append]
      exact hback.isInfix
    · -- otherwise a minus sign is the last of `as`
      obtain ⟨before, rfl⟩ := hfront
      have hc : c = '-' := by
        have hmem : c ∈ ['-', '-'] := hparts ▸ by simp
        simpa using hmem
      rw [hc] at h
      simp at h

theorem doubled_minus : Doubled ('-' :: as) ↔ as.head? = some '-' ∨ Doubled as := by
  unfold Doubled
  rw [List.infix_cons_iff, List.cons_prefix_cons]
  refine or_congr_left ?_
  cases as with
  | nil => simp
  | cons c as => simp [eq_comm]

end Doubled

/-! ### Phrases -/

/-- A text that is read alone as it is in front of anything else: it begins and ends in code, opens
no bracket that it does not close, and does not end in a minus sign. -/
structure Phrase (text code : List Char) : Prop where
  reads : ∀ rest, code? .code (text ++ rest) = (code? .code rest).map (code ++ ·)
  level : ∀ opened, code.foldlM bracket opened = some opened
  last : code.getLast? ≠ some '-'
  ordinary : ∀ c ∈ code, c ∉ strange

section Phrases

variable {text code as bs : List Char}

/-- What is read of a phrase is its code. -/
theorem Phrase.code?_eq (h : Phrase text code) : code? .code text = some code := by
  simpa [code?] using h.reads []

theorem Phrase.balanced (h : Phrase text code) : Balanced code := h.level []

theorem Phrase.append (h : Phrase text code) (hbs : Phrase as bs) :
    Phrase (text ++ as) (code ++ bs) where
  reads rest := by
    rw [List.append_assoc, h.reads, hbs.reads, Option.map_map]
    simp only [Function.comp_def, List.append_assoc]
  level opened := by
    rw [List.foldlM_append, h.level]
    exact hbs.level opened
  last := by
    rw [List.getLast?_append]
    intro hlast
    rcases Option.or_eq_some_iff.1 hlast with hlast | ⟨-, hlast⟩
    · exact hbs.last hlast
    · exact h.last hlast
  ordinary := List.forall_mem_append.2 ⟨h.ordinary, hbs.ordinary⟩

/-- The characters of words: neither quotes nor brackets. -/
def isWordly (c : Char) : Bool :=
  !(List.contains ['"', '(', ')', '[', ']', '{', '}', '\'', '`', '/'] c)

theorem bracket_of_isWordly {c : Char} (h : isWordly c = true) (opened : List Char) :
    bracket opened c = some opened := by
  have hclosing : closing? c = none := by
    unfold closing?
    split <;> first | rfl | exact absurd h (by decide)
  have hother : c ∉ [')', ']', '}'] := by
    intro hmem
    simp only [List.mem_cons, List.not_mem_nil, or_false] at hmem
    rcases hmem with rfl | rfl | rfl <;> exact absurd h (by decide)
  unfold bracket
  rw [hclosing]
  exact if_neg hother

/-- A word is code as it stands. -/
theorem phrase_word (h : ∀ c ∈ text, isWordly c = true) (hlast : text.getLast? ≠ some '-') :
    Phrase text text where
  reads rest := by
    induction text with
    | nil => simp
    | cons c cs ih =>
        obtain ⟨hc, hcs⟩ := List.forall_mem_cons.1 h
        have hquote : c ≠ '"' := by
          rintro rfl
          exact absurd hc (by decide)
        have hlater : cs.getLast? ≠ some '-' := by
          intro hlater
          exact hlast (by rw [List.getLast?_cons, hlater]; rfl)
        rw [List.cons_append, code?, if_neg hquote, ih hcs hlater, Option.map_map]
        rfl
  level opened := by
    clear hlast
    induction text with
    | nil => rfl
    | cons c cs ih =>
        obtain ⟨hc, hcs⟩ := List.forall_mem_cons.1 h
        rw [List.foldlM_cons, bracket_of_isWordly hc]
        exact ih hcs
  last := hlast
  ordinary c hc hstrange := by
    have hword := h c hc
    simp only [strange, List.mem_cons, List.not_mem_nil, or_false] at hstrange
    rcases hstrange with rfl | rfl | rfl <;> exact absurd hword (by decide)

/-- The brackets that scripts are written with. -/
inductive Brackets : Char → Char → Prop
  | round : Brackets '(' ')'
  | square : Brackets '[' ']'

theorem Phrase.enclosed (h : Phrase text code) {front back : Char} (hb : Brackets front back) :
    Phrase (front :: (text ++ [back])) (front :: (code ++ [back])) where
  reads rest := by
    have hfront : front ≠ '"' := by cases hb <;> decide
    have hback : back ≠ '"' := by cases hb <;> decide
    rw [List.cons_append, List.append_assoc, code?, if_neg hfront, h.reads, List.cons_append, code?,
      if_neg hback]
    simp only [List.nil_append, Option.map_map, Function.comp_def, List.append_assoc,
      List.cons_append]
  level opened := by
    have hopen : bracket opened front = some (back :: opened) := by cases hb <;> rfl
    have hclose : bracket (back :: opened) back = some opened := by cases hb <;> rfl
    rw [List.foldlM_cons, hopen, Option.bind_eq_bind, Option.bind_some, List.foldlM_append, h.level,
      Option.bind_eq_bind, Option.bind_some, List.foldlM_cons, hclose]
    rfl
  last := by
    have hback : back ≠ '-' := by cases hb <;> decide
    rw [← List.cons_append, List.getLast?_concat]
    exact fun heq => hback (Option.some.inj heq)
  ordinary := by
    have hfront : front ∉ strange := by cases hb <;> decide
    have hback : back ∉ strange := by cases hb <;> decide
    exact List.forall_mem_cons.2 ⟨hfront,
      List.forall_mem_append.2 ⟨h.ordinary, List.forall_mem_singleton.2 hback⟩⟩

/-! ### Quoted texts -/

/-- An escaped character leaves the reader inside the text. -/
theorem code?_escape (c : Char) (rest : List Char) :
    code? .text (Text.escape c ++ rest) = code? .text rest := by
  have hdigit : ∀ n < 16, Text.hexDigit n ∉ ['"', '\\', '\n', '\r'] := by decide
  rw [Text.escape]
  split_ifs with hquote hslash hfeed hreturn htab hback hform hcontrol
  all_goals try rfl
  · have hhigh := hdigit (c.toNat / 16) (by omega)
    have hlow := hdigit (c.toNat % 16) (by omega)
    simp only [List.mem_cons, List.not_mem_nil, or_false, not_or] at hhigh hlow
    simp [code?, hhigh, hlow]
  · simp [code?, hquote, hslash, hfeed, hreturn]

theorem code?_escapes (cs rest : List Char) :
    code? .text (cs.flatMap Text.escape ++ rest) = code? .text rest := by
  induction cs with
  | nil => rfl
  | cons c cs ih => rw [List.flatMap_cons, List.append_assoc, code?_escape, ih]

/-- Of a quoted text the quotes are code, whatever the text. -/
theorem phrase_quote (cs : List Char) : Phrase (Text.quote cs) ['"', '"'] where
  reads rest := by
    rw [Text.quote, List.cons_append, List.append_assoc, code?, if_pos rfl, code?_escapes]
    simp only [List.cons_append, List.nil_append, code?, if_true, Option.map_map]
    rfl
  level _ := rfl
  last := by decide
  ordinary c hc := by
    have hquote : c = '"' := by simpa using hc
    rw [hquote]
    decide

end Phrases

end Telemetry.Script
