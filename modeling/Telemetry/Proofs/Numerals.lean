import Mathlib
import Telemetry.Number.Form
import Telemetry.Number.Reading
import Telemetry.Proofs.Library
import Telemetry.Word

/-!
# The grammar of numbers

What `isInteger`, `isNumber` and the readers of numbers accept, said by a grammar and not by a way
to cut a text.  A number is a sign, a mantissa and an exponent (`NumberForm`), an integer is a sign
and digits (`IntegerForm`), for digits of any class.

* `isInteger_iff`, `isNumber_iff`: the two tests decide the two forms, if no sign, point or mark of
  an exponent is in the class of the digits.
* `toOption_readWord`, `integerForm_of_readWord`: the reader of words accepts the integers in ASCII
  digits that a word stands for, and nothing else.
* `toOption_readBits`: the reader of bits accepts the digits of its base whose value has 64 bits.
* `isSome_float?_of_number`, `number_of_isSome_float?`: the reader of doubles accepts the numbers in
  ASCII digits and no number in digits of another script.
-/

namespace Telemetry.Number

/-! ### The grammar -/

/-- Digits of a class, at least one. -/
def Digits (isDigit : Char → Bool) (ds : List Char) : Prop :=
  ds ≠ [] ∧ ∀ c ∈ ds, isDigit c = true

/-- An optional sign. -/
inductive Sign : List Char → Prop
  | none : Sign []
  | plus : Sign ['+']
  | minus : Sign ['-']

/-- Digits with an optional point, at least one digit in all. -/
inductive Mantissa (isDigit : Char → Bool) : List Char → Prop
  | whole {ds : List Char} (hds : Digits isDigit ds) : Mantissa isDigit ds
  | pointed {ds fraction : List Char} (hds : ∀ c ∈ ds, isDigit c = true)
      (hfraction : ∀ c ∈ fraction, isDigit c = true) (hsome : ds ≠ [] ∨ fraction ≠ []) :
      Mantissa isDigit (ds ++ '.' :: fraction)

/-- An optional exponent. -/
inductive Exponent (isDigit : Char → Bool) : List Char → Prop
  | none : Exponent isDigit []
  | some {mark : Char} {sign ds : List Char} (hmark : mark = 'e' ∨ mark = 'E') (hsign : Sign sign)
      (hds : Digits isDigit ds) : Exponent isDigit (mark :: (sign ++ ds))

/-- An optional sign and digits. -/
inductive IntegerForm (isDigit : Char → Bool) : List Char → Prop
  | mk {sign ds : List Char} (hsign : Sign sign) (hds : Digits isDigit ds) :
      IntegerForm isDigit (sign ++ ds)

/-- A mantissa and an optional exponent. -/
inductive UnsignedForm (isDigit : Char → Bool) : List Char → Prop
  | mk {mantissa exponent : List Char} (hmantissa : Mantissa isDigit mantissa)
      (hexponent : Exponent isDigit exponent) : UnsignedForm isDigit (mantissa ++ exponent)

/-- An optional sign and a number without one. -/
inductive NumberForm (isDigit : Char → Bool) : List Char → Prop
  | mk {sign rest : List Char} (hsign : Sign sign) (hrest : UnsignedForm isDigit rest) :
      NumberForm isDigit (sign ++ rest)

/-- A hexadecimal digit in either case. -/
def isHexDigit (c : Char) : Bool := c.isDigit || ('a' ≤ c && c ≤ 'f') || ('A' ≤ c && c ≤ 'F')

/-- A binary digit. -/
def isBit (c : Char) : Bool := c == '0' || c == '1'

/-- The integer of a sign and a natural number. -/
def withSign (sign : List Char) (n : Nat) : Int := if sign = ['-'] then -n else n

/-- The number that digits of a base stand for after `acc`. -/
def spelled (base acc : Nat) (ds : List Char) : Nat :=
  ds.foldl (fun n c => n * base + (digitValue? base c).getD 0) acc

/-- The marks of a number that are no digits. -/
def marks : List Char := ['+', '-', '.', 'e', 'E']

section Members

variable {p q : Char → Bool} {cs : List Char} {c : Char}

theorem Digits.mono (h : Digits p cs) (hpq : ∀ c ∈ cs, p c = true → q c = true) : Digits q cs :=
  ⟨h.1, fun c hc => hpq c hc (h.2 c hc)⟩

theorem Sign.mem (h : Sign cs) (hc : c ∈ cs) : c ∈ marks := by
  cases h with
  | none => exact nomatch hc
  | plus => exact List.mem_singleton.1 hc ▸ by decide
  | minus => exact List.mem_singleton.1 hc ▸ by decide

theorem Mantissa.mem (h : Mantissa p cs) (hc : c ∈ cs) : p c = true ∨ c ∈ marks := by
  cases h with
  | whole hds => exact Or.inl (hds.2 c hc)
  | pointed hds hfraction _ =>
      rcases List.mem_append.1 hc with hc | hc
      · exact Or.inl (hds c hc)
      · rcases List.mem_cons.1 hc with rfl | hc
        · exact Or.inr (by decide)
        · exact Or.inl (hfraction c hc)

theorem Exponent.mem (h : Exponent p cs) (hc : c ∈ cs) : p c = true ∨ c ∈ marks := by
  cases h with
  | none => exact nomatch hc
  | some hmark hsign hds =>
      rcases List.mem_cons.1 hc with rfl | hc
      · rcases hmark with rfl | rfl <;> exact Or.inr (by decide)
      · rcases List.mem_append.1 hc with hc | hc
        · exact Or.inr (hsign.mem hc)
        · exact Or.inl (hds.2 c hc)

/-- A number is made of digits and marks. -/
theorem NumberForm.mem (h : NumberForm p cs) (hc : c ∈ cs) : p c = true ∨ c ∈ marks := by
  obtain @⟨sign, rest, hsign, @⟨mantissa, exponent, hmantissa, hexponent⟩⟩ := h
  rcases List.mem_append.1 hc with hc | hc
  · exact Or.inr (hsign.mem hc)
  · rcases List.mem_append.1 hc with hc | hc
    · exact hmantissa.mem hc
    · exact hexponent.mem hc

theorem Mantissa.mono (h : Mantissa p cs) (hpq : ∀ c ∈ cs, p c = true → q c = true) :
    Mantissa q cs := by
  cases h with
  | whole hds => exact .whole (hds.mono hpq)
  | pointed hds hfraction hsome =>
      rw [List.forall_mem_append, List.forall_mem_cons] at hpq
      exact .pointed (fun c hc => hpq.1 c hc (hds c hc)) (fun c hc => hpq.2.2 c hc (hfraction c hc))
        hsome

theorem Exponent.mono (h : Exponent p cs) (hpq : ∀ c ∈ cs, p c = true → q c = true) :
    Exponent q cs := by
  cases h with
  | none => exact .none
  | some hmark hsign hds =>
      rw [List.forall_mem_cons, List.forall_mem_append] at hpq
      exact .some hmark hsign (hds.mono hpq.2.2)

/-- A number is one for another class of digits, if its own digits are in that class. -/
theorem NumberForm.mono (h : NumberForm p cs) (hpq : ∀ c ∈ cs, p c = true → q c = true) :
    NumberForm q cs := by
  obtain @⟨sign, rest, hsign, @⟨mantissa, exponent, hmantissa, hexponent⟩⟩ := h
  rw [List.forall_mem_append, List.forall_mem_append] at hpq
  exact .mk hsign (.mk (hmantissa.mono hpq.2.1) (hexponent.mono hpq.2.2))

theorem IntegerForm.mono (h : IntegerForm p cs) (hpq : ∀ c ∈ cs, p c = true → q c = true) :
    IntegerForm q cs := by
  obtain @⟨sign, ds, hsign, hds⟩ := h
  exact .mk hsign (hds.mono fun c hc => hpq c (List.mem_append_right sign hc))

/-- Digits are a number without a sign. -/
theorem Digits.unsigned (h : Digits p cs) : UnsignedForm p cs := by
  have hform : UnsignedForm p (cs ++ []) := .mk (.whole h) .none
  rwa [List.append_nil] at hform

/-- An integer is a number. -/
theorem IntegerForm.number (h : IntegerForm p cs) : NumberForm p cs := by
  obtain @⟨sign, ds, hsign, hds⟩ := h
  exact .mk hsign hds.unsigned

end Members

/-! ### Cutting -/

section Cutting

variable {p : Char → Bool}

theorem cutSign_sound (cs : List Char) :
    Sign (cutSign cs).1 ∧ cs = (cutSign cs).1 ++ (cutSign cs).2 := by
  rw [cutSign.eq_def]
  split
  · exact ⟨.plus, rfl⟩
  · exact ⟨.minus, rfl⟩
  · exact ⟨.none, rfl⟩

theorem cutSign_append {sign rest : List Char} (hsign : Sign sign)
    (hrest : ∀ c ∈ rest.head?, c ≠ '+' ∧ c ≠ '-') : cutSign (sign ++ rest) = (sign, rest) := by
  cases hsign with
  | none =>
      rw [List.nil_append, cutSign.eq_def]
      split
      · exact absurd rfl (hrest _ rfl).1
      · exact absurd rfl (hrest _ rfl).2
      · rfl
  | plus => rfl
  | minus => rfl

/-- A mantissa with a point. -/
theorem cutMantissa?_of_point {cs tail : List Char} (h : cs.dropWhile p = '.' :: tail) :
    cutMantissa? p cs =
      if (cs.takeWhile p).isEmpty && (tail.takeWhile p).isEmpty then none
      else some (cs.takeWhile p ++ '.' :: tail.takeWhile p, tail.dropWhile p) := by
  simp only [cutMantissa?, h]

/-- A mantissa without a point. -/
theorem cutMantissa?_of_no_point {cs : List Char} (h : ∀ tail, cs.dropWhile p ≠ '.' :: tail) :
    cutMantissa? p cs =
      if (cs.takeWhile p).isEmpty then none else some (cs.takeWhile p, cs.dropWhile p) := by
  rw [cutMantissa?]
  dsimp only
  split
  · rename_i tail hdrop
    exact absurd hdrop (h tail)
  · rfl

theorem cutMantissa?_sound {cs mantissa rest : List Char}
    (h : cutMantissa? p cs = some (mantissa, rest)) :
    Mantissa p mantissa ∧ cs = mantissa ++ rest := by
  have hcs : cs.takeWhile p ++ cs.dropWhile p = cs := List.takeWhile_append_dropWhile
  have hwhole : ∀ c ∈ cs.takeWhile p, p c = true := fun c hc => List.mem_takeWhile_imp hc
  by_cases hpoint : ∃ tail, cs.dropWhile p = '.' :: tail
  · obtain ⟨tail, hdrop⟩ := hpoint
    have htail : tail.takeWhile p ++ tail.dropWhile p = tail := List.takeWhile_append_dropWhile
    rw [cutMantissa?_of_point hdrop] at h
    split at h
    · cases h
    · rename_i hsome
      cases h
      refine ⟨.pointed hwhole (fun c hc => List.mem_takeWhile_imp hc) ?_, ?_⟩
      · rwa [Bool.and_eq_true, List.isEmpty_iff, List.isEmpty_iff, not_and_or] at hsome
      · rw [List.append_assoc, List.cons_append, htail, ← hdrop, hcs]
  · rw [cutMantissa?_of_no_point fun tail hdrop => hpoint ⟨tail, hdrop⟩] at h
    split at h
    · cases h
    · rename_i hsome
      cases h
      exact ⟨.whole ⟨fun hnil => hsome (List.isEmpty_iff.2 hnil), hwhole⟩, hcs.symm⟩

theorem cutMantissa?_append (hp : ∀ c ∈ marks, p c = false) {mantissa rest : List Char}
    (hmantissa : Mantissa p mantissa) (hrest : ∀ c ∈ rest.head?, p c = false ∧ c ≠ '.') :
    cutMantissa? p (mantissa ++ rest) = some (mantissa, rest) := by
  have hstop : ∀ c ∈ rest.head?, p c = false := fun c hc => (hrest c hc).1
  cases hmantissa with
  | whole hds =>
      have hdrop := dropWhile_append_of_stop hds.2 hstop
      have hpoint : ∀ tail, (mantissa ++ rest).dropWhile p ≠ '.' :: tail := by
        rintro tail hpoint
        rw [hdrop] at hpoint
        exact (hrest '.' (hpoint ▸ rfl)).2 rfl
      rw [cutMantissa?_of_no_point hpoint, takeWhile_append_of_stop hds.2 hstop, hdrop,
        if_neg fun hnil => hds.1 (List.isEmpty_iff.1 hnil)]
  | @pointed ds fraction hds hfraction hsome =>
      have hpoint : ∀ c ∈ ('.' :: (fraction ++ rest)).head?, p c = false := by
        rintro c ⟨⟩
        exact hp '.' (by decide)
      have hempty : ¬ (ds.isEmpty && fraction.isEmpty) = true := by
        rwa [Bool.and_eq_true, List.isEmpty_iff, List.isEmpty_iff, not_and_or]
      rw [List.append_assoc, List.cons_append,
        cutMantissa?_of_point (dropWhile_append_of_stop hds hpoint),
        takeWhile_append_of_stop hds hpoint, takeWhile_append_of_stop hfraction hstop,
        dropWhile_append_of_stop hfraction hstop, if_neg hempty]

theorem Digits.head_ne (hp : ∀ c ∈ marks, p c = false) {ds : List Char} (hds : Digits p ds) :
    ∀ c ∈ ds.head?, c ∉ marks := fun c hc hmark =>
  absurd (hds.2 c (List.mem_of_mem_head? hc)) (ne_true_of_eq_false (hp c hmark))

theorem cutExponent_sound (cs : List Char) :
    Exponent p (cutExponent p cs).1 ∧ cs = (cutExponent p cs).1 ++ (cutExponent p cs).2 := by
  cases cs with
  | nil => exact ⟨.none, rfl⟩
  | cons mark tail =>
      obtain ⟨hsign, htail⟩ := cutSign_sound tail
      rw [cutExponent]
      dsimp only
      split
      · rename_i hmark
        split
        · exact ⟨.none, rfl⟩
        · rename_i hsome
          refine ⟨.some hmark hsign ⟨fun hnil => hsome (List.isEmpty_iff.2 hnil), fun c hc =>
            List.mem_takeWhile_imp hc⟩, ?_⟩
          rw [List.cons_append, List.append_assoc, List.takeWhile_append_dropWhile, ← htail]
      · exact ⟨.none, rfl⟩

theorem cutExponent_eq (hp : ∀ c ∈ marks, p c = false) {exponent : List Char}
    (h : Exponent p exponent) : cutExponent p exponent = (exponent, []) := by
  cases h with
  | none => rfl
  | @some mark sign ds hmark hsign hds =>
      have hcut : cutSign (sign ++ ds) = (sign, ds) := by
        refine cutSign_append hsign fun c hc => ⟨?_, ?_⟩
        · rintro rfl
          exact hds.head_ne hp _ hc (by decide)
        · rintro rfl
          exact hds.head_ne hp _ hc (by decide)
      have htake : ds.takeWhile p = ds := List.takeWhile_eq_self_iff.2 hds.2
      have hdrop : ds.dropWhile p = [] := List.dropWhile_eq_nil_iff.2 hds.2
      rw [cutExponent, if_pos hmark, hcut]
      dsimp only
      rw [htake, hdrop, if_neg fun hnil => hds.1 (List.isEmpty_iff.1 hnil)]

end Cutting

/-! ### The two tests -/

section Tests

variable {p : Char → Bool} (hp : ∀ c ∈ marks, p c = false)

include hp

/-- A number without a sign starts with no sign. -/
theorem UnsignedForm.head_ne {rest : List Char} (h : UnsignedForm p rest) :
    ∀ c ∈ rest.head?, c ≠ '+' ∧ c ≠ '-' := by
  obtain @⟨mantissa, exponent, hmantissa, -⟩ := h
  have hdigit : ∀ {ds rest : List Char}, Digits p ds → ∀ c ∈ (ds ++ rest).head?, c ∉ marks := by
    intro ds rest hds c hc
    obtain ⟨d, ds, rfl⟩ := List.exists_cons_of_ne_nil hds.1
    exact hds.head_ne hp c hc
  have hmarks : ∀ c : Char, c ∉ marks ∨ c = '.' → c ≠ '+' ∧ c ≠ '-' := by
    intro c hc
    constructor
    · rintro rfl
      exact absurd hc (by decide)
    · rintro rfl
      exact absurd hc (by decide)
  intro c hc
  apply hmarks
  cases hmantissa with
  | whole hds => exact Or.inl (hdigit hds c hc)
  | @pointed ds fraction hds hfraction hsome =>
      cases ds with
      | nil => exact Or.inr (Option.some.inj hc).symm
      | cons d ds =>
          rw [List.append_assoc] at hc
          exact Or.inl (hdigit ⟨List.cons_ne_nil d ds, hds⟩ c hc)

/-- **The test for integers** decides the form. -/
theorem isInteger_iff {cs : List Char} : isInteger p cs = true ↔ IntegerForm p cs := by
  rw [isInteger]
  dsimp only
  rw [Bool.and_eq_true, Bool.not_eq_true', List.isEmpty_eq_false_iff, List.all_eq_true]
  constructor
  · intro h
    obtain ⟨hsign, hcs⟩ := cutSign_sound cs
    rw [hcs]
    exact .mk hsign h
  · intro h
    obtain @⟨sign, ds, hsign, hds⟩ := h
    rw [cutSign_append hsign (hds.unsigned.head_ne hp)]
    exact hds

/-- What follows the mantissa of a number without a sign is its exponent. -/
theorem cutMantissa?_of_unsigned {mantissa exponent : List Char} (hmantissa : Mantissa p mantissa)
    (hexponent : Exponent p exponent) :
    cutMantissa? p (mantissa ++ exponent) = some (mantissa, exponent) := by
  refine cutMantissa?_append hp hmantissa fun c hc => ?_
  cases hexponent with
  | none => exact nomatch hc
  | some hmark _ _ =>
      obtain rfl := Option.some.inj hc
      rcases hmark with rfl | rfl
      · exact ⟨hp 'e' (by decide), by decide⟩
      · exact ⟨hp 'E' (by decide), by decide⟩

/-- A number is cut off whole. -/
theorem prefix?_eq {cs : List Char} (h : NumberForm p cs) : prefix? p cs = some (cs, []) := by
  obtain @⟨sign, rest, hsign, @⟨mantissa, exponent, hmantissa, hexponent⟩⟩ := h
  have hcut := cutSign_append hsign ((UnsignedForm.mk hmantissa hexponent).head_ne hp)
  simp only [prefix?, hcut, cutMantissa?_of_unsigned hp hmantissa hexponent, Option.map_some,
    cutExponent_eq hp hexponent]

omit hp in
/-- What is cut off is a number. -/
theorem prefix?_sound {cs front rest : List Char} (h : prefix? p cs = some (front, rest)) :
    NumberForm p front ∧ cs = front ++ rest := by
  obtain ⟨hsign, hcs⟩ := cutSign_sound cs
  rw [prefix?] at h
  rcases hsplit : cutSign cs with ⟨sign, tail⟩
  rw [hsplit] at h hsign hcs
  obtain ⟨⟨mantissa, after⟩, hcut, heq⟩ := Option.map_eq_some_iff.1 h
  obtain ⟨hmantissa, hafter⟩ := cutMantissa?_sound hcut
  obtain ⟨hexponent, hrest⟩ := cutExponent_sound (p := p) after
  rcases hend : cutExponent p after with ⟨exponent, last⟩
  dsimp only at heq hsign hcs hafter
  rw [hend] at heq hexponent hrest
  cases heq
  refine ⟨.mk hsign (.mk hmantissa hexponent), ?_⟩
  rw [hcs, hafter, hrest, List.append_assoc, List.append_assoc]

/-- **The test for numbers** decides the form. -/
theorem isNumber_iff {cs : List Char} : isNumber p cs = true ↔ NumberForm p cs := by
  rw [isNumber]
  constructor
  · intro h
    split at h
    · rename_i front hcut
      obtain ⟨hform, hcs⟩ := prefix?_sound hcut
      rwa [hcs, List.append_nil]
    · cases h
  · intro h
    rw [prefix?_eq hp h]

end Tests

/-- No mark is an ASCII digit. -/
theorem isDigit_marks : ∀ c ∈ marks, c.isDigit = false := by
  have hall : (marks.all fun c => !c.isDigit) = true := by decide
  simpa only [List.all_eq_true, Bool.not_eq_true'] using hall

/-! ### Digits of a base -/

theorem isSome_digitValue?_iff {base : Nat} {c : Char} :
    (digitValue? base c).isSome = true ↔
      (48 ≤ c.toNat ∧ c.toNat ≤ 57 ∧ c.toNat - 48 < base) ∨
        (97 ≤ c.toNat ∧ c.toNat ≤ 102 ∧ c.toNat - 87 < base) ∨
          (65 ≤ c.toNat ∧ c.toNat ≤ 70 ∧ c.toNat - 55 < base) := by
  rw [digitValue?, Option.isSome_filter]
  split_ifs with hdigit hlower hupper <;> simp <;> omega

theorem isDigit_iff {c : Char} : c.isDigit = true ↔ 48 ≤ c.toNat ∧ c.toNat ≤ 57 := by
  rw [Char.isDigit, Bool.and_eq_true, decide_eq_true_iff, decide_eq_true_iff]
  exact Iff.rfl

theorem isSome_digitValue?_ten (c : Char) : (digitValue? 10 c).isSome = c.isDigit := by
  rw [Bool.eq_iff_iff, isSome_digitValue?_iff, isDigit_iff]
  omega

theorem isSome_digitValue?_sixteen (c : Char) : (digitValue? 16 c).isSome = isHexDigit c := by
  have hle : ∀ a b : Char, a ≤ b ↔ a.toNat ≤ b.toNat := fun _ _ => Iff.rfl
  have hbounds : 'a'.toNat = 97 ∧ 'f'.toNat = 102 ∧ 'A'.toNat = 65 ∧ 'F'.toNat = 70 := by decide
  rw [Bool.eq_iff_iff, isSome_digitValue?_iff, isHexDigit]
  simp only [Bool.or_eq_true, Bool.and_eq_true, decide_eq_true_iff, isDigit_iff, hle]
  omega

theorem isSome_digitValue?_two (c : Char) : (digitValue? 2 c).isSome = isBit c := by
  have heq : ∀ d : Char, c = d ↔ c.toNat = d.toNat := fun d => Char.toNat_inj.symm
  have hbits : '0'.toNat = 48 ∧ '1'.toNat = 49 := by decide
  rw [Bool.eq_iff_iff, isSome_digitValue?_iff, isBit, Bool.or_eq_true, beq_iff_eq, beq_iff_eq,
    heq, heq]
  omega

/-! ### Reading integers -/

section Integers

variable {base limit : Nat} {overflow : IntegerFault}

theorem le_spelled (hbase : 0 < base) (acc : Nat) (ds : List Char) : acc ≤ spelled base acc ds := by
  induction ds generalizing acc with
  | nil => exact Nat.le_refl acc
  | cons c ds ih =>
      exact Nat.le_trans (Nat.le_trans (Nat.le_mul_of_pos_right acc hbase) (Nat.le_add_right _ _))
        (ih _)

/-- Digits are read up to the limit; the value only grows on the way. -/
theorem toOption_readDigits (hbase : 0 < base) {ds : List Char}
    (hds : ∀ c ∈ ds, (digitValue? base c).isSome = true) {acc : Nat} (hacc : acc ≤ limit) :
    (readDigits base limit overflow acc ds).toOption =
      if spelled base acc ds ≤ limit then some (spelled base acc ds) else none := by
  induction ds generalizing acc with
  | nil =>
      rw [spelled, List.foldl_nil, if_pos hacc]
      rfl
  | cons c ds ih =>
      rw [List.forall_mem_cons] at hds
      obtain ⟨d, hd⟩ := Option.isSome_iff_exists.1 hds.1
      have hcons : spelled base acc (c :: ds) = spelled base (acc * base + d) ds := by
        rw [spelled, List.foldl_cons, hd]
        rfl
      rw [readDigits, hd, hcons]
      dsimp only
      by_cases hlimit : acc * base + d ≤ limit
      · rw [if_pos hlimit, ih hds.2 hlimit]
      · have hover := le_spelled hbase (acc * base + d) ds
        rw [if_neg hlimit, if_neg fun h => hlimit (Nat.le_trans hover h)]
        rfl

/-- What is read is digits of the base. -/
theorem digits_of_readDigits {ds : List Char} {acc n : Nat}
    (h : readDigits base limit overflow acc ds = .ok n) :
    ∀ c ∈ ds, (digitValue? base c).isSome = true := by
  induction ds generalizing acc with
  | nil => exact fun c hc => nomatch hc
  | cons c ds ih =>
      rw [readDigits] at h
      cases hd : digitValue? base c with
      | none =>
          rw [hd] at h
          cases h
      | some d =>
          rw [hd] at h
          dsimp only at h
          split at h
          · exact List.forall_mem_cons.2 ⟨Option.isSome_of_eq_some hd, ih h⟩
          · cases h

theorem toOption_readSome (hbase : 0 < base) {ds : List Char}
    (hds : Digits (fun c => (digitValue? base c).isSome) ds) :
    (readSome base limit overflow ds).toOption =
      if spelled base 0 ds ≤ limit then some (spelled base 0 ds) else none := by
  obtain ⟨c, ds, rfl⟩ := List.exists_cons_of_ne_nil hds.1
  exact toOption_readDigits hbase hds.2 (Nat.zero_le limit)

theorem digits_of_readSome {ds : List Char} {n : Nat}
    (h : readSome base limit overflow ds = .ok n) :
    Digits (fun c => (digitValue? base c).isSome) ds := by
  cases ds with
  | nil => cases h
  | cons c ds => exact ⟨List.cons_ne_nil c ds, digits_of_readDigits h⟩

/-- The readers pass from natural numbers to integers before they pass to words. -/
theorem map_natCast (x : Except IntegerFault Nat) (f : Int → Int64) :
    Except.map f (do let n ← x; pure (n : Int)) = x.map fun n : Nat => f n := by
  cases x <;> rfl

/-- **The reader of bits** accepts the digits whose value has 64 bits. -/
theorem toOption_readBits (hbase : 0 < base) {ds : List Char}
    (hds : Digits (fun c => (digitValue? base c).isSome) ds) :
    (readBits base ds).toOption =
      if spelled base 0 ds < Word.count then some (Int64.ofInt (spelled base 0 ds)) else none := by
  have hcount : spelled base 0 ds ≤ 18446744073709551615 ↔ spelled base 0 ds < Word.count :=
    Nat.lt_succ_iff.symm
  rw [readBits, map_natCast, toOption_map, toOption_readSome hbase hds, if_congr hcount rfl rfl]
  split <;> rfl

theorem readWord_unsigned {ds : List Char} (hds : Digits Char.isDigit ds) :
    readWord ds =
      (readSome 10 9223372036854775807 .tooLarge ds).map fun n : Nat => Int64.ofInt n := by
  have hsign : ∀ c ∈ ds.head?, c ∉ marks := hds.head_ne isDigit_marks
  rw [readWord.eq_def]
  split
  · exact absurd rfl hds.1
  · exact absurd (by decide) (hsign '-' rfl)
  · exact absurd (by decide) (hsign '+' rfl)
  · exact map_natCast _ _

/-- Digits are read up to the limit of the words, whichever way their value becomes an integer. -/
theorem toOption_readSome_word {ds : List Char} (hds : Digits Char.isDigit ds) {f : Nat → Int}
    (hlimit : ∀ n, n ≤ limit ↔ -9223372036854775808 ≤ f n ∧ f n ≤ 9223372036854775807) :
    ((readSome 10 limit overflow ds).map fun n => Int64.ofInt (f n)).toOption =
      Word.ofInt? (f (spelled 10 0 ds)) := by
  have hvalues : Digits (fun c => (digitValue? 10 c).isSome) ds := by
    simpa only [isSome_digitValue?_ten] using hds
  rw [toOption_map, toOption_readSome (by decide) hvalues, Word.ofInt?, if_congr (hlimit _) rfl rfl]
  split <;> rfl

/-- **The reader of words** accepts the integers that a word stands for. -/
theorem toOption_readWord {sign ds : List Char} (hsign : Sign sign)
    (hds : Digits Char.isDigit ds) :
    (readWord (sign ++ ds)).toOption = Word.ofInt? (withSign sign (spelled 10 0 ds)) := by
  cases hsign with
  | none =>
      have hsigned : ([] : List Char) ≠ ['-'] := by decide
      rw [List.nil_append, readWord_unsigned hds, withSign, if_neg hsigned]
      exact toOption_readSome_word hds fun n => by omega
  | plus =>
      have hsigned : ['+'] ≠ ['-'] := by decide
      rw [List.singleton_append, readWord, map_natCast, withSign, if_neg hsigned]
      exact toOption_readSome_word hds fun n => by omega
  | minus =>
      rw [List.singleton_append, readWord, map_natCast, withSign, if_pos rfl]
      exact toOption_readSome_word hds (f := fun n => -n) fun n => by omega

/-- What is read as a word is an integer in ASCII digits. -/
theorem integerForm_of_readWord {cs : List Char} {w : Int64} (h : readWord cs = .ok w) :
    IntegerForm Char.isDigit cs := by
  have hdigits : ∀ {limit overflow} {f : Nat → Int64} {ds : List Char},
      Except.map f (readSome 10 limit overflow ds) = .ok w → Digits Char.isDigit ds := by
    intro limit overflow f ds hread
    cases hsome : readSome 10 limit overflow ds with
    | error fault =>
        rw [hsome] at hread
        cases hread
    | ok n => simpa only [isSome_digitValue?_ten] using digits_of_readSome hsome
  rw [readWord.eq_def] at h
  simp only [map_natCast] at h
  split at h
  · cases h
  · exact .mk .minus (hdigits h)
  · exact .mk .plus (hdigits h)
  · exact .mk .none (hdigits h)

end Integers

/-! ### Reading doubles -/

section Doubles

theorem splitSign_append {sign rest : List Char} (hsign : Sign sign)
    (hrest : ∀ c ∈ rest.head?, c ≠ '+' ∧ c ≠ '-') : (splitSign (sign ++ rest)).2 = rest := by
  cases hsign with
  | none =>
      rw [List.nil_append, splitSign.eq_def]
      split
      · exact absurd rfl (hrest _ rfl).2
      · exact absurd rfl (hrest _ rfl).1
      · rfl
  | plus => rfl
  | minus => rfl

theorem splitSign_sound (cs : List Char) : ∃ sign, Sign sign ∧ cs = sign ++ (splitSign cs).2 := by
  rw [splitSign.eq_def]
  split
  · exact ⟨_, .minus, rfl⟩
  · exact ⟨_, .plus, rfl⟩
  · exact ⟨_, .none, rfl⟩

theorem digits_iff {ds : List Char} :
    (ds.isEmpty || !ds.all Char.isDigit) = true ↔ ¬ Digits Char.isDigit ds := by
  rw [Digits, Bool.or_eq_true, List.isEmpty_iff, Bool.not_eq_true', ← Bool.not_eq_true,
    List.all_eq_true, not_and_or, not_not]

theorem isSome_exponent?_iff {cs : List Char} :
    (exponent? cs).isSome = true ↔ Exponent Char.isDigit cs := by
  constructor
  · intro h
    cases cs with
    | nil => exact .none
    | cons mark tail =>
        obtain ⟨sign, hsign, htail⟩ := splitSign_sound tail
        rw [exponent?] at h
        dsimp only at h
        split at h
        · rename_i hmark
          split at h
          · cases h
          · rename_i hds
            rw [htail]
            exact .some hmark hsign (not_not.1 (mt digits_iff.2 hds))
        · cases h
  · intro h
    cases h with
    | none => rfl
    | @some mark sign ds hmark hsign hds =>
        have hsplit := splitSign_append hsign (hds.unsigned.head_ne isDigit_marks)
        rw [exponent?, if_pos hmark]
        dsimp only
        rw [hsplit, if_neg fun h => digits_iff.1 h hds]
        rfl

/-- A numeral is a mantissa and then an exponent. -/
theorem isSome_numeral?_eq (cs : List Char) :
    (numeral? cs).isSome =
      (cutMantissa? Char.isDigit cs).any fun cut => (exponent? cut.2).isSome := by
  by_cases hpoint : ∃ tail, cs.dropWhile Char.isDigit = '.' :: tail
  · obtain ⟨tail, hdrop⟩ := hpoint
    rw [cutMantissa?_of_point hdrop]
    simp only [numeral?, hdrop]
    split
    · rfl
    · exact Option.isSome_map
  · have hdrop : ∀ tail, cs.dropWhile Char.isDigit ≠ '.' :: tail := fun tail h => hpoint ⟨tail, h⟩
    rw [cutMantissa?_of_no_point hdrop, numeral?]
    dsimp only
    split
    · rename_i tail h
      exact absurd h (hdrop tail)
    · dsimp only
      rw [List.isEmpty_nil, Bool.and_true]
      split
      · rfl
      · exact Option.isSome_map

theorem isSome_numeral?_iff {cs : List Char} :
    (numeral? cs).isSome = true ↔ UnsignedForm Char.isDigit cs := by
  rw [isSome_numeral?_eq]
  constructor
  · intro h
    obtain ⟨⟨mantissa, rest⟩, hcut, hrest⟩ := (Option.any_eq_true _ _).1 h
    obtain ⟨hmantissa, rfl⟩ := cutMantissa?_sound hcut
    exact .mk hmantissa (isSome_exponent?_iff.1 hrest)
  · intro h
    obtain @⟨mantissa, exponent, hmantissa, hexponent⟩ := h
    rw [cutMantissa?_of_unsigned isDigit_marks hmantissa hexponent]
    exact isSome_exponent?_iff.2 hexponent

/-- Only a letter has itself as its small letter. -/
theorem of_toLower_eq {c d : Char} (h : c.toLower = d) : c = d ∨ c.toNat + 32 = d.toNat := by
  rw [Char.toLower] at h
  split at h
  · rename_i hupper
    have hle : c.val.toNat ≤ 90 := UInt32.le_iff_toNat_le.1 hupper.2
    have hsum : (c.val + 32).toNat = d.toNat := congrArg Char.toNat h
    have hmod : (c.val.toNat + 32) % 2 ^ 32 = d.toNat := (UInt32.toNat_add c.val 32).symm.trans hsum
    right
    show c.val.toNat + 32 = d.toNat
    omega
  · exact Or.inl h

/-- The first letters of the names that are doubles, in either case. -/
def initials : List Char := ['i', 'I', 'n', 'N']

theorem notMem_marks_of_initial {c : Char} (h : c ∈ initials) : c ∉ marks := by
  have hall : (initials.all fun c => !marks.contains c) = true := by decide
  have hmark := List.all_eq_true.1 hall c h
  rwa [Bool.not_eq_true', List.contains_eq_mem, decide_eq_false_iff_not] at hmark

/-- A text that is the name of a double starts with a letter. -/
theorem head_of_name {cs name : List Char} {first : Char} (h : lowerLetters cs = first :: name)
    (hfirst : first = 'i' ∨ first = 'n') : ∃ c ∈ cs, c ∈ initials := by
  cases cs with
  | nil => cases h
  | cons c cs =>
      refine ⟨c, List.mem_cons_self, ?_⟩
      rcases hfirst with rfl | rfl
      · rcases of_toLower_eq (List.cons.inj h).1 with rfl | hc
        · decide
        · obtain rfl : c = 'I' := Char.toNat_inj.1 (Nat.add_right_cancel hc)
          decide
      · rcases of_toLower_eq (List.cons.inj h).1 with rfl | hc
        · decide
        · obtain rfl : c = 'N' := Char.toNat_inj.1 (Nat.add_right_cancel hc)
          decide

theorem isSome_float? (cs : List Char) :
    (float? cs).isSome = (unsigned? (splitSign cs).2).isSome := Option.isSome_map

/-- A number in ASCII digits is a double. -/
theorem isSome_float?_of_number {cs : List Char} (h : NumberForm Char.isDigit cs) :
    (float? cs).isSome = true := by
  obtain @⟨sign, rest, hsign, hrest⟩ := h
  obtain ⟨n, hnumeral⟩ := Option.isSome_iff_exists.1 (isSome_numeral?_iff.2 hrest)
  rw [isSome_float?, splitSign_append hsign (hrest.head_ne isDigit_marks), unsigned?, hnumeral]
  rfl

/-- A number in digits of a class without letters is a double only if its digits are ASCII. -/
theorem number_of_isSome_float? {p : Char → Bool} (hp : ∀ c ∈ marks, p c = false)
    (hletters : ∀ c ∈ initials, p c = false) {cs : List Char} (h : NumberForm p cs)
    (hsome : (float? cs).isSome = true) : NumberForm Char.isDigit cs := by
  obtain @⟨sign, rest, hsign, hrest⟩ := h
  rw [isSome_float?, splitSign_append hsign (hrest.head_ne hp), unsigned?] at hsome
  cases hnumeral : numeral? rest with
  | some n => exact .mk hsign (isSome_numeral?_iff.1 (Option.isSome_of_eq_some hnumeral))
  | none =>
      -- the names of doubles start with a letter, and a number has no letter but the exponent's
      have hname : ∃ c ∈ rest, c ∈ initials := by
        rw [hnumeral] at hsome
        dsimp only at hsome
        split at hsome
        · rename_i hinf
          rcases hinf with hinf | hinf <;> exact head_of_name hinf (Or.inl rfl)
        · split at hsome
          · rename_i hnan
            exact head_of_name hnan (Or.inr rfl)
          · cases hsome
      obtain ⟨c, hc, hletter⟩ := hname
      rcases (NumberForm.mk hsign hrest).mem (List.mem_append_right sign hc) with hdigit | hmark
      · exact absurd hdigit (ne_true_of_eq_false (hletters c hletter))
      · exact absurd hmark (notMem_marks_of_initial hletter)

end Doubles

end Telemetry.Number
