import Mathlib.Logic.ExistsUnique
import Telemetry.Proofs.Application
import Telemetry.Proofs.DoubleOrder

/-!
# Comparisons

Values are compared as texts, as doubles or as integers, and two doubles that agree to seven digits
count as equal.  Whichever it is, the order of two values is turned round with them
(`Value.compare_swap`), and there is one unless a double that is no number is met as a number
(`Value.compare_eq_none_iff`).  So each comparison is the mirror image of another, and the six of
them fit together: `Comparison.mirrored`.
-/

namespace Telemetry

/-! ### Texts and integers -/

theorem Text.order_swap (s t : List Char) : (Text.order s t).swap = Text.order t s := by
  induction s generalizing t with
  | nil => cases t <;> rfl
  | cons c cs ih =>
      cases t with
      | nil => rfl
      | cons d ds =>
          rw [order, order]
          rcases Nat.lt_trichotomy c.toNat d.toNat with hlt | heq | hgt
          · rw [if_pos hlt, if_neg (Nat.lt_asymm hlt), if_pos hlt]
            rfl
          · rw [heq]
            simp only [Nat.lt_irrefl, if_false, ih]
          · rw [if_neg (Nat.lt_asymm hgt), if_pos hgt, if_pos hgt]
            rfl

theorem compareWords_swap (i j : Int64) : (compareWords i j).swap = compareWords j i := by
  rw [compareWords, compareWords]
  by_cases hlt : i < j
  · rw [if_pos hlt, if_neg (Int64.lt_asymm hlt), if_pos hlt]
    rfl
  · rw [if_neg hlt, if_neg hlt]
    split <;> rfl

/-! ### Doubles -/

section Doubles

open Number

variable (x y : Float)

/-- **Doubles are compared by their order**, with close ones for equal. -/
theorem compareDoubles_eq :
    compareDoubles x y = (order? x y).map fun o => if close x y then .eq else o := by
  cases ho : order? x y with
  | none =>
      have hnan := (order?_eq_none_iff x y).1 ho
      rw [compareDoubles, if_pos (Bool.or_eq_true_iff.2 hnan)]
      rfl
  | some o =>
      obtain ⟨hx, hy⟩ := numbers_of_order? ho
      have hnumbers : ¬ (x.isNaN || y.isNaN) = true := by
        rw [hx, hy]
        decide
      have hequal := beq_iff_order? x y
      have hless := lt_iff_order? x y
      rw [ho, Option.some.injEq] at hequal hless
      rw [compareDoubles, if_neg hnumbers, ← close, Option.map_some]
      cases o with
      | eq => rw [if_pos (hequal.2 rfl), ite_self]
      | lt => rw [if_neg (mt hequal.1 (by decide)), if_pos (hless.2 rfl), apply_ite some]
      | gt =>
          rw [if_neg (mt hequal.1 (by decide)), if_neg (mt hless.1 (by decide)), apply_ite some]

theorem compareDoubles_eq_none_iff :
    compareDoubles x y = none ↔ x.isNaN = true ∨ y.isNaN = true := by
  rw [compareDoubles_eq, Option.map_eq_none_iff, order?_eq_none_iff]

theorem compareDoubles_swap :
    (compareDoubles x y).map Ordering.swap = compareDoubles y x := by
  rw [compareDoubles_eq, compareDoubles_eq, ← order?_swap x y]
  cases ho : order? x y with
  | none => rfl
  | some o =>
      obtain ⟨hx, hy⟩ := numbers_of_order? ho
      rw [close_comm y x hy hx]
      cases close x y <;> rfl

/-- Two doubles that count as equal, one of which is the lesser. -/
example : compareDoubles 1.0 1.00000001 = some .eq ∧ order? 1.0 1.00000001 = some .lt := by
  decide +kernel

end Doubles

/-! ### Values -/

/-- A pair turned round. -/
def Pair.swap : Pair → Pair
  | texts s t => texts t s
  | floats x y => floats y x
  | words i j dateLeft dateRight => words j i dateRight dateLeft

/-- The kind to which two values are brought does not depend on which comes first. -/
theorem Pair.of_swap (a b : Value) : (Pair.of a b).swap = Pair.of b a := by
  cases a <;> cases b <;> rfl

/-- Whether a value is a double that is not a number. -/
def Value.isNaN : Value → Bool
  | float x => x.isNaN
  | _ => false

/-- Whether two values are compared as doubles and one of them is not a number. -/
def Value.unordered (a b : Value) : Bool :=
  !a.isText && !b.isText && (a.isNaN || b.isNaN)

theorem Value.isNaN_number {v : Value} (h : v.isText = false) : v.number.isNaN = v.isNaN := by
  cases v with
  | int i | date i => exact Number.isNaN_ofWord i
  | float x => rfl
  | text s => cases h

theorem Value.isNaN_of_word? {v : Value} {w : Int64 × Bool} (h : v.word? = some w) :
    v.isNaN = false := by
  cases v with
  | int i | date i => rfl
  | float x | text s => cases h

section Values

variable (a b : Value)

/-- **The order of two values is turned round with them.** -/
theorem Value.compare_swap : (a.compare b).map Ordering.swap = b.compare a := by
  rw [compare, compare, ← Pair.of_swap a b]
  cases Pair.of a b with
  | texts s t => exact congrArg some (Text.order_swap s t)
  | floats x y => exact compareDoubles_swap x y
  | words i j dateLeft dateRight => exact congrArg some (compareWords_swap i j)

/-- **Two values have an order**, unless one of them is not a number and is compared as one. -/
theorem Value.compare_eq_none_iff : a.compare b = none ↔ unordered a b = true := by
  rw [compare, Pair.of, unordered, ← Bool.not_or]
  by_cases htext : (a.isText || b.isText) = true
  · rw [if_pos htext, htext]
    exact iff_of_false nofun nofun
  · rw [if_neg htext, Bool.eq_false_iff.2 htext]
    obtain ⟨ha, hb⟩ := Bool.or_eq_false_iff.1 (Bool.eq_false_iff.2 htext)
    rw [Bool.not_false, Bool.true_and]
    have hdoubles : compareDoubles a.number b.number = none ↔ (a.isNaN || b.isNaN) = true := by
      rw [compareDoubles_eq_none_iff, isNaN_number ha, isNaN_number hb, Bool.or_eq_true]
    cases hi : a.word? with
    | none => exact hdoubles
    | some i =>
        cases hj : b.word? with
        | none => exact hdoubles
        | some j =>
            rw [isNaN_of_word? hi, isNaN_of_word? hj]
            exact iff_of_false nofun nofun

end Values

/-- The time of a result does not depend on which operand comes first. -/
theorem newest_pair_comm (x y : Timed) : newest [x, y] = newest [y, x] := by
  have hpair : ∀ u v : Timed, newest [u, v] = later u.time v.time := fun u v =>
    congrArg (later · v.time) (newest_singleton u)
  rw [hpair, hpair]
  rcases Int64.le_total x.time y.time with hle | hge
  · rw [later_of_le hle, later_of_ge hle]
  · rw [later_of_ge hge, later_of_le hge]

/-! ### What comparisons say -/

namespace Comparison

/-- The comparison that asks the same about operands turned round. -/
def mirror : Comparison → Comparison
  | equal => equal
  | notEqual => notEqual
  | less => greater
  | greater => less
  | lessOrEqual => greaterOrEqual
  | greaterOrEqual => lessOrEqual

theorem holds_mirror (op : Comparison) (o : Option Ordering) :
    op.mirror.holds (o.map Ordering.swap) = op.holds o := by
  rcases o with - | (- | - | -) <;> cases op <;> rfl

/-- What the comparisons say of operands that have an order. -/
structure Trichotomous (truth : Comparison → Bool) : Prop where
  exactly_one : ∃! op, op ∈ [less, equal, greater] ∧ truth op = true
  lessOrEqual_iff : truth lessOrEqual = true ↔ truth less = true ∨ truth equal = true
  greaterOrEqual_iff : truth greaterOrEqual = true ↔ truth greater = true ∨ truth equal = true
  notEqual_iff : truth notEqual = true ↔ ¬ truth equal = true

/-- The one of less, equal and greater that is true of an order. -/
def ofOrdering : Ordering → Comparison
  | .lt => less
  | .eq => equal
  | .gt => greater

theorem holds_iff_ofOrdering (op : Comparison) (o : Ordering) :
    op ∈ [less, equal, greater] ∧ op.holds (some o) = true ↔ op = ofOrdering o := by
  cases o <;> cases op <;> decide

/-- Of an order one of less, equal and greater is true. -/
theorem trichotomous_holds (o : Ordering) : Trichotomous (holds · (some o)) where
  exactly_one := ⟨ofOrdering o, (holds_iff_ofOrdering _ o).2 rfl,
    fun op => (holds_iff_ofOrdering op o).1⟩
  lessOrEqual_iff := by cases o <;> decide
  greaterOrEqual_iff := by cases o <;> decide
  notEqual_iff := by cases o <;> decide

/-- Without an order only inequality is true. -/
theorem holds_none_iff (op : Comparison) : op.holds none = true ↔ op = notEqual :=
  decide_eq_true_iff

/-- A comparison leaves its answer about the operand pushed later. -/
theorem leaves (op : Comparison) (earlier later : Timed) :
    (Operator.comparison op).Leaves [earlier, later]
      ⟨.ofBool (op.holds (later.value.compare earlier.value)), newest [earlier, later]⟩ :=
  (Operator.gives_iff rfl).2 rfl [earlier, later] rfl

/-- **Comparisons are mirror images.**  Each comparison says of two operands what its mirror image
says of them the other way round, at the same time.  Of less, equal and greater one is true, and the
other comparisons follow; but if the operands are compared as doubles and one is no number, only
inequality is true. -/
theorem mirrored (a b : Timed) :
    ∃ truth : Comparison → Bool,
      (∀ op, (Operator.comparison op).Leaves [a, b] ⟨.ofBool (truth op), newest [a, b]⟩ ∧
        (Operator.comparison op.mirror).Leaves [b, a] ⟨.ofBool (truth op), newest [a, b]⟩) ∧
      if Value.unordered a.value b.value then ∀ op, truth op = true ↔ op = notEqual
      else Trichotomous truth := by
  refine ⟨fun op => op.holds (b.value.compare a.value), fun op => ⟨op.leaves a b, ?_⟩, ?_⟩
  · have hmirror := op.mirror.leaves b a
    rwa [← Value.compare_swap, holds_mirror, newest_pair_comm] at hmirror
  · have hnone : b.value.compare a.value = none ↔ Value.unordered a.value b.value = true := by
      rw [← Value.compare_swap, Option.map_eq_none_iff, Value.compare_eq_none_iff]
    cases horder : b.value.compare a.value with
    | none =>
        rw [if_pos (hnone.1 horder)]
        exact holds_none_iff
    | some o =>
        have hordered : ¬ Value.unordered a.value b.value = true := by
          rw [← hnone, horder]
          nofun
        rw [if_neg hordered]
        exact trichotomous_holds o

end Comparison

end Telemetry
