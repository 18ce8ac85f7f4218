import Mathlib.Data.List.Basic
import Telemetry.Function

/-!
# What a call can fail with

An operator, a windowed statistic, a running calculation or a directive that is given
as many operands as it declares fails in one way only: an operand is of a kind or value
that it cannot use.  `MismatchOnly` is that judgment on answers.  It holds of the views of
values, goes through binds and choices, and so reaches every rule of every family; the main
statement is `Function.call_mismatchOnly`.
-/

namespace Telemetry

/-- Whether a fault says that an operand does not fit. -/
def Fault.IsMismatch (fault : Fault) : Prop :=
  ∃ function expected found, fault = .typeMismatch function expected found

/-- An answer that fails, if at all, because an operand does not fit. -/
def MismatchOnly (x : Outcome α) : Prop :=
  ∀ fault, x = .error fault → fault.IsMismatch

@[simp] theorem mismatchOnly_ok (a : α) : MismatchOnly (.ok a : Outcome α) := by
  intro fault h
  exact nomatch h

@[simp] theorem mismatchOnly_pure (a : α) : MismatchOnly (pure a : Outcome α) :=
  mismatchOnly_ok a

@[simp] theorem mismatchOnly_mismatch (function expected found : String) :
    MismatchOnly (.error (.typeMismatch function expected found) : Outcome α) := by
  intro fault h
  cases h
  exact ⟨function, expected, found, rfl⟩

@[simp] theorem mismatchOnly_throw (function expected found : String) :
    MismatchOnly (throw (.typeMismatch function expected found) : Outcome α) :=
  mismatchOnly_mismatch function expected found

theorem mismatchOnly_bind {x : Outcome α} {f : α → Outcome β} (hx : MismatchOnly x)
    (hf : ∀ a, MismatchOnly (f a)) : MismatchOnly (x >>= f) := by
  cases x with
  | error fault =>
      intro other h
      exact hx other (congrArg Except.error (Except.error.inj h))
  | ok a => exact hf a

@[simp] theorem mismatchOnly_map {x : Outcome α} {f : α → β} (hx : MismatchOnly x) :
    MismatchOnly (x.map f) := by
  cases x with
  | error fault =>
      intro other h
      exact hx other (congrArg Except.error (Except.error.inj h))
  | ok a => exact mismatchOnly_ok (f a)

/-! ### Views of values -/

@[simp] theorem mismatchOnly_toFloat (function : String) (v : Value) :
    MismatchOnly (v.toFloat function) := by
  cases v <;> simp [Value.toFloat]

@[simp] theorem mismatchOnly_toWord (function : String) (v : Value) :
    MismatchOnly (v.toWord function) := by
  cases v with
  | float x =>
      rw [Value.toWord]
      split <;> simp
  | _ => simp [Value.toWord]

@[simp] theorem mismatchOnly_toInstant (function : String) (v : Value) :
    MismatchOnly (v.toInstant function) := by
  cases v <;> simp [Value.toInstant]

@[simp] theorem mismatchOnly_toBool (function : String) (v : Value) :
    MismatchOnly (v.toBool function) := by
  cases v <;> simp [Value.toBool]

@[simp] theorem mismatchOnly_asText (function expected : String) (v : Value) :
    MismatchOnly (v.asText function expected) := by
  cases v <;> simp [Value.asText]

/-! ### Rules -/

/-- A rule whose computation fails only by mismatch. -/
def Rule.Mismatching : Rule → Prop
  | .one f => ∀ a, MismatchOnly (f a)
  | .two f => ∀ a b, MismatchOnly (f a b)
  | .three f => ∀ a b c, MismatchOnly (f a b c)
  | .ofTime _ => True

/-- On as many operands as it takes, such a rule fails only by mismatch. -/
theorem Rule.apply_mismatchOnly {rule : Rule} (h : rule.Mismatching) (function : String)
    {operands : List Timed} (hn : operands.length = rule.takes) :
    MismatchOnly (rule.apply function operands) := by
  cases rule with
  | one f =>
      obtain ⟨a, rfl⟩ := List.length_eq_one_iff.1 hn
      exact mismatchOnly_map (h a.value)
  | two f =>
      obtain ⟨a, b, rfl⟩ := List.length_eq_two.1 hn
      exact mismatchOnly_map (h a.value b.value)
  | three f =>
      obtain ⟨a, b, c, rfl⟩ := List.length_eq_three.1 hn
      exact mismatchOnly_map (h a.value b.value c.value)
  | ofTime f =>
      obtain ⟨a, rfl⟩ := List.length_eq_one_iff.1 hn
      exact mismatchOnly_ok _

namespace Arithmetic

@[simp] theorem mismatchOnly_difference (function : String) (a b : Value) :
    MismatchOnly (difference function a b) := by
  rw [difference]
  split <;> simp

@[simp] theorem mismatchOnly_product (function : String) (a b : Value) :
    MismatchOnly (product function a b) := by
  rw [product]
  split <;> simp

@[simp] theorem mismatchOnly_quotient (function : String) (a b : Value) :
    MismatchOnly (quotient function a b) := by
  refine mismatchOnly_bind (mismatchOnly_toFloat _ _) fun x => ?_
  refine mismatchOnly_bind (mismatchOnly_toFloat _ _) fun y => ?_
  split <;> simp

@[simp] theorem mismatchOnly_whole (function : String) (f : Int64 → Int64 → Int64) (a b : Value) :
    MismatchOnly (whole function f a b) := by
  refine mismatchOnly_bind (mismatchOnly_toWord _ _) fun n => ?_
  refine mismatchOnly_bind (mismatchOnly_toWord _ _) fun d => ?_
  split <;> simp

@[simp] theorem mismatchOnly_onFloats (function : String) (f : Float → Float → Float)
    (a b : Value) : MismatchOnly (onFloats function f a b) := by
  refine mismatchOnly_bind (mismatchOnly_toFloat _ _) fun x => ?_
  exact mismatchOnly_bind (mismatchOnly_toFloat _ _) fun y => mismatchOnly_pure _

@[simp] theorem mismatchOnly_onNumber (function : String) (f : Float → Value) (g : Int64 → Int64)
    (a : Value) : MismatchOnly (onNumber function f g a) := by
  cases a <;> simp [onNumber]

@[simp] theorem mismatchOnly_rounded (function : String) (f : Float → Float) (a : Value) :
    MismatchOnly (rounded function f a) := by
  cases a <;> simp [rounded]

@[simp] theorem mismatchOnly_roundPlaces (function : String) (a places : Value) :
    MismatchOnly (roundPlaces function a places) := by
  refine mismatchOnly_bind (mismatchOnly_toWord _ _) fun n => ?_
  cases a with
  | int i =>
      show MismatchOnly (if 0 ≤ n then pure (Value.int i) else _)
      split <;> simp
  | _ => exact mismatchOnly_bind (mismatchOnly_toFloat _ _) fun x => mismatchOnly_pure _

@[simp] theorem mismatchOnly_clamped (function : String) (a low high : Value) :
    MismatchOnly (clamped function a low high) := by
  refine mismatchOnly_bind (mismatchOnly_toFloat _ _) fun lo => ?_
  refine mismatchOnly_bind (mismatchOnly_toFloat _ _) fun hi => ?_
  split
  · exact mismatchOnly_bind (mismatchOnly_throw _ _ _) fun _ =>
      mismatchOnly_bind (mismatchOnly_toFloat _ _) fun x => mismatchOnly_pure _
  · exact mismatchOnly_bind (mismatchOnly_toFloat _ _) fun x => mismatchOnly_pure _

@[simp] theorem mismatchOnly_extreme (function : String) (f : Float → Float → Float)
    (g : Int64 → Int64 → Bool) (a b : Value) : MismatchOnly (extreme function f g a b) := by
  rw [extreme]
  split <;> simp

theorem rule_mismatching (op : Arithmetic) : op.rule.Mismatching := by
  cases op <;> simp [rule, Rule.Mismatching]

end Arithmetic

namespace Comparison

theorem rule_mismatching (op : Comparison) : op.rule.Mismatching := by
  intro earlier later
  exact mismatchOnly_ok _

end Comparison

namespace Bitwise

@[simp] theorem mismatchOnly_onWords (function : String) (f : Int64 → Int64 → Int64)
    (a b : Value) : MismatchOnly (onWords function f a b) := by
  refine mismatchOnly_bind (mismatchOnly_toWord _ _) fun i => ?_
  exact mismatchOnly_bind (mismatchOnly_toWord _ _) fun j => mismatchOnly_pure _

theorem rule_mismatching (op : Bitwise) : op.rule.Mismatching := by
  cases op <;> simp [rule, Rule.Mismatching]

end Bitwise

namespace Analysis

theorem rule_mismatching (op : Analysis) : op.rule.Mismatching := by
  cases op <;> simp [rule, onFloat, Rule.Mismatching]

end Analysis

namespace Textual

theorem rule_mismatching (op : Textual) : op.rule.Mismatching := by
  cases op with
  | middle =>
      intro a start length
      refine mismatchOnly_bind (mismatchOnly_toWord _ _) fun i => ?_
      exact mismatchOnly_bind (mismatchOnly_toWord _ _) fun n => mismatchOnly_pure _
  | _ => simp [rule, Rule.Mismatching]

end Textual

namespace Conversion

@[simp] theorem mismatchOnly_readFloat (function s : String) :
    MismatchOnly (readFloat function s) := by
  rw [readFloat]
  split <;> simp

@[simp] theorem mismatchOnly_integer (function : String) (v : Value) :
    MismatchOnly (integer function v) := by
  cases v with
  | text s =>
      refine mismatchOnly_bind (mismatchOnly_readFloat _ _) fun x => ?_
      split <;> simp
  | _ => simp [integer]

@[simp] theorem mismatchOnly_double (function : String) (v : Value) :
    MismatchOnly (double function v) := by
  cases v <;> simp [double]

@[simp] theorem mismatchOnly_date (function : String) (v : Value) :
    MismatchOnly (date function v) := by
  cases v with
  | text s =>
      rw [date]
      split <;> simp
  | _ => simp [date]

theorem rule_mismatching (op : Conversion) : op.rule.Mismatching := by
  cases op with
  | leadingNumber =>
      intro a
      cases a <;> exact mismatchOnly_ok _
  | _ => simp [rule, Rule.Mismatching]

end Conversion

namespace Dating

@[simp] theorem mismatchOnly_interval (function : String) (code : Value) :
    MismatchOnly (interval function code) := by
  refine mismatchOnly_bind (mismatchOnly_asText _ _ _) fun s => ?_
  split <;> simp

@[simp] theorem mismatchOnly_inRange (function expected found : String) (t : Option Instant) :
    MismatchOnly (inRange function expected found t) := by
  cases t <;> simp [inRange]

theorem serial_mismatching (function expected found : String)
    (f : Int64 → Int64 → Int64 → Option Instant) :
    (serial function expected found f).Mismatching := by
  intro a b c
  refine mismatchOnly_bind (mismatchOnly_toWord _ _) fun i => ?_
  refine mismatchOnly_bind (mismatchOnly_toWord _ _) fun j => ?_
  exact mismatchOnly_bind (mismatchOnly_toWord _ _) fun k => mismatchOnly_inRange _ _ _ _

theorem spanOf_mismatching (function : String) (unit : Int64) :
    (spanOf function unit).Mismatching := by
  intro count
  refine mismatchOnly_bind (mismatchOnly_toFloat _ _) fun x => ?_
  split <;> simp

theorem rule_mismatching (op : Dating) : op.rule.Mismatching := by
  cases op with
  | part component =>
      intro d
      exact mismatchOnly_map (mismatchOnly_toInstant _ _)
  | add =>
      intro code n d
      refine mismatchOnly_bind (mismatchOnly_interval _ _) fun i => ?_
      refine mismatchOnly_bind (mismatchOnly_toWord _ _) fun n => ?_
      exact mismatchOnly_bind (mismatchOnly_toInstant _ _) fun t => mismatchOnly_inRange _ _ _ _
  | between =>
      intro code a b
      refine mismatchOnly_bind (mismatchOnly_interval _ _) fun i => ?_
      refine mismatchOnly_bind (mismatchOnly_toInstant _ _) fun a => ?_
      exact mismatchOnly_bind (mismatchOnly_toInstant _ _) fun b => mismatchOnly_pure _
  | serialDate => exact serial_mismatching _ _ _ _
  | serialTime => exact serial_mismatching _ _ _ _
  | format =>
      intro d pattern
      refine mismatchOnly_bind (mismatchOnly_asText _ _ _) fun p => ?_
      refine mismatchOnly_bind (mismatchOnly_toInstant _ _) fun t => ?_
      split <;> simp
  | timeStamp => trivial
  | seconds => exact spanOf_mismatching _ _
  | minutes => exact spanOf_mismatching _ _
  | hours => exact spanOf_mismatching _ _
  | days => exact spanOf_mismatching _ _

end Dating

/-- The rule of every operator fails only by mismatch. -/
theorem Operator.rule_mismatching (op : Operator) : op.rule.Mismatching := by
  cases op with
  | arithmetic op => exact Arithmetic.rule_mismatching op
  | comparison op => exact Comparison.rule_mismatching op
  | bitwise op => exact Bitwise.rule_mismatching op
  | analysis op => exact Analysis.rule_mismatching op
  | textual op => exact Textual.rule_mismatching op
  | conversion op => exact Conversion.rule_mismatching op
  | dating op => exact Dating.rule_mismatching op

/-! ### Functions that remember, and directives -/

@[simp] theorem mismatchOnly_periodOfMode (function : String) (code : Int64) :
    MismatchOnly (periodOfMode function code) := by
  rw [periodOfMode]
  repeat' split
  all_goals simp

/-- The control operand of a windowed statistic fails only by mismatch. -/
theorem Aggregate.retain_mismatchOnly (a : Aggregate) (s : Sample) (control : Value) :
    MismatchOnly (a.retain s control) := by
  rw [Aggregate.retain]
  split
  · exact mismatchOnly_bind (mismatchOnly_toWord _ _) fun n => mismatchOnly_pure _
  · exact mismatchOnly_bind (mismatchOnly_toWord _ _) fun n => mismatchOnly_pure _
  · refine mismatchOnly_bind (mismatchOnly_toWord _ _) fun code => ?_
    exact mismatchOnly_bind (mismatchOnly_periodOfMode _ _) fun unit => mismatchOnly_pure _
  · exact mismatchOnly_bind (mismatchOnly_toBool _ _) fun flag => mismatchOnly_pure _

theorem Aggregate.apply_mismatchOnly (a : Aggregate) (value control : Timed) :
    MismatchOnly (a.apply value control) := by
  refine mismatchOnly_bind (mismatchOnly_toFloat _ _) fun x => ?_
  exact mismatchOnly_bind (a.retain_mismatchOnly _ _) fun h => mismatchOnly_pure _

namespace Incremental

@[simp] theorem mismatchOnly_factor (function : String) (v : Value) :
    MismatchOnly (factor function v) := by
  refine mismatchOnly_bind (mismatchOnly_toFloat _ _) fun x => ?_
  split <;> simp

theorem apply_mismatchOnly (i : Incremental) {operands : List Timed}
    (hn : operands.length = i.takes) : MismatchOnly (i.apply operands) := by
  cases i with
  | integrate state =>
      obtain ⟨value, control, rfl⟩ := List.length_eq_two.1 hn
      refine mismatchOnly_bind (mismatchOnly_toFloat _ _) fun x => ?_
      exact mismatchOnly_bind (mismatchOnly_factor _ _) fun f => mismatchOnly_pure _
  | rateOfChange state =>
      obtain ⟨value, rfl⟩ := List.length_eq_one_iff.1 hn
      exact mismatchOnly_bind (mismatchOnly_toFloat _ _) fun x => mismatchOnly_pure _
  | delta state =>
      obtain ⟨value, rfl⟩ := List.length_eq_one_iff.1 hn
      exact mismatchOnly_bind (mismatchOnly_toFloat _ _) fun x => mismatchOnly_pure _

end Incremental

namespace Directive

@[simp] theorem mismatchOnly_integral (function : String) (v : Value) :
    MismatchOnly (integral function v) := by
  cases v with
  | float x =>
      rw [integral]
      split <;> simp
  | _ => simp [integral]

/-- A directive on as many operands as it takes fails only by mismatch. -/
theorem apply_mismatchOnly (d : Directive) {operands : List Timed}
    (hn : operands.length = d.form.takes) : MismatchOnly (d.form.apply d.name operands) := by
  cases d with
  | startAtRecord =>
      obtain ⟨record, year, rfl⟩ := List.length_eq_two.1 hn
      refine mismatchOnly_bind (mismatchOnly_integral _ _) fun i => ?_
      exact mismatchOnly_bind (mismatchOnly_integral _ _) fun j => mismatchOnly_pure _
  | startAtTime =>
      obtain ⟨⟨v, time⟩, rfl⟩ := List.length_eq_one_iff.1 hn
      cases v <;> simp [form, Form.apply]
  | startAtNewest | startAfterNewest =>
      obtain rfl := List.length_eq_zero_iff.1 hn
      exact mismatchOnly_ok _
  | startRelativeToNewest | startAtOffsetFromNewest | orderOption | reportOffset =>
      obtain ⟨a, rfl⟩ := List.length_eq_one_iff.1 hn
      exact mismatchOnly_map (mismatchOnly_integral _ _)

end Directive

/-- **A call on as many operands as the function declares fails only by mismatch.** -/
theorem Function.call_mismatchOnly (f : Function) {operands : List Timed}
    (hn : operands.length = f.inputs) : MismatchOnly (f.call operands) := by
  rw [f.inputs_eq_takes] at hn
  cases f with
  | operator op => exact mismatchOnly_map (Rule.apply_mismatchOnly op.rule_mismatching _ hn)
  | aggregate a =>
      obtain ⟨value, control, rfl⟩ := List.length_eq_two.1 hn
      exact mismatchOnly_map (a.apply_mismatchOnly _ _)
  | incremental i => exact mismatchOnly_map (i.apply_mismatchOnly hn)
  | secondName =>
      obtain ⟨operand, label, rfl⟩ := List.length_eq_two.1 hn
      rw [Function.call]
      split <;> simp
  | valueSynch =>
      obtain ⟨operand, rfl⟩ := List.length_eq_one_iff.1 hn
      exact mismatchOnly_ok _
  | directive d => exact mismatchOnly_map (d.apply_mismatchOnly hn)

end Telemetry
