import Mathlib.Data.List.Induction
import Telemetry.Function
import Telemetry.Proofs.DoubleOrder

/-!
# Runs of running calculations

A running calculation passes over the samples it cannot use.  An integral accepts a finite sample
some time after the last one it accepted (`Incremental.accepts`); `Incremental.accepted` collects
them along a run of calls, and `Incremental.calls_integrate` says that the state after the run is
the time of the last of them and their sum `Incremental.area`.  The step is `Incremental.update_eq`.
It uses that the seconds between two instants are a number (`secondsBetween_ne_nan`), so that the
time elapsed is positive unless it is zero or below.

Calls that leave the state as it is can be deleted from a run (`Idle.answers_retain`).  For an
integral these are the calls without an accepted sample, for a rate or a difference the ones without
a finite one: `Incremental.ignored_samples`.
-/

namespace Telemetry

open Number Float.Model

/-! ### Seconds -/

section Seconds

/-- A quotient by a number other than zero is a number. -/
theorem div_ne_nan {u : UnpackedFloat} (h : u ≠ .notANumber) (sign : UnpackedFloat.Sign) (q : Nat)
    (t : Int) (hq : 0 < q) :
    UnpackedFloat.div Format.binary64 u (.finite sign q t hq) ≠ .notANumber := by
  cases u with
  | notANumber => exact absurd rfl h
  | infinity sign' => exact UnpackedFloat.noConfusion
  | zero sign' => exact UnpackedFloat.noConfusion
  | finite sign' q' t' hq' =>
      rw [UnpackedFloat.div]
      dsimp only
      rw [UnpackedFloat.roundWithAccuracy]
      dsimp only
      split <;> exact UnpackedFloat.noConfusion

/-- **The seconds between two instants are a number.** -/
theorem secondsBetween_ne_nan (a b : Instant) :
    (secondsBetween a b).toModel.unpack ≠ .notANumber := by
  have ha := Word.toInt_bounds a
  have hb := Word.toInt_bounds b
  have hbillion : ∃ sign q t, ∃ hq : 0 < q,
      (1000000000.0 : Float).toModel.unpack = .finite sign q t hq := ⟨_, _, _, _, rfl⟩
  obtain ⟨sign, q, t, hq, hbillion⟩ := hbillion
  have hdifference := ofInt_ne_nan (x := b.toInt - a.toInt) (by omega)
  show (Float.Model.pack (UnpackedFloat.div Format.binary64 _
    (1000000000.0 : Float).toModel.unpack)).unpack ≠ _
  rw [hbillion]
  exact unpack_pack_ne_nan (div_ne_nan hdifference sign q t hq)

end Seconds

/-! ### Calls -/

namespace Incremental

/-- The calculation after a call; one that fails leaves it as it was, as the step of a token
does. -/
def call (i : Incremental) (operands : List Timed) : Incremental :=
  match i.apply operands with
  | .ok (_, next) => next
  | .error _ => i

/-- The calculation after calls, in order. -/
def calls (i : Incremental) (run : List (List Timed)) : Incremental := run.foldl call i

/-- What a call answers. -/
def answer (i : Incremental) (operands : List Timed) : Outcome Timed :=
  (i.apply operands).map Prod.fst

/-- What calls answer, one after the other. -/
def answers (i : Incremental) : List (List Timed) → List (Outcome Timed)
  | [] => []
  | operands :: run => i.answer operands :: (i.call operands).answers run

theorem calls_concat (i : Incremental) (run : List (List Timed)) (operands : List Timed) :
    i.calls (run ++ [operands]) = (i.calls run).call operands := List.foldl_concat ..

end Incremental

/-! ### Deleting calls -/

/-- What is left of a list when some of its entries are deleted. -/
def retain {α : Type} (xs : List α) (kept : List Bool) : List α :=
  ((xs.zip kept).filter Prod.snd).map Prod.fst

theorem retain_cons_true {α : Type} (x : α) (xs : List α) (kept : List Bool) :
    retain (x :: xs) (true :: kept) = x :: retain xs kept := rfl

theorem retain_cons_false {α : Type} (x : α) (xs : List α) (kept : List Bool) :
    retain (x :: xs) (false :: kept) = retain xs kept := rfl

/-- Every call that counts is kept. -/
def Keeps (counting kept : List Bool) : Prop :=
  List.Forall₂ (fun counts keep => counts = true → keep = true) counting kept

/-- The calls that are not kept change nothing when it is their turn. -/
inductive Idle : Incremental → List (List Timed) → List Bool → Prop
  | nil {i : Incremental} : Idle i [] []
  | keep {i : Incremental} {operands : List Timed} {run : List (List Timed)} {kept : List Bool}
      (h : Idle (i.call operands) run kept) : Idle i (operands :: run) (true :: kept)
  | drop {i : Incremental} {operands : List Timed} {run : List (List Timed)} {kept : List Bool}
      (hsame : i.call operands = i) (h : Idle i run kept) :
      Idle i (operands :: run) (false :: kept)

/-- **Calls that change nothing can be deleted**: the others answer as before. -/
theorem Idle.answers_retain {i : Incremental} {run : List (List Timed)} {kept : List Bool}
    (h : Idle i run kept) : i.answers (retain run kept) = retain (i.answers run) kept := by
  induction h with
  | nil => rfl
  | keep h ih =>
      rw [retain_cons_true, Incremental.answers, Incremental.answers, retain_cons_true, ih]
  | drop hsame h ih =>
      rw [retain_cons_false, Incremental.answers, retain_cons_false, hsame, ih]

/-! ### Integrals -/

namespace Incremental

/-- The sample and the factor that the operands of an integral are; none if a call with them
fails. -/
def weighted? : List Timed → Option (Sample × Float)
  | [value, control] =>
    match value.value.toFloat "Integrate", factor "Integrate" control.value with
    | .ok x, .ok f => some (⟨value.time, x⟩, f)
    | _, _ => none
  | _ => none

/-- A sample is accepted behind others if it is finite and some time after the last of them. -/
def accepts (before : List (Sample × Float)) (s : Sample) : Bool :=
  s.value.isFinite && before.getLast?.all fun last => 0.0 < secondsBetween last.1.time s.time

/-- The samples of a run that are accepted, each behind those accepted before, with their
factors. -/
def accepted (run : List (List Timed)) : List (Sample × Float) :=
  run.foldl (fun before operands =>
    match weighted? operands with
    | some x => if accepts before x.1 then before ++ [x] else before
    | none => before) []

/-- Which calls of a run bring an accepted sample, given the calls before the run. -/
def acceptances (earlier : List (List Timed)) : List (List Timed) → List Bool
  | [] => []
  | operands :: run =>
    (weighted? operands).any (fun x => accepts (accepted earlier) x.1) ::
      acceptances (earlier ++ [operands]) run

/-- The values times the seconds since the sample before and the factor, added up from left to
right. -/
def area (xs : List (Sample × Float)) : Float :=
  (List.zipWith (fun before x => x.1.value * secondsBetween before.1.time x.1.time * x.2) xs
    xs.tail).foldl (· + ·) 0.0

section Integrals

variable {xs : List (Sample × Float)} {s : Sample} {f : Float} {run : List (List Timed)}
  {operands : List Timed}

theorem accepted_concat (h : weighted? operands = some (s, f)) :
    accepted (run ++ [operands]) =
      if accepts (accepted run) s then accepted run ++ [(s, f)] else accepted run := by
  rw [accepted, List.foldl_concat, h]
  rfl

theorem accepted_concat_of_none (h : weighted? operands = none) :
    accepted (run ++ [operands]) = accepted run := by
  rw [accepted, List.foldl_concat, h]
  rfl

/-- Each sample but the first adds its product to the sum. -/
theorem area_concat {last : Sample × Float} (h : xs.getLast? = some last) (x : Sample × Float) :
    area (xs ++ [x]) =
      area xs + x.1.value * secondsBetween last.1.time x.1.time * x.2 := by
  obtain ⟨front, rfl⟩ := List.getLast?_eq_some_iff.1 h
  let product := fun before x : Sample × Float =>
    x.1.value * secondsBetween before.1.time x.1.time * x.2
  have htail : (front ++ [last] ++ [x]).tail = (front ++ [last]).tail ++ [x] :=
    List.tail_append_of_ne_nil (List.append_ne_nil_of_right_ne_nil front (List.cons_ne_nil _ _))
  have hlength : front.length = (front ++ [last]).tail.length := by
    rw [List.length_tail, List.length_append]
    rfl
  have hbefore : List.zipWith product (front ++ [last]) (front ++ [last]).tail =
      List.zipWith product front (front ++ [last]).tail := by
    have hsplit : List.zipWith product (front ++ [last]) ((front ++ [last]).tail ++ []) =
        List.zipWith product front (front ++ [last]).tail ++ List.zipWith product [last] [] :=
      List.zipWith_append hlength
    rwa [List.append_nil, List.zipWith_nil_right, List.append_nil] at hsplit
  have hafter : List.zipWith product (front ++ [last] ++ [x]) (front ++ [last] ++ [x]).tail =
      List.zipWith product (front ++ [last]) (front ++ [last]).tail ++ [product last x] := by
    rw [htail, hbefore, List.append_assoc, List.zipWith_append hlength]
    rfl
  show (List.zipWith product _ _).foldl _ _ = _
  rw [hafter, List.foldl_concat]
  rfl

/-- **One sample.**  A sample that is accepted is added to the sum and becomes the last; one that is
not is passed over. -/
theorem update_eq (xs : List (Sample × Float)) (s : Sample) (f : Float) :
    let now : Integral := ⟨xs.getLast?.map (·.1.time), area xs⟩
    now.update s f =
      if accepts xs s then (area (xs ++ [(s, f)]), ⟨some s.time, area (xs ++ [(s, f)])⟩)
      else (area xs, now) := by
  intro now
  rw [Integral.update, accepts]
  cases hfinite : s.value.isFinite with
  | false => rfl
  | true =>
      cases hlast : xs.getLast? with
      | none =>
          obtain rfl := List.getLast?_eq_none_iff.1 hlast
          rfl
      | some last =>
          have helapsed := not_le_zero_iff (secondsBetween_ne_nan last.1.time s.time)
          have hnow : now.last = some last.1.time := by
            show xs.getLast?.map _ = _
            rw [hlast]
            rfl
          rw [hnow]
          show (if secondsBetween last.1.time s.time ≤ 0.0 then _ else _ : Float × Integral) =
            if decide (0.0 < secondsBetween last.1.time s.time) = true then _ else _
          simp only [decide_eq_true_iff, ← helapsed, ite_not]
          rw [area_concat hlast]

/-- A call whose operands are a number and a finite factor updates the integral. -/
theorem apply_of_weighted (h : weighted? operands = some (s, f)) (state : Integral) :
    (integrate state).apply operands =
      .ok (⟨.float (state.update s f).1, newest operands⟩, integrate (state.update s f).2) := by
  rw [weighted?.eq_def] at h
  split at h
  · next value control =>
      split at h
      · next x weight hvalue hweight =>
          cases h
          show (value.value.toFloat "Integrate" >>= _) = _
          rw [hvalue]
          show (factor "Integrate" control.value >>= _) = _
          rw [hweight]
          rfl
      · cases h
  · cases h

/-- A call with other operands fails. -/
theorem apply_of_not_weighted (h : weighted? operands = none) (state : Integral) :
    ∃ fault, (integrate state).apply operands = .error fault := by
  rw [weighted?.eq_def] at h
  split at h
  · next value control =>
      cases hvalue : value.value.toFloat "Integrate" with
      | error fault =>
          refine ⟨fault, ?_⟩
          show (value.value.toFloat "Integrate" >>= _) = _
          rw [hvalue]
          rfl
      | ok x =>
          cases hweight : factor "Integrate" control.value with
          | error fault =>
              refine ⟨fault, ?_⟩
              show (value.value.toFloat "Integrate" >>= _) = _
              rw [hvalue]
              show (factor "Integrate" control.value >>= _) = _
              rw [hweight]
              rfl
          | ok weight =>
              rw [hvalue, hweight] at h
              cases h
  · next hother =>
      refine ⟨.stackUnderflow "Integrate" 2 operands.length, ?_⟩
      rw [apply.eq_def]
      split
      · next hpair => exact absurd rfl (hother _ _)
      · next h => cases h
      · next h => cases h
      · rfl

/-- A call with other operands leaves the integral as it was. -/
theorem call_of_not_weighted (h : weighted? operands = none) (state : Integral) :
    (integrate state).call operands = integrate state := by
  obtain ⟨fault, hfault⟩ := apply_of_not_weighted h state
  rw [call, hfault]

/-- **A run.**  After any calls the integral goes up to the last accepted sample and is the sum over
the accepted ones. -/
theorem calls_integrate (run : List (List Timed)) :
    (integrate {}).calls run =
      integrate ⟨(accepted run).getLast?.map (·.1.time), area (accepted run)⟩ := by
  induction run using List.reverseRecOn with
  | nil => rfl
  | append_singleton run operands ih =>
      rw [calls_concat, ih]
      cases hoperands : weighted? operands with
      | none => rw [call_of_not_weighted hoperands, accepted_concat_of_none hoperands]
      | some x =>
          obtain ⟨s, f⟩ := x
          rw [call, apply_of_weighted hoperands, accepted_concat hoperands, update_eq]
          by_cases haccepted : accepts (accepted run) s = true
          · rw [if_pos haccepted, if_pos haccepted, List.getLast?_concat]
            rfl
          · rw [if_neg haccepted, if_neg haccepted]

/-- **One call of a run** answers with the sum over what is accepted then; a sample that is not
accepted changes nothing. -/
theorem call_integrate (run : List (List Timed)) (h : weighted? operands = some (s, f)) :
    ((integrate {}).calls run).answer operands =
        .ok ⟨.float (area (accepted (run ++ [operands]))), newest operands⟩ ∧
      (accepts (accepted run) s = false →
        ((integrate {}).calls run).call operands = (integrate {}).calls run) := by
  rw [calls_integrate, answer, call, apply_of_weighted h, accepted_concat h, update_eq]
  constructor
  · by_cases haccepted : accepts (accepted run) s = true
    · rw [if_pos haccepted, if_pos haccepted]
      rfl
    · rw [if_neg haccepted, if_neg haccepted]
      rfl
  · intro hrefused
    rw [if_neg (ne_true_of_eq_false hrefused)]

/-- The calls of a run that bring no accepted sample change nothing. -/
theorem idle_integrate (earlier run : List (List Timed)) {kept : List Bool}
    (h : Keeps (acceptances earlier run) kept) :
    Idle ((integrate {}).calls earlier) run kept := by
  induction run generalizing earlier kept with
  | nil =>
      cases h
      exact .nil
  | cons operands run ih =>
      obtain ⟨keep, kept, hkeep, hrest, rfl⟩ := List.forall₂_cons_left_iff.1 h
      -- which samples count behind this call depends on it, also where it is deleted
      have hafter := ih (earlier ++ [operands]) hrest
      rw [calls_concat] at hafter
      cases keep with
      | true => exact .keep hafter
      | false =>
          have hsame : ((integrate {}).calls earlier).call operands =
              (integrate {}).calls earlier := by
            cases hoperands : weighted? operands with
            | none => rw [calls_integrate, call_of_not_weighted hoperands]
            | some x =>
                rw [hoperands] at hkeep
                exact (call_integrate earlier hoperands).2
                  (Bool.eq_false_iff.2 fun haccepted => nomatch hkeep haccepted)
          rw [hsame] at hafter
          exact .drop hsame hafter

end Integrals

/-! ### Rates and differences -/

/-- Whether operands are one finite number. -/
def isFinite (function : String) : List Timed → Bool
  | [value] => (value.value.toFloat function).toOption.any Float.isFinite
  | _ => false

/-- The calculations that take one sample: rates and differences. -/
def isStepwise : Incremental → Bool
  | integrate _ => false
  | rateOfChange _ | delta _ => true

section Stepwise

variable {i : Incremental} {operands : List Timed}

/-- What a call of a rate or a difference can do: nothing, or its update with a number. -/
theorem call_cases (hi : i.isStepwise = true) (operands : List Timed) :
    i.call operands = i ∨
      ∃ value x, operands = [value] ∧ value.value.toFloat i.name = .ok x ∧
        ((∃ r, i = rateOfChange r ∧
            i.call operands = rateOfChange (r.update ⟨value.time, x⟩).2) ∨
          ∃ d, i = delta d ∧ i.call operands = delta (d.update x).2) := by
  match i, operands with
  | rateOfChange r, [value] =>
      cases hvalue : value.value.toFloat (rateOfChange r).name with
      | error fault =>
          left
          rw [call, apply, hvalue]
          rfl
      | ok x =>
          refine .inr ⟨value, x, rfl, hvalue, .inl ⟨r, rfl, ?_⟩⟩
          rw [call, apply, hvalue]
          rfl
  | delta d, [value] =>
      cases hvalue : value.value.toFloat (delta d).name with
      | error fault =>
          left
          rw [call, apply, hvalue]
          rfl
      | ok x =>
          refine .inr ⟨value, x, rfl, hvalue, .inr ⟨d, rfl, ?_⟩⟩
          rw [call, apply, hvalue]
          rfl
  | rateOfChange _, [] | rateOfChange _, _ :: _ :: _ | delta _, [] | delta _, _ :: _ :: _ =>
      exact .inl rfl

/-- A call leaves a rate a rate and a difference a difference. -/
theorem name_call (hi : i.isStepwise = true) (operands : List Timed) :
    (i.call operands).name = i.name ∧ (i.call operands).isStepwise = true := by
  obtain hsame | ⟨value, x, -, -, ⟨r, rfl, hcall⟩ | ⟨d, rfl, hcall⟩⟩ := call_cases hi operands
  · rw [hsame]
    exact ⟨rfl, hi⟩
  · rw [hcall]
    exact ⟨rfl, rfl⟩
  · rw [hcall]
    exact ⟨rfl, rfl⟩

/-- A rate and a difference change with a finite sample only. -/
theorem call_of_not_finite (hi : i.isStepwise = true) (h : isFinite i.name operands = false) :
    i.call operands = i := by
  obtain hsame | ⟨value, x, rfl, hvalue, hcall⟩ := call_cases hi operands
  · exact hsame
  · rw [isFinite, hvalue] at h
    have hx : x.isFinite = false := h
    obtain ⟨r, rfl, hcall⟩ | ⟨d, rfl, hcall⟩ := hcall
    · rw [hcall, Rate.update, hx]
      rfl
    · rw [hcall, Difference.update, hx]
      rfl

/-- The calls of a run whose samples are not finite change nothing. -/
theorem idle_stepwise (hi : i.isStepwise = true) {run : List (List Timed)} {kept : List Bool}
    (h : Keeps (run.map (isFinite i.name)) kept) : Idle i run kept := by
  induction run generalizing i kept with
  | nil =>
      cases h
      exact .nil
  | cons operands run ih =>
      obtain ⟨keep, kept, hkeep, hrest, rfl⟩ := List.forall₂_cons_left_iff.1 h
      cases keep with
      | true =>
          obtain ⟨hname, hstepwise⟩ := name_call hi operands
          exact .keep (ih hstepwise (hname ▸ hrest))
      | false =>
          have hsame : i.call operands = i :=
            call_of_not_finite hi (Bool.eq_false_iff.2 fun hfinite => nomatch hkeep hfinite)
          exact .drop hsame (ih hi hrest)

end Stepwise

/-- **Samples that are ignored.**  In a run of an integral each call answers with the sum over the
samples accepted so far, which go on with its own if that is accepted; if not, the sum is the one
before and the call changes nothing.  The other calls answer as before when calls without an
accepted sample are deleted from a run of an integral, and calls without a finite one from a run of
a rate or a difference. -/
theorem ignored_samples :
    (∀ run operands s f, weighted? operands = some (s, f) →
      let now := (integrate {}).calls run
      now.answer operands =
          .ok ⟨.float (area (accepted (run ++ [operands]))), newest operands⟩ ∧
        if accepts (accepted run) s then
          accepted (run ++ [operands]) = accepted run ++ [(s, f)]
        else
          now.answer operands = .ok ⟨.float (area (accepted run)), newest operands⟩ ∧
            now.call operands = now) ∧
    (∀ run kept, Keeps (acceptances [] run) kept →
      (integrate {}).answers (retain run kept) = retain ((integrate {}).answers run) kept) ∧
    ∀ i : Incremental, i.isStepwise = true → ∀ run kept,
      Keeps (run.map (isFinite i.name)) kept →
      i.answers (retain run kept) = retain (i.answers run) kept := by
  refine ⟨?_, ?_, ?_⟩
  · intro run operands s f hoperands now
    obtain ⟨hanswer, hsame⟩ := call_integrate run hoperands
    refine ⟨hanswer, ?_⟩
    by_cases haccepted : accepts (accepted run) s = true
    · rw [if_pos haccepted, accepted_concat hoperands, if_pos haccepted]
    · have hrefused := Bool.eq_false_iff.2 haccepted
      rw [if_neg haccepted]
      refine ⟨?_, hsame hrefused⟩
      rw [hanswer, accepted_concat hoperands, if_neg haccepted]
  · intro run kept h
    exact (idle_integrate [] run h).answers_retain
  · intro i hi run kept h
    exact (idle_stepwise hi h).answers_retain

/-- A sample some seconds after 1970 with the factor one. -/
def sampled (x : Float) (seconds : Nat) : List Timed :=
  [⟨.float x, Int64.ofNat (seconds * 1000000000)⟩, ⟨.float 1.0, 0⟩]

/-- A late sample, one that is not a number and one that comes twice are passed over, and an
infinite value in a difference. -/
theorem ignored_samples_of_late :
    let run :=
      [sampled 5.0 0, sampled 2.0 10, sampled 9.0 4, sampled (0.0 / 0.0) 12, sampled 3.0 11]
    let timely := [sampled 5.0 0, sampled 2.0 10, sampled 3.0 11]
    let values := [[⟨.float 5.0, 0⟩], [⟨.float (1.0 / 0.0), 0⟩], [⟨.float 3.0, 0⟩]]
    let now := (integrate {}).calls run
    now.call (sampled 7.0 11) = now ∧
      (integrate {}).answers timely =
        retain ((integrate {}).answers run) [true, true, false, false, true] ∧
      (delta {}).answers [[⟨.float 5.0, 0⟩], [⟨.float 3.0, 0⟩]] =
        retain ((delta {}).answers values) [true, false, true] := by
  intro run timely values now
  obtain ⟨hcall, hintegral, hstepwise⟩ := ignored_samples
  have hacceptances : acceptances [] run = [true, true, false, false, true] := by decide +kernel
  have hrepeated :
      weighted? (sampled 7.0 11) = some (⟨Int64.ofNat (11 * 1000000000), 7.0⟩, 1.0) := rfl
  have hrefused : accepts (accepted run) ⟨Int64.ofNat (11 * 1000000000), 7.0⟩ = false := by
    decide +kernel
  refine ⟨?_, hintegral run [true, true, false, false, true] ?_,
    hstepwise (delta {}) rfl values [true, false, true] ?_⟩
  · have hafter := (hcall run (sampled 7.0 11) _ _ hrepeated).2
    rw [hrefused] at hafter
    exact hafter.2
  · rw [hacceptances]
    exact List.forall₂_same.2 fun _ _ h => h
  · exact .cons (fun _ => rfl) (.cons (fun h => absurd h (by decide +kernel))
      (.cons (fun _ => rfl) .nil))

end Incremental

end Telemetry
