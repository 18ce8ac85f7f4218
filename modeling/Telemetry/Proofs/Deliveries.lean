import Mathlib.Data.List.Basic
import Telemetry.Proofs.Buffers
import Telemetry.Proofs.Session

/-!
# Deliveries

A host that evaluates after every single sample that it delivers (`deliveries`), the samples of
each variable among the deliveries to all of them (`VariableTable.received`), and the number of
samples that every synchronized variable has received (`Expression.completed`), which one more
delivery raises by one or not at all.
-/

namespace Telemetry

/-- A sample for the variable of a name. -/
structure Delivery where
  name : String
  sample : Timed

/-- The calls of a host that evaluates after every delivery. -/
def deliveries (ds : List Delivery) : List Call :=
  ds.flatMap fun d => [.set d.name d.sample, .evaluate]

theorem deliveries_concat (ds : List Delivery) (d : Delivery) :
    deliveries (ds ++ [d]) = deliveries ds ++ [.set d.name d.sample, .evaluate] := by
  rw [deliveries, deliveries, List.flatMap_append, List.flatMap_singleton]

namespace VariableTable

variable {t : VariableTable} {id other : Nat} {ds : List Delivery} {d : Delivery}

/-- The samples for the variable at a position, in the order of their delivery. -/
def received (t : VariableTable) (id : Nat) (ds : List Delivery) : List Timed :=
  (ds.filter fun d => t.position? d.name = some id).map Delivery.sample

theorem received_concat_of_eq (h : t.position? d.name = some id) :
    t.received id (ds ++ [d]) = t.received id ds ++ [d.sample] := by
  simp [received, h]

theorem received_concat_of_ne (h : t.position? d.name ≠ some id) :
    t.received id (ds ++ [d]) = t.received id ds := by
  simp [received, h]

/-- A delivery brings a variable one sample more, or none. -/
theorem received_concat (t : VariableTable) (id : Nat) (ds : List Delivery) (d : Delivery) :
    t.received id (ds ++ [d]) = t.received id ds ∨
      ∃ x, t.received id (ds ++ [d]) = t.received id ds ++ [x] := by
  by_cases h : t.position? d.name = some id
  · exact Or.inr ⟨d.sample, received_concat_of_eq h⟩
  · exact Or.inl (received_concat_of_ne h)

theorem length_received_concat (t : VariableTable) (id : Nat) (ds : List Delivery) (d : Delivery) :
    (t.received id (ds ++ [d])).length = (t.received id ds).length ∨
      (t.received id (ds ++ [d])).length = (t.received id ds).length + 1 := by
  rcases t.received_concat id ds d with h | ⟨x, h⟩
  · exact Or.inl (congrArg List.length h)
  · exact Or.inr (by rw [h, List.length_append, List.length_singleton])

theorem received_prefix {sent : List Delivery} (h : sent <+: ds) :
    t.received id sent <+: t.received id ds := (h.filter _).map _

/-- The variable at a position has the last of samples, or is not set if there is none. -/
def Holds (t : VariableTable) (id : Nat) (xs : List Timed) : Prop :=
  ∃ v, t.get? id = some v ∧ xs.getLast? = if v.isSet then some v.sample else none

theorem Holds.set_same {xs : List Timed} (h : t.Holds id xs) (x : Timed) :
    (t.set id x).Holds id (xs ++ [x]) := by
  obtain ⟨v, hv, -⟩ := h
  refine ⟨{ v with sample := x, isSet := true }, ?_, ?_⟩
  · rw [get?_set, if_pos rfl, hv]
    rfl
  · rw [List.getLast?_concat, if_pos rfl]

theorem Holds.set_other {xs : List Timed} (h : t.Holds id xs) (hne : id ≠ other) (x : Timed) :
    (t.set other x).Holds id xs := by
  obtain ⟨v, hv, hlast⟩ := h
  exact ⟨v, by rw [get?_set, if_neg hne, hv], hlast⟩

end VariableTable

namespace Expression

/-- The positions of the synchronized variables. -/
def sources (e : Expression) : List Nat := (synchs e.tokens).map Synch.source

/-- The number of samples that every synchronized variable has received. -/
def completed (e : Expression) (ds : List Delivery) : Nat :=
  ((e.sources.map fun id => (e.table.received id ds).length).min?).getD 0

/-- The expression after a delivery and right before the pass that follows it. -/
def deliver (e : Expression) (d : Delivery) : Expression := e.call (.set d.name d.sample)

/-- The expression right before the pass that follows the last of deliveries. -/
def delivered (e : Expression) (earlier : List Delivery) (d : Delivery) : Expression :=
  (e.calls (deliveries earlier)).deliver d

/-- The keys that the passes after deliveries report, in order. -/
def reportedKeys (e : Expression) : List Delivery → List Int64
  | [] => []
  | d :: ds =>
    (e.deliver d).reportedKey?.toList ++ ((e.deliver d).call .evaluate).reportedKeys ds

theorem calls_deliveries_concat (e : Expression) (ds : List Delivery) (d : Delivery) :
    e.calls (deliveries (ds ++ [d])) = (e.delivered ds d).call .evaluate := by
  rw [deliveries_concat, calls_append]
  rfl

theorem reportedKeys_concat (e : Expression) (ds : List Delivery) (d : Delivery) :
    e.reportedKeys (ds ++ [d]) = e.reportedKeys ds ++ (e.delivered ds d).reportedKey?.toList := by
  induction ds generalizing e with
  | nil => exact List.append_nil _
  | cons first ds ih =>
      rw [List.cons_append, reportedKeys, reportedKeys, ih, List.append_assoc]
      rfl

theorem Continues.deliver {start e : Expression} (h : start.Continues e) (d : Delivery) :
    start.Continues (e.deliver d) := h.call (.set d.name d.sample)

/-- A delivery leaves every variable holding the last of its samples. -/
theorem holds_deliver {start e : Expression} (hnames : e.table.names = start.table.names)
    {id : Nat} {sent : List Delivery} (h : e.table.Holds id (start.table.received id sent))
    (d : Delivery) :
    (e.deliver d).table.Holds id (start.table.received id (sent ++ [d])) := by
  rw [deliver, call_set, VariableTable.position?_congr hnames]
  cases hposition : start.table.position? d.name with
  | none =>
      rw [VariableTable.received_concat_of_ne (by rw [hposition]; exact nofun)]
      exact h
  | some other =>
      by_cases hsame : id = other
      · subst hsame
        rw [VariableTable.received_concat_of_eq hposition]
        exact h.set_same d.sample
      · have hne : start.table.position? d.name ≠ some id := by
          rw [hposition]
          exact fun heq => hsame (Option.some.inj heq).symm
        rw [VariableTable.received_concat_of_ne hne]
        exact h.set_other hsame d.sample

variable {e : Expression}

theorem mem_sources {s : Synch} (hs : s ∈ synchs e.tokens) : s.source ∈ e.sources :=
  List.mem_map_of_mem hs

/-- Every synchronized variable has received the samples that all have received. -/
theorem completed_le {id : Nat} (hid : id ∈ e.sources) (ds : List Delivery) :
    e.completed ds ≤ (e.table.received id ds).length := by
  rw [completed]
  cases hmin : (e.sources.map fun id => (e.table.received id ds).length).min? with
  | none => exact Nat.zero_le _
  | some n => exact (List.min?_eq_some_iff.1 hmin).2 _ (List.mem_map_of_mem hid)

/-- The slowest synchronized variable has received no more. -/
theorem completed_attained (h : e.sources ≠ []) (ds : List Delivery) :
    ∃ id ∈ e.sources, (e.table.received id ds).length = e.completed ds := by
  rw [completed]
  cases hmin : (e.sources.map fun id => (e.table.received id ds).length).min? with
  | none => exact absurd (List.map_eq_nil_iff.1 (List.min?_eq_none_iff.1 hmin)) h
  | some n => exact List.mem_map.1 (List.min?_eq_some_iff.1 hmin).1

/-- A delivery is the last that was missing to all having one sample more, or it is not. -/
theorem completed_concat (h : e.sources ≠ []) (ds : List Delivery) (d : Delivery) :
    e.completed (ds ++ [d]) = e.completed ds ∨ e.completed (ds ++ [d]) = e.completed ds + 1 := by
  obtain ⟨slow, hslow, hbefore⟩ := completed_attained h ds
  obtain ⟨slow', hslow', hafter⟩ := completed_attained h (ds ++ [d])
  have hle := completed_le hslow (ds ++ [d])
  have hle' := completed_le hslow' ds
  rcases e.table.length_received_concat slow ds d with hr | hr <;>
    rcases e.table.length_received_concat slow' ds d with hr' | hr' <;> omega

end Expression

end Telemetry
