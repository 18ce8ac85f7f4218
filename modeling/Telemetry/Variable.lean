import Telemetry.Value

/-!
# Variables

The named inputs of an expression. A table gives every name one position, in the
order in which the names were first met; the host sets a variable before a pass.
A variable that was never set reads as NaN, which statistics pass over.
-/

namespace Telemetry

/-- A named input. -/
structure Variable where
  name : String
  sample : Timed := .constant (.float (0.0 / 0.0))
  /-- Whether the host has set it. -/
  isSet : Bool := false

/-- The variables of an expression, no two of one name. -/
structure VariableTable where
  entries : List Variable
  nodup : (entries.map Variable.name).Nodup

namespace VariableTable

/-- A table without variables. -/
def empty : VariableTable := ⟨[], List.nodup_nil⟩

/-- The number of variables. -/
def size (t : VariableTable) : Nat := t.entries.length

/-- Whether there are no variables. -/
def isEmpty (t : VariableTable) : Bool := t.entries.isEmpty

/-- The names of the variables, in order. -/
def names (t : VariableTable) : List String := t.entries.map Variable.name

/-- The position of a name. -/
def position? (t : VariableTable) (name : String) : Option Nat :=
  t.entries.findIdx? (·.name == name)

/-- The variable at a position. -/
def get? (t : VariableTable) (id : Nat) : Option Variable := t.entries[id]?

/-- The position of a name, given to it if it has none, and the table after it. -/
def intern (t : VariableTable) (name : String) : Nat × VariableTable :=
  match h : t.position? name with
  | some id => (id, t)
  | none =>
    (t.size,
      ⟨t.entries ++ [{ name := name }], by
        have fresh : ∀ v ∈ t.entries, v.name ≠ name := by
          intro v hv
          have := List.findIdx?_eq_none_iff.1 h v hv
          simpa using this
        simp only [List.map_append, List.map_cons, List.map_nil]
        refine List.nodup_append.2 ⟨t.nodup, List.nodup_cons.2 ⟨List.not_mem_nil, List.nodup_nil⟩, ?_⟩
        intro a ha b hb
        obtain ⟨v, hv, rfl⟩ := List.mem_map.1 ha
        rw [List.mem_singleton.1 hb]
        exact fresh v hv⟩)

/-- The variables with a new sample at a position. -/
def assign (sample : Timed) : Nat → List Variable → List Variable
  | _, [] => []
  | 0, v :: vs => { v with sample := sample, isSet := true } :: vs
  | id + 1, v :: vs => v :: assign sample id vs

/-- A new sample changes no name. -/
theorem map_name_assign (sample : Timed) (id : Nat) (vs : List Variable) :
    (assign sample id vs).map Variable.name = vs.map Variable.name := by
  induction vs generalizing id with
  | nil => cases id <;> rfl
  | cons v vs ih =>
    cases id with
    | zero => rfl
    | succ id => simp only [assign, List.map_cons, ih]

/-- The table with a new sample for the variable at a position. -/
def set (t : VariableTable) (id : Nat) (sample : Timed) : VariableTable :=
  ⟨assign sample id t.entries, by rw [map_name_assign]; exact t.nodup⟩

/-- Setting a variable changes no name. -/
@[simp] theorem names_set (t : VariableTable) (id : Nat) (sample : Timed) :
    (t.set id sample).names = t.names := map_name_assign sample id t.entries

end VariableTable

end Telemetry
