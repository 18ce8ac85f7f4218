import Mathlib.Data.List.Forall2
import Telemetry.Proofs.Compilation
import Telemetry.Proofs.Histories

/-!
# Written expressions

The expressions that are read from items of source text, or written by hand out of constants,
variables and functions, in every state that calls leave (`Expression.Written`).  Their constants
belong to no instant.  Linking leaves constants and functions where they are and as they are
(`Link.getElem?_link`) and refuses an alias without a text in front of it.  So an alias of a linked
expression has its label right in front of it (`Expression.Written.proper`).
-/

namespace Telemetry

namespace Token

/-- Whether a token is an operand. -/
def isOperand : Token → Bool
  | function _ => false
  | _ => true

@[simp] theorem isOperand_bare (t : Token) : t.bare.isOperand = t.isOperand := by
  cases t <;> rfl

/-- Constants and functions: what linking does not replace. -/
def isFixed : Token → Bool
  | constant _ | function _ => true
  | reference _ | synch _ => false

end Token

namespace Link

variable {tokens us : List Token} {t u : Token} {i : Nat}

theorem redirect_eq_iff (f : Nat → Nat) (ht : t.isFixed = true) : u.redirect f = t ↔ u = t := by
  cases u with
  | reference id =>
      constructor <;>
      · rintro rfl
        cases ht
  | _ => exact Iff.rfl

theorem wrap_eq_iff (config : Configuration) (ids : List Nat) (ht : t.isFixed = true) :
    wrap config ids u = t ↔ u = t := by
  cases u with
  | reference id =>
      rw [wrap]
      constructor
      · split <;>
        · rintro rfl
          cases ht
      · rintro rfl
        cases ht
  | _ => exact Iff.rfl

theorem getElem?_map_iff {f : Token → Token} (hf : ∀ u, f u = t ↔ u = t) :
    (tokens.map f)[i]? = some t ↔ tokens[i]? = some t := by
  rw [List.getElem?_map]
  cases tokens[i]? with
  | none => exact Iff.rfl
  | some u => rw [Option.map_some, Option.some_inj, Option.some_inj, hf]

theorem getElem?_applyAliases (ht : t.isFixed = true) (pairs : List (Nat × Nat)) :
    (applyAliases pairs tokens)[i]? = some t ↔ tokens[i]? = some t := by
  rw [applyAliases_eq_map]
  exact getElem?_map_iff fun u => redirect_eq_iff _ ht

/-- **Linking leaves constants and functions where they are**, and makes none. -/
theorem getElem?_link (ht : t.isFixed = true) (config : Configuration) (table : VariableTable) :
    (link config table tokens).tokens[i]? = some t ↔ tokens[i]? = some t := by
  rw [link]
  split
  · exact Iff.rfl
  · next pairs _ =>
      dsimp only
      split
      · exact getElem?_applyAliases ht pairs
      · exact (getElem?_map_iff fun u => wrap_eq_iff config _ ht).trans
          (getElem?_applyAliases ht pairs)

/-- An alias that is accepted has a variable and a text in front of it. -/
theorem of_aliasAt_ok {table : VariableTable} {found : Option (Nat × Nat)}
    (h : aliasAt table tokens i = .ok found) :
    ∃ target name time, before? tokens i 2 = some (.reference target) ∧
      before? tokens i 1 = some (.constant ⟨.text name, time⟩) ∧
      found = (table.position? name).bind fun placeholder =>
        if placeholder = target then none else some (placeholder, target) := by
  rw [aliasAt] at h
  dsimp only at h
  split at h
  · next target name time htarget hname =>
      exact ⟨target, name, time, htarget, hname, (Except.ok.inj h).symm⟩
  all_goals cases h

/-- Every alias has a constant right in front of it. -/
def Labelled (tokens : List Token) : Prop :=
  ∀ i, tokens[i]? = some (.function .secondName) → ∃ x, before? tokens i 1 = some (.constant x)

/-- Aliases that are collected are labelled. -/
theorem labelled_of_aliases_ok {table : VariableTable} {pairs : List (Nat × Nat)}
    (h : aliases table tokens = .ok pairs) : Labelled tokens := by
  obtain ⟨found, hfound, -⟩ := bind_eq_ok h
  intro i hi
  have hlt : i < tokens.length := (List.getElem?_eq_some_iff.1 hi).1
  obtain ⟨y, hy⟩ := ok_of_mapM_ok hfound (List.mem_range.2 hlt)
  rw [hi] at hy
  obtain ⟨-, name, time, -, hname, -⟩ := of_aliasAt_ok hy
  exact ⟨_, hname⟩

theorem before?_congr {back : Nat} (h : ∀ j : Nat, tokens[j]? = some t → us[j]? = some t)
    (ht : before? tokens i back = some t) : before? us i back = some t := by
  rw [before?] at ht ⊢
  split at ht
  · next hle => rw [if_pos hle, h _ ht]
  · cases ht

/-- **A linked sequence has its aliases labelled.** -/
theorem labelled_link {config : Configuration} {table : VariableTable} {last : Option Nat}
    (h : (link config table tokens).outcome = .ok last) :
    Labelled (link config table tokens).tokens := by
  obtain ⟨pairs, hpairs⟩ : ∃ pairs, aliases table tokens = .ok pairs := by
    rw [link] at h
    split at h
    · cases h
    · next pairs hpairs => exact ⟨pairs, hpairs⟩
  intro i hi
  obtain ⟨x, hx⟩ := labelled_of_aliases_ok hpairs i ((getElem?_link rfl config table).1 hi)
  exact ⟨x, before?_congr (fun j => (getElem?_link rfl config table).2) hx⟩

theorem getElem?_of_bare (h : tokens.map Token.bare = us.map Token.bare)
    (ht : ∀ u : Token, u.bare = t.bare → u = t) (hi : us[i]? = some t) : tokens[i]? = some t := by
  have hat : tokens[i]?.map Token.bare = some t.bare := by
    rw [← List.getElem?_map, h, List.getElem?_map, hi]
    rfl
  obtain ⟨u, hu, hbare⟩ := Option.map_eq_some_iff.1 hat
  rw [hu, ht u hbare]

/-- What tokens remember is nothing to their labels. -/
theorem Labelled.of_bare (h : Labelled us) (hbare : tokens.map Token.bare = us.map Token.bare) :
    Labelled tokens := by
  intro i hi
  obtain ⟨x, hx⟩ := h i (getElem?_of_bare hbare.symm (fun _ => Token.eq_of_bare rfl) hi)
  exact ⟨x, before?_congr (fun j => getElem?_of_bare hbare fun _ => Token.eq_of_bare rfl) hx⟩

end Link

namespace Expression

/-- An expression that is read from items or begun without tokens, and is then given constants,
variables and functions, linked, set and evaluated in any order. -/
inductive Written : Expression → Prop where
  | new (config : Configuration) : Written { config := config }
  | parsed {config : Configuration} {items : List (List Char)} {e : Expression}
      (h : ofItems config items = .ok e) : Written e
  | pushConstant {e : Expression} (h : Written e) (v : Value) : Written (e.pushConstant v)
  | pushVariable {e : Expression} (h : Written e) (name : String) : Written (e.pushVariable name)
  | pushFunction {e next : Expression} (h : Written e) {name : String}
      (hnext : e.pushFunction name = .ok next) : Written next
  | link {e : Expression} (h : Written e) : Written e.link.1
  | call {e : Expression} (h : Written e) (c : Call) : Written (e.call c)

/-- Constants belong to no instant, and when the expression is linked aliases are labelled. -/
structure Proper (e : Expression) : Prop where
  constants : ∀ x, Token.constant x ∈ e.tokens → x.time = constantTime
  labels : e.linked = true → Link.Labelled e.tokens

variable {e : Expression}

theorem proper_new (config : Configuration) : ({ config := config } : Expression).Proper :=
  ⟨nofun, nofun⟩

theorem Proper.append (h : e.Proper) (table : VariableTable) (t : Token)
    (ht : ∀ x, t = .constant x → x.time = constantTime) :
    ({ e with table := table, tokens := e.tokens ++ [t], linked := false } : Expression).Proper := by
  refine ⟨fun x hx => ?_, nofun⟩
  rcases List.mem_append.1 hx with hold | hnew
  · exact h.constants x hold
  · exact ht x (List.mem_singleton.1 hnew).symm

theorem Proper.pushConstant (h : e.Proper) (v : Value) : (e.pushConstant v).Proper :=
  h.append e.table (.constant (.constant v)) fun _ heq => Token.constant.inj heq ▸ rfl

theorem Proper.pushVariable (h : e.Proper) (name : String) : (e.pushVariable name).Proper :=
  h.append _ (.reference _) nofun

theorem Proper.pushCall (h : e.Proper) (f : Function) : (e.push (.function f)).Proper :=
  h.append e.table (.function f) fun x heq => by cases heq

theorem Proper.pushFunction (h : e.Proper) {next : Expression} {name : String}
    (hnext : e.pushFunction name = .ok next) : next.Proper := by
  rw [Expression.pushFunction] at hnext
  split at hnext
  · cases hnext
    exact h.pushCall _
  · cases hnext

theorem Proper.pushItem (h : e.Proper) {next : Expression} {item : List Char}
    (hnext : e.pushItem item = .ok next) : next.Proper := by
  rw [Expression.pushItem] at hnext
  split at hnext
  · cases hnext
  · cases hnext
    exact h.pushConstant _
  · dsimp only at hnext
    split at hnext
    · cases hnext
      exact h.pushCall _
    · split at hnext
      · cases hnext
        exact h.pushVariable _
      · cases hnext

/-- Linking keeps the constants. -/
theorem constant_mem_link {x : Timed} (h : Token.constant x ∈ e.link.1.tokens) :
    Token.constant x ∈ e.tokens := by
  rw [tokens_link] at h
  split at h
  · exact h
  · obtain ⟨i, hi⟩ := List.mem_iff_getElem?.1 h
    exact List.mem_of_getElem? ((Link.getElem?_link rfl _ _).1 hi)

theorem Proper.link (h : e.Proper) : e.link.1.Proper := by
  refine ⟨fun x hx => h.constants x (constant_mem_link hx), fun hlinked => ?_⟩
  by_cases hold : e.linked = true
  · rw [Expression.link, if_pos hold]
    exact h.labels hold
  · rw [Expression.link, if_neg hold] at hlinked ⊢
    dsimp only at hlinked ⊢
    split at hlinked
    · next last hlast => exact Link.labelled_link hlast
    · exact absurd hlinked hold

theorem Proper.call (h : e.Proper) (c : Call) : (e.call c).Proper := by
  cases c with
  | set name sample =>
      rw [call_set]
      exact ⟨h.constants, h.labels⟩
  | evaluate =>
      rw [Expression.call]
      rcases e.evaluate_fst with heq | ⟨hlinked, heq⟩
      · rw [heq]
        exact h.link
      · rw [heq]
        refine ⟨fun x hx => ?_, fun _ => (h.link.labels hlinked).of_bare e.link.1.map_bare_kept⟩
        obtain ⟨i, hi⟩ := List.mem_iff_getElem?.1 hx
        exact h.link.constants x (List.mem_of_getElem? (Link.getElem?_of_bare
          e.link.1.map_bare_kept.symm (fun _ => Token.eq_of_bare rfl) hi))

/-- **Every state of a written expression is proper.** -/
theorem Written.proper (h : e.Written) : e.Proper := by
  induction h with
  | new config => exact proper_new config
  | @parsed config items e h =>
      obtain ⟨start, hstart, h⟩ := bind_eq_ok h
      obtain ⟨draft, hdraft, h⟩ := bind_eq_ok h
      obtain ⟨⟨⟩, -, rfl⟩ := map_eq_ok h
      obtain ⟨⟨⟩, -, rfl⟩ := map_eq_ok hstart
      have hdone : draft.Proper :=
        foldlM_keeps (P := Proper) (fun e item next he hnext => he.pushItem hnext)
          (proper_new config) hdraft
      exact hdone.link
  | pushConstant h v ih => exact ih.pushConstant v
  | pushVariable h name ih => exact ih.pushVariable name
  | pushFunction h hnext ih => exact ih.pushFunction hnext
  | link h ih => exact ih.link
  | call h c ih => exact ih.call c

end Expression

end Telemetry
