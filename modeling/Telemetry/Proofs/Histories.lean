import Mathlib.Data.List.Infix
import Telemetry.Proofs.Linking

/-!
# Histories

All that a host can do with an expression from its first token on: append tokens, link, set
variables and evaluate, in any order and as often as it likes.  A history changes neither the
limits of the expression nor the position of a variable that is known already; it can only make
more names known (`names_prefix_acts`), and which ones depends on the tokens that are appended
alone (`names_acts_pushes`).  Aliases redirect references and nothing else
(`Link.applyAliases_eq_map`), and so a synchronized variable stays at its place for good
(`synch_stays`).
-/

namespace Telemetry

/-- What a host does with an expression from the first token on. -/
inductive Act where
  /-- Appends a token. -/
  | push (t : Token)
  /-- Appends a reference to the variable of a name. -/
  | refer (name : String)
  | link
  | call (c : Call)

/-- Whether an act appends a token. -/
def Act.isPush : Act → Bool
  | push _ | refer _ => true
  | link | call _ => false

namespace VariableTable

variable {t u : VariableTable} {name : String} {id : Nat}

/-- A name that is known keeps its table, and a new one is put behind the others. -/
theorem intern_eq (t : VariableTable) (name : String) :
    (t.position? name = some (t.intern name).1 ∧ (t.intern name).2 = t) ∨
      (t.position? name = none ∧ (t.intern name).1 = t.size ∧
        (t.intern name).2.entries = t.entries ++ [{ name := name }]) := by
  rw [intern]
  split
  · next id hid => exact Or.inl ⟨hid, rfl⟩
  · next hnone => exact Or.inr ⟨hnone, rfl, rfl⟩

theorem position?_lt (h : t.position? name = some id) : id < t.size :=
  (List.findIdx?_eq_some_iff_getElem.1 h).choose

/-- Both the position of a name and the names behind it depend on the names alone. -/
theorem intern_congr (h : t.names = u.names) (name : String) :
    (t.intern name).1 = (u.intern name).1 ∧ (t.intern name).2.names = (u.intern name).2.names := by
  have hposition := position?_congr h name
  have hsize : t.size = u.size := by rw [← length_names, h, length_names]
  rcases t.intern_eq name with ⟨ht, htable⟩ | ⟨ht, hid, hentries⟩ <;>
    rcases u.intern_eq name with ⟨hu, hutable⟩ | ⟨hu, huid, huentries⟩
  · exact ⟨Option.some.inj (ht.symm.trans (hposition.trans hu)), by rw [htable, hutable, h]⟩
  · exact nomatch ht.symm.trans (hposition.trans hu)
  · exact nomatch hu.symm.trans (hposition.symm.trans ht)
  · refine ⟨by rw [hid, huid, hsize], ?_⟩
    have hmap : t.entries.map Variable.name = u.entries.map Variable.name := h
    rw [names, names, hentries, huentries, List.map_append, List.map_append, hmap]

theorem names_prefix_intern (t : VariableTable) (name : String) :
    t.names <+: (t.intern name).2.names := by
  rcases t.intern_eq name with ⟨-, htable⟩ | ⟨-, -, hentries⟩
  · rw [htable]
  · rw [names, names, hentries, List.map_append]
    exact List.prefix_append _ _

/-- A table with more names knows a name where it was known, and below the old size no other. -/
theorem position?_of_more_names (h : t.names <+: u.names) (name : String) :
    t.position? name = (u.position? name).filter (· < t.size) := by
  obtain ⟨more, hmore⟩ := h
  rw [position?_eq_findIdx?, position?_eq_findIdx?, ← hmore, List.findIdx?_append]
  cases hfound : t.names.findIdx? (· == name) with
  | some id =>
      have hlt : id < t.size := position?_lt ((t.position?_eq_findIdx? name).trans hfound)
      simp [Option.filter_some, hlt]
  | none =>
      cases more.findIdx? (· == name) with
      | none => rfl
      | some id => simp [Option.filter_some]

end VariableTable

/-- A token that is a synchronized variable up to what it remembers is one. -/
theorem Token.synch_of_bare {t : Token} {s : Synch} (h : t.bare = (Token.synch s).bare) :
    ∃ s', t = .synch s' ∧ s'.source = s.source ∧ s'.resolution = s.resolution := by
  cases t with
  | synch s' =>
      simp only [Token.bare, Token.synch.injEq, Synch.mk.injEq] at h
      exact ⟨s', rfl, h.1, h.2.2.2.1⟩
  | _ => cases h

/-- References become references to what a function makes of their variables. -/
def Token.redirect (f : Nat → Nat) : Token → Token
  | .reference id => .reference (f id)
  | t => t

namespace Link

/-- What becomes of a variable when placeholders are replaced one after the other. -/
def resolve (pairs : List (Nat × Nat)) (id : Nat) : Nat :=
  pairs.foldl (fun id pair => if id = pair.1 then pair.2 else id) id

/-- Applying aliases redirects references. -/
theorem applyAliases_eq_map (pairs : List (Nat × Nat)) (tokens : List Token) :
    applyAliases pairs tokens = tokens.map (Token.redirect (resolve pairs)) := by
  induction pairs generalizing tokens with
  | nil =>
      have hid : ∀ t : Token, t.redirect (resolve []) = t := by
        intro t
        cases t <;> rfl
      rw [List.map_congr_left fun t _ => hid t, List.map_id']
      rfl
  | cons pair pairs ih =>
      show applyAliases pairs (tokens.map (rename pair)) = _
      rw [ih, List.map_map]
      refine List.map_congr_left fun t _ => ?_
      cases t <;> rfl

/-- Linking leaves a synchronized variable where it is and as it is. -/
theorem synch_stays_link {tokens : List Token} {i : Nat} {s : Synch}
    (h : tokens[i]? = some (.synch s)) (config : Configuration) (table : VariableTable) :
    (link config table tokens).tokens[i]? = some (.synch s) := by
  rw [link]
  split
  · exact h
  · next pairs _ =>
      have hrenamed : (applyAliases pairs tokens)[i]? = some (.synch s) := by
        rw [applyAliases_eq_map, List.getElem?_map, h]
        rfl
      dsimp only
      split
      · exact hrenamed
      · rw [List.getElem?_map, hrenamed]
        rfl

end Link

namespace Expression

/-- The expression after an act. -/
def act (e : Expression) : Act → Expression
  | .push t => e.push t
  | .refer name => e.pushVariable name
  | .link => e.link.1
  | .call c => e.call c

/-- The expression after acts, in order. -/
def acts (e : Expression) (as : List Act) : Expression := as.foldl act e

@[simp] theorem acts_cons (e : Expression) (a : Act) (as : List Act) :
    e.acts (a :: as) = (e.act a).acts as := rfl

theorem acts_append (e : Expression) (as bs : List Act) :
    e.acts (as ++ bs) = (e.acts as).acts bs := List.foldl_append ..

theorem acts_concat (e : Expression) (as : List Act) (a : Act) :
    e.acts (as ++ [a]) = (e.acts as).act a := acts_append e as [a]

/-- Linking leaves the variables and the limits as they are. -/
theorem link_frame (e : Expression) : e.link.1.table = e.table ∧ e.link.1.config = e.config := by
  rw [link]
  split
  · exact ⟨rfl, rfl⟩
  · dsimp only
    split <;> exact ⟨rfl, rfl⟩

/-- The tokens after linking. -/
theorem tokens_link (e : Expression) :
    e.link.1.tokens =
      if e.linked then e.tokens else (Link.link e.config e.table e.tokens).tokens := by
  rw [link]
  split
  · rfl
  · dsimp only
    split <;> rfl

/-- A pass links first, and if that fails it ends there. -/
theorem evaluate_of_refused {e : Expression} {fault : Fault} (h : e.link.2 = .error fault) :
    e.evaluate = (e.link.1, [], .error fault) := by
  obtain ⟨refused, outcome, hlink⟩ : ∃ refused outcome, e.link = (refused, outcome) := ⟨_, _, rfl⟩
  rw [hlink] at h
  cases h
  rw [evaluate, hlink]

/-- The expression after a pass: it is linked, and if that succeeds the tokens are walked. -/
theorem evaluate_fst (e : Expression) :
    e.evaluate.1 = e.link.1 ∨
      e.link.1.linked = true ∧ e.evaluate.1 = { e.link.1 with tokens := e.link.1.kept } := by
  cases h : e.link.2 with
  | error fault => exact Or.inl (by rw [evaluate_of_refused h])
  | ok u =>
      have hlinked := linked_link h
      exact Or.inr ⟨hlinked, by rw [evaluate_link h, evaluate_of_linked hlinked]⟩

/-- A call gives no variable another name and keeps the limits. -/
theorem call_frame (e : Expression) (c : Call) :
    (e.call c).table.names = e.table.names ∧ (e.call c).config = e.config := by
  cases c with
  | set name sample =>
      rw [call_set]
      cases e.table.position? name with
      | none => exact ⟨rfl, rfl⟩
      | some id => exact ⟨e.table.names_set id sample, rfl⟩
  | evaluate =>
      obtain ⟨htable, hconfig⟩ := e.link_frame
      rw [call]
      rcases e.evaluate_fst with h | ⟨-, h⟩
      · rw [h, htable]
        exact ⟨rfl, hconfig⟩
      · rw [h]
        exact ⟨congrArg VariableTable.names htable, hconfig⟩

/-- An act makes names known, and keeps the limits. -/
theorem act_frame (e : Expression) (a : Act) :
    e.table.names <+: (e.act a).table.names ∧ (e.act a).config = e.config := by
  cases a with
  | push t => exact ⟨List.prefix_refl _, rfl⟩
  | refer name => exact ⟨e.table.names_prefix_intern name, rfl⟩
  | link =>
      obtain ⟨htable, hconfig⟩ := e.link_frame
      exact ⟨by rw [act, htable], hconfig⟩
  | call c =>
      obtain ⟨hnames, hconfig⟩ := e.call_frame c
      exact ⟨by rw [act, hnames], hconfig⟩

/-- Tokens that are the same up to what they remember have synchronized variables at the same
places. -/
theorem synch_at_of_bare {ts us : List Token} (h : ts.map Token.bare = us.map Token.bare) {i : Nat}
    {s : Synch} (hs : us[i]? = some (.synch s)) :
    ∃ s', ts[i]? = some (.synch s') ∧ s'.source = s.source ∧ s'.resolution = s.resolution := by
  have hat : ts[i]?.map Token.bare = some (Token.synch s).bare := by
    rw [← List.getElem?_map, h, List.getElem?_map, hs]
    rfl
  obtain ⟨t, ht, hbare⟩ := Option.map_eq_some_iff.1 hat
  obtain ⟨s', rfl, hframe⟩ := Token.synch_of_bare hbare
  exact ⟨s', ht, hframe⟩

theorem exists_synch_of_bare {ts us : List Token} (h : ts.map Token.bare = us.map Token.bare)
    {s : Synch} (hs : s ∈ synchs us) :
    ∃ s' ∈ synchs ts, s'.source = s.source ∧ s'.resolution = s.resolution := by
  obtain ⟨i, hi⟩ := List.mem_iff_getElem?.1 (mem_synchs.1 hs)
  obtain ⟨s', hs', hframe⟩ := synch_at_of_bare h hi
  exact ⟨s', mem_synchs.2 (List.mem_of_getElem? hs'), hframe⟩

theorem synch_stays_expression_link {e : Expression} {i : Nat} {s : Synch}
    (h : e.tokens[i]? = some (.synch s)) : e.link.1.tokens[i]? = some (.synch s) := by
  rw [tokens_link]
  split
  · exact h
  · exact Link.synch_stays_link h _ _

/-- **A synchronized variable stays where it is**, whatever the host does. -/
theorem synch_stays {e : Expression} {i : Nat} {s : Synch} (h : e.tokens[i]? = some (.synch s))
    (a : Act) : ∃ s', (e.act a).tokens[i]? = some (.synch s') ∧ s'.source = s.source ∧
      s'.resolution = s.resolution := by
  have happended : ∀ t, (e.tokens ++ [t])[i]? = some (.synch s) := fun t => by
    rw [List.getElem?_append_left (List.getElem?_eq_some_iff.1 h).1, h]
  cases a with
  | push t => exact ⟨s, happended t, rfl, rfl⟩
  | refer name => exact ⟨s, happended _, rfl, rfl⟩
  | link => exact ⟨s, synch_stays_expression_link h, rfl, rfl⟩
  | call c =>
      cases c with
      | set name sample =>
          refine ⟨s, ?_, rfl, rfl⟩
          rw [act, call_set]
          exact h
      | evaluate =>
          have hlinked := synch_stays_expression_link h
          rw [act, call]
          rcases e.evaluate_fst with heq | ⟨-, heq⟩
          · exact ⟨s, by rw [heq, hlinked], rfl, rfl⟩
          · rw [heq]
            exact synch_at_of_bare e.link.1.map_bare_kept hlinked

theorem synch_stays_acts {e : Expression} {i : Nat} {s : Synch}
    (h : e.tokens[i]? = some (.synch s)) (as : List Act) :
    ∃ s', (e.acts as).tokens[i]? = some (.synch s') ∧ s'.source = s.source ∧
      s'.resolution = s.resolution := by
  induction as generalizing e s with
  | nil => exact ⟨s, h, rfl, rfl⟩
  | cons a as ih =>
      obtain ⟨s₁, h₁, hsource₁, hresolution₁⟩ := synch_stays h a
      obtain ⟨s₂, h₂, hsource₂, hresolution₂⟩ := ih h₁
      exact ⟨s₂, h₂, hsource₂.trans hsource₁, hresolution₂.trans hresolution₁⟩

theorem exists_synch_acts {e : Expression} {s : Synch} (hs : s ∈ synchs e.tokens) (as : List Act) :
    ∃ s' ∈ synchs (e.acts as).tokens, s'.source = s.source ∧ s'.resolution = s.resolution := by
  obtain ⟨i, hi⟩ := List.mem_iff_getElem?.1 (mem_synchs.1 hs)
  obtain ⟨s', hs', hframe⟩ := synch_stays_acts hi as
  exact ⟨s', mem_synchs.2 (List.mem_of_getElem? hs'), hframe⟩

theorem config_acts (e : Expression) (as : List Act) : (e.acts as).config = e.config := by
  induction as generalizing e with
  | nil => rfl
  | cons a as ih => rw [acts_cons, ih, (e.act_frame a).2]

/-- **A history only makes more names known.** -/
theorem names_prefix_acts (e : Expression) (as : List Act) :
    e.table.names <+: (e.acts as).table.names := by
  induction as generalizing e with
  | nil => exact List.prefix_refl _
  | cons a as ih => exact (e.act_frame a).1.trans (ih (e.act a))

/-- The names that are known after a history are those of the tokens appended in it. -/
theorem names_acts_pushes {e once : Expression} (h : e.table.names = once.table.names)
    (as : List Act) :
    (e.acts as).table.names = (once.acts (as.filter Act.isPush)).table.names := by
  induction as generalizing e once with
  | nil => exact h
  | cons a as ih =>
      cases a with
      | push t => exact @ih (e.push t) (once.push t) h
      | refer name =>
          exact @ih (e.pushVariable name) (once.pushVariable name)
            (VariableTable.intern_congr h name).2
      | link => exact ih ((congrArg VariableTable.names e.link_frame.1).trans h)
      | call c => exact ih ((e.call_frame c).1.trans h)

end Expression

end Telemetry
