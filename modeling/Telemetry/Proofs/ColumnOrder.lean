import Mathlib
import Telemetry.Proofs.MalformedRow
import Telemetry.Proofs.Session

/-!
# The order of columns

A row is read by the names of its columns.  Its cells under their names (`Table.labelled`) say at
which instant which variables are set (`reading`), and this is all that the row does to an
expression (`Table.turn_eq`).  Samples of different variables may be set in any order
(`Expression.calls_sets_perm`), and a reading in which at most one cell is malformed depends on
the cells under their names and not on their order (`reading_perm`).  So a table and the same
table with its columns in another order are replayed alike (`replay_arranged`).
-/

namespace Telemetry

/-! ### Samples of different variables -/

namespace VariableTable

theorem eq_of_entries {t u : VariableTable} (h : t.entries = u.entries) : t = u := by
  cases t
  cases u
  cases h
  rfl

/-- New samples at two positions may come in either order. -/
theorem set_comm (t : VariableTable) {id other : Nat} (hne : id ≠ other) (x y : Timed) :
    (t.set id x).set other y = (t.set other y).set id x := by
  refine eq_of_entries (List.ext_getElem? fun i => ?_)
  show (assign y other (assign x id t.entries))[i]? = (assign x id (assign y other t.entries))[i]?
  simp only [getElem?_assign]
  by_cases hid : i = id
  · rw [if_pos hid, if_neg (hid ▸ hne), if_pos hid, if_neg (hid ▸ hne)]
  · rw [if_neg hid, if_neg hid]

theorem name_of_position? {t : VariableTable} {name : String} {id : Nat}
    (h : t.position? name = some id) : ∃ v, t.entries[id]? = some v ∧ v.name = name := by
  obtain ⟨hlt, hname, -⟩ := List.findIdx?_eq_some_iff_getElem.1 h
  exact ⟨_, List.getElem?_eq_getElem hlt, beq_iff_eq.1 hname⟩

/-- Different names have different positions. -/
theorem position?_ne {t : VariableTable} {name name' : String} {id id' : Nat}
    (h : t.position? name = some id) (h' : t.position? name' = some id') (hne : name ≠ name') :
    id ≠ id' := by
  rintro rfl
  obtain ⟨v, hv, hname⟩ := name_of_position? h
  obtain ⟨v', hv', hname'⟩ := name_of_position? h'
  cases hv.symm.trans hv'
  exact hne (hname.symm.trans hname')

end VariableTable

namespace Expression

/-- Samples of two variables may be set in either order. -/
theorem call_set_comm (e : Expression) {name name' : String} (hne : name ≠ name') (x y : Timed) :
    (e.call (.set name x)).call (.set name' y) = (e.call (.set name' y)).call (.set name x) := by
  have hposition : ∀ (id : Nat) (z : Timed) (n : String),
      (e.table.set id z).position? n = e.table.position? n :=
    fun id z n => VariableTable.position?_congr (VariableTable.names_set _ _ _) n
  simp only [call_set]
  cases h : e.table.position? name with
  | none =>
      cases h' : e.table.position? name' with
      | none => simp only [Option.elim_none, h, h']
      | some id' => simp only [Option.elim_none, Option.elim_some, hposition, h, h']
  | some id =>
      cases h' : e.table.position? name' with
      | none => simp only [Option.elim_none, Option.elim_some, hposition, h, h']
      | some id' =>
          simp only [Option.elim_some, hposition, h, h']
          rw [VariableTable.set_comm _ (VariableTable.position?_ne h h' hne)]

/-- **Samples of different variables may be set in any order.** -/
theorem calls_sets_perm (e : Expression) {samples samples' : List (String × Timed)}
    (h : samples.Perm samples') (hnames : (samples.map Prod.fst).Nodup) :
    e.calls (samples.map fun s => .set s.1 s.2) = e.calls (samples'.map fun s => .set s.1 s.2) := by
  rw [calls, calls, List.foldl_map, List.foldl_map]
  refine h.foldl_eq' (fun s hs s' hs' e => ?_) e
  by_cases hsame : s.1 = s'.1
  · rw [List.inj_on_of_nodup_map hnames hs hs' hsame]
  · exact (e.call_set_comm hsame _ _)

end Expression

/-! ### Lists in another order -/

/-- The items at the positions of `order`, in that order. -/
def arrange (order : List Nat) (xs : List α) : List α := order.filterMap (xs[·]?)

theorem arrange_map (order : List Nat) (f : α → β) (xs : List α) :
    arrange order (xs.map f) = (arrange order xs).map f := by
  rw [arrange, arrange, List.map_filterMap]
  exact congrArg (List.filterMap · order) (funext fun i => List.getElem?_map)

theorem arrange_zip (order : List Nat) {xs : List α} {ys : List β} (h : xs.length = ys.length) :
    (arrange order xs).zip (arrange order ys) = arrange order (xs.zip ys) := by
  induction order with
  | nil => rfl
  | cons i order ih =>
      simp only [arrange, List.filterMap_cons] at ih ⊢
      rcases Nat.lt_or_ge i xs.length with hlt | hge
      · have hlt' : i < ys.length := h ▸ hlt
        have hzip : i < (xs.zip ys).length := by
          rw [List.length_zip]
          omega
        rw [List.getElem?_eq_getElem hlt, List.getElem?_eq_getElem hlt',
          List.getElem?_eq_getElem hzip, List.getElem_zip]
        exact congrArg _ ih
      · have hzip : (xs.zip ys).length ≤ i := by
          rw [List.length_zip]
          omega
        rw [List.getElem?_eq_none hge, List.getElem?_eq_none (h ▸ hge),
          List.getElem?_eq_none hzip]
        exact ih

theorem arrange_range (xs : List α) : arrange (List.range xs.length) xs = xs := by
  induction xs with
  | nil => rfl
  | cons x xs ih =>
      rw [arrange, List.length_cons, List.range_succ_eq_map, List.filterMap_cons,
        List.filterMap_map]
      exact congrArg (x :: ·) ih

/-- Items in the order of all positions are the same items. -/
theorem arrange_perm {order : List Nat} {xs : List α} (h : order.Perm (List.range xs.length)) :
    (arrange order xs).Perm xs := by
  have hsame := h.filterMap (xs[·]?)
  rwa [← arrange, ← arrange, arrange_range] at hsame

namespace Replay

/-! ### Rows by the names of their columns -/

/-- Whether a cell has the form of a literal and not a value. -/
def isMalformed (cs : List Char) : Bool := !(cell cs).isOk

/-- The number of malformed cells under other names than that of the time. -/
def countMalformed (timeName : List Char) (cells : List (List Char × List Char)) : Nat :=
  cells.countP fun c => c.1 != timeName && isMalformed c.2

/-- Whether a cell under a name says the value of a variable: it is neither the time nor
empty. -/
def saysValue (timeName : List Char) (c : List Char × List Char) : Bool :=
  c.1 != timeName && !c.2.isEmpty

/-- The value that a cell says, under the name of the cell. -/
def namedValue (c : List Char × List Char) : Outcome (List Char × Value) :=
  (cell c.2).map fun v => (c.1, v)

/-- The samples that cells under names say. -/
def reading (timeName : List Char) (cells : List (List Char × List Char)) :
    Except RecordFault (List (String × Timed)) := do
  let time ← (cells.lookup timeName).elim (.error .noTime) .ok
  let instant ← (time? time).elim (.error (.unknownTime time)) .ok
  let values ← ((cells.filter (saysValue timeName)).mapM namedValue).mapError .refused
  return values.map fun v => (String.ofList v.1, ⟨v.2, instant⟩)

/-- The turn of a row that says samples, or of one that is no record. -/
def Turn.ofReading (e : Expression) : Except RecordFault (List (String × Timed)) → Turn
  | .error fault => { verdict := .ofFault fault, expression := e }
  | .ok samples =>
    let e := e.calls (samples.map fun s => .set s.1 s.2)
    ⟨.ofOutcome e.evaluate.2.2, e.evaluate.1, e.evaluate.2.1⟩

namespace Table

/-- The cells of a row under the names of their columns. -/
def labelled (t : Table) (row : Csv.Row) : List (List Char × List Char) :=
  t.columns.zip (row.fields.map Text.trim)

/-- A cell with its column, and the same value under the name of the column. -/
def Named (t : Table) (c : Nat × Value) (v : List Char × Value) : Prop :=
  c.1 ≠ t.timeIndex ∧ t.columns[c.1]? = some v.1 ∧ c.2 = v.2

section Labels

variable {t : Table} {timeName : List Char}

/-- Cells are read alike by their columns and by the names of these. -/
theorem cells_labelled (hcolumns : t.columns.Nodup)
    (htime : t.columns[t.timeIndex]? = some timeName) {index : Nat}
    {names fields : List (List Char)}
    (hnames : t.columns.drop index = names) (hlength : names.length = fields.length) :
    (∃ cells values, t.cells index fields = .ok cells ∧
        ((names.zip fields).filter (saysValue timeName)).mapM namedValue = .ok values ∧
        List.Forall₂ t.Named cells values) ∨
      ∃ fault, t.cells index fields = .error fault ∧
        ((names.zip fields).filter (saysValue timeName)).mapM namedValue = .error fault := by
  induction fields generalizing index names with
  | nil =>
      rw [List.zip_nil_right]
      exact Or.inl ⟨[], [], rfl, rfl, .nil⟩
  | cons cs fields ih =>
      obtain ⟨name, names, rfl⟩ := List.exists_cons_of_length_eq_add_one hlength
      have hname : t.columns[index]? = some name := by
        rw [← List.head?_drop, hnames]
        rfl
      have hnext : t.columns.drop (index + 1) = names := by
        rw [← List.tail_drop, hnames]
        rfl
      have hsaid : saysValue timeName (name, cs) = true ↔
          ¬ (index = t.timeIndex ∨ cs.isEmpty = true) := by
        have hindex : name = timeName ↔ index = t.timeIndex := by
          constructor
          · intro heq
            have hlt : index < t.columns.length := (List.getElem?_eq_some_iff.1 hname).1
            exact (List.getElem?_inj hlt hcolumns).1 (hname.trans (heq ▸ htime.symm))
          · rintro rfl
            exact Option.some.inj (hname.symm.trans htime)
        rw [saysValue, Bool.and_eq_true, bne_iff_ne, Bool.not_eq_true', not_or, Ne, hindex,
          Bool.not_eq_true]
      rw [cells, List.zip_cons_cons, List.filter_cons]
      by_cases hskip : index = t.timeIndex ∨ cs.isEmpty = true
      · rw [if_pos hskip, if_neg fun h => hsaid.1 h hskip]
        exact ih hnext (Nat.succ.inj hlength)
      · rw [if_neg hskip, if_pos (hsaid.2 hskip), List.mapM_cons, namedValue]
        cases hcell : cell cs with
        | error fault => exact Or.inr ⟨fault, rfl, rfl⟩
        | ok v =>
            rcases ih hnext (Nat.succ.inj hlength) with
              ⟨cells, values, hcells, hvalues, hnamed⟩ | ⟨fault, hcells, hvalues⟩
            · rw [hcells, hvalues]
              exact Or.inl ⟨(index, v) :: cells, (name, v) :: values, rfl, rfl,
                .cons ⟨fun h => hskip (Or.inl h), hname, rfl⟩ hnamed⟩
            · rw [hcells, hvalues]
              exact Or.inr ⟨fault, rfl, rfl⟩

theorem target?_named {c : Nat × Value} {v : List Char × Value} (h : t.Named c v)
    (e : Expression) :
    Run.target? t e c.1 =
      (e.table.position? (String.ofList v.1)).map fun _ => String.ofList v.1 := by
  obtain ⟨hcolumn, hname, -⟩ := h
  rw [Run.target?, if_neg hcolumn, hname]
  rfl

/-- Assigning cells sets the variables of the names of their columns. -/
theorem assign_named {cells : List (Nat × Value)} {values : List (List Char × Value)}
    (h : List.Forall₂ t.Named cells values) (time : Instant) (e : Expression) :
    Run.assign t ⟨time, cells⟩ e =
      .ok (e.calls (values.map fun v => .set (String.ofList v.1) ⟨v.2, time⟩)) := by
  induction h generalizing e with
  | nil => rfl
  | @cons c v cells values hnamed h ih =>
      have hcons : Run.assign t ⟨time, c :: cells⟩ e =
          (Run.target? t e c.1).elim (.ok e) (e.set · ⟨c.2, time⟩) >>=
            Run.assign t ⟨time, cells⟩ := by
        rw [Run.assign, List.foldlM_cons]
        dsimp only
        cases Run.target? t e c.1 <;> rfl
      rw [hcons, target?_named hnamed, hnamed.2.2, List.map_cons, Expression.calls_cons, ← ih,
        Expression.call_set]
      cases hposition : e.table.position? (String.ofList v.1) with
      | none => rfl
      | some id =>
          dsimp only [Option.map_some, Option.elim_some]
          rw [Expression.set, hposition]
          rfl

/-- A row is read alike by its columns and by the names of these. -/
theorem record_labelled (hcolumns : t.columns.Nodup)
    (htime : t.columns[t.timeIndex]? = some timeName) {row : Csv.Row}
    (hlength : row.fields.length = t.columns.length) (number : Nat) :
    (∃ record samples, t.record number row = .ok record ∧
        reading timeName (t.labelled row) = .ok samples ∧
        ∀ e, Run.assign t record e = .ok (e.calls (samples.map fun s => .set s.1 s.2))) ∨
      ∃ fault, t.record number row = .error fault ∧
        reading timeName (t.labelled row) = .error fault := by
  have hfields : (row.fields.map Text.trim).length = t.columns.length := by
    rw [List.length_map, hlength]
  rw [record, reading, labelled, lookup_zip hcolumns htime]
  dsimp only
  rw [if_neg (not_not.2 hfields)]
  cases (row.fields.map Text.trim)[t.timeIndex]? with
  | none => exact Or.inr ⟨.noTime, rfl, rfl⟩
  | some time =>
      simp only [Option.elim_some, bind, Except.bind]
      cases time? time with
      | none => exact Or.inr ⟨.unknownTime time, rfl, rfl⟩
      | some instant =>
          rcases cells_labelled hcolumns htime List.drop_zero hfields.symm with
            ⟨cells, values, hcells, hvalues, hnamed⟩ | ⟨fault, hcells, hvalues⟩
          · rw [hcells, hvalues]
            refine Or.inl ⟨⟨instant, cells⟩, _, rfl, rfl, fun e => ?_⟩
            rw [assign_named hnamed, List.map_map]
            rfl
          · rw [hcells, hvalues]
            exact Or.inr ⟨.refused fault, rfl, rfl⟩

/-- **What a row does** depends on its cells under the names of their columns. -/
theorem turn_eq (hcolumns : t.columns.Nodup) (htime : t.columns[t.timeIndex]? = some timeName)
    {row : Csv.Row} (hlength : row.fields.length = t.columns.length) (number : Nat)
    (e : Expression) :
    t.turn number row e = Turn.ofReading e (reading timeName (t.labelled row)) := by
  rw [turn]
  rcases record_labelled hcolumns htime hlength number with
    ⟨record, samples, hrecord, hreading, hassign⟩ | ⟨fault, hrecord, hreading⟩
  · rw [hrecord, hreading]
    dsimp only
    rw [hassign]
    rfl
  · rw [hrecord, hreading]
    rfl

end Labels

end Table

/-! ### Readings in another order -/

/-- The values of cells stand under the names of the cells. -/
theorem names_of_mapM {cells : List (List Char × List Char)} {values : List (List Char × Value)}
    (h : cells.mapM namedValue = .ok values) : values.map Prod.fst = cells.map Prod.fst := by
  induction cells generalizing values with
  | nil =>
      cases h
      rfl
  | cons c cells ih =>
      rw [List.mapM_cons, namedValue] at h
      cases hcell : cell c.2 with
      | error fault =>
          rw [hcell] at h
          cases h
      | ok v =>
          rw [hcell] at h
          cases hrest : cells.mapM namedValue with
          | error fault =>
              rw [hrest] at h
              cases h
          | ok rest =>
              rw [hrest] at h
              cases h
              rw [List.map_cons, List.map_cons, ih hrest]

theorem isOk_namedValue (c : List Char × List Char) : (namedValue c).isOk = (cell c.2).isOk := by
  rw [namedValue]
  cases cell c.2 <;> rfl

/-- Among the cells that say a value are no more malformed ones than among all. -/
theorem countP_namedValue_le (timeName : List Char) (cells : List (List Char × List Char)) :
    (cells.filter (saysValue timeName)).countP (fun c => !(namedValue c).isOk) ≤
      countMalformed timeName cells := by
  rw [List.countP_filter]
  refine List.countP_mono_left fun c _ h => ?_
  rw [Bool.and_eq_true, isOk_namedValue, saysValue, Bool.and_eq_true] at h
  rw [Bool.and_eq_true]
  exact ⟨h.2.1, h.1⟩

/-- **A reading does not depend on the order of the cells**: where no name stands twice and at
most one cell is malformed, cells in another order do the same to an expression. -/
theorem reading_perm {timeName : List Char} {cells cells' : List (List Char × List Char)}
    (h : cells.Perm cells') (hnames : (cells.map Prod.fst).Nodup)
    (hmalformed : countMalformed timeName cells ≤ 1) (e : Expression) :
    Turn.ofReading e (reading timeName cells') = Turn.ofReading e (reading timeName cells) := by
  rw [reading, reading, ← lookup_perm h hnames timeName]
  cases cells.lookup timeName with
  | none => rfl
  | some time =>
      simp only [Option.elim_some, bind, Except.bind]
      cases time? time with
      | none => rfl
      | some instant =>
          have hone := Nat.le_trans (countP_namedValue_le timeName cells) hmalformed
          rcases mapM_perm (h.filter (saysValue timeName)) hone with
            ⟨values, values', hvalues, hvalues', hperm⟩ | ⟨fault, hvalues, hvalues'⟩
          · let sample := fun v : List Char × Value => (String.ofList v.1, Timed.mk v.2 instant)
            have hdistinct : ((values.map sample).map Prod.fst).Nodup := by
              have hkeys : (values.map Prod.fst).Nodup := by
                rw [names_of_mapM hvalues]
                exact hnames.sublist (List.filter_sublist.map Prod.fst)
              rw [List.map_map]
              have hofList := hkeys.map fun _ _ h => String.ofList_injective h
              rwa [List.map_map] at hofList
            have hcalls := e.calls_sets_perm (hperm.map sample) hdistinct
            rw [hvalues, hvalues']
            show Turn.ofReading e (.ok (values'.map sample)) =
              Turn.ofReading e (.ok (values.map sample))
            rw [Turn.ofReading, Turn.ofReading, hcalls]
          · rw [hvalues, hvalues']

/-! ### Tables with their columns in another order -/

section Arranged

variable {t t' : Table} {timeName : List Char} {order : List Nat}

/-- The same cells stand under the same names. -/
theorem labelled_arranged (horder : order.Perm (List.range t.columns.length))
    (hcolumns : t'.columns = arrange order t.columns) {row row' : Csv.Row}
    (hlength : row.fields.length = t.columns.length)
    (hfields : row'.fields = arrange order row.fields) :
    (t.labelled row).Perm (t'.labelled row') := by
  have hsame : t.columns.length = (row.fields.map Text.trim).length := by
    rw [List.length_map, hlength]
  have hlabelled : t'.labelled row' = arrange order (t.labelled row) := by
    rw [Table.labelled, Table.labelled, hcolumns, hfields, ← arrange_map, arrange_zip order hsame]
  rw [hlabelled]
  refine (arrange_perm ?_).symm
  rwa [Table.labelled, List.length_zip, ← hsame, Nat.min_self]

theorem turn_arranged (hnames : t.columns.Nodup) (htime : t.columns[t.timeIndex]? = some timeName)
    (htime' : t'.columns[t'.timeIndex]? = some timeName)
    (horder : order.Perm (List.range t.columns.length))
    (hcolumns : t'.columns = arrange order t.columns) {row row' : Csv.Row}
    (hlength : row.fields.length = t.columns.length)
    (hfields : row'.fields = arrange order row.fields)
    (hmalformed : countMalformed timeName (t.labelled row) ≤ 1) (number : Nat) (e : Expression) :
    t'.turn number row' e = t.turn number row e := by
  have hperm : t'.columns.Perm t.columns := hcolumns ▸ arrange_perm horder
  have hlength' : row'.fields.length = t'.columns.length := by
    rw [hfields, (arrange_perm (hlength ▸ horder)).length_eq, hperm.length_eq, hlength]
  have hlabels : ((t.labelled row).map Prod.fst).Nodup := by
    have hfits : (row.fields.map Text.trim).length = t.columns.length := by
      rw [List.length_map, hlength]
    rwa [Table.labelled, List.map_fst_zip (Nat.le_of_eq hfits.symm)]
  rw [Table.turn_eq hnames htime hlength, Table.turn_eq (hperm.nodup_iff.2 hnames) htime' hlength']
  exact reading_perm (labelled_arranged horder hcolumns hlength hfields) hlabels hmalformed e

theorem turns_arranged (hnames : t.columns.Nodup)
    (htime : t.columns[t.timeIndex]? = some timeName)
    (htime' : t'.columns[t'.timeIndex]? = some timeName)
    (horder : order.Perm (List.range t.columns.length))
    (hcolumns : t'.columns = arrange order t.columns) {rows rows' : List Csv.Row}
    (hrows : rows'.map Csv.Row.fields = rows.map fun row => arrange order row.fields)
    (hlength : ∀ row ∈ rows, row.fields.length = t.columns.length)
    (hmalformed : ∀ row ∈ rows, countMalformed timeName (t.labelled row) ≤ 1)
    (number : Nat) (e : Expression) : t'.turns number rows' e = t.turns number rows e := by
  induction rows generalizing rows' number e with
  | nil =>
      rw [List.map_nil, List.map_eq_nil_iff] at hrows
      rw [hrows]
      rfl
  | cons row rows ih =>
      obtain ⟨row', rest, rfl, hfields, hrest⟩ := List.map_eq_cons_iff.1 hrows
      rw [List.forall_mem_cons] at hlength hmalformed
      rw [Table.turns, Table.turns, turn_arranged hnames htime htime' horder hcolumns hlength.1
        hfields hmalformed.1, ih hrest hlength.2 hmalformed.2]

end Arranged

/-- The table that the rows of a text make. -/
theorem ofText?_of_rows {timeColumn : String} {cs : List Char} {header : Csv.Row}
    {rows : List Csv.Row} (h : Csv.rows cs = header :: rows) :
    Table.ofText? timeColumn cs =
      ((header.fields.map Text.trim).findIdx? (· == timeColumn.toList)).map fun i =>
        ⟨header.fields.map Text.trim, i, rows⟩ := by
  rw [Table.ofText?, h]
  rfl

/-- **The order of the columns does not matter.**  Let the rows of two texts, the header among
them, be the same up to one order of the columns, the names of the columns different from each
other, and every row as long as the header and with at most one malformed cell besides its time.
Then both texts are tables or none is, and a replay of the one ends with the same lines, counts,
cursor and expression as a replay of the other. -/
theorem replay_arranged (e : Expression) (timeColumn : String) (format : Format)
    {cs cs' : List Char} {header : List (List Char)} {rows : List (List (List Char))}
    {order : List Nat} (hcs : (Csv.rows cs).map Csv.Row.fields = header :: rows)
    (hcs' : (Csv.rows cs').map Csv.Row.fields = (header :: rows).map (arrange order))
    (horder : order.Perm (List.range header.length))
    (hnames : (header.map Text.trim).Nodup)
    (hlength : ∀ fields ∈ rows, fields.length = header.length)
    (hmalformed : ∀ fields ∈ rows, countMalformed timeColumn.toList
      ((header.map Text.trim).zip (fields.map Text.trim)) ≤ 1) :
    (Table.ofText? timeColumn cs').map (replay e · format) =
      (Table.ofText? timeColumn cs).map (replay e · format) := by
  obtain ⟨first, rest, hrows, rfl, rfl⟩ := List.map_eq_cons_iff.1 hcs
  obtain ⟨first', rest', hrows', hfirst', hrest'⟩ := List.map_eq_cons_iff.1 hcs'
  rw [ofText?_of_rows hrows, ofText?_of_rows hrows', hfirst', ← arrange_map]
  rw [← List.length_map Text.trim] at horder hlength
  rw [List.forall_mem_map] at hlength hmalformed
  rw [List.map_map] at hrest'
  generalize first.fields.map Text.trim = columns at *
  cases htime : columns.findIdx? (· == timeColumn.toList) with
  | none =>
      have habsent : (arrange order columns).findIdx? (· == timeColumn.toList) = none := by
        rw [List.findIdx?_eq_none_iff] at htime ⊢
        exact fun c hc => htime c ((arrange_perm horder).subset hc)
      rw [habsent]
      rfl
  | some i =>
      have hsome := getElem?_of_findIdx? htime
      obtain ⟨j, htime'⟩ : ∃ j,
          (arrange order columns).findIdx? (· == timeColumn.toList) = some j := by
        refine Option.isSome_iff_exists.1 (List.findIdx?_isSome.trans (List.any_eq_true.2 ?_))
        exact ⟨_, (arrange_perm horder).symm.subset (List.mem_of_getElem? hsome),
          beq_self_eq_true _⟩
      have hturns : (⟨arrange order columns, j, rest'⟩ : Table).turns 1 rest' e =
          (⟨columns, i, rest⟩ : Table).turns 1 rest e :=
        turns_arranged hnames hsome (getElem?_of_findIdx? htime') horder rfl hrest' hlength
          hmalformed 1 e
      rw [htime', Option.map_some, Option.map_some, Option.map_some, Option.map_some, replay,
        replay, Run.steps_eq, Run.steps_eq]
      dsimp only
      rw [hturns]

/-- The running total and the other variable in step: a table with an empty cell and one that is
no date, and the same table with the time in the middle.  Either replay gives two results and one
failure. -/
theorem replay_turned_feed :
    ∃ e header rows, Definition.feed.compile {} = .ok e ∧
      (Csv.rows "time,A,B\n1,1,2\n2,,3\n3,#x#,4\n".toList).map Csv.Row.fields =
        header :: rows ∧
      (Csv.rows "B,time,A\n2,1,1\n3,2,\n4,3,#x#\n".toList).map Csv.Row.fields =
        (header :: rows).map (arrange [2, 0, 1]) ∧
      [2, 0, 1].Perm (List.range header.length) ∧ (header.map Text.trim).Nodup ∧
      (∀ fields ∈ rows, fields.length = header.length) ∧
      (∀ fields ∈ rows, countMalformed "time".toList
        ((header.map Text.trim).zip (fields.map Text.trim)) ≤ 1) ∧
      (Table.ofText? "time" "B,time,A\n2,1,1\n3,2,\n4,3,#x#\n".toList).map (replay e · .text) =
        (Table.ofText? "time" "time,A,B\n1,1,2\n2,,3\n3,#x#,4\n".toList).map
          (replay e · .text) ∧
      ∃ run, (Table.ofText? "time" "B,time,A\n2,1,1\n3,2,\n4,3,#x#\n".toList).map
          (replay e · .text) = some run ∧
        run.printed =
          (["1\t1970-01-01T00:00:00.000000001Z\t3".toList,
            "2\t1970-01-01T00:00:00.000000001Z\t5".toList,
            "3\terror\tParse error at '#x#': invalid date literal".toList], 2, 0, 1) := by
  let header := ["time".toList, "A".toList, "B".toList]
  let rows := [["1".toList, "1".toList, "2".toList], ["2".toList, [], "3".toList],
    ["3".toList, "#x#".toList, "4".toList]]
  obtain ⟨e, he, -⟩ := Definition.compile_feed
  have hcs : (Csv.rows "time,A,B\n1,1,2\n2,,3\n3,#x#,4\n".toList).map Csv.Row.fields =
      header :: rows := by decide +kernel
  have hcs' : (Csv.rows "B,time,A\n2,1,1\n3,2,\n4,3,#x#\n".toList).map Csv.Row.fields =
      (header :: rows).map (arrange [2, 0, 1]) := by decide +kernel
  have horder : [2, 0, 1].Perm (List.range header.length) := by decide
  have hnames : (header.map Text.trim).Nodup := by decide +kernel
  have hlength : ∀ fields ∈ rows, fields.length = header.length := by decide +kernel
  have hmalformed : ∀ fields ∈ rows, countMalformed "time".toList
      ((header.map Text.trim).zip (fields.map Text.trim)) ≤ 1 := by decide +kernel
  have hsame := replay_arranged e "time" .text hcs hcs' horder hnames hlength hmalformed
  -- the replay of the first table is computed, and that of the second is the same
  have hrun : ((Definition.feed.compile {}).toOption.bind fun e =>
      ((Table.ofText? "time" "time,A,B\n1,1,2\n2,,3\n3,#x#,4\n".toList).map
        (replay e · .text)).map Run.printed) =
      some (["1\t1970-01-01T00:00:00.000000001Z\t3".toList,
        "2\t1970-01-01T00:00:00.000000001Z\t5".toList,
        "3\terror\tParse error at '#x#': invalid date literal".toList], 2, 0, 1) := by
    decide +kernel
  rw [he, Except.toOption, Option.bind_some, ← hsame] at hrun
  obtain ⟨run, hreplay, hlines⟩ := Option.map_eq_some_iff.1 hrun
  exact ⟨e, header, rows, he, hcs, hcs', horder, hnames, hlength, hmalformed, hsame, run, hreplay,
    hlines⟩

end Replay

end Telemetry
