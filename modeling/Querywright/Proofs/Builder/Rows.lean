/-
  Columns restricted to given rows.

  * `reads_inText`: the placeholders of the condition take consecutive indexes, tuple by tuple.
  * `whereIn_eq`: its values are those of all rows, one row after another.
  * `rows_bind_in_order`: so a select is written whenever the rows hold as many values together as
    the tuples have placeholders, and then binds the k-th value to the k-th placeholder. Only where
    every row has a value for each column is that the row's own tuple.
-/
import Querywright.Proofs.Builder.Chaining
import Querywright.Proofs.Clause.Cells
import Querywright.Proofs.Clause.Texts
import Querywright.Proofs.Select.Counting
import Querywright.Proofs.Select.Reading

namespace Querywright

open Placeholder Clause

namespace Builder

/-! ## The text of the condition -/

theorem chain_marks (p : Int) (width : Nat) :
    Chain p (List.replicate width "?") (indexes p width) := by
  induction width generalizing p with
  | zero => exact .nil p
  | succ width ih =>
    have hmark : Reads p "?" [p + 1] := reads_iff.2 (readsFrom_mark p)
    have hhighest : highest p [p + 1] = p + 1 := by
      rw [highest_cons]
      exact Int.max_eq_right (by omega)
    rw [List.replicate_succ, indexes_succ]
    exact .cons hmark (by rw [hhighest]; exact ih (p + 1))

/-- One tuple takes the indexes after those before it. -/
theorem reads_markTuple (p : Int) (width : Nat) : Reads p (markTuple width) (indexes p width) :=
  (commas_reads (chain_marks p width)).parens

theorem chain_tuples (p : Int) (rows width : Nat) :
    Chain p (List.replicate rows (markTuple width)) (indexes p (rows * width)) := by
  induction rows generalizing p with
  | zero =>
    rw [Nat.zero_mul]
    exact .nil p
  | succ rows ih =>
    rw [List.replicate_succ, Nat.succ_mul, Nat.add_comm, indexes_add]
    exact .cons (reads_markTuple p width) (by rw [highest_indexes_self]; exact ih _)

/-- The tuples take consecutive indexes if the columns hold no placeholder. -/
theorem reads_inText {columns : String} (h : Plain columns) (p : Int) (rows width : Nat) :
    Reads p (inText columns rows width) (indexes p (rows * width)) := by
  have hopen : Plain "(" := plain_of_not_mem (by decide) (by decide)
  have hvalues : Plain ") IN (VALUES " := plain_of_not_mem (by decide) (by decide)
  have hclose : Plain ")" := plain_of_not_mem (by decide) (by decide)
  have hfront := (hopen.append h).append hvalues
  exact (hfront.append_reads (commas_reads (chain_tuples p rows width))).append_plain hclose
    (by decide)

/-- So the condition needs one value for each placeholder. -/
theorem checkCount_inText {columns : String} (h : Plain columns) (rows width n : Nat) :
    Filter.checkCount "WHERE" (inText columns rows width) 0 n =
      if n = rows * width then .ok ()
      else .error (mismatch "WHERE" (some (inText columns rows width)) (rows * width : Nat) n) := by
  rw [Filter.checkCount, (reads_inText h 0 rows width).highestIndex, highest_indexes_self]
  simp only [ok_bind, Int.zero_add, Int.sub_zero, Int.natCast_inj, eq_comm (a := n)]
  rfl

/-- The index of every placeholder, tuple by tuple. -/
theorem indexes_mul (rows width : Nat) :
    indexes 0 (rows * width) = (List.range rows).flatMap fun i =>
      (List.range width).map fun j => ((i * width + j + 1 : Nat) : Int) := by
  induction rows with
  | zero => rw [Nat.zero_mul, indexes_zero, List.range_zero, List.flatMap_nil]
  | succ rows ih =>
    rw [Nat.succ_mul, indexes_add, ih, List.range_succ, List.flatMap_append,
      List.flatMap_singleton]
    refine congrArg _ (List.map_congr_left fun j _ => ?_)
    omega

/-! ## The values of the condition -/

theorem sequence?_items {v : Value} {items : List Value} (h : v.sequence? = some items) :
    v.isText = false ∧ v.items = .ok items ∧ v.truth = !items.isEmpty := by
  cases v with
  | list members =>
    cases h
    exact ⟨rfl, rfl, rfl⟩
  | tuple members =>
    cases h
    exact ⟨rfl, rfl, rfl⟩
  | _ => cases h

theorem texts_map_text (names : List String) : Value.texts (names.map .text) = .ok names := by
  induction names with
  | nil => rfl
  | cons name names ih =>
    rw [List.map_cons, Value.texts, ih]
    rfl

theorem mapM_items {lists : List Value} {rows : List (List Value)}
    (h : lists.map Value.sequence? = rows.map some) : lists.mapM Value.items = .ok rows := by
  induction lists generalizing rows with
  | nil =>
    cases rows with
    | nil => rfl
    | cons row rows => cases h
  | cons v lists ih =>
    cases rows with
    | nil => cases h
    | cons row rows =>
      rw [List.map_cons, List.map_cons, List.cons.injEq] at h
      rw [List.mapM_cons, (sequence?_items h.1).2.1, ih h.2]
      rfl

/-- The condition that several columns hold one of the rows. -/
theorem whereIn_eq {columns values : Value} {names : List String} {lists : List Value}
    {rows : List (List Value)} (hcolumns : columns.sequence? = some (names.map .text))
    (hvalues : values.sequence? = some lists) (hrows : lists.map Value.sequence? = rows.map some) :
    whereIn columns values =
      .ok (inText (Value.commas names) rows.length names.length, rows.flatten) := by
  obtain ⟨hnotText, hnames, -⟩ := sequence?_items hcolumns
  obtain ⟨-, hlists, -⟩ := sequence?_items hvalues
  have hlength : lists.length = rows.length := by
    have := congrArg List.length hrows
    rwa [List.length_map, List.length_map] at this
  rw [whereIn, hnotText, if_neg Bool.false_ne_true, hnames, hlists, ok_bind, ok_bind,
    mapM_items hrows, ok_bind, texts_map_text, ok_bind, hlength, List.length_map]
  rfl

theorem length_flatten {rows : List (List Value)} {width : Nat}
    (h : ∀ row ∈ rows, row.length = width) : rows.flatten.length = rows.length * width := by
  have hlengths : rows.map List.length = List.replicate rows.length width :=
    List.map_eq_replicate_iff.2 h
  rw [List.length_flatten, hlengths, List.sum_replicate_nat]

/-- A value of rows that all have the same width stands at its column behind the rows before. -/
theorem getElem?_flatten {rows : List (List Value)} {width : Nat}
    (h : ∀ row ∈ rows, row.length = width) (i : Nat) {j : Nat} (hj : j < width) :
    rows.flatten[i * width + j]? = rows[i]?.bind (·[j]?) := by
  induction rows generalizing i with
  | nil => rfl
  | cons row rows ih =>
    obtain ⟨hrow, hrows⟩ := List.forall_mem_cons.1 h
    rw [List.flatten_cons]
    cases i with
    | zero =>
      rw [List.getElem?_append_left (by omega), Nat.zero_mul, Nat.zero_add]
      rfl
    | succ i =>
      have hbehind : (i + 1) * width + j = row.length + (i * width + j) := by
        rw [Nat.succ_mul, hrow]
        omega
      rw [hbehind, List.getElem?_append_right (Nat.le_add_right _ _), Nat.add_sub_cancel_left,
        List.getElem?_cons_succ, ih hrows]

/-- The builder of a select that restricts columns to rows. -/
theorem applyAll_filterIn (table : Value) {columns values : Value} {names : List String}
    {lists : List Value} {rows : List (List Value)}
    (hcolumns : columns.sequence? = some (names.map .text))
    (hvalues : values.sequence? = some lists) (hrows : lists.map Value.sequence? = rows.map some)
    (hne : rows ≠ []) :
    SelectBuilder.applyAll { table := table } [.filterIn columns values] = .ok
      { table := table
        filter := some
          ⟨[.text (inText (Value.commas names) rows.length names.length)], rows.flatten⟩ } := by
  have htruth : values.truth = true := by
    rw [(sequence?_items hvalues).2.2]
    cases lists with
    | nil => exact absurd (List.map_eq_nil_iff.1 hrows.symm) hne
    | cons v lists => rfl
  have hwhere := whereIn_eq hcolumns hvalues hrows
  have hcollected : (Given.rows columns values).collected? = some
      ⟨[.text (inText (Value.commas names) rows.length names.length)], rows.flatten⟩ := by
    rw [Given.collected?, if_pos htruth, hwhere]
    rfl
  have hfilter : allConditions [.rows columns values] = some
      ⟨[.text (inText (Value.commas names) rows.length names.length)], rows.flatten⟩ := by
    rw [← List.nil_append [_], allConditions_append hcollected]
    rfl
  refine (SelectBuilder.applyAll_eq_ok _ _ _).2 ⟨?_, ?_⟩
  · exact List.forall_mem_singleton.2 fun _ => ⟨_, hwhere⟩
  · exact congrArg (fun filter => ({ table := table, filter } : SelectBuilder)) hfilter.symm

end Builder

/-! ## The select -/

theorem hasQuery_of_subquery? {read : Value → Select} {items : List Value}
    (h : ∀ v ∈ items, v.subquery? = none) : (Select.readParams read items).hasQuery = false := by
  induction items with
  | nil => rfl
  | cons v rest ih =>
    obtain ⟨hv, hrest⟩ := List.forall_mem_cons.1 h
    rw [Select.readParams_cons, hv]
    exact ih hrest

/-- A filter without a subquery is written as it is if its text reaches exactly its values. -/
theorem Filter.compile_values (source : ConditionSet) {texts : List String} {items : List Value}
    (hgiven : source.isEmpty = false) (htexts : source.texts = .ok texts)
    (hitems : source.params.items? = some items) (hplain : ∀ v ∈ items, v.subquery? = none)
    (strict : Bool) (clause : String) (p : Int) :
    (Select.readConditions Select.ofValue source).compile strict clause p = (do
      checkCount clause (ConditionSet.joined texts) p items.length
      return ⟨some source, some (ConditionSet.joined texts), items⟩) := by
  have hread : source.params.items = .ok items := by rw [Value.items, hitems]
  rw [Select.readConditions, Filter.compile, hgiven, if_neg Bool.false_ne_true, hitems,
    Option.getD_some, hasQuery_of_subquery? hplain, compileGiven, hread, ok_bind,
    if_neg Bool.false_ne_true, htexts, ok_bind]

namespace Statement

/-- The text of a select of all columns by one condition. -/
def filteredText (table condition ending : String) : String :=
  "SELECT * FROM " ++ table ++ " WHERE " ++ condition ++ ending

variable {table ending : String} (condition : String) {cells : List Value} {limit : Value}
  {strict : Bool}

theorem render_filtered {source : Option ConditionSet}
    (hlimit : Clause.limit strict limit = .ok ending) :
    Clauses.render strict table "" ⟨source, some condition, cells⟩ .absent
      ⟨.null, .null, .null, limit, .null⟩ = .ok (filteredText table condition ending) := by
  have hfields : Clause.fields .null = .ok "*" := rfl
  have hgroupBy : Clause.groupBy .null = .ok "" := rfl
  have horderBy : Clause.orderBy .null = .ok "" := rfl
  have hoffset : Clause.offset strict .null = .ok "" := rfl
  have hclause : (⟨source, some condition, cells⟩ : FilterPiece).clause "WHERE"
      = " WHERE " ++ condition := rfl
  have habsent : FilterPiece.absent.clause "HAVING" = "" := rfl
  have hhead : "SELECT " ++ "*" ++ " FROM " = "SELECT * FROM " := rfl
  rw [Clauses.render, hfields, hgroupBy, horderBy, hlimit, hoffset, hclause, habsent]
  refine congrArg Except.ok ?_
  rw [hhead, String.append_empty, String.append_empty, String.append_empty, String.append_empty,
    String.append_empty]
  exact congrArg (· ++ ending) String.append_assoc.symm

/-- A select of all columns by one condition that no subquery is among the values of. -/
theorem compile_filtered (htable : Text.isBlankText table = false)
    (hcells : ∀ v ∈ cells, v.subquery? = none) (hlimit : Clause.limit strict limit = .ok ending) :
    (Select.mk (.text table) .nil
        (Select.readConditions Select.ofValue ⟨.tuple [.text condition], .tuple cells⟩) .absent
        ⟨.null, .null, .null, limit, .null⟩).compile strict 0 = (do
      Filter.checkCount "WHERE" condition 0 cells.length
      return ⟨filteredText table condition ending, cells⟩) := by
  have hjoined : ConditionSet.joined [condition] = condition := String.intercalate_singleton ..
  have hfilter := Filter.compile_values ⟨.tuple [.text condition], .tuple cells⟩
    rfl rfl rfl hcells strict "WHERE" 0
  rw [Select.compile_unjoined htable, hfilter, hjoined]
  cases Filter.checkCount "WHERE" condition 0 cells.length with
  | error e => rfl
  | ok _ =>
    rw [ok_bind, ok_bind, pure_bind, render_filtered condition hlimit]
    rfl

/-- The record of a select of all columns by one condition. -/
def filteredRecord (table condition : String) (cells : List Value) (streamed : Bool) : Value :=
  selectOf (.text table) .null (.record .conditions [.tuple [.text condition], .tuple cells]) .null
    .null .null .null .null .null (.bool streamed)

theorem selectAll_filtered (strict : Bool) (htable : Text.isBlankText table = false)
    (hcells : ∀ v ∈ cells, v.subquery? = none) (streamed : Bool) :
    selectAll strict (filteredRecord table condition cells streamed) = (do
      Filter.checkCount "WHERE" condition 0 cells.length
      return ⟨.text (filteredText table condition ""), cells, .all⟩) := by
  have hlimit : Clause.limit strict .null = .ok "" := rfl
  have hcompile := compile_filtered condition htable hcells hlimit
  have hread : Select.ofValue (filteredRecord table condition cells streamed) =
      .mk (.text table) .nil
        (Select.readConditions Select.ofValue ⟨.tuple [.text condition], .tuple cells⟩) .absent
        ⟨.null, .null, .null, .null, .null⟩ :=
    ofValue_selectOf
  have hrecord : selectRecord (filteredRecord table condition cells streamed) =
      .ok (filteredRecord table condition cells streamed) := rfl
  rw [selectAll, hrecord, ok_bind, hread, hcompile, bind_assoc]
  rfl

theorem selectOne_filtered (strict : Bool) (htable : Text.isBlankText table = false)
    (hcells : ∀ v ∈ cells, v.subquery? = none) (streamed : Bool) :
    selectOne strict (filteredRecord table condition cells streamed) = (do
      Filter.checkCount "WHERE" condition 0 cells.length
      return ⟨.text (filteredText table condition " LIMIT 1"), cells, .one⟩) := by
  have hlimit : Clause.limit strict (.int 1) = .ok " LIMIT 1" := by cases strict <;> rfl
  have hcompile := compile_filtered condition htable hcells hlimit
  have hread : (Select.ofValue (filteredRecord table condition cells streamed)).withLimit (.int 1) =
      .mk (.text table) .nil
        (Select.readConditions Select.ofValue ⟨.tuple [.text condition], .tuple cells⟩) .absent
        ⟨.null, .null, .null, .int 1, .null⟩ := by
    rw [filteredRecord, ofValue_selectOf]
    rfl
  have hrecord : RecordKind.coerce .selectOne (filteredRecord table condition cells streamed) =
      .ok (filteredRecord table condition cells streamed) := rfl
  rw [selectOne, hrecord, ok_bind]
  dsimp only
  rw [hread, hcompile, bind_assoc]
  rfl

/-- The placeholders of the select are those of its condition. -/
theorem reads_filteredText {condition : String} {is : List Int} (htable : Plain table)
    (h : Reads 0 condition is) (hending : ending = "" ∨ ending = " LIMIT 1") :
    Reads 0 (filteredText table condition ending) is := by
  have hfrom : Plain "SELECT * FROM " := plain_of_not_mem (by decide) (by decide)
  have hwhere : Plain " WHERE " := plain_of_not_mem (by decide) (by decide)
  have hplain : Plain ending ∧ Led ending := by
    rcases hending with rfl | rfl
    · exact ⟨plain_of_not_mem (by decide) (by decide), by decide⟩
    · exact ⟨plain_of_not_mem (by decide) (by decide), by decide⟩
  exact (((hfrom.append htable).append hwhere).append_reads h).append_plain hplain.1 hplain.2

end Statement

open Statement Builder

/-- A select that restricts columns to rows is written exactly if the rows together hold as many
values as the tuples have placeholders. Its k-th placeholder then binds the k-th of these values,
if the name of the table holds none. So where every row has a value for each column, the j-th
placeholder of the i-th tuple binds the j-th value of the i-th row. -/
theorem rows_bind_in_order {table : String} {names : List String} {columns values : Value}
    {lists : List Value} {rows : List (List Value)} (htable : Text.isBlankText table = false)
    (hnames : ∀ name ∈ names, quote ∉ name.toList ∧ '?' ∉ name.toList)
    (hcolumns : columns.sequence? = some (names.map .text))
    (hvalues : values.sequence? = some lists) (hrows : lists.map Value.sequence? = rows.map some)
    (hne : rows ≠ []) (hcells : ∀ row ∈ rows, ∀ v ∈ row, v.subquery? = none) :
    let condition := inText (Value.commas names) rows.length names.length
    let expected := rows.length * names.length
    ∃ b, SelectBuilder.applyAll { table := .text table } [.filterIn columns values] = .ok b ∧
      (rows.flatten.length ≠ expected → ∀ strict streamed,
        let refused := mismatch "WHERE" (some condition) expected rows.flatten.length
        selectAll strict (b.record streamed) = .error refused ∧
          selectOne strict (b.record streamed) = .error refused) ∧
      (rows.flatten.length = expected → ∀ strict streamed,
        selectAll strict (b.record streamed) =
            .ok ⟨.text (filteredText table condition ""), rows.flatten, .all⟩ ∧
          selectOne strict (b.record streamed) =
            .ok ⟨.text (filteredText table condition " LIMIT 1"), rows.flatten, .one⟩ ∧
          (Plain table → ∀ ending ∈ ["", " LIMIT 1"],
            resolve (filteredText table condition ending) 0 =
              .ok ((List.range rows.length).flatMap fun i =>
                (List.range names.length).map fun j => ((i * names.length + j + 1 : Nat) : Int)))) ∧
      ((∀ row ∈ rows, row.length = names.length) → rows.flatten.length = expected ∧
        ∀ i j, j < names.length →
          rows.flatten[i * names.length + j]? = rows[i]?.bind (·[j]?)) := by
  intro condition expected
  have hflat : ∀ v ∈ rows.flatten, v.subquery? = none := by
    intro v hv
    obtain ⟨row, hrow, hmem⟩ := List.mem_flatten.1 hv
    exact hcells row hrow v hmem
  have hcolumnsPlain : Plain (Value.commas names) :=
    joinable_plain.commas fun name hname =>
      plain_of_not_mem (hnames name hname).1 (hnames name hname).2
  have hcount : Filter.checkCount "WHERE" condition 0 rows.flatten.length = _ :=
    checkCount_inText hcolumnsPlain rows.length names.length rows.flatten.length
  refine ⟨_, applyAll_filterIn (.text table) hcolumns hvalues hrows hne,
    fun hlength strict streamed => ?_, fun hlength strict streamed => ?_,
    fun hwidth => ⟨length_flatten hwidth, fun i j hj => getElem?_flatten hwidth i hj⟩⟩
  · rw [if_neg hlength] at hcount
    have hall := selectAll_filtered condition strict htable hflat streamed
    have hone := selectOne_filtered condition strict htable hflat streamed
    rw [hcount] at hall hone
    exact ⟨hall, hone⟩
  · rw [if_pos hlength] at hcount
    have hall := selectAll_filtered condition strict htable hflat streamed
    have hone := selectOne_filtered condition strict htable hflat streamed
    rw [hcount] at hall hone
    refine ⟨hall, hone, fun hplain ending hending => ?_⟩
    have hending : ending = "" ∨ ending = " LIMIT 1" := by simpa using hending
    have hreads := reads_inText hcolumnsPlain 0 rows.length names.length
    rw [indexes_mul] at hreads
    exact (reads_filteredText hplain hreads hending).resolved

/-- Two rows of a team and a role. -/
def teamRows : List Value :=
  [.list [.text "core", .text "dev"], .tuple [.text "ops", .text "sre"]]

theorem rows_bind_in_order_teams :
    ∃ b s, SelectBuilder.applyAll { table := .text "users" }
        [.filterIn (.list [.text "team", .text "role"]) (.list teamRows)] = .ok b ∧
      selectAll true (b.record false) = .ok s ∧
      s.query = .text "SELECT * FROM users WHERE (team, role) IN (VALUES (?, ?), (?, ?))" ∧
      resolve "SELECT * FROM users WHERE (team, role) IN (VALUES (?, ?), (?, ?))" 0
        = .ok [1, 2, 3, 4] ∧
      s.arguments[1 * 2 + 0]? = some (.text "ops") := by
  have htable : Text.isBlankText "users" = false := by decide
  have hplain : Plain "users" := plain_of_not_mem (by decide) (by decide)
  have hnames : ∀ name ∈ ["team", "role"], quote ∉ name.toList ∧ '?' ∉ name.toList := by decide
  have hcolumns : (Value.list [.text "team", .text "role"]).sequence?
      = some (["team", "role"].map .text) := rfl
  have hvalues : (Value.list teamRows).sequence? = some teamRows := rfl
  have hrows : teamRows.map Value.sequence?
      = [[Value.text "core", .text "dev"], [.text "ops", .text "sre"]].map some := rfl
  have hcells : ∀ row ∈ [[Value.text "core", .text "dev"], [.text "ops", .text "sre"]],
      ∀ v ∈ row, v.subquery? = none := by
    simp [Value.subquery?, Join.isSelect]
  obtain ⟨b, hbuilt, -, hwritten, hbinds⟩ :=
    rows_bind_in_order htable hnames hcolumns hvalues hrows nofun hcells
  obtain ⟨hlength, hplaces⟩ := hbinds (by decide)
  obtain ⟨hall, -, hresolve⟩ := hwritten hlength true false
  exact ⟨b, _, hbuilt, hall, rfl, hresolve hplain "" List.mem_cons_self, hplaces 1 0 (by decide)⟩

/-- Rows of other widths are accepted where they make up for each other, and their values move
into neighbouring tuples: here the second placeholder of the first tuple binds the first value of
the second row. -/
theorem uneven_rows_shift :
    ∃ b s, SelectBuilder.applyAll { table := .text "t" }
        [.filterIn (.list [.text "a", .text "b"])
          (.list [.list [.int 1], .list [.int 2, .int 3, .int 4]])] = .ok b ∧
      selectAll true (b.record false) = .ok s ∧
      s.query = .text "SELECT * FROM t WHERE (a, b) IN (VALUES (?, ?), (?, ?))" ∧
      resolve "SELECT * FROM t WHERE (a, b) IN (VALUES (?, ?), (?, ?))" 0 = .ok [1, 2, 3, 4] ∧
      s.arguments = [.int 1, .int 2, .int 3, .int 4] ∧
      ∃ row ∈ [[Value.int 1], [.int 2, .int 3, .int 4]], row.length ≠ 2 :=
  ⟨_, _, rfl, rfl, rfl, rfl, rfl, [.int 1], List.mem_cons_self, by decide⟩

end Querywright
