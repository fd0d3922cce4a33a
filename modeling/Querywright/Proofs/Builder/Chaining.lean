/-
  What a chain of calls on a builder comes to.

  Every call fills one field, in one of five ways (`Given`); the field of the built record depends
  on the calls that fill it alone, in their order.

  * `SelectBuilder.applyAll_eq_ok`, `UpdateBuilder.applyAll_eq_ok`, `DeleteBuilder.applyAll_eq_ok`:
    when the calls are carried out, and the builder they lead to.
  * `UpdateBuilder.statement_eq`, `DeleteBuilder.statement_eq`: the statement is the one of the
    built record.
  * `chained_calls_collect`: both, and that calls which fill different fields may change places.
-/
import Querywright.Builder.Change
import Querywright.Builder.Select
import Querywright.Proofs.Outcome
import Querywright.Proofs.Value.Merging

namespace Querywright.Builder

/-- What a call gives to the field that it fills. -/
inductive Given where
  /-- A value, in place of the one before. -/
  | value (v : Value)
  /-- More members of a list. -/
  | members (v : Value)
  /-- More conditions, with their values. -/
  | conditions (texts params : Value)
  /-- The condition that columns are one of several rows. -/
  | rows (columns values : Value)
  /-- Columns and their values, in place of the ones before. -/
  | entries (data : Value)

namespace Given

/-- Whether the call is carried out. -/
def Accepted : Given → Prop
  | .conditions texts _ => ∀ v ∈ texts.parts, v.isText = true
  | .rows columns values => values.truth = true → ∃ r, whereIn columns values = .ok r
  | .entries data => ∃ columns, data = .map columns
  | _ => True

/-- The value that takes the place of the one before. -/
def value? : Given → Option Value
  | .value v => some v
  | _ => none

/-- The members that a list gets. -/
def members? : Given → Option (List Value)
  | .members v => some v.parts
  | _ => none

/-- The conditions that are not empty, with all values. A restriction to no rows is none. -/
def collected? : Given → Option Collected
  | .conditions texts params => some ⟨texts.parts.filter Value.truth, params.parts⟩
  | .rows columns values =>
    if values.truth then
      (whereIn columns values).toOption.map fun (condition, cells) => ⟨[.text condition], cells⟩
    else none
  | _ => none

/-- The columns with their values. -/
def assigned : Given → Entries
  | .entries (.map columns) => columns
  | _ => []

end Given

/-- What calls give to one field. -/
def filling (name : String) (given : List (String × Given)) : List Given :=
  given.filterMap fun g => if g.1 = name then some g.2 else none

/-- The last value, or the first one where none was given. -/
def lastValue (start : Value) (given : List Given) : Value :=
  (given.filterMap Given.value?).getLastD start

/-- All members in order, or no list where none was given. -/
def allMembers (given : List Given) : Option (List Value) :=
  match given.filterMap Given.members? with
  | [] => none
  | lists => some lists.flatten

/-- All conditions and all values in order, or no set where none was given. -/
def allConditions (given : List Given) : Option Collected :=
  match given.filterMap Given.collected? with
  | [] => none
  | sets => some ⟨sets.flatMap (·.conditions), sets.flatMap (·.params)⟩

/-- All columns with their values in order, also those that are given again. -/
def allAssigned (given : List Given) : List (Value × Value) := given.flatMap Given.assigned

/-! ## One more call -/

section

variable {name : String} {given : List (String × Given)} {gs : List Given} {g : Given}

theorem filling_append (field : String) :
    filling name (given ++ [(field, g)])
      = if field = name then filling name given ++ [g] else filling name given := by
  rw [filling, List.filterMap_append, ← filling, List.filterMap_cons, List.filterMap_nil]
  by_cases h : field = name
  · rw [if_pos h, if_pos h]
  · rw [if_neg h, if_neg h, List.append_nil]

theorem lastValue_append (start v : Value) : lastValue start (gs ++ [.value v]) = v := by
  rw [lastValue, List.filterMap_append]
  exact List.getLastD_concat ..

theorem allMembers_append (v : Value) :
    allMembers (gs ++ [.members v]) = extendList (allMembers gs) v := by
  rw [allMembers, allMembers, List.filterMap_append]
  cases gs.filterMap Given.members? with
  | nil => simp [Given.members?, extendList]
  | cons members lists => simp [Given.members?, extendList]

theorem allConditions_append {c : Collected} (h : g.collected? = some c) :
    allConditions (gs ++ [g]) = some (((allConditions gs).getD ⟨[], []⟩).append c) := by
  rw [allConditions, allConditions, List.filterMap_append, List.filterMap_cons_some h]
  cases gs.filterMap Given.collected? with
  | nil => simp [Collected.append]
  | cons set sets => simp [Collected.append]

theorem allConditions_append_none (h : g.collected? = none) :
    allConditions (gs ++ [g]) = allConditions gs := by
  rw [allConditions, List.filterMap_append, List.filterMap_cons_none h, List.filterMap_nil,
    List.append_nil]
  rfl

theorem allAssigned_append (columns : Entries) :
    allAssigned (gs ++ [.entries (.map columns)]) = allAssigned gs ++ columns := by
  rw [allAssigned, List.flatMap_append, List.flatMap_singleton]
  rfl

/-- Conditions are taken when all are texts. -/
theorem ofCall_eq_ok {texts params : Value} {c : Collected} :
    Collected.ofCall texts params = .ok c ↔ (∀ v ∈ texts.parts, v.isText = true) ∧
      c = ⟨texts.parts.filter Value.truth, params.parts⟩ := by
  rw [Collected.ofCall, ConditionSet.keep]
  cases hother : ConditionSet.firstOther? texts.parts with
  | some v =>
    have hv := List.find?_some hother
    have hmem := List.mem_of_find?_eq_some hother
    refine ⟨nofun, fun ⟨htexts, _⟩ => ?_⟩
    rw [htexts v hmem] at hv
    cases hv
  | none =>
    have htexts := List.find?_eq_none.1 hother
    simp only [ok_bind, pure_eq_ok]
    refine ⟨fun h => ⟨fun v hv => ?_, h.symm⟩, fun h => h.2.symm⟩
    simpa using htexts v hv

/-- A builder whose condition set grows. -/
theorem extend_eq_ok {β : Type} {texts params : Value} {grown : Option Collected → β} {b : β} :
    (do return grown (← Collected.extend (allConditions gs) texts params) :
        Except Fault β) = .ok b ↔
      (Given.conditions texts params).Accepted ∧
        b = grown (allConditions (gs ++ [.conditions texts params])) := by
  rw [allConditions_append (c := ⟨texts.parts.filter Value.truth, params.parts⟩) rfl]
  simp only [Collected.extend, bind_eq_ok, pure_eq_ok, ofCall_eq_ok]
  constructor
  · rintro ⟨_, ⟨_, ⟨htexts, rfl⟩, rfl⟩, rfl⟩
    exact ⟨htexts, rfl⟩
  · rintro ⟨htexts, rfl⟩
    exact ⟨_, ⟨_, ⟨htexts, rfl⟩, rfl⟩, rfl⟩

/-- The condition that columns are one of several rows is a text that is not empty. -/
theorem truth_whereIn {columns values : Value} {condition : String} {cells : List Value}
    (h : whereIn columns values = .ok (condition, cells)) :
    (Value.text condition).truth = true := by
  have hin : ∃ names rows width, condition = inText names rows width := by
    rw [whereIn] at h
    split at h
    · obtain ⟨rows, -, h⟩ := bind_eq_ok.1 h
      cases h
      exact ⟨_, _, _, rfl⟩
    · simp only [bind_eq_ok, pure_eq_ok, Prod.mk.injEq] at h
      obtain ⟨names, -, rows, -, lists, -, texts, -, rfl, -⟩ := h
      exact ⟨_, _, _, rfl⟩
  obtain ⟨names, rows, width, rfl⟩ := hin
  have hne : inText names rows width ≠ "" := by
    intro heq
    have hlist := congrArg String.toList heq
    simp [inText] at hlist
  exact bne_iff_ne.2 hne

/-- A builder whose condition set grows by a restriction to rows. -/
theorem extend_whereIn {β : Type} {columns values : Value} (hvalues : values.truth = true)
    {grown : Option Collected → β} {b : β} :
    (do
      let (condition, cells) ← whereIn columns values
      return grown (← Collected.extend (allConditions gs) (.text condition) (.list cells)) :
        Except Fault β) = .ok b ↔
      (Given.rows columns values).Accepted ∧
        b = grown (allConditions (gs ++ [.rows columns values])) := by
  cases h : whereIn columns values with
  | error e =>
    refine ⟨nofun, fun ⟨haccepted, _⟩ => ?_⟩
    obtain ⟨r, hr⟩ := haccepted hvalues
    rw [h] at hr
    cases hr
  | ok r =>
    obtain ⟨condition, cells⟩ := r
    have hrows : (Given.rows columns values).collected? = some ⟨[.text condition], cells⟩ := by
      rw [Given.collected?, if_pos hvalues, h]
      rfl
    have hgiven : (Given.conditions (.text condition) (.list cells)).collected?
        = some ⟨[.text condition], cells⟩ := by
      have hparts : (Value.text condition).parts.filter Value.truth = [.text condition] :=
        List.filter_cons_of_pos (truth_whereIn h)
      rw [Given.collected?, hparts]
      rfl
    rw [ok_bind, extend_eq_ok, allConditions_append hrows, allConditions_append hgiven]
    refine and_congr_left fun _ => ⟨fun _ _ => ⟨_, h⟩, fun _ v hv => ?_⟩
    rw [List.mem_singleton.1 hv]
    rfl

/-- All calls are carried out when those that fill any one field are. -/
theorem forall_accepted {α : Type} (fill : α → String × Given) (calls : List α) :
    (∀ c ∈ calls, (fill c).2.Accepted) ↔
      ∀ field, ∀ g ∈ filling field (calls.map fill), g.Accepted := by
  simp only [filling, List.mem_filterMap, List.mem_map]
  constructor
  · rintro h field g ⟨_, ⟨c, hc, rfl⟩, hg⟩
    split at hg
    · cases hg
      exact h c hc
    · cases hg
  · intro h c hc
    exact h (fill c).1 (fill c).2 ⟨fill c, ⟨c, hc, rfl⟩, if_pos rfl⟩

end

end Querywright.Builder

namespace Querywright

open Builder

/-! ## Builders of selects -/

/-- What a call on a select builder gives to which field. -/
def SelectCall.given : SelectCall → String × Given
  | .table name => ("table_name", .value name)
  | .fields columns => ("fields", .members columns)
  | .filter texts params => ("where", .conditions texts params)
  | .filterIn columns values => ("where", .rows columns values)
  | .join joins => ("join", .members joins)
  | .groupBy columns => ("group_by", .members columns)
  | .having texts params => ("having", .conditions texts params)
  | .orderBy items => ("order_by", .members items)
  | .limit n => ("limit", .value n)
  | .offset n => ("offset", .value n)

namespace SelectBuilder

/-- The builder that has been given all that. -/
def collecting (table : Value) (given : List (String × Given)) : SelectBuilder where
  table := lastValue table (filling "table_name" given)
  fields := allMembers (filling "fields" given)
  filter := allConditions (filling "where" given)
  joins := allMembers (filling "join" given)
  groupBy := allMembers (filling "group_by" given)
  having := allConditions (filling "having" given)
  orderBy := allMembers (filling "order_by" given)
  offset := lastValue .null (filling "offset" given)
  limit := lastValue .null (filling "limit" given)

theorem apply_eq_ok {table : Value} {given : List (String × Given)} {c : SelectCall}
    {b : SelectBuilder} :
    (collecting table given).apply c = .ok b ↔
      c.given.2.Accepted ∧ b = collecting table (given ++ [c.given]) := by
  cases c with
  | filter texts params =>
    refine extend_eq_ok.trans ?_
    simp only [SelectCall.given, collecting, filling_append, String.reduceEq, reduceIte]
  | having texts params =>
    refine extend_eq_ok.trans ?_
    simp only [SelectCall.given, collecting, filling_append, String.reduceEq, reduceIte]
  | filterIn columns values =>
    rw [apply]
    by_cases hvalues : values.truth = true
    · rw [if_pos hvalues]
      refine (extend_whereIn hvalues).trans ?_
      simp only [SelectCall.given, collecting, filling_append, String.reduceEq, reduceIte]
    · have hnone : (Given.rows columns values).collected? = none := if_neg hvalues
      simp only [if_neg hvalues, SelectCall.given, collecting, filling_append, String.reduceEq,
        reduceIte, allConditions_append_none hnone, Except.ok.injEq]
      exact ⟨fun h => ⟨fun h' => absurd h' hvalues, h.symm⟩, fun h => h.2.symm⟩
  | _ =>
    simp only [apply, SelectCall.given, Given.Accepted, collecting, filling_append,
      lastValue_append, allMembers_append, String.reduceEq, reduceIte, Except.ok.injEq, true_and]
    exact eq_comm

theorem applyAll_eq_ok (table : Value) (calls : List SelectCall) (b : SelectBuilder) :
    applyAll { table := table } calls = .ok b ↔
      (∀ c ∈ calls, c.given.2.Accepted) ∧ b = collecting table (calls.map SelectCall.given) :=
  foldlM_eq_ok (fun calls => collecting table (calls.map SelectCall.given))
    (fun calls c b => by rw [List.map_append]; exact apply_eq_ok) calls b

end SelectBuilder

/-! ## Builders of updates and deletes -/

/-- What a call on an update builder gives to which field. -/
def UpdateCall.given : UpdateCall → String × Given
  | .set data => ("data", .entries data)
  | .filter texts params => ("where", .conditions texts params)
  | .returning columns => ("returning", .value columns)
  | .onConflict action => ("on_conflict", .value action)

/-- What a call on a delete builder gives to which field. -/
def DeleteCall.given : DeleteCall → String × Given
  | .filter texts params => ("where", .conditions texts params)
  | .returning columns => ("returning", .value columns)
  | .orderBy items => ("order_by", .members items)
  | .limit n => ("limit", .value n)
  | .offset n => ("offset", .value n)

/-- A table that counts as not given is refused. -/
theorem requireTable_of_not_truth {table : Value} (operation : String)
    (h : table.truth = false) :
    requireTable operation table = .error (.missingData operation "table_name") := by
  cases table with
  | text s =>
    obtain rfl : s = "" := by simpa [Value.truth] using h
    rfl
  | keyword k => cases h
  | _ => rfl

namespace UpdateBuilder

variable {table : Value} {given : List (String × Given)}

/-- The builder that has been given all that. -/
def collecting (table : Value) (given : List (String × Given)) : UpdateBuilder where
  table := table
  data := Entries.ofList (allAssigned (filling "data" given))
  filter := allConditions (filling "where" given)
  returning := lastValue .null (filling "returning" given)
  conflict := lastValue .null (filling "on_conflict" given)

theorem apply_eq_ok {c : UpdateCall} {b : UpdateBuilder} :
    (collecting table given).apply c = .ok b ↔
      c.given.2.Accepted ∧ b = collecting table (given ++ [c.given]) := by
  cases c with
  | filter texts params =>
    refine extend_eq_ok.trans ?_
    simp only [UpdateCall.given, collecting, filling_append, String.reduceEq, reduceIte]
  | set data =>
    simp only [UpdateCall.given, collecting, filling_append, String.reduceEq, reduceIte,
      Given.Accepted]
    cases data with
    | map columns =>
      rw [allAssigned_append, ← Entries.merge_ofList]
      simp only [apply, Except.ok.injEq]
      exact ⟨fun h => ⟨⟨columns, rfl⟩, h.symm⟩, fun h => h.2.symm⟩
    | _ => exact ⟨nofun, fun h => nomatch h.1⟩
  | _ =>
    simp only [apply, UpdateCall.given, Given.Accepted, collecting, filling_append,
      lastValue_append, String.reduceEq, reduceIte, Except.ok.injEq, true_and]
    exact eq_comm

theorem applyAll_eq_ok (table : Value) (calls : List UpdateCall) (b : UpdateBuilder) :
    applyAll { table := table } calls = .ok b ↔
      (∀ c ∈ calls, c.given.2.Accepted) ∧ b = collecting table (calls.map UpdateCall.given) :=
  foldlM_eq_ok (fun calls => collecting table (calls.map UpdateCall.given))
    (fun calls c b => by rw [List.map_append]; exact apply_eq_ok) calls b

/-- The record that has been built. -/
def record (b : UpdateBuilder) : Value :=
  .record .update [b.table, .map b.data, Collected.toField b.filter, b.returning, b.conflict]

/-- The statement is the one of the record, once columns are set. -/
theorem statement_eq (strict : Bool) (b : UpdateBuilder) :
    b.statement strict =
      if b.data.isEmpty then
        .error (.missingData "update" (if b.table.truth then "data" else "table_name"))
      else Statement.update strict b.record := by
  rw [statement, requireBuilderTable, requireBuilderData, Value.truth]
  cases htable : b.table.truth with
  | true =>
    cases b.data.isEmpty with
    | true => rfl
    | false => rfl
  | false =>
    have hrefused : requireTable "update" b.table = .error (.missingData "update" "table_name") :=
      requireTable_of_not_truth "update" htable
    cases b.data.isEmpty with
    | true => rfl
    | false =>
      change _ = (requireTable "update" b.table >>= _)
      rw [hrefused]
      rfl

end UpdateBuilder

namespace DeleteBuilder

variable {table : Value} {given : List (String × Given)}

/-- The builder that has been given all that. -/
def collecting (table : Value) (given : List (String × Given)) : DeleteBuilder where
  table := table
  filter := allConditions (filling "where" given)
  returning := lastValue .null (filling "returning" given)
  orderBy := allMembers (filling "order_by" given)
  limit := lastValue .null (filling "limit" given)
  offset := lastValue .null (filling "offset" given)

theorem apply_eq_ok {c : DeleteCall} {b : DeleteBuilder} :
    (collecting table given).apply c = .ok b ↔
      c.given.2.Accepted ∧ b = collecting table (given ++ [c.given]) := by
  cases c with
  | filter texts params =>
    refine extend_eq_ok.trans ?_
    simp only [DeleteCall.given, collecting, filling_append, String.reduceEq, reduceIte]
  | _ =>
    simp only [apply, DeleteCall.given, Given.Accepted, collecting, filling_append,
      lastValue_append, allMembers_append, String.reduceEq, reduceIte, Except.ok.injEq, true_and]
    exact eq_comm

theorem applyAll_eq_ok (table : Value) (calls : List DeleteCall) (b : DeleteBuilder) :
    applyAll { table := table } calls = .ok b ↔
      (∀ c ∈ calls, c.given.2.Accepted) ∧ b = collecting table (calls.map DeleteCall.given) :=
  foldlM_eq_ok (fun calls => collecting table (calls.map DeleteCall.given))
    (fun calls c b => by rw [List.map_append]; exact apply_eq_ok) calls b

/-- The record that has been built. -/
def record (b : DeleteBuilder) : Value :=
  .record .delete [b.table, Collected.toField b.filter, b.returning, listField b.orderBy,
    b.limit, b.offset]

theorem statement_eq (strict : Bool) (b : DeleteBuilder) :
    b.statement strict = Statement.delete strict b.record := by
  rw [statement, requireBuilderTable]
  cases htable : b.table.truth with
  | true => rfl
  | false =>
    have hrefused : requireTable "delete" b.table = .error (.missingData "delete" "table_name") :=
      requireTable_of_not_truth "delete" htable
    have hrecord : RecordKind.coerce .delete b.record = .ok b.record := rfl
    unfold Statement.delete
    rw [hrecord, ok_bind, record]
    dsimp only
    rw [show RecordKind.field .delete _ "table_name" = b.table from rfl, hrefused]
    rfl

end DeleteBuilder

/-! ## Chains of calls -/

/-- A chain of calls is carried out when each call is, and then leads to the builder in which every
field has what the calls that fill it give, in their order. So calls may change places if those
that fill the same field keep theirs. In an update, a column stands where it was set first and
holds the value it was set to last; the statement is the one of the built record. -/
theorem chained_calls_collect (table : Value) :
    (∀ calls b, SelectBuilder.applyAll { table := table } calls = .ok b ↔
      (∀ c ∈ calls, c.given.2.Accepted) ∧
        b = SelectBuilder.collecting table (calls.map SelectCall.given)) ∧
    (∀ calls calls' b, SelectBuilder.applyAll { table := table } calls = .ok b →
      (∀ field, filling field (calls.map SelectCall.given)
        = filling field (calls'.map SelectCall.given)) →
      SelectBuilder.applyAll { table := table } calls' = .ok b) ∧
    (∀ calls b, UpdateBuilder.applyAll { table := table } calls = .ok b ↔
      (∀ c ∈ calls, c.given.2.Accepted) ∧
        b = UpdateBuilder.collecting table (calls.map UpdateCall.given)) ∧
    (∀ calls b, UpdateBuilder.applyAll { table := table } calls = .ok b →
      let set := allAssigned (filling "data" (calls.map UpdateCall.given))
      b.data.keys = (Entries.keys set).eraseDupsBy (fun key k => k.sameKey key) ∧
        ∀ column, b.data.field? column = Entries.field? column set.reverse) ∧
    (∀ strict (b : UpdateBuilder), b.statement strict =
      if b.data.isEmpty then
        .error (.missingData "update" (if b.table.truth then "data" else "table_name"))
      else Statement.update strict b.record) ∧
    (∀ calls b, DeleteBuilder.applyAll { table := table } calls = .ok b ↔
      (∀ c ∈ calls, c.given.2.Accepted) ∧
        b = DeleteBuilder.collecting table (calls.map DeleteCall.given)) ∧
    ∀ strict (b : DeleteBuilder), b.statement strict = Statement.delete strict b.record := by
  refine ⟨SelectBuilder.applyAll_eq_ok table, fun calls calls' b h hsame => ?_,
    UpdateBuilder.applyAll_eq_ok table, fun calls b h => ?_, UpdateBuilder.statement_eq,
    DeleteBuilder.applyAll_eq_ok table, DeleteBuilder.statement_eq⟩
  · rw [SelectBuilder.applyAll_eq_ok, forall_accepted] at h ⊢
    obtain ⟨haccepted, rfl⟩ := h
    refine ⟨fun field => ?_, ?_⟩
    · rw [← hsame]
      exact haccepted field
    · simp only [SelectBuilder.collecting, hsame]
  · obtain ⟨-, rfl⟩ := (UpdateBuilder.applyAll_eq_ok table calls b).1 h
    exact ⟨Entries.keys_ofList _, fun column => Entries.field?_ofList _⟩

/-- A chain that fills every field but the joins, some of them twice. -/
def staffCalls : List SelectCall :=
  [.filter (.text "a = ?") (.int 1), .limit (.int 5), .fields (.text "id"),
    .filterIn (.list [.text "team", .text "role"])
      (.list [.list [.text "core", .text "dev"], .tuple [.text "ops", .text "sre"]]),
    .having (.list [.text "", .text "n > ?"]) (.tuple [.int 3]), .table (.text "staff"),
    .filterIn (.text "id") (.list []), .groupBy .null, .fields (.list [.text "name"]),
    .orderBy (.text "id"), .limit .null, .offset (.int 2)]

/-- The same calls, those that fill different fields in other places. -/
def staffCalls' : List SelectCall :=
  [.table (.text "staff"), .offset (.int 2), .limit (.int 5), .limit .null,
    .orderBy (.text "id"), .fields (.text "id"), .fields (.list [.text "name"]),
    .filter (.text "a = ?") (.int 1), .groupBy .null,
    .having (.list [.text "", .text "n > ?"]) (.tuple [.int 3]),
    .filterIn (.list [.text "team", .text "role"])
      (.list [.list [.text "core", .text "dev"], .tuple [.text "ops", .text "sre"]]),
    .filterIn (.text "id") (.list [])]

/-- A chain of an update that sets a column twice. -/
def rowCalls : List UpdateCall :=
  [.set (.map [(.text "a", .int 1), (.text "b", .int 2)]), .filter (.text "id = ?") (.int 9),
    .set (.map [(.text "c", .int 4), (.text "a", .int 3)])]

theorem chained_calls_collect_staff :
    ∃ b, SelectBuilder.applyAll { table := .text "users" } staffCalls = .ok b ∧
      SelectBuilder.applyAll { table := .text "users" } staffCalls' = .ok b ∧
      b.record true = .record .selectAll
        [.text "staff", .list [.text "id", .text "name"],
          .record .conditions
            [.tuple [.text "a = ?", .text "(team, role) IN (VALUES (?, ?), (?, ?))"],
              .tuple [.int 1, .text "core", .text "dev", .text "ops", .text "sre"]],
          .null, .list [], .record .conditions [.tuple [.text "n > ?"], .tuple [.int 3]],
          .list [.text "id"], .int 2, .null, .bool true] ∧
      ∃ u, UpdateBuilder.applyAll { table := .text "staff" } rowCalls = .ok u ∧
        u.data.keys = [.text "a", .text "b", .text "c"] ∧ u.data.field? "a" = some (.int 3) ∧
        u.statement true = .ok
          ⟨.text "UPDATE staff SET a = ?2, b = ?3, c = ?4 WHERE id = ?1",
            [.int 9, .int 3, .int 2, .int 4], .all⟩ := by
  have hselect : SelectBuilder.applyAll { table := .text "users" } staffCalls =
      .ok (SelectBuilder.collecting (.text "users") (staffCalls.map SelectCall.given)) := by
    rfl
  have hupdate : UpdateBuilder.applyAll { table := .text "staff" } rowCalls =
      .ok (UpdateBuilder.collecting (.text "staff") (rowCalls.map UpdateCall.given)) := by
    rfl
  have hmoved : ∀ field, filling field (staffCalls.map SelectCall.given)
      = filling field (staffCalls'.map SelectCall.given) := by
    intro field
    by_cases h : field ∈ staffCalls.map (·.given.1)
    · simp only [staffCalls, SelectCall.given, List.map_cons, List.map_nil, List.mem_cons,
        List.not_mem_nil, or_false] at h
      rcases h with rfl | rfl | rfl | rfl | rfl | rfl | rfl | rfl | rfl | rfl | rfl | rfl <;> rfl
    · have hother : ∀ calls : List SelectCall,
          (∀ c ∈ calls, c.given.1 ∈ staffCalls.map (·.given.1)) →
            filling field (calls.map SelectCall.given) = [] := by
        intro calls hcalls
        refine List.filterMap_eq_nil_iff.2 fun g hg => if_neg ?_
        rintro rfl
        obtain ⟨c, hc, rfl⟩ := List.mem_map.1 hg
        exact h (hcalls c hc)
      rw [hother staffCalls (by decide), hother staffCalls' (by decide)]
  obtain ⟨-, hcommute, -⟩ := chained_calls_collect (.text "users")
  obtain ⟨hkeys, hlast⟩ := (chained_calls_collect (.text "staff")).2.2.2.1 _ _ hupdate
  refine ⟨_, hselect, hcommute _ _ _ hselect hmoved, ?_, _, hupdate, hkeys, hlast "a", ?_⟩
  · rfl
  · rfl

end Querywright
