/-
  Compiled statements reach PostgreSQL with the values that they bind.

  * `Sent`: the translation of a statement succeeds, the driver's marker check passes on it, and the
    value sent for each placeholder is the argument that its index names. A statement whose
    placeholders all name arguments is so (`exists_sent`).
  * `UpdateSends`, `UpsertSends`: the order of the values of an update and of an upsert.
  * `compiled_sends_arguments`: so is every statement that is compiled from sound texts.
-/
import Querywright.Proofs.Dialect.Format
import Querywright.Proofs.Statement.Covered

namespace Querywright.Dialect

open Placeholder Statement

/-! ## Values by their indexes -/

/-- The value that an index names. -/
def named? (arguments : List Value) (index : Int) : Option Value := arguments[(index - 1).toNat]?

/-- Indexes that name arguments find them. -/
theorem exists_named {arguments : List Value} {is : List Int}
    (h : ∀ i ∈ is, 1 ≤ i ∧ i ≤ arguments.length) :
    ∃ values, is.mapM (argumentAt arguments) = .ok values ∧
      values.map some = is.map (named? arguments) := by
  induction is with
  | nil => exact ⟨[], rfl, rfl⟩
  | cons i is ih =>
    obtain ⟨⟨hpos, hle⟩, hrest⟩ := List.forall_mem_cons.1 h
    obtain ⟨values, hvalues, hnamed⟩ := ih hrest
    have hlt : (i - 1).toNat < arguments.length := by omega
    have hfound : named? arguments i = some arguments[(i - 1).toNat] := List.getElem?_eq_getElem hlt
    have hhere : argumentAt arguments i = .ok arguments[(i - 1).toNat] := by
      have hzero : i ≠ 0 := by omega
      rw [argumentAt, if_neg hzero, ← named?, hfound]
    refine ⟨arguments[(i - 1).toNat] :: values, ?_, ?_⟩
    · rw [List.mapM_cons, hhere, ok_bind, hvalues]
      rfl
    · rw [List.map_cons, List.map_cons, hnamed, hfound]

/-- The indexes of a range name the values that stand there. -/
theorem named?_indexes (before bound after : List Value) :
    (Clause.indexes before.length bound.length).map (named? (before ++ bound ++ after))
      = bound.map some := by
  induction bound generalizing before with
  | nil => rfl
  | cons v rest ih =>
    have hrest := ih (before ++ [v])
    have hlength : ((before ++ [v]).length : Int) = before.length + 1 := by simp
    have hsplit : before ++ [v] ++ rest ++ after = before ++ v :: rest ++ after := by simp
    have hhere : named? (before ++ v :: rest ++ after) (before.length + 1) = some v := by
      have hindex : ((before.length : Int) + 1 - 1).toNat = before.length := by omega
      rw [named?, hindex, List.append_assoc, List.getElem?_append_right (Nat.le_refl _),
        Nat.sub_self]
      rfl
    rw [hlength, hsplit] at hrest
    rw [List.length_cons, Clause.indexes_succ, List.map_cons, List.map_cons, hhere, hrest]

/-- Indexes that name the first values do not reach those behind. -/
theorem named?_append {before : List Value} {js : List Int}
    (h : ∀ j ∈ js, 1 ≤ j ∧ j ≤ before.length) (after : List Value) :
    js.map (named? (before ++ after)) = js.map (named? before) := by
  refine List.map_congr_left fun j hj => List.getElem?_append_left ?_
  have := h j hj
  omega

theorem eq_of_map_some {values values' : List Value} (h : values.map some = values'.map some) :
    values = values' :=
  (List.map_inj_right fun _ _ => Option.some.inj).1 h

/-! ## What is sent -/

/-- PostgreSQL is sent the statement with the query `sql`, whose placeholders take the indexes `is`:
its translation is `prepared`, which has a value for each marker, and the value of each placeholder
is the argument that its index names. -/
structure Sent (s : Statement) (sql : String) (is : List Int) (prepared : Prepared) : Prop where
  query : s.query = .text sql
  resolved : resolve sql 0 = .ok is
  translated : Dialect.postgres.translate s = .ok prepared
  checked : Adapter.Postgres.markersOf prepared.sql = .ok prepared.arguments.length
  named : ∀ i ∈ is, 1 ≤ i ∧ i ≤ s.arguments.length
  values : prepared.arguments.map some = is.map (named? s.arguments)

theorem exists_sent {s : Statement} {sql : String} {is : List Int} (h : Covered s sql is) :
    ∃ prepared, Sent s sql is prepared := by
  obtain ⟨values, hvalues, hnamed⟩ := exists_named h.named
  have hreach : highest 0 is ≤ s.arguments.length :=
    highest_le (Int.natCast_nonneg _) fun i hi => (h.named i hi).2
  have hformat : toFormat sql s.arguments = .ok ⟨formatText sql, values⟩ :=
    toFormat_eq_ok.2 ⟨is, values, h.resolved, hreach, hvalues, rfl⟩
  have hmarkers : countMarkers (formatText sql).toList = values.length := by
    rw [countMarkers_formatText]
    exact (length_toFormat hformat).symm
  refine ⟨⟨.text (formatText sql), values⟩, h.query, h.resolved, ?_, congrArg Except.ok hmarkers,
    h.named, hnamed⟩
  rw [translate, h.query]
  dsimp only [Value.asText?]
  rw [hformat]
  rfl

/-- The values that the placeholders of a filter bind, in the order of its text. -/
def BindsInText (strict : Bool) (clause : String) (filter : Filter) (values : List Value) : Prop :=
  ∃ f js, Guarded strict clause filter f js ∧ values.map some = js.map (named? f.arguments)

theorem Guarded.exists_values {strict : Bool} {clause : String} {filter : Filter} {f : FilterPiece}
    {js : List Int} (h : Guarded strict clause filter f js) :
    ∃ values, BindsInText strict clause filter values ∧
      values.map some = js.map (named? f.arguments) := by
  obtain ⟨values, -, hvalues⟩ := exists_named h.named
  exact ⟨values, ⟨f, js, h, hvalues⟩, hvalues⟩

/-- An update sends the values of SET in the order of the columns, and then those of WHERE in the
order of its text. -/
def UpdateSends (strict : Bool) (fields sent : List Value) : Prop :=
  ∃ (data : Entries) (wheres : List Value),
    (RecordKind.field .update fields "data").asMap? = some data ∧
    BindsInText strict "WHERE" (updateFilter fields) wheres ∧
    sent = Clause.boundValues data.values ++ wheres

/-- An upsert sends the values of the rows row by row, then those of DO UPDATE, and then those of
the guard in the order of its text. -/
def UpsertSends (strict : Bool) (fields sent : List Value) : Prop :=
  ∃ (rows : Table) (data : Entries) (guards : List Value),
    Table.ofData (RecordKind.field .insert fields "data") = .ok rows ∧
    (RecordKind.field .upsert (upsertOf fields) "data").asMap? = some data ∧
    BindsInText strict "ON CONFLICT WHERE" (upsertGuard (upsertOf fields)) guards ∧
    sent = Clause.boundValues rows.values.flatten ++ Clause.boundValues data.values ++ guards

theorem update_sends {strict : Bool} {v : Value} {s : Statement} (ht : (texts .update v).Sound)
    (h : update strict v = .ok s) :
    ∃ sql is prepared, Sent s sql is prepared ∧
      UpdateSends strict (fieldsOf .update v) prepared.arguments := by
  obtain ⟨sql, data, filter, js, hdata, hguarded, harguments, hcovered⟩ := update_covered ht h
  obtain ⟨prepared, hsent⟩ := exists_sent hcovered
  obtain ⟨wheres, hwheres, hvalues⟩ := Guarded.exists_values hguarded
  refine ⟨sql, _, prepared, hsent, data, wheres, hdata, hwheres, eq_of_map_some ?_⟩
  have hset := named?_indexes filter.arguments (Clause.boundValues data.values) []
  rw [List.append_nil] at hset
  -- SET names the values behind those of WHERE, and WHERE the ones before
  rw [hsent.values, List.map_append, List.map_append, harguments, hset,
    named?_append hguarded.named, hvalues]

theorem upsert_sends {strict : Bool} {v : Value} {s : Statement} (ht : (texts .insert v).Sound)
    (hu : isUpsert (RecordKind.field .insert (fieldsOf .insert v) "on_conflict") = true)
    (h : insert strict v = .ok s) :
    ∃ sql is prepared, Sent s sql is prepared ∧
      UpsertSends strict (fieldsOf .insert v) prepared.arguments := by
  obtain ⟨sql, rows, data, guard, js, hrows, hdata, hguarded, harguments, hcovered⟩ :=
    upsert_covered ht hu h
  obtain ⟨prepared, hsent⟩ := exists_sent hcovered
  obtain ⟨guards, hguards, hvalues⟩ := Guarded.exists_values hguarded
  refine ⟨sql, _, prepared, hsent, rows, data, guards, hrows, hdata, hguards, eq_of_map_some ?_⟩
  have hinserted := named?_indexes (guard.arguments ++ Clause.boundValues data.values)
    (Clause.boundValues rows.values.flatten) []
  have hset := named?_indexes guard.arguments (Clause.boundValues data.values)
    (Clause.boundValues rows.values.flatten)
  rw [List.append_nil, List.length_append] at hinserted
  rw [hsent.values, List.map_append, List.map_append, List.map_append, List.map_append, harguments,
    hinserted, hset, List.append_assoc guard.arguments, named?_append hguarded.named, hvalues]

/-! ## Every form -/

/-- Whether the descriptor is an insert with an upsert. -/
def isUpsertInsert (form : Form) (v : Value) : Bool :=
  form == .insert && isUpsert (RecordKind.field .insert (fieldsOf .insert v) "on_conflict")

/-- The order in which the values of an update and of an upsert are sent. -/
structure SendsInOrder (strict : Bool) (form : Form) (v : Value) (sent : List Value) : Prop where
  update : form = .update → UpdateSends strict (fieldsOf .update v) sent
  upsert : isUpsertInsert form v = true → UpsertSends strict (fieldsOf .insert v) sent

/-- Of the other statements it is known that their placeholders name arguments. -/
theorem exists_sent_other {strict : Bool} {form : Form} {v : Value} {s : Statement}
    (hupdate : form ≠ .update) (hupsert : isUpsertInsert form v = false)
    (h : ∃ sql is, Covered s sql is) :
    ∃ sql is prepared, Sent s sql is prepared ∧ SendsInOrder strict form v prepared.arguments := by
  obtain ⟨sql, is, hcovered⟩ := h
  obtain ⟨prepared, hsent⟩ := exists_sent hcovered
  refine ⟨sql, is, prepared, hsent, fun h => absurd h hupdate, fun h => ?_⟩
  rw [hupsert] at h
  cases h

/-- Every statement that is compiled from texts of which only conditions hold placeholders, none of
them numbered zero, is sent to PostgreSQL with the arguments that its placeholders name. -/
theorem compiled_sends_arguments {strict : Bool} {form : Form} {v : Value} {s : Statement}
    (hform : form ≠ .createTable ∧ form ≠ .dropTable) (ht : (texts form v).Sound)
    (h : (compile strict form v).2 = .ok s) :
    ∃ sql is prepared, Sent s sql is prepared ∧ SendsInOrder strict form v prepared.arguments := by
  cases form with
  | selectOne => exact exists_sent_other nofun rfl (selectOne_covered ht h)
  | selectAll => exact exists_sent_other nofun rfl (selectAll_covered ht h)
  | count => exact exists_sent_other nofun rfl (count_covered ht h)
  | delete => exact exists_sent_other nofun rfl (delete_covered ht h)
  | insert =>
    cases hu : isUpsertInsert .insert v with
    | false => exact exists_sent_other nofun hu (insert_covered ht hu h)
    | true =>
      obtain ⟨sql, is, prepared, hsent, hsends⟩ := upsert_sends ht hu h
      exact ⟨sql, is, prepared, hsent, nofun, fun _ => hsends⟩
  | update =>
    obtain ⟨sql, is, prepared, hsent, hsends⟩ := update_sends ht h
    exact ⟨sql, is, prepared, hsent, fun _ => hsends, nofun⟩
  | createTable => exact absurd rfl hform.1
  | dropTable => exact absurd rfl hform.2

/-- How many values PostgreSQL is sent of a descriptor, if its statement is compiled. -/
def sentCount (form : Form) (v : Value) : Option Nat :=
  (compile false form v).2.toOption.bind fun s =>
    (Dialect.postgres.translate s).toOption.map (·.arguments.length)

theorem exists_of_sentCount {form : Form} {v : Value} {n : Nat} (h : sentCount form v = some n) :
    ∃ s, (compile false form v).2 = .ok s ∧
      ∀ prepared, Dialect.postgres.translate s = .ok prepared → prepared.arguments.length = n := by
  rw [sentCount] at h
  cases hs : (compile false form v).2 with
  | error e =>
    rw [hs] at h
    cases h
  | ok s =>
    refine ⟨s, rfl, fun prepared hp => ?_⟩
    rw [hs] at h
    have hcount : (Dialect.postgres.translate s).toOption.map (·.arguments.length) = some n := h
    rw [hp] at hcount
    exact Option.some.inj hcount

theorem sound_of_marks {t : Texts}
    (hplain : ∀ x ∈ t.fragments, Balanced x.toList ∧ marks (lex x.toList) = [])
    (hconditions : ∀ x ∈ t.conditions, Balanced x.toList ∧ NonZero x) : t.Sound :=
  ⟨fun x hx => ⟨(hplain x hx).1, scan_eq_nil_iff.2 (hplain x hx).2⟩, hconditions⟩

set_option maxRecDepth 2000 in
theorem sentCount_sample :
    sentCount .update (.record .update sampleUpdate) = some 5 ∧
      sentCount .insert (.record .insert sampleInsert) = some 7 := by
  decide

theorem compiled_sends_arguments_sample :
    (∃ s sql is prepared, (compile false .update (.record .update sampleUpdate)).2 = .ok s ∧
      Sent s sql is prepared ∧ UpdateSends false sampleUpdate prepared.arguments ∧
      prepared.arguments.length = 5) ∧
    ∃ s sql is prepared, (compile false .insert (.record .insert sampleInsert)).2 = .ok s ∧
      Sent s sql is prepared ∧ UpsertSends false sampleInsert prepared.arguments ∧
      prepared.arguments.length = 7 := by
  have hupdate : (texts .update (.record .update sampleUpdate)).Sound :=
    sound_of_marks (by decide) (by decide)
  have hinsert : (texts .insert (.record .insert sampleInsert)).Sound :=
    sound_of_marks (by decide) (by decide)
  obtain ⟨hfive, hseven⟩ := sentCount_sample
  have hforms : (Form.update ≠ .createTable ∧ Form.update ≠ .dropTable) ∧
      Form.insert ≠ .createTable ∧ Form.insert ≠ .dropTable := by
    decide
  constructor
  · obtain ⟨s, hs, hcount⟩ := exists_of_sentCount hfive
    obtain ⟨sql, is, prepared, hsent, horder⟩ := compiled_sends_arguments hforms.1 hupdate hs
    exact ⟨s, sql, is, prepared, hs, hsent, horder.update rfl, hcount prepared hsent.translated⟩
  · obtain ⟨s, hs, hcount⟩ := exists_of_sentCount hseven
    obtain ⟨sql, is, prepared, hsent, horder⟩ := compiled_sends_arguments hforms.2 hinsert hs
    exact ⟨s, sql, is, prepared, hs, hsent, horder.upsert rfl, hcount prepared hsent.translated⟩

end Querywright.Dialect
