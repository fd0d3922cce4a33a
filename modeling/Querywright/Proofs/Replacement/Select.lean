/-
  Selects written before and after the bound values are replaced.

  A written select has the same text, and the values that it binds are the replaced ones; so it
  is at every depth. A subquery is written without a look at the values around it, and a value
  leaves its placeholder whatever it is: `Filter.writeMark_replace` is that step, and the filter
  and the select follow it.
-/
import Querywright.Proofs.Replacement.Parts
import Querywright.Select.Compile

namespace Querywright

open Value

variable {g : Value → Value}

/-- The piece with replaced values. -/
def Piece.replace (g : Value → Value) (p : Piece) : Piece :=
  { p with arguments := p.arguments.map g }

/-- A list of values with each of them replaced. -/
def Value.replaceMembers (g : Value → Value) : Value → Value
  | .list items => .list (items.map g)
  | .tuple items => .tuple (items.map g)
  | v => v

/-- The written filter with replaced values. -/
def FilterPiece.replace (g : Value → Value) (f : FilterPiece) : FilterPiece :=
  { f with
    conditions := f.conditions.map fun c => { c with params := c.params.replaceMembers g }
    arguments := f.arguments.map g }

/-! ## Filters with subqueries -/

namespace Filter

/-- A value is replaced; a subquery binds replaced values. -/
def Slot.replace (g : Value → Value) : Slot → Slot
  | .inl v => .inl (g v)
  | .inr write => .inr fun preceding => (write preceding).map (Piece.replace g)

/-- Values left and values bound, replaced. -/
def replaceState (g : Value → Value) (state : List Slot × List Value) :
    List Slot × List Value :=
  (state.1.map (Slot.replace g), state.2.map g)

/-- One placeholder is replaced by the same text. -/
theorem writeMark_replace (clause condition : String) (preceding : Int) (total : Nat)
    (digits : List Char) (state : List Slot × List Value) :
    writeMark clause condition preceding total digits (replaceState g state)
      = (writeMark clause condition preceding total digits state).map
          (Prod.map id (replaceState g)) := by
  obtain ⟨slots, bound⟩ := state
  unfold writeMark
  split
  · rfl
  · cases slots with
    | nil => rfl
    | cons slot rest =>
      cases slot with
      | inl v =>
        simp only [replaceState, List.map_cons, Slot.replace, Except.map, Prod.map, id_eq,
          List.map_append, List.map_nil]
      | inr write =>
        simp only [replaceState, List.map_cons, Slot.replace, List.length_map]
        refine bind_commutes rfl fun piece _ => ?_
        simp only [pure, Except.pure, Except.map, Prod.map, id_eq, Piece.replace, replaceState,
          List.map_append]

theorem writeMarks_replace {σ τ : Type} {step : List Char → σ → Except Fault (List Char × σ)}
    {step' : List Char → τ → Except Fault (List Char × τ)} {f : σ → τ}
    (h : ∀ digits s, step' digits (f s) = (step digits s).map (Prod.map id f))
    (ls : List Placeholder.Lexeme) (s : σ) :
    writeMarks step' ls (f s) = (writeMarks step ls s).map (Prod.map id f) := by
  induction ls generalizing s with
  | nil => rfl
  | cons l rest ih =>
    cases l with
    | plain c =>
      rw [writeMarks, writeMarks]
      exact bind_commutes (ih s) fun written _ => rfl
    | mark digits =>
      rw [writeMarks, writeMarks]
      refine bind_commutes (h digits s) fun here _ => ?_
      exact bind_commutes (ih here.2) fun written _ => rfl

theorem writeConditions_replace (clause : String) (preceding : Int) (total : Nat)
    (conditions : List Value) (state : List Slot × List Value) :
    writeConditions clause preceding total conditions (replaceState g state)
      = (writeConditions clause preceding total conditions state).map
          (Prod.map id (replaceState g)) := by
  induction conditions generalizing state with
  | nil => rfl
  | cons v rest ih =>
    rw [writeConditions, writeConditions]
    cases v.asText? with
    | none => rfl
    | some condition =>
      dsimp only
      refine bind_same fun _ _ => ?_
      refine bind_commutes (writeMarks_replace (fun digits s =>
        writeMark_replace clause condition preceding total digits s) _ state) fun here _ => ?_
      exact bind_commutes (ih here.2) fun written _ => rfl

theorem inlineQueries_replace (clause : String) (preceding : Int) (conditions : List Value)
    (slots : List Slot) :
    inlineQueries clause preceding conditions (slots.map (Slot.replace g))
      = (inlineQueries clause preceding conditions slots).map (Prod.map id (List.map g)) := by
  rw [inlineQueries, inlineQueries, List.length_map]
  refine bind_commutes (writeConditions_replace clause preceding slots.length conditions
    (slots, [])) fun written _ => ?_
  obtain ⟨texts, left, bound⟩ := written
  simp only [Prod.map, id_eq, replaceState, List.isEmpty_map, List.length_map]
  split
  · rfl
  · exact bind_same fun _ _ => rfl

end Filter

/-! ## Filters -/

/-- Two selects that are written alike, but for the values that they bind. -/
def Select.WrittenAlike (g : Value → Value) (s s' : Select) : Prop :=
  ∀ strict p, s'.compile strict p = (s.compile strict p).map (Piece.replace g)

/-- Two filters that are written alike, but for the values that they bind. -/
def Filter.WrittenAlike (g : Value → Value) (f f' : Filter) : Prop :=
  ∀ strict clause p,
    f'.compile strict clause p = (f.compile strict clause p).map (FilterPiece.replace g)

/-- Joins that are written alike, but for the values that they bind. -/
def Joins.WrittenAlike (g : Value → Value) (j j' : Joins) : Prop :=
  j'.isGiven = j.isGiven ∧
    ∀ strict p, j'.compile strict p = (j.compile strict p).map (Prod.map id (List.map g))

namespace Value

/-- A subquery stays one, with its own values replaced. -/
theorem subquery?_replace (hg : KeepsPlain g) (v : Value) :
    (replace g .param v).subquery? = v.subquery?.map (replace g (.descriptor .selectAll)) := by
  cases hs : v.subquery? with
  | none =>
    have hbinds : Place.param.binds v = true := by rw [Place.binds, hs]; rfl
    rw [replace_of_binds hbinds, hg.subquery?_eq_none hs]
    rfl
  | some s =>
    have hbinds : Place.param.binds v = false := by rw [Place.binds, hs]; rfl
    rw [replace_inside hbinds]
    cases v with
    | builder options =>
      cases hs
      rfl
    | record kind fields =>
      unfold subquery? at hs
      dsimp only at hs
      split at hs
      · rename_i hselect
        cases hs
        rw [Option.map_some, RecordKind.replace_record]
        exact if_pos hselect
      · cases hs
    | _ => cases hs

theorem listsParams_subquery {v s : Value} (h : listsParams .param v = true)
    (hs : v.subquery? = some s) : listsParams (.descriptor .selectAll) s = true := by
  have hbinds : Place.param.binds v = false := by rw [Place.binds, hs]; rfl
  have hinside := listsParams_inside hbinds h
  cases v with
  | builder options =>
    cases hs
    exact hinside
  | record kind fields =>
    unfold subquery? at hs
    dsimp only at hs
    split at hs
    · cases hs
      rw [RecordKind.listsParams_record]
      exact hinside
    · cases hs
  | _ => cases hs

theorem items?_replace {v : Value} (h : Place.params.lists v = true) :
    (replace g .params v).items? = v.items?.map (List.map (replace g .param)) := by
  rw [replace_inside rfl]
  cases v with
  | null => rfl
  | list items | tuple items => exact congrArg some (replaceAll_eq_map .param items)
  | _ => cases h

theorem listsParams_items {v : Value} (h : listsParams .params v = true) :
    ∀ x ∈ v.items?.getD [], listsParams .param x = true := by
  have hlists := lists_of_listsParams h
  have hinside := listsParams_inside rfl h
  cases v with
  | null =>
    intro x hx
    cases hx
  | list items | tuple items => exact listsParamsAll_iff.1 hinside
  | _ => cases hlists

/-- Without a subquery every value of a condition set is replaced itself. -/
theorem map_replace_param {items : List Value} (h : ∀ x ∈ items, x.subquery? = none) :
    items.map (replace g .param) = items.map g := by
  refine List.map_congr_left fun x hx => replace_of_binds ?_
  rw [Place.binds, h x hx]
  rfl

theorem replace_params {v : Value} (h : Place.params.lists v = true)
    (hv : ∀ x ∈ v.items?.getD [], x.subquery? = none) :
    replace g .params v = v.replaceMembers g := by
  rw [replace_inside rfl]
  cases v with
  | null => rfl
  | list items =>
    rw [replaceInside, replaceMembers, replaceAll_eq_map]
    exact congrArg Value.list (map_replace_param hv)
  | tuple items =>
    rw [replaceInside, replaceMembers, replaceAll_eq_map]
    exact congrArg Value.tuple (map_replace_param hv)
  | _ => cases h

end Value

namespace Select

variable {read : Value → Select}

theorem hasQuery_replace (hg : KeepsPlain g) (items : List Value) :
    (readParams read (items.map (replace g .param))).hasQuery
      = (readParams read items).hasQuery := by
  induction items with
  | nil => rfl
  | cons v rest ih =>
    rw [List.map_cons, readParams_cons, readParams_cons, subquery?_replace hg]
    cases v.subquery? with
    | none => exact ih
    | some s => rfl

theorem slots_replace (hg : KeepsPlain g) (strict : Bool) {items : List Value}
    (hread : ∀ v ∈ items, ∀ s, v.subquery? = some s →
      WrittenAlike g (read s) (read (replace g (.descriptor .selectAll) s))) :
    (readParams read (items.map (replace g .param))).slots strict
      = ((readParams read items).slots strict).map (Filter.Slot.replace g) := by
  induction items with
  | nil => rfl
  | cons v rest ih =>
    obtain ⟨hv, hrest⟩ := List.forall_mem_cons.1 hread
    rw [List.map_cons, readParams_cons, readParams_cons, subquery?_replace hg]
    cases hs : v.subquery? with
    | none =>
      have hbinds : Place.param.binds v = true := by rw [Place.binds, hs]; rfl
      simp only [Option.map_none]
      rw [Params.slots, Params.slots, ih hrest, replace_of_binds hbinds]
      rfl
    | some s =>
      simp only [Option.map_some]
      rw [Params.slots, Params.slots, ih hrest]
      refine congrArg (· :: _) (congrArg Sum.inr ?_)
      funext preceding
      exact hv s hs strict preceding

end Select

namespace Filter

theorem compileEmpty_replace {clause : String} {source : ConditionSet}
    (h : Place.params.lists source.params = true) :
    compileEmpty clause (source.replace g)
      = (compileEmpty clause source).map (FilterPiece.replace g) := by
  rw [compileEmpty, compileEmpty, ConditionSet.replace, truth_replace rfl, items?_replace h]
  cases htruth : source.params.truth with
  | true =>
    rw [if_pos rfl, if_pos rfl]
    cases source.params.items? with
    | none => rfl
    | some items =>
      simp only [Option.map_some, List.length_map]
      rfl
  | false =>
    have hnone : ∀ x ∈ source.params.items?.getD [], x.subquery? = none := by
      intro x hx
      cases hp : source.params with
      | list items | tuple items =>
        rw [hp, truth, Bool.not_eq_false', List.isEmpty_iff] at htruth
        rw [hp, htruth] at hx
        cases hx
      | null =>
        rw [hp] at hx
        cases hx
      | _ =>
        rw [hp] at h
        cases h
    rw [if_neg Bool.false_ne_true, if_neg Bool.false_ne_true, replace_params h hnone]
    rfl

theorem compileGiven_replace (hg : KeepsPlain g) {read : Value → Select} (strict : Bool)
    (clause : String) (preceding : Int) {source : ConditionSet}
    (h : Place.params.lists source.params = true)
    (hread : ∀ v ∈ source.params.items?.getD [], ∀ s, v.subquery? = some s →
      Select.WrittenAlike g (read s) (read (replace g (.descriptor .selectAll) s))) :
    let items := source.params.items?.getD []
    let items' := items.map (replace g .param)
    compileGiven clause preceding (source.replace g) (Select.readParams read items').hasQuery
        ((Select.readParams read items').slots strict)
      = (compileGiven clause preceding source (Select.readParams read items).hasQuery
          ((Select.readParams read items).slots strict)).map (FilterPiece.replace g) := by
  intro items items'
  have hitems : (source.replace g).params.items
      = source.params.items.map (List.map (replace g .param)) := by
    rw [Value.items, Value.items, ConditionSet.replace, items?_replace h]
    cases source.params.items? <;> rfl
  rw [Select.hasQuery_replace hg, Select.slots_replace hg strict hread]
  rw [compileGiven, compileGiven]
  refine bind_commutes hitems fun params hparams => ?_
  cases hquery : (Select.readParams read items).hasQuery with
  | true =>
    rw [if_pos rfl, if_pos rfl]
    refine bind_same fun conditions _ => ?_
    refine bind_commutes (inlineQueries_replace clause preceding conditions _) fun written _ => ?_
    obtain ⟨texts, bound⟩ := written
    simp only [Prod.map, id_eq, List.length_map]
    exact bind_same fun _ _ => rfl
  | false =>
    have hnone : ∀ v ∈ items, v.subquery? = none := Select.subquery?_of_hasQuery hquery
    have hparams : items = params := by
      unfold Value.items at hparams
      split at hparams <;> cases hparams
      rename_i heq
      exact congrArg (Option.getD · []) heq
    rw [if_neg Bool.false_ne_true, if_neg Bool.false_ne_true, ← hparams, map_replace_param hnone]
    refine bind_same fun texts _ => ?_
    rw [List.length_map]
    refine bind_same fun _ _ => ?_
    rw [ConditionSet.replace, replace_params h hnone]
    rfl

end Filter

/-! ## Selects at every depth -/

theorem Select.WrittenAlike.mk {table : Value} {joins joins' : Joins}
    {filter filter' having having' : Filter} {clauses : Clauses}
    (hjoins : Joins.WrittenAlike g joins joins') (hfilter : Filter.WrittenAlike g filter filter')
    (hhaving : Filter.WrittenAlike g having having') :
    Select.WrittenAlike g (.mk table joins filter having clauses)
      (.mk table joins' filter' having' clauses) := by
  intro strict p
  rw [Select.compile, Select.compile]
  refine bind_same fun table _ => ?_
  refine bind_commutes (hjoins.2 strict p) fun written _ => ?_
  obtain ⟨joined, fromJoins⟩ := written
  simp only [Prod.map, id_eq, List.length_map]
  refine bind_commutes (hfilter strict _ _) fun filter _ => ?_
  simp only [FilterPiece.replace, List.length_map]
  refine bind_commutes (hhaving strict _ _) fun having _ => ?_
  rw [hjoins.1]
  refine bind_same fun sql _ => ?_
  simp only [pure, Except.pure, Except.map, Piece.replace, FilterPiece.replace, List.map_append]

namespace Joins.WrittenAlike

theorem invalid (cause : Fault) : Joins.WrittenAlike g (.invalid cause) (.invalid cause) := by
  refine ⟨rfl, fun strict p => ?_⟩
  rw [Joins.compile]
  rfl

theorem nil : Joins.WrittenAlike g .nil .nil := by
  refine ⟨rfl, fun strict p => ?_⟩
  rw [Joins.compile]
  rfl

theorem table {j : Join} {rest rest' : Joins} (h : Joins.WrittenAlike g rest rest') :
    Joins.WrittenAlike g (.table j rest) (.table j rest') := by
  refine ⟨rfl, fun strict p => ?_⟩
  rw [Joins.compile, Joins.compile]
  exact bind_commutes (h.2 strict p) fun written _ => rfl

theorem query {j : Join} {t : Value} {s s' : Select} {rest rest' : Joins}
    (hs : Select.WrittenAlike g s s') (h : Joins.WrittenAlike g rest rest') :
    Joins.WrittenAlike g (.query j s rest) (.query { j with table := t } s' rest') := by
  refine ⟨rfl, fun strict p => ?_⟩
  rw [Joins.compile, Joins.compile]
  refine bind_commutes (hs strict p) fun piece _ => ?_
  simp only [Piece.replace, List.length_map]
  refine bind_commutes (h.2 strict _) fun written _ => ?_
  simp only [pure, Except.pure, Except.map, Prod.map, id_eq, List.map_append]
  rfl

end Joins.WrittenAlike

namespace Select

theorem readJoins_writtenAlike {read : Value → Select} {joins : List Join}
    (hlisted : ∀ j ∈ joins, j.Listed)
    (hread : ∀ j ∈ joins,
      WrittenAlike g (read j.table) (read (replace g (.descriptor .selectAll) j.table))) :
    Joins.WrittenAlike g (readJoins read joins) (readJoins read (joins.map (Join.replace g))) := by
  induction joins with
  | nil => exact .nil
  | cons j rest ih =>
    obtain ⟨hj, hrest⟩ := List.forall_mem_cons.1 hlisted
    obtain ⟨hreadj, hreadrest⟩ := List.forall_mem_cons.1 hread
    rw [List.map_cons, readJoins, readJoins, Join.replace, isSelect_replace rfl]
    cases hselect : Join.isSelect j.table with
    | true => exact .query hreadj (ih hrest hreadrest)
    | false =>
      -- a table that is no select is a text, in which nothing is bound
      have htext : replace g (.descriptor .selectAll) j.table = j.table := by
        have := hj.1.resolve_right (Bool.eq_false_iff.1 hselect)
        rw [RecordKind.replace_descriptor]
        cases htable : j.table <;> rw [htable] at this <;> first | rfl | cases this
      rw [if_neg Bool.false_ne_true, if_neg Bool.false_ne_true, htext]
      exact .table (ih hrest hreadrest)

theorem readFilter_writtenAlike (hg : KeepsPlain g) {read : Value → Select} {v : Value}
    (h : listsParams (.descriptor .conditions) v = true)
    (hread : ∀ s, s.depth ≤ v.depth → listsParams (.descriptor .selectAll) s = true →
      WrittenAlike g (read s) (read (replace g (.descriptor .selectAll) s))) :
    Filter.WrittenAlike g (readFilter read v)
      (readFilter read (replace g (.descriptor .conditions) v)) := by
  intro strict clause p
  rw [readFilter, readFilter, ConditionSet.coerce_replace h]
  cases hc : ConditionSet.coerce v with
  | error e =>
    simp only [Except.map]
    rw [Filter.compile]
  | ok source? =>
    cases source? with
    | none =>
      simp only [Except.map, Option.map_none]
      rw [Filter.compile]
      rfl
    | some source =>
      have hparams := ConditionSet.listsParams_coerce h hc
      have hlists := lists_of_listsParams hparams
      simp only [Except.map, Option.map_some, readConditions]
      rw [Filter.compile, Filter.compile]
      have hempty : (source.replace g).isEmpty = source.isEmpty := rfl
      have hitems : (source.replace g).params.items?.getD []
          = (source.params.items?.getD []).map (replace g .param) := by
        rw [ConditionSet.replace, items?_replace hlists]
        cases source.params.items? <;> rfl
      rw [hempty, hitems]
      cases source.isEmpty with
      | true =>
        rw [if_pos rfl, if_pos rfl]
        exact Filter.compileEmpty_replace hlists
      | false =>
        rw [if_neg Bool.false_ne_true, if_neg Bool.false_ne_true]
        refine Filter.compileGiven_replace hg strict clause p hlists fun x hx s hs => hread s ?_ ?_
        · exact Nat.le_trans (depth_subquery? hs) (ConditionSet.depth_params hc x hx)
        · exact listsParams_subquery (listsParams_items hparams x hx) hs

theorem absent_writtenAlike : Filter.WrittenAlike g .absent .absent := by
  intro strict clause p
  rw [Filter.compile]
  rfl

/-- A WHERE or HAVING of any record that is read as a select. -/
theorem field_writtenAlike (hg : KeepsPlain g) {read : Value → Select} {kind : RecordKind}
    {fields : List Value} {name : String} (hname : name = "where" ∨ name = "having")
    (h : listsParamsFields kind.places fields = true)
    (hread : ∀ s, s.depth ≤ depthAll fields → listsParams (.descriptor .selectAll) s = true →
      WrittenAlike g (read s) (read (replace g (.descriptor .selectAll) s))) :
    Filter.WrittenAlike g (readFilter read (kind.field fields name))
      (readFilter read (kind.field (replaceFields g kind.places fields) name)) := by
  have hplace : kind.place name = .descriptor .conditions ∨ name ∉ kind.fieldNames := by
    rcases hname with rfl | rfl <;> cases kind <;> decide
  rcases hplace with hplace | habsent
  · have hlists := RecordKind.listsParams_field h name
    rw [hplace] at hlists
    rw [RecordKind.field_replace, hplace]
    refine readFilter_writtenAlike hg hlists fun s hs => hread s ?_
    exact Nat.le_trans hs (kind.depth_field fields name)
  · rw [RecordKind.field_of_not_mem habsent, RecordKind.field_of_not_mem habsent]
    exact absent_writtenAlike

theorem joins_writtenAlike {read : Value → Select} {kind : RecordKind} {fields : List Value}
    (h : listsParamsFields kind.places fields = true)
    (hread : ∀ s, s.depth ≤ depthAll fields → listsParams (.descriptor .selectAll) s = true →
      WrittenAlike g (read s) (read (replace g (.descriptor .selectAll) s))) :
    Joins.WrittenAlike g
      (match Join.ofValues (kind.field fields "join") with
        | .error e => .invalid e
        | .ok joins => readJoins read joins)
      (match Join.ofValues (kind.field (replaceFields g kind.places fields) "join") with
        | .error e => .invalid e
        | .ok joins => readJoins read joins) := by
  have hplace : kind.place "join" = .joins ∨ "join" ∉ kind.fieldNames := by
    cases kind <;> decide
  rcases hplace with hplace | habsent
  · have hlists := RecordKind.listsParams_field h "join"
    rw [hplace] at hlists
    rw [RecordKind.field_replace, hplace, Join.ofValues_replace hlists]
    cases hjoins : Join.ofValues (kind.field fields "join") with
    | error e => exact .invalid e
    | ok joins =>
      have hlisted := Join.listed_ofValues hlists hjoins
      refine readJoins_writtenAlike hlisted fun j hj => hread _ ?_ (hlisted j hj).2
      exact Nat.le_trans (Join.depth_table hjoins j hj) (kind.depth_field fields "join")
  · rw [RecordKind.field_of_not_mem habsent, RecordKind.field_of_not_mem habsent]
    exact .nil

/-- The fields of a select that hold nothing to bind. -/
theorem place_kept (kind : RecordKind) (name : String)
    (h : name ∈ ["table_name", "fields", "group_by", "order_by", "limit", "offset"]) :
    kind.place name = .kept := by
  simp only [List.mem_cons, List.not_mem_nil, or_false] at h
  rcases h with rfl | rfl | rfl | rfl | rfl | rfl <;> cases kind <;> decide

/-- Two selects of the same clauses whose joins and filters are written alike. -/
inductive PartsAlike (g : Value → Value) : Select → Select → Prop
  | mk {table : Value} {joins joins' : Joins} {filter filter' having having' : Filter}
      {clauses : Clauses} (hjoins : Joins.WrittenAlike g joins joins')
      (hfilter : Filter.WrittenAlike g filter filter')
      (hhaving : Filter.WrittenAlike g having having') :
      PartsAlike g (.mk table joins filter having clauses) (.mk table joins' filter' having' clauses)

namespace PartsAlike

theorem writtenAlike {s s' : Select} (h : PartsAlike g s s') : WrittenAlike g s s' := by
  obtain ⟨hjoins, hfilter, hhaving⟩ := h
  exact .mk hjoins hfilter hhaving

theorem withLimit {s s' : Select} (h : PartsAlike g s s') (limit : Value) :
    PartsAlike g (s.withLimit limit) (s'.withLimit limit) := by
  obtain ⟨hjoins, hfilter, hhaving⟩ := h
  exact .mk hjoins hfilter hhaving

theorem counting {s s' : Select} (h : PartsAlike g s s') :
    PartsAlike g s.counting s'.counting := by
  obtain ⟨hjoins, hfilter, hhaving⟩ := h
  exact .mk hjoins hfilter hhaving

end PartsAlike

theorem ofFields_partsAlike (hg : KeepsPlain g) {read : Value → Select} {kind : RecordKind}
    {fields : List Value} (h : listsParamsFields kind.places fields = true)
    (hread : ∀ s, s.depth ≤ depthAll fields → listsParams (.descriptor .selectAll) s = true →
      WrittenAlike g (read s) (read (replace g (.descriptor .selectAll) s))) :
    PartsAlike g (ofFields read kind fields)
      (ofFields read kind (replaceFields g kind.places fields)) := by
  unfold ofFields
  dsimp only
  rw [RecordKind.field_kept kind _ (place_kept kind "table_name" (by decide)),
    RecordKind.field_kept kind _ (place_kept kind "fields" (by decide)),
    RecordKind.field_kept kind _ (place_kept kind "group_by" (by decide)),
    RecordKind.field_kept kind _ (place_kept kind "order_by" (by decide)),
    RecordKind.field_kept kind _ (place_kept kind "limit" (by decide)),
    RecordKind.field_kept kind _ (place_kept kind "offset" (by decide))]
  exact .mk (joins_writtenAlike h hread) (field_writtenAlike hg (.inl rfl) h hread)
    (field_writtenAlike hg (.inr rfl) h hread)

/-- A select and the same select with replaced values are written alike, however deeply values
are nested in it. -/
theorem ofValue_partsAlike (hg : KeepsPlain g) (kind : RecordKind) {v : Value}
    (h : listsParams (.descriptor kind) v = true) :
    PartsAlike g (ofValue v) (ofValue (replace g (.descriptor kind) v)) := by
  induction hn : v.depth using Nat.strongRecOn generalizing kind v with
  | _ n ih =>
    cases v with
    | record given fields =>
      rw [RecordKind.listsParams_record] at h
      rw [RecordKind.replace_record, ofValue_record, ofValue_record]
      refine ofFields_partsAlike hg h fun s hs hlists => ?_
      have hdepth : s.depth < n := by
        rw [← hn]
        exact Nat.lt_succ_of_le hs
      exact (ih s.depth hdepth .selectAll hlists rfl).writtenAlike
    | _ =>
      rw [RecordKind.replace_descriptor]
      exact .mk .nil absent_writtenAlike absent_writtenAlike

end Select

end Querywright
