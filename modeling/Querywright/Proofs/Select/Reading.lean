/-
  Reading a select does not depend on the bound of its nesting.

  Whatever select record is read inside another one is nested less deeply (`depth_subquery?`,
  `ConditionSet.depth_params`, `Join.depth_table`), so the fields of a record are read with
  `Select.ofValue` itself: `Select.ofValue_record`.
-/
import Querywright.Proofs.Outcome
import Querywright.Proofs.Value.Lookup
import Querywright.Select.Tree

namespace Querywright

/-! ## Depths of parts -/

namespace Value

theorem depth_le_of_mem {v : Value} {items : List Value} (h : v ∈ items) :
    v.depth ≤ depthAll items := by
  induction items with
  | nil => cases h
  | cons x rest ih =>
    rw [depthAll]
    rcases List.mem_cons.1 h with rfl | h
    · exact Nat.le_max_left _ _
    · exact Nat.le_trans (ih h) (Nat.le_max_right _ _)

theorem depthAll_le {items : List Value} {n : Nat} (h : ∀ v ∈ items, v.depth ≤ n) :
    depthAll items ≤ n := by
  induction items with
  | nil => exact Nat.zero_le n
  | cons x rest ih =>
    obtain ⟨hx, hrest⟩ := List.forall_mem_cons.1 h
    rw [depthAll]
    exact Nat.max_le.2 ⟨hx, ih hrest⟩

theorem depth_le_of_mem_entries {k v : Value} {entries : Entries} (h : (k, v) ∈ entries) :
    k.depth ≤ depthEntries entries ∧ v.depth ≤ depthEntries entries := by
  induction entries with
  | nil => cases h
  | cons e rest ih =>
    obtain ⟨k', v'⟩ := e
    rw [depthEntries]
    rcases List.mem_cons.1 h with heq | h
    · cases heq
      omega
    · have := ih h
      omega

theorem depth_characters {s : String} : ∀ x ∈ characters s, x.depth = 0 := by
  intro x hx
  obtain ⟨c, _, rfl⟩ := List.mem_map.1 hx
  rfl

/-- What a value is walked through is nested no more deeply. -/
theorem depth_items? {v : Value} {items : List Value} (h : v.items? = some items) :
    ∀ x ∈ items, x.depth ≤ v.depth := by
  intro x hx
  cases v with
  | list l | tuple l | set l =>
    cases h
    exact Nat.le_succ_of_le (depth_le_of_mem hx)
  | map entries =>
    cases h
    obtain ⟨⟨k, w⟩, he, rfl⟩ := List.mem_map.1 hx
    exact Nat.le_succ_of_le (depth_le_of_mem_entries he).1
  | text s | keyword k =>
    cases h
    rw [depth_characters x hx]
    exact Nat.zero_le _
  | bytes bs | byteArray bs =>
    cases h
    obtain ⟨b, _, rfl⟩ := List.mem_map.1 hx
    exact Nat.zero_le _
  | _ => cases h

theorem depth_parts {v : Value} : ∀ x ∈ v.parts, x.depth ≤ v.depth := by
  intro x hx
  cases v with
  | null => cases hx
  | list l | tuple l => exact Nat.le_succ_of_le (depth_le_of_mem hx)
  | _ => exact Nat.le_of_eq (congrArg depth (List.mem_singleton.1 hx))

theorem depth_get? {key : Value} {entries : Entries} {v : Value}
    (h : entries.get? key = some v) : v.depth ≤ depthEntries entries := by
  induction entries with
  | nil => cases h
  | cons e rest ih =>
    obtain ⟨k, w⟩ := e
    rw [Entries.get?] at h
    rw [depthEntries]
    split at h
    · cases h
      omega
    · have := ih h
      omega

/-- A subquery is nested no more deeply than the value that stands for it. -/
theorem depth_subquery? {v s : Value} (h : v.subquery? = some s) : s.depth ≤ v.depth := by
  unfold subquery? at h
  split at h
  · cases h
    exact Nat.le_succ _
  · split at h
    · cases h
      exact Nat.le_refl _
    · cases h

theorem depth_getD {fields : List Value} {d : Value} (hd : d.depth = 0) (i : Nat) :
    (fields.getD i d).depth ≤ depthAll fields := by
  rw [List.getD_eq_getElem?_getD]
  cases h : fields[i]? with
  | none =>
    rw [Option.getD_none, hd]
    exact Nat.zero_le _
  | some v => exact depth_le_of_mem (List.mem_of_getElem? h)

end Value

open Value

/-! ## Depths of records -/

namespace RecordKind

theorem depth_field (kind : RecordKind) (fields : List Value) (name : String) :
    (kind.field fields name).depth ≤ depthAll fields := by
  rw [field]
  cases h : (kind.fieldNames.zip fields).lookup name with
  | none => exact Nat.zero_le _
  | some v =>
    exact depth_le_of_mem (List.of_mem_zip (mem_of_lookup_eq h)).2

theorem mem_of_assigned? {name : String} {given : List (String × Value)} {v : Value}
    (h : assigned? name given = some v) : (name, v) ∈ given := by
  induction given with
  | nil => cases h
  | cons e rest ih =>
    obtain ⟨n, w⟩ := e
    rw [assigned?] at h
    split at h
    · rename_i later hlater
      cases h
      exact List.mem_cons_of_mem _ (ih hlater)
    · split at h
      · rename_i hn
        cases h
        rw [hn]
        exact List.mem_cons_self
      · cases h

theorem depth_named {kind : RecordKind} {entries : Entries} {given : List (String × Value)}
    (h : kind.named entries = .ok given) : ∀ e ∈ given, e.2.depth ≤ depthEntries entries := by
  induction entries generalizing given with
  | nil =>
    cases h
    intro e he
    cases he
  | cons e rest ih =>
    obtain ⟨key, v⟩ := e
    rw [named] at h
    split at h
    · obtain ⟨more, hmore, rfl⟩ := map_eq_ok.1 h
      have hrest := ih hmore
      rw [List.forall_mem_cons, depthEntries]
      refine ⟨?_, fun e he => ?_⟩
      · exact Nat.le_trans (Nat.le_max_right _ _) (Nat.le_max_left _ _)
      · exact Nat.le_trans (hrest e he) (Nat.le_max_right _ _)
    · cases h

/-- Every default of the kind holds no other value. -/
def Flat (kind : RecordKind) : Prop := ∀ name d, kind.default? name = some d → d.depth = 0

theorem flat_of_ne {kind : RecordKind} (hconditions : kind ≠ .conditions)
    (hupdate : kind ≠ .update) : kind.Flat := by
  intro name d h
  cases kind with
  | conditions => exact absurd rfl hconditions
  | update => exact absurd rfl hupdate
  | _ =>
    simp only [default?] at h
    repeat' split at h
    all_goals cases h
    all_goals rfl

theorem flat_join : Flat .join := flat_of_ne (by decide) (by decide)

theorem flat_selectAll : Flat .selectAll := flat_of_ne (by decide) (by decide)

theorem depth_fromEntries {kind : RecordKind} (hk : kind.Flat) {entries : Entries}
    {fields : List Value} (h : kind.fromEntries entries = .ok fields) :
    depthAll fields ≤ depthEntries entries := by
  rw [fromEntries, bind_eq_ok] at h
  obtain ⟨given, hgiven, h⟩ := h
  split at h
  · cases h
  · cases h
    refine depthAll_le fun v hv => ?_
    obtain ⟨name, _, rfl⟩ := List.mem_map.1 hv
    cases ha : assigned? name given with
    | some w => exact depth_named hgiven _ (mem_of_assigned? ha)
    | none =>
      dsimp only
      cases hd : kind.default? name with
      | none => exact Nat.zero_le _
      | some d =>
        rw [Option.getD_some, hk name d hd]
        exact Nat.zero_le _

/-- A coerced value is a record of an accepted kind. -/
theorem coerce_eq_ok {kind : RecordKind} {v r : Value} (h : kind.coerce v = .ok r) :
    ∃ given fields, r = .record given fields ∧ kind.accepts given = true := by
  have hself : kind.accepts kind = true := by cases kind <;> rfl
  unfold coerce at h
  dsimp only at h
  split at h
  · rename_i given fields
    split at h
    · rename_i hgiven
      cases h
      exact ⟨given, fields, rfl, hgiven⟩
    · cases h
  · obtain ⟨fields, _, rfl⟩ := map_eq_ok.1 h
    exact ⟨kind, fields, rfl, hself⟩
  · split at h
    · rename_i given fields
      split at h
      · rename_i hgiven
        cases h
        exact ⟨given, fields, rfl, hgiven⟩
      · cases h
    · cases h
  · cases h

theorem depth_coerce {kind : RecordKind} (hk : kind.Flat) {v r : Value}
    (h : kind.coerce v = .ok r) : r.depth ≤ v.depth := by
  unfold coerce at h
  dsimp only at h
  split at h
  · split at h <;> cases h
    exact Nat.le_refl _
  · obtain ⟨fields, hfields, rfl⟩ := map_eq_ok.1 h
    exact Nat.succ_le_succ (depth_fromEntries hk hfields)
  · split at h
    · split at h <;> cases h
      exact Nat.le_succ _
    · cases h
  · cases h

end RecordKind

/-! ## Depths of filters and joins -/

namespace ConditionSet

theorem ofEntries_params {entries : Entries} {source : ConditionSet}
    (h : ofEntries entries = .ok source) :
    source.params = .tuple ((entries.field? "params").getD .null).parts := by
  unfold ofEntries at h
  split at h
  · cases h
  · split at h
    · rw [bind_eq_ok] at h
      obtain ⟨kept, _, h⟩ := h
      cases h
      rfl
    · cases h

/-- Where the values of a condition set come from: a record, a mapping, or nowhere. -/
theorem coerce_params {v : Value} {source : ConditionSet} (h : coerce v = .ok (some source)) :
    (∃ fields, v = .record .conditions fields ∧ source.params = fields.getD 1 (.tuple [])) ∨
    (∃ entries : Entries, v = .map entries ∧
      source.params = .tuple ((entries.field? "params").getD .null).parts) ∨
    source.params = .tuple [] := by
  unfold coerce at h
  split at h
  · cases h
  · rename_i fields
    cases h
    exact .inl ⟨fields, rfl, rfl⟩
  · split at h <;> cases h
    exact .inr (.inr rfl)
  · cases h
    exact .inr (.inr rfl)
  · rename_i entries
    obtain ⟨source', hsource, heq⟩ := map_eq_ok.1 h
    cases heq
    exact .inr (.inl ⟨entries, rfl, ofEntries_params hsource⟩)
  · obtain ⟨_, _, heq⟩ := map_eq_ok.1 h
    cases heq
    exact .inr (.inr rfl)
  · obtain ⟨_, _, heq⟩ := map_eq_ok.1 h
    cases heq
    exact .inr (.inr rfl)
  · cases h

theorem depth_params {v : Value} {source : ConditionSet} (h : coerce v = .ok (some source)) :
    ∀ x ∈ source.params.items?.getD [], x.depth ≤ v.depth := by
  intro x hx
  obtain ⟨fields, rfl, hparams⟩ | ⟨entries, rfl, hparams⟩ | hparams := coerce_params h
  · rw [hparams] at hx
    have hparam : (fields.getD 1 (.tuple [])).depth ≤ depthAll fields + 1 := by
      rw [List.getD_eq_getElem?_getD]
      cases hf : fields[1]? with
      | none => exact Nat.le_add_left 1 _
      | some w => exact Nat.le_succ_of_le (depth_le_of_mem (List.mem_of_getElem? hf))
    cases hi : (fields.getD 1 (.tuple [])).items? with
    | none =>
      rw [hi] at hx
      cases hx
    | some items =>
      rw [hi] at hx
      exact Nat.le_trans (depth_items? hi x hx) hparam
  · rw [hparams] at hx
    have hparts := depth_parts x hx
    cases hp : Entries.field? "params" entries with
    | none =>
      rw [hp] at hx
      cases hx
    | some w =>
      rw [hp] at hparts
      exact Nat.le_succ_of_le (Nat.le_trans hparts (depth_get? hp))
  · rw [hparams] at hx
    cases hx

end ConditionSet

namespace Join

theorem checkTable_eq_ok {v t : Value} (h : checkTable v = .ok t) :
    t = v ∧ (v.isText = true ∨ isSelect v = true) := by
  unfold checkTable at h
  split at h
  · rename_i hv
    cases h
    rw [Bool.and_eq_true, Bool.or_eq_true] at hv
    exact ⟨rfl, hv.1⟩
  · cases h

/-- What the table of a join is read from. -/
theorem readTable_eq_ok {v t : Value} (h : readTable v = .ok t) :
    (∃ entries fields, v = .map entries ∧
      RecordKind.fromEntries .selectAll entries = .ok fields ∧ t = .record .selectAll fields) ∨
    v = .builder t ∨ v = t := by
  rw [readTable, bind_eq_ok] at h
  obtain ⟨r, hr, hcheck⟩ := h
  obtain ⟨rfl, _⟩ := checkTable_eq_ok hcheck
  cases v with
  | map entries =>
    obtain ⟨fields, hfields, rfl⟩ := map_eq_ok.1 hr
    exact .inl ⟨entries, fields, rfl, hfields, rfl⟩
  | builder options =>
    cases hr
    exact .inr (.inl rfl)
  | _ =>
    cases hr
    exact .inr (.inr rfl)

theorem depth_readTable {v t : Value} (h : readTable v = .ok t) : t.depth ≤ v.depth := by
  rcases readTable_eq_ok h with ⟨entries, fields, rfl, hfields, rfl⟩ | rfl | rfl
  · exact Nat.succ_le_succ (RecordKind.depth_fromEntries RecordKind.flat_selectAll hfields)
  · exact Nat.le_succ _
  · exact Nat.le_refl _

/-- The table of a join is a text or a select. -/
theorem isText_or_isSelect {v t : Value} (h : readTable v = .ok t) :
    t.isText = true ∨ isSelect t = true := by
  rw [readTable, bind_eq_ok] at h
  obtain ⟨r, _, hcheck⟩ := h
  obtain ⟨rfl, hr⟩ := checkTable_eq_ok hcheck
  exact hr

theorem depth_ofValue {v : Value} {j : Join} (h : ofValue v = .ok j) :
    j.table.depth ≤ v.depth := by
  rw [ofValue, bind_eq_ok] at h
  obtain ⟨r, hr, h⟩ := h
  have hdepth := RecordKind.depth_coerce RecordKind.flat_join hr
  split at h
  · rename_i fields
    rw [bind_eq_ok] at h
    obtain ⟨t, ht, heq⟩ := h
    cases heq
    have htable := depth_readTable ht
    have hfield : (fields.getD 0 .null).depth ≤ depthAll fields := depth_getD rfl 0
    exact Nat.le_trans htable (Nat.le_trans hfield (Nat.le_of_succ_le hdepth))
  · cases h

theorem depth_given {v : Value} : ∀ x ∈ given v, x.depth ≤ v.depth := by
  intro x hx
  unfold given at hx
  split at hx
  · cases hs : v.sequence? with
    | none =>
      rw [hs] at hx
      exact Nat.le_of_eq (congrArg depth (List.mem_singleton.1 hx))
    | some items =>
      rw [hs] at hx
      have hitems : v.items? = some items := by
        cases v <;> cases hs <;> rfl
      exact depth_items? hitems x hx
  · cases hx

/-- The table of a join that is read from the joins of a select. -/
theorem depth_table {v : Value} {joins : List Join} (h : ofValues v = .ok joins) :
    ∀ j ∈ joins, j.table.depth ≤ v.depth := by
  intro j hj
  obtain ⟨x, hx, hjx⟩ := mem_of_mapM_eq_ok h j hj
  exact Nat.le_trans (depth_ofValue hjx) (depth_given x hx)

theorem isText_or_isSelect_of_mem {v : Value} {joins : List Join} (h : ofValues v = .ok joins) :
    ∀ j ∈ joins, j.table.isText = true ∨ isSelect j.table = true := by
  intro j hj
  obtain ⟨x, -, hx⟩ := mem_of_mapM_eq_ok h j hj
  rw [ofValue, bind_eq_ok] at hx
  obtain ⟨r, -, hx⟩ := hx
  split at hx
  · obtain ⟨t, ht, heq⟩ := bind_eq_ok.1 hx
    cases heq
    exact isText_or_isSelect ht
  · cases hx

end Join

/-! ## Reading with enough levels -/

namespace Select

theorem readParams_congr {read read' : Value → Select} {items : List Value}
    (h : ∀ v ∈ items, ∀ s, v.subquery? = some s → read s = read' s) :
    readParams read items = readParams read' items := by
  induction items with
  | nil => rfl
  | cons v rest ih =>
    obtain ⟨hv, hrest⟩ := List.forall_mem_cons.1 h
    rw [readParams_cons, readParams_cons]
    cases hs : v.subquery? with
    | none =>
      dsimp only
      rw [ih hrest]
    | some s =>
      dsimp only
      rw [hv s hs, ih hrest]

/-- Where no subquery is read, no value stands for one. -/
theorem subquery?_of_hasQuery {read : Value → Select} {items : List Value}
    (h : (readParams read items).hasQuery = false) : ∀ v ∈ items, v.subquery? = none := by
  induction items with
  | nil =>
    intro v hv
    cases hv
  | cons v rest ih =>
    rw [readParams_cons] at h
    cases hs : v.subquery? with
    | none =>
      rw [hs] at h
      exact List.forall_mem_cons.2 ⟨hs, ih h⟩
    | some s =>
      rw [hs] at h
      cases h

theorem readFilter_congr {read read' : Value → Select} {v : Value}
    (h : ∀ s, s.depth ≤ v.depth → read s = read' s) : readFilter read v = readFilter read' v := by
  unfold readFilter
  cases hc : ConditionSet.coerce v with
  | error e => rfl
  | ok source? =>
    cases source? with
    | none => rfl
    | some source =>
      refine congrArg (Filter.given source) (readParams_congr fun x hx s hs => h s ?_)
      exact Nat.le_trans (depth_subquery? hs) (ConditionSet.depth_params hc x hx)

theorem readJoins_congr {read read' : Value → Select} {joins : List Join}
    (h : ∀ j ∈ joins, read j.table = read' j.table) :
    readJoins read joins = readJoins read' joins := by
  induction joins with
  | nil => rfl
  | cons j rest ih =>
    obtain ⟨hj, hrest⟩ := List.forall_mem_cons.1 h
    rw [readJoins, readJoins, hj, ih hrest]

theorem ofFields_congr {read read' : Value → Select} {kind : RecordKind} {fields : List Value}
    (h : ∀ s, s.depth ≤ depthAll fields → read s = read' s) :
    ofFields read kind fields = ofFields read' kind fields := by
  have hfilter : ∀ name, readFilter read (kind.field fields name)
      = readFilter read' (kind.field fields name) := fun name =>
    readFilter_congr fun s hs => h s (Nat.le_trans hs (kind.depth_field fields name))
  unfold ofFields
  dsimp only
  rw [hfilter, hfilter]
  cases hj : Join.ofValues (kind.field fields "join") with
  | error e => rfl
  | ok joins =>
    have hjoins : readJoins read joins = readJoins read' joins :=
      readJoins_congr fun j hm => h _
        (Nat.le_trans (Join.depth_table hj j hm) (kind.depth_field fields "join"))
    dsimp only
    rw [hjoins]

/-- More levels than the depth change nothing. -/
theorem ofRecord_congr {m n : Nat} {v : Value} (hm : v.depth ≤ m) (hn : v.depth ≤ n) :
    ofRecord m v = ofRecord n v := by
  induction m generalizing n v with
  | zero =>
    cases v with
    | record kind fields => cases hm
    | _ => cases n <;> rfl
  | succ m ih =>
    cases v with
    | record kind fields =>
      cases n with
      | zero => cases hn
      | succ n =>
        refine ofFields_congr fun s hs => ih ?_ ?_
        · exact Nat.le_trans hs (Nat.le_of_succ_le_succ hm)
        · exact Nat.le_trans hs (Nat.le_of_succ_le_succ hn)
    | _ => cases n <;> rfl

/-- The fields of a select record, each read as deeply as it is nested. -/
theorem ofValue_record (kind : RecordKind) (fields : List Value) :
    ofValue (.record kind fields) = ofFields ofValue kind fields := by
  exact ofFields_congr fun s hs => ofRecord_congr hs (Nat.le_refl _)

end Select
end Querywright
