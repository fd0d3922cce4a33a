/-
  Requests for one row, whatever their paging.

  * `SameBut`: two lists that differ in elements of one sort only.
  * `SameButPaging`: two descriptors that differ in `limit` and `lazy` only.
  * `one_select`: a select record is requested as the mapping of its fields without paging.
  * `one_row_ignores_paging`: requests that differ in paging only have one outcome, and no rows are
    streamed.
-/
import Querywright.Proofs.Descriptor.Mapping
import Querywright.Proofs.Select.Reading
import Querywright.Proofs.Value.Key

namespace Querywright

/-- Two lists that are the same but for elements with the property, which either may have anywhere
among the others. -/
inductive SameBut {α : Type} (p : α → Prop) : List α → List α → Prop
  | nil : SameBut p [] []
  | both (x : α) {xs ys : List α} : SameBut p xs ys → SameBut p (x :: xs) (x :: ys)
  | left {x : α} {xs ys : List α} : p x → SameBut p xs ys → SameBut p (x :: xs) ys
  | right {y : α} {xs ys : List α} : p y → SameBut p xs ys → SameBut p xs (y :: ys)

theorem SameBut.filter_eq {α : Type} {p : α → Prop} {keep : α → Bool} {xs ys : List α}
    (hkeep : ∀ x, p x → keep x = false) (h : SameBut p xs ys) :
    xs.filter keep = ys.filter keep := by
  induction h with
  | nil => rfl
  | both x _ ih => rw [List.filter_cons, List.filter_cons, ih]
  | left hx _ ih => rw [List.filter_cons_of_neg (ne_true_of_eq_false (hkeep _ hx)), ih]
  | right hy _ ih => rw [List.filter_cons_of_neg (ne_true_of_eq_false (hkeep _ hy)), ih]

/-! ## Selects that differ in paging -/

/-- A select record with these fields, and with a limit and streaming of its own or without. -/
def SelectWith (shared : List Value) (v : Value) : Prop :=
  v = .record .selectOne shared ∨
    ∃ limit streamed, v = .record .selectAll (shared ++ [limit, streamed])

namespace RecordKind

variable {shared : List Value}

theorem zip_selectAll (h : shared.length = (fieldNames .selectOne).length)
    (limit streamed : Value) :
    (fieldNames .selectAll).zip (shared ++ [limit, streamed])
      = (fieldNames .selectOne).zip shared ++ [("limit", limit), ("lazy", streamed)] :=
  List.zip_append h.symm

/-- The fields that are not paging. -/
theorem field_selectAll (h : shared.length = (fieldNames .selectOne).length)
    (limit streamed : Value) {name : String} (hlimit : name ≠ "limit") (hlazy : name ≠ "lazy") :
    field .selectAll (shared ++ [limit, streamed]) name = field .selectOne shared name := by
  have hpaging : [("limit", limit), ("lazy", streamed)].lookup name = none := by
    rw [List.lookup_cons, beq_false_of_ne hlimit, List.lookup_cons, beq_false_of_ne hlazy]
    rfl
  rw [field, field, zip_selectAll h, List.lookup_append, hpaging, Option.or_none]

end RecordKind

open RecordKind

namespace Select

variable {shared : List Value}

/-- Given another limit, a select is the same whatever its own paging was. -/
theorem withLimit_selectAll (h : shared.length = (fieldNames .selectOne).length)
    (limit streamed another : Value) :
    (ofValue (.record .selectAll (shared ++ [limit, streamed]))).withLimit another
      = (ofValue (.record .selectOne shared)).withLimit another := by
  rw [ofValue_record, ofValue_record, ofFields, ofFields]
  simp only [withLimit]
  repeat rw [field_selectAll h limit streamed (by decide) (by decide)]

theorem counting_withLimit (select : Select) (limit : Value) :
    (select.withLimit limit).counting = select.counting := by
  cases select
  rfl

end Select

namespace Request

variable {strict : Bool} {descriptor descriptor' v : Value} {options options' : Options}
  {shared : List Value}

/-- One row of a select, and the number of its rows. -/
def oneOf (strict : Bool) (select : Value) : Except Fault (Query Runner) := do
  let statement ← Statement.selectOne strict select
  let count ← Statement.count strict select
  return { collected statement with companion := some (count, none) }

theorem one_eq : one strict descriptor options = (do
    let narrowed ← singleRow descriptor options
    let select ← described .selectOne narrowed (optionsWithoutPaging options)
    oneOf strict select) := rfl

/-- The statement that reads one row of a select. -/
def oneRow (strict : Bool) (select : Select) : Except Fault Statement := do
  let piece ← select.compile strict 0
  return ⟨.text piece.sql, piece.arguments, .one⟩

/-- What is read from a select record besides its limit. -/
theorem oneOf_eq (h : Join.isSelect v = true) : oneOf strict v = (do
    let statement ← oneRow strict ((Select.ofValue v).withLimit (.int 1))
    let count ← oneRow strict (Select.ofValue v).counting
    return { collected statement with companion := some (count, none) }) := by
  unfold Join.isSelect at h
  split at h
  next kind fields =>
    rw [Bool.or_eq_true, beq_iff_eq, beq_iff_eq] at h
    obtain rfl | rfl := h <;> rfl
  next => cases h

/-- One row of a select is the same row whatever its paging. -/
theorem oneOf_select (h : shared.length = (fieldNames .selectOne).length)
    (hv : SelectWith shared v) : oneOf strict v = oneOf strict (.record .selectOne shared) := by
  obtain rfl | ⟨limit, streamed, rfl⟩ := hv
  · rfl
  · have hcounting : (Select.ofValue (.record .selectAll (shared ++ [limit, streamed]))).counting
        = (Select.ofValue (.record .selectOne shared)).counting := by
      rw [← Select.counting_withLimit _ .null, Select.withLimit_selectAll h,
        Select.counting_withLimit]
    rw [oneOf_eq rfl, oneOf_eq rfl, Select.withLimit_selectAll h, hcounting]

/-! ## Mappings, records and options -/

/-- The name of an entry that is paging. -/
def PagingKey (key : Value) : Prop := key.asText? = some "limit" ∨ key.asText? = some "lazy"

theorem isPaging_iff {key : Value} : isPaging key = true ↔ PagingKey key := by
  rw [isPaging, pagingNames, List.any_cons, List.any_cons, List.any_nil, Bool.or_false,
    Bool.or_eq_true, Value.sameKey_text, Value.sameKey_text, beq_iff_eq, beq_iff_eq]
  rfl

theorem withoutPaging_eq {entries entries' : Entries}
    (h : SameBut (fun e => PagingKey e.1) entries entries') :
    withoutPaging entries = withoutPaging entries' :=
  h.filter_eq fun _ hkey => by rw [isPaging_iff.2 hkey, Bool.not_true]

theorem optionsWithoutPaging_eq
    (h : SameBut (fun o => o.1 = "limit" ∨ o.1 = "lazy") options options') :
    optionsWithoutPaging options = optionsWithoutPaging options' := by
  refine h.filter_eq fun o hname => ?_
  rw [pagingNames, List.contains_iff_mem.2 (by simpa using hname), Bool.not_true]

theorem withoutPaging_selectOne (shared : List Value) :
    withoutPaging (toEntries .selectOne shared) = toEntries .selectOne shared := by
  refine List.filter_eq_self.2 fun e he => ?_
  obtain ⟨p, hp, rfl⟩ := List.mem_map.1 he
  have hnames : ∀ name ∈ fieldNames .selectOne, (!isPaging (.text name)) = true := by decide
  exact hnames p.1 (List.of_mem_zip hp).1

/-- The fields of a select without paging. -/
theorem fieldsOf_select (h : shared.length = (fieldNames .selectOne).length)
    (hv : SelectWith shared v) : ∃ entries, fieldsOf v = .ok entries ∧
      withoutPaging entries = toEntries .selectOne shared := by
  obtain rfl | ⟨limit, streamed, rfl⟩ := hv
  · exact ⟨_, rfl, withoutPaging_selectOne shared⟩
  · refine ⟨_, rfl, ?_⟩
    calc withoutPaging (toEntries .selectAll (shared ++ [limit, streamed]))
      _ = withoutPaging (toEntries .selectOne shared
            ++ [(.text "limit", limit), (.text "lazy", streamed)]) := by
        rw [toEntries, zip_selectAll h, List.map_append]
        rfl
      _ = toEntries .selectOne shared ++ [] := by
        rw [withoutPaging, List.filter_append, ← withoutPaging, withoutPaging_selectOne]
        rfl
      _ = toEntries .selectOne shared := List.append_nil _

/-- A select record is requested as the mapping of its fields without paging. -/
theorem one_select (h : shared.length = (fieldNames .selectOne).length)
    (hv : SelectWith shared v) :
    one strict v options = (do
      let select ← described .selectOne (.map (toEntries .selectOne shared))
        (optionsWithoutPaging options)
      oneOf strict select) := by
  obtain ⟨entries, hentries, hshared⟩ := fieldsOf_select h hv
  -- without options the record itself is read, and only with them its fields
  cases options with
  | nil =>
    have hread : described .selectOne (.map (toEntries .selectOne shared)) []
        = .ok (.record .selectOne shared) := (describes_toEntries h).fromMapping_eq
    have hself : one strict v [] = oneOf strict v := by
      obtain rfl | ⟨limit, streamed, rfl⟩ := hv <;> rfl
    rw [hself, oneOf_select h hv, optionsWithoutPaging, List.filter_nil, hread, ok_bind]
  | cons o rest =>
    have hnarrowed : singleRow v (o :: rest) = .ok (.map (toEntries .selectOne shared)) := by
      have hjoined : singleRow v (o :: rest)
          = (fieldsOf v >>= fun entries => pure (.map (withoutPaging entries))) := by
        obtain rfl | ⟨limit, streamed, rfl⟩ := hv <;> rfl
      rw [hjoined, hentries, ok_bind, hshared]
      rfl
    rw [one_eq, hnarrowed, ok_bind]

/-! ## Requests that differ in paging -/

/-- Two descriptors that are the same but for paging: none, two mappings, or two select records. -/
inductive SameButPaging : Value → Value → Prop
  | none : SameButPaging .null .null
  | mapping {entries entries' : Entries} :
      SameBut (fun e => PagingKey e.1) entries entries' →
      SameButPaging (.map entries) (.map entries')
  | select {shared : List Value} {v v' : Value} :
      shared.length = (fieldNames .selectOne).length → SelectWith shared v →
      SelectWith shared v' → SameButPaging v v'

/-- A request for one row has one outcome, the same statements or the same fault, however `limit`
and `lazy` are added, changed or left out: among the entries of its mapping, as fields of its select
record, or among its options. Its rows are not streamed. -/
theorem one_row_ignores_paging (strict : Bool) (hd : SameButPaging descriptor descriptor')
    (ho : SameBut (fun o => o.1 = "limit" ∨ o.1 = "lazy") options options') :
    one strict descriptor options = one strict descriptor' options' ∧
      ∀ q, one strict descriptor options = .ok q → q.streamed = .bool false := by
  refine ⟨?_, fun q h => ?_⟩
  · have hoptions := optionsWithoutPaging_eq ho
    cases hd with
    | none =>
      show (described .selectOne .null (optionsWithoutPaging options) >>= oneOf strict)
        = described .selectOne .null (optionsWithoutPaging options') >>= oneOf strict
      rw [hoptions]
    | @mapping entries entries' hentries =>
      show (described .selectOne (.map (withoutPaging entries)) (optionsWithoutPaging options)
          >>= oneOf strict)
        = described .selectOne (.map (withoutPaging entries')) (optionsWithoutPaging options')
          >>= oneOf strict
      rw [hoptions, withoutPaging_eq hentries]
    | select h hv hv' => rw [one_select h hv, one_select h hv', hoptions]
  · simp only [one, bind_eq_ok, pure_eq_ok] at h
    obtain ⟨narrowed, -, select, -, statement, -, count, -, rfl⟩ := h
    rfl

/-- A limit that is no number, and rows to be streamed, in a record and beside it. -/
theorem one_row_ignores_paging_staff :
    let shared : List Value := [.text "staff", .null, .null, .null, .null, .null, .null, .null]
    (∃ q, one true (.record .selectAll (shared ++ [.text "many", .bool true]))
        [("limit", .int (-1)), ("orderBy", .text "id")] = .ok q ∧
      q.streamed = .bool false ∧
      one true (.record .selectOne shared) [("orderBy", .text "id"), ("lazy", .null)] = .ok q ∧
      q.statement.query = .text "SELECT * FROM staff ORDER BY id LIMIT 1") ∧
    ∃ fault, one true (.map [(.text "lazy", .int 1)]) [] = .error fault ∧
      one true (.map []) [("limit", .int 5)] = .error fault := by
  intro shared
  have hrecords : SameButPaging (.record .selectAll (shared ++ [.text "many", .bool true]))
      (.record .selectOne shared) := .select rfl (.inr ⟨_, _, rfl⟩) (.inl rfl)
  have hoptions : SameBut (fun o : String × Value => o.1 = "limit" ∨ o.1 = "lazy")
      [("limit", .int (-1)), ("orderBy", .text "id")] [("orderBy", .text "id"), ("lazy", .null)] :=
    .left (.inl rfl) (.both _ (.right (.inr rfl) .nil))
  obtain ⟨hsame, hstreamed⟩ := one_row_ignores_paging true hrecords hoptions
  have hone : one true (.record .selectOne shared) [("orderBy", .text "id"), ("lazy", .null)]
      = .ok _ := rfl
  have hmappings : SameButPaging (.map [(.text "lazy", .int 1)]) (.map []) :=
    .mapping (.left (.inr rfl) .nil)
  have hlimit : SameBut (fun o : String × Value => o.1 = "limit" ∨ o.1 = "lazy") []
      [("limit", .int 5)] := .right (.inl rfl) .nil
  have hrefused : one true (.map []) [("limit", .int 5)] = .error _ := rfl
  exact ⟨⟨_, hsame.trans hone, hstreamed _ (hsame.trans hone), hone, rfl⟩,
    _, (one_row_ignores_paging true hmappings hlimit).1.trans hrefused, hrefused⟩

end Request

end Querywright
