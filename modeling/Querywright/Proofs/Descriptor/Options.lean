/-
  Options over a descriptor.

  An option's entry takes the place of the descriptor's entry under the same name, or comes after
  all of them. It loses only to an entry behind that place which names the field once more, in the
  other spelling.

  * `NamedAgain`: the keys of a mapping name the field of an option again behind the option's name.
  * `latest?_put_own`, `latest?_put_again`, `latest?_put_other`: what one option changes.
  * `latest?_merge`: what the options of a call change.
  * `options_override_unless_named_again`: the fields of a record that a descriptor and options
    describe.
-/
import Querywright.Proofs.Descriptor.Mapping
import Querywright.Proofs.Select.Reading
import Querywright.Proofs.Value.Merging

namespace Querywright

open RecordKind

/-- The keys name the field of an option once more, behind the option's own name. -/
def NamedAgain (option : String) (keys : List Value) : Prop :=
  ∃ before key after, keys = before ++ key :: after ∧ key.asText? = some option ∧
    ∃ later ∈ after, fieldOfKey? later = some (fieldOfName option)

section

variable {option name : String} {key v : Value} {keys : List Value} {entries : Entries}

theorem not_namedAgain_nil : ¬NamedAgain option [] := by
  rintro ⟨before, key, after, hsplit, -⟩
  cases before <;> cases hsplit

theorem namedAgain_cons : NamedAgain option (key :: keys) ↔
    (key.asText? = some option ∧ ∃ later ∈ keys, fieldOfKey? later = some (fieldOfName option)) ∨
      NamedAgain option keys := by
  constructor
  · rintro ⟨before, key', after, hsplit, hkey, hlater⟩
    cases before with
    | nil =>
      cases hsplit
      exact .inl ⟨hkey, hlater⟩
    | cons first before =>
      cases hsplit
      exact .inr ⟨before, key', after, rfl, hkey, hlater⟩
  · rintro (⟨hkey, hlater⟩ | ⟨before, key', after, rfl, hkey, hlater⟩)
    · exact ⟨[], key, keys, rfl, hkey, hlater⟩
    · exact ⟨key :: before, key', after, rfl, hkey, hlater⟩

instance decidableNamedAgain (option : String) : ∀ keys, Decidable (NamedAgain option keys)
  | [] => .isFalse not_namedAgain_nil
  | _ :: keys =>
    have := decidableNamedAgain option keys
    decidable_of_iff _ namedAgain_cons.symm

/-- A field that is named again is named at all. -/
theorem NamedAgain.exists_later (h : NamedAgain option keys) :
    ∃ later ∈ keys, fieldOfKey? later = some (fieldOfName option) := by
  obtain ⟨before, key, after, rfl, -, later, hlater, hfield⟩ := h
  exact ⟨later, List.mem_append_right _ (List.mem_cons_of_mem _ hlater), hfield⟩

/-- A key behind the others that names another field changes nothing. -/
theorem namedAgain_concat (h : fieldOfKey? key ≠ some (fieldOfName option)) :
    NamedAgain option (keys ++ [key]) ↔ NamedAgain option keys := by
  induction keys with
  | nil => simp [namedAgain_cons, not_namedAgain_nil]
  | cons first rest ih => simp [namedAgain_cons, ih, h]

/-! ## One option -/

theorem fieldOfKey?_text (s : String) : fieldOfKey? (.text s) = some (fieldOfName s) := rfl

theorem latest?_isSome : (latest? name entries).isSome ↔
    ∃ key ∈ entries.keys, fieldOfKey? key = some name := by
  rw [Option.isSome_iff_ne_none, Ne, latest?_eq_none]
  simp [Entries.keys]

/-- The keys that an entry is put at stand for its field. -/
theorem fieldOfKey?_of_sameKey (h : key.sameKey (.text option) = true) :
    fieldOfKey? key = some (fieldOfName option) := by
  rw [Value.sameKey_text, beq_iff_eq] at h
  rw [fieldOfKey?, h]
  rfl

theorem latest?_put_other (h : fieldOfName option ≠ name) :
    latest? name (entries.put (.text option) v) = latest? name entries := by
  have hother : some (fieldOfName option) ≠ some name := fun heq => h (Option.some.inj heq)
  induction entries with
  | nil => rw [Entries.put, latest?_cons, fieldOfKey?_text, if_neg hother, Option.or_none]
  | cons e rest ih =>
    obtain ⟨key, w⟩ := e
    rw [Entries.put]
    split
    next hsame =>
      rw [latest?_cons, latest?_cons, fieldOfKey?_of_sameKey hsame, if_neg hother, if_neg hother]
    next => rw [latest?_cons, latest?_cons, ih]

/-- An option that is not overtaken has its value. -/
theorem latest?_put_own (h : ¬NamedAgain option entries.keys) :
    latest? (fieldOfName option) (entries.put (.text option) v) = some v := by
  induction entries with
  | nil => rw [Entries.put, latest?_cons, fieldOfKey?_text, if_pos rfl, latest?_nil, Option.none_or]
  | cons e rest ih =>
    obtain ⟨key, w⟩ := e
    rw [Entries.keys_cons, namedAgain_cons, not_or, not_and] at h
    rw [Entries.put]
    split
    next hsame =>
      -- the option takes this place, and nothing behind it names the field
      have hnone : latest? (fieldOfName option) rest = none := by
        refine latest?_eq_none.2 fun e he hfield => h.1 ?_ ⟨e.1, List.mem_map_of_mem he, hfield⟩
        rwa [Value.sameKey_text, beq_iff_eq] at hsame
      rw [latest?_cons, hnone, fieldOfKey?_of_sameKey hsame, if_pos rfl, Option.none_or]
    next => rw [latest?_cons, ih h.2, Option.some_or]

/-- An option that is overtaken changes nothing. -/
theorem latest?_put_again (h : NamedAgain option entries.keys) :
    latest? (fieldOfName option) (entries.put (.text option) v)
      = latest? (fieldOfName option) entries := by
  induction entries with
  | nil => exact absurd h not_namedAgain_nil
  | cons e rest ih =>
    obtain ⟨key, w⟩ := e
    rw [Entries.keys_cons, namedAgain_cons] at h
    rw [Entries.put]
    split
    next =>
      have hlater : (latest? (fieldOfName option) rest).isSome :=
        latest?_isSome.2 (h.elim And.right NamedAgain.exists_later)
      obtain ⟨later, hlatest⟩ := Option.isSome_iff_exists.1 hlater
      rw [latest?_cons, latest?_cons, hlatest, Option.some_or, Option.some_or]
    next hsame =>
      rw [Value.sameKey_text, beq_iff_eq] at hsame
      rw [latest?_cons, latest?_cons, ih (h.resolve_left fun hkey => hsame hkey.1)]

/-- Whether an option is overtaken does not depend on options for other fields. -/
theorem namedAgain_put_other {other : String} (h : fieldOfName other ≠ fieldOfName option) :
    NamedAgain option (entries.put (.text other) v).keys ↔ NamedAgain option entries.keys := by
  rw [Entries.keys_put]
  split
  · exact Iff.rfl
  · exact namedAgain_concat fun heq => h (Option.some.inj heq)

/-! ## All options -/

/-- The fields that options name. -/
def optionFields (options : Request.Options) : List String := options.map fun o => fieldOfName o.1

variable {options : Request.Options}

/-- Options of which no two name one field stand as they are given. -/
theorem optionEntries_eq (h : (optionFields options).Nodup) :
    Request.optionEntries options = options.map fun o => (.text o.1, o.2) := by
  refine Entries.ofList_of_distinct ?_
  rw [Entries.Distinct, Entries.keys, List.map_map, List.pairwise_map]
  refine (List.pairwise_map.1 h).imp fun {a b} hne => ?_
  rw [Function.comp_apply, Function.comp_apply, Value.sameKey_text, Value.asText?]
  exact beq_false_of_ne fun heq => hne (congrArg fieldOfName (Option.some.inj heq))

/-- The options of a call, one after the other. -/
theorem latest?_merge (h : (optionFields options).Nodup) (entries : Entries) :
    let merged := entries.merge (Request.optionEntries options)
    (∀ name ∉ optionFields options, latest? name merged = latest? name entries) ∧
      ∀ o ∈ options,
        (¬NamedAgain o.1 entries.keys → latest? (fieldOfName o.1) merged = some o.2) ∧
        (NamedAgain o.1 entries.keys →
          latest? (fieldOfName o.1) merged = latest? (fieldOfName o.1) entries) := by
  rw [optionEntries_eq h]
  induction options generalizing entries with
  | nil => exact ⟨fun _ _ => rfl, nofun⟩
  | cons o rest ih =>
    obtain ⟨hfresh, hrest⟩ := List.nodup_cons.1 h
    -- the options after the first one meet its entry, but none of them names its field
    obtain ⟨hothers, hown⟩ := ih hrest (entries.put (.text o.1) o.2)
    rw [List.map_cons, Entries.merge, List.foldl_cons, ← Entries.merge]
    refine ⟨fun name hname => ?_, List.forall_mem_cons.2 ⟨?_, fun o' ho' => ?_⟩⟩
    · obtain ⟨hne, hnot⟩ := not_or.1 (mt List.mem_cons.2 hname)
      rw [hothers name hnot, latest?_put_other (Ne.symm hne)]
    · rw [hothers _ hfresh]
      exact ⟨latest?_put_own, latest?_put_again⟩
    · have hne : fieldOfName o.1 ≠ fieldOfName o'.1 := fun heq =>
        hfresh (List.mem_map.2 ⟨o', ho', heq.symm⟩)
      have hlater := hown o' ho'
      rw [namedAgain_put_other hne, latest?_put_other hne] at hlater
      exact hlater

end

/-! ## Records of a descriptor and options -/

/-- A mapping with these entries, or a record that has them as its fields. -/
def HasEntries (descriptor : Value) (entries : Entries) : Prop :=
  descriptor = .map entries ∨ ∃ given fields, descriptor = .record given fields ∧
    fields.length = given.fieldNames.length ∧ entries = given.toEntries fields

namespace RecordKind

variable {kind : RecordKind} {fields : List Value} {name : String}

theorem latest?_texts {ps : List (String × Value)} (hnodup : (ps.map Prod.fst).Nodup)
    (hdeclared : ∀ p ∈ ps, fieldOfName p.1 = p.1) :
    latest? name (ps.map fun p => (.text p.1, p.2)) = ps.lookup name := by
  induction ps with
  | nil => rfl
  | cons p rest ih =>
    obtain ⟨hfresh, hrest⟩ := List.nodup_cons.1 hnodup
    obtain ⟨hp, hothers⟩ := List.forall_mem_cons.1 hdeclared
    rw [List.map_cons, latest?_cons, ih hrest hothers, fieldOfKey?_text, hp, List.lookup_cons]
    simp only [Option.some.injEq]
    by_cases hname : name = p.1
    · have hnone : rest.lookup name = none := List.lookup_eq_none_iff.2 fun q hq =>
        bne_iff_ne.2 fun heq => hfresh (List.mem_map.2 ⟨q, hq, heq.symm.trans hname⟩)
      rw [hnone, if_pos hname.symm, Option.none_or, hname, beq_self_eq_true]
    · rw [if_neg (Ne.symm hname), Option.or_none, beq_false_of_ne hname]

/-- A record's entry for a field is the field. -/
theorem latest?_toEntries (h : fields.length = kind.fieldNames.length)
    (hname : name ∈ kind.fieldNames) :
    latest? name (kind.toEntries fields) = some (kind.field fields name) := by
  have hnames : (kind.fieldNames.zip fields).map Prod.fst = kind.fieldNames :=
    List.map_fst_zip (Nat.le_of_eq h.symm)
  have hlatest : latest? name (kind.toEntries fields) = (kind.fieldNames.zip fields).lookup name :=
    latest?_texts (hnames.symm ▸ nodup_fieldNames kind) fun p hp =>
      fieldOfName_declared (List.of_mem_zip hp).1
  rw [hlatest, field]
  cases hlookup : (kind.fieldNames.zip fields).lookup name with
  | some v => rfl
  | none =>
    obtain ⟨p, hp, rfl⟩ := List.mem_map.1 (hnames.symm ▸ hname)
    exact absurd (List.lookup_eq_none_iff.1 hlookup p hp) (by simp)

/-- A record names no field twice. -/
theorem not_namedAgain_toEntries (h : fields.length = kind.fieldNames.length) (option : String) :
    ¬NamedAgain option (kind.toEntries fields).keys := by
  have hkeys : (kind.toEntries fields).keys = kind.fieldNames.map Value.text := calc
    _ = ((kind.fieldNames.zip fields).map Prod.fst).map Value.text := by
      rw [Entries.keys, toEntries, List.map_map, List.map_map]
      rfl
    _ = kind.fieldNames.map Value.text := by rw [List.map_fst_zip (Nat.le_of_eq h.symm)]
  rintro ⟨before, key, after, hsplit, hkey, later, hlater, hfield⟩
  rw [hkeys] at hsplit
  obtain ⟨firsts, lasts, hnames, rfl, hlasts⟩ := List.map_eq_append_iff.1 hsplit
  obtain ⟨own, others, rfl, rfl, rfl⟩ := List.map_eq_cons_iff.1 hlasts
  obtain ⟨again, hagain, rfl⟩ := List.mem_map.1 hlater
  cases hkey
  have hown : option ∈ kind.fieldNames := by
    rw [hnames]
    exact List.mem_append_right _ List.mem_cons_self
  have hdeclared : again ∈ kind.fieldNames := by
    rw [hnames]
    exact List.mem_append_right _ (List.mem_cons_of_mem _ hagain)
  rw [fieldOfKey?_text, fieldOfName_declared hown, fieldOfName_declared hdeclared] at hfield
  cases hfield
  have hnodup := nodup_fieldNames kind
  rw [hnames] at hnodup
  exact (List.nodup_cons.1 (List.nodup_append.1 hnodup).2.1).1 hagain

end RecordKind

section

variable {kind given : RecordKind} {descriptor : Value} {entries : Entries}
  {options : Request.Options} {fields : List Value}

/-- What a mapping of known keys gives a value is a field. -/
theorem mem_fieldNames_of_latest? {name : String} (hknown : ∀ e ∈ entries, kind.Known e.1)
    (h : (latest? name entries).isSome) : name ∈ kind.fieldNames := by
  obtain ⟨key, hkey, hfield⟩ := latest?_isSome.1 h
  obtain ⟨e, he, rfl⟩ := List.mem_map.1 hkey
  obtain ⟨name', hname', hfield'⟩ := known_iff.1 (hknown e he)
  rw [hfield, Option.some.injEq] at hfield'
  exact hfield' ▸ hname'

/-- What a descriptor alone gives its fields. -/
theorem field_alone (hd : HasEntries descriptor entries)
    (h : Request.described kind descriptor [] = .ok (.record given fields)) :
    ∀ name ∈ given.fieldNames, given.field fields name = kind.valueOf entries name := by
  intro name hname
  obtain rfl | ⟨kind', fields', rfl, hlength, rfl⟩ := hd
  · have hread : (kind.fromEntries entries).map (Value.record kind)
        = .ok (.record given fields) := h
    obtain ⟨read, hentries, heq⟩ := map_eq_ok.1 hread
    cases heq
    obtain ⟨-, -, rfl⟩ := fromEntries_eq_ok.1 hentries
    exact field_map _ hname
  · have hself : Value.record kind' fields' = .record given fields := by
      have hcoerce : kind.coerce (.record kind' fields') = .ok (.record given fields) := h
      rw [coerce] at hcoerce
      split at hcoerce
      · exact Except.ok.inj hcoerce
      · cases hcoerce
    cases hself
    rw [valueOf, latest?_toEntries hlength hname]
    rfl

/-- A descriptor is read together with options as its entries and theirs. -/
theorem described_eq (hd : HasEntries descriptor entries) (hoptions : options ≠ []) :
    Request.described kind descriptor options
      = kind.fromMapping (.map (entries.merge (Request.optionEntries options))) := by
  obtain ⟨o, rest, rfl⟩ := List.exists_cons_of_ne_nil hoptions
  obtain rfl | ⟨given, fields, rfl, -, rfl⟩ := hd <;> rfl

/-- The fields of a record that a mapping or a record describes together with options of which no
two name one field. Where the mapping names the field of an option again behind the option's own
name, its own value for the field stays. Otherwise the option's value takes its place, over a
record always. Every other field has the value that the descriptor alone gives it. -/
theorem options_override_unless_named_again {r : Value} (hd : HasEntries descriptor entries)
    (honce : (optionFields options).Nodup)
    (h : Request.described kind descriptor options = .ok r) :
    ∃ given fields, r = .record given fields ∧
      (∀ o ∈ options, fieldOfName o.1 ∈ given.fieldNames ∧
        (¬NamedAgain o.1 entries.keys → given.field fields (fieldOfName o.1) = o.2) ∧
        (NamedAgain o.1 entries.keys →
          given.field fields (fieldOfName o.1) = kind.valueOf entries (fieldOfName o.1))) ∧
      (∀ name ∈ given.fieldNames, name ∉ optionFields options →
        given.field fields name = kind.valueOf entries name) ∧
      (∀ alone values, Request.described kind descriptor [] = .ok (.record alone values) →
        ∀ name ∈ alone.fieldNames, kind.valueOf entries name = alone.field values name) ∧
      ((∀ entries', descriptor ≠ .map entries') → ∀ o ∈ options, ¬NamedAgain o.1 entries.keys) := by
  have halone : ∀ alone values, Request.described kind descriptor [] = .ok (.record alone values) →
      ∀ name ∈ alone.fieldNames, kind.valueOf entries name = alone.field values name :=
    fun _ _ hread name hname => (field_alone hd hread name hname).symm
  have hrecord : (∀ entries', descriptor ≠ .map entries') →
      ∀ o ∈ options, ¬NamedAgain o.1 entries.keys := by
    intro hnot o _
    obtain rfl | ⟨given, fields, rfl, hlength, rfl⟩ := hd
    · exact absurd rfl (hnot entries)
    · exact not_namedAgain_toEntries hlength o.1
  by_cases hoptions : options = []
  · subst hoptions
    have hcoerced : kind.coerce descriptor = .ok r := by
      obtain rfl | ⟨_, _, rfl, _, rfl⟩ := hd <;> exact h
    obtain ⟨given, fields, rfl, -⟩ := coerce_eq_ok hcoerced
    exact ⟨given, fields, rfl, nofun, fun name hname _ => field_alone hd h name hname, halone,
      hrecord⟩
  · rw [described_eq hd hoptions] at h
    obtain ⟨fields, hread, rfl⟩ := map_eq_ok.1 h
    obtain ⟨hknown, -, rfl⟩ := fromEntries_eq_ok.1 hread
    obtain ⟨hothers, hown⟩ := latest?_merge honce entries
    refine ⟨kind, _, rfl, fun o ho => ?_, fun name hname hnot => ?_, halone, hrecord⟩
    · obtain ⟨howned, hagain⟩ := hown o ho
      have hgiven : (latest? (fieldOfName o.1)
          (entries.merge (Request.optionEntries options))).isSome := by
        by_cases hnamed : NamedAgain o.1 entries.keys
        · rw [hagain hnamed]
          exact latest?_isSome.2 hnamed.exists_later
        · rw [howned hnamed]
          rfl
      have hname := mem_fieldNames_of_latest? hknown hgiven
      rw [field_map _ hname, valueOf, valueOf]
      exact ⟨hname, fun hnamed => by rw [howned hnamed]; rfl, fun hnamed => by rw [hagain hnamed]⟩
    · rw [field_map _ hname, valueOf, valueOf, hothers name hnot]

end

/-- A mapping that names its table in both spellings. -/
def twiceNamed : Entries :=
  [(.text "tableName", .text "staff"), (.text "orderBy", .text "id"),
    (.text "table_name", .text "guests")]

theorem options_override_unless_named_again_twice :
    ∃ fields, Request.described .delete (.map twiceNamed)
        [("orderBy", .text "name"), ("limit", .int 1), ("tableName", .text "rooms")]
      = .ok (.record .delete fields) ∧
      field .delete fields "order_by" = .text "name" ∧ field .delete fields "limit" = .int 1 ∧
      field .delete fields "table_name" = .text "guests" ∧
      field .delete fields "offset" = .null := by
  have hentries : HasEntries (.map twiceNamed) twiceNamed := .inl rfl
  have hdescribed : Request.described .delete (.map twiceNamed)
      [("orderBy", .text "name"), ("limit", .int 1), ("tableName", .text "rooms")] = .ok _ := rfl
  obtain ⟨given, fields, hread, hown, hothers, -, -⟩ :=
    options_override_unless_named_again hentries (by decide) hdescribed
  cases hread
  simp only [List.forall_mem_cons] at hown
  obtain ⟨⟨-, horder, -⟩, ⟨-, hlimit, -⟩, ⟨-, -, htable⟩, -⟩ := hown
  exact ⟨_, rfl, horder (by decide), hlimit (by decide), htable (by decide),
    hothers "offset" (by decide) (by decide)⟩

/-- An option under the first of two spellings is lost: the mapping's own entry under the second
one counts. -/
theorem option_lost_between_spellings :
    let descriptor : Value :=
      .map [(.text "tableName", .text "staff"), (.text "table_name", .text "guests")]
    let options : Request.Options := [("tableName", .text "rooms")]
    ∃ fields, Request.described .dropTable descriptor options = .ok (.record .dropTable fields) ∧
      field .dropTable fields (fieldOfName "tableName") ≠ .text "rooms" ∧
      ∃ q, Request.dropTable descriptor options = .ok q ∧
        q.statement.query = .text "DROP TABLE guests" := by
  refine ⟨[.text "guests", .bool false], rfl, ?_, _, rfl, ?_⟩
  · show Value.text "guests" ≠ .text "rooms"
    exact fun heq => absurd (Value.text.inj heq) (by decide)
  · rfl

end Querywright
