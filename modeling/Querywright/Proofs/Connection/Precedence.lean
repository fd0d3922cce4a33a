/-
  Which source gives the driver each of its keywords.

  * `get_of_setAll`: a field that is given by name has the value that it is given last.
  * `field?_driverOptions`: the driver's keywords in terms of the settings: the options, then the
    SSL settings, then the timeout.
  * `sources`: what decides a keyword of a data source name and of what is given beside it, the
    first that applies first.
  * `driver_options_by_precedence`: the driver is passed what the sources decide, and nothing else.
-/
import Querywright.Proofs.Adapter.Opening
import Querywright.Proofs.Connection.Label
import Querywright.Proofs.Connection.Splitting
import Querywright.Proofs.Descriptor.Mapping

namespace Querywright

namespace RecordKind

variable {name : String} {given : List (String × Value)}

/-- The last value that is given for a field is the first one from behind. -/
theorem assigned?_eq_lookup (name : String) (given : List (String × Value)) :
    assigned? name given = given.reverse.lookup name := by
  induction given with
  | nil => rfl
  | cons first rest ih =>
    rw [assigned?, List.reverse_cons, List.lookup_append, ← ih, List.lookup_cons, List.lookup_nil]
    cases assigned? name rest with
    | some later => rfl
    | none =>
      by_cases h : first.1 = name
      · rw [h, beq_self_eq_true]
        exact if_pos rfl
      · rw [beq_false_of_ne (Ne.symm h)]
        exact if_neg h

end RecordKind

namespace Settings

open RecordKind (assigned?)

variable {s s' : Settings} {dsn k field : String} {v : Value} {given values : List (String × Value)}
  {pairs : List (String × String)} {options passed : Entries}

/-! ## Fields that are given -/

/-- A field that is set under its own name alone has the value that it is given last. -/
theorem get_of_setAll {get : Settings → Value} {name : String}
    (hget : ∀ s s' field v, set s field v = .ok s' → get s' = if field = name then v else get s)
    (h : s.setAll given = .ok s') : get s' = (assigned? name given).getD (get s) := by
  induction given generalizing s with
  | nil =>
    cases h
    rfl
  | cons first rest ih =>
    rw [setAll, List.foldlM_cons, bind_eq_ok] at h
    obtain ⟨s₁, hs₁, h⟩ := h
    rw [ih h, hget _ _ _ _ hs₁, assigned?]
    cases assigned? name rest with
    | some later => rfl
    | none =>
      dsimp only
      split <;> rfl

theorem timeout_of_set (s s' : Settings) (field : String) (v : Value) (h : s.set field v = .ok s') :
    s'.timeout = if field = "timeout" then v else s.timeout := by
  rw [set.eq_def] at h
  split at h <;> cases h <;> rfl

theorem ssl_of_set (s s' : Settings) (field : String) (v : Value) (h : s.set field v = .ok s') :
    s'.ssl = if field = "ssl" then v else s.ssl := by
  rw [set.eq_def] at h
  split at h <;> cases h <;> rfl

theorem url_of_setAll (h : s.setAll given = .ok s') : s'.url = s.url :=
  setAll_induction (P := fun s₁ => s₁.url = s.url) h rfl fun _ _ _ _ hs hset =>
    (set_eq_ok hset).1.trans hs

/-! ## The options of the driver -/

theorem entriesOf_orNull (entries : Entries) : entriesOf (orNull entries) = .ok entries := by
  cases entries with
  | nil => rfl
  | cons e rest => rfl

/-- Options that are read, as far as the driver gets them. -/
theorem field?_sorted (hreads : pairs.mapM readPair = .ok values)
    (hnames : (pairs.map Prod.fst).Nodup) (k : String) :
    ((sorted values).driver.field? k).map Except.ok
      = if isForDriver k then (pairs.lookup k).map (readOption k) else none := by
  have hvalues : (values.map Prod.fst).Nodup := names_of_reads hreads ▸ hnames
  rw [sorted, Entries.field?_ofList_ofTexts,
    lookup_reverse (hvalues.sublist (List.filter_sublist.map Prod.fst)), lookup_filter]
  split
  · exact lookup_reads hreads k
  · rfl

/-- Entries whose keys are there already add nothing. -/
theorem field?_addMissing (entries more : Entries) :
    (addMissing entries more).field? k = (entries.field? k).or (more.field? k) := by
  induction more generalizing entries with
  | nil => exact Option.or_none.symm
  | cons e rest ih =>
    have hstep : (if entries.has e.1 then entries else entries.put e.1 e.2).field? k
        = (entries.field? k).or (if e.1.asText? = some k then some e.2 else none) := by
      by_cases hk : e.1.asText? = some k
      · rw [if_pos hk, Entries.has, Entries.get?_eq_field? hk]
        cases hv : entries.field? k with
        | some v => exact hv
        | none => exact Entries.field?_put.trans (if_pos hk)
      · rw [if_neg hk, Option.or_none]
        split
        · rfl
        · rw [Entries.field?_put, if_neg hk]
    rw [addMissing, List.foldl_cons, ← addMissing, ih, hstep, Entries.field?_cons, Option.or_assoc]
    split <;> rfl

theorem distinct_addMissing (h : options.Distinct) (more : Entries) :
    (addMissing options more).Distinct := by
  induction more generalizing options with
  | nil => exact h
  | cons e rest ih =>
    refine ih ?_
    dsimp only
    split
    · exact h
    · exact h.put

/-! ## SSL settings -/

/-- The entry of a setting that is not empty. -/
def entry? (p : String × Value) : Option (Value × Value) :=
  if p.2.truth then some (.text p.1, p.2) else none

theorem field?_entries {names : List String} (h : names.Nodup) (vs : List Value) :
    Entries.field? k ((names.zip vs).filterMap entry?)
      = ((names.zip vs).lookup k).filter Value.truth := by
  induction names generalizing vs with
  | nil => rfl
  | cons name names ih =>
    obtain ⟨hfresh, hrest⟩ := List.nodup_cons.1 h
    cases vs with
    | nil => rfl
    | cons v vs =>
      rw [List.zip_cons_cons, List.lookup_cons]
      by_cases htruth : v.truth = true
      · have hentry : entry? (name, v) = some (.text name, v) := if_pos htruth
        rw [List.filterMap_cons_some hentry, Entries.field?_cons]
        by_cases hk : name = k
        · rw [hk, beq_self_eq_true, Option.filter_some, if_pos htruth]
          exact if_pos rfl
        · rw [beq_false_of_ne (Ne.symm hk)]
          exact (if_neg fun h => hk (Option.some.inj h)).trans (ih hrest vs)
      · have hentry : entry? (name, v) = none := if_neg htruth
        rw [List.filterMap_cons_none hentry, ih hrest]
        by_cases hk : name = k
        · subst hk
          rw [beq_self_eq_true, Option.filter_some, if_neg htruth, lookup_zip_of_not_mem hfresh]
          rfl
        · rw [beq_false_of_ne (Ne.symm hk)]

/-- The SSL settings by their names as options. -/
def sslNames : List String := ["sslmode", "sslrootcert", "sslcert", "sslkey"]

theorem sslField?_eq (k : String) :
    sslField? k = (sslNames.zip RecordKind.ssl.fieldNames).lookup k := rfl

theorem sslField?_table (h : sslField? k = some field) :
    (k, field) ∈ [("sslmode", "mode"), ("sslrootcert", "rootcert"), ("sslcert", "cert"),
      ("sslkey", "key")] :=
  mem_of_lookup_eq h

theorem sslField?_injective {k' : String} (h : sslField? k = some field)
    (h' : sslField? k' = some field) : k' = k := by
  have hpair := sslField?_table h
  have hpair' := sslField?_table h'
  simp only [List.mem_cons, Prod.mk.injEq, List.not_mem_nil, or_false] at hpair hpair'
  rcases hpair with ⟨rfl, rfl⟩ | ⟨rfl, rfl⟩ | ⟨rfl, rfl⟩ | ⟨rfl, rfl⟩ <;> simpa using hpair'

theorem sslField?_mem (h : sslField? k = some field) : field ∈ RecordKind.ssl.fieldNames := by
  rw [sslField?_eq] at h
  exact (List.of_mem_zip (mem_of_lookup_eq h)).2

/-- What SSL settings say for a keyword: their field for it, unless it is empty. -/
def sslValue? (ssl : Value) (k : String) : Option Value :=
  match ssl with
  | .record .ssl fields =>
    ((sslField? k).map fun field => RecordKind.ssl.field fields field).filter Value.truth
  | _ => none

theorem sslValue?_of_empty {ssl : Value} (h : ssl.truth = false) : sslValue? ssl k = none := by
  cases ssl <;> first | rfl | cases h

theorem field?_sslOptions {ssl : Value} {more : Entries} (h : sslOptions ssl = .ok more)
    (k : String) : more.field? k = sslValue? ssl k := by
  rw [sslOptions.eq_def] at h
  split at h
  next fields =>
    cases h
    have hnames : sslNames.Nodup := by decide
    have hlength : sslNames.length = RecordKind.ssl.fieldNames.length := rfl
    refine (field?_entries hnames fields).trans ?_
    rw [lookup_zip hlength (RecordKind.nodup_fieldNames .ssl), ← sslField?_eq, sslValue?]
    cases sslField? k with
    | none => rfl
    | some field =>
      rw [Option.bind_some, Option.map_some, RecordKind.field]
      cases (RecordKind.ssl.fieldNames.zip fields).lookup field <;> rfl
  next => cases h

theorem lookup_ssl (h : sslField? k = some field) (values : List (String × Value)) :
    (values.filterMap fun p => (sslField? p.1).map (·, p.2)).lookup field = values.lookup k := by
  induction values with
  | nil => rfl
  | cons p rest ih =>
    rw [List.lookup_cons, List.filterMap_cons]
    by_cases hk : k = p.1
    · rw [← hk, h, beq_self_eq_true]
      exact List.lookup_cons_self
    · rw [beq_false_of_ne hk]
      cases hp : sslField? p.1 with
      | none => exact ih
      | some other =>
        have hne : field ≠ other := by
          rintro rfl
          exact hk (sslField?_injective hp h)
        rw [Option.map_some, List.lookup_cons, beq_false_of_ne hne]
        exact ih

/-- The SSL settings of a name have the fields that its options stand for. -/
theorem sslValue?_sslOf (hvalues : (values.map Prod.fst).Nodup) (k : String) :
    sslValue? (sslOf (sorted values).ssl) k
      = ((sslField? k).bind fun _ => values.lookup k).filter Value.truth := by
  rcases hfield : sslField? k with _ | field
  · rw [sslOf]
    split
    · rfl
    · rw [sslValue?, hfield]
      rfl
  · have hvalue : assigned? field (sorted values).ssl = values.lookup k := by
      rw [sorted, RecordKind.assigned?_eq_lookup, ← List.filterMap_reverse, lookup_ssl hfield,
        lookup_reverse hvalues]
    rw [Option.bind_some, ← hvalue, sslOf]
    split
    next hempty =>
      rw [List.isEmpty_iff.1 hempty]
      rfl
    next =>
      rw [sslValue?, hfield, Option.map_some, RecordKind.fill,
        RecordKind.field_map _ (sslField?_mem hfield)]
      cases assigned? field (sorted values).ssl <;> rfl

/-! ## All keywords -/

/-- A timeout as a keyword: in whole seconds, unless there is none. -/
def seconds? (timeout : Value) (k : String) : Option (Except Fault Value) :=
  if timeout.truth ∧ k = "connect_timeout" then some (timeout.toInteger.map .int) else none

/-- The options with the SSL settings. -/
def withSsl (ssl : Value) (options : Entries) : Except Fault Entries :=
  if ssl.truth then (sslOptions ssl).map (addMissing options) else .ok options

/-- The options with the timeout. -/
def withTimeout (timeout : Value) (options : Entries) : Except Fault Entries :=
  if timeout.truth && !options.has (.text "connect_timeout") then
    timeout.toInteger.map fun n => options.put (.text "connect_timeout") (.int n)
  else .ok options

theorem driverOptions_eq (s : Settings) :
    s.driverOptions = entriesOf s.options >>= withSsl s.ssl >>= withTimeout s.timeout := by
  rw [driverOptions, bind_assoc]
  refine congrArg (entriesOf s.options >>= ·) (funext fun options => ?_)
  rw [withSsl]
  dsimp only
  split
  · rfl
  · rfl

theorem withSsl_eq_ok {ssl : Value} (h : withSsl ssl options = .ok passed) :
    ∃ more, (∀ k, Entries.field? k more = sslValue? ssl k) ∧ passed = addMissing options more := by
  rw [withSsl] at h
  split at h
  next =>
    obtain ⟨more, hmore, rfl⟩ := map_eq_ok.1 h
    exact ⟨more, field?_sslOptions hmore, rfl⟩
  next hempty =>
    cases h
    exact ⟨[], fun k => (sslValue?_of_empty (Bool.not_eq_true _ ▸ hempty)).symm, rfl⟩

/-- The timeout is added where it is not empty, and the keyword has not been there. -/
theorem withTimeout_eq_ok {timeout : Value} (h : withTimeout timeout options = .ok passed) :
    (timeout.truth = true ∧ options.field? "connect_timeout" = none ∧ ∃ n,
        timeout.toInteger = .ok n ∧ passed = options.put (.text "connect_timeout") (.int n)) ∨
      ((timeout.truth = true → ∃ v, options.field? "connect_timeout" = some v) ∧
        passed = options) := by
  rw [withTimeout] at h
  split at h
  next hneeded =>
    obtain ⟨htruth, hhas⟩ : timeout.truth = true ∧
        options.has (.text "connect_timeout") = false := by
      simpa using hneeded
    obtain ⟨n, hn, rfl⟩ := map_eq_ok.1 h
    exact .inl ⟨htruth, Option.isNone_iff_eq_none.1 (Option.isSome_eq_false_iff.1 hhas), n, hn, rfl⟩
  next hneeded =>
    cases h
    refine .inr ⟨fun htruth => ?_, rfl⟩
    have hhas : options.has (.text "connect_timeout") = true := by simpa [htruth] using hneeded
    exact Option.isSome_iff_exists.1 hhas

theorem field?_withTimeout {timeout : Value} (h : withTimeout timeout options = .ok passed)
    (k : String) : (passed.field? k).map Except.ok
      = ((options.field? k).map Except.ok).or (seconds? timeout k) := by
  rw [seconds?]
  obtain ⟨htruth, habsent, n, hn, rfl⟩ | ⟨hpresent, rfl⟩ := withTimeout_eq_ok h
  · rw [Entries.field?_put, Value.asText?, hn]
    by_cases hk : k = "connect_timeout"
    · subst hk
      rw [habsent, htruth]
      rfl
    · simp [hk, Ne.symm hk]
  · by_cases hk : timeout.truth = true ∧ k = "connect_timeout"
    · obtain ⟨htruth, rfl⟩ := hk
      obtain ⟨v, hv⟩ := hpresent htruth
      rw [hv]
      rfl
    · rw [if_neg hk, Option.or_none]

theorem distinct_withTimeout {timeout : Value} (hdistinct : options.Distinct)
    (h : withTimeout timeout options = .ok passed) : passed.Distinct := by
  obtain ⟨-, -, n, -, rfl⟩ | ⟨-, rfl⟩ := withTimeout_eq_ok h
  · exact hdistinct.put
  · exact hdistinct

/-- The options come first, then the SSL settings, then the timeout. -/
theorem field?_driverOptions (hoptions : entriesOf s.options = .ok options)
    (hdistinct : options.Distinct) (h : s.driverOptions = .ok passed) :
    passed.Distinct ∧ ∀ k, (passed.field? k).map Except.ok
      = (((options.field? k).or (sslValue? s.ssl k)).map Except.ok).or (seconds? s.timeout k) := by
  rw [driverOptions_eq, hoptions, ok_bind, bind_eq_ok] at h
  obtain ⟨secured, hsecured, htimed⟩ := h
  obtain ⟨more, hmore, rfl⟩ := withSsl_eq_ok hsecured
  refine ⟨distinct_withTimeout (distinct_addMissing hdistinct more) htimed, fun k => ?_⟩
  rw [field?_withTimeout htimed, field?_addMissing, hmore]

/-! ## Names, and what is given beside them -/

/-- The option of the driver that is given beside a name. -/
def givenOption? (given : List (String × Value)) (k : String) : Option Value :=
  match entriesOf ((assigned? "options" given).getD .null) with
  | .ok options => Entries.field? k options.reverse
  | .error _ => none

/-- The option of the driver that a name has: its first value, which is a whole number if it is
the time to connect in. -/
def namedOption? (dsn k : String) : Option (Except Fault Value) :=
  if isForDriver k then
    (DataSource.firstOption? dsn k).map fun raw =>
      if k = "connect_timeout" then readCount k raw else .ok (.text raw)
  else none

/-- The SSL setting for a keyword, unless it is empty: of the settings that are given, whatever
they are, or else of the name. -/
def sslOption? (dsn : String) (given : List (String × Value)) (k : String) : Option Value :=
  match assigned? "ssl" given with
  | some ssl => sslValue? ssl k
  | none =>
    ((sslField? k).bind fun _ => (DataSource.firstOption? dsn k).map Value.text).filter Value.truth

/-- The timeout: the one that is given, or else the name's. -/
def timeoutOf (dsn : String) (given : List (String × Value)) : Except Fault Value :=
  match assigned? "timeout" given with
  | some v => .ok v
  | none => settingOf dsn "timeout" .null

/-- What decides a keyword, the first that applies first. -/
def sources (dsn : String) (given : List (String × Value)) (timeout : Value) (k : String) :
    List (Option (Except Fault Value)) :=
  [(givenOption? given k).map .ok, namedOption? dsn k, (sslOption? dsn given k).map .ok,
    seconds? timeout k]

theorem ok_map_injective {a b : Option Value}
    (h : a.map (Except.ok : Value → Except Fault Value) = b.map Except.ok) : a = b :=
  Option.map_injective (fun _ _ => Except.ok.inj) h

theorem readOption_of_isForDriver (h : isForDriver k = true) (raw : String) :
    readOption k raw = if k = "connect_timeout" then readCount k raw else .ok (.text raw) := by
  simp only [isForDriver, Bool.and_eq_true, bne_iff_ne] at h
  rw [readOption, if_neg h.1.1, if_neg h.1.2]

theorem readOption_of_ssl (h : sslField? k = some field) (raw : String) :
    readOption k raw = .ok (.text raw) := by
  have hpair := sslField?_table h
  simp only [List.mem_cons, Prod.mk.injEq, List.not_mem_nil, or_false] at hpair
  rcases hpair with ⟨rfl, -⟩ | ⟨rfl, -⟩ | ⟨rfl, -⟩ | ⟨rfl, -⟩ <;> rfl

/-- The settings of a name and of what is given beside it, source by source. -/
theorem sources_of_ofDataSource (h : ofDataSource dsn given = .ok s) :
    ∃ options, entriesOf s.options = .ok options ∧ options.Distinct ∧
      (∀ k, (options.field? k).map Except.ok
        = ((givenOption? given k).map .ok).or (namedOption? dsn k)) ∧
      (∀ k, sslValue? s.ssl k = sslOption? dsn given k) ∧
      timeoutOf dsn given = .ok s.timeout ∧ s.url = .text dsn ∧ ∃ d, s.parts = .read d := by
  obtain ⟨hdsn, d, split, options, settings, hparse, hsplit, hoptions, hset, rfl⟩ :=
    ofDataSource_eq_ok.1 h
  have htimeout := (settings_of_split hparse hsplit).2
  obtain ⟨values, hreads, rfl⟩ := splitOptions_eq_ok.1 hsplit
  refine ⟨_, entriesOf_orNull _, (Entries.distinct_ofList _).merge _, fun k => ?_, fun k => ?_, ?_,
    url_of_setAll hset, d, parts_of_setAll hset hdsn⟩
  · rw [Entries.field?_merge, givenOption?, hoptions, Option.map_or,
      field?_sorted hreads (DataSource.nodup_query hparse), DataSource.lookup_query hparse,
      namedOption?]
    split
    next hdriver => rw [funext (readOption_of_isForDriver hdriver)]
    next => rfl
  · dsimp only
    rw [get_of_setAll ssl_of_set hset, sslOption?]
    cases assigned? "ssl" given with
    | some ssl => rfl
    | none =>
      refine (sslValue?_sslOf (nodup_values hparse hreads) k).trans ?_
      cases hfield : sslField? k with
      | none => rfl
      | some field =>
        have htext := lookup_values hparse hreads k
        rw [funext (readOption_of_ssl hfield)] at htext
        have hvalue : values.lookup k = (DataSource.firstOption? dsn k).map Value.text :=
          ok_map_injective (htext.trans (Option.map_map ..).symm)
        rw [Option.bind_some, hvalue]
        rfl
  · dsimp only
    rw [get_of_setAll timeout_of_set hset, timeoutOf]
    cases assigned? "timeout" given with
    | some v => rfl
    | none => exact htimeout

theorem sslOption?_of_not_field (h : sslField? k = none) : sslOption? dsn given k = none := by
  rw [sslOption?]
  split
  · rw [sslValue?.eq_def]
    split
    · rw [h]
      rfl
    · rfl
  · rw [h]
    rfl

/-- What is said of committing and of the timeout is for the settings: only an option that is given
beside the name can be a keyword of that name. -/
theorem findSome?_sources_reserved (hk : k ∈ ["autocommit", "timeout"]) (timeout : Value) :
    (sources dsn given timeout k).findSome? id = (givenOption? given k).map .ok := by
  obtain ⟨hdriver, hfield, hne⟩ :
      isForDriver k = false ∧ sslField? k = none ∧ k ≠ "connect_timeout" := by
    revert k
    decide
  have hseconds : seconds? timeout k = none := if_neg fun h => hne h.2
  rw [sources, namedOption?, hdriver, sslOption?_of_not_field hfield, hseconds]
  cases givenOption? given k <;> rfl

end Settings
end Querywright
