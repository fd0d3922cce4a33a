/-
  The options of a data source name, each read and put in its place.

  * `splitOption_eq`: an option is read by its name, and then taken in.
  * `splitOptions_eq`: all options are read before the places are filled. `sorted` says what is in
    each place in the end.
  * `lookup_reads`: of options that are read, a name has what its text is read as.
  * `DataSource.lookup_query`: the text that counts is the first one. `settings_of_split`: the two
    options that are settings have what it is read as.
-/
import Querywright.Connection.Settings
import Querywright.Proofs.DataSource.Form
import Querywright.Proofs.DataSource.Reading
import Querywright.Proofs.Outcome
import Querywright.Proofs.Value.Lookup
import Querywright.Proofs.Value.Merging

namespace Querywright

namespace Settings

variable {name raw : String} {v : Value} {pairs : List (String × String)}
  {values : List (String × Value)}

/-! ## One option -/

/-- What the text of an option is read as. -/
def readOption (name raw : String) : Except Fault Value :=
  if name = "autocommit" then readFlag name raw
  else if name = "timeout" then readNumber name raw
  else if name = "connect_timeout" then readCount name raw
  else .ok (.text raw)

/-- The split with one more option in its place. -/
def Split.take (s : Split) (option : String × Value) : Split :=
  if option.1 = "autocommit" then { s with autocommit := option.2 }
  else if option.1 = "timeout" then { s with timeout := option.2 }
  else match sslField? option.1 with
    | some field => { s with ssl := s.ssl ++ [(field, option.2)] }
    | none => { s with driver := s.driver.put (.text option.1) option.2 }

theorem splitOption_eq (s : Split) (name raw : String) :
    splitOption s name raw = (readOption name raw).map fun v => s.take (name, v) := by
  rw [splitOption, readOption]
  split_ifs with hautocommit htimeout hconnect
  · subst hautocommit
    rcases readFlag "autocommit" raw with e | v <;> rfl
  · subst htimeout
    rcases readNumber "timeout" raw with e | v <;> rfl
  · subst hconnect
    rcases readCount "connect_timeout" raw with e | v <;> rfl
  · simp only [Except.map, Split.take, hautocommit, htimeout, ↓reduceIte]
    cases sslField? name <;> rfl

/-! ## All options -/

/-- The options that the driver gets: those that are neither settings nor SSL settings. -/
def isForDriver (name : String) : Bool :=
  name != "autocommit" && name != "timeout" && (sslField? name).isNone

/-- Options that have been read, in their places. -/
def sorted (values : List (String × Value)) : Split where
  autocommit := (values.reverse.lookup "autocommit").getD (.bool false)
  timeout := (values.reverse.lookup "timeout").getD .null
  ssl := values.filterMap fun p => (sslField? p.1).map (·, p.2)
  driver := Entries.ofList (Entries.ofTexts (values.filter fun p => isForDriver p.1))

theorem ofList_snoc (values : List (String × Value)) (p : String × Value) :
    Entries.ofList (Entries.ofTexts (values ++ [p]))
      = (Entries.ofList (Entries.ofTexts values)).put (.text p.1) p.2 := by
  rw [Entries.ofTexts, List.map_append, Entries.ofList, Entries.merge, List.foldl_append]
  rfl

/-- One option more. -/
theorem sorted_snoc (values : List (String × Value)) (p : String × Value) :
    (sorted values).take p = sorted (values ++ [p]) := by
  obtain ⟨name, v⟩ := p
  rw [Split.take, sorted, sorted, List.reverse_concat, List.filterMap_append, List.filter_append,
    List.lookup_cons, List.lookup_cons]
  by_cases hautocommit : name = "autocommit"
  · subst hautocommit
    simp [isForDriver, sslField?]
  by_cases htimeout : name = "timeout"
  · subst htimeout
    simp [isForDriver, sslField?]
  rw [if_neg hautocommit, if_neg htimeout, beq_false_of_ne (Ne.symm hautocommit),
    beq_false_of_ne (Ne.symm htimeout)]
  rcases hssl : sslField? name with _ | field
  · simp [isForDriver, hautocommit, htimeout, hssl, ofList_snoc]
  · simp [isForDriver, hssl]

theorem foldl_take (values : List (String × Value)) :
    values.foldl Split.take {} = sorted values := by
  induction values using List.reverseRecOn with
  | nil => rfl
  | append_singleton values p ih =>
    rw [List.foldl_append, ih, List.foldl_cons, List.foldl_nil, sorted_snoc]

/-- An option with what it is read as. -/
def readPair (p : String × String) : Except Fault (String × Value) :=
  (readOption p.1 p.2).map (p.1, ·)

theorem splitOptions_eq (pairs : List (String × String)) :
    splitOptions pairs = (pairs.mapM readPair).map sorted := by
  have hstep (s : Split) (p : String × String) :
      splitOption s p.1 p.2 = (readPair p).map s.take := by
    rw [splitOption_eq, readPair]
    rcases readOption p.1 p.2 with e | v <;> rfl
  rw [splitOptions, foldlM_eq_mapM hstep]
  exact congrArg (Except.map · (pairs.mapM readPair)) (funext foldl_take)

theorem splitOptions_eq_ok {split : Split} : splitOptions pairs = .ok split ↔
    ∃ values, pairs.mapM readPair = .ok values ∧ sorted values = split := by
  rw [splitOptions_eq, map_eq_ok]

theorem readPair_eq_ok {p : String × String} {q : String × Value} :
    readPair p = .ok q ↔ p.1 = q.1 ∧ readOption p.1 p.2 = .ok q.2 := by
  rw [readPair, map_eq_ok]
  constructor
  · rintro ⟨v, hv, rfl⟩
    exact ⟨rfl, hv⟩
  · rintro ⟨hname, hv⟩
    exact ⟨q.2, hv, Prod.ext hname rfl⟩

theorem names_of_reads (h : pairs.mapM readPair = .ok values) :
    values.map Prod.fst = pairs.map Prod.fst := by
  have hreads := mapM_eq_ok.1 h
  clear h
  induction hreads with
  | nil => rfl
  | cons hp _ ih => rw [List.map_cons, List.map_cons, ih, (readPair_eq_ok.1 hp).1]

/-- What is read under a name. -/
theorem lookup_reads (h : pairs.mapM readPair = .ok values) (name : String) :
    (values.lookup name).map Except.ok = (pairs.lookup name).map (readOption name) := by
  have hreads := mapM_eq_ok.1 h
  clear h
  induction hreads with
  | nil => rfl
  | @cons p q _ _ hp _ ih =>
    obtain ⟨hname, hv⟩ := readPair_eq_ok.1 hp
    rw [List.lookup_cons, List.lookup_cons, ← hname]
    by_cases hsame : name = p.1
    · rw [hsame, beq_self_eq_true]
      exact congrArg some hv.symm
    · rw [beq_false_of_ne hsame]
      exact ih

end Settings

/-! ## The options of a name -/

namespace DataSource

/-- The first value that a name's options give an option. -/
def firstOption? (dsn name : String) : Option String :=
  ((Text.cutAtEvery '&' (cut (clean dsn.toList)).query).filterMap Form.decodePair).lookup name

variable {dsn : String} {d : DataSource}

theorem query_of_read (h : parse dsn = .ok d) :
    d.query = Form.decodePairs (cut (clean dsn.toList)).query := by
  obtain ⟨-, -, -, port, -, rfl⟩ := parse_eq_ok.1 h
  rfl

theorem nodup_query (h : parse dsn = .ok d) : (d.query.map Prod.fst).Nodup := by
  rw [query_of_read h]
  exact Form.nodup_decodePairs _

theorem lookup_query (h : parse dsn = .ok d) (name : String) :
    d.query.lookup name = firstOption? dsn name := by
  rw [query_of_read h]
  exact Form.lookup_firstOfEach List.not_mem_nil

end DataSource

namespace Settings

/-- The value that a name gives a setting, or else its default. -/
def settingOf (dsn name : String) (default : Value) : Except Fault Value :=
  ((DataSource.firstOption? dsn name).map (readOption name)).getD (.ok default)

variable {dsn name : String} {d : DataSource} {values : List (String × Value)} {split : Split}

/-- What is read of a name's options is what their first values are read as. -/
theorem lookup_values (hparse : DataSource.parse dsn = .ok d)
    (hreads : d.query.mapM readPair = .ok values) (name : String) :
    (values.lookup name).map Except.ok = (DataSource.firstOption? dsn name).map (readOption name) :=
  DataSource.lookup_query hparse name ▸ lookup_reads hreads name

theorem nodup_values (hparse : DataSource.parse dsn = .ok d)
    (hreads : d.query.mapM readPair = .ok values) : (values.map Prod.fst).Nodup :=
  names_of_reads hreads ▸ DataSource.nodup_query hparse

theorem settingOf_eq (hparse : DataSource.parse dsn = .ok d)
    (hreads : d.query.mapM readPair = .ok values) (name : String) (default : Value) :
    settingOf dsn name default = .ok ((values.reverse.lookup name).getD default) := by
  rw [settingOf, ← lookup_values hparse hreads, lookup_reverse (nodup_values hparse hreads)]
  cases values.lookup name <;> rfl

/-- The settings among the options. -/
theorem settings_of_split (hparse : DataSource.parse dsn = .ok d)
    (hsplit : splitOptions d.query = .ok split) :
    settingOf dsn "autocommit" (.bool false) = .ok split.autocommit ∧
      settingOf dsn "timeout" .null = .ok split.timeout := by
  obtain ⟨values, hreads, rfl⟩ := splitOptions_eq_ok.1 hsplit
  exact ⟨settingOf_eq hparse hreads _ _, settingOf_eq hparse hreads _ _⟩

end Settings
end Querywright
