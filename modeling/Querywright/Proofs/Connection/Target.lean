/-
  What a name with options opens, next to the name without them.

  * `DataSource.parse_withOptions`: options behind a name are read as its options, unless the name
    has a fragment, which they then belong to.
  * `Settings.Opening`: what the two drivers are asked for, whatever answers.
  * `own_options_stay_in_the_target`: options of the settings are taken in, and they stay in the
    address: the database is another one.
-/
import Querywright.Proofs.Adapter.Opening
import Querywright.Proofs.Connection.Precedence
import Querywright.Proofs.Connection.Refusal
import Querywright.Proofs.DataSource.Secrets

namespace Querywright

/-! ## Names with options behind them -/

namespace DataSource

variable {base query dsn : String} {d : DataSource} {head : List Char}
  {options fragment : Option (List Char)}

/-- The name has no options: no question mark stands before its fragment. -/
def WithoutOptions (base : String) : Prop := '?' ∉ (Text.cutAtFirst '#' base.toList).1

instance (base : String) : Decidable (WithoutOptions base) :=
  inferInstanceAs (Decidable ('?' ∉ (Text.cutAtFirst '#' base.toList).1))

/-- The name with options behind it. -/
def withOptions (base query : String) : String := base ++ "?" ++ query

theorem toList_withOptions :
    (withOptions base query).toList = base.toList ++ '?' :: query.toList := by
  simp [withOptions]

/-- The options that are read of a name to which some are added: a fragment takes them in. -/
def added (base query : String) : List (String × String) :=
  if '#' ∈ base.toList then [] else Form.decodePairs (kept query.toList)

/-- What is cut before the options does not depend on them. -/
theorem cut_clear {name rest : List Char} (hname : isScheme name = true)
    (hsplit : clean head = name ++ ':' :: rest) (hoptions : '?' ∉ head) (hfragment : '#' ∉ head)
    (hquery : ∀ q, options = some q → '#' ∉ q) :
    cut (clean (written head options fragment))
      = { cut (clean head) with query := (options.map kept).getD [] } := by
  have hclear {c : Char} (hc : c ∉ head) : c ∉ rest := fun hmem =>
    hc (mem_of_mem_clean (hsplit ▸ List.mem_append_right name (List.mem_cons_of_mem _ hmem)))
  have hkept : ∀ q, options.map kept = some q → '#' ∉ q := by
    intro q hq hmem
    obtain ⟨q₀, hq₀, rfl⟩ := Option.map_eq_some_iff.1 hq
    exact hquery q₀ hq₀ (List.mem_of_mem_filter hmem)
  have hhead : cut (written (name ++ ':' :: rest) none none)
      = ⟨name.map Char.toLower, (cutAuthority rest).1, (cutAuthority rest).2, []⟩ :=
    cut_written hname (hclear hoptions) (hclear hfragment) fun _ hq => nomatch hq
  have hnothing : ending none none = [] := rfl
  rw [written, hnothing, List.append_nil] at hhead
  rw [clean_written, hsplit, cut_written hname (hclear hoptions) (hclear hfragment) hkept, hhead]

/-- A name without options, and the name with some behind it, differ after its path alone. -/
theorem exists_written (hbase : WithoutOptions base) (hquery : '#' ∉ query.toList) :
    ∃ head options fragment fragment', '?' ∉ head ∧ '#' ∉ head ∧
      (∀ q, options = some q → '#' ∉ q) ∧
      base.toList = written head none fragment ∧
      (withOptions base query).toList = written head options fragment' ∧
      Form.decodePairs ((options.map kept).getD []) = added base query := by
  rw [toList_withOptions, added]
  rw [WithoutOptions] at hbase
  rcases hcut : Text.cutAtFirst '#' base.toList with ⟨head, _ | f⟩
  · obtain ⟨rfl, hnone⟩ := Text.cutAtFirst_none hcut
    rw [hcut] at hbase
    refine ⟨base.toList, some query.toList, none, none, hbase, hnone, ?_, ?_, ?_, ?_⟩
    · rintro _ ⟨⟩
      exact hquery
    · exact (List.append_nil _).symm
    · simp [written, ending]
    · rw [if_neg hnone]
      rfl
  · have hsome := Text.cutAtFirst_some hcut
    have hhead := Text.not_mem_cutAtFirst '#' base.toList
    rw [hcut] at hbase hhead
    refine ⟨head, none, some f, some (f ++ '?' :: query.toList), hbase, hhead, ?_, ?_, ?_, ?_⟩
    · rintro _ ⟨⟩
    · simp [hsome, written, ending]
    · simp [hsome, written, ending]
    · rw [if_pos (by simp [hsome])]
      rfl

/-- Options behind a name are options of that name. -/
theorem parse_withOptions (hbase : WithoutOptions base) (hquery : '#' ∉ query.toList)
    (h : parse base = .ok d) :
    d.query = [] ∧ parse (withOptions base query) = .ok { d with query := added base query } := by
  obtain ⟨head, options, fragment, fragment', hoptions, hfragment, hunmarked, htext, htext',
    hadded⟩ := exists_written hbase hquery
  obtain ⟨hbrackets, hconfusables, hscheme, port, hport, rfl⟩ := parse_eq_ok.1 h
  obtain ⟨name, rest, hname, hsplit⟩ : ∃ name rest, isScheme name = true ∧
      clean head = name ++ ':' :: rest := by
    rw [htext, clean_written] at hscheme
    exact exists_scheme_of_written hscheme
  have hcut : cut (clean base.toList) = { cut (clean head) with query := [] } := by
    rw [htext]
    exact cut_clear hname hsplit hoptions hfragment fun _ hq => nomatch hq
  have hcut' : cut (clean (withOptions base query).toList)
      = { cut (clean head) with query := (options.map kept).getD [] } := by
    rw [htext']
    exact cut_clear hname hsplit hoptions hfragment hunmarked
  rw [hcut] at hbrackets hconfusables hscheme hport ⊢
  refine ⟨rfl, parse_eq_ok.2 ?_⟩
  rw [hcut', ← hadded]
  exact ⟨hbrackets, hconfusables, hscheme, port, hport, rfl⟩

end DataSource

namespace Settings

open DataSource (WithoutOptions withOptions added)

variable {s : Settings} {base query address : String} {d : DataSource}
  {pairs : List (String × String)}

/-! ## The file of a name -/

/-- The text of an address behind the mark of SQLite. -/
def unmarked (address : String) : String :=
  if Text.startsWith "sqlite:///" address then String.ofList (address.toList.drop 10) else address

theorem prefix_of_append {marker s t : List Char} {c : Char} (hc : c ∉ marker)
    (h : marker <+: s ++ c :: t) : marker <+: s := by
  rcases List.prefix_or_prefix_of_prefix h (List.prefix_append s (c :: t)) with hshort | ⟨more, rfl⟩
  · exact hshort
  · rw [List.prefix_append_right_inj] at h
    cases more with
    | nil => exact ⟨[], by rw [List.append_nil, List.append_nil]⟩
    | cons x more =>
      obtain ⟨rfl, -⟩ := List.cons_prefix_cons.1 h
      exact absurd (List.mem_append_right s List.mem_cons_self) hc

theorem unmarked_withOptions (base query : String) :
    unmarked (withOptions base query) = withOptions (unmarked base) query := by
  have hmark : '?' ∉ "sqlite:///".toList := by decide
  have hsame : Text.startsWith "sqlite:///" (withOptions base query)
      = Text.startsWith "sqlite:///" base := by
    rw [Bool.eq_iff_iff, Text.startsWith, Text.startsWith, List.isPrefixOf_iff_prefix,
      List.isPrefixOf_iff_prefix, DataSource.toList_withOptions]
    exact ⟨prefix_of_append hmark, fun h => h.trans (List.prefix_append _ _)⟩
  rw [unmarked, unmarked, hsame]
  split
  next hstart =>
    have hlength : 10 ≤ base.toList.length := (List.isPrefixOf_iff_prefix.1 hstart).length_le
    rw [DataSource.toList_withOptions, List.drop_append_of_le_length hlength]
    simp [withOptions, String.append_assoc]
  next => rfl

/-- A name with options is no name of a database in memory, and its options are in the file's. -/
theorem pathOf_withOptions (base query : String) :
    pathOf (withOptions base query) = withOptions (unmarked base) query := by
  have hmark : '?' ∈ (withOptions base query).toList := by
    rw [DataSource.toList_withOptions]
    exact List.mem_append_right _ List.mem_cons_self
  have hfile : ¬(withOptions base query = "sqlite://" ∨
      withOptions base query = "sqlite:///:memory:" ∨ withOptions base query = ":memory:") := by
    rintro (h | h | h) <;> exact absurd (h ▸ hmark) (by decide)
  rw [pathOf, if_neg hfile, ← unmarked_withOptions]
  rfl

/-- Options make another file. -/
theorem pathOf_withOptions_ne (base query : String) :
    pathOf (withOptions base query) ≠ pathOf base := by
  rw [pathOf_withOptions]
  intro h
  have htext := congrArg String.toList h
  rw [DataSource.toList_withOptions, pathOf] at htext
  split at htext
  · have hmark : '?' ∈ (":memory:" : String).toList := by
      rw [← htext]
      exact List.mem_append_right _ List.mem_cons_self
    exact absurd hmark (by decide)
  · have hlength := congrArg List.length htext
    change _ = (unmarked base).toList.length at hlength
    rw [List.length_append, List.length_cons] at hlength
    omega

/-! ## Options of the settings -/

/-- An option of the settings, with a text that it can be read from. -/
def IsOwn (option : String × String) : Prop :=
  option.1 ∈ ["autocommit", "timeout"] ∧ ∃ v, readOption option.1 option.2 = .ok v

/-- The text of options, all of which are of the settings. -/
def OwnOptions (query : String) : Prop :=
  '#' ∉ query.toList ∧ ∀ option ∈ Form.decodePairs (DataSource.kept query.toList), IsOwn option

theorem OwnOptions.added (h : OwnOptions query) (base : String) :
    ∀ option ∈ DataSource.added base query, IsOwn option := by
  rw [DataSource.added]
  split
  · exact nofun
  · exact h.2

/-- Options of the settings are neither SSL settings nor options of the driver. -/
theorem splits_own (h : ∀ option ∈ pairs, IsOwn option) :
    ∃ split, splitOptions pairs = .ok split ∧ split.ssl = [] ∧ split.driver = [] := by
  rcases hsplit : splitOptions pairs with e | split
  · obtain ⟨p, hp, hfail⟩ := splitOptions_fails hsplit
    obtain ⟨v, hv⟩ := (h p hp).2
    rw [hfail] at hv
    cases hv
  · obtain ⟨values, hreads, rfl⟩ := splitOptions_eq_ok.1 hsplit
    have hown : ∀ p ∈ values, p.1 ∈ ["autocommit", "timeout"] := by
      intro p hp
      have hname : p.1 ∈ pairs.map Prod.fst := names_of_reads hreads ▸ List.mem_map_of_mem hp
      obtain ⟨q, hq, hsame⟩ := List.mem_map.1 hname
      exact hsame ▸ (h q hq).1
    have hreserved : ∀ name ∈ ["autocommit", "timeout"],
        sslField? name = none ∧ isForDriver name = false := by decide
    refine ⟨sorted values, rfl, ?_, ?_⟩
    · refine List.filterMap_eq_nil_iff.2 fun p hp => ?_
      rw [(hreserved _ (hown p hp)).1]
      rfl
    · have hnone : values.filter (fun p => isForDriver p.1) = [] := by
        refine List.filter_eq_nil_iff.2 fun p hp => ?_
        rw [(hreserved _ (hown p hp)).2]
        exact Bool.false_ne_true
      rw [sorted, hnone]
      rfl

/-- Settings of a name that has options of the settings alone. -/
theorem ofDataSource_own {dsn : String} (hparse : DataSource.parse dsn = .ok d)
    (hown : ∀ option ∈ d.query, IsOwn option) :
    ∃ s, ofDataSource dsn [] = .ok s ∧ s.url = .text dsn ∧ s.parts = .read d ∧
      s.options = .null ∧ s.ssl = .null ∧
      settingOf dsn "autocommit" (.bool false) = .ok s.autocommit ∧
      settingOf dsn "timeout" .null = .ok s.timeout := by
  obtain ⟨split, hsplit, hssl, hdriver⟩ := splits_own hown
  have hsettings := settings_of_split hparse hsplit
  refine ⟨{ readFrom (.text dsn) d split with options := orNull split.driver }, ?_, rfl, rfl,
    ?_, ?_, hsettings⟩
  · rw [ofDataSource_alone, hparse]
    exact map_eq_ok.2 ⟨split, hsplit, rfl⟩
  · rw [hdriver]
    rfl
  · rw [readFrom, hssl]
    rfl

/-! ## What is opened -/

/-- What the drivers are asked for: SQLite for a file, and PostgreSQL for an address, with at most
the time to connect in beside it. -/
structure Reaches (s : Settings) (file address : String) : Prop where
  sqlite : ∀ server, Wire.Opens [(.text file, Adapter.Sqlite.waiting s)]
    (Adapter.Sqlite.connect server s)
  postgres : ∀ server passed, s.driverOptions = .ok passed →
    (∀ key ∈ passed.keys, key = .text "connect_timeout") ∧
      Wire.Opens [(.text address, .map passed)] (Adapter.Postgres.connect server true s)

/-- Without options and SSL settings, the timeout is all that the driver is told. -/
theorem driverOptions_of_timeout {passed : Entries} (hoptions : s.options = .null)
    (hssl : s.ssl = .null) (h : s.driverOptions = .ok passed) :
    passed = [] ∨ ∃ n, passed = [(.text "connect_timeout", .int n)] := by
  rw [driverOptions_eq, hoptions, hssl] at h
  obtain ⟨-, -, n, -, rfl⟩ | ⟨-, rfl⟩ := withTimeout_eq_ok (show withTimeout s.timeout [] = _ from h)
  · exact .inr ⟨n, rfl⟩
  · exact .inl rfl

theorem reaches_address (hurl : s.url = .text address) (hparts : s.parts = .read d)
    (hoptions : s.options = .null) (hssl : s.ssl = .null) :
    s.Reaches (pathOf address) address where
  sqlite server := by
    refine Adapter.Sqlite.connect_opens server ?_
    rw [hurl]
    rfl
  postgres server passed hpassed := by
    obtain ⟨label, hlabel⟩ := label_of_read hparts
    have hopens := Adapter.Postgres.connect_opens server hlabel hpassed
    rw [hurl] at hopens
    rcases driverOptions_of_timeout hoptions hssl hpassed with rfl | ⟨n, rfl⟩
    · exact ⟨nofun, hopens⟩
    · exact ⟨fun key hkey => List.mem_singleton.1 hkey, hopens⟩

end Settings

open DataSource (WithoutOptions withOptions)
open Settings (OwnOptions settingOf ofDataSource pathOf unmarked)

/-- Options of the settings alone are taken in, and none is passed on as a keyword. But they stay in
the address: the file that SQLite opens is another one, and PostgreSQL is given them. -/
theorem own_options_stay_in_the_target {base query : String} {d : DataSource}
    (hbase : WithoutOptions base) (hparse : DataSource.parse base = .ok d)
    (hown : OwnOptions query) :
    ∃ s s', ofDataSource base [] = .ok s ∧ ofDataSource (withOptions base query) [] = .ok s' ∧
      settingOf (withOptions base query) "autocommit" (.bool false) = .ok s'.autocommit ∧
      settingOf (withOptions base query) "timeout" .null = .ok s'.timeout ∧
      s.Reaches (pathOf base) base ∧
      s'.Reaches (withOptions (unmarked base) query) (withOptions base query) ∧
      withOptions (unmarked base) query ≠ pathOf base := by
  obtain ⟨hnone, hparse'⟩ := DataSource.parse_withOptions hbase hown.1 hparse
  obtain ⟨s, hs, hurl, hparts, hoptions, hssl, -⟩ :=
    Settings.ofDataSource_own hparse (by rw [hnone]; exact nofun)
  obtain ⟨s', hs', hurl', hparts', hoptions', hssl', hautocommit, htimeout⟩ :=
    Settings.ofDataSource_own hparse' (hown.added base)
  have hfile := Settings.pathOf_withOptions base query
  refine ⟨s, s', hs, hs', hautocommit, htimeout, Settings.reaches_address hurl hparts hoptions hssl,
    ?_, ?_⟩
  · rw [← hfile]
    exact Settings.reaches_address hurl' hparts' hoptions' hssl'
  · rw [← hfile]
    exact Settings.pathOf_withOptions_ne base query

theorem own_options_stay_in_the_target_of_app : ∃ s s',
    ofDataSource "sqlite:///app.db" [] = .ok s ∧
    ofDataSource "sqlite:///app.db?timeout=2.5&autocommit=yes" [] = .ok s' ∧
    s'.autocommit = .bool true ∧
    s.Reaches "app.db" "sqlite:///app.db" ∧
    s'.Reaches "app.db?timeout=2.5&autocommit=yes"
      "sqlite:///app.db?timeout=2.5&autocommit=yes" := by
  have hown : OwnOptions "timeout=2.5&autocommit=yes" := by
    have hpairs : Form.decodePairs (DataSource.kept "timeout=2.5&autocommit=yes".toList)
        = [("timeout", "2.5"), ("autocommit", "yes")] := by decide
    refine ⟨by decide, ?_⟩
    rw [hpairs]
    exact List.forall_mem_cons.2 ⟨⟨by decide, _, rfl⟩,
      List.forall_mem_singleton.2 ⟨by decide, _, rfl⟩⟩
  have hbase : WithoutOptions "sqlite:///app.db" := by decide
  obtain ⟨s, s', hs, hs', hautocommit, -, hreaches, hreaches', -⟩ :=
    own_options_stay_in_the_target hbase rfl hown
  exact ⟨s, s', hs, hs', Except.ok.inj (hautocommit.symm.trans rfl), hreaches, hreaches'⟩

/-- A timeout that is taken in is a part of the file's name as well. -/
theorem timeout_opens_another_file : ∃ s s',
    ofDataSource "sqlite:///app.db" [] = .ok s ∧
    ofDataSource "sqlite:///app.db?timeout=2.5" [] = .ok s' ∧
    Settings.databasePath s.url = .ok (.text "app.db") ∧
    Settings.databasePath s'.url = .ok (.text "app.db?timeout=2.5") ∧
    ∀ server, Wire.Opens [(.text "app.db?timeout=2.5", .float (Binary64.ofRatio false 5 2))]
      (Adapter.Sqlite.connect server s') :=
  ⟨_, _, rfl, rfl, rfl, rfl, fun server => Adapter.Sqlite.connect_opens server rfl⟩

end Querywright
