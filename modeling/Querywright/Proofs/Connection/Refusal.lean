/-
  Data source names of which no settings can be made.

  * `DataSource.parse_fails`: a name that cannot be read fails with a value of the wrong form,
    whichever of its parts is at fault.
  * `readFlag_cases`: which texts are truth values.
  * `names_give_settings_or_one_fault`: a name alone gives settings, or the one kind of fault that
    there is for settings.
-/
import Querywright.Proofs.Connection.Label
import Querywright.Proofs.Connection.Splitting

namespace Querywright

/-- A fault of a value that has the wrong form. -/
def Fault.IsOfValue (e : Fault) : Prop := e.label = "ValueError"

theorem isOfValue_address (cause : AddressFault) : (Fault.address cause).IsOfValue := rfl

/-! ## Names that cannot be read -/

theorem Host.checkAddress_fails (s : List Char) : FailsWith Fault.IsOfValue (checkAddress s) := by
  rw [checkAddress]
  split_ifs
  · exact failsWith_ok ()
  · exact failsWith_error (isOfValue_address _)
  · exact failsWith_error (isOfValue_address _)
  · exact failsWith_ok ()
  · exact failsWith_error (isOfValue_address _)

namespace DataSource

theorem checkBrackets_fails (authority : List Char) :
    FailsWith Fault.IsOfValue (checkBrackets authority) := by
  rw [checkBrackets]
  split_ifs
  · exact failsWith_error (isOfValue_address _)
  · split
    · dsimp only
      split_ifs
      · exact failsWith_error (isOfValue_address _)
      · exact Host.checkAddress_fails _
    · exact Host.checkAddress_fails _
  · exact failsWith_ok ()

theorem checkConfusables_fails (authority : List Char) :
    FailsWith Fault.IsOfValue (checkConfusables authority) := by
  rw [checkConfusables]
  split_ifs
  · exact failsWith_error (isOfValue_address _)
  · exact failsWith_ok ()

theorem readPort_fails (s : List Char) : FailsWith Fault.IsOfValue (readPort s) := by
  rw [readPort]
  split_ifs
  · exact failsWith_ok none
  · exact failsWith_error rfl
  · dsimp only
    split_ifs
    · exact failsWith_ok _
    · exact failsWith_error (isOfValue_address _)
  · exact failsWith_error (isOfValue_address _)

theorem parse_fails (dsn : String) : FailsWith Fault.IsOfValue (parse dsn) := by
  rw [parse_eq]
  refine (checkBrackets_fails _).bind fun _ => (checkConfusables_fails _).bind fun _ => ?_
  split_ifs
  · exact failsWith_error (isOfValue_address _)
  · exact (readPort_fails _).bind fun port => failsWith_ok _

end DataSource

namespace Settings

variable {name raw dsn : String} {e : Fault}

/-! ## Options that cannot be read -/

/-- A text that is a truth value, whatever its case and the blanks around it. -/
def IsFlag (raw : String) : Prop :=
  String.ofList (Text.lower (Text.stripChars raw.toList))
    ∈ ["1", "true", "yes", "on", "0", "false", "no", "off"]

theorem readFlag_cases (name raw : String) :
    (IsFlag raw ∧ ∃ b, readFlag name raw = .ok (.bool b)) ∨
      (¬IsFlag raw ∧ readFlag name raw
        = .error (.setting (.notBoolean name (Text.quote raw)) none)) := by
  rw [readFlag, IsFlag]
  generalize String.ofList (Text.lower (Text.stripChars raw.toList)) = word
  split_ifs with hyes hno
  · refine .inl ⟨?_, true, rfl⟩
    rw [List.contains_iff_mem] at hyes
    exact List.mem_append_left ["0", "false", "no", "off"] hyes
  · refine .inl ⟨?_, false, rfl⟩
    rw [List.contains_iff_mem] at hno
    exact List.mem_append_right ["1", "true", "yes", "on"] hno
  · refine .inr ⟨?_, rfl⟩
    rw [List.contains_iff_mem] at hyes hno
    intro hmem
    change word ∈ ["1", "true", "yes", "on"] ++ ["0", "false", "no", "off"] at hmem
    exact (List.mem_append.1 hmem).elim hyes hno

theorem toInteger_text_fails (s : String) : FailsWith Fault.IsOfValue (Value.text s).toInteger := by
  rw [Value.toInteger]
  split
  · exact failsWith_ok _
  · rename_i cause _
    refine failsWith_error ?_
    cases cause <;> rfl

/-- An option that cannot be read is a setting that cannot be used. It has a value of the wrong
form as its reason, unless it should be a truth value. -/
theorem readOption_fails (h : readOption name raw = .error e) :
    ∃ cause reason, e = .setting cause reason ∧
      ((∃ r, reason = some r ∧ r.IsOfValue) ∨
        (reason = none ∧ name = "autocommit" ∧ ¬IsFlag raw)) := by
  rw [readOption] at h
  split_ifs at h with hautocommit
  · rcases readFlag_cases name raw with ⟨-, b, hread⟩ | ⟨hflag, hread⟩
    · rw [hread] at h
      cases h
    · rw [hread] at h
      cases h
      exact ⟨_, none, rfl, .inr ⟨rfl, hautocommit, hflag⟩⟩
  · rw [readNumber] at h
    split at h
    · cases h
    · cases h
      exact ⟨_, _, rfl, .inl ⟨_, rfl, rfl⟩⟩
  · rw [readCount] at h
    split at h
    · cases h
    · rename_i cause hcause
      cases h
      exact ⟨_, _, rfl, .inl ⟨cause, rfl, toInteger_text_fails raw cause hcause⟩⟩

theorem splitOptions_fails {pairs : List (String × String)} (h : splitOptions pairs = .error e) :
    ∃ p ∈ pairs, readOption p.1 p.2 = .error e := by
  rw [splitOptions_eq] at h
  rcases hreads : pairs.mapM readPair with e' | values
  · rw [hreads] at h
    cases h
    obtain ⟨p, hp, hfail⟩ := exists_of_mapM_eq_error hreads
    refine ⟨p, hp, ?_⟩
    rw [readPair] at hfail
    rcases hread : readOption p.1 p.2 with e' | v
    · rw [hread] at hfail
      cases hfail
      rfl
    · rw [hread] at hfail
      cases hfail
  · rw [hreads] at h
    cases h

/-! ## Settings of a name alone -/

/-- A name alone is read, and its options are. -/
theorem ofDataSource_alone (dsn : String) : ofDataSource dsn [] =
    match DataSource.parse dsn with
    | .error e => .error (addressFault e)
    | .ok d => (splitOptions d.query).map fun split =>
      { readFrom (.text dsn) d split with options := orNull split.driver } := by
  rcases hparse : DataSource.parse dsn with e | d
  · rw [ofDataSource, hparse]
    rfl
  · rcases hsplit : splitOptions d.query with e | split
    · rw [ofDataSource, hparse]
      simp only [pure_bind, hsplit]
      rfl
    · dsimp only
      rw [hsplit]
      have hset : (readFrom (.text dsn) d split).setAll [] = .ok (readFrom (.text dsn) d split) :=
        rfl
      exact ofDataSource_eq_ok.2 ⟨rfl, d, split, [], _, hparse, hsplit, rfl, hset, rfl⟩

/-- The options of a name can all be read, exactly when the first value of each of them can. -/
theorem splits_iff {d : DataSource} (hparse : DataSource.parse dsn = .ok d) :
    (∃ split, splitOptions d.query = .ok split) ↔
      ∀ name raw, DataSource.firstOption? dsn name = some raw →
        ∃ v, readOption name raw = .ok v := by
  constructor
  · rintro ⟨split, hsplit⟩ name raw hraw
    obtain ⟨values, hreads, -⟩ := splitOptions_eq_ok.1 hsplit
    have hread := lookup_reads hreads name
    rw [DataSource.lookup_query hparse, hraw, Option.map_some] at hread
    obtain ⟨v, -, hv⟩ := Option.map_eq_some_iff.1 hread
    exact ⟨v, hv.symm⟩
  · intro hread
    rcases hsplit : splitOptions d.query with e | split
    · obtain ⟨p, hp, hfail⟩ := splitOptions_fails hsplit
      have hfirst : DataSource.firstOption? dsn p.1 = some p.2 := by
        rw [← DataSource.lookup_query hparse]
        exact lookup_eq_of_mem (DataSource.nodup_query hparse) hp
      obtain ⟨v, hv⟩ := hread p.1 p.2 hfirst
      rw [hfail] at hv
      cases hv
    · exact ⟨split, rfl⟩

/-- The fault of a name alone is one of the settings. It has a value of the wrong form as its
reason, or it has none and is about a truth value. -/
theorem ofDataSource_fails (h : ofDataSource dsn [] = .error e) :
    e.label = "AdapterConfigurationError" ∧
      ((∃ reason, e.reason? = some reason ∧ reason.IsOfValue) ∨
        (e.reason? = none ∧ ∃ raw, DataSource.firstOption? dsn "autocommit" = some raw ∧
          ¬IsFlag raw)) := by
  rw [ofDataSource_alone] at h
  rcases hparse : DataSource.parse dsn with cause | d
  · rw [hparse] at h
    cases h
    exact ⟨rfl, .inl ⟨cause, rfl, DataSource.parse_fails dsn cause hparse⟩⟩
  · rw [hparse] at h
    dsimp only at h
    rcases hsplit : splitOptions d.query with e' | split
    · rw [hsplit] at h
      cases h
      obtain ⟨p, hp, hfail⟩ := splitOptions_fails hsplit
      obtain ⟨cause, reason, rfl, ⟨r, rfl, hr⟩ | ⟨rfl, hname, hflag⟩⟩ := readOption_fails hfail
      · exact ⟨rfl, .inl ⟨r, rfl, hr⟩⟩
      · refine ⟨rfl, .inr ⟨rfl, p.2, ?_, hflag⟩⟩
        rw [← DataSource.lookup_query hparse, ← hname]
        exact lookup_eq_of_mem (DataSource.nodup_query hparse) hp
    · rw [hsplit] at h
      cases h

/-- A name alone gives settings, of which it is the address, or the one kind of fault that there is
for settings. It gives settings exactly when it can be read, and the first value of each of its
options can. -/
theorem names_give_settings_or_one_fault (dsn : String) :
    ((∃ s, ofDataSource dsn [] = .ok s ∧ s.url = .text dsn) ∨
      ∃ e, ofDataSource dsn [] = .error e ∧ e.label = "AdapterConfigurationError" ∧
        ((∃ reason, e.reason? = some reason ∧ reason.label = "ValueError") ∨
          (e.reason? = none ∧ ∃ raw, DataSource.firstOption? dsn "autocommit" = some raw ∧
            ¬IsFlag raw))) ∧
    ((∃ s, ofDataSource dsn [] = .ok s) ↔
      (∃ d, DataSource.parse dsn = .ok d) ∧
        ∀ name raw, DataSource.firstOption? dsn name = some raw →
          ∃ v, readOption name raw = .ok v) := by
  constructor
  · rcases h : ofDataSource dsn [] with e | s
    · exact .inr ⟨e, rfl, ofDataSource_fails h⟩
    · obtain ⟨-, d, split, options, settings, -, -, -, hset, rfl⟩ := ofDataSource_eq_ok.1 h
      cases hset
      exact .inl ⟨_, rfl, rfl⟩
  · rw [ofDataSource_alone]
    rcases hparse : DataSource.parse dsn with cause | d
    · constructor
      · rintro ⟨s, ⟨⟩⟩
      · rintro ⟨⟨d, ⟨⟩⟩, -⟩
    · rw [← splits_iff hparse]
      constructor
      · rintro ⟨s, hs⟩
        obtain ⟨split, hsplit, -⟩ := map_eq_ok.1 hs
        exact ⟨⟨d, rfl⟩, split, hsplit⟩
      · rintro ⟨-, split, hsplit⟩
        exact ⟨_, map_eq_ok.2 ⟨split, hsplit, rfl⟩⟩

end Settings
end Querywright
