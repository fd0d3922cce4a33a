/-
  Migrations are applied exactly once, each as a whole, whatever fails.

  * `Keeps.apply`: one run commits the first of the migrations that are not recorded, all of them
    if it returns, and what is sent after a failure is one rollback at most.
  * `apply_exactly_once`: so do runs one after the other.
-/
import Querywright.Proofs.Migration.Ledger
import Querywright.Proofs.Value.Key

namespace Querywright

open Adapter (Event History history_append)

variable {σ : Type}

/-! ## The names that are left -/

namespace Migrations

theorem unrecorded_append (m : Migrations) (names : List Value) (done : List Migration) :
    m.unrecorded (names ++ (Contents.of done).names)
      = (m.unrecorded names).filter fun x => !done.any fun y => y.name == x.name := by
  rw [unrecorded, unrecorded, List.filter_filter]
  refine List.filter_congr fun x _ => ?_
  rw [List.any_append, Contents.of, List.any_map, Bool.not_or, Bool.and_comm]
  congr 3
  funext y
  exact Value.sameKey_text _ _

/-- When the first of the migrations that are left are recorded, the others are left. -/
theorem unrecorded_rest {m : Migrations} (hnames : (m.items.map Migration.name).Nodup)
    {names : List Value} {done rest : List Migration} (h : m.unrecorded names = done ++ rest) :
    m.unrecorded (names ++ (Contents.of done).names) = rest := by
  have hleft : ((done ++ rest).map Migration.name).Nodup := by
    rw [← h]
    exact hnames.sublist (List.filter_sublist.map _)
  rw [List.map_append, List.nodup_append] at hleft
  have hdone : done.filter (fun x => !done.any fun y => y.name == x.name) = [] := by
    refine List.filter_eq_nil_iff.2 fun x hx => ?_
    simpa using ⟨x, hx, rfl⟩
  have hrest : rest.filter (fun x => !done.any fun y => y.name == x.name) = rest := by
    refine List.filter_eq_self.2 fun x hx => ?_
    simpa using fun y hy => hleft.2.2 _ (List.mem_map_of_mem hy) _ (List.mem_map_of_mem hx)
  rw [unrecorded_append, h, List.filter_append, hdone, hrest, List.nil_append]

end Migrations

/-! ## One run -/

namespace Keeps

variable {a : Adapter σ} {m : Migrations} {plain : String → Prop} {books : σ → Books}
  {before after : σ} {c : Contents} {events : List Event}

theorem answers_defined (h : Keeps a m plain books) {defined : Result}
    (ha : a.Answers before ⟨.run (m.definition a.dialect), .ok (.result defined)⟩ after) :
    books after = books before := by
  obtain ⟨w, r, w', hrun, rfl, rfl, hr⟩ := ha.run
  cases r with
  | error e => cases hr
  | ok x => exact h.defines hrun

theorem answers_reading (h : Keeps a m plain books) {table : Result}
    (ha : a.Answers before ⟨.run m.reading, .ok (.result table)⟩ after) :
    books after = books before ∧
      table.collected.rows.mapM Migrations.recordedName = .ok (books before).visible.names := by
  obtain ⟨w, r, w', hrun, rfl, rfl, hr⟩ := ha.run
  cases r with
  | error e => cases hr
  | ok x =>
    cases hr
    exact h.reads hrun

theorem namesRead (h : Keeps a m plain books) {r : Except Fault (List Value)}
    (hread : Migrations.NamesRead m a.dialect events r) (hhistory : a.History before events after)
    (hidle : books before = ⟨c, none⟩) :
    books after = ⟨c, none⟩ ∧ (∀ names, r = .ok names → names = c.names ∧ Clean events) ∧
      ∀ e, r = .error e → StoppedAt e events := by
  have hdefinition := m.definition_uncontrolled a.dialect
  cases hread with
  | undefined e =>
    obtain ⟨_, hdefine, rfl⟩ := hhistory
    have hstopped : StoppedAt e ([] ++ [⟨.run (m.definition a.dialect), .error e⟩]) :=
      .outside _ (List.forall_mem_nil _) rfl
    rw [List.nil_append] at hstopped
    refine ⟨(h.answers_error hdefine).trans hidle, nofun, ?_⟩
    rintro _ ⟨⟩
    exact hstopped
  | unread defined e =>
    obtain ⟨_, hdefine, _, hread, rfl⟩ := hhistory
    have hdefined := (h.answers_defined hdefine).trans hidle
    have hclean : Clean [⟨.run (m.definition a.dialect), .ok (.result defined)⟩] :=
      .of_uncontrolled (List.forall_mem_singleton.2 rfl) (List.forall_mem_singleton.2 hdefinition)
    have hstopped := StoppedAt.outside (e := e) m.reading hclean.succeeded hclean.closed
    rw [List.singleton_append] at hstopped
    refine ⟨(h.answers_error hread).trans hdefined, nofun, ?_⟩
    rintro _ ⟨⟩
    exact hstopped
  | read defined table =>
    obtain ⟨_, hdefine, _, hread, rfl⟩ := hhistory
    have hdefined := (h.answers_defined hdefine).trans hidle
    obtain ⟨hafter, hnames⟩ := h.answers_reading hread
    rw [hdefined] at hafter hnames
    rw [hnames]
    refine ⟨hafter, ?_, nofun⟩
    rintro _ ⟨⟩
    exact ⟨rfl, .of_uncontrolled (by simp) (by simp [hdefinition, m.reading_uncontrolled])⟩

/-- Migrations one after the other: the first of them are kept, all of them without a fault. -/
theorem applied (h : Keeps a m plain books) {xs : List Migration}
    (hplain : ∀ x ∈ xs, x.Plain plain) {r : Except Fault Unit}
    (happlied : Migrations.Applied m xs events r) (hhistory : a.History before events after)
    (hidle : books before = ⟨c, none⟩) :
    ∃ done rest, xs = done ++ rest ∧ books after = ⟨c ++ .of done, none⟩ ∧
      (r = .ok () → rest = [] ∧ Clean events) ∧ ∀ e, r = .error e → StoppedAt e events := by
  -- Each migration starts outside a transaction, on what the ones before it have committed.
  induction happlied generalizing before c with
  | done =>
    cases hhistory
    have hclean : Clean [] := ⟨List.forall_mem_nil _, rfl⟩
    rw [← c.append_of_nil] at hidle
    exact ⟨[], [], rfl, hidle, fun _ => ⟨rfl, hclean⟩, nofun⟩
  | @stopped x rest events e ht =>
    obtain ⟨hafter, hstopped⟩ :=
      (h.transacted (hplain x List.mem_cons_self) ht hhistory hidle).2 e rfl
    refine ⟨[], x :: rest, rfl, ?_, nofun, ?_⟩
    · rw [hafter, Contents.append_of_nil]
    · rintro _ ⟨⟩
      exact hstopped
  | @next x rest block events results r ht hrest ih =>
    obtain ⟨between, hblock, hlater⟩ := history_append.1 hhistory
    obtain ⟨hkept, hclean⟩ :=
      (h.transacted (hplain x List.mem_cons_self) ht hblock hidle).1 results rfl
    obtain ⟨done, left, rfl, hafter, hended, hstopped⟩ :=
      ih (List.forall_mem_cons.1 hplain).2 hlater hkept
    refine ⟨x :: done, left, rfl, ?_, fun hr => ?_, fun e hr => (hstopped e hr).after hclean⟩
    · rw [hafter, Contents.append_assoc, ← Contents.of_append, List.singleton_append]
    · obtain ⟨hleft, hclean'⟩ := hended hr
      exact ⟨hleft, hclean.append hclean'⟩

/-- One run commits the first of the migrations that are not recorded, all of them if it
returns. If it fails, then nothing was sent, or what was sent ended as it must. -/
theorem apply (h : Keeps a m plain books) (hplain : ∀ x ∈ m.items, x.Plain plain)
    {r : Except Fault (List Migration)} (hrun : Migrations.ApplyRun m a.dialect events r)
    (hhistory : a.History before events after) (hidle : books before = ⟨c, none⟩) :
    ∃ done rest, m.unrecorded c.names = done ++ rest ∧ books after = ⟨c ++ .of done, none⟩ ∧
      (∀ listed, r = .ok listed → listed = done ∧ rest = []) ∧
      ∀ e, r = .error e → (¬m.Named ∧ events = []) ∨ StoppedAt e events := by
  cases hrun with
  | unnamed hunnamed e =>
    cases hhistory
    rw [← c.append_of_nil] at hidle
    exact ⟨[], _, rfl, hidle, nofun, fun _ _ => .inl ⟨hunnamed, rfl⟩⟩
  | @unread _ e hread =>
    obtain ⟨hafter, -, hstopped⟩ := h.namesRead hread hhistory hidle
    rw [← c.append_of_nil] at hafter
    refine ⟨[], _, rfl, hafter, nofun, ?_⟩
    rintro _ ⟨⟩
    exact .inr (hstopped e rfl)
  | @applied first events names r hread happlied =>
    obtain ⟨between, hfirst, hlater⟩ := history_append.1 hhistory
    obtain ⟨hbetween, hnames, -⟩ := h.namesRead hread hfirst hidle
    obtain ⟨rfl, hclean⟩ := hnames names rfl
    have hpending : ∀ x ∈ m.unrecorded c.names, x.Plain plain :=
      fun x hx => hplain x (List.mem_of_mem_filter hx)
    obtain ⟨done, rest, hsplit, hafter, hended, hstopped⟩ :=
      h.applied hpending happlied hlater hbetween
    refine ⟨done, rest, hsplit, hafter, fun listed hlisted => ?_, fun e he => .inr ?_⟩
    · cases r with
      | error e => cases hlisted
      | ok u =>
        cases hlisted
        obtain ⟨hrest, -⟩ := hended rfl
        exact ⟨by rw [hsplit, hrest, List.append_nil], hrest⟩
    · cases r with
      | ok u => cases he
      | error e' =>
        cases he
        exact (hstopped e rfl).after hclean

end Keeps

/-! ## Runs one after the other -/

/-- The world after migrations were applied in one session after the other, whatever came of it. -/
def Migrations.applyAll (m : Migrations) (sessions : List (Session σ)) (w : World σ) : World σ :=
  sessions.foldl (fun w s => (apply s m w).2) w

/-- One run of a session whose store keeps books. -/
theorem Keeps.session_apply {s : Session σ} {m : Migrations} {plain : String → Prop}
    {books : σ → Books} (h : Keeps s.adapter m plain books) {w : World σ} {c : Contents}
    (hplain : ∀ x ∈ m.items, x.Plain plain) (hidle : books w.peer = ⟨c, none⟩) :
    ∃ done rest, m.unrecorded c.names = done ++ rest ∧
      books (Migrations.apply s m w).2.peer = ⟨c ++ .of done, none⟩ ∧
      (∀ listed, (Migrations.apply s m w).1 = .ok listed → listed = done ∧ rest = []) ∧
      ∀ e, (Migrations.apply s m w).1 = .error e →
        (¬m.Named ∧ m.applyEvents s w = []) ∨ StoppedAt e (m.applyEvents s w) :=
  h.apply hplain (Migrations.apply_run s m w) (Migrations.apply_history s m w) hidle

theorem applyAll_commits {m : Migrations} {plain : String → Prop} {books : σ → Books}
    (hnames : (m.items.map Migration.name).Nodup) (hplain : ∀ x ∈ m.items, x.Plain plain)
    {sessions : List (Session σ)} (hkeeps : ∀ s ∈ sessions, Keeps s.adapter m plain books)
    {w : World σ} {c : Contents} (hidle : books w.peer = ⟨c, none⟩) :
    ∃ done rest, m.unrecorded c.names = done ++ rest ∧
      books (m.applyAll sessions w).peer = ⟨c ++ .of done, none⟩ := by
  induction sessions generalizing w c with
  | nil => exact ⟨[], _, rfl, by rw [Contents.append_of_nil, ← hidle]; rfl⟩
  | cons s sessions ih =>
    have hs := List.forall_mem_cons.1 hkeeps
    obtain ⟨first, rest, hsplit, hfirst, -⟩ := hs.1.session_apply hplain hidle
    obtain ⟨more, left, hleft, hall⟩ := ih hs.2 hfirst
    have hrest := Migrations.unrecorded_rest hnames hsplit
    refine ⟨first ++ more, left, ?_, ?_⟩
    · rw [hsplit, List.append_assoc, ← hleft]
      exact congrArg _ hrest.symm
    · rw [Contents.of_append, ← Contents.append_assoc]
      exact hall

/-- Two migrations, the first of two statements. -/
def usersAndTags : Migrations where
  items := [⟨"001_users", "CREATE TABLE users (name TEXT); INSERT INTO users VALUES ('a;b')"⟩,
    ⟨"002_tags", "CREATE TABLE tags (label TEXT)"⟩]

/-- An empty ledger in which the eighth statement fails: the first one of the second migration. -/
def interrupted : World Ledger where
  peer := ⟨⟨{}, none⟩, List.replicate 7 false ++ [true]⟩

/-- The run after the interrupted one goes on where that one stopped. -/
example :
    let s : Session Ledger := { adapter := Ledger.adapter }
    (usersAndTags.applyAll [s] interrupted).peer.books.committed.statements
        = ["CREATE TABLE users (name TEXT)", "INSERT INTO users VALUES ('a;b')"] ∧
      (usersAndTags.applyAll [s, s] interrupted).peer.books.committed.statements
        = ["CREATE TABLE users (name TEXT)", "INSERT INTO users VALUES ('a;b')",
          "CREATE TABLE tags (label TEXT)"] := by
  decide +kernel

end Querywright
