/-
  Transactions of one session beside each other. Whether a begin is refused is decided by the
  transaction that it is called on, not by the connection that all of them share.

  * `Overlaps`: a begin that succeeds while another transaction is active.
  * `begins_apart_iff`: two begins succeed without an end between them exactly when a begin
    overlaps; and a begin is refused exactly when its own transaction is active.
-/
import Mathlib.Data.List.Chain
import Querywright.Adapter.Sqlite
import Querywright.Proofs.Session.Transactions

namespace Querywright

variable {σ : Type}

/-- Not two begins. -/
def Control.Apart (a b : Control) : Prop := ¬(a = begin ∧ b = begin)

theorem Control.Apart.of_ne_begin {a : Control} (h : a ≠ begin) (b : Control) : a.Apart b :=
  fun hboth => h hboth.1

namespace Transaction

/-- A begin that succeeds while another transaction is active. -/
def Use.Overlaps (u : Use) : Prop :=
  u.accepted = [.begin] ∧ ∃ j, j ≠ u.place ∧ (u.before j).active = true

/-- As long as no begin overlaps, the control that succeeded last tells whether a transaction is
active, and at most one is. -/
structure Last (ts : Nat → Transaction) (c : Control) : Prop where
  begin_iff : c = .begin ↔ ∃ i, (ts i).active = true
  alone : ∀ i j, (ts i).active = true → (ts j).active = true → i = j

namespace Last

variable {ts : Nat → Transaction} {last c : Control} {i : Nat}

theorem none_active (c : Control) (hc : c ≠ .begin) : Last (fun _ => {}) c where
  begin_iff := iff_of_false hc (by rintro ⟨i, ⟨⟩⟩)
  alone := by rintro i j ⟨⟩

/-- After a begin its transaction is the only active one. -/
theorem begun (h : ¬∃ j, j ≠ i ∧ (ts j).active = true) :
    Last (Function.update ts i { active := true }) .begin where
  begin_iff := iff_of_true rfl ⟨i, by rw [Function.update_self]⟩
  alone := by
    have honly : ∀ j, (Function.update ts i { active := true } j).active = true → j = i := by
      intro j hj
      by_contra hne
      rw [Function.update_of_ne hne] at hj
      exact h ⟨j, hne, hj⟩
    exact fun j k hj hk => (honly j hj).trans (honly k hk).symm

/-- After the end of the active transaction none is active. -/
theorem ended (h : Last ts last) (hactive : (ts i).active = true) (hc : c ≠ .begin) :
    Last (Function.update ts i { active := false }) c := by
  have hnone : ∀ j, (Function.update ts i { active := false } j).active = false := by
    intro j
    by_cases hj : j = i
    · rw [hj, Function.update_self]
    · rw [Function.update_of_ne hj, Bool.eq_false_iff]
      exact fun hother => hj (h.alone j i hother hactive)
  constructor
  · exact iff_of_false hc fun ⟨j, hj⟩ => Bool.false_ne_true ((hnone j).symm.trans hj)
  · intro j k hj
    exact absurd ((hnone j).symm.trans hj) Bool.false_ne_true

/-- In turn, two begins follow each other exactly when the second one overlaps. -/
theorem apart_iff (h : Last ts last) (hturn : (ts i).active ≠ c.opens) :
    last.Apart c ↔ ¬(c = .begin ∧ ∃ j, j ≠ i ∧ (ts j).active = true) := by
  rw [Control.Apart, and_comm]
  refine not_congr (and_congr_right ?_)
  rintro rfl
  rw [h.begin_iff]
  refine exists_congr fun j => (and_iff_right_of_imp ?_).symm
  rintro hj rfl
  exact hturn hj

theorem ran (h : Last ts last) (hturn : (ts i).active ≠ c.opens)
    (hkept : ¬(c = .begin ∧ ∃ j, j ≠ i ∧ (ts j).active = true)) :
    Last (Function.update ts i { active := c.opens }) c := by
  cases c with
  | begin => exact .begun fun hother => hkept ⟨rfl, hother⟩
  | commit | rollback =>
    have hactive : (ts i).active = true := by simpa [Control.opens] using hturn
    exact h.ended hactive (by decide)

end Last

theorem Use.overlaps_ran {i : Nat} {c : Call} {ts after : Nat → Transaction} {x : Result} :
    Use.Overlaps ⟨i, c, ts, [⟨c.control.call, .ok (.result x)⟩], .ok (), after⟩ ↔
      c.control = .begin ∧ ∃ j, j ≠ i ∧ (ts j).active = true := by
  rw [Use.Overlaps, Use.accepted_ran, List.cons.injEq, and_iff_left rfl]

theorem Use.not_overlaps {u : Use} (h : u.accepted = []) : ¬u.Overlaps :=
  fun hover => List.cons_ne_nil _ _ (hover.1.symm.trans h)

/-- A begin follows another one exactly when a begin overlaps. -/
theorem Used.isChain_iff {ts : Nat → Transaction} {us : List Use} (h : Used ts us) {last : Control}
    (hlast : Last ts last) :
    (last :: accepted us).IsChain Control.Apart ↔ ∀ u ∈ us, ¬u.Overlaps := by
  induction h generalizing last with
  | done ts => exact iff_of_true (List.isChain_singleton _) (by rintro u ⟨⟩)
  | @next u us hdone hrest ih =>
    rw [List.forall_mem_cons, accepted_cons]
    cases hdone with
    | refused hmisused =>
      exact (ih hlast).trans (and_iff_right (Use.not_overlaps rfl)).symm
    | failed hturn =>
      exact (ih hlast).trans (and_iff_right (Use.not_overlaps rfl)).symm
    | @ran i c ts x hturn =>
      rw [Use.accepted_ran, List.singleton_append, List.isChain_cons_cons, Use.overlaps_ran,
        hlast.apart_iff hturn]
      exact and_congr_right fun hkept => ih (hlast.ran hturn hkept)

/-- Two begins of a session succeed with no end between them exactly when a transaction begins
while another one is active. What keeps a begin from being sent is only that its own transaction
is active. -/
theorem begins_apart_iff (s : Session σ) (calls : List (Nat × Call)) (w : World σ) :
    let us := uses s calls (fun _ => {}) w
    ((accepted us).IsChain Control.Apart ↔ ∀ u ∈ us, ¬u.Overlaps) ∧
    ∀ u ∈ us, u.call.control = .begin →
      ((u.events = [] ∧ u.outcome = .error (.transaction .alreadyActive)) ↔
        (u.before u.place).active = true) := by
  refine ⟨?_, fun u hu hbegin => ?_⟩
  · rw [← (uses_used s calls (fun _ => {}) w).isChain_iff (.none_active .commit (by decide))]
    have hfirst : ∀ c ∈ (accepted (uses s calls (fun _ => {}) w)).head?, Control.commit.Apart c :=
      fun c _ => Control.Apart.of_ne_begin (by decide) c
    rw [List.isChain_cons, and_iff_right hfirst]
  · obtain ⟨x, ts, w₁, rfl⟩ := mem_uses hu
    have hmisused := (useOf_done s x ts w₁).1.misused_iff
    rw [Use.Misused, hbegin] at hmisused
    exact and_comm.trans hmisused.symm

/-- Two transactions of a session over a database that accepts everything: the second begin is
sent while the first transaction is open, and succeeds. -/
theorem nested_begin_is_sent :
    let s : Session Wire := { adapter := Adapter.sqlite (fun _ _ => {}) 0 }
    let w : World Wire := { peer := { opened := 1, held := some ⟨0, { url := .text "app.db" }⟩ } }
    let us := uses s [(0, .begin), (1, .begin)] (fun _ => {}) w
    us.map (fun u => (u.events.map fun e => e.call.control?, u.outcome.isOk))
        = [([some .begin], true), ([some .begin], true)] ∧
      us.map (fun u => (u.before 0).active) = [false, true] := by
  decide

end Transaction
end Querywright
