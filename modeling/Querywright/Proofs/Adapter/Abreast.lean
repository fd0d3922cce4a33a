/-
  Two runs side by side, each against its own server.

  * `Wire.AnswerAlike`: the servers gave the same answer to the calls of each position of two
    histories.
  * `World.Abreast`: worlds with the same clock, journal and reports, and with wires that differ in
    no more than what the calls so far were.
  * `Couples`: from worlds abreast, two actions to which the servers answer alike come to related
    outcomes, in worlds abreast. What is composed of such parts is so too. A part may only add to
    its history: what was answered alike in the end was answered alike before.
-/
import Querywright.Proofs.Adapter.Line
import Querywright.Proofs.Secret.Alike

namespace Querywright

open Wire (Event Server)

/-! ## Answers -/

/-- At each position of the histories the servers gave the same answer. -/
def Wire.AnswerAlike (server server' : Server) (history history' : List Event) : Prop :=
  ∀ (n : Nat) (e e' : Event), history[n]? = some e → history'[n]? = some e' →
    server (history.take n) e = server' (history'.take n) e'

theorem Wire.AnswerAlike.of_prefix {server server' : Server}
    {before before' after after' : List Event} (h : AnswerAlike server server' after after')
    (hbefore : before <+: after) (hbefore' : before' <+: after') :
    AnswerAlike server server' before before' := by
  obtain ⟨more, rfl⟩ := hbefore
  obtain ⟨more', rfl⟩ := hbefore'
  intro n e e' he he'
  have hn := (List.getElem?_eq_some_iff.1 he).1
  have hn' := (List.getElem?_eq_some_iff.1 he').1
  have hwhole := h n e e' (by rwa [List.getElem?_append_left hn])
    (by rwa [List.getElem?_append_left hn'])
  rwa [List.take_append_of_le_length (Nat.le_of_lt hn),
    List.take_append_of_le_length (Nat.le_of_lt hn')] at hwhole

/-! ## Worlds -/

/-- The wires differ in no more than what the calls so far were. -/
structure Wire.Abreast (wire wire' : Wire) : Prop where
  opened : wire.opened = wire'.opened
  held : wire.held = wire'.held
  calls : wire.history.length = wire'.history.length

theorem Wire.Abreast.refl (wire : Wire) : wire.Abreast wire := ⟨rfl, rfl, rfl⟩

/-- The worlds differ in no more than what the calls so far were. -/
structure World.Abreast (w w' : World Wire) : Prop where
  clock : w.clock = w'.clock
  journal : w.journal = w'.journal
  reports : w.reports = w'.reports
  peer : w.peer.Abreast w'.peer

theorem World.Abreast.refl (w : World Wire) : w.Abreast w := ⟨rfl, rfl, rfl, .refl w.peer⟩

/-- The calls made so far. -/
abbrev World.calls (w : World Wire) : List Event := w.peer.history

/-! ## Actions -/

/-- From worlds abreast, and where the servers answer alike, the actions come to related outcomes in
worlds abreast. -/
structure Couples {α : Type} (server server' : Server) (R : α → α → Prop) (a a' : Action Wire α) :
    Prop where
  grows : ∀ w, w.calls <+: (a w).2.calls
  grows' : ∀ w, w.calls <+: (a' w).2.calls
  related : ∀ w w', w.Abreast w' → Wire.AnswerAlike server server' (a w).2.calls (a' w').2.calls →
    Matches R (a w).1 (a' w').1 ∧ (a w).2.Abreast (a' w').2

namespace Couples

variable {α β γ : Type} {server server' : Server} {R : α → α → Prop} {S : β → β → Prop}
  {a a' : Action Wire α}

/-- Actions that neither call nor look at the calls. -/
theorem of_local (h : ∀ w, (a w).2.calls = w.calls) (h' : ∀ w, (a' w).2.calls = w.calls)
    (hrelated : ∀ w w', w.Abreast w' → Matches R (a w).1 (a' w').1 ∧ (a w).2.Abreast (a' w').2) :
    Couples server server' R a a' where
  grows w := h w ▸ List.prefix_rfl
  grows' w := h' w ▸ List.prefix_rfl
  related w w' hw _ := hrelated w w' hw

theorem ofExcept {r r' : Except Fault α} (h : Matches R r r') :
    Couples server server' R (Action.ofExcept r) (Action.ofExcept r') :=
  of_local (fun _ => rfl) (fun _ => rfl) fun _ _ hw => ⟨h, hw⟩

theorem pure {x x' : α} (h : R x x') :
    Couples server server' R (Pure.pure x) (Pure.pure x') := ofExcept (.ok h)

theorem throw (e : Fault) :
    Couples server server' R (MonadExcept.throw e) (MonadExcept.throw e) := ofExcept (.error e)

theorem now : Couples server server' Eq Action.now Action.now :=
  of_local (fun _ => rfl) (fun _ => rfl) fun _ _ hw => ⟨.ok hw.clock, hw⟩

theorem pass (t : Journal.Micros) : Couples server server' Eq (Action.pass t) (Action.pass t) :=
  of_local (fun _ => rfl) (fun _ => rfl) fun _ _ hw =>
    ⟨.ok rfl, congrArg (· + t) hw.clock, hw.journal, hw.reports, hw.peer⟩

theorem log (e : Journal.Entry) : Couples server server' Eq (Action.log e) (Action.log e) :=
  of_local (fun _ => rfl) (fun _ => rfl) fun _ _ hw =>
    ⟨.ok rfl, hw.clock, congrArg (· ++ [e]) hw.journal, hw.reports, hw.peer⟩

theorem report (r : Report) : Couples server server' Eq (Action.report r) (Action.report r) :=
  of_local (fun _ => rfl) (fun _ => rfl) fun _ _ hw =>
    ⟨.ok rfl, hw.clock, hw.journal, congrArg (· ++ [r]) hw.reports, hw.peer⟩

theorem peer : Couples server server' Wire.Abreast Action.peer Action.peer :=
  of_local (fun _ => rfl) (fun _ => rfl) fun _ _ hw => ⟨.ok hw.peer, hw⟩

theorem setPeer {f : Wire → Wire} (hcalls : ∀ wire, (f wire).history = wire.history)
    (h : ∀ wire wire', wire.Abreast wire' → (f wire).Abreast (f wire')) :
    Couples server server' Eq (Action.setPeer f) (Action.setPeer f) :=
  of_local (fun w => hcalls w.peer) (fun w => hcalls w.peer) fun _ _ hw =>
    ⟨.ok rfl, hw.clock, hw.journal, hw.reports, h _ _ hw.peer⟩

/-! ### One action after the other -/

theorem bind_grows {f : α → Action Wire β} (hnext : ∀ x w, w.calls <+: (f x w).2.calls)
    (w : World Wire) :
    (a w).2.calls <+: ((a >>= f) w).2.calls := by
  rw [Action.bind_apply]
  rcases a w with ⟨e | x, w₁⟩
  · exact List.prefix_rfl
  · exact hnext x w₁

/-- The relation is reflexive: so each action by itself only adds to its history. -/
theorem bind {f f' : α → Action Wire β} (h : Couples server server' R a a')
    (hf : ∀ x x', R x x' → Couples server server' S (f x) (f' x')) (hrefl : ∀ x, R x x) :
    Couples server server' S (a >>= f) (a' >>= f') where
  grows w := (h.grows w).trans (bind_grows (fun x => (hf x x (hrefl x)).grows) w)
  grows' w := (h.grows' w).trans (bind_grows (fun x => (hf x x (hrefl x)).grows') w)
  related w w' hw hanswers := by
    obtain ⟨hr, hmiddle⟩ := h.related w w' hw (hanswers.of_prefix
      (bind_grows (fun x => (hf x x (hrefl x)).grows) w)
      (bind_grows (fun x => (hf x x (hrefl x)).grows') w'))
    rw [Action.bind_apply, Action.bind_apply] at hanswers ⊢
    rcases ha : a w with ⟨r, w₁⟩
    rcases ha' : a' w' with ⟨r', w₁'⟩
    rw [ha, ha'] at hr hmiddle hanswers
    cases hr with
    | error e => exact ⟨.error e, hmiddle⟩
    | ok hx => exact (hf _ _ hx).related w₁ w₁' hmiddle hanswers

/-- After parts with the same outcome. -/
theorem andThen {f f' : α → Action Wire β} (h : Couples server server' Eq a a')
    (hf : ∀ x, Couples server server' S (f x) (f' x)) :
    Couples server server' S (a >>= f) (a' >>= f') := by
  refine h.bind (fun x x' hx => ?_) fun _ => rfl
  subst hx
  exact hf x

theorem mapM {f f' : α → Action Wire β} {Q : α → α → Prop} {xs xs' : List α}
    (hxs : List.Forall₂ Q xs xs') (hf : ∀ x x', Q x x' → Couples server server' Eq (f x) (f' x')) :
    Couples server server' Eq (xs.mapM f) (xs'.mapM f') := by
  induction hxs with
  | nil => exact pure rfl
  | cons hx _ ih =>
    rw [List.mapM_cons, List.mapM_cons]
    exact (hf _ _ hx).andThen fun y => ih.andThen fun ys => pure rfl

/-! ### Faults on the way -/

theorem always {last last' : Action Wire Unit} (h : Couples server server' R a a')
    (hlast : Couples server server' Eq last last') :
    Couples server server' R (Action.always a last) (Action.always a' last') where
  grows w := by
    rw [Action.always_apply]
    exact (h.grows w).trans (hlast.grows _)
  grows' w := by
    rw [Action.always_apply]
    exact (h.grows' w).trans (hlast.grows' _)
  related w w' hw hanswers := by
    rw [Action.always_apply, Action.always_apply] at hanswers ⊢
    obtain ⟨hr, hmiddle⟩ :=
      h.related w w' hw (hanswers.of_prefix (hlast.grows _) (hlast.grows' _))
    obtain ⟨hlast, hafter⟩ := hlast.related _ _ hmiddle hanswers
    exact ⟨hlast.bind fun _ _ _ => hr, hafter⟩

theorem onFault_grows {handle : Fault → Action Wire Unit}
    (hhandle : ∀ e w, w.calls <+: (handle e w).2.calls) (w : World Wire) :
    (a w).2.calls <+: (Action.onFault a handle w).2.calls := by
  rcases ha : a w with ⟨e | x, w₁⟩
  · rw [Action.onFault_of_error ha rfl]
    exact hhandle e w₁
  · have hdone : Action.onFault a handle w = (.ok x, w₁) := Action.onFault_of_ok ha
    exact hdone ▸ List.prefix_rfl

theorem onFault {handle handle' : Fault → Action Wire Unit} (h : Couples server server' R a a')
    (hhandle : ∀ e, Couples server server' Eq (handle e) (handle' e)) :
    Couples server server' R (Action.onFault a handle) (Action.onFault a' handle') where
  grows w := (h.grows w).trans (onFault_grows (fun e => (hhandle e).grows) w)
  grows' w := (h.grows' w).trans (onFault_grows (fun e => (hhandle e).grows') w)
  related w w' hw hanswers := by
    obtain ⟨hr, hmiddle⟩ := h.related w w' hw (hanswers.of_prefix
      (onFault_grows (fun e => (hhandle e).grows) w)
      (onFault_grows (fun e => (hhandle e).grows') w'))
    rcases ha : a w with ⟨r, w₁⟩
    rcases ha' : a' w' with ⟨r', w₁'⟩
    rw [ha, ha'] at hr hmiddle
    cases hr with
    | ok hx =>
      rw [Action.onFault_of_ok ha, Action.onFault_of_ok ha']
      exact ⟨.ok hx, hmiddle⟩
    | error e =>
      rw [Action.onFault_of_error ha rfl, Action.onFault_of_error ha' rfl] at hanswers ⊢
      obtain ⟨hhandled, hafter⟩ := (hhandle e).related w₁ w₁' hmiddle hanswers
      rw [matches_eq.1 hhandled]
      exact ⟨.error _, hafter⟩

theorem mapFault (g : Fault → Fault) (h : Couples server server' R a a') :
    Couples server server' R (Action.mapFault g a) (Action.mapFault g a') where
  grows w := by
    rw [Action.mapFault_apply]
    exact h.grows w
  grows' w := by
    rw [Action.mapFault_apply]
    exact h.grows' w
  related w w' hw hanswers := by
    rw [Action.mapFault_apply, Action.mapFault_apply] at hanswers ⊢
    obtain ⟨hr, hafter⟩ := h.related w w' hw hanswers
    exact ⟨hr.mapError g, hafter⟩

theorem timed {speaker name : String} {slow : Int} {sql : Value} {values values' : List Value}
    (hvalues : values = values') (h : Couples server server' R a a') :
    Couples server server' R (Action.timed speaker name slow sql values a)
      (Action.timed speaker name slow sql values' a') := by
  subst hvalues
  exact now.andThen fun start => h.always (now.andThen fun stop => log _)

end Couples

/-! ## Calls -/

namespace Wire

variable {server server' : Server}

/-- The calls that come next are answered alike. -/
theorem AnswerAlike.next {history history' : List Event} {e e' : Event}
    (h : AnswerAlike server server' (history ++ [e]) (history' ++ [e']))
    (hcalls : history.length = history'.length) : server history e = server' history' e' := by
  have hlast := h history.length e e' (by simp) (by simp [hcalls])
  rwa [List.take_left, hcalls, List.take_left] at hlast

end Wire

/-- What a call says does not matter: its answer is the same. -/
theorem Couples.call {α : Type} {server server' : Server} {a a' : Action Wire α} (e e' : Event)
    (outcome : Wire.Reply → Except Fault α) (elapsed : Wire.Reply → Journal.Micros)
    (h : ∀ w, a w = (outcome (server w.calls e), w.called e (elapsed (server w.calls e))))
    (h' : ∀ w, a' w = (outcome (server' w.calls e'), w.called e' (elapsed (server' w.calls e')))) :
    Couples server server' Eq a a' where
  grows w := h w ▸ List.prefix_append _ _
  grows' w := h' w ▸ List.prefix_append _ _
  related w w' hw hanswers := by
    rw [h, h'] at hanswers ⊢
    have hsame := hanswers.next hw.peer.calls
    rw [hsame]
    refine ⟨.refl (fun _ => rfl) _, congrArg (· + _) hw.clock, hw.journal, hw.reports,
      hw.peer.opened, hw.peer.held, ?_⟩
    exact (List.length_append.trans (congrArg (· + 1) hw.peer.calls)).trans List.length_append.symm

namespace Wire

theorem couples_send (c c' : Nat) (call call' : Call) :
    Couples server server' Eq (send server c call) (send server' c' call') :=
  .call ⟨c, call⟩ ⟨c', call'⟩ Reply.outcome Reply.elapsed (send_apply server c call)
    (send_apply server' c' call')

theorem couples_query (c : Nat) (sql : Value) (values values' : Option (List Value)) :
    Couples server server' Eq (query server c sql values) (query server' c sql values') :=
  (couples_send c c _ _).andThen fun _ => .pure rfl

theorem couples_isDropped (c : Nat) :
    Couples server server' Eq (isDropped server c) (isDropped server' c) :=
  .call ⟨c, .probe⟩ ⟨c, .probe⟩ (fun reply => .ok reply.dropped) (fun _ => 0) (fun _ => rfl)
    fun _ => rfl

theorem couples_connect (target options : Value) :
    Couples server server' Eq (connect server target options) (connect server' target options) := by
  refine Couples.peer.bind (fun wire wire' hwire => ?_) Abreast.refl
  have hcounted : Couples server server' Eq
      (Action.setPeer fun w => { w with opened := w.opened + 1 })
      (Action.setPeer fun w => { w with opened := w.opened + 1 }) :=
    .setPeer (f := fun w => { w with opened := w.opened + 1 }) (fun _ => rfl)
      fun _ _ hwire => ⟨congrArg (· + 1) hwire.opened, hwire.held, hwire.calls⟩
  rw [hwire.opened]
  exact hcounted.andThen fun _ => (couples_send _ _ _ _).andThen fun _ => .pure rfl

theorem couples_hold (c : Nat) (s : Settings) :
    Couples server server' Eq (hold c s) (hold c s) :=
  .setPeer (fun _ => rfl) fun _ _ hwire => ⟨hwire.opened, rfl, hwire.calls⟩

end Wire

end Querywright
