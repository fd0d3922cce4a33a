/-
  An authority that is shown without its password is read back: the user, the host and the port are
  what they were, and a mask stands for the password.

  * `isAuthorityChar`: the characters that an authority in ASCII without brackets is written with.
  * `lowerHost`: a host as it is read. It is read back as it is (`lowerHost_lowerHost`).
  * `readPort_digits`: so is a port that was read.
  * `cutUser_shown`, `cutPort_shown` and `authority_read_back`: the parts of the authority that is
    shown.
-/
import Querywright.Proofs.DataSource.Reading
import Querywright.Proofs.Placeholder.Written

namespace Querywright

namespace Text

variable {c : Char} {s a b : List Char}

theorem lower_of_ascii (h : ∀ c ∈ s, c.toNat < 128) : lower s = s.map Char.toLower := by
  rw [lower]
  generalize false = inWord
  induction s generalizing inWord with
  | nil => rfl
  | cons c s ih =>
    obtain ⟨hc, hs⟩ := List.forall_mem_cons.1 h
    have hsigma : ¬((c.toNat == 0x3A3) = true) := by
      rw [beq_iff_eq]
      omega
    rw [lowerFrom, if_neg hsigma, lowerChar, if_pos hc, ih hs]
    rfl

theorem mem_of_mem_cutAtFirst {d : Char} (h : d ∈ (cutAtFirst c s).1) : d ∈ s := by
  rcases hcut : cutAtFirst c s with ⟨a, _ | b⟩ <;> rw [hcut] at h
  · exact (cutAtFirst_none hcut).1 ▸ h
  · exact cutAtFirst_some hcut ▸ List.mem_append_left _ h

theorem cutAtLast_of_not_mem (h : c ∉ s) : cutAtLast c s = (none, s) := by
  induction s with
  | nil => rfl
  | cons x s ih =>
    have hx : x ≠ c := fun hx => h (hx ▸ List.mem_cons_self)
    rw [cutAtLast, ih fun hs => h (List.mem_cons_of_mem x hs)]
    exact if_neg hx

theorem cutAtLast_mark (a : List Char) (h : c ∉ b) : cutAtLast c (a ++ c :: b) = (some a, b) := by
  have hlast : cutAtLast c (c :: b) = (some [], b) := by
    rw [cutAtLast, cutAtLast_of_not_mem h]
    exact if_pos rfl
  rw [cutAtLast_append a hlast, List.append_nil]

theorem cutAtLast_cases (c : Char) (s : List Char) :
    c ∉ s ∧ cutAtLast c s = (none, s) ∨
      ∃ a b, s = a ++ c :: b ∧ c ∉ b ∧ cutAtLast c s = (some a, b) := by
  by_cases h : c ∈ s
  · obtain ⟨b, a, hb, hs⟩ := exists_cutAtFirst (List.mem_reverse.2 h)
    have hsplit : s = a.reverse ++ c :: b.reverse := by
      rw [← List.reverse_reverse s, hs]
      simp
    have hb' : c ∉ b.reverse := fun hmem => hb (List.mem_reverse.1 hmem)
    exact .inr ⟨a.reverse, b.reverse, hsplit, hb', hsplit ▸ cutAtLast_mark _ hb'⟩
  · exact .inl ⟨h, cutAtLast_of_not_mem h⟩

end Text

namespace DataSource

/-! ## Characters -/

/-- A character of an authority in ASCII without brackets. -/
def isAuthorityChar (c : Char) : Bool :=
  decide (c.toNat < 128) && !(['/', '?', '#', '[', ']', '\t', '\r', '\n'].contains c)

theorem ascii_of_isAuthorityChar {c : Char} (h : isAuthorityChar c = true) : c.toNat < 128 :=
  of_decide_eq_true (Bool.and_eq_true_iff.1 h).1

/-- Lower case keeps the characters of an authority and the marks between its parts. -/
theorem toLower_authority {c : Char} (h : isAuthorityChar c = true) :
    isAuthorityChar c.toLower = true ∧ c.toLower.toLower = c.toLower ∧
      ∀ mark ∈ [':', '@', '%'], c.toLower = mark → c = mark := by
  have hlower := forall_ascii (P := fun c => isAuthorityChar c = true →
    isAuthorityChar c.toLower = true ∧ c.toLower.toLower = c.toLower ∧
      ([':', '@', '%'].all fun mark => c.toLower = mark → c = mark) = true)
    (by decide) (ascii_of_isAuthorityChar h) h
  exact ⟨hlower.1, hlower.2.1, fun mark hmark =>
    of_decide_eq_true (List.all_eq_true.1 hlower.2.2 mark hmark)⟩

/-! ## Hosts -/

/-- A host as it is read. -/
def lowerHost (s : List Char) : List Char :=
  match Text.cutAtFirst '%' s with
  | (host, none) => Text.lower host
  | (host, some zone) => Text.lower host ++ '%' :: zone

theorem readHost_eq (s : List Char) :
    readHost s = if s.isEmpty then none else some (String.ofList (lowerHost s)) := by
  rw [readHost, lowerHost]
  rcases Text.cutAtFirst '%' s with ⟨host, _ | zone⟩ <;> rfl

variable {s : List Char}

theorem lowerHost_of_not_mem (h : ∀ c ∈ s, isAuthorityChar c = true) (hzone : '%' ∉ s) :
    lowerHost s = s.map Char.toLower := by
  rw [lowerHost, Text.cutAtFirst_of_not_mem hzone]
  exact Text.lower_of_ascii fun c hc => ascii_of_isAuthorityChar (h c hc)

theorem lowerHost_zone {host : List Char} (h : ∀ c ∈ host, isAuthorityChar c = true)
    (hzone : '%' ∉ host) (zone : List Char) :
    lowerHost (host ++ '%' :: zone) = host.map Char.toLower ++ '%' :: zone := by
  rw [lowerHost, Text.cutAtFirst_append zone hzone]
  dsimp only
  rw [Text.lower_of_ascii fun c hc => ascii_of_isAuthorityChar (h c hc)]

/-- A host is read as it is but for the case of its letters, and a zone keeps its case. -/
theorem lowerHost_cases (h : ∀ c ∈ s, isAuthorityChar c = true) :
    '%' ∉ s ∧ lowerHost s = s.map Char.toLower ∨
      ∃ host zone, s = host ++ '%' :: zone ∧ '%' ∉ host ∧
        lowerHost s = host.map Char.toLower ++ '%' :: zone := by
  by_cases hzone : '%' ∈ s
  · obtain ⟨host, zone, hhost, rfl⟩ := Text.exists_cutAtFirst hzone
    exact .inr ⟨host, zone, rfl, hhost,
      lowerHost_zone (fun c hc => h c (List.mem_append_left _ hc)) hhost zone⟩
  · exact .inl ⟨hzone, lowerHost_of_not_mem h hzone⟩

theorem mem_lowerHost (h : ∀ c ∈ s, isAuthorityChar c = true) {c : Char} (hc : c ∈ lowerHost s) :
    ∃ d ∈ s, c = d ∨ c = d.toLower := by
  rcases lowerHost_cases h with ⟨-, hlower⟩ | ⟨host, zone, rfl, -, hlower⟩ <;> rw [hlower] at hc
  · obtain ⟨d, hd, rfl⟩ := List.mem_map.1 hc
    exact ⟨d, hd, .inr rfl⟩
  · rcases List.mem_append.1 hc with hc | hc
    · obtain ⟨d, hd, rfl⟩ := List.mem_map.1 hc
      exact ⟨d, List.mem_append_left _ hd, .inr rfl⟩
    · exact ⟨c, List.mem_append_right _ hc, .inl rfl⟩

theorem isAuthorityChar_lowerHost (h : ∀ c ∈ s, isAuthorityChar c = true) :
    ∀ c ∈ lowerHost s, isAuthorityChar c = true := by
  intro c hc
  obtain ⟨d, hd, rfl | rfl⟩ := mem_lowerHost h hc
  · exact h c hd
  · exact (toLower_authority (h d hd)).1

/-- No mark comes into a host. -/
theorem not_mem_lowerHost (h : ∀ c ∈ s, isAuthorityChar c = true) {mark : Char}
    (hmark : mark ∈ [':', '@', '%']) (hs : mark ∉ s) : mark ∉ lowerHost s := by
  intro hc
  obtain ⟨d, hd, rfl | hlower⟩ := mem_lowerHost h hc
  · exact hs hd
  · exact hs ((toLower_authority (h d hd)).2.2 mark hmark hlower.symm ▸ hd)

/-- What was put in lower case stays as it is. -/
theorem map_toLower_toLower (h : ∀ c ∈ s, isAuthorityChar c = true) (hzone : '%' ∉ s) :
    (∀ c ∈ s.map Char.toLower, isAuthorityChar c = true) ∧ '%' ∉ s.map Char.toLower ∧
      (s.map Char.toLower).map Char.toLower = s.map Char.toLower := by
  rw [← lowerHost_of_not_mem h hzone]
  refine ⟨isAuthorityChar_lowerHost h, not_mem_lowerHost h (by decide) hzone, ?_⟩
  rw [lowerHost_of_not_mem h hzone, List.map_map]
  exact List.map_congr_left fun c hc => (toLower_authority (h c hc)).2.1

/-- A host that was read is read back as it is. -/
theorem lowerHost_lowerHost (h : ∀ c ∈ s, isAuthorityChar c = true) :
    lowerHost (lowerHost s) = lowerHost s := by
  rcases lowerHost_cases h with ⟨hzone, hlower⟩ | ⟨host, zone, rfl, hzone, hlower⟩ <;> rw [hlower]
  · obtain ⟨hchars, hclear, hsame⟩ := map_toLower_toLower h hzone
    rw [lowerHost_of_not_mem hchars hclear, hsame]
  · obtain ⟨hchars, hclear, hsame⟩ :=
      map_toLower_toLower (fun c hc => h c (List.mem_append_left _ hc)) hzone
    rw [lowerHost_zone hchars hclear, hsame]

theorem lowerHost_eq_nil (h : ∀ c ∈ s, isAuthorityChar c = true) : lowerHost s = [] ↔ s = [] := by
  rcases lowerHost_cases h with ⟨-, hlower⟩ | ⟨host, zone, rfl, -, hlower⟩ <;> rw [hlower] <;> simp

/-- The host that is shown is read back. -/
theorem readHost_lowerHost (h : ∀ c ∈ s, isAuthorityChar c = true) :
    readHost (lowerHost s) = readHost s := by
  rw [readHost_eq, readHost_eq, lowerHost_lowerHost h]
  by_cases hnil : s = []
  · subst hnil
    rfl
  · rw [List.isEmpty_eq_false_iff.2 hnil,
      List.isEmpty_eq_false_iff.2 (mt (lowerHost_eq_nil h).1 hnil)]

/-- What is shown of a host that was read. -/
theorem toList_readHost (s : List Char) : ((readHost s).getD "").toList = lowerHost s := by
  rw [readHost_eq]
  split
  · rename_i hnil
    rw [List.isEmpty_iff.1 hnil]
    rfl
  · exact String.toList_ofList

/-! ## Ports -/

/-- A port that was read is read back from its digits. -/
theorem readPort_digits {digits : List Char} {port : Nat} (h : readPort digits = .ok (some port)) :
    readPort (Nat.toDigits 10 port) = .ok (some port) := by
  have hsmall : port ≤ 65535 := by
    rw [readPort] at h
    split at h
    · cases h
    split at h
    · split at h
      · cases h
      · dsimp only at h
        split at h
        · rename_i hle
          cases h
          exact hle
        · cases h
    · cases h
  have hlength : (Nat.toDigits 10 port).length ≤ 5 :=
    (Nat.length_toDigits_le_iff (by decide) (by decide)).2 (by omega)
  have hdigits : (Nat.toDigits 10 port).all Char.isDigit = true :=
    List.all_eq_true.2 fun c hc => Nat.isDigit_of_mem_toDigits (by decide) (by decide) hc
  have hlimit : ¬ digitLimit < (Nat.toDigits 10 port).length := by
    have hfixed : 5 ≤ digitLimit := by decide
    omega
  have hsome : (Nat.toDigits 10 port).isEmpty = false :=
    List.isEmpty_eq_false_iff.2 Nat.toDigits_ne_nil
  rw [readPort, hsome, hdigits, if_neg (by decide), if_pos rfl, if_neg hlimit,
    Placeholder.digitsValue_toDigits]
  exact if_pos hsmall

/-- The port that is shown behind a host. -/
def portText : Option Nat → List Char
  | some port => if port = 0 then [] else ':' :: Nat.toDigits 10 port
  | none => []

/-- A host and a port that are shown are cut apart. -/
theorem cutPort_shown {host : List Char} (hhost : ∀ c ∈ host, isAuthorityChar c = true)
    (hcolon : ':' ∉ host) (port : Option Nat) :
    cutPort (host ++ portText port) = (host, (portText port).tail) := by
  have hopening {s : List Char} (h : ∀ c ∈ s, isAuthorityChar c = true) : '[' ∉ s :=
    fun hmem => absurd (h '[' hmem) (by decide)
  have hdigits (port : Nat) : '[' ∉ Nat.toDigits 10 port := fun hmem =>
    absurd (Nat.isDigit_of_mem_toDigits (by decide) (by decide) hmem) (by decide)
  have hclear : '[' ∉ host ++ portText port := by
    rw [List.mem_append, not_or]
    refine ⟨hopening hhost, ?_⟩
    unfold portText
    split
    · split
      · exact List.not_mem_nil
      · exact List.not_mem_cons_of_ne_of_not_mem (by decide) (hdigits _)
    · exact List.not_mem_nil
  rw [cutPort, Text.cutAtFirst_of_not_mem hclear]
  dsimp only
  unfold portText
  split
  · split
    · rw [List.append_nil, Text.cutAtFirst_of_not_mem hcolon]
      rfl
    · rw [Text.cutAtFirst_append _ hcolon]
      rfl
  · rw [List.append_nil, Text.cutAtFirst_of_not_mem hcolon]
    rfl

/-! ## Users -/

/-- The user that is shown before a host, with a mask for the password. -/
def userText (username password : Option String) : List Char :=
  match shown username with
  | some user =>
    user.toList ++ ((if (shown password).isSome then ':' :: Secret.mask.toList else []) ++ ['@'])
  | none => []

theorem toList_redactedAuthority (d : DataSource) : d.redactedAuthority.toList
    = userText d.username d.password ++ ((d.host.getD "").toList ++ portText d.port) := by
  have hport : (match d.port with
      | some port => if port = 0 then "" else ":" ++ toString port
      | none => "").toList = portText d.port := by
    rcases d.port with _ | port
    · rfl
    · rw [portText]
      dsimp only
      split
      · rfl
      · rw [String.toList_append, Nat.toString_eq_repr, Nat.toList_repr]
        rfl
  have huser : (match shown d.username with
      | some user => user ++ (if (shown d.password).isSome then ":" ++ Secret.mask else "") ++ "@"
      | none => "").toList = userText d.username d.password := by
    rw [userText]
    rcases shown d.username with _ | user
    · rfl
    · dsimp only
      split <;> simp [String.toList_append]
  rw [redactedAuthority, String.toList_append, String.toList_append, List.append_assoc]
  exact congrArg₂ (· ++ ·) huser (congrArg ((d.host.getD "").toList ++ ·) hport)

theorem cutUser_of_not_mem {a : List Char} (h : '@' ∉ a) : cutUser a = (none, none, a) := by
  rw [cutUser, Text.cutAtLast_of_not_mem h]

/-- The parts of an authority are cut from its text. -/
theorem cutUser_cases (a : List Char) :
    '@' ∉ (cutUser a).2.2 ∧ (∀ c ∈ (cutUser a).2.2, c ∈ a) ∧
      ((cutUser a).1 = none ∧ (cutUser a).2.1 = none ∨
        ∃ name, ':' ∉ name ∧ (∀ c ∈ name, c ∈ a) ∧ (cutUser a).1 = some (String.ofList name)) := by
  rcases Text.cutAtLast_cases '@' a with ⟨hnone, hcut⟩ | ⟨user, rest, rfl, hrest, hcut⟩
  · rw [cutUser_of_not_mem hnone]
    exact ⟨hnone, fun _ h => h, .inl ⟨rfl, rfl⟩⟩
  · rw [cutUser, hcut]
    refine ⟨hrest, fun c hc => by simp [hc], .inr ⟨(Text.cutAtFirst ':' user).1,
      Text.not_mem_cutAtFirst ':' user, fun c hc => ?_, rfl⟩⟩
    exact List.mem_append_left _ (Text.mem_of_mem_cutAtFirst hc)

theorem userText_some {name : List Char} (hname : name ≠ []) (password : Option String) :
    userText (some (String.ofList name)) password
      = name ++ ((if (shown password).isSome then ':' :: Secret.mask.toList else []) ++ ['@']) := by
  have hshown : shown (some (String.ofList name)) = some (String.ofList name) := by
    simp [shown, hname]
  rw [userText, hshown]
  dsimp only
  rw [String.toList_ofList]

/-- A user that is shown is read back, with the mask as the password. -/
theorem cutUser_shown {name server : List Char} {password : Option String} (hname : name ≠ [])
    (hcolon : ':' ∉ name) (hserver : '@' ∉ server) :
    cutUser (userText (some (String.ofList name)) password ++ server)
      = (some (String.ofList name), (shown password).map fun _ => Secret.mask, server) := by
  rw [cutUser, userText_some hname, List.append_assoc, List.append_assoc, List.singleton_append,
    ← List.append_assoc, Text.cutAtLast_mark _ hserver]
  dsimp only
  rcases shown password with _ | secret
  · rw [Option.isSome_none, if_neg (by decide), List.append_nil, Text.cutAtFirst_of_not_mem hcolon]
    rfl
  · rw [Option.isSome_some, if_pos rfl, Text.cutAtFirst_append _ hcolon, Option.map_some,
      String.ofList_toList]
    rfl

/-! ## The authority that is shown -/

theorem isAuthorityChar_of_isDigit {c : Char} (h : c.isDigit = true) :
    isAuthorityChar c = true := by
  have hascii : c.toNat < 128 := ascii_of_isAlphanum (Bool.or_eq_true_iff.2 (.inr h))
  revert h
  refine forall_ascii (P := fun c => c.isDigit = true → isAuthorityChar c = true) ?_ hascii
  decide

theorem isAuthorityChar_portText (port : Option Nat) :
    ∀ c ∈ portText port, isAuthorityChar c = true ∧ c ≠ '@' := by
  have hdigit {c : Char} (h : c.isDigit = true) : isAuthorityChar c = true ∧ c ≠ '@' := by
    refine ⟨isAuthorityChar_of_isDigit h, ?_⟩
    rintro rfl
    cases h
  unfold portText
  split
  · split
    · exact List.forall_mem_nil _
    · exact List.forall_mem_cons.2 ⟨by decide, fun c hc =>
        hdigit (Nat.isDigit_of_mem_toDigits (by decide) (by decide) hc)⟩
  · exact List.forall_mem_nil _

theorem readPort_portText {digits : List Char} {port : Option Nat}
    (h : readPort digits = .ok port) (hzero : port ≠ some 0) :
    readPort (portText port).tail = .ok port := by
  cases port with
  | none => rfl
  | some port =>
    have hpositive : port ≠ 0 := fun hport => hzero (congrArg some hport)
    rw [portText, if_neg hpositive]
    exact readPort_digits h

/-- The server part that is shown of an authority. -/
def shownServer (c : Cut) (port : Option Nat) : List Char := lowerHost c.server.1 ++ portText port

variable {c : Cut} {port : Option Nat}

/-- The host is cut from the server part, which holds no user. -/
theorem server_cases (h : ∀ x ∈ c.authority, isAuthorityChar x = true) :
    (∀ x ∈ c.server.1, isAuthorityChar x = true) ∧ ':' ∉ c.server.1 ∧ '@' ∉ c.server.1 := by
  obtain ⟨hat, hmem, -⟩ := cutUser_cases c.authority
  have hopening : '[' ∉ (cutUser c.authority).2.2 := fun hc =>
    absurd (h '[' (hmem '[' hc)) (by decide)
  have hhost : c.server.1 = (Text.cutAtFirst ':' (cutUser c.authority).2.2).1 := by
    rw [Cut.server, cutPort, Text.cutAtFirst_of_not_mem hopening]
  have hsub : ∀ x ∈ c.server.1, x ∈ (cutUser c.authority).2.2 := by
    intro x hx
    rw [hhost] at hx
    exact Text.mem_of_mem_cutAtFirst hx
  exact ⟨fun x hx => h x (hmem x (hsub x hx)), hhost ▸ Text.not_mem_cutAtFirst ':' _,
    fun hx => hat (hsub '@' hx)⟩

/-- The authority that is shown has the parts that were read, with a mask for the password. -/
theorem authority_read_back (h : ∀ x ∈ c.authority, isAuthorityChar x = true)
    (hport : readPort c.server.2 = .ok port) (hzero : port ≠ some 0)
    (huser : (cutUser c.authority).1 ≠ some "") :
    (∀ x ∈ (c.source port).redactedAuthority.toList, isAuthorityChar x = true) ∧
      cutUser (c.source port).redactedAuthority.toList
        = ((c.source port).username, (shown (c.source port).password).map fun _ => Secret.mask,
          shownServer c port) ∧
      readHost (cutPort (shownServer c port)).1 = (c.source port).host ∧
      readPort (cutPort (shownServer c port)).2 = .ok port := by
  obtain ⟨hhost, hcolon, hat⟩ := server_cases h
  have hshown : (c.source port).redactedAuthority.toList
      = userText (cutUser c.authority).1 (cutUser c.authority).2.1 ++ shownServer c port := by
    rw [toList_redactedAuthority]
    exact congrArg (_ ++ ·) (congrArg (· ++ _) (toList_readHost c.server.1))
  have hserver : (∀ x ∈ shownServer c port, isAuthorityChar x = true) ∧
      '@' ∉ shownServer c port := by
    rw [shownServer, List.mem_append, not_or]
    refine ⟨List.forall_mem_append.2 ⟨isAuthorityChar_lowerHost hhost,
      fun x hx => (isAuthorityChar_portText port x hx).1⟩, not_mem_lowerHost hhost (by decide) hat,
      fun hx => (isAuthorityChar_portText port '@' hx).2 rfl⟩
  have hcut := cutPort_shown (isAuthorityChar_lowerHost hhost)
    (not_mem_lowerHost hhost (by decide) hcolon) port
  have huserText : (∀ x ∈ userText (cutUser c.authority).1 (cutUser c.authority).2.1,
        isAuthorityChar x = true) ∧
      cutUser (userText (cutUser c.authority).1 (cutUser c.authority).2.1 ++ shownServer c port)
        = ((cutUser c.authority).1, (shown (cutUser c.authority).2.1).map fun _ => Secret.mask,
          shownServer c port) := by
    obtain ⟨-, -, ⟨hnone, hnone'⟩ | ⟨name, hname, hmem, hsome⟩⟩ := cutUser_cases c.authority
    · rw [hnone, hnone']
      refine ⟨List.forall_mem_nil _, ?_⟩
      exact cutUser_of_not_mem hserver.2
    · have hfull : name ≠ [] := by
        rintro rfl
        exact huser hsome
      rw [hsome]
      refine ⟨?_, cutUser_shown hfull hname hserver.2⟩
      rw [userText_some hfull]
      refine List.forall_mem_append.2 ⟨fun x hx => h x (hmem x hx), ?_⟩
      refine List.all_eq_true.1 ?_
      split <;> decide
  rw [hshown]
  refine ⟨List.forall_mem_append.2 ⟨huserText.1, hserver.1⟩, huserText.2, ?_, ?_⟩
  · rw [shownServer, hcut]
    exact readHost_lowerHost hhost
  · rw [shownServer, hcut]
    exact readPort_portText hport hzero

end DataSource
end Querywright
