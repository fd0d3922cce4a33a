/-
  UTF-8 that was written is read back.

  * `start_three`, `start_four`: the first byte of a long character, and what may follow it.
  * `decodeFrom_char`: the bytes of one character. `decode_encode`: those of a text.
-/
import Querywright.Text.Utf8

namespace Querywright.Text.Utf8

variable {onBad : List Char} {b : Nat}

/-! ## First bytes -/

theorem start_one (h : b < 0x80) : start b = .char (Char.ofNat b) := if_pos h

theorem start_two (hlow : 0xC2 ≤ b) (hhigh : b < 0xE0) :
    start b = .more ⟨b - 0xC0, 0, 0x80, 0xBF⟩ := by
  rw [start, if_neg (by omega), if_neg (by omega), if_pos hhigh]

theorem start_three (hlow : 0xE0 ≤ b) (hhigh : b < 0xF0) :
    start b = .more ⟨b - 0xE0, 1, if b = 0xE0 then 0xA0 else 0x80,
      if b = 0xED then 0x9F else 0xBF⟩ := by
  rw [start, if_neg (by omega), if_neg (by omega), if_neg (by omega)]
  by_cases hfirst : b = 0xE0
  · subst hfirst
    rfl
  by_cases hsurrogate : b = 0xED
  · subst hsurrogate
    rfl
  · simp [hfirst, hsurrogate, hhigh]

theorem start_four (hlow : 0xF0 ≤ b) (hhigh : b ≤ 0xF4) :
    start b = .more ⟨b - 0xF0, 2, if b = 0xF0 then 0x90 else 0x80,
      if b = 0xF4 then 0x8F else 0xBF⟩ := by
  rw [start, if_neg (by omega), if_neg (by omega), if_neg (by omega)]
  by_cases hfirst : b = 0xF0
  · subst hfirst
    rfl
  by_cases hlast : b = 0xF4
  · subst hlast
    rfl
  · have hne : ¬ b = 0xE0 := by omega
    have hne' : ¬ b = 0xED := by omega
    have hbelow : ¬ b < 0xF0 := by omega
    have hbetween : b < 0xF4 := by omega
    simp [hfirst, hlast, hne, hne', hbelow, hbetween]

/-! ## Characters -/

theorem toNat_ofNat (h : b < 256) : (UInt8.ofNat b).toNat = b := by
  simp [Nat.mod_eq_of_lt h]

/-- A byte between two characters. -/
theorem decodeFrom_none (b : UInt8) (rest : List UInt8) :
    decodeFrom onBad none (b :: rest) = match start b.toNat with
      | .char c => c :: decodeFrom onBad none rest
      | .more p => decodeFrom onBad (some p) rest
      | .bad => onBad ++ decodeFrom onBad none rest := rfl

/-- A byte inside a character. One that cannot stand there is read as the first of another. -/
theorem decodeFrom_some (p : Pending) (b : UInt8) (rest : List UInt8) :
    decodeFrom onBad (some p) (b :: rest) =
      if p.low ≤ b.toNat && b.toNat ≤ p.high then
        match p.owed with
        | 0 => Char.ofNat (p.bits * 64 + (b.toNat - 0x80)) :: decodeFrom onBad none rest
        | owed + 1 =>
          decodeFrom onBad (some ⟨p.bits * 64 + (b.toNat - 0x80), owed, 0x80, 0xBF⟩) rest
      else onBad ++ decodeFrom onBad none (b :: rest) := rfl

/-- The last byte of a character. -/
theorem decodeFrom_last {bits low high : Nat} (hlow : low ≤ b) (hhigh : b ≤ high) (h : b < 256)
    (rest : List UInt8) :
    decodeFrom onBad (some ⟨bits, 0, low, high⟩) (UInt8.ofNat b :: rest)
      = Char.ofNat (bits * 64 + (b - 0x80)) :: decodeFrom onBad none rest := by
  rw [decodeFrom_some, toNat_ofNat h]
  simp [hlow, hhigh]

/-- A byte of a character that is not the last one. -/
theorem decodeFrom_more {bits owed low high : Nat} (hlow : low ≤ b) (hhigh : b ≤ high)
    (h : b < 256) (rest : List UInt8) :
    decodeFrom onBad (some ⟨bits, owed + 1, low, high⟩) (UInt8.ofNat b :: rest)
      = decodeFrom onBad (some ⟨bits * 64 + (b - 0x80), owed, 0x80, 0xBF⟩) rest := by
  rw [decodeFrom_some, toNat_ofNat h]
  simp [hlow, hhigh]

/-- The first byte of a character of several. -/
theorem decodeFrom_first {p : Pending} (hstart : start b = .more p) (h : b < 256)
    (rest : List UInt8) :
    decodeFrom onBad none (UInt8.ofNat b :: rest) = decodeFrom onBad (some p) rest := by
  rw [decodeFrom_none, toNat_ofNat h, hstart]

/-- The bytes of a character are read as it. -/
theorem decodeFrom_char (c : Char) (rest : List UInt8) :
    decodeFrom onBad none (String.utf8EncodeChar c ++ rest) = c :: decodeFrom onBad none rest := by
  have hvalid : c.val.toNat < 0xD800 ∨ 0xDFFF < c.val.toNat ∧ c.val.toNat < 0x110000 := c.valid
  have hback : Char.ofNat c.val.toNat = c := Char.ofNat_toNat c
  rw [String.utf8EncodeChar]
  generalize c.val.toNat = v at hvalid hback
  split
  · have hone : v < 0x80 := by omega
    rw [List.cons_append, List.nil_append, decodeFrom_none, toNat_ofNat (by omega),
      start_one hone, hback]
  split
  · have hbits : (v / 64 % 32 + 192 - 0xC0) * 64 + (v % 64 + 128 - 0x80) = v := by omega
    rw [List.cons_append, List.cons_append, List.nil_append,
      decodeFrom_first (start_two (by omega) (by omega)) (by omega),
      decodeFrom_last (by omega) (by omega) (by omega), hbits, hback]
  split
  · have hbits : ((v / 4096 % 16 + 224 - 0xE0) * 64 + (v / 64 % 64 + 128 - 0x80)) * 64
        + (v % 64 + 128 - 0x80) = v := by omega
    rw [List.cons_append, List.cons_append, List.cons_append, List.nil_append,
      decodeFrom_first (start_three (by omega) (by omega)) (by omega),
      decodeFrom_more (by split <;> omega) (by split <;> omega) (by omega),
      decodeFrom_last (by omega) (by omega) (by omega), hbits, hback]
  · have hbits : (((v / 262144 % 8 + 240 - 0xF0) * 64 + (v / 4096 % 64 + 128 - 0x80)) * 64
        + (v / 64 % 64 + 128 - 0x80)) * 64 + (v % 64 + 128 - 0x80) = v := by omega
    rw [List.cons_append, List.cons_append, List.cons_append, List.cons_append, List.nil_append,
      decodeFrom_first (start_four (by omega) (by omega)) (by omega),
      decodeFrom_more (by split <;> omega) (by split <;> omega) (by omega),
      decodeFrom_more (by omega) (by omega) (by omega),
      decodeFrom_last (by omega) (by omega) (by omega), hbits, hback]

/-- A text is read back from its bytes. -/
theorem decode_encode (onBad s : List Char) : decode onBad (encode s) = s := by
  rw [decode]
  induction s with
  | nil => rfl
  | cons c s ih =>
    rw [encode, List.flatMap_cons, decodeFrom_char]
    exact congrArg (c :: ·) ih

/-- Bytes are never read as nothing, where malformed parts are shown. -/
theorem decodeFrom_ne_nil (hshown : onBad ≠ []) {p : Option Pending} {bytes : List UInt8}
    (h : p ≠ none ∨ bytes ≠ []) : decodeFrom onBad p bytes ≠ [] := by
  induction bytes generalizing p with
  | nil =>
    cases p with
    | none => simp at h
    | some p => exact hshown
  | cons b rest ih =>
    cases p with
    | none =>
      rw [decodeFrom_none]
      split
      · exact List.cons_ne_nil _ _
      · exact ih (.inl nofun)
      · exact List.append_ne_nil_of_left_ne_nil hshown _
    | some p =>
      rw [decodeFrom_some]
      split
      · split
        · exact List.cons_ne_nil _ _
        · exact ih (.inl nofun)
      · exact List.append_ne_nil_of_left_ne_nil hshown _

end Querywright.Text.Utf8
