/-
  Maps made from entries with repeated keys.

  * `keys_ofList`: every key stands where it was given first.
  * `field?_ofList`: a text key holds the value it was given last.
  * `ofList_of_distinct`: where no key is repeated, the entries are the map.
  * `ofTexts`: entries whose keys are texts. `keys_ofList_ofTexts`: the map made of them has each
    text once, where it is given first.
-/
import Querywright.Proofs.Value.Key

namespace Querywright.Entries

variable {entries : Entries} {k v : Value} {s : String}

theorem keys_cons (e : Value × Value) (rest : Entries) : keys (e :: rest) = e.1 :: keys rest := rfl

theorem field?_cons (e : Value × Value) (rest : Entries) :
    Entries.field? s (e :: rest) = if e.1.asText? = some s then some e.2 else rest.field? s := by
  obtain ⟨k, v⟩ := e
  rw [field?, get?_cons, Value.sameKey_text]
  simp only [beq_iff_eq]
  rfl

theorem keys_put :
    (entries.put k v).keys
      = if entries.keys.any (·.sameKey k) then entries.keys else entries.keys ++ [k] := by
  induction entries with
  | nil => rfl
  | cons e rest ih =>
    obtain ⟨k', v'⟩ := e
    rw [put, keys_cons, List.any_cons]
    cases k'.sameKey k with
    | true => rfl
    | false =>
      rw [if_neg Bool.false_ne_true, keys_cons, ih, Bool.false_or]
      split
      · rfl
      · rfl

/-- A map keeps its keys in their places and takes new ones in the order in which they come. -/
theorem keys_merge (first second : Entries) :
    (first.merge second).keys
      = List.eraseDupsBy.loop (fun key k => k.sameKey key) second.keys first.keys.reverse := by
  induction second generalizing first with
  | nil => exact (List.reverse_reverse first.keys).symm
  | cons e rest ih =>
    rw [merge, List.foldl_cons, ← merge, ih, keys_put, keys_cons, List.eraseDupsBy.loop,
      List.any_reverse]
    cases first.keys.any (·.sameKey e.1) with
    | true => rfl
    | false =>
      rw [if_neg Bool.false_ne_true, List.reverse_append]
      rfl

theorem keys_ofList (entries : List (Value × Value)) :
    (ofList entries).keys = (keys entries).eraseDupsBy fun key k => k.sameKey key :=
  keys_merge [] entries

theorem field?_put :
    (entries.put k v).field? s = if k.asText? = some s then some v else entries.field? s := by
  induction entries with
  | nil => exact field?_cons (k, v) []
  | cons e rest ih =>
    obtain ⟨k', v'⟩ := e
    rw [put, field?_cons]
    split
    next hsame =>
      -- a key in the place of another one is the same text, or neither is a text
      have htext : k'.asText? = k.asText? := by
        cases hk : k.asText? with
        | some t =>
          rw [Value.sameKey_asText? hk, beq_iff_eq] at hsame
          exact hsame
        | none =>
          cases hk' : k'.asText? with
          | none => rfl
          | some t =>
            rw [Value.sameKey_of_not_text hk' hk] at hsame
            cases hsame
      rw [field?_cons, htext]
      split
      · rfl
      · rfl
    next hsame =>
      rw [field?_cons, ih]
      by_cases hk : k.asText? = some s
      · rw [Value.sameKey_asText? hk, beq_iff_eq] at hsame
        rw [if_neg hsame, if_pos hk, if_pos hk]
      · rw [if_neg hk, if_neg hk]

theorem field?_append (first second : Entries) :
    (first ++ second).field? s = (first.field? s).or (second.field? s) := by
  induction first with
  | nil => rfl
  | cons e rest ih =>
    rw [List.cons_append, field?_cons, field?_cons, ih]
    split
    · rfl
    · rfl

theorem field?_merge (first second : Entries) :
    (first.merge second).field? s = (Entries.field? s second.reverse).or (first.field? s) := by
  induction second generalizing first with
  | nil => rfl
  | cons e rest ih =>
    rw [merge, List.foldl_cons, ← merge, ih, field?_put, List.reverse_cons, field?_append,
      field?_cons, Option.or_assoc]
    split
    · rfl
    · rfl

theorem field?_ofList (entries : List (Value × Value)) :
    (ofList entries).field? s = field? s entries.reverse := by
  rw [ofList, field?_merge]
  exact Option.or_none

theorem merge_ofList (first second : List (Value × Value)) :
    (ofList first).merge second = ofList (first ++ second) :=
  (List.foldl_append ..).symm

/-- A text key holds the value of its text. -/
theorem get?_eq_field? (hk : k.asText? = some s) (entries : Entries) :
    entries.get? k = entries.field? s := by
  induction entries with
  | nil => rfl
  | cons e rest ih =>
    rw [get?_cons, field?, get?_cons, Value.sameKey_asText? hk, Value.sameKey_text, ih]
    rfl

/-! ## Keys that are not repeated -/

theorem Distinct.put (h : entries.Distinct) : (entries.put k v).Distinct := by
  rw [Distinct, keys_put]
  split
  next => exact h
  next hfresh =>
    refine List.pairwise_append.2 ⟨h, List.pairwise_singleton _ _, fun key hkey other hother => ?_⟩
    rw [List.mem_singleton.1 hother]
    exact Bool.eq_false_iff.2 fun hsame => hfresh (List.any_eq_true.2 ⟨key, hkey, hsame⟩)

theorem Distinct.merge {first : Entries} (h : first.Distinct) (second : Entries) :
    (first.merge second).Distinct := by
  induction second generalizing first with
  | nil => exact h
  | cons e rest ih => exact ih h.put

theorem distinct_ofList (entries : List (Value × Value)) : (ofList entries).Distinct :=
  Distinct.merge (show Distinct [] from List.Pairwise.nil) entries

theorem put_of_fresh (h : ∀ key ∈ entries.keys, key.sameKey k = false) :
    entries.put k v = entries ++ [(k, v)] := by
  induction entries with
  | nil => rfl
  | cons e rest ih =>
    obtain ⟨k', v'⟩ := e
    obtain ⟨hfirst, hrest⟩ := List.forall_mem_cons.1 h
    rw [put, hfirst, if_neg Bool.false_ne_true, ih hrest, List.cons_append]

theorem merge_of_distinct {first second : Entries} (h : Distinct (first ++ second)) :
    first.merge second = first ++ second := by
  induction second generalizing first with
  | nil => exact (List.append_nil first).symm
  | cons e rest ih =>
    have hfresh : ∀ key ∈ first.keys, key.sameKey e.1 = false := by
      rw [Distinct, keys, List.map_append, List.pairwise_append] at h
      exact fun key hkey => h.2.2 key hkey e.1 List.mem_cons_self
    rw [List.append_cons] at h
    rw [merge, List.foldl_cons, ← merge, put_of_fresh hfresh, ih h, ← List.append_cons]

theorem ofList_of_distinct {entries : List (Value × Value)} (h : Distinct entries) :
    ofList entries = entries :=
  merge_of_distinct h

/-! ## Keys that are texts -/

/-- Entries from pairs of a text and a value. -/
def ofTexts (pairs : List (String × Value)) : Entries := pairs.map fun p => (.text p.1, p.2)

variable {pairs : List (String × Value)}

theorem keys_ofTexts : (ofTexts pairs).keys = (pairs.map Prod.fst).map .text := by
  rw [ofTexts, keys, List.map_map, List.map_map]
  rfl

theorem field?_ofTexts : (ofTexts pairs).field? s = pairs.lookup s := by
  induction pairs with
  | nil => rfl
  | cons p rest ih =>
    rw [ofTexts, List.map_cons, field?_cons, ← ofTexts, ih, List.lookup_cons]
    by_cases hp : p.1 = s
    · rw [hp, beq_self_eq_true]
      exact if_pos rfl
    · rw [beq_false_of_ne (Ne.symm hp)]
      exact if_neg fun h => hp (Option.some.inj h)

theorem field?_ofList_ofTexts : (ofList (ofTexts pairs)).field? s = pairs.reverse.lookup s := by
  rw [field?_ofList, ← field?_ofTexts, ofTexts, ofTexts, List.map_reverse]

/-- Texts are the same keys when they are equal. -/
theorem eraseDupsBy_sameKey_texts (names : List String) :
    (names.map Value.text).eraseDupsBy (fun key k => k.sameKey key)
      = names.eraseDups.map .text := by
  match names with
  | [] => rfl
  | name :: rest =>
    have hrest : (rest.map Value.text).filter
          (fun key => decide ((Value.text name).sameKey key = false))
        = (rest.filter (fun other => !other == name)).map .text := by
      rw [List.filter_map]
      refine congrArg (List.map Value.text) (List.filter_congr fun other _ => ?_)
      rw [Function.comp_apply, Value.sameKey_text, Value.asText?]
      by_cases h : other = name
      · simp [h]
      · have hkeys : (some name == some other) = false :=
          beq_false_of_ne fun heq => h (Option.some.inj heq).symm
        rw [hkeys, beq_false_of_ne h]
        rfl
    rw [List.map_cons, List.eraseDupsBy_cons, hrest, eraseDupsBy_sameKey_texts, List.eraseDups_cons,
      List.map_cons]
termination_by names.length
decreasing_by exact Nat.lt_succ_of_le (List.length_filter_le ..)

theorem keys_ofList_ofTexts :
    (ofList (ofTexts pairs)).keys = (pairs.map Prod.fst).eraseDups.map .text := by
  rw [keys_ofList, keys_ofTexts, eraseDupsBy_sameKey_texts]

end Querywright.Entries
