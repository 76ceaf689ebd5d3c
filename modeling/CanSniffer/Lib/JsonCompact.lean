import CanSniffer.Lib.JsonLaws

namespace CanSniffer.Lib.Json

open Decimal

mutual

def compact : Json → List UInt8
  | null => ascii "null"
  | bool true => ascii "true"
  | bool false => ascii "false"
  | number lexeme => lexeme
  | string lexeme => 0x22 :: (lexeme ++ [0x22])
  | array [] => [0x5B, 0x5D]
  | array (t :: ts) => 0x5B :: (t.compact ++ compactElements ts)
  | object [] => [0x7B, 0x7D]
  | object ((key, t) :: ms) =>
    0x7B :: 0x22 :: (key ++ (0x22 :: 0x3A :: (t.compact ++ compactMembers ms)))

def compactElements : List Json → List UInt8
  | [] => [0x5D]
  | t :: ts => 0x2C :: (t.compact ++ compactElements ts)

def compactMembers : List (List UInt8 × Json) → List UInt8
  | [] => [0x7D]
  | (key, t) :: ms =>
    0x2C :: 0x22 :: (key ++ (0x22 :: 0x3A :: (t.compact ++ compactMembers ms)))

end

theorem compact_cons {t : Json} (h : t.Lexical) :
    ∃ b s, t.compact = b :: s ∧ isFirst b = true := by
  cases t with
  | null => exact ⟨_, _, rfl, rfl⟩
  | bool b => cases b <;> exact ⟨_, _, rfl, rfl⟩
  | number lexeme =>
    obtain ⟨b, s, hs, hb⟩ := number_cons h
    exact ⟨b, s, hs, (first_of_digit hb).1⟩
  | string lexeme => exact ⟨_, _, rfl, rfl⟩
  | array ts => cases ts <;> exact ⟨_, _, rfl, rfl⟩
  | object ms => cases ms <;> exact ⟨_, _, rfl, rfl⟩

theorem skipWs_compact {t : Json} (h : t.Lexical) (rest : List UInt8) :
    skipWs (t.compact ++ rest) = t.compact ++ rest := by
  obtain ⟨b, s, hs, hb⟩ := compact_cons h
  simp only [isFirst, Bool.and_eq_true, Bool.not_eq_true'] at hb
  rw [hs, List.cons_append, skipWs_cons hb.1]

theorem ends_compactElements (ts : List Json) (rest : List UInt8) :
    EndsNumber (compactElements ts ++ rest) := by
  cases ts <;> rintro b ⟨⟩ <;> rfl

theorem ends_compactMembers (ms : List (List UInt8 × Json)) (rest : List UInt8) :
    EndsNumber (compactMembers ms ++ rest) := by
  cases ms <;> rintro b ⟨⟩ <;> rfl

theorem parseMember_compact {value : List UInt8 → Option (Json × List UInt8)} {t : Json}
    {key : List UInt8} (hkey : scanString .plain (key ++ [0x22]) = some (key, []))
    (ht : t.Lexical) {rest : List UInt8} (hvalue : value (t.compact ++ rest) = some (t, rest)) :
    parseMember value (0x22 :: (key ++ (0x22 :: 0x3A :: (t.compact ++ rest)))) =
      some ((key, t), rest) := by
  rw [parseMember, scanString_append _ hkey, Option.bind_some, skipWs_cons rfl]
  simp only [skipWs_compact ht, hvalue, Option.map_some]

mutual

theorem parseValue_compact : ∀ (t : Json) {k : Nat} {rest : List UInt8}, t.Lexical →
    t.compact.length ≤ k → t.Follows rest →
    parseValue (k + 1) (t.compact ++ rest) = some (t, rest)
  | null, _, _, _, _, _ => rfl
  | bool true, _, _, _, _, _ => rfl
  | bool false, _, _, _, _, _ => rfl
  | number lexeme, k, rest, h, _, hrest => by
    obtain ⟨b, s, rfl, hb⟩ := number_cons h
    have hscan := scanNumber_append hrest h
    rw [List.cons_append] at hscan
    rw [compact, List.cons_append, parseValue_number hb, hscan, Option.map_some]
  | string lexeme, k, rest, h, _, _ => by
    have htext : (string lexeme).compact ++ rest = 0x22 :: (lexeme ++ 0x22 :: rest) := by
      simp [compact]
    rw [htext, parseValue, scanString_append rest h, Option.map_some]
  | array [], _, _, _, _, _ => rfl
  | array (t :: ts), k, rest, h, hk, _ => by
    simp only [compact, List.length_cons, List.length_append] at hk
    obtain ⟨k, rfl⟩ := Nat.exists_eq_add_of_le' (show 1 ≤ k by omega)
    have hvalue (rest : List UInt8) (hrest : EndsNumber rest) :
        parseValue (k + 1) (t.compact ++ rest) = some (t, rest) :=
      parseValue_compact t h.1 (by omega) (.of_ends hrest t)
    have helements := parseElements_compact ts rest (m := k + 1) h.1 h.2
      (by rw [List.length_append]; omega) (by rw [List.length_append]; omega) hvalue
    obtain ⟨b, s, hs, hb⟩ := compact_cons h.1
    have hfirst : b ≠ 0x5D := by
      rintro rfl
      exact absurd hb (by decide)
    rw [compact, List.cons_append, parseValue, List.append_assoc, skipWs_compact h.1]
    rw [hs] at helements ⊢
    rw [List.cons_append] at helements ⊢
    split
    · next heq => exact absurd (List.cons.inj heq).1 hfirst
    · rw [helements, Option.map_some]
  | object [], _, _, _, _, _ => rfl
  | object ((key, t) :: ms), k, rest, h, hk, _ => by
    simp only [compact, List.length_cons, List.length_append] at hk
    obtain ⟨k, rfl⟩ := Nat.exists_eq_add_of_le' (show 1 ≤ k by omega)
    have hvalue (rest : List UInt8) (hrest : EndsNumber rest) :
        parseValue (k + 1) (t.compact ++ rest) = some (t, rest) :=
      parseValue_compact t h.2.1 (by omega) (.of_ends hrest t)
    have hmembers := parseMembers_compact ms rest (m := k + 1) h.1 h.2.1 h.2.2
      (by rw [List.length_append]; omega) (by rw [List.length_append]; omega) hvalue
    have htext : (object ((key, t) :: ms)).compact ++ rest =
        0x7B :: 0x22 :: (key ++
          (0x22 :: 0x3A :: (t.compact ++ (compactMembers ms ++ rest)))) := by
      simp [compact]
    rw [htext, parseValue, skipWs_cons rfl]
    show Option.map _ (parseMembers _ _ _) = _
    rw [hmembers, Option.map_some]

theorem parseElements_compact : ∀ (ts : List Json) (rest : List UInt8) {t : Json} {k m : Nat},
    t.Lexical → LexicalElements ts → (t.compact ++ compactElements ts).length ≤ k →
    (t.compact ++ compactElements ts).length ≤ m →
    (∀ rest, EndsNumber rest → parseValue k (t.compact ++ rest) = some (t, rest)) →
    parseElements (parseValue k) m (t.compact ++ (compactElements ts ++ rest)) =
      some (t :: ts, rest)
  | [], rest, t, k, m, _, _, _, hm, hvalue => by
    simp only [compactElements, List.length_append, List.length_singleton] at hm
    obtain ⟨m, rfl⟩ := Nat.exists_eq_add_of_le' (show 1 ≤ m by omega)
    rw [parseElements, hvalue _ (ends_compactElements [] rest), Option.bind_some, compactElements,
      List.singleton_append, skipWs_cons rfl]
    rfl
  | t' :: ts, rest, t, k, m, _, hts, hk, hm, hvalue => by
    simp only [compactElements, List.length_append, List.length_cons] at hk hm
    obtain ⟨k, rfl⟩ := Nat.exists_eq_add_of_le' (show 1 ≤ k by omega)
    obtain ⟨m, rfl⟩ := Nat.exists_eq_add_of_le' (show 1 ≤ m by omega)
    have hvalue' (rest : List UInt8) (hrest : EndsNumber rest) :
        parseValue (k + 1) (t'.compact ++ rest) = some (t', rest) :=
      parseValue_compact t' hts.1 (by omega) (.of_ends hrest t')
    have helements := parseElements_compact ts rest (m := m) hts.1 hts.2
      (by rw [List.length_append]; omega) (by rw [List.length_append]; omega) hvalue'
    have htext : compactElements (t' :: ts) ++ rest =
        0x2C :: (t'.compact ++ (compactElements ts ++ rest)) := by
      simp [compactElements]
    rw [parseElements, hvalue _ (ends_compactElements _ rest), Option.bind_some, htext,
      skipWs_cons rfl]
    simp only [skipWs_compact hts.1, helements, Option.map_some]

theorem parseMembers_compact : ∀ (ms : List (List UInt8 × Json)) (rest : List UInt8)
    {key : List UInt8} {t : Json} {k m : Nat}, scanString .plain (key ++ [0x22]) = some (key, []) →
    t.Lexical → LexicalMembers ms → (t.compact ++ compactMembers ms).length ≤ k →
    (t.compact ++ compactMembers ms).length ≤ m →
    (∀ rest, EndsNumber rest → parseValue k (t.compact ++ rest) = some (t, rest)) →
    parseMembers (parseValue k) m (0x22 :: (key ++
      (0x22 :: 0x3A :: (t.compact ++ (compactMembers ms ++ rest))))) =
      some ((key, t) :: ms, rest)
  | [], rest, key, t, k, m, hkey, ht, _, _, hm, hvalue => by
    simp only [compactMembers, List.length_append, List.length_singleton] at hm
    obtain ⟨m, rfl⟩ := Nat.exists_eq_add_of_le' (show 1 ≤ m by omega)
    rw [parseMembers, parseMember_compact hkey ht (hvalue _ (ends_compactMembers [] rest)),
      Option.bind_some, compactMembers, List.singleton_append, skipWs_cons rfl]
    rfl
  | (key', t') :: ms, rest, key, t, k, m, hkey, ht, hms, hk, hm, hvalue => by
    simp only [compactMembers, List.length_append, List.length_cons] at hk hm
    obtain ⟨k, rfl⟩ := Nat.exists_eq_add_of_le' (show 1 ≤ k by omega)
    obtain ⟨m, rfl⟩ := Nat.exists_eq_add_of_le' (show 1 ≤ m by omega)
    have hvalue' (rest : List UInt8) (hrest : EndsNumber rest) :
        parseValue (k + 1) (t'.compact ++ rest) = some (t', rest) :=
      parseValue_compact t' hms.2.1 (by omega) (.of_ends hrest t')
    have hmembers := parseMembers_compact ms rest (m := m) hms.1 hms.2.1 hms.2.2
      (by rw [List.length_append]; omega) (by rw [List.length_append]; omega) hvalue'
    have htext : compactMembers ((key', t') :: ms) ++ rest =
        0x2C :: 0x22 :: (key' ++
          (0x22 :: 0x3A :: (t'.compact ++ (compactMembers ms ++ rest)))) := by
      simp [compactMembers]
    rw [parseMembers, parseMember_compact hkey ht (hvalue _ (ends_compactMembers _ rest)),
      Option.bind_some, htext, skipWs_cons rfl]
    simp only [skipWs_cons (show isWs 0x22 = false from rfl), hmembers, Option.map_some]

end

theorem parse_compact {t : Json} (h : t.Lexical) {rest : List UInt8} (hrest : t.Follows rest) :
    parse (t.compact ++ rest) = if rest.all isWs then some t else none := by
  rw [parse, skipWs_compact h, parseValue_compact t h (by simp) hrest, Option.bind_some]
  simp only [skipWs_eq_nil_iff, List.all_eq_true]

theorem parse_compact_self {t : Json} (h : t.Lexical) : parse t.compact = some t := by
  have hends : EndsNumber [] := nofun
  have hparse := parse_compact h (Follows.of_ends hends t)
  rwa [List.append_nil] at hparse

def ofNat (n : Nat) : Json := number (unsigned n)

theorem lexical_ofNat (n : Nat) : (ofNat n).Lexical := lexical_unsigned n

theorem lexical_string {s : List UInt8} (h : s.all isPlain = true) : (string s).Lexical :=
  scanString_key h

theorem lookup_of_mem {α β : Type} [BEq α] [LawfulBEq α] {l : List (α × β)} {k : α} {v : β}
    (h : (l.map Prod.fst).Nodup) (hmem : (k, v) ∈ l) : l.lookup k = some v := by
  induction l with
  | nil => cases hmem
  | cons p l ih =>
    obtain ⟨hnot, hnodup⟩ := List.nodup_cons.mp h
    rcases List.mem_cons.mp hmem with rfl | hmem
    · rw [List.lookup_cons, beq_self_eq_true]
    · have hne : (k == p.1) = false := by
        rw [beq_eq_false_iff_ne]
        intro heq
        exact hnot (heq ▸ List.mem_map_of_mem hmem)
      rw [List.lookup_cons, hne]
      exact ih hnodup hmem

theorem find_of_mem {ms : List (List UInt8 × Json)} {key : List UInt8} {t : Json}
    (h : (ms.map Prod.fst).Nodup) (hmem : (key, t) ∈ ms) : (object ms).find [key] = some t := by
  rw [find, lookup_of_mem h hmem]
  rfl

theorem parse_spaced {t : Json} (h : t.Lexical) {s : List UInt8} (hs : t.compact = 0x7B :: s) :
    parse (0x7B :: 0x20 :: s) = some t := by
  have hvalue : parseValue ((0x7B :: 0x20 :: s).length + 1) t.compact = some (t, []) := by
    have hends : EndsNumber [] := nofun
    have hparse : parseValue ((0x7B :: 0x20 :: s).length + 1) (t.compact ++ []) = some (t, []) :=
      parseValue_compact t h
        (by rw [hs, List.length_cons, List.length_cons, List.length_cons]; omega)
        (Follows.of_ends hends t)
    rwa [List.append_nil] at hparse
  have hspace : parseValue ((0x7B :: 0x20 :: s).length + 1) (0x7B :: 0x20 :: s) =
      parseValue ((0x7B :: 0x20 :: s).length + 1) (0x7B :: s) := by
    have hskip : skipWs (0x20 :: s) = skipWs s := rfl
    rw [parseValue, parseValue, hskip]
  rw [parse, skipWs_cons rfl, hspace, ← hs, hvalue]
  rfl

end CanSniffer.Lib.Json
