import CanSniffer.Lib.Json

namespace CanSniffer.Lib.Json

open Decimal

theorem skipWs_append {w : List UInt8} (hw : ∀ b ∈ w, isWs b = true) (s : List UInt8) :
    skipWs (w ++ s) = skipWs s := by
  induction w with
  | nil => rfl
  | cons b w ih =>
    rw [List.forall_mem_cons] at hw
    rw [List.cons_append, skipWs, List.dropWhile_cons_of_pos hw.1]
    exact ih hw.2

theorem skipWs_cons {b : UInt8} (hb : isWs b = false) (s : List UInt8) :
    skipWs (b :: s) = b :: s := by
  rw [skipWs, List.dropWhile_cons_of_neg]
  simp [hb]

theorem skipWs_eq_nil_iff {s : List UInt8} : skipWs s = [] ↔ ∀ b ∈ s, isWs b = true := by
  rw [skipWs, List.dropWhile_eq_nil_iff]

theorem isWs_newline {n : Nat} : ∀ b ∈ newline n, isWs b = true := by
  intro b hb
  rcases List.mem_cons.mp hb with rfl | hb
  · rfl
  · rw [List.eq_of_mem_replicate hb]
    rfl

@[simp] theorem skipWs_newline (n : Nat) (s : List UInt8) : skipWs (newline n ++ s) = skipWs s :=
  skipWs_append isWs_newline s

@[simp] theorem length_newline (n : Nat) : (newline n).length = n + 1 := by
  simp [newline]

def isNumber (b : UInt8) : Bool :=
  isDigit b || b == 0x2D || b == 0x2B || b == 0x2E || b == 0x65 || b == 0x45

theorem NumberState.next_eq_none {b : UInt8} (hb : isNumber b = false) (st : NumberState) :
    st.next b = none := by
  simp only [isNumber, Bool.or_eq_false_iff, beq_eq_false_iff_ne] at hb
  obtain ⟨⟨⟨⟨⟨hdigit, hminus⟩, hplus⟩, hpoint⟩, he⟩, hE⟩ := hb
  have hzero : b ≠ 0x30 := by
    rintro rfl
    exact absurd hdigit (by decide)
  cases st <;>
    simp [next, intNext, fracNext, expNext, hdigit, hminus, hplus, hpoint, he, hE, hzero]

def EndsNumber (s : List UInt8) : Prop := ∀ b ∈ s.head?, isNumber b = false

theorem scanNumber_append {s rest : List UInt8} (hrest : EndsNumber rest) :
    ∀ {st : NumberState}, scanNumber st s = some (s, []) →
      scanNumber st (s ++ rest) = some (s, rest) := by
  induction s with
  | nil =>
    intro st hst
    have haccepts : st.accepts = true := by
      cases h : st.accepts with
      | true => rfl
      | false => simp [scanNumber, h] at hst
    cases rest with
    | nil => exact hst
    | cons b rest =>
      rw [List.nil_append, scanNumber, NumberState.next_eq_none (hrest b rfl)]
      simp [haccepts]
  | cons b s ih =>
    intro st hst
    rw [scanNumber] at hst
    rw [List.cons_append, scanNumber]
    cases hnext : st.next b with
    | none => simp [hnext] at hst
    | some st' =>
      simp only [hnext, Option.map_eq_some_iff, Prod.mk.injEq, List.cons.injEq, true_and] at hst
      obtain ⟨r, hr, hr1, hr2⟩ := hst
      have hs : scanNumber st' s = some (s, []) := by rw [hr, ← hr1, ← hr2]
      simp [ih hs]

theorem scanString_append {s : List UInt8} (rest : List UInt8) :
    ∀ {st : StringState}, scanString st (s ++ [0x22]) = some (s, []) →
      scanString st (s ++ 0x22 :: rest) = some (s, rest) := by
  induction s with
  | nil =>
    intro st hst
    rw [List.nil_append, scanString] at hst ⊢
    by_cases hplain : st = .plain
    · simp [hplain]
    · rw [if_neg (fun hst => hplain hst.1)] at hst
      cases hnext : st.next 0x22 with
      | none => simp [hnext] at hst
      | some st' => simp [hnext, scanString] at hst
  | cons b s ih =>
    intro st hst
    rw [List.cons_append, scanString] at hst ⊢
    by_cases hplain : st = .plain ∧ b = 0x22
    · simp [hplain] at hst
    · rw [if_neg hplain] at hst ⊢
      cases hnext : st.next b with
      | none => simp [hnext] at hst
      | some st' =>
        simp only [hnext, Option.map_eq_some_iff, Prod.mk.injEq, List.cons.injEq, true_and] at hst
        obtain ⟨r, hr, hr1, hr2⟩ := hst
        have hs : scanString st' (s ++ [0x22]) = some (s, []) := by rw [hr, ← hr1, ← hr2]
        simp [ih hs]

mutual

/-- Numbers, strings and names are what the grammar makes of them. -/
def Lexical : Json → Prop
  | null => True
  | bool _ => True
  | number lexeme => scanNumber .start lexeme = some (lexeme, [])
  | string lexeme => scanString .plain (lexeme ++ [0x22]) = some (lexeme, [])
  | array ts => LexicalElements ts
  | object ms => LexicalMembers ms

def LexicalElements : List Json → Prop
  | [] => True
  | t :: ts => t.Lexical ∧ LexicalElements ts

def LexicalMembers : List (List UInt8 × Json) → Prop
  | [] => True
  | (key, t) :: ms =>
    scanString .plain (key ++ [0x22]) = some (key, []) ∧ t.Lexical ∧ LexicalMembers ms

end

def isFirst (b : UInt8) : Bool := !isWs b && b != 0x5D

theorem number_cons {lexeme : List UInt8} (h : (number lexeme).Lexical) :
    ∃ b s, lexeme = b :: s ∧ (b = 0x2D ∨ isDigit b = true) := by
  simp only [Lexical] at h
  cases lexeme with
  | nil => simp [scanNumber, NumberState.accepts] at h
  | cons b s =>
    refine ⟨b, s, rfl, ?_⟩
    cases hnext : NumberState.start.next b with
    | none => simp [scanNumber, hnext, NumberState.accepts] at h
    | some st =>
      simp only [NumberState.next, NumberState.intNext] at hnext
      by_cases hminus : b = 0x2D
      · exact .inl hminus
      · right
        by_cases hzero : b = 0x30
        · rw [hzero]
          rfl
        · simp only [hminus, hzero, if_false, Option.ite_none_right_eq_some] at hnext
          exact hnext.1

theorem first_of_digit {b : UInt8} (h : b = 0x2D ∨ isDigit b = true) :
    isFirst b = true ∧ b ≠ 0x7B ∧ b ≠ 0x5B ∧ b ≠ 0x22 ∧ b ≠ 0x6E ∧ b ≠ 0x74 ∧ b ≠ 0x66 := by
  have hne (c : UInt8) (hc : c ≠ 0x2D) (hdigit : isDigit c = false) : b ≠ c := by
    rcases h with rfl | h
    · exact hc.symm
    · exact ne_of_isDigit h hdigit
  refine ⟨?_, ?_, ?_, ?_, ?_, ?_, ?_⟩
  · simp only [isFirst, isWs, Bool.and_eq_true, Bool.not_eq_true', Bool.or_eq_false_iff,
      beq_eq_false_iff_ne, bne_iff_ne]
    refine ⟨⟨⟨⟨?_, ?_⟩, ?_⟩, ?_⟩, ?_⟩
    all_goals exact hne _ (by decide) (by decide)
  all_goals exact hne _ (by decide) (by decide)

theorem pretty_cons (n : Nat) {t : Json} (h : t.Lexical) :
    ∃ b s, t.pretty n = b :: s ∧ isFirst b = true := by
  cases t with
  | null => exact ⟨_, _, rfl, rfl⟩
  | bool b => cases b <;> exact ⟨_, _, rfl, rfl⟩
  | number lexeme =>
    obtain ⟨b, s, hs, hb⟩ := number_cons h
    exact ⟨b, s, hs, (first_of_digit hb).1⟩
  | string lexeme => exact ⟨_, _, rfl, rfl⟩
  | array ts => cases ts <;> exact ⟨_, _, rfl, rfl⟩
  | object ms => cases ms <;> exact ⟨_, _, rfl, rfl⟩

theorem skipWs_pretty (n : Nat) {t : Json} (h : t.Lexical) (rest : List UInt8) :
    skipWs (t.pretty n ++ rest) = t.pretty n ++ rest := by
  obtain ⟨b, s, hs, hb⟩ := pretty_cons n h
  simp only [isFirst, Bool.and_eq_true, Bool.not_eq_true'] at hb
  rw [hs, List.cons_append, skipWs_cons hb.1]

theorem parseValue_number {b : UInt8} (h : b = 0x2D ∨ isDigit b = true) (k : Nat) (s : List UInt8) :
    parseValue (k + 1) (b :: s) =
      (scanNumber .start (b :: s)).map fun r => (.number r.1, r.2) := by
  obtain ⟨-, h1, h2, h3, h4, h5, h6⟩ := first_of_digit h
  unfold parseValue
  split
  all_goals first | rfl | simp_all

def Follows : Json → List UInt8 → Prop
  | number _, rest => EndsNumber rest
  | _, _ => True

theorem Follows.of_ends {rest : List UInt8} (h : EndsNumber rest) (t : Json) : t.Follows rest := by
  cases t with
  | number lexeme => exact h
  | _ => trivial

theorem ends_prettyElements (n : Nat) (ts : List Json) (rest : List UInt8) :
    EndsNumber (prettyElements n ts ++ rest) := by
  cases ts <;> rintro b ⟨⟩ <;> rfl

theorem ends_prettyMembers (n : Nat) (ms : List (List UInt8 × Json)) (rest : List UInt8) :
    EndsNumber (prettyMembers n ms ++ rest) := by
  cases ms <;> rintro b ⟨⟩ <;> rfl

section

variable {value : List UInt8 → Option (Json × List UInt8)} {n : Nat} {t : Json}

theorem parseMember_pretty {key : List UInt8}
    (hkey : scanString .plain (key ++ [0x22]) = some (key, [])) (ht : t.Lexical)
    {rest : List UInt8} (hvalue : value (t.pretty n ++ rest) = some (t, rest)) :
    parseMember value (0x22 :: (key ++ (0x22 :: 0x3A :: (t.pretty n ++ rest)))) =
      some ((key, t), rest) := by
  rw [parseMember, scanString_append _ hkey, Option.bind_some, skipWs_cons rfl]
  simp only [skipWs_pretty n ht, hvalue, Option.map_some]

end

mutual

theorem parseValue_pretty : ∀ (t : Json) {n k : Nat} {rest : List UInt8}, t.Lexical →
    (t.pretty n).length ≤ k → t.Follows rest →
    parseValue (k + 1) (t.pretty n ++ rest) = some (t, rest)
  | null, _, _, _, _, _, _ => rfl
  | bool true, _, _, _, _, _, _ => rfl
  | bool false, _, _, _, _, _, _ => rfl
  | number lexeme, n, k, rest, h, _, hrest => by
    obtain ⟨b, s, rfl, hb⟩ := number_cons h
    have hscan := scanNumber_append hrest h
    rw [List.cons_append] at hscan
    rw [pretty, List.cons_append, parseValue_number hb, hscan, Option.map_some]
  | string lexeme, n, k, rest, h, _, _ => by
    have htext : (string lexeme).pretty n ++ rest = 0x22 :: (lexeme ++ 0x22 :: rest) := by
      simp [pretty]
    rw [htext, parseValue, scanString_append rest h, Option.map_some]
  | array [], _, _, _, _, _, _ => rfl
  | array (t :: ts), n, k, rest, h, hk, _ => by
    simp only [pretty, List.length_cons, List.length_append, length_newline] at hk
    obtain ⟨k, rfl⟩ := Nat.exists_eq_add_of_le' (show 1 ≤ k by omega)
    have hvalue (rest : List UInt8) (hrest : EndsNumber rest) :
        parseValue (k + 1) (t.pretty (n + 4) ++ rest) = some (t, rest) :=
      parseValue_pretty t h.1 (by omega) (.of_ends hrest t)
    have helements := parseElements_pretty ts rest (n := n) (m := k + 1) h.1 h.2
      (by rw [List.length_append]; omega) (by rw [List.length_append]; omega) hvalue
    obtain ⟨b, s, hs, hb⟩ := pretty_cons (n + 4) h.1
    have hfirst : b ≠ 0x5D := by
      rintro rfl
      exact absurd hb (by decide)
    rw [pretty, List.cons_append, parseValue, List.append_assoc, skipWs_newline, List.append_assoc,
      skipWs_pretty _ h.1]
    rw [hs] at helements ⊢
    rw [List.cons_append] at helements ⊢
    split
    · next heq => exact absurd (List.cons.inj heq).1 hfirst
    · rw [helements, Option.map_some]
  | object [], _, _, _, _, _, _ => rfl
  | object ((key, t) :: ms), n, k, rest, h, hk, _ => by
    simp only [pretty, List.length_cons, List.length_append, length_newline] at hk
    obtain ⟨k, rfl⟩ := Nat.exists_eq_add_of_le' (show 1 ≤ k by omega)
    have hvalue (rest : List UInt8) (hrest : EndsNumber rest) :
        parseValue (k + 1) (t.pretty (n + 4) ++ rest) = some (t, rest) :=
      parseValue_pretty t h.2.1 (by omega) (.of_ends hrest t)
    have hmembers := parseMembers_pretty ms rest (n := n) (m := k + 1) h.1 h.2.1 h.2.2
      (by rw [List.length_append]; omega) (by rw [List.length_append]; omega) hvalue
    have htext : (object ((key, t) :: ms)).pretty n ++ rest =
        0x7B :: (newline (n + 4) ++ (0x22 :: (key ++
          (0x22 :: 0x3A :: (t.pretty (n + 4) ++ (prettyMembers n ms ++ rest)))))) := by
      simp [pretty]
    rw [htext, parseValue, skipWs_newline, skipWs_cons rfl]
    show Option.map _ (parseMembers _ _ _) = _
    rw [hmembers, Option.map_some]

theorem parseElements_pretty : ∀ (ts : List Json) (rest : List UInt8) {t : Json} {n k m : Nat},
    t.Lexical → LexicalElements ts → (t.pretty (n + 4) ++ prettyElements n ts).length ≤ k →
    (t.pretty (n + 4) ++ prettyElements n ts).length ≤ m →
    (∀ rest, EndsNumber rest → parseValue k (t.pretty (n + 4) ++ rest) = some (t, rest)) →
    parseElements (parseValue k) m (t.pretty (n + 4) ++ (prettyElements n ts ++ rest)) =
      some (t :: ts, rest)
  | [], rest, t, n, k, m, _, _, _, hm, hvalue => by
    simp only [prettyElements, List.length_append, length_newline, List.length_singleton] at hm
    obtain ⟨m, rfl⟩ := Nat.exists_eq_add_of_le' (show 1 ≤ m by omega)
    rw [parseElements, hvalue _ (ends_prettyElements n [] rest), Option.bind_some, prettyElements,
      List.append_assoc, skipWs_newline, List.singleton_append, skipWs_cons rfl]
    rfl
  | t' :: ts, rest, t, n, k, m, _, hts, hk, hm, hvalue => by
    simp only [prettyElements, List.length_append, List.length_cons, length_newline] at hk hm
    obtain ⟨k, rfl⟩ := Nat.exists_eq_add_of_le' (show 1 ≤ k by omega)
    obtain ⟨m, rfl⟩ := Nat.exists_eq_add_of_le' (show 1 ≤ m by omega)
    have hvalue' (rest : List UInt8) (hrest : EndsNumber rest) :
        parseValue (k + 1) (t'.pretty (n + 4) ++ rest) = some (t', rest) :=
      parseValue_pretty t' hts.1 (by omega) (.of_ends hrest t')
    have helements := parseElements_pretty ts rest (n := n) (m := m) hts.1 hts.2
      (by rw [List.length_append]; omega) (by rw [List.length_append]; omega) hvalue'
    have htext : prettyElements n (t' :: ts) ++ rest =
        0x2C :: (newline (n + 4) ++ (t'.pretty (n + 4) ++ (prettyElements n ts ++ rest))) := by
      simp [prettyElements]
    rw [parseElements, hvalue _ (ends_prettyElements n _ rest), Option.bind_some, htext,
      skipWs_cons rfl]
    simp only [skipWs_newline, skipWs_pretty _ hts.1, helements, Option.map_some]

theorem parseMembers_pretty : ∀ (ms : List (List UInt8 × Json)) (rest : List UInt8)
    {key : List UInt8} {t : Json} {n k m : Nat}, scanString .plain (key ++ [0x22]) = some (key, []) →
    t.Lexical → LexicalMembers ms → (t.pretty (n + 4) ++ prettyMembers n ms).length ≤ k →
    (t.pretty (n + 4) ++ prettyMembers n ms).length ≤ m →
    (∀ rest, EndsNumber rest → parseValue k (t.pretty (n + 4) ++ rest) = some (t, rest)) →
    parseMembers (parseValue k) m (0x22 :: (key ++
      (0x22 :: 0x3A :: (t.pretty (n + 4) ++ (prettyMembers n ms ++ rest))))) =
      some ((key, t) :: ms, rest)
  | [], rest, key, t, n, k, m, hkey, ht, _, _, hm, hvalue => by
    simp only [prettyMembers, List.length_append, length_newline, List.length_singleton] at hm
    obtain ⟨m, rfl⟩ := Nat.exists_eq_add_of_le' (show 1 ≤ m by omega)
    rw [parseMembers, parseMember_pretty hkey ht (hvalue _ (ends_prettyMembers n [] rest)),
      Option.bind_some, prettyMembers, List.append_assoc, skipWs_newline, List.singleton_append,
      skipWs_cons rfl]
    rfl
  | (key', t') :: ms, rest, key, t, n, k, m, hkey, ht, hms, hk, hm, hvalue => by
    simp only [prettyMembers, List.length_append, List.length_cons, length_newline] at hk hm
    obtain ⟨k, rfl⟩ := Nat.exists_eq_add_of_le' (show 1 ≤ k by omega)
    obtain ⟨m, rfl⟩ := Nat.exists_eq_add_of_le' (show 1 ≤ m by omega)
    have hvalue' (rest : List UInt8) (hrest : EndsNumber rest) :
        parseValue (k + 1) (t'.pretty (n + 4) ++ rest) = some (t', rest) :=
      parseValue_pretty t' hms.2.1 (by omega) (.of_ends hrest t')
    have hmembers := parseMembers_pretty ms rest (n := n) (m := m) hms.1 hms.2.1 hms.2.2
      (by rw [List.length_append]; omega) (by rw [List.length_append]; omega) hvalue'
    have htext : prettyMembers n ((key', t') :: ms) ++ rest =
        0x2C :: (newline (n + 4) ++ (0x22 :: (key' ++
          (0x22 :: 0x3A :: (t'.pretty (n + 4) ++ (prettyMembers n ms ++ rest)))))) := by
      simp [prettyMembers]
    rw [parseMembers, parseMember_pretty hkey ht (hvalue _ (ends_prettyMembers n _ rest)),
      Option.bind_some, htext, skipWs_cons rfl]
    simp only [skipWs_newline, skipWs_cons (show isWs 0x22 = false from rfl), hmembers,
      Option.map_some]

end

section

variable {st : NumberState} (hst : ∀ b, isDigit b = true → st.next b = NumberState.intNext b)

include hst

theorem scanNumber_unsigned_append {n : Nat} : ∀ {s : List UInt8}, 0 < n →
    scanNumber st (unsigned n ++ s) =
      (scanNumber .int s).map fun r => (unsigned n ++ r.1, r.2) := by
  induction n using Nat.strongRecOn with
  | ind n ih =>
    intro s hn
    rcases Nat.lt_or_ge n 10 with hlt | hge
    · rw [unsigned_of_lt hlt, List.singleton_append, scanNumber, hst _ (isDigit_digit hlt)]
      simp [NumberState.intNext, digit_ne_zero hlt hn, isDigit_digit hlt]
    · have hdigit := isDigit_digit (Nat.mod_lt n (show 10 > 0 by decide))
      rw [unsigned_of_le hge, List.append_assoc, ih (n / 10) (by omega) (by omega),
        List.singleton_append, scanNumber]
      simp [NumberState.next, hdigit, Function.comp_def]

theorem scanNumber_unsigned (n : Nat) : scanNumber st (unsigned n) = some (unsigned n, []) := by
  rcases Nat.eq_zero_or_pos n with rfl | hn
  · rw [unsigned_of_lt (by decide), scanNumber, hst _ rfl]
    rfl
  · have h := scanNumber_unsigned_append hst (s := []) hn
    rw [List.append_nil] at h
    rw [h, scanNumber, NumberState.accepts]
    simp

end

theorem lexical_signed (z : Int) : (number (signed z)).Lexical := by
  unfold Lexical signed
  by_cases hz : z < 0
  · rw [if_pos hz, scanNumber]
    have h := @scanNumber_unsigned .minus (fun _ _ => rfl) z.natAbs
    simp [NumberState.next, h]
  · rw [if_neg hz]
    refine scanNumber_unsigned (fun b hb => ?_) z.natAbs
    rw [NumberState.next, if_neg (isSpace_of_digit hb).2.1]

theorem lexical_unsigned (n : Nat) : (number (unsigned n)).Lexical := lexical_signed n

def isPlain (b : UInt8) : Bool :=
  decide (0x20 ≤ b) && decide (b < 0x80) && b != 0x22 && b != 0x5C

theorem isPlain_of_digit {b : UInt8} (h : isDigit b = true) : isPlain b = true := by
  have hne {c : UInt8} : isDigit c = false → b ≠ c := ne_of_isDigit h
  simp only [isDigit, Bool.and_eq_true, decide_eq_true_eq, UInt8.le_iff_toNat_le,
    UInt8.reduceToNat] at h
  simp only [isPlain, Bool.and_eq_true, decide_eq_true_eq, bne_iff_ne, UInt8.le_iff_toNat_le,
    UInt8.lt_iff_toNat_lt, UInt8.reduceToNat]
  exact ⟨⟨⟨by omega, by omega⟩, hne rfl⟩, hne rfl⟩

theorem scanString_plain {s : List UInt8} (hs : ∀ b ∈ s, isPlain b = true) :
    scanString .plain (s ++ [0x22]) = some (s, []) := by
  induction s with
  | nil => rfl
  | cons b s ih =>
    obtain ⟨hb, hrest⟩ := List.forall_mem_cons.mp hs
    simp only [isPlain, Bool.and_eq_true, decide_eq_true_eq, bne_iff_ne] at hb
    obtain ⟨⟨⟨hlow, hhigh⟩, hquote⟩, hescape⟩ := hb
    have hcontrol : ¬b < 0x20 := UInt8.not_lt.mpr hlow
    rw [List.cons_append, scanString, if_neg (fun h => hquote h.2)]
    simp [StringState.next, hescape, hcontrol, hhigh, ih hrest]

theorem scanString_key {s : List UInt8} (h : s.all isPlain = true) :
    scanString .plain (s ++ [0x22]) = some (s, []) :=
  scanString_plain (List.all_eq_true.mp h)

theorem parse_pretty {t : Json} (n : Nat) (h : t.Lexical) {rest : List UInt8}
    (hrest : t.Follows rest) :
    parse (t.pretty n ++ rest) = if rest.all isWs then some t else none := by
  rw [parse, skipWs_pretty n h, parseValue_pretty t h (by simp) hrest, Option.bind_some]
  simp only [skipWs_eq_nil_iff, List.all_eq_true]

theorem parse_line {t : Json} (n : Nat) (h : t.Lexical) (rest : List UInt8) :
    parse (t.pretty n ++ ascii "\n" ++ rest) =
      if rest.all isWs then some t else none := by
  have hends : EndsNumber (ascii "\n" ++ rest) := by
    rintro b ⟨⟩
    rfl
  have hline : (ascii "\n").all isWs = true := rfl
  rw [List.append_assoc, parse_pretty n h (.of_ends hends t), List.all_append, hline, Bool.true_and]

end CanSniffer.Lib.Json
