import Mathlib.Data.List.DropRight
import CanSniffer.Web.HttpdPost

namespace CanSniffer.Web

def pairOf (part : List UInt8) : PostPair :=
  ((part.takeWhile (· ≠ 61)).take 15, ((part.dropWhile (· ≠ 61)).drop 1).take 31)

def pairsOfParts (parts : List (List UInt8)) : List PostPair := (parts.filter (· ≠ [])).map pairOf

def pairsOf (body : List UInt8) : List PostPair := pairsOfParts (body.splitOn 38)

namespace PostForm

def keyAfter (key part : List UInt8) : List UInt8 :=
  let k := (part.takeWhile (· ≠ 61)).take 15
  if 61 ∈ part then k ++ 0 :: key.drop (k.length + 1) else k ++ key.drop k.length

def valueRead (part : List UInt8) : List UInt8 :=
  if 61 ∈ part then (part.rtakeWhile (· ≠ 61)).take 31 else []

def handed (key part : List UInt8) : PostPair :=
  (cString (keyAfter key part), cString (valueRead part))

/-- The pairs that are handed on for the parts; the last of them has no `&` behind it. -/
def handedAll (key : List UInt8) : List (List UInt8) → List PostPair
  | [] => []
  | [part] => if valueRead part ≠ [] then [handed key part] else []
  | part :: next :: parts => handed key part :: handedAll (keyAfter key part) (next :: parts)

/-- The form has read `part` since the last `&`, where its key buffer was `old`. -/
structure At (f : PostForm) (old part : List UInt8) : Prop where
  key : f.key = keyAfter old part
  klen : f.klen = ((part.takeWhile (· ≠ 61)).take 15).length
  phase : f.phase = decide (61 ∈ part)
  vlen : f.vlen = (valueRead part).length
  val : f.val.take f.vlen = valueRead part
  room : f.val.length = 32
  width : old.length = 16

theorem takeWhile_of_not_mem {part : List UInt8} (h : 61 ∉ part) :
    part.takeWhile (· ≠ 61) = part := by
  rw [List.takeWhile_eq_self_iff]
  intro b hb
  exact decide_eq_true fun he => h (he ▸ hb)

theorem takeWhile_append_cons (part rest : List UInt8) (b : UInt8) :
    (part ++ b :: rest).takeWhile (· ≠ b) = part.takeWhile (· ≠ b) := by
  rw [List.takeWhile_append]
  split
  · next h => rw [List.takeWhile_cons_of_neg (by simp), List.append_nil,
      (List.takeWhile_sublist _).eq_of_length h]
  · rfl

theorem takeWhile_append_of_mem {part : List UInt8} (h : 61 ∈ part) (rest : List UInt8) :
    (part ++ rest).takeWhile (· ≠ 61) = part.takeWhile (· ≠ 61) := by
  rw [List.takeWhile_append, if_neg]
  intro hlen
  have hself := (List.takeWhile_sublist _).eq_of_length hlen
  rw [List.takeWhile_eq_self_iff] at hself
  simpa using hself 61 h

theorem set_append_drop {s old : List UInt8} (h : s.length < old.length) (c : UInt8) :
    (s ++ old.drop s.length).set s.length c = s ++ c :: old.drop (s.length + 1) := by
  rw [List.set_append_right _ _ (Nat.le_refl _), Nat.sub_self, List.drop_eq_getElem_cons h]
  rfl

theorem set_append_cons (s t : List UInt8) (b c : UInt8) :
    (s ++ b :: t).set s.length c = s ++ c :: t := by
  rw [List.set_append_right _ _ (Nat.le_refl _), Nat.sub_self]
  rfl

variable {f : PostForm} {old part : List UInt8}

theorem At.equals (h : f.At old part) :
    f.consumeByte 61 = ({ f with key := f.key.set f.klen 0, phase := true, vlen := 0 }, []) ∧
      At { f with key := f.key.set f.klen 0, phase := true, vlen := 0 } old (part ++ [61]) := by
  have hmem : 61 ∈ part ++ [61] := by simp
  have hvalue : valueRead (part ++ [61]) = [] := by
    rw [valueRead, if_pos hmem, List.rtakeWhile_concat_neg _ _ _ (by simp), List.take_nil]
  refine ⟨if_pos rfl, ?_, ?_, ?_, ?_, ?_, h.room, h.width⟩
  · have hlt : ((part.takeWhile (· ≠ 61)).take 15).length < old.length := by
      rw [h.width, List.length_take]
      omega
    rw [h.key, h.klen, keyAfter, keyAfter, takeWhile_append_cons]
    dsimp only
    rw [if_pos hmem]
    split
    · exact set_append_cons _ _ _ _
    · exact set_append_drop hlt 0
  · rw [takeWhile_append_cons]
    exact h.klen
  · exact (decide_eq_true hmem).symm
  · rw [hvalue]
    rfl
  · rw [hvalue]
    rfl

theorem not_mem_concat {part : List UInt8} {b c : UInt8} (hmem : b ∉ part) (hne : c ≠ b) :
    b ∉ part ++ [c] := by
  simp only [List.mem_append, List.mem_singleton, not_or]
  exact ⟨hmem, hne.symm⟩

theorem At.keyGrows (h : f.At old part) (hmem : 61 ∉ part) {c : UInt8} (heq : c ≠ 61)
    {g : PostForm} (hkey : g.key = keyAfter old (part ++ [c]))
    (hklen : g.klen = min 15 (part ++ [c]).length) (hphase : g.phase = f.phase)
    (hvlen : g.vlen = f.vlen) (hval : g.val = f.val) : g.At old (part ++ [c]) := by
  have hmem' := not_mem_concat hmem heq
  have hvalue : valueRead (part ++ [c]) = valueRead part := by
    rw [valueRead, valueRead, if_neg hmem', if_neg hmem]
  refine ⟨hkey, ?_, ?_, ?_, ?_, hval ▸ h.room, h.width⟩
  · rw [hklen, takeWhile_of_not_mem hmem', List.length_take]
  · rw [hphase, h.phase, decide_eq_false hmem, decide_eq_false hmem']
  · rw [hvlen, hvalue]
    exact h.vlen
  · rw [hval, hvlen, hvalue]
    exact h.val

theorem At.keyChar (h : f.At old part) (hmem : 61 ∉ part) {c : UInt8} (heq : c ≠ 61)
    (hroom : part.length < 15) :
    At { f with key := f.key.set f.klen c, klen := f.klen + 1 } old (part ++ [c]) := by
  have hmem' := not_mem_concat hmem heq
  have hk : ((part.takeWhile (· ≠ 61)).take 15) = part := by
    rw [takeWhile_of_not_mem hmem, List.take_of_length_le (by omega)]
  have hk' : (((part ++ [c]).takeWhile (· ≠ 61)).take 15) = part ++ [c] := by
    rw [takeWhile_of_not_mem hmem', List.take_of_length_le (by simp; omega)]
  have hklen : f.klen = part.length := h.klen.trans (by rw [hk])
  refine h.keyGrows hmem heq ?_ ?_ rfl rfl rfl
  · rw [h.key, hklen, keyAfter, keyAfter]
    dsimp only
    rw [if_neg hmem, if_neg hmem', hk, hk', List.length_append, List.length_singleton,
      set_append_drop (by rw [h.width]; omega), List.append_assoc, List.singleton_append]
  · dsimp only
    rw [hklen, List.length_append, List.length_singleton]
    omega

theorem At.keyFull (h : f.At old part) (hmem : 61 ∉ part) {c : UInt8} (heq : c ≠ 61)
    (hfull : ¬part.length < 15) : f.At old (part ++ [c]) := by
  have hmem' := not_mem_concat hmem heq
  have hk : (((part ++ [c]).takeWhile (· ≠ 61)).take 15) = (part.takeWhile (· ≠ 61)).take 15 := by
    rw [takeWhile_of_not_mem hmem', takeWhile_of_not_mem hmem,
      List.take_append_of_le_length (by omega)]
  refine h.keyGrows hmem heq ?_ ?_ rfl rfl rfl
  · rw [h.key, keyAfter, keyAfter, hk, if_neg hmem, if_neg hmem']
  · rw [h.klen, takeWhile_of_not_mem hmem, List.length_take, List.length_append,
      List.length_singleton]
    omega

theorem At.valueChar (h : f.At old part) (hmem : 61 ∈ part) {c : UInt8} {g : PostForm}
    (hkey : g.key = f.key) (hklen : g.klen = f.klen) (hphase : g.phase = f.phase)
    (hvlen : g.vlen = (valueRead (part ++ [c])).length)
    (hval : g.val.take g.vlen = valueRead (part ++ [c])) (hroom : g.val.length = 32) :
    g.At old (part ++ [c]) := by
  have hmem' : 61 ∈ part ++ [c] := List.mem_append_left _ hmem
  refine ⟨?_, ?_, ?_, hvlen, hval, hroom, h.width⟩
  · rw [hkey, h.key, keyAfter, keyAfter, takeWhile_append_of_mem hmem, if_pos hmem, if_pos hmem']
  · rw [hklen, h.klen, takeWhile_append_of_mem hmem]
  · rw [hphase, h.phase, decide_eq_true hmem, decide_eq_true hmem']

theorem At.inValue (h : f.At old part) (hmem : 61 ∈ part) {c : UInt8} (heq : c ≠ 61)
    (hamp : c ≠ 38) : ∃ g, f.consumeByte c = (g, []) ∧ g.At old (part ++ [c]) := by
  have hphase : f.phase = true := h.phase.trans (decide_eq_true hmem)
  have hmem' : 61 ∈ part ++ [c] := List.mem_append_left _ hmem
  have hvalue : valueRead (part ++ [c]) = (part.rtakeWhile (· ≠ 61) ++ [c]).take 31 := by
    rw [valueRead, if_pos hmem', List.rtakeWhile_concat_pos _ _ _ (by simpa using heq)]
  have hold : valueRead part = (part.rtakeWhile (· ≠ 61)).take 31 := if_pos hmem
  have hvlen := h.vlen
  rw [hold, List.length_take] at hvlen
  rw [consumeByte, if_neg heq, if_neg hamp, if_neg (by simp [hphase])]
  by_cases hroom : f.vlen < 31
  · rw [if_pos ⟨hphase, hroom⟩]
    have hold' : valueRead part = part.rtakeWhile (· ≠ 61) := by
      rw [hold, List.take_of_length_le (by omega)]
    have hnew : valueRead (part ++ [c]) = valueRead part ++ [c] := by
      rw [hvalue, hold', List.take_of_length_le]
      rw [List.length_append, List.length_singleton]
      omega
    refine ⟨_, rfl, h.valueChar hmem rfl rfl rfl ?_ ?_ ?_⟩
    · rw [hnew, List.length_append, List.length_singleton, ← h.vlen]
    · have hlen : f.vlen < f.val.length := by
        rw [h.room]
        omega
      rw [hnew, List.take_add_one, List.take_set_of_le (Nat.le_refl _), h.val,
        List.getElem?_set_self hlen]
      rfl
    · simpa using h.room
  · rw [if_neg fun hcond => hroom hcond.2]
    have hnew : valueRead (part ++ [c]) = valueRead part := by
      rw [hvalue, hold, List.take_append_of_le_length (by omega)]
    refine ⟨f, rfl, h.valueChar hmem rfl rfl rfl ?_ ?_ h.room⟩
    · rw [hnew]
      exact h.vlen
    · rw [hnew]
      exact h.val

theorem At.inKey (h : f.At old part) (hmem : 61 ∉ part) {c : UInt8} (heq : c ≠ 61)
    (hamp : c ≠ 38) : ∃ g, f.consumeByte c = (g, []) ∧ g.At old (part ++ [c]) := by
  have hphase : f.phase = false := h.phase.trans (decide_eq_false hmem)
  have hklen : f.klen = min 15 part.length := by
    rw [h.klen, takeWhile_of_not_mem hmem, List.length_take]
  rw [consumeByte, if_neg heq, if_neg hamp]
  by_cases hroom : part.length < 15
  · rw [if_pos ⟨hphase, by omega⟩]
    exact ⟨_, rfl, h.keyChar hmem heq hroom⟩
  · rw [if_neg (by omega), if_neg (by simp [hphase])]
    exact ⟨f, rfl, h.keyFull hmem heq hroom⟩

theorem cString_append_zero (s t : List UInt8) : cString (s ++ 0 :: t) = cString s :=
  takeWhile_append_cons s t 0

theorem At.endPair (h : f.At old part) : f.endPair.2 = handed old part := by
  have hlt : f.vlen < f.val.length := by
    rw [h.vlen, h.room, valueRead]
    split
    · rw [List.length_take]
      omega
    · simp
  have hset : f.val.set f.vlen 0 = valueRead part ++ 0 :: f.val.drop (f.vlen + 1) := by
    rw [List.set_eq_take_append_cons_drop, if_pos hlt, h.val]
  rw [PostForm.endPair, handed, h.key, hset, cString_append_zero]

theorem length_keyAfter (hold : old.length = 16) : (keyAfter old part).length = 16 := by
  rw [keyAfter]
  split
  · simp only [List.length_append, List.length_cons, List.length_drop, List.length_take]
    omega
  · simp only [List.length_append, List.length_drop, List.length_take]
    omega

theorem keyAfter_nil : keyAfter old [] = old := rfl

theorem At.ampersand (h : f.At old part) :
    ∃ g, f.consumeByte 38 = (g, [handed old part]) ∧ g.At (keyAfter old part) [] := by
  refine ⟨{ f.endPair.1 with klen := 0, vlen := 0, phase := false }, ?_, h.key, rfl, rfl, rfl, rfl,
    ?_, length_keyAfter h.width⟩
  · rw [consumeByte, if_neg (by decide), if_pos rfl, h.endPair]
  · rw [PostForm.endPair, List.length_set, h.room]

theorem at_init : At .init (List.replicate 16 0) [] := by
  constructor <;> simp [init, keyAfter, valueRead]

def flush (f : PostForm) : List PostPair := if f.phase ∧ f.vlen ≠ 0 then [f.endPair.2] else []

theorem At.flush (h : f.At old part) :
    f.flush = if valueRead part ≠ [] then [handed old part] else [] := by
  have hcond : (f.phase = true ∧ f.vlen ≠ 0) ↔ valueRead part ≠ [] := by
    rw [h.phase, h.vlen, Ne, List.length_eq_zero_iff, decide_eq_true_iff]
    refine ⟨fun hc => hc.2, fun hne => ⟨?_, hne⟩⟩
    rw [valueRead] at hne
    split at hne
    · next hmem => exact hmem
    · exact absurd rfl hne
  rw [PostForm.flush, h.endPair]
  exact if_congr hcond rfl rfl

theorem handedAll_cons {parts : List (List UInt8)} (hne : parts ≠ []) :
    handedAll old (part :: parts) = handed old part :: handedAll (keyAfter old part) parts := by
  cases parts with
  | nil => exact absurd rfl hne
  | cons next parts => rfl

theorem At.consume (body : List UInt8) :
    ∀ {f : PostForm} {old part : List UInt8}, f.At old part → 38 ∉ part →
      (f.consume body).2 ++ (f.consume body).1.flush =
        handedAll old ((part ++ body).splitOn 38) := by
  induction body with
  | nil =>
    intro f old part h hpart
    rw [List.append_nil, List.splitOn_eq_singleton hpart]
    exact h.flush
  | cons c body ih =>
    intro f old part h hpart
    by_cases hamp : c = 38
    · subst hamp
      obtain ⟨g, hg, hat⟩ := h.ampersand
      rw [List.splitOn_append_cons_self_of_not_mem hpart, handedAll_cons (List.splitOn_ne_nil _ _),
        PostForm.consume, hg]
      exact congrArg (handed old part :: ·) (ih hat (by simp))
    · have hpart' := not_mem_concat hpart hamp
      obtain ⟨g, hg, hat⟩ : ∃ g, f.consumeByte c = (g, []) ∧ g.At old (part ++ [c]) := by
        by_cases heq : c = 61
        · subst heq
          exact ⟨_, h.equals⟩
        · by_cases hmem : 61 ∈ part
          · exact h.inValue hmem heq hamp
          · exact h.inKey hmem heq hamp
      rw [List.append_cons, PostForm.consume, hg]
      exact ih hat hpart'

theorem consume_append (f : PostForm) (xs ys : List UInt8) :
    f.consume (xs ++ ys) =
      (((f.consume xs).1.consume ys).1, (f.consume xs).2 ++ ((f.consume xs).1.consume ys).2) := by
  induction xs generalizing f with
  | nil => rfl
  | cons c xs ih =>
    simp only [List.cons_append, PostForm.consume, ih, List.append_assoc]

end PostForm

/-- What is found in a part is its pair, where the key buffer was `old`: no zero ends it early, no
second `=` begins the value again, and a key without `=` meets the end of an older one. -/
structure ReadRight (old part : List UInt8) : Prop where
  key : ∀ b ∈ (pairOf part).1, b ≠ 0
  value : ∀ b ∈ (pairOf part).2, b ≠ 0
  last : 61 ∈ part → (part.rtakeWhile (· ≠ 61)).take 31 = (pairOf part).2
  ended : 61 ∉ part → old.getD (min 15 part.length) 0 = 0

/-- The parts of a body, where the key buffer was `old`.  An empty part hands on the key of the part
before it again, so that all parts behind it must say the same. -/
def PartsRight (old : List UInt8) : List (List UInt8) → Prop
  | [] => True
  | [part] => part = [] ∨ ReadRight old part ∧ PostForm.valueRead part ≠ []
  | part :: next :: parts =>
    part ≠ [] ∧ ReadRight old part ∧ PartsRight (PostForm.keyAfter old part) (next :: parts) ∨
      part = [] ∧ ∀ p ∈ next :: parts, p ≠ [] ∧ pairOf p = (PostForm.cString old, [])

section Parts

open PostForm

variable {old part : List UInt8}

theorem cString_eq_self_iff {s : List UInt8} : cString s = s ↔ ∀ b ∈ s, b ≠ 0 := by
  rw [cString, List.takeWhile_eq_self_iff]
  simp

theorem cString_append_iff {s t : List UInt8} :
    cString (s ++ t) = s ↔ (∀ b ∈ s, b ≠ 0) ∧ t.headD 0 = 0 := by
  rw [← cString_eq_self_iff]
  constructor
  · intro h
    have hs : cString s = s := by
      have hzero : ∀ b ∈ cString (s ++ t), b ≠ 0 := fun b hb => by
        simpa using List.mem_takeWhile_imp hb
      rw [h] at hzero
      exact cString_eq_self_iff.mpr hzero
    refine ⟨hs, ?_⟩
    cases t with
    | nil => rfl
    | cons b t =>
      by_cases hb : b = 0
      · exact hb
      · have hs' : s.takeWhile (· ≠ 0) = s := hs
        rw [cString, List.takeWhile_append, if_pos (by rw [hs']),
          List.takeWhile_cons_of_pos (by simpa using hb)] at h
        simpa using congrArg List.length h
  · rintro ⟨hs, ht⟩
    cases t with
    | nil => rwa [List.append_nil]
    | cons b t =>
      obtain rfl : b = 0 := ht
      rw [cString_append_zero, hs]

theorem last_of_mem (h : 61 ∈ part) :
    part.rtakeWhile (· ≠ 61) =
      if 61 ∈ (part.dropWhile (· ≠ 61)).drop 1 then
        ((part.dropWhile (· ≠ 61)).drop 1).rtakeWhile (· ≠ 61)
      else (part.dropWhile (· ≠ 61)).drop 1 := by
  obtain ⟨k, rest, rfl, hk⟩ := List.eq_append_cons_of_mem h
  have hdrop : ((k ++ 61 :: rest).dropWhile (· ≠ 61)).drop 1 = rest := by
    have hpos : ∀ b ∈ k, decide (b ≠ 61) = true := fun b hb => decide_eq_true fun he => hk (he ▸ hb)
    rw [List.dropWhile_append_of_pos hpos, List.dropWhile_cons_of_neg (by simp)]
    rfl
  have hreverse : (k ++ 61 :: rest).reverse = rest.reverse ++ 61 :: k.reverse := by simp
  rw [hdrop, List.rtakeWhile, hreverse]
  by_cases hmem : 61 ∈ rest
  · rw [if_pos hmem, takeWhile_append_of_mem (List.mem_reverse.mpr hmem), List.rtakeWhile]
  · rw [if_neg hmem, List.takeWhile_append, takeWhile_of_not_mem (by simpa using hmem), if_pos rfl,
      List.takeWhile_cons_of_neg (by simp), List.append_nil, List.reverse_reverse]

theorem handed_value_iff (h : 61 ∈ part) :
    cString ((part.rtakeWhile (· ≠ 61)).take 31) = (pairOf part).2 ↔
      (∀ b ∈ (pairOf part).2, b ≠ 0) ∧
        (part.rtakeWhile (· ≠ 61)).take 31 = (pairOf part).2 := by
  constructor
  · intro hread
    have hself : cString ((part.rtakeWhile (· ≠ 61)).take 31) =
        (part.rtakeWhile (· ≠ 61)).take 31 := by
      have hlast := last_of_mem h
      have hvalue : (pairOf part).2 = ((part.dropWhile (· ≠ 61)).drop 1).take 31 := rfl
      generalize (part.dropWhile (· ≠ 61)).drop 1 = rest at hlast hvalue
      by_cases hmem : 61 ∈ rest
      · -- the first 31 characters have no `=`, so there are as many
        have hnone : 61 ∉ (pairOf part).2 := by
          rw [← hread]
          intro hin
          have hin' := List.mem_of_mem_take ((List.takeWhile_sublist _).subset hin)
          rw [List.rtakeWhile, List.mem_reverse] at hin'
          simpa using List.mem_takeWhile_imp hin'
        have hlen : 31 ≤ rest.length := by
          refine Nat.le_of_not_lt fun hlt => hnone ?_
          rwa [hvalue, List.take_of_length_le (by omega)]
        refine (List.takeWhile_sublist _).eq_of_length_le ?_
        have hread' := congrArg List.length hread
        rw [hvalue, List.length_take, Nat.min_eq_left hlen] at hread'
        exact hread'.symm ▸ List.length_take_le 31 _
      · rw [if_neg hmem] at hlast
        rw [hread, hvalue, hlast]
    rw [hself] at hread
    exact ⟨hread ▸ cString_eq_self_iff.mp hself, hread⟩
  · rintro ⟨hzero, hread⟩
    rw [hread, cString_eq_self_iff]
    exact hzero

theorem value_of_not_mem (h : 61 ∉ part) : (pairOf part).2 = [] := by
  have hdrop : part.dropWhile (· ≠ 61) = [] := by
    rw [List.dropWhile_eq_nil_iff]
    exact fun b hb => decide_eq_true fun he => h (he ▸ hb)
  rw [pairOf, hdrop]
  rfl

theorem handed_eq_iff (old part : List UInt8) :
    handed old part = pairOf part ↔ ReadRight old part := by
  rw [handed, Prod.ext_iff]
  dsimp only
  by_cases hmem : 61 ∈ part
  · have hkey : keyAfter old part =
        (pairOf part).1 ++ 0 :: old.drop ((pairOf part).1.length + 1) := if_pos hmem
    have hvalue : valueRead part = (part.rtakeWhile (· ≠ 61)).take 31 := if_pos hmem
    rw [hkey, hvalue, handed_value_iff hmem, cString_append_iff]
    exact ⟨fun ⟨⟨hkey, _⟩, hvalue, hlast⟩ => ⟨hkey, hvalue, fun _ => hlast, fun h => absurd hmem h⟩,
      fun h => ⟨⟨h.key, rfl⟩, h.value, h.last hmem⟩⟩
  · have hkey : keyAfter old part = (pairOf part).1 ++ old.drop (pairOf part).1.length :=
      if_neg hmem
    have hvalue : valueRead part = [] := if_neg hmem
    have hnil := value_of_not_mem hmem
    have hlen : (pairOf part).1.length = min 15 part.length := by
      rw [pairOf, takeWhile_of_not_mem hmem, List.length_take]
    have hhead : (old.drop (pairOf part).1.length).headD 0 = old.getD (min 15 part.length) 0 := by
      rw [hlen, List.headD_eq_head?_getD, List.head?_drop, List.getD_eq_getElem?_getD]
    rw [hkey, hvalue, hnil, cString_append_iff, hhead]
    refine ⟨fun ⟨⟨hkey, hended⟩, _⟩ => ⟨hkey, ?_, fun h => absurd h hmem, fun _ => hended⟩,
      fun h => ⟨⟨h.key, h.ended hmem⟩, rfl⟩⟩
    rw [hnil]
    simp

theorem valueRead_of_value_nil (h : (pairOf part).2 = []) : valueRead part = [] := by
  by_cases hmem : 61 ∈ part
  · have hrest : (part.dropWhile (· ≠ 61)).drop 1 = [] := by
      have hlen := congrArg List.length h
      rw [pairOf, List.length_take, List.length_nil] at hlen
      exact List.eq_nil_of_length_eq_zero (by omega)
    rw [valueRead, if_pos hmem, last_of_mem hmem, hrest]
    rfl
  · exact if_neg hmem

theorem cString_keyAfter (h : (pairOf part).1 = cString old) :
    cString (keyAfter old part) = cString old := by
  have hzero : ∀ b ∈ cString old, b ≠ 0 := fun b hb => by simpa using List.mem_takeWhile_imp hb
  by_cases hmem : 61 ∈ part
  · have hkey : keyAfter old part =
        (pairOf part).1 ++ 0 :: old.drop ((pairOf part).1.length + 1) := if_pos hmem
    rw [hkey, h, cString_append_zero, cString_eq_self_iff]
    exact hzero
  · have hkey : keyAfter old part = (pairOf part).1 ++ old.drop (pairOf part).1.length :=
      if_neg hmem
    have hold : cString old ++ old.drop (cString old).length = old :=
      List.prefix_iff_eq_append.mp (List.takeWhile_prefix _)
    rw [hkey, h, hold]

theorem pairsOfParts_nil_cons (parts : List (List UInt8)) :
    pairsOfParts ([] :: parts) = pairsOfParts parts := rfl

theorem pairsOfParts_cons (h : part ≠ []) (parts : List (List UInt8)) :
    pairsOfParts (part :: parts) = pairOf part :: pairsOfParts parts := by
  rw [pairsOfParts, List.filter_cons_of_pos (by simpa using h)]
  rfl

theorem length_pairsOfParts_le (parts : List (List UInt8)) :
    (pairsOfParts parts).length ≤ parts.length := by
  rw [pairsOfParts, List.length_map]
  exact List.length_filter_le _ _

theorem length_le_handedAll (parts : List (List UInt8)) :
    ∀ old, parts.length ≤ (handedAll old parts).length + 1 := by
  induction parts with
  | nil => simp
  | cons part parts ih =>
    intro old
    by_cases hne : parts = []
    · subst hne
      simp
    · rw [handedAll_cons hne, List.length_cons, List.length_cons]
      exact Nat.succ_le_succ (ih _)

theorem repeats_iff (parts : List (List UInt8)) : ∀ old, parts ≠ [] →
    ((cString old, []) :: handedAll old parts = pairsOfParts parts ↔
      ∀ p ∈ parts, p ≠ [] ∧ pairOf p = (cString old, [])) := by
  induction parts with
  | nil => exact fun old hne => absurd rfl hne
  | cons part parts ih =>
    intro old _
    rw [List.forall_mem_cons]
    by_cases hpart : part = []
    · subst hpart
      refine iff_of_false (fun h => ?_) fun h => h.1.1 rfl
      have hlen := congrArg List.length h
      have hle := length_pairsOfParts_le parts
      have hge := length_le_handedAll ([] :: parts) old
      rw [pairsOfParts_nil_cons, List.length_cons] at hlen
      rw [List.length_cons] at hge
      omega
    · rw [pairsOfParts_cons hpart, List.cons.injEq]
      by_cases hsame : pairOf part = (cString old, [])
      · have hread : valueRead part = [] := valueRead_of_value_nil (by rw [hsame])
        have hkey : cString (keyAfter old part) = cString old := cString_keyAfter (by rw [hsame])
        by_cases hne : parts = []
        · subst hne
          simp [handedAll, hread, hsame, hpart, pairsOfParts]
        · have hhanded : handed old part = (cString (keyAfter old part), []) := by
            rw [handed, hread]
            rfl
          rw [handedAll_cons hne, hhanded, ih _ hne, hkey]
          exact ⟨fun h => ⟨⟨hpart, hsame⟩, h.2⟩, fun h => ⟨hsame.symm, h.2⟩⟩
      · exact iff_of_false (fun h => hsame h.1.symm) fun h => hsame h.1.2

theorem handedAll_eq_iff (parts : List (List UInt8)) : ∀ old,
    handedAll old parts = pairsOfParts parts ↔ PartsRight old parts := by
  induction parts with
  | nil => exact fun old => iff_of_true rfl trivial
  | cons part parts ih =>
    intro old
    cases parts with
    | nil =>
      rw [PartsRight, handedAll]
      by_cases hpart : part = []
      · subst hpart
        exact iff_of_true rfl (.inl rfl)
      · rw [pairsOfParts_cons hpart]
        by_cases hread : valueRead part = []
        · simp [hread, hpart]
        · rw [if_pos hread, ← handed_eq_iff, or_iff_right hpart, and_iff_left hread]
          simp [pairsOfParts]
    | cons next parts =>
      rw [PartsRight, handedAll]
      by_cases hpart : part = []
      · subst hpart
        have hhanded : handed old [] = (cString old, []) := rfl
        rw [hhanded, pairsOfParts_nil_cons, keyAfter_nil, repeats_iff _ _ (List.cons_ne_nil _ _)]
        simp
      · rw [pairsOfParts_cons hpart, List.cons.injEq, handed_eq_iff, ih]
        simp [hpart]

end Parts

end CanSniffer.Web
