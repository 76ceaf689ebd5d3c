import Mathlib.Data.List.Forall2
import CanSniffer.Config.IpScan
import CanSniffer.Config.SettingsHandlerLaws

namespace CanSniffer.Config

open Lib Decimal Storage

structure IsOctet (group : List UInt8) (n : UInt8) : Prop where
  ne_nil : group ≠ []
  length : group.length ≤ 3
  digits : ∀ b ∈ group, isDigit b = true
  value : Decimal.value group = n.toNat

/-- Four groups with single dots between them. -/
def IsDotted (ip : List UInt8) (addr : IpAddress) : Prop :=
  ∃ g0 g1 g2 g3, ip.splitOn 0x2E = [g0, g1, g2, g3] ∧
    IsOctet g0 addr.ip0 ∧ IsOctet g1 addr.ip1 ∧ IsOctet g2 addr.ip2 ∧ IsOctet g3 addr.ip3

section Grammar

theorem ne_dot_of_digits {e : List UInt8} (he : ∀ b ∈ e, isDigit b = true) : 0x2E ∉ e := by
  intro hmem
  exact absurd (he _ hmem) (by decide)

theorem octet_eq_some_iff {e : List UInt8} (hne : e ≠ []) (hlen : e.length ≤ 3)
    (he : ∀ b ∈ e, isDigit b = true) {n : UInt8} : octet e = some n ↔ IsOctet e n := by
  have hlt : Decimal.value e < 1000 :=
    Nat.lt_of_lt_of_le (value_lt he) (Nat.pow_le_pow_right (show 10 > 0 by decide) hlen)
  have hconv : convertToInteger e 0 = UInt32.ofNat (Decimal.value e) := by
    simpa using @convertToInteger_digits e [] 0 hne he (by omega) rfl
  have hnat : (UInt32.ofNat (Decimal.value e)).toNat = Decimal.value e := by
    rw [UInt32.toNat_ofNat']
    omega
  have hn := n.toNat_lt
  have hoctet : IsOctet e n ↔ Decimal.value e = n.toNat :=
    ⟨fun h => h.value, fun h => ⟨hne, hlen, he, h⟩⟩
  rw [hoctet, octet, hconv]
  by_cases hbig : 255 < UInt32.ofNat (Decimal.value e)
  · have hnat' : 255 < Decimal.value e := by simpa [UInt32.lt_iff_toNat_lt, hnat] using hbig
    simp [hbig]
    omega
  · have hnat' : Decimal.value e ≤ 255 := by simpa [UInt32.lt_iff_toNat_lt, hnat] using hbig
    simp [hbig, ← UInt8.toNat_inj]
    omega

theorem exists_splitOn_append {e : List UInt8} (he : 0x2E ∉ e) (ip : List UInt8) :
    ∃ g gs, (e ++ ip).splitOn 0x2E = (e ++ g) :: gs := by
  induction e with
  | nil =>
    obtain ⟨g, gs, h⟩ := List.exists_cons_of_ne_nil (List.splitOn_ne_nil 0x2E ip)
    exact ⟨g, gs, h⟩
  | cons b e ih =>
    obtain ⟨hb, he⟩ := not_or.mp (List.mem_cons.not.mp he)
    obtain ⟨g, gs, h⟩ := ih he
    refine ⟨g, gs, ?_⟩
    have hne : (b == 0x2E) = false := beq_eq_false_iff_ne.mpr fun h => hb h.symm
    rw [List.cons_append, List.splitOn_cons_eq_if_modifyHead, hne, h]
    rfl

theorem not_octets_of_begin {e : List UInt8} (he : 0x2E ∉ e)
    (hbad : ∀ g n, ¬IsOctet (e ++ g) n) (ip ns : List UInt8) :
    ¬List.Forall₂ IsOctet ((e ++ ip).splitOn 0x2E) ns := by
  obtain ⟨g, gs, hg⟩ := exists_splitOn_append he ip
  rw [hg]
  intro hns
  cases hns with
  | cons hoctet _ => exact hbad _ _ hoctet

theorem not_octets_nil (gs : List (List UInt8)) (ns : List UInt8) :
    ¬List.Forall₂ IsOctet ([] :: gs) ns := by
  intro hns
  cases hns with
  | cons hoctet _ => exact hoctet.ne_nil rfl

theorem octets_cons_iff {e : List UInt8} (hne : e ≠ []) (hlen : e.length ≤ 3)
    (he : ∀ b ∈ e, isDigit b = true) {gs : List (List UInt8)} {P : List UInt8 → Prop} :
    (∃ ns, List.Forall₂ IsOctet (e :: gs) ns ∧ P ns) ↔
      ∃ n, octet e = some n ∧ ∃ ns, List.Forall₂ IsOctet gs ns ∧ P (n :: ns) := by
  constructor
  · rintro ⟨ns, hns, hP⟩
    cases hns with
    | cons hoctet hns => exact ⟨_, (octet_eq_some_iff hne hlen he).mpr hoctet, _, hns, hP⟩
  · rintro ⟨n, hn, ns, hns, hP⟩
    exact ⟨n :: ns, .cons ((octet_eq_some_iff hne hlen he).mp hn) hns, hP⟩

theorem ofArray_eq_some_iff {arr : List UInt8} {addr : IpAddress} :
    IpAddress.ofArray arr = some addr ↔ arr = [addr.ip0, addr.ip1, addr.ip2, addr.ip3] := by
  obtain ⟨a0, a1, a2, a3⟩ := addr
  rcases arr with _ | ⟨b0, _ | ⟨b1, _ | ⟨b2, _ | ⟨b3, _ | ⟨b4, arr⟩⟩⟩⟩⟩ <;>
    simp [IpAddress.ofArray]

theorem ofArray_ne_some {a ns : List UInt8} {ip : List UInt8} (ha : 3 < a.length)
    (hns : List.Forall₂ IsOctet (ip.splitOn 0x2E) ns) (addr : IpAddress) :
    IpAddress.ofArray (a ++ ns) ≠ some addr := by
  intro haddr
  have hlength := congrArg List.length (ofArray_eq_some_iff.mp haddr)
  have hpos : 0 < ns.length := by
    rw [← hns.length_eq]
    exact List.length_pos_iff.mpr (List.splitOn_ne_nil _ _)
  simp only [List.length_append, List.length_cons, List.length_nil] at hlength
  omega

theorem ipLoop_eq_some_iff (addr : IpAddress) (ip : List UInt8) :
    ∀ {e a : List UInt8}, (∀ b ∈ e, isDigit b = true) → e.length ≤ 3 → a.length ≤ 3 →
      (ipLoop ip e a = some addr ↔ ∃ ns, List.Forall₂ IsOctet ((e ++ ip).splitOn 0x2E) ns ∧
        IpAddress.ofArray (a ++ ns) = some addr) := by
  induction ip with
  | nil =>
    intro e a he hlen ha
    rw [List.append_nil, List.splitOn_eq_singleton (ne_dot_of_digits he), ipLoop]
    by_cases hne : e = []
    · rw [if_pos hne, hne]
      refine iff_of_false (by simp) ?_
      rintro ⟨ns, hns, -⟩
      exact not_octets_nil _ ns hns
    · rw [if_neg hne, Option.bind_eq_some_iff, octets_cons_iff hne hlen he]
      refine exists_congr fun n => and_congr_right fun _ => ?_
      simp only [List.forall₂_nil_left_iff, exists_eq_left]
  | cons c ip ih =>
    intro e a he hlen ha
    by_cases hdigit : isDigit c = true
    · have hec : ∀ b ∈ e ++ [c], isDigit b = true := by
        rw [List.forall_mem_append]
        exact ⟨he, by simpa using hdigit⟩
      rw [ipLoop, if_pos hdigit, List.append_cons e c ip]
      by_cases hroom : e.length < 3
      · rw [if_pos hroom]
        refine ih hec ?_ ha
        rw [List.length_append, List.length_singleton]
        omega
      · rw [if_neg hroom]
        refine iff_of_false (by simp) ?_
        rintro ⟨ns, hns, -⟩
        refine not_octets_of_begin (ne_dot_of_digits hec) (fun g n hoctet => ?_) ip ns hns
        have hlong := hoctet.length
        simp only [List.length_append, List.length_singleton] at hlong
        omega
    · rw [ipLoop, if_neg hdigit]
      by_cases hdot : c = 0x2E
      · subst hdot
        rw [if_pos rfl, List.splitOn_append_cons_self_of_not_mem (ne_dot_of_digits he)]
        by_cases hne : e = []
        · rw [if_pos hne, hne]
          refine iff_of_false (by simp) ?_
          rintro ⟨ns, hns, -⟩
          exact not_octets_nil _ ns hns
        · rw [if_neg hne, Option.bind_eq_some_iff, octets_cons_iff hne hlen he]
          refine exists_congr fun n => and_congr_right fun _ => ?_
          by_cases hroom : 3 < (a ++ [n]).length
          · rw [if_pos hroom]
            refine iff_of_false (by simp) ?_
            rintro ⟨ns, hns, haddr⟩
            rw [List.append_cons] at haddr
            exact ofArray_ne_some hroom hns addr haddr
          · have hrest := @ih [] (a ++ [n]) (by simp) (by simp) (by omega)
            rw [if_neg hroom, hrest]
            simp only [List.nil_append, List.append_assoc, List.singleton_append]
      · rw [if_neg hdot]
        refine iff_of_false (by simp) ?_
        rintro ⟨ns, hns, -⟩
        have hec : 0x2E ∉ e ++ [c] := by
          simp only [List.mem_append, List.mem_singleton, not_or]
          exact ⟨ne_dot_of_digits he, fun h => hdot h.symm⟩
        rw [List.append_cons] at hns
        refine not_octets_of_begin hec (fun g n hoctet => hdigit ?_) ip ns hns
        exact hoctet.digits c (by simp)

theorem ipStringToIntArray_eq_some_iff {ip : List UInt8} (hlen : ip.length ≤ 255)
    {addr : IpAddress} :
    ipStringToIntArray ip (UInt8.ofNat ip.length) = some addr ↔ IsDotted ip addr := by
  have htake : ip.take (UInt8.ofNat ip.length).toNat = ip := by
    rw [UInt8.toNat_ofNat_of_lt' (Nat.lt_succ_of_le hlen), List.take_length]
  rw [ipStringToIntArray, htake, ipLoop_eq_some_iff addr ip (by simp) (by simp) (by simp)]
  simp only [List.nil_append, ofArray_eq_some_iff]
  constructor
  · rintro ⟨ns, hns, rfl⟩
    simp only [List.forall₂_cons_right_iff, List.forall₂_nil_right_iff] at hns
    obtain ⟨g0, _, h0, ⟨g1, _, h1, ⟨g2, _, h2, ⟨g3, _, h3, rfl, rfl⟩, rfl⟩, rfl⟩, hsplit⟩ := hns
    exact ⟨g0, g1, g2, g3, hsplit, h0, h1, h2, h3⟩
  · rintro ⟨g0, g1, g2, g3, hsplit, h0, h1, h2, h3⟩
    exact ⟨_, hsplit ▸ .cons h0 (.cons h1 (.cons h2 (.cons h3 .nil))), rfl⟩

end Grammar

def IpStore.InBounds : IpStore → Prop
  | .element i => i < 4
  | .arr i => i < 4

def addressAt (arr : Nat → UInt8) : IpAddress where
  ip0 := arr 0
  ip1 := arr 1
  ip2 := arr 2
  ip3 := arr 3

theorem ofArray_addressAt {octets : List UInt8} {arr : Nat → UInt8}
    (h : ∀ i, i < octets.length → octets[i]? = some (arr i)) (hlen : octets.length = 4) :
    IpAddress.ofArray octets = some (addressAt arr) := by
  rw [ofArray_eq_some_iff]
  refine List.ext_getElem? fun i => ?_
  by_cases hi : i < 4
  · rw [h i (by omega)]
    obtain rfl | rfl | rfl | rfl : i = 0 ∨ i = 1 ∨ i = 2 ∨ i = 3 := by omega
    all_goals rfl
  · rw [List.getElem?_eq_none (by omega), List.getElem?_eq_none (by simp; omega)]

namespace IpScan

structure Holds (s : IpScan) (e a : List UInt8) : Prop where
  element : ∀ i, i < e.length → e[i]? = some (s.element i)
  ended : e ≠ [] → s.element e.length = 0
  charCount : s.charCount.toNat = e.length
  length : e.length ≤ 3
  digits : ∀ b ∈ e, isDigit b = true
  arr : ∀ i, i < a.length → a[i]? = some (s.arr i)
  elemCount : s.elemCount.toNat = a.length
  elems : a.length ≤ 3
  stores : ∀ st ∈ s.stores, st.InBounds

theorem holds_init (arr : Nat → UInt8) (valTmp : UInt32) : (init arr valTmp).Holds [] [] := by
  constructor <;> simp [init]

variable {s : IpScan} {e a : List UInt8}

theorem Holds.charCount_eq_zero_iff (h : s.Holds e a) : s.charCount = 0 ↔ e = [] := by
  rw [← List.length_eq_zero_iff, ← h.charCount, ← UInt8.toNat_inj]
  rfl

theorem Holds.text (h : s.Holds e a) (hne : e ≠ []) :
    ∃ rest, s.text = e ++ rest ∧ rest.headD 0 = 0 := by
  have hlen := h.length
  have hget : ∀ i, i < 4 → s.text[i]? = some (s.element i) := by
    intro i hi
    rw [IpScan.text, List.getElem?_map, List.getElem?_range hi, Option.map_some]
  have htake : s.text.take e.length = e := by
    refine List.ext_getElem? fun i => ?_
    rw [List.getElem?_take]
    by_cases hi : i < e.length
    · rw [if_pos hi, h.element i hi, hget i (by omega)]
    · rw [if_neg hi, List.getElem?_eq_none (by omega)]
  refine ⟨s.text.drop e.length, ?_, ?_⟩
  · conv_lhs => rw [← List.take_append_drop e.length s.text, htake]
  · rw [List.headD_eq_head?_getD, List.head?_drop, hget _ (by omega), h.ended hne]
    rfl

theorem Holds.convert (h : s.Holds e a) (hne : e ≠ []) :
    convertToInteger s.text s.valTmp = convertToInteger e 0 := by
  obtain ⟨rest, htext, hrest⟩ := h.text hne
  have hlt : Decimal.value e < 0x80000000 :=
    Nat.lt_trans (Nat.lt_of_lt_of_le (value_lt h.digits)
      (Nat.pow_le_pow_right (show 10 > 0 by decide) h.length)) (by decide)
  rw [htext, convertToInteger_digits _ hne h.digits hlt hrest]
  simpa using (@convertToInteger_digits e [] 0 hne h.digits hlt rfl).symm

structure Stored (s s' : IpScan) (a : List UInt8) (n : UInt8) : Prop where
  element : s'.element = s.element
  arr : ∀ i, i < a.length + 1 → (a ++ [n])[i]? = some (s'.arr i)
  elemCount : s'.elemCount.toNat = a.length + 1
  stores : ∀ st ∈ s'.stores, st.InBounds

theorem Holds.storeGroup_none (h : s.Holds e a) (hne : e ≠ []) (hoctet : octet e = none) :
    s.storeGroup.2 = false ∧ ∀ st ∈ s.storeGroup.1.stores, st.InBounds := by
  rw [octet] at hoctet
  rw [storeGroup, h.convert hne]
  split at hoctet
  · next hbig =>
    dsimp only
    rw [if_pos hbig]
    exact ⟨rfl, h.stores⟩
  · cases hoctet

theorem Holds.storeGroup_some (h : s.Holds e a) (hne : e ≠ []) {n : UInt8}
    (hoctet : octet e = some n) :
    s.storeGroup.2 = true ∧ Stored s s.storeGroup.1 a n := by
  rw [octet] at hoctet
  rw [storeGroup, h.convert hne]
  split at hoctet
  · cases hoctet
  · next hbig =>
    obtain rfl := Option.some.inj hoctet
    dsimp only
    rw [if_neg hbig]
    refine ⟨rfl, rfl, ?_, ?_, ?_⟩
    · intro i hi
      by_cases hlast : i = a.length
      · subst hlast
        simp [storeArr, h.elemCount]
      · have hlt : i < a.length := by omega
        have hne' : ¬i = s.elemCount.toNat := by rwa [h.elemCount]
        rw [List.getElem?_append_left hlt, h.arr i hlt]
        simp [storeArr, hne']
    · have hsucc : (s.elemCount + 1).toNat = s.elemCount.toNat + 1 := by
        have hle := h.elems
        rw [UInt8.toNat_add, h.elemCount, UInt8.toNat_one]
        omega
      exact hsucc.trans (by rw [h.elemCount])
    · intro st hst
      rcases List.mem_append.mp hst with hst | hst
      · exact h.stores st hst
      · obtain rfl := List.mem_singleton.mp hst
        have hle := h.elems
        rw [IpStore.InBounds, h.elemCount]
        omega

theorem Holds.pushDigit (h : s.Holds e a) (hroom : e.length < 3) {c : UInt8}
    (hc : isDigit c = true) :
    (({ s.storeElement s.charCount c with charCount := s.charCount + 1 } : IpScan).storeElement
      (s.charCount + 1) 0).Holds (e ++ [c]) a := by
  have hsucc : (s.charCount + 1).toNat = e.length + 1 := by
    rw [UInt8.toNat_add, h.charCount, UInt8.toNat_one]
    omega
  constructor
  · intro i hi
    rw [List.length_append, List.length_singleton] at hi
    have hend : ¬i = (s.charCount + 1).toNat := by omega
    by_cases hlast : i = e.length
    · subst hlast
      simp [storeElement, h.charCount, hsucc]
    · have hlt : i < e.length := by omega
      have hne : ¬i = s.charCount.toNat := by rwa [h.charCount]
      rw [List.getElem?_append_left hlt, h.element i hlt]
      exact congrArg some ((if_neg hend).trans (if_neg hne)).symm
  · intro _
    simp [storeElement, hsucc]
  · exact hsucc.trans (by simp)
  · simp
    omega
  · rw [List.forall_mem_append]
    exact ⟨h.digits, by simpa using hc⟩
  · exact h.arr
  · exact h.elemCount
  · exact h.elems
  · intro st hst
    simp only [storeElement, List.mem_append, List.mem_singleton] at hst
    rcases hst with (hst | rfl) | rfl
    · exact h.stores st hst
    · rw [IpStore.InBounds, h.charCount]
      omega
    · rw [IpStore.InBounds, hsucc]
      omega

/-- What the scan returns, and where it has stored until then. -/
structure Returns (r : IpScan × Int) (addr : Option IpAddress) : Prop where
  code : r.2 = ipSuccess ↔ addr.isSome = true
  octets : addr = none ∨ addr = some (addressAt r.1.arr)
  stores : ∀ st ∈ r.1.stores, st.InBounds

theorem errorInvalidFormat_ne : errorInvalidFormat ≠ ipSuccess := by decide

theorem errorTooManySegments_ne : errorTooManySegments ≠ ipSuccess := by decide

theorem Returns.failed {s : IpScan} {code : Int} (hcode : code ≠ ipSuccess)
    (hstores : ∀ st ∈ s.stores, st.InBounds) : Returns (s, code) none where
  code := iff_of_false hcode (by simp)
  octets := .inl rfl
  stores := hstores

/-- One turn of the loop goes on as the value of the rest does, or returns. -/
def Steps (s : IpScan) (e a : List UInt8) (c : UInt8) : Prop :=
  (∃ s' e' a', s.step c = (s', none) ∧ s'.Holds e' a' ∧
    ∀ ip, ipLoop (c :: ip) e a = ipLoop ip e' a') ∨
  (∃ s' code, s.step c = (s', some code) ∧ Returns (s', code) none ∧
    ∀ ip, ipLoop (c :: ip) e a = none)

theorem Steps.failed {s' : IpScan} {c : UInt8} {code : Int} (hcode : code ≠ ipSuccess)
    (hstores : ∀ st ∈ s'.stores, st.InBounds) (hstep : s.step c = (s', some code))
    (hloop : ∀ ip, ipLoop (c :: ip) e a = none) : Steps s e a c :=
  .inr ⟨s', code, hstep, .failed hcode hstores, hloop⟩

theorem Holds.step_digit (h : s.Holds e a) {c : UInt8} (hc : isDigit c = true) :
    Steps s e a c := by
  have hlt : s.charCount < 3 ↔ e.length < 3 := by
    rw [UInt8.lt_iff_toNat_lt, h.charCount]
    rfl
  by_cases hroom : e.length < 3
  · refine .inl ⟨_, e ++ [c], a, ?_, h.pushDigit hroom hc, fun ip => ?_⟩
    · rw [IpScan.step, if_pos hc, if_pos (hlt.mpr hroom)]
    · rw [ipLoop, if_pos hc, if_pos hroom]
  · refine .failed errorInvalidFormat_ne h.stores ?_ fun ip => ?_
    · rw [IpScan.step, if_pos hc, if_neg (hlt.not.mpr hroom)]
    · rw [ipLoop, if_pos hc, if_neg hroom]

theorem Holds.step_dot (h : s.Holds e a) : Steps s e a 0x2E := by
  have hdigit : ¬isDigit 0x2E = true := by decide
  by_cases hne : e = []
  · refine .failed errorInvalidFormat_ne h.stores ?_ fun ip => ?_
    · rw [IpScan.step, if_neg hdigit, if_pos rfl, if_pos (h.charCount_eq_zero_iff.mpr hne)]
    · rw [ipLoop, if_neg hdigit, if_pos rfl, if_pos hne]
  · have hcount : ¬s.charCount = 0 := h.charCount_eq_zero_iff.not.mpr hne
    have hstep : s.step 0x2E =
        if ¬s.storeGroup.2 then (s.storeGroup.1, some errorInvalidFormat)
        else if 3 < s.storeGroup.1.elemCount then (s.storeGroup.1, some errorTooManySegments)
        else ({ s.storeGroup.1 with charCount := 0 }, none) := by
      rw [IpScan.step, if_neg hdigit, if_pos rfl, if_neg hcount]
    have hloop : ∀ ip, ipLoop (0x2E :: ip) e a = (octet e).bind fun n =>
        if 3 < (a ++ [n]).length then none else ipLoop ip [] (a ++ [n]) := by
      intro ip
      rw [ipLoop, if_neg hdigit, if_pos rfl, if_neg hne]
    cases hoctet : octet e with
    | none =>
      obtain ⟨hok, hstores⟩ := h.storeGroup_none hne hoctet
      refine .failed errorInvalidFormat_ne hstores ?_ fun ip => ?_
      · rw [hstep, if_pos (by simp [hok])]
      · rw [hloop, hoctet, Option.bind_none]
    | some n =>
      obtain ⟨hok, hstored⟩ := h.storeGroup_some hne hoctet
      have hfull : 3 < s.storeGroup.1.elemCount ↔ 3 < (a ++ [n]).length := by
        rw [UInt8.lt_iff_toNat_lt, hstored.elemCount, List.length_append, List.length_singleton]
        rfl
      rw [if_neg (by simp [hok])] at hstep
      by_cases hmany : 3 < (a ++ [n]).length
      · refine .failed errorTooManySegments_ne hstored.stores ?_ fun ip => ?_
        · rw [hstep, if_pos (hfull.mpr hmany)]
        · rw [hloop, hoctet, Option.bind_some, if_pos hmany]
      · refine .inl ⟨_, [], a ++ [n], hstep.trans (if_neg (hfull.not.mpr hmany)), ?_, fun ip => ?_⟩
        · constructor <;> try simp
          · simpa using hstored.arr
          · simpa using hstored.elemCount
          · simpa using hmany
          · exact hstored.stores
        · rw [hloop, hoctet, Option.bind_some, if_neg hmany]

theorem Holds.step (h : s.Holds e a) (c : UInt8) : Steps s e a c := by
  by_cases hdigit : isDigit c = true
  · exact h.step_digit hdigit
  · by_cases hdot : c = 0x2E
    · exact hdot ▸ h.step_dot
    · refine .failed errorInvalidFormat_ne h.stores ?_ fun ip => ?_
      · rw [IpScan.step, if_neg hdigit, if_neg hdot]
      · rw [ipLoop, if_neg hdigit, if_neg hdot]

theorem Holds.finish (h : s.Holds e a) : Returns s.finish (ipLoop [] e a) := by
  by_cases hne : e = []
  · rw [IpScan.finish, if_pos (h.charCount_eq_zero_iff.mpr hne), ipLoop, if_pos hne]
    exact .failed errorInvalidFormat_ne h.stores
  · rw [IpScan.finish, if_neg (h.charCount_eq_zero_iff.not.mpr hne), ipLoop, if_neg hne]
    cases hoctet : octet e with
    | none =>
      obtain ⟨hok, hstores⟩ := h.storeGroup_none hne hoctet
      rw [Option.bind_none]
      dsimp only
      rw [if_pos (by simp [hok])]
      exact .failed errorInvalidFormat_ne hstores
    | some n =>
      obtain ⟨hok, hstored⟩ := h.storeGroup_some hne hoctet
      rw [Option.bind_some]
      dsimp only
      rw [if_neg (by simp [hok])]
      have hfour : s.storeGroup.1.elemCount = 4 ↔ (a ++ [n]).length = 4 := by
        rw [← UInt8.toNat_inj, hstored.elemCount, List.length_append, List.length_singleton]
        rfl
      by_cases hlen : (a ++ [n]).length = 4
      · have haddr : IpAddress.ofArray (a ++ [n]) = some (addressAt s.storeGroup.1.arr) :=
          ofArray_addressAt (fun i hi => hstored.arr i (by simpa using hi)) hlen
        rw [if_pos (hfour.mpr hlen), haddr]
        exact ⟨iff_of_true rfl rfl, .inr rfl, hstored.stores⟩
      · have hnone : IpAddress.ofArray (a ++ [n]) = none := by
          refine Option.eq_none_iff_forall_ne_some.mpr fun addr haddr => hlen ?_
          rw [ofArray_eq_some_iff.mp haddr]
          rfl
        rw [if_neg (hfour.not.mpr hlen), hnone]
        exact .failed errorInvalidFormat_ne hstored.stores

def ahead (ip : Nat → UInt8) (len index : UInt8) : List UInt8 :=
  (List.range' index.toNat (len.toNat - index.toNat)).map ip

theorem Holds.loop (ip : Nat → UInt8) (len index : UInt8) :
    ∀ {s : IpScan} {e a : List UInt8}, s.Holds e a →
      Returns (IpScan.loop ip len index s) (ipLoop (ahead ip len index) e a) := by
  induction hn : len.toNat - index.toNat generalizing index with
  | zero =>
    intro s e a h
    have hend : ¬index < len := by
      rw [UInt8.lt_iff_toNat_lt]
      omega
    rw [IpScan.loop, dif_neg hend, ahead, hn]
    exact h.finish
  | succ n ih =>
    intro s e a h
    have hlt : index < len := by
      rw [UInt8.lt_iff_toNat_lt]
      omega
    have hlen := len.toNat_lt
    have hsucc : (index + 1).toNat = index.toNat + 1 := by
      rw [UInt8.toNat_add, UInt8.toNat_one]
      omega
    have hahead : ahead ip len index = ip index.toNat :: ahead ip len (index + 1) := by
      have hrest : len.toNat - (index.toNat + 1) = n := by omega
      rw [ahead, ahead, hn, hsucc, hrest, List.range'_succ, List.map_cons]
    rw [IpScan.loop, dif_pos hlt, hahead]
    obtain ⟨s', e', a', hstep, hholds, hrest⟩ | ⟨s', code, hstep, hreturns, hrest⟩ :=
      h.step (ip index.toNat)
    · rw [hstep, hrest]
      exact ih _ (by omega) hholds
    · rw [hstep, hrest]
      exact hreturns

end IpScan

theorem scanIp_returns (ip : Nat → UInt8) (len : UInt8) (arr : Nat → UInt8) (valTmp : UInt32) :
    IpScan.Returns (scanIp ip len arr valTmp)
      (ipLoop ((List.range len.toNat).map ip) [] []) := by
  have h := (IpScan.holds_init arr valTmp).loop ip len 0
  rwa [IpScan.ahead, UInt8.toNat_zero, Nat.sub_zero, ← List.range_eq_range'] at h

/-- What a return of the function for a string of at most 255 characters says. -/
def IpStringSound (ip : List UInt8) (arr : Nat → UInt8) (valTmp : UInt32) : Prop :=
  ip.length ≤ 255 →
    let r := scanIp (fun i => ip.getD i 0) (UInt8.ofNat ip.length) arr valTmp
    (r.2 = ipSuccess ↔ ∃ addr, IsDotted ip addr) ∧
      ∀ addr, IsDotted ip addr → addressAt r.1.arr = addr

theorem ipStringSound (ip : List UInt8) (arr : Nat → UInt8) (valTmp : UInt32) :
    IpStringSound ip arr valTmp := by
  intro hlen
  have hmemory : (List.range (UInt8.ofNat ip.length).toNat).map (fun i => ip.getD i 0) = ip := by
    rw [UInt8.toNat_ofNat_of_lt' (Nat.lt_succ_of_le hlen)]
    refine List.ext_getElem (by simp) fun i hi hi' => ?_
    simp [hi']
  have hreturns := scanIp_returns (fun i => ip.getD i 0) (UInt8.ofNat ip.length) arr valTmp
  rw [hmemory] at hreturns
  have hdotted : ∀ addr, ipLoop ip [] [] = some addr ↔ IsDotted ip addr := by
    intro addr
    rw [← ipStringToIntArray_eq_some_iff hlen, ipStringToIntArray,
      UInt8.toNat_ofNat_of_lt' (Nat.lt_succ_of_le hlen), List.take_length]
  refine ⟨?_, fun addr haddr => ?_⟩
  · rw [hreturns.code, Option.isSome_iff_exists]
    exact exists_congr hdotted
  · have hsome := (hdotted addr).mpr haddr
    exact (Option.some.inj (hsome ▸ hreturns.octets.resolve_left (by simp [hsome]))).symm

/-- A string is accepted if and only if it is a dotted quad, whose octets the array then holds, and
no scan stores beyond its buffer or the array. -/
theorem ipStringToIntArray_sound (ip : List UInt8) (arr : Nat → UInt8) (valTmp : UInt32) :
    IpStringSound ip arr valTmp ∧ ∀ (memory : Nat → UInt8) (len : UInt8),
      ∀ st ∈ (scanIp memory len arr valTmp).1.stores, st.InBounds :=
  ⟨ipStringSound ip arr valTmp, fun memory len => (scanIp_returns memory len arr valTmp).stores⟩

example : IsDotted (ascii "192.168.007.1") ⟨192, 168, 7, 1⟩ :=
  ⟨_, _, _, _, rfl, ⟨by decide, by decide, List.all_eq_true.mp rfl, rfl⟩,
    ⟨by decide, by decide, List.all_eq_true.mp rfl, rfl⟩,
    ⟨by decide, by decide, List.all_eq_true.mp rfl, rfl⟩,
    ⟨by decide, by decide, List.all_eq_true.mp rfl, rfl⟩⟩

end CanSniffer.Config
