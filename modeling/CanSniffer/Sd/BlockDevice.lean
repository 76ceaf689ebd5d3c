import CanSniffer.Lib.Transition
import CanSniffer.Sd.ReadLaws

namespace CanSniffer.Sd

open Lib Drivers

/-- The card's sectors and the static `Tmp`. -/
structure Disk where
  card : Nat → Nat → UInt8
  tmp : Nat → UInt8

inductive DiskEvent
  | read (buff : Nat → UInt8) (sector count : UInt32) (a : DiskReadAnswers)
  | write (buff : Nat → UInt8) (sector count : UInt32) (a : DiskWriteAnswers)
    (after : Nat → Nat → UInt8)

abbrev InRange (sector count : UInt32) (n : Nat) : Prop :=
  sector.toNat ≤ n ∧ n < sector.toNat + count.toNat

/-- Neither transfer has a fault that gets past the tests. -/
def DiskReadAnswers.Clean (a : DiskReadAnswers) (count : UInt32) : Prop :=
  ¬ a.first.Overlooked count ∧
    (a.first.Refused count → hotReset a.reset = resOk → ¬ a.second.Overlooked count)

def DiskWriteAnswers.Clean (a : DiskWriteAnswers) (count : UInt32) : Prop :=
  ¬ a.first.Overlooked count ∧
    (a.first.Refused count → hotReset a.reset = resOk → ¬ a.second.Overlooked count)

/-- A card that has accepted the command sends its sectors in order, as long as each is received. -/
def Sends (card : Nat → Nat → UInt8) (address : UInt32) (l : ReadLog) : Prop :=
  l.sent.Ok → AcceptedR1 l.r1 → ∀ j,
    (∀ k (b : FetchLog), k ≤ j → l.blocks[k]? = some b →
      TokenSeen b.polls ∧ ∃ rx, b.data = some (.done true rx)) →
    ∀ (b : FetchLog) rx, l.blocks[j]? = some b → b.data = some (.done true rx) →
      ∀ i, i < sectorLength → rx i = card (address.toNat + j) i

/-- A write leaves the other sectors alone, and a transfer that stored its blocks has changed the
card. -/
structure Keeps (card after : Nat → Nat → UInt8) (buff : Nat → UInt8) (sector count : UInt32)
    (logs : List (UInt8 × WriteLog)) : Prop where
  frame : ∀ n, ¬InRange sector count n → after n = card n
  stored : ∀ w ∈ logs, w.2.Stored sector buff count → ∀ j, j < count.toNat →
    ∀ i, i < sectorLength → after (sector.toNat + j) i = buff (j * sectorLength + i)

namespace Disk

variable {d e : Disk} {known : Nat → Option (Nat → UInt8)} {l : DiskEvent}

def step : Step Disk DiskEvent
  | d, .read buff sector count a =>
    some { d with tmp := (mmcRead buff sector count d.tmp a).tmp }
  | d, .write _ _ _ _ after => some { d with card := after }

def Careful (d : Disk) : DiskEvent → Prop
  | .read buff sector count a =>
    a.Clean count ∧ ∀ w ∈ (mmcRead buff sector count d.tmp a).logs, Sends d.card sector w.2
  | .write buff sector count a after =>
    a.Clean count ∧ Keeps d.card after buff sector count (mmcWrite buff sector count a).2

def note (known : Nat → Option (Nat → UInt8)) : DiskEvent → Nat → Option (Nat → UInt8)
  | .read .., n => known n
  | .write buff sector count a _, n =>
    if InRange sector count n then
      if (mmcWrite buff sector count a).1 = resOk then
        some fun i => buff ((n - sector.toNat) * sectorLength + i)
      else none
    else known n

def Has (d : Disk) (known : Nat → Option (Nat → UInt8)) : Prop :=
  ∀ n data, known n = some data → ∀ i, i < sectorLength → d.card n i = data i

theorem write_has (h : d.Has known) {buff : Nat → UInt8} {sector count : UInt32}
    {a : DiskWriteAnswers} {after : Nat → Nat → UInt8}
    (hc : d.Careful (.write buff sector count a after)) :
    ({ d with card := after } : Disk).Has (note known (.write buff sector count a after)) := by
  obtain ⟨hclean, hkeeps⟩ := hc
  intro n data hn i hi
  simp only [note] at hn
  by_cases hrange : InRange sector count n
  · rw [if_pos hrange] at hn
    by_cases hok : (mmcWrite buff sector count a).1 = resOk
    · rw [if_pos hok] at hn
      cases hn
      obtain ⟨w, hmem, -, hstored⟩ := (mmcWrite_sound_iff sector buff count a).mpr hclean hok
      have hj : n - sector.toNat < count.toNat := by omega
      have hsum : sector.toNat + (n - sector.toNat) = n := by omega
      have hafter := hkeeps.stored w hmem hstored _ hj i hi
      rwa [hsum] at hafter
    · rw [if_neg hok] at hn
      cases hn
  · rw [if_neg hrange] at hn
    show after n i = data i
    rw [hkeeps.frame n hrange]
    exact h n data hn i hi

theorem step_has (h : d.Has known) (hc : d.Careful l) (hstep : step d l = some e) :
    e.Has (note known l) := by
  cases l with
  | read buff sector count a =>
    cases hstep
    exact h
  | write buff sector count a after =>
    cases hstep
    exact write_has h hc

theorem read_card {buff : Nat → UInt8} {sector count : UInt32} {a : DiskReadAnswers}
    (hc : d.Careful (.read buff sector count a))
    (hok : (mmcRead buff sector count d.tmp a).res = resOk) {j : Nat} (hj : j < count.toNat)
    {i : Nat} (hi : i < sectorLength) :
    (mmcRead buff sector count d.tmp a).buff (j * sectorLength + i) =
      d.card (sector.toNat + j) i := by
  obtain ⟨hclean, hsends⟩ := hc
  obtain ⟨w, hmem, -, hfetched⟩ := (mmcRead_sound_iff sector buff d.tmp count a).mpr hclean hok
  obtain ⟨b, hb⟩ : ∃ b, w.2.blocks[j]? = some b :=
    ⟨_, List.getElem?_eq_getElem (by rw [hfetched.count]; exact hj)⟩
  obtain ⟨rx, hrx, hbuff⟩ := (hfetched.blocks j b hb).data
  rw [hbuff i hi]
  refine hsends w hmem hfetched.sent hfetched.r1 j (fun k c _ hk => ?_) b rx hb hrx i hi
  have hc := hfetched.blocks k c hk
  obtain ⟨rx', hrx', -⟩ := hc.data
  exact ⟨hc.token, rx', hrx'⟩

/-- What was written is what is read. -/
theorem reads_written (card : Nat → Nat → UInt8) (tmp : Nat → UInt8) (es : List DiskEvent)
    (d : Disk) (hc : Step.Along step Careful { card, tmp } es)
    (hrun : Step.run step { card, tmp } es = some d) (buff : Nat → UInt8)
    (sector count : UInt32) (a : DiskReadAnswers) (hread : d.Careful (.read buff sector count a))
    (hok : (mmcRead buff sector count d.tmp a).res = resOk) :
    ∀ j, j < count.toNat → ∀ data,
      es.foldl note (fun _ => none) (sector.toNat + j) = some data →
      ∀ i, i < sectorLength →
        (mmcRead buff sector count d.tmp a).buff (j * sectorLength + i) = data i := by
  intro j hj data hdata i hi
  have h : d.Has (es.foldl note fun _ => none) :=
    Step.run_foldl_along (fun h hc hstep => step_has h hc hstep) nofun hc hrun
  rw [read_card hread hok hj hi]
  exact h _ data hdata i hi

end Disk

section

variable (b : UInt8)

def steady : Transfer := .done true fun _ => b

def steadyPoll : BytePoll := .done fun _ => .received b

def goodWrite : WriteAnswers where
  command := steady 0xFF
  r1 := steadyPoll 0x00
  block := fun _ => { sent := steady 0xFF, token := steadyPoll 0xE5, busy := idleCard }
  stopToken := steady 0xFF
  stop := steady 0xFF
  stopR1 := steadyPoll 0x00
  stopBusy := idleCard
  old := 0xFF

def goodRead : ReadAnswers where
  command := steady 0xFF
  r1 := steadyPoll 0x00
  block := fun _ => { token := fun _ => steadyPoll startDataMarker, data := steady b }
  stop := steady 0xFF
  idle := .done fun _ => .received 0xFF
  old := 0xFF

def noReset : ResetAnswers where
  dummy := .gaveUp
  stop := .gaveUp
  stuff := .gaveUp
  r1 := .gaveUp
  busy := idleCard
  old := 0

def goodDiskWrite : DiskWriteAnswers := ⟨goodWrite, noReset, goodWrite⟩
def goodDiskRead : DiskReadAnswers := ⟨goodRead b, noReset, goodRead b⟩

variable {b}

theorem steadyPoll_answered (h : b ≠ 0xFF) : (steadyPoll b).Answered b := by
  have hexit : pollForResponse.pollExit b = true := by
    simp [SpiTransaction.pollExit, pollForResponse, SpiCall.transaction, h]
  exact ⟨_, 0, rfl, ⟨by decide, hexit, nofun⟩, fun _ _ => ⟨b, rfl⟩, rfl⟩

theorem goodWrite_resp (j : Nat) : goodWrite.resp (j + 1) = 0xE5 := by
  have hpoll : (pollForResponse.pollByte fun _ => .received 0xE5).1 = 0xE5 := by decide
  exact hpoll

theorem goodWrite_not_refused : ¬ goodWrite.Refused 1 := by
  refine not_refused_iff.mpr ⟨by decide, fun j _ => ⟨by rw [goodWrite_resp]; decide, ?_⟩,
    by decide, ?_⟩
  · exact congrArg Prod.fst (waitBusy_idleCard _)
  · exact congrArg Prod.fst (waitBusy_idleCard _)

theorem ok_of_mem_idleCard {n : Nat} : ∀ r ∈ (waitBusy n idleCard).2, r.Ok := by
  rw [waitBusy_idleCard]
  intro r hr
  obtain rfl := List.mem_singleton.mp hr
  exact ⟨_, rfl⟩

theorem goodWrite_not_faulty : ¬ goodWrite.Faulty 1 := by
  have h0 := steadyPoll_answered (show (0x00 : UInt8) ≠ 0xFF by decide)
  have hE5 := steadyPoll_answered (show (0xE5 : UInt8) ≠ 0xFF by decide)
  simp only [WriteAnswers.Faulty, not_or, not_exists, not_and, not_not]
  exact ⟨⟨_, rfl⟩, ⟨_, h0, by decide⟩,
    fun j _ => ⟨⟨_, rfl⟩, ⟨_, hE5, by decide⟩, ok_of_mem_idleCard⟩, ⟨_, rfl⟩, ⟨_, rfl⟩,
    ⟨_, h0⟩, ok_of_mem_idleCard⟩

theorem waitStartToken_steady (resp : UInt8) :
    waitStartToken (fun _ => steadyPoll startDataMarker) resp =
      (startDataMarker, [steadyPoll startDataMarker]) := by
  have hresponse : (steadyPoll startDataMarker).response resp = startDataMarker := by
    have hpoll : (pollForResponse.pollByte fun _ => .received startDataMarker).1 =
      startDataMarker := by decide
    exact hpoll
  have hfuel : maxReadResponseAttempts - 1 = 15623 + 1 := rfl
  rw [waitStartToken, hfuel, startTokenLoop]
  simp only [hresponse, if_true]

theorem idle_received : mPollForIdle (.ofNat maxReadResponseAttempts)
    (.done fun _ => .received 0xFF) = 0 ∧
    IdleHeard (.ofNat maxReadResponseAttempts) (.done fun _ => .received 0xFF) := by
  have hend : ((SpiCall.pollForIdle (.ofNat maxReadResponseAttempts)).transaction 0).EndsAt
      (fun _ => .received 0xFF) 0 :=
    ⟨Nat.lt_of_lt_of_le Nat.one_pos (Nat.le_max_left ..), rfl, nofun⟩
  exact ⟨congrArg Prod.snd (SpiTransaction.pollByte_of_endsAt hend), _, 0, rfl, hend,
    fun _ _ => ⟨0xFF, rfl⟩⟩

theorem goodRead_not_refused : ¬ (goodRead b).Refused 1 := by
  have hr1 : (steadyPoll 0x00).response 0xFF ≠ 0xFF := by decide
  refine not_refusedRead_iff.mpr ⟨hr1, fun j _ => ⟨?_, rfl⟩, idle_received.1⟩
  exact congrArg Prod.fst (waitStartToken_steady _)

theorem goodRead_not_faulty : ¬ (goodRead b).Faulty 1 := by
  have h0 := steadyPoll_answered (show (0x00 : UInt8) ≠ 0xFF by decide)
  have hFE := steadyPoll_answered (show startDataMarker ≠ 0xFF by decide)
  have htoken (j : Nat) :
      TokenSeen (waitStartToken ((goodRead b).block j).token ((goodRead b).resp j)).2 :=
    ⟨_, congrArg (fun r => r.2.getLast?) (waitStartToken_steady _), hFE⟩
  simp only [ReadAnswers.Faulty, not_or, not_exists, not_and, not_not]
  exact ⟨⟨_, rfl⟩, ⟨_, h0, by decide⟩, fun j _ => ⟨htoken j, _, rfl⟩, ⟨_, rfl⟩, idle_received.2⟩

theorem goodDiskRead_logs (buff tmp : Nat → UInt8) (sector : UInt32) :
    (mmcRead buff sector 1 tmp (goodDiskRead b)).res = resOk ∧
      (mmcRead buff sector 1 tmp (goodDiskRead b)).logs =
        [(eOk, fetchedLog sector 1 (goodRead b))] := by
  obtain ⟨hok, hlog, -⟩ := readMultiBlock_of_passes sector buff tmp (goodRead_not_refused (b := b))
  have hfirst : (goodDiskRead b).first = goodRead b := rfl
  unfold mmcRead
  dsimp only
  rw [hfirst, if_pos hok, hok, hlog]
  exact ⟨rfl, rfl⟩

theorem goodDiskRead_sends {card : Nat → Nat → UInt8} {sector : UInt32}
    (hcard : ∀ i, i < sectorLength → card sector.toNat i = b) :
    Sends card sector (fetchedLog sector 1 (goodRead b)) := by
  intro _ _ j _ l rx hl hrx i hi
  have hblocks : (fetchedLog sector 1 (goodRead b)).blocks = [fetchLog (goodRead b) 0] := rfl
  rw [hblocks] at hl
  obtain rfl : j = 0 := by
    by_contra hne
    rw [List.getElem?_eq_none (by simp only [List.length_singleton]; omega)] at hl
    cases hl
  cases hl
  cases hrx
  exact (hcard i hi).symm

namespace Disk

def sectorWrite : DiskEvent :=
  .write (fun _ => 0xA5) 3 1 goodDiskWrite fun n _ => if n = 3 then 0xA5 else 0x00

theorem goodDiskWrite_ok : (mmcWrite (fun _ => 0xA5) 3 1 goodDiskWrite).1 = resOk := by
  rw [mmcWrite, show goodDiskWrite.first = goodWrite from rfl,
    writeMultiBlock_of_passes goodWrite_not_refused]
  rfl

theorem careful_sectorWrite : Careful ⟨fun _ _ => 0x00, fun _ => 0x00⟩ sectorWrite := by
  refine ⟨⟨fun h => goodWrite_not_faulty h.2, fun h => absurd h goodWrite_not_refused⟩, ?_, ?_⟩
  · intro n hn
    have hne : ¬n = 3 := fun h => hn (h ▸ by decide)
    simp only [hne, if_false]
  · intro w _ _ j hj i _
    obtain rfl : j = 0 := Nat.lt_one_iff.mp hj
    rfl

theorem reads_written_sector : ∃ d : Disk,
    Step.run step ⟨fun _ _ => 0x00, fun _ => 0x00⟩ [sectorWrite] = some d ∧
      ∀ i, i < sectorLength →
        (mmcRead (fun _ => 0x00) 3 1 d.tmp (goodDiskRead 0xA5)).buff i = 0xA5 := by
  obtain ⟨hok, hlogs⟩ := goodDiskRead_logs (b := 0xA5) (fun _ => 0x00) (fun _ => 0x00) 3
  have hread : Careful ⟨fun n _ => if n = 3 then 0xA5 else 0x00, fun _ => 0x00⟩
      (.read (fun _ => 0x00) 3 1 (goodDiskRead 0xA5)) := by
    refine ⟨⟨fun h => goodRead_not_faulty h.2, fun h => absurd h goodRead_not_refused⟩, ?_⟩
    rw [hlogs]
    intro w hw
    obtain rfl := List.mem_singleton.mp hw
    exact goodDiskRead_sends fun _ _ => rfl
  have hknown : note (fun _ => none) sectorWrite 3 = some fun _ => 0xA5 := by
    have hrange : InRange 3 1 3 := by decide
    rw [sectorWrite]
    simp only [note]
    rw [if_pos hrange, if_pos goodDiskWrite_ok]
  refine ⟨_, rfl, fun i hi => ?_⟩
  have h := reads_written (fun _ _ => 0x00) (fun _ => 0x00) [sectorWrite] _
    ⟨careful_sectorWrite, fun _ _ => trivial⟩ rfl (fun _ => 0x00) 3 1 (goodDiskRead 0xA5) hread hok
    0 (by decide) _ hknown i hi
  rwa [Nat.zero_mul, Nat.zero_add] at h

end Disk

end

end CanSniffer.Sd
