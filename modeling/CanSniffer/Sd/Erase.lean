import CanSniffer.Sd.Registers

/-! Erasing the whole card (`SD_Spi_EraseAll`), with the commands that were sent as a log. -/

namespace CanSniffer.Sd

open Drivers

def eEraseStartFailed : UInt8 := 12
def eEraseEndFailed : UInt8 := 13
def eEraseCmdFailed : UInt8 := 14

def eraseChunkBlocks : UInt32 := 4096

def eraseBlockSize : UInt32 := 1

def eraseBusyTimeoutAttempts : Nat := maxReadResponseAttempts * 300

/-- The answers of one `SD_Spi_EraseAll`, those of its loop numbered by the rounds and those of the
busy waits by their polls. -/
structure EraseAnswers where
  csd : RegisterAnswers
  start : Nat → CommandAnswers
  last : Nat → CommandAnswers
  erase : Nat → CommandAnswers
  busy : Nat → Nat → BytePoll
  buffer : Nat → UInt8
  old : UInt8

/-- The blocks of one round, the responses polled in it, and whether the busy wait saw the card
idle. -/
structure EraseRound where
  start : UInt32
  last : UInt32
  r1 : List UInt8
  idle : Bool
  deriving DecidableEq, Repr

/-- How a round ends: the loop goes on behind the chunk, tries again with a smaller one, or
stops. -/
inductive RoundEnd
  | erased
  | shrunk
  | failed (res : { r : UInt8 // r ≠ eOk })
  deriving DecidableEq, Repr

/-- What follows a response other than 0x00: only an answer of the card starts the second try. -/
def rejected (limit : UInt32) (resp : UInt8) (res : { r : UInt8 // r ≠ eOk }) : RoundEnd :=
  if eraseBlockSize < limit ∧ resp ≠ 0xFF then .shrunk else .failed res

def eraseChunk (total current limit : UInt32) : UInt32 :=
  let remaining := total - current
  let chunk := if limit < remaining then limit else remaining
  if chunk % eraseBlockSize ≠ 0 then chunk - chunk % eraseBlockSize else chunk

/-- The `do … while` loop after CMD38: `resp.byte`, and whether it ended before the attempts did. -/
def eraseBusyLoop (busy : Nat → BytePoll) : Nat → Nat → UInt8 → UInt8 × Bool
  | 0, _, resp => (resp, false)
  | n + 1, i, resp =>
    let resp := (busy i).response resp
    if resp = 0xFF then (resp, true) else eraseBusyLoop busy n (i + 1) resp

/-- The commands of round `k` for the chunk: the log, `resp.byte` and how the round ends. -/
def eraseRound (a : EraseAnswers) (k : Nat) (current chunk limit : UInt32) (resp : UInt8) :
    EraseRound × UInt8 × RoundEnd :=
  let start := current
  let last := start + chunk - 1
  let r0 := commandResponse .cmd32 start (a.start k) resp
  if r0 ≠ 0x00 then
    (⟨start, last, [r0], false⟩, r0, rejected limit r0 ⟨eEraseStartFailed, by decide⟩)
  else
    let r1 := commandResponse .cmd33 last (a.last k) r0
    if r1 ≠ 0x00 then
      (⟨start, last, [r0, r1], false⟩, r1, rejected limit r1 ⟨eEraseEndFailed, by decide⟩)
    else
      let r2 := commandResponse .cmd38 0 (a.erase k) r1
      if r2 ≠ 0x00 then
        (⟨start, last, [r0, r1, r2], false⟩, r2, rejected limit r2 ⟨eEraseCmdFailed, by decide⟩)
      else
        let w := eraseBusyLoop (a.busy k) eraseBusyTimeoutAttempts 0 r2
        (⟨start, last, [r0, r1, r2], w.2⟩, w.1,
          if w.2 then .erased else .failed ⟨eCmdNoGoingIdle, by decide⟩)

structure EraseResult where
  res : UInt8
  erased : UInt32
  rounds : List EraseRound
  deriving DecidableEq, Repr

/-- The loop from round `k` on, `none` while it has not ended after `fuel` rounds. -/
def eraseLoop (a : EraseAnswers) (total : UInt32) :
    Nat → Nat → UInt32 → UInt32 → UInt8 → UInt32 → Option EraseResult
  | 0, _, _, _, _, _ => none
  | fuel + 1, k, current, limit, resp, erased =>
    if current < total then
      let chunk := eraseChunk total current limit
      if chunk = 0 then some ⟨eEraseEndFailed, erased, []⟩
      else
        let r := eraseRound a k current chunk limit resp
        let rest :=
          match r.2.2 with
          | .erased =>
            eraseLoop a total fuel (k + 1) (current + chunk) limit r.2.1 (current + chunk)
          | .shrunk => eraseLoop a total fuel (k + 1) current eraseBlockSize r.2.1 erased
          | .failed res => some ⟨res.val, erased, []⟩
        rest.map fun s => { s with rounds := r.1 :: s.rounds }
    else some ⟨eOk, erased, []⟩

def SdCsd.zero : SdCsd := ⟨0, 0, 0, 0, 0, 0, 0, 0, 0, 0, 0, 0, 0⟩

/-- The result of the register read, or of the capacity if it was read, and `totalBlocks`. -/
def eraseCapacity (a : EraseAnswers) : UInt8 × UInt32 :=
  let r := readCSD a.csd a.buffer .zero
  if r.1 ≠ eOk then (r.1, 0) else totalBlocks512 r.2.2

/-- `SD_Spi_EraseAll`, for a caller that asks for the blocks erased. -/
def eraseAll (fuel : Nat) (a : EraseAnswers) : Option EraseResult :=
  let c := eraseCapacity a
  if c.1 ≠ eOk then some ⟨c.1, 0, []⟩ else eraseLoop a c.2 fuel 0 0 eraseChunkBlocks a.old 0

end CanSniffer.Sd
