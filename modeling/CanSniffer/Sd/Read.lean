import CanSniffer.Drivers.PollByte
import CanSniffer.Sd.Sd

namespace CanSniffer.Sd

open Drivers

def eCmdNoStartToken : UInt8 := 9

def startDataMarker : UInt8 := 0xFE

structure FetchAnswers where
  token : Nat → BytePoll
  data : Transfer

/-- The answers during one `SD_Spi_readMultiBlock`; `old` is what `resp` held at first. -/
structure ReadAnswers where
  command : Transfer
  r1 : BytePoll
  block : Nat → FetchAnswers
  stop : Transfer
  idle : IdleOutcome
  old : UInt8

/-- The `while` loop that waits for a start token: `resp.byte` and the polls made. -/
def startTokenLoop (answer : Nat → BytePoll) : Nat → Nat → UInt8 → UInt8 × List BytePoll
  | 0, _, resp => (resp, [])
  | fuel + 1, attempts, resp =>
    let resp := (answer attempts).response resp
    if resp = startDataMarker then (resp, [answer attempts])
    else
      let r := startTokenLoop answer fuel (attempts + 1) resp
      (r.1, answer attempts :: r.2)

/-- The count is raised before it is compared. -/
def waitStartToken (answer : Nat → BytePoll) (resp : UInt8) : UInt8 × List BytePoll :=
  startTokenLoop answer (maxReadResponseAttempts - 1) 0 resp

structure FetchLog where
  polls : List BytePoll
  data : Option Transfer

structure ReadLog where
  frame : Option (List UInt8)
  sent : Transfer
  r1 : BytePoll
  blocks : List FetchLog
  stop : Option (Option (List UInt8) × Transfer × IdleOutcome)

structure ReadState where
  resp : UInt8
  tmp : Nat → UInt8
  buff : Nat → UInt8

/-- The buffer after `memcpy(&buff[j * SD_SECTOR_LENGTH], Tmp, SD_SECTOR_LENGTH)`. -/
def copySector (buff tmp : Nat → UInt8) (j i : Nat) : UInt8 :=
  if j * sectorLength ≤ i ∧ i < (j + 1) * sectorLength then tmp (i - j * sectorLength) else buff i

def ReadState.fetch (s : ReadState) (j : Nat) (resp : UInt8) (d : Transfer) : ReadState :=
  let tmp := fun i => d.byte (s.tmp i) i
  { resp, tmp, buff := copySector s.buff tmp j }

/-- The loop over `n` blocks from block `j` on: `res`, the state and the calls made. -/
def readBlocks (a : ReadAnswers) : Nat → Nat → ReadState → UInt8 × ReadState × List FetchLog
  | 0, _, s => (eOk, s, [])
  | n + 1, j, s =>
    let t := waitStartToken (a.block j).token s.resp
    if t.1 ≠ startDataMarker then
      (eCmdNoStartToken, { s with resp := t.1 }, [{ polls := t.2, data := none }])
    else
      let d := (a.block j).data
      let s := s.fetch j t.1 d
      let log : FetchLog := { polls := t.2, data := some d }
      if d.status ≠ 0 then (d.status, s, [log])
      else
        let r := readBlocks a n (j + 1) s
        (r.1, r.2.1, log :: r.2.2)

/-- `SD_Spi_readMultiBlock`: `res`, `Tmp` and the buffer afterwards, and the calls made. -/
def readMultiBlock (address : UInt32) (buff : Nat → UInt8) (cnt : UInt32) (tmp : Nat → UInt8)
    (a : ReadAnswers) : UInt8 × ReadState × ReadLog :=
  let log : ReadLog :=
    { frame := createCommand .cmd18 address, sent := a.command, r1 := a.r1, blocks := []
      stop := none }
  let s : ReadState := { resp := a.r1.response a.old, tmp, buff }
  if s.resp = 0xFF then (2, s, log)
  else
    let r := readBlocks a cnt.toNat 0 s
    let idle := mPollForIdle (.ofNat maxReadResponseAttempts) a.idle
    (if idle ≠ 0 ∧ r.1 = 0 then eCmdNoGoingIdle else r.1, r.2.1,
      { log with blocks := r.2.2, stop := some (createCommand .cmd12 address, a.stop, a.idle) })

structure DiskReadAnswers where
  first : ReadAnswers
  reset : ResetAnswers
  second : ReadAnswers

/-- What a disk read leaves: its result, the buffer, `Tmp`, and the transfers made with their
results. -/
structure DiskRead where
  res : UInt8
  buff : Nat → UInt8
  tmp : Nat → UInt8
  logs : List (UInt8 × ReadLog)

def mmcRead (buff : Nat → UInt8) (sector count : UInt32) (tmp : Nat → UInt8)
    (a : DiskReadAnswers) : DiskRead :=
  let w := readMultiBlock sector buff count tmp a.first
  if w.1 = eOk then
    { res := resOk, buff := w.2.1.buff, tmp := w.2.1.tmp, logs := [(w.1, w.2.2)] }
  else if hotReset a.reset = resOk then
    let v := readMultiBlock sector w.2.1.buff count w.2.1.tmp a.second
    { res := if v.1 = eOk then resOk else resError
      buff := v.2.1.buff
      tmp := v.2.1.tmp
      logs := [(w.1, w.2.2), (v.1, v.2.2)] }
  else { res := resNotRdy, buff := w.2.1.buff, tmp := w.2.1.tmp, logs := [(w.1, w.2.2)] }

end CanSniffer.Sd
