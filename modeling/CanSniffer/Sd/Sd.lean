import CanSniffer.Drivers.SpiAbs

/-! The SD card over SPI (`Sd.c`) and the disk writes of `MmcAdapter.c`.  Each call of `SpiAbs.c`
has its outcome in a record of answers, one field a call site. -/

namespace CanSniffer.Sd

open Drivers

/-- What became of a call that transfers bytes: not queued, given up, or completed. A completed
call returns `HAL_OK`; whether its transfer succeeded, `ok`, stays in the context. -/
inductive Transfer
  | refused (code : { c : CommCode // c ≠ .success })
  | gaveUp
  | done (ok : Bool) (rx : Nat → UInt8)

inductive BytePoll
  | refused (code : { c : CommCode // c ≠ .success })
  | gaveUp
  | done (byte : Nat → HalByte)

/-- `SPI_DIR_POLL_BYTE` as `m_PollForResponse` asks for it. -/
def pollForResponse : SpiTransaction := SpiCall.transaction 0 .pollForResponse

namespace Transfer

def status : Transfer → UInt8
  | .refused code => code.val.value
  | .gaveUp => HalStatus.timeout.value
  | .done _ _ => HalStatus.ok.value

def byte (old : UInt8) (i : Nat) : Transfer → UInt8
  | .refused _ | .gaveUp => old
  | .done _ rx => rx i

end Transfer

namespace BytePoll

def response (old : UInt8) : BytePoll → UInt8
  | .refused _ | .gaveUp => old
  | .done byte => (pollForResponse.pollByte byte).1

def status (old : UInt8) : BytePoll → UInt8
  | .refused code => code.val.value
  | .gaveUp => HalStatus.timeout.value
  | .done byte => if (BytePoll.done byte).response old = 0xFF then 1 else 0

end BytePoll

def eOk : UInt8 := 0
def eNotOk : UInt8 := 1
def eSend : UInt8 := 4
def eResponse : UInt8 := 5
def eCmdNoR1 : UInt8 := 6
def eCmdNoDataRespToken : UInt8 := 7
def eCmdNoGoingIdle : UInt8 := 8
def eCmdNoStopTransmissionResponse : UInt8 := 10

def resOk : UInt8 := 0
def resError : UInt8 := 1
def resNotRdy : UInt8 := 3

def maxReadResponseAttempts : Nat := 15625

def sectorLength : Nat := 512

def multiBlockStartToken : UInt8 := 0xFC
def multiBlockStopToken : UInt8 := 0xFD
def dataAcceptedToken : UInt8 := 0x05
def crcErrorToken : UInt8 := 0x0B
def writeErrorToken : UInt8 := 0x0D

inductive SdCommand
  | cmd0 | cmd1 | cmd8 | cmd9 | cmd10 | cmd12 | cmd13 | cmd16 | cmd17 | cmd18 | cmd24 | cmd25
  | cmd32 | cmd33 | cmd38 | cmd55 | cmd58 | acmd41
  deriving DecidableEq, Repr

def crc7Bit (s : UInt8 × UInt8) : UInt8 × UInt8 :=
  let crc := s.1 <<< 1
  (if (s.2 ^^^ crc) &&& 0x80 ≠ 0 then crc ^^^ 0x09 else crc, s.2 <<< 1)

def crc7 (data : List UInt8) : UInt8 :=
  (data.foldl (fun crc d => ((List.range 8).foldl (fun s _ => crc7Bit s) (crc, d)).1) 0 <<< 1) ||| 1

/-- The frame's first byte and whether the payload is sent; CMD1 has no case. -/
def SdCommand.code : SdCommand → Option (UInt8 × Bool)
  | .cmd0 => some (0x40, false)
  | .cmd1 => none
  | .cmd8 => some (0x48, false)
  | .cmd9 => some (0x49, true)
  | .cmd10 => some (0x4A, false)
  | .cmd12 => some (0x4C, false)
  | .cmd13 => some (0x4D, false)
  | .cmd16 => some (0x50, true)
  | .cmd17 => some (0x51, true)
  | .cmd18 => some (0x52, true)
  | .cmd24 => some (0x58, true)
  | .cmd25 => some (0x59, true)
  | .cmd32 => some (0x60, true)
  | .cmd33 => some (0x61, true)
  | .cmd38 => some (0x66, true)
  | .cmd55 => some (0x77, false)
  | .cmd58 => some (0x7A, false)
  | .acmd41 => some (0x69, true)

def payloadBytes (payload : UInt32) : List UInt8 :=
  [(payload >>> 24).toUInt8, (payload >>> 16).toUInt8, (payload >>> 8).toUInt8, payload.toUInt8]

def createCommand (cmd : SdCommand) (payload : UInt32) : Option (List UInt8) :=
  match cmd with
  | .cmd0 => some [0xFF, 0x40, 0x00, 0x00, 0x00, 0x00, 0x95]
  | .cmd8 => some [0xFF, 0x48, 0x00, 0x00, 0x01, 0xAA, 0x87]
  | _ =>
    cmd.code.map fun code =>
      let body := code.1 :: payloadBytes (if code.2 then payload else 0)
      0xFF :: body ++ [crc7 body]

-- the two fixed checksums are those of their frames
example : crc7 [0x40, 0x00, 0x00, 0x00, 0x00] = 0x95 := by decide +kernel
example : crc7 [0x48, 0x00, 0x00, 0x01, 0xAA] = 0x87 := by decide +kernel

def sendCommand (cmd : SdCommand) (payload : UInt32) (r : Transfer) : UInt8 :=
  match createCommand cmd payload with
  | none => eNotOk
  | some _ => if r.status ≠ 0 then eSend else eOk

/-- The `do … while` loop of `SD_Spi_WaitBusy`: its `resp` and the reads made. -/
def waitBusyLoop (answer : Nat → Transfer) : Nat → Nat → UInt8 → UInt8 × List Transfer
  | 0, _, resp => (resp, [])
  | fuel + 1, attempts, resp =>
    let resp := (answer attempts).byte resp 0
    if resp = 0xFF then (resp, [answer attempts])
    else
      let r := waitBusyLoop answer fuel (attempts + 1) resp
      (r.1, answer attempts :: r.2)

/-- The reads of one busy wait, and what its local held before the first of them. -/
structure BusyAnswers where
  read : Nat → Transfer
  old : UInt8

def waitBusy (maxAttempts : Nat) (a : BusyAnswers) : UInt8 × List Transfer :=
  let r := waitBusyLoop a.read (max 1 maxAttempts) 0 a.old
  (if r.1 = 0xFF then 0 else 1, r.2)

structure BlockAnswers where
  sent : Transfer
  token : BytePoll
  busy : BusyAnswers

/-- The answers during one `SD_Spi_writeMultiBlock`; `old` is what `resp` held at first. -/
structure WriteAnswers where
  command : Transfer
  r1 : BytePoll
  block : Nat → BlockAnswers
  stopToken : Transfer
  stop : Transfer
  stopR1 : BytePoll
  stopBusy : BusyAnswers
  old : UInt8

/-- `Tmp`: the start token, the sector and the CRC. -/
def blockFrame (buff : Nat → UInt8) (j : Nat) : List UInt8 :=
  multiBlockStartToken ::
    (List.range sectorLength).map (fun i => buff (j * sectorLength + i)) ++ [0x00, 0x00]

def tokenResult (resp : UInt8) : UInt8 :=
  if resp &&& 0x1F = dataAcceptedToken then eOk
  else if resp &&& 0x1F = crcErrorToken then eCmdNoDataRespToken
  else if resp &&& 0x1F = writeErrorToken then eCmdNoDataRespToken
  else eOk

structure BlockLog where
  data : List UInt8
  sent : Transfer
  token : BytePoll
  reads : List Transfer

structure StopLog where
  token : UInt8
  tokenSent : Transfer
  frame : Option (List UInt8)
  sent : Transfer
  r1 : BytePoll
  reads : List Transfer

/-- The calls made by one `SD_Spi_writeMultiBlock`. -/
structure WriteLog where
  frame : Option (List UInt8)
  sent : Transfer
  r1 : BytePoll
  blocks : List BlockLog
  stop : Option StopLog

/-- The loop over `n` blocks from block `j` on: `res`, `resp.byte` and the calls made. -/
def writeBlocks (a : WriteAnswers) (buff : Nat → UInt8) :
    Nat → Nat → UInt8 → UInt8 × UInt8 × List BlockLog
  | 0, _, resp => (eOk, resp, [])
  | n + 1, j, resp =>
    let b := a.block j
    let resp := b.token.response resp
    let log : BlockLog := { data := blockFrame buff j, sent := b.sent, token := b.token, reads := [] }
    if tokenResult resp ≠ eOk then (tokenResult resp, resp, [log])
    else
      let w := waitBusy maxReadResponseAttempts b.busy
      let log := { log with reads := w.2 }
      if w.1 ≠ 0 then (eCmdNoGoingIdle, resp, [log])
      else
        let r := writeBlocks a buff n (j + 1) resp
        (r.1, r.2.1, log :: r.2.2)

/-- `SD_Spi_writeMultiBlock` after the loop. -/
def stopTransmission (a : WriteAnswers) (res resp : UInt8) : UInt8 × StopLog :=
  let log : StopLog :=
    { token := multiBlockStopToken, tokenSent := a.stopToken, frame := createCommand .cmd12 0
      sent := a.stop, r1 := a.stopR1, reads := [] }
  let res := if a.stopR1.response resp = 0xFF then eCmdNoStopTransmissionResponse else res
  if res ≠ eOk then (res, log)
  else
    let w := waitBusy (maxReadResponseAttempts * 20) a.stopBusy
    (if w.1 ≠ 0 then eCmdNoGoingIdle else res, { log with reads := w.2 })

/-- `SD_Spi_writeMultiBlock`; what `SD_Spi_SendCommand` returns is dropped. -/
def writeMultiBlock (address : UInt32) (buff : Nat → UInt8) (cnt : UInt32) (a : WriteAnswers) :
    UInt8 × WriteLog :=
  let log : WriteLog :=
    { frame := createCommand .cmd25 address, sent := a.command, r1 := a.r1, blocks := []
      stop := none }
  let resp := a.r1.response a.old
  if resp = 0xFF then (eCmdNoR1, log)
  else
    let r := writeBlocks a buff cnt.toNat 0 resp
    let t := stopTransmission a r.1 r.2.1
    (t.1, { log with blocks := r.2.2, stop := some t.2 })

structure ResetAnswers where
  dummy : Transfer
  stop : Transfer
  stuff : Transfer
  r1 : BytePoll
  busy : BusyAnswers
  old : UInt8

def hotReset (a : ResetAnswers) : UInt8 :=
  let resp := a.r1.response (a.stuff.byte a.old 0)
  if resp = 0xFF then resNotRdy
  else if (waitBusy maxReadResponseAttempts a.busy).1 ≠ 0 then resNotRdy
  else resOk

structure DiskWriteAnswers where
  first : WriteAnswers
  reset : ResetAnswers
  second : WriteAnswers

/-- `MMCAdapter_write`, with the results and the calls of its `SD_Spi_writeMultiBlock`s. -/
def mmcWrite (buff : Nat → UInt8) (sector count : UInt32) (a : DiskWriteAnswers) :
    UInt8 × List (UInt8 × WriteLog) :=
  let w := writeMultiBlock sector buff count a.first
  if w.1 = eOk then (resOk, [w])
  else if hotReset a.reset ≠ resOk then (resNotRdy, [w])
  else
    let v := writeMultiBlock sector buff count a.second
    (if v.1 ≠ eOk then resError else v.1, [w, v])

end CanSniffer.Sd
