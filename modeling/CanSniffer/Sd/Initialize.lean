import CanSniffer.Sd.Sd

/-! Bringing the card up (`SD_Spi_Initialize`).  The reads of `SD_Spi_WaitTillIdle` change nothing
here: its result is dropped by all its callers. -/

namespace CanSniffer.Sd

open Drivers

/-- The exchanges of one `SD_Spi_SendIfCond`, `SD_Spi_SendApp`, `SD_Spi_SendOpCond` or
`SD_Spi_ReadOCR`. -/
structure CommandAnswers where
  sent : Transfer
  r1 : BytePoll

/-- The answers during one `SD_Spi_Initialize`, those of its two loops numbered by their rounds;
the last two fields are what its buffers held before. -/
structure InitAnswers where
  clocks : Nat → Transfer
  goIdle : CommandAnswers
  ifCond : CommandAnswers
  echo : Transfer
  app : Nat → CommandAnswers
  opCond : Nat → CommandAnswers
  readOcr : Nat → CommandAnswers
  ocr : Nat → Transfer
  instanceFound : Bool
  spiInit : HalStatus
  ocrOld : Nat → UInt8
  bufferOld : Nat → UInt8

def preCmdClocks : Nat := 8

def commandResponse (cmd : SdCommand) (payload : UInt32) (a : CommandAnswers) (response : UInt8) :
    UInt8 :=
  -- both results are dropped
  let _ := sendCommand cmd payload a.sent
  a.r1.response response

def sendIfCond := commandResponse .cmd8 0
def sendApp := commandResponse .cmd55 0
def sendOpCond := commandResponse .acmd41 0x40000000
def readOCR := commandResponse .cmd58 0

def readRes7 (r : Transfer) (old : Nat → UInt8) (i : Nat) : UInt8 := r.byte (old i) i

/-- The loop of `SD_Spi_GoIdleState` over the clocks, from clock `i` on: whether a read failed, and
the response byte. -/
def clockLoop (clocks : Nat → Transfer) : Nat → Nat → UInt8 → Bool × UInt8
  | 0, _, response => (false, response)
  | n + 1, i, response =>
    let response := (clocks i).byte response 0
    if (clocks i).status ≠ 0 then (true, response) else clockLoop clocks n (i + 1) response

def goIdleState (a : InitAnswers) : UInt8 × UInt8 :=
  let c := clockLoop a.clocks preCmdClocks 0 0xFF
  if c.1 then (eNotOk, c.2)
  else
    let res := sendCommand .cmd0 0 a.goIdle.sent
    if res = eOk then
      (if a.goIdle.r1.status c.2 ≠ 0 then eResponse else res, a.goIdle.r1.response c.2)
    else (res, c.2)

/-- The ACMD41 loop from round `counter` on: `RetVal` and the response byte. Round 101 is always
the last. -/
def opCondLoop (a : InitAnswers) : Nat → Nat → UInt8 → UInt8 × UInt8
  | 0, _, response => (3, response)
  | fuel + 1, counter, response =>
    let response := sendApp (a.app counter) response
    let retVal := if 100 < counter then 3 else 0
    let response := sendOpCond (a.opCond counter) response
    if response ≠ 0x00 ∧ retVal = 0 then opCondLoop a fuel (counter + 1) response
    else (retVal, response)

/-- `SD_Spi_Ocr2Bitfield`: the card power up status bit of the four bytes. -/
def cpusb (ocr : Nat → UInt8) : UInt8 :=
  let word := (ocr 0).toUInt32 <<< 24 ||| (ocr 1).toUInt32 <<< 16 ||| (ocr 2).toUInt32 <<< 8 |||
    (ocr 3).toUInt32
  (word >>> 31 &&& 1).toUInt8

/-- The OCR loop from round `k` on, for at most `fuel` rounds: whether it was left. -/
def ocrLoop (a : InitAnswers) : Nat → Nat → UInt8 → (Nat → UInt8) → Bool
  | 0, _, _, _ => false
  | fuel + 1, k, response, buffer =>
    let response := readOCR (a.readOcr k) response
    if response = 0x00 then
      let buffer := readRes7 (a.ocr k) buffer
      if cpusb buffer = 0 then ocrLoop a fuel (k + 1) response buffer else true
    else ocrLoop a fuel (k + 1) response buffer

def goHighSpeed (a : InitAnswers) : CommCode :=
  if a.instanceFound then a.spiInit.toComm else .invalidParameter

/-- The last `if` of `SD_Spi_Initialize`. -/
def finishInit (a : InitAnswers) (retVal : UInt8) : UInt8 :=
  if retVal = 0 then (goHighSpeed a).value else resError

/-- `SD_Spi_Initialize`; `none` while its OCR loop has not been left after `fuel` rounds. -/
def spiInitialize (fuel : Nat) (a : InitAnswers) : Option UInt8 :=
  let idle := goIdleState a
  if idle.1 ≠ eOk then some idle.1
  else if idle.2 = 0x01 then
    let response := sendIfCond a.ifCond idle.2
    -- another answer to CMD8 leaves `RetVal` at 0
    if response &&& 0x3F = 0x01 then
      let ocr := readRes7 a.echo a.ocrOld
      if ocr 2 = 0x01 ∧ ocr 3 = 0xAA then
        let r := opCondLoop a 102 0 response
        if r.1 = 0 then
          if ocrLoop a fuel 0 r.2 a.bufferOld then some (finishInit a 0) else none
        else some (finishInit a r.1)
      else some (finishInit a 2)
    else some (finishInit a 0)
  else some (finishInit a 1)

end CanSniffer.Sd
