import CanSniffer.Sd.Initialize

/-! The card's registers: `SD_Spi_ReadCSD`, `SD_Spi_ReadCID` and what is computed from them.  The
checksums after the registers are read and dropped. -/

namespace CanSniffer.Sd

open Drivers

structure SdCsd where
  csdStructure : UInt8
  taac : UInt8
  nsac : UInt8
  tranSpeed : UInt8
  ccc : UInt16
  readBlLen : UInt8
  readBlPartial : UInt8
  cSize : UInt32
  eraseBlkEn : UInt8
  sectorSize : UInt8
  fileFormat : UInt8
  crc : UInt8
  always1 : UInt8
  deriving DecidableEq, Repr

structure SdCid where
  manufacturerId : UInt8
  oemId : List UInt8
  productName : List UInt8
  revisionMajor : UInt8
  revisionMinor : UInt8
  serialNumber : UInt32
  manufacturingYear : UInt16
  manufacturingMonth : UInt8
  deriving DecidableEq, Repr

def csdLength : Nat := 16

def extractCsdBits (array : Nat → UInt8) (mask : UInt8) (start : Nat) : UInt8 :=
  (array (start / 8) >>> UInt8.ofNat (start - start / 8 * 8)) &&& mask

def csd2Bitfield (csd : Nat → UInt8) : SdCsd :=
  let buf := fun i => csd (csdLength - 1 - i)
  let cccByte1 := extractCsdBits buf 0x0F 92
  let cccByte0 := extractCsdBits buf 0xFF 84
  let cSizeByte0 := extractCsdBits buf 0xFF 48
  let cSizeByte1 := extractCsdBits buf 0xFF 56
  let cSizeByte2 := extractCsdBits buf 0x3F 64
  { csdStructure := extractCsdBits buf 0x03 126
    taac := extractCsdBits buf 0xFF 112
    nsac := extractCsdBits buf 0xFF 104
    tranSpeed := extractCsdBits buf 0xFF 96
    ccc := cccByte0.toUInt16 <<< 8 ||| cccByte1.toUInt16
    readBlLen := extractCsdBits buf 0x0F 80
    readBlPartial := extractCsdBits buf 0x01 79
    cSize := cSizeByte2.toUInt32 <<< 16 ||| cSizeByte1.toUInt32 <<< 8 ||| cSizeByte0.toUInt32
    eraseBlkEn := extractCsdBits buf 0x01 46
    sectorSize := extractCsdBits buf 0x7F 39
    fileFormat := extractCsdBits buf 0x03 10
    crc := extractCsdBits buf 0x7F 1
    always1 := extractCsdBits buf 0x01 0 }

def cid2Fields (raw : Nat → UInt8) : SdCid where
  manufacturerId := raw 0
  oemId := [raw 1, raw 2]
  productName := (List.range 5).map fun i => raw (3 + i)
  revisionMajor := raw 8 >>> 4
  revisionMinor := raw 8 &&& 0x0F
  serialNumber := (raw 9).toUInt32 <<< 24 ||| (raw 10).toUInt32 <<< 16 |||
    (raw 11).toUInt32 <<< 8 ||| (raw 12).toUInt32
  manufacturingYear :=
    (2000 : UInt16) + (((raw 13).toUInt16 &&& 0x0F) <<< 4 ||| ((raw 14) >>> 4).toUInt16)
  manufacturingMonth := raw 14 &&& 0x0F

def startToken : UInt8 := 0xFE

/-- The answers while a register is read; `old` is what `resp` held at first. -/
structure RegisterAnswers where
  command : CommandAnswers
  token : Nat → BytePoll
  data : Transfer
  old : UInt8

/-- The polls for the start token from poll `k` on, at most `n` of them: `resp.byte`. -/
def tokenLoop (token : Nat → BytePoll) : Nat → Nat → UInt8 → UInt8
  | 0, _, resp => resp
  | n + 1, k, resp =>
    let resp := (token k).response resp
    if resp ≠ 0xFF then resp else tokenLoop token n (k + 1) resp

/-- What the polls for the start token end with, the counter being raised before it is compared. -/
def tokenByte (a : RegisterAnswers) (resp : UInt8) : UInt8 :=
  tokenLoop a.token (maxReadResponseAttempts - 1) 0 resp

/-- `SPI_CMD_READ_BUFFER`, which the block reads share, after the register was read into it. -/
def readRegister (a : RegisterAnswers) (buffer : Nat → UInt8) (i : Nat) : UInt8 :=
  if i < csdLength then a.data.byte (buffer i) i else buffer i

/-- `SD_Spi_ReadCSD`: the result, the buffer and the structure. -/
def readCSD (a : RegisterAnswers) (buffer : Nat → UInt8) (csd : SdCsd) :
    UInt8 × (Nat → UInt8) × SdCsd :=
  let resp := commandResponse .cmd9 0 a.command a.old
  -- without a response `RetVal` keeps its first value, 0
  if resp = 0xFF then (0, buffer, csd2Bitfield buffer)
  else if tokenByte a resp = startToken then
    (0, readRegister a buffer, csd2Bitfield (readRegister a buffer))
  else (1, buffer, csd)

def readCID (a : RegisterAnswers) (buffer : Nat → UInt8) (cid : SdCid) :
    UInt8 × (Nat → UInt8) × SdCid :=
  let resp := commandResponse .cmd10 0 a.command a.old
  if resp = 0xFF then (eNotOk, buffer, cid)
  else if tokenByte a resp = startToken then
    (eOk, readRegister a buffer, cid2Fields (readRegister a buffer))
  else (eNotOk, buffer, cid)

def eUnsupportedCardType : UInt8 := 15
def eCapacityOverflow : UInt8 := 16

/-- `SD_Spi_TotalBlocks512`: the result and `*totalBlocksOut`. -/
def totalBlocks512 (csd : SdCsd) : UInt8 × UInt32 :=
  if csd.csdStructure ≠ 1 then (eUnsupportedCardType, 0)
  else
    let totalBlocks := (csd.cSize.toNat + 1) * 1024
    if UInt32.size ≤ totalBlocks then (eCapacityOverflow, 0)
    else (eOk, UInt32.ofNat totalBlocks)

/-- `MMCAdapter_GetSectorCount`: the result and what is written to the buffer. -/
def getSectorCount (csd : SdCsd) : UInt8 × Option UInt32 :=
  if csd.cSize = 0 then (resError, none)
  else if 1 ≤ csd.csdStructure then
    let sectorCount := (csd.cSize.toNat + 1) * 1024
    if UInt32.size ≤ sectorCount then (resError, none)
    else (resOk, some (UInt32.ofNat sectorCount))
  else (resError, none)

end CanSniffer.Sd
