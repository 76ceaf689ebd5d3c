import CanSniffer.Lib.Bytes

/-! The log parser of the trace page (`can_trace.html`).  Bytes are read at
offsets into the whole file, and JavaScript's integers are naturals. -/

namespace CanSniffer.Web

open Lib Lib.Bytes

def blockHeaderMinSize : Nat := 20
def frameMinSize : Nat := 14

namespace Flag

def ide : Nat := 0x10
def rtrFdf : Nat := 0x20
def brs : Nat := 0x40
def esi : Nat := 0x80

end Flag

def hex (i : Nat) : String := String.ofList ((Nat.toDigits 16 i).leftpad 2 '0')

/-- One row of the trace; its `timestamp` text is a rendering of `timestampUs`. -/
structure TraceEntry where
  type : String
  typeDisplay : String
  canId : Nat
  channel : Nat
  dlc : Nat
  flags : Nat
  isExtended : Bool
  flagsText : String
  data : List String
  timestampUs : Nat
  deriving DecidableEq

structure ParseState where
  entries : List TraceEntry
  lastSyncHigh : Option Nat
  lastSyncLow : Option Nat

def ParseState.init : ParseState where
  entries := []
  lastSyncHigh := none
  lastSyncLow := none

def timestamp64 (s : ParseState) (tsLow : Nat) : Nat :=
  match s.lastSyncHigh with
  | none => tsLow
  | some high =>
    match s.lastSyncLow with
    | none => high <<< 32 ||| tsLow
    | some low =>
      -- the 32-bit counter wrapped after the last sync
      if tsLow < low then (high + 1) <<< 32 ||| tsLow else high <<< 32 ||| tsLow

def frameRow (s : ParseState) (tsLow canId channel dlcFlags dataLen : Nat)
    (payload : List UInt8) : TraceEntry :=
  let dlc := dlcFlags &&& 0x0f
  let flags := dlcFlags &&& 0xf0
  let rawRtrFdf := flags &&& Flag.rtrFdf ≠ 0
  let hasBrs := flags &&& Flag.brs ≠ 0
  let hasEsi := flags &&& Flag.esi ≠ 0
  let isExtendedId := flags &&& Flag.ide ≠ 0
  let isFdFrame := rawRtrFdf ∨ hasBrs ∨ 8 < dataLen
  let flagParts :=
    (if rawRtrFdf then [if isFdFrame then "FDF" else "RTR"] else []) ++
      (if hasBrs then ["BRS"] else []) ++ (if hasEsi then ["ESI"] else [])
  { type := if isFdFrame then "FD" else "Classic"
    typeDisplay := if isFdFrame then "FD" else if rawRtrFdf then "Classic RTR" else "Classic"
    canId
    channel
    dlc
    flags
    isExtended := isExtendedId
    flagsText := " ".intercalate flagParts
    data := payload.map fun b => hex b.toNat
    timestampUs := timestamp64 s tsLow }

def parseFrame (view : List UInt8) (recordOffset totalLen : Nat) (s : ParseState) : TraceEntry :=
  let tsLow := getUint32 view (recordOffset + 3)
  let canId := getUint32 view (recordOffset + 7)
  let channel := getUint8 view (recordOffset + 11)
  let dlcFlags := getUint8 view (recordOffset + 12)
  let dataLen := getUint8 view (recordOffset + 13)
  let payloadLen := min (min dataLen 64) (totalLen - 14)
  frameRow s tsLow canId channel dlcFlags dataLen (slice view (recordOffset + 14) payloadLen)

def parseRecords (view : List UInt8) (endOfValidData recordOffset : Nat) (s : ParseState) :
    ParseState :=
  if recordOffset + 3 ≤ endOfValidData then
    let type := getUint8 view recordOffset
    let totalLen := getUint8 view (recordOffset + 2)
    if totalLen = 0 ∨ endOfValidData < recordOffset + totalLen then s
    else if type = 1 then
      if totalLen < frameMinSize then s
      else parseRecords view endOfValidData (recordOffset + totalLen)
        { s with entries := s.entries ++ [parseFrame view recordOffset totalLen s] }
    else if type = 2 ∧ 11 ≤ totalLen then
      parseRecords view endOfValidData (recordOffset + totalLen) { s with
        lastSyncLow := some (getUint32 view (recordOffset + 3))
        lastSyncHigh := some (getUint32 view (recordOffset + 7)) }
    -- a short sync, a marker or an unknown type is passed over
    else parseRecords view endOfValidData (recordOffset + totalLen) s
  else s
termination_by endOfValidData - recordOffset

def parseBlocks (view : List UInt8) (offset : Nat) (epochCountPrev : Option Nat)
    (s : ParseState) : ParseState :=
  if offset + blockHeaderMinSize ≤ view.length then
    let headerSize := getUint8 view (offset + 1)
    let epochCount := getUint8 view (offset + 2)
    let blockSize := getUint32 view (offset + 4)
    let blockFill := getUint32 view (offset + 8)
    if headerSize < blockHeaderMinSize then s
    else if blockSize = 0 ∨ blockSize < blockFill ∨ view.length < offset + blockSize then s
    else if epochCountPrev ≠ none ∧ epochCountPrev ≠ some epochCount then s
    else
      parseBlocks view (offset + blockSize) (some epochCount)
        (parseRecords view (offset + blockFill) (offset + headerSize) s)
  else s
termination_by view.length - offset

/-- The double nearest to a natural number, ties to even. -/
def toNumber (n : Nat) : Nat :=
  if n < 1 <<< 53 then n
  else
    let ulp := 1 <<< (n.log2 - 52)
    let quot := n / ulp
    let rest := n % ulp
    if ulp < 2 * rest ∨ (2 * rest = ulp ∧ quot % 2 = 1) then (quot + 1) * ulp else quot * ulp

/-- The order of the final sort: by time as a double, then by identifier. -/
def sortsBefore (a b : TraceEntry) : Bool :=
  if toNumber a.timestampUs ≠ toNumber b.timestampUs then
    toNumber a.timestampUs < toNumber b.timestampUs
  else a.canId ≤ b.canId

def parseCanLog (arrayBuffer : List UInt8) : List TraceEntry :=
  (parseBlocks arrayBuffer 0 none .init).entries.mergeSort sortsBefore

end CanSniffer.Web
