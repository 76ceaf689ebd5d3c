import CanSniffer.Lib.Decimal

namespace CanSniffer.Lib

def ascii (s : String) : List UInt8 := s.toList.map Char.toUInt8

/-- Numbers and strings are kept as they are written. -/
inductive Json
  | null
  | bool (b : Bool)
  | number (lexeme : List UInt8)
  | string (lexeme : List UInt8)
  | array (elements : List Json)
  | object (members : List (List UInt8 × Json))

namespace Json

open Decimal

def isWs (b : UInt8) : Bool := b == 0x20 || b == 0x09 || b == 0x0A || b == 0x0D

def isHex (b : UInt8) : Bool :=
  isDigit b || decide (0x41 ≤ b) && decide (b ≤ 0x46) || decide (0x61 ≤ b) && decide (b ≤ 0x66)

def skipWs (s : List UInt8) : List UInt8 := s.dropWhile isWs

/-- How much of `[ minus ] int [ frac ] [ exp ]` was read. -/
inductive NumberState
  | start
  | minus
  | zero
  | int
  | point
  | frac
  | e
  | sign
  | exp
  deriving DecidableEq

namespace NumberState

def accepts : NumberState → Bool
  | zero | int | frac | exp => true
  | start | minus | point | e | sign => false

def intNext (b : UInt8) : Option NumberState :=
  if b = 0x30 then some zero else if isDigit b then some int else none

def expNext (b : UInt8) : Option NumberState :=
  if b = 0x65 ∨ b = 0x45 then some e else none

def fracNext (b : UInt8) : Option NumberState := if b = 0x2E then some point else expNext b

def next : NumberState → UInt8 → Option NumberState
  | start, b => if b = 0x2D then some minus else intNext b
  | minus, b => intNext b
  | zero, b => fracNext b
  | int, b => if isDigit b then some int else fracNext b
  | point, b => if isDigit b then some frac else none
  | frac, b => if isDigit b then some frac else expNext b
  | e, b => if b = 0x2B ∨ b = 0x2D then some sign else if isDigit b then some exp else none
  | sign, b => if isDigit b then some exp else none
  | exp, b => if isDigit b then some exp else none

end NumberState

def scanNumber : NumberState → List UInt8 → Option (List UInt8 × List UInt8)
  | st, [] => if st.accepts then some ([], []) else none
  | st, b :: s =>
    match st.next b with
    | some st => (scanNumber st s).map fun r => (b :: r.1, r.2)
    | none => if st.accepts then some ([], b :: s) else none

/-- `hex n` and `tail n` have `n` more bytes to come, the first of a tail between two bounds. -/
inductive StringState
  | plain
  | escape
  | hex (n : Nat)
  | tail (n : Nat) (lo hi : UInt8)
  deriving DecidableEq

namespace StringState

def lead (b : UInt8) : Option StringState :=
  if 0xC2 ≤ b ∧ b ≤ 0xDF then some (tail 1 0x80 0xBF)
  else if b = 0xE0 then some (tail 2 0xA0 0xBF)
  else if b = 0xED then some (tail 2 0x80 0x9F)
  else if 0xE1 ≤ b ∧ b ≤ 0xEF then some (tail 2 0x80 0xBF)
  else if b = 0xF0 then some (tail 3 0x90 0xBF)
  else if 0xF1 ≤ b ∧ b ≤ 0xF3 then some (tail 3 0x80 0xBF)
  else if b = 0xF4 then some (tail 3 0x80 0x8F)
  else none

def next : StringState → UInt8 → Option StringState
  | plain, b =>
    if b = 0x5C then some escape else if b < 0x20 then none else if b < 0x80 then some plain
    else lead b
  | escape, b =>
    if b ∈ ascii "\"\\/bfnrt" then some plain else if b = 0x75 then some (hex 4) else none
  | hex n, b => if isHex b then some (if n ≤ 1 then plain else hex (n - 1)) else none
  | tail n lo hi, b =>
    if lo ≤ b ∧ b ≤ hi then some (if n ≤ 1 then plain else tail (n - 1) 0x80 0xBF) else none

end StringState

def scanString : StringState → List UInt8 → Option (List UInt8 × List UInt8)
  | _, [] => none
  | st, b :: s =>
    if st = .plain ∧ b = 0x22 then some ([], s)
    else
      match st.next b with
      | some st => (scanString st s).map fun r => (b :: r.1, r.2)
      | none => none

def literal (text : List UInt8) (t : Json) (s : List UInt8) : Option (Json × List UInt8) :=
  if text.isPrefixOf s then some (t, s.drop text.length) else none

section

variable (value : List UInt8 → Option (Json × List UInt8))

def parseElements : Nat → List UInt8 → Option (List Json × List UInt8)
  | 0, _ => none
  | n + 1, s =>
    (value s).bind fun r =>
      match skipWs r.2 with
      | 0x2C :: s => (parseElements n (skipWs s)).map fun r' => (r.1 :: r'.1, r'.2)
      | 0x5D :: s => some ([r.1], s)
      | _ => none

def parseMember : List UInt8 → Option ((List UInt8 × Json) × List UInt8)
  | 0x22 :: s =>
    (scanString .plain s).bind fun r =>
      match skipWs r.2 with
      | 0x3A :: s => (value (skipWs s)).map fun r' => ((r.1, r'.1), r'.2)
      | _ => none
  | _ => none

def parseMembers : Nat → List UInt8 → Option (List (List UInt8 × Json) × List UInt8)
  | 0, _ => none
  | n + 1, s =>
    (parseMember value s).bind fun r =>
      match skipWs r.2 with
      | 0x2C :: s => (parseMembers n (skipWs s)).map fun r' => (r.1 :: r'.1, r'.2)
      | 0x7D :: s => some ([r.1], s)
      | _ => none

end

/-- More fuel than the text has bytes is enough. -/
def parseValue : Nat → List UInt8 → Option (Json × List UInt8)
  | 0, _ => none
  | n + 1, s =>
    match s with
    | 0x7B :: s =>
      match skipWs s with
      | 0x7D :: s => some (.object [], s)
      | s => (parseMembers (parseValue n) n s).map fun r => (.object r.1, r.2)
    | 0x5B :: s =>
      match skipWs s with
      | 0x5D :: s => some (.array [], s)
      | s => (parseElements (parseValue n) n s).map fun r => (.array r.1, r.2)
    | 0x22 :: s => (scanString .plain s).map fun r => (.string r.1, r.2)
    | 0x6E :: _ => literal (ascii "null") .null s
    | 0x74 :: _ => literal (ascii "true") (.bool true) s
    | 0x66 :: _ => literal (ascii "false") (.bool false) s
    | _ => (scanNumber .start s).map fun r => (.number r.1, r.2)

def parse (s : List UInt8) : Option Json :=
  (parseValue (s.length + 1) (skipWs s)).bind fun r =>
    if skipWs r.2 = [] then some r.1 else none

/-- Of members with one name the first counts. -/
def find : List (List UInt8) → Json → Option Json
  | [], t => some t
  | key :: path, .object members => (members.lookup key).bind (find path)
  | _ :: _, _ => none

/-- What stands in the text for a value that is no collection, without quotation marks. -/
def scalar : Json → Option (List UInt8)
  | null => some (ascii "null")
  | bool true => some (ascii "true")
  | bool false => some (ascii "false")
  | number lexeme => some lexeme
  | string lexeme => some lexeme
  | array _ => none
  | object _ => none

def newline (n : Nat) : List UInt8 := 0x0A :: List.replicate n 0x20

mutual

/-- One member or element a line, four spaces deeper than the collection. -/
def pretty (n : Nat) : Json → List UInt8
  | null => ascii "null"
  | bool true => ascii "true"
  | bool false => ascii "false"
  | number lexeme => lexeme
  | string lexeme => 0x22 :: (lexeme ++ [0x22])
  | array [] => [0x5B, 0x5D]
  | array (t :: ts) => 0x5B :: (newline (n + 4) ++ (t.pretty (n + 4) ++ prettyElements n ts))
  | object [] => [0x7B, 0x7D]
  | object ((key, t) :: ms) =>
    0x7B :: (newline (n + 4) ++
      (0x22 :: (key ++ (0x22 :: 0x3A :: (t.pretty (n + 4) ++ prettyMembers n ms)))))

def prettyElements (n : Nat) : List Json → List UInt8
  | [] => newline n ++ [0x5D]
  | t :: ts => 0x2C :: (newline (n + 4) ++ (t.pretty (n + 4) ++ prettyElements n ts))

def prettyMembers (n : Nat) : List (List UInt8 × Json) → List UInt8
  | [] => newline n ++ [0x7D]
  | (key, t) :: ms =>
    0x2C :: (newline (n + 4) ++
      (0x22 :: (key ++ (0x22 :: 0x3A :: (t.pretty (n + 4) ++ prettyMembers n ms)))))

end

end Json

end CanSniffer.Lib
