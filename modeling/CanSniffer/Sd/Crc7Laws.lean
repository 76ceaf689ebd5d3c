import CanSniffer.Lib.Bits
import CanSniffer.Lib.Bytes
import CanSniffer.Lib.Crc
import CanSniffer.Sd.Sd
import Mathlib.Algebra.CharP.Two
import Mathlib.Algebra.Field.ZMod
import Mathlib.Algebra.Polynomial.BigOperators
import Mathlib.Data.ZMod.Basic

namespace CanSniffer.Sd

open Lib Polynomial

def bitCoeff (b : Bool) : ZMod 2 := if b then 1 else 0

noncomputable def bitPoly (n : Nat) (b : UInt8) : (ZMod 2)[X] :=
  ∑ i ∈ Finset.range n, C (bitCoeff (b.toNat.testBit i)) * X ^ i

noncomputable def messagePoly (data : List UInt8) : (ZMod 2)[X] :=
  data.foldl (fun m b => m * X ^ 8 + bitPoly 8 b) 0

noncomputable def crc7Poly : (ZMod 2)[X] := X ^ 7 + X ^ 3 + 1

def SdCommand.index : SdCommand → UInt8
  | .cmd0 => 0
  | .cmd1 => 1
  | .cmd8 => 8
  | .cmd9 => 9
  | .cmd10 => 10
  | .cmd12 => 12
  | .cmd13 => 13
  | .cmd16 => 16
  | .cmd17 => 17
  | .cmd18 => 18
  | .cmd24 => 24
  | .cmd25 => 25
  | .cmd32 => 32
  | .cmd33 => 33
  | .cmd38 => 38
  | .cmd55 => 55
  | .cmd58 => 58
  | .acmd41 => 41

/-- What the card is sent as the argument: CMD8 has its voltage and check pattern, other commands
without an argument zero. -/
def SdCommand.argument (payload : UInt32) : SdCommand → UInt32
  | .cmd8 => 0x1AA
  | .cmd0 | .cmd10 | .cmd12 | .cmd13 | .cmd55 | .cmd58 => 0
  | _ => payload

def commandBody (cmd : SdCommand) (payload : UInt32) : List UInt8 :=
  (0x40 ||| cmd.index) :: (Bytes.le32 (cmd.argument payload)).reverse

/-- `SD_Crc7` as one step per bit. -/
def crc7Step (crc : UInt8) (bit : Bool) : UInt8 :=
  if bit != crc.toNat.testBit 6 then crc <<< 1 ^^^ 0x09 else crc <<< 1

theorem crc7Bit_eq (crc d : UInt8) :
    crc7Bit (crc, d) = (crc7Step crc (d.toNat.testBit 7), d <<< 1) := by
  have hmask : ∀ b : UInt8, b &&& 0x80 = if b.toNat.testBit 7 then 0x80 else 0 :=
    Bits.forall_byte (by decide +kernel)
  have htop : ∀ b : UInt8, (b <<< 1).toNat.testBit 7 = b.toNat.testBit 6 :=
    Bits.forall_byte (by decide +kernel)
  have hcond : (d ^^^ crc <<< 1) &&& 0x80 ≠ 0 ↔
      (d.toNat.testBit 7 != crc.toNat.testBit 6) = true := by
    rw [hmask, UInt8.toNat_xor, Nat.testBit_xor, htop]
    cases d.toNat.testBit 7 <;> cases crc.toNat.testBit 6 <;> decide
  simp only [crc7Bit, crc7Step, hcond]

def byteBits (b : UInt8) : List Bool := (List.range 8).map fun i => b.toNat.testBit (7 - i)

theorem foldl_crc7Bit (crc d : UInt8) :
    ((List.range 8).foldl (fun s _ => crc7Bit s) (crc, d)).1 = (byteBits d).foldl crc7Step crc := by
  have hshift : ∀ b : UInt8, (b <<< 1).toNat.testBit 7 = b.toNat.testBit 6 ∧
      (b <<< 1).toNat.testBit 6 = b.toNat.testBit 5 ∧
      (b <<< 1).toNat.testBit 5 = b.toNat.testBit 4 ∧
      (b <<< 1).toNat.testBit 4 = b.toNat.testBit 3 ∧
      (b <<< 1).toNat.testBit 3 = b.toNat.testBit 2 ∧
      (b <<< 1).toNat.testBit 2 = b.toNat.testBit 1 ∧
      (b <<< 1).toNat.testBit 1 = b.toNat.testBit 0 :=
    Bits.forall_byte (by decide +kernel)
  have hrange : List.range 8 = [0, 1, 2, 3, 4, 5, 6, 7] := rfl
  simp only [byteBits, hrange, List.map_cons, List.map_nil, List.foldl_cons, List.foldl_nil,
    crc7Bit_eq, hshift, Nat.reduceSub]

theorem bitCoeff_xor (a b : Bool) : bitCoeff (a != b) = bitCoeff a + bitCoeff b := by
  cases a <;> cases b <;> decide

theorem testBit_crc7Step (crc : UInt8) (bit : Bool) :
    (crc7Step crc bit).toNat.testBit 0 = (crc.toNat.testBit 6 != bit) ∧
      (crc7Step crc bit).toNat.testBit 1 = crc.toNat.testBit 0 ∧
      (crc7Step crc bit).toNat.testBit 2 = crc.toNat.testBit 1 ∧
      (crc7Step crc bit).toNat.testBit 3 =
        (crc.toNat.testBit 2 != (crc.toNat.testBit 6 != bit)) ∧
      (crc7Step crc bit).toNat.testBit 4 = crc.toNat.testBit 3 ∧
      (crc7Step crc bit).toNat.testBit 5 = crc.toNat.testBit 4 ∧
      (crc7Step crc bit).toNat.testBit 6 = crc.toNat.testBit 5 := by
  revert crc
  cases bit with
  | false => exact Bits.forall_byte (by decide +kernel)
  | true => exact Bits.forall_byte (by decide +kernel)

noncomputable def crc7Low : (ZMod 2)[X] := X ^ 3 + 1

theorem degree_crc7Low : crc7Low.degree < (7 : Nat) := by
  rw [crc7Low, ← C_1, degree_X_pow_add_C (by decide)]
  exact Nat.cast_lt.mpr (by decide)

/-- A step of the loop is a step of the division. -/
theorem bitPoly_crc7Step (crc : UInt8) (bit : Bool) (m : (ZMod 2)[X])
    (h : bitPoly 7 crc = Crc.remainder 7 crc7Low m) :
    bitPoly 7 (crc7Step crc bit) = Crc.remainder 7 crc7Low (m * X + C (bitCoeff bit)) := by
  have hcoeff : (bitPoly 7 crc).coeff (7 - 1) = bitCoeff (crc.toNat.testBit 6) := by
    simp [bitPoly, Finset.sum_range_succ, coeff_X_pow]
  rw [Crc.remainder_mul_X_add_C (by decide) degree_crc7Low, ← h, hcoeff, ← bitCoeff_xor,
    CharTwo.sub_eq_add]
  simp only [bitPoly, Finset.sum_range_succ, Finset.sum_range_zero, testBit_crc7Step, bitCoeff_xor,
    crc7Low, C_add]
  ring

theorem foldl_byteBits (m : (ZMod 2)[X]) (b : UInt8) :
    (byteBits b).foldl (fun m bit => m * X + C (bitCoeff bit)) m = m * X ^ 8 + bitPoly 8 b := by
  have hrange : List.range 8 = [0, 1, 2, 3, 4, 5, 6, 7] := rfl
  simp only [byteBits, hrange, List.map_cons, List.map_nil, List.foldl_cons, List.foldl_nil,
    bitPoly, Finset.sum_range_succ, Finset.sum_range_zero, Nat.reduceSub]
  ring

theorem bitPoly_foldl (bits : List Bool) (crc : UInt8) (m : (ZMod 2)[X])
    (h : bitPoly 7 crc = Crc.remainder 7 crc7Low m) :
    bitPoly 7 (bits.foldl crc7Step crc) =
      Crc.remainder 7 crc7Low (bits.foldl (fun m bit => m * X + C (bitCoeff bit)) m) := by
  induction bits generalizing crc m with
  | nil => exact h
  | cons bit bits ih => exact ih _ _ (bitPoly_crc7Step crc bit m h)

/-- The register after the bytes holds the remainder of the message read so far. -/
theorem bitPoly_data (data : List UInt8) (crc : UInt8) (m : (ZMod 2)[X])
    (h : bitPoly 7 crc = Crc.remainder 7 crc7Low m) :
    bitPoly 7 (data.foldl
        (fun crc d => ((List.range 8).foldl (fun s _ => crc7Bit s) (crc, d)).1) crc) =
      Crc.remainder 7 crc7Low (data.foldl (fun m b => m * X ^ 8 + bitPoly 8 b) m) := by
  induction data generalizing crc m with
  | nil => exact h
  | cons d data ih =>
    rw [List.foldl_cons, List.foldl_cons, foldl_crc7Bit, ← foldl_byteBits]
    exact ih _ _ (bitPoly_foldl (byteBits d) crc m h)

theorem crc7_eq (data : List UInt8) :
    ∃ r : UInt8, r < 0x80 ∧ bitPoly 7 r = (messagePoly data * X ^ 7) %ₘ crc7Poly ∧
      crc7 data = r <<< 1 ||| 1 := by
  have hzero : bitPoly 7 0 = Crc.remainder 7 crc7Low 0 := by
    rw [Crc.remainder_zero]
    simp [bitPoly, bitCoeff]
  have hcrc := bitPoly_data data 0 0 hzero
  have hpoly : crc7Poly = X ^ 7 + crc7Low := add_assoc ..
  rw [crc7, messagePoly, hpoly]
  generalize data.foldl
    (fun crc d => ((List.range 8).foldl (fun s _ => crc7Bit s) (crc, d)).1) 0 = crc at hcrc
  have hlow : ∀ b : UInt8, b &&& 0x7F < 0x80 ∧ (b &&& 0x7F) <<< 1 = b <<< 1 :=
    Bits.forall_byte (by decide +kernel)
  have hbits : ∀ b : UInt8, ∀ i : Fin 7,
      (b &&& 0x7F).toNat.testBit i.val = b.toNat.testBit i.val :=
    Bits.forall_byte (by decide +kernel)
  have hsame : bitPoly 7 (crc &&& 0x7F) = bitPoly 7 crc := by
    refine Finset.sum_congr rfl fun i hi => ?_
    rw [hbits crc ⟨i, Finset.mem_range.mp hi⟩]
  exact ⟨crc &&& 0x7F, (hlow crc).1, hsame.trans hcrc, by rw [(hlow crc).2]⟩

theorem payloadBytes_eq (payload : UInt32) :
    payloadBytes payload = (Bytes.le32 payload).reverse := by
  have h24 : UInt32.toNat 24 % 32 = 24 := rfl
  have h16 : UInt32.toNat 16 % 32 = 16 := rfl
  have h8 : UInt32.toNat 8 % 32 = 8 := rfl
  have hbyte : ∀ x : UInt32, x.toUInt8 = UInt8.ofNat x.toNat := fun _ => rfl
  simp only [payloadBytes, Bytes.le32, hbyte, UInt32.toNat_shiftRight, h24, h16, h8,
    Nat.shiftRight_eq_div_pow]
  rfl

theorem commandBody_eq {cmd : SdCommand} {code : UInt8 × Bool} (h8 : cmd ≠ .cmd8)
    (hcode : cmd.code = some code) (payload : UInt32) :
    code.1 :: payloadBytes (if code.2 then payload else 0) = commandBody cmd payload := by
  rw [payloadBytes_eq]
  cases cmd <;> first | exact absurd rfl h8 | (cases hcode <;> rfl)

theorem createCommand_of_code {cmd : SdCommand} {code : UInt8 × Bool} (h0 : cmd ≠ .cmd0)
    (h8 : cmd ≠ .cmd8) (hcode : cmd.code = some code) (payload : UInt32) :
    createCommand cmd payload =
      some (0xFF :: commandBody cmd payload ++ [crc7 (commandBody cmd payload)]) := by
  rw [← commandBody_eq h8 hcode, createCommand.eq_def]
  split
  · exact absurd rfl h0
  · exact absurd rfl h8
  · rw [hcode, Option.map_some]

theorem createCommand_eq (cmd : SdCommand) (payload : UInt32) :
    createCommand cmd payload =
      if cmd = .cmd1 then none
      else some (0xFF :: commandBody cmd payload ++ [crc7 (commandBody cmd payload)]) := by
  have hbody0 : commandBody .cmd0 payload = [0x40, 0x00, 0x00, 0x00, 0x00] := by
    change (0x40 ||| 0) :: (Bytes.le32 0).reverse = _
    decide +kernel
  have hbody8 : commandBody .cmd8 payload = [0x48, 0x00, 0x00, 0x01, 0xAA] := by
    change (0x40 ||| 8) :: (Bytes.le32 0x1AA).reverse = _
    decide +kernel
  have h0 : crc7 [0x40, 0x00, 0x00, 0x00, 0x00] = 0x95 := by decide +kernel
  have h8 : crc7 [0x48, 0x00, 0x00, 0x01, 0xAA] = 0x87 := by decide +kernel
  cases cmd with
  | cmd0 => rw [hbody0, h0]; rfl
  | cmd8 => rw [hbody8, h8]; rfl
  | cmd1 => rfl
  | _ =>
    rw [if_neg (by decide)]
    exact createCommand_of_code (by decide) (by decide) rfl payload

/-- The checksum is the CRC-7 of the standard, and every frame is built as documented. -/
theorem command_frames :
    (∀ data, ∃ r : UInt8, r < 0x80 ∧ bitPoly 7 r = (messagePoly data * X ^ 7) %ₘ crc7Poly ∧
      crc7 data = r <<< 1 ||| 1) ∧
    ∀ cmd payload, createCommand cmd payload =
      if cmd = .cmd1 then none
      else some (0xFF :: commandBody cmd payload ++ [crc7 (commandBody cmd payload)]) :=
  ⟨crc7_eq, createCommand_eq⟩

end CanSniffer.Sd
