import XEdge.Lib.ShiftRegister
import XEdge.Modbus.Codec

/-!
# RTU framing (`xedge/drivers/modbus/rtu_codec.py`)

An RTU frame is an address byte, a PDU and a CRC-16, low byte first.
-/

namespace XEdge.Modbus

open Lib.ShiftRegister

def CRC_POLYNOMIAL : Nat := 0xA001

def CRC_INITIAL : Nat := 0xFFFF

def MIN_RTU_FRAME_LENGTH : Nat := 4

/-- The body of the inner loop of `compute_crc16`. -/
def crcShift (crc : Nat) : Nat :=
  if crc &&& 1 ≠ 0 then (crc >>> 1) ^^^ CRC_POLYNOMIAL else crc >>> 1

/-- The body of the outer loop of `compute_crc16`. -/
def crcByte (crc : Nat) (byte : UInt8) : Nat := (crcShift^[8]) (crc ^^^ byte.toNat)

def computeCrc16 (data : Bytes) : Nat := data.foldl crcByte CRC_INITIAL

def rtuFrame (address : Nat) (pdu : Bytes) : Bytes :=
  let body := UInt8.ofNat address :: pdu
  let crc := computeCrc16 body
  body ++ [UInt8.ofNat (crc &&& 0xFF), UInt8.ofNat ((crc >>> 8) &&& 0xFF)]

def encodeRtuFrame (address : Nat) (pdu : Bytes) : Except CodecError Bytes :=
  if address ≤ 255 then .ok (rtuFrame address pdu)
  else .error (.valueError ("address out of range: " ++ toString address))

/-- `decode_rtu_frame`: address and PDU. -/
def decodeRtuFrame (frame : Bytes) : Except CodecError (Nat × Bytes) :=
  if frame.length < MIN_RTU_FRAME_LENGTH then
    .error (.rtuFraming ("Frame too short for RTU framing: " ++ toString frame.length ++ " bytes"))
  else
    let body := frame.take (frame.length - 2)
    match body, frame.drop (frame.length - 2) with
    | address :: pdu, [c0, c1] =>
        let receivedCrc := c0.toNat ||| (c1.toNat <<< 8)
        let computedCrc := computeCrc16 body
        if receivedCrc ≠ computedCrc then
          .error (.rtuFraming ("CRC mismatch: received " ++ hex 4 receivedCrc ++ ", computed " ++
            hex 4 computedCrc))
        else .ok (address.toNat, pdu)
    -- a frame of at least four bytes has a body and two bytes after it
    | _, _ => .error .indexError

variable {frame pdu : Bytes}

theorem decodeRtuFrame_eq {a : Nat} (h : decodeRtuFrame frame = .ok (a, pdu)) :
    ∃ x crc, frame = x :: (pdu ++ crc) ∧ a = x.toNat := by
  unfold decodeRtuFrame at h
  split at h
  · cases h
  · simp only at h
    split at h
    · next x pdu' c0 c1 hbody hcrc =>
      split at h
      · cases h
      · cases h
        refine ⟨x, [c0, c1], ?_, rfl⟩
        rw [← List.cons_append, ← hbody, ← hcrc, List.take_append_drop]
    · cases h

/-! ## The shift register -/

theorem computeCrc16_eq (data : Bytes) :
    computeCrc16 data = (shift CRC_POLYNOMIAL)^[8 * data.length] (CRC_INITIAL ^^^ wire data) :=
  foldl_shift CRC_POLYNOMIAL CRC_INITIAL data

theorem crcByte_lt {crc : Nat} (h : crc < 2 ^ 16) (byte : UInt8) : crcByte crc byte < 2 ^ 16 := by
  have hbyte : byte.toNat < 2 ^ 16 := lt_trans byte.toNat_lt (by decide)
  exact iterate_shift_lt (by decide) (Nat.xor_lt_two_pow h hbyte) 8

theorem computeCrc16_lt (data : Bytes) : computeCrc16 data < 2 ^ 16 := by
  suffices h : ∀ crc < 2 ^ 16, data.foldl crcByte crc < 2 ^ 16 from h _ (by decide)
  intro crc hcrc
  induction data generalizing crc with
  | nil => exact hcrc
  | cons byte data ih => exact ih _ (crcByte_lt hcrc byte)

def residue (frame : Bytes) : Nat :=
  (shift CRC_POLYNOMIAL)^[8 * (frame.length - 2)] (CRC_INITIAL ^^^ wire frame)

theorem wire_crc (c0 c1 : UInt8) : wire [c0, c1] = c0.toNat ||| (c1.toNat <<< 8) := by
  apply Nat.eq_of_testBit_eq
  intro i
  by_cases hi : 8 ≤ i
  · simp [wire, testBit_toNat_of_le c0 hi]
  · simp [wire, hi]

theorem residue_append (body : Bytes) (c0 c1 : UInt8) :
    residue (body ++ [c0, c1]) = computeCrc16 body ^^^ (c0.toNat ||| (c1.toNat <<< 8)) := by
  have hlength : (body ++ [c0, c1]).length - 2 = body.length := by simp
  rw [residue, hlength, wire_append, ← Nat.xor_assoc, iterate_shift_xor, ← computeCrc16_eq,
    iterate_shift_shiftLeft, wire_crc]

theorem decodeRtuFrame_append (address : UInt8) (hpdu : pdu ≠ []) (c0 c1 : UInt8) :
    (residue (address :: pdu ++ [c0, c1]) = 0 →
      decodeRtuFrame (address :: pdu ++ [c0, c1]) = .ok (address.toNat, pdu)) ∧
    (residue (address :: pdu ++ [c0, c1]) ≠ 0 →
      ∃ message, decodeRtuFrame (address :: pdu ++ [c0, c1]) = .error (.rtuFraming message)) := by
  have hpos : 0 < pdu.length := List.length_pos_iff.2 hpdu
  have hshort : ¬ (address :: pdu ++ [c0, c1]).length < MIN_RTU_FRAME_LENGTH := by
    simp only [List.length_append, List.length_cons, List.length_nil, MIN_RTU_FRAME_LENGTH]
    omega
  have hlength : (address :: pdu ++ [c0, c1]).length - 2 = (address :: pdu).length := by simp
  rw [residue_append]
  unfold decodeRtuFrame
  rw [if_neg hshort]
  simp only [hlength, List.take_left', List.drop_left']
  constructor
  · intro hzero
    have heq := Nat.xor_eq_zero_iff.1 hzero
    rw [if_neg (not_not.2 heq.symm)]
  · intro hne
    have hdiffer : c0.toNat ||| (c1.toNat <<< 8) ≠ computeCrc16 (address :: pdu) := by
      intro heq
      exact hne (Nat.xor_eq_zero_iff.2 heq.symm)
    rw [if_pos hdiffer]
    exact ⟨_, rfl⟩

theorem decodeRtuFrame_of_residue_ne_zero (h : residue frame ≠ 0) :
    ∃ message, decodeRtuFrame frame = .error (.rtuFraming message) := by
  by_cases hshort : frame.length < MIN_RTU_FRAME_LENGTH
  · exact ⟨_, if_pos hshort⟩
  · have hlength : 4 ≤ frame.length := Nat.le_of_not_lt hshort
    obtain ⟨body, tail, rfl, htail⟩ : ∃ body tail, frame = body ++ tail ∧ tail.length = 2 :=
      ⟨_, _, (List.take_append_drop (frame.length - 2) frame).symm, by
        rw [List.length_drop]
        omega⟩
    obtain ⟨c0, c1, rfl⟩ := List.length_eq_two.1 htail
    cases body with
    | nil => simp at hlength
    | cons address pdu =>
      have hpdu : pdu ≠ [] := by
        rintro rfl
        simp at hlength
      exact (decodeRtuFrame_append address hpdu c0 c1).2 h

/-! ## Error detection -/

theorem residue_rtuFrame (address : Nat) (pdu : Bytes) : residue (rtuFrame address pdu) = 0 := by
  have hlt := computeCrc16_lt (UInt8.ofNat address :: pdu)
  rw [rtuFrame, residue_append, Nat.xor_eq_zero_iff]
  generalize computeCrc16 (UInt8.ofNat address :: pdu) = crc at hlt
  apply Nat.eq_of_testBit_eq
  intro i
  have hlow : (0xFF : Nat) = 2 ^ 8 - 1 := rfl
  simp only [UInt8.toNat_ofNat', hlow, Nat.testBit_or, Nat.testBit_shiftLeft,
    Nat.testBit_mod_two_pow, Nat.testBit_and, Nat.testBit_two_pow_sub_one, Nat.testBit_shiftRight]
  by_cases hi : i < 8
  · simp [hi, show ¬ 8 ≤ i by omega]
  · by_cases hi' : i < 16
    · simp [hi, show 8 ≤ i by omega, show i - 8 < 8 by omega]
    · have hclear : crc.testBit i = false := by
        apply Nat.testBit_lt_two_pow
        calc crc < 2 ^ 16 := hlt
          _ ≤ 2 ^ i := Nat.pow_le_pow_right (by omega) (by omega)
      simp [hi, show ¬ i - 8 < 8 by omega, hclear]

/-- The `i`-th bit of a frame on the wire, the least significant bit of each byte first. -/
def wireBit (frame : Bytes) (i : Nat) : Bool :=
  ((frame[i / 8]?).map fun b => b.toNat.testBit (i % 8)).getD false

/-- A frame arrives as another one of the same length, with all bits that differ among 16
consecutive ones. -/
structure Burst (sent received : Bytes) : Prop where
  length : received.length = sent.length
  differ : received ≠ sent
  window : ∃ first, ∀ i, wireBit received i ≠ wireBit sent i → first ≤ i ∧ i < first + 16

theorem Burst.residue_ne_zero {sent received : Bytes} (h : Burst sent received)
    (hsent : residue sent = 0) : residue received ≠ 0 := by
  obtain ⟨first, hwindow⟩ := h.window
  -- by linearity the residue of what was received is that of the error alone
  have herror : residue received = (shift CRC_POLYNOMIAL)^[8 * (sent.length - 2)]
      (wire received ^^^ wire sent) := by
    have hsum : CRC_INITIAL ^^^ wire received =
        (CRC_INITIAL ^^^ wire sent) ^^^ (wire received ^^^ wire sent) := by
      rw [Nat.xor_comm (wire received), ← Nat.xor_assoc, Nat.xor_assoc CRC_INITIAL, Nat.xor_self,
        Nat.xor_zero]
    rw [residue, h.length, hsum, iterate_shift_xor]
    rw [residue] at hsent
    rw [hsent, Nat.zero_xor]
  have hne : wire received ^^^ wire sent ≠ 0 := by
    intro hzero
    exact h.differ (wire_inj h.length (Nat.xor_eq_zero_iff.1 hzero))
  have hbits : ∀ i, (wire received ^^^ wire sent).testBit i = true →
      first ≤ i ∧ i < first + (15 + 1) := by
    intro i hi
    apply hwindow
    rw [Nat.testBit_xor, testBit_wire, testBit_wire] at hi
    exact bne_iff_ne.1 hi
  rw [herror]
  exact iterate_shift_burst (by decide) (by decide) hne hbits _

end XEdge.Modbus
