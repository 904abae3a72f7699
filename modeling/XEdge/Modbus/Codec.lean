import XEdge.Lib.Except

/-!
# The Modbus codec (`xedge/drivers/modbus/codec.py`)

Requests and responses as bytes, and the MBAP header that frames them over TCP.
Python's `struct` is spelt out: `packH` and `unpackH` are the big-endian 16-bit
fields.  Every way a function of the codec can raise is a constructor of
`CodecError`, the `IndexError` and `struct.error` of a short PDU included.
-/

namespace XEdge.Modbus

open Lib

/-- Python `bytes`. -/
abbrev Bytes := List UInt8

/-! ## Constants -/

def MBAP_HEADER_LENGTH : Nat := 7

def PROTOCOL_IDENTIFIER_MODBUS : Nat := 0

def EXCEPTION_RESPONSE_FLAG : UInt8 := 0x80

def MAX_READ_BITS : Nat := 2000

def MAX_READ_REGISTERS : Nat := 125

inductive FunctionCode where
  | readCoils
  | readDiscreteInputs
  | readHoldingRegisters
  | readInputRegisters
  | writeSingleCoil
  | writeSingleRegister
  | writeMultipleCoils
  | writeMultipleRegisters
  deriving DecidableEq, Repr

namespace FunctionCode

def value : FunctionCode → Nat
  | readCoils => 0x01
  | readDiscreteInputs => 0x02
  | readHoldingRegisters => 0x03
  | readInputRegisters => 0x04
  | writeSingleCoil => 0x05
  | writeSingleRegister => 0x06
  | writeMultipleCoils => 0x0F
  | writeMultipleRegisters => 0x10

def byte (f : FunctionCode) : UInt8 := UInt8.ofNat f.value

end FunctionCode

def isBitFunction : FunctionCode → Bool
  | .readCoils | .readDiscreteInputs => true
  | _ => false

def maxReadQuantity (functionCode : FunctionCode) : Nat :=
  if isBitFunction functionCode then MAX_READ_BITS else MAX_READ_REGISTERS

/-! ## Errors -/

/-- A number in lower-case hexadecimal, with `0x` and at least `digits` digits. -/
def hex (digits n : Nat) : String :=
  let ds := Nat.toDigits 16 n
  "0x" ++ String.ofList (List.replicate (digits - ds.length) '0' ++ ds)

inductive CodecError where
  /-- `ModbusFramingError`. -/
  | framing (message : String)
  /-- `ModbusException`: the device rejected the request. -/
  | modbusException (functionCode exceptionCode : Nat)
  /-- `ModbusRtuFramingError`, which is no `ModbusFramingError`. -/
  | rtuFraming (message : String)
  | valueError (message : String)
  | indexError
  /-- `struct.error`. -/
  | structError
  deriving DecidableEq, Repr

/-! ## Fields -/

def packH (n : Nat) : Bytes := [UInt8.ofNat (n / 256), UInt8.ofNat n]

def unpackH (hi lo : UInt8) : Nat := hi.toNat * 256 + lo.toNat

theorem unpackH_packH {n : Nat} (h : n < 65536) :
    unpackH (UInt8.ofNat (n / 256)) (UInt8.ofNat n) = n := by
  simp only [unpackH, UInt8.toNat_ofNat']
  omega

/-- `b[i]`. -/
def byteAt (b : Bytes) (i : Nat) : Except CodecError UInt8 :=
  match b[i]? with
  | some x => .ok x
  | none => .error .indexError

/-! ## MBAP frames -/

/-- The bytes of a frame: transaction id, protocol id, length, unit id, PDU. -/
def mbapFrame (transactionId unitId : Nat) (pdu : Bytes) : Bytes :=
  packH transactionId ++ packH PROTOCOL_IDENTIFIER_MODBUS ++ packH (pdu.length + 1) ++
    [UInt8.ofNat unitId] ++ pdu

def encodeMbap (transactionId unitId : Nat) (pdu : Bytes) : Except CodecError Bytes :=
  if transactionId ≤ 0xFFFF ∧ pdu.length + 1 ≤ 0xFFFF ∧ unitId ≤ 0xFF then
    .ok (mbapFrame transactionId unitId pdu)
  else .error .structError

/-- `decode_mbap`: transaction id, unit id, PDU. -/
def decodeMbap : Bytes → Except CodecError (Nat × Nat × Bytes)
  | t1 :: t0 :: p1 :: p0 :: l1 :: l0 :: u :: rest =>
      let protocolId := unpackH p1 p0
      let length := unpackH l1 l0
      -- a slice that ends before it starts is empty, as is the list taken for it here
      let pdu := rest.take (length - 1)
      if protocolId ≠ PROTOCOL_IDENTIFIER_MODBUS then
        .error (.framing ("Unexpected protocol identifier: " ++ hex 4 protocolId))
      else if (pdu.length : Int) ≠ (length : Int) - 1 then
        .error (.framing ("Truncated frame: expected " ++ toString ((length : Int) - 1) ++
          " PDU bytes, got " ++ toString pdu.length))
      else .ok (unpackH t1 t0, u.toNat, pdu)
  | frame =>
      .error (.framing ("Frame too short for MBAP header: " ++ toString frame.length ++ " bytes"))

def frameRemainderLength : Bytes → Except CodecError Int
  | [_, _, _, _, l1, l0, _] => .ok ((unpackH l1 l0 : Int) - 1)
  | header =>
      .error (.framing ("Expected " ++ toString MBAP_HEADER_LENGTH ++ "-byte MBAP header, got " ++
        toString header.length))

variable {t u : Nat} {pdu : Bytes}

theorem decodeMbap_mbapFrame (ht : t < 65536) (hu : u < 256)
    (hp : pdu.length + 1 < 65536) : decodeMbap (mbapFrame t u pdu) = .ok (t, u, pdu) := by
  have hu' : (UInt8.ofNat u).toNat = u := by
    rw [UInt8.toNat_ofNat']
    omega
  have hproto : unpackH (UInt8.ofNat (PROTOCOL_IDENTIFIER_MODBUS / 256))
      (UInt8.ofNat PROTOCOL_IDENTIFIER_MODBUS) = PROTOCOL_IDENTIFIER_MODBUS :=
    unpackH_packH (by decide)
  simp only [mbapFrame, packH, List.cons_append, List.nil_append, decodeMbap, hproto,
    unpackH_packH ht, unpackH_packH hp, hu', Nat.add_sub_cancel, List.take_length]
  simp

theorem decodeMbap_transactionId {frame : Bytes} (h : decodeMbap frame = .ok (t, u, pdu)) :
    ∃ t1 t0 rest, frame = t1 :: t0 :: rest ∧ t = unpackH t1 t0 := by
  unfold decodeMbap at h
  split at h
  · next t1 t0 p1 p0 l1 l0 w rest =>
    simp only at h
    split at h
    · cases h
    · split at h <;> cases h
      exact ⟨t1, t0, _, rfl, rfl⟩
  · cases h

/-! ## Requests -/

/-- `0 <= address <= 0xFFFF`, or the text of the `ValueError`. -/
def checkAddress (address : Int) : Except CodecError Unit :=
  if 0 ≤ address ∧ address ≤ 0xFFFF then .ok ()
  else .error (.valueError ("address out of range: " ++ toString address))

variable {address : Int}

theorem checkAddress_of_ok (h : 0 ≤ address ∧ address ≤ 65535) :
    checkAddress address = .ok () := if_pos h

def encodeReadRequest (functionCode : FunctionCode) (address quantity : Int) :
    Except CodecError Bytes := do
  checkAddress address
  let limit := maxReadQuantity functionCode
  if ¬ (1 ≤ quantity ∧ quantity ≤ limit) then
    .error (.valueError ("quantity out of range for FC" ++ hex 2 functionCode.value ++ ": " ++
      toString quantity ++ " (max " ++ toString limit ++ ")"))
  else if address + quantity - 1 > 0xFFFF then
    .error (.valueError ("read of " ++ toString quantity ++ " from address " ++ toString address ++
      " runs past the end of the 16-bit address space"))
  else
    .ok (functionCode.byte :: (packH address.toNat ++ packH quantity.toNat))

/-- What `encode_read_request` accepts. -/
def ReadRequestOk (functionCode : FunctionCode) (address quantity : Int) : Prop :=
  (0 ≤ address ∧ address ≤ 65535) ∧ (1 ≤ quantity ∧ quantity ≤ maxReadQuantity functionCode) ∧
    address + quantity ≤ 65536

instance (functionCode : FunctionCode) (address quantity : Int) :
    Decidable (ReadRequestOk functionCode address quantity) :=
  inferInstanceAs (Decidable (_ ∧ _))

variable {functionCode : FunctionCode} {quantity : Int}

theorem encodeReadRequest_of_ok (h : ReadRequestOk functionCode address quantity) :
    encodeReadRequest functionCode address quantity =
      .ok (functionCode.byte :: (packH address.toNat ++ packH quantity.toNat)) := by
  obtain ⟨haddress, hquantity, hend⟩ := h
  rw [encodeReadRequest, checkAddress, if_pos haddress]
  show (if _ then _ else _) = _
  rw [if_neg (not_not.2 hquantity), if_neg (by omega)]

theorem encodeReadRequest_isOk_iff :
    (∃ pdu, encodeReadRequest functionCode address quantity = .ok pdu) ↔
      ReadRequestOk functionCode address quantity := by
  refine ⟨?_, fun h => ⟨_, encodeReadRequest_of_ok h⟩⟩
  rintro ⟨pdu, h⟩
  obtain ⟨_, hcheck, h⟩ := bind_eq_ok.1 h
  unfold checkAddress at hcheck
  split at hcheck
  · next haddress =>
    simp only at h
    split at h
    · cases h
    · next hquantity =>
      split at h
      · cases h
      · next hend => exact ⟨haddress, not_not.1 hquantity, by omega⟩
  · cases hcheck

def encodeWriteSingleCoil (address : Int) (value : Bool) : Except CodecError Bytes := do
  checkAddress address
  .ok (FunctionCode.writeSingleCoil.byte ::
    (packH address.toNat ++ packH (if value then 0xFF00 else 0x0000)))

def encodeWriteSingleRegister (address value : Int) : Except CodecError Bytes := do
  checkAddress address
  if 0 ≤ value ∧ value ≤ 0xFFFF then
    .ok (FunctionCode.writeSingleRegister.byte ::
      (packH address.toNat ++ packH value.toNat))
  else .error (.valueError ("register value out of range: " ++ toString value))

def encodeWriteMultipleRegisters (address : Int) (values : List Int) :
    Except CodecError Bytes := do
  checkAddress address
  if ¬ (1 ≤ values.length ∧ values.length ≤ 123) then
    .error (.valueError ("quantity out of range: " ++ toString values.length))
  else if ∀ v ∈ values, 0 ≤ v ∧ v ≤ 0xFFFF then
    .ok (FunctionCode.writeMultipleRegisters.byte ::
      (packH address.toNat ++ packH values.length ++ [UInt8.ofNat (values.length * 2)] ++
        values.flatMap fun v => packH v.toNat))
  else .error .structError

def MAX_WRITE_COILS : Nat := 1968

/-- The loop of `encode_write_multiple_coils`, from coil `i` on. -/
def packCoils : List Bool → Nat → Bytes → Bytes
  | [], _, packed => packed
  | bit :: values, i, packed =>
    packCoils values (i + 1)
      (if bit then packed.modify (i / 8) (· ||| UInt8.ofNat (1 <<< (i % 8))) else packed)

/-- `byte_count`: the floor of the negation, negated. -/
def coilBytes (quantity : Nat) : Nat := (-(-(quantity : Int) / 8)).toNat

def encodeWriteMultipleCoils (address : Int) (values : List Bool) : Except CodecError Bytes := do
  checkAddress address
  if ¬ (1 ≤ values.length ∧ values.length ≤ MAX_WRITE_COILS) then
    .error (.valueError ("quantity out of range: " ++ toString values.length ++
      " (max " ++ toString MAX_WRITE_COILS ++ ")"))
  else
    let byteCount := coilBytes values.length
    .ok (FunctionCode.writeMultipleCoils.byte ::
      (packH address.toNat ++ packH values.length ++ [UInt8.ofNat byteCount] ++
        packCoils values 0 (List.replicate byteCount 0)))

theorem encodeWriteSingleRegister_of_ok {value : Int}
    (haddress : 0 ≤ address ∧ address ≤ 65535) (hvalue : 0 ≤ value ∧ value ≤ 0xFFFF) :
    encodeWriteSingleRegister address value = .ok (FunctionCode.writeSingleRegister.byte ::
      (packH address.toNat ++ packH value.toNat)) := by
  rw [encodeWriteSingleRegister, checkAddress_of_ok haddress]
  exact if_pos hvalue

theorem encodeWriteMultipleRegisters_of_ok {values : List Int}
    (haddress : 0 ≤ address ∧ address ≤ 65535) (hlength : 1 ≤ values.length ∧ values.length ≤ 123)
    (hvalues : ∀ v ∈ values, 0 ≤ v ∧ v ≤ 0xFFFF) :
    encodeWriteMultipleRegisters address values = .ok (FunctionCode.writeMultipleRegisters.byte ::
      (packH address.toNat ++ packH values.length ++ [UInt8.ofNat (values.length * 2)] ++
        values.flatMap fun v => packH v.toNat)) := by
  rw [encodeWriteMultipleRegisters, checkAddress_of_ok haddress]
  show (if _ then _ else _) = _
  rw [if_neg (not_not.2 hlength), if_pos hvalues]

/-! ## Responses -/

def checkException (pdu : Bytes) : Except CodecError Unit := do
  let functionCode ← byteAt pdu 0
  if functionCode &&& EXCEPTION_RESPONSE_FLAG ≠ 0 then
    let exceptionCode ← byteAt pdu 1
    .error (.modbusException (functionCode &&& ~~~EXCEPTION_RESPONSE_FLAG).toNat
      exceptionCode.toNat)
  else .ok ()

def decodeBitsResponse (pdu : Bytes) (quantity : Nat) : Except CodecError (List Bool) := do
  checkException pdu
  let byteCount ← byteAt pdu 1
  let data := (pdu.drop 2).take byteCount.toNat
  (List.range quantity).mapM fun i => do
    let b ← byteAt data (i / 8)
    pure (b.toNat.testBit (i % 8))

/-- `struct.unpack` of big-endian 16-bit fields, as many as there are bytes for. -/
def unpackAll : Bytes → Except CodecError (List Nat)
  | [] => .ok []
  | [_] => .error .structError
  | hi :: lo :: rest => do
      let values ← unpackAll rest
      .ok (unpackH hi lo :: values)

def decodeRegistersResponse (pdu : Bytes) : Except CodecError (List Nat) := do
  checkException pdu
  let byteCount ← byteAt pdu 1
  let data := (pdu.drop 2).take byteCount.toNat
  let count := byteCount.toNat / 2
  if data.length = 2 * count then unpackAll data else .error .structError

def decodeEcho (pdu : Bytes) : Except CodecError (Nat × Nat) := do
  checkException pdu
  match (pdu.drop 1).take 4 with
  | [a1, a0, v1, v0] => .ok (unpackH a1 a0, unpackH v1 v0)
  | _ => .error .structError

/-- `decode_write_single_response`: address and value. -/
def decodeWriteSingleResponse (pdu : Bytes) : Except CodecError (Nat × Nat) := decodeEcho pdu

/-- `decode_write_multiple_response`: address and quantity. -/
def decodeWriteMultipleResponse (pdu : Bytes) : Except CodecError (Nat × Nat) := decodeEcho pdu

theorem checkException_head (h : checkException pdu = .ok ()) :
    ∃ f rest, pdu = f :: rest ∧ f &&& EXCEPTION_RESPONSE_FLAG = 0 := by
  cases pdu with
  | nil => cases h
  | cons f rest =>
    refine ⟨f, rest, rfl, ?_⟩
    by_contra hflag
    simp only [checkException, byteAt, List.getElem?_cons_zero, bind, Except.bind,
      if_pos hflag] at h
    cases hb : (f :: rest)[1]? <;> rw [hb] at h <;> cases h

theorem decodeEcho_eq {address value : Nat} (h : decodeEcho pdu = .ok (address, value)) :
    ∃ f a1 a0 v1 v0 rest, pdu = f :: a1 :: a0 :: v1 :: v0 :: rest ∧ address = unpackH a1 a0 ∧
      value = unpackH v1 v0 := by
  obtain ⟨-, -, h⟩ := bind_eq_ok.1 h
  split at h
  · next a1 a0 v1 v0 hfields =>
    cases h
    match pdu, hfields with
    | f :: b1 :: b0 :: w1 :: w0 :: rest, hfields =>
      obtain ⟨rfl, rfl, rfl, rfl⟩ := hfields
      exact ⟨f, _, _, _, _, rest, rfl, rfl, rfl⟩
  · cases h

end XEdge.Modbus
