import XEdge.Lib.Cells
import XEdge.Modbus.Polling
import XEdge.Modbus.TagGroups

/-!
# A device

A device keeps bits and registers at addresses, for each function code that reads them.  It
answers a read with an exception exactly if an address in it has no value, and stores what is
written to coils and holding registers.  It is asked and answers in PDUs.
-/

namespace XEdge.Modbus

open Lib Lib.Cells

structure Memory where
  bits : FunctionCode → Nat → Option Bool
  registers : FunctionCode → Nat → Option UInt16
  exceptionCode : FunctionCode → Nat → Nat → UInt8

def blank : Memory := ⟨fun _ _ => none, fun _ _ => none, fun _ _ _ => 0x02⟩

/-! ## What the device answers -/

def bitsByte (bits : List Bool) : Nat := bits.foldr (fun b n => b.toNat + 2 * n) 0

def packBits (bits : List Bool) : Bytes :=
  (List.range ((bits.length + 7) / 8)).map fun k =>
    UInt8.ofNat (bitsByte ((bits.drop (8 * k)).take 8))

def packRegisters (registers : List UInt16) : Bytes := registers.flatMap fun r => packH r.toNat

def registersOf : Bytes → List UInt16
  | hi :: lo :: rest => UInt16.ofNat (unpackH hi lo) :: registersOf rest
  | _ => []

def readFunction (code : UInt8) : Option FunctionCode :=
  [FunctionCode.readCoils, .readDiscreteInputs, .readHoldingRegisters, .readInputRegisters].find?
    fun f => f.byte = code

namespace Memory

def data (mem : Memory) (f : FunctionCode) (address quantity : Nat) : Option Bytes :=
  if isBitFunction f then (fetch (mem.bits f) address quantity).map packBits
  else (fetch (mem.registers f) address quantity).map packRegisters

def answer (mem : Memory) (f : FunctionCode) (address quantity : Nat) : Bytes :=
  match mem.data f address quantity with
  | some data => f.byte :: UInt8.ofNat data.length :: data
  | none => [f.byte ||| EXCEPTION_RESPONSE_FLAG, mem.exceptionCode f address quantity]

def storeCoils (mem : Memory) (address : Nat) (values : List Bool) : Memory :=
  { mem with
    bits := fun f =>
      if f = .readCoils then store (mem.bits f) address values else mem.bits f }

def storeHolding (mem : Memory) (address : Nat) (values : List UInt16) : Memory :=
  { mem with
    registers := fun f =>
      if f = .readHoldingRegisters then store (mem.registers f) address values
      else mem.registers f }

def respond (mem : Memory) : Bytes → Memory × Bytes
  | [code, a1, a0, x1, x0] =>
      let address := unpackH a1 a0
      let argument := unpackH x1 x0
      match readFunction code with
      | some f => (mem, mem.answer f address argument)
      | none =>
          if code = FunctionCode.writeSingleCoil.byte then
            (mem.storeCoils address [argument = 0xFF00], [code, a1, a0, x1, x0])
          else if code = FunctionCode.writeSingleRegister.byte then
            (mem.storeHolding address [UInt16.ofNat argument], [code, a1, a0, x1, x0])
          else (mem, [code ||| EXCEPTION_RESPONSE_FLAG, 0x01])
  | code :: a1 :: a0 :: q1 :: q0 :: _ :: data =>
      if code = FunctionCode.writeMultipleRegisters.byte then
        -- there is nothing beyond the last address
        if unpackH a1 a0 + (registersOf data).length ≤ 65536 then
          (mem.storeHolding (unpackH a1 a0) (registersOf data), [code, a1, a0, q1, q0])
        else (mem, [code ||| EXCEPTION_RESPONSE_FLAG, 0x02])
      else (mem, [code ||| EXCEPTION_RESPONSE_FLAG, 0x01])
  | _ => (mem, [EXCEPTION_RESPONSE_FLAG, 0x01])

end Memory

/-- A request of the driver to a device in state `s`. -/
def exchange {σ : Type} (respond : σ → Bytes → σ × Bytes) (op : Op) (s : σ) :
    Except CodecError Response × σ :=
  match op.requestPdu with
  | .error e => (.error e, s)
  | .ok pdu => (op.decodeResponse (respond s pdu).2, (respond s pdu).1)

/-! ## Decoding what the device answers -/

theorem byte_and_flag (f : FunctionCode) : f.byte &&& EXCEPTION_RESPONSE_FLAG = 0 := by
  cases f <;> decide

theorem checkException_answer (f : FunctionCode) (rest : Bytes) :
    checkException (f.byte :: rest) = .ok () := by
  simp [checkException, byteAt, bind, Except.bind, byte_and_flag]

theorem checkException_rejected (f : FunctionCode) (code : UInt8) :
    checkException [f.byte ||| EXCEPTION_RESPONSE_FLAG, code] =
      .error (.modbusException f.value code.toNat) := by
  have hflag : (f.byte ||| EXCEPTION_RESPONSE_FLAG) &&& EXCEPTION_RESPONSE_FLAG ≠ 0 := by
    cases f <;> decide
  have hvalue : ((f.byte ||| EXCEPTION_RESPONSE_FLAG) &&& ~~~EXCEPTION_RESPONSE_FLAG).toNat =
      f.value := by
    cases f <;> decide
  simp only [checkException, byteAt, List.getElem?_cons_zero, bind, Except.bind, if_pos hflag,
    List.getElem?_cons_succ, hvalue]

section Bits

theorem bitsByte_lt (bits : List Bool) : bitsByte bits < 2 ^ bits.length := by
  induction bits with
  | nil => decide
  | cons b bits ih =>
    have hb := b.toNat_le
    have hcons : bitsByte (b :: bits) = b.toNat + 2 * bitsByte bits := rfl
    rw [hcons, List.length_cons, Nat.pow_succ]
    omega

theorem testBit_bitsByte (bits : List Bool) (i : Nat) :
    (bitsByte bits).testBit i = bits.getD i false := by
  induction bits generalizing i with
  | nil => simp [bitsByte]
  | cons b bits ih =>
    have hcons : bitsByte (b :: bits) = b.toNat + 2 * bitsByte bits := rfl
    rw [hcons]
    cases i with
    | zero => cases b <;> simp [Nat.testBit_zero]
    | succ i =>
      have hhalf : (b.toNat + 2 * bitsByte bits) / 2 = bitsByte bits := by
        have hb := b.toNat_le
        cases b
        · simp
        · omega
      rw [Nat.testBit_succ, hhalf, ih]
      rfl

theorem length_packBits (bits : List Bool) : (packBits bits).length = (bits.length + 7) / 8 := by
  simp [packBits]

variable {bits : List Bool}

theorem testBit_packBits {i : Nat} (h : i < bits.length) :
    ∃ b, (packBits bits)[i / 8]? = some b ∧ b.toNat.testBit (i % 8) = bits.getD i false := by
  refine ⟨UInt8.ofNat (bitsByte ((bits.drop (8 * (i / 8))).take 8)), ?_, ?_⟩
  · rw [packBits, List.getElem?_map, List.getElem?_range (by omega)]
    rfl
  · have hlength : ((bits.drop (8 * (i / 8))).take 8).length ≤ 8 := by simp
    have hlt : bitsByte ((bits.drop (8 * (i / 8))).take 8) < 256 :=
      (bitsByte_lt _).trans_le (Nat.pow_le_pow_right (by decide) hlength)
    have hmod : i % 8 < 8 := Nat.mod_lt _ (by decide)
    rw [UInt8.toNat_ofNat', Nat.mod_eq_of_lt hlt, testBit_bitsByte, List.getD_eq_getElem?_getD,
      List.getElem?_take_of_lt hmod, List.getElem?_drop, Nat.div_add_mod,
      List.getD_eq_getElem?_getD]

theorem decodeBitsResponse_of_bits {f : FunctionCode} {data : Bytes} (hlength : data.length < 256)
    (h : ∀ i < bits.length,
      ∃ b, data[i / 8]? = some b ∧ b.toNat.testBit (i % 8) = bits.getD i false) :
    decodeBitsResponse (f.byte :: UInt8.ofNat data.length :: data) bits.length = .ok bits := by
  have hcount : (UInt8.ofNat data.length).toNat = data.length := by
    rw [UInt8.toNat_ofNat', Nat.mod_eq_of_lt hlength]
  have hbit : ∀ i ∈ List.range bits.length,
      (byteAt data (i / 8) >>= fun b => pure (b.toNat.testBit (i % 8))) =
        (.ok (bits.getD i false) : Except CodecError Bool) := by
    intro i hi
    obtain ⟨b, hb, htest⟩ := h i (List.mem_range.1 hi)
    rw [byteAt, hb, ← htest]
    rfl
  have hall : (List.range bits.length).map (fun i => bits.getD i false) = bits := by
    refine List.ext_getElem (by simp) fun i hi _ => ?_
    simp at hi
    simp [hi]
  rw [decodeBitsResponse, checkException_answer]
  show ((List.range bits.length).mapM fun i =>
    byteAt (data.take (UInt8.ofNat data.length).toNat) (i / 8) >>=
      fun b => pure (b.toNat.testBit (i % 8))) = _
  rw [hcount, List.take_length, mapM_eq_ok_map hbit, hall]

theorem decodeBitsResponse_answer {f : FunctionCode} (h : bits.length ≤ MAX_READ_BITS) :
    decodeBitsResponse (f.byte :: UInt8.ofNat (packBits bits).length :: packBits bits) bits.length =
      .ok bits := by
  refine decodeBitsResponse_of_bits ?_ fun i hi => testBit_packBits hi
  rw [length_packBits]
  rw [MAX_READ_BITS] at h
  omega

end Bits

/-! ## Coils as `encode_write_multiple_coils` packs them -/

section Coils

/-- Bit `n` of the packed bytes. -/
def coil (packed : Bytes) (n : Nat) : Bool := (packed.getD (n / 8) 0).toNat.testBit (n % 8)

variable {packed : Bytes} {n i : Nat}

theorem coil_modify (h : n < 8 * packed.length) :
    coil (packed.modify (i / 8) (· ||| UInt8.ofNat (1 <<< (i % 8)))) n =
      (coil packed n || decide (i = n)) := by
  have hbyte : n / 8 < packed.length := by omega
  simp only [coil, List.getD_eq_getElem?_getD, List.getElem?_modify,
    List.getElem?_eq_getElem hbyte]
  by_cases hsame : i / 8 = n / 8
  · have hiff : (i % 8 = n % 8) ↔ i = n := by omega
    have hlt : 2 ^ (i % 8) < 256 :=
      show _ < 2 ^ 8 from Nat.pow_lt_pow_right (by decide) (Nat.mod_lt _ (by decide))
    simp [hsame, UInt8.toNat_or, UInt8.toNat_ofNat', Nat.shiftLeft_eq, Nat.mod_eq_of_lt hlt,
      Nat.testBit_two_pow, hiff]
  · have hne : i ≠ n := fun h => hsame (h ▸ rfl)
    simp [hsame, hne]

theorem length_packCoils (values : List Bool) (i : Nat) (packed : Bytes) :
    (packCoils values i packed).length = packed.length := by
  induction values generalizing i packed with
  | nil => rfl
  | cons bit values ih =>
    rw [packCoils, ih]
    split
    · exact List.length_modify ..
    · rfl

theorem coil_packCoils (values : List Bool) (h : n < 8 * packed.length) :
    coil (packCoils values i packed) n =
      (coil packed n || (decide (i ≤ n) && values.getD (n - i) false)) := by
  induction values generalizing i packed with
  | nil => simp [packCoils]
  | cons bit values ih =>
    have hstep : coil (if bit then packed.modify (i / 8) (· ||| UInt8.ofNat (1 <<< (i % 8)))
        else packed) n = (coil packed n || (decide (i = n) && bit)) := by
      cases bit with
      | true => simpa using coil_modify h
      | false => simp
    rw [packCoils, ih (by split <;> simpa using h), hstep, Bool.or_assoc]
    rcases Nat.lt_trichotomy i n with hlt | rfl | hgt
    · obtain ⟨k, rfl⟩ : ∃ k, n = i + 1 + k := ⟨n - (i + 1), by omega⟩
      have hsub : i + 1 + k - i = k + 1 := by omega
      simp [hlt.ne, hlt.le, hsub]
    · simp
    · simp [hgt.ne', Nat.not_le.2 hgt, Nat.not_le.2 (Nat.lt_succ_of_lt hgt)]

theorem coilBytes_eq (quantity : Nat) : coilBytes quantity = (quantity + 7) / 8 := by
  rw [coilBytes]
  omega

theorem coil_packed (values : List Bool) (h : n < 8 * coilBytes values.length) :
    coil (packCoils values 0 (List.replicate (coilBytes values.length) 0)) n =
      values.getD n false := by
  rw [coil_packCoils values (by simpa using h)]
  simp [coil, List.getD_eq_getElem?_getD, List.getElem?_replicate]
  split <;> simp

/-- **What is packed for a write of coils is read back as the response to a read of them.** -/
theorem coils_round_trip {address : Int} {values : List Bool}
    (haddress : 0 ≤ address ∧ address ≤ 0xFFFF)
    (hlength : 1 ≤ values.length ∧ values.length ≤ 1968) :
    ∃ data, encodeWriteMultipleCoils address values =
        .ok (FunctionCode.writeMultipleCoils.byte ::
          (packH address.toNat ++ packH values.length ++ [UInt8.ofNat data.length] ++ data)) ∧
      decodeBitsResponse (FunctionCode.readCoils.byte :: UInt8.ofNat data.length :: data)
        values.length = .ok values ∧
      data.length = (values.length + 7) / 8 ∧
      ∀ n, values.length ≤ n → n < 8 * data.length → coil data n = false := by
  have hbytes : (packCoils values 0 (List.replicate (coilBytes values.length) 0)).length =
      coilBytes values.length := by rw [length_packCoils, List.length_replicate]
  refine ⟨packCoils values 0 (List.replicate (coilBytes values.length) 0), ?_, ?_, ?_, ?_⟩
  · rw [encodeWriteMultipleCoils, checkAddress_of_ok haddress, hbytes]
    exact if_neg (not_not.2 hlength)
  · refine decodeBitsResponse_of_bits (by rw [hbytes, coilBytes_eq]; omega) fun i hi => ?_
    have hbyte : i < 8 * coilBytes values.length := by rw [coilBytes_eq]; omega
    refine ⟨_, List.getElem?_eq_getElem (by omega), ?_⟩
    rw [← coil_packed values hbyte, coil, List.getD_eq_getElem _ _ (by omega)]
  · rw [hbytes, coilBytes_eq]
  · intro n hn hlt
    rw [coil_packed values (hbytes ▸ hlt), List.getD_eq_default _ _ hn]

theorem coils_round_trip_ten : ∃ data, data.length = 2 ∧
    decodeBitsResponse (FunctionCode.readCoils.byte :: UInt8.ofNat data.length :: data) 10 =
      .ok (List.replicate 10 true) := by
  obtain ⟨data, -, hread, hlength, -⟩ :=
    @coils_round_trip 3 (List.replicate 10 true) (by decide) (by decide)
  exact ⟨data, hlength, hread⟩

end Coils

section Registers

theorem length_packRegisters (registers : List UInt16) :
    (packRegisters registers).length = 2 * registers.length := by
  simp [packRegisters, packH, List.length_flatMap, Nat.mul_comm]

theorem unpackH_packH_toNat (r : UInt16) :
    unpackH (UInt8.ofNat (r.toNat / 256)) (UInt8.ofNat r.toNat) = r.toNat :=
  unpackH_packH r.toNat_lt

theorem packRegisters_cons (r : UInt16) (registers : List UInt16) :
    packRegisters (r :: registers) =
      UInt8.ofNat (r.toNat / 256) :: UInt8.ofNat r.toNat :: packRegisters registers := rfl

theorem unpackAll_packRegisters (registers : List UInt16) :
    unpackAll (packRegisters registers) = .ok (registers.map UInt16.toNat) := by
  induction registers with
  | nil => rfl
  | cons r registers ih =>
    rw [packRegisters_cons, unpackAll, ih, unpackH_packH_toNat]
    rfl

theorem registersOf_packRegisters (registers : List UInt16) :
    registersOf (packRegisters registers) = registers := by
  induction registers with
  | nil => rfl
  | cons r registers ih =>
    rw [packRegisters_cons, registersOf, ih, unpackH_packH_toNat, UInt16.ofNat_toNat]

theorem decodeRegistersResponse_answer {f : FunctionCode} {registers : List UInt16}
    (h : registers.length ≤ MAX_READ_REGISTERS) :
    decodeRegistersResponse (f.byte :: UInt8.ofNat (packRegisters registers).length ::
      packRegisters registers) = .ok (registers.map UInt16.toNat) := by
  have hcount : (UInt8.ofNat (packRegisters registers).length).toNat = 2 * registers.length := by
    rw [UInt8.toNat_ofNat', length_packRegisters]
    rw [MAX_READ_REGISTERS] at h
    omega
  have hdata : (packRegisters registers).take
      (UInt8.ofNat (packRegisters registers).length).toNat = packRegisters registers := by
    rw [hcount, ← length_packRegisters, List.take_length]
  rw [decodeRegistersResponse, checkException_answer]
  show (if ((packRegisters registers).take
      (UInt8.ofNat (packRegisters registers).length).toNat).length =
        2 * ((UInt8.ofNat (packRegisters registers).length).toNat / 2)
    then unpackAll ((packRegisters registers).take
      (UInt8.ofNat (packRegisters registers).length).toNat)
    else Except.error CodecError.structError) = _
  rw [hdata, hcount, Nat.mul_div_cancel_left _ (by decide), length_packRegisters, if_pos rfl,
    unpackAll_packRegisters]

end Registers

/-! ## What a request comes to -/

namespace Memory

def values (mem : Memory) (f : FunctionCode) (address quantity : Nat) : Option Response :=
  if isBitFunction f then (fetch (mem.bits f) address quantity).map .bits
  else (fetch (mem.registers f) address quantity).map fun rs => .registers (rs.map UInt16.toNat)

def Mapped (mem : Memory) (f : FunctionCode) (address : Nat) : Prop :=
  if isBitFunction f then mem.bits f address ≠ none else mem.registers f address ≠ none

theorem values_eq_none_iff {mem : Memory} {f : FunctionCode} {address quantity : Nat} :
    mem.values f address quantity = none ↔
      ∃ z, address ≤ z ∧ z < address + quantity ∧ ¬ mem.Mapped f z := by
  rw [values]
  split
  · next hbit => simp [fetch_eq_none_iff, Mapped, hbit]
  · next hbit => simp [fetch_eq_none_iff, Mapped, hbit]

end Memory

theorem readFunction_byte (name : FunctionName) :
    readFunction (FUNCTION_CODE_BY_NAME name).byte = some (FUNCTION_CODE_BY_NAME name) := by
  cases name <;> decide

variable {quantity : Int}

theorem decodeResponse_answer {f : FunctionCode} (mem : Memory) (address : Nat)
    (given : Int) (h : quantity ≤ maxReadQuantity f) :
    (Op.readBlock f given quantity).decodeResponse (mem.answer f address quantity.toNat) =
      match mem.values f address quantity.toNat with
      | some values => .ok values
      | none => .error (.modbusException f.value
          (mem.exceptionCode f address quantity.toNat).toNat) := by
  rw [Op.decodeResponse, Memory.answer, Memory.data, Memory.values]
  rw [maxReadQuantity] at h
  by_cases hbit : isBitFunction f
  · simp only [if_pos hbit] at h ⊢
    cases hfetch : fetch (mem.bits f) address quantity.toNat with
    | none =>
      simp only [Option.map_none]
      rw [decodeBitsResponse, checkException_rejected]
      rfl
    | some bits =>
      have hlength := length_of_fetch hfetch
      simp only [Option.map_some]
      rw [← hlength, decodeBitsResponse_answer (by omega)]
      rfl
  · simp only [if_neg hbit] at h ⊢
    cases hfetch : fetch (mem.registers f) address quantity.toNat with
    | none =>
      simp only [Option.map_none]
      rw [decodeRegistersResponse, checkException_rejected]
      rfl
    | some registers =>
      have hlength := length_of_fetch hfetch
      simp only [Option.map_some]
      rw [decodeRegistersResponse_answer (by omega)]
      rfl

variable {address : Int}

theorem exchange_readBlock {name : FunctionName} (mem : Memory)
    (h : ReadRequestOk (FUNCTION_CODE_BY_NAME name) address quantity) :
    exchange Memory.respond (.readBlock (FUNCTION_CODE_BY_NAME name) address quantity) mem =
      (match mem.values (FUNCTION_CODE_BY_NAME name) address.toNat quantity.toNat with
        | some values => .ok values
        | none => .error (.modbusException (FUNCTION_CODE_BY_NAME name).value
            (mem.exceptionCode (FUNCTION_CODE_BY_NAME name) address.toNat quantity.toNat).toNat),
        mem) := by
  have hfunction := readFunction_byte name
  generalize FUNCTION_CODE_BY_NAME name = f at h hfunction ⊢
  have hquantity : quantity.toNat < 65536 := by
    have hmax : maxReadQuantity f ≤ 2000 := by cases f <;> decide
    have := h.2.1.2
    omega
  have hrespond : mem.respond (f.byte :: (packH address.toNat ++ packH quantity.toNat)) =
      (mem, mem.answer f address.toNat quantity.toNat) := by
    show mem.respond [f.byte, UInt8.ofNat (address.toNat / 256), UInt8.ofNat address.toNat,
      UInt8.ofNat (quantity.toNat / 256), UInt8.ofNat quantity.toNat] = _
    simp only [Memory.respond, hfunction]
    rw [unpackH_packH (by have := h.1; omega), unpackH_packH hquantity]
  rw [exchange, Op.requestPdu, encodeReadRequest_of_ok h]
  simp only [hrespond]
  rw [decodeResponse_answer mem _ _ h.2.1.2]

theorem decodeEcho_echo (f : FunctionCode) (a1 a0 x1 x0 : UInt8) :
    decodeEcho [f.byte, a1, a0, x1, x0] = .ok (unpackH a1 a0, unpackH x1 x0) := by
  rw [decodeEcho, checkException_answer]
  rfl

theorem exchange_writeRegister (h : 0 ≤ address ∧ address ≤ 65535) (r : UInt16) (mem : Memory) :
    exchange Memory.respond (.writeRegister address r.toNat) mem =
      (.ok .confirmed, mem.storeHolding address.toNat [r]) := by
  have hr := r.toNat_lt
  have hpdu : (Op.writeRegister address r.toNat).requestPdu =
      .ok [FunctionCode.writeSingleRegister.byte, UInt8.ofNat (address.toNat / 256),
        UInt8.ofNat address.toNat, UInt8.ofNat (r.toNat / 256), UInt8.ofNat r.toNat] := by
    exact encodeWriteSingleRegister_of_ok h (by omega)
  have hfunction : readFunction FunctionCode.writeSingleRegister.byte = none := by decide
  have hrespond : mem.respond [FunctionCode.writeSingleRegister.byte,
      UInt8.ofNat (address.toNat / 256), UInt8.ofNat address.toNat, UInt8.ofNat (r.toNat / 256),
      UInt8.ofNat r.toNat] = (mem.storeHolding address.toNat [r],
        [FunctionCode.writeSingleRegister.byte, UInt8.ofNat (address.toNat / 256),
          UInt8.ofNat address.toNat, UInt8.ofNat (r.toNat / 256), UInt8.ofNat r.toNat]) := by
    simp only [Memory.respond, hfunction]
    rw [if_neg (by decide), if_pos trivial, unpackH_packH (by omega), unpackH_packH_toNat,
      UInt16.ofNat_toNat]
  rw [exchange, hpdu]
  simp only [hrespond, Op.decodeResponse, decodeWriteSingleResponse, decodeEcho_echo]
  rfl

variable {registers : List UInt16}

theorem requestPdu_writeRegisters (h : 0 ≤ address ∧ address ≤ 65535)
    (hlength : 1 ≤ registers.length ∧ registers.length ≤ 123) :
    (Op.writeRegisters address (registers.map fun r => (r.toNat : Int))).requestPdu =
      .ok (FunctionCode.writeMultipleRegisters.byte :: UInt8.ofNat (address.toNat / 256) ::
        UInt8.ofNat address.toNat :: UInt8.ofNat (registers.length / 256) ::
        UInt8.ofNat registers.length :: UInt8.ofNat (registers.length * 2) ::
        packRegisters registers) := by
  have hvalues : ∀ v ∈ registers.map fun r => (r.toNat : Int), 0 ≤ v ∧ v ≤ 0xFFFF := by
    intro v hv
    obtain ⟨r, -, rfl⟩ := List.mem_map.1 hv
    have hr := r.toNat_lt
    omega
  have hpacked : ((registers.map fun r => (r.toNat : Int)).flatMap fun v => packH v.toNat) =
      packRegisters registers := by
    rw [List.flatMap_map]
    rfl
  rw [Op.requestPdu, encodeWriteMultipleRegisters_of_ok h (by rwa [List.length_map]) hvalues,
    List.length_map, hpacked]
  rfl

theorem exchange_writeRegisters (h : 0 ≤ address ∧ address ≤ 65535)
    (hlength : 1 ≤ registers.length ∧ registers.length ≤ 123) (mem : Memory) :
    exchange Memory.respond (.writeRegisters address (registers.map fun r => (r.toNat : Int))) mem =
      if address.toNat + registers.length ≤ 65536 then
        (.ok .confirmed, mem.storeHolding address.toNat registers)
      else (.error (.modbusException 0x10 0x02), mem) := by
  rw [exchange, requestPdu_writeRegisters h hlength]
  simp only [Memory.respond, if_true, registersOf_packRegisters]
  rw [unpackH_packH (by omega)]
  split
  · rfl
  · rfl

theorem values_storeHolding (mem : Memory) (address : Nat) (registers : List UInt16) :
    (mem.storeHolding address registers).values .readHoldingRegisters address registers.length =
      some (.registers (registers.map UInt16.toNat)) := by
  have hfetch : fetch ((mem.storeHolding address registers).registers .readHoldingRegisters) address
      registers.length = some registers := fetch_store address registers
  rw [Memory.values, if_neg (by decide), hfetch]
  rfl

end XEdge.Modbus
