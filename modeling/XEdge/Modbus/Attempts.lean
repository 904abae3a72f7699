import XEdge.Lib.Retry
import XEdge.Modbus.Batching
import XEdge.Modbus.Framing

/-!
# Attempts at a block read (`_read_block` and `_read_block_with_retries`)

An attempt encodes the request, reads a frame off what arrives and decodes it; each of these may
raise.  `_read_block_with_retries` makes another attempt after some of the failures.
-/

namespace XEdge.Modbus

open Lib

/-! ## One attempt -/

section Attempt

variable {σ α : Type*}

def Transport.attempt (T : Transport σ α)
    (readFrame : Incoming → Except Failure (Bytes × Incoming)) (sent : Sent σ) (i : Incoming) :
    Except Failure Response := do
  let _ ← (T.encode sent).mapError .codec
  let (frame, _) ← readFrame i
  (T.decode sent frame).mapError .codec

/-- `ModbusTcpDriver._read_block`, with the transaction id it takes. -/
def tcpReadBlock (transactionId : Fin 65536) (job : Job) (i : Incoming) : Except Failure Response :=
  tcp.attempt Incoming.readMbap ⟨transactionId, job⟩ i

/-- `ModbusRtuOverTcpDriver._read_block`. -/
def rtuOverTcpReadBlock (job : Job) (i : Incoming) : Except Failure Response :=
  rtu.attempt Incoming.readRtu ⟨(), job⟩ i

/-- `SerialBusManager.read_block`. -/
def busReadBlock (job : Job) (i : Incoming) : Except Failure Response :=
  rtu.attempt Incoming.readRtu ⟨(), job⟩ i

end Attempt

/-! ## What malformed bytes do -/

def Response.count : Response → Nat
  | bits values => values.length
  | registers values => values.length
  | confirmed => 0

/-- So many values, a `ModbusException` or a `ModbusFramingError`. -/
def OrderlyDecode (quantity : Nat) : Except CodecError Response → Prop
  | .ok response => response.count = quantity
  | .error (.modbusException _ _) | .error (.framing _) => True
  | .error _ => False

def Orderly (quantity : Nat) : Except Failure Response → Prop
  | .ok response => OrderlyDecode quantity (.ok response)
  | .error (.codec e) => OrderlyDecode quantity (.error e)
  | .error _ => False

/-- A PDU that rejects the request, or has the data for so many values: bits in enough bytes, or
registers with a byte count for as many and no fewer bytes than that. -/
def PduAnswers (functionCode : FunctionCode) (quantity : Nat) : Bytes → Prop
  | code :: second :: data =>
      code &&& EXCEPTION_RESPONSE_FLAG ≠ 0 ∨
        if isBitFunction functionCode then quantity ≤ 8 * min second.toNat data.length
        else second.toNat / 2 = quantity ∧ min second.toNat data.length = 2 * quantity
  | _ => False

def Answered (functionCode : FunctionCode) (quantity : Nat) : Bytes → Prop
  | _ :: _ :: p1 :: p0 :: l1 :: l0 :: _ :: tail =>
      1 ≤ unpackH l1 l0 ∧ unpackH l1 l0 - 1 ≤ tail.length ∧
        (unpackH p1 p0 ≠ PROTOCOL_IDENTIFIER_MODBUS ∨
          PduAnswers functionCode quantity (tail.take (unpackH l1 l0 - 1)))
  | _ => False

section Decoders

theorem checkException_cons_cons (code second : UInt8) (data : Bytes) :
    checkException (code :: second :: data) =
      if code &&& EXCEPTION_RESPONSE_FLAG ≠ 0 then
        .error (.modbusException (code &&& ~~~EXCEPTION_RESPONSE_FLAG).toNat second.toNat)
      else .ok () := by
  simp only [checkException, byteAt, List.getElem?_cons_zero, List.getElem?_cons_succ, bind,
    Except.bind]

theorem bind_byteAt_short {β : Type} {pdu : Bytes} (h : pdu.length < 2)
    (rest : UInt8 → Except CodecError β) :
    (do checkException pdu; let b ← byteAt pdu 1; rest b) = .error .indexError := by
  rcases pdu with _ | ⟨code, _ | ⟨second, data⟩⟩
  · rfl
  · simp only [checkException, byteAt, List.getElem?_cons_zero, bind, Except.bind]
    by_cases hflag : code &&& EXCEPTION_RESPONSE_FLAG ≠ 0
    · rw [if_pos hflag]
      rfl
    · rw [if_neg hflag]
      rfl
  · simp at h

variable {data : Bytes} {i : Nat}

theorem byteAt_of_lt (h : i < data.length) :
    ∃ b, byteAt data i = .ok b := by
  rw [byteAt, List.getElem?_eq_getElem h]
  exact ⟨_, rfl⟩

theorem byteAt_of_le (h : data.length ≤ i) :
    byteAt data i = .error .indexError := by
  rw [byteAt, List.getElem?_eq_none h]

/-- Bit `i` of the data, as the decoder of a bit read takes it. -/
def bitAt (data : Bytes) (i : Nat) : Except CodecError Bool := do
  let b ← byteAt data (i / 8)
  pure (b.toNat.testBit (i % 8))

theorem bitAt_of_lt (h : i < 8 * data.length) :
    ∃ bit, bitAt data i = .ok bit := by
  have hbyte : i / 8 < data.length := by omega
  obtain ⟨b, hb⟩ := byteAt_of_lt hbyte
  exact ⟨_, bind_eq_ok.2 ⟨b, hb, rfl⟩⟩

theorem bitAt_of_le (h : 8 * data.length ≤ i) :
    bitAt data i = .error .indexError := by
  have hbyte : data.length ≤ i / 8 := by omega
  rw [bitAt, byteAt_of_le hbyte]
  rfl

theorem mapM_bits_orderly_iff (data : Bytes) (quantity : Nat) :
    OrderlyDecode quantity (Response.bits <$> (List.range quantity).mapM (bitAt data)) ↔
      quantity ≤ 8 * data.length := by
  by_cases hquantity : quantity ≤ 8 * data.length
  · have hbit : ∀ i ∈ List.range quantity, ∃ bit, bitAt data i = .ok bit ∧ True := by
      intro i hi
      obtain ⟨bit, hbit⟩ := bitAt_of_lt ((List.mem_range.1 hi).trans_le hquantity)
      exact ⟨bit, hbit, trivial⟩
    obtain ⟨bits, hbits, hall⟩ := exists_mapM_ok hbit
    rw [hbits]
    refine iff_of_true ?_ hquantity
    show bits.length = quantity
    rw [← hall.length_eq, List.length_range]
  · refine iff_of_false ?_ hquantity
    intro horderly
    cases h : (List.range quantity).mapM (bitAt data) with
    | ok bits =>
      -- the last bit has no byte
      have hall := mapM_eq_ok h
      have hlast : quantity - 1 < (List.range quantity).length := by
        rw [List.length_range]
        omega
      have hb := hall.get hlast (hall.length_eq ▸ hlast)
      rw [List.get_eq_getElem, List.getElem_range] at hb
      have hnone : bitAt data (quantity - 1) = .error .indexError := bitAt_of_le (by omega)
      cases hnone.symm.trans hb
    | error e =>
      rw [h] at horderly
      obtain ⟨i, -, hi⟩ := mapM_eq_error h
      rcases lt_or_ge i (8 * data.length) with hlt | hle
      · obtain ⟨bit, hbit⟩ := bitAt_of_lt hlt
        cases hbit.symm.trans hi
      · cases (bitAt_of_le hle).symm.trans hi
        exact horderly

theorem unpackAll_of_length {n : Nat} (h : data.length = 2 * n) :
    ∃ values, unpackAll data = .ok values ∧ values.length = n := by
  induction n generalizing data with
  | zero =>
    obtain rfl := List.length_eq_zero_iff.1 h
    exact ⟨[], rfl, rfl⟩
  | succ n ih =>
    obtain ⟨hi, data, rfl⟩ := List.exists_cons_of_length_eq_add_one h
    obtain ⟨lo, data, rfl⟩ := List.exists_cons_of_length_eq_add_one (Nat.succ.inj h)
    have hrest : data.length = 2 * n := by simpa [Nat.mul_succ] using h
    obtain ⟨values, hvalues, hlength⟩ := ih hrest
    refine ⟨unpackH hi lo :: values, ?_, by rw [List.length_cons, hlength]⟩
    rw [unpackAll, hvalues]
    rfl

theorem unpackAll_orderly_iff (data : Bytes) (byteCount quantity : Nat) :
    OrderlyDecode quantity (Response.registers <$>
      if data.length = 2 * (byteCount / 2) then unpackAll data else .error .structError) ↔
      byteCount / 2 = quantity ∧ data.length = 2 * quantity := by
  by_cases hdata : data.length = 2 * (byteCount / 2)
  · rw [if_pos hdata]
    obtain ⟨values, hvalues, hcount⟩ := unpackAll_of_length hdata
    rw [hvalues]
    show values.length = quantity ↔ _
    omega
  · rw [if_neg hdata]
    refine iff_of_false id ?_
    omega

theorem decodeResponse_orderly_iff (functionCode : FunctionCode) (address quantity : Int)
    (pdu : Bytes) :
    OrderlyDecode quantity.toNat ((Op.readBlock functionCode address quantity).decodeResponse pdu) ↔
      PduAnswers functionCode quantity.toNat pdu := by
  have hshort : pdu.length < 2 →
      (Op.readBlock functionCode address quantity).decodeResponse pdu = .error .indexError := by
    intro h
    rw [Op.decodeResponse]
    split
    · rw [decodeBitsResponse, bind_byteAt_short h]
      rfl
    · rw [decodeRegistersResponse, bind_byteAt_short h]
      rfl
  rcases pdu with _ | ⟨code, _ | ⟨second, data⟩⟩
  · rw [hshort (by simp)]
    exact iff_of_false id id
  · rw [hshort (by simp)]
    exact iff_of_false id id
  · by_cases hflag : code &&& EXCEPTION_RESPONSE_FLAG ≠ 0
    · refine iff_of_true ?_ (.inl hflag)
      rw [Op.decodeResponse]
      split
      · rw [decodeBitsResponse, checkException_cons_cons, if_pos hflag]
        trivial
      · rw [decodeRegistersResponse, checkException_cons_cons, if_pos hflag]
        trivial
    · have hlength : (data.take second.toNat).length = min second.toNat data.length :=
        List.length_take
      rw [PduAnswers, or_iff_right hflag, Op.decodeResponse]
      by_cases hbit : isBitFunction functionCode = true
      · rw [if_pos hbit, if_pos hbit, decodeBitsResponse, checkException_cons_cons, if_neg hflag,
          ← hlength]
        exact mapM_bits_orderly_iff (data.take second.toNat) quantity.toNat
      · rw [if_neg hbit, if_neg hbit, decodeRegistersResponse, checkException_cons_cons,
          if_neg hflag, ← hlength]
        exact unpackAll_orderly_iff (data.take second.toNat) second.toNat quantity.toNat

end Decoders

section Robustness

variable {transactionId : Fin 65536} {job : Job} {functionCode : FunctionCode}
  {address quantity : Int}

theorem tcp_encode_ok (transactionId : Fin 65536)
    (hop : job.op = .readBlock functionCode address quantity)
    (hrequest : ReadRequestOk functionCode address quantity) (hunit : job.unit ≤ 255) :
    ∃ frame, tcp.encode ⟨transactionId, job⟩ = .ok frame := by
  refine ⟨mbapFrame transactionId job.unit
    (functionCode.byte :: (packH address.toNat ++ packH quantity.toNat)), ?_⟩
  show (job.op.requestPdu >>= _) = _
  rw [hop, Op.requestPdu, encodeReadRequest_of_ok hrequest]
  show encodeMbap _ _ _ = _
  rw [encodeMbap, if_pos]
  simp [packH]
  omega

theorem not_orderly_failure (n : Nat) (ending : StreamEnd) :
    ¬ Orderly n (.error ending.failure) := by
  cases ending <;> exact id

theorem orderly_mapError (n : Nat) (x : Except CodecError Response) :
    Orderly n (x.mapError .codec) ↔ OrderlyDecode n x := by
  cases x <;> rfl

theorem not_answered_of_short {n : Nat} {bytes : Bytes}
    (h : bytes.length < MBAP_HEADER_LENGTH) : ¬ Answered functionCode n bytes := by
  unfold Answered
  split
  · simp [MBAP_HEADER_LENGTH] at h
    omega
  · exact id

theorem tcp_decode_orderly_iff (hop : job.op = .readBlock functionCode address quantity)
    {t1 t0 p1 p0 l1 l0 u : UInt8} {pdu : Bytes} (hlength : unpackH l1 l0 = pdu.length + 1) :
    OrderlyDecode quantity.toNat
        (tcp.decode ⟨transactionId, job⟩ (t1 :: t0 :: p1 :: p0 :: l1 :: l0 :: u :: pdu)) ↔
      unpackH p1 p0 ≠ PROTOCOL_IDENTIFIER_MODBUS ∨ PduAnswers functionCode quantity.toNat pdu := by
  simp only [tcp, decodeMbap, hlength, Nat.add_sub_cancel, List.take_length]
  by_cases hprotocol : unpackH p1 p0 ≠ PROTOCOL_IDENTIFIER_MODBUS
  · rw [if_pos hprotocol]
    exact iff_of_true trivial (.inl hprotocol)
  · rw [if_neg hprotocol, if_neg (by push_cast; omega), or_iff_right hprotocol]
    rw [hop]
    exact decodeResponse_orderly_iff functionCode address quantity pdu

/-- **What malformed bytes do.**  Whatever a peer sends in answer to a read that can be sent, the
attempt ends in as many values as were asked for, in `ModbusException` or in `ModbusFramingError`,
exactly if the bytes are a whole frame with an answer or with another protocol identifier. -/
theorem read_orderly_iff (hop : job.op = .readBlock functionCode address quantity)
    (hrequest : ReadRequestOk functionCode address quantity) (hunit : job.unit ≤ 255)
    (i : Incoming) :
    Orderly quantity.toNat (tcpReadBlock transactionId job i) ↔
      Answered functionCode quantity.toNat i.bytes := by
  obtain ⟨frame, hframe⟩ := tcp_encode_ok transactionId hop hrequest hunit
  obtain ⟨bytes, ending⟩ := i
  have hattempt : tcpReadBlock transactionId job ⟨bytes, ending⟩ =
      Incoming.readMbap ⟨bytes, ending⟩ >>= fun r =>
        (tcp.decode ⟨transactionId, job⟩ r.1).mapError .codec := by
    rw [tcpReadBlock, Transport.attempt, hframe]
    rfl
  rw [hattempt]
  rcases Incoming.header_cases bytes with hshort | ⟨t1, t0, p1, p0, l1, l0, u, tail, rfl⟩
  · rw [Incoming.readMbap_short ending hshort]
    exact iff_of_false (not_orderly_failure _ ending) (not_answered_of_short hshort)
  · rw [Incoming.readMbap_header, Answered]
    cases hlength : unpackH l1 l0 with
    | zero =>
      rw [Incoming.readexactly_negative _ (by decide)]
      refine iff_of_false id ?_
      omega
    | succ n =>
      rw [show ((n + 1 : Nat) : Int) - 1 = n by push_cast; ring, Nat.add_sub_cancel]
      by_cases hshort : tail.length < n
      · rw [Incoming.readexactly_short ending hshort]
        refine iff_of_false (not_orderly_failure _ ending) ?_
        omega
      · have hpdu : (tail.take n).length = n := List.length_take_of_le (Nat.not_lt.1 hshort)
        have hread := Incoming.readexactly_append ending (tail.take n) (tail.drop n)
          (n := n) (by rw [hpdu])
        rw [List.take_append_drop] at hread
        rw [hread]
        show Orderly _ ((tcp.decode _ _).mapError .codec) ↔ _
        rw [orderly_mapError, tcp_decode_orderly_iff hop (by rw [hlength, hpdu])]
        simp only [Nat.le_add_left, Nat.not_lt.1 hshort, true_and]

def readTwo : Job := ⟨1, .readBlock .readHoldingRegisters 0 2, 1, false, 0⟩

theorem read_orderly_iff_readTwo :
    Orderly 2 (tcpReadBlock 1 readTwo ⟨mbapFrame 1 1 [3, 4, 0, 7, 0, 8], .closed⟩) := by
  have hop : readTwo.op = .readBlock .readHoldingRegisters 0 2 := rfl
  have hpdu : PduAnswers .readHoldingRegisters 2 [3, 4, 0, 7, 0, 8] := .inr (by decide)
  exact (read_orderly_iff hop (by decide) (by decide) _).2 ⟨by decide, by decide, .inr hpdu⟩

/-- **Malformed answers.**  A frame without a PDU raises `IndexError`, one with half a register
`struct.error`, a header that announces no bytes `ValueError`; the answer to a read of one register
is returned as that to a read of two. -/
theorem malformed_answers_escape :
    tcpReadBlock 1 readTwo ⟨mbapFrame 1 1 [], .closed⟩ = .error (.codec .indexError) ∧
    tcpReadBlock 1 readTwo ⟨mbapFrame 1 1 [3, 4, 0, 7, 0], .closed⟩ =
      .error (.codec .structError) ∧
    tcpReadBlock 1 readTwo ⟨[0, 1, 0, 0, 0, 0, 1], .closed⟩ = .error .badLength ∧
    tcpReadBlock 1 readTwo ⟨mbapFrame 1 1 [3, 2, 0, 7], .closed⟩ = .ok (.registers [7]) := by
  decide +kernel

end Robustness

/-! ## Retries -/

inductive ModbusTransport where
  | tcp
  | rtuOverTcp
  | serial
  deriving DecidableEq, Repr

namespace ModbusTransport

/-- `_read_block`; a transaction id is taken over TCP only. -/
def readBlock (transport : ModbusTransport) (transactionId : Fin 65536) (job : Job)
    (i : Incoming) : Except Failure Response :=
  match transport with
  | tcp => tcpReadBlock transactionId job i
  | rtuOverTcp => rtuOverTcpReadBlock job i
  | serial => busReadBlock job i

/-- `_read_block_with_retries`: what it returns or raises, and how many attempts it makes.  Other
requests of the connection may take transaction ids in between. -/
def readBlockWithRetries (transport : ModbusTransport) (job : Job)
    (transactionId : Nat → Fin 65536) (wire : Nat → Incoming) : Except Failure Response × Nat :=
  retryLoop (fun attempt f => Job.retries { job with attempt } f)
    (fun attempt => transport.readBlock (transactionId attempt) job (wire attempt))
    job.retryCount 0

end ModbusTransport

namespace Failure

/-- The transport failed: a timeout, an I/O error, a closed stream, a malformed frame.  The others
are a rejection by the device and a request that cannot be encoded. -/
def TransportLevel : Failure → Prop
  | codec (.modbusException _ _) | codec (.valueError _) => False
  | _ => True

/-- `except (TimeoutError, OSError, codec.ModbusFramingError)`. -/
def Caught : Failure → Prop
  | timeout | osError | codec (.framing _) => True
  | _ => False

end Failure

/-! ### The law -/

section Retries

variable {job : Job} {functionCode : FunctionCode} {address quantity : Int}

theorem retries_iff (hop : job.op = .readBlock functionCode address quantity) {f : Failure}
    (hf : f.TransportLevel) :
    job.retries f = true ↔ job.attempt < job.retryCount ∧ f.Caught := by
  have hread : job.op.isWrite = false := by rw [hop]; rfl
  rcases f with _ | _ | _ | e | _
  case codec =>
    cases e with
    | modbusException _ _ | valueError _ => exact absurd hf id
    | framing _ | rtuFraming _ | indexError | structError =>
      simp [Job.retries, hread, Failure.Caught]
  all_goals simp [Job.retries, hread, Failure.Caught]

/-- **The retry law.**  If the first `k` attempts fail in the transport and the next one succeeds,
its values are returned after `k + 1` attempts exactly if each of the failures is caught. -/
theorem retry_law_iff (transport : ModbusTransport)
    (hop : job.op = .readBlock functionCode address quantity)
    (transactionId : Nat → Fin 65536) (wire : Nat → Incoming) {k : Nat} {value : Response}
    (hk : k ≤ job.retryCount)
    (hfail : ∀ i < k, ∃ f, transport.readBlock (transactionId i) job (wire i) = .error f ∧
      f.TransportLevel)
    (hok : transport.readBlock (transactionId k) job (wire k) = .ok value) :
    transport.readBlockWithRetries job transactionId wire = (.ok value, k + 1) ↔
      ∀ i < k, ∃ f, transport.readBlock (transactionId i) job (wire i) = .error f ∧ f.Caught := by
  have herror : ∀ i < k, ∃ f,
      transport.readBlock (transactionId (0 + i)) job (wire (0 + i)) = .error f := by
    intro i hi
    obtain ⟨f, hf, -⟩ := hfail i hi
    exact ⟨f, by rw [Nat.zero_add, hf]⟩
  rw [← Nat.zero_add k] at hok
  have hlaw : transport.readBlockWithRetries job transactionId wire = (.ok value, 0 + k + 1) ↔ _ :=
    retryLoop_eq_ok_iff hk herror hok
  simp only [Nat.zero_add] at hlaw
  rw [hlaw]
  refine forall₂_congr fun i hi => ?_
  obtain ⟨f, hf, hlevel⟩ := hfail i hi
  have hop' : ({ job with attempt := i } : Job).op = .readBlock functionCode address quantity := hop
  have hretries : Job.retries { job with attempt := i } f = true ↔ i < job.retryCount ∧ f.Caught :=
    retries_iff hop' hlevel
  constructor
  · intro h
    exact ⟨f, hf, (hretries.1 (h f hf)).2⟩
  · rintro ⟨f', hf', hcaught⟩ f'' hf''
    rw [hf] at hf' hf''
    cases hf'
    cases hf''
    exact hretries.2 ⟨by omega, hcaught⟩

def timeoutThenAnswer : Nat → Incoming
  | 0 => ⟨[], .silent⟩
  | _ => ⟨mbapFrame 1 1 [3, 4, 0, 7, 0, 8], .closed⟩

theorem retry_law_iff_timeoutThenAnswer :
    ModbusTransport.tcp.readBlockWithRetries readTwo (Fin.ofNat 65536) timeoutThenAnswer =
      (.ok (.registers [7, 8]), 2) := by
  have hop : readTwo.op = .readBlock .readHoldingRegisters 0 2 := rfl
  have htimeout : ModbusTransport.tcp.readBlock (Fin.ofNat 65536 0) readTwo (timeoutThenAnswer 0) =
      .error .timeout := by decide +kernel
  refine (retry_law_iff .tcp hop (Fin.ofNat 65536) timeoutThenAnswer (k := 1) (by decide) ?_
    (by decide +kernel)).2 ?_
  · intro i hi
    obtain rfl : i = 0 := by omega
    exact ⟨.timeout, htimeout, trivial⟩
  · intro i hi
    obtain rfl : i = 0 := by omega
    exact ⟨.timeout, htimeout, trivial⟩

/-- The first attempt gets a frame with a wrong CRC, the second one with the right CRC. -/
def wrongCrcThenAnswer : Nat → Incoming
  | 0 => ⟨[1, 3, 4, 0, 7, 0, 8, 0, 0], .silent⟩
  | _ => ⟨rtuFrame 1 [3, 4, 0, 7, 0, 8], .silent⟩

def closedThenAnswer : Nat → Incoming
  | 0 => ⟨[], .closed⟩
  | _ => ⟨mbapFrame 1 1 [3, 4, 0, 7, 0, 8], .silent⟩

/-- **Failures that escape.**  With one retry configured and a second attempt that would succeed, a
wrong CRC on a serial line and a closed stream over TCP are raised after the first attempt. -/
theorem uncaught_failures_escape :
    ModbusTransport.serial.readBlock 0 readTwo (wrongCrcThenAnswer 1) = .ok (.registers [7, 8]) ∧
    ModbusTransport.serial.readBlockWithRetries readTwo (Fin.ofNat 65536) wrongCrcThenAnswer =
      (.error (.codec (.rtuFraming "CRC mismatch: received 0x0000, computed 0x344a")), 1) ∧
    ModbusTransport.tcp.readBlock 1 readTwo (closedThenAnswer 1) = .ok (.registers [7, 8]) ∧
    ModbusTransport.tcp.readBlockWithRetries readTwo (Fin.ofNat 65536) closedThenAnswer =
      (.error .eof, 1) := by
  decide +kernel

end Retries

end XEdge.Modbus
