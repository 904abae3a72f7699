import XEdge.Lib.Delimited
import XEdge.Modbus.BusManager
import XEdge.Modbus.Tcp

/-!
# Frames in a stream (`_read_frame` of the Modbus transports)

A peer sends bytes; the driver takes a frame off their front with `readexactly`, a few bytes at a
time, and decodes it.  What the bytes do not suffice for depends on how the stream goes on: it
falls silent, is closed, or is lost.
-/

namespace XEdge.Modbus

open Lib

/-! ## Streams -/

inductive StreamEnd where
  /-- Nothing more comes, and `wait_for` gives up. -/
  | silent
  /-- The peer closes it: `IncompleteReadError`. -/
  | closed
  /-- The connection is lost: `OSError`. -/
  | lost
  deriving DecidableEq, Repr

def StreamEnd.failure : StreamEnd → Failure
  | silent => .timeout
  | closed => .eof
  | lost => .osError

structure Incoming where
  bytes : Bytes
  ending : StreamEnd
  deriving DecidableEq

namespace Incoming

/-- `reader.readexactly(n)`: the bytes, and what is left. -/
def readexactly (i : Incoming) (n : Int) : Except Failure (Bytes × Incoming) :=
  if n < 0 then .error .badLength
  else if i.bytes.length < n.toNat then .error i.ending.failure
  else .ok (i.bytes.take n.toNat, ⟨i.bytes.drop n.toNat, i.ending⟩)

/-- `ModbusTcpDriver._read_frame`. -/
def readMbap (i : Incoming) : Except Failure (Bytes × Incoming) := do
  let (header, i) ← i.readexactly MBAP_HEADER_LENGTH
  let remainderLength ← (frameRemainderLength header).mapError .codec
  let (remainder, i) ← i.readexactly remainderLength
  .ok (header ++ remainder, i)

/-- `_read_frame` of `ModbusRtuOverTcpDriver` and of `SerialBusManager`. -/
def readRtu (i : Incoming) : Except Failure (Bytes × Incoming) := do
  let (head, i) ← i.readexactly 2
  let functionCode ← (byteAt head 1).mapError .codec
  if functionCode &&& EXCEPTION_RESPONSE_FLAG ≠ 0 then
    let (rest, i) ← i.readexactly (1 + 2)
    .ok (head ++ rest, i)
  else
    let (byteCountByte, i) ← i.readexactly 1
    let byteCount ← (byteAt byteCountByte 0).mapError .codec
    let (rest, i) ← i.readexactly (byteCount.toNat + 2)
    .ok (head ++ (byteCountByte ++ rest), i)

/-! ## What a read takes -/

variable (ending : StreamEnd)

variable {n : Int}

theorem readexactly_append (front rest : Bytes) (hn : n = front.length) :
    readexactly ⟨front ++ rest, ending⟩ n = .ok (front, ⟨rest, ending⟩) := by
  subst hn
  simp [readexactly]

variable {bytes : Bytes}

theorem readexactly_short {n : Nat} (h : bytes.length < n) :
    readexactly ⟨bytes, ending⟩ n = .error ending.failure := by
  simp [readexactly, h]

theorem readexactly_negative (i : Incoming) (h : n < 0) :
    i.readexactly n = .error .badLength := if_pos h

theorem header_cases (bytes : Bytes) :
    bytes.length < MBAP_HEADER_LENGTH ∨
      ∃ t1 t0 p1 p0 l1 l0 u tail, bytes = t1 :: t0 :: p1 :: p0 :: l1 :: l0 :: u :: tail := by
  rcases bytes with _ | ⟨t1, _ | ⟨t0, _ | ⟨p1, _ | ⟨p0, _ | ⟨l1, _ | ⟨l0, _ | ⟨u, tail⟩⟩⟩⟩⟩⟩⟩
  case cons.cons.cons.cons.cons.cons.cons => exact .inr ⟨t1, t0, p1, p0, l1, l0, u, tail, rfl⟩
  all_goals
    simp [MBAP_HEADER_LENGTH]

theorem readMbap_short (h : bytes.length < MBAP_HEADER_LENGTH) :
    readMbap ⟨bytes, ending⟩ = .error ending.failure := by
  rw [readMbap, readexactly_short ending h]
  rfl

theorem readMbap_header (t1 t0 p1 p0 l1 l0 u : UInt8) (tail : Bytes) :
    readMbap ⟨t1 :: t0 :: p1 :: p0 :: l1 :: l0 :: u :: tail, ending⟩ =
      (readexactly ⟨tail, ending⟩ ((unpackH l1 l0 : Int) - 1)).map fun r =>
        (t1 :: t0 :: p1 :: p0 :: l1 :: l0 :: u :: r.1, r.2) := by
  have hheader := readexactly_append ending [t1, t0, p1, p0, l1, l0, u] tail
    (n := MBAP_HEADER_LENGTH) rfl
  show (readexactly ⟨tail, ending⟩ _ >>= _) = _
  cases readexactly ⟨tail, ending⟩ ((unpackH l1 l0 : Int) - 1) <;> rfl

variable {ending} {frame : Bytes} {i rest : Incoming}

theorem readexactly_eq_ok (h : i.readexactly n = .ok (frame, rest)) :
    n = frame.length ∧ i = ⟨frame ++ rest.bytes, rest.ending⟩ := by
  unfold readexactly at h
  split at h
  · cases h
  · split at h
    · cases h
    · cases h
      simp only [List.take_append_drop, and_true, List.length_take]
      omega

theorem readMbap_eq_ok (h : i.readMbap = .ok (frame, rest)) :
    i = ⟨frame ++ rest.bytes, rest.ending⟩ ∧ MBAP_HEADER_LENGTH ≤ frame.length := by
  obtain ⟨⟨header, afterHeader⟩, hheader, h⟩ := bind_eq_ok.1 h
  obtain ⟨n, -, h⟩ := bind_eq_ok.1 h
  obtain ⟨⟨remainder, afterFrame⟩, hremainder, h⟩ := bind_eq_ok.1 h
  cases h
  obtain ⟨hlength, rfl⟩ := readexactly_eq_ok hheader
  obtain ⟨-, rfl⟩ := readexactly_eq_ok hremainder
  refine ⟨by rw [List.append_assoc], ?_⟩
  rw [List.length_append]
  omega

end Incoming

/-! ## A stream of frames -/

/-- What `encode_mbap` can put in a frame: a 16-bit transaction id, an 8-bit unit id, and a PDU
whose length, with the unit id, has 16 bits. -/
structure MbapMessage where
  transactionId : Fin 65536
  unitId : Fin 256
  pdu : Bytes
  pdu_length : pdu.length ≤ 65534

namespace MbapMessage

/-- The message as `decode_mbap` returns it. -/
def fields (m : MbapMessage) : Nat × Nat × Bytes := (m.transactionId, m.unitId, m.pdu)

/-- `encode_mbap` of the message. -/
def encode (m : MbapMessage) : Except CodecError Bytes := encodeMbap m.transactionId m.unitId m.pdu

def frame (m : MbapMessage) : Bytes := mbapFrame m.transactionId m.unitId m.pdu

theorem encode_eq (m : MbapMessage) : m.encode = .ok m.frame := by
  have hp := m.pdu_length
  rw [encode, encodeMbap, if_pos (by omega), frame]

end MbapMessage

/-- A header of seven bytes, the remainder that it announces, and `decode_mbap`. -/
def mbapReader (ending : StreamEnd) : Reader (Nat × Nat × Bytes) UInt8 Failure where
  read bytes := do
    let (frame, rest) ← Incoming.readMbap ⟨bytes, ending⟩
    let message ← (decodeMbap frame).mapError .codec
    .ok (message, rest.bytes)
  consumes := by
    intro s x rest h
    obtain ⟨⟨frame, afterFrame⟩, hframe, h⟩ := bind_eq_ok.1 h
    obtain ⟨_, -, h⟩ := bind_eq_ok.1 h
    cases h
    obtain ⟨hs, hlength⟩ := Incoming.readMbap_eq_ok hframe
    cases hs
    rw [MBAP_HEADER_LENGTH] at hlength
    rw [List.length_append]
    omega

theorem read_frame (ending : StreamEnd) (m : MbapMessage) (rest : Bytes) :
    (mbapReader ending).read (m.frame ++ rest) = .ok (m.fields, rest) := by
  have hlength : m.pdu.length + 1 < 65536 := by
    have := m.pdu_length
    omega
  have hframe : Incoming.readMbap ⟨m.frame ++ rest, ending⟩ = .ok (m.frame, ⟨rest, ending⟩) := by
    simp only [MbapMessage.frame, mbapFrame, packH, List.cons_append, List.nil_append]
    rw [Incoming.readMbap_header, unpackH_packH hlength,
      Incoming.readexactly_append ending m.pdu rest (by push_cast; ring)]
    rfl
  have hdecode : decodeMbap m.frame = .ok m.fields :=
    decodeMbap_mbapFrame m.transactionId.isLt m.unitId.isLt hlength
  simp only [mbapReader, hframe, hdecode, bind, Except.bind, Except.mapError]

/-- **MBAP frames say where they end.**  Every list of messages encodes; the frames one after the
other are read back to their end, as the messages that were encoded, and in front of other bytes
they are read back and those bytes are left. -/
theorem stream_roundtrip (messages : List MbapMessage) (ending : StreamEnd) :
    ∃ frames, messages.mapM MbapMessage.encode = .ok frames ∧
      (mbapReader ending).readAll frames.flatten = .ok (messages.map MbapMessage.fields) ∧
      ∀ rest, (mbapReader ending).readMany messages.length (frames.flatten ++ rest) =
        .ok (messages.map MbapMessage.fields, rest) := by
  refine ⟨messages.map MbapMessage.frame, mapM_eq_ok_map fun m _ => m.encode_eq, ?_⟩
  rw [← List.flatMap_def]
  exact ⟨Reader.readAll_flatMap (read_frame ending) messages,
    Reader.readMany_flatMap (read_frame ending) messages⟩

end XEdge.Modbus
