import XEdge.Modbus.Polling
import XEdge.Modbus.RtuCodec

/-!
# The shared RS-485 bus (`xedge/drivers/modbus/bus_manager.py`)

Several driver instances, one for each slave, share a serial port through one
`SerialBusManager` and its one scheduler.  A request is a frame with the address of a
slave; the slave answers with a frame that begins with its address and the function
code of the request, with the exception flag set if it rejects the request.

`read_block`, `write_one` and `write_registers` check the CRC of the frame they read
and nothing else: the address (`_, response_pdu = decode_rtu_frame(...)`), the function
code and the echoed register address are dropped.  A slave that answers after its
timeout answers into the next transaction, which may be with another slave.
-/

namespace XEdge.Modbus

open Lib

/-! ## Slaves -/

inductive SlaveReply where
  /-- It accepts; `data` is what a read returns. -/
  | accept (data : Bytes)
  | exception (code : UInt8)
  deriving DecidableEq

instance : Nonempty SlaveReply := ⟨.exception 0⟩

/-- The second field that a write response echoes: the value, or the quantity. -/
def Op.echoed : Op → Nat
  | .readBlock _ _ q => q.toNat
  | .writeCoil _ v => if v then 0xFF00 else 0x0000
  | .writeRegister _ v => v.toNat
  | .writeRegisters _ vs => vs.length

def replyPdu (op : Op) : SlaveReply → Bytes
  | .exception code => [op.functionCode.byte ||| EXCEPTION_RESPONSE_FLAG, code]
  | .accept data =>
      if op.isWrite then
        op.functionCode.byte :: (packH op.address.toNat ++ packH op.echoed)
      else op.functionCode.byte :: UInt8.ofNat data.length :: data

/-! ## Reading a frame -/

def isExceptionHead (head : Bytes) : Bool :=
  match head with
  | [_, functionCode] => functionCode &&& EXCEPTION_RESPONSE_FLAG ≠ 0
  | _ => false

def readFrame : List Bytes → Next
  | [] => .more 2
  | [head] => if isExceptionHead head then .more (1 + 2) else .more 1
  | [head, rest] =>
      if isExceptionHead head then .done
      else
        match rest with
        | [byteCount] => .more (byteCount.toNat + 2)
        | _ => .fail
  | _ => .done

def readWriteResponseFrame : List Bytes → Next
  | [] => .more 2
  | [head] => if isExceptionHead head then .more (1 + 2) else .more (4 + 2)
  | _ => .done

/-- The RS-485 transport: no transaction ids, and slaves that answer with their own
address and the function code of the request. -/
def rtu : Transport Unit SlaveReply where
  next sent chunks :=
    if sent.job.op.isWrite then readWriteResponseFrame chunks else readFrame chunks
  reply sent a := rtuFrame sent.job.unit (replyPdu sent.job.op a)
  advance _ := ()
  encode sent := do
    let pdu ← sent.job.op.requestPdu
    encodeRtuFrame sent.job.unit pdu
  decode sent frame := do
    let (_, pdu) ← decodeRtuFrame frame
    sent.job.op.decodeResponse pdu

/-! ## Attribution -/

variable {sent : Sent Unit}

theorem rtu_encode {b : Bytes} (h : rtu.encode sent = .ok b) :
    sent.job.unit ≤ 255 ∧ 0 ≤ sent.job.op.address ∧ sent.job.op.address ≤ 0xFFFF := by
  obtain ⟨pdu, hpdu, h⟩ := bind_eq_ok.1 h
  refine ⟨?_, Op.requestPdu_address hpdu⟩
  unfold encodeRtuFrame at h
  split at h
  · assumption
  · cases h

variable {a : SlaveReply} {pdu : Bytes}

/-- What decodes from the beginning of a slave's answer is the slave's address and the
beginning of its PDU, with the CRC of the answer behind it. -/
theorem decodeRtuFrame_of_reply {frame : Bytes} {u : Nat} (hunit : sent.job.unit ≤ 255)
    (hreply : frame <+: rtu.reply sent a) (hdec : decodeRtuFrame frame = .ok (u, pdu)) :
    u = sent.job.unit ∧ ∃ crc, pdu <+: replyPdu sent.job.op a ++ crc := by
  obtain ⟨x, crc, rfl, rfl⟩ := decodeRtuFrame_eq hdec
  obtain ⟨tail, htail⟩ := hreply
  simp only [rtu, rtuFrame, List.cons_append, List.cons.injEq] at htail
  obtain ⟨rfl, hpdu⟩ := htail
  refine ⟨?_, _, crc ++ tail, (List.append_assoc ..).symm.trans hpdu⟩
  rw [UInt8.toNat_ofNat']
  omega

variable {op : Op} {crc : Bytes}

theorem replyPdu_accepted
    (hreply : pdu <+: replyPdu op a ++ crc) (hcheck : checkException pdu = .ok ()) :
    (∃ data, a = .accept data) ∧ pdu.head? = some op.functionCode.byte := by
  obtain ⟨f, rest, rfl, hflag⟩ := checkException_head hcheck
  cases a with
  | exception code =>
    exfalso
    obtain ⟨tail, htail⟩ := hreply
    simp only [replyPdu, List.cons_append, List.cons.injEq] at htail
    rw [htail.1] at hflag
    revert hflag
    cases op.functionCode <;> decide
  | accept data =>
    refine ⟨⟨data, rfl⟩, ?_⟩
    obtain ⟨tail, htail⟩ := hreply
    have hf : f = op.functionCode.byte := by
      simp only [replyPdu] at htail
      split at htail <;> simp only [List.cons_append, List.cons.injEq] at htail <;> exact htail.1
    rw [hf, List.head?_cons]

theorem decodeEcho_of_reply {data : Bytes} {v : Nat × Nat} (hop : op.isWrite)
    (haddr : 0 ≤ op.address ∧ op.address ≤ 0xFFFF)
    (hreply : pdu <+: replyPdu op (.accept data) ++ crc) (hecho : decodeEcho pdu = .ok v) :
    (v.1 : Int) = op.address := by
  obtain ⟨f, a1, a0, v1, v0, rest, rfl, ha, -⟩ := decodeEcho_eq hecho
  obtain ⟨tail, htail⟩ := hreply
  simp only [replyPdu, hop, if_true, packH, List.cons_append, List.nil_append,
    List.cons.injEq] at htail
  rw [ha, htail.2.1, htail.2.2.1, unpackH_packH (by omega)]
  omega

theorem decodeResponse_echo {r : Response} (hop : op.isWrite)
    (h : op.decodeResponse pdu = .ok r) : ∃ v, decodeEcho pdu = .ok v := by
  cases op with
  | readBlock f a q => cases hop
  | writeCoil a v | writeRegister a v | writeRegisters a vs =>
    obtain ⟨v, hv, -⟩ := map_eq_ok.1 h
    exact ⟨v, hv⟩

/-- **Attribution.**  In every run in which every request is sent when nothing of an
earlier one is outstanding on the bus, every value returned and every write confirmed
comes from a frame with the address byte of its own slave and the function code of its
own request, and a write's frame echoes the address written to. -/
theorem response_is_from_own_slave {es : List (PollEvent SlaveReply)} {p : Poller Unit}
    (hrun : rtu.machine.run (Poller.new ()) es = some p)
    (hq : rtu.machine.Meets Poller.SendsOnQuiet (Poller.new ()) es) :
    ∀ h ∈ p.handed, ∃ pdu, decodeRtuFrame h.frame = .ok (h.sent.job.unit, pdu) ∧
      pdu.head? = some h.sent.job.op.functionCode.byte ∧
      (h.sent.job.op.isWrite → ∃ v, decodeEcho pdu = .ok v ∧ (v.1 : Int) = h.sent.job.op.address) ∧
      h.sent.job.op.decodeResponse pdu = .ok h.response := by
  intro h hh
  obtain ⟨⟨b, hb⟩, ⟨a, ha⟩, hdec⟩ := handed_run hrun hq h hh
  obtain ⟨hunit, haddr⟩ := rtu_encode hb
  obtain ⟨⟨u, pdu⟩, hframe, hresp⟩ := bind_eq_ok.1 hdec
  obtain ⟨rfl, crc, hpdu⟩ := decodeRtuFrame_of_reply hunit ha hframe
  obtain ⟨⟨data, rfl⟩, hhead⟩ := replyPdu_accepted hpdu (Op.decodeResponse_checkException hresp)
  refine ⟨pdu, hframe, hhead, fun hop => ?_, hresp⟩
  obtain ⟨v, hv⟩ := decodeResponse_echo hop hresp
  exact ⟨v, hv, decodeEcho_of_reply hop haddr hpdu hv⟩

def readSlave (unit : Nat) : Job := ⟨unit, .readBlock .readHoldingRegisters 0 1, 0, false, 0⟩

def answersInTime : List (PollEvent SlaveReply) :=
  [.submit (readSlave 1), .submit (readSlave 2), .start, .answer 0 (.accept [0, 7]), .deliver 7,
    .progress, .progress, .progress, .progress, .start, .answer 0 (.accept [0, 8]), .deliver 7,
    .progress, .progress, .progress, .progress]

theorem response_is_from_own_slave_answersInTime : ∃ p,
    rtu.machine.run (Poller.new ()) answersInTime = some p ∧ p.handed.length = 2 ∧
    ∀ h ∈ p.handed, ∃ pdu, decodeRtuFrame h.frame = .ok (h.sent.job.unit, pdu) ∧
      pdu.head? = some h.sent.job.op.functionCode.byte ∧
      (h.sent.job.op.isWrite → ∃ v, decodeEcho pdu = .ok v ∧ (v.1 : Int) = h.sent.job.op.address) ∧
      h.sent.job.op.decodeResponse pdu = .ok h.response := by
  obtain ⟨p, hp, hlen⟩ := Option.map_eq_some_iff.1
    (show (rtu.machine.run (Poller.new ()) answersInTime).map (fun p => p.handed.length) = some 2
      by decide +kernel)
  exact ⟨p, hp, hlen, response_is_from_own_slave hp (by decide +kernel)⟩

def answersLate : List (PollEvent SlaveReply) :=
  [.submit (readSlave 1), .start, .abort .timeout, .submit (readSlave 2), .start,
    .answer 0 (.accept [0, 7]), .deliver 7, .progress, .progress, .progress, .progress]

/-- **A late frame of one slave is handed back as the value of another.** -/
theorem late_frame_is_misattributed : ∃ p h,
    rtu.machine.run (Poller.new ()) answersLate = some p ∧ h ∈ p.handed ∧
    h.sent.job.unit = 2 ∧ h.response = .registers [7] ∧ h.frame.head? = some 1 ∧
    ¬ ∃ pdu, decodeRtuFrame h.frame = .ok (h.sent.job.unit, pdu) := by
  let h : Handed Unit := ⟨⟨(), readSlave 2⟩, rtuFrame 1 [3, 2, 0, 7], .registers [7]⟩
  obtain ⟨p, hp, hh⟩ := Option.map_eq_some_iff.1
    (show (rtu.machine.run (Poller.new ()) answersLate).map Poller.handed = some [h]
      by decide +kernel)
  refine ⟨p, h, hp, by simp [hh], rfl, rfl, rfl, ?_⟩
  rintro ⟨pdu, hdec⟩
  obtain ⟨x, crc, hx, hunit⟩ := decodeRtuFrame_eq hdec
  have hhead : x = 1 := (List.cons.inj hx).1.symm
  rw [hhead] at hunit
  exact absurd hunit (by decide)

end XEdge.Modbus
