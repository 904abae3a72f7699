import XEdge.Modbus.Polling

/-!
# Modbus TCP (`xedge/drivers/modbus/tcp.py`)

A persistent connection carries one request after the other, each in an MBAP frame
with a transaction id of its own.  The device answers each request with a frame that
repeats the id.

`_write_frame_and_read_response` takes the id apart with the rest of the header and
drops it: the next frame in the stream is the response.  After a timeout the response
of the abandoned request is still to come, or half of it is in the stream, and the
next request, a retry for instance, takes it for its own.
-/

namespace XEdge.Modbus

open Lib

/-- `_read_frame`: the header, then what the header announces. -/
def readMbapFrame : List Bytes → Next
  | [] => .more MBAP_HEADER_LENGTH
  | [header] =>
      match frameRemainderLength header with
      | .ok n => if 0 ≤ n then .more n.toNat else .fail
      | .error _ => .fail
  | _ => .done

/-- The TCP transport.  A device answers with a unit id and a PDU of its choice, in a
frame with the transaction id of the request. -/
def tcp : Transport (Fin 65536) (Nat × Bytes) where
  next _ chunks := readMbapFrame chunks
  reply sent a := mbapFrame sent.stamp a.1 a.2
  -- `_next_transaction_id`: addition in `Fin 65536` wraps as the source's `%` does
  advance transactionId := transactionId + 1
  encode sent := do
    let pdu ← sent.job.op.requestPdu
    encodeMbap sent.stamp sent.job.unit pdu
  -- `_, _, response_pdu = codec.decode_mbap(response_frame)`
  decode sent frame := do
    let (_, _, pdu) ← decodeMbap frame
    sent.job.op.decodeResponse pdu

variable {sent : Sent (Fin 65536)} {frame : Bytes}

theorem tcp_decode {response : Response} (h : tcp.decode sent frame = .ok response) :
    ∃ t u pdu, decodeMbap frame = .ok (t, u, pdu) ∧
      sent.job.op.decodeResponse pdu = .ok response := by
  simp only [tcp, bind, Except.bind] at h
  split at h
  · cases h
  · next r hr => exact ⟨r.1, r.2.1, r.2.2, hr, h⟩

theorem decodeMbap_of_reply {a : Nat × Bytes} {pdu : Bytes}
    {t u : Nat} (hreply : frame <+: tcp.reply sent a) (hdec : decodeMbap frame = .ok (t, u, pdu)) :
    t = sent.stamp := by
  obtain ⟨t1, t0, rest, rfl, rfl⟩ := decodeMbap_transactionId hdec
  obtain ⟨tail, htail⟩ := hreply
  simp only [tcp, mbapFrame, packH, List.cons_append, List.nil_append, List.cons.injEq] at htail
  rw [htail.1, htail.2.1, unpackH_packH sent.stamp.isLt]

/-- **Request/response pairing.**  In every run in which every request is sent when
nothing of an earlier one is outstanding, every value list and write confirmation handed
back was decoded from a frame that carries the transaction id of its own request. -/
theorem response_has_own_transactionId {transactionId : Fin 65536}
    {es : List (PollEvent (Nat × Bytes))} {p : Poller (Fin 65536)}
    (hrun : tcp.machine.run (Poller.new transactionId) es = some p)
    (hq : tcp.machine.Meets Poller.SendsOnQuiet (Poller.new transactionId) es) :
    ∀ h ∈ p.handed, ∃ unit pdu, decodeMbap h.frame = .ok (h.sent.stamp.val, unit, pdu) ∧
      h.sent.job.op.decodeResponse pdu = .ok h.response := by
  intro h hh
  obtain ⟨-, ⟨a, ha⟩, hdec⟩ := handed_run hrun hq h hh
  obtain ⟨t, u, pdu, hmbap, hresp⟩ := tcp_decode hdec
  have ht : t = h.sent.stamp := decodeMbap_of_reply ha hmbap
  exact ⟨u, pdu, ht ▸ hmbap, hresp⟩

def readOnce : Job := ⟨1, .readBlock .readHoldingRegisters 0 1, 1, false, 0⟩

def promptAnswer : List (PollEvent (Nat × Bytes)) :=
  [.submit readOnce, .start, .answer 0 (1, [3, 2, 0, 7]), .deliver 11, .progress, .progress,
    .progress]

theorem response_has_own_transactionId_promptAnswer : ∃ p,
    tcp.machine.run (Poller.new 0) promptAnswer = some p ∧ p.handed.length = 1 ∧
    ∀ h ∈ p.handed, ∃ unit pdu, decodeMbap h.frame = .ok (h.sent.stamp.val, unit, pdu) ∧
      h.sent.job.op.decodeResponse pdu = .ok h.response := by
  obtain ⟨p, hp, hlen⟩ := Option.map_eq_some_iff.1
    (show (tcp.machine.run (Poller.new 0) promptAnswer).map (fun p => p.handed.length) = some 1
      by decide)
  exact ⟨p, hp, hlen, response_has_own_transactionId hp (by decide)⟩

def lateAnswer : List (PollEvent (Nat × Bytes)) :=
  [.submit readOnce, .start, .abort .timeout, .answer 0 (1, [3, 2, 0, 7]), .resume 0, .start,
    .deliver 11, .progress, .progress, .progress]

/-- **A late response is taken for the answer to the next request.**  The value handed
back for the attempt with transaction id 2 comes from the frame with id 1. -/
theorem late_response_is_taken : ∃ p h,
    tcp.machine.run (Poller.new 0) lateAnswer = some p ∧ h ∈ p.handed ∧ h.sent.stamp = 2 ∧
    h.response = .registers [7] ∧ decodeMbap h.frame = .ok (1, 1, [3, 2, 0, 7]) ∧
    ¬ ∃ unit pdu, decodeMbap h.frame = .ok (h.sent.stamp.val, unit, pdu) := by
  let h : Handed (Fin 65536) :=
    ⟨⟨2, { readOnce with attempt := 1 }⟩, mbapFrame 1 1 [3, 2, 0, 7], .registers [7]⟩
  obtain ⟨p, hp, hh⟩ := Option.map_eq_some_iff.1
    (show (tcp.machine.run (Poller.new 0) lateAnswer).map Poller.handed = some [h] by decide)
  have hframe : decodeMbap h.frame = .ok (1, 1, [3, 2, 0, 7]) :=
    decodeMbap_mbapFrame (by decide) (by decide) (by decide)
  refine ⟨p, h, hp, by simp [hh], rfl, rfl, hframe, ?_⟩
  rintro ⟨unit, pdu, hdec⟩
  rw [hframe] at hdec
  injection hdec with hdec
  injection hdec with hid
  exact absurd hid (by decide)

end XEdge.Modbus
