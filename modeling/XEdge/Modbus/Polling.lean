import XEdge.Lib.Machine
import XEdge.Lib.Link
import XEdge.Modbus.Codec

/-!
# Requests over one connection

Every read and write of the drivers that share a connection goes through one
`RequestScheduler` (`xedge/drivers/modbus/scheduler.py`): a priority queue, writes
first, and one consumer that runs one request at a time.  A block read that fails may
be submitted again (`_read_block_with_retries` in `polling.py`); a write is tried once.
A request that times out leaves the connection as it is.

What differs between Modbus TCP and the RS-485 bus is the framing: which bytes a
request becomes, how its response frame is read and decoded.  That is a `Transport`;
scheduler, retries and connection are the same, and are modelled here once.
-/

namespace XEdge.Modbus

open Lib

/-! ## Requests and responses -/

/-- What a driver submits: `_read_block`, `_write_one` or `_write_registers`. -/
inductive Op where
  | readBlock (functionCode : FunctionCode) (address quantity : Int)
  | writeCoil (address : Int) (value : Bool)
  | writeRegister (address value : Int)
  | writeRegisters (address : Int) (values : List Int)
  deriving DecidableEq, Repr

/-- What is handed back: `None` for a confirmed write. -/
inductive Response where
  | bits (values : List Bool)
  | registers (values : List Nat)
  | confirmed
  deriving DecidableEq, Repr

namespace Op

def functionCode : Op → FunctionCode
  | readBlock f _ _ => f
  | writeCoil _ _ => .writeSingleCoil
  | writeRegister _ _ => .writeSingleRegister
  | writeRegisters _ _ => .writeMultipleRegisters

def address : Op → Int
  | readBlock _ a _ => a
  | writeCoil a _ => a
  | writeRegister a _ => a
  | writeRegisters a _ => a

def isWrite : Op → Bool
  | readBlock .. => false
  | _ => true

def requestPdu : Op → Except CodecError Bytes
  | readBlock f a q => encodeReadRequest f a q
  | writeCoil a v => encodeWriteSingleCoil a v
  | writeRegister a v => encodeWriteSingleRegister a v
  | writeRegisters a vs => encodeWriteMultipleRegisters a vs

def decodeResponse (pdu : Bytes) : Op → Except CodecError Response
  | readBlock f _ q =>
      if isBitFunction f then Response.bits <$> decodeBitsResponse pdu q.toNat
      else Response.registers <$> decodeRegistersResponse pdu
  | writeCoil .. | writeRegister .. =>
      (fun _ => Response.confirmed) <$> decodeWriteSingleResponse pdu
  | writeRegisters .. => (fun _ => Response.confirmed) <$> decodeWriteMultipleResponse pdu

variable {op : Op} {pdu : Bytes}

theorem requestPdu_address (h : op.requestPdu = .ok pdu) :
    0 ≤ op.address ∧ op.address ≤ 0xFFFF := by
  have hcheck : ∀ {f : Unit → Except CodecError Bytes},
      (checkAddress op.address >>= f) = .ok pdu → 0 ≤ op.address ∧ op.address ≤ 0xFFFF := by
    intro f hb
    obtain ⟨_, hc, _⟩ := bind_eq_ok.1 hb
    unfold checkAddress at hc
    split at hc
    · assumption
    · cases hc
  cases op <;> exact hcheck h

theorem decodeResponse_checkException {r : Response}
    (h : op.decodeResponse pdu = .ok r) : checkException pdu = .ok () := by
  have hcheck : ∀ {β : Type} {f : Unit → Except CodecError β} {b : β},
      (checkException pdu >>= f) = .ok b → checkException pdu = .ok () := by
    intro β f b hb
    obtain ⟨_, hc, _⟩ := bind_eq_ok.1 hb
    exact hc
  cases op with
  | readBlock f a q =>
    simp only [decodeResponse] at h
    split at h
    · obtain ⟨_, hb, _⟩ := map_eq_ok.1 h
      exact hcheck hb
    · obtain ⟨_, hb, _⟩ := map_eq_ok.1 h
      exact hcheck hb
  | writeCoil a v | writeRegister a v | writeRegisters a vs =>
    obtain ⟨_, hb, _⟩ := map_eq_ok.1 h
    exact hcheck hb

end Op

inductive Failure where
  /-- `wait_for` gave up. -/
  | timeout
  /-- `OSError` while sending or reading. -/
  | osError
  /-- `IncompleteReadError`: the peer closed the stream. -/
  | eof
  | codec (e : CodecError)
  /-- `readexactly` of a negative number of bytes. -/
  | badLength
  deriving DecidableEq, Repr

/-- A request together with what `_read_block_with_retries` knows of it. -/
structure Job where
  /-- `unit_id` of the instance. -/
  unit : Nat
  op : Op
  retryCount : Nat
  retryOnException : Bool
  attempt : Nat
  deriving DecidableEq, Repr

/-- Whether the failed attempt is followed by another: only reads are retried, and of
the codec's errors only `ModbusException` and `ModbusFramingError` are caught. -/
def Job.retries (j : Job) (f : Failure) : Bool :=
  !j.op.isWrite && decide (j.attempt < j.retryCount) &&
    match f with
    | .codec (.modbusException ..) => j.retryOnException
    | .timeout | .osError | .codec (.framing _) => true
    | _ => false

/-! ## The scheduler's queue -/

/-- `RequestPriority`: lower goes first. -/
def Job.priority (j : Job) : Nat := if j.op.isWrite then 0 else 10

/-- `_QueuedRequest`. -/
structure Queued where
  priority : Nat
  sequence : Nat
  job : Job
  deriving DecidableEq, Repr

/-- Insert by `(priority, sequence)`. -/
def enqueue (q : Queued) : List Queued → List Queued
  | [] => [q]
  | p :: ps =>
      if p.priority < q.priority ∨ p.priority = q.priority ∧ p.sequence < q.sequence then
        p :: enqueue q ps
      else q :: p :: ps

/-! ## Transports -/

/-- A request as it was sent: the transaction stamp of the transport, and the job. -/
structure Sent (σ : Type*) where
  stamp : σ
  job : Job
  deriving DecidableEq

/-- What is specific to a transport: stamps `σ` and peers that answer with an `α`. -/
structure Transport (σ : Type*) (α : Type*) extends Protocol (Sent σ) α UInt8 where
  advance : σ → σ
  encode : Sent σ → Except CodecError Bytes
  decode : Sent σ → Bytes → Except CodecError Response

structure Handed (σ : Type*) where
  sent : Sent σ
  frame : Bytes
  response : Response
  deriving DecidableEq

structure Poller (σ : Type*) where
  link : Link (Sent σ) UInt8
  stamp : σ
  /-- `_queue`, by priority and sequence. -/
  queue : List Queued
  counter : Nat
  backingOff : List Job
  handed : List (Handed σ)
  deriving DecidableEq

inductive PollEvent (α : Type*) where
  | submit (job : Job)
  | start
  /-- The peer answers the `i`-th request it has not answered. -/
  | answer (i : Nat) (a : α)
  | deliver (n : Nat)
  | progress
  | abort (f : Failure)
  /-- The backoff of the `i`-th sleeping caller is over. -/
  | resume (i : Nat)
  | reconnect
  deriving DecidableEq

namespace Poller

variable {σ α : Type*}

def new (stamp : σ) : Poller σ := ⟨Link.new, stamp, [], 0, [], []⟩

def submit (p : Poller σ) (job : Job) : Poller σ :=
  { p with queue := enqueue ⟨job.priority, p.counter, job⟩ p.queue, counter := p.counter + 1 }

/-- The attempt failed: the caller waits for the next one, or raises. -/
def failed (p : Poller σ) (job : Job) (f : Failure) : Poller σ :=
  if job.retries f then
    { p with backingOff := p.backingOff ++ [{ job with attempt := job.attempt + 1 }] }
  else p

def start (T : Transport σ α) (p : Poller σ) : Option (Poller σ) :=
  match p.queue with
  | [] => none
  | q :: qs =>
      match p.link.current, q.job.op.requestPdu with
      | some _, _ => none
      -- the PDU is encoded before the transaction id is taken
      | none, .error e => some ({ p with queue := qs }.failed q.job (.codec e))
      | none, .ok _ =>
          let sent : Sent σ := ⟨T.advance p.stamp, q.job⟩
          match T.encode sent with
          | .error e =>
              some ({ p with queue := qs, stamp := sent.stamp }.failed q.job (.codec e))
          | .ok _ =>
              (p.link.send sent).map fun l => { p with link := l, queue := qs, stamp := sent.stamp }

/-- A frame is there: hand back what it decodes to, or fail the attempt. -/
def receive (T : Transport σ α) (p : Poller σ) (sent : Sent σ) (frame : Bytes) : Poller σ :=
  match T.decode sent frame with
  | .ok response => { p with handed := p.handed ++ [⟨sent, frame, response⟩] }
  | .error e => p.failed sent.job (.codec e)

def progress (T : Transport σ α) (p : Poller σ) : Option (Poller σ) :=
  match p.link.progress T.toProtocol with
  | none => none
  | some (.reading l) => some { p with link := l }
  | some (.finished sent frame l) => some ({ p with link := l }.receive T sent frame)
  | some (.failed sent l) => some ({ p with link := l }.failed sent.job .badLength)

def step (T : Transport σ α) (p : Poller σ) : PollEvent α → Option (Poller σ)
  | .submit job => some (p.submit job)
  | .start => p.start T
  | .answer i a => (p.link.answer T.toProtocol i a).map fun l => { p with link := l }
  | .deliver n => (p.link.deliver n).map fun l => { p with link := l }
  | .progress => p.progress T
  | .abort f => p.link.abort.map fun r => { p with link := r.2 }.failed r.1.job f
  | .resume i =>
      match p.backingOff[i]? with
      | none => none
      | some job => some ({ p with backingOff := p.backingOff.eraseIdx i }.submit job)
  | .reconnect => some { p with link := Link.new }

def SendsOnQuiet (p : Poller σ) : PollEvent α → Prop
  | .start => p.link.Quiet
  | _ => True

instance [DecidableEq σ] (p : Poller σ) : (e : PollEvent α) → Decidable (p.SendsOnQuiet e)
  | .start => inferInstanceAs (Decidable p.link.Quiet)
  | .submit _ | .answer .. | .deliver _ | .progress | .abort _ | .resume _ | .reconnect =>
      isTrue trivial

/-! ## Every response comes from an answer to its request -/

/-- The connection is paired, only requests that encode are sent, and every response
handed back was decoded from the beginning of an answer to its own request. -/
structure Sound (T : Transport σ α) (p : Poller σ) : Prop where
  paired : p.link.Paired T.toProtocol
  encoded : ∀ r chunks, p.link.current = some (r, chunks) → ∃ b, T.encode r = .ok b
  handed : ∀ h ∈ p.handed, (∃ b, T.encode h.sent = .ok b) ∧
    (∃ a, h.frame <+: T.reply h.sent a) ∧ T.decode h.sent h.frame = .ok h.response

variable {T : Transport σ α} {p p' : Poller σ}

theorem sound_new (stamp : σ) : Sound T (new stamp) :=
  ⟨Link.paired_new, by simp [new, Link.new], by simp [new]⟩

@[simp] theorem link_failed (p : Poller σ) (job : Job) (f : Failure) :
    (p.failed job f).link = p.link := by
  unfold failed
  split <;> rfl

@[simp] theorem handed_failed (p : Poller σ) (job : Job) (f : Failure) :
    (p.failed job f).handed = p.handed := by
  unfold failed
  split <;> rfl

theorem Sound.failed (h : Sound T p) (job : Job) (f : Failure) : Sound T (p.failed job f) :=
  ⟨by simpa using h.paired, by simpa using h.encoded, by simpa using h.handed⟩

/-- Whatever happens to the queue and the callers, only the link and the responses
matter. -/
theorem Sound.congr {q : Poller σ} (h : Sound T p) (hlink : q.link = p.link)
    (hhanded : q.handed = p.handed) : Sound T q :=
  ⟨hlink ▸ h.paired, hlink ▸ h.encoded, hhanded ▸ h.handed⟩

theorem Sound.idle {l : Link (Sent σ) UInt8} (h : Sound T p) (hl : l.current = none) :
    Sound T { p with link := l } :=
  ⟨Link.paired_of_current_eq_none hl, by simp [hl], h.handed⟩

theorem sound_start (hs : Sound T p) (hq : p.link.Quiet) (h : p.start T = some p') :
    Sound T p' := by
  unfold start at h
  split at h
  · cases h
  · next q qs hqueue =>
    split at h
    · cases h
    · cases h
      exact (hs.congr (q := { p with queue := qs }) rfl rfl).failed _ _
    · simp only at h
      split at h
      · cases h
        exact (hs.congr (q := { p with queue := qs, stamp := T.advance p.stamp }) rfl rfl).failed
          _ _
      · next b hb =>
        obtain ⟨l, hl, rfl⟩ := Option.map_eq_some_iff.1 h
        refine ⟨Link.paired_send hq hl, fun r chunks hc => ?_, hs.handed⟩
        rw [Link.current_send hl] at hc
        cases hc
        exact ⟨b, hb⟩

theorem sound_progress [Nonempty α] (hs : Sound T p) (h : p.progress T = some p') :
    Sound T p' := by
  unfold progress at h
  split at h
  · cases h
  · next l hl =>
    cases h
    refine ⟨Link.paired_reading hs.paired hl, fun r chunks hc => ?_, hs.handed⟩
    obtain ⟨r', chunks₀, chunks₁, hcur, hcur'⟩ := Link.current_reading hl
    rw [hcur'] at hc
    cases hc
    exact hs.encoded _ _ hcur
  · next sent frame l hl =>
    cases h
    obtain ⟨chunks, hcur, -, -, hlink⟩ := Link.progress_finished hl
    have hidle : Sound T { p with link := l } := hs.idle (by rw [hlink])
    unfold receive
    split
    · next response hdec =>
      refine ⟨hidle.paired, hidle.encoded, fun x hx => ?_⟩
      rcases List.mem_append.1 hx with hx | hx
      · exact hs.handed x hx
      · rw [List.mem_singleton.1 hx]
        exact ⟨hs.encoded _ _ hcur, Link.finished_begins_reply hs.paired hl, hdec⟩
    · exact hidle.failed _ _
  · next sent l hl =>
    cases h
    exact (hs.idle (Link.progress_failed hl)).failed _ _

/-- **Every event keeps the pairing**, a request sent on a busy connection apart. -/
theorem sound_step [Nonempty α] {e : PollEvent α} (hs : Sound T p) (hq : p.SendsOnQuiet e)
    (h : p.step T e = some p') : Sound T p' := by
  cases e with
  | submit job =>
    cases h
    exact hs.congr rfl rfl
  | start => exact sound_start hs hq h
  | answer i a =>
    obtain ⟨l, hl, rfl⟩ := Option.map_eq_some_iff.1 h
    refine ⟨Link.paired_answer hs.paired hl, ?_, hs.handed⟩
    simpa [Link.current_answer hl] using hs.encoded
  | deliver n =>
    obtain ⟨l, hl, rfl⟩ := Option.map_eq_some_iff.1 h
    refine ⟨Link.paired_deliver hs.paired hl, ?_, hs.handed⟩
    simpa [Link.current_deliver hl] using hs.encoded
  | progress => exact sound_progress hs h
  | abort f =>
    obtain ⟨⟨r, l⟩, hl, rfl⟩ := Option.map_eq_some_iff.1 h
    refine (hs.idle ?_).failed _ _
    unfold Link.abort at hl
    split at hl <;> cases hl
    rfl
  | resume i =>
    simp only [step] at h
    split at h <;> cases h
    exact hs.congr rfl rfl
  | reconnect =>
    cases h
    exact hs.idle rfl

end Poller

def Transport.machine {σ α : Type*} (T : Transport σ α) : Machine (Poller σ) (PollEvent α) :=
  ⟨Poller.step T⟩

theorem handed_run {σ α : Type*} [Nonempty α] {T : Transport σ α} {stamp : σ}
    {es : List (PollEvent α)} {p : Poller σ} (hrun : T.machine.run (Poller.new stamp) es = some p)
    (hq : T.machine.Meets Poller.SendsOnQuiet (Poller.new stamp) es) :
    ∀ h ∈ p.handed, (∃ b, T.encode h.sent = .ok b) ∧
      (∃ a, h.frame <+: T.reply h.sent a) ∧ T.decode h.sent h.frame = .ok h.response :=
  (T.machine.inv_run_of_meets (I := Poller.Sound T)
    (fun _ _ _ hs hG hstep => Poller.sound_step hs hG hstep) (Poller.sound_new stamp) hq
    hrun).handed

end XEdge.Modbus
