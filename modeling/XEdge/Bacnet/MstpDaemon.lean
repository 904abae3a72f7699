import XEdge.Lib.Machine
import XEdge.Bacnet.MstpReply

/-!
# The loop of the MS/TP daemon (`xedge/drivers/bacnet/mstp_daemon/main.c`)

The daemon serves one client at a time.  Each turn of its loop accepts a client if there is none,
reads from it unless a request is pending, takes one line off the buffer, hands one BACnet message
to its handler, and answers the pending request once there is something to answer.

Every access to an array can fail here, so that a turn has a result exactly if it stays inside all
of them (`Lib.Buffer`).  What the daemon takes and writes is recorded with the connection.
-/

namespace XEdge.Bacnet.Mstp

open Lib

def IPC_RX_BUF_SIZE : Nat := 8192

def IPC_LINE_MAX : Nat := 4096

/-! ## Clients -/

/-- A connection: what the client has sent and nobody has read, and whether the client is gone. -/
structure Connection where
  id : Nat
  inbox : List UInt8
  closed : Bool
  deriving DecidableEq

namespace Connection

def send (bytes : List UInt8) (c : Connection) : Connection :=
  if c.closed then c else { c with inbox := c.inbox ++ bytes }

def close (c : Connection) : Connection := { c with closed := true }

/-- What `read` returns. -/
inductive ReadResult where
  | data (bytes : List UInt8)
  /-- `EAGAIN`: nothing there yet. -/
  | wouldBlock
  /-- Zero bytes, or an error: the client is gone. -/
  | ended

/-- How many bytes `read` returns with room for `space` bytes, when it gets `chunk` at most. -/
def count (c : Connection) (space chunk : Nat) : Nat := min (min (max 1 chunk) space) c.inbox.length

def read (c : Connection) (space chunk : Nat) : ReadResult :=
  if c.inbox = [] then if c.closed then .ended else .wouldBlock
  else .data (c.inbox.take (c.count space chunk))

end Connection

/-! ## BACnet -/

abbrev Address := List UInt8

/-- What a `ReadProperty` acknowledgement holds. -/
inductive Ack where
  | undecodable
  | badValue
  | value (v : AppValue)

inductive Pdu where
  | error (errorClass errorCode : List UInt8)
  | abort (reason : List UInt8)
  | reject (reason : List UInt8)
  | readPropertyAck (ack : Ack)

structure Message where
  source : Address
  invokeId : UInt8
  pdu : Pdu

structure Response where
  /-- `Request_Target_Address`. -/
  target : Address
  /-- `Request_Invoke_ID`. -/
  invokeId : UInt8
  ready : Bool
  isError : Bool
  errorText : List UInt8
  value : AppValue

namespace Response

/-- `set_response_error`. -/
def setError (r : Response) (text : List UInt8) : Response :=
  { r with isError := true, errorText := snprintf 128 text, ready := true }

/-- The handlers.  A message from another station, or to another request, is none of theirs. -/
def handle (r : Response) (m : Message) : Response :=
  if r.target = m.source ∧ m.invokeId = r.invokeId then
    match m.pdu with
    | .error errorClass errorCode =>
        r.setError (snprintf 128
          (ascii "BACnet-Error: ".toList ++ errorClass ++ ascii ": ".toList ++ errorCode))
    | .abort reason => r.setError (snprintf 128 (ascii "BACnet-Abort: ".toList ++ reason))
    | .reject reason => r.setError (snprintf 128 (ascii "BACnet-Reject: ".toList ++ reason))
    | .readPropertyAck .undecodable => r.setError (ascii "decode failed".toList)
    | .readPropertyAck .badValue => r.setError (ascii "value decode failed".toList)
    | .readPropertyAck (.value v) => { r with value := v, isError := false, ready := true }
  else r

end Response

/-! ## The daemon -/

/-- The fields of a request line: a number or a text where there is one. -/
structure RequestJson where
  deviceInstance : Option ℚ
  mac : Option ℚ
  objectType : Option (List UInt8)
  objectInstance : Option ℚ
  propertyId : Option (List UInt8)

structure Platform where
  garbage : (n : Nat) → Buffer n
  /-- A connection does not take `SOCK_NONBLOCK` from the socket that accepted it (on Linux). -/
  blockingReads : Bool
  /-- `cJSON_Parse`. -/
  parse : List UInt8 → Option RequestJson
  /-- `bactext_object_type_strtol`. -/
  objectTypeStrtol : List UInt8 → Option Nat
  /-- `bactext_property_strtol`. -/
  propertyStrtol : List UInt8 → Option Nat

/-- What `Send_Read_Property_Request` is called with. -/
structure ReadProperty where
  deviceInstance : UInt32
  mac : UInt8
  objectType : Nat
  objectInstance : UInt32
  property : Nat

/-- A request that was sent and is not answered: `pending_client_fd`, `request_started_at`. -/
structure Pending where
  client : Option Nat
  startedAt : Int
  deriving DecidableEq

structure Daemon where
  waiting : List Connection
  nextId : Nat
  /-- `client_fd`; `none` is -1. -/
  client : Option Connection
  rxBuf : Buffer IPC_RX_BUF_SIZE
  rxLen : Nat
  /-- `request_pending`. -/
  pending : Option Pending
  response : Response
  sent : List ReadProperty
  taken : List (Option Nat × List UInt8)
  replies : List (Option Nat × List UInt8)

structure Turn where
  /-- `current_seconds`. -/
  now : Int
  /-- `accept` finds the connection that waits. -/
  accepts : Bool
  /-- How many bytes `read` gets at most. -/
  chunk : Nat
  /-- What `Send_Read_Property_Request` returns. -/
  invokeId : UInt8
  /-- What `datalink_receive` returns. -/
  message : Option Message
  /-- `tsm_invoke_id_failed`. -/
  failed : Bool

inductive DaemonEvent where
  | connect
  | send (id : Nat) (bytes : List UInt8)
  | close (id : Nat)
  | turn (t : Turn)

namespace Daemon

/-- `main` before its loop.  `rx_buf` is not initialised. -/
def start (P : Platform) : Daemon where
  waiting := []
  nextId := 0
  client := none
  rxBuf := P.garbage IPC_RX_BUF_SIZE
  rxLen := 0
  pending := none
  response := ⟨[], 0, false, false, [], .other⟩
  sent := []
  taken := []
  replies := []

def received (d : Daemon) : List UInt8 := d.rxBuf.cells.take d.rxLen

def clientId (d : Daemon) : Option Nat := d.client.map (·.id)

def onConnection (d : Daemon) (id : Nat) (f : Connection → Connection) : Daemon :=
  { d with
    waiting := d.waiting.map fun c => if c.id = id then f c else c
    client := d.client.map fun c => if c.id = id then f c else c }

/-- `accept`, if there is no client. -/
def accept (d : Daemon) (accepts : Bool) : Daemon :=
  match d.client, d.waiting with
  | none, c :: waiting =>
      if accepts then { d with client := some c, waiting := waiting, rxLen := 0 } else d
  | _, _ => d

section Turns

variable (P : Platform)

/-- `ipc_send_error` to a connection. -/
def sendError (d : Daemon) (client : Option Nat) (reason : Json.Text) : Option Daemon :=
  (errorLine P.garbage (ascii reason)).map fun line =>
    { d with replies := d.replies ++ [(client, line)] }

def orRefuse {α : Type} (reason : String) : Option α → Except Json.Text α
  | some a => .ok a
  | none => .error reason.toList

/-- The checks of `start_request`, in their order. -/
def readRequest (line : List UInt8) : Except Json.Text ReadProperty := do
  let root ← orRefuse "invalid JSON" (P.parse line)
  let deviceInstance ← orRefuse "device_instance must be a number" root.deviceInstance
  let mac ← orRefuse "mac must be a number 0-255" (root.mac.filter fun mac => 0 ≤ mac ∧ mac ≤ 255)
  let objectType ← orRefuse "unknown object_type" (root.objectType.bind P.objectTypeStrtol)
  let objectInstance ← orRefuse "object_instance must be a number" root.objectInstance
  let property ← orRefuse "unknown property_id" (root.propertyId.bind P.propertyStrtol)
  return {
    deviceInstance := UInt32.ofNat ⌊deviceInstance⌋.toNat
    mac := UInt8.ofNat ⌊mac⌋.toNat
    objectType
    objectInstance := UInt32.ofNat ⌊objectInstance⌋.toNat
    property }

def await (d : Daemon) (request : ReadProperty) (t : Turn) : Daemon :=
  { d with
    response := { d.response with
      target := [request.mac]
      ready := false
      isError := false
      invokeId := t.invokeId }
    sent := d.sent ++ [request]
    pending := some ⟨d.clientId, t.now⟩ }

/-- `start_request`, and what follows if it returns true. -/
def startRequest (d : Daemon) (line : List UInt8) (t : Turn) : Option Daemon :=
  match readRequest P line with
  | .error reason => d.sendError P d.clientId reason
  | .ok request => some (d.await request t)

/-- `memchr(rx_buf, '\n', rx_len)`, as an index. -/
def newline (data : List UInt8) : Option Nat := if 10 ∈ data then some (data.idxOf 10) else none

def takeLine (d : Daemon) (t : Turn) : Option Daemon := do
  let data ← d.rxBuf.read 0 d.rxLen
  match newline data with
  | none => some d
  | some k =>
      let lineLen := if IPC_LINE_MAX ≤ k then IPC_LINE_MAX - 1 else k
      let bytes ← d.rxBuf.read 0 lineLen
      let line ← (P.garbage IPC_LINE_MAX).write 0 bytes
      let line ← line.write lineLen [0]
      let remaining := d.rxLen - k - 1
      let rest ← d.rxBuf.read (k + 1) remaining
      let rxBuf ← d.rxBuf.write 0 rest
      let text ← line.cString
      startRequest P
        { d with rxBuf, rxLen := remaining, taken := d.taken ++ [(d.clientId, text)] } text t

/-- `read` from the client. -/
def receive (d : Daemon) (c : Connection) (chunk : Nat) : Option Daemon :=
  match c.read (IPC_RX_BUF_SIZE - 1 - d.rxLen) chunk with
  | .data bytes => do
      let rxBuf ← d.rxBuf.write d.rxLen bytes
      let rxBuf ← rxBuf.write (d.rxLen + bytes.length) [0]
      some { d with
        client := some { c with inbox := c.inbox.drop bytes.length }
        rxBuf
        rxLen := d.rxLen + bytes.length }
  | .wouldBlock => some d
  | .ended => some { d with client := none, rxLen := 0 }

/-- The client that is read from: not while a request is pending, and not when the buffer is
full. -/
def reads (d : Daemon) : Option Connection :=
  if d.pending = none ∧ d.rxLen < IPC_RX_BUF_SIZE - 1 then d.client else none

/-- The turn does not get past `read`. -/
def blocked (d : Daemon) : Bool :=
  P.blockingReads && d.reads.any fun c => c.inbox = [] && !c.closed

def serveClient (d : Daemon) (t : Turn) : Option Daemon :=
  match d.reads with
  | none => some d
  | some c => (d.receive c t.chunk).bind fun d => d.takeLine P t

/-- `npdu_handler`, if there is a message. -/
def handleMessage (d : Daemon) (message : Option Message) : Daemon :=
  { d with response := message.elim d.response d.response.handle }

def reply (d : Daemon) (client : Option Nat) (line : Option (List UInt8)) : Option Daemon :=
  line.map fun line => { d with replies := d.replies ++ [(client, line)], pending := none }

/-- Answers the pending request, if there is something to answer or it took too long. -/
def answer (d : Daemon) (t : Turn) : Option Daemon :=
  match d.pending with
  | none => some d
  | some p =>
      if d.response.ready then
        if d.response.isError then
          d.reply p.client (errorLine P.garbage d.response.errorText)
        else d.reply p.client (valueLine P.garbage d.response.value)
      else if t.failed ∨ 10 < t.now - p.startedAt then
        d.reply p.client (errorLine P.garbage (ascii "timeout".toList))
      else some d

/-- One turn of the loop.  Where `read` blocks, the turn goes on when there is something to read. -/
def turn (d : Daemon) (t : Turn) : Option Daemon :=
  if (d.accept t.accepts).blocked P then some (d.accept t.accepts)
  else
    ((d.accept t.accepts).serveClient P t).bind fun d => (d.handleMessage t.message).answer P t

def step (d : Daemon) : DaemonEvent → Option Daemon
  | .connect => some { d with
      waiting := d.waiting ++ [⟨d.nextId, [], false⟩]
      nextId := d.nextId + 1 }
  | .send id bytes => some (d.onConnection id (·.send bytes))
  | .close id => some (d.onConnection id (·.close))
  | .turn t => d.turn P t

def machine : Machine Daemon DaemonEvent := ⟨step P⟩

end Turns

/-! ## What the parts of a turn do -/

variable {P : Platform} {d d' : Daemon}

theorem length_received (h : d.rxLen ≤ IPC_RX_BUF_SIZE) : d.received.length = d.rxLen := by
  rw [received, List.length_take, d.rxBuf.length_cells, Nat.min_eq_left h]

theorem begins_received (d : Daemon) : d.rxBuf.Begins d.received := d.rxBuf.begins_take _

variable {data : List UInt8}

theorem received_of_begins (hbegins : d.rxBuf.Begins data)
    (hlength : d.rxLen = data.length) : d.received = data := by
  rw [received, hlength]
  exact (List.prefix_iff_eq_take.1 hbegins).symm

def Terminated (d : Daemon) : Prop := ∃ k, d.rxLen ≤ k ∧ d.rxBuf.cells[k]? = some 0

theorem startRequest_cases (d : Daemon) (line : List UInt8) (t : Turn) :
    (∃ text, OneLine text ∧ d.startRequest P line t =
      some { d with replies := d.replies ++ [(d.clientId, text)] }) ∨
    ∃ request, d.startRequest P line t = some (d.await request t) := by
  rw [startRequest]
  cases readRequest P line with
  | error reason =>
    obtain ⟨text, htext, hline⟩ := errorLine_spec P.garbage (ascii reason)
    refine .inl ⟨text, hline, ?_⟩
    show d.sendError P d.clientId reason = _
    rw [sendError, htext]
    rfl
  | ok request => exact .inr ⟨request, rfl⟩

theorem newline_eq_some (h : 10 ∈ data) :
    ∃ line rest, data = line ++ 10 :: rest ∧ 10 ∉ line ∧ newline data = some line.length := by
  obtain ⟨line, rest, hdata, hline⟩ := List.eq_append_cons_of_mem h
  refine ⟨line, rest, hdata, hline, ?_⟩
  rw [newline, if_pos h, hdata, List.idxOf_append_of_notMem hline, List.idxOf_cons_self, add_zero]

theorem copyLine (line rest : List UInt8) {rxBuf : Buffer IPC_RX_BUF_SIZE}
    (hbegins : rxBuf.Begins (line ++ rest)) {lineLen : Nat}
    (hlen : lineLen = if IPC_LINE_MAX ≤ line.length then IPC_LINE_MAX - 1 else line.length) :
    ∃ b b' text, rxBuf.read 0 lineLen = some (line.take lineLen) ∧
      (P.garbage IPC_LINE_MAX).write 0 (line.take lineLen) = some b ∧
      b.write lineLen [0] = some b' ∧ b'.cString = some text := by
  have hmax : IPC_LINE_MAX = 4096 := rfl
  have hfits : lineLen ≤ line.length ∧ lineLen < IPC_LINE_MAX := by
    split at hlen <;> omega
  have hlength : (line.take lineLen).length = lineLen := by
    rw [List.length_take, Nat.min_eq_left hfits.1]
  have hread : rxBuf.read 0 lineLen = some (line.take lineLen) := by
    rw [hbegins.read (by rw [List.length_append]; omega), List.drop_zero,
      List.take_append_of_le_length hfits.1]
  obtain ⟨b, hwrite, hb, -⟩ :=
    (P.garbage IPC_LINE_MAX).begins_write (line.take lineLen) (by omega)
  obtain ⟨b', hzero, hb', -⟩ := hb.write [0] (by rw [hlength, List.length_singleton]; omega)
  rw [hlength] at hzero
  exact ⟨b, b', _, hread, hwrite, hzero, hb'.cString⟩

/-- **Nothing is taken, or the first line**, and the rest moves to the front. -/
theorem takeLine_cases (hroom : d.rxLen ≤ IPC_RX_BUF_SIZE) (t : Turn) :
    (10 ∉ d.received ∧ d.takeLine P t = some d) ∨
    ∃ line rest rxBuf text, d.received = line ++ 10 :: rest ∧ rxBuf.Begins rest ∧
      rxBuf.cells.drop rest.length = d.rxBuf.cells.drop rest.length ∧
      d.takeLine P t = startRequest P { d with
        rxBuf, rxLen := rest.length, taken := d.taken ++ [(d.clientId, text)] } text t := by
  have hlength := length_received hroom
  have hdata : d.rxBuf.read 0 d.rxLen = some d.received := by
    rw [d.begins_received.read (by omega), List.drop_zero, ← hlength, List.take_length]
  by_cases hmem : 10 ∈ d.received
  · obtain ⟨line, rest, hreceived, -, hnewline⟩ := newline_eq_some hmem
    have hbegins := d.begins_received
    rw [hreceived] at hbegins hlength
    rw [List.length_append, List.length_cons] at hlength
    have hremaining : d.rxLen - line.length - 1 = rest.length := by omega
    have hrest : d.rxBuf.read (line.length + 1) rest.length = some rest := by
      rw [hbegins.read (by rw [List.length_append, List.length_cons]; omega),
        ← List.drop_drop, List.drop_left, List.drop_succ_cons, List.drop_zero, List.take_length]
    obtain ⟨rxBuf, hmove, hmoved, hbehind⟩ := d.rxBuf.begins_write rest (by omega)
    obtain ⟨b, b', text, hread, hwrite, hzero, hstring⟩ := copyLine (P := P) line _ hbegins rfl
    refine .inr ⟨line, rest, rxBuf, text, hreceived, hmoved, hbehind, ?_⟩
    simp only [takeLine, hdata, hnewline, hread, hwrite, hzero, hremaining, hrest, hmove, hstring,
      Option.bind_eq_bind, Option.bind_some]
  · refine .inl ⟨hmem, ?_⟩
    simp only [takeLine, hdata, newline, if_neg hmem, Option.bind_eq_bind, Option.bind_some]

def readCount (d : Daemon) (c : Connection) (chunk : Nat) : Nat :=
  c.count (IPC_RX_BUF_SIZE - 1 - d.rxLen) chunk

variable {c : Connection}

theorem readCount_spec (hroom : d.rxLen < IPC_RX_BUF_SIZE - 1)
    (hinbox : c.inbox ≠ []) (chunk : Nat) :
    0 < d.readCount c chunk ∧ d.readCount c chunk ≤ c.inbox.length ∧
      d.rxLen + d.readCount c chunk < IPC_RX_BUF_SIZE := by
  have hpos : 0 < c.inbox.length := List.length_pos_iff.2 hinbox
  rw [readCount, Connection.count]
  omega

/-- **What `read` brings**: bytes, which are appended; nothing; or the end. -/
theorem receive_cases (hroom : d.rxLen < IPC_RX_BUF_SIZE - 1) (chunk : Nat) :
    (c.inbox ≠ [] ∧ ∃ rxBuf,
      rxBuf.Begins (d.received ++ c.inbox.take (d.readCount c chunk) ++ [0]) ∧
      d.receive c chunk = some { d with
        client := some { c with inbox := c.inbox.drop (d.readCount c chunk) }
        rxBuf
        rxLen := d.rxLen + d.readCount c chunk }) ∨
    (c.inbox = [] ∧ c.closed = false ∧ d.receive c chunk = some d) ∨
    (c.inbox = [] ∧ c.closed = true ∧
      d.receive c chunk = some { d with client := none, rxLen := 0 }) := by
  by_cases hinbox : c.inbox = []
  · right
    cases hclosed : c.closed with
    | false =>
      refine .inl ⟨hinbox, rfl, ?_⟩
      rw [receive, Connection.read, if_pos hinbox, hclosed]
      rfl
    | true =>
      refine .inr ⟨hinbox, rfl, ?_⟩
      rw [receive, Connection.read, if_pos hinbox, hclosed]
      rfl
  · obtain ⟨-, hle, hfits⟩ := readCount_spec hroom hinbox chunk
    have hlength : d.received.length = d.rxLen := length_received (by omega)
    have htaken : (c.inbox.take (d.readCount c chunk)).length = d.readCount c chunk :=
      List.length_take_of_le hle
    obtain ⟨b, hwrite, hb, -⟩ :=
      d.begins_received.write (c.inbox.take (d.readCount c chunk)) (by omega)
    obtain ⟨b', hzero, hb', -⟩ := hb.write [0] (by
      rw [List.length_append, List.length_singleton]
      omega)
    rw [hlength] at hwrite
    rw [List.length_append, hlength, htaken] at hzero
    refine .inl ⟨hinbox, b', hb', ?_⟩
    have hread : c.read (IPC_RX_BUF_SIZE - 1 - d.rxLen) chunk =
        .data (c.inbox.take (d.readCount c chunk)) := if_neg hinbox
    simp only [receive, hread, hwrite, htaken, hzero, Option.bind_eq_bind, Option.bind_some]

theorem answer_cases (d : Daemon) (t : Turn) :
    (d.answer P t = some d ∧ ∀ p, d.pending = some p → t.now - p.startedAt ≤ 10) ∨
    ∃ p text, d.pending = some p ∧ OneLine text ∧
      d.answer P t =
        some { d with replies := d.replies ++ [(p.client, text)], pending := none } := by
  cases hpending : d.pending with
  | none =>
    refine .inl ⟨?_, fun p hp => by cases hp⟩
    rw [answer, hpending]
  | some p =>
    -- whatever is answered, there is a line for it
    have hreply : ∀ {line : Option (List UInt8)} {text : List UInt8}, line = some text →
        OneLine text → d.answer P t = d.reply p.client line →
        ∃ q text, some p = some q ∧ OneLine text ∧ d.answer P t =
          some { d with replies := d.replies ++ [(q.client, text)], pending := none } := by
      rintro _ text rfl htext hanswer
      exact ⟨p, text, rfl, htext, hanswer⟩
    by_cases hready : d.response.ready = true
    · right
      by_cases herror : d.response.isError = true
      · obtain ⟨text, hline, htext⟩ := errorLine_spec P.garbage d.response.errorText
        refine hreply hline htext ?_
        simp only [answer, hpending, hready, herror, if_true]
      · obtain ⟨text, hline, htext⟩ := valueLine_spec P.garbage d.response.value
        refine hreply hline htext ?_
        simp only [answer, hpending, hready, herror, if_true, if_false, Bool.false_eq_true]
    · by_cases hlate : t.failed ∨ 10 < t.now - p.startedAt
      · obtain ⟨text, hline, htext⟩ := errorLine_spec P.garbage (ascii "timeout".toList)
        refine .inr (hreply hline htext ?_)
        simp only [answer, hpending, hready, hlate, if_true, if_false, Bool.false_eq_true]
      · refine .inl ⟨?_, ?_⟩
        · simp only [answer, hpending, hready, hlate, if_false, Bool.false_eq_true]
        · intro q hq
          cases hq
          omega

/-! ## The invariant -/

structure Sound (d : Daemon) : Prop where
  inBounds : d.rxLen < IPC_RX_BUF_SIZE
  terminated : d.rxLen = 0 ∨ d.Terminated
  vacant : d.client = none → d.rxLen = 0
  pendingClient : ∀ p, d.pending = some p → d.client ≠ none ∧ p.client = d.clientId
  /-- Every line that was taken was answered to its connection, in order, but for the one that is
  pending. -/
  answered : d.taken.map Prod.fst = d.replies.map Prod.fst ++ d.pending.toList.map (·.client)
  known : ∀ x ∈ d.taken, x.1 ≠ none
  oneLine : ∀ x ∈ d.replies, OneLine x.2

/-- What holds between two turns: besides, a buffer that is full has no line in it. -/
structure Disciplined (d : Daemon) : Prop extends d.Sound where
  full : d.rxLen = IPC_RX_BUF_SIZE - 1 → 10 ∉ d.received

theorem rx_pos : 0 < IPC_RX_BUF_SIZE := by decide

theorem disciplined_start (P : Platform) : (start P).Disciplined where
  inBounds := rx_pos
  terminated := .inl rfl
  vacant _ := rfl
  pendingClient p hp := by cases hp
  answered := rfl
  known x hx := by cases hx
  oneLine x hx := by cases hx
  full h := by cases h

theorem Disciplined.onConnection (h : d.Disciplined) (id : Nat) {f : Connection → Connection}
    (hf : ∀ c, (f c).id = c.id) : (d.onConnection id f).Disciplined := by
  have hclient : (d.onConnection id f).clientId = d.clientId := by
    unfold clientId Daemon.onConnection
    cases d.client with
    | none => rfl
    | some c =>
      simp only [Option.map_some]
      split
      · rw [hf]
      · rfl
  have hnone : (d.onConnection id f).client = none ↔ d.client = none := Option.map_eq_none_iff
  exact { h with
    vacant := fun hc => h.vacant (hnone.1 hc)
    pendingClient := fun p hp => by
      obtain ⟨hsome, hid⟩ := h.pendingClient p hp
      exact ⟨fun hc => hsome (hnone.1 hc), hid.trans hclient.symm⟩ }

theorem Disciplined.accept (h : d.Disciplined) (accepts : Bool) :
    (d.accept accepts).Disciplined := by
  unfold Daemon.accept
  split
  · next c waiting hclient hwaiting =>
    split
    · have hidle : d.pending = none := by
        cases hp : d.pending with
        | none => rfl
        | some p => exact absurd hclient (h.pendingClient p hp).1
      exact { h with
        inBounds := rx_pos
        terminated := .inl rfl
        vacant := fun _ => rfl
        pendingClient := fun p hp => by
          rw [show d.pending = some p from hp] at hidle
          cases hidle
        full := fun hfull => by cases hfull }
    · exact h
  · exact h

theorem reads_eq_some (h : d.reads = some c) :
    d.client = some c ∧ d.pending = none ∧ d.rxLen < IPC_RX_BUF_SIZE - 1 := by
  unfold reads at h
  split at h
  · next hc => exact ⟨h, hc⟩
  · cases h

/-- **Reading stays in the buffer**, and leaves a zero behind what was received. -/
theorem Sound.receive (h : d.Sound) (hreads : d.reads = some c) (chunk : Nat) :
    ∃ d', d.receive c chunk = some d' ∧ d'.Sound ∧ d'.pending = none := by
  obtain ⟨hclient, hidle, hroom⟩ := reads_eq_some hreads
  have hpending : ∀ p, d.pending ≠ some p := fun p hp => by
    rw [hidle] at hp
    cases hp
  rcases receive_cases (c := c) hroom chunk with
    ⟨hinbox, rxBuf, hbegins, hreceive⟩ | ⟨-, -, hreceive⟩ | ⟨-, -, hreceive⟩
  · obtain ⟨-, hle, hfits⟩ := readCount_spec hroom hinbox chunk
    have hlength : (d.received ++ c.inbox.take (d.readCount c chunk)).length =
        d.rxLen + d.readCount c chunk := by
      rw [List.length_append, length_received h.inBounds.le, List.length_take_of_le hle]
    refine ⟨_, hreceive, ?_, hidle⟩
    exact { h with
      inBounds := hfits
      terminated := by
        refine .inr ⟨d.rxLen + d.readCount c chunk, le_rfl, ?_⟩
        obtain ⟨rest, hcells⟩ := hbegins
        rw [← hcells, ← hlength, List.append_assoc, List.getElem?_append_right le_rfl, Nat.sub_self]
        rfl
      vacant := fun hc => by cases hc
      pendingClient := fun p hp => absurd hp (hpending p) }
  · exact ⟨d, hreceive, h, hidle⟩
  · refine ⟨_, hreceive, ?_, hidle⟩
    exact { h with
      inBounds := rx_pos
      terminated := .inl rfl
      vacant := fun _ => rfl
      pendingClient := fun p hp => absurd hp (hpending p) }

/-- **Taking a line stays in the buffers**, and the line is answered or pending. -/
theorem Sound.takeLine (h : d.Sound) (hidle : d.pending = none) (t : Turn) :
    ∃ d', d.takeLine P t = some d' ∧ d'.Disciplined := by
  have hanswered : d.taken.map Prod.fst = d.replies.map Prod.fst := by
    rw [h.answered, hidle]
    exact List.append_nil _
  rcases takeLine_cases (P := P) h.inBounds.le t with
    ⟨hnone, htake⟩ | ⟨line, rest, rxBuf, text, hreceived, hbegins, hbehind, htake⟩
  · exact ⟨d, htake, h, fun _ => hnone⟩
  · have hlength : line.length + (rest.length + 1) = d.rxLen := by
      rw [← length_received h.inBounds.le, hreceived, List.length_append, List.length_cons]
    have hclient : d.client ≠ none := fun hc => by
      have := h.vacant hc
      omega
    have hid : d.clientId ≠ none := fun hc => hclient (Option.map_eq_none_iff.1 hc)
    have hbounds : rest.length < IPC_RX_BUF_SIZE - 1 := by
      have := h.inBounds
      omega
    have hterminated : ∃ k, rest.length ≤ k ∧ rxBuf.cells[k]? = some 0 := by
      rcases h.terminated with hzero | ⟨k, hk, hcell⟩
      · omega
      · refine ⟨k, by omega, ?_⟩
        have hsame : ∀ {cells : List UInt8},
            cells[k]? = (cells.drop rest.length)[k - rest.length]? := by
          intro cells
          rw [List.getElem?_drop, Nat.add_sub_cancel' (by omega)]
        rw [hsame, hbehind, ← hsame, hcell]
    have hknown : ∀ x ∈ d.taken ++ [(d.clientId, text)], x.1 ≠ none :=
      List.forall_mem_append.2 ⟨h.known, List.forall_mem_singleton.2 hid⟩
    rcases startRequest_cases (P := P) { d with
        rxBuf, rxLen := rest.length, taken := d.taken ++ [(d.clientId, text)] } text t with
      ⟨refusal, hline, hstart⟩ | ⟨request, hstart⟩
    · refine ⟨_, htake.trans hstart, ?_⟩
      exact {
        inBounds := by
          show rest.length < _
          omega
        terminated := .inr hterminated
        vacant := fun hc => absurd hc hclient
        pendingClient := fun p hp => by
          rw [show d.pending = some p from hp] at hidle
          cases hidle
        answered := by
          rw [hidle, List.map_append, List.map_append, hanswered]
          exact (List.append_nil _).symm
        known := hknown
        oneLine := List.forall_mem_append.2 ⟨h.oneLine, List.forall_mem_singleton.2 hline⟩
        full := fun hfull => absurd hfull hbounds.ne }
    · refine ⟨_, htake.trans hstart, ?_⟩
      exact {
        inBounds := by
          show rest.length < _
          omega
        terminated := .inr hterminated
        vacant := fun hc => absurd hc hclient
        pendingClient := fun p hp => by
          obtain rfl : _ = p := Option.some.inj hp
          exact ⟨hclient, rfl⟩
        answered := by
          show (d.taken ++ [(d.clientId, text)]).map Prod.fst =
            d.replies.map Prod.fst ++ [d.clientId]
          rw [List.map_append, hanswered]
          rfl
        known := hknown
        oneLine := h.oneLine
        full := fun hfull => absurd hfull hbounds.ne }

theorem Disciplined.serveClient (h : d.Disciplined) (t : Turn) :
    ∃ d', d.serveClient P t = some d' ∧ d'.Disciplined := by
  rw [Daemon.serveClient]
  cases hreads : d.reads with
  | none => exact ⟨d, rfl, h⟩
  | some c =>
    obtain ⟨d₁, hreceive, h₁, hidle⟩ := h.toSound.receive hreads t.chunk
    obtain ⟨d₂, htake, h₂⟩ := h₁.takeLine (P := P) hidle t
    refine ⟨d₂, ?_, h₂⟩
    show ((d.receive c t.chunk).bind fun d => d.takeLine P t) = some d₂
    rw [hreceive, Option.bind_some, htake]

theorem Disciplined.handleMessage (h : d.Disciplined) (message : Option Message) :
    (d.handleMessage message).Disciplined :=
  { h with }

/-- **The pending request is answered to the client it came from.** -/
theorem Disciplined.answer (h : d.Disciplined) (t : Turn) :
    ∃ d', d.answer P t = some d' ∧ d'.Disciplined := by
  rcases answer_cases (P := P) d t with ⟨hanswer, -⟩ | ⟨p, text, hpending, hline, hanswer⟩
  · exact ⟨d, hanswer, h⟩
  · refine ⟨_, hanswer, ?_⟩
    exact { h with
      pendingClient := fun q hq => by cases hq
      answered := by
        have hanswered := h.answered
        rw [hpending] at hanswered
        show d.taken.map Prod.fst = (d.replies ++ [(p.client, text)]).map Prod.fst ++ []
        rw [hanswered, List.map_append, List.append_nil]
        rfl
      oneLine := List.forall_mem_append.2 ⟨h.oneLine, List.forall_mem_singleton.2 hline⟩ }

theorem Disciplined.turn (h : d.Disciplined) (t : Turn) :
    ∃ d', d.turn P t = some d' ∧ d'.Disciplined := by
  rw [Daemon.turn]
  split
  · exact ⟨_, rfl, h.accept t.accepts⟩
  · obtain ⟨d₁, hserve, h₁⟩ := (h.accept t.accepts).serveClient (P := P) t
    obtain ⟨d₂, hanswer, h₂⟩ := (h₁.handleMessage t.message).answer (P := P) t
    exact ⟨d₂, by rw [hserve, Option.bind_some, hanswer], h₂⟩

theorem Disciplined.step (h : d.Disciplined) (e : DaemonEvent) :
    ∃ d', d.step P e = some d' ∧ d'.Disciplined := by
  cases e with
  | connect => exact ⟨_, rfl, { h with }⟩
  | send id bytes =>
    refine ⟨_, rfl, h.onConnection id fun c => ?_⟩
    unfold Connection.send
    split <;> rfl
  | close id => exact ⟨_, rfl, h.onConnection id fun c => rfl⟩
  | turn t => exact h.turn t

theorem Disciplined.run (h : d.Disciplined) (es : List DaemonEvent) :
    ∃ d', (machine P).run d es = some d' ∧ d'.Disciplined := by
  induction es generalizing d with
  | nil => exact ⟨d, rfl, h⟩
  | cons e es ih =>
    obtain ⟨d₁, hstep, h₁⟩ := h.step (P := P) e
    obtain ⟨d₂, hrun, h₂⟩ := ih h₁
    refine ⟨d₂, ?_, h₂⟩
    rw [Machine.run_cons]
    show ((d.step P e).bind fun d => (machine P).run d es) = some d₂
    rw [hstep, Option.bind_some, hrun]

theorem Disciplined.answer_in_time (h : d.Disciplined) {p : Pending} (hp : d.pending = some p)
    {t : Turn} (hlate : 10 < t.now - p.startedAt) :
    ∃ d' text, d.turn P t = some d' ∧ d'.pending = none ∧
      d'.replies = d.replies ++ [(p.client, text)] := by
  -- while a request is pending, nothing is accepted and nothing is read
  have haccept : d.accept t.accepts = d := by
    unfold Daemon.accept
    split
    · next c waiting hclient hwaiting => exact absurd hclient (h.pendingClient p hp).1
    · rfl
  have hreads : d.reads = none := by
    rw [reads, hp, if_neg]
    rintro ⟨hidle, -⟩
    cases hidle
  have hblocked : d.blocked P = false := by
    rw [blocked, hreads]
    exact Bool.and_false _
  rcases answer_cases (P := P) (d.handleMessage t.message) t with
    ⟨-, hwait⟩ | ⟨q, text, hq, -, hanswer⟩
  · exact absurd hlate (not_lt.2 (hwait p hp))
  · obtain rfl : p = q := Option.some.inj (hp.symm.trans hq)
    have hturn : d.turn P t = (d.handleMessage t.message).answer P t := by
      rw [Daemon.turn, haccept, hblocked, if_neg Bool.false_ne_true, Daemon.serveClient, hreads]
      rfl
    exact ⟨_, text, hturn.trans hanswer, rfl, rfl⟩

/-- **Buffer safety and reply discipline.**  Whatever the clients do and whatever comes over the
bus, no turn leaves an array or reads a string that is not terminated.  What was received is within
the buffer, with a zero behind it.  Every line that was taken off the buffer, but for the one that
is pending, has one line in answer, to the connection it was taken from and in order; and the one
that is pending is answered by any turn after ten seconds. -/
theorem daemon_disciplined (P : Platform) (es : List DaemonEvent) :
    ∃ d, (machine P).run (start P) es = some d ∧ d.Disciplined ∧
      ∀ p, d.pending = some p → ∀ t : Turn, 10 < t.now - p.startedAt →
        ∃ d' text, d.turn P t = some d' ∧ d'.pending = none ∧
          d'.replies = d.replies ++ [(p.client, text)] := by
  obtain ⟨d, hrun, hd⟩ := (disciplined_start P).run (P := P) es
  exact ⟨d, hrun, hd, fun p hp t hlate => hd.answer_in_time hp hlate⟩

end Daemon

end XEdge.Bacnet.Mstp
