import XEdge.Bacnet.MstpDaemon

/-!
# When the MS/TP daemon stalls

The loop looks for a line, and for the end of the connection, only where it reads; and it reads only
while there is room in the buffer.  A buffer that is full of a line without its newline is never
read into again: the line does not end, the close of the client is not seen, and no other client is
accepted.
-/

namespace XEdge.Bacnet.Mstp

open Lib

namespace Daemon

variable {P : Platform} {d : Daemon} {c : Connection}

/-- The daemon is stalled: there is something to do, and it is never done. -/
def Stalled (P : Platform) (d : Daemon) : Prop :=
  d.pending = none ∧ ∃ c, d.client = some c ∧ (10 ∈ d.received ∨ c.closed = true) ∧
    ∀ es d', (machine P).run d es = some d' → d'.taken = d.taken ∧ d'.clientId = some c.id

def Jammed (d : Daemon) : Prop :=
  d.pending = none ∧ ∃ c, d.client = some c ∧ c.closed = true ∧
    IPC_RX_BUF_SIZE - 1 ≤ (d.received ++ c.inbox).length ∧
    10 ∉ (d.received ++ c.inbox).take (IPC_RX_BUF_SIZE - 1)

/-! ## Turns with a client -/

theorem accept_of_client (h : d.client = some c) (accepts : Bool) : d.accept accepts = d := by
  unfold accept
  split
  · next hclient _ =>
    rw [h] at hclient
    cases hclient
  · rfl

theorem reads_of_room (hclient : d.client = some c) (hidle : d.pending = none)
    (hroom : d.rxLen < IPC_RX_BUF_SIZE - 1) : d.reads = some c := by
  rw [reads, if_pos ⟨hidle, hroom⟩, hclient]

theorem reads_of_full (hroom : ¬ d.rxLen < IPC_RX_BUF_SIZE - 1) : d.reads = none :=
  if_neg fun h => hroom h.2

theorem finish_idle (h : d.pending = none) (t : Turn) :
    (d.handleMessage t.message).answer P t = some (d.handleMessage t.message) := by
  rw [answer, show (d.handleMessage t.message).pending = none from h]

theorem turn_of_client (hclient : d.client = some c) (hdata : c.inbox = [] → c.closed = true)
    (t : Turn) :
    d.turn P t = (d.serveClient P t).bind fun d => (d.handleMessage t.message).answer P t := by
  have hblocked : d.blocked P = false := by
    rw [blocked, Bool.and_eq_false_iff]
    right
    cases hreads : d.reads with
    | none => rfl
    | some c' =>
      obtain rfl : c = c' := Option.some.inj (hclient.symm.trans (reads_eq_some hreads).1)
      by_cases hinbox : c.inbox = []
      · simp [hinbox, hdata hinbox]
      · simp [hinbox]
  rw [turn, accept_of_client hclient, hblocked, if_neg Bool.false_ne_true]

theorem finish_turn (d : Daemon) (t : Turn) :
    ∃ d', (d.handleMessage t.message).answer P t = some d' ∧ d'.taken = d.taken ∧
      d'.clientId = d.clientId := by
  rcases answer_cases (P := P) (d.handleMessage t.message) t with
    ⟨hanswer, -⟩ | ⟨p, text, -, -, hanswer⟩
  · exact ⟨_, hanswer, rfl, rfl⟩
  · exact ⟨_, hanswer, rfl, rfl⟩

theorem takeLine_of_not_mem (hroom : d.rxLen ≤ IPC_RX_BUF_SIZE) (h : 10 ∉ d.received) (t : Turn) :
    d.takeLine P t = some d := by
  rcases takeLine_cases (P := P) hroom t with ⟨-, htake⟩ | ⟨line, rest, _, _, hline, -⟩
  · exact htake
  · rw [hline] at h
    exact absurd (List.mem_append_right _ List.mem_cons_self) h

theorem takeLine_of_mem (hroom : d.rxLen ≤ IPC_RX_BUF_SIZE) (h : 10 ∈ d.received) (t : Turn) :
    ∃ d' x, d.takeLine P t = some d' ∧ d'.taken = d.taken ++ [x] := by
  rcases takeLine_cases (P := P) hroom t with ⟨hnone, -⟩ | ⟨line, rest, rxBuf, text, -, -, -, htake⟩
  · exact absurd h hnone
  · rcases startRequest_cases (P := P) { d with
        rxBuf, rxLen := rest.length, taken := d.taken ++ [(d.clientId, text)] } text t with
      ⟨refusal, -, hstart⟩ | ⟨request, hstart⟩
    · exact ⟨_, _, htake.trans hstart, rfl⟩
    · exact ⟨_, _, htake.trans hstart, rfl⟩

theorem serveClient_of_data (hreads : d.reads = some c) (hinbox : c.inbox ≠ []) (t : Turn) :
    ∃ d₁ : Daemon, d.serveClient P t = d₁.takeLine P t ∧ d₁.rxLen < IPC_RX_BUF_SIZE ∧
      d₁.received = d.received ++ c.inbox.take (d.readCount c t.chunk) ∧
      d₁.client = some { c with inbox := c.inbox.drop (d.readCount c t.chunk) } ∧
      d₁.pending = none ∧ d₁.taken = d.taken := by
  obtain ⟨-, hidle, hroom⟩ := reads_eq_some hreads
  obtain ⟨-, hle, hfits⟩ := readCount_spec hroom hinbox t.chunk
  rcases receive_cases (c := c) hroom t.chunk with
    ⟨-, rxBuf, hbegins, hreceive⟩ | ⟨hnil, -⟩ | ⟨hnil, -⟩
  · have hserve : d.serveClient P t = takeLine P { d with
        client := some { c with inbox := c.inbox.drop (d.readCount c t.chunk) }
        rxBuf
        rxLen := d.rxLen + d.readCount c t.chunk } t := by
      rw [serveClient, hreads]
      show ((d.receive c t.chunk).bind fun d => d.takeLine P t) = _
      rw [hreceive, Option.bind_some]
    refine ⟨_, hserve, hfits, ?_, rfl, hidle, rfl⟩
    refine received_of_begins ((List.prefix_append _ _).trans hbegins) ?_
    rw [List.length_append, length_received (by omega), List.length_take_of_le hle]
  · exact absurd hnil hinbox
  · exact absurd hnil hinbox

/-! ## A jammed daemon stays jammed -/

structure JammedOn (id : Nat) (stream : List UInt8) (d : Daemon) : Prop where
  idle : d.pending = none
  client : ∃ c, d.client = some c ∧ c.id = id ∧ c.closed = true ∧ d.received ++ c.inbox = stream
  long : IPC_RX_BUF_SIZE - 1 ≤ stream.length
  endless : 10 ∉ stream.take (IPC_RX_BUF_SIZE - 1)

theorem jammed_iff : d.Jammed ↔ ∃ id stream, d.JammedOn id stream := by
  constructor
  · rintro ⟨hidle, c, hclient, hclosed, hlong, hendless⟩
    exact ⟨c.id, _, hidle, ⟨c, hclient, rfl, hclosed, rfl⟩, hlong, hendless⟩
  · rintro ⟨id, stream, hidle, ⟨c, hclient, -, hclosed, rfl⟩, hlong, hendless⟩
    exact ⟨hidle, c, hclient, hclosed, hlong, hendless⟩

variable {id : Nat} {stream : List UInt8}

theorem JammedOn.clientId (h : d.JammedOn id stream) : d.clientId = some id := by
  obtain ⟨c, hclient, hid, -⟩ := h.client
  rw [Daemon.clientId, hclient, Option.map_some, hid]

theorem JammedOn.onConnection (h : d.JammedOn id stream) (id' : Nat) {f : Connection → Connection}
    (hf : ∀ c : Connection, c.closed = true → f c = c) :
    (d.onConnection id' f).JammedOn id stream := by
  obtain ⟨c, hclient, hid, hclosed, hstream⟩ := h.client
  refine ⟨h.idle, ⟨c, ?_, hid, hclosed, hstream⟩, h.long, h.endless⟩
  show d.client.map _ = some c
  rw [hclient, Option.map_some]
  split
  · rw [hf c hclosed]
  · rfl

theorem JammedOn.serveClient (h : d.JammedOn id stream) (hbounds : d.rxLen < IPC_RX_BUF_SIZE)
    (t : Turn) :
    ∃ d', d.serveClient P t = some d' ∧ d'.JammedOn id stream ∧ d'.taken = d.taken := by
  obtain ⟨c, hclient, hid, hclosed, hstream⟩ := h.client
  by_cases hroom : d.rxLen < IPC_RX_BUF_SIZE - 1
  · have hinbox : c.inbox ≠ [] := by
      intro hnil
      have hlong := h.long
      rw [← hstream, hnil, List.append_nil, length_received hbounds.le] at hlong
      omega
    obtain ⟨d₁, hserve, hfits, hreceived, hclient₁, hidle, htaken⟩ :=
      serveClient_of_data (P := P) (reads_of_room hclient h.idle hroom) hinbox t
    have hstream₁ : d₁.received ++ c.inbox.drop (d.readCount c t.chunk) = stream := by
      rw [hreceived, List.append_assoc, List.take_append_drop, hstream]
    have hnone : 10 ∉ d₁.received := by
      intro hmem
      refine h.endless (List.IsPrefix.subset (List.prefix_take_iff.2 ⟨⟨_, hstream₁⟩, ?_⟩) hmem)
      rw [length_received hfits.le]
      omega
    exact ⟨d₁, hserve.trans (takeLine_of_not_mem hfits.le hnone t),
      ⟨hidle, ⟨_, hclient₁, hid, hclosed, hstream₁⟩, h.long, h.endless⟩, htaken⟩
  · refine ⟨d, ?_, h, rfl⟩
    rw [Daemon.serveClient, reads_of_full hroom]

theorem JammedOn.turn (h : d.JammedOn id stream) (hbounds : d.rxLen < IPC_RX_BUF_SIZE) (t : Turn) :
    ∃ d', d.turn P t = some d' ∧ d'.JammedOn id stream ∧ d'.taken = d.taken := by
  obtain ⟨c, hclient, -, hclosed, -⟩ := h.client
  obtain ⟨d₁, hserve, h₁, htaken⟩ := h.serveClient (P := P) hbounds t
  refine ⟨d₁.handleMessage t.message, ?_, ⟨h₁.idle, h₁.client, h₁.long, h₁.endless⟩, htaken⟩
  rw [turn_of_client hclient fun _ => hclosed, hserve, Option.bind_some]
  exact finish_idle h₁.idle t

theorem JammedOn.step (h : d.JammedOn id stream) (hbounds : d.rxLen < IPC_RX_BUF_SIZE)
    (e : DaemonEvent) :
    ∃ d', d.step P e = some d' ∧ d'.JammedOn id stream ∧ d'.taken = d.taken := by
  cases e with
  | connect => exact ⟨_, rfl, ⟨h.idle, h.client, h.long, h.endless⟩, rfl⟩
  | send id' bytes =>
    refine ⟨_, rfl, h.onConnection id' fun c hc => ?_, rfl⟩
    rw [Connection.send, if_pos hc]
  | close id' =>
    refine ⟨_, rfl, h.onConnection id' fun c hc => ?_, rfl⟩
    rw [Connection.close, ← hc]
  | turn t => exact h.turn hbounds t

variable {d' : Daemon}

theorem JammedOn.run (h : d.JammedOn id stream) (hd : d.Disciplined) {es : List DaemonEvent}
    (hrun : (machine P).run d es = some d') :
    d'.taken = d.taken ∧ d'.clientId = some id := by
  induction es generalizing d with
  | nil =>
    obtain rfl : d = d' := Option.some.inj hrun
    exact ⟨rfl, h.clientId⟩
  | cons e es ih =>
    obtain ⟨d₁, hstep, hrest⟩ := (machine P).run_eq_some_cons hrun
    obtain ⟨d₂, hstep₂, h₂, htaken⟩ := h.step (P := P) hd.inBounds e
    obtain ⟨d₃, hstep₃, h₃⟩ := hd.step (P := P) e
    obtain rfl : d₁ = d₂ := Option.some.inj (hstep.symm.trans hstep₂)
    obtain rfl : d₁ = d₃ := Option.some.inj (hstep.symm.trans hstep₃)
    obtain ⟨hsame, hclient⟩ := ih h₂ h₃ hrest
    exact ⟨hsame.trans htaken, hclient⟩

theorem stalled_of_jammed (hd : d.Disciplined) (h : d.Jammed) : d.Stalled P := by
  obtain ⟨hidle, c, hclient, hclosed, hlong, hendless⟩ := h
  have hjammed : d.JammedOn c.id (d.received ++ c.inbox) :=
    ⟨hidle, ⟨c, hclient, rfl, hclosed, rfl⟩, hlong, hendless⟩
  exact ⟨hidle, c, hclient, .inr hclosed, fun es d' hrun => hjammed.run hd hrun⟩

/-! ## A daemon that is not jammed goes on -/

def quietTurn (chunk : Nat) : Turn := ⟨0, false, chunk, 0, none, false⟩

def Moves (P : Platform) (d : Daemon) (id : Nat) : Prop :=
  ∃ es d', (machine P).run d es = some d' ∧ ¬ (d'.taken = d.taken ∧ d'.clientId = some id)

theorem Moves.of_step {e : DaemonEvent} (hstep : d.step P e = some d')
    (htaken : d'.taken = d.taken) (h : Moves P d' id) : Moves P d id := by
  obtain ⟨es, d'', hrun, hmoved⟩ := h
  refine ⟨e :: es, d'', ?_, by rwa [← htaken]⟩
  rw [Machine.run_cons]
  show ((d.step P e).bind fun d => (machine P).run d es) = some d''
  rw [hstep, Option.bind_some, hrun]

theorem moves_of_ended (hreads : d.reads = some c) (hinbox : c.inbox = [])
    (hclosed : c.closed = true) (id : Nat) : Moves P d id := by
  obtain ⟨hclient, hidle, hroom⟩ := reads_eq_some hreads
  rcases receive_cases (c := c) hroom 1 with ⟨hne, -⟩ | ⟨-, hopen, -⟩ | ⟨-, -, hreceive⟩
  · exact absurd hinbox hne
  · rw [hclosed] at hopen
    cases hopen
  · have hserve : d.serveClient P (quietTurn 1) = some { d with client := none, rxLen := 0 } := by
      rw [serveClient, hreads]
      show ((d.receive c 1).bind fun d => d.takeLine P (quietTurn 1)) = _
      rw [hreceive, Option.bind_some]
      exact takeLine_of_not_mem (Nat.zero_le _) List.not_mem_nil _
    obtain ⟨d', hfinish, -, hid⟩ :=
      finish_turn (P := P) { d with client := none, rxLen := 0 } (quietTurn 1)
    refine ⟨[.turn (quietTurn 1)], d', ?_, ?_⟩
    · rw [Machine.run_singleton]
      show d.turn P (quietTurn 1) = _
      rw [turn_of_client hclient fun _ => hclosed, hserve, Option.bind_some, hfinish]
    · rintro ⟨-, hsame⟩
      rw [hid] at hsame
      cases hsame

theorem moves_of_newline (hreads : d.reads = some c) (hinbox : c.inbox ≠ []) (chunk : Nat)
    (hmem : 10 ∈ d.received ++ c.inbox.take (d.readCount c chunk)) (id : Nat) : Moves P d id := by
  obtain ⟨hclient, -, -⟩ := reads_eq_some hreads
  obtain ⟨d₁, hserve, hfits, hreceived, -, -, htaken⟩ :=
    serveClient_of_data (P := P) hreads hinbox (quietTurn chunk)
  obtain ⟨d₂, x, htake, hmore⟩ :=
    takeLine_of_mem (P := P) hfits.le (by rw [hreceived]; exact hmem) (quietTurn chunk)
  obtain ⟨d₃, hfinish, hsame, -⟩ := finish_turn (P := P) d₂ (quietTurn chunk)
  refine ⟨[.turn (quietTurn chunk)], d₃, ?_, ?_⟩
  · rw [Machine.run_singleton]
    show d.turn P (quietTurn chunk) = _
    rw [turn_of_client hclient fun hnil => absurd hnil hinbox, hserve, htake, Option.bind_some,
      hfinish]
  · rintro ⟨heq, -⟩
    rw [hsame, hmore, htaken] at heq
    simpa using congrArg List.length heq

theorem moves_of_line (hidle : d.pending = none) (hclient : d.client = some c)
    (hroom : d.rxLen < IPC_RX_BUF_SIZE - 1) (hmem : 10 ∈ d.received) (id : Nat) :
    Moves P d id := by
  have hclient' : (d.onConnection c.id (·.send [0])).client = some (c.send [0]) := by
    show d.client.map _ = _
    rw [hclient, Option.map_some, if_pos rfl]
  have hreads : (d.onConnection c.id (·.send [0])).reads = some (c.send [0]) :=
    reads_of_room hclient' hidle hroom
  refine Moves.of_step (e := .send c.id [0]) rfl rfl ?_
  by_cases hinbox : (c.send [0]).inbox = []
  · refine moves_of_ended hreads hinbox ?_ id
    unfold Connection.send at hinbox ⊢
    split at hinbox
    · next hclosed => rwa [if_pos hclosed]
    · exact absurd hinbox (List.append_ne_nil_of_right_ne_nil _ (List.cons_ne_nil _ _))
  · exact moves_of_newline hreads hinbox 1 (List.mem_append_left _ hmem) id

theorem moves_of_closed (hd : d.Disciplined) (hidle : d.pending = none)
    (hclient : d.client = some c) (hclosed : c.closed = true) (hfree : ¬ d.Jammed)
    (id : Nat) : Moves P d id := by
  have hlength : d.received.length = d.rxLen := length_received hd.inBounds.le
  have hjam : ∀ {k}, k = IPC_RX_BUF_SIZE - 1 - d.rxLen → k ≤ c.inbox.length →
      10 ∈ d.received ++ c.inbox.take k := by
    rintro k rfl hk
    by_contra hmem
    have hbounds := hd.inBounds
    refine hfree ⟨hidle, c, hclient, hclosed, ?_, ?_⟩
    · rw [List.length_append, hlength]
      omega
    · rwa [List.take_append, hlength, List.take_of_length_le (by omega)]
  by_cases hroom : d.rxLen < IPC_RX_BUF_SIZE - 1
  · have hreads : d.reads = some c := reads_of_room hclient hidle hroom
    by_cases hinbox : c.inbox = []
    · exact moves_of_ended hreads hinbox hclosed id
    · by_cases hmem : 10 ∈ d.received ++ c.inbox.take (d.readCount c IPC_RX_BUF_SIZE)
      · exact moves_of_newline hreads hinbox _ hmem id
      · -- all that the client left is read, without a newline: the end comes next
        have hcount : d.readCount c IPC_RX_BUF_SIZE =
            min (IPC_RX_BUF_SIZE - 1 - d.rxLen) c.inbox.length := by
          rw [readCount, Connection.count]
          omega
        have hshort : c.inbox.length < IPC_RX_BUF_SIZE - 1 - d.rxLen := by
          by_contra hlong
          exact hmem (hjam (by omega) (by omega))
        obtain ⟨d₁, hserve, hfits, hreceived, hclient₁, hidle₁, htaken⟩ :=
          serveClient_of_data (P := P) hreads hinbox (quietTurn IPC_RX_BUF_SIZE)
        have hcount' : d.readCount c (quietTurn IPC_RX_BUF_SIZE).chunk = c.inbox.length := by
          show d.readCount c IPC_RX_BUF_SIZE = _
          omega
        rw [hcount', List.drop_length] at hclient₁
        rw [hcount', List.take_length] at hreceived
        have hnone : 10 ∉ d₁.received := by
          rw [hreceived]
          rwa [show d.readCount c IPC_RX_BUF_SIZE = c.inbox.length from hcount',
            List.take_length] at hmem
        have hroom₁ : d₁.rxLen < IPC_RX_BUF_SIZE - 1 := by
          have := congrArg List.length hreceived
          rw [length_received hfits.le, List.length_append, hlength] at this
          omega
        have hturn : d.turn P (quietTurn IPC_RX_BUF_SIZE) = some (d₁.handleMessage none) := by
          rw [turn_of_client hclient fun _ => hclosed, hserve,
            takeLine_of_not_mem hfits.le hnone, Option.bind_some]
          exact finish_idle hidle₁ _
        refine Moves.of_step (e := .turn (quietTurn IPC_RX_BUF_SIZE)) hturn htaken ?_
        have hreads₁ : (d₁.handleMessage none).reads = some { c with inbox := [] } :=
          reads_of_room hclient₁ hidle₁ hroom₁
        exact moves_of_ended hreads₁ rfl hclosed id
  · -- a full buffer has no line in it
    have hfull : d.rxLen = IPC_RX_BUF_SIZE - 1 := by
      have := hd.inBounds
      omega
    have hmem := hjam (k := 0) (by omega) (Nat.zero_le _)
    rw [List.take_zero, List.append_nil] at hmem
    exact absurd hmem (hd.full hfull)

/-! ## The stall -/

theorem jammed_of_stalled (hd : d.Disciplined) (h : d.Stalled P) : d.Jammed := by
  obtain ⟨hidle, c, hclient, hwork, hnever⟩ := h
  by_contra hfree
  have hmoves : Moves P d c.id := by
    by_cases hmem : 10 ∈ d.received
    · refine moves_of_line hidle hclient ?_ hmem c.id
      have hfull : d.rxLen ≠ IPC_RX_BUF_SIZE - 1 := fun h => hd.full h hmem
      have hbounds := hd.inBounds
      omega
    · exact moves_of_closed hd hidle hclient (hwork.resolve_left hmem) hfree c.id
  obtain ⟨es, d', hrun, hmoved⟩ := hmoves
  exact hmoved (hnever es d' hrun)

def hitAndRun (bytes : List UInt8) : List DaemonEvent :=
  [.connect, .send 0 bytes, .close 0] ++ [.turn { quietTurn 1 with accepts := true }]

theorem stalled_hitAndRun (P : Platform) {bytes : List UInt8}
    (hlong : IPC_RX_BUF_SIZE - 1 ≤ bytes.length)
    (hendless : 10 ∉ bytes.take (IPC_RX_BUF_SIZE - 1)) :
    ∃ d, (machine P).run (start P) (hitAndRun bytes) = some d ∧ d.Stalled P := by
  -- the daemon with its client, before it reads
  let d₀ : Daemon := { start P with client := some ⟨0, bytes, true⟩, nextId := 1 }
  have hjammed : d₀.JammedOn 0 bytes := ⟨rfl, ⟨_, rfl, rfl, rfl, rfl⟩, hlong, hendless⟩
  obtain ⟨d₁, hturn, h₁, -⟩ := hjammed.turn (P := P) rx_pos { quietTurn 1 with accepts := true }
  have hmade : (machine P).run (start P) [.connect, .send 0 bytes, .close 0] =
      some { start P with waiting := [⟨0, bytes, true⟩], nextId := 1 } := rfl
  have hrun : (machine P).run (start P) (hitAndRun bytes) = some d₁ := by
    rw [hitAndRun, Machine.run_append, hmade, Option.bind_some, Machine.run_singleton]
    exact hturn
  obtain ⟨d, hrun', hd⟩ := (disciplined_start P).run (P := P) (hitAndRun bytes)
  obtain rfl : d₁ = d := Option.some.inj (hrun.symm.trans hrun')
  exact ⟨d₁, hrun, stalled_of_jammed hd (jammed_iff.2 ⟨0, bytes, h₁⟩)⟩

def barePlatform : Platform := ⟨Buffer.zeros, false, fun _ => none, fun _ => none, fun _ => none⟩

end Daemon

end XEdge.Bacnet.Mstp
