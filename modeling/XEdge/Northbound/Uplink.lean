import XEdge.Northbound.Mqtt

/-!
# The dispatcher and its MQTT connector together (`dispatcher.py`, `mqtt.py`)

The dispatcher decides when to connect and when to publish; the connector owns the MQTT
client, its network thread and the Sparkplug session.  A connection lifetime begins when the
broker accepts a client.  It should end with `disconnect`, which stops the network loop and
advances `bdSeq`; but only `stop` calls that.  After a publish that failed, the dispatcher
simply connects again: a new client takes the place of the old one, whose loop goes on.

`connect` suspends three times: dialling, waiting for the CONNACK, and publishing the NBIRTH.
`publish` suspends once, after the message was numbered.  `stop` is one step.
-/

namespace XEdge.Northbound

open Lib XEdge.Core Store Sparkplug

structure Lifetime where
  client : Nat
  will : Fin 256
  birth : Fin 256
  birthSeq : Fin 256
  ndata : List (Fin 256)
  deriving DecidableEq

/-- The lifetime after an NDATA was handed to the client `n`. -/
def Lifetime.record (n : Nat) (seq : Fin 256) (l : Lifetime) : Lifetime :=
  if l.client = n then { l with ndata := l.ndata ++ [seq] } else l

/-- Where `connect` is suspended. -/
inductive ConnectStage where
  | idle
  /-- In `client.connect`, with the bdSeq of the Will. -/
  | dialing (client : Nat) (will : Fin 256)
  /-- In `connected_event.wait()`. -/
  | handshaking (client : Nat) (will : Fin 256)
  | birthing (client : Nat)
  deriving DecidableEq

/-- How `client.connect` ends. -/
inductive DialOutcome where
  | connected
  /-- `TimeoutError`. -/
  | timedOut
  | raised
  deriving DecidableEq

inductive HandshakeOutcome where
  | accepted
  | refused
  | timedOut
  deriving DecidableEq

structure Uplink where
  gateway : Gateway
  connector : MqttConnector
  stage : ConnectStage
  sending : Option Nat
  loops : List Nat
  subscribed : List Nat
  nextClient : Nat
  lifetimes : List Lifetime
  commands : List (List NcmdMetric × List WriteCall)
  deriving DecidableEq

inductive UplinkEvent where
  | gateway (e : Event)
  /-- `connect` begins; setting up the client works or raises. -/
  | dial (setup : Bool)
  | dialed (outcome : DialOutcome)
  | connack (outcome : HandshakeOutcome)
  | birthed (ok : Bool)
  /-- `publish` is called. -/
  | publish (nowMs : Int)
  | published (delivery : Except String Unit)
  /-- `stop` is called; `client.disconnect` works or raises. -/
  | stop (ok : Bool)
  | ncmd (metrics : List NcmdMetric) (reached : List Nat)

def Event.ofConnector : Event → Bool
  | .connectDone _ | .publishDone _ => true
  | _ => false

/-- The batch of the `publish` that the dispatcher awaits. -/
def Gateway.publishBatch (g : Gateway) : Option (List Sample) :=
  match g.phase with
  | .publishing batch => some batch
  | .replaying _ _ rows => some (rows.map Row.tag)
  | _ => none

structure UplinkParams where
  gateway : Params
  convert : PyConvert
  view : Sample → MqttTag
  /-- `write_router is not None`. -/
  hasRouter : Bool

namespace Uplink

variable (U : UplinkParams)

def start (g : Gateway) : Uplink where
  gateway := g
  connector := ⟨.new, none, 0, 0⟩
  stage := .idle
  sending := none
  loops := []
  subscribed := []
  nextClient := 0
  lifetimes := []
  commands := []

/-- `connect` is over. -/
def finishConnect (s : Uplink) (outcome : ConnectOutcome) : Uplink :=
  { s with stage := .idle, gateway := s.gateway.onConnect U.gateway outcome }

/-- `client.loop_stop()` and `self._client = None`. -/
def dropClient (s : Uplink) (n : Nat) : Uplink :=
  { s with loops := s.loops.erase n, connector := { s.connector with client := none } }

/-- The writes of an NCMD message: every subscribed client that it reaches and whose loop
runs calls `_on_message`. -/
def commandWrites (s : Uplink) (metrics : List NcmdMetric) (reached : List Nat) : List WriteCall :=
  (s.loops.filter fun n => n ∈ s.subscribed ∧ n ∈ reached).flatMap fun _ => onMessage metrics

def step (s : Uplink) : UplinkEvent → Option Uplink
  | .gateway e =>
      if e.ofConnector then none
      else (s.gateway.step U.gateway e).map fun g => { s with gateway := g }
  | .dial setup =>
      match s.gateway.phase, s.stage, setup with
      | .connecting, .idle, true =>
          some { s with
            connector := { s.connector with client := some s.nextClient }
            stage := .dialing s.nextClient s.connector.session.bdSeq
            nextClient := s.nextClient + 1 }
      | .connecting, .idle, false => some (s.finishConnect U .raised)
      | _, _, _ => none
  | .dialed outcome =>
      match s.stage, outcome with
      | .dialing n will, .connected =>
          some { s with loops := s.loops ++ [n], stage := .handshaking n will }
      | .dialing _ _, .timedOut =>
          some ({ s with connector := { s.connector with client := none } }.finishConnect U .raised)
      -- `_client` stays
      | .dialing _ _, .raised => some (s.finishConnect U .raised)
      | _, _ => none
  | .connack outcome =>
      match s.stage, outcome with
      | .handshaking n will, .accepted =>
          let (bdSeq, session) := s.connector.session.startBirth
          some { s with
            connector := { s.connector with session }
            stage := .birthing n
            subscribed := if U.hasRouter then s.subscribed ++ [n] else s.subscribed
            lifetimes := s.lifetimes ++ [⟨n, will, bdSeq, NBIRTH_SEQ, []⟩] }
      | .handshaking n _, _ => some ((s.dropClient n).finishConnect U .raised)
      | _, _ => none
  | .birthed ok =>
      match s.stage with
      | .birthing _ => some (s.finishConnect U (if ok then .connected else .raised))
      | _ => none
  | .publish nowMs =>
      match s.sending, s.gateway.publishBatch with
      | none, some samples =>
          match s.connector.prepare U.convert nowMs (samples.map U.view) with
          | (.returned result, connector) =>
              (s.gateway.step U.gateway (.publishDone (publishOutcome (.ok result)))).map fun g =>
                { s with gateway := g, connector }
          | (.raised e, connector) =>
              (s.gateway.step U.gateway (.publishDone (publishOutcome (.error e)))).map fun g =>
                { s with gateway := g, connector }
          | (.sending n seq _, connector) =>
              some { s with
                connector
                sending := some n
                lifetimes := s.lifetimes.map (Lifetime.record n seq) }
      | _, _ => none
  | .published delivery =>
      match s.sending, s.gateway.publishBatch with
      | some _, some samples =>
          let (result, connector) := s.connector.deliver samples.length delivery
          (s.gateway.step U.gateway (.publishDone (publishOutcome (.ok result)))).map fun g =>
            { s with gateway := g, connector, sending := none }
      | _, _ => none
  | .stop ok =>
      match s.gateway.connected, s.connector.client, ok with
      | true, some n, true =>
          let s' := s.dropClient n
          some { s' with
            gateway := { s.gateway with connected := false }
            connector := { s'.connector with session := s.connector.session.advanceBdSeq } }
      | true, some _, false => some s
      | true, none, _ => some { s with gateway := { s.gateway with connected := false } }
      | false, _, _ => some s
  | .ncmd metrics reached =>
      some { s with commands := s.commands ++ [(metrics, s.commandWrites metrics reached)] }

end Uplink

def uplinkMachine (U : UplinkParams) : Machine Uplink UplinkEvent := ⟨Uplink.step U⟩

/-! ## What one step can do -/

namespace Gateway

variable {P : Params} {g g' : Gateway}

def Settled (g : Gateway) : Prop := g.phase = .connecting → g.connected = false

theorem settled_loopHead (g : Gateway) : g.loopHead.Settled := by
  unfold Settled loopHead
  cases g.connected <;> simp

theorem settled_of_phase (h : g.phase ≠ .connecting) : g.Settled := fun hph => absurd hph h

@[simp] theorem connected_replayFrom (g : Gateway) (keys : List String) :
    (replayFrom P g keys).connected = g.connected := by
  obtain ⟨c, ph, heq, -⟩ := replayFrom_spec (P := P) g keys
  rw [heq]

theorem phase_replayFrom_ne (g : Gateway) (keys : List String) :
    (replayFrom P g keys).phase ≠ .connecting := by
  obtain ⟨c, ph, heq, -, hph⟩ := replayFrom_spec (P := P) g keys
  rw [heq]
  obtain rfl | ⟨k, ks, rfl⟩ := hph <;> simp

theorem push_frame (g : Gateway) (k : String) (a : Bool) (tag : UnifiedTag) :
    (g.push P k a tag).phase = g.phase ∧ (g.push P k a tag).connected = g.connected := by
  obtain ⟨m, heq, -⟩ | ⟨m, sp, heq, -⟩ := push_spec (P := P) g k a tag
  · rw [heq]
    exact ⟨rfl, rfl⟩
  · rw [heq]
    exact ⟨rfl, rfl⟩

/-- What does not come from the connector leaves the connection and a pending connect
alone. -/
theorem step_frame {e : Event} (h : g.step P e = some g') (he : e.ofConnector = false) :
    g'.connected = g.connected ∧
      (g.phase = .connecting → g'.phase = .connecting) ∧ (g.Settled → g'.Settled) := by
  cases step_cases h with
  | push k a tag =>
    obtain ⟨hph, hconn⟩ := push_frame (P := P) g k a tag
    refine ⟨hconn, fun hg => hph.trans hg, fun hg => ?_⟩
    unfold Settled
    rw [hph, hconn]
    exact hg
  | refresh | purge => exact ⟨rfl, id, id⟩
  | connect | live | replay => cases he
  | slept hph => exact ⟨rfl, by simp [hph], fun _ => settled_loopHead _⟩
  | woken hph =>
    unfold onWoken
    simp only
    split
    · exact ⟨rfl, by simp [hph], fun _ => settled_loopHead _⟩
    · exact ⟨rfl, by simp [hph], fun _ => settled_of_phase (by simp)⟩

theorem publishDone_frame {outcome : PublishOutcome}
    (h : g.step P (.publishDone outcome) = some g') :
    g.phase ≠ .connecting ∧ g'.Settled ∧
      g'.connected = if outcome = .failure then false else g.connected := by
  cases step_cases h with
  | live batch outcome hph =>
    refine ⟨by simp [hph], ?_, ?_⟩
    · cases outcome with
      | success | failure => exact settled_loopHead _
      | raised => exact settled_of_phase (by simp [onLivePublish])
    · cases outcome <;> rfl
  | replay k rest rows outcome hph =>
    refine ⟨by simp [hph], settled_of_phase ?_, ?_⟩
    · cases outcome with
      | success => exact phase_replayFrom_ne _ _
      | failure | raised => simp [onReplayPublish]
    · cases outcome with
      | success => exact connected_replayFrom _ _
      | failure | raised => rfl

theorem onConnect_frame (g : Gateway) (outcome : ConnectOutcome) :
    (g.onConnect P outcome).Settled ∧
      (g.onConnect P outcome).connected = (if outcome = .connected then true else g.connected) := by
  cases outcome with
  | connected => exact ⟨settled_of_phase (phase_replayFrom_ne _ _), connected_replayFrom _ _⟩
  | raised => exact ⟨settled_of_phase (by simp [onConnect]), rfl⟩

end Gateway

namespace MqttConnector

variable {P : PyConvert} {c c' : MqttConnector} {nowMs : Int} {batch : List MqttTag}

theorem prepare_spec (P : PyConvert) (c : MqttConnector) (nowMs : Int) (batch : List MqttTag) :
    match c.prepare P nowMs batch with
    | (.returned result, c') => c' = c ∧ (result.success = false → c.client = none)
    | (.raised _, c') => c'.client = c.client ∧ c'.session.bdSeq = c.session.bdSeq
    | (.sending n seq _, c') =>
        c.client = some n ∧ seq = c.session.seq ∧
          c' = { c with session := ⟨c.session.bdSeq, c.session.seq + 1⟩ } := by
  unfold prepare
  cases hc : c.client with
  | none => exact ⟨rfl, fun _ => rfl⟩
  | some n =>
    by_cases hb : batch = []
    · simp [hb]
    · simp only [hb, if_false]
      cases toSparkplugMetrics batch with
      | error e => exact ⟨hc, rfl⟩
      | ok metrics =>
        simp only
        cases encodePayload P nowMs (some (c.session.nextSeq.1.val : Int)) metrics with
        | error e => exact ⟨rfl, rfl⟩
        | ok payload => exact ⟨rfl, rfl, rfl⟩

theorem of_prepare_returned {result : PublishResult}
    (h : c.prepare P nowMs batch = (.returned result, c')) :
    c' = c ∧ (result.success = false → c.client = none) := by
  have hspec := c.prepare_spec P nowMs batch
  rw [h] at hspec
  exact hspec

theorem of_prepare_raised {e : EncodeError} (h : c.prepare P nowMs batch = (.raised e, c')) :
    c'.client = c.client ∧ c'.session.bdSeq = c.session.bdSeq := by
  have hspec := c.prepare_spec P nowMs batch
  rw [h] at hspec
  exact hspec

theorem of_prepare_sending {n : Nat} {seq : Fin 256} {payload : Bytes}
    (h : c.prepare P nowMs batch = (.sending n seq payload, c')) :
    c.client = some n ∧ seq = c.session.seq ∧
      c' = { c with session := ⟨c.session.bdSeq, c.session.seq + 1⟩ } := by
  have hspec := c.prepare_spec P nowMs batch
  rw [h] at hspec
  exact hspec

@[simp] theorem deliver_client (c : MqttConnector) (count : Nat)
    (delivery : Except String Unit) : (c.deliver count delivery).2.client = c.client := by
  cases delivery <;> rfl

@[simp] theorem deliver_session (c : MqttConnector) (count : Nat)
    (delivery : Except String Unit) : (c.deliver count delivery).2.session = c.session := by
  cases delivery <;> rfl

end MqttConnector

namespace Uplink

variable {U : UplinkParams} {s s' : Uplink}

/-- The event leads from `s` to the last argument. -/
inductive Step (U : UplinkParams) (s : Uplink) : UplinkEvent → Uplink → Prop
  | gateway {e : Event} {g : Gateway} (hg : s.gateway.step U.gateway e = some g)
      (he : e.ofConnector = false) : Step U s (.gateway e) { s with gateway := g }
  | dial (hph : s.gateway.phase = .connecting) (hst : s.stage = .idle) :
      Step U s (.dial true)
        { s with
          connector := { s.connector with client := some s.nextClient }
          stage := .dialing s.nextClient s.connector.session.bdSeq
          nextClient := s.nextClient + 1 }
  | dialFails (hph : s.gateway.phase = .connecting) (hst : s.stage = .idle) :
      Step U s (.dial false) (s.finishConnect U .raised)
  | dialed {n : Nat} {will : Fin 256} (hst : s.stage = .dialing n will) :
      Step U s (.dialed .connected)
        { s with loops := s.loops ++ [n], stage := .handshaking n will }
  | dialTimedOut {n : Nat} {will : Fin 256} (hst : s.stage = .dialing n will) :
      Step U s (.dialed .timedOut)
        ({ s with connector := { s.connector with client := none } }.finishConnect U .raised)
  | dialRaised {n : Nat} {will : Fin 256} (hst : s.stage = .dialing n will) :
      Step U s (.dialed .raised) (s.finishConnect U .raised)
  | accepted {n : Nat} {will : Fin 256} (hst : s.stage = .handshaking n will) :
      Step U s (.connack .accepted)
        { s with
          connector := { s.connector with session := ⟨s.connector.session.bdSeq, 0⟩ }
          stage := .birthing n
          subscribed := if U.hasRouter then s.subscribed ++ [n] else s.subscribed
          lifetimes := s.lifetimes ++ [⟨n, will, s.connector.session.bdSeq, NBIRTH_SEQ, []⟩] }
  | refused {n : Nat} {will : Fin 256} {outcome : HandshakeOutcome}
      (hst : s.stage = .handshaking n will) (hout : outcome ≠ .accepted) :
      Step U s (.connack outcome) ((s.dropClient n).finishConnect U .raised)
  | birthed {n : Nat} {ok : Bool} (hst : s.stage = .birthing n) :
      Step U s (.birthed ok) (s.finishConnect U (if ok then .connected else .raised))
  | returned {nowMs : Int} {samples : List Sample} {result : PublishResult} {g : Gateway}
      {connector : MqttConnector} (hsamples : s.gateway.publishBatch = some samples)
      (hprep : s.connector.prepare U.convert nowMs (samples.map U.view) =
        (.returned result, connector))
      (hg : s.gateway.step U.gateway (.publishDone (publishOutcome (.ok result))) = some g) :
      Step U s (.publish nowMs) { s with gateway := g, connector }
  | raised {nowMs : Int} {samples : List Sample} {e : EncodeError} {g : Gateway}
      {connector : MqttConnector} (hsamples : s.gateway.publishBatch = some samples)
      (hprep : s.connector.prepare U.convert nowMs (samples.map U.view) = (.raised e, connector))
      (hg : s.gateway.step U.gateway (.publishDone (publishOutcome (.error e))) = some g) :
      Step U s (.publish nowMs) { s with gateway := g, connector }
  | sending {nowMs : Int} {samples : List Sample} {n : Nat} {seq : Fin 256} {payload : Bytes}
      {connector : MqttConnector} (hsamples : s.gateway.publishBatch = some samples)
      (hprep : s.connector.prepare U.convert nowMs (samples.map U.view) =
        (.sending n seq payload, connector)) :
      Step U s (.publish nowMs)
        { s with
          connector
          sending := some n
          lifetimes := s.lifetimes.map (Lifetime.record n seq) }
  | published {count : Nat} {delivery : Except String Unit} {g : Gateway}
      (hg : s.gateway.step U.gateway
        (.publishDone (publishOutcome (.ok (s.connector.deliver count delivery).1))) = some g) :
      Step U s (.published delivery)
        { s with
          gateway := g
          connector := (s.connector.deliver count delivery).2
          sending := none }
  | stop {n : Nat} (hconn : s.gateway.connected = true) (hclient : s.connector.client = some n) :
      Step U s (.stop true)
        { s with
          gateway := { s.gateway with connected := false }
          loops := s.loops.erase n
          connector :=
            { s.connector with session := s.connector.session.advanceBdSeq, client := none } }
  | stopClientless {ok : Bool} (hconn : s.gateway.connected = true)
      (hclient : s.connector.client = none) :
      Step U s (.stop ok) { s with gateway := { s.gateway with connected := false } }
  | stopNothing (ok : Bool) : Step U s (.stop ok) s
  | ncmd (metrics : List NcmdMetric) (reached : List Nat) :
      Step U s (.ncmd metrics reached)
        { s with commands := s.commands ++ [(metrics, s.commandWrites metrics reached)] }

theorem step_cases {e : UplinkEvent} (h : s.step U e = some s') : Step U s e s' := by
  cases e with
  | gateway e =>
    simp only [step] at h
    split at h
    · cases h
    · next he =>
      obtain ⟨g, hg, rfl⟩ := Option.map_eq_some_iff.1 h
      exact .gateway hg (Bool.eq_false_of_not_eq_true he)
  | dial setup =>
    simp only [step] at h
    split at h <;> cases h
    · exact .dial ‹_› ‹_›
    · exact .dialFails ‹_› ‹_›
  | dialed outcome =>
    simp only [step] at h
    split at h <;> cases h
    · exact .dialed ‹_›
    · exact .dialTimedOut ‹_›
    · exact .dialRaised ‹_›
  | connack outcome =>
    simp only [step] at h
    split at h <;> cases h
    · exact .accepted ‹_›
    · next hst hout => exact .refused hst hout
  | birthed ok =>
    simp only [step] at h
    split at h <;> cases h
    exact .birthed ‹_›
  | publish nowMs =>
    simp only [step] at h
    split at h
    · next hsamples =>
      split at h
      · next hprep =>
        obtain ⟨g, hg, rfl⟩ := Option.map_eq_some_iff.1 h
        exact .returned hsamples hprep hg
      · next hprep =>
        obtain ⟨g, hg, rfl⟩ := Option.map_eq_some_iff.1 h
        exact .raised hsamples hprep hg
      · next hprep =>
        cases h
        exact .sending hsamples hprep
    · cases h
  | published delivery =>
    simp only [step] at h
    split at h
    · obtain ⟨g, hg, rfl⟩ := Option.map_eq_some_iff.1 h
      exact .published hg
    · cases h
  | stop ok =>
    simp only [step] at h
    split at h <;> cases h
    · exact .stop ‹_› ‹_›
    · exact .stopNothing false
    · exact .stopClientless ‹_› ‹_›
    · exact .stopNothing _
  | ncmd metrics reached =>
    cases h
    exact .ncmd metrics reached

/-! ## What holds in every run -/

end Uplink

namespace ConnectStage

def client : ConnectStage → Option Nat
  | .idle => none
  | .dialing n _ | .handshaking n _ | .birthing n => some n

def pending : ConnectStage → Option (Nat × Fin 256)
  | .dialing n will | .handshaking n will => some (n, will)
  | _ => none

/-- The network loop that `connect` has started. -/
def loops : ConnectStage → List Nat
  | .handshaking n _ | .birthing n => [n]
  | _ => []

def born : ConnectStage → Bool
  | .birthing _ => true
  | _ => false

end ConnectStage

@[simp] theorem Lifetime.client_record (n : Nat) (seq : Fin 256) (l : Lifetime) :
    (l.record n seq).client = l.client := by
  unfold record
  split <;> rfl

@[simp] theorem Lifetime.will_record (n : Nat) (seq : Fin 256) (l : Lifetime) :
    (l.record n seq).will = l.will := by
  unfold record
  split <;> rfl

@[simp] theorem Lifetime.birth_record (n : Nat) (seq : Fin 256) (l : Lifetime) :
    (l.record n seq).birth = l.birth := by
  unfold record
  split <;> rfl

namespace Uplink

variable {U : UplinkParams} {s s' : Uplink}

/-- How the two components fit together, in every run: a connected dispatcher has a client,
and the client that is being connected is the connector's own, with a Will for the current
session and no lifetime before. -/
structure Wired (s : Uplink) : Prop where
  settled : s.gateway.Settled
  connecting : s.stage ≠ .idle → s.gateway.phase = .connecting
  served : s.gateway.connected = true → s.connector.client ≠ none
  staged : ∀ n, s.stage.client = some n → s.connector.client = some n
  willed : ∀ n will, s.stage.pending = some (n, will) → will = s.connector.session.bdSeq
  unused : ∀ n will, s.stage.pending = some (n, will) →
    n < s.nextClient ∧ ∀ l ∈ s.lifetimes, l.client ≠ n
  known : ∀ l ∈ s.lifetimes, l.client < s.nextClient
  identified : ∀ l ∈ s.lifetimes, l.birth = l.will

theorem Wired.disconnected (h : s.Wired) (hst : s.stage ≠ .idle) : s.gateway.connected = false :=
  h.settled (h.connecting hst)

theorem Wired.idle (h : s.Wired) (hph : s.gateway.phase ≠ .connecting) : s.stage = .idle := by
  by_contra hst
  exact hph (h.connecting hst)

theorem Wired.idle_of_connected (h : s.Wired) (hconn : s.gateway.connected = true) :
    s.stage = .idle := by
  by_contra hst
  simp [h.disconnected hst] at hconn

/-- `connect` may end wherever the clients of the past are known: nothing is said about the
client that it leaves, as long as a connected dispatcher has one. -/
theorem wired_finishConnect {outcome : ConnectOutcome}
    (hclient : outcome = .connected ∨ s.gateway.connected = true → s.connector.client ≠ none)
    (hknown : ∀ l ∈ s.lifetimes, l.client < s.nextClient)
    (hident : ∀ l ∈ s.lifetimes, l.birth = l.will) : (s.finishConnect U outcome).Wired := by
  obtain ⟨hsettled, hconn⟩ := s.gateway.onConnect_frame (P := U.gateway) outcome
  exact
    { settled := hsettled
      connecting := fun hst => absurd rfl hst
      served := by
        intro hc
        rw [finishConnect, hconn] at hc
        split at hc
        · exact hclient (.inl ‹_›)
        · exact hclient (.inr hc)
      staged := by simp [finishConnect, ConnectStage.client]
      willed := by simp [finishConnect, ConnectStage.pending]
      unused := by simp [finishConnect, ConnectStage.pending]
      known := hknown
      identified := hident }

variable {g : Gateway} {connector : MqttConnector} {sending : Option Nat}

theorem Wired.proceed (h : s.Wired)
    (hsettled : g.Settled) (hph : s.stage ≠ .idle → g.phase = .connecting)
    (hconn : g.connected = true → s.gateway.connected = true)
    (hclient : connector.client = s.connector.client)
    (hbdSeq : connector.session.bdSeq = s.connector.session.bdSeq) :
    Wired { s with gateway := g, connector, sending } where
  settled := hsettled
  connecting := hph
  served hg := by
    rw [hclient]
    exact h.served (hconn hg)
  staged n hn := hclient.trans (h.staged n hn)
  willed n will hn := (h.willed n will hn).trans hbdSeq.symm
  unused := h.unused
  known := h.known
  identified := h.identified

theorem Wired.publishDone (h : s.Wired) {outcome : PublishOutcome}
    (hg : s.gateway.step U.gateway (.publishDone outcome) = some g)
    (hclient : connector.client = s.connector.client)
    (hbdSeq : connector.session.bdSeq = s.connector.session.bdSeq) :
    Wired { s with gateway := g, connector, sending } := by
  obtain ⟨hph, hsettled, hconn⟩ := Gateway.publishDone_frame hg
  refine h.proceed hsettled (fun hst => absurd (h.idle hph) hst) (fun hc => ?_) hclient hbdSeq
  rw [hconn] at hc
  split at hc
  · cases hc
  · exact hc

theorem wired_step {e : UplinkEvent} (h : s.Wired) (hstep : s.step U e = some s') : s'.Wired := by
  cases step_cases hstep with
  | gateway hg he =>
    obtain ⟨hconn, hph, hsettled⟩ := Gateway.step_frame hg he
    exact h.proceed (hsettled h.settled) (fun hst => hph (h.connecting hst))
      (fun hc => hconn.symm.trans hc) rfl rfl
  | dial hph hst =>
    exact { h with
      connecting := fun _ => hph
      served := by simp
      staged := by simp [ConnectStage.client]
      willed := by simp +contextual [ConnectStage.pending]
      unused := by
        rintro n will hn
        obtain ⟨rfl, -⟩ : s.nextClient = n ∧ _ := by simpa [ConnectStage.pending] using hn
        exact ⟨Nat.lt_succ_self _, fun l hl => (h.known l hl).ne⟩
      known := fun l hl => Nat.lt_succ_of_lt (h.known l hl) }
  | dialFails | dialRaised =>
    exact wired_finishConnect (by simpa using h.served) h.known h.identified
  | dialed hst =>
    exact { h with
      connecting := fun _ => h.connecting (by simp [hst])
      staged := fun m hm => h.staged m (by rw [hst]; exact hm)
      willed := fun m w hm => h.willed m w (by rw [hst]; exact hm)
      unused := fun m w hm => h.unused m w (by rw [hst]; exact hm) }
  | dialTimedOut hst =>
    have hdown := h.disconnected (by simp [hst])
    exact wired_finishConnect (by simp [hdown]) h.known h.identified
  | @accepted n will hst =>
    have hwill := h.willed n will (by rw [hst]; rfl)
    have hlt := (h.unused n will (by rw [hst]; rfl)).1
    exact { h with
      connecting := fun _ => h.connecting (by simp [hst])
      staged := fun m hm => h.staged m (by rw [hst]; exact hm)
      willed := by simp [ConnectStage.pending]
      unused := by simp [ConnectStage.pending]
      known := List.forall_mem_append.2 ⟨h.known, List.forall_mem_singleton.2 hlt⟩
      identified :=
        List.forall_mem_append.2 ⟨h.identified, List.forall_mem_singleton.2 hwill.symm⟩ }
  | refused hst hout =>
    have hdown := h.disconnected (by simp [hst])
    exact wired_finishConnect (by simp [dropClient, hdown]) h.known h.identified
  | birthed hst =>
    have hclient := h.staged _ (by rw [hst]; rfl)
    exact wired_finishConnect (by simp [hclient]) h.known h.identified
  | @returned nowMs samples result g connector hsamples hprep hg =>
    obtain ⟨rfl, -⟩ := MqttConnector.of_prepare_returned hprep
    exact h.publishDone hg rfl rfl
  | @raised nowMs samples e g connector hsamples hprep hg =>
    obtain ⟨hclient, hbdSeq⟩ := MqttConnector.of_prepare_raised hprep
    exact h.publishDone hg hclient hbdSeq
  | @sending nowMs samples n seq payload connector hsamples hprep =>
    obtain ⟨-, -, rfl⟩ := MqttConnector.of_prepare_sending hprep
    exact { h with
      unused := by simpa using h.unused
      known := by simpa using h.known
      identified := by simpa using h.identified }
  | published hg => exact h.publishDone hg (by simp) (by simp)
  | stop hconn hclient =>
    have hidle := h.idle_of_connected hconn
    exact { h with
      settled := fun _ => rfl
      served := by simp
      staged := by simp [hidle, ConnectStage.client]
      willed := by simp [hidle, ConnectStage.pending] }
  | stopClientless hconn hclient => exact absurd hclient (h.served hconn)
  | stopNothing ok => exact h
  | ncmd metrics reached => exact { h with }

theorem wired_start (g : Gateway) (hph : g.phase = .connecting) (hconn : g.connected = false) :
    (start g).Wired where
  settled _ := hconn
  connecting _ := hph
  served h := by simp [start, hconn] at h
  staged := by simp [start, ConnectStage.client]
  willed := by simp [start, ConnectStage.pending]
  unused := by simp [start, ConnectStage.pending]
  known := by simp [start]
  identified := by simp [start]

end Uplink

/-! ## Sequence numbers -/

def Lifetime.Numbered (l : Lifetime) : Prop :=
  l.birthSeq = NBIRTH_SEQ ∧ l.ndata.map Fin.val = (List.range l.ndata.length).map (· % 256)

variable {seq : Fin 256}

theorem Lifetime.Numbered.record {l : Lifetime} (h : l.Numbered) {n : Nat}
    (hseq : l.client = n → seq.val = l.ndata.length % 256) : (l.record n seq).Numbered := by
  unfold Lifetime.record
  split
  · next hn =>
    refine ⟨h.1, ?_⟩
    rw [List.length_append, List.length_singleton, List.range_succ, List.map_append,
      List.map_append, ← h.2, List.map_singleton, List.map_singleton, hseq hn]
  · exact h

theorem val_add_one_seq {k : Nat} (h : seq.val = k % 256) :
    (seq + 1).val = (k + 1) % 256 := by
  rw [Fin.val_add, h]
  exact Nat.mod_add_mod ..

namespace Uplink

variable {U : UplinkParams} {s s' : Uplink}

/-- Every lifetime is numbered, and the session knows how far the one of the current client
got. -/
structure Numbered (s : Uplink) : Prop where
  lifetimes : ∀ l ∈ s.lifetimes, l.Numbered
  current : ∀ l ∈ s.lifetimes, s.connector.client = some l.client →
    s.connector.session.seq.val = l.ndata.length % 256

def Encodable (U : UplinkParams) (s : Uplink) : UplinkEvent → Prop
  | .publish nowMs =>
      match s.gateway.publishBatch with
      | some samples => s.connector.Returns nowMs (samples.map U.view)
      | none => True
  | _ => True

theorem numbered_step {e : UplinkEvent} (hw : s.Wired) (h : s.Numbered) (hG : s.Encodable U e)
    (hstep : s.step U e = some s') : s'.Numbered := by
  cases step_cases hstep with
  | gateway | dialFails | dialed | dialRaised | birthed | stopClientless | ncmd =>
    exact ⟨h.lifetimes, h.current⟩
  | dial hph hst =>
    refine ⟨h.lifetimes, fun l hl hc => ?_⟩
    have hn : s.nextClient = l.client := by simpa using hc
    exact absurd hn (hw.known l hl).ne'
  | dialTimedOut hst => exact ⟨h.lifetimes, by simp [finishConnect]⟩
  | @accepted n will hst =>
    -- the client is new, so the lifetime that begins is its only one
    have hclient := hw.staged n (by rw [hst]; rfl)
    have hunused := (hw.unused n will (by rw [hst]; rfl)).2
    refine ⟨List.forall_mem_append.2 ⟨h.lifetimes, List.forall_mem_singleton.2 ⟨rfl, rfl⟩⟩,
      List.forall_mem_append.2 ⟨fun l hl hc => ?_, List.forall_mem_singleton.2 fun _ => rfl⟩⟩
    have hn : n = l.client := by simpa [hclient] using hc
    exact absurd hn.symm (hunused l hl)
  | refused hst hout => exact ⟨h.lifetimes, by simp [finishConnect, dropClient]⟩
  | @returned nowMs samples result g connector hsamples hprep hg =>
    obtain ⟨rfl, -⟩ := MqttConnector.of_prepare_returned hprep
    exact ⟨h.lifetimes, h.current⟩
  | @raised nowMs samples e g connector hsamples hprep hg =>
    have hraise := s.connector.prepare_raises_iff U.convert nowMs (samples.map U.view)
    rw [hprep] at hraise
    rw [Encodable, hsamples] at hG
    exact absurd hG (hraise.1 ⟨e, rfl⟩)
  | @sending nowMs samples n seq payload connector hsamples hprep =>
    obtain ⟨hclient, rfl, rfl⟩ := MqttConnector.of_prepare_sending hprep
    have hseq : ∀ l ∈ s.lifetimes, l.client = n →
        s.connector.session.seq.val = l.ndata.length % 256 := by
      rintro l hl rfl
      exact h.current l hl hclient
    refine ⟨List.forall_mem_map.2 fun l hl => (h.lifetimes l hl).record (hseq l hl),
      List.forall_mem_map.2 fun l hl hc => ?_⟩
    have hn : l.client = n := by simpa [hclient, eq_comm] using hc
    have hlength : (l.record n s.connector.session.seq).ndata.length = l.ndata.length + 1 := by
      simp [Lifetime.record, hn]
    rw [hlength]
    exact val_add_one_seq (hseq l hl hn)
  | published hg => exact ⟨h.lifetimes, by simpa using h.current⟩
  | stop hconn hclient => exact ⟨h.lifetimes, by simp⟩
  | stopNothing ok => exact h

end Uplink

/-- **Sequence numbers.**  In every run in which what is published can be encoded, with every
outcome of connecting and publishing, the NBIRTH of each lifetime carries 0 and the NDATA
messages that are handed to its client carry 0, 1, 2, … modulo 256. -/
theorem ndata_numbered_run (U : UplinkParams) (assets : List AssetEntry)
    (cold : SqliteColdStore Sample) (nextSeq : Nat) {events : List UplinkEvent} {s : Uplink}
    (hG : (uplinkMachine U).Meets (Uplink.Encodable U)
      (Uplink.start (Gateway.start U.gateway assets cold nextSeq)) events)
    (hrun : (uplinkMachine U).run (Uplink.start (Gateway.start U.gateway assets cold nextSeq))
      events = some s) :
    ∀ l ∈ s.lifetimes,
      l.birthSeq = 0 ∧ l.ndata.map Fin.val = (List.range l.ndata.length).map (· % 256) := by
  have hstart := Uplink.wired_start (Gateway.start U.gateway assets cold nextSeq) rfl rfl
  have hinv : s.Wired ∧ s.Numbered := by
    refine (uplinkMachine U).inv_run_of_meets (I := fun s => s.Wired ∧ s.Numbered)
      (fun t e t' h hG hstep => ?_) ⟨hstart, ?_⟩ hG hrun
    · exact ⟨Uplink.wired_step h.1 hstep, Uplink.numbered_step h.1 h.2 hG hstep⟩
    · exact ⟨by simp [Uplink.start], by simp [Uplink.start]⟩
  exact hinv.2.lifetimes

/-- A batch that can be encoded can be recognised by encoding it. -/
instance MqttConnector.decidableReturns (c : MqttConnector) (nowMs : Int) (batch : List MqttTag) :
    Decidable (c.Returns nowMs batch) :=
  match h : (c.prepare .strict nowMs batch).1 with
  | .raised e => isFalse ((c.prepare_raises_iff .strict nowMs batch).1 ⟨e, h⟩)
  | .returned _ | .sending _ _ _ =>
      isTrue (not_not.1 fun hn => by
        obtain ⟨e, he⟩ := (c.prepare_raises_iff .strict nowMs batch).2 hn
        simp [h] at he)

instance Uplink.decidableEncodable (U : UplinkParams) (s : Uplink) :
    (e : UplinkEvent) → Decidable (s.Encodable U e)
  | .publish nowMs =>
      match h : s.gateway.publishBatch with
      | some samples =>
          decidable_of_iff (s.connector.Returns nowMs (samples.map U.view)) (by
            simp [Uplink.Encodable, h])
      | none => isTrue (by simp [Uplink.Encodable, h])
  | .gateway _ | .dial _ | .dialed _ | .connack _ | .birthed _ | .published _ | .stop _
  | .ncmd _ _ => isTrue trivial

def tinyUplink : UplinkParams where
  gateway := tinyParams
  convert := .strict
  view x := .ofUnifiedTag (fun _ => 0) x.tag
  hasRouter := true

def freshUplink : Uplink := Uplink.start (Gateway.start tinyParams [] .new 0)

def connectEvents : List UplinkEvent :=
  [.dial true, .dialed .connected, .connack .accepted, .birthed true]

def publishEvents (delivery : Except String Unit) : List UplinkEvent :=
  [.gateway (.push "d:raw" false (reading "d/t" 0)), .gateway .woken, .publish 0,
    .published delivery]

theorem ndata_numbered_threeReadings :
    ∃ s, (uplinkMachine tinyUplink).run freshUplink
        (connectEvents ++ publishEvents (.ok ()) ++ publishEvents (.error "timeout") ++
          connectEvents ++ publishEvents (.ok ())) = some s ∧
      s.lifetimes.map Lifetime.ndata = [[0, 1], [0]] ∧
      ∀ l ∈ s.lifetimes,
        l.birthSeq = 0 ∧ l.ndata.map Fin.val = (List.range l.ndata.length).map (· % 256) := by
  obtain ⟨s, hs, hdata⟩ := Option.map_eq_some_iff.1 (show
    ((uplinkMachine tinyUplink).run freshUplink
      (connectEvents ++ publishEvents (.ok ()) ++ publishEvents (.error "timeout") ++
        connectEvents ++ publishEvents (.ok ()))).map (fun s => s.lifetimes.map Lifetime.ndata) =
      some [[0, 1], [0]] by decide +kernel)
  exact ⟨s, hs, hdata, ndata_numbered_run tinyUplink [] .new 0 (by decide +kernel) hs⟩

/-- **The first NDATA repeats the number of the NBIRTH**: both carry 0. -/
theorem first_ndata_repeats_nbirth :
    ∃ s l, (uplinkMachine tinyUplink).run freshUplink
        (connectEvents ++ publishEvents (.ok ())) = some s ∧
      s.lifetimes = [l] ∧ l.birthSeq :: l.ndata = [0, 0] ∧
      ¬ (l.birthSeq :: l.ndata).IsChain (fun a b => b = a + 1) := by
  obtain ⟨s, hs, hl⟩ := Option.map_eq_some_iff.1 (show
    ((uplinkMachine tinyUplink).run freshUplink
      (connectEvents ++ publishEvents (.ok ()))).map Uplink.lifetimes =
      some [⟨0, 0, 0, 0, [0]⟩] by decide +kernel)
  exact ⟨s, _, hs, hl, rfl, by simp⟩

/-! ## One lifetime after the other -/

def UplinkEvent.Unbroken : UplinkEvent → Prop
  | .birthed ok => ok = true
  | .published delivery => delivery.isOk = true
  | _ => True

instance UplinkEvent.decidableUnbroken : (e : UplinkEvent) → Decidable e.Unbroken
  | .birthed ok => inferInstanceAs (Decidable (ok = true))
  | .published delivery => inferInstanceAs (Decidable (delivery.isOk = true))
  | .gateway _ | .dial _ | .dialed _ | .connack _ | .publish _ | .stop _ | .ncmd _ _ =>
      isTrue trivial

namespace Uplink

variable {U : UplinkParams} {s s' : Uplink}

/-- A lifetime ends before the next one begins: the only loops are that of a connected
dispatcher's client or that of the client being connected, and the last lifetime has the
current `bdSeq` exactly as long as it lasts. -/
structure Steady (s : Uplink) : Prop where
  loops : s.loops = if s.gateway.connected then s.connector.client.toList else s.stage.loops
  apart : (s.lifetimes.map Lifetime.birth).IsChain (· ≠ ·)
  current : ∀ b ∈ (s.lifetimes.map Lifetime.birth).getLast?,
    b = s.connector.session.bdSeq ↔ s.gateway.connected = true ∨ s.stage.born = true
  once : ∀ c ∈ s.commands, c.2.Sublist (onMessage c.1)

theorem Steady.length_loops_le (h : s.Steady) : s.loops.length ≤ 1 := by
  rw [h.loops]
  split
  · cases s.connector.client <;> simp
  · cases s.stage <;> simp [ConnectStage.loops]

theorem Steady.loops_at (h : s.Steady) (hw : s.Wired) {stage : ConnectStage}
    (hst : s.stage = stage) (hph : s.gateway.phase = .connecting) :
    s.gateway.connected = false ∧ s.loops = stage.loops := by
  have hdown := hw.settled hph
  have hloops := h.loops
  rw [hdown, hst] at hloops
  exact ⟨hdown, hloops⟩

theorem Steady.commandWrites (h : s.Steady) (metrics : List NcmdMetric) (reached : List Nat) :
    (s.commandWrites metrics reached).Sublist (onMessage metrics) := by
  have hlen : (s.loops.filter fun n => n ∈ s.subscribed ∧ n ∈ reached).length ≤ 1 :=
    (List.length_filter_le _ _).trans h.length_loops_le
  unfold Uplink.commandWrites
  match s.loops.filter fun n => n ∈ s.subscribed ∧ n ∈ reached, hlen with
  | [], _ => simp
  | [n], _ => simp

variable {connector : MqttConnector}

/-- The dispatcher goes on without ending the connection, and the connector keeps its client
and its bdSeq. -/
theorem Steady.proceed (h : s.Steady) {g : Gateway} {sending : Option Nat}
    (hconn : g.connected = s.gateway.connected) (hclient : connector.client = s.connector.client)
    (hbdSeq : connector.session.bdSeq = s.connector.session.bdSeq) :
    Steady { s with gateway := g, connector, sending } where
  loops := by
    rw [hconn, hclient]
    exact h.loops
  apart := h.apart
  current := by
    rw [hconn, hbdSeq]
    exact h.current
  once := h.once

theorem Steady.finishConnect (h : s.Steady) (hdown : s.gateway.connected = false)
    (hborn : s.stage.born = false) {loops : List Nat}
    (hloops : loops = []) (hbdSeq : connector.session.bdSeq = s.connector.session.bdSeq) :
    Steady ({ s with loops, connector }.finishConnect U .raised) where
  loops := by simp [Uplink.finishConnect, Gateway.onConnect, hdown, hloops, ConnectStage.loops]
  apart := h.apart
  current := by
    intro b hb
    have hlast := h.current b hb
    rw [hborn, ← hbdSeq] at hlast
    exact hlast
  once := h.once

theorem steady_step {e : UplinkEvent} (hw : s.Wired) (h : s.Steady) (hG : e.Unbroken)
    (hstep : s.step U e = some s') : s'.Steady := by
  cases step_cases hstep with
  | gateway hg he => exact h.proceed (Gateway.step_frame hg he).1 rfl rfl
  | dial hph hst =>
    obtain ⟨hdown, hloops⟩ := h.loops_at hw hst hph
    have hlast := h.current
    rw [hst] at hlast
    exact ⟨by simp [hdown, hloops, ConnectStage.loops], h.apart, hlast, h.once⟩
  | dialFails hph hst =>
    obtain ⟨hdown, hloops⟩ := h.loops_at hw hst hph
    exact h.finishConnect hdown (by rw [hst]; rfl) hloops rfl
  | dialed hst =>
    obtain ⟨hdown, hloops⟩ := h.loops_at hw hst (hw.connecting (by simp [hst]))
    have hlast := h.current
    rw [hst] at hlast
    exact ⟨by simp [hdown, hloops, ConnectStage.loops], h.apart, hlast, h.once⟩
  | dialTimedOut hst =>
    obtain ⟨hdown, hloops⟩ := h.loops_at hw hst (hw.connecting (by simp [hst]))
    exact h.finishConnect hdown (by rw [hst]; rfl) hloops rfl
  | dialRaised hst =>
    obtain ⟨hdown, hloops⟩ := h.loops_at hw hst (hw.connecting (by simp [hst]))
    exact h.finishConnect hdown (by rw [hst]; rfl) hloops rfl
  | accepted hst =>
    -- the previous lifetime is over, so its bdSeq is not the current one
    obtain ⟨hdown, hloops⟩ := h.loops_at hw hst (hw.connecting (by simp [hst]))
    have hlast : ∀ b ∈ (s.lifetimes.map Lifetime.birth).getLast?,
        b ≠ s.connector.session.bdSeq := by
      intro b hb heq
      have hborn := (h.current b hb).1 heq
      rw [hst, hdown] at hborn
      simp [ConnectStage.born] at hborn
    refine ⟨by simp [hdown, hloops, ConnectStage.loops], ?_, ?_, h.once⟩
    · rw [List.map_append]
      refine h.apart.append (List.isChain_singleton _) ?_
      simpa using hlast
    · simp [ConnectStage.born]
  | refused hst hout =>
    obtain ⟨hdown, hloops⟩ := h.loops_at hw hst (hw.connecting (by simp [hst]))
    exact h.finishConnect hdown (by rw [hst]; rfl) (by simp [hloops, ConnectStage.loops]) rfl
  | @birthed n ok hst =>
    obtain rfl : ok = true := hG
    obtain ⟨-, hloops⟩ := h.loops_at hw hst (hw.connecting (by simp [hst]))
    have hclient := hw.staged n (by rw [hst]; rfl)
    have hup := (s.gateway.onConnect_frame (P := U.gateway) .connected).2
    refine ⟨?_, h.apart, fun b hb => ?_, h.once⟩
    · simp [finishConnect, hup, hloops, hclient, ConnectStage.loops]
    · have hcurrent := (h.current b hb).2 (.inr (by rw [hst]; rfl))
      exact ⟨fun _ => .inl hup, fun _ => hcurrent⟩
  | @returned nowMs samples result g connector hsamples hprep hg =>
    obtain ⟨rfl, hfail⟩ := MqttConnector.of_prepare_returned hprep
    refine h.proceed ?_ rfl rfl
    -- a publish without a client finds the dispatcher disconnected already
    have hdown : result.success = false → s.gateway.connected = false := fun hr =>
      Bool.eq_false_of_not_eq_true fun hconn => hw.served hconn (hfail hr)
    rw [(Gateway.publishDone_frame hg).2.2]
    cases hr : result.success with
    | true => simp [publishOutcome, hr]
    | false => simp [publishOutcome, hr, hdown hr]
  | @raised nowMs samples e g connector hsamples hprep hg =>
    obtain ⟨hclient, hbdSeq⟩ := MqttConnector.of_prepare_raised hprep
    exact h.proceed (Gateway.publishDone_frame hg).2.2 hclient hbdSeq
  | @sending nowMs samples n seq payload connector hsamples hprep =>
    obtain ⟨-, -, rfl⟩ := MqttConnector.of_prepare_sending hprep
    have hbirths : (s.lifetimes.map (Lifetime.record n seq)).map Lifetime.birth =
        s.lifetimes.map Lifetime.birth := by
      rw [List.map_map]
      exact List.map_congr_left fun l _ => l.birth_record n seq
    exact ⟨h.loops, hbirths ▸ h.apart, hbirths ▸ h.current, h.once⟩
  | @published count delivery g hg =>
    obtain ⟨u, rfl⟩ := exists_ok_of_isOk hG
    exact h.proceed (Gateway.publishDone_frame hg).2.2 (by simp) (by simp)
  | @stop n hconn hclient =>
    have hidle := hw.idle_of_connected hconn
    have hloops : s.loops = [n] := by simpa [hconn, hclient] using h.loops
    refine ⟨by simp [hloops, hidle, ConnectStage.loops], h.apart, fun b hb => ?_, h.once⟩
    -- the lifetime that ends had the bdSeq that is now given up
    obtain rfl := (h.current b hb).2 (.inl hconn)
    simp [SparkplugSession.advanceBdSeq, hidle, ConnectStage.born]
  | stopClientless hconn hclient => exact absurd hclient (hw.served hconn)
  | stopNothing ok => exact h
  | ncmd metrics reached =>
    exact ⟨h.loops, h.apart, h.current,
      List.forall_mem_append.2 ⟨h.once, List.forall_mem_singleton.2 (h.commandWrites _ _)⟩⟩

end Uplink

variable {U : UplinkParams} {assets : List AssetEntry} {cold : SqliteColdStore Sample}
  {nextSeq : Nat} {events : List UplinkEvent} {s : Uplink}

theorem wired_run
    (hrun : (uplinkMachine U).run (Uplink.start (Gateway.start U.gateway assets cold nextSeq))
      events = some s) : s.Wired :=
  (uplinkMachine U).inv_run (fun _ _ _ => Uplink.wired_step)
    (Uplink.wired_start (Gateway.start U.gateway assets cold nextSeq) rfl rfl) hrun

theorem steady_run
    (hG : ∀ e ∈ events, e.Unbroken)
    (hrun : (uplinkMachine U).run (Uplink.start (Gateway.start U.gateway assets cold nextSeq))
      events = some s) : s.Wired ∧ s.Steady := by
  have hstart := Uplink.wired_start (Gateway.start U.gateway assets cold nextSeq) rfl rfl
  refine (uplinkMachine U).inv_run_of_meets (I := fun s => s.Wired ∧ s.Steady)
    (fun t e t' h hG hstep => ?_) ⟨hstart, ?_⟩ ((uplinkMachine U).meets_of_forall hG _) hrun
  · exact ⟨Uplink.wired_step h.1 hstep, Uplink.steady_step h.1 h.2 hG hstep⟩
  · exact ⟨rfl, by simp [Uplink.start], by simp [Uplink.start], by simp [Uplink.start]⟩

/-- **Lifetimes are told apart.**  In every run the NBIRTH of each lifetime carries the bdSeq
of its Will; and if no message handed to a client fails, two consecutive lifetimes have
different ones. -/
theorem lifetimes_told_apart_run (U : UplinkParams) (assets : List AssetEntry)
    (cold : SqliteColdStore Sample) (nextSeq : Nat) {events : List UplinkEvent} {s : Uplink}
    (hrun : (uplinkMachine U).run (Uplink.start (Gateway.start U.gateway assets cold nextSeq))
      events = some s) :
    (∀ l ∈ s.lifetimes, l.birth = l.will) ∧
      ((∀ e ∈ events, e.Unbroken) → (s.lifetimes.map Lifetime.birth).IsChain (· ≠ ·)) := by
  refine ⟨(wired_run hrun).identified, fun hG => ?_⟩
  exact (steady_run hG hrun).2.apart

def orderlyReconnect : List UplinkEvent :=
  connectEvents ++ publishEvents (.ok ()) ++ [.stop true] ++
    [.gateway (.push "d:raw" false (reading "d/t" 1)), .gateway .woken, .publish 0] ++ connectEvents

theorem lifetimes_told_apart_orderlyReconnect :
    ∃ s, (uplinkMachine tinyUplink).run freshUplink orderlyReconnect = some s ∧
      s.lifetimes.map Lifetime.birth = [0, 1] ∧ (∀ l ∈ s.lifetimes, l.birth = l.will) ∧
      (s.lifetimes.map Lifetime.birth).IsChain (· ≠ ·) := by
  obtain ⟨s, hs, hbirths⟩ := Option.map_eq_some_iff.1 (show
    ((uplinkMachine tinyUplink).run freshUplink orderlyReconnect).map
      (fun s => s.lifetimes.map Lifetime.birth) = some [0, 1] by decide +kernel)
  obtain ⟨hident, hapart⟩ := lifetimes_told_apart_run tinyUplink [] .new 0 hs
  exact ⟨s, hs, hbirths, hident, hapart (by decide +kernel)⟩

/-- **After a failed publish the bdSeq is used again**: the dispatcher reconnects without a
disconnect, and both lifetimes are number 0. -/
theorem failed_publish_reuses_bdSeq :
    ((uplinkMachine tinyUplink).run freshUplink
      (connectEvents ++ publishEvents (.error "timeout") ++ connectEvents)).map
        (fun s => s.lifetimes.map Lifetime.birth) = some [0, 0] := by
  decide +kernel

/-- **One live client.**  In every run in which no message handed to a client fails, at most
one network loop runs, and an NCMD message triggers at most one write for each of its
metrics. -/
theorem one_loop_run (U : UplinkParams) (assets : List AssetEntry)
    (cold : SqliteColdStore Sample) (nextSeq : Nat) {events : List UplinkEvent} {s : Uplink}
    (hG : ∀ e ∈ events, e.Unbroken)
    (hrun : (uplinkMachine U).run (Uplink.start (Gateway.start U.gateway assets cold nextSeq))
      events = some s) :
    s.loops.length ≤ 1 ∧ ∀ c ∈ s.commands, c.2.Sublist (onMessage c.1) := by
  obtain ⟨-, h⟩ := steady_run hG hrun
  exact ⟨h.length_loops_le, h.once⟩

def openValve : NcmdMetric := ⟨some "plc/valve", some (.int 1), false⟩

def openValveWrite : WriteCall := ⟨"mqtt-ncmd", "plc", "valve", .int 1⟩

theorem one_loop_orderlyReconnect :
    ∃ s, (uplinkMachine tinyUplink).run freshUplink
        (orderlyReconnect ++ [.ncmd [openValve] [0, 1]]) = some s ∧
      s.commands = [([openValve], [openValveWrite])] ∧ s.loops.length ≤ 1 ∧
      ∀ c ∈ s.commands, c.2.Sublist (onMessage c.1) := by
  obtain ⟨s, hs, hcommands⟩ := Option.map_eq_some_iff.1 (show
    ((uplinkMachine tinyUplink).run freshUplink
      (orderlyReconnect ++ [.ncmd [openValve] [0, 1]])).map Uplink.commands =
      some [([openValve], [openValveWrite])] by decide +kernel)
  exact ⟨s, hs, hcommands, one_loop_run tinyUplink [] .new 0 (by decide +kernel) hs⟩

/-- **A failed publish leaks a client**: after the reconnect two loops run, and the valve is
opened twice. -/
theorem failed_publish_leaks_a_client :
    ((uplinkMachine tinyUplink).run freshUplink
      (connectEvents ++ publishEvents (.error "timeout") ++ connectEvents ++
        [.ncmd [openValve] [0, 1]])).map (fun s => (s.loops, s.commands)) =
      some ([0, 1], [([openValve], [openValveWrite, openValveWrite])]) := by
  decide +kernel

end XEdge.Northbound
