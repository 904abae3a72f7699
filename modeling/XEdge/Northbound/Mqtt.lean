import XEdge.Core.WriteRouter
import XEdge.Northbound.Dispatcher
import XEdge.Northbound.Sparkplug.Payload

/-!
# Publishing over MQTT (`xedge/northbound/mqtt.py`, `sparkplug/session.py`)

`publish` turns a batch of tags into one NDATA message and hands it to the client.  Failures
of the client come back as a `PublishResult`; the metrics and the payload are built before
the `try`, so what the encoder raises comes out of `publish`, and the dispatcher's loop does
not catch it when it publishes live.
-/

namespace XEdge.Northbound

open Lib XEdge.Core Sparkplug

/-! ## The session -/

/-- `SparkplugSession`; the numbers wrap at `_SEQ_MODULUS`. -/
structure SparkplugSession where
  bdSeq : Fin 256
  seq : Fin 256
  deriving DecidableEq, Repr

namespace SparkplugSession

/-- `SparkplugSession()`. -/
def new : SparkplugSession := ⟨0, 0⟩

/-- `start_birth`: the bdSeq for the birth, and the session with its `seq` reset. -/
def startBirth (s : SparkplugSession) : Fin 256 × SparkplugSession := (s.bdSeq, { s with seq := 0 })

def nextSeq (s : SparkplugSession) : Fin 256 × SparkplugSession :=
  (s.seq, { s with seq := s.seq + 1 })

def advanceBdSeq (s : SparkplugSession) : SparkplugSession := { s with bdSeq := s.bdSeq + 1 }

end SparkplugSession

/-- The `seq` of every NBIRTH. -/
def NBIRTH_SEQ : Fin 256 := 0

/-! ## From tags to a message -/

/-- What the connector reads of a `UnifiedTag`. -/
structure MqttTag where
  tagId : PyStr
  timestampNs : Int
  value : PyValue
  quality : Quality
  deriving DecidableEq

/-- The view of a tag of the pipeline model, whose texts have no lone surrogates and whose
floats are rationals; `toBits` rounds them. -/
def MqttTag.ofUnifiedTag (toBits : ℚ → UInt64) (tag : UnifiedTag) : MqttTag where
  tagId := PyStr.ofString tag.tagId
  timestampNs := tag.timestampNs
  value := match tag.value with
    | .bool b => .bool b
    | .int i => .int i
    | .float x => .float (toBits x)
    | .str s => .str (PyStr.ofString s)
    | .bytes b => .bytes b
  quality := tag.quality

/-- `int(tag.timestamp.timestamp() * 1000)`. -/
def MqttTag.timestampMs (tag : MqttTag) : Int := tag.timestampNs.tdiv 1000000

def toSparkplugMetric (tag : MqttTag) : Except EncodeError SparkplugMetric :=
  let isNull := tag.quality == .bad
  (inferDatatype tag.value).map fun datatype =>
    { name := some tag.tagId
      timestampMs := tag.timestampMs
      datatype
      value := if isNull then none else some tag.value
      metricAlias := none
      isNull }

/-- `[_to_sparkplug_metric(tag) for tag in batch]`. -/
def toSparkplugMetrics : List MqttTag → Except EncodeError (List SparkplugMetric)
  | [] => .ok []
  | tag :: batch =>
      toSparkplugMetric tag >>= fun m => toSparkplugMetrics batch >>= fun ms => .ok (m :: ms)

structure PublishResult where
  success : Bool
  count : Nat
  errorMessage : Option String
  deriving DecidableEq

/-- `MqttSparkplugConnector`, as far as publishing is concerned. -/
structure MqttConnector where
  session : SparkplugSession
  /-- `_client`, by the number of the client. -/
  client : Option Nat
  /-- `ConnectorMetrics`. -/
  publishedCount : Nat
  errorCount : Nat
  deriving DecidableEq

/-- Where `publish` is when it first suspends or ends. -/
inductive Prepared where
  | returned (result : PublishResult)
  | raised (error : EncodeError)
  | sending (client : Nat) (seq : Fin 256) (payload : Bytes)

namespace MqttConnector

variable (P : PyConvert)

/-- `publish`, up to the await. -/
def prepare (c : MqttConnector) (nowMs : Int) (batch : List MqttTag) : Prepared × MqttConnector :=
  match c.client with
  | none => (.returned ⟨false, 0, some "not connected"⟩, c)
  | some n =>
      if batch = [] then (.returned ⟨true, 0, none⟩, c)
      else
        match toSparkplugMetrics batch with
        | .error e => (.raised e, c)
        | .ok metrics =>
            let (seq, session) := c.session.nextSeq
            match encodePayload P nowMs (some seq.val) metrics with
            -- the number is gone all the same
            | .error e => (.raised e, { c with session })
            | .ok payload => (.sending n seq payload, { c with session })

/-- `publish`, from the await on, for a batch of `count` tags; `delivery` is how `_publish_raw`
ends, with the text of what it raises. -/
def deliver (c : MqttConnector) (count : Nat) (delivery : Except String Unit) :
    PublishResult × MqttConnector :=
  match delivery with
  | .error message => (⟨false, 0, some message⟩, { c with errorCount := c.errorCount + 1 })
  | .ok () => (⟨true, count, none⟩, { c with publishedCount := c.publishedCount + count })

def publish (c : MqttConnector) (nowMs : Int) (batch : List MqttTag)
    (delivery : Except String Unit) : Except EncodeError PublishResult × MqttConnector :=
  match c.prepare P nowMs batch with
  | (.returned result, c) => (.ok result, c)
  | (.raised e, c) => (.error e, c)
  | (.sending _ _ _, c) => let (result, c) := c.deliver batch.length delivery; (.ok result, c)

end MqttConnector

/-- How the dispatcher sees the end of a `publish`. -/
def publishOutcome : Except EncodeError PublishResult → PublishOutcome
  | .ok r => if r.success then .success else .failure
  | .error _ => .raised

/-! ## Commands -/

/-- A metric of an NCMD payload, as far as `_on_message` reads it. -/
structure NcmdMetric where
  name : Option String
  value : Option TagValue
  isNull : Bool
  deriving DecidableEq

/-- `name.partition("/")`, if there is a slash. -/
def partitionSlash (name : String) : Option (String × String) :=
  match name.toList.span (· ≠ '/') with
  | (instanceId, _ :: tagName) => some (String.ofList instanceId, String.ofList tagName)
  | (_, []) => none

def NcmdMetric.write (m : NcmdMetric) : Option WriteCall :=
  match m.isNull, m.value, m.name.bind partitionSlash with
  | false, some value, some (instanceId, tagName) =>
      some ⟨"mqtt-ncmd", instanceId, tagName, value⟩
  | _, _, _ => none

/-- `_on_message`: the writes of a decoded NCMD message, one for each metric that can be
routed. -/
def onMessage (metrics : List NcmdMetric) : List WriteCall := metrics.filterMap NcmdMetric.write

/-! ## When publishing returns -/

/-- The tag can be sent: it has a datatype, and its name, time and, unless its quality is
`BAD`, its value have a form on the wire. -/
structure MqttTag.Publishable (tag : MqttTag) : Prop where
  typed : ∀ b, tag.value ≠ .bytes b
  name : tag.tagId.Encodable
  time : 0 ≤ tag.timestampMs
  nonneg : tag.quality ≠ .bad → ∀ i, tag.value = .int i → 0 ≤ i
  text : tag.quality ≠ .bad → ∀ s, tag.value = .str s → s.Encodable

variable (P : PyConvert)

theorem metricEncodable_tag (tag : MqttTag) (d : DataType) :
    MetricEncodable P
        { name := some tag.tagId
          timestampMs := tag.timestampMs
          datatype := d
          value := if tag.quality == .bad then none else some tag.value
          metricAlias := none
          isNull := tag.quality == .bad } ↔
      tag.tagId.Encodable ∧ 0 ≤ tag.timestampMs ∧
        (tag.quality ≠ .bad → (encodeMetricValue P d tag.value).isOk = true) := by
  constructor
  · rintro ⟨hname, -, htime, hvalue⟩
    refine ⟨hname _ rfl, htime, fun hq => hvalue ?_ _ ?_⟩
    · simp [hq]
    · simp [hq]
  · rintro ⟨hname, htime, hvalue⟩
    refine ⟨by simpa using hname, by simp, htime, fun hnull v hv => ?_⟩
    have hq : tag.quality ≠ .bad := by simpa using hnull
    obtain rfl : tag.value = v := by simpa [hq] using hv
    exact hvalue hq

theorem publishable_iff (tag : MqttTag) :
    (∃ m, toSparkplugMetric tag = .ok m ∧ MetricEncodable P m) ↔ tag.Publishable := by
  have hmetric : ∀ d, inferDatatype tag.value = .ok d →
      ((∃ m, toSparkplugMetric tag = .ok m ∧ MetricEncodable P m) ↔
        tag.tagId.Encodable ∧ 0 ≤ tag.timestampMs ∧
          (tag.quality ≠ .bad → (encodeMetricValue P d tag.value).isOk = true)) := by
    intro d hd
    rw [← metricEncodable_tag, toSparkplugMetric, hd]
    constructor
    · rintro ⟨m, hm, henc⟩
      cases hm
      exact henc
    · exact fun henc => ⟨_, rfl, henc⟩
  cases hv : tag.value with
  | bytes b =>
    constructor
    · rintro ⟨m, hm, -⟩
      rw [toSparkplugMetric, hv] at hm
      cases hm
    · exact fun h => absurd hv (h.typed b)
  | bool b =>
    rw [hmetric .boolean (by rw [hv]; rfl), hv]
    simp only [encodeMetricValue, isOk_encodeBoolField, implies_true, and_true]
    exact ⟨fun h => ⟨by simp [hv], h.1, h.2, by simp [hv], by simp [hv]⟩,
      fun h => ⟨h.name, h.time⟩⟩
  | float bits =>
    rw [hmetric .double (by rw [hv]; rfl), hv]
    simp only [encodeMetricValue, isOk_bind_ok, P.toFloat_float]
    exact ⟨fun h => ⟨by simp [hv], h.1, h.2.1, by simp [hv], by simp [hv]⟩,
      fun h => ⟨h.name, h.time, fun _ => rfl⟩⟩
  | int i =>
    rw [hmetric .uint32 (by rw [hv]; rfl), hv]
    have hint : (encodeMetricValue P .uint32 (.int i)).isOk = true ↔ 0 ≤ i := by
      rw [← isOk_encodeVarintField 10 i, encodeMetricValue, P.toInt_int]
      rfl
    rw [hint]
    refine ⟨fun h => ⟨by simp [hv], h.1, h.2.1, fun hq j hj => ?_, by simp [hv]⟩,
      fun h => ⟨h.name, h.time, fun hq => h.nonneg hq i hv⟩⟩
    obtain rfl : i = j := by simpa [hv] using hj
    exact h.2.2 hq
  | str s =>
    rw [hmetric .string (by rw [hv]; rfl), hv]
    simp only [encodeMetricValue, isOk_encodeStringField, P.toStr_str]
    refine ⟨fun h => ⟨by simp [hv], h.1, h.2.1, by simp [hv], fun hq t ht => ?_⟩,
      fun h => ⟨h.name, h.time, fun hq => h.text hq s hv⟩⟩
    obtain rfl : s = t := by simpa [hv] using ht
    exact h.2.2 hq

theorem toSparkplugMetrics_iff (batch : List MqttTag) :
    (∃ ms, toSparkplugMetrics batch = .ok ms ∧ ∀ m ∈ ms, MetricEncodable P m) ↔
      ∀ tag ∈ batch, tag.Publishable := by
  induction batch with
  | nil => simp [toSparkplugMetrics]
  | cons tag batch ih =>
    rw [List.forall_mem_cons, ← publishable_iff P, ← ih, toSparkplugMetrics]
    constructor
    · rintro ⟨ms, hms, henc⟩
      obtain ⟨m, hm, hrest⟩ := bind_eq_ok.1 hms
      obtain ⟨ms', hms', heq⟩ := bind_eq_ok.1 hrest
      cases heq
      rw [List.forall_mem_cons] at henc
      exact ⟨⟨m, hm, henc.1⟩, ms', hms', henc.2⟩
    · rintro ⟨⟨m, hm, hme⟩, ms, hms, hmse⟩
      exact ⟨m :: ms, bind_eq_ok.2 ⟨m, hm, bind_eq_ok.2 ⟨ms, hms, rfl⟩⟩,
        List.forall_mem_cons.2 ⟨hme, hmse⟩⟩

/-- What it takes for `publish` to return. -/
def MqttConnector.Returns (c : MqttConnector) (nowMs : Int) (batch : List MqttTag) : Prop :=
  c.client = none ∨ batch = [] ∨ (0 ≤ nowMs ∧ ∀ tag ∈ batch, tag.Publishable)

theorem MqttConnector.prepare_raises_iff (c : MqttConnector) (nowMs : Int) (batch : List MqttTag) :
    (∃ e, (c.prepare P nowMs batch).1 = .raised e) ↔ ¬ c.Returns nowMs batch := by
  unfold prepare Returns
  cases hc : c.client with
  | none => simp
  | some n =>
    by_cases hb : batch = []
    · simp [hb]
    · rw [← toSparkplugMetrics_iff P]
      simp only [hb, reduceCtorEq, false_or]
      cases hms : toSparkplugMetrics batch with
      | error e => simp
      | ok ms =>
        have hok := isOk_encodePayload P nowMs (some (c.session.nextSeq.1.val : Int)) ms
        cases henc : encodePayload P nowMs (some (c.session.nextSeq.1.val : Int)) ms with
        | error | ok =>
          simpa [henc, Except.isOk, Except.toBool] using hok

/-- **When publishing returns.**  `publish` returns a result exactly when there is no client,
the batch is empty, or the clock is not before 1970 and every tag of the batch is publishable,
whatever becomes of the message; and a live publish ends the dispatcher's loop exactly when it
does not return. -/
theorem publish_returns_iff (c : MqttConnector) (nowMs : Int) (batch : List MqttTag)
    (delivery : Except String Unit) :
    ((∃ r, (c.publish P nowMs batch delivery).1 = .ok r) ↔ c.Returns nowMs batch) ∧
      ∀ (g : Gateway) (samples : List Sample),
        (g.onLivePublish samples (publishOutcome (c.publish P nowMs batch delivery).1)).phase =
          .crashed ↔ ¬ c.Returns nowMs batch := by
  have hraise := c.prepare_raises_iff P nowMs batch
  have hlive : ∀ (g : Gateway) (samples : List Sample) (x : Except EncodeError PublishResult),
      (g.onLivePublish samples (publishOutcome x)).phase = .crashed ↔ ∃ e, x = .error e := by
    intro g samples x
    cases x with
    | error e => simp [publishOutcome, Gateway.onLivePublish]
    | ok r =>
      have hhead : ∀ g' : Gateway, g'.loopHead.phase ≠ .crashed := by
        intro g'
        unfold Gateway.loopHead
        cases g'.connected <;> simp
      cases hr : r.success <;> simp [publishOutcome, hr, Gateway.onLivePublish, hhead]
  have hpublish : (∃ e, (c.publish P nowMs batch delivery).1 = .error e) ↔
      ¬ c.Returns nowMs batch := by
    rw [← hraise, MqttConnector.publish]
    obtain ⟨prepared, c'⟩ := c.prepare P nowMs batch
    cases prepared with
    | returned | raised | sending => simp
  refine ⟨?_, fun g samples => (hlive g samples _).trans hpublish⟩
  rw [← not_iff_not, ← hpublish]
  cases (c.publish P nowMs batch delivery).1 <;> simp

def liveConnector : MqttConnector := ⟨.new, some 0, 0, 0⟩

def temperature (value : PyValue) : MqttTag := ⟨PyStr.ofString "plc/outside", 0, value, .good⟩

/-- **One negative sample ends the dispatcher's loop**: five degrees below zero cannot be
sent, and neither can bytes. -/
theorem negative_sample_ends_the_dispatcher :
    (∀ value ∈ [PyValue.int (-5), .bytes [0]],
      (liveConnector.publish .strict 0 [temperature value] (.ok ())).1.isOk = false) ∧
    ∀ (g : Gateway) (samples : List Sample),
      (g.onLivePublish samples (publishOutcome
        (liveConnector.publish .strict 0 [temperature (.int (-5))] (.ok ())).1)).phase =
          .crashed := by
  have hraise : ∀ value ∈ [PyValue.int (-5), .bytes [0]],
      (liveConnector.publish .strict 0 [temperature value] (.ok ())).1.isOk = false := by
    decide +kernel
  refine ⟨hraise, fun g samples => ?_⟩
  have h := hraise (.int (-5)) (by simp)
  cases hp : (liveConnector.publish .strict 0 [temperature (.int (-5))] (.ok ())).1 with
  | error e => rfl
  | ok r =>
    rw [hp] at h
    cases h

end XEdge.Northbound
