import XEdge.Core.Consumer
import XEdge.Lib.Json
import XEdge.Northbound.Sparkplug.Decode

/-!
# The MQTT subscriber and the scaling of its tags (`xedge/drivers/mqtt_subscriber/client.py`)

A message is mapped to a tag by its topic, its payload is read as JSON or as plain text,
and a number is scaled by the driver.  The update then goes through the pipeline, which
takes scale and offset from the same configuration and applies them to every driver's
numbers.
-/

namespace XEdge.MqttSubscriber

open Lib XEdge.Core

/-! ## Configuration -/

inductive PayloadFormat where
  | raw
  | json
  deriving DecidableEq

/-- A tag of the driver: beside what the pipeline reads, where its values come from. -/
structure MqttTag extends TagDef where
  topic : String
  qos : Option Nat
  payloadFormat : Option PayloadFormat
  jsonPath : Option String

structure MqttTagGroup where
  deadband : Option DeadbandConfig
  tags : List MqttTag

def MqttTagGroup.toTagGroup (group : MqttTagGroup) : TagGroup :=
  ⟨group.deadband, group.tags.map MqttTag.toTagDef⟩

structure TopicMapping where
  tagId : String
  topic : String
  qos : Nat
  payloadFormat : PayloadFormat
  jsonPath : Option String
  scale : ℚ
  offset : ℚ

def MqttTag.mapping (instanceId : String) (tag : MqttTag) : TopicMapping where
  tagId := qualifiedId instanceId tag.id
  topic := tag.topic
  qos := tag.qos.getD 0
  payloadFormat := tag.payloadFormat.getD .raw
  jsonPath := tag.jsonPath
  scale := (RawScaling.values tag.scaling).1
  offset := (RawScaling.values tag.scaling).2

/-- `configure`: the mappings by topic; the last tag of a topic wins. -/
def configure (instanceId : String) (groups : List MqttTagGroup) : Dict String TopicMapping :=
  .ofList ((groups.flatMap MqttTagGroup.tags).map fun tag => (tag.topic, tag.mapping instanceId))

/-! ## Payloads -/

structure Externals where
  strip : Json.Text → Json.Text
  lower : Json.Text → Json.Text
  /-- `int(text)`, unless it raises. -/
  int : Json.Text → Option Int
  /-- `float(text)`, unless it raises; a NaN and an infinity are no rational. -/
  float : Json.Text → Option (Option ℚ)
  /-- The floats of `json.loads`. -/
  format : Json.FloatFormat
  topicMatchesSub : String → String → Bool

/-- What makes `_decode_message` report a bad value. -/
inductive PayloadError where
  /-- `PayloadDecodeError`: the object has no such key. -/
  | noKey (path key : Json.Text)
  /-- `PayloadDecodeError`: neither an object nor a list. -/
  | cannotIndex (path key : Json.Text) (typeName : String)
  /-- `PayloadDecodeError`: not a supported tag value. -/
  | unsupported (typeName : String)
  /-- `ValueError` of `json.loads`, or of `int` for an index. -/
  | valueError
  | indexError
  | unicodeDecodeError

/-- `type(value).__name__`. -/
def typeName : Json.Value → String
  | .null => "NoneType"
  | .bool _ => "bool"
  | .int _ => "int"
  | .float _ => "float"
  | .str _ => "str"
  | .arr _ => "list"
  | .obj _ => "dict"

/-- `payload.decode("utf-8")`. -/
def decodeText (payload : List UInt8) : Except PayloadError Json.Text :=
  match Northbound.Sparkplug.decodeChars payload.length payload with
  | some s => .ok (s.map fun c => Char.ofNat c.val)
  | none => .error .unicodeDecodeError

/-- `xs[i]`; a negative index counts from the end. -/
def index (xs : List Json.Value) (i : Int) : Option Json.Value :=
  if 0 ≤ i then xs[i.toNat]?
  else if -i ≤ xs.length then xs[xs.length - (-i).toNat]?
  else none

/-- `mqtt_subscriber` reads numbers, texts and truth values; `none` is a NaN or an infinity,
which no `TagValue` of the model is. -/
abbrev Extracted := Except PayloadError (Option TagValue)

section Externals

variable (E : Externals)

def descend (path : Json.Text) (current : Json.Value) (key : Json.Text) :
    Except PayloadError Json.Value :=
  match current with
  | .obj kvs =>
      match lookup (Json.Str.ofText key) kvs with
      | some v => .ok v
      | none => .error (.noKey path key)
  | .arr xs =>
      match E.int key with
      | none => .error .valueError
      | some i =>
          match index xs i with
          | some v => .ok v
          | none => .error .indexError
  | v => .error (.cannotIndex path key (typeName v))

def extractJsonPath (data : Json.Value) (path : Json.Text) : Except PayloadError Json.Value :=
  (path.splitOn '.').foldlM (descend E path) data

def coerceJsonValue : Json.Value → Extracted
  | .bool b => .ok (some (.bool b))
  | .int i => .ok (some (.int i))
  | .float t => .ok ((E.float t).join.map .float)
  | .str s => .ok (some (.str (String.ofList (s.map fun c => Char.ofNat c.val))))
  | v => .error (.unsupported (typeName v))

def coerceRawText (text : Json.Text) : Extracted :=
  let stripped := E.strip text
  if E.lower stripped = "true".toList then .ok (some (.bool true))
  else if E.lower stripped = "false".toList then .ok (some (.bool false))
  else
    match E.int stripped, E.float stripped with
    | some i, _ => .ok (some (.int i))
    | none, some x => .ok (x.map .float)
    | none, none => .ok (some (.str (String.ofList stripped)))

def extractValue (mapping : TopicMapping) (payload : List UInt8) : Extracted := do
  let text ← decodeText payload
  match mapping.payloadFormat with
  | .raw => coerceRawText E text
  | .json =>
      match Json.loads E.format text with
      | none => .error .valueError
      | some data =>
          match mapping.jsonPath with
          -- an empty path counts as none
          | none | some "" => coerceJsonValue E data
          | some path => extractJsonPath E data path.toList >>= coerceJsonValue E

def TopicMapping.scaled (mapping : TopicMapping) (value : TagValue) : TagValue :=
  match value.number with
  | some x => .float (x * mapping.scale + mapping.offset)
  | none => value

/-- `_decode_message`, at a time; `none` if the value is a NaN or an infinity. -/
def decodeMessage (instanceId : String) (mapping : TopicMapping) (payload : List UInt8)
    (now : Int) : Option TagUpdate :=
  match extractValue E mapping payload with
  | .ok none => none
  | .ok (some value) =>
      some ⟨mapping.tagId, mapping.scaled value, .good, now, none, instanceId, mapping.topic⟩
  | .error _ => some ⟨mapping.tagId, .int 0, .bad, now, none, instanceId, mapping.topic⟩

/-- `_find_mapping`: the topic itself, or the first filter that it matches. -/
def findMapping (mappings : Dict String TopicMapping) (concreteTopic : String) :
    Option TopicMapping :=
  match mappings.get? concreteTopic with
  | some exact => some exact
  | none => mappings.values.find? fun m => E.topicMatchesSub m.topic concreteTopic

/-- The body of the loop of `run`: what is queued for a message, if its topic is mapped. -/
def receive (instanceId : String) (mappings : Dict String TopicMapping)
    (topic : String) (payload : List UInt8) (now : Int) : Option TagUpdate :=
  (findMapping E mappings topic).bind fun m => decodeMessage E instanceId m payload now

end Externals

variable {E : Externals}

variable {i : String} {m : TopicMapping}

theorem exists_tag_of_findMapping {groups : List MqttTagGroup} {topic : String}
    (h : findMapping E (configure i groups) topic = some m) :
    ∃ tag ∈ groups.flatMap MqttTagGroup.tags, m = tag.mapping i := by
  have hmem : ∃ k, (configure i groups).get? k = some m := by
    unfold findMapping at h
    split at h
    · next exact hexact => exact ⟨topic, hexact.trans h⟩
    · exact (Dict.mem_values _).1 (List.mem_of_find?_eq_some h)
  obtain ⟨k, hk⟩ := hmem
  rw [configure, Dict.get?_ofList] at hk
  have hentry := List.mem_reverse.1 (mem_of_lookup hk)
  obtain ⟨tag, htag, heq⟩ := List.mem_map.1 hentry
  exact ⟨tag, htag, (Prod.mk.inj heq).2.symm⟩

theorem number_decodeMessage {payload : List UInt8} {now : Int} {update : TagUpdate}
    {value : TagValue} {x : ℚ} (hvalue : extractValue E m payload = .ok (some value))
    (hx : value.number = some x) (h : decodeMessage E i m payload now = some update) :
    update.tagId = m.tagId ∧ update.value.number = some (x * m.scale + m.offset) := by
  rw [decodeMessage, hvalue] at h
  cases h
  refine ⟨rfl, ?_⟩
  simp only [TopicMapping.scaled, hx]
  rfl

/-! ## What is emitted for a tag -/

section Emitted

variable (E : Externals) (instanceId : String) (mapping : TopicMapping)

def Payload : Type :=
  {value : TagValue // ∃ payload, extractValue E mapping payload = .ok (some value)}

/-- The update of `_decode_message`, with the value of the payload. -/
def updateOf (now : Int) : Option (Payload E mapping) → TagUpdate
  | none => ⟨mapping.tagId, .int 0, .bad, now, none, instanceId, mapping.topic⟩
  | some value =>
      ⟨mapping.tagId, mapping.scaled value.val, .good, now, none, instanceId, mapping.topic⟩

def Emits (update : TagUpdate) : Prop :=
  ∃ payload now, decodeMessage E instanceId mapping payload now = some update

variable {E instanceId mapping}

theorem emits_iff {update : TagUpdate} :
    Emits E instanceId mapping update ↔
      ∃ now value, update = updateOf E instanceId mapping now value := by
  constructor
  · rintro ⟨payload, now, h⟩
    rw [decodeMessage] at h
    split at h
    · cases h
    · next value hvalue =>
      cases h
      exact ⟨now, some ⟨value, payload, hvalue⟩, rfl⟩
    · cases h
      exact ⟨now, none, rfl⟩
  · rintro ⟨now, value, rfl⟩
    cases value with
    | none =>
      -- no UTF-8
      have hinvalid : extractValue E mapping [255] = .error .unicodeDecodeError := rfl
      refine ⟨[255], now, ?_⟩
      rfl
    | some value =>
      obtain ⟨payload, hpayload⟩ := value.property
      refine ⟨payload, now, ?_⟩
      rw [decodeMessage, hpayload]
      rfl

end Emitted

/-! ## Driver and pipeline -/

/-- **When a number is scaled once.**  The pipeline scales what the driver has scaled, so the
driver's value has to be a fixed point of the pipeline's scaling. -/
theorem scaled_once_iff (E : Externals) {drivers : List (String × List TagGroup)}
    {C : PipelineConfig} (hC : C.tagConfigs = buildTagPipelineConfigs drivers)
    {es : List PipelineEvent} {s : Pipeline}
    (hrun : (pipelineMachine C).run (Pipeline.new C) es = some s) {h : Handled} (hh : h ∈ s.handled)
    {i : String} {groups : List MqttTagGroup} {topic : String} {payload : List UInt8} {now : Int}
    {tag : MqttTag} (htag : findMapping E (configure i groups) topic = some (tag.mapping i))
    (hreceive : receive E i (configure i groups) topic payload now = some h.update)
    {value : TagValue} {x : ℚ} (hvalue : extractValue E (tag.mapping i) payload = .ok (some value))
    (hx : value.number = some x) :
    let y := x * (RawScaling.values tag.scaling).1 + (RawScaling.values tag.scaling).2
    let p := appliedScaling ((buildTagPipelineConfigs drivers).get? (qualifiedId i tag.id))
    h.tag.value.number = some y ↔ y * (p.1 - 1) + p.2 = 0 := by
  intro y p
  rw [receive, htag, Option.bind_some] at hreceive
  obtain ⟨hid, hnumber⟩ := number_decodeMessage hvalue hx hreceive
  have hy : h.update.value.number = some y := hnumber
  have hpublished : h.tag.value.number = some (y * p.1 + p.2) := by
    rw [(Pipeline.traced_run hrun).handled h hh, number_normalize hy, hC, hid]
    rfl
  rw [hpublished, Option.some_inj]
  constructor
  · intro heq
    linear_combination heq
  · intro heq
    linear_combination heq

def plainExternals : Externals where
  strip := id
  lower := id
  int _ := none
  float _ := none
  format := .exact
  topicMatchesSub filter topic := filter = topic

def level (scale offset : ℚ) : MqttTag where
  id := "level"
  scaling := some ⟨some scale, some offset⟩
  engineeringUnit := none
  topic := "tank/level"
  qos := none
  payloadFormat := some .json
  jsonPath := none

def tank (scale offset : ℚ) : List MqttTagGroup := [⟨none, [level scale offset]⟩]

def tankPipeline (scale offset : ℚ) : PipelineConfig where
  tagConfigs := buildTagPipelineConfigs [("tank", (tank scale offset).map MqttTagGroup.toTagGroup)]
  alarmRules := .empty
  ramMaxDepth := 10
  ramMaxDepth_pos := by decide

def levelOne (scale offset : ℚ) : Option TagUpdate :=
  receive plainExternals "tank" (configure "tank" (tank scale offset)) "tank/level"
    [49] 0

def levelEvents (scale offset : ℚ) : List PipelineEvent :=
  ((levelOne scale offset).map PipelineEvent.put).toList ++ [.take]

theorem scaled_once_levelOne : ∃ s h,
    (pipelineMachine (tankPipeline 2 (-1))).run (Pipeline.new (tankPipeline 2 (-1)))
      (levelEvents 2 (-1)) = some s ∧
    h ∈ s.handled ∧ levelOne 2 (-1) = some h.update ∧ h.tag.value.number = some 1 := by
  obtain ⟨s, hs, hv⟩ := Option.map_eq_some_iff.1
    (show ((pipelineMachine (tankPipeline 2 (-1))).run (Pipeline.new (tankPipeline 2 (-1)))
      (levelEvents 2 (-1))).map (fun s => s.handled.map fun h => some h.update) =
      some [levelOne 2 (-1)] by decide +kernel)
  obtain ⟨h, hh, hhupdate⟩ := List.mem_map.1 (hv ▸ List.mem_singleton_self _)
  have hiff := scaled_once_iff plainExternals rfl hs hh
    (show findMapping plainExternals (configure "tank" (tank 2 (-1))) "tank/level" =
      some ((level 2 (-1)).mapping "tank") from rfl) hhupdate.symm
    (show extractValue plainExternals ((level 2 (-1)).mapping "tank") [49] =
      .ok (some (.int 1)) from rfl)
    (show (TagValue.int 1).number = some 1 by decide +kernel)
  have hvalue := hiff.2 (by decide +kernel)
  refine ⟨s, h, hs, hh, hhupdate.symm, hvalue.trans ?_⟩
  decide +kernel

/-- **A level of 1 with scale 2 is buffered as 4**: the driver makes 2 of it, and the pipeline
4 of that. -/
theorem level_scaled_twice :
    extractValue plainExternals ((level 2 0).mapping "tank") [49] = .ok (some (.int 1)) ∧
    ((levelOne 2 0).bind fun u => u.value.number) = some 2 ∧
    ((pipelineMachine (tankPipeline 2 0)).run (Pipeline.new (tankPipeline 2 0))
      (levelEvents 2 0)).map (fun s => (s.rings.contents "tank").map fun tag => tag.value) =
        some [.float 4] := by
  exact ⟨rfl, by decide +kernel, by decide +kernel⟩

end XEdge.MqttSubscriber
