import XEdge.Bacnet.MstpClient
import XEdge.EthernetIp.Client
import XEdge.MqttSubscriber.Client
import XEdge.Northbound.OpcuaServer
import XEdge.Snmp.Client

/-!
# OPC UA nodes that are created by the first update

A tag of an SNMP, EtherNet/IP, BACnet MS/TP or MQTT subscriber driver has no node at startup.  The
first update that reaches the server creates one with its value, and the type of that value is the
type of the node from then on.  All four drivers report a failed read as the integer 0 of bad
quality, so the first update may be a placeholder, and so may any later one.
-/

namespace XEdge.Northbound

open Lib XEdge.Core

/-! ## Tags and their drivers -/

structure Feed where
  instanceId : String
  tag : TagDef
  sourceAddress : String
  Supplied : Type
  Kind : Type
  kind : Supplied → Kind
  value : Supplied → TagValue
  driverType : Kind → ValueType
  valueType_value : ∀ v, valueType (value v) = driverType (kind v)

namespace Feed

variable (f : Feed)

def tagId : String := qualifiedId f.instanceId f.tag.id

/-- The update of a read: good with a value of the device, or bad with the placeholder. -/
def update (now : Int) : Option f.Supplied → TagUpdate
  | none => ⟨f.tagId, .int 0, .bad, now, none, f.instanceId, f.sourceAddress⟩
  | some v => ⟨f.tagId, f.value v, .good, now, none, f.instanceId, f.sourceAddress⟩

def publishedType (t : ValueType) : ValueType :=
  scaledType (some ⟨RawScaling.toConfig f.tag.scaling, none, none⟩) t

@[simp] theorem tagId_update (now : Int) (outcome : Option f.Supplied) :
    (f.update now outcome).tagId = f.tagId := by
  cases outcome <;> rfl

end Feed

def jsonType : Bacnet.JsonValue → Option ValueType
  | .null => none
  | .bool _ => some .bool
  | .int _ => some .int
  | .float _ => some .float
  | .str _ => some .str

/-- The type of a value that an EtherNet/IP controller supplies; `none` for a structure or an
array. -/
def cipType : EthernetIp.CipValue → Option ValueType
  | .bool _ => some .bool
  | .int _ => some .int
  | .float _ => some .float
  | .str _ => some .str
  | .bytes _ => some .bytes
  | .other _ => none

def asn1Type : Snmp.Asn1Value → Snmp.NumericType ⊕ String
  | .numeric type _ => .inl type
  | .other typeName _ => .inr typeName

inductive LazyTag where
  | snmp (instanceId : String) (tag : Snmp.Tag)
  | ethernetIp (instanceId : String) (tag : EthernetIp.Tag)
  | bacnetMstp (instanceId : String) (tag : Bacnet.Tag) (scaling : Option RawScaling)
      (engineeringUnit : Option String)
  | mqttSubscriber (E : MqttSubscriber.Externals) (instanceId : String)
      (tag : MqttSubscriber.MqttTag)

namespace LazyTag

def feed : LazyTag → Feed
  | snmp instanceId tag =>
      { instanceId
        tag := tag.toTagDef
        sourceAddress := tag.oid
        Supplied := Snmp.Asn1Value
        Kind := Snmp.NumericType ⊕ String
        kind := asn1Type
        value := Snmp.decode
        driverType := fun
          | .inl _ => .int
          | .inr _ => .str
        valueType_value := fun v => by cases v <;> rfl }
  | ethernetIp instanceId tag =>
      { instanceId
        tag := tag.toTagDef
        sourceAddress := tag.tagName
        Supplied := EthernetIp.CipValue
        Kind := Option ValueType
        kind := cipType
        value := EthernetIp.coerceValue
        driverType := fun type => type.getD .str
        valueType_value := fun v => by cases v <;> rfl }
  | bacnetMstp instanceId tag scaling engineeringUnit =>
      { instanceId
        tag := ⟨tag.id, scaling, engineeringUnit⟩
        sourceAddress := toString tag.deviceInstance ++ "/" ++ tag.objectType ++ ":" ++
          toString tag.objectInstance
        Supplied := Bacnet.JsonValue
        Kind := Option ValueType
        kind := jsonType
        value := fun v => Bacnet.coerceValue v tag.objectType tag.propertyId
        driverType := fun type =>
          -- a number of a binary object is a truth value
          match type, Bacnet.isBinaryPresentValue tag.objectType tag.propertyId with
          | some .int, true | some .float, true => .bool
          | type, _ => type.getD .str
        valueType_value := fun v => by
          cases v <;> cases h : Bacnet.isBinaryPresentValue tag.objectType tag.propertyId <;>
            simp [Bacnet.coerceValue, jsonType, h, valueType] }
  | mqttSubscriber E instanceId tag =>
      { instanceId
        tag := tag.toTagDef
        sourceAddress := tag.topic
        Supplied := MqttSubscriber.Payload E (tag.mapping instanceId)
        Kind := ValueType
        kind := fun v => valueType v.val
        value := fun v => (tag.mapping instanceId).scaled v.val
        driverType := fun
          -- the driver scales by 1.0 and 0.0 if nothing is configured
          | .int => .float
          | type => type
        valueType_value := fun v => by
          obtain ⟨value, hvalue⟩ := v
          cases value <;> rfl }

def Polled : LazyTag → Prop
  | snmp _ tag => tag.Polled
  | ethernetIp _ tag => tag.Polled
  | bacnetMstp .. | mqttSubscriber .. => True

def Emits : LazyTag → TagUpdate → Prop
  | snmp instanceId tag, u => Snmp.Emits instanceId tag u
  | ethernetIp instanceId tag, u => EthernetIp.Emits instanceId tag u
  | bacnetMstp instanceId tag _ _, u => Bacnet.Emits instanceId tag u
  | mqttSubscriber E instanceId tag, u =>
      MqttSubscriber.Emits E instanceId (tag.mapping instanceId) u

theorem emits_iff (t : LazyTag) (u : TagUpdate) :
    t.Emits u ↔ t.Polled ∧ ∃ now outcome, u = t.feed.update now outcome := by
  cases t with
  | snmp instanceId tag =>
    refine Snmp.emits_iff.trans (and_congr_right fun _ => ?_)
    refine exists_congr fun now => exists_congr fun value => ?_
    cases value <;> rfl
  | ethernetIp instanceId tag =>
    refine EthernetIp.emits_iff.trans (and_congr_right fun _ => ?_)
    refine exists_congr fun now => exists_congr fun value => ?_
    cases value <;> rfl
  | bacnetMstp instanceId tag scaling engineeringUnit =>
    refine Bacnet.emits_iff.trans (Iff.trans ?_ (and_iff_right trivial).symm)
    refine exists_congr fun now => exists_congr fun value => ?_
    cases value <;> rfl
  | mqttSubscriber E instanceId tag =>
    refine MqttSubscriber.emits_iff.trans (Iff.trans ?_ (and_iff_right trivial).symm)
    refine exists_congr fun now => exists_congr fun value => ?_
    cases value <;> rfl

/-- The driver emits the update; if the read is good, the device supplied a value of the given
type. -/
def IsRead (t : LazyTag) (kind : t.feed.Kind) (u : TagUpdate) : Prop :=
  t.Emits u ∧ ∃ now outcome, u = t.feed.update now outcome ∧ ∀ v ∈ outcome, t.feed.kind v = kind

/-- The tag is configured for its driver and read, its node is not created at startup, and no tag of
the same id has another scaling. -/
structure ConfiguredIn (drivers : List DriverEntry) (t : LazyTag) : Prop where
  polled : t.Polled
  group : ∃ groups, .other t.feed.instanceId groups ∈ drivers ∧
    ∃ group ∈ groups, t.feed.tag ∈ group.tags
  own : ∀ q ∈ (drivers.map fun driver => (driver.id, driver.pipelineGroups)).flatMap fun d =>
    driverTagConfigs d.1 d.2, q.1 = t.feed.tagId →
      q.2.scaling = RawScaling.toConfig t.feed.tag.scaling
  notPrebuilt : (inferTagInitialValues drivers).get? t.feed.tagId = none

variable {drivers : List DriverEntry} {t : LazyTag}

theorem ConfiguredIn.scaling (h : t.ConfiguredIn drivers) :
    ((tagConfigs drivers).get? t.feed.tagId).bind TagPipelineConfig.scaling =
      RawScaling.toConfig t.feed.tag.scaling := by
  obtain ⟨groups, hdriver, group, hgroup, htag⟩ := h.group
  obtain ⟨config, hconfig, hscaling⟩ :=
    scaling_own (List.mem_map.2 ⟨_, hdriver, rfl⟩) hgroup htag h.own
  have hget : (tagConfigs drivers).get? t.feed.tagId = some config := hconfig
  rw [hget, Option.bind_some, hscaling]

end LazyTag

/-! ## The consumer -/

/-- The consumer up to the call of `update_tag`, and the server. -/
structure Live where
  alarms : AlarmEngine
  server : OpcUaTagServer
  /-- The ids and values that were handed to `update_tag`, in order. -/
  handed : List (String × TagValue)
  crashed : Option String

def Live.start (drivers : List DriverEntry) (rules : Dict String AlarmRule) : Live :=
  ⟨.new rules, .start drivers, [], none⟩

/-- What the consumer makes of an update: the sample, and the alarm engine that has seen it. -/
def Live.evaluated (drivers : List DriverEntry) (s : Live) (update : TagUpdate) :
    UnifiedTag × AlarmEngine :=
  s.alarms.evaluate (normalize update ((tagConfigs drivers).get? update.tagId))

/-- The body of the loop of `_pipeline_to_buffer`, up to the write. -/
def Live.take (drivers : List DriverEntry) (s : Live) (update : TagUpdate) : Live :=
  let (tag, alarms) := s.evaluated drivers update
  let handed := s.handed ++ [(tag.tagId, tag.value)]
  match s.server.updateTag tag with
  | .ok server => { s with alarms, server, handed }
  | .error _ => { s with alarms, handed, crashed := some tag.tagId }

def liveMachine (drivers : List DriverEntry) : Machine Live TagUpdate where
  step s update := if s.crashed = none then some (s.take drivers update) else none

/-- All values that were handed over for the tag have one type, and none of its writes raised. -/
def Live.OneType (tagId : String) (s : Live) : Prop :=
  (∀ a b, (tagId, a) ∈ s.handed → (tagId, b) ∈ s.handed → valueType a = valueType b) ∧
    s.crashed ≠ some tagId

/-! ## One write -/

def OpcUaTagServer.nodeType (s : OpcUaTagServer) (tagId : String) : Option ValueType :=
  (s.nodes.get? tagId).map fun node => valueType node.initial

namespace OpcUaTagServer

variable {s s' : OpcUaTagServer} {tag : UnifiedTag}

variable {node : Node}

theorem exists_writeNode (s : OpcUaTagServer)
    (h : valueType node.initial = valueType tag.value) : ∃ s', s.writeNode node tag = .ok s' := by
  rw [writeNode, Node.writeValue, if_pos h]
  exact ⟨_, rfl⟩

theorem nodeType_writeNode (h : s.writeNode node tag = .ok s') (tagId : String) :
    s'.nodeType tagId =
      if tagId = tag.tagId then some (valueType node.initial) else s.nodeType tagId := by
  obtain ⟨written, hwritten, h⟩ := bind_eq_ok.1 h
  cases h
  rw [nodeType]
  split
  · next heq =>
    rw [heq, Dict.get?_set_self, Option.map_some, initial_of_writeValue hwritten]
  · next hne =>
    rw [Dict.get?_set_of_ne _ _ hne]
    rfl

theorem exists_updateTag (h : ∀ t ∈ s.nodeType tag.tagId, t = valueType tag.value) :
    ∃ s', s.updateTag tag = .ok s' := by
  rw [updateTag]
  split
  · next node hnode =>
    refine exists_writeNode s (h _ ?_)
    rw [nodeType, hnode]
    rfl
  · split
    · exact exists_writeNode _ rfl
    · exact ⟨s, rfl⟩

theorem nodeType_updateTag (h : s.updateTag tag = .ok s') {tagId : String} {t : ValueType}
    (ht : s'.nodeType tagId = some t) :
    s.nodeType tagId = some t ∨ tagId = tag.tagId ∧ t = valueType tag.value := by
  rw [updateTag] at h
  split at h
  · next node hnode =>
    rw [nodeType_writeNode h] at ht
    split at ht
    · next heq =>
      rw [heq, nodeType, hnode]
      exact .inl ht
    · exact .inl ht
  · split at h
    · rw [nodeType_writeNode h] at ht
      split at ht
      · next heq => exact .inr ⟨heq, (Option.some.inj ht).symm⟩
      · next hne =>
        rw [nodeType, createNode, Dict.get?_set_of_ne _ _ hne] at ht
        exact .inl ht
    · cases h
      exact .inl ht

end OpcUaTagServer

/-! ## Runs -/

namespace Live

variable {drivers : List DriverEntry} {s : Live}

theorem step_of_running (h : s.crashed = none) (update : TagUpdate) :
    (liveMachine drivers).step s update = some (s.take drivers update) := if_pos h

def handedFor (drivers : List DriverEntry) (update : TagUpdate) : String × TagValue :=
  (update.tagId, scaleValue update.value ((tagConfigs drivers).get? update.tagId))

@[simp] theorem tagId_evaluated (s : Live) (update : TagUpdate) :
    (s.evaluated drivers update).1.tagId = update.tagId :=
  AlarmEngine.tagId_evaluate ..

@[simp] theorem value_evaluated (s : Live) (update : TagUpdate) :
    (s.evaluated drivers update).1.value = (handedFor drivers update).2 :=
  AlarmEngine.value_evaluate ..

theorem handed_take (s : Live) (update : TagUpdate) :
    (s.take drivers update).handed = s.handed ++ [handedFor drivers update] := by
  have hpair : ((s.evaluated drivers update).1.tagId, (s.evaluated drivers update).1.value) =
      handedFor drivers update := by
    rw [tagId_evaluated, value_evaluated]
    rfl
  rw [← hpair, take]
  simp only
  split <;> rfl

theorem take_cases (s : Live) (update : TagUpdate) :
    (∃ server, s.server.updateTag (s.evaluated drivers update).1 = .ok server ∧
      (s.take drivers update).server = server ∧ (s.take drivers update).crashed = s.crashed) ∨
    (∀ server, s.server.updateTag (s.evaluated drivers update).1 ≠ .ok server) ∧
      (s.take drivers update).server = s.server ∧
      (s.take drivers update).crashed = some update.tagId := by
  rw [take]
  simp only
  split
  · next server hserver => exact .inl ⟨server, hserver, rfl, rfl⟩
  · next e herror =>
    refine .inr ⟨fun server hserver => ?_, rfl, congrArg some (tagId_evaluated s update)⟩
    rw [herror] at hserver
    cases hserver

structure Typed (tagId : String) (t : ValueType) (s : Live) : Prop where
  handed : ∀ a, (tagId, a) ∈ s.handed → valueType a = t
  node : ∀ t' ∈ s.server.nodeType tagId, t' = t
  crashed : s.crashed ≠ some tagId

variable {tagId : String}

theorem Typed.oneType {t : ValueType} (h : s.Typed tagId t) :
    s.OneType tagId := by
  refine ⟨fun a b ha hb => ?_, h.crashed⟩
  rw [h.handed a ha, h.handed b hb]

theorem Typed.take {t : ValueType} (h : s.Typed tagId t) {update : TagUpdate}
    (hupdate : update.tagId = tagId → valueType (handedFor drivers update).2 = t) :
    (s.take drivers update).Typed tagId t := by
  have hhanded : ∀ a, (tagId, a) ∈ (s.take drivers update).handed → valueType a = t := by
    intro a ha
    rw [handed_take, List.mem_append, List.mem_singleton] at ha
    obtain ha | ha := ha
    · exact h.handed a ha
    · obtain ⟨rfl, rfl⟩ := Prod.mk.inj ha
      exact hupdate rfl
  obtain ⟨server, hserver, hnext, hcrashed⟩ | ⟨herror, hnext, hcrashed⟩ := s.take_cases update
  · refine ⟨hhanded, fun t' ht' => ?_, hcrashed ▸ h.crashed⟩
    rw [hnext] at ht'
    obtain hold | ⟨hid, rfl⟩ := OpcUaTagServer.nodeType_updateTag hserver ht'
    · exact h.node t' hold
    · rw [tagId_evaluated] at hid
      rw [value_evaluated]
      exact hupdate hid.symm
  · -- the write of the tag itself has the type of its node
    have hother : update.tagId ≠ tagId := by
      intro hid
      obtain ⟨server, hserver⟩ : ∃ server,
          s.server.updateTag (s.evaluated drivers update).1 = .ok server := by
        refine OpcUaTagServer.exists_updateTag fun t' ht' => ?_
        rw [tagId_evaluated, hid] at ht'
        rw [value_evaluated, hupdate hid]
        exact h.node t' ht'
      exact herror server hserver
    refine ⟨hhanded, hnext ▸ h.node, ?_⟩
    rw [hcrashed]
    exact fun heq => hother (Option.some.inj heq)

theorem typed_start (h : (inferTagInitialValues drivers).get? tagId = none)
    (rules : Dict String AlarmRule) (t : ValueType) : (start drivers rules).Typed tagId t := by
  have hnone : (start drivers rules).server.nodeType tagId = none := by
    rw [OpcUaTagServer.nodeType]
    show (((inferTagInitialValues drivers).mapValues Node.new).get? tagId).map _ = _
    rw [Dict.get?_mapValues, h]
    rfl
  refine ⟨fun a ha => absurd ha List.not_mem_nil, fun t' ht' => ?_, fun hcrashed => ?_⟩
  · rw [hnone] at ht'
    cases ht'
  · cases hcrashed

end Live

theorem scaledType_congr {config config' : Option TagPipelineConfig}
    (h : config.bind TagPipelineConfig.scaling = config'.bind TagPipelineConfig.scaling)
    (t : ValueType) : scaledType config t = scaledType config' t := by
  cases t <;> simp only [scaledType, h]

theorem Feed.publishedType_eq_int_iff (f : Feed) (t : ValueType) :
    f.publishedType t = f.publishedType .int ↔
      t = .int ∨ t = .float ∧ RawScaling.toConfig f.tag.scaling ≠ none := by
  cases hscaling : RawScaling.toConfig f.tag.scaling <;> cases t <;>
    simp [publishedType, scaledType, hscaling]

namespace LazyTag

variable {drivers : List DriverEntry} {t : LazyTag}

variable {kind : t.feed.Kind}

theorem ConfiguredIn.isRead_update (h : t.ConfiguredIn drivers) (now : Int)
    {outcome : Option t.feed.Supplied} (hsupplied : ∀ v ∈ outcome, t.feed.kind v = kind) :
    t.IsRead kind (t.feed.update now outcome) :=
  ⟨(t.emits_iff _).2 ⟨h.polled, now, outcome, rfl⟩, now, outcome, rfl, hsupplied⟩

theorem ConfiguredIn.valueType_handedFor (h : t.ConfiguredIn drivers) (now : Int)
    (outcome : Option t.feed.Supplied) :
    valueType (Live.handedFor drivers (t.feed.update now outcome)).2 =
      t.feed.publishedType (valueType (t.feed.update now outcome).value) := by
  rw [Live.handedFor, valueType_scaleValue, Feed.tagId_update]
  exact scaledType_congr h.scaling _

variable {u : TagUpdate}

/-- Good and bad reads of a device of one type are handed over with one type, if the type of the
placeholder is that of the values. -/
theorem ConfiguredIn.valueType_isRead (h : t.ConfiguredIn drivers)
    (hkind : t.feed.publishedType (t.feed.driverType kind) = t.feed.publishedType .int)
    (hu : t.IsRead kind u) :
    valueType (Live.handedFor drivers u).2 = t.feed.publishedType .int := by
  obtain ⟨-, now, outcome, rfl, hsupplied⟩ := hu
  rw [h.valueType_handedFor]
  cases outcome with
  | none => rfl
  | some v =>
    show t.feed.publishedType (valueType (t.feed.value v)) = _
    rw [t.feed.valueType_value, hsupplied v rfl, hkind]

theorem ConfiguredIn.exists_run (h : t.ConfiguredIn drivers) (rules : Dict String AlarmRule)
    (hu : u.tagId = t.feed.tagId) (u' : TagUpdate) :
    ∃ s, (liveMachine drivers).run (.start drivers rules) [u, u'] = some s ∧
      s.handed = [Live.handedFor drivers u, Live.handedFor drivers u'] := by
  have hstart := Live.typed_start h.notPrebuilt rules (valueType (Live.handedFor drivers u).2)
  have hfirst : ((Live.start drivers rules).take drivers u).Typed t.feed.tagId _ :=
    hstart.take fun _ => rfl
  have hcrashed : ((Live.start drivers rules).take drivers u).crashed = none := by
    obtain ⟨-, -, -, hnone⟩ | ⟨-, -, hsome⟩ := (Live.start drivers rules).take_cases u
    · exact hnone
    · exact absurd (hu ▸ hsome) hfirst.crashed
  refine ⟨((Live.start drivers rules).take drivers u).take drivers u', ?_, ?_⟩
  · rw [Machine.run_cons, Live.step_of_running rfl u, Option.bind_some, Machine.run_singleton,
      Live.step_of_running hcrashed u']
  · rw [Live.handed_take, Live.handed_take]
    rfl

end LazyTag

def partCounter : EthernetIp.Tag := ⟨⟨"parts", none, none⟩, "Part_Count", none⟩

def press : List DriverEntry := [.other "press" [⟨none, [partCounter.toTagDef]⟩]]

theorem configuredIn_press : (LazyTag.ethernetIp "press" partCounter).ConfiguredIn press where
  polled := show partCounter.Polled by decide
  group := ⟨_, List.mem_singleton_self _, _, List.mem_singleton_self _, List.mem_singleton_self _⟩
  own := by decide +kernel
  notPrebuilt := by decide +kernel

def pressUpdates : List TagUpdate :=
  [(LazyTag.ethernetIp "press" partCounter).feed.update 0 none,
    (LazyTag.ethernetIp "press" partCounter).feed.update 1 (some (.int 17)),
    (LazyTag.ethernetIp "press" partCounter).feed.update 2 none]

def sysName : Snmp.Tag := ⟨⟨"name", none, none⟩, "1.3.6.1.2.1.1.5.0", none, none⟩

def switch : List DriverEntry := [.other "switch" [⟨none, [sysName.toTagDef]⟩]]

def switchPoll (response : Snmp.Response) (now : Int) : List TagUpdate :=
  let driver : Snmp.SnmpClientDriver := ⟨.default 0, .new⟩
  (driver.readTags "switch" [sysName] response response now).1.getD []

def noResponse : Snmp.Response := .errorIndication "No SNMP response received before timeout"

def nameResponse : Snmp.Response := .varBinds [.value (.other "OctetString" "core-1")]

def handedTypes (drivers : List DriverEntry) (es : List TagUpdate) :
    Option (List ValueType × Option String) :=
  ((liveMachine drivers).run (.start drivers .empty) es).map fun s =>
    (s.handed.map fun p => valueType p.2, s.crashed)

end XEdge.Northbound
