import XEdge.Modbus.Writing

/-!
# The OPC UA server and the types of its nodes (`xedge/northbound/opcua_server.py`)

The server creates its nodes at startup, each with a value that `_infer_tag_initial_values` guesses
from the configuration.  The value fixes the type of the node; a later write of another type raises
in the one task that consumes the pipeline.
-/

namespace XEdge.Northbound

open Lib XEdge.Core XEdge.Modbus XEdge.Modbus.Batching XEdge.Modbus.Writing

inductive ValueType where
  | bool
  | int
  | float
  | str
  | bytes
  deriving DecidableEq, Repr

/-- `type(value)`. -/
def valueType : TagValue → ValueType
  | .bool _ => .bool
  | .int _ => .int
  | .float _ => .float
  | .str _ => .str
  | .bytes _ => .bytes

/-! ## Initial values -/

/-- An entry of the `drivers` section, with its id and its tag groups. -/
inductive DriverEntry where
  /-- A type of `_MODBUS_DRIVER_TYPES`. -/
  | modbus (id : String) (groups : List (Modbus.TagGroup ℚ))
  | other (id : String) (groups : List Core.TagGroup)

/-- `_SYSTEM_TAG_INITIAL_VALUES`, in the order of `SYSTEM_TAG_NAMES`. -/
def SYSTEM_TAG_INITIAL_VALUES : List (String × TagValue) :=
  [("status", .str ""), ("status_time", .str ""), ("tag_count", .int 0),
    ("reads_per_second", .float 0), ("reads_per_minute", .float 0), ("reads_per_hour", .float 0),
    ("error_count", .int 0), ("consecutive_failures", .int 0), ("uptime_seconds", .float 0),
    ("connectivity_state", .str "unknown")]

def systemTagId (instanceId name : String) : String := instanceId ++ "/_system/" ++ name

def initialValue (tag : Tag ℚ) : TagValue :=
  if tag.functionCode = .readCoils ∨ tag.functionCode = .readDiscreteInputs then .bool false
  else
    match tag.scaling with
    | none | some ⟨none, none⟩ => .int 0
    | some _ => .float 0

namespace DriverEntry

/-- `driver["id"]`. -/
def id : DriverEntry → String
  | modbus id _ | other id _ => id

def pipelineGroups : DriverEntry → List Core.TagGroup
  | modbus _ groups => groups.map fun group =>
      ⟨none, group.tags.map fun tag => ⟨tag.id, tag.scaling.map rawScaling, none⟩⟩
  | other _ groups => groups

def modbusTags : DriverEntry → List (String × Tag ℚ)
  | modbus id groups => groups.flatMap fun group => group.tags.map fun tag =>
      (qualifiedId id tag.id, tag)
  | other _ _ => []

/-- What the loops of `_infer_tag_initial_values` bind for an entry, in order. -/
def initialValues (driver : DriverEntry) : List (String × TagValue) :=
  SYSTEM_TAG_INITIAL_VALUES.map (fun p => (systemTagId driver.id p.1, p.2)) ++
    driver.modbusTags.map fun p => (p.1, initialValue p.2)

def polledBlocks : DriverEntry → List (String × Planner.ReadBlock ℚ)
  | modbus id groups => groups.flatMap fun group =>
      ((Planner.blocksOf groups group).takeWhile fun block => block.Sendable).map (Prod.mk id)
  | other _ _ => []

end DriverEntry

def inferTagInitialValues (drivers : List DriverEntry) : Dict String TagValue :=
  Dict.ofList (drivers.flatMap DriverEntry.initialValues)

def allTagIds (drivers : List DriverEntry) : List String :=
  (drivers.flatMap fun driver => driver.pipelineGroups.flatMap fun group =>
    group.tags.map fun tag => qualifiedId driver.id tag.id) ++
  drivers.flatMap fun driver => SYSTEM_TAG_INITIAL_VALUES.map fun p => systemTagId driver.id p.1

/-- `build_tag_pipeline_configs` of the section. -/
def tagConfigs (drivers : List DriverEntry) : Dict String TagPipelineConfig :=
  buildTagPipelineConfigs (drivers.map fun driver => (driver.id, driver.pipelineGroups))

/-! ## The server -/

structure Node where
  /-- The value it was created with; its type is that of the node. -/
  initial : TagValue
  value : TagValue
  quality : Quality
  sourceTimestampNs : Option Int
  deriving DecidableEq

inductive WriteValueError where
  | badTypeMismatch
  deriving DecidableEq, Repr

/-- `OpcUaTagServer`, started. -/
structure OpcUaTagServer where
  knownTagIds : List String
  nodes : Dict String Node

/-- A node as `add_variable` creates it. -/
def Node.new (value : TagValue) : Node := ⟨value, value, .good, none⟩

def Node.writeValue (node : Node) (tag : UnifiedTag) : Except WriteValueError Node :=
  if valueType node.initial = valueType tag.value then
    .ok { node with
      value := tag.value, quality := tag.quality, sourceTimestampNs := some tag.timestampNs }
  else .error .badTypeMismatch

namespace OpcUaTagServer

/-- `start` with the configuration of `_build_opcua_server`. -/
def start (drivers : List DriverEntry) : OpcUaTagServer where
  knownTagIds := allTagIds drivers ++ (inferTagInitialValues drivers).keys
  nodes := (inferTagInitialValues drivers).mapValues Node.new

def createNode (s : OpcUaTagServer) (tagId : String) (value : TagValue) : OpcUaTagServer :=
  { s with nodes := s.nodes.set tagId (.new value) }

/-- The write at the end of `update_tag`. -/
def writeNode (s : OpcUaTagServer) (node : Node) (tag : UnifiedTag) :
    Except WriteValueError OpcUaTagServer := do
  let written ← node.writeValue tag
  .ok { s with nodes := s.nodes.set tag.tagId written }

def updateTag (s : OpcUaTagServer) (tag : UnifiedTag) : Except WriteValueError OpcUaTagServer :=
  match s.nodes.get? tag.tagId with
  | some node => s.writeNode node tag
  | none =>
      if tag.tagId ∈ s.knownTagIds then
        (s.createNode tag.tagId tag.value).writeNode (.new tag.value) tag
      else .ok s

end OpcUaTagServer

/-! ## Reads -/

structure Read where
  block : Nat
  retryCount : Nat
  retryOnException : Bool
  memory : Memory
  update : Nat
  now : Int

section Runs

variable (P : Python ℚ) (drivers : List DriverEntry)

/-- The value that the consumer passes to `update_tag`. -/
def passed (r : Read) : Option UnifiedTag := do
  let (instanceId, block) ← (drivers.flatMap DriverEntry.polledBlocks)[r.block]?
  let updates ← (Batching.readOneBlock P ⟨instanceId, r.retryCount, r.retryOnException⟩ r.memory
    block).toOption
  let update ← updates[r.update]?
  some (normalize (toTagUpdate update r.now) ((tagConfigs drivers).get? update.tagId))

def consumer : Machine OpcUaTagServer Read where
  step s r :=
    match passed P drivers r with
    | none => none
    | some tag => (s.updateTag tag).toOption

/-- A value that is passed on has the type of the initial value that the node was created with at
startup. -/
def TypeKept (s : OpcUaTagServer) (r : Read) : Prop :=
  ∀ tag, passed P drivers r = some tag →
    ∃ node, s.nodes.get? tag.tagId = some node ∧
      (inferTagInitialValues drivers).get? tag.tagId = some node.initial ∧
      valueType tag.value = valueType node.initial

/-! ## The type of a tag's values -/

def readType (tag : Tag ℚ) : ValueType :=
  if isBitFunction tag.code then .bool
  else if tag.getDataType.isFloat then .float
  else .int

/-- The type after scaling: a number becomes a float. -/
def scaledType (config : Option TagPipelineConfig) : ValueType → ValueType
  | .int => if (config.bind TagPipelineConfig.scaling).isSome then .float else .int
  | t => t

def publishedType (instanceId : String) (tag : Tag ℚ) : ValueType :=
  scaledType ((tagConfigs drivers).get? (qualifiedId instanceId tag.id)) (readType tag)

def polledTags : List (String × Tag ℚ) :=
  (drivers.flatMap DriverEntry.polledBlocks).flatMap fun p =>
    p.2.tags.map fun planned => (p.1, planned.tag)

theorem valueType_scaleValue (value : TagValue) (config : Option TagPipelineConfig) :
    valueType (scaleValue value config) = scaledType config (valueType value) := by
  rw [scaleValue]
  cases value <;> cases h : config.bind TagPipelineConfig.scaling <;>
    simp only [valueType, scaledType, TagValue.number, h] <;> rfl

theorem valueType_unpack (t : DataType) (raw : Bytes) :
    valueType (toTagValue (unpack P t raw).toValue) = if t.isFloat then .float else .int := by
  cases t <;> rfl

theorem valueType_goodValue (planned : Planner.PlannedTag ℚ) {values : Response} {value : Value ℚ}
    (h : goodValue P planned.tag.code planned values = .ok value) :
    valueType (toTagValue value) = readType planned.tag := by
  rw [goodValue] at h
  rw [readType]
  split at h
  · next hbit =>
    rw [if_pos hbit]
    split at h <;> cases h
    rfl
  · next hbit =>
    rw [if_neg hbit]
    simp only at h
    split at h
    · next number hnumber =>
      rw [decode] at hnumber
      split at hnumber <;> cases hnumber
      cases h
      exact valueType_unpack P _ _
    · cases h

theorem valueType_badUpdate (cfg : ReadConfig) (planned : Planner.PlannedTag ℚ)
    (exceptionCode : Nat) :
    valueType (toTagValue (badUpdate P cfg planned planned.tag.code exceptionCode).value) =
      readType planned.tag := by
  simp only [badUpdate, readType]
  split
  · rfl
  · split <;> rfl

/-- An update of a tag: the id and the type of its value. -/
structure Typed (instanceId : String) (tag : Tag ℚ) (update : Update ℚ) : Prop where
  tagId : update.tagId = qualifiedId instanceId tag.id
  type : valueType (toTagValue update.value) = readType tag

variable {P drivers} {cfg : ReadConfig} {mem : Memory}

variable {update : Update ℚ}

theorem typed_alone {tag : Tag ℚ} (h : Batching.readOneBlock P cfg mem (alone tag) = .ok [update]) :
    Typed cfg.instanceId tag update := by
  rw [Batching.readOneBlock, readBlockWithRetries_eq] at h
  simp only [alone, List.head?_cons] at h
  split at h
  · next values _ =>
    obtain ⟨good, hgood, h⟩ := bind_eq_ok.1 h
    cases h
    obtain ⟨value, hvalue, hupdate⟩ := bind_eq_ok.1 hgood
    cases hupdate
    exact ⟨rfl, valueType_goodValue P ⟨tag, 0, Planner.spanOf tag⟩ hvalue⟩
  · next exceptionCode _ =>
    have hbad : Except.ok [badUpdate P cfg ⟨tag, 0, Planner.spanOf tag⟩ tag.code exceptionCode] =
        (.ok [update] : Except ReadError _) :=
      (if_neg (by simp [Planner.ReadBlock.isBatched])).symm.trans h
    cases hbad
    exact ⟨rfl, valueType_badUpdate P cfg ⟨tag, 0, Planner.spanOf tag⟩ exceptionCode⟩
  · cases h

theorem typed_of_asAlone {tag : Tag ℚ} (h : AsAlone P cfg mem tag update) :
    Typed cfg.instanceId tag update := by
  obtain ⟨u, hread, htagId, hvalue, -⟩ := h.alone
  have hu := typed_alone hread
  exact ⟨htagId.trans hu.tagId, hvalue ▸ hu.type⟩

variable {instanceId : String}

theorem readOneBlock_typed (P : Python ℚ) (cfg : ReadConfig) (mem : Memory)
    {block : Planner.ReadBlock ℚ}
    (h : (instanceId, block) ∈ drivers.flatMap DriverEntry.polledBlocks) :
    ∃ updates, Batching.readOneBlock P cfg mem block = .ok updates ∧
      List.Forall₂ (Typed cfg.instanceId) (block.tags.map Planner.PlannedTag.tag) updates := by
  obtain ⟨driver, -, h⟩ := List.mem_flatMap.1 h
  cases driver with
  | other _ _ => exact absurd h List.not_mem_nil
  | modbus id groups =>
    obtain ⟨group, -, h⟩ := List.mem_flatMap.1 h
    obtain ⟨_, hmem, ⟨⟩⟩ := List.mem_map.1 h
    obtain ⟨g, -, hplanned⟩ :=
      Planner.exists_groupBlocks ((List.takeWhile_sublist _).subset hmem)
    have hsound := (Planner.plans_planReadBlocks g.readableTags g.maxBlockSize
      g.getMaxBlockGap).sound block hplanned
    have hsendable := List.mem_takeWhile_imp hmem
    rw [decide_eq_true_iff] at hsendable
    have hok := encodeReadRequest_isOk_iff.1 hsendable
    obtain ⟨updates, hread, hall⟩ := readOneBlock_asAlone hsound hok fun p hp =>
      inAddressSpace_of_readRequestOk hsound hok hp
    exact ⟨updates, hread, hall.imp fun _ _ => typed_of_asAlone⟩

/-! ## Reads and polled tags -/

/-- What is published for a tag: the id and the type of its value. -/
structure Published (drivers : List DriverEntry) (p : String × Tag ℚ) (tag : UnifiedTag) :
    Prop where
  tagId : tag.tagId = qualifiedId p.1 p.2.id
  type : valueType tag.value = publishedType drivers p.1 p.2

theorem published_normalize {tag : Tag ℚ} (h : Typed instanceId tag update) (now : Int) :
    Published drivers (instanceId, tag)
      (normalize (toTagUpdate update now) ((tagConfigs drivers).get? update.tagId)) where
  tagId := h.tagId
  type := by
    show valueType (scaleValue (toTagValue update.value) _) = _
    rw [valueType_scaleValue, h.type, h.tagId, publishedType]

variable {r : Read} {tag : UnifiedTag}

theorem exists_polledTag (h : passed P drivers r = some tag) :
    ∃ p ∈ polledTags drivers, Published drivers p tag := by
  obtain ⟨⟨instanceId, block⟩, hblock, h⟩ := Option.bind_eq_some_iff.1 h
  obtain ⟨updates, hread, h⟩ := Option.bind_eq_some_iff.1 h
  obtain ⟨update, hupdate, h⟩ := Option.bind_eq_some_iff.1 h
  cases h
  have hmem := List.mem_of_getElem? hblock
  obtain ⟨_, hread', hall⟩ := readOneBlock_typed P
    ⟨instanceId, r.retryCount, r.retryOnException⟩ r.memory hmem
  rw [hread'] at hread
  cases hread
  obtain ⟨hlt, rfl⟩ := List.getElem?_eq_some_iff.1 hupdate
  have hlt' := hall.length_eq ▸ hlt
  refine ⟨(instanceId, (block.tags.map Planner.PlannedTag.tag).get ⟨r.update, hlt'⟩), ?_,
    published_normalize (hall.get hlt' hlt) r.now⟩
  obtain ⟨planned, hplanned, heq⟩ := List.mem_map.1
    (List.get_mem (block.tags.map Planner.PlannedTag.tag) ⟨r.update, hlt'⟩)
  exact List.mem_flatMap.2 ⟨_, hmem, List.mem_map.2 ⟨planned, hplanned, by rw [heq]⟩⟩

theorem exists_passed (P : Python ℚ) (mem : Memory) {p : String × Tag ℚ}
    (hp : p ∈ polledTags drivers) :
    ∃ r tag, passed P drivers r = some tag ∧ Published drivers p tag := by
  obtain ⟨⟨instanceId, block⟩, hblock, hp⟩ := List.mem_flatMap.1 hp
  obtain ⟨planned, hplanned, rfl⟩ := List.mem_map.1 hp
  obtain ⟨updates, hread, hall⟩ := readOneBlock_typed P ⟨instanceId, 0, false⟩ mem hblock
  obtain ⟨i, hi⟩ := List.mem_iff_getElem?.1 hblock
  obtain ⟨j, hj, htag⟩ :=
    List.getElem_of_mem (List.mem_map_of_mem (f := Planner.PlannedTag.tag) hplanned)
  have hj' := hall.length_eq ▸ hj
  have htyped : Typed instanceId planned.tag updates[j] := htag ▸ hall.get hj hj'
  refine ⟨⟨i, 0, false, mem, j, 0⟩, _, ?_, published_normalize htyped 0⟩
  simp [passed, hi, hread, Except.toOption, List.getElem?_eq_getElem hj']

/-! ## Runs -/

def Prebuilt (drivers : List DriverEntry) (s : OpcUaTagServer) : Prop :=
  ∀ tagId value, (inferTagInitialValues drivers).get? tagId = some value →
    ∃ node, s.nodes.get? tagId = some node ∧ node.initial = value

theorem prebuilt_start (drivers : List DriverEntry) :
    Prebuilt drivers (OpcUaTagServer.start drivers) := by
  intro tagId value h
  refine ⟨.new value, ?_, rfl⟩
  show ((inferTagInitialValues drivers).mapValues Node.new).get? tagId = _
  rw [Dict.get?_mapValues, h, Option.map_some]

variable {node : Node}

theorem initial_of_writeValue {written : Node}
    (h : node.writeValue tag = .ok written) : written.initial = node.initial := by
  rw [Node.writeValue] at h
  split at h <;> cases h
  rfl

variable {s s' : OpcUaTagServer}

theorem prebuilt_writeNode
    (hs : Prebuilt drivers s)
    (hnode : ∀ value, (inferTagInitialValues drivers).get? tag.tagId = some value →
      node.initial = value)
    (h : s.writeNode node tag = .ok s') : Prebuilt drivers s' := by
  obtain ⟨written, hwritten, h⟩ := bind_eq_ok.1 h
  cases h
  intro tagId value hvalue
  by_cases hid : tagId = tag.tagId
  · subst hid
    exact ⟨written, Dict.get?_set_self .., (initial_of_writeValue hwritten).trans (hnode _ hvalue)⟩
  · obtain ⟨old, hold, hinitial⟩ := hs tagId value hvalue
    exact ⟨old, (Dict.get?_set_of_ne _ _ hid).trans hold, hinitial⟩

theorem prebuilt_updateTag (hs : Prebuilt drivers s)
    (h : s.updateTag tag = .ok s') : Prebuilt drivers s' := by
  rw [OpcUaTagServer.updateTag] at h
  split at h
  · next node hget =>
    refine prebuilt_writeNode hs (fun value hvalue => ?_) h
    obtain ⟨node', hget', hinitial⟩ := hs _ _ hvalue
    rw [hget] at hget'
    cases hget'
    exact hinitial
  · next hget =>
    -- a node that is created now was not there at startup
    have hnew : ∀ value, (inferTagInitialValues drivers).get? tag.tagId ≠ some value := by
      intro value hvalue
      obtain ⟨node, hnode, -⟩ := hs _ _ hvalue
      rw [hget] at hnode
      cases hnode
    split at h
    · refine prebuilt_writeNode ?_ (fun value hvalue => absurd hvalue (hnew value)) h
      intro tagId value hvalue
      have hne : tagId ≠ tag.tagId := fun heq => hnew value (heq ▸ hvalue)
      obtain ⟨node, hnode, hinitial⟩ := hs _ _ hvalue
      exact ⟨node, (Dict.get?_set_of_ne _ _ hne).trans hnode, hinitial⟩
    · cases h
      exact hs

theorem prebuilt_step (hs : Prebuilt drivers s)
    (h : (consumer P drivers).step s r = some s') : Prebuilt drivers s' := by
  simp only [consumer] at h
  split at h
  · cases h
  · next tag _ =>
    cases hupdate : s.updateTag tag with
    | error e =>
      rw [hupdate] at h
      cases h
    | ok t =>
      rw [hupdate] at h
      cases h
      exact prebuilt_updateTag hs hupdate

def floatRegister : List DriverEntry :=
  [.modbus "plc" [Planner.groupOfOne (Planner.register 0 .float32)]]

end Runs

end XEdge.Northbound
