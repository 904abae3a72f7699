import XEdge.Lib.Dict

/-!
# Tags and their engineering-unit scaling (`xedge/core/pipeline.py`)

The values that flow through the gateway.  Timestamps are nanoseconds since the
epoch, the resolution the cold store keeps; floating-point numbers are rationals,
so arithmetic is exact.
-/

namespace XEdge.Core

open Lib

inductive TagValue where
  | bool (b : Bool)
  | int (i : Int)
  | float (x : ℚ)
  | str (s : String)
  | bytes (b : List UInt8)
  deriving DecidableEq

inductive Quality where
  | good
  | uncertain
  | bad
  deriving DecidableEq

/-- `UnifiedTag`, without its free-form `metadata`. -/
structure UnifiedTag where
  tagId : String
  timestampNs : Int
  value : TagValue
  dataType : String
  quality : Quality
  sourceDriver : String
  sourceAddress : String
  engineeringUnit : Option String
  isAlarm : Bool
  deriving DecidableEq

/-! ## Normalisation -/

/-- `TagUpdate`, without its free-form `metadata`. -/
structure TagUpdate where
  tagId : String
  value : TagValue
  quality : Quality
  timestampNs : Int
  sourceTimestampNs : Option Int
  sourceDriver : String
  sourceAddress : String

structure ScalingConfig where
  scale : ℚ
  offset : ℚ
  deriving DecidableEq

inductive DeadbandKind where
  | absolute
  | percentage
  deriving DecidableEq

structure DeadbandConfig where
  kind : DeadbandKind
  value : ℚ
  deriving DecidableEq

structure TagPipelineConfig where
  scaling : Option ScalingConfig
  deadband : Option DeadbandConfig
  engineeringUnit : Option String
  deriving DecidableEq

namespace TagValue

/-- `_DATA_TYPE_NAMES`. -/
def dataType : TagValue → String
  | bool _ => "BOOL"
  | int _ => "INT64"
  | float _ => "FLOAT64"
  | str _ => "STRING"
  | bytes _ => "BYTES"

/-- The number of a value that `_is_scalable`. -/
def number : TagValue → Option ℚ
  | int i => some i
  | float x => some x
  | _ => none

end TagValue

/-- The value that `normalize` publishes. -/
def scaleValue (value : TagValue) (config : Option TagPipelineConfig) : TagValue :=
  match config.bind TagPipelineConfig.scaling, value.number with
  | some scaling, some x => .float (x * scaling.scale + scaling.offset)
  | _, _ => value

def normalize (update : TagUpdate) (config : Option TagPipelineConfig) : UnifiedTag :=
  let value := scaleValue update.value config
  { tagId := update.tagId
    timestampNs := update.sourceTimestampNs.getD update.timestampNs
    value
    dataType := value.dataType
    quality := update.quality
    sourceDriver := update.sourceDriver
    sourceAddress := update.sourceAddress
    engineeringUnit := config.bind TagPipelineConfig.engineeringUnit
    isAlarm := false }

/-- The scale and offset that `normalize` applies; none configured is 1 and 0. -/
def appliedScaling (config : Option TagPipelineConfig) : ℚ × ℚ :=
  match config.bind TagPipelineConfig.scaling with
  | some scaling => (scaling.scale, scaling.offset)
  | none => (1, 0)

theorem number_normalize {update : TagUpdate} {x : ℚ} (h : update.value.number = some x)
    (config : Option TagPipelineConfig) :
    (normalize update config).value.number =
      some (x * (appliedScaling config).1 + (appliedScaling config).2) := by
  show (scaleValue update.value config).number = _
  rw [scaleValue, appliedScaling, h]
  cases config.bind TagPipelineConfig.scaling with
  | none => simp [h]
  | some scaling => rfl

/-! ## The lookup -/

/-- `scaling` of a tag, as configured. -/
structure RawScaling where
  scale : Option ℚ
  offset : Option ℚ
  deriving DecidableEq

/-- A tag of a tag group: what the pipeline reads of it. -/
structure TagDef where
  id : String
  scaling : Option RawScaling
  engineeringUnit : Option String
  deriving DecidableEq

/-- A tag group: what the pipeline reads of it. -/
structure TagGroup where
  deadband : Option DeadbandConfig
  tags : List TagDef
  deriving DecidableEq

def RawScaling.values (raw : Option RawScaling) : ℚ × ℚ :=
  match raw with
  | none => (1, 0)
  | some r => (r.scale.getD 1, r.offset.getD 0)

/-- `scaling_raw` as a `ScalingConfig`; an empty mapping counts as none. -/
def RawScaling.toConfig (raw : Option RawScaling) : Option ScalingConfig :=
  match raw with
  | none | some ⟨none, none⟩ => none
  | some r => some ⟨r.scale.getD 1, r.offset.getD 0⟩

/-- `f"{instance_id}/{tag['id']}"`. -/
def qualifiedId (instanceId tagId : String) : String := instanceId ++ "/" ++ tagId

/-- What the loops of `build_tag_pipeline_configs` bind for one driver, in order. -/
def driverTagConfigs (instanceId : String) (groups : List TagGroup) :
    List (String × TagPipelineConfig) :=
  groups.flatMap fun group => group.tags.map fun tag =>
    (qualifiedId instanceId tag.id,
      ⟨RawScaling.toConfig tag.scaling, group.deadband, tag.engineeringUnit⟩)

/-- `build_tag_pipeline_configs`, over the drivers' ids and tag groups. -/
def buildTagPipelineConfigs (drivers : List (String × List TagGroup)) :
    Dict String TagPipelineConfig :=
  Dict.ofList (drivers.flatMap fun d => driverTagConfigs d.1 d.2)

theorem appliedScaling_toConfig (raw : Option RawScaling) (deadband : Option DeadbandConfig)
    (engineeringUnit : Option String) :
    appliedScaling (some ⟨RawScaling.toConfig raw, deadband, engineeringUnit⟩) =
      RawScaling.values raw := by
  match raw with
  | none => rfl
  | some ⟨none, none⟩ => rfl
  | some ⟨some _, _⟩ => rfl
  | some ⟨none, some _⟩ => rfl

/-- The pipeline's scaling of a tag is its own, if no tag of the same qualified id has
another. -/
theorem scaling_own {drivers : List (String × List TagGroup)} {i : String}
    {groups : List TagGroup} (hdriver : (i, groups) ∈ drivers) {group : TagGroup}
    (hgroup : group ∈ groups) {tag : TagDef} (htag : tag ∈ group.tags)
    (hsame : ∀ q ∈ drivers.flatMap fun d => driverTagConfigs d.1 d.2,
      q.1 = qualifiedId i tag.id → q.2.scaling = RawScaling.toConfig tag.scaling) :
    ∃ config, (buildTagPipelineConfigs drivers).get? (qualifiedId i tag.id) = some config ∧
      config.scaling = RawScaling.toConfig tag.scaling := by
  rw [buildTagPipelineConfigs, Dict.get?_ofList]
  cases hfound : lookup (qualifiedId i tag.id)
      (drivers.flatMap fun d => driverTagConfigs d.1 d.2).reverse with
  | none =>
    refine absurd ?_ (lookup_eq_none_iff.1 hfound)
    rw [List.map_reverse, List.mem_reverse]
    refine List.mem_map.2 ⟨_, List.mem_flatMap.2 ⟨(i, groups), hdriver,
      List.mem_flatMap.2 ⟨group, hgroup, List.mem_map.2 ⟨tag, htag, rfl⟩⟩⟩, rfl⟩
  | some config =>
    exact ⟨config, rfl, hsame _ (List.mem_reverse.1 (mem_of_lookup hfound)) rfl⟩

/-! ## Deadband -/

/-- The number that a value is in a comparison with `==`: a Boolean is 0 or 1. -/
def TagValue.comparable : TagValue → Option ℚ
  | .bool b => some (if b then 1 else 0)
  | v => v.number

/-- Python's `==` on values. -/
def TagValue.pyEq (a b : TagValue) : Bool :=
  match a.comparable, b.comparable with
  | some x, some y => x = y
  | none, none => a = b
  | _, _ => false

/-- `DeadbandFilter`: what was last published of each tag. -/
structure DeadbandFilter where
  lastPublished : Dict String (TagValue × Quality × Bool)
  deriving DecidableEq

namespace DeadbandFilter

def new : DeadbandFilter := ⟨.empty⟩

def exceeds (deadband : DeadbandConfig) (value prior : ℚ) : Bool :=
  let diff := |value - prior|
  match deadband.kind with
  | .absolute => deadband.value ≤ diff
  | .percentage => if |prior| = 0 then diff ≠ 0 else deadband.value ≤ diff / |prior| * 100

/-- `_should_publish`. -/
def significant (tag : UnifiedTag) (prior : Option (TagValue × Quality × Bool))
    (deadband : Option DeadbandConfig) : Bool :=
  match prior with
  | none => true
  | some (priorValue, priorQuality, priorIsAlarm) =>
      if priorQuality ≠ tag.quality ∨ priorIsAlarm ≠ tag.isAlarm then true
      else
        match deadband, tag.value.number, priorValue.number with
        | some d, some value, some prior => exceeds d value prior
        | _, _, _ => !tag.value.pyEq priorValue

def shouldPublish (f : DeadbandFilter) (tag : UnifiedTag) (deadband : Option DeadbandConfig) :
    Bool × DeadbandFilter :=
  if significant tag (f.lastPublished.get? tag.tagId) deadband then
    (true, ⟨f.lastPublished.set tag.tagId (tag.value, tag.quality, tag.isAlarm)⟩)
  else (false, f)

end DeadbandFilter

theorem qualifiedId_injective (instanceId : String) :
    Function.Injective (qualifiedId instanceId) := by
  intro t t' h
  have hlist := congrArg String.toList h
  simp only [qualifiedId, String.toList_append, List.append_cancel_left_eq] at hlist
  exact String.toList_inj.1 hlist

end XEdge.Core
