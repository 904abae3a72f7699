import XEdge.Config.Engine

/-!
# Driver entries (`xedge/core/driver_config.py`)

An entry of the `drivers` section has passed the core schema: it is a mapping with a text
as `id` and as `type`, and a truth value as `enabled` if it has one.  Nothing is known of its
`config` and `tag_groups` before the schema of its driver type has been consulted.

The values of a document are a type `V` here, *up to Python's `==`*: entries are only ever
compared, looked up in and handed on.  What the code does with a value is collected in
`DriverTypes`.
-/

namespace XEdge.Core

open Lib Config

/-- What is known of the values of a document and of the schemas of the driver types. -/
structure DriverTypes (V : Type) where
  /-- `{}` -/
  emptyDict : V
  /-- `[]` -/
  emptyList : V
  /-- `v.get(key)`, where a missing key and `None` are the same. -/
  get : V → String → Except Fault (Option V)
  hashable : V → Bool
  /-- `1`, the unit id of a serial driver whose configuration names none. -/
  defaultUnitId : V
  /-- The complaints of the type's schema about `config` and `tag_groups`, if it has one. -/
  schemaErrors : String → V → V → Option (List String)
  /-- `driver_type_schema_path`, as text. -/
  schemaPath : String → String
  /-- `repr` of a text. -/
  pyRepr : String → String
  resolve : V → V

/-- An entry of the `drivers` section. -/
structure Entry (V : Type) where
  id : String
  type : String
  enabled : Option Bool
  config : Option V
  tagGroups : Option V
  extra : V
  deriving DecidableEq

structure DriverConfig (V : Type) where
  instanceId : String
  driverType : String
  config : V
  tagGroups : V
  deriving DecidableEq

variable {V : Type} (D : DriverTypes V)

namespace Entry

/-- `entry.get("enabled", True)`. -/
def isEnabled (e : Entry V) : Bool := e.enabled.getD true

def resolve (e : Entry V) : Entry V :=
  { e with
    config := e.config.map D.resolve
    tagGroups := e.tagGroups.map D.resolve
    extra := D.resolve e.extra }

def driverConfig (e : Entry V) : DriverConfig V :=
  ⟨e.id, e.type, e.config.getD D.emptyDict, e.tagGroups.getD D.emptyList⟩

def Valid (e : Entry V) : Prop :=
  D.schemaErrors e.type (e.config.getD D.emptyDict) (e.tagGroups.getD D.emptyList) = some []

instance (e : Entry V) : Decidable (e.Valid D) :=
  inferInstanceAs (Decidable (_ = some []))

end Entry

def buildDriverConfig (e : Entry V) : Except Exn (DriverConfig V) :=
  match D.schemaErrors e.type (e.config.getD D.emptyDict) (e.tagGroups.getD D.emptyList) with
  | none =>
      .error (.configValidation ("No configuration schema found for driver type " ++
        D.pyRepr e.type ++ " (expected at " ++ D.schemaPath e.type ++
        "); is the driver type registered?"))
  | some [] => .ok (e.driverConfig D)
  | some messages => .error (.configValidation (validationMessage messages))

variable {D} in
theorem buildDriverConfig_eq_ok {e : Entry V} {cfg : DriverConfig V} :
    buildDriverConfig D e = .ok cfg ↔ e.Valid D ∧ cfg = e.driverConfig D := by
  rw [buildDriverConfig, Entry.Valid]
  split
  · next h => simp [h]
  · next h => simp [h, eq_comm]
  · next messages hne h =>
    constructor
    · intro hok
      cases hok
    · rintro ⟨hvalid, -⟩
      rw [h] at hvalid
      exact (hne (Option.some.inj hvalid)).elim

/-! ## Slave ids -/

/-- The port and unit id of an enabled serial entry, where both are given.  A `config`
that is no mapping has no `get`, and a port or unit id that is a list cannot be looked up. -/
def slaveKey (e : Entry V) : Except Fault (Option (V × V)) :=
  if e.type = "modbus_rtu_serial" ∧ e.isEnabled = true then do
    let port ← D.get (e.config.getD D.emptyDict) "port"
    let unitId ← D.get (e.config.getD D.emptyDict) "unit_id"
    match port, unitId with
    | some port, some unitId =>
        if D.hashable port && D.hashable unitId then .ok (some (port, unitId)) else .error .type
    | _, _ => .ok none
  else .ok none

variable [DecidableEq V]

/-- The loop of `find_duplicate_serial_slave_ids`. -/
def groupBySlave : List (Entry V) → Dict (V × V) (List String) →
    Except Fault (Dict (V × V) (List String))
  | [], bySlave => .ok bySlave
  | e :: rest, bySlave =>
      match slaveKey D e with
      | .error f => .error f
      | .ok none => groupBySlave rest bySlave
      | .ok (some key) =>
          groupBySlave rest (bySlave.set key ((bySlave.get? key).getD [] ++ [e.id]))

/-- `find_duplicate_serial_slave_ids`, as the items of its result. -/
def findDuplicateSerialSlaveIds (drivers : List (Entry V)) :
    Except Fault (List ((V × V) × List String)) := do
  let bySlave ← groupBySlave D drivers .empty
  .ok (bySlave.entries.filter fun p => 1 < p.2.length)

def conflictingSerialInstanceIds (drivers : List (Entry V)) : Except Fault (List String) := do
  let duplicates ← findDuplicateSerialSlaveIds D drivers
  .ok (duplicates.flatMap Prod.snd)

def claims (key : V × V) (e : Entry V) : Bool :=
  match slaveKey D e with
  | .ok (some key') => key' = key
  | _ => false

def claimants (drivers : List (Entry V)) (key : V × V) : List String :=
  (drivers.filter (claims D key)).map Entry.id

variable {D}

variable {drivers : List (Entry V)} {acc : Dict (V × V) (List String)}

theorem groupBySlave_get? {bySlave : Dict (V × V) (List String)}
    (h : groupBySlave D drivers acc = .ok bySlave) (key : V × V) :
    (bySlave.get? key).getD [] = (acc.get? key).getD [] ++ claimants D drivers key := by
  induction drivers generalizing acc with
  | nil =>
    cases h
    simp [claimants]
  | cons e rest ih =>
    rw [groupBySlave] at h
    cases hkey : slaveKey D e with
    | error f => simp [hkey] at h
    | ok claimed =>
      cases claimed with
      | none =>
        simp only [hkey] at h
        rw [ih h]
        simp [claimants, claims, hkey]
      | some key' =>
        simp only [hkey] at h
        rw [ih h, Dict.get?_set]
        by_cases hk : key = key'
        · subst hk
          simp [claimants, claims, hkey]
        · simp [claimants, claims, hkey, hk, Ne.symm hk]

/-- **Who conflicts**: the claimants of a slave id that is claimed more than once. -/
theorem mem_conflicting_iff {conflicting : List String}
    (h : conflictingSerialInstanceIds D drivers = .ok conflicting) {id : String} :
    id ∈ conflicting ↔
      ∃ key, id ∈ claimants D drivers key ∧ 1 < (claimants D drivers key).length := by
  obtain ⟨duplicates, hdup, hids⟩ := bind_eq_ok.1 h
  obtain ⟨bySlave, hgroup, hfilter⟩ := bind_eq_ok.1 hdup
  cases hids
  cases hfilter
  have hget : ∀ key, (bySlave.get? key).getD [] = claimants D drivers key := fun key => by
    simpa using groupBySlave_get? hgroup key
  rw [List.mem_flatMap]
  constructor
  · rintro ⟨⟨key, ids⟩, hmem, hid⟩
    obtain ⟨hentry, hlen⟩ := List.mem_filter.1 hmem
    have hids : ids = claimants D drivers key := by
      rw [← hget key, (bySlave.get?_eq_some_iff).2 hentry]
      rfl
    exact ⟨key, hids ▸ hid, hids ▸ of_decide_eq_true hlen⟩
  · rintro ⟨key, hid, hlen⟩
    have hentry : bySlave.get? key = some (claimants D drivers key) := by
      cases hk : bySlave.get? key with
      | none =>
        rw [← hget key, hk] at hid
        cases hid
      | some ids => rw [← hget key, hk, Option.getD_some]
    exact ⟨(key, _), List.mem_filter.2 ⟨(bySlave.get?_eq_some_iff).1 hentry, decide_eq_true hlen⟩,
      hid⟩

def Comparable (D : DriverTypes V) (drivers : List (Entry V)) : Prop :=
  ∀ e ∈ drivers, (slaveKey D e).isOk = true

theorem isOk_groupBySlave :
    (groupBySlave D drivers acc).isOk = true ↔ Comparable D drivers := by
  induction drivers generalizing acc with
  | nil => simp [groupBySlave, Comparable, Except.isOk, Except.toBool]
  | cons e rest ih =>
    rw [groupBySlave, Comparable, List.forall_mem_cons]
    cases hkey : slaveKey D e with
    | error f => simp [Except.isOk, Except.toBool]
    | ok claimed =>
      cases claimed with
      | none | some => exact ih.trans (by simp [Comparable, Except.isOk, Except.toBool])

theorem isOk_conflicting_iff :
    (conflictingSerialInstanceIds D drivers).isOk = true ↔ Comparable D drivers := by
  rw [conflictingSerialInstanceIds, isOk_bind_ok, findDuplicateSerialSlaveIds, isOk_bind_ok,
    isOk_groupBySlave]

end XEdge.Core
