import XEdge.Fleet.PendingConfig
import XEdge.Lib.Dict
import XEdge.Lib.Table

/-!
# Tenants (`xedge/fleet/registry.py`)

All tenants share the tables of the registry.  Devices and join tokens are looked up by primary
keys that know nothing of tenants, and what belongs to another tenant is thrown away afterwards;
lists are selected by tenant.
-/

namespace XEdge.Fleet

open Lib

/-! ## The tables -/

/-- `Device`. -/
structure DeviceRow (C : Type*) where
  deviceId : String
  tenantId : Nat
  displayName : Option String
  tokenHash : String
  registeredAt : Int
  agentVersion : Option String
  heartbeatIntervalSeconds : ℚ
  lastSeenAt : Option Int
  driverCount : Option Int
  uptimeSeconds : Option ℚ
  lastConfigApplyJson : Option C
  pendingConfigJson : Option C
  pendingConfigVersion : Nat
  certSerialNumber : Option String
  certNotAfter : Option Int
  serialNumber : Option String
  make : Option String
  protocol : Option String
  hardwareFirmwareVersion : Option String
  deriving DecidableEq

/-- `DeviceConfigHistory`. -/
structure ConfigHistoryRow (C : Type*) where
  id : Nat
  tenantId : Nat
  deviceId : String
  configVersion : Nat
  configJson : C
  pushedAt : Int
  pushedBy : String
  appliedAt : Option Int
  applySuccess : Option Bool
  applyError : Option String
  deriving DecidableEq

/-- `DeviceCertificateHistory`. -/
structure CertificateHistoryRow where
  id : Nat
  tenantId : Nat
  deviceId : String
  serialNumber : String
  notBefore : Int
  notAfter : Int
  issuedAt : Int
  reason : String
  deriving DecidableEq

/-- `JoinToken`. -/
structure JoinTokenRow where
  tokenHash : String
  tenantId : Nat
  deviceId : String
  createdAt : Int
  expiresAt : Int
  consumedAt : Option Int
  revokedAt : Option Int
  revokedBy : Option String
  deriving DecidableEq

structure TenantRows (C : Type*) where
  devices : List (DeviceRow C)
  configHistory : List (ConfigHistoryRow C)
  certificateHistory : List CertificateHistoryRow
  joinTokens : List JoinTokenRow
  deriving DecidableEq

structure Tables (C : Type*) extends TenantRows C where
  nextConfigHistoryId : Nat
  deriving DecidableEq

/-! ## What the calls return -/

structure DeviceRecord (C : Type*) where
  deviceId : String
  displayName : Option String
  registeredAt : Int
  agentVersion : Option String
  heartbeatIntervalSeconds : ℚ
  lastSeenAt : Option Int
  driverCount : Option Int
  uptimeSeconds : Option ℚ
  lastConfigApply : Option C
  hasPendingConfig : Bool
  pendingConfigVersion : Nat
  certSerialNumber : Option String
  certNotAfter : Option Int
  serialNumber : Option String
  make : Option String
  protocol : Option String
  hardwareFirmwareVersion : Option String
  deriving DecidableEq

def rowToRecord {C : Type*} (d : DeviceRow C) : DeviceRecord C where
  deviceId := d.deviceId
  displayName := d.displayName
  registeredAt := d.registeredAt
  agentVersion := d.agentVersion
  heartbeatIntervalSeconds := d.heartbeatIntervalSeconds
  lastSeenAt := d.lastSeenAt
  driverCount := d.driverCount
  uptimeSeconds := d.uptimeSeconds
  lastConfigApply := d.lastConfigApplyJson
  hasPendingConfig := d.pendingConfigJson.isSome
  pendingConfigVersion := d.pendingConfigVersion
  certSerialNumber := d.certSerialNumber
  certNotAfter := d.certNotAfter
  serialNumber := d.serialNumber
  make := d.make
  protocol := d.protocol
  hardwareFirmwareVersion := d.hardwareFirmwareVersion

structure ConfigHistoryRecord (C : Type*) where
  id : Nat
  configVersion : Nat
  config : C
  pushedAt : Int
  pushedBy : String
  appliedAt : Option Int
  applySuccess : Option Bool
  applyError : Option String
  deriving DecidableEq

structure CertificateHistoryRecord where
  id : Nat
  serialNumber : String
  notBefore : Int
  notAfter : Int
  issuedAt : Int
  reason : String
  deriving DecidableEq

/-- `JoinTokenRecord`; `id` is the hash of the token. -/
structure JoinTokenRecord where
  id : String
  deviceId : String
  createdAt : Int
  expiresAt : Int
  consumedAt : Option Int
  revokedAt : Option Int
  revokedBy : Option String
  deriving DecidableEq

/-- The calls of an operator; those that write a time, with the time. -/
inductive OperatorCall (C : Type*) where
  | get (deviceId : String)
  | listDevices
  | updateMetadata (deviceId : String) (fields : Dict String (Option String))
  | queueConfig (deviceId : String) (config : C) (pushedBy : String) (now : Int)
  | listConfigHistory (deviceId : String)
  | listCertificateHistory (deviceId : String)
  | listJoinTokens
  | revokeJoinToken (tokenId : String) (revokedBy : String) (now : Int)

inductive OperatorResult (C : Type*) where
  | device (record : Option (DeviceRecord C))
  | devices (records : List (DeviceRecord C))
  | updated (found : Bool)
  | version (v : Nat)
  | configHistory (records : List (ConfigHistoryRecord C))
  | certificateHistory (records : List CertificateHistoryRecord)
  | joinTokens (records : List JoinTokenRecord)
  | revoked (found : Bool)
  deriving DecidableEq

inductive OperatorError where
  /-- `ValueError`: not metadata fields. -/
  | notMetadata (fields : List String)
  /-- `KeyError`: no such device. -/
  | noSuchDevice (deviceId : String)
  /-- The unique index on `(device_id, config_version)`. -/
  | integrity
  deriving DecidableEq

/-! ## The calls -/

def METADATA_COLUMNS : List String :=
  ["display_name", "serial_number", "make", "protocol", "hardware_firmware_version"]

/-- `setattr(device, field, value)`, for a metadata column. -/
def setMetadata {C : Type*} (d : DeviceRow C) (field : String) (value : Option String) :
    DeviceRow C :=
  if field = "display_name" then { d with displayName := value }
  else if field = "serial_number" then { d with serialNumber := value }
  else if field = "make" then { d with make := value }
  else if field = "protocol" then { d with protocol := value }
  else if field = "hardware_firmware_version" then { d with hardwareFirmwareVersion := value }
  else d

/-- The loop of `update_metadata`. -/
def setAllMetadata {C : Type*} (fields : List (String × Option String)) (d : DeviceRow C) :
    DeviceRow C := fields.foldl (fun d field => setMetadata d field.1 field.2) d

namespace Tables

variable {C : Type*}

def rowsOf (t : Tables C) (tenant : Nat) : TenantRows C where
  devices := Table.ownedBy DeviceRow.tenantId tenant t.devices
  configHistory := Table.ownedBy ConfigHistoryRow.tenantId tenant t.configHistory
  certificateHistory := Table.ownedBy CertificateHistoryRow.tenantId tenant t.certificateHistory
  joinTokens := Table.ownedBy JoinTokenRow.tenantId tenant t.joinTokens

/-- `session.get(Device, device_id)`, and nothing if the device is another tenant's. -/
def ownDevice (t : Tables C) (tenant : Nat) (deviceId : String) : Option (DeviceRow C) :=
  (Table.find DeviceRow.deviceId deviceId t.devices).filter fun d => d.tenantId = tenant

/-- `session.get(JoinToken, token_id)`, and nothing if the token is another tenant's. -/
def ownToken (t : Tables C) (tenant : Nat) (tokenId : String) : Option JoinTokenRow :=
  (Table.find JoinTokenRow.tokenHash tokenId t.joinTokens).filter fun j => j.tenantId = tenant

def hasVersion (t : Tables C) (deviceId : String) (version : Nat) : Bool :=
  t.configHistory.any fun h => h.deviceId = deviceId ∧ h.configVersion = version

def updateMetadata (t : Tables C) (tenant : Nat) (deviceId : String)
    (fields : Dict String (Option String)) :
    Except OperatorError (OperatorResult C) × Tables C :=
  let unknown := fields.keys.filter fun field => field ∉ METADATA_COLUMNS
  if unknown ≠ [] then (.error (.notMetadata (unknown.mergeSort fun a b => a ≤ b)), t)
  else
    match t.ownDevice tenant deviceId with
    | none => (.ok (.updated false), t)
    | some _ =>
        (.ok (.updated true),
          { t with
            devices := Table.update DeviceRow.deviceId deviceId (setAllMetadata fields.entries)
              t.devices })

def revokeJoinToken (t : Tables C) (tenant : Nat) (tokenId revokedBy : String) (now : Int) :
    Except OperatorError (OperatorResult C) × Tables C :=
  match t.ownToken tenant tokenId with
  | none => (.ok (.revoked false), t)
  | some _ =>
      (.ok (.revoked true),
        { t with
          joinTokens := Table.update JoinTokenRow.tokenHash tokenId
            (fun j => { j with revokedAt := some now, revokedBy := some revokedBy }) t.joinTokens })

section Calls

-- the collation of the database, and Python's `==` on configurations
variable (collate : String → String → Bool) (pyEq : C → C → Bool)

def pushedDevice (config : C) (d : DeviceRow C) : DeviceRow C :=
  { d with
    -- a column that is set to an equal value is not in the `UPDATE`
    pendingConfigJson :=
      if unchanged pyEq d.pendingConfigJson config then d.pendingConfigJson else some config
    pendingConfigVersion := d.pendingConfigVersion + 1 }

/-- `queue_config`.  A number that was drawn from the sequence is not given back when the
`INSERT` is refused. -/
def queueConfig (t : Tables C) (tenant : Nat) (deviceId : String) (config : C) (pushedBy : String)
    (now : Int) : Except OperatorError (OperatorResult C) × Tables C :=
  match t.ownDevice tenant deviceId with
  | none => (.error (.noSuchDevice deviceId), t)
  | some d =>
      let version := d.pendingConfigVersion + 1
      let drawn := { t with nextConfigHistoryId := t.nextConfigHistoryId + 1 }
      if t.hasVersion deviceId version then (.error .integrity, drawn)
      else
        (.ok (.version version),
          { drawn with
            devices := Table.update DeviceRow.deviceId deviceId (pushedDevice pyEq config) t.devices
            configHistory := t.configHistory ++
              [⟨t.nextConfigHistoryId, tenant, deviceId, version, config, now, pushedBy, none, none,
                none⟩] })

def listDevices (t : Tables C) (tenant : Nat) : List (DeviceRecord C) :=
  ((Table.ownedBy DeviceRow.tenantId tenant t.devices).mergeSort fun a b =>
    collate a.deviceId b.deviceId).map rowToRecord

def listConfigHistory (t : Tables C) (tenant : Nat) (deviceId : String) :
    List (ConfigHistoryRecord C) :=
  (((Table.ownedBy ConfigHistoryRow.tenantId tenant t.configHistory).filter fun h =>
    h.deviceId = deviceId).mergeSort fun a b => b.configVersion ≤ a.configVersion).map fun h =>
      ⟨h.id, h.configVersion, h.configJson, h.pushedAt, h.pushedBy, h.appliedAt, h.applySuccess,
        h.applyError⟩

def listCertificateHistory (t : Tables C) (tenant : Nat) (deviceId : String) :
    List CertificateHistoryRecord :=
  (((Table.ownedBy CertificateHistoryRow.tenantId tenant t.certificateHistory).filter fun h =>
    h.deviceId = deviceId).mergeSort fun a b => b.issuedAt ≤ a.issuedAt).map fun h =>
      ⟨h.id, h.serialNumber, h.notBefore, h.notAfter, h.issuedAt, h.reason⟩

def listJoinTokens (t : Tables C) (tenant : Nat) : List JoinTokenRecord :=
  ((Table.ownedBy JoinTokenRow.tenantId tenant t.joinTokens).mergeSort fun a b =>
    b.createdAt ≤ a.createdAt).map fun j =>
      ⟨j.tokenHash, j.deviceId, j.createdAt, j.expiresAt, j.consumedAt, j.revokedAt, j.revokedBy⟩

/-- A call that an operator of `tenant` makes. -/
def call (t : Tables C) (tenant : Nat) :
    OperatorCall C → Except OperatorError (OperatorResult C) × Tables C
  | .get deviceId => (.ok (.device ((t.ownDevice tenant deviceId).map rowToRecord)), t)
  | .listDevices => (.ok (.devices (t.listDevices collate tenant)), t)
  | .updateMetadata deviceId fields => t.updateMetadata tenant deviceId fields
  | .queueConfig deviceId config pushedBy now =>
      t.queueConfig pyEq tenant deviceId config pushedBy now
  | .listConfigHistory deviceId => (.ok (.configHistory (t.listConfigHistory tenant deviceId)), t)
  | .listCertificateHistory deviceId =>
      (.ok (.certificateHistory (t.listCertificateHistory tenant deviceId)), t)
  | .listJoinTokens => (.ok (.joinTokens (t.listJoinTokens tenant)), t)
  | .revokeJoinToken tokenId revokedBy now => t.revokeJoinToken tenant tokenId revokedBy now

end Calls

/-- The tables are in order: the primary keys, and the tenants of the history rows. -/
structure WellFormed (t : Tables C) : Prop where
  deviceIds : (t.devices.map DeviceRow.deviceId).Nodup
  tokenHashes : (t.joinTokens.map JoinTokenRow.tokenHash).Nodup
  configHistory : ∀ h ∈ t.configHistory,
    ∃ d ∈ t.devices, d.deviceId = h.deviceId ∧ d.tenantId = h.tenantId
  certificateHistory : ∀ h ∈ t.certificateHistory,
    ∃ d ∈ t.devices, d.deviceId = h.deviceId ∧ d.tenantId = h.tenantId

end Tables

/-- The registry: tables that are in order. -/
structure Registry (C : Type*) where
  tables : Tables C
  wellFormed : tables.WellFormed

def TenantRows.withoutIds {C : Type*} (rows : TenantRows C) : TenantRows C :=
  { rows with configHistory := rows.configHistory.map fun h => { h with id := 0 } }

/-! ## Metadata -/

section Metadata

variable {C : Type*}

theorem setMetadata_keeps (d : DeviceRow C) (field : String) (value : Option String) :
    (setMetadata d field value).deviceId = d.deviceId ∧
      (setMetadata d field value).tenantId = d.tenantId := by
  unfold setMetadata
  repeat' split
  all_goals exact ⟨rfl, rfl⟩

theorem setAllMetadata_keeps (fields : List (String × Option String)) (d : DeviceRow C) :
    (setAllMetadata fields d).deviceId = d.deviceId ∧
      (setAllMetadata fields d).tenantId = d.tenantId := by
  induction fields generalizing d with
  | nil => exact ⟨rfl, rfl⟩
  | cons field fields ih =>
    obtain ⟨hid, htenant⟩ := ih (setMetadata d field.1 field.2)
    obtain ⟨hid', htenant'⟩ := setMetadata_keeps d field.1 field.2
    exact ⟨hid.trans hid', htenant.trans htenant'⟩

end Metadata

/-! ## What a call writes -/

namespace Tables

variable {C : Type*} {t : Tables C} {tenant : Nat}

variable {deviceId : String} {d : DeviceRow C}

theorem find_of_ownDevice (h : t.ownDevice tenant deviceId = some d) :
    Table.find DeviceRow.deviceId deviceId t.devices = some d ∧ d.tenantId = tenant := by
  obtain ⟨hfind, howner⟩ := Option.filter_eq_some_iff.1 h
  exact ⟨hfind, of_decide_eq_true howner⟩

theorem find_of_ownToken {tokenId : String} {j : JoinTokenRow}
    (h : t.ownToken tenant tokenId = some j) :
    Table.find JoinTokenRow.tokenHash tokenId t.joinTokens = some j ∧ j.tenantId = tenant := by
  obtain ⟨hfind, howner⟩ := Option.filter_eq_some_iff.1 h
  exact ⟨hfind, of_decide_eq_true howner⟩

inductive Written (t : Tables C) (tenant : Nat) : Tables C → Prop
  | nothing (next : Nat) : Written t tenant { t with nextConfigHistoryId := next }
  | device {deviceId : String} {d : DeviceRow C} {f : DeviceRow C → DeviceRow C}
      (hd : t.ownDevice tenant deviceId = some d)
      (hkey : ∀ d, (f d).deviceId = d.deviceId) (howner : ∀ d, (f d).tenantId = d.tenantId) :
      Written t tenant
        { t with devices := Table.update DeviceRow.deviceId deviceId f t.devices }
  | push {deviceId : String} {d : DeviceRow C} {f : DeviceRow C → DeviceRow C}
      {row : ConfigHistoryRow C} (next : Nat) (hd : t.ownDevice tenant deviceId = some d)
      (hkey : ∀ d, (f d).deviceId = d.deviceId) (howner : ∀ d, (f d).tenantId = d.tenantId)
      (hdevice : row.deviceId = deviceId) (htenant : row.tenantId = tenant) :
      Written t tenant
        { t with
          devices := Table.update DeviceRow.deviceId deviceId f t.devices
          configHistory := t.configHistory ++ [row]
          nextConfigHistoryId := next }
  | token {tokenId : String} {j : JoinTokenRow} {f : JoinTokenRow → JoinTokenRow}
      (hj : t.ownToken tenant tokenId = some j)
      (hkey : ∀ j, (f j).tokenHash = j.tokenHash) (howner : ∀ j, (f j).tenantId = j.tenantId) :
      Written t tenant
        { t with joinTokens := Table.update JoinTokenRow.tokenHash tokenId f t.joinTokens }

theorem written_call (collate : String → String → Bool) (pyEq : C → C → Bool) (t : Tables C)
    (tenant : Nat) (c : OperatorCall C) : Written t tenant (t.call collate pyEq tenant c).2 := by
  cases c with
  | updateMetadata deviceId fields =>
    simp only [call, updateMetadata]
    split
    · exact .nothing _
    · split
      · exact .nothing _
      · next d hd =>
        exact .device hd (fun d => (setAllMetadata_keeps _ d).1)
          (fun d => (setAllMetadata_keeps _ d).2)
  | queueConfig deviceId config pushedBy now =>
    simp only [call, queueConfig]
    split
    · exact .nothing _
    · next d hd =>
      split
      · exact .nothing _
      · exact .push _ hd (fun _ => rfl) (fun _ => rfl) rfl rfl
  | revokeJoinToken tokenId revokedBy now =>
    simp only [call, revokeJoinToken]
    split
    · exact .nothing _
    · next j hj => exact .token hj (fun _ => rfl) (fun _ => rfl)
  | get | listDevices | listConfigHistory | listCertificateHistory | listJoinTokens =>
    exact .nothing _

theorem exists_device_update {f : DeviceRow C → DeviceRow C}
    (hkey : ∀ d, (f d).deviceId = d.deviceId) (howner : ∀ d, (f d).tenantId = d.tenantId)
    {devices : List (DeviceRow C)} {id : String} {owner : Nat}
    (h : ∃ d ∈ devices, d.deviceId = id ∧ d.tenantId = owner) :
    ∃ d ∈ Table.update DeviceRow.deviceId deviceId f devices,
      d.deviceId = id ∧ d.tenantId = owner := by
  obtain ⟨d, hd, hid, htenant⟩ := h
  obtain ⟨d', hd', hid', htenant'⟩ :=
    Table.exists_mem_update hkey howner deviceId hd
  exact ⟨d', hd', hid'.trans hid, htenant'.trans htenant⟩

variable {t' : Tables C}

theorem WellFormed.written (h : t.WellFormed) (hw : Written t tenant t') :
    t'.WellFormed := by
  cases hw with
  | nothing next => exact ⟨h.deviceIds, h.tokenHashes, h.configHistory, h.certificateHistory⟩
  | device hd hkey howner =>
    refine ⟨?_, h.tokenHashes, ?_, ?_⟩
    · rw [Table.map_key_update hkey]
      exact h.deviceIds
    · exact fun row hrow => exists_device_update hkey howner (h.configHistory row hrow)
    · exact fun row hrow => exists_device_update hkey howner (h.certificateHistory row hrow)
  | @push deviceId d f row next hd hkey howner hdevice htenant =>
    refine ⟨?_, h.tokenHashes, ?_, ?_⟩
    · rw [Table.map_key_update hkey]
      exact h.deviceIds
    · intro row' hrow'
      obtain hold | hnew := List.mem_append.1 hrow'
      · exact exists_device_update hkey howner (h.configHistory row' hold)
      · rw [List.mem_singleton.1 hnew]
        obtain ⟨hfind, hown⟩ := find_of_ownDevice hd
        obtain ⟨hmem, hid⟩ := Table.mem_of_find hfind
        exact exists_device_update hkey howner
          ⟨d, hmem, hid.trans hdevice.symm, hown.trans htenant.symm⟩
    · exact fun row' hrow' => exists_device_update hkey howner (h.certificateHistory row' hrow')
  | token hj hkey howner =>
    refine ⟨h.deviceIds, ?_, h.configHistory, h.certificateHistory⟩
    rw [Table.map_key_update hkey]
    exact h.tokenHashes

theorem rowsOf_written (h : t.WellFormed) (hw : Written t tenant t') {other : Nat}
    (hne : other ≠ tenant) : t'.rowsOf other = t.rowsOf other := by
  have hdevices : ∀ {deviceId : String} {d : DeviceRow C} {f : DeviceRow C → DeviceRow C},
      t.ownDevice tenant deviceId = some d → (∀ d, (f d).tenantId = d.tenantId) →
      Table.ownedBy DeviceRow.tenantId other (Table.update DeviceRow.deviceId deviceId f t.devices)
        = Table.ownedBy DeviceRow.tenantId other t.devices := by
    intro deviceId d f hd howner
    obtain ⟨hfind, hown⟩ := find_of_ownDevice hd
    refine Table.ownedBy_update_of_ne howner h.deviceIds hfind ?_
    rw [hown]
    exact hne.symm
  cases hw with
  | nothing next => rfl
  | device hd hkey howner =>
    simp only [rowsOf, hdevices hd howner]
  | @push deviceId d f row next hd hkey howner hdevice htenant =>
    have hrow : Table.ownedBy ConfigHistoryRow.tenantId other [row] = [] := by
      refine List.filter_eq_nil_iff.2 fun row' hrow' => ?_
      rw [List.mem_singleton.1 hrow', htenant]
      simpa using hne.symm
    simp only [rowsOf, hdevices hd howner, Table.ownedBy_append, hrow, List.append_nil]
  | @token tokenId j f hj hkey howner =>
    obtain ⟨hfind, hown⟩ := find_of_ownToken hj
    have htokens := Table.ownedBy_update_of_ne howner h.tokenHashes hfind (t := other)
      (by rw [hown]; exact hne.symm)
    simp only [rowsOf, htokens]

/-! ## What a call sees -/

def only (t : Tables C) (tenant : Nat) : Tables C := ⟨t.rowsOf tenant, t.nextConfigHistoryId⟩

theorem ownDevice_only (h : t.WellFormed) (deviceId : String) :
    (t.only tenant).ownDevice tenant deviceId = t.ownDevice tenant deviceId := by
  show (Table.find _ _ (Table.ownedBy _ _ _)).filter _ = _
  rw [Table.find_ownedBy h.deviceIds, Option.filter_filter]
  simp [ownDevice]

theorem ownToken_only (h : t.WellFormed) (tokenId : String) :
    (t.only tenant).ownToken tenant tokenId = t.ownToken tenant tokenId := by
  show (Table.find _ _ (Table.ownedBy _ _ _)).filter _ = _
  rw [Table.find_ownedBy h.tokenHashes, Option.filter_filter]
  simp [ownToken]

theorem hasVersion_only (h : t.WellFormed)
    (hd : t.ownDevice tenant deviceId = some d) (version : Nat) :
    (t.only tenant).hasVersion deviceId version = t.hasVersion deviceId version := by
  obtain ⟨hfind, hown⟩ := find_of_ownDevice hd
  rw [Bool.eq_iff_iff, hasVersion, hasVersion, List.any_eq_true, List.any_eq_true]
  constructor
  · rintro ⟨row, hrow, hversion⟩
    exact ⟨row, (Table.mem_ownedBy.1 hrow).1, hversion⟩
  · rintro ⟨row, hrow, hversion⟩
    obtain ⟨d', hd', hid, htenant⟩ := h.configHistory row hrow
    refine ⟨row, Table.mem_ownedBy.2 ⟨hrow, ?_⟩, hversion⟩
    have hid' : d'.deviceId = deviceId := hid.trans (of_decide_eq_true hversion).1
    rw [← htenant, Table.eq_of_find h.deviceIds hfind hd' hid']
    exact hown

@[simp] theorem rowsOf_only : (t.only tenant).rowsOf tenant = t.rowsOf tenant := by
  simp [only, rowsOf]

/-- **What a call can see.**  The result, and the rows that the tenant has afterwards, are those
that tables with nothing but the tenant's rows give. -/
theorem call_only (collate : String → String → Bool) (pyEq : C → C → Bool) (h : t.WellFormed)
    (tenant : Nat) (c : OperatorCall C) :
    ((t.only tenant).call collate pyEq tenant c).1 = (t.call collate pyEq tenant c).1 ∧
      ((t.only tenant).call collate pyEq tenant c).2.rowsOf tenant =
        (t.call collate pyEq tenant c).2.rowsOf tenant := by
  cases c with
  | get deviceId =>
    refine ⟨?_, rowsOf_only⟩
    simp only [call, ownDevice_only h]
  | listDevices =>
    refine ⟨?_, rowsOf_only⟩
    simp only [call, listDevices, only, rowsOf, Table.ownedBy_ownedBy]
  | listConfigHistory deviceId =>
    refine ⟨?_, rowsOf_only⟩
    simp only [call, listConfigHistory, only, rowsOf, Table.ownedBy_ownedBy]
  | listCertificateHistory deviceId =>
    refine ⟨?_, rowsOf_only⟩
    simp only [call, listCertificateHistory, only, rowsOf, Table.ownedBy_ownedBy]
  | listJoinTokens =>
    refine ⟨?_, rowsOf_only⟩
    simp only [call, listJoinTokens, only, rowsOf, Table.ownedBy_ownedBy]
  | updateMetadata deviceId fields =>
    simp only [call, updateMetadata, ownDevice_only h]
    split
    · exact ⟨rfl, rowsOf_only⟩
    · split
      · exact ⟨rfl, rowsOf_only⟩
      · refine ⟨rfl, ?_⟩
        simp only [only, rowsOf, Table.ownedBy_ownedBy,
          Table.ownedBy_update_ownedBy fun d => (setAllMetadata_keeps fields.entries d).2]
  | queueConfig deviceId config pushedBy now =>
    simp only [call, queueConfig, ownDevice_only h]
    split
    · exact ⟨rfl, rowsOf_only⟩
    · next d hd =>
      rw [hasVersion_only h hd]
      split
      · exact ⟨rfl, rowsOf_only⟩
      · refine ⟨rfl, ?_⟩
        have hkeeps : ∀ d, (pushedDevice pyEq config d).tenantId = d.tenantId := fun _ => rfl
        simp only [only, rowsOf, Table.ownedBy_ownedBy, Table.ownedBy_append,
          Table.ownedBy_update_ownedBy hkeeps]
  | revokeJoinToken tokenId revokedBy now =>
    simp only [call, revokeJoinToken, ownToken_only h]
    split
    · exact ⟨rfl, rowsOf_only⟩
    · refine ⟨rfl, ?_⟩
      simp only [only, rowsOf, Table.ownedBy_ownedBy]
      rw [Table.ownedBy_update_ownedBy]
      exact fun _ => rfl

theorem call_next (collate : String → String → Bool) (pyEq : C → C → Bool) (rows : TenantRows C)
    (n m tenant : Nat) (c : OperatorCall C) :
    ((⟨rows, n⟩ : Tables C).call collate pyEq tenant c).1 =
        ((⟨rows, m⟩ : Tables C).call collate pyEq tenant c).1 ∧
      (((⟨rows, n⟩ : Tables C).call collate pyEq tenant c).2.rowsOf tenant).withoutIds =
        (((⟨rows, m⟩ : Tables C).call collate pyEq tenant c).2.rowsOf tenant).withoutIds := by
  cases c with
  | queueConfig deviceId config pushedBy now =>
    simp only [call, queueConfig]
    have hdevice : (⟨rows, n⟩ : Tables C).ownDevice tenant deviceId =
        (⟨rows, m⟩ : Tables C).ownDevice tenant deviceId := rfl
    rw [hdevice]
    split
    · exact ⟨rfl, rfl⟩
    · next d hd =>
      have hversion : (⟨rows, n⟩ : Tables C).hasVersion deviceId (d.pendingConfigVersion + 1) =
          (⟨rows, m⟩ : Tables C).hasVersion deviceId (d.pendingConfigVersion + 1) := rfl
      rw [hversion]
      split
      · exact ⟨rfl, rfl⟩
      · simp [rowsOf, TenantRows.withoutIds, Table.ownedBy]
  | updateMetadata deviceId fields =>
    simp only [call, updateMetadata]
    split
    · exact ⟨rfl, rfl⟩
    · have hdevice : (⟨rows, n⟩ : Tables C).ownDevice tenant deviceId =
          (⟨rows, m⟩ : Tables C).ownDevice tenant deviceId := rfl
      rw [hdevice]
      split <;> exact ⟨rfl, rfl⟩
  | revokeJoinToken tokenId revokedBy now =>
    simp only [call, revokeJoinToken]
    have htoken : (⟨rows, n⟩ : Tables C).ownToken tenant tokenId =
        (⟨rows, m⟩ : Tables C).ownToken tenant tokenId := rfl
    rw [htoken]
    split <;> exact ⟨rfl, rfl⟩
  | get | listDevices | listConfigHistory | listCertificateHistory | listJoinTokens =>
    exact ⟨rfl, rfl⟩

theorem WellFormed.only (h : t.WellFormed) (tenant : Nat) : (t.only tenant).WellFormed where
  deviceIds := Table.nodup_ownedBy h.deviceIds tenant
  tokenHashes := Table.nodup_ownedBy h.tokenHashes tenant
  configHistory := by
    intro row hrow
    obtain ⟨hmem, htenant⟩ := Table.mem_ownedBy.1 hrow
    obtain ⟨d, hd, hid, howner⟩ := h.configHistory row hmem
    exact ⟨d, Table.mem_ownedBy.2 ⟨hd, howner.trans htenant⟩, hid, howner⟩
  certificateHistory := by
    intro row hrow
    obtain ⟨hmem, htenant⟩ := Table.mem_ownedBy.1 hrow
    obtain ⟨d, hd, hid, howner⟩ := h.certificateHistory row hmem
    exact ⟨d, Table.mem_ownedBy.2 ⟨hd, howner.trans htenant⟩, hid, howner⟩

end Tables

/-! ## Noninterference -/

namespace Registry

variable {C : Type*}

def rowsOf (r : Registry C) (tenant : Nat) : TenantRows C := r.tables.rowsOf tenant

def only (r : Registry C) (tenant : Nat) : Registry C :=
  ⟨r.tables.only tenant, r.wellFormed.only tenant⟩

/-- A call that an operator of `tenant` makes: what it returns, and what it leaves. -/
def call (collate : String → String → Bool) (pyEq : C → C → Bool) (r : Registry C) (tenant : Nat)
    (c : OperatorCall C) : Except OperatorError (OperatorResult C) × Registry C :=
  ((r.tables.call collate pyEq tenant c).1,
    ⟨(r.tables.call collate pyEq tenant c).2,
      r.wellFormed.written (r.tables.written_call collate pyEq tenant c)⟩)

end Registry

def registeredDevice (deviceId : String) (tenant : Nat) : DeviceRow Nat :=
  ⟨deviceId, tenant, none, "hash", 0, none, 60, none, none, none, none, none, 0, none, none, none,
    none, none, none⟩

def aloneRegistry : Registry Nat where
  tables := ⟨⟨[registeredDevice "gw-a" 1], [], [], []⟩, 1⟩
  wellFormed := ⟨by decide, by decide, by simp, by simp⟩

def sharedRegistry : Registry Nat where
  tables := ⟨⟨[registeredDevice "gw-a" 1,
      { registeredDevice "gw-b" 2 with pendingConfigJson := some 7, pendingConfigVersion := 1 }],
    [⟨1, 2, "gw-b", 1, 7, 0, "op-b", none, none, none⟩], [], []⟩, 2⟩
  wellFormed := ⟨by decide, by decide, by simp [registeredDevice], by simp⟩

def pushA : OperatorCall Nat := .queueConfig "gw-a" 5 "op-a" 10

end XEdge.Fleet
