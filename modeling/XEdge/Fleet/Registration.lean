import XEdge.Lib.ReadCommitted

/-!
# Registering a device (`DeviceRegistry.register`)

A device id is unique over all tenants.  `register` reads the device's row, refuses if it is
another tenant's, and then inserts, or updates what is there by then.  The update sets the
token and leaves the tenant, and nothing in it says whose row it has to be.
-/

namespace XEdge.Fleet

open Lib Lib.ReadCommitted

/-! ## The row and the call -/

/-- A row of `devices`: the columns that `register` writes.  The others are null in a new row
and stay as they are in an old one. -/
structure RegisteredDevice where
  tenantId : Nat
  displayName : Option String
  tokenHash : String
  registeredAt : Nat
  agentVersion : Option String
  heartbeatIntervalSeconds : ℚ
  /-- Ghost: the tenant that the token hash was written for. -/
  tokenWriter : Nat
  deriving DecidableEq

/-- A call of `register`, with the token it has drawn and the clock. -/
structure RegisterCall where
  tenantId : Nat
  token : String
  displayName : Option String
  agentVersion : Option String
  heartbeatIntervalSeconds : ℚ
  now : Nat
  deriving DecidableEq

inductive RegisterError where
  /-- `DeviceTenantConflictError`. -/
  | tenantConflict (deviceId : String)
  /-- `IntegrityError`: there is no such tenant. -/
  | integrity
  deriving DecidableEq, Repr

/-- The text of a `DeviceTenantConflictError`; `repr` is Python's. -/
def RegisterError.message (repr : String → String) : RegisterError → Option String
  | tenantConflict deviceId =>
      some ("Device " ++ repr deviceId ++ " is already registered under a different tenant")
  | integrity => none

/-- What the calls share: `hash_token`, and which tenants there are. -/
structure RegistryEnv where
  hashToken : String → String
  tenants : Nat → Bool

/-- `INSERT … ON CONFLICT (device_id) DO UPDATE`. -/
def upsertDevice (E : RegistryEnv) (c : RegisterCall) (registeredAt : Nat) :
    Option RegisteredDevice → Except RegisterError (Option RegisteredDevice)
  | none =>
      if E.tenants c.tenantId then
        .ok (some
          { tenantId := c.tenantId
            displayName := c.displayName
            tokenHash := E.hashToken c.token
            registeredAt
            agentVersion := c.agentVersion
            heartbeatIntervalSeconds := c.heartbeatIntervalSeconds
            tokenWriter := c.tenantId })
      else .error .integrity
  | some d =>
      .ok (some
        { d with
          displayName := c.displayName
          tokenHash := E.hashToken c.token
          agentVersion := c.agentVersion
          heartbeatIntervalSeconds := c.heartbeatIntervalSeconds
          tokenWriter := c.tenantId })

/-- `register`: it returns the token. -/
def register (E : RegistryEnv) (deviceId : String) (c : RegisterCall)
    (existing : Option RegisteredDevice) :
    Plan (Option RegisteredDevice) String RegisterError :=
  match existing with
  | none => .write (upsertDevice E c c.now) c.token
  | some d =>
      if d.tenantId = c.tenantId then .write (upsertDevice E c d.registeredAt) c.token
      else .raise (.tenantConflict deviceId)

abbrev DeviceState := State (Option RegisteredDevice) RegisterCall String RegisterError

def deviceMachine (E : RegistryEnv) (deviceId : String) :
    Machine DeviceState (Event RegisterCall) := machine (register E deviceId)

def registryMachine (E : RegistryEnv) :
    Machine (String → DeviceState) (String × Event RegisterCall) :=
  Machine.family (deviceMachine E)

/-! ## The property -/

/-- The token of the row was written for the tenant that owns it, and no call of another tenant
has returned a token. -/
def Owned (s : DeviceState) : Prop :=
  ∀ d, s.row = some d →
    d.tokenWriter = d.tenantId ∧ ∀ x ∈ s.returned, x.1.call.tenantId = d.tenantId

/-- A call is committed only while the committed row is its tenant's, or there is none. -/
def commitsOwn (s : DeviceState) : Event RegisterCall → Bool
  | .commit i =>
      (s.txs[i]?).all fun t => s.row.all fun d => t.req.call.tenantId = d.tenantId
  | _ => true

structure DeviceInv (E : RegistryEnv) (deviceId : String) (s : DeviceState) : Prop where
  sound : Sound (register E deviceId) s
  left : s.row = none → s.returned = []

section Device

variable {E : RegistryEnv} {deviceId : String}

variable {c : RegisterCall} {seen : Option RegisteredDevice} {token : String}

theorem register_ne_done :
    register E deviceId c seen ≠ .done token := by
  intro h
  unfold register at h
  split at h
  · cases h
  · split at h <;> cases h

theorem register_write
    {update : Option RegisteredDevice → Except RegisterError (Option RegisteredDevice)}
    (h : register E deviceId c seen = .write update token) :
    ∃ registeredAt, update = upsertDevice E c registeredAt := by
  unfold register at h
  split at h
  · cases h
    exact ⟨c.now, rfl⟩
  · next d =>
    split at h
    · cases h
      exact ⟨d.registeredAt, rfl⟩
    · cases h

/-- What the statement leaves: a row whose token is the caller's, and whose tenant is the
caller's only if there was no row. -/
theorem upsertDevice_ok {registeredAt : Nat}
    {row new : Option RegisteredDevice} (h : upsertDevice E c registeredAt row = .ok new) :
    ∃ d, new = some d ∧ d.tokenWriter = c.tenantId ∧
      (row = none → d.tenantId = c.tenantId) ∧ ∀ d', row = some d' → d.tenantId = d'.tenantId := by
  cases row with
  | none =>
    rw [upsertDevice] at h
    split at h
    · cases h
      refine ⟨_, rfl, rfl, fun _ => rfl, ?_⟩
      intro d' hd'
      cases hd'
    · cases h
  | some d' =>
    cases h
    refine ⟨_, rfl, rfl, ?_, ?_⟩
    · intro hnone
      cases hnone
    · intro d'' hd''
      cases hd''
      rfl

theorem deviceInv_start (row : Option RegisteredDevice) :
    DeviceInv E deviceId (State.start row) where
  sound := sound_start _ row
  left _ := rfl

variable {s s' : DeviceState} {e : Event RegisterCall}

theorem deviceInv_step
    (hs : DeviceInv E deviceId s) (h : (deviceMachine E deviceId).step s e = some s') :
    DeviceInv E deviceId s' := by
  refine ⟨sound_step hs.sound h, ?_⟩
  cases step_effect hs.sound h with
  | select c hrow hreturned _ =>
    rw [hrow, hreturned]
    exact hs.left
  | silent hrow hreturned _ _ =>
    rw [hrow, hreturned]
    exact hs.left
  | readOnly i t token _ _ hplan _ _ _ => exact absurd hplan register_ne_done
  | write i t token update _ _ hplan hrow _ _ =>
    obtain ⟨registeredAt, rfl⟩ := register_write hplan
    obtain ⟨d, hd, -⟩ := upsertDevice_ok hrow
    intro hnone
    rw [hd] at hnone
    cases hnone

/-- **One step**: the device stays with its tenant just in case no call is committed over the
row of another one. -/
theorem owned_step_iff (hs : DeviceInv E deviceId s) (howned : Owned s)
    (h : (deviceMachine E deviceId).step s e = some s') : Owned s' ↔ commitsOwn s e = true := by
  cases step_effect hs.sound h with
  | select c hrow hreturned _ =>
    simp only [commitsOwn, iff_true, Owned, hrow, hreturned]
    exact howned
  | silent hrow hreturned _ hcommit =>
    have hguard : commitsOwn s e = true := by
      cases e with
      | commit i => exact absurd rfl (hcommit i)
      | select | flush | abort => rfl
    simp only [hguard, iff_true, Owned, hrow, hreturned]
    exact howned
  | readOnly i t token _ _ hplan _ _ _ => exact absurd hplan register_ne_done
  | write i t token update ht _ hplan hrow hreturned _ =>
    obtain ⟨registeredAt, rfl⟩ := register_write hplan
    obtain ⟨d, hd, hwriter, hnew, hold⟩ := upsertDevice_ok hrow
    have hcommits : commitsOwn s (.commit i) = true ↔
        ∀ d', s.row = some d' → t.req.call.tenantId = d'.tenantId := by
      simp only [commitsOwn, ht, Option.all_some]
      cases s.row with
      | none | some => simp
    rw [hcommits]
    constructor
    · intro howned' d' hd'
      rw [← hold d' hd', ← hwriter]
      exact (howned' d hd).1
    · intro hguard d' hd'
      cases hd.symm.trans hd'
      cases hrowBefore : s.row with
      | none =>
        -- the first call: its tenant becomes the owner
        have htenant := hnew hrowBefore
        refine ⟨hwriter.trans htenant.symm, fun x hx => ?_⟩
        rw [hreturned, hs.left hrowBefore, List.nil_append, List.mem_singleton] at hx
        rw [hx, htenant]
      | some before =>
        have htenant := hold before hrowBefore
        have hcaller := hguard before hrowBefore
        refine ⟨hwriter.trans (hcaller.trans htenant.symm), fun x hx => ?_⟩
        rw [hreturned, List.mem_append, List.mem_singleton] at hx
        rw [htenant]
        obtain hx | rfl := hx
        · exact (howned before hrowBefore).2 x hx
        · exact hcaller

end Device

/-- **Every device stays with its tenant** in all the states of a run, just in case no call is
committed over the row of another tenant.  Any devices may be registered at the start, each by
its tenant; calls of any tenants for any devices may interleave in any way. -/
theorem registration_owned_iff (E : RegistryEnv) (rows : String → Option RegisteredDevice)
    (hrows : ∀ id d, rows id = some d → d.tokenWriter = d.tenantId)
    (es : List (String × Event RegisterCall)) (s : String → DeviceState)
    (hrun : (registryMachine E).run (fun id => State.start (rows id)) es = some s) :
    (registryMachine E).Always (fun s => ∀ id, Owned (s id))
        (fun id => State.start (rows id)) es ↔
      (registryMachine E).Meets (fun s e => commitsOwn (s e.1) e.2 = true)
        (fun id => State.start (rows id)) es := by
  refine Machine.family_always_iff_meets (I := DeviceInv E) (P := fun _ => Owned)
    (G := fun _ s e => commitsOwn s e = true) ?_ ?_ ?_ ?_ hrun
  · intro id s e s' hs h
    exact deviceInv_step hs h
  · intro id s e s' hs howned h
    exact owned_step_iff hs howned h
  · intro id
    exact deviceInv_start (rows id)
  · intro id d hd
    exact ⟨hrows id d hd, fun x hx => absurd hx List.not_mem_nil⟩

/-! ### Two tenants at once -/

def twoTenants : RegistryEnv := ⟨fun token => "sha256:" ++ token, fun t => t = 1 || t = 2⟩

def registerFor (tenantId : Nat) (token : String) : RegisterCall :=
  ⟨tenantId, token, none, none, 60, 0⟩

def registerTwice : List (String × Event RegisterCall) :=
  [("gw-1", .select (registerFor 1 "a")), ("gw-1", .flush 0), ("gw-1", .commit 0),
    ("gw-1", .select (registerFor 1 "b")), ("gw-1", .select (registerFor 2 "c")),
    ("gw-1", .flush 1), ("gw-1", .commit 1)]

theorem registration_owned_registerTwice :
    ∃ s, (registryMachine twoTenants).run (fun _ => State.start none) registerTwice = some s ∧
      (s "gw-1").returned.map Prod.snd = ["a", "b"] ∧ ∀ id, Owned (s id) := by
  obtain ⟨s, hs, hv⟩ := Option.map_eq_some_iff.1
    (show ((registryMachine twoTenants).run (fun _ => State.start none) registerTwice).map
      (fun s => (s "gw-1").returned.map Prod.snd) = some ["a", "b"] by decide +kernel)
  have halways := (registration_owned_iff twoTenants (fun _ => none) (fun _ _ h => by cases h)
    registerTwice s hs).2 (by decide +kernel)
  exact ⟨s, hs, hv, halways registerTwice [] s (List.append_nil _).symm hs⟩

def registerTogether : List (String × Event RegisterCall) :=
  [("gw-1", .select (registerFor 1 "a")), ("gw-1", .select (registerFor 2 "b")),
    ("gw-1", .flush 0), ("gw-1", .commit 0), ("gw-1", .flush 1), ("gw-1", .commit 1)]

/-- **A device is taken over**: both calls return a token, the row is the first tenant's, and
the token hash in it the second one's. -/
theorem device_taken_over :
    ∃ s, (registryMachine twoTenants).run (fun _ => State.start none) registerTogether = some s ∧
      (s "gw-1").returned.map (fun x => (x.1.call.tenantId, x.2)) = [(1, "a"), (2, "b")] ∧
      (s "gw-1").row.map (fun d => (d.tenantId, d.tokenHash)) = some (1, "sha256:b") ∧
      ¬ ∀ id, Owned (s id) := by
  obtain ⟨s, hs, hv⟩ := Option.map_eq_some_iff.1
    (show ((registryMachine twoTenants).run (fun _ => State.start none) registerTogether).map
      (fun s => ((s "gw-1").returned.map (fun x => (x.1.call.tenantId, x.2)),
        (s "gw-1").row.map (fun d => (d.tenantId, d.tokenHash)),
        (s "gw-1").row.map (fun d => (d.tenantId, d.tokenWriter)))) =
      some ([(1, "a"), (2, "b")], some (1, "sha256:b"), some (1, 2)) by decide +kernel)
  obtain ⟨hreturned, hrest⟩ := Prod.mk.inj hv
  obtain ⟨hhash, hwriter⟩ := Prod.mk.inj hrest
  refine ⟨s, hs, hreturned, hhash, fun howned => ?_⟩
  obtain ⟨d, hd, hpair⟩ := Option.map_eq_some_iff.1 hwriter
  obtain ⟨htenant, hother⟩ := Prod.mk.inj hpair
  have hsame := (howned "gw-1" d hd).1
  omega

end XEdge.Fleet
