import XEdge.Lib.ReadCommitted

/-!
# Pushed configurations (`xedge/fleet/registry.py`)

An operator pushes a configuration with `queue_config`; the device's next
heartbeat fetches and clears it with `take_pending_config`.  The device row has
one slot for the pending configuration and one version number.  Both calls read
the row, decide in the program, and write with an `UPDATE` by primary key that
names only the columns whose value has changed since the read.

A configuration is an element of an arbitrary type; `pyEq` is Python's `==` on
configurations, by which the ORM decides whether the column has changed.
-/

namespace XEdge.Fleet

open Lib Lib.ReadCommitted

/-! ## The rows and the calls -/

/-- `Device`, the columns the two calls use. -/
structure Device (C : Type*) where
  tenantId : Nat
  pendingConfigJson : Option C
  pendingConfigVersion : Nat
  deriving DecidableEq, Repr

/-- `DeviceConfigHistory`, as a push inserts it. -/
structure DeviceConfigHistory (C : Type*) where
  configVersion : Nat
  configJson : C
  pushedAt : Nat
  pushedBy : String
  deriving DecidableEq, Repr

structure DeviceRows (C : Type*) where
  /-- Its row in `devices`. -/
  device : Option (Device C)
  /-- Its rows in `device_config_history`. -/
  history : List (DeviceConfigHistory C)
  deriving DecidableEq, Repr

inductive PushError
  /-- `KeyError`: no such device in this tenant. -/
  | noSuchDevice
  /-- The unique index on `(device_id, config_version)`. -/
  | integrity
  /-- The `UPDATE` has not matched a row. -/
  | staleData
  deriving DecidableEq, Repr

inductive PushResult (C : Type*)
  /-- `queue_config`: the version. -/
  | version (v : Nat)
  /-- `take_pending_config`: the configuration and its version, or `None`. -/
  | config (pending : Option (C × Nat))
  deriving DecidableEq, Repr

inductive PushCall (C : Type*)
  /-- `queue_config`. -/
  | queue (tenantId : Nat) (config : C) (pushedBy : String) (now : Nat)
  /-- `take_pending_config`. -/
  | take
  deriving DecidableEq, Repr

namespace DeviceRows

variable {C : Type*}

def pending (rows : DeviceRows C) : Option C := rows.device.bind Device.pendingConfigJson

def version (rows : DeviceRows C) : Option Nat := rows.device.map Device.pendingConfigVersion

def versions (rows : DeviceRows C) : List Nat := rows.history.map DeviceConfigHistory.configVersion

end DeviceRows

section Calls

variable {C : Type*} (pyEq : C → C → Bool)

/-- The column has the value it was read with, so it is not in the `UPDATE`. -/
def unchanged (old : Option C) (new : C) : Bool := old.any fun c => pyEq new c

/-- The statements of `queue_config`, from the device row that was read. -/
def pushStatements (d : Device C) (config : C) (pushedBy : String) (now : Nat)
    (rows : DeviceRows C) : Except PushError (DeviceRows C) :=
  match rows.device with
  | none => .error .staleData
  | some d' =>
      if d.pendingConfigVersion + 1 ∈ rows.versions then .error .integrity
      else
        .ok
          { device := some
              { d' with
                pendingConfigJson :=
                  if unchanged pyEq d.pendingConfigJson config then d'.pendingConfigJson
                  else some config
                pendingConfigVersion := d.pendingConfigVersion + 1 }
            history := rows.history ++ [⟨d.pendingConfigVersion + 1, config, now, pushedBy⟩] }

def queueConfig (tenantId : Nat) (config : C) (pushedBy : String) (now : Nat)
    (rows : DeviceRows C) : Plan (DeviceRows C) (PushResult C) PushError :=
  match rows.device with
  | none => .raise .noSuchDevice
  | some d =>
      if d.tenantId = tenantId then
        .write (pushStatements pyEq d config pushedBy now) (.version (d.pendingConfigVersion + 1))
      else .raise .noSuchDevice

/-- The `UPDATE` of `take_pending_config`: only the configuration is cleared. -/
def takeStatements (rows : DeviceRows C) : Except PushError (DeviceRows C) :=
  match rows.device with
  | none => .error .staleData
  | some d' => .ok { rows with device := some { d' with pendingConfigJson := none } }

def takePendingConfig (rows : DeviceRows C) : Plan (DeviceRows C) (PushResult C) PushError :=
  match rows.device with
  | none => .done (.config none)
  | some d =>
      match d.pendingConfigJson with
      | none => .done (.config none)
      | some config => .write takeStatements (.config (some (config, d.pendingConfigVersion)))

def pushCode : PushCall C → DeviceRows C → Plan (DeviceRows C) (PushResult C) PushError
  | .queue tenantId config pushedBy now => queueConfig pyEq tenantId config pushedBy now
  | .take => takePendingConfig

def pushMachine :
    Machine (State (DeviceRows C) (PushCall C) (PushResult C) PushError) (Event (PushCall C)) :=
  machine (pushCode pyEq)

end Calls

abbrev PushState (C : Type*) := State (DeviceRows C) (PushCall C) (PushResult C) PushError

abbrev PushReturn (C : Type*) := Request (DeviceRows C) (PushCall C) (PushResult C) × PushResult C

section Property

variable {C : Type*}

def pushed (x : PushReturn C) : Option (C × Nat) :=
  match x.1.call, x.2 with
  | .queue _ config _ _, .version v => some (config, v)
  | _, _ => none

def fetched (x : PushReturn C) : Option (C × Nat) :=
  match x.2 with
  | .config pending => pending
  | .version _ => none

def pushes (s : PushState C) : List (C × Nat) := s.returned.filterMap pushed

def fetches (s : PushState C) : List (C × Nat) := s.returned.filterMap fetched

def Pending (rows : DeviceRows C) (x : C × Nat) : Prop :=
  rows.pending = some x.1 ∧ rows.version = some x.2

/-- Every push that has returned is pending, or was fetched with its version, or
was superseded by a push that returned a larger version. -/
def NoneLost (s : PushState C) : Prop :=
  ∀ x ∈ pushes s, Pending s.row x ∨ x ∈ fetches s ∨ ∃ y ∈ pushes s, x.2 < y.2

variable (pyEq : C → C → Bool) [DecidableEq C]

/-- A fetch is committed only if nothing is pending any more or the version is
still the one it returns; a push of the configuration that it saw pending is
committed only if that configuration is pending still. -/
def noOvertaking (s : PushState C) : Event (PushCall C) → Bool
  | .commit i =>
      match s.txs[i]? with
      | some ⟨_, .flushed _ (.config (some (_, v)))⟩ =>
          decide (s.row.pending = none ∨ s.row.version = some v)
      | some ⟨⟨.queue _ config _ _, seen, _⟩, .flushed _ (.version _)⟩ =>
          decide (unchanged pyEq seen.pending config = true → s.row.pending = some config)
      | _ => true
  | _ => true

end Property

/-! ## What the calls do to the rows -/

section Rows

variable {C : Type*} {pyEq : C → C → Bool}

/-- How the rows that were read are related to the rows that are committed: the
version has not gone back, the history has every version since, and at the same
version the pending configuration is the same or is gone. -/
structure Later (a b : DeviceRows C) : Prop where
  versions : ∀ v ∈ a.versions, v ∈ b.versions
  device : ∀ d, a.device = some d → ∃ d', b.device = some d' ∧
    d.pendingConfigVersion ≤ d'.pendingConfigVersion ∧
    (∀ v, d.pendingConfigVersion < v → v ≤ d'.pendingConfigVersion → v ∈ b.versions) ∧
    (d'.pendingConfigVersion = d.pendingConfigVersion →
      d'.pendingConfigJson = none ∨ d'.pendingConfigJson = d.pendingConfigJson)

theorem Later.refl (a : DeviceRows C) : Later a a :=
  ⟨fun _ h => h, fun d hd => ⟨d, hd, le_rfl, fun v hlt hle => by omega, fun _ => .inr rfl⟩⟩

theorem Later.trans {a b c : DeviceRows C} (hab : Later a b) (hbc : Later b c) : Later a c := by
  refine ⟨fun v hv => hbc.versions v (hab.versions v hv), fun d hd => ?_⟩
  obtain ⟨d', hd', hle, hhist, hpend⟩ := hab.device d hd
  obtain ⟨d'', hd'', hle', hhist', hpend'⟩ := hbc.device d' hd'
  refine ⟨d'', hd'', hle.trans hle', fun v hlt hlev => ?_, fun heq => ?_⟩
  · rcases Nat.lt_or_ge d'.pendingConfigVersion v with h | h
    · exact hhist' v h hlev
    · exact hbc.versions v (hhist v hlt h)
  · rcases hpend' (by omega) with h | h
    · exact .inl h
    · rw [h]
      exact hpend (by omega)

variable {seen rows new : DeviceRows C}

theorem pushStatements_ok {d : Device C} {config : C} {pushedBy : String} {now : Nat}
    (hseen : seen.device = some d) (hlater : Later seen rows)
    (h : pushStatements pyEq d config pushedBy now rows = .ok new) :
    ∃ d', rows.device = some d' ∧ d'.pendingConfigVersion = d.pendingConfigVersion ∧
      new.version = some (d.pendingConfigVersion + 1) ∧
      new.pending = (if unchanged pyEq seen.pending config then rows.pending else some config) ∧
      new.versions = rows.versions ++ [d.pendingConfigVersion + 1] := by
  obtain ⟨d', hd', hle, hhist, -⟩ := hlater.device d hseen
  unfold pushStatements at h
  rw [hd'] at h
  dsimp only at h
  split at h
  · cases h
  · next hfresh =>
    cases h
    refine ⟨d', hd', ?_, rfl, ?_, by simp [DeviceRows.versions]⟩
    · -- a version that had moved on would be in the history
      by_contra hne
      exact hfresh (hhist _ (Nat.lt_succ_self _) (by omega))
    · simp [DeviceRows.pending, hseen, hd']

theorem takeStatements_ok (h : takeStatements rows = .ok new) :
    ∃ d', rows.device = some d' ∧ new.device = some { d' with pendingConfigJson := none } ∧
      new.versions = rows.versions := by
  unfold takeStatements at h
  split at h
  · cases h
  · next d' hd' =>
    cases h
    exact ⟨d', hd', rfl, rfl⟩

variable {c : PushCall C} {r : PushResult C}
  {update : DeviceRows C → Except PushError (DeviceRows C)}

theorem pushCode_write (h : pushCode pyEq c seen = .write update r) :
    ∃ d, seen.device = some d ∧
      ((∃ tenantId config pushedBy now, c = .queue tenantId config pushedBy now ∧
        update = pushStatements pyEq d config pushedBy now ∧
        r = .version (d.pendingConfigVersion + 1)) ∨
      (∃ config, c = .take ∧ d.pendingConfigJson = some config ∧ update = takeStatements ∧
        r = .config (some (config, d.pendingConfigVersion)))) := by
  cases c with
  | queue tenantId config pushedBy now =>
    simp only [pushCode, queueConfig] at h
    split at h
    · cases h
    · next d hd =>
      split at h
      · cases h
        exact ⟨d, hd, .inl ⟨tenantId, config, pushedBy, now, rfl, rfl, rfl⟩⟩
      · cases h
  | take =>
    simp only [pushCode, takePendingConfig] at h
    split at h
    · cases h
    · next d hd =>
      split at h
      · cases h
      · next config hconfig =>
        cases h
        exact ⟨d, hd, .inr ⟨config, rfl, hconfig, rfl, rfl⟩⟩

theorem pushCode_done (h : pushCode pyEq c seen = .done r) : r = .config none := by
  cases c with
  | queue tenantId config pushedBy now =>
    simp only [pushCode, queueConfig] at h
    repeat' split at h
    all_goals cases h
  | take =>
    simp only [pushCode, takePendingConfig] at h
    split at h
    · cases h
      rfl
    · split at h
      · cases h
        rfl
      · cases h

theorem later_write (hlater : Later seen rows) (hplan : pushCode pyEq c seen = .write update r)
    (hrow : update rows = .ok new) :
    Later rows new := by
  obtain ⟨d, hd, ⟨_, config, _, _, rfl, rfl, rfl⟩ | ⟨config, rfl, hconfig, rfl, rfl⟩⟩ :=
    pushCode_write hplan
  · obtain ⟨d', hd', hver, hnewver, -, hversions⟩ := pushStatements_ok hd hlater hrow
    refine ⟨fun v hv => by rw [hversions]; exact List.mem_append_left _ hv, fun e he => ?_⟩
    cases hd'.symm.trans he
    obtain ⟨e', he', hever⟩ := Option.map_eq_some_iff.1 hnewver
    refine ⟨e', he', by omega, fun v hlt hle => ?_, fun heq => by omega⟩
    rw [hversions, show v = d.pendingConfigVersion + 1 by omega]
    exact List.mem_append_right _ (List.mem_singleton_self _)
  · obtain ⟨d', hd', hnew, hversions⟩ := takeStatements_ok hrow
    refine ⟨fun v hv => by rw [hversions]; exact hv, fun e he => ?_⟩
    cases hd'.symm.trans he
    exact ⟨_, hnew, le_rfl, fun v hlt hle => absurd hlt (by simpa using hle), fun _ => .inl rfl⟩

variable (pyEq) in
inductive Written (c : PushCall C) (seen rows new : DeviceRows C) : PushResult C → Prop
  /-- A push: the next version, with the configuration unless the column was left
  out. -/
  | push {d' : Device C} (tenantId : Nat) (config : C) (pushedBy : String) (now : Nat)
      (hcall : c = .queue tenantId config pushedBy now) (hrows : rows.device = some d')
      (hversion : new.version = some (d'.pendingConfigVersion + 1))
      (hpending : new.pending =
        if unchanged pyEq seen.pending config then rows.pending else some config) :
      Written c seen rows new (.version (d'.pendingConfigVersion + 1))
  /-- A fetch: what it has read, and the slot is empty. -/
  | take {d d' : Device C} {config : C} (hcall : c = .take) (hseen : seen.device = some d)
      (hconfig : d.pendingConfigJson = some config) (hrows : rows.device = some d')
      (hnew : new.device = some { d' with pendingConfigJson := none }) :
      Written c seen rows new (.config (some (config, d.pendingConfigVersion)))

theorem pushCode_written (hlater : Later seen rows) (hplan : pushCode pyEq c seen = .write update r)
    (hrow : update rows = .ok new) :
    Written pyEq c seen rows new r := by
  obtain ⟨d, hd, ⟨_, config, _, _, rfl, rfl, rfl⟩ | ⟨config, rfl, hconfig, rfl, rfl⟩⟩ :=
    pushCode_write hplan
  · obtain ⟨d', hd', hver, hnewver, hpend, -⟩ := pushStatements_ok hd hlater hrow
    rw [← hver] at hnewver ⊢
    exact .push _ config _ _ rfl hd' hnewver hpend
  · obtain ⟨d', hd', hnew, -⟩ := takeStatements_ok hrow
    exact .take rfl hd hconfig hd' hnew

end Rows

/-! ## What every interleaving keeps -/

section Invariant

variable {C : Type*} (pyEq : C → C → Bool)

structure PushInv (s : PushState C) : Prop where
  sound : Sound (pushCode pyEq) s
  seen : Seen Later s
  pushed : ∀ x ∈ pushes s, ∃ d, s.row.device = some d ∧ x.2 ≤ d.pendingConfigVersion
  /-- No fetch has either, and the row's own version is fetched only once the slot
  is empty. -/
  fetched : ∀ x ∈ fetches s, ∃ d, s.row.device = some d ∧ x.2 ≤ d.pendingConfigVersion ∧
    (x.2 = d.pendingConfigVersion → d.pendingConfigJson = none)
  byPush : ∀ q ∈ s.requests, ∀ d d', q.seen.device = some d → s.row.device = some d' →
    d.pendingConfigVersion < d'.pendingConfigVersion →
    ∃ x ∈ pushes s, x.2 = d'.pendingConfigVersion

variable {pyEq}

theorem pushInv_start (rows : DeviceRows C) : PushInv pyEq (State.start rows) where
  sound := sound_start _ rows
  seen := seen_start Later rows
  pushed := by simp [pushes, State.start]
  fetched := by simp [fetches, State.start]
  byPush := by simp [State.requests, State.start]

variable {s s' : PushState C} {x : PushReturn C}

theorem pushes_of_returned
    (h : s'.returned = s.returned ++ [x]) : pushes s' = pushes s ++ (Fleet.pushed x).toList := by
  unfold pushes
  rw [h, List.filterMap_append]
  cases hx : Fleet.pushed x <;> simp [hx]

theorem fetches_of_returned (h : s'.returned = s.returned ++ [x]) :
    fetches s' = fetches s ++ (Fleet.fetched x).toList := by
  unfold fetches
  rw [h, List.filterMap_append]
  cases hx : Fleet.fetched x <;> simp [hx]

theorem PushInv.quiet (hs : PushInv pyEq s)
    (hsound : Sound (pushCode pyEq) s') (hseen : Seen Later s') (hrow : s'.row = s.row)
    (hpushes : pushes s' = pushes s) (hfetches : fetches s' = fetches s)
    (hnew : ∀ q ∈ s'.requests, q ∈ s.requests ∨ q.seen = s.row) : PushInv pyEq s' where
  sound := hsound
  seen := hseen
  pushed := by
    rw [hpushes, hrow]
    exact hs.pushed
  fetched := by
    rw [hfetches, hrow]
    exact hs.fetched
  byPush := by
    intro q hq d d' hd hd' hlt
    rw [hrow] at hd'
    rw [hpushes]
    rcases hnew q hq with hq | hq
    · exact hs.byPush q hq d d' hd hd' hlt
    · rw [hq] at hd
      cases hd.symm.trans hd'
      omega

variable {d' : Device C}

theorem PushInv.push (hs : PushInv pyEq s) (hsound : Sound (pushCode pyEq) s')
    (hseen : Seen Later s') (config : C) (hrows : s.row.device = some d')
    (hversion : s'.row.version = some (d'.pendingConfigVersion + 1))
    (hpushes : pushes s' = pushes s ++ [(config, d'.pendingConfigVersion + 1)])
    (hfetches : fetches s' = fetches s) : PushInv pyEq s' := by
  obtain ⟨e, he, hever⟩ := Option.map_eq_some_iff.1 hversion
  refine ⟨hsound, hseen, ?_, ?_, ?_⟩
  · intro x hx
    refine ⟨e, he, ?_⟩
    rw [hpushes] at hx
    rcases List.mem_append.1 hx with hx | hx
    · obtain ⟨d, hd, hle⟩ := hs.pushed x hx
      cases hrows.symm.trans hd
      omega
    · rw [List.mem_singleton.1 hx, hever]
  · intro x hx
    rw [hfetches] at hx
    obtain ⟨d, hd, hle, -⟩ := hs.fetched x hx
    cases hrows.symm.trans hd
    exact ⟨e, he, by omega, fun heq => by omega⟩
  · intro q _ d e' _ he' _
    cases he.symm.trans he'
    refine ⟨_, by rw [hpushes]; exact List.mem_append_right _ (List.mem_singleton_self _), ?_⟩
    exact hever.symm

theorem PushInv.take (hs : PushInv pyEq s)
    (hsound : Sound (pushCode pyEq) s') (hseen : Seen Later s') (config : C)
    {v : Nat} (hle : v ≤ d'.pendingConfigVersion) (hrows : s.row.device = some d')
    (hnew : s'.row.device = some { d' with pendingConfigJson := none })
    (hpushes : pushes s' = pushes s) (hfetches : fetches s' = fetches s ++ [(config, v)])
    (hreq : s'.requests = s.requests) : PushInv pyEq s' := by
  refine ⟨hsound, hseen, ?_, ?_, ?_⟩
  · intro x hx
    rw [hpushes] at hx
    obtain ⟨d, hd, hxle⟩ := hs.pushed x hx
    cases hrows.symm.trans hd
    exact ⟨_, hnew, hxle⟩
  · intro x hx
    rw [hfetches] at hx
    refine ⟨_, hnew, ?_, fun _ => rfl⟩
    rcases List.mem_append.1 hx with hx | hx
    · obtain ⟨d, hd, hxle, -⟩ := hs.fetched x hx
      cases hrows.symm.trans hd
      exact hxle
    · rw [List.mem_singleton.1 hx]
      exact hle
  · intro q hq d e hd he hlt
    rw [hreq] at hq
    rw [hpushes]
    cases hnew.symm.trans he
    exact hs.byPush q hq d d' hd hrows hlt

theorem later_step {e : Event (PushCall C)} (hs : PushInv pyEq s)
    (h : (pushMachine pyEq).step s e = some s') : Seen Later s' :=
  seen_step Later.refl Later.trans later_write hs.sound hs.seen h

theorem Later.version_le {seen rows : DeviceRows C} {d : Device C} (h : Later seen rows)
    (hd : seen.device = some d) (hd' : rows.device = some d') :
    d.pendingConfigVersion ≤ d'.pendingConfigVersion := by
  obtain ⟨e, he, hle, -⟩ := h.device d hd
  cases hd'.symm.trans he
  exact hle

theorem pushInv_step (s : PushState C) (e : Event (PushCall C)) (s' : PushState C)
    (hs : PushInv pyEq s) (h : (pushMachine pyEq).step s e = some s') : PushInv pyEq s' := by
  have hsound : Sound (pushCode pyEq) s' := sound_step hs.sound h
  have hseen : Seen Later s' := later_step hs h
  cases step_effect hs.sound h with
  | select c hrow hret hreq =>
    refine hs.quiet hsound hseen hrow (by simp [pushes, hret]) (by simp [fetches, hret]) ?_
    intro q hq
    rw [hreq] at hq
    rcases List.mem_append.1 hq with hq | hq
    · exact .inl hq
    · rw [List.mem_singleton.1 hq]
      exact .inr rfl
  | silent hrow hret hreq _ =>
    exact hs.quiet hsound hseen hrow (by simp [pushes, hret]) (by simp [fetches, hret])
      fun q hq => .inl (hreq ▸ hq)
  | readOnly i t r ht _ hplan hrow hret hreq =>
    cases pushCode_done hplan
    refine hs.quiet hsound hseen hrow ?_ ?_ fun q hq => .inl (hreq ▸ hq)
    · simp [pushes_of_returned hret, Fleet.pushed]
    · simp [fetches_of_returned hret, Fleet.fetched]
  | write i t r update ht _ hplan hrow hret hreq =>
    have hlater : Later t.req.seen s.row := hs.seen t.req (mem_requests ht)
    cases pushCode_written hlater hplan hrow with
    | push tenantId config pushedBy now hcall hrows hversion _ =>
      refine hs.push hsound hseen config hrows hversion ?_ ?_
      · simp [pushes_of_returned hret, Fleet.pushed, hcall]
      · simp [fetches_of_returned hret, Fleet.fetched]
    | @take d d' config hcall hd _ hrows hnew =>
      refine hs.take hsound hseen config (hlater.version_le hd hrows) hrows hnew
        ?_ ?_ hreq
      · simp [pushes_of_returned hret, Fleet.pushed, hcall]
      · simp [fetches_of_returned hret, Fleet.fetched]

end Invariant

/-! ## The versions -/

section Versions

variable {C : Type*} {pyEq : C → C → Bool}

/-- `device_config_history`, as configurations and versions. -/
def DeviceRows.recorded (rows : DeviceRows C) : List (C × Nat) :=
  rows.history.map fun h => (h.configJson, h.configVersion)

/-- From rows with version `v`: the pushes that have returned are those of the history, and their
versions go on from `v`. -/
structure Numbered (rows : DeviceRows C) (v : Nat) (s : PushState C) : Prop where
  recorded : s.row.recorded = rows.recorded ++ pushes s
  versions : (pushes s).map Prod.snd = List.range' (v + 1) (pushes s).length
  version : s.row.version = some (v + (pushes s).length)

variable {rows : DeviceRows C} {v : Nat} {s s' : PushState C}

theorem Numbered.quiet (h : Numbered rows v s) (hrecorded : s'.row.recorded = s.row.recorded)
    (hversion : s'.row.version = s.row.version) (hpushes : pushes s' = pushes s) :
    Numbered rows v s' := by
  refine ⟨?_, ?_, ?_⟩
  · rw [hrecorded, hpushes, h.recorded]
  · rw [hpushes, h.versions]
  · rw [hversion, hpushes, h.version]

theorem numbered_step {e : Event (PushCall C)} (hs : PushInv pyEq s) (h : Numbered rows v s)
    (hstep : (pushMachine pyEq).step s e = some s') : Numbered rows v s' := by
  cases step_effect hs.sound hstep with
  | select _ hrow hret _ | silent hrow hret _ _ =>
    exact h.quiet (by rw [hrow]) (by rw [hrow]) (by simp [pushes, hret])
  | readOnly i t r ht _ hplan hrow hret _ =>
    cases pushCode_done hplan
    exact h.quiet (by rw [hrow]) (by rw [hrow]) (by simp [pushes_of_returned hret, pushed])
  | write i t r update ht _ hplan hrow hret _ =>
    have hlater : Later t.req.seen s.row := hs.seen t.req (mem_requests ht)
    obtain ⟨d, hd, ⟨tenantId, config, pushedBy, now, hcall, rfl, rfl⟩ | ⟨_, _, _, rfl, rfl⟩⟩ :=
      pushCode_write hplan
    · obtain ⟨d', hd', hsame, hversion, -, -⟩ := pushStatements_ok hd hlater hrow
      have hcount : d.pendingConfigVersion = v + (pushes s).length := by
        simpa [DeviceRows.version, hd', hsame] using h.version
      have hpushes : pushes s' = pushes s ++ [(config, v + (pushes s).length + 1)] := by
        simp [pushes_of_returned hret, pushed, hcall, hcount]
      have hhistory : s'.row.history =
          s.row.history ++ [⟨d.pendingConfigVersion + 1, config, now, pushedBy⟩] := by
        unfold pushStatements at hrow
        rw [hd'] at hrow
        dsimp only at hrow
        split at hrow
        · cases hrow
        · rw [← Except.ok.inj hrow]
      refine ⟨?_, ?_, ?_⟩
      · rw [DeviceRows.recorded, hhistory, List.map_append, hpushes, ← List.append_assoc,
          ← h.recorded, ← hcount]
        rfl
      · rw [hpushes, List.map_append, h.versions, List.length_append, List.length_singleton,
          List.range'_concat]
        simp only [List.map_cons, List.map_nil, Nat.one_mul, Nat.add_right_comm]
      · rw [hversion, hpushes, List.length_append, hcount]
        rfl
    · obtain ⟨d', hd', hnew, -⟩ := takeStatements_ok hrow
      refine h.quiet ?_ ?_ (by simp [pushes_of_returned hret, pushed])
      · rw [takeStatements, hd'] at hrow
        rw [← Except.ok.inj hrow]
        rfl
      · simp [DeviceRows.version, hnew, hd']

/-- **Every push has a version of its own.**  However the calls interleave, the pushes that have
returned are, in the order of their commits, the new rows of the history, and their versions are
the next numbers, without a gap; the last one is the version of the device. -/
theorem versions_run {d : Device C} {es : List (Event (PushCall C))} (hd : rows.device = some d)
    (hrun : (pushMachine pyEq).run (State.start rows) es = some s) :
    s.row.recorded = rows.recorded ++ pushes s ∧
      (pushes s).map Prod.snd = List.range' (d.pendingConfigVersion + 1) (pushes s).length ∧
      s.row.version = some (d.pendingConfigVersion + (pushes s).length) := by
  have h : PushInv pyEq s ∧ Numbered rows d.pendingConfigVersion s := by
    refine (pushMachine pyEq).inv_run
      (I := fun s => PushInv pyEq s ∧ Numbered rows d.pendingConfigVersion s) ?_
      ⟨pushInv_start rows, ?_⟩ hrun
    · rintro s e s' ⟨hs, hn⟩ hstep
      exact ⟨pushInv_step s e s' hs hstep, numbered_step hs hn hstep⟩
    · constructor <;> simp [pushes, State.start, DeviceRows.version, hd]
  exact ⟨h.2.recorded, h.2.versions, h.2.version⟩

end Versions

/-! ## Exactly when nothing is lost -/

section Exactness

variable {C : Type*} {pyEq : C → C → Bool}

variable {s s' : PushState C}

theorem noneLost_congr (hrow : s'.row = s.row)
    (hpushes : pushes s' = pushes s) (hfetches : fetches s' = fetches s) :
    NoneLost s' ↔ NoneLost s := by
  unfold NoneLost
  rw [hrow, hpushes, hfetches]

variable {config : C} {d' : Device C}

/-- The commit of a push loses nothing just in case its own configuration is
pending then: every earlier push is superseded by it. -/
theorem noneLost_push (hs : PushInv pyEq s) (hrows : s.row.device = some d')
    (hversion : s'.row.version = some (d'.pendingConfigVersion + 1))
    (hpushes : pushes s' = pushes s ++ [(config, d'.pendingConfigVersion + 1)])
    (hfetches : fetches s' = fetches s) :
    NoneLost s' ↔ s'.row.pending = some config := by
  have hold : ∀ x ∈ pushes s, x.2 < d'.pendingConfigVersion + 1 := by
    intro x hx
    obtain ⟨d, hd, hle⟩ := hs.pushed x hx
    cases hrows.symm.trans hd
    omega
  have hself : (config, d'.pendingConfigVersion + 1) ∈ pushes s' := by
    rw [hpushes]
    exact List.mem_append_right _ (List.mem_singleton_self _)
  constructor
  · intro h
    rcases h _ hself with hpending | hfetch | ⟨y, hy, hlt⟩
    · exact hpending.1
    · rw [hfetches] at hfetch
      obtain ⟨d, hd, hle, -⟩ := hs.fetched _ hfetch
      cases hrows.symm.trans hd
      omega
    · rw [hpushes] at hy
      rcases List.mem_append.1 hy with hy | hy
      · have hylt := hold y hy
        omega
      · rw [List.mem_singleton.1 hy] at hlt
        omega
  · intro hpending x hx
    rw [hpushes] at hx
    rcases List.mem_append.1 hx with hx | hx
    · exact .inr (.inr ⟨_, hself, hold x hx⟩)
    · rw [List.mem_singleton.1 hx]
      exact .inl ⟨hpending, hversion⟩

/-- The commit of a fetch loses nothing just in case the slot was empty already or
the row's version is the one that is returned. -/
theorem noneLost_take (hs : PushInv pyEq s) (hlost : NoneLost s)
    {q : Request (DeviceRows C) (PushCall C) (PushResult C)} (hq : q ∈ s.requests)
    {d : Device C} (hd : q.seen.device = some d)
    (hconfig : d.pendingConfigJson = some config) (hrows : s.row.device = some d')
    (hnew : s'.row.device = some { d' with pendingConfigJson := none })
    (hpushes : pushes s' = pushes s)
    (hfetches : fetches s' = fetches s ++ [(config, d.pendingConfigVersion)]) :
    NoneLost s' ↔
      s.row.pending = none ∨ s.row.version = some d.pendingConfigVersion := by
  have hpend : s.row.pending = d'.pendingConfigJson := by simp [DeviceRows.pending, hrows]
  have hver : s.row.version = some d'.pendingConfigVersion := by
    simp [DeviceRows.version, hrows]
  rw [hpend, hver, Option.some.injEq]
  constructor
  · intro h
    by_contra hnot
    rw [not_or] at hnot
    obtain ⟨hfull, hne⟩ := hnot
    -- the version that was not seen is that of a push, which is now nowhere
    have hlt : d.pendingConfigVersion < d'.pendingConfigVersion :=
      lt_of_le_of_ne ((hs.seen q hq).version_le hd hrows) (Ne.symm hne)
    obtain ⟨x, hx, hxv⟩ := hs.byPush q hq d d' hd hrows hlt
    rcases h x (hpushes ▸ hx) with hpending | hfetch | ⟨y, hy, hxy⟩
    · have hnone := hpending.1
      rw [DeviceRows.pending, hnew] at hnone
      cases hnone
    · rw [hfetches] at hfetch
      rcases List.mem_append.1 hfetch with hfetch | hfetch
      · obtain ⟨e, he, -, hempty⟩ := hs.fetched x hfetch
        cases hrows.symm.trans he
        exact hfull (hempty hxv)
      · rw [List.mem_singleton.1 hfetch] at hxv
        omega
    · obtain ⟨e, he, hle⟩ := hs.pushed y (hpushes ▸ hy)
      cases hrows.symm.trans he
      omega
  · intro h x hx
    rw [hpushes] at hx ⊢
    rw [hfetches]
    rcases hlost x hx with ⟨hxpend, hxver⟩ | hfetch | hsup
    · rw [hpend] at hxpend
      rw [hver, Option.some.injEq] at hxver
      -- the push is pending: so it is what the fetch has read
      rcases h with hnone | hsame
      · rw [hnone] at hxpend
        cases hxpend
      · obtain ⟨e, he, -, -, hkept⟩ := (hs.seen q hq).device d hd
        cases hrows.symm.trans he
        rcases hkept hsame with hnone | hkeep
        · rw [hnone] at hxpend
          cases hxpend
        · rw [hkeep, hconfig] at hxpend
          cases hxpend
          rw [hsame] at hxver
          refine .inr (.inl (List.mem_append_right _ (List.mem_singleton.2 ?_)))
          rw [hxver]
    · exact .inr (.inl (List.mem_append_left _ hfetch))
    · exact .inr (.inr hsup)

variable [DecidableEq C]

theorem noneLost_step (s : PushState C) (e : Event (PushCall C)) (s' : PushState C)
    (hs : PushInv pyEq s) (hlost : NoneLost s) (h : (pushMachine pyEq).step s e = some s') :
    NoneLost s' ↔ noOvertaking pyEq s e = true := by
  cases step_effect hs.sound h with
  | select c hrow hret hreq =>
    have hkeep := noneLost_congr hrow (by simp [pushes, hret]) (by simp [fetches, hret])
    simp [hkeep, hlost, noOvertaking]
  | silent hrow hret hreq hcommit =>
    have hkeep := noneLost_congr hrow (by simp [pushes, hret]) (by simp [fetches, hret])
    cases e with
    | commit i => exact (hcommit i rfl).elim
    | select | flush | abort => simp [hkeep, hlost, noOvertaking]
  | readOnly i t r ht hphase hplan hrow hret hreq =>
    cases pushCode_done hplan
    have hkeep : NoneLost s' ↔ NoneLost s := by
      refine noneLost_congr hrow ?_ ?_
      · simp [pushes_of_returned hret, pushed]
      · simp [fetches_of_returned hret, fetched]
    obtain ⟨q, p⟩ := t
    cases hphase
    simp [hkeep, hlost, noOvertaking, ht]
  | write i t r update ht hphase hplan hrow hret hreq =>
    have hlater : Later t.req.seen s.row := hs.seen t.req (mem_requests ht)
    obtain ⟨q, p⟩ := t
    cases hphase
    cases pushCode_written hlater hplan hrow with
    | push tenantId config pushedBy now hcall hrows hversion hpending =>
      obtain ⟨call, seen, before⟩ := q
      cases hcall
      have hpushes : pushes s' = pushes s ++ [(config, _)] := pushes_of_returned hret
      have hfetches : fetches s' = fetches s := by simp [fetches_of_returned hret, fetched]
      rw [noneLost_push hs hrows hversion hpushes hfetches, hpending]
      simp only [noOvertaking, ht, decide_eq_true_eq]
      by_cases hsame : unchanged pyEq seen.pending config = true
      · simp [hsame]
      · simp [hsame]
    | take hcall hd hconfig hrows hnew =>
      rw [noneLost_take hs hlost (mem_requests ht) hd hconfig hrows hnew
        (by simp [pushes_of_returned hret, pushed])
        (by simp [fetches_of_returned hret, fetched])]
      simp only [noOvertaking, ht, decide_eq_true_eq]

/-- **No pushed configuration is lost at any moment just in case no commit
overtakes another.**  The rows may be any rows; calls of either kind, any number
of them, may interleave in any way. -/
theorem none_lost_iff (rows : DeviceRows C) (es : List (Event (PushCall C))) (s : PushState C)
    (hrun : (pushMachine pyEq).run (State.start rows) es = some s) :
    (pushMachine pyEq).Always NoneLost (State.start rows) es ↔
      (pushMachine pyEq).Meets (fun s e => noOvertaking pyEq s e = true)
        (State.start rows) es := by
  have hzero : NoneLost (State.start rows : PushState C) := by
    intro x hx
    cases hx
  exact (pushMachine pyEq).always_iff_meets pushInv_step noneLost_step (pushInv_start rows)
    hzero hrun

end Exactness

/-! ### A push and a fetch at once -/

def idleDevice : DeviceRows Nat := ⟨some ⟨7, none, 3⟩, []⟩

def pushFetchPush : List (Event (PushCall Nat)) :=
  [.select (.queue 7 10 "admin" 0), .flush 0, .commit 0, .select .take, .flush 1, .commit 1,
    .select (.queue 7 20 "admin" 1), .flush 2, .commit 2]

theorem none_lost_pushFetchPush :
    ∃ s, (pushMachine (· == ·)).run (State.start idleDevice) pushFetchPush = some s ∧
      (pushMachine (· == ·)).Always NoneLost (State.start idleDevice) pushFetchPush := by
  obtain ⟨s, hs, -⟩ := Option.map_eq_some_iff.1
    (show ((pushMachine (· == ·)).run (State.start idleDevice) pushFetchPush).map
      (fun s => s.returned.map Prod.snd) =
        some [.version 4, .config (some (10, 4)), .version 5] by decide +kernel)
  exact ⟨s, hs, (none_lost_iff _ _ s hs).2 (by decide +kernel)⟩

/-- A fetch reads the first push; the second is committed before the fetch. -/
def pushUnderFetch : List (Event (PushCall Nat)) :=
  [.select (.queue 7 10 "admin" 0), .flush 0, .commit 0, .select .take,
    .select (.queue 7 20 "admin" 1), .flush 2, .commit 2, .flush 1, .commit 1]

theorem versions_pushUnderFetch :
    ∃ s, (pushMachine (· == ·)).run (State.start idleDevice) pushUnderFetch = some s ∧
      (pushes s).length = 2 ∧ (pushes s).map Prod.snd = List.range' 4 (pushes s).length := by
  obtain ⟨s, hs, hlen⟩ := Option.map_eq_some_iff.1
    (show ((pushMachine (· == ·)).run (State.start idleDevice) pushUnderFetch).map
      (fun s => (pushes s).length) = some 2 by decide +kernel)
  exact ⟨s, hs, hlen, (versions_run rfl hs).2.1⟩

/-- The second push has returned version 5; it is not pending, nobody fetched it,
and nothing supersedes it. -/
theorem push_lost_under_take :
    ∃ s, (pushMachine (· == ·)).run (State.start idleDevice) pushUnderFetch = some s ∧
      s.returned.map Prod.snd = [.version 4, .version 5, .config (some (10, 4))] ∧
      s.row.pending = none ∧ ¬ NoneLost s := by
  obtain ⟨s, hs, hv⟩ := Option.map_eq_some_iff.1
    (show ((pushMachine (· == ·)).run (State.start idleDevice) pushUnderFetch).map
      (fun s => (s.returned.map Prod.snd, s.row.pending, pushes s, fetches s)) =
        some ([.version 4, .version 5, .config (some (10, 4))], none, [(10, 4), (20, 5)],
          [(10, 4)]) by decide +kernel)
  simp only [Prod.mk.injEq] at hv
  obtain ⟨hresults, hpending, hpushes, hfetches⟩ := hv
  refine ⟨s, hs, hresults, hpending, fun h => ?_⟩
  have hlost := h (20, 5) (by rw [hpushes]; simp)
  simp [Pending, hpending, hpushes, hfetches] at hlost

end XEdge.Fleet
