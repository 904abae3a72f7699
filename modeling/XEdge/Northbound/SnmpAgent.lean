import XEdge.Core.Alarms
import XEdge.Core.Connectivity
import XEdge.Core.WriteRouter

/-!
# The SNMP agent (`xedge/northbound/snmp_agent.py`)

The agent shows every driver instance as a row of a table, and how many alarms are in each state.
Every few seconds a pass compares the supervisor's instances with those that the last complete pass
has left in `_known_instance_ids`: it creates rows, updates rows, destroys rows, and then notes the
instances and sets the alarm counts.  A row write that raises ends the pass; the loop logs the error
and goes on with the next pass.

A row is created with `createAndGo`, which is refused for a row that exists.
-/

namespace XEdge.Northbound

open Lib XEdge.Core

/-! ## The table -/

/-- `DriverInstanceStatus`, as far as the agent reads it. -/
structure DriverInstanceStatus where
  driverType : String
  state : Supervision.DriverState
  connectivityState : ConnectivityState
  deriving DecidableEq

/-- The columns of a row of `driverTable`. -/
structure DriverRow where
  driverType : String
  driverState : String
  driverConnectivityState : String
  deriving DecidableEq

/-- `ConnectivityState.value`. -/
def connectivityStateValue : ConnectivityState → String
  | .unknown => "unknown"
  | .connected => "connected"
  | .degraded => "degraded"
  | .notConnected => "not_connected"

def DriverInstanceStatus.row (status : DriverInstanceStatus) : DriverRow :=
  ⟨status.driverType, stateText status.state, connectivityStateValue status.connectivityState⟩

abbrev DriverTable := Dict String DriverRow

/-- A call of `write_variables`. -/
inductive RowWrite where
  /-- `_create_driver_row`. -/
  | create (instanceId : String) (row : DriverRow)
  /-- `_update_driver_row`. -/
  | update (instanceId : String) (row : DriverRow)
  /-- `_remove_driver_row`. -/
  | remove (instanceId : String)
  deriving DecidableEq

namespace RowWrite

def instanceId : RowWrite → String
  | create instanceId _ => instanceId
  | update instanceId _ => instanceId
  | remove instanceId => instanceId

/-- What the write makes of the row; nothing when it is refused. -/
def result : RowWrite → Option DriverRow → Option (Option DriverRow)
  | create _ row, none => some (some row)
  -- `createAndGo` for a row that exists: `InconsistentValueError`
  | create _ _, some _ => none
  -- writing columns does not make a row appear
  | update _ row, old => some (old.map fun _ => row)
  | remove _, _ => some none

/-- One call.  `fails` says for which instances the call raises in this pass. -/
def apply (w : RowWrite) (fails : String → Bool) (table : DriverTable) : Option DriverTable :=
  if fails w.instanceId then none
  else
    (w.result (table.get? w.instanceId)).map fun row =>
      match row with
      | some row => table.set w.instanceId row
      | none => table.erase w.instanceId

end RowWrite

/-- Make the writes, up to the first that raises: the table, and the writes that are not made. -/
def writeAll (fails : String → Bool) : DriverTable → List RowWrite → DriverTable × List RowWrite
  | table, [] => (table, [])
  | table, w :: ws =>
      match w.apply fails table with
      | none => (table, w :: ws)
      | some table' => writeAll fails table' ws

/-! ## The agent -/

structure SyncPass where
  /-- `supervisor.all_status()`. -/
  statuses : Dict String DriverInstanceStatus
  /-- `alarm_engine.all_status()`, if there is an engine. -/
  alarms : Option (Dict String AlarmStatus)
  fails : String → Bool
  order : List String → List String
  perm_order : ∀ ids, (order ids).Perm ids

/-- `SnmpAgentService`, with the table and the counts it shows. -/
structure SnmpAgent where
  knownInstanceIds : List String
  nodup_known : knownInstanceIds.Nodup
  table : DriverTable
  alarmCounts : AlarmState → Nat

/-- `_sync_alarm_counts`: the counts. -/
def alarmCountsOf (alarms : Option (Dict String AlarmStatus)) (state : AlarmState) : Nat :=
  match alarms with
  | none => 0
  | some statuses => (statuses.values.filter fun status => status.state = state).length

structure SyncResult where
  agent : SnmpAgent
  unmade : List RowWrite
  /-- Whether `_sync_alarm_counts` is reached. -/
  counted : Bool

namespace SnmpAgent

/-- The agent after `start`. -/
def start : SnmpAgent := ⟨[], .nil, .empty, fun _ => 0⟩

variable (s : SnmpAgent) (p : SyncPass)

/-- `current_ids - self._known_instance_ids`. -/
def createdIds : List String := p.order (p.statuses.keys.filter (· ∉ s.knownInstanceIds))

/-- `current_ids & self._known_instance_ids`. -/
def updatedIds : List String := p.order (p.statuses.keys.filter (· ∈ s.knownInstanceIds))

/-- `self._known_instance_ids - current_ids`. -/
def removedIds : List String := p.order (s.knownInstanceIds.filter (· ∉ p.statuses.keys))

def statusWrites (p : SyncPass) (write : String → DriverRow → RowWrite) (ids : List String) :
    List RowWrite :=
  ids.filterMap fun id => (p.statuses.get? id).map fun status => write id status.row

def rowWrites : List RowWrite :=
  statusWrites p .create (s.createdIds p) ++
    (statusWrites p .update (s.updatedIds p) ++ (s.removedIds p).map .remove)

/-- `_sync_once`, and `_sync_loop` catching what it raises. -/
def syncOnce : SyncResult :=
  let (table, unmade) := writeAll p.fails s.table (s.rowWrites p)
  if unmade = [] then ⟨⟨p.statuses.keys, p.statuses.nodup, table, alarmCountsOf p.alarms⟩, [], true⟩
  else ⟨{ s with table }, unmade, false⟩

def RowWritesSucceed : Prop := ∀ w ∈ s.rowWrites p, p.fails w.instanceId = false

def Serves : Prop :=
  (∀ w ∈ s.rowWrites p, (w.apply p.fails s.table).isSome → w ∉ (s.syncOnce p).unmade) ∧
    (s.syncOnce p).counted = true

def Shows : Prop :=
  (∀ id, s.table.get? id = (p.statuses.get? id).map DriverInstanceStatus.row) ∧
    s.alarmCounts = alarmCountsOf p.alarms

end SnmpAgent

/-- The passes of `_sync_loop`. -/
def syncMachine : Machine SnmpAgent SyncPass := ⟨fun s p => some (s.syncOnce p).agent⟩

/-! ## What the writes do -/

section Writes

variable {fails : String → Bool} {table table' : DriverTable} {w : RowWrite} {ws : List RowWrite}

theorem RowWrite.apply_eq_some (h : w.apply fails table = some table') :
    fails w.instanceId = false ∧
      w.result (table.get? w.instanceId) = some (table'.get? w.instanceId) ∧
      ∀ j, j ≠ w.instanceId → table'.get? j = table.get? j := by
  unfold RowWrite.apply at h
  split at h
  · cases h
  · next hfails =>
    obtain ⟨row, hresult, rfl⟩ := Option.map_eq_some_iff.1 h
    refine ⟨Bool.eq_false_iff.2 hfails, ?_, ?_⟩
    · rw [hresult]
      cases row with
      | some row => rw [Dict.get?_set_self]
      | none => rw [Dict.get?_erase, if_pos rfl]
    · intro j hj
      cases row with
      | some row => exact Dict.get?_set_of_ne _ _ hj
      | none => rw [Dict.get?_erase, if_neg hj]

theorem RowWrite.isSome_apply_iff :
    (w.apply fails table).isSome ↔
      fails w.instanceId = false ∧ (w.result (table.get? w.instanceId)).isSome := by
  unfold RowWrite.apply
  cases fails w.instanceId <;> simp

theorem get?_writeAll_of_notMem {j : String} (h : j ∉ ws.map RowWrite.instanceId) :
    (writeAll fails table ws).1.get? j = table.get? j := by
  induction ws generalizing table with
  | nil => rfl
  | cons w ws ih =>
    rw [List.map_cons, List.mem_cons, not_or] at h
    unfold writeAll
    split
    · rfl
    · next table' happly =>
      rw [ih h.2]
      exact (RowWrite.apply_eq_some happly).2.2 j h.1

theorem result_of_writeAll (hnodup : (ws.map RowWrite.instanceId).Nodup)
    (hdone : (writeAll fails table ws).2 = []) (hw : w ∈ ws) :
    fails w.instanceId = false ∧ w.result (table.get? w.instanceId) =
      some ((writeAll fails table ws).1.get? w.instanceId) := by
  induction ws generalizing table with
  | nil => cases hw
  | cons v ws ih =>
    rw [List.map_cons, List.nodup_cons] at hnodup
    unfold writeAll at hdone ⊢
    cases happly : v.apply fails table with
    | none =>
      rw [happly] at hdone
      cases hdone
    | some table' =>
      rw [happly] at hdone
      obtain ⟨hfails, hresult, hother⟩ := RowWrite.apply_eq_some happly
      obtain rfl | hw := List.mem_cons.1 hw
      · refine ⟨hfails, hresult.trans ?_⟩
        exact congrArg some (get?_writeAll_of_notMem hnodup.1).symm
      · have hne : w.instanceId ≠ v.instanceId := by
          rintro heq
          exact hnodup.1 (heq ▸ List.mem_map_of_mem hw)
        rw [← hother _ hne]
        exact ih hnodup.2 hdone hw

theorem writeAll_of_accepted (hnodup : (ws.map RowWrite.instanceId).Nodup)
    (h : ∀ w ∈ ws, (w.apply fails table).isSome) : (writeAll fails table ws).2 = [] := by
  induction ws generalizing table with
  | nil => rfl
  | cons v ws ih =>
    rw [List.map_cons, List.nodup_cons] at hnodup
    obtain ⟨table', happly⟩ := Option.isSome_iff_exists.1 (h v List.mem_cons_self)
    unfold writeAll
    rw [happly]
    refine ih hnodup.2 fun w hw => ?_
    have hne : w.instanceId ≠ v.instanceId := by
      rintro heq
      exact hnodup.1 (heq ▸ List.mem_map_of_mem hw)
    have hwas := h w (List.mem_cons_of_mem _ hw)
    rw [RowWrite.isSome_apply_iff] at hwas ⊢
    rwa [(RowWrite.apply_eq_some happly).2.2 _ hne]

end Writes

/-! ## A pass -/

namespace SnmpAgent

variable {s : SnmpAgent} {p : SyncPass} {id : String}

theorem mem_createdIds : id ∈ s.createdIds p ↔ id ∈ p.statuses.keys ∧ id ∉ s.knownInstanceIds := by
  rw [createdIds, (p.perm_order _).mem_iff, List.mem_filter, decide_eq_true_eq]

theorem mem_updatedIds : id ∈ s.updatedIds p ↔ id ∈ p.statuses.keys ∧ id ∈ s.knownInstanceIds := by
  rw [updatedIds, (p.perm_order _).mem_iff, List.mem_filter, decide_eq_true_eq]

theorem mem_removedIds : id ∈ s.removedIds p ↔ id ∈ s.knownInstanceIds ∧ id ∉ p.statuses.keys := by
  rw [removedIds, (p.perm_order _).mem_iff, List.mem_filter, decide_eq_true_eq]

variable {ids : List String}

theorem map_statusWrites (write : String → DriverRow → RowWrite)
    (hwrite : ∀ id row, (write id row).instanceId = id) (hids : ∀ id ∈ ids, id ∈ p.statuses.keys) :
    (statusWrites p write ids).map RowWrite.instanceId = ids := by
  induction ids with
  | nil => rfl
  | cons id ids ih =>
    obtain ⟨status, hstatus⟩ := (Dict.mem_keys _).1 (hids id List.mem_cons_self)
    have htail := ih fun j hj => hids j (List.mem_cons_of_mem _ hj)
    rw [statusWrites] at htail
    rw [statusWrites, List.filterMap_cons, hstatus]
    simp only [Option.map_some, List.map_cons, hwrite, htail]

variable {w : RowWrite}

theorem mem_statusWrites {write : String → DriverRow → RowWrite} : w ∈ statusWrites p write ids ↔
      ∃ id ∈ ids, ∃ status, p.statuses.get? id = some status ∧ w = write id status.row := by
  rw [statusWrites, List.mem_filterMap]
  refine exists_congr fun id => and_congr_right fun _ => ?_
  rw [Option.map_eq_some_iff]
  exact exists_congr fun status => and_congr_right fun _ => eq_comm

theorem map_rowWrites (s : SnmpAgent) (p : SyncPass) :
    (s.rowWrites p).map RowWrite.instanceId =
      s.createdIds p ++ (s.updatedIds p ++ s.removedIds p) := by
  have hcreated := map_statusWrites .create (fun _ _ => rfl)
    fun id (hid : id ∈ s.createdIds p) => (mem_createdIds.1 hid).1
  have hupdated := map_statusWrites .update (fun _ _ => rfl)
    fun id (hid : id ∈ s.updatedIds p) => (mem_updatedIds.1 hid).1
  rw [rowWrites, List.map_append, List.map_append, hcreated, hupdated, List.map_map]
  exact congrArg _ (congrArg _ (List.map_id _))

theorem nodup_rowWrites (s : SnmpAgent) (p : SyncPass) :
    ((s.rowWrites p).map RowWrite.instanceId).Nodup := by
  have hkeys : p.statuses.keys.Nodup := p.statuses.nodup
  rw [map_rowWrites, List.nodup_append', List.nodup_append']
  refine ⟨(p.perm_order _).nodup_iff.2 (hkeys.filter _), ⟨(p.perm_order _).nodup_iff.2
    (hkeys.filter _), (p.perm_order _).nodup_iff.2 (s.nodup_known.filter _), ?_⟩, ?_⟩
  · intro id hupdated hremoved
    exact (mem_removedIds.1 hremoved).2 (mem_updatedIds.1 hupdated).1
  · intro id hcreated hother
    obtain hupdated | hremoved := List.mem_append.1 hother
    · exact (mem_createdIds.1 hcreated).2 (mem_updatedIds.1 hupdated).2
    · exact (mem_createdIds.1 hcreated).2 (mem_removedIds.1 hremoved).1

theorem mem_rowWrites : w ∈ s.rowWrites p ↔
    (∃ id status, p.statuses.get? id = some status ∧ id ∉ s.knownInstanceIds ∧
      w = .create id status.row) ∨
    (∃ id status, p.statuses.get? id = some status ∧ id ∈ s.knownInstanceIds ∧
      w = .update id status.row) ∨
    ∃ id, p.statuses.get? id = none ∧ id ∈ s.knownInstanceIds ∧ w = .remove id := by
  rw [rowWrites, List.mem_append, List.mem_append, mem_statusWrites, mem_statusWrites,
    List.mem_map]
  refine or_congr ?_ (or_congr ?_ ?_)
  · constructor
    · rintro ⟨id, hid, status, hstatus, rfl⟩
      exact ⟨id, status, hstatus, (mem_createdIds.1 hid).2, rfl⟩
    · rintro ⟨id, status, hstatus, hknown, rfl⟩
      exact ⟨id, mem_createdIds.2 ⟨(Dict.mem_keys _).2 ⟨status, hstatus⟩, hknown⟩, status,
        hstatus, rfl⟩
  · constructor
    · rintro ⟨id, hid, status, hstatus, rfl⟩
      exact ⟨id, status, hstatus, (mem_updatedIds.1 hid).2, rfl⟩
    · rintro ⟨id, status, hstatus, hknown, rfl⟩
      exact ⟨id, mem_updatedIds.2 ⟨(Dict.mem_keys _).2 ⟨status, hstatus⟩, hknown⟩, status,
        hstatus, rfl⟩
  · constructor
    · rintro ⟨id, hid, rfl⟩
      obtain ⟨hknown, hgone⟩ := mem_removedIds.1 hid
      exact ⟨id, (Dict.get?_eq_none_iff _).2 hgone, hknown, rfl⟩
    · rintro ⟨id, hgone, hknown, rfl⟩
      exact ⟨id, mem_removedIds.2 ⟨hknown, (Dict.get?_eq_none_iff _).1 hgone⟩, rfl⟩

theorem syncOnce_of_done (h : (writeAll p.fails s.table (s.rowWrites p)).2 = []) :
    s.syncOnce p = ⟨⟨p.statuses.keys, p.statuses.nodup,
      (writeAll p.fails s.table (s.rowWrites p)).1, alarmCountsOf p.alarms⟩, [], true⟩ := by
  exact if_pos h

theorem syncOnce_of_raised (h : (writeAll p.fails s.table (s.rowWrites p)).2 ≠ []) :
    s.syncOnce p = ⟨{ s with table := (writeAll p.fails s.table (s.rowWrites p)).1 },
      (writeAll p.fails s.table (s.rowWrites p)).2, false⟩ := by
  rw [syncOnce]
  exact if_neg h

def Tracked (s : SnmpAgent) : Prop :=
  ∀ id, id ∈ s.knownInstanceIds ↔ (s.table.get? id).isSome

theorem tracked_start : Tracked start := by
  intro id
  simp [start]

theorem Tracked.writeAll_done (hs : s.Tracked) (h : s.RowWritesSucceed p) :
    (writeAll p.fails s.table (s.rowWrites p)).2 = [] := by
  refine writeAll_of_accepted (s.nodup_rowWrites p) fun w hw => ?_
  rw [RowWrite.isSome_apply_iff]
  refine ⟨h w hw, ?_⟩
  obtain ⟨id, status, -, hknown, rfl⟩ | ⟨id, status, -, -, rfl⟩ | ⟨id, -, -, rfl⟩ :=
    mem_rowWrites.1 hw
  · rw [hs id, Option.not_isSome_iff_eq_none] at hknown
    show (RowWrite.result (.create id status.row) (s.table.get? id)).isSome
    rw [hknown]
    rfl
  · rfl
  · rfl

theorem Tracked.serves_iff (hs : s.Tracked) : s.Serves p ↔ s.RowWritesSucceed p := by
  constructor
  · rintro ⟨-, hcounted⟩ w hw
    by_cases hdone : (writeAll p.fails s.table (s.rowWrites p)).2 = []
    · exact (result_of_writeAll (s.nodup_rowWrites p) hdone hw).1
    · rw [syncOnce_of_raised hdone] at hcounted
      cases hcounted
  · intro h
    rw [Serves, syncOnce_of_done (hs.writeAll_done h)]
    exact ⟨fun w _ _ => List.not_mem_nil, rfl⟩

theorem Tracked.shows (hs : s.Tracked) (h : s.RowWritesSucceed p) :
    (s.syncOnce p).agent.Shows p := by
  have hdone := hs.writeAll_done h
  rw [syncOnce_of_done hdone]
  refine ⟨fun id => ?_, rfl⟩
  have hresult := fun w hw => (result_of_writeAll (w := w) (s.nodup_rowWrites p) hdone hw).2
  by_cases hknown : id ∈ s.knownInstanceIds
  · have hrow := (hs id).1 hknown
    cases hstatus : p.statuses.get? id with
    | some status =>
      have hupdate := hresult (.update id status.row)
        (mem_rowWrites.2 (.inr (.inl ⟨id, status, hstatus, hknown, rfl⟩)))
      obtain ⟨old, hold⟩ := Option.isSome_iff_exists.1 hrow
      rw [RowWrite.instanceId, hold] at hupdate
      exact (Option.some.inj hupdate).symm
    | none =>
      have hremove := hresult (.remove id)
        (mem_rowWrites.2 (.inr (.inr ⟨id, hstatus, hknown, rfl⟩)))
      exact (Option.some.inj hremove).symm
  · have hrow : s.table.get? id = none := by
      rwa [hs id, Option.not_isSome_iff_eq_none] at hknown
    cases hstatus : p.statuses.get? id with
    | some status =>
      have hcreate := hresult (.create id status.row)
        (mem_rowWrites.2 (.inl ⟨id, status, hstatus, hknown, rfl⟩))
      rw [RowWrite.instanceId, hrow] at hcreate
      exact (Option.some.inj hcreate).symm
    | none =>
      rw [get?_writeAll_of_notMem, hrow]
      · rfl
      · rw [map_rowWrites, List.mem_append, List.mem_append, mem_createdIds, mem_updatedIds,
          mem_removedIds]
        have hgone := (Dict.get?_eq_none_iff _).1 hstatus
        tauto

theorem Tracked.next (hs : s.Tracked) (h : s.RowWritesSucceed p) :
    (s.syncOnce p).agent.Tracked := by
  intro id
  rw [(hs.shows h).1 id, syncOnce_of_done (hs.writeAll_done h), Option.isSome_map]
  exact (Dict.mem_keys _).trans Option.isSome_iff_exists.symm

end SnmpAgent

/-- **When the table converges.**  Over any passes: every pass makes all the row writes that are
accepted and sets the alarm counts, just in case no row write of any pass fails; and then after
every pass the table shows the statuses and nothing else, and the counts are right. -/
theorem driver_table_converges_iff (passes : List SyncPass) :
    (syncMachine.Meets SnmpAgent.Serves .start passes ↔
      syncMachine.Meets SnmpAgent.RowWritesSucceed .start passes) ∧
    (syncMachine.Meets SnmpAgent.RowWritesSucceed .start passes →
      ∀ front p back s, passes = front ++ p :: back →
        syncMachine.run .start (front ++ [p]) = some s → s.Shows p) := by
  have hnext : ∀ s p s', SnmpAgent.Tracked s → s.RowWritesSucceed p →
      syncMachine.step s p = some s' → s'.Tracked := by
    intro s p s' hs h hstep
    cases hstep
    exact hs.next h
  constructor
  · exact syncMachine.meets_congr (fun s p hs => hs.serves_iff) hnext SnmpAgent.tracked_start
  · rintro hmeets front p back s rfl hrun
    obtain ⟨u, hfront, hp⟩ := syncMachine.run_append_isSome hrun
    obtain ⟨hmeets, hrest⟩ := syncMachine.meets_append hfront hmeets
    have hu := syncMachine.inv_run_of_meets hnext SnmpAgent.tracked_start hmeets hfront
    rw [Machine.run_singleton] at hp
    cases hp
    exact hu.shows hrest.head

/-! ## A row that was created in a pass that failed -/

section Raised

variable (fails : String → Bool) {table : DriverTable} {ws : List RowWrite} {id : String}

theorem writeAll_append_of_raised (rest : List RowWrite) (h : (writeAll fails table ws).2 ≠ []) :
    writeAll fails table (ws ++ rest) =
      ((writeAll fails table ws).1, (writeAll fails table ws).2 ++ rest) := by
  induction ws generalizing table with
  | nil => exact absurd rfl h
  | cons w ws ih =>
    unfold writeAll at h
    rw [List.cons_append, writeAll, writeAll]
    cases happly : w.apply fails table with
    | none => rfl
    | some table' =>
      rw [happly] at h
      exact ih h

theorem writeAll_of_exists (hcreate : ∀ w ∈ ws, ∃ j row, w = .create j row)
    {row : DriverRow} (hmem : .create id row ∈ ws) (hrow : (table.get? id).isSome) :
    (writeAll fails table ws).2 ≠ [] ∧ ((writeAll fails table ws).1.get? id).isSome := by
  induction ws generalizing table with
  | nil => cases hmem
  | cons w ws ih =>
    obtain ⟨j, row', rfl⟩ := hcreate w List.mem_cons_self
    unfold writeAll
    cases happly : (RowWrite.create j row').apply fails table with
    | none => exact ⟨List.cons_ne_nil _ _, hrow⟩
    | some table' =>
      obtain ⟨-, hresult, hother⟩ := RowWrite.apply_eq_some happly
      -- the creation that was made is that of another row
      have hne : id ≠ j := by
        rintro rfl
        obtain ⟨old, hold⟩ := Option.isSome_iff_exists.1 hrow
        rw [RowWrite.instanceId, hold] at hresult
        cases hresult
      refine ih (fun v hv => hcreate v (List.mem_cons_of_mem _ hv)) ?_ ?_
      · obtain heq | hmem := List.mem_cons.1 hmem
        · cases heq
          exact absurd rfl hne
        · exact hmem
      · rwa [hother id hne]

end Raised

namespace SnmpAgent

variable {s s' : SnmpAgent} {p : SyncPass} {id : String}

def Orphaned (s : SnmpAgent) (id : String) : Prop :=
  (s.table.get? id).isSome ∧ id ∉ s.knownInstanceIds

structure Unmoved (s s' : SnmpAgent) : Prop where
  known : s'.knownInstanceIds = s.knownInstanceIds
  counts : s'.alarmCounts = s.alarmCounts
  rows : ∀ j ∈ s.knownInstanceIds, s'.table.get? j = s.table.get? j

/-- **An orphaned row ends every pass** at the creation of its instance. -/
theorem Orphaned.syncOnce (h : s.Orphaned id) (hid : id ∈ p.statuses.keys) :
    (s.syncOnce p).agent.Orphaned id ∧ s.Unmoved (s.syncOnce p).agent := by
  obtain ⟨status, hstatus⟩ := (Dict.mem_keys _).1 hid
  have hcreated : id ∈ s.createdIds p := mem_createdIds.2 ⟨hid, h.2⟩
  obtain ⟨hraised, hrow⟩ := writeAll_of_exists p.fails
    (fun w hw => by
      obtain ⟨j, -, status, -, rfl⟩ := mem_statusWrites.1 hw
      exact ⟨j, status.row, rfl⟩)
    (mem_statusWrites.2 ⟨id, hcreated, status, hstatus, rfl⟩) h.1
  have hall := writeAll_append_of_raised p.fails
    (statusWrites p .update (s.updatedIds p) ++ (s.removedIds p).map .remove) hraised
  rw [← rowWrites] at hall
  have hne : (writeAll p.fails s.table (s.rowWrites p)).2 ≠ [] := by
    rw [hall]
    exact List.append_ne_nil_of_left_ne_nil hraised _
  rw [syncOnce_of_raised hne, hall]
  refine ⟨⟨hrow, h.2⟩, rfl, rfl, fun j hj => get?_writeAll_of_notMem ?_⟩
  rw [map_statusWrites .create (fun _ _ => rfl) fun i hi => (mem_createdIds.1 hi).1]
  intro hmem
  exact (mem_createdIds.1 hmem).2 hj

/-- **An orphaned row blocks the agent** for as long as its instance is there, whether or not any
write fails by itself. -/
theorem Orphaned.stuck_run {passes : List SyncPass} (h : s.Orphaned id)
    (hid : ∀ p ∈ passes, id ∈ p.statuses.keys) (hrun : syncMachine.run s passes = some s') :
    s'.Orphaned id ∧ s.Unmoved s' := by
  refine syncMachine.inv_run_of_meets (I := fun t => t.Orphaned id ∧ s.Unmoved t)
    (G := fun _ p => id ∈ p.statuses.keys) ?_ ⟨h, rfl, rfl, fun _ _ => rfl⟩
    (syncMachine.meets_of_forall hid s) hrun
  rintro t p t' ⟨horphaned, hunmoved⟩ hp hstep
  cases hstep
  obtain ⟨horphaned', hunmoved'⟩ := horphaned.syncOnce hp
  refine ⟨horphaned', hunmoved'.known.trans hunmoved.known,
    hunmoved'.counts.trans hunmoved.counts, fun j hj => ?_⟩
  rw [hunmoved'.rows j (hunmoved.known ▸ hj), hunmoved.rows j hj]

end SnmpAgent

def modbusDriver (state : Supervision.DriverState) : DriverInstanceStatus :=
  ⟨"modbus_tcp", state, .connected⟩

/-- The driver `c` alone. -/
def onlyC : SyncPass where
  statuses := .ofList [("c", modbusDriver .running)]
  alarms := some .empty
  fails _ := false
  order ids := ids
  perm_order _ := .refl _

/-- Two more drivers; the row of `b` cannot be written. -/
def bFails : SyncPass where
  statuses := .ofList [("a", modbusDriver .running), ("b", modbusDriver .running),
    ("c", modbusDriver .running)]
  alarms := some .empty
  fails id := id = "b"
  order ids := ids
  perm_order _ := .refl _

/-- All rows can be written again; meanwhile `c` is in backoff, and there is an alarm. -/
def cBacksOff : SyncPass where
  statuses := .ofList [("a", modbusDriver .running), ("b", modbusDriver .running),
    ("c", modbusDriver .backoff)]
  alarms := some (.ofList [("c.t", { AlarmStatus.new with state := .active })])
  fails _ := false
  order ids := ids
  perm_order _ := .refl _

/-- One row write fails once, and from then on no pass shows the state of another driver or the
alarm. -/
theorem failed_row_blocks_table :
    (∀ id, cBacksOff.fails id = false) ∧
    cBacksOff.statuses.get? "c" = some (modbusDriver .backoff) ∧
    alarmCountsOf cBacksOff.alarms .active = 1 ∧
    ∀ n, ∃ s, syncMachine.run .start (onlyC :: bFails :: List.replicate n cBacksOff) = some s ∧
      s.table.get? "c" = some (modbusDriver .running).row ∧ s.alarmCounts .active = 0 := by
  refine ⟨fun _ => rfl, by decide +kernel, by decide +kernel, fun n => ?_⟩
  obtain ⟨t, hrun⟩ := syncMachine.exists_run (fun s p => ⟨_, rfl⟩)
    ((SnmpAgent.start.syncOnce onlyC).agent.syncOnce bFails).agent (List.replicate n cBacksOff)
  have horphaned : ((SnmpAgent.start.syncOnce onlyC).agent.syncOnce bFails).agent.Orphaned "a" := by
    unfold SnmpAgent.Orphaned
    decide +kernel
  have hid : ∀ p ∈ List.replicate n cBacksOff, "a" ∈ p.statuses.keys := by
    intro p hp
    rw [List.eq_of_mem_replicate hp]
    decide +kernel
  obtain ⟨-, hunmoved⟩ := horphaned.stuck_run hid hrun
  refine ⟨t, hrun, ?_, ?_⟩
  · rw [hunmoved.rows "c" (by decide +kernel)]
    decide +kernel
  · rw [hunmoved.counts]
    decide +kernel

end XEdge.Northbound
