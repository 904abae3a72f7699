import XEdge.Core.Pipeline
import XEdge.Fleet.Agent
import XEdge.Fleet.PendingConfig

/-!
# Reports on pushed configurations

A push inserts a history row; the device fetches the configuration with a heartbeat, applies it
and reports with the next one, and `DeviceRegistry.heartbeat` writes the report into the history
row of the version that it names.  Requests and answers may be lost, delayed and repeated, and
pushes may come at any time.
-/

namespace XEdge.Fleet

open Lib Lib.ReadCommitted

/-! ## The transactions -/

structure AppliedColumns where
  appliedAt : Nat
  applySuccess : Bool
  applyError : Option String
  deriving DecidableEq, Repr

structure ReportedRows (C : Type*) where
  rows : DeviceRows C
  applied : Dict Nat AppliedColumns
  /-- `last_config_apply_json`. -/
  lastConfigApply : Option ApplyReport

inductive ReportCall (C : Type*) where
  | push (call : PushCall C)
  | heartbeat (report : Option ApplyReport) (now : Nat)

inductive ReportResult (C : Type*) where
  | push (result : PushResult C)
  | heartbeat

section Calls

variable {C : Type*} (pyEq : C → C → Bool)

def liftPlan : Plan (DeviceRows C) (PushResult C) PushError →
    Plan (ReportedRows C) (ReportResult C) PushError
  | .done r => .done (.push r)
  | .write update r =>
      .write (fun s => (update s.rows).map fun rows => { s with rows := rows }) (.push r)
  | .raise e => .raise e

/-- The statements of a heartbeat.  The device row is locked by its `UPDATE` before the history
row is looked up. -/
def reportStatements (report : Option ApplyReport) (now : Nat) (s : ReportedRows C) :
    Except PushError (ReportedRows C) :=
  match s.rows.device, report with
  | none, _ => .error .staleData
  | some _, none => .ok s
  | some _, some r =>
      .ok
        { s with
          lastConfigApply := some r
          applied :=
            if r.version ∈ s.rows.versions then
              s.applied.set r.version ⟨now, r.success, r.error⟩
            else s.applied }

/-- `DeviceRegistry.heartbeat`. -/
def heartbeatCall (report : Option ApplyReport) (now : Nat) (s : ReportedRows C) :
    Plan (ReportedRows C) (ReportResult C) PushError :=
  match s.rows.device with
  | none => .done .heartbeat
  | some _ => .write (reportStatements report now) .heartbeat

def reportCode : ReportCall C → ReportedRows C →
    Plan (ReportedRows C) (ReportResult C) PushError
  | .push call, s => liftPlan (pushCode pyEq call s.rows)
  | .heartbeat report now, s => heartbeatCall report now s

/-- A push of a configuration that is equal, for Python, to the pending one is a push of that
one. -/
def PushCall.Honest (rows : DeviceRows C) : PushCall C → Prop
  | .queue _ config _ _ => unchanged pyEq rows.pending config = true → rows.pending = some config
  | .take => True

instance [DecidableEq C] (rows : DeviceRows C) : (call : PushCall C) →
    Decidable (call.Honest pyEq rows)
  | .queue _ config _ _ => inferInstanceAs
      (Decidable (unchanged pyEq rows.pending config = true → rows.pending = some config))
  | .take => isTrue trivial

end Calls

abbrev ReportDb (C : Type*) := State (ReportedRows C) (ReportCall C) (ReportResult C) PushError

/-! ## Manager and device -/

/-- A handler of a heartbeat request: the transaction of the heartbeat, and of the fetch once
it has begun. -/
structure Handler where
  request : Nat
  heartbeatTx : Nat
  takeTx : Option Nat
  deriving DecidableEq, Repr

structure ReportSystem (C : Type*) where
  db : ReportDb C
  agent : Agent C
  requests : List (Option ApplyReport)
  awaiting : Option Nat
  handlers : List Handler
  /-- Ghost: the requests that were answered successfully. -/
  answered : List Nat
  /-- Ghost: the reports that the device no longer keeps. -/
  dropped : List ApplyReport

inductive ReportEvent (C : Type*) where
  | push (tenantId : Nat) (config : C) (pushedBy : String) (now : Nat)
  | flush (i : Nat)
  | commit (i : Nat)
  | abort (i : Nat)
  | send
  | handle (request now : Nat)
  | proceed (handler : Nat)
  | receive (handler : Nat) (validation : Validation) (write : FileWrite) (rotation : Rotation)
  /-- No answer, or one with an error status; `none` is an exception that ends the loop. -/
  | lose (error : Option String)

def Iteration.lost {C : Type*} (error : Option String) : Iteration C :=
  ⟨(error.map .failed).getD .raised, .accepted, .written, .notDue⟩

def isCommitted {ρ β ε : Type*} : Phase ρ β ε → Bool
  | .committed => true
  | _ => false

def takenBody {C : Type*} (seen : ReportedRows C) : HeartbeatBody C :=
  match takePendingConfig seen.rows with
  | .write _ (.config (some (config, version))) => .config config (some version)
  | _ => .noConfig

namespace ReportSystem

variable {C : Type*} (pyEq : C → C → Bool)

def start (rows : DeviceRows C) : ReportSystem C :=
  ⟨State.start ⟨rows, .empty, none⟩, .start, [], none, [], [], []⟩

def onDb (s : ReportSystem C) (e : Event (ReportCall C)) : Option (ReportSystem C) :=
  (ReadCommitted.step (reportCode pyEq) s.db e).map fun db => { s with db := db }

/-- The device is in a new state; what it no longer keeps is noted. -/
def setAgent (s : ReportSystem C) (a : Agent C) : ReportSystem C :=
  { s with
    agent := a
    awaiting := none
    dropped := s.dropped ++
      (s.agent.pendingReport.filter fun r => a.pendingReport ≠ some r).toList }

def step (s : ReportSystem C) : ReportEvent C → Option (ReportSystem C)
  | .push tenantId config pushedBy now =>
      s.onDb pyEq (.select (.push (.queue tenantId config pushedBy now)))
  | .flush i => s.onDb pyEq (.flush i)
  | .commit i => s.onDb pyEq (.commit i)
  | .abort i => s.onDb pyEq (.abort i)
  | .send =>
      if s.agent.running ∧ s.awaiting = none then
        some
          { s with
            requests := s.requests ++ [s.agent.pendingReport]
            awaiting := some s.requests.length }
      else none
  | .handle j now =>
      match s.requests[j]? with
      | none => none
      | some report =>
          (s.onDb pyEq (.select (.heartbeat report now))).map fun s' =>
            { s' with handlers := s.handlers ++ [⟨j, s.db.txs.length, none⟩] }
  | .proceed k =>
      match s.handlers[k]? with
      | some ⟨j, i, none⟩ =>
          if (s.db.txs[i]?).any fun t => isCommitted t.phase then
            (s.onDb pyEq (.select (.push .take))).map fun s' =>
              { s' with handlers := s.handlers.set k ⟨j, i, some s.db.txs.length⟩ }
          else none
      | _ => none
  | .receive k validation write rotation =>
      match s.handlers[k]? with
      | some ⟨j, _, some i⟩ =>
          match s.db.txs[i]? with
          | some t =>
              if isCommitted t.phase ∧ s.awaiting = some j then
                some
                  { s.setAgent (s.agent.iterate
                      ⟨.answered (takenBody t.req.seen), validation, write, rotation⟩) with
                    answered := s.answered ++ [j] }
              else none
          | none => none
      | _ => none
  | .lose error =>
      if s.awaiting.isSome then
        some (s.setAgent (s.agent.iterate (.lost error)))
      else none

/-- A history row that has a report has the outcome that the device obtained for the
configuration of that row; a report is dropped only when a heartbeat with it was answered. -/
structure Matches (s : ReportSystem C) : Prop where
  rows : ∀ h ∈ s.db.row.rows.history, ∀ columns,
    s.db.row.applied.get? h.configVersion = some columns →
      (h.configJson, ⟨h.configVersion, columns.applySuccess, columns.applyError⟩) ∈
        s.agent.applied
  dropped : ∀ r ∈ s.dropped, ∃ j ∈ s.answered, s.requests[j]? = some (some r)

def HonestPush (s : ReportSystem C) : ReportEvent C → Prop
  | .push tenantId config pushedBy now =>
      (PushCall.queue tenantId config pushedBy now).Honest pyEq s.db.row.rows
  | _ => True

instance [DecidableEq C] (s : ReportSystem C) : (e : ReportEvent C) →
    Decidable (s.HonestPush pyEq e)
  | .push tenantId config pushedBy now => inferInstanceAs
      (Decidable ((PushCall.queue tenantId config pushedBy now).Honest pyEq s.db.row.rows))
  | .flush _ | .commit _ | .abort _ | .send | .handle _ _ | .proceed _ | .receive _ _ _ _
  | .lose _ => isTrue trivial

end ReportSystem

def reportMachine {C : Type*} (pyEq : C → C → Bool) :
    Machine (ReportSystem C) (ReportEvent C) := ⟨ReportSystem.step pyEq⟩

/-! ## Rows and versions -/

section Rows

variable {C : Type*} {pyEq : C → C → Bool}

/-- The configuration is that of the history row of this version, if there is one, and no row
of this version can come any more. -/
structure Fits (rows : DeviceRows C) (config : C) (version : Nat) : Prop where
  row : ∀ h ∈ rows.history, h.configVersion = version → h.configJson = config
  past : ∃ d, rows.device = some d ∧ version ≤ d.pendingConfigVersion

def Matched (rows : DeviceRows C) : Prop :=
  ∀ d config, rows.device = some d → d.pendingConfigJson = some config →
    Fits rows config d.pendingConfigVersion

theorem pushStatements_history {d : Device C} {config : C} {pushedBy : String} {now : Nat}
    {rows new : DeviceRows C} (h : pushStatements pyEq d config pushedBy now rows = .ok new) :
    d.pendingConfigVersion + 1 ∉ rows.versions ∧
      new.history = rows.history ++ [⟨d.pendingConfigVersion + 1, config, now, pushedBy⟩] := by
  unfold pushStatements at h
  split at h
  · cases h
  · split at h
    · cases h
    · next hfresh =>
      cases h
      exact ⟨hfresh, rfl⟩

theorem fits_write {c : PushCall C} {seen rows new : DeviceRows C} {r : PushResult C}
    {update : DeviceRows C → Except PushError (DeviceRows C)} (hlater : Later seen rows)
    (hplan : pushCode pyEq c seen = .write update r) (hrow : update rows = .ok new)
    {config : C} {version : Nat} (h : Fits rows config version) : Fits new config version := by
  obtain ⟨e, he, hle⟩ := h.past
  obtain ⟨d, hd, ⟨_, pushedConfig, _, _, rfl, rfl, rfl⟩ | ⟨_, rfl, _, rfl, rfl⟩⟩ :=
    pushCode_write hplan
  · obtain ⟨d', hd', hversion, hnew, -, -⟩ := pushStatements_ok hd hlater hrow
    obtain ⟨-, hhistory⟩ := pushStatements_history hrow
    cases he.symm.trans hd'
    obtain ⟨e', he', hversion'⟩ := Option.map_eq_some_iff.1 hnew
    refine ⟨?_, e', he', by omega⟩
    intro row hmem hrowVersion
    rw [hhistory, List.mem_append, List.mem_singleton] at hmem
    obtain hold | rfl := hmem
    · exact h.row row hold hrowVersion
    · -- the new row has a version that was not there yet
      have hlarge : d.pendingConfigVersion + 1 = version := hrowVersion
      omega
  · unfold takeStatements at hrow
    rw [he] at hrow
    cases hrow
    exact ⟨h.row, _, rfl, hle⟩

/-- A write leaves the pending configuration with its history row, if a push that leaves the
column out found its own configuration there. -/
theorem matched_write {c : PushCall C} {seen rows new : DeviceRows C} {r : PushResult C}
    {update : DeviceRows C → Except PushError (DeviceRows C)} (hlater : Later seen rows)
    (hplan : pushCode pyEq c seen = .write update r) (hrow : update rows = .ok new)
    (hhonest : c.Honest pyEq seen) : Matched new := by
  obtain ⟨d, hd, ⟨tenantId, config, pushedBy, now, rfl, rfl, rfl⟩ | ⟨_, rfl, _, rfl, rfl⟩⟩ :=
    pushCode_write hplan
  · obtain ⟨d', hd', hversion, hnewVersion, hpending, -⟩ := pushStatements_ok hd hlater hrow
    obtain ⟨hfresh, hhistory⟩ := pushStatements_history hrow
    intro e pending he hepending
    have hnew : new.pending = some pending := by rw [DeviceRows.pending, he]; exact hepending
    have heversion : e.pendingConfigVersion = d.pendingConfigVersion + 1 := by
      rw [DeviceRows.version, he] at hnewVersion
      exact Option.some.inj hnewVersion
    -- whatever is pending now is the configuration of the push
    have hsame : pending = config := by
      rw [hpending] at hnew
      split at hnew
      · next hunchanged =>
        have hseen := hhonest hunchanged
        obtain ⟨e', he', -, -, hkept⟩ := hlater.device d hd
        cases hd'.symm.trans he'
        have hrowsPending : d'.pendingConfigJson = some pending := by
          rw [DeviceRows.pending, hd'] at hnew
          exact hnew
        have hseenPending : d.pendingConfigJson = some config := by
          rw [DeviceRows.pending, hd] at hseen
          exact hseen
        obtain hnone | hkeep := hkept hversion
        · rw [hnone] at hrowsPending
          cases hrowsPending
        · rw [hkeep, hseenPending] at hrowsPending
          exact (Option.some.inj hrowsPending).symm
      · exact (Option.some.inj hnew).symm
    subst hsame
    refine ⟨?_, e, he, le_refl _⟩
    intro row hmem hrowVersion
    rw [hhistory, List.mem_append, List.mem_singleton] at hmem
    obtain hold | rfl := hmem
    · refine absurd ?_ hfresh
      rw [← heversion, ← hrowVersion]
      exact List.mem_map.2 ⟨row, hold, rfl⟩
    · rfl
  · obtain ⟨d', hd', hnew, -⟩ := takeStatements_ok hrow
    intro e pending he hepending
    cases hnew.symm.trans he
    cases hepending

/-- A write on the rows: a push or a fetch leaves the reports alone, and a heartbeat writes
down its own. -/
theorem reportCode_write {c : ReportCall C} {seen s new : ReportedRows C} {r : ReportResult C}
    {update : ReportedRows C → Except PushError (ReportedRows C)}
    (hplan : reportCode pyEq c seen = .write update r) (hrow : update s = .ok new) :
    (∃ call u r', c = .push call ∧ pushCode pyEq call seen.rows = .write u r' ∧
        u s.rows = .ok new.rows ∧ new.applied = s.applied) ∨
      (∃ report now, c = .heartbeat report now ∧ new.rows = s.rows ∧
        ∀ v columns, new.applied.get? v = some columns → s.applied.get? v = some columns ∨
          report = some ⟨v, columns.applySuccess, columns.applyError⟩) := by
  cases c with
  | push call =>
    refine .inl ?_
    rw [reportCode] at hplan
    cases hpush : pushCode pyEq call seen.rows with
    | done | raise =>
      rw [hpush] at hplan
      cases hplan
    | write u r' =>
      rw [hpush] at hplan
      cases hplan
      cases hu : u s.rows with
      | error e =>
        simp only [hu, Except.map] at hrow
        cases hrow
      | ok rows =>
        simp only [hu, Except.map] at hrow
        cases hrow
        exact ⟨call, u, r', rfl, hpush, hu, rfl⟩
  | heartbeat report now =>
    refine .inr ⟨report, now, rfl, ?_⟩
    have hupdate : reportStatements report now = update := by
      rw [reportCode, heartbeatCall] at hplan
      split at hplan
      · cases hplan
      · cases hplan
        rfl
    rw [← hupdate] at hrow
    unfold reportStatements at hrow
    split at hrow
    · cases hrow
    · cases hrow
      exact ⟨rfl, fun v columns h => .inl h⟩
    · next r hdevice =>
      cases hrow
      refine ⟨rfl, ?_⟩
      intro v columns hcolumns
      split at hcolumns
      · obtain ⟨rfl, rfl⟩ | ⟨-, hold⟩ := Dict.get?_set_eq_some.1 hcolumns
        · exact .inr rfl
        · exact .inl hold
      · exact .inl hcolumns

theorem takenBody_cases (seen : ReportedRows C) :
    takenBody seen = .noConfig ∨ ∃ d config, seen.rows.device = some d ∧
      d.pendingConfigJson = some config ∧
      takenBody seen = .config config (some d.pendingConfigVersion) := by
  unfold takenBody takePendingConfig
  cases hdevice : seen.rows.device with
  | none => exact .inl rfl
  | some d =>
    cases hpending : d.pendingConfigJson with
    | none => exact .inl (by simp only [hpending])
    | some config => exact .inr ⟨d, config, rfl, hpending, by simp only [hpending]⟩

end Rows

/-! ## What the rows owe to the device -/

section Database

variable {C : Type*} (pyEq : C → C → Bool)

/-- A call that may begin: a push that is honest, and a heartbeat whose report is one that the
device has made. -/
def Allowed (log : List (C × ApplyReport)) (seen : ReportedRows C) : ReportCall C → Prop
  | .push call => call.Honest pyEq seen.rows
  | .heartbeat report _ => ∀ r, report = some r → ∃ config, (config, r) ∈ log

/-- How the rows and the calls on them stand to `log`, the reports that the device has made,
each with its configuration. -/
structure DbInv (log : List (C × ApplyReport)) (db : ReportDb C) : Prop where
  sound : Sound (reportCode pyEq) db
  later : Seen (fun a b => Later a.rows b.rows) db
  matched : Matched db.row.rows
  fits : ∀ q ∈ db.requests, ∀ d config, q.seen.rows.device = some d →
    d.pendingConfigJson = some config → Fits db.row.rows config d.pendingConfigVersion
  allowed : ∀ q ∈ db.requests, Allowed pyEq log q.seen q.call
  logged : ∀ x ∈ log, Fits db.row.rows x.1 x.2.version
  columns : ∀ v columns, db.row.applied.get? v = some columns →
    ∃ config, (config, ⟨v, columns.applySuccess, columns.applyError⟩) ∈ log

variable {pyEq} {log : List (C × ApplyReport)} {db db' : ReportDb C}

theorem DbInv.extend (h : DbInv pyEq log db) {log' : List (C × ApplyReport)}
    (hold : ∀ x ∈ log, x ∈ log')
    (hnew : ∀ x ∈ log', x ∈ log ∨ Fits db.row.rows x.1 x.2.version) : DbInv pyEq log' db where
  sound := h.sound
  later := h.later
  matched := h.matched
  fits := h.fits
  allowed := by
    intro q hq
    have hallowed := h.allowed q hq
    cases hcall : q.call with
    | push call =>
      rw [hcall] at hallowed
      exact hallowed
    | heartbeat report now =>
      rw [hcall] at hallowed
      intro r hr
      obtain ⟨config, hmem⟩ := hallowed r hr
      exact ⟨config, hold _ hmem⟩
  logged := by
    intro x hx
    obtain hmem | hfits := hnew x hx
    · exact h.logged x hmem
    · exact hfits
  columns := by
    intro v columns hcolumns
    obtain ⟨config, hmem⟩ := h.columns v columns hcolumns
    exact ⟨config, hold _ hmem⟩

theorem DbInv.of_row_eq (h : DbInv pyEq log db) (hsound : Sound (reportCode pyEq) db')
    (hlater : Seen (fun a b => Later a.rows b.rows) db') (hrow : db'.row = db.row)
    (hrequests : ∀ q ∈ db'.requests, q ∈ db.requests ∨
      q.seen = db.row ∧ Allowed pyEq log q.seen q.call) : DbInv pyEq log db' where
  sound := hsound
  later := hlater
  matched := by
    rw [hrow]
    exact h.matched
  fits := by
    intro q hq d config hd hconfig
    rw [hrow]
    obtain hmem | ⟨hseen, -⟩ := hrequests q hq
    · exact h.fits q hmem d config hd hconfig
    · rw [hseen] at hd
      exact h.matched d config hd hconfig
  allowed := by
    intro q hq
    obtain hmem | ⟨-, hallowed⟩ := hrequests q hq
    · exact h.allowed q hmem
    · exact hallowed
  logged := by
    rw [hrow]
    exact h.logged
  columns := by
    rw [hrow]
    exact h.columns

theorem DbInv.of_write (h : DbInv pyEq log db) (hsound : Sound (reportCode pyEq) db')
    (hlater : Seen (fun a b => Later a.rows b.rows) db') (hrequests : db'.requests = db.requests)
    {q : Request (ReportedRows C) (ReportCall C) (ReportResult C)} (hq : q ∈ db.requests)
    {update : ReportedRows C → Except PushError (ReportedRows C)} {r : ReportResult C}
    (hplan : reportCode pyEq q.call q.seen = .write update r)
    (hrow : update db.row = .ok db'.row) : DbInv pyEq log db' := by
  have hallowed := h.allowed q hq
  -- what the write does to the rows, and which columns can come from it
  have hwrite : (∀ config v, Fits db.row.rows config v → Fits db'.row.rows config v) ∧
      Matched db'.row.rows ∧ ∀ v columns, db'.row.applied.get? v = some columns →
        ∃ config, (config, ⟨v, columns.applySuccess, columns.applyError⟩) ∈ log := by
    obtain ⟨call, u, r', hcall, hpush, hrows, happlied⟩ | ⟨report, now, hcall, hrows, happlied⟩ :=
      reportCode_write hplan hrow
    · rw [hcall] at hallowed
      refine ⟨fun config v => fits_write (h.later q hq) hpush hrows,
        matched_write (h.later q hq) hpush hrows hallowed, ?_⟩
      rw [happlied]
      exact h.columns
    · rw [hcall] at hallowed
      rw [hrows]
      refine ⟨fun config v hfits => hfits, h.matched, ?_⟩
      intro v columns hcolumns
      obtain hold | hreport := happlied v columns hcolumns
      · exact h.columns v columns hold
      · exact hallowed _ hreport
  obtain ⟨hfits, hmatched, hcolumns⟩ := hwrite
  refine ⟨hsound, hlater, hmatched, ?_, ?_, fun x hx => hfits _ _ (h.logged x hx), hcolumns⟩
  · rw [hrequests]
    exact fun q hq d config hd hconfig => hfits _ _ (h.fits q hq d config hd hconfig)
  · rw [hrequests]
    exact h.allowed

theorem dbInv_step (h : DbInv pyEq log db) {e : Event (ReportCall C)}
    (hselect : ∀ c, e = .select c → Allowed pyEq log db.row c)
    (hstep : ReadCommitted.step (reportCode pyEq) db e = some db') : DbInv pyEq log db' := by
  have hsound := sound_step h.sound hstep
  have hlater : Seen (fun a b => Later a.rows b.rows) db' := by
    refine seen_step (R := fun a b => Later a.rows b.rows) (fun a => Later.refl a.rows) ?_ ?_
      h.sound h.later hstep
    · intro a b c hab hbc
      exact hab.trans hbc
    · intro c seen row new update r hseen hplan hrow
      obtain ⟨call, u, r', -, hpush, hrows, -⟩ | ⟨_, _, -, hrows, -⟩ := reportCode_write hplan hrow
      · exact later_write hseen hpush hrows
      · rw [hrows]
        exact Later.refl _
  cases step_effect h.sound hstep with
  | select c hrow _ hrequests =>
    refine h.of_row_eq hsound hlater hrow ?_
    intro q hq
    rw [hrequests, List.mem_append, List.mem_singleton] at hq
    obtain hmem | rfl := hq
    · exact .inl hmem
    · exact .inr ⟨rfl, hselect c rfl⟩
  | silent hrow _ hrequests _ =>
    exact h.of_row_eq hsound hlater hrow fun q hq => .inl (hrequests ▸ hq)
  | readOnly i t r _ _ _ hrow _ hrequests =>
    exact h.of_row_eq hsound hlater hrow fun q hq => .inl (hrequests ▸ hq)
  | write i t r update ht _ hplan hrow _ hrequests =>
    exact h.of_write hsound hlater hrequests (mem_requests ht) hplan hrow

end Database

/-! ## The device -/

section Device

variable {C : Type*}

theorem Agent.iterate_lost (a : Agent C) (error : Option String) :
    (a.iterate (.lost error)).pendingReport = a.pendingReport ∧
      (a.iterate (.lost error)).applied = a.applied := by
  cases error with
  | none | some => exact ⟨rfl, rfl⟩

theorem Agent.iterate_eq_heartbeat (a : Agent C) (it : Iteration C) :
    (a.iterate it).pendingReport = (a.heartbeat it).pendingReport ∧
      (a.iterate it).applied = (a.heartbeat it).applied := by
  unfold Agent.iterate
  split
  · exact ⟨rfl, rfl⟩
  · exact ⟨rfl, rfl⟩

theorem Agent.iterate_noConfig (a : Agent C) (validation : Validation) (write : FileWrite)
    (rotation : Rotation) :
    let a' := a.iterate ⟨.answered .noConfig, validation, write, rotation⟩
    a'.pendingReport = none ∧ a'.applied = a.applied :=
  a.iterate_eq_heartbeat ⟨.answered .noConfig, validation, write, rotation⟩

/-- An answer with a configuration: it is dealt with, and the report on it names its version,
or there is none. -/
theorem Agent.iterate_config (a : Agent C) (config : C) (version : Nat) (validation : Validation)
    (write : FileWrite) (rotation : Rotation) :
    let a' := a.iterate ⟨.answered (.config config (some version)), validation, write, rotation⟩
    (a'.pendingReport = none ∧ a'.applied = a.applied) ∨
      ∃ r : ApplyReport, r.version = version ∧ a'.pendingReport = some r ∧
        a'.applied = a.applied ++ [(config, r)] := by
  intro a'
  obtain ⟨hpending, happlied⟩ := a.iterate_eq_heartbeat
    ⟨.answered (.config config (some version)), validation, write, rotation⟩
  rw [show a'.pendingReport = _ from hpending, show a'.applied = _ from happlied]
  cases validation with
  | rejected error => exact .inr ⟨⟨version, false, some error⟩, rfl, rfl, rfl⟩
  | raised => exact .inl ⟨rfl, rfl⟩
  | accepted =>
    cases write with
    | written => exact .inr ⟨⟨version, true, none⟩, rfl, rfl, rfl⟩
    | osError | raised => exact .inl ⟨rfl, rfl⟩

end Device

/-! ## The whole -/

namespace ReportSystem

section Run

variable {C : Type*} {pyEq : C → C → Bool}

variable (pyEq) in
/-- The invariant: the rows stand in order to what the device has reported, and so do the
requests. -/
structure Inv (s : ReportSystem C) : Prop where
  db : DbInv pyEq s.agent.applied s.db
  requests : ∀ r, some r ∈ s.requests → ∃ config, (config, r) ∈ s.agent.applied
  pending : ∀ r, s.agent.pendingReport = some r → ∃ config, (config, r) ∈ s.agent.applied
  awaited : ∀ j, s.awaiting = some j → s.requests[j]? = some s.agent.pendingReport
  dropped : ∀ r ∈ s.dropped, ∃ j ∈ s.answered, s.requests[j]? = some (some r)

theorem inv_start {rows : DeviceRows C} (h : Matched rows) : (start rows).Inv pyEq where
  db :=
    { sound := sound_start _ _
      later := seen_start _ _
      matched := h
      fits := fun q hq => absurd hq List.not_mem_nil
      allowed := fun q hq => absurd hq List.not_mem_nil
      logged := fun x hx => absurd hx List.not_mem_nil
      columns := fun v columns hcolumns => by cases hcolumns }
  requests := fun r hr => absurd hr List.not_mem_nil
  pending := fun r hr => by cases hr
  awaited := fun j hj => by cases hj
  dropped := fun r hr => absurd hr List.not_mem_nil
variable {s s' : ReportSystem C} {a : Agent C}


theorem Inv.matches (h : s.Inv pyEq) : s.Matches where
  rows := by
    intro row hrow columns hcolumns
    obtain ⟨config, hmem⟩ := h.db.columns _ columns hcolumns
    have hsame := (h.db.logged _ hmem).row row hrow rfl
    rw [hsame]
    exact hmem
  dropped := h.dropped

theorem Inv.onDb (h : s.Inv pyEq) {e : Event (ReportCall C)}
    (hselect : ∀ c, e = .select c → Allowed pyEq s.agent.applied s.db.row c)
    (hstep : s.onDb pyEq e = some s') : s'.Inv pyEq := by
  obtain ⟨db, hdb, rfl⟩ := Option.map_eq_some_iff.1 hstep
  exact ⟨dbInv_step h.db hselect hdb, h.requests, h.pending, h.awaited, h.dropped⟩

theorem Inv.setHandlers (h : s.Inv pyEq) (handlers : List Handler) :
    ({ s with handlers := handlers } : ReportSystem C).Inv pyEq :=
  ⟨h.db, h.requests, h.pending, h.awaited, h.dropped⟩

theorem mem_dropped_setAgent {r : ApplyReport} (h : r ∈ (s.setAgent a).dropped) :
    r ∈ s.dropped ∨ s.agent.pendingReport = some r ∧ a.pendingReport ≠ some r := by
  obtain hold | hnew := List.mem_append.1 h
  · exact .inl hold
  · rw [Option.mem_toList, Option.filter_eq_some_iff] at hnew
    exact .inr ⟨hnew.1, of_decide_eq_true hnew.2⟩

theorem Inv.setAgent (h : s.Inv pyEq) (hold : ∀ x ∈ s.agent.applied, x ∈ a.applied)
    (hnew : ∀ x ∈ a.applied, x ∈ s.agent.applied ∨ Fits s.db.row.rows x.1 x.2.version)
    (hpending : ∀ r, a.pendingReport = some r → ∃ config, (config, r) ∈ a.applied)
    {answered : List Nat} (hanswered : ∀ j ∈ s.answered, j ∈ answered)
    (hdrop : ∀ r, s.agent.pendingReport = some r → a.pendingReport ≠ some r →
      ∃ j ∈ answered, s.requests[j]? = some (some r)) :
    ({ s.setAgent a with answered := answered } : ReportSystem C).Inv pyEq where
  db := h.db.extend hold hnew
  requests := by
    intro r hr
    obtain ⟨config, hmem⟩ := h.requests r hr
    exact ⟨config, hold _ hmem⟩
  pending := hpending
  awaited := fun j hj => by cases hj
  dropped := by
    intro r hr
    obtain hmem | ⟨hwas, hgone⟩ := mem_dropped_setAgent hr
    · obtain ⟨j, hj, hrequest⟩ := h.dropped r hmem
      exact ⟨j, hanswered j hj, hrequest⟩
    · exact hdrop r hwas hgone

theorem Inv.setAgent_of_applied_eq (h : s.Inv pyEq) (happlied : a.applied = s.agent.applied)
    (hpending : a.pendingReport = none ∨ a.pendingReport = s.agent.pendingReport)
    {answered : List Nat} (hanswered : ∀ j ∈ s.answered, j ∈ answered)
    (hdrop : ∀ r, s.agent.pendingReport = some r → a.pendingReport ≠ some r →
      ∃ j ∈ answered, s.requests[j]? = some (some r)) :
    ({ s.setAgent a with answered := answered } : ReportSystem C).Inv pyEq := by
  refine h.setAgent ?_ ?_ ?_ hanswered hdrop
  · rw [happlied]
    exact fun x hx => hx
  · rw [happlied]
    exact fun x hx => .inl hx
  · intro r hr
    rw [happlied]
    obtain hnone | hkept := hpending
    · rw [hnone] at hr
      cases hr
    · exact h.pending r (hkept ▸ hr)

theorem inv_send (h : s.Inv pyEq) (hstep : s.step pyEq .send = some s') :
    s'.Inv pyEq := by
  rw [step] at hstep
  split at hstep
  · cases hstep
    refine ⟨h.db, ?_, h.pending, ?_, ?_⟩
    · intro r hr
      obtain hold | hnew := List.mem_append.1 hr
      · exact h.requests r hold
      · exact h.pending r (List.mem_singleton.1 hnew).symm
    · intro j hj
      cases hj
      exact List.getElem?_concat_length
    · intro r hr
      obtain ⟨j, hj, hrequest⟩ := h.dropped r hr
      have hlt := (List.getElem?_eq_some_iff.1 hrequest).1
      exact ⟨j, hj, by rw [List.getElem?_append_left hlt]; exact hrequest⟩
  · cases hstep

theorem inv_handle {j now : Nat} (h : s.Inv pyEq)
    (hstep : s.step pyEq (.handle j now) = some s') : s'.Inv pyEq := by
  rw [step] at hstep
  split at hstep
  · cases hstep
  · next report hreport =>
    obtain ⟨s₁, hs₁, rfl⟩ := Option.map_eq_some_iff.1 hstep
    refine (h.onDb ?_ hs₁).setHandlers _
    intro c hc
    cases hc
    intro r hr
    exact h.requests r (hr ▸ List.mem_of_getElem? hreport)

theorem inv_proceed {k : Nat} (h : s.Inv pyEq)
    (hstep : s.step pyEq (.proceed k) = some s') : s'.Inv pyEq := by
  rw [step] at hstep
  split at hstep
  · split at hstep
    · obtain ⟨s₁, hs₁, rfl⟩ := Option.map_eq_some_iff.1 hstep
      refine (h.onDb ?_ hs₁).setHandlers _
      intro c hc
      cases hc
      exact trivial
    · cases hstep
  · cases hstep

theorem inv_receive {k : Nat} {validation : Validation}
    {write : FileWrite} {rotation : Rotation} (h : s.Inv pyEq)
    (hstep : s.step pyEq (.receive k validation write rotation) = some s') : s'.Inv pyEq := by
  rw [step] at hstep
  split at hstep
  · next j _ i _ =>
    split at hstep
    · next t ht =>
      split at hstep
      · next hawaited =>
        cases hstep
        have hrequest := h.awaited j hawaited.2
        have hdrop : ∀ r, s.agent.pendingReport = some r →
            ∃ j' ∈ s.answered ++ [j], s.requests[j']? = some (some r) := by
          intro r hr
          exact ⟨j, List.mem_append_right _ (List.mem_singleton_self j), hr ▸ hrequest⟩
        have hkeep : ∀ j' ∈ s.answered, j' ∈ s.answered ++ [j] :=
          fun j' hj' => List.mem_append_left _ hj'
        obtain hnone | ⟨d, config, hd, hconfig, hbody⟩ := takenBody_cases t.req.seen
        · rw [hnone]
          obtain ⟨hpending, happlied⟩ := s.agent.iterate_noConfig validation write rotation
          exact h.setAgent_of_applied_eq happlied (.inl hpending) hkeep fun r hr _ => hdrop r hr
        · rw [hbody]
          have hfits := h.db.fits t.req (mem_requests ht) d config hd hconfig
          obtain ⟨hpending, happlied⟩ | ⟨r', hversion, hpending, happlied⟩ :=
            s.agent.iterate_config config d.pendingConfigVersion validation write rotation
          · exact h.setAgent_of_applied_eq happlied (.inl hpending) hkeep fun r hr _ => hdrop r hr
          · refine h.setAgent ?_ ?_ ?_ hkeep fun r hr _ => hdrop r hr
            · rw [happlied]
              exact fun x hx => List.mem_append_left _ hx
            · intro x hx
              rw [happlied, List.mem_append, List.mem_singleton] at hx
              obtain hmem | rfl := hx
              · exact .inl hmem
              · refine .inr ?_
                rw [hversion]
                exact hfits
            · intro r hr
              rw [hpending] at hr
              cases hr
              refine ⟨config, ?_⟩
              rw [happlied]
              exact List.mem_append_right _ (List.mem_singleton_self _)
      · cases hstep
    · cases hstep
  · cases hstep

theorem inv_lose {error : Option String} (h : s.Inv pyEq)
    (hstep : s.step pyEq (.lose error) = some s') : s'.Inv pyEq := by
  rw [step] at hstep
  split at hstep
  · cases hstep
    obtain ⟨hpending, happlied⟩ := s.agent.iterate_lost error
    refine h.setAgent_of_applied_eq happlied (.inr hpending) (fun j hj => hj) ?_
    intro r hr hgone
    rw [hpending] at hgone
    exact absurd hr hgone
  · cases hstep

theorem inv_step {e : ReportEvent C} (h : s.Inv pyEq)
    (hhonest : s.HonestPush pyEq e) (hstep : s.step pyEq e = some s') : s'.Inv pyEq := by
  cases e with
  | push tenantId config pushedBy now =>
    refine h.onDb ?_ hstep
    intro c hc
    cases hc
    exact hhonest
  | flush | commit | abort => exact h.onDb (fun c hc => by cases hc) hstep
  | send => exact inv_send h hstep
  | handle j now => exact inv_handle h hstep
  | proceed k => exact inv_proceed h hstep
  | receive k validation write rotation => exact inv_receive h hstep
  | lose error => exact inv_lose h hstep

end Run

end ReportSystem

/-- **Reports match.**  Whatever is lost, delayed or repeated, and whenever pushes come: as long
as every push is honest, a history row with a report has the outcome that the device obtained
for the configuration of that row, and no report is dropped without an answer. -/
theorem reports_match_run {C : Type*} (pyEq : C → C → Bool) (rows : DeviceRows C)
    (es : List (ReportEvent C)) (s : ReportSystem C) (hrows : Matched rows)
    (hhonest : (reportMachine pyEq).Meets (ReportSystem.HonestPush pyEq) (.start rows) es)
    (hrun : (reportMachine pyEq).run (.start rows) es = some s) : s.Matches := by
  have hinv : s.Inv pyEq := (reportMachine pyEq).inv_run_of_meets
    (fun _ _ _ h hG hstep => ReportSystem.inv_step h hG hstep) (ReportSystem.inv_start hrows)
    hhonest hrun
  exact hinv.matches

/-! ## Two runs -/

section Runs

open XEdge.Core

/-- A configuration of one level: a JSON object of plain values. -/
abbrev FlatConfig := Dict String TagValue

/-- Python's `==` on two of them: the same keys, with equal values. -/
def FlatConfig.pyEq (a b : FlatConfig) : Bool :=
  a.entries.length == b.entries.length &&
    a.entries.all fun entry => (b.get? entry.1).any fun v => entry.2.pyEq v

/-- `{"enabled": value}`. -/
def enabledConfig (value : TagValue) : FlatConfig := Dict.empty.set "enabled" value

def enrolled : DeviceRows FlatConfig := ⟨some ⟨0, none, 0⟩, []⟩

/-- One push, which is fetched and applied; the first heartbeat with the report is handled but
its answer is lost, the second is answered. -/
def retriedReport : List (ReportEvent FlatConfig) :=
  [.push 0 (enabledConfig (.bool true)) "op" 10, .flush 0, .commit 0,
    .send, .handle 0 20, .flush 1, .commit 1, .proceed 0, .flush 2, .commit 2,
    .receive 0 .accepted .written .notDue,
    .send, .handle 1 30, .flush 3, .commit 3, .lose (some "timed out"),
    .send, .handle 2 40, .flush 4, .commit 4, .proceed 2, .commit 5,
    .receive 2 .accepted .written .notDue]

theorem reports_match_retried : ∃ s,
    (reportMachine FlatConfig.pyEq).run (.start enrolled) retriedReport = some s ∧
      s.db.row.applied.get? 1 = some ⟨40, true, none⟩ ∧
      s.agent.applied = [(enabledConfig (.bool true), ⟨1, true, none⟩)] ∧
      s.dropped = [⟨1, true, none⟩] ∧ s.answered = [0, 2] ∧ s.Matches := by
  obtain ⟨s, hs, hv⟩ := Option.map_eq_some_iff.1
    (show ((reportMachine FlatConfig.pyEq).run (.start enrolled) retriedReport).map
        (fun s => (s.db.row.applied.get? 1, s.dropped, s.answered)) =
      some (some ⟨40, true, none⟩, [⟨1, true, none⟩], [0, 2]) by decide +kernel)
  simp only [Prod.mk.injEq] at hv
  obtain ⟨hcolumns, hdropped, hanswered⟩ := hv
  have happlied : ((reportMachine FlatConfig.pyEq).run (.start enrolled) retriedReport).map
      (fun s => s.agent.applied) = some [(enabledConfig (.bool true), ⟨1, true, none⟩)] := by
    decide +kernel
  rw [hs] at happlied
  refine ⟨s, hs, hcolumns, Option.some.inj happlied, hdropped, hanswered, ?_⟩
  refine reports_match_run FlatConfig.pyEq enrolled retriedReport s ?_ (by decide +kernel) hs
  intro d config hd hconfig
  cases hd
  cases hconfig

/-- A mistake is pushed, and put right before the device has fetched it; the device rejects what
it fetches. -/
def correctedPush : List (ReportEvent FlatConfig) :=
  [.push 0 (enabledConfig (.int 1)) "op" 10, .flush 0, .commit 0,
    .push 0 (enabledConfig (.bool true)) "op" 11, .flush 1, .commit 1,
    .send, .handle 0 20, .flush 2, .commit 2, .proceed 0, .flush 3, .commit 3,
    .receive 0 (.rejected "1 is not a boolean") .written .notDue,
    .send, .handle 1 30, .flush 4, .commit 4]

/-- **A report on another configuration.**  `true` is equal to 1, so the second push leaves the
pending configuration out of its `UPDATE` and only raises the version: the device fetches 1
under version 2, and its rejection is written into the history row of `true`. -/
theorem report_on_other_config : ∃ s,
    (reportMachine FlatConfig.pyEq).run (.start enrolled) correctedPush = some s ∧
      s.db.row.rows.history =
        [⟨1, enabledConfig (.int 1), 10, "op"⟩, ⟨2, enabledConfig (.bool true), 11, "op"⟩] ∧
      s.db.row.applied.get? 2 = some ⟨30, false, some "1 is not a boolean"⟩ ∧
      s.agent.applied =
        [(enabledConfig (.int 1), ⟨2, false, some "1 is not a boolean"⟩)] ∧ ¬ s.Matches := by
  obtain ⟨s, hs, hv⟩ := Option.map_eq_some_iff.1
    (show ((reportMachine FlatConfig.pyEq).run (.start enrolled) correctedPush).map
        (fun s => (s.db.row.applied.get? 2, s.agent.applied)) =
      some (some ⟨30, false, some "1 is not a boolean"⟩,
        [(enabledConfig (.int 1), ⟨2, false, some "1 is not a boolean"⟩)]) by decide +kernel)
  obtain ⟨hcolumns, happlied⟩ := Prod.mk.inj hv
  have hhistory : ((reportMachine FlatConfig.pyEq).run (.start enrolled) correctedPush).map
      (fun s => s.db.row.rows.history) =
        some [⟨1, enabledConfig (.int 1), 10, "op"⟩,
          ⟨2, enabledConfig (.bool true), 11, "op"⟩] := by
    decide +kernel
  rw [hs] at hhistory
  have hrows : s.db.row.rows.history = _ := Option.some.inj hhistory
  refine ⟨s, hs, hrows, hcolumns, happlied, fun hmatches => ?_⟩
  have hrow := hmatches.rows ⟨2, enabledConfig (.bool true), 11, "op"⟩
    (by rw [hrows]; decide +kernel) _ hcolumns
  rw [happlied, List.mem_singleton] at hrow
  exact absurd (Prod.mk.inj hrow).1 (by decide +kernel)

end Runs

end XEdge.Fleet
