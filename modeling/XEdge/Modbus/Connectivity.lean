import XEdge.Core.Connectivity
import XEdge.Core.Supervision
import XEdge.Modbus.Polling

/-!
# Is the device there? (`xedge/drivers/modbus/polling.py` under the supervisor)

A driver keeps one `ConnectivityTracker` for its device and records in it how its block reads
end.  The supervisor reports the state of the tracker of the driver that it made last, and makes
a new driver, with a new tracker, each time the old one has failed.
-/

namespace XEdge.Modbus

open Lib XEdge.Core XEdge.Core.Supervision

/-! ## Blocks and transactions -/

/-- `ReadBlock`; of the tags it covers, address and span. -/
structure ReadBlock where
  functionCode : FunctionCode
  address : Int
  quantity : Int
  tags : List (Int × Int)
  deriving DecidableEq

def ReadBlock.isBatched (b : ReadBlock) : Bool := 1 < b.tags.length

/-- The blocks that `_read_block_tag_by_tag` reads. -/
def ReadBlock.singles (b : ReadBlock) : List ReadBlock :=
  b.tags.map fun tag => ⟨b.functionCode, tag.1, tag.2, [tag]⟩

/-- What `configure` and the reads take from the configuration of an instance. -/
structure PollConfig where
  unitId : Nat
  consecutiveFailureThreshold : Int
  recoveryThreshold : Int
  retryCount : Nat
  retryOnException : Bool
  blocks : List (List ReadBlock)
  deriving DecidableEq

def PollConfig.job (cfg : PollConfig) (b : ReadBlock) (attempt : Nat) : Job :=
  ⟨cfg.unitId, .readBlock b.functionCode b.address b.quantity, cfg.retryCount,
    cfg.retryOnException, attempt⟩

/-- What becomes of a transaction; a failure with the text of its exception. -/
inductive Transaction where
  | succeeded
  | failed (f : Failure) (error : String)
  deriving DecidableEq

def exceptionName (code : Nat) : String :=
  match code with
  | 0x01 => "ILLEGAL_FUNCTION"
  | 0x02 => "ILLEGAL_DATA_ADDRESS"
  | 0x03 => "ILLEGAL_DATA_VALUE"
  | 0x04 => "SLAVE_DEVICE_FAILURE"
  | 0x05 => "ACKNOWLEDGE"
  | 0x06 => "SLAVE_DEVICE_BUSY"
  | 0x08 => "MEMORY_PARITY_ERROR"
  | 0x0A => "GATEWAY_PATH_UNAVAILABLE"
  | 0x0B => "GATEWAY_TARGET_DEVICE_FAILED_TO_RESPOND"
  | code =>
      let digits := (Nat.toDigits 16 code).map Char.toUpper
      "UNKNOWN(0x" ++ String.ofList (List.replicate (2 - digits.length) '0' ++ digits) ++ ")"

structure PollGroup where
  attempt : Nat
  todo : List ReadBlock
  deriving DecidableEq

inductive ReadResult where
  | polling (tracker : ConnectivityTracker) (group : PollGroup)
  /-- The exception leaves `run`. -/
  | raised
  deriving DecidableEq

/-- `_read_one_block`, from one transaction to the next: another attempt at the block, the next
block, or the tags of the block one by one. -/
def readOneBlock (cfg : PollConfig) (tracker : ConnectivityTracker) (attempt : Nat)
    (block : ReadBlock) (rest : List ReadBlock) (now : Int) : Transaction → ReadResult
  | .succeeded => .polling (tracker.recordSuccess now) ⟨0, rest⟩
  | .failed f _ =>
      if (cfg.job block attempt).retries f then .polling tracker ⟨attempt + 1, block :: rest⟩
      else
        match f with
        | .codec (.modbusException _ code) =>
            .polling (tracker.recordFailure now (some (exceptionName code)))
              ⟨0, (if block.isBatched then block.singles else []) ++ rest⟩
        | _ => .raised

/-! ## The instance -/

structure Monitored where
  config : PollConfig
  task : Option Task
  /-- `_connectivity` of the driver in `_drivers`. -/
  tracker : Option ConnectivityTracker
  /-- That driver's `configure` has returned, for the task of now. -/
  configured : Bool
  groups : List PollGroup
  /-- Ghost: how many transactions in a row have failed up to now. -/
  failures : Nat
  deriving DecidableEq

inductive MonitoredEvent where
  | start (config : PollConfig)
  /-- `DriverSupervisor.stop` cancels the task. -/
  | cancel
  | task (e : TaskEvent) (now : Int)
  /-- `configure` returns, or raises. -/
  | configure (now : Int)
  | cycle (group : Nat)
  | read (group : Nat) (outcome : Transaction) (now : Int)
  | write (outcome : Transaction)
  deriving DecidableEq

namespace Monitored

def new (config : PollConfig) : Monitored := ⟨config, none, none, false, [], 0⟩

/-- `status().connectivity_state`. -/
def reported (s : Monitored) : ConnectivityState :=
  match s.tracker with
  | none => .unknown
  | some t => t.state

def Polling (s : Monitored) : Prop := s.task.map Task.phase = some .running

instance (s : Monitored) : Decidable s.Polling := inferInstanceAs (Decidable (_ = _))

def count (s : Monitored) : Transaction → Monitored
  | .succeeded => { s with failures := 0 }
  | .failed _ _ => { s with failures := s.failures + 1 }

def resume (s : Monitored) (e : TaskEvent) (now : Int) : Option Monitored :=
  match s.task with
  | none => none
  | some task =>
      match task.resume e with
      | none => none
      | some (.suspended task', _) =>
          if task'.phase = .opening then
            some { s with
              task := some task'
              tracker := some (.default now)
              configured := false
              groups := [] }
          else some { s with task := some task', groups := [] }
      | some (.ended, _) | some (.failed, _) => some { s with task := none, groups := [] }

def read (s : Monitored) (g : Nat) (outcome : Transaction) (now : Int) : Option Monitored :=
  match s.tracker, s.groups[g]? with
  | some tracker, some ⟨attempt, block :: rest⟩ =>
      if s.Polling then
        match readOneBlock s.config tracker attempt block rest now outcome with
        | .polling tracker' group =>
            some { s.count outcome with
              tracker := some tracker', groups := s.groups.set g group }
        | .raised =>
            match outcome with
            | .failed _ error => (s.count outcome).resume (.raised error) now
            | .succeeded => none
      else none
  | _, _ => none

def step (s : Monitored) : MonitoredEvent → Option Monitored
  | .start config =>
      match s.task with
      | none => some { s with
          config := config
          task := some ⟨.created, false, none, INITIAL_BACKOFF_SECONDS⟩
          configured := false }
      | some _ => none
  | .cancel => some { s with task := s.task.map fun task => { task with cancelled := true } }
  | .task .connected now =>
      -- `connect` is called when `configure` has returned
      if s.configured then
        (s.resume .connected now).map fun s' =>
          { s' with groups := s.config.blocks.map fun _ => ⟨0, []⟩ }
      else none
  | .task e now => s.resume e now
  | .configure now =>
      if s.task.map Task.phase = some .opening ∧ s.configured = false then
        match ConnectivityTracker.new s.config.consecutiveFailureThreshold
            s.config.recoveryThreshold now with
        | .ok tracker => some { s with tracker := some tracker, configured := true }
        | .error error => s.resume (.raised error) now
      else none
  | .cycle g =>
      match s.groups[g]?, s.config.blocks[g]? with
      | some ⟨_, []⟩, some blocks => some { s with groups := s.groups.set g ⟨0, blocks⟩ }
      | _, _ => none
  | .read g outcome now => s.read g outcome now
  | .write outcome => if s.Polling then some (s.count outcome) else none

def DeadReported (s : Monitored) : Prop :=
  0 < s.failures → s.config.consecutiveFailureThreshold ≤ s.failures →
    s.reported = .notConnected

/-- The transaction fails and is recorded: an exception response that is not tried again. -/
def Recorded (s : Monitored) (g : Nat) (f : Failure) : Prop :=
  ∃ attempt block rest functionCode code, s.groups[g]? = some ⟨attempt, block :: rest⟩ ∧
    f = .codec (.modbusException functionCode code) ∧
    (s.config.job block attempt).retries f = false

/-- A failed transaction is recorded, or the device is reported as not connected already; no
driver is made, or started with other settings, while the last transaction has failed. -/
def Heeded (s : Monitored) : MonitoredEvent → Prop
  | .start _ | .task (.begin true) _ | .task (.woke true) _ => s.failures = 0
  | .read g (.failed f _) _ => s.Recorded g f ∨ s.reported = .notConnected
  | .write (.failed _ _) => s.reported = .notConnected
  | _ => True

end Monitored

def monitoredMachine : Machine Monitored MonitoredEvent := ⟨Monitored.step⟩

/-! ## What a step does -/

theorem phase_resume {task task' : Task} {e : TaskEvent} {w : Status → Status}
    (h : task.resume e = some (.suspended task', w)) :
    (task'.phase = .opening → e = .begin true ∨ e = .woke true) ∧
      (task'.phase = .running → e = .connected) := by
  cases resumed_of_resume h with
  | begun | woken => exact ⟨fun _ => by simp, by simp⟩
  | connected => exact ⟨by simp, fun _ => rfl⟩
  | runReturned | raised | recoveredLong | recoveredShort | winding => exact ⟨by simp, by simp⟩

namespace Monitored

variable {s s' : Monitored}

variable {e : TaskEvent} {now : Int}

theorem resume_cases (h : s.resume e now = some s') :
    (∃ task : Task, task.phase = .opening ∧ (e = .begin true ∨ e = .woke true) ∧
      s' = { s with
        task := some task, tracker := some (.default now), configured := false, groups := [] }) ∨
      ∃ task : Option Task, (task.map Task.phase = some .running → e = .connected) ∧
        s' = { s with task := task, groups := [] } := by
  unfold resume at h
  split at h
  · cases h
  · next task htask =>
    split at h
    · cases h
    · next task' w hresume =>
      obtain ⟨hopening, hrunning⟩ := phase_resume hresume
      split at h
      · next hphase =>
        cases h
        exact .inl ⟨task', hphase, hopening hphase, rfl⟩
      · cases h
        refine .inr ⟨some task', fun hphase => hrunning (Option.some.inj hphase), rfl⟩
    · cases h
      exact .inr ⟨none, nofun, rfl⟩
    · cases h
      exact .inr ⟨none, nofun, rfl⟩

theorem readOneBlock_failed (cfg : PollConfig) (tracker : ConnectivityTracker) (attempt : Nat)
    (block : ReadBlock) (rest : List ReadBlock) (now : Int) (f : Failure) (error : String) :
    ((cfg.job block attempt).retries f = true ∧
      readOneBlock cfg tracker attempt block rest now (.failed f error) =
        .polling tracker ⟨attempt + 1, block :: rest⟩) ∨
    (∃ reason group, readOneBlock cfg tracker attempt block rest now (.failed f error) =
      .polling (tracker.recordFailure now reason) group) ∨
    ((∀ functionCode code, f ≠ .codec (.modbusException functionCode code)) ∧
      readOneBlock cfg tracker attempt block rest now (.failed f error) = .raised) := by
  unfold readOneBlock
  dsimp only
  split
  · next hretries => exact .inl ⟨hretries, rfl⟩
  · split
    · exact .inr (.inl ⟨_, _, rfl⟩)
    · next hother => exact .inr (.inr ⟨hother, rfl⟩)

/-! ## The invariant -/

/-- Only a driver that is configured polls; its tracker has the threshold of the configuration,
and has counted the failures in a row, or says that the device is not connected. -/
structure Inv (s : Monitored) : Prop where
  polling : s.Polling → s.configured = true
  fresh : s.configured = false → s.failures = 0
  tracker : s.configured = true → ∃ t, s.tracker = some t ∧
    t.failureThreshold = s.config.consecutiveFailureThreshold ∧ t.Counted ∧
    (s.failures = 0 ∨ t.state = .notConnected ∨ s.failures ≤ t.consecutiveFailures)

theorem inv_new (config : PollConfig) : (new config).Inv :=
  ⟨nofun, fun _ => rfl, nofun⟩

theorem Inv.deadReported (h : s.Inv) : s.DeadReported := by
  intro hpos hthreshold
  have hconfigured : s.configured = true := by
    by_contra hfalse
    have hzero := h.fresh (by simpa using hfalse)
    omega
  obtain ⟨t, ht, heq, hcounted, hcases⟩ := h.tracker hconfigured
  rw [reported, ht]
  obtain hzero | hstate | hle := hcases
  · omega
  · exact hstate
  · apply hcounted
    omega

/-- The task goes on: it does not make a driver after a failure, and polls when the driver is
configured. -/
theorem Inv.resume (h : s.Inv) (hmade : e = .begin true ∨ e = .woke true → s.failures = 0)
    (hconnected : e = .connected → s.configured = true) (hstep : s.resume e now = some s') :
    s'.Inv := by
  obtain ⟨task, hphase, he, rfl⟩ | ⟨task, hrunning, rfl⟩ := resume_cases hstep
  · refine ⟨?_, fun _ => hmade he, nofun⟩
    intro hpolling
    have hphase' : some task.phase = some .running := hpolling
    rw [hphase] at hphase'
    cases hphase'
  · exact ⟨fun hpolling => hconnected (hrunning hpolling), h.fresh, h.tracker⟩

variable {t : ConnectivityTracker}

theorem Inv.transaction (h : s.Inv) (hpolling : s.Polling) {n : Nat}
    (hthreshold : t.failureThreshold = s.config.consecutiveFailureThreshold)
    (hcounted : t.Counted)
    (hcases : n = 0 ∨ t.state = .notConnected ∨ n ≤ t.consecutiveFailures)
    (groups : List PollGroup) :
    ({ s with tracker := some t, groups := groups, failures := n } : Monitored).Inv := by
  refine ⟨h.polling, fun hfresh => ?_, fun _ => ⟨t, rfl, hthreshold, hcounted, hcases⟩⟩
  have hconfigured : s.configured = false := hfresh
  rw [h.polling hpolling] at hconfigured
  cases hconfigured

theorem Inv.count_of_notConnected (h : s.Inv) (hpolling : s.Polling)
    (hreported : s.reported = .notConnected) (outcome : Transaction) : (s.count outcome).Inv := by
  obtain ⟨t, ht, hthreshold, hcounted, -⟩ := h.tracker (h.polling hpolling)
  have hstate : t.state = .notConnected := by
    rw [reported, ht] at hreported
    exact hreported
  have hsame : s = { s with tracker := some t } := by rw [← ht]
  rw [hsame]
  cases outcome with
  | succeeded => exact h.transaction hpolling hthreshold hcounted (.inl rfl) s.groups
  | failed f error =>
    exact h.transaction hpolling hthreshold hcounted (.inr (.inl hstate)) s.groups

theorem Inv.setGroups (h : s.Inv) (groups : List PollGroup) :
    ({ s with groups := groups } : Monitored).Inv :=
  ⟨h.polling, h.fresh, h.tracker⟩

theorem Inv.recordFailure (h : s.Inv) (hpolling : s.Polling)
    (ht : s.tracker = some t) (now : Int) (reason : Option String) (groups : List PollGroup) :
    ({ s with
      tracker := some (t.recordFailure now reason)
      groups := groups
      failures := s.failures + 1 } : Monitored).Inv := by
  obtain ⟨t', ht', hthreshold, -, hcases⟩ := h.tracker (h.polling hpolling)
  cases ht.symm.trans ht'
  refine h.transaction hpolling ?_ (t.counted_recordFailure now reason) ?_ groups
  · exact (ConnectivityTracker.failureThreshold_recordFailure ..).trans hthreshold
  · rw [ConnectivityTracker.consecutiveFailures_recordFailure]
    obtain hzero | hstate | hle := hcases
    · exact .inr (.inr (by omega))
    · exact .inr (.inl
        (ConnectivityTracker.state_recordFailure_of_notConnected now hstate reason))
    · exact .inr (.inr (by omega))

theorem Inv.recordSuccess (h : s.Inv) (hpolling : s.Polling)
    (ht : s.tracker = some t) (now : Int) (groups : List PollGroup) :
    ({ s with
      tracker := some (t.recordSuccess now)
      groups := groups
      failures := 0 } : Monitored).Inv := by
  obtain ⟨t', ht', hthreshold, -, -⟩ := h.tracker (h.polling hpolling)
  cases ht.symm.trans ht'
  refine h.transaction hpolling ?_ (t.counted_recordSuccess now) (.inl rfl) groups
  exact (ConnectivityTracker.failureThreshold_recordSuccess ..).trans hthreshold

theorem inv_read {g : Nat} {outcome : Transaction} (h : s.Inv)
    (hheeded : s.Heeded (.read g outcome now)) (hstep : s.read g outcome now = some s') :
    s'.Inv := by
  unfold read at hstep
  split at hstep
  · next tracker attempt block rest htracker hgroup =>
    split at hstep
    · next hpolling =>
      cases outcome with
      | succeeded =>
        cases hstep
        exact h.recordSuccess hpolling htracker now _
      | failed f error =>
        obtain ⟨hretries, hread⟩ | ⟨reason, group, hread⟩ | ⟨hother, hread⟩ :=
          readOneBlock_failed s.config tracker attempt block rest now f error
        · rw [hread] at hstep
          cases hstep
          -- an attempt that is made again is not recorded
          have hreported : s.reported = .notConnected := by
            refine hheeded.resolve_left ?_
            rintro ⟨attempt', block', rest', functionCode, code, hgroup', -, hfinal⟩
            cases hgroup.symm.trans hgroup'
            rw [hretries] at hfinal
            cases hfinal
          have hcount := h.count_of_notConnected hpolling hreported (.failed f error)
          rw [← htracker]
          exact hcount.setGroups _
        · rw [hread] at hstep
          cases hstep
          exact h.recordFailure hpolling htracker now reason _
        · rw [hread] at hstep
          have hreported : s.reported = .notConnected := by
            refine hheeded.resolve_left ?_
            rintro ⟨_, _, _, functionCode, code, -, hexception, -⟩
            exact hother functionCode code hexception
          have hcount := h.count_of_notConnected hpolling hreported (.failed f error)
          exact hcount.resume (by simp) (by simp) hstep
    · cases hstep
  · cases hstep

theorem inv_step {e : MonitoredEvent} (h : s.Inv) (hheeded : s.Heeded e)
    (hstep : s.step e = some s') : s'.Inv := by
  cases e with
  | start config =>
    rw [step] at hstep
    split at hstep
    · cases hstep
      refine ⟨nofun, fun _ => hheeded, nofun⟩
    · cases hstep
  | cancel =>
    cases hstep
    refine ⟨fun hpolling => h.polling ?_, h.fresh, h.tracker⟩
    have hphase : (s.task.map fun task => { task with cancelled := true }).map Task.phase =
        some .running := hpolling
    rw [Option.map_map] at hphase
    exact hphase
  | task e now =>
    by_cases hconnected : e = .connected
    · subst hconnected
      rw [step] at hstep
      split at hstep
      · next hconfigured =>
        obtain ⟨s₁, hs₁, rfl⟩ := Option.map_eq_some_iff.1 hstep
        exact (h.resume (by simp) (fun _ => hconfigured) hs₁).setGroups _
      · cases hstep
    · have hresume : s.resume e now = some s' := by
        cases e with
        | connected => exact absurd rfl hconnected
        | begin | runReturned | disconnected | raised | recovered | woke | cancelledError =>
          exact hstep
      refine h.resume ?_ (fun he => absurd he hconnected) hresume
      rintro (rfl | rfl)
      · exact hheeded
      · exact hheeded
  | configure now =>
    rw [step] at hstep
    split at hstep
    · next hopening =>
      split at hstep
      · next tracker htracker =>
        cases hstep
        obtain ⟨heq, hcounted⟩ := ConnectivityTracker.new_eq_ok htracker
        refine ⟨fun _ => rfl, nofun, fun _ => ⟨tracker, rfl, heq, hcounted, .inl ?_⟩⟩
        exact h.fresh hopening.2
      · exact h.resume (by simp) (by simp) hstep
    · cases hstep
  | cycle g =>
    rw [step] at hstep
    split at hstep
    · cases hstep
      exact h.setGroups _
    · cases hstep
  | read g outcome now => exact inv_read h hheeded hstep
  | write outcome =>
    rw [step] at hstep
    split at hstep
    · next hpolling =>
      cases hstep
      cases outcome with
      | failed f error => exact h.count_of_notConnected hpolling hheeded (.failed f error)
      | succeeded =>
        refine ⟨h.polling, fun _ => rfl, fun hconfigured => ?_⟩
        obtain ⟨t, ht, heq, hcounted, -⟩ := h.tracker hconfigured
        exact ⟨t, ht, heq, hcounted, .inl rfl⟩
    · cases hstep

end Monitored

/-- **The dead are reported dead.**  Whatever the thresholds, the retry settings and the
restarts: as long as every step heeds the failures, an instance whose last transactions have all
failed, as many as the threshold says, is reported as not connected. -/
theorem dead_reported_run (config : PollConfig) (es : List MonitoredEvent) (s : Monitored)
    (hheeded : monitoredMachine.Meets Monitored.Heeded (.new config) es)
    (hrun : monitoredMachine.run (.new config) es = some s) : s.DeadReported := by
  have hinv : s.Inv := monitoredMachine.inv_run_of_meets
    (fun _ _ _ h hG hstep => Monitored.inv_step h hG hstep) (Monitored.inv_new config) hheeded hrun
  exact hinv.deadReported

/-! ## Two runs -/

def twoRegisters : ReadBlock := ⟨.readHoldingRegisters, 0, 2, [(0, 1), (1, 1)]⟩

/-- The settings of the runs: one poll group, no retries. -/
def pollTwoRegisters (threshold : Int) : PollConfig := ⟨1, threshold, 3, 0, false, [[twoRegisters]]⟩

def opened (made : TaskEvent) (now : Int) : List MonitoredEvent :=
  [.task made now, .configure now, .task .connected now, .cycle 0]

def rejectedTwice : List MonitoredEvent :=
  .start (pollTwoRegisters 2) :: opened (.begin true) 0 ++
    [.read 0 (.failed (.codec (.modbusException 3 2)) "ILLEGAL_DATA_ADDRESS") 1,
      .read 0 (.failed (.codec (.modbusException 3 2)) "ILLEGAL_DATA_ADDRESS") 2]

theorem dead_reported_rejected : ∃ s,
    monitoredMachine.run (.new (pollTwoRegisters 2)) rejectedTwice = some s ∧
      s.failures = 2 ∧ s.reported = .notConnected ∧ s.DeadReported := by
  obtain ⟨s, hs, hv⟩ := Option.map_eq_some_iff.1
    (show (monitoredMachine.run (.new (pollTwoRegisters 2)) rejectedTwice).map
        (fun s => (s.failures, s.reported)) = some (2, .notConnected) by decide +kernel)
  obtain ⟨hfailures, hreported⟩ := Prod.mk.inj hv
  refine ⟨s, hs, hfailures, hreported, dead_reported_run _ rejectedTwice s ?_ hs⟩
  refine ⟨rfl, rfl, trivial, trivial, trivial, .inl ?_, .inl ?_, trivial⟩
  · exact ⟨0, twoRegisters, [], 3, 2, rfl, rfl, rfl⟩
  · exact ⟨0, ⟨.readHoldingRegisters, 0, 1, [(0, 1)]⟩, [⟨.readHoldingRegisters, 1, 1, [(1, 1)]⟩],
      3, 2, rfl, rfl, rfl⟩

def timedOut (now : Int) : List MonitoredEvent :=
  [.read 0 (.failed .timeout "") now, .task (.recovered 5) now] ++ opened (.woke true) now

/-- **A dead device that is unknown.**  Three requests in a row time out, as many as the
threshold says.  A timeout is not recorded, and ends the driver: the fourth one has a new
tracker. -/
theorem timeouts_reported_unknown : ∃ s,
    monitoredMachine.run (.new (pollTwoRegisters 3))
        (.start (pollTwoRegisters 3) :: opened (.begin true) 0 ++ timedOut 10 ++ timedOut 20 ++
          timedOut 30) = some s ∧
      s.config.consecutiveFailureThreshold = 3 ∧ s.failures = 3 ∧ s.reported = .unknown ∧
      ¬ s.DeadReported := by
  obtain ⟨s, hs, hv⟩ := Option.map_eq_some_iff.1
    (show (monitoredMachine.run (.new (pollTwoRegisters 3))
        (.start (pollTwoRegisters 3) :: opened (.begin true) 0 ++ timedOut 10 ++ timedOut 20 ++
          timedOut 30)).map
        (fun s => (s.config.consecutiveFailureThreshold, s.failures, s.reported)) =
      some (3, 3, .unknown) by decide +kernel)
  simp only [Prod.mk.injEq] at hv
  obtain ⟨hthreshold, hfailures, hreported⟩ := hv
  refine ⟨s, hs, hthreshold, hfailures, hreported, fun hdead => ?_⟩
  have hstate := hdead (by omega) (by omega)
  rw [hreported] at hstate
  cases hstate

end XEdge.Modbus
