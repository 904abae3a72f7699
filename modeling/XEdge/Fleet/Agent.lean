import XEdge.Lib.Machine

/-!
# The heartbeat loop of a device (`xedge/fleet/agent.py`)

Each round of the loop sends a heartbeat with the report on the configuration that was applied
last, if it has not been sent yet; the answer may carry the next configuration, which is
validated and written at once.  The report is cleared as soon as the heartbeat has succeeded,
and set again when the configuration has been dealt with.
-/

namespace XEdge.Fleet

open Lib

/-! ## One round -/

/-- A report: what `_apply_pending_config` returns. -/
structure ApplyReport where
  version : Nat
  success : Bool
  error : Option String
  deriving DecidableEq, Repr

/-- What `validator.validate` does. -/
inductive Validation where
  | accepted
  /-- `ConfigValidationError`. -/
  | rejected (error : String)
  | raised
  deriving DecidableEq, Repr

/-- What `config_path.write_text` does, with the `yaml.safe_dump` before it. -/
inductive FileWrite where
  | written
  | osError (error : String)
  | raised
  deriving DecidableEq, Repr

/-- How `_apply_pending_config` ends. -/
inductive Applied where
  | report (r : ApplyReport)
  | osError (error : String)
  | raised
  deriving DecidableEq, Repr

def applyPendingConfig (version : Nat) (validation : Validation) (write : FileWrite) : Applied :=
  match validation with
  | .rejected error => .report ⟨version, false, some error⟩
  | .raised => .raised
  | .accepted =>
      match write with
      | .written => .report ⟨version, true, none⟩
      | .osError error => .osError error
      | .raised => .raised

inductive HeartbeatBody (C : Type*) where
  | malformed
  | noConfig
  /-- A configuration; a version that is missing is a `KeyError`. -/
  | config (config : C) (version : Option Nat)
  deriving DecidableEq, Repr

inductive HeartbeatOutcome (C : Type*) where
  /-- `httpx.HTTPError` or `OSError`, from the request or from `raise_for_status`. -/
  | failed (error : String)
  | raised
  | answered (body : HeartbeatBody C)
  deriving DecidableEq, Repr

inductive Rotation where
  | notDue
  | rotated
  /-- `httpx.HTTPError` or `OSError`. -/
  | failed
  | raised
  deriving DecidableEq, Repr

structure Iteration (C : Type*) where
  heartbeat : HeartbeatOutcome C
  validation : Validation
  write : FileWrite
  rotation : Rotation
  deriving DecidableEq, Repr

structure Agent (C : Type*) where
  pendingReport : Option ApplyReport
  lastHeartbeatOk : Option Bool
  lastError : Option String
  lastConfigApply : Option ApplyReport
  running : Bool
  /-- Ghost: the version that was received last. -/
  received : Option Nat
  /-- Ghost: the reports in the heartbeats that have succeeded. -/
  reported : List ApplyReport
  /-- Ghost: the configurations that were dealt with, with the reports on them. -/
  applied : List (C × ApplyReport)
  deriving DecidableEq, Repr

namespace Agent

variable {C : Type*}

def start : Agent C := ⟨none, none, none, none, true, none, [], []⟩

/-- The heartbeat has succeeded: its report is sent. -/
def sent (a : Agent C) : Agent C :=
  { a with
    pendingReport := none
    lastHeartbeatOk := some true
    lastError := none
    reported := a.reported ++ a.pendingReport.toList }

def receive (a : Agent C) (config : C) (version : Nat) (result : Applied) : Agent C :=
  let a := { a with received := some version }
  match result with
  | .report r =>
      { a with
        pendingReport := some r
        lastConfigApply := some r
        applied := a.applied ++ [(config, r)] }
  | .osError error => { a with lastHeartbeatOk := some false, lastError := some error }
  | .raised => { a with running := false }

def heartbeat (a : Agent C) (it : Iteration C) : Agent C :=
  match it.heartbeat with
  | .failed error => { a with lastHeartbeatOk := some false, lastError := some error }
  | .raised => { a with running := false }
  | .answered .malformed => { a.sent with running := false }
  | .answered .noConfig => a.sent
  | .answered (.config _ none) => { a.sent with running := false }
  | .answered (.config config (some version)) =>
      a.sent.receive config version (applyPendingConfig version it.validation it.write)

def iterate (a : Agent C) (it : Iteration C) : Agent C :=
  match it.heartbeat, it.rotation with
  | .answered _, .raised => { a.heartbeat it with running := false }
  | _, _ => a.heartbeat it

end Agent

def agentMachine (C : Type*) : Machine (Agent C) (Iteration C) where
  step a it := if a.running then some (a.iterate it) else none

/-! ## Verdicts -/

namespace Agent

variable {C : Type*}

/-- The loop runs, and the version that was received last is in the pending report or in one
that was sent. -/
structure Verdict (a : Agent C) : Prop where
  running : a.running = true
  named : ∀ v, a.received = some v →
    (∃ r, a.pendingReport = some r ∧ r.version = v) ∨ v ∈ a.reported.map ApplyReport.version

/-- Nothing is raised but what the loop catches, and a configuration that is accepted can be
written, unless its version has been reported by then. -/
def Reports (a : Agent C) (it : Iteration C) : Prop :=
  match it.heartbeat with
  | .failed _ => True
  | .raised | .answered .malformed | .answered (.config _ none) => False
  | .answered .noConfig => it.rotation ≠ .raised
  | .answered (.config _ (some version)) =>
      it.rotation ≠ .raised ∧ it.validation ≠ .raised ∧
        (it.validation = .accepted → it.write = .written ∨
          it.write ≠ .raised ∧
            version ∈ (a.reported ++ a.pendingReport.toList).map ApplyReport.version)

variable {a : Agent C}

theorem Verdict.sent (h : a.Verdict) : a.sent.Verdict where
  running := h.running
  named := by
    intro v hv
    refine .inr ?_
    show v ∈ (a.reported ++ a.pendingReport.toList).map ApplyReport.version
    rw [List.map_append, List.mem_append]
    obtain ⟨r, hr, hversion⟩ | hreported := h.named v hv
    · rw [hr]
      exact .inr (List.mem_singleton.2 hversion.symm)
    · exact .inl hreported

/-- A configuration that was received gets its verdict exactly if it gets a report, or had
one. -/
theorem verdict_receive_iff (h : a.running = true) (hnone : a.pendingReport = none)
    (config : C) (version : Nat) (validation : Validation) (write : FileWrite) :
    (a.receive config version (applyPendingConfig version validation write)).Verdict ↔
      validation ≠ .raised ∧ (validation = .accepted → write = .written ∨
        write ≠ .raised ∧ version ∈ a.reported.map ApplyReport.version) := by
  cases validation with
  | rejected error =>
    simp only [ne_eq, reduceCtorEq, not_false_eq_true, false_implies, and_self, iff_true]
    refine ⟨h, fun v hv => .inl ⟨_, rfl, ?_⟩⟩
    exact Option.some.inj hv
  | raised =>
    simp only [ne_eq, not_true_eq_false, false_and, iff_false]
    intro hverdict
    exact Bool.noConfusion hverdict.running
  | accepted =>
    simp only [ne_eq, reduceCtorEq, not_false_eq_true, forall_const, true_and]
    cases write with
    | written =>
      simp only [true_or, iff_true]
      refine ⟨h, fun v hv => .inl ⟨_, rfl, ?_⟩⟩
      exact Option.some.inj hv
    | osError error =>
      simp only [reduceCtorEq, not_false_eq_true, true_and, false_or]
      constructor
      · intro hverdict
        obtain ⟨r, hr, -⟩ | hreported := hverdict.named version rfl
        · have hpending : a.pendingReport = some r := hr
          rw [hnone] at hpending
          cases hpending
        · exact hreported
      · intro hreported
        refine ⟨h, fun v hv => .inr ?_⟩
        obtain rfl : version = v := Option.some.inj hv
        exact hreported
    | raised =>
      simp only [not_true_eq_false, false_and, reduceCtorEq, or_self, iff_false]
      intro hverdict
      exact Bool.noConfusion hverdict.running

theorem not_verdict_of_ended (h : a.running = false) : ¬ a.Verdict := by
  intro hverdict
  rw [hverdict.running] at h
  cases h

/-- **One round**: every configuration that was received has its verdict exactly if the round
is one that reports. -/
theorem verdict_iterate_iff (h : a.Verdict) (it : Iteration C) :
    (a.iterate it).Verdict ↔ a.Reports it := by
  obtain ⟨outcome, validation, write, rotation⟩ := it
  cases outcome with
  | failed error =>
    refine ⟨fun _ => trivial, fun _ => ?_⟩
    cases rotation <;> exact ⟨h.running, h.named⟩
  | raised =>
    refine iff_of_false (not_verdict_of_ended ?_) id
    cases rotation <;> rfl
  | answered body =>
    by_cases hrotation : rotation = .raised
    · subst hrotation
      refine iff_of_false (not_verdict_of_ended rfl) ?_
      cases body with
      | malformed => exact id
      | noConfig => exact fun hne => hne rfl
      | config config version =>
        cases version with
        | none => exact id
        | some version => exact fun hreports => hreports.1 rfl
    · have hiterate : a.iterate ⟨.answered body, validation, write, rotation⟩ =
          a.heartbeat ⟨.answered body, validation, write, rotation⟩ := by
        cases rotation with
        | raised => exact absurd rfl hrotation
        | notDue | rotated | failed => rfl
      rw [hiterate]
      cases body with
      | malformed => exact iff_of_false (not_verdict_of_ended rfl) id
      | noConfig => exact ⟨fun _ => hrotation, fun _ => h.sent⟩
      | config config version =>
        cases version with
        | none => exact iff_of_false (not_verdict_of_ended rfl) id
        | some version =>
          have hreceive := verdict_receive_iff (a := a.sent) h.running rfl config version
            validation write
          refine hreceive.trans ?_
          exact ⟨fun hreports => ⟨hrotation, hreports⟩, fun hreports => hreports.2⟩

end Agent

/-- **When every configuration gets its verdict.**  At the end of each round of a run, the loop
is still running and the version that was received last is reported or about to be, exactly if
all rounds are ones that report. -/
theorem verdict_iff {C : Type*} (its : List (Iteration C)) (a : Agent C)
    (hrun : (agentMachine C).run .start its = some a) :
    (agentMachine C).Always Agent.Verdict .start its ↔
      (agentMachine C).Meets Agent.Reports .start its := by
  have hstart : (Agent.start : Agent C).Verdict := ⟨rfl, fun v hv => by cases hv⟩
  refine (agentMachine C).always_iff_meets (I := fun _ => True) (fun _ _ _ _ _ => trivial) ?_
    trivial hstart hrun
  intro a it a' _ hverdict hstep
  have ha' : a.iterate it = a' := by
    rw [agentMachine] at hstep
    simpa [hverdict.running] using hstep
  rw [← ha']
  exact Agent.verdict_iterate_iff hverdict it

def deliver (config version : Nat) (validation : Validation) (write : FileWrite) :
    Iteration Nat := ⟨.answered (.config config (some version)), validation, write, .notDue⟩

def unreachable : Iteration Nat := ⟨.failed "timed out", .accepted, .written, .notDue⟩

theorem verdict_outage : ∃ a,
    (agentMachine Nat).run .start
      [deliver 10 1 .accepted .written, unreachable, deliver 20 2 (.rejected "port") .written] =
        some a ∧
      a.reported = [⟨1, true, none⟩] ∧ a.pendingReport = some ⟨2, false, some "port"⟩ ∧
      a.Verdict := by
  obtain ⟨a, ha, hv⟩ := Option.map_eq_some_iff.1
    (show ((agentMachine Nat).run .start
      [deliver 10 1 .accepted .written, unreachable, deliver 20 2 (.rejected "port") .written]).map
        (fun a => (a.reported, a.pendingReport)) =
      some ([⟨1, true, none⟩], some ⟨2, false, some "port"⟩) by decide +kernel)
  obtain ⟨hreported, hpending⟩ := Prod.mk.inj hv
  have halways := (verdict_iff _ a ha).2 (by
    refine ⟨⟨?_, ?_, fun _ => .inl rfl⟩, trivial, ⟨?_, ?_, fun h => by cases h⟩, trivial⟩
    all_goals exact nofun)
  exact ⟨a, ha, hreported, hpending, halways _ [] a (List.append_nil _).symm ha⟩

/-- **A configuration without a verdict**: it is accepted, the disk is full, and the loop goes
on with no report on it. -/
theorem write_error_unreported : ∃ a,
    (agentMachine Nat).run .start [deliver 10 1 .accepted (.osError "No space left on device")] =
        some a ∧
      a.running = true ∧ a.received = some 1 ∧ a.pendingReport = none ∧ a.reported = [] ∧
      ¬ a.Verdict := by
  obtain ⟨a, ha, hv⟩ := Option.map_eq_some_iff.1
    (show ((agentMachine Nat).run .start
      [deliver 10 1 .accepted (.osError "No space left on device")]).map
        (fun a => (a.running, a.received, a.pendingReport, a.reported)) =
      some (true, some 1, none, []) by decide +kernel)
  simp only [Prod.mk.injEq] at hv
  obtain ⟨hrunning, hreceived, hpending, hreported⟩ := hv
  refine ⟨a, ha, hrunning, hreceived, hpending, hreported, fun hverdict => ?_⟩
  obtain ⟨r, hr, -⟩ | hmem := hverdict.named 1 hreceived
  · rw [hpending] at hr
    cases hr
  · rw [hreported] at hmem
    exact absurd hmem List.not_mem_nil

end XEdge.Fleet
