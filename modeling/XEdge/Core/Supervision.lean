import XEdge.Lib.Machine
import XEdge.Lib.Dict

/-!
# Supervised tasks (`xedge/core/supervisor.py`)

The supervisor keeps two tables by instance id, the task that supervises the driver and
the status that the API reports.  `start` makes both; `stop` takes the task out of its
table, cancels it, awaits its end and then writes `STOPPED` into whatever status it finds;
`disable` writes `DISABLED` on top.  The task itself, `_supervise`, opens and runs the
driver, restarts it with a growing delay, and writes its state into the status it found
when it began.

Both `stop` and `_supervise` suspend, and the REST API and the watch loop call
independently.  An event resumes one of them up to its next suspension.
-/

namespace XEdge.Core.Supervision

open Lib

/-! ## The status and the task -/

inductive DriverState where
  | stopped
  | starting
  | running
  | backoff
  | failed
  | disabled
  deriving DecidableEq, Repr

inductive Cause where
  | task
  /-- By a `stop` or `disable`, or by the task because one of them cancelled it. -/
  | call
  deriving DecidableEq, Repr

/-- `DriverInstanceStatus`, as far as the supervisor writes it. -/
structure Status where
  state : DriverState
  cause : Cause
  consecutiveFailures : Nat
  lastError : Option String
  deriving DecidableEq, Repr

def Status.OffByCall (st : Status) : Prop :=
  (st.state = .stopped ∨ st.state = .disabled) ∧ st.cause = .call

instance (st : Status) : Decidable st.OffByCall := inferInstanceAs (Decidable (_ ∧ _))

def setState (state : DriverState) (cause : Cause) (st : Status) : Status :=
  { st with state, cause }

def INITIAL_BACKOFF_SECONDS : Nat := 1

def MAX_BACKOFF_SECONDS : Nat := 300

def BACKOFF_MULTIPLIER : Nat := 2

def BACKOFF_RESET_THRESHOLD_SECONDS : ℚ := 60

/-- Where `_supervise` is suspended. -/
inductive TaskPhase where
  | created
  /-- `await driver.configure(config)` or `await driver.connect()`. -/
  | opening
  /-- `await driver.run(self._output_queue)`. -/
  | running
  /-- `await driver.disconnect()` after `run` returned. -/
  | closing
  /-- `await _safe_disconnect(...)` after a failure. -/
  | recovering
  /-- `await asyncio.sleep(backoff)`. -/
  | sleeping
  /-- `await _safe_disconnect(...)` after a cancellation. -/
  | winding
  deriving DecidableEq, Repr

/-- A task that runs `_supervise` and has not ended. -/
structure Task where
  phase : TaskPhase
  /-- `cancel()` was called, and its `CancelledError` has not come out yet. -/
  cancelled : Bool
  /-- The local `status`: which status it writes to, once it has begun. -/
  status : Option Nat
  /-- The local `backoff`, in seconds. -/
  backoff : Nat
  deriving DecidableEq, Repr

inductive TaskEvent where
  /-- The first step; `created` says whether `registry.create` returned. -/
  | begin (created : Bool)
  | connected
  | runReturned
  | disconnected
  /-- The driver raised an `Exception`. -/
  | raised (error : String)
  /-- `_safe_disconnect` is over, so many seconds after the attempt began. -/
  | recovered (elapsed : ℚ)
  | woke (created : Bool)
  /-- The `CancelledError` comes out of the await. -/
  | cancelledError
  deriving DecidableEq

inductive Fate where
  | suspended (task : Task)
  /-- It ended, by returning or by `CancelledError`. -/
  | ended
  /-- It ended in an `Exception`. -/
  | failed
  deriving DecidableEq

namespace Task

/-- The head of the `while True`. -/
def loopHead (task : Task) (created : Bool) : Fate × (Status → Status) :=
  if created then
    (.suspended { task with phase := .opening, cancelled := false }, setState .starting .task)
  else (.failed, id)

/-- `_supervise` from one suspension to the next: what becomes of the task, and what it
does to its status.  An await that ends normally has swallowed a cancellation. -/
def resume (task : Task) : TaskEvent → Option (Fate × (Status → Status))
  | .begin created =>
      -- a coroutine that was cancelled before its first step never runs
      if task.phase = .created ∧ task.cancelled = false then some (task.loopHead created) else none
  | .connected =>
      if task.phase = .opening then
        some (.suspended { task with phase := .running, cancelled := false },
          setState .running .task)
      else none
  | .runReturned =>
      if task.phase = .running then
        some (.suspended { task with phase := .closing, cancelled := false },
          setState .stopped .task)
      else none
  | .disconnected => if task.phase = .closing then some (.ended, id) else none
  | .raised error =>
      if task.phase = .opening ∨ task.phase = .running ∨ task.phase = .closing then
        some (.suspended { task with phase := .recovering, cancelled := false }, fun st =>
          { st with
            state := .backoff
            cause := .task
            consecutiveFailures := st.consecutiveFailures + 1
            lastError := some error })
      else none
  | .recovered elapsed =>
      match task.phase with
      | .recovering =>
          if BACKOFF_RESET_THRESHOLD_SECONDS ≤ elapsed then
            some (.suspended
              { task with
                phase := .sleeping, cancelled := false, backoff := INITIAL_BACKOFF_SECONDS },
              fun st => { st with consecutiveFailures := 1 })
          else some (.suspended { task with phase := .sleeping, cancelled := false }, id)
      | .winding => some (.ended, id)
      | _ => none
  | .woke created =>
      if task.phase = .sleeping then
        some ({ task with
          backoff := min (task.backoff * BACKOFF_MULTIPLIER) MAX_BACKOFF_SECONDS }.loopHead created)
      else none
  | .cancelledError =>
      if task.cancelled then
        match task.phase with
        | .opening | .running | .closing =>
            some (.suspended { task with phase := .winding, cancelled := false },
              setState .stopped .call)
        | .sleeping => some (.ended, setState .stopped .call)
        -- the handler of the failure does not catch it
        | .created | .recovering | .winding => some (.ended, id)
      else none

end Task

/-- The task is resumed by the event: what becomes of it, and what it writes. -/
inductive Resumed (task : Task) : TaskEvent → Fate → (Status → Status) → Prop
  | begun (hphase : task.phase = .created) : Resumed task (.begin true)
      (.suspended { task with phase := .opening, cancelled := false }) (setState .starting .task)
  | notCreated : Resumed task (.begin false) .failed id
  | connected (hphase : task.phase = .opening) : Resumed task .connected
      (.suspended { task with phase := .running, cancelled := false }) (setState .running .task)
  | runReturned (hphase : task.phase = .running) : Resumed task .runReturned
      (.suspended { task with phase := .closing, cancelled := false }) (setState .stopped .task)
  | disconnected : Resumed task .disconnected .ended id
  | raised (error : String)
      (hphase : task.phase = .opening ∨ task.phase = .running ∨ task.phase = .closing) :
      Resumed task (.raised error)
        (.suspended { task with phase := .recovering, cancelled := false })
        fun st =>
          { st with
            state := .backoff
            cause := .task
            consecutiveFailures := st.consecutiveFailures + 1
            lastError := some error }
  | recoveredLong (elapsed : ℚ) (hphase : task.phase = .recovering)
      (hlong : BACKOFF_RESET_THRESHOLD_SECONDS ≤ elapsed) : Resumed task (.recovered elapsed)
        (.suspended
          { task with phase := .sleeping, cancelled := false, backoff := INITIAL_BACKOFF_SECONDS })
        fun st => { st with consecutiveFailures := 1 }
  | recoveredShort (elapsed : ℚ) (hphase : task.phase = .recovering)
      (hshort : elapsed < BACKOFF_RESET_THRESHOLD_SECONDS) : Resumed task (.recovered elapsed)
        (.suspended { task with phase := .sleeping, cancelled := false }) id
  | wound (elapsed : ℚ) (hphase : task.phase = .winding) :
      Resumed task (.recovered elapsed) .ended id
  | woken (hphase : task.phase = .sleeping) : Resumed task (.woke true)
      (.suspended
        { task with
          phase := .opening
          cancelled := false
          backoff := min (task.backoff * BACKOFF_MULTIPLIER) MAX_BACKOFF_SECONDS })
      (setState .starting .task)
  | notCreatedAgain : Resumed task (.woke false) .failed id
  | winding (hcancelled : task.cancelled = true) : Resumed task .cancelledError
      (.suspended { task with phase := .winding, cancelled := false }) (setState .stopped .call)
  | cancelled (hcancelled : task.cancelled = true) (write : Status → Status) :
      Resumed task .cancelledError .ended write

variable {task task' : Task} {ev : TaskEvent} {fate : Fate} {w : Status → Status}

theorem resumed_of_resume (h : task.resume ev = some (fate, w)) : Resumed task ev fate w := by
  cases ev with
  | begin created =>
    simp only [Task.resume, Task.loopHead] at h
    split at h
    · next hphase =>
      cases created <;> cases h
      · exact .notCreated
      · exact .begun hphase.1
    · cases h
  | woke created =>
    simp only [Task.resume, Task.loopHead] at h
    split at h
    · next hphase =>
      cases created <;> cases h
      · exact .notCreatedAgain
      · exact .woken hphase
    · cases h
  | connected =>
    simp only [Task.resume] at h
    split at h <;> cases h
    exact .connected ‹_›
  | runReturned =>
    simp only [Task.resume] at h
    split at h <;> cases h
    exact .runReturned ‹_›
  | disconnected =>
    simp only [Task.resume] at h
    split at h <;> cases h
    exact .disconnected
  | raised error =>
    simp only [Task.resume] at h
    split at h <;> cases h
    exact .raised error ‹_›
  | recovered elapsed =>
    simp only [Task.resume] at h
    split at h
    · next hphase =>
      split at h <;> cases h
      · exact .recoveredLong elapsed hphase ‹_›
      · exact .recoveredShort elapsed hphase (not_le.1 ‹_›)
    · next hphase =>
      cases h
      exact .wound elapsed hphase
    · cases h
  | cancelledError =>
    simp only [Task.resume] at h
    split at h
    · next hcancelled =>
      split at h <;> cases h
      · exact .winding hcancelled
      · exact .winding hcancelled
      · exact .winding hcancelled
      · exact .cancelled hcancelled _
      · exact .cancelled hcancelled _
      · exact .cancelled hcancelled _
      · exact .cancelled hcancelled _
    · cases h

theorem Task.not_offByCall_resume (h : task.resume ev = some (fate, w))
    (hc : task.cancelled = false) {st : Status} (hst : ¬ st.OffByCall) : ¬ (w st).OffByCall := by
  cases resumed_of_resume h with
  | begun | connected | runReturned | raised | woken => simp [Status.OffByCall, setState]
  | notCreated | disconnected | recoveredLong | recoveredShort | wound | notCreatedAgain =>
    exact hst
  | winding hcancelled | cancelled hcancelled => simp [hc] at hcancelled

/-- A task that goes on has no cancellation pending, has begun, and writes to the same
status. -/
theorem Task.suspended_resume (h : task.resume ev = some (.suspended task', w)) :
    task'.cancelled = false ∧ task'.phase ≠ .created ∧ task'.status = task.status := by
  cases resumed_of_resume h <;> exact ⟨rfl, by simp, rfl⟩

/-! ## The supervisor's side -/

/-- A suspended `stop()` or `disable()`. -/
structure Call where
  /-- It is a `disable()`. -/
  disable : Bool
  task : Nat
  deriving DecidableEq, Repr

/-- The supervisor, at one instance id.  Tasks and statuses are numbered together, as
`start` makes them. -/
structure Instance where
  /-- `_tasks.get(instance_id)`. -/
  tracked : Option Nat
  /-- `_status.get(instance_id)`. -/
  reported : Option Nat
  statuses : Dict Nat Status
  tasks : Dict Nat Task
  /-- The tasks that ended in an `Exception`. -/
  failed : List Nat
  calls : List Call
  nextId : Nat
  deriving DecidableEq

inductive InstanceEvent where
  /-- `start()` is called. -/
  | start
  /-- `stop()`, or `disable()`, is called. -/
  | stop (disable : Bool)
  /-- The `i`-th suspended call goes on: the task it awaits has ended. -/
  | callResumed (i : Nat)
  | task (t : Nat) (ev : TaskEvent)
  deriving DecidableEq

namespace Instance

def new : Instance := ⟨none, none, .empty, .empty, [], [], 0⟩

def update (s : Instance) (obj : Option Nat) (w : Status → Status) : Instance :=
  match obj.bind fun o => (s.statuses.get? o).map fun st => (o, st) with
  | some (o, st) => { s with statuses := s.statuses.set o (w st) }
  | none => s

/-- The end of a `stop()` or `disable()` whose task has ended: it raises what the task
raised, or writes the state. -/
def finishCall (s : Instance) (c : Call) : Instance :=
  if c.task ∈ s.failed then s
  else
    let stopped := s.update s.reported (setState .stopped .call)
    if c.disable then stopped.update stopped.reported (setState .disabled .call) else stopped

def resumeTask (s : Instance) (t : Nat) (ev : TaskEvent) : Option Instance :=
  match s.tasks.get? t with
  | none => none
  | some task =>
      -- `status = self._status[instance_id]`, in the first step
      let task := match ev with
        | .begin _ => { task with status := s.reported }
        | _ => task
      match task.resume ev with
      | none => none
      | some (.suspended task', w) =>
          some { s.update task.status w with tasks := s.tasks.set t task' }
      | some (.ended, w) => some { s.update task.status w with tasks := s.tasks.erase t }
      | some (.failed, w) =>
          some { s.update task.status w with
            tasks := s.tasks.erase t, failed := s.failed ++ [t] }

def step (s : Instance) : InstanceEvent → Option Instance
  | .start =>
      match s.tracked with
      -- `ValueError`: already running
      | some _ => some s
      | none =>
          some { s with
            tracked := some s.nextId
            reported := some s.nextId
            statuses := s.statuses.set s.nextId ⟨.starting, .task, 0, none⟩
            tasks := s.tasks.set s.nextId ⟨.created, false, none, INITIAL_BACKOFF_SECONDS⟩
            nextId := s.nextId + 1 }
  | .stop disable =>
      match s.tracked with
      | none => some (if disable then s.update s.reported (setState .disabled .call) else s)
      | some t =>
          match s.tasks.get? t with
          -- the await of a task that has ended does not suspend
          | none => some ({ s with tracked := none }.finishCall ⟨disable, t⟩)
          | some task =>
              some { s with
                tracked := none
                tasks := s.tasks.set t { task with cancelled := true }
                calls := s.calls ++ [⟨disable, t⟩] }
  | .callResumed i =>
      match s.calls[i]? with
      | some c =>
          if (s.tasks.get? c.task).isNone then
            some ({ s with calls := s.calls.eraseIdx i }.finishCall c)
          else none
      | none => none
  | .task t ev => s.resumeTask t ev

/-- A `start()` is not called while a `stop()` or `disable()` is suspended, unless the
instance is in the table, when it raises. -/
def Orderly (s : Instance) : InstanceEvent → Prop
  | .start => s.tracked = none → s.calls = []
  | _ => True

instance (s : Instance) : (e : InstanceEvent) → Decidable (s.Orderly e)
  | .start => inferInstanceAs (Decidable (_ → _))
  | .stop _ | .callResumed _ | .task _ _ => isTrue trivial

/-- At most one task is alive, and without a call in progress a live task is not reported
as turned off by one. -/
def OneTask (s : Instance) : Prop :=
  s.tasks.entries.length ≤ 1 ∧
    (s.calls = [] → s.tasks.entries ≠ [] →
      ∀ o st, s.reported = some o → s.statuses.get? o = some st → ¬ st.OffByCall)

/-! ## What the operations do, seen from outside -/

theorem update_eq (s : Instance) (obj : Option Nat) (w : Status → Status) :
    ∃ d, s.update obj w = { s with statuses := d } := by
  unfold update
  split
  · exact ⟨_, rfl⟩
  · exact ⟨s.statuses, rfl⟩

variable {s : Instance} {obj : Option Nat}

theorem get?_update {o : Nat} {P : Status → Prop} (hw : ∀ st, obj = some o → P st → P (w st))
    (h : ∃ st, s.statuses.get? o = some st ∧ P st) :
    ∃ st, (s.update obj w).statuses.get? o = some st ∧ P st := by
  obtain ⟨st, hget, hst⟩ := h
  unfold update
  split
  · next o' st' hobj =>
    obtain ⟨o'', rfl, hobj⟩ := Option.bind_eq_some_iff.1 hobj
    obtain ⟨st'', hget', heq⟩ := Option.map_eq_some_iff.1 hobj
    obtain ⟨rfl, rfl⟩ := Prod.mk.inj heq
    simp only [Dict.get?_set]
    split
    · next heq =>
      subst heq
      rw [hget] at hget'
      cases hget'
      exact ⟨_, rfl, hw _ rfl hst⟩
    · exact ⟨st, hget, hst⟩
  · exact ⟨st, hget, hst⟩

theorem finishCall_eq (s : Instance) (c : Call) :
    ∃ d, s.finishCall c = { s with statuses := d } := by
  unfold finishCall
  split
  · exact ⟨s.statuses, rfl⟩
  · obtain ⟨d, hd⟩ := s.update_eq s.reported (setState .stopped .call)
    simp only [hd]
    split
    · exact update_eq { s with statuses := d } s.reported _
    · exact ⟨d, rfl⟩

/-- The event leads from `s` to the last argument. -/
inductive Step (s : Instance) : InstanceEvent → Instance → Prop
  | alreadyRunning (t : Nat) (ht : s.tracked = some t) : Step s .start s
  | start (ht : s.tracked = none) : Step s .start
      { s with
        tracked := some s.nextId
        reported := some s.nextId
        statuses := s.statuses.set s.nextId ⟨.starting, .task, 0, none⟩
        tasks := s.tasks.set s.nextId ⟨.created, false, none, INITIAL_BACKOFF_SECONDS⟩
        nextId := s.nextId + 1 }
  | stopAtOnce (disable : Bool) (d : Dict Nat Status)
      (ht : ∀ t, s.tracked = some t → s.tasks.get? t = none) :
      Step s (.stop disable) { s with tracked := none, statuses := d }
  | stop (disable : Bool) (t : Nat) (task : Task) (ht : s.tracked = some t)
      (htask : s.tasks.get? t = some task) : Step s (.stop disable)
        { s with
          tracked := none
          tasks := s.tasks.set t { task with cancelled := true }
          calls := s.calls ++ [⟨disable, t⟩] }
  | callResumed (i : Nat) (c : Call) (d : Dict Nat Status) (hi : s.calls[i]? = some c)
      (ht : s.tasks.get? c.task = none) :
      Step s (.callResumed i) { s with calls := s.calls.eraseIdx i, statuses := d }
  | suspended (t : Nat) (ev : TaskEvent) (task task' : Task) (w : Status → Status)
      (htask : s.tasks.get? t = some task)
      (hstatus : task'.status = task.status ∨
        task.phase = .created ∧ task.cancelled = false ∧ task'.status = s.reported)
      (hresume : { task with status := task'.status }.resume ev = some (.suspended task', w)) :
      Step s (.task t ev) { s.update task'.status w with tasks := s.tasks.set t task' }
  | gone (t : Nat) (ev : TaskEvent) (task : Task) (obj : Option Nat) (fate : Fate)
      (w : Status → Status) (failed : List Nat) (htask : s.tasks.get? t = some task)
      (hresume : { task with status := obj }.resume ev = some (fate, w)) :
      Step s (.task t ev) { s.update obj w with tasks := s.tasks.erase t, failed := failed }

variable {s' : Instance} {t : Nat}

theorem resumeTask_cases (h : s.resumeTask t ev = some s') : Step s (.task t ev) s' := by
  unfold resumeTask at h
  split at h
  · cases h
  · next task htask =>
    -- the task with the status it writes to
    obtain ⟨obj, hobj, hstatus⟩ : ∃ obj, (match ev with
        | .begin _ => { task with status := s.reported }
        | _ => task) = { task with status := obj } ∧
        (obj = task.status ∨ (∃ b, ev = .begin b) ∧ obj = s.reported) := by
      cases ev with
      | begin b => exact ⟨s.reported, rfl, Or.inr ⟨⟨b, rfl⟩, rfl⟩⟩
      | _ => exact ⟨task.status, rfl, Or.inl rfl⟩
    simp only [hobj] at h
    split at h
    · cases h
    · next task' w hresume =>
      cases h
      obtain ⟨-, -, hst⟩ := Task.suspended_resume hresume
      subst hst
      refine .suspended t ev task task' w htask ?_ hresume
      refine hstatus.imp_right ?_
      rintro ⟨⟨b, rfl⟩, hrep⟩
      simp only [Task.resume] at hresume
      split at hresume
      · next hph => exact ⟨hph.1, hph.2, hrep⟩
      · cases hresume
    · next w hresume =>
      cases h
      obtain ⟨d, hd⟩ := s.update_eq obj w
      have := Step.gone t ev task obj .ended w s.failed htask hresume
      rw [hd] at this ⊢
      exact this
    · next w hresume =>
      cases h
      exact .gone t ev task obj .failed w _ htask hresume

variable {e : InstanceEvent}

theorem step_cases (h : s.step e = some s') :
    Step s e s' := by
  cases e with
  | start =>
    simp only [step] at h
    split at h <;> cases h
    · exact .alreadyRunning _ ‹_›
    · exact .start ‹_›
  | stop disable =>
    simp only [step] at h
    split at h
    · next ht =>
      cases h
      have hnone : ∀ t, s.tracked = some t → s.tasks.get? t = none := by simp [ht]
      obtain ⟨d, hd⟩ := s.update_eq s.reported (setState .disabled .call)
      cases disable with
      | true =>
        have := Step.stopAtOnce true d hnone
        rw [← ht] at this
        rw [if_pos rfl, hd]
        exact this
      | false =>
        have := Step.stopAtOnce false s.statuses hnone
        rw [← ht] at this
        exact this
    · next t ht =>
      split at h <;> cases h
      · next hgone =>
        obtain ⟨d, hd⟩ := finishCall_eq { s with tracked := none } ⟨disable, t⟩
        rw [hd]
        refine .stopAtOnce disable d fun t' ht' => ?_
        rw [ht] at ht'
        cases ht'
        exact hgone
      · exact .stop disable t _ ht ‹_›
  | callResumed i =>
    simp only [step] at h
    split at h
    · next c hc =>
      split at h <;> cases h
      next hgone =>
      obtain ⟨d, hd⟩ := finishCall_eq { s with calls := s.calls.eraseIdx i } c
      rw [hd]
      exact .callResumed i c d hc (Option.isNone_iff_eq_none.1 hgone)
    · cases h
  | task t ev => exact resumeTask_cases h

/-! ## One task at a time -/

structure Sole (s : Instance) : Prop where
  owner : ∀ t task, s.tasks.get? t = some task → s.tracked = some t ∨ ∃ c ∈ s.calls, c.task = t
  alone : ∀ t, s.tracked = some t → s.calls = []
  one : s.calls.length ≤ 1
  kept : ∀ t task, s.tracked = some t → s.tasks.get? t = some task → task.cancelled = false
  pending : ∀ t task, s.tasks.get? t = some task → task.phase = .created →
    task.cancelled = false → s.tracked = some t
  own : ∀ t task o, s.tasks.get? t = some task → task.status = some o → o = t
  /-- The status reported for the task in the table is its own, and no call turned it off. -/
  honest : ∀ t, s.tracked = some t →
    s.reported = some t ∧ ∃ st, s.statuses.get? t = some st ∧ ¬ st.OffByCall

theorem sole_new : new.Sole where
  owner := by simp [new]
  alone := by simp [new]
  one := by simp [new]
  kept := by simp [new]
  pending := by simp [new]
  own := by simp [new]
  honest := by simp [new]

theorem Sole.unique (h : s.Sole) {t' : Nat}
    (ht : s.tasks.get? t = some task) (ht' : s.tasks.get? t' = some task') : t = t' := by
  have hcalls : ∀ c ∈ s.calls, ∀ c' ∈ s.calls, c = c' := by
    have hone := h.one
    match hc : s.calls with
    | [] => simp
    | [_] => simp
    | _ :: _ :: _ => simp [hc] at hone
  rcases h.owner t task ht with htr | ⟨c, hc, rfl⟩
  · rcases h.owner t' task' ht' with htr' | ⟨c', hc', rfl⟩
    · exact Option.some.inj (htr.symm.trans htr')
    · simp [h.alone t htr] at hc'
  · rcases h.owner t' task' ht' with htr' | ⟨c', hc', rfl⟩
    · simp [h.alone t' htr'] at hc
    · rw [hcalls c hc c' hc']

theorem Sole.none_alive (h : s.Sole) (ht : s.tracked = none) (hc : s.calls = [])
    (t : Nat) : s.tasks.get? t = none := by
  cases htask : s.tasks.get? t with
  | none => rfl
  | some task =>
    rcases h.owner t task htask with htr | ⟨c, hmem, -⟩
    · rw [ht] at htr
      cases htr
    · simp [hc] at hmem

theorem Sole.oneTask (h : s.Sole) : s.OneTask := by
  refine ⟨?_, fun hc hlive o st ho hst => ?_⟩
  · exact Dict.length_entries_le_one fun t task t' task' ht ht' => h.unique ht ht'
  · obtain ⟨p, hp⟩ := List.exists_mem_of_ne_nil _ hlive
    have htr : s.tracked = some p.1 := by
      rcases h.owner p.1 p.2 ((Dict.get?_eq_some_iff _).2 hp) with htr | ⟨c, hmem, -⟩
      · exact htr
      · simp [hc] at hmem
    obtain ⟨hrep, st', hst', hhonest⟩ := h.honest p.1 htr
    rw [hrep] at ho
    cases ho
    rw [hst'] at hst
    cases hst
    exact hhonest

theorem Sole.of_tracked_none (ht : s.tracked = none)
    (howner : ∀ t task, s.tasks.get? t = some task → ∃ c ∈ s.calls, c.task = t)
    (hone : s.calls.length ≤ 1)
    (hpending : ∀ t task, s.tasks.get? t = some task → task.phase = .created →
      task.cancelled = true)
    (hown : ∀ t task o, s.tasks.get? t = some task → task.status = some o → o = t) : s.Sole where
  owner := fun t task htask => Or.inr (howner t task htask)
  alone := by simp [ht]
  one := hone
  kept := by simp [ht]
  pending := by
    intro t task htask hph hc
    rw [hpending t task htask hph] at hc
    cases hc
  own := hown
  honest := by simp [ht]

theorem sole_start (h : s.Sole) (hG : s.Orderly .start) (ht : s.tracked = none) :
    Sole { s with
      tracked := some s.nextId
      reported := some s.nextId
      statuses := s.statuses.set s.nextId ⟨.starting, .task, 0, none⟩
      tasks := s.tasks.set s.nextId ⟨.created, false, none, INITIAL_BACKOFF_SECONDS⟩
      nextId := s.nextId + 1 } := by
  have hcalls : s.calls = [] := hG ht
  -- nothing else is alive, so the new task is the only one
  have honly : ∀ t task, (s.tasks.set s.nextId
      ⟨.created, false, none, INITIAL_BACKOFF_SECONDS⟩).get? t = some task →
      t = s.nextId ∧ task = ⟨.created, false, none, INITIAL_BACKOFF_SECONDS⟩ := by
    intro t task htask
    refine (Dict.get?_set_eq_some.1 htask).resolve_right fun hold => ?_
    simp [h.none_alive ht hcalls t] at hold
  refine ⟨?_, ?_, ?_, ?_, ?_, ?_, ?_⟩
  · intro t task htask
    exact Or.inl (by rw [(honly t task htask).1])
  · exact fun t _ => hcalls
  · simp [hcalls]
  · intro t task _ htask
    rw [(honly t task htask).2]
  · intro t task htask _ _
    rw [(honly t task htask).1]
  · intro t task o htask hst
    rw [(honly t task htask).2] at hst
    cases hst
  · intro t ht'
    cases ht'
    exact ⟨rfl, _, Dict.get?_set_self .., by simp [Status.OffByCall]⟩

/-- A live task writes to the status of the table's task only if it is that task, and then
nothing that a call caused. -/
theorem Sole.honest_update (h : s.Sole) {task₀ : Task} (htask : s.tasks.get? t = some task)
    (hresume : task₀.resume ev = some (fate, w)) (hsame : task₀.cancelled = task.cancelled)
    (obj : Option Nat) (t' : Nat) (ht' : s.tracked = some t') :
    (s.update obj w).reported = some t' ∧
      ∃ st, (s.update obj w).statuses.get? t' = some st ∧ ¬ st.OffByCall := by
  obtain ⟨hrep, hst⟩ := h.honest t' ht'
  have htr : t = t' := by
    rcases h.owner t task htask with htr | ⟨c, hmem, -⟩
    · exact Option.some.inj (htr.symm.trans ht')
    · simp [h.alone t' ht'] at hmem
  have hcancel : task₀.cancelled = false := by
    rw [hsame]
    exact h.kept t' task ht' (htr ▸ htask)
  refine ⟨?_, get?_update (fun st _ hoff => Task.not_offByCall_resume hresume hcancel hoff) hst⟩
  obtain ⟨d, hd⟩ := s.update_eq obj w
  rw [hd]
  exact hrep

theorem Sole.stopAtOnce (h : s.Sole) (d : Dict Nat Status)
    (ht : ∀ t, s.tracked = some t → s.tasks.get? t = none) :
    Sole { s with tracked := none, statuses := d } := by
  have hgone : ∀ t task, s.tasks.get? t = some task → s.tracked ≠ some t := by
    intro t task htask htr
    rw [ht t htr] at htask
    cases htask
  refine Sole.of_tracked_none rfl (fun t task htask => ?_) h.one
    (fun t task htask hph => ?_) h.own
  · exact (h.owner t task htask).resolve_left (hgone t task htask)
  · by_contra hc
    exact hgone t task htask (h.pending t task htask hph (by simpa using hc))

theorem Sole.stop (h : s.Sole) (disable : Bool)
    (ht : s.tracked = some t) (htask : s.tasks.get? t = some task) :
    Sole { s with
      tracked := none
      tasks := s.tasks.set t { task with cancelled := true }
      calls := s.calls ++ [⟨disable, t⟩] } := by
  have hcalls := h.alone t ht
  -- the task that was in the table is the only one alive
  have honly : ∀ t' task', (s.tasks.set t { task with cancelled := true }).get? t' = some task' →
      t' = t ∧ task' = { task with cancelled := true } := by
    intro t' task' htask'
    refine (Dict.get?_set_eq_some.1 htask').resolve_right ?_
    rintro ⟨hne, hold⟩
    exact hne (h.unique hold htask)
  refine Sole.of_tracked_none rfl ?_ (by simp [hcalls]) ?_ ?_
  · intro t' task' htask'
    exact ⟨⟨disable, t⟩, by simp, (honly t' task' htask').1.symm⟩
  · intro t' task' htask' _
    rw [(honly t' task' htask').2]
  · intro t' task' o htask' hst
    obtain ⟨rfl, rfl⟩ := honly t' task' htask'
    exact h.own t' task o htask hst

/-- When the task that a suspended call awaits has ended, nothing is in the table and no task
is alive. -/
theorem Sole.awaited_gone (h : s.Sole) {c : Call} (hmem : c ∈ s.calls)
    (ht : s.tasks.get? c.task = none) : s.tracked = none ∧ ∀ t, s.tasks.get? t = none := by
  have htr : s.tracked = none := by
    cases htr : s.tracked with
    | none => rfl
    | some t => simp [h.alone t htr] at hmem
  refine ⟨htr, fun t => ?_⟩
  by_contra hlive
  obtain ⟨task, htask⟩ := Option.ne_none_iff_exists'.1 hlive
  rcases h.owner t task htask with htr' | ⟨c', hmem', rfl⟩
  · simp [htr] at htr'
  · have hone := h.one
    match hc : s.calls with
    | [] => simp [hc] at hmem
    | [c₀] =>
      rw [hc, List.mem_singleton] at hmem hmem'
      rw [hmem', ← hmem, ht] at htask
      cases htask
    | _ :: _ :: _ => simp [hc] at hone

theorem Sole.suspended (h : s.Sole)
    (htask : s.tasks.get? t = some task)
    (hstatus : task'.status = task.status ∨
      task.phase = .created ∧ task.cancelled = false ∧ task'.status = s.reported)
    (hresume : { task with status := task'.status }.resume ev = some (.suspended task', w)) :
    Sole { s.update task'.status w with tasks := s.tasks.set t task' } := by
  obtain ⟨hcancel, hphase, -⟩ := Task.suspended_resume hresume
  have hhonest := h.honest_update htask hresume rfl task'.status
  obtain ⟨d, hd⟩ := s.update_eq task'.status w
  rw [hd] at hhonest ⊢
  refine ⟨?_, h.alone, h.one, ?_, ?_, ?_, hhonest⟩
  · intro t' task'' htask''
    rcases Dict.get?_set_eq_some.1 htask'' with ⟨rfl, -⟩ | ⟨-, hold⟩
    · exact h.owner t' task htask
    · exact h.owner t' task'' hold
  · intro t' task'' htr htask''
    rcases Dict.get?_set_eq_some.1 htask'' with ⟨-, rfl⟩ | ⟨-, hold⟩
    · exact hcancel
    · exact h.kept t' task'' htr hold
  · intro t' task'' htask'' hph hc
    rcases Dict.get?_set_eq_some.1 htask'' with ⟨-, rfl⟩ | ⟨-, hold⟩
    · exact absurd hph hphase
    · exact h.pending t' task'' hold hph hc
  · intro t' task'' o htask'' hst
    rcases Dict.get?_set_eq_some.1 htask'' with ⟨rfl, rfl⟩ | ⟨-, hold⟩
    · -- a task that begins takes the status that is reported, which is its own
      rcases hstatus with hsame | ⟨hph, hc, hrep⟩
      · exact h.own t' task o htask (hsame ▸ hst)
      · have htr := h.pending t' task htask hph hc
        rw [hrep, (h.honest t' htr).1] at hst
        exact (Option.some.inj hst).symm
    · exact h.own t' task'' o hold hst

theorem Sole.gone (h : s.Sole) (failed : List Nat) (htask : s.tasks.get? t = some task)
    (hresume : { task with status := obj }.resume ev = some (fate, w)) :
    Sole { s.update obj w with tasks := s.tasks.erase t, failed := failed } := by
  have hhonest := h.honest_update htask hresume rfl obj
  obtain ⟨d, hd⟩ := s.update_eq obj w
  rw [hd] at hhonest ⊢
  have hlive : ∀ t' task', (s.tasks.erase t).get? t' = some task' →
      s.tasks.get? t' = some task' := fun t' task' ht' => (Dict.get?_erase_eq_some.1 ht').2
  exact ⟨fun t' task' ht' => h.owner t' task' (hlive t' task' ht'), h.alone, h.one,
    fun t' task' htr ht' => h.kept t' task' htr (hlive t' task' ht'),
    fun t' task' ht' => h.pending t' task' (hlive t' task' ht'),
    fun t' task' o ht' => h.own t' task' o (hlive t' task' ht'), hhonest⟩

theorem sole_step (h : s.Sole) (hG : s.Orderly e) (hstep : s.step e = some s') : s'.Sole := by
  cases step_cases hstep with
  | alreadyRunning => exact h
  | start ht => exact sole_start h hG ht
  | stopAtOnce disable d ht => exact h.stopAtOnce d ht
  | stop disable t task ht htask => exact h.stop disable ht htask
  | callResumed i c d hi ht =>
    obtain ⟨htr, hgone⟩ := h.awaited_gone (List.mem_of_getElem? hi) ht
    refine Sole.of_tracked_none htr ?_ ?_ ?_ ?_
    · simp [hgone]
    · exact le_trans (List.length_eraseIdx_le ..) h.one
    · simp [hgone]
    · simp [hgone]
  | suspended t ev task task' w htask hstatus hresume => exact h.suspended htask hstatus hresume
  | gone t ev task obj fate w failed htask hresume => exact h.gone failed htask hresume

end Instance

/-- The supervisor of all instances: an event happens to one of them. -/
def supervisionMachine (ι : Type) [DecidableEq ι] : Machine (ι → Instance) (ι × InstanceEvent) :=
  ⟨fun s e => ((s e.1).step e.2).map (Function.update s e.1)⟩

/-- **One task, honestly reported.**  In every run in which no `start()` of an instance is
called while a `stop()` or `disable()` of it is suspended, no instance ever has two live
tasks, and while no call is in progress a live task is not reported `STOPPED` or `DISABLED`
because of an earlier one. -/
theorem sole_run {ι : Type} [DecidableEq ι] {es : List (ι × InstanceEvent)} {s : ι → Instance}
    (hrun : (supervisionMachine ι).run (fun _ => Instance.new) es = some s)
    (hG : (supervisionMachine ι).Meets (fun s e => (s e.1).Orderly e.2) (fun _ => Instance.new) es)
    (i : ι) : (s i).OneTask := by
  have h : ∀ i, (s i).Sole := by
    refine (supervisionMachine ι).inv_run_of_meets (I := fun s => ∀ i, (s i).Sole) ?_
      (fun _ => Instance.sole_new) hG hrun
    intro s e s' hs hG hstep i
    obtain ⟨c, hc, rfl⟩ := Option.map_eq_some_iff.1 hstep
    by_cases hi : i = e.1
    · rw [hi, Function.update_self]
      exact Instance.sole_step (hs e.1) hG hc
    · rw [Function.update_of_ne hi]
      exact hs i
  exact (h i).oneTask

/-- A driver is started, fails, recovers, is disabled while another one starts, and is
enabled again when the `disable()` has returned. -/
def orderlyRestart : List (Bool × InstanceEvent) :=
  [(true, .start), (true, .task 0 (.begin true)), (true, .task 0 .connected),
    (true, .task 0 (.raised "lost")), (true, .task 0 (.recovered 5)),
    (true, .task 0 (.woke true)), (true, .stop true), (false, .start),
    (true, .task 0 .cancelledError), (true, .task 0 (.recovered 0)), (true, .callResumed 0),
    (true, .start), (true, .task 1 (.begin true))]

theorem sole_orderlyRestart : ∃ s : Bool → Instance,
    (supervisionMachine Bool).run (fun _ => Instance.new) orderlyRestart = some s ∧
    (s true).tasks.keys = [1] ∧ (s true).OneTask := by
  obtain ⟨s, hs, hk⟩ := Option.map_eq_some_iff.1
    (show ((supervisionMachine Bool).run (fun _ => Instance.new) orderlyRestart).map
      (fun s => (s true).tasks.keys) = some [1] by decide +kernel)
  exact ⟨s, hs, hk, sole_run hs (by decide +kernel) true⟩

def enabledDuringDisable : List (Unit × InstanceEvent) :=
  [((), .start), ((), .task 0 (.begin true)), ((), .task 0 .connected), ((), .stop true),
    ((), .start)]

/-- **A `start()` during a `stop()` makes a second task**, and when the old one has ended, the
call that waited for it reports the new one as turned off. -/
theorem start_during_stop_runs_twice :
    (∃ s : Unit → Instance,
      (supervisionMachine Unit).run (fun _ => Instance.new) enabledDuringDisable = some s ∧
      (s ()).tasks.entries.length = 2) ∧
    ∃ s : Unit → Instance,
      (supervisionMachine Unit).run (fun _ => Instance.new)
        (enabledDuringDisable ++ [((), .task 1 (.begin true)), ((), .task 1 .connected),
          ((), .task 0 .cancelledError), ((), .task 0 (.recovered 0)), ((), .callResumed 0)]) =
        some s ∧
      (s ()).calls = [] ∧ (s ()).tasks.keys = [1] ∧ (s ()).reported = some 1 ∧
      ((s ()).statuses.get? 1).map Status.state = some .disabled ∧ ¬ (s ()).OneTask := by
  constructor
  · obtain ⟨s, hs, hl⟩ := Option.map_eq_some_iff.1
      (show ((supervisionMachine Unit).run (fun _ => Instance.new) enabledDuringDisable).map
        (fun s => (s ()).tasks.entries.length) = some 2 by decide +kernel)
    exact ⟨s, hs, hl⟩
  · obtain ⟨s, hs, hv⟩ := Option.map_eq_some_iff.1
      (show ((supervisionMachine Unit).run (fun _ => Instance.new)
        (enabledDuringDisable ++ [((), .task 1 (.begin true)), ((), .task 1 .connected),
          ((), .task 0 .cancelledError), ((), .task 0 (.recovered 0)), ((), .callResumed 0)])).map
        (fun s => ((s ()).calls, (s ()).tasks.keys, (s ()).reported, (s ()).statuses.get? 1)) =
        some ([], [1], some 1, some ⟨.disabled, .call, 0, none⟩) by decide +kernel)
    simp only [Prod.mk.injEq] at hv
    obtain ⟨hcalls, hkeys, hrep, hst⟩ := hv
    refine ⟨s, hs, hcalls, hkeys, hrep, by rw [hst]; rfl, fun hone => ?_⟩
    refine hone.2 hcalls ?_ 1 _ hrep hst (by decide)
    intro hnil
    rw [Dict.keys, hnil] at hkeys
    cases hkeys

end XEdge.Core.Supervision
