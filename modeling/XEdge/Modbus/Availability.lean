import XEdge.Core.WriteRouter
import XEdge.Modbus.Batching

/-!
# How long a driver runs (`BaseModbusPollingDriver.run`, `DriverSupervisor._supervise`)

`run` makes a task for each tag group and gathers them.  The task of a continuous group reads again
and again, that of an on-demand group each time it is asked to, and that of an on-connect group
reads once and ends.  When all tasks have ended `run` returns, which the supervisor takes as a
request to stop; when one of them raises `run` raises, and the supervisor backs off.

Here the device answers every request, with values or with an exception, and nobody stops the
instance: a run has no transport error.
-/

namespace XEdge.Modbus.Availability

open Lib Planner Batching XEdge.Core XEdge.Core.Supervision

/-! ## The driver -/

variable {φ : Type}

inductive GroupTask (φ : Type) where
  | reading (blocks : List (Planner.ReadBlock φ))
  /-- Until the next cycle; `woken` says that the trigger was set meanwhile. -/
  | waiting (woken : Bool)
  | ended
  | raised (error : ReadError)

structure Config (φ : Type) where
  read : ReadConfig
  groups : List (TagGroup φ)

/-- `_on_demand_triggers`, all of them cleared. -/
def onDemandTriggers (groups : List (TagGroup φ)) : Dict String Bool :=
  Dict.ofList ((groups.filter fun group => group.getPollingMode = .onDemand).map
    fun group => (group.id, false))

namespace GroupTask

/-- The first suspension of `_poll_group`. -/
def new (cfg : Config φ) (group : TagGroup φ) : GroupTask φ :=
  match group.getPollingMode with
  | .onDemand => .waiting false
  | .continuous | .onConnect => .reading (blocksOf cfg.groups group)

/-- `_poll_group` from one suspension to the next, with the triggers.  The device has the memory
`mem` when a block is read. -/
def resume (P : Python φ) (cfg : Config φ) (group : TagGroup φ) (mem : Memory)
    (triggers : Dict String Bool) : GroupTask φ → Option (GroupTask φ × Dict String Bool)
  | .reading (block :: blocks) =>
      match Batching.readOneBlock P cfg.read mem block with
      | .ok _ => some (.reading blocks, triggers)
      | .error e => some (.raised e, triggers)
  | .reading [] =>
      match group.getPollingMode with
      | .onConnect => some (.ended, triggers)
      | .continuous | .onDemand => some (.waiting false, triggers)
  | .waiting woken =>
      match group.getPollingMode with
      | .continuous => some (.reading (blocksOf cfg.groups group), triggers)
      | .onDemand =>
          if woken ∨ triggers.get? group.id = some true then
            some (.reading (blocksOf cfg.groups group), triggers.set group.id false)
          else none
      | .onConnect => none
  | .ended | .raised _ => none

/-- The trigger of a group is set: a task that awaits it is woken. -/
def wake (groupId : String) (group : TagGroup φ) : GroupTask φ → GroupTask φ
  | .waiting woken =>
      .waiting (woken || (group.getPollingMode = .onDemand && group.id = groupId))
  | task => task

def isEnded : GroupTask φ → Bool
  | .ended => true
  | _ => false

def isRaised : GroupTask φ → Bool
  | .raised _ => true
  | _ => false

end GroupTask

/-! ## The instance -/

structure Supervised (φ : Type) where
  /-- The task that runs `_supervise`, until it ends. -/
  task : Option Task
  status : Status
  hasDriver : Bool
  connected : Bool
  /-- The tasks that `run` has made. -/
  groups : List (GroupTask φ)
  triggers : Dict String Bool

inductive Event where
  | task (ev : TaskEvent)
  /-- The task of the `i`-th group goes on. -/
  | group (i : Nat) (mem : Memory)
  | pollNow (groupId : String)

def remaining : Fate → Option Task
  | .suspended task => some task
  | .ended | .failed => none

namespace Supervised

/-- `start` has been called. -/
def new : Supervised φ :=
  ⟨some ⟨.created, false, some 0, INITIAL_BACKOFF_SECONDS⟩, ⟨.starting, .task, 0, none⟩, false,
    false, [], .empty⟩

/-- What the driver lets the supervisor's task see, without a transport error: `run` returns when
all group tasks have, and raises when one of them has. -/
def allows (s : Supervised φ) : TaskEvent → Bool
  | .begin created | .woke created => created
  | .runReturned => s.groups.all GroupTask.isEnded
  | .raised _ => s.groups.any GroupTask.isRaised
  | .connected | .disconnected | .recovered _ | .cancelledError => true

def follow (cfg : Config φ) (s : Supervised φ) : TaskEvent → Supervised φ
  | .begin _ | .woke _ => { s with hasDriver := true, triggers := onDemandTriggers cfg.groups }
  | .connected => { s with connected := true, groups := cfg.groups.map (GroupTask.new cfg) }
  -- `run` cancels the tasks and awaits them
  | .runReturned | .raised _ => { s with groups := [] }
  | .disconnected | .recovered _ => { s with connected := false }
  | .cancelledError => s

def pollNow (cfg : Config φ) (s : Supervised φ) (groupId : String) : Supervised φ :=
  match s.triggers.get? groupId with
  -- there is no such group, or it is not read on demand
  | none => s
  | some _ =>
      { s with
        groups := List.zipWith (GroupTask.wake groupId) cfg.groups s.groups
        triggers := s.triggers.set groupId true }

def step (P : Python φ) (cfg : Config φ) (s : Supervised φ) : Event → Option (Supervised φ)
  | .task ev =>
      match s.task.bind fun task => task.resume ev with
      | some (fate, write) =>
          if s.allows ev then
            some { s.follow cfg ev with task := remaining fate, status := write s.status }
          else none
      | none => none
  | .group i mem =>
      match cfg.groups[i]?, s.groups[i]? with
      | some group, some task =>
          (task.resume P cfg group mem s.triggers).map fun next =>
            { s with groups := s.groups.set i next.1, triggers := next.2 }
      | _, _ => none
  | .pollNow groupId => some (s.pollNow cfg groupId)

/-- The instance is running and connected, and `WriteRouter.write` gets to its driver. -/
structure Available (s : Supervised φ) : Prop where
  running : s.status.state = .running
  connected : s.connected = true
  accepted : ∀ (R : PyRepr) (call : WriteCall),
    Router.refusal R call (some s.status.state) s.hasDriver = none

end Supervised

def machine (P : Python φ) (cfg : Config φ) : Machine (Supervised φ) Event where
  step := Supervised.step P cfg

/-! ## Blocks that can be sent -/

section Blocks

variable {P : Python φ} {cfg : Config φ} {group : TagGroup φ} {block : Planner.ReadBlock φ}

theorem isValueError_of_encodeReadRequest {functionCode : FunctionCode} {address quantity : Int}
    {e : CodecError} (h : encodeReadRequest functionCode address quantity = .error e) :
    ∃ message, e = .valueError message := by
  rcases bind_eq_error.1 h with h | ⟨_, -, h⟩
  · unfold checkAddress at h
    split at h <;> cases h
    exact ⟨_, rfl⟩
  · simp only at h
    split at h
    · cases h
      exact ⟨_, rfl⟩
    · split at h <;> cases h
      exact ⟨_, rfl⟩

theorem readOneBlock_isOk_iff (mem : Memory) (h : block ∈ blocksOf cfg.groups group) :
    (∃ updates, Batching.readOneBlock P cfg.read mem block = .ok updates) ↔ block.Sendable := by
  constructor
  · rintro ⟨updates, hread⟩
    by_contra hnot
    cases hencode : encodeReadRequest block.functionCode block.address block.quantity with
    | ok pdu => exact hnot ⟨pdu, hencode⟩
    | error e =>
      obtain ⟨message, rfl⟩ := isValueError_of_encodeReadRequest hencode
      have hexchange : (exchange Memory.respond
          (.readBlock block.functionCode block.address block.quantity) mem).1 =
            .error (.valueError message) := by
        simp only [exchange, Op.requestPdu, hencode]
      rw [Batching.readOneBlock, readBlockWithRetries_eq, hexchange] at hread
      cases hhead : block.tags.head? <;> rw [hhead] at hread <;> cases hread
  · intro hsendable
    obtain ⟨g, -, hplanned⟩ := exists_groupBlocks h
    have hsound := (plans_planReadBlocks g.readableTags g.maxBlockSize g.getMaxBlockGap).sound
      block hplanned
    have hok := encodeReadRequest_isOk_iff.1 hsendable
    obtain ⟨updates, hread, -⟩ := readOneBlock_asAlone (P := P) hsound hok fun p hp =>
      inAddressSpace_of_readRequestOk hsound hok hp
    exact ⟨updates, hread⟩

end Blocks

/-! ## An instance that stays up -/

/-- What a driver needs in order to run on: a group that is read more than once, and blocks that
can be sent. -/
structure Sustained (cfg : Config φ) : Prop where
  group : ∃ group ∈ cfg.groups, group.getPollingMode ≠ .onConnect
  sendable : ∀ group ∈ cfg.groups, ∀ block ∈ blocksOf cfg.groups group, block.Sendable

/-- A group task of such a driver: it does not raise, and only an on-connect group ends. -/
def GroupTask.Sound (cfg : Config φ) (group : TagGroup φ) : GroupTask φ → Prop
  | .reading blocks => blocks ⊆ blocksOf cfg.groups group
  | .waiting _ => True
  | .ended => group.getPollingMode = .onConnect
  | .raised _ => False

structure Starting (s : Supervised φ) : Prop where
  task : ∃ task, s.task = some task ∧ task.cancelled = false ∧
    (task.phase = .created ∨ task.phase = .opening ∧ s.hasDriver = true)
  state : s.status.state = .starting
  groups : s.groups = []

structure Up (cfg : Config φ) (s : Supervised φ) : Prop where
  task : ∃ task, s.task = some task ∧ task.cancelled = false ∧ task.phase = .running
  state : s.status.state = .running
  hasDriver : s.hasDriver = true
  connected : s.connected = true
  length : s.groups.length = cfg.groups.length
  groups : ∀ (i : Nat) group task, cfg.groups[i]? = some group → s.groups[i]? = some task →
    GroupTask.Sound cfg group task

theorem forall_getElem?_set {Q : TagGroup φ → GroupTask φ → Prop} {groups : List (TagGroup φ)}
    {tasks : List (GroupTask φ)}
    (h : ∀ (j : Nat) group task, groups[j]? = some group → tasks[j]? = some task → Q group task)
    {i : Nat} {group : TagGroup φ} (hgroup : groups[i]? = some group) {task : GroupTask φ}
    (htask : Q group task) (j : Nat) (group' : TagGroup φ) (task' : GroupTask φ)
    (hgroup' : groups[j]? = some group') (htask' : (tasks.set i task)[j]? = some task') :
    Q group' task' := by
  rw [List.getElem?_set] at htask'
  by_cases hij : i = j
  · subst hij
    rw [hgroup] at hgroup'
    cases hgroup'
    rw [if_pos rfl] at htask'
    split at htask' <;> cases htask'
    exact htask
  · rw [if_neg hij] at htask'
    exact h j group' task' hgroup' htask'

section Stays

variable {P : Python φ} {cfg : Config φ} {s s' : Supervised φ}

theorem sound_new (cfg : Config φ) (group : TagGroup φ) :
    (GroupTask.new cfg group).Sound cfg group := by
  rw [GroupTask.new]
  split
  · trivial
  · exact List.Subset.refl _
  · exact List.Subset.refl _

variable {group : TagGroup φ} {mem : Memory}

theorem sound_resume {triggers triggers' : Dict String Bool} {task task' : GroupTask φ}
    (hsendable : ∀ block ∈ blocksOf cfg.groups group, block.Sendable) (htask : task.Sound cfg group)
    (h : task.resume P cfg group mem triggers = some (task', triggers')) :
    task'.Sound cfg group := by
  cases task with
  | reading blocks =>
    cases blocks with
    | nil =>
      rw [GroupTask.resume] at h
      split at h <;> cases h
      · assumption
      · trivial
      · trivial
    | cons block blocks =>
      obtain ⟨hblock, hblocks⟩ := List.cons_subset.1 htask
      obtain ⟨updates, hread⟩ := (readOneBlock_isOk_iff mem hblock).2 (hsendable block hblock)
      rw [GroupTask.resume, hread] at h
      cases h
      exact hblocks
  | waiting woken =>
    rw [GroupTask.resume] at h
    split at h
    · cases h
      exact List.Subset.refl _
    · split at h <;> cases h
      exact List.Subset.refl _
    · cases h
  | ended | raised _ => cases h

theorem sound_wake {groupId : String} {task : GroupTask φ}
    (h : task.Sound cfg group) : (task.wake groupId group).Sound cfg group := by
  cases task with
  | waiting woken => trivial
  | reading | ended | raised => exact h

variable {task : Task} {ev : TaskEvent}

theorem not_allows (hcfg : Sustained cfg) (hs : Up cfg s) (htask : s.task = some task)
    (hresume : (task.resume ev).isSome) : s.allows ev = false := by
  obtain ⟨_, hsome, hcancelled, hphase⟩ := hs.task
  rw [htask] at hsome
  cases hsome
  cases ev with
  | runReturned =>
    -- the group that is read again has not ended
    obtain ⟨group, hgroup, hmode⟩ := hcfg.group
    obtain ⟨i, hi⟩ := List.mem_iff_getElem?.1 hgroup
    have hlt : i < s.groups.length := by
      rw [hs.length]
      exact (List.getElem?_eq_some_iff.1 hi).1
    have hsound := hs.groups i group s.groups[i] hi (List.getElem?_eq_getElem hlt)
    rw [Supervised.allows, List.all_eq_false]
    refine ⟨s.groups[i], List.getElem_mem hlt, ?_⟩
    cases hget : s.groups[i] with
    | ended =>
      rw [hget] at hsound
      exact absurd hsound hmode
    | reading | waiting | raised => simp [GroupTask.isEnded]
  | raised error =>
    rw [Supervised.allows, List.any_eq_false]
    intro task hmem
    obtain ⟨i, hi⟩ := List.mem_iff_getElem?.1 hmem
    have hlt : i < cfg.groups.length := by
      rw [← hs.length]
      exact (List.getElem?_eq_some_iff.1 hi).1
    have hsound := hs.groups i cfg.groups[i] task (List.getElem?_eq_getElem hlt) hi
    cases task with
    | raised => exact absurd hsound id
    | reading | waiting | ended => simp [GroupTask.isRaised]
  | begin | connected | disconnected | recovered | woke | cancelledError =>
    simp [Task.resume, hphase, hcancelled] at hresume

theorem up_group (hcfg : Sustained cfg) {i : Nat} (hs : Up cfg s)
    (h : (machine P cfg).step s (.group i mem) = some s') : Up cfg s' := by
  simp only [machine, Supervised.step] at h
  split at h
  · next group task hgroup htask =>
    obtain ⟨⟨task', triggers'⟩, hresume, rfl⟩ := Option.map_eq_some_iff.1 h
    have hsound := sound_resume (hcfg.sendable group (List.mem_of_getElem? hgroup))
      (hs.groups i group task hgroup htask) hresume
    exact ⟨hs.task, hs.state, hs.hasDriver, hs.connected, List.length_set.trans hs.length,
      forall_getElem?_set hs.groups hgroup hsound⟩
  · cases h

theorem up_pollNow (groupId : String) (hs : Up cfg s) : Up cfg (s.pollNow cfg groupId) := by
  rw [Supervised.pollNow]
  split
  · exact hs
  · refine ⟨hs.task, hs.state, hs.hasDriver, hs.connected, by simp [hs.length], ?_⟩
    intro j group task hgroup htask
    simp only [List.getElem?_zipWith, hgroup] at htask
    split at htask
    · next task' heq hget =>
      cases heq
      cases htask
      exact sound_wake (hs.groups j group task' hgroup hget)
    · cases htask

variable {e : Event}

theorem up_step (hcfg : Sustained cfg) (hs : Up cfg s)
    (h : (machine P cfg).step s e = some s') : Up cfg s' := by
  cases e with
  | task ev =>
    simp only [machine, Supervised.step] at h
    split at h
    · next hbind =>
      obtain ⟨task, htask, hresume⟩ := Option.bind_eq_some_iff.1 hbind
      rw [not_allows hcfg hs htask (by rw [hresume]; rfl)] at h
      cases h
    · cases h
  | group i mem => exact up_group hcfg hs h
  | pollNow groupId =>
    cases h
    exact up_pollNow groupId hs

variable {write : Status → Status} {fate : Fate}

theorem up_connected (hphase : task.phase = .opening) (hdriver : s.hasDriver = true)
    (hresume : task.resume .connected = some (fate, write)) :
    Up cfg { s.follow cfg .connected with task := remaining fate, status := write s.status } := by
  rw [Task.resume, if_pos hphase] at hresume
  cases hresume
  refine ⟨⟨_, rfl, rfl, rfl⟩, rfl, hdriver, rfl, List.length_map _, ?_⟩
  intro i group task' hgroup htask'
  simp only [Supervised.follow, List.getElem?_map, hgroup, Option.map_some] at htask'
  cases htask'
  exact sound_new cfg group

theorem starting_or_up_task (hs : Starting s) (htask : s.task = some task)
    (hresume : task.resume ev = some (fate, write)) (hallows : s.allows ev = true) :
    let s' := { s.follow cfg ev with task := remaining fate, status := write s.status }
    Starting s' ∨ Up cfg s' := by
  obtain ⟨_, hsome, hcancelled, hphase⟩ := hs.task
  rw [htask] at hsome
  cases hsome
  rcases hphase with hphase | ⟨hphase, hdriver⟩
  · cases ev with
    | begin created =>
      simp only [Supervised.allows] at hallows
      simp only [Task.resume, hphase, hcancelled, Task.loopHead, hallows, and_self, if_true]
        at hresume
      cases hresume
      exact .inl ⟨⟨_, rfl, rfl, .inr ⟨rfl, rfl⟩⟩, rfl, hs.groups⟩
    | runReturned | raised | connected | disconnected | recovered | woke | cancelledError =>
      simp [Task.resume, hphase, hcancelled] at hresume
  · cases ev with
    | connected => exact .inr (up_connected hphase hdriver hresume)
    | raised error => simp [Supervised.allows, hs.groups] at hallows
    | runReturned | begin | disconnected | recovered | woke | cancelledError =>
      simp [Task.resume, hphase, hcancelled] at hresume

theorem starting_or_up_step (hs : Starting s)
    (h : (machine P cfg).step s e = some s') : Starting s' ∨ Up cfg s' := by
  cases e with
  | group i mem =>
    simp only [machine, Supervised.step, hs.groups] at h
    split at h
    · next hget => cases hget
    · cases h
  | pollNow groupId =>
    cases h
    rw [Supervised.pollNow]
    split
    · exact .inl hs
    · exact .inl ⟨hs.task, hs.state, by simp [hs.groups]⟩
  | task ev =>
    simp only [machine, Supervised.step] at h
    split at h
    · next hbind =>
      obtain ⟨task, htask, hresume⟩ := Option.bind_eq_some_iff.1 hbind
      split at h
      · next hallows =>
        cases h
        exact starting_or_up_task hs htask hresume hallows
      · cases h
    · cases h

theorem starting_new : Starting (Supervised.new : Supervised φ) :=
  ⟨⟨_, rfl, rfl, .inl rfl⟩, rfl, rfl⟩

theorem available_of_up (hs : Up cfg s) : s.Available where
  running := hs.state
  connected := hs.connected
  accepted R call := by
    rw [hs.state, hs.hasDriver]
    rfl

theorem available_of_sustained (hcfg : Sustained cfg) {es es' : List Event}
    (hrun : (machine P cfg).run .new es = some s) (hrunning : s.status.state = .running)
    (hrun' : (machine P cfg).run s es' = some s') : s'.Available := by
  have hreached : Starting s ∨ Up cfg s := by
    refine Machine.inv_run _ (I := fun s => Starting s ∨ Up cfg s) ?_ (.inl starting_new) hrun
    rintro s e s' (hs | hs) hstep
    · exact starting_or_up_step hs hstep
    · exact .inr (up_step hcfg hs hstep)
  rcases hreached with hs | hs
  · rw [hs.state] at hrunning
    cases hrunning
  · exact available_of_up (Machine.inv_run _ (fun _ _ _ => up_step hcfg) hs hrun')

end Stays

/-! ## An instance that does not -/

section Stops

variable {P : Python φ} {cfg : Config φ} {s : Supervised φ}

def started (cfg : Config φ) : Supervised φ :=
  ⟨some ⟨.running, false, some 0, INITIAL_BACKOFF_SECONDS⟩, ⟨.running, .task, 0, none⟩, true, true,
    cfg.groups.map (GroupTask.new cfg), onDemandTriggers cfg.groups⟩

theorem run_started (P : Python φ) (cfg : Config φ) :
    (machine P cfg).run .new [.task (.begin true), .task .connected] = some (started cfg) := rfl

variable {i : Nat} {group : TagGroup φ}

theorem step_group (mem : Memory) (next : GroupTask φ × Dict String Bool) {task : GroupTask φ}
    (hgroup : cfg.groups[i]? = some group) (htask : s.groups[i]? = some task)
    (hresume : task.resume P cfg group mem s.triggers = some next) :
    (machine P cfg).step s (.group i mem) =
      some { s with groups := s.groups.set i next.1, triggers := next.2 } := by
  simp only [machine, Supervised.step, hgroup, htask, hresume, Option.map_some]

variable {block : Planner.ReadBlock φ}

theorem exists_step_reading (P : Python φ) (hgroup : cfg.groups[i]? = some group)
    (hblock : block ∈ blocksOf cfg.groups group) {blocks : List (Planner.ReadBlock φ)}
    (htask : s.groups[i]? = some (.reading (block :: blocks))) :
    ∃ task, (machine P cfg).step s (.group i blank) =
        some { s with groups := s.groups.set i task } ∧
      (block.Sendable → task = .reading blocks) ∧ (¬ block.Sendable → task.isRaised = true) := by
  have hok := readOneBlock_isOk_iff (P := P) blank hblock
  cases hread : Batching.readOneBlock P cfg.read blank block with
  | ok updates =>
    have hstep := step_group (P := P) blank (.reading blocks, s.triggers) hgroup htask
      (by rw [GroupTask.resume, hread])
    exact ⟨_, hstep, fun _ => rfl, fun hnot => absurd (hok.1 ⟨_, hread⟩) hnot⟩
  | error e =>
    have hstep := step_group (P := P) blank (.raised e, s.triggers) hgroup htask
      (by rw [GroupTask.resume, hread])
    refine ⟨_, hstep, fun hsendable => ?_, fun _ => rfl⟩
    obtain ⟨_, hread'⟩ := hok.2 hsendable
    rw [hread] at hread'
    cases hread'

theorem exists_run_reading (hgroup : cfg.groups[i]? = some group)
    (blocks : List (Planner.ReadBlock φ)) (hblocks : blocks ⊆ blocksOf cfg.groups group) :
    ∀ {s : Supervised φ}, s.groups[i]? = some (.reading blocks) →
      ∃ es task, (machine P cfg).run s es = some { s with groups := s.groups.set i task } ∧
        ((∀ block ∈ blocks, block.Sendable) → task = .reading []) ∧
        ((∃ block ∈ blocks, ¬ block.Sendable) → task.isRaised = true) := by
  induction blocks with
  | nil =>
    intro s htask
    obtain ⟨hlt, hget⟩ := List.getElem?_eq_some_iff.1 htask
    refine ⟨[], .reading [], ?_, fun _ => rfl, fun h => ?_⟩
    · rw [← hget, List.set_getElem_self]
      rfl
    · obtain ⟨_, hmem, -⟩ := h
      exact absurd hmem List.not_mem_nil
  | cons block blocks ih =>
    intro s htask
    obtain ⟨hblock, hrest⟩ := List.cons_subset.1 hblocks
    have hlt := (List.getElem?_eq_some_iff.1 htask).1
    obtain ⟨task, hstep, hreading, hraised⟩ := exists_step_reading P hgroup hblock htask
    by_cases hsendable : block.Sendable
    · rw [hreading hsendable] at hstep
      obtain ⟨es, task', hrun, hended, hraised'⟩ := ih hrest
        (s := { s with groups := s.groups.set i (.reading blocks) })
        (List.getElem?_set_self hlt)
      refine ⟨.group i blank :: es, task', ?_, fun hall => ?_, ?_⟩
      · rw [Machine.run_cons, hstep, Option.bind_some, hrun]
        simp only [List.set_set]
      · exact hended fun b hb => hall b (List.mem_cons_of_mem _ hb)
      · rintro ⟨b, hb, hnot⟩
        rcases List.mem_cons.1 hb with rfl | hb
        · exact absurd hsendable hnot
        · exact hraised' ⟨b, hb, hnot⟩
    · refine ⟨[.group i blank], task, ?_, fun hall => ?_, fun _ => hraised hsendable⟩
      · rw [Machine.run_singleton, hstep]
      · exact absurd (hall block (List.mem_cons_self ..)) hsendable

theorem exists_run_cycle (P : Python φ) (hgroup : cfg.groups[i]? = some group) :
    ∃ es s, (machine P cfg).run (started cfg) es = some s ∧ s.task = (started cfg).task ∧
      s.groups[i]? = some (.reading (blocksOf cfg.groups group)) := by
  have hnew : (started cfg).groups[i]? = some (GroupTask.new cfg group) := by
    rw [started, List.getElem?_map, hgroup, Option.map_some]
  rw [GroupTask.new] at hnew
  cases hmode : group.getPollingMode with
  | continuous | onConnect =>
    rw [hmode] at hnew
    exact ⟨[], started cfg, rfl, rfl, hnew⟩
  | onDemand =>
    obtain ⟨value, hvalue⟩ : ∃ value, (started cfg).triggers.get? group.id = some value := by
      refine Option.ne_none_iff_exists'.1 fun hnone => ?_
      rw [started, onDemandTriggers, Dict.get?_ofList, lookup_eq_none_iff] at hnone
      refine hnone (List.mem_map.2 ⟨(group.id, false), List.mem_reverse.2 ?_, rfl⟩)
      refine List.mem_map.2 ⟨group, List.mem_filter.2 ⟨List.mem_of_getElem? hgroup, ?_⟩, rfl⟩
      exact decide_eq_true hmode
    have hwoken : ((started cfg).pollNow cfg group.id).groups[i]? = some (.waiting true) := by
      rw [Supervised.pollNow, hvalue]
      simp only [List.getElem?_zipWith, hgroup, hnew]
      simp [GroupTask.wake, hmode]
    have htask : ((started cfg).pollNow cfg group.id).task = (started cfg).task := by
      rw [Supervised.pollNow, hvalue]
    have hstep := step_group (P := P) blank (.reading (blocksOf cfg.groups group),
        ((started cfg).pollNow cfg group.id).triggers.set group.id false) hgroup hwoken
      (by simp only [GroupTask.resume, hmode, true_or, if_true])
    exact ⟨[.pollNow group.id, .group i blank], _, (Machine.run_singleton _ _ _).trans hstep, htask,
      List.getElem?_set_self (List.getElem?_eq_some_iff.1 hwoken).1⟩

theorem step_raised (P : Python φ) (htask : s.task = (started cfg).task)
    (hany : s.groups.any GroupTask.isRaised = true) :
    ∃ s', (machine P cfg).step s (.task (.raised "")) = some s' ∧ s'.status.state = .backoff := by
  simp only [machine, Supervised.step, htask, Supervised.allows, hany, if_true]
  exact ⟨_, rfl, rfl⟩

theorem step_runReturned (P : Python φ) (htask : s.task = (started cfg).task)
    (hall : s.groups.all GroupTask.isEnded = true) :
    ∃ s', (machine P cfg).step s (.task .runReturned) = some s' ∧ s'.status.state = .stopped := by
  simp only [machine, Supervised.step, htask, Supervised.allows, hall, if_true]
  exact ⟨_, rfl, rfl⟩

theorem exists_run_backoff (P : Python φ) (hgroup : group ∈ cfg.groups)
    (hblock : block ∈ blocksOf cfg.groups group) (hsendable : ¬ block.Sendable) :
    ∃ es s, (machine P cfg).run (started cfg) es = some s ∧ s.status.state = .backoff := by
  obtain ⟨i, hi⟩ := List.mem_iff_getElem?.1 hgroup
  obtain ⟨es, s, hrun, htask, hreading⟩ := exists_run_cycle P hi
  obtain ⟨es', task, hrun', -, hraised⟩ :=
    exists_run_reading (P := P) hi _ (List.Subset.refl _) hreading
  have hlt := (List.getElem?_eq_some_iff.1 hreading).1
  obtain ⟨s', hstep, hstate⟩ := step_raised (s := { s with groups := s.groups.set i task }) P htask
    (List.any_eq_true.2 ⟨task, List.mem_set hlt task, hraised ⟨block, hblock, hsendable⟩⟩)
  refine ⟨es ++ (es' ++ [.task (.raised "")]), s', ?_, hstate⟩
  rw [Machine.run_append, hrun, Option.bind_some, Machine.run_append, hrun', Option.bind_some,
    Machine.run_singleton, hstep]

theorem exists_run_onConnect (P : Python φ)
    (hgroup : cfg.groups[i]? = some group) (hmode : group.getPollingMode = .onConnect)
    (hsendable : ∀ block ∈ blocksOf cfg.groups group, block.Sendable)
    (htask : s.groups[i]? = some (.reading (blocksOf cfg.groups group))) :
    ∃ es, (machine P cfg).run s es = some { s with groups := s.groups.set i .ended } := by
  have hlt := (List.getElem?_eq_some_iff.1 htask).1
  obtain ⟨es, _, hrun, hdone, -⟩ :=
    exists_run_reading (P := P) hgroup _ (List.Subset.refl _) htask
  rw [hdone hsendable] at hrun
  have hstep := step_group (P := P) (s := { s with groups := s.groups.set i (.reading []) }) blank
    (.ended, s.triggers) hgroup (List.getElem?_set_self hlt)
    (by simp only [GroupTask.resume, hmode])
  refine ⟨es ++ [.group i blank], ?_⟩
  rw [Machine.run_append, hrun, Option.bind_some, Machine.run_singleton, hstep]
  simp only [List.set_set]

theorem exists_run_ended (P : Python φ)
    (hmode : ∀ group ∈ cfg.groups, group.getPollingMode = .onConnect)
    (hsendable : ∀ group ∈ cfg.groups, ∀ block ∈ blocksOf cfg.groups group, block.Sendable)
    (n : Nat) : ∀ {s : Supervised φ}, (s.groups.countP fun task => !task.isEnded) = n →
      s.groups.length = cfg.groups.length →
      (∀ (i : Nat) group task, cfg.groups[i]? = some group → s.groups[i]? = some task →
        task.isEnded = true ∨ task = .reading (blocksOf cfg.groups group)) →
      ∃ es groups, (machine P cfg).run s es = some { s with groups } ∧
        groups.all GroupTask.isEnded = true := by
  induction n with
  | zero =>
    intro s hcount _ _
    refine ⟨[], s.groups, rfl, List.all_eq_true.2 fun task htask => ?_⟩
    simpa using List.countP_eq_zero.1 hcount task htask
  | succ n ih =>
    intro s hcount hlength htasks
    have hpos : 0 < s.groups.countP fun task => !task.isEnded := by omega
    obtain ⟨task, hmem, hnot⟩ := List.countP_pos_iff.1 hpos
    obtain ⟨i, hi⟩ := List.mem_iff_getElem?.1 hmem
    obtain ⟨hlt, hget⟩ := List.getElem?_eq_some_iff.1 hi
    obtain ⟨group, hgroup⟩ : ∃ group, cfg.groups[i]? = some group :=
      ⟨_, List.getElem?_eq_getElem (hlength ▸ hlt)⟩
    have hin := List.mem_of_getElem? hgroup
    have hreading := (htasks i group task hgroup hi).resolve_left (by simpa using hnot)
    obtain ⟨es, hrun⟩ :=
      exists_run_onConnect P hgroup (hmode group hin) (hsendable group hin) (hreading ▸ hi)
    have hcount' : ((s.groups.set i .ended).countP fun task => !task.isEnded) = n := by
      rw [List.countP_set hlt, hget, if_pos hnot, if_neg (by simp [GroupTask.isEnded])]
      omega
    obtain ⟨es', groups, hrun', hall⟩ := ih (s := { s with groups := s.groups.set i .ended })
      hcount' (List.length_set.trans hlength) (forall_getElem?_set htasks hgroup (.inl rfl))
    refine ⟨es ++ es', groups, ?_, hall⟩
    rw [Machine.run_append, hrun, Option.bind_some, hrun']

theorem exists_run_stopped (P : Python φ)
    (hmode : ∀ group ∈ cfg.groups, group.getPollingMode = .onConnect)
    (hsendable : ∀ group ∈ cfg.groups, ∀ block ∈ blocksOf cfg.groups group, block.Sendable) :
    ∃ es s, (machine P cfg).run (started cfg) es = some s ∧ s.status.state = .stopped := by
  have hreading : ∀ (i : Nat) group task, cfg.groups[i]? = some group →
      (started cfg).groups[i]? = some task →
      task.isEnded = true ∨ task = .reading (blocksOf cfg.groups group) := by
    intro i group task hgroup htask
    rw [started, List.getElem?_map, hgroup, Option.map_some, GroupTask.new,
      hmode group (List.mem_of_getElem? hgroup)] at htask
    exact .inr (Option.some.inj htask).symm
  obtain ⟨es, groups, hrun, hall⟩ := exists_run_ended P hmode hsendable _ rfl
    (List.length_map _) hreading
  obtain ⟨s', hstep, hstate⟩ := step_runReturned (s := { started cfg with groups }) P rfl hall
  refine ⟨es ++ [.task .runReturned], s', ?_, hstate⟩
  rw [Machine.run_append, hrun, Option.bind_some, Machine.run_singleton, hstep]

end Stops

def onConnectGroup : TagGroup ℚ :=
  { groupOfOne (register 0 .uint16) with pollingMode := some .onConnect }

def onConnectOnly : Config ℚ := ⟨⟨"plc", 0, false⟩, [onConnectGroup]⟩

end XEdge.Modbus.Availability
