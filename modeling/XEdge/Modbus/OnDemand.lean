import XEdge.Lib.Machine
import XEdge.Modbus.Planner

/-!
# The tasks of the tag groups (`_poll_group`, `poll_now`)

A polling driver runs one task for each tag group.  A group is read again and again, once, or on
demand; a group on demand has an `asyncio.Event`, its trigger, that `poll_now` sets and its task
waits for, clears, and answers with a read of every block of the group's plan.

A task is resumed from one suspension to the next: when the trigger it waits for was set, when the
read of a block has ended, when a pause is over.  Calls of `poll_now` come at any time between.
-/

namespace XEdge.Modbus

open Lib Planner

variable {φ : Type}

/-! ## The driver -/

inductive GroupTask (φ : Type) where
  | created
  /-- `await trigger.wait()`, and the trigger has not been set since. -/
  | waiting
  /-- `await trigger.wait()`, and the trigger was set. -/
  | woken
  | reading (blocks : List (Planner.ReadBlock φ))
  | paused
  | finished

structure GroupRead (φ : Type) where
  groupId : String
  blocks : List (Planner.ReadBlock φ)

def blocksByGroup (groups : List (TagGroup φ)) : Dict String (List (Planner.ReadBlock φ)) :=
  .ofList (groups.map fun group => (group.id, groupBlocks group))

/-- `_on_demand_triggers`, all of them cleared. -/
def onDemandTriggers (groups : List (TagGroup φ)) : Dict String Bool :=
  .ofList ((groups.filter fun group => group.getPollingMode = .onDemand).map fun group =>
    (group.id, false))

/-- `self._blocks_by_group.get(group["id"], [])`. -/
def blocksOfId (groups : List (TagGroup φ)) (groupId : String) : List (Planner.ReadBlock φ) :=
  ((blocksByGroup groups).get? groupId).getD []

structure PollingDriver (φ : Type) where
  triggers : Dict String Bool
  tasks : List (GroupTask φ)
  reads : List (GroupRead φ)

inductive PollingEvent where
  /-- `poll_now` is called. -/
  | pollNow (groupId : String)
  | resume (t : Nat)
  deriving DecidableEq

/-- `Event.set` resolves the futures of all who wait. -/
def GroupTask.wake : GroupTask φ → GroupTask φ
  | .waiting => .woken
  | task => task

namespace PollingDriver

variable (groups : List (TagGroup φ))

/-- `configure`, and `run` up to its first suspension. -/
def start : PollingDriver φ := ⟨onDemandTriggers groups, groups.map fun _ => .created, []⟩

/-- `poll_now`, and what it returns. -/
def pollNow (s : PollingDriver φ) (groupId : String) : PollingDriver φ × Bool :=
  match s.triggers.get? groupId with
  | none => (s, false)
  | some _ =>
      ({ s with
        triggers := s.triggers.set groupId true
        tasks := List.zipWith
          (fun group task => if group.id = groupId then task.wake else task) groups s.tasks },
        true)

def suspend (s : PollingDriver φ) (t : Nat) (task : GroupTask φ) : PollingDriver φ :=
  { s with tasks := s.tasks.set t task }

/-- `_read_and_publish`, up to its first suspension. -/
def beginRead (s : PollingDriver φ) (t : Nat) (group : TagGroup φ) : PollingDriver φ :=
  let blocks := blocksOfId groups group.id
  let s := { s with reads := s.reads ++ [GroupRead.mk group.id blocks] }
  match blocks, group.getPollingMode with
  | block :: rest, _ => s.suspend t (.reading (block :: rest))
  -- without blocks nothing suspends before the next wait, and the trigger was just cleared
  | [], .onDemand => s.suspend t .waiting
  | [], .onConnect => s.suspend t .finished
  | [], .continuous => s.suspend t .paused

/-- `trigger.clear()` and the read. -/
def clearAndRead (s : PollingDriver φ) (t : Nat) (group : TagGroup φ) : PollingDriver φ :=
  { s with triggers := s.triggers.set group.id false }.beginRead groups t group

/-- `await trigger.wait()`, and what follows if it does not suspend. -/
def awaitTrigger (s : PollingDriver φ) (t : Nat) (group : TagGroup φ) : PollingDriver φ :=
  if s.triggers.get? group.id = some true then s.clearAndRead groups t group
  else s.suspend t .waiting

/-- `_poll_group` from one suspension to the next. -/
def resumeTask (s : PollingDriver φ) (t : Nat) (group : TagGroup φ) :
    GroupTask φ → Option (PollingDriver φ)
  | .created =>
      match group.getPollingMode with
      | .onDemand => some (s.awaitTrigger groups t group)
      | .onConnect | .continuous => some (s.beginRead groups t group)
  | .woken => some (s.clearAndRead groups t group)
  | .reading (_ :: block :: rest) => some (s.suspend t (.reading (block :: rest)))
  | .reading _ =>
      match group.getPollingMode with
      | .onDemand => some (s.awaitTrigger groups t group)
      | .onConnect => some (s.suspend t .finished)
      | .continuous => some (s.suspend t .paused)
  | .paused => some (s.beginRead groups t group)
  | .waiting | .finished => none

def resume (s : PollingDriver φ) (t : Nat) : Option (PollingDriver φ) :=
  match groups[t]?, s.tasks[t]? with
  | some group, some task => s.resumeTask groups t group task
  | _, _ => none

def step (s : PollingDriver φ) : PollingEvent → Option (PollingDriver φ)
  | .pollNow groupId => some (s.pollNow groups groupId).1
  | .resume t => s.resume groups t

end PollingDriver

def pollingMachine (groups : List (TagGroup φ)) : Machine (PollingDriver φ) PollingEvent :=
  ⟨PollingDriver.step groups⟩

/-! ## What a step does -/

namespace PollingDriver

variable {groups : List (TagGroup φ)} {s s' u : PollingDriver φ} {t : Nat} {group : TagGroup φ}

theorem beginRead_spec :
    (s.beginRead groups t group).triggers = s.triggers ∧
      (s.beginRead groups t group).reads =
        s.reads ++ [⟨group.id, blocksOfId groups group.id⟩] := by
  unfold beginRead
  generalize blocksOfId groups group.id = blocks
  cases blocks with
  | cons block rest => exact ⟨rfl, rfl⟩
  | nil => cases group.getPollingMode <;> exact ⟨rfl, rfl⟩

inductive Effect (groups : List (TagGroup φ)) (s s' : PollingDriver φ) : Prop
  | quiet (htriggers : s'.triggers = s.triggers) (hreads : s'.reads = s.reads)
  | reads (group : TagGroup φ) (htriggers : s'.triggers = s.triggers)
      (hreads : s'.reads = s.reads ++ [⟨group.id, blocksOfId groups group.id⟩])
  | answers (group : TagGroup φ) (htriggers : s'.triggers = s.triggers.set group.id false)
      (hreads : s'.reads = s.reads ++ [⟨group.id, blocksOfId groups group.id⟩])

theorem effect_beginRead : Effect groups s (s.beginRead groups t group) :=
  .reads group beginRead_spec.1 beginRead_spec.2

theorem effect_clearAndRead : Effect groups s (s.clearAndRead groups t group) :=
  .answers group beginRead_spec.1 beginRead_spec.2

theorem effect_awaitTrigger : Effect groups s (s.awaitTrigger groups t group) := by
  unfold awaitTrigger
  split
  · exact effect_clearAndRead
  · exact .quiet rfl rfl

theorem effect_resume (h : s.resume groups t = some s') : Effect groups s s' := by
  unfold resume at h
  split at h
  · next group task hgroup htask =>
    unfold resumeTask at h
    split at h
    · split at h <;> cases h
      · exact effect_awaitTrigger
      · exact effect_beginRead
      · exact effect_beginRead
    · cases h
      exact effect_clearAndRead
    · cases h
      exact .quiet rfl rfl
    · split at h <;> cases h
      · exact effect_awaitTrigger
      · exact .quiet rfl rfl
      · exact .quiet rfl rfl
    · cases h
      exact effect_beginRead
    · cases h
    · cases h
  · cases h

/-- Since `u`, a read of all blocks of the group has started. -/
def ReadSince (groups : List (TagGroup φ)) (groupId : String) (u s : PollingDriver φ) : Prop :=
  ∃ reads, s.reads = u.reads ++ reads ∧ ⟨groupId, blocksOfId groups groupId⟩ ∈ reads

/-- The trigger of the group is still set, or its read has started since `u`. -/
def Answered (groups : List (TagGroup φ)) (groupId : String) (u s : PollingDriver φ) : Prop :=
  (∃ reads, s.reads = u.reads ++ reads) ∧
    (s.triggers.get? groupId = some true ∨ ReadSince groups groupId u s)

variable {groupId : String}

theorem ReadSince.extend (h : ReadSince groups groupId u s)
    {more : List (GroupRead φ)} (hreads : s'.reads = s.reads ++ more) :
    ReadSince groups groupId u s' := by
  obtain ⟨reads, heq, hmem⟩ := h
  exact ⟨reads ++ more, by rw [hreads, heq, List.append_assoc], List.mem_append_left _ hmem⟩

theorem ReadSince.of_reads_eq (h : ReadSince groups groupId u s)
    (hreads : s'.reads = s.reads) : ReadSince groups groupId u s' :=
  h.extend (hreads.trans (List.append_nil _).symm)

theorem Answered.of_effect (h : Answered groups groupId u s)
    (heffect : Effect groups s s') : Answered groups groupId u s' := by
  obtain ⟨⟨old, hold⟩, hanswered⟩ := h
  cases heffect with
  | quiet htriggers hreads =>
    refine ⟨⟨old, hreads.trans hold⟩, ?_⟩
    rw [htriggers]
    exact hanswered.imp_right fun hread => hread.of_reads_eq hreads
  | reads group htriggers hreads =>
    refine ⟨⟨old ++ _, by rw [hreads, hold, List.append_assoc]⟩, ?_⟩
    rw [htriggers]
    exact hanswered.imp_right fun hread => hread.extend hreads
  | answers group htriggers hreads =>
    refine ⟨⟨old ++ _, by rw [hreads, hold, List.append_assoc]⟩, ?_⟩
    by_cases hid : groupId = group.id
    · -- the read that clears the trigger answers the call
      subst hid
      refine .inr ⟨old ++ _, by rw [hreads, hold, List.append_assoc], ?_⟩
      exact List.mem_append_right _ (List.mem_singleton_self _)
    · rw [htriggers, Dict.get?_set_of_ne _ _ hid]
      exact hanswered.imp_right fun hread => hread.extend hreads

theorem pollNow_triggers (groups : List (TagGroup φ)) (s : PollingDriver φ) (groupId : String) :
    (s.pollNow groups groupId).1.reads = s.reads ∧
      ∀ j, s.triggers.get? j = some true →
        (s.pollNow groups groupId).1.triggers.get? j = some true := by
  unfold pollNow
  split
  · exact ⟨rfl, fun j hj => hj⟩
  · refine ⟨rfl, fun j hj => ?_⟩
    by_cases hid : j = groupId
    · rw [hid]
      exact Dict.get?_set_self _ _ _
    · exact (Dict.get?_set_of_ne _ _ hid).trans hj

variable {e : PollingEvent}

theorem answered_step (h : Answered groups groupId u s)
    (hstep : s.step groups e = some s') : Answered groups groupId u s' := by
  cases e with
  | pollNow j =>
    cases hstep
    obtain ⟨hreads, htriggers⟩ := pollNow_triggers groups s j
    obtain ⟨⟨old, hold⟩, hanswered⟩ := h
    refine ⟨⟨old, hreads.trans hold⟩, hanswered.imp (htriggers groupId) fun hread => ?_⟩
    exact hread.of_reads_eq hreads
  | resume t => exact h.of_effect (effect_resume hstep)

variable {es : List PollingEvent}

theorem answered_run (h : u.triggers.get? groupId = some true)
    (hrun : (pollingMachine groups).run u es = some s) : Answered groups groupId u s :=
  (pollingMachine groups).inv_run (fun _ _ _ => answered_step)
    ⟨⟨[], (List.append_nil _).symm⟩, .inl h⟩ hrun

/-! ## Nobody waits for a trigger that is set -/

def OrderlyTask (groups : List (TagGroup φ)) (triggers : Dict String Bool) (group : TagGroup φ) :
    GroupTask φ → Prop
  | .waiting => group.getPollingMode = .onDemand ∧ triggers.get? group.id ≠ some true
  | .woken => group.getPollingMode = .onDemand
  | .reading blocks => blocks ≠ [] ∧ blocks.length ≤ (blocksOfId groups group.id).length
  | .paused | .finished => group.getPollingMode ≠ .onDemand
  | .created => True

/-- Every group on demand, and no other, has a trigger, and every task is as it should be. -/
structure Orderly (groups : List (TagGroup φ)) (s : PollingDriver φ) : Prop where
  length : s.tasks.length = groups.length
  trigger : ∀ groupId value, s.triggers.get? groupId = some value →
    ∃ group ∈ groups, group.getPollingMode = .onDemand ∧ group.id = groupId
  task : ∀ (t : Nat) group task, groups[t]? = some group → s.tasks[t]? = some task →
    OrderlyTask groups s.triggers group task

theorem orderly_start : Orderly groups (start groups) where
  length := List.length_map _
  trigger groupId value hget := by
    rw [start, onDemandTriggers, Dict.get?_ofList] at hget
    obtain ⟨group, hgroup, heq⟩ := List.mem_map.1 (List.mem_reverse.1 (mem_of_lookup hget))
    obtain ⟨hmem, hmode⟩ := List.mem_filter.1 hgroup
    exact ⟨group, hmem, of_decide_eq_true hmode, (Prod.mk.inj heq).1⟩
  task t group task hgroup htask := by
    simp only [start, List.getElem?_map, hgroup, Option.map_some, Option.some.injEq] at htask
    subst htask
    trivial

variable {task : GroupTask φ}

section

variable (h : Orderly groups s)
include h

theorem Orderly.of_reads (reads : List (GroupRead φ)) :
    Orderly groups { s with reads } :=
  ⟨h.length, h.trigger, h.task⟩

theorem Orderly.suspend (hgroup : groups[t]? = some group)
    (htask : OrderlyTask groups s.triggers group task) :
    Orderly groups (s.suspend t task) where
  length := (List.length_set ..).trans h.length
  trigger := h.trigger
  task t' group' task' hgroup' htask' := by
    rw [PollingDriver.suspend, List.getElem?_set] at htask'
    split at htask'
    · next heq =>
      subst heq
      split at htask'
      · cases htask'
        rw [hgroup] at hgroup'
        cases hgroup'
        exact htask
      · cases htask'
    · exact h.task t' group' task' hgroup' htask'

theorem Orderly.clear (hgroup : groups[t]? = some group)
    (hmode : group.getPollingMode = .onDemand) :
    Orderly groups { s with triggers := s.triggers.set group.id false } where
  length := h.length
  trigger groupId value hget := by
    rcases Dict.get?_set_eq_some.1 hget with ⟨rfl, -⟩ | ⟨-, hget⟩
    · exact ⟨group, List.mem_of_getElem? hgroup, hmode, rfl⟩
    · exact h.trigger groupId value hget
  task t' group' task hgroup' htask := by
    have hold := h.task t' group' task hgroup' htask
    cases task with
    | waiting =>
      refine ⟨hold.1, fun hset => ?_⟩
      rcases Dict.get?_set_eq_some.1 hset with ⟨-, hfalse⟩ | ⟨-, hset⟩
      · cases hfalse
      · exact hold.2 hset
    | created | woken | reading | paused | finished => exact hold

theorem Orderly.beginRead (hgroup : groups[t]? = some group)
    (htrigger : group.getPollingMode = .onDemand → s.triggers.get? group.id ≠ some true) :
    Orderly groups (s.beginRead groups t group) := by
  unfold PollingDriver.beginRead
  cases hblocks : blocksOfId groups group.id with
  | cons block rest =>
    refine (h.of_reads _).suspend hgroup ⟨by simp, ?_⟩
    rw [hblocks]
  | nil =>
    cases hmode : group.getPollingMode with
    | onDemand => exact (h.of_reads _).suspend hgroup ⟨hmode, htrigger hmode⟩
    | onConnect | continuous =>
      refine (h.of_reads _).suspend hgroup ?_
      rw [OrderlyTask, hmode]
      decide

theorem Orderly.clearAndRead (hgroup : groups[t]? = some group)
    (hmode : group.getPollingMode = .onDemand) :
    Orderly groups (s.clearAndRead groups t group) := by
  refine (h.clear hgroup hmode).beginRead hgroup fun _ hset => ?_
  rw [Dict.get?_set_self] at hset
  cases hset

theorem Orderly.awaitTrigger (hgroup : groups[t]? = some group)
    (hmode : group.getPollingMode = .onDemand) :
    Orderly groups (s.awaitTrigger groups t group) := by
  unfold PollingDriver.awaitTrigger
  split
  · exact h.clearAndRead hgroup hmode
  · next hclear => exact h.suspend hgroup ⟨hmode, hclear⟩

theorem Orderly.resumeTask
    (hgroup : groups[t]? = some group) (htask : OrderlyTask groups s.triggers group task)
    (hstep : s.resumeTask groups t group task = some s') : Orderly groups s' := by
  unfold PollingDriver.resumeTask at hstep
  split at hstep
  · split at hstep <;> cases hstep
    · next hmode => exact h.awaitTrigger hgroup hmode
    · next hmode => exact h.beginRead hgroup fun hdemand => by simp [hmode] at hdemand
    · next hmode => exact h.beginRead hgroup fun hdemand => by simp [hmode] at hdemand
  · cases hstep
    exact h.clearAndRead hgroup htask
  · cases hstep
    exact h.suspend hgroup ⟨by simp, (Nat.le_succ _).trans htask.2⟩
  · split at hstep <;> cases hstep
    · next hmode => exact h.awaitTrigger hgroup hmode
    · next hmode => exact h.suspend hgroup (by simp [OrderlyTask, hmode])
    · next hmode => exact h.suspend hgroup (by simp [OrderlyTask, hmode])
  · cases hstep
    exact h.beginRead hgroup fun hdemand => absurd hdemand htask
  · cases hstep
  · cases hstep

theorem Orderly.pollNow (groupId : String) :
    Orderly groups (s.pollNow groups groupId).1 := by
  unfold PollingDriver.pollNow
  split
  · exact h
  · next old hold =>
    refine ⟨by simp [h.length], fun j value hget => ?_, fun t group task hgroup htask => ?_⟩
    · rcases Dict.get?_set_eq_some.1 hget with ⟨rfl, -⟩ | ⟨-, hget⟩
      · exact h.trigger j old hold
      · exact h.trigger j value hget
    simp only [List.getElem?_zipWith, hgroup] at htask
    obtain ⟨old, hold, rfl⟩ : ∃ old, s.tasks[t]? = some old ∧
        (if group.id = groupId then old.wake else old) = task := by
      cases hold : s.tasks[t]? with
      | none => simp [hold] at htask
      | some old => exact ⟨old, rfl, by simpa [hold] using htask⟩
    have horderly := h.task t group old hgroup hold
    by_cases hid : group.id = groupId
    · rw [if_pos hid]
      cases old with
      | waiting => exact horderly.1
      | created | woken | reading | paused | finished => exact horderly
    · rw [if_neg hid]
      cases old with
      | waiting =>
        refine ⟨horderly.1, ?_⟩
        rw [Dict.get?_set_of_ne _ _ hid]
        exact horderly.2
      | created | woken | reading | paused | finished => exact horderly

theorem orderly_step (hstep : s.step groups e = some s') : Orderly groups s' := by
  cases e with
  | pollNow groupId =>
    cases hstep
    exact h.pollNow groupId
  | resume t =>
    rw [step, resume] at hstep
    split at hstep
    · next group task hgroup htask =>
      exact h.resumeTask hgroup (h.task t group task hgroup htask) hstep
    · cases hstep

/-! ## A set trigger is answered -/

end

theorem resume_eq (hgroup : groups[t]? = some group) (htask : s.tasks[t]? = some task) :
    s.resume groups t = s.resumeTask groups t group task := by
  rw [resume, hgroup, htask]

theorem readSince_clearAndRead : ReadSince groups group.id s (s.clearAndRead groups t group) :=
  ⟨_, beginRead_spec.2, List.mem_singleton_self _⟩

theorem readSince_awaitTrigger (hset : s.triggers.get? group.id = some true) :
    ReadSince groups group.id s (s.awaitTrigger groups t group) := by
  rw [awaitTrigger, if_pos hset]
  exact readSince_clearAndRead

theorem exists_read_of_reading (hgroup : groups[t]? = some group)
    (hmode : group.getPollingMode = .onDemand) {block : Planner.ReadBlock φ}
    {rest : List (Planner.ReadBlock φ)} (htask : s.tasks[t]? = some (.reading (block :: rest)))
    (hset : s.triggers.get? group.id = some true) :
    ∃ s', (pollingMachine groups).run s (List.replicate (rest.length + 1) (.resume t)) = some s' ∧
      ReadSince groups group.id s s' := by
  induction rest generalizing s block with
  | nil =>
    refine ⟨s.awaitTrigger groups t group, ?_, readSince_awaitTrigger hset⟩
    refine ((pollingMachine groups).run_singleton s (.resume t)).trans ?_
    show s.resume groups t = _
    rw [resume_eq hgroup htask]
    simp only [resumeTask, hmode]
  | cons next rest ih =>
    have hlt : t < s.tasks.length := (List.getElem?_eq_some_iff.1 htask).1
    have hnext : (s.suspend t (.reading (next :: rest))).tasks[t]? =
        some (.reading (next :: rest)) := List.getElem?_set_self hlt
    obtain ⟨s', hrun, hread⟩ := ih hnext hset
    refine ⟨s', ?_, hread⟩
    have hstep : (pollingMachine groups).step s (.resume t) =
        some (s.suspend t (.reading (next :: rest))) := by
      show s.resume groups t = _
      rw [resume_eq hgroup htask]
      rfl
    rw [List.length_cons, List.replicate_succ, Machine.run_cons, hstep]
    exact hrun

/-- **A set trigger is answered** by the group's own task, after what is left of its read. -/
theorem Orderly.exists_read (h : Orderly groups s) (hgroup : groups[t]? = some group)
    (hmode : group.getPollingMode = .onDemand) (hset : s.triggers.get? group.id = some true) :
    ∃ n ≤ (blocksOfId groups group.id).length + 1, ∃ s',
      (pollingMachine groups).run s (List.replicate n (.resume t)) = some s' ∧
        ReadSince groups group.id s s' := by
  have hlt : t < s.tasks.length := by
    rw [h.length]
    exact (List.getElem?_eq_some_iff.1 hgroup).1
  obtain ⟨task, htask⟩ : ∃ task, s.tasks[t]? = some task := ⟨_, List.getElem?_eq_getElem hlt⟩
  have horderly := h.task t group task hgroup htask
  have hone : ∀ s', s.resumeTask groups t group task = some s' →
      (pollingMachine groups).run s (List.replicate 1 (.resume t)) = some s' := by
    intro s' hs'
    rw [← hs', ← resume_eq hgroup htask]
    exact (pollingMachine groups).run_singleton s (.resume t)
  cases task with
  | waiting => exact absurd hset horderly.2
  | paused | finished => exact absurd hmode horderly
  | created =>
    refine ⟨1, by omega, s.awaitTrigger groups t group, hone _ ?_, readSince_awaitTrigger hset⟩
    simp only [PollingDriver.resumeTask, hmode]
  | woken => exact ⟨1, by omega, s.clearAndRead groups t group, hone _ rfl, readSince_clearAndRead⟩
  | reading blocks =>
    obtain ⟨hne, hlength⟩ := horderly
    obtain ⟨block, rest, rfl⟩ := List.exists_cons_of_ne_nil hne
    rw [List.length_cons] at hlength
    exact ⟨rest.length + 1, by omega, exists_read_of_reading hgroup hmode htask hset⟩

theorem orderly_run
    (hrun : (pollingMachine groups).run (start groups) es = some s) : Orderly groups s :=
  (pollingMachine groups).inv_run (fun _ _ _ => orderly_step) orderly_start hrun

end PollingDriver

open PollingDriver

/-- **No call is lost.**  `poll_now` is called after any run and returns true; whatever happens
then, the trigger is still set or a read of all blocks of the group has started after the call.  If
it is still set, a group of that id has a task that starts such a read, after no more steps than the
group has blocks and one. -/
theorem poll_now_not_lost (groups : List (TagGroup φ)) {front back : List PollingEvent}
    {p u s : PollingDriver φ} {groupId : String}
    (hfront : (pollingMachine groups).run (start groups) front = some p)
    (hcall : p.pollNow groups groupId = (u, true))
    (hback : (pollingMachine groups).run u back = some s) :
    (s.triggers.get? groupId = some true ∨ ReadSince groups groupId u s) ∧
    (s.triggers.get? groupId = some true → ∃ t group, groups[t]? = some group ∧
      group.id = groupId ∧ ∃ n ≤ (blocksOfId groups groupId).length + 1, ∃ s',
        (pollingMachine groups).run s (List.replicate n (.resume t)) = some s' ∧
          ReadSince groups groupId s s') := by
  have hstep : (pollingMachine groups).run p [.pollNow groupId] = some u := by
    rw [Machine.run_singleton]
    exact congrArg (fun r => some r.1) hcall
  have hset : u.triggers.get? groupId = some true := by
    unfold PollingDriver.pollNow at hcall
    split at hcall
    · cases hcall
    · cases hcall
      exact Dict.get?_set_self _ _ _
  refine ⟨(answered_run hset hback).2, fun hstill => ?_⟩
  have horderly : Orderly groups s := by
    have hrun : (pollingMachine groups).run (start groups)
        (front ++ ([.pollNow groupId] ++ back)) = some s := by
      rw [Machine.run_append, hfront, Option.bind_some, Machine.run_append, hstep,
        Option.bind_some, hback]
    exact orderly_run hrun
  obtain ⟨group, hmem, hmode, rfl⟩ := horderly.trigger groupId true hstill
  obtain ⟨t, hgroup⟩ := List.mem_iff_getElem?.1 hmem
  exact ⟨t, group, hgroup, rfl, horderly.exists_read hgroup hmode hstill⟩

def twoBlocks : TagGroup ℚ :=
  { groupOfOne (register 0 .uint16) with
    tags := [register 0 .uint16, register 9 .uint16]
    pollingMode := some .onDemand }

/-- A call during the read that an earlier call has started, and then the first block arrives. -/
theorem poll_now_not_lost_twoBlocks : ∃ p u s,
    (pollingMachine [twoBlocks]).run (start [twoBlocks]) [.resume 0, .pollNow "g", .resume 0] =
      some p ∧
    p.reads.length = 1 ∧ p.pollNow [twoBlocks] "g" = (u, true) ∧
    (pollingMachine [twoBlocks]).run u [.resume 0] = some s ∧ s.reads.length = 1 ∧
    (s.triggers.get? "g" = some true ∨ ReadSince [twoBlocks] "g" u s) := by
  obtain ⟨p, hp, hpv⟩ := Option.map_eq_some_iff.1
    (show ((pollingMachine [twoBlocks]).run (start [twoBlocks])
        [.resume 0, .pollNow "g", .resume 0]).map
      (fun p => (p.reads.length, (p.pollNow [twoBlocks] "g").2,
        ((pollingMachine [twoBlocks]).run (p.pollNow [twoBlocks] "g").1 [.resume 0]).map
          fun s => s.reads.length)) = some (1, true, some 1) by decide +kernel)
  simp only [Prod.mk.injEq] at hpv
  obtain ⟨hreads, htrue, hback⟩ := hpv
  obtain ⟨s, hs, hsreads⟩ := Option.map_eq_some_iff.1 hback
  have hcall : p.pollNow [twoBlocks] "g" = ((p.pollNow [twoBlocks] "g").1, true) :=
    Prod.ext rfl htrue
  exact ⟨p, _, s, hp, hreads, hcall, hs, hsreads, (poll_now_not_lost [twoBlocks] hp hcall hs).1⟩

end XEdge.Modbus
