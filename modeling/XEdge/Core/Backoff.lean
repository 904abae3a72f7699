import XEdge.Core.Supervision

/-!
# The delays of a supervised task (`DriverSupervisor._supervise`)

A driver that fails is disconnected, and after a delay the task makes another one.  The delay
doubles with every failure up to five minutes; a failure after a minute or more of the same attempt
makes it one second again.  Beside the delay the task keeps the number of failures in a row, which
the API reports.

An attempt lasts from the creation of its driver object until that object has been disconnected,
which is when the task looks at the clock.
-/

namespace XEdge.Core.Supervision

open Lib

/-! ## The record of a task -/

inductive DriverCall where
  | created (n : Nat)
  /-- It raised an `Exception`. -/
  | failed (n : Nat)
  /-- Its `disconnect()` has ended. -/
  | disconnected (n : Nat)
  deriving DecidableEq

/-- The start of a sleep: the delay, and the failures that are reported by then. -/
structure Sleep where
  seconds : Nat
  consecutiveFailures : Nat
  deriving DecidableEq

structure Supervised where
  task : Option Task
  status : Status
  drivers : Nat
  calls : List DriverCall
  attempts : List ℚ
  sleeps : List Sleep

namespace Supervised

/-- A task that `start()` has made. -/
def new : Supervised where
  task := some ⟨.created, false, none, INITIAL_BACKOFF_SECONDS⟩
  status := ⟨.starting, .task, 0, none⟩
  drivers := 0
  calls := []
  attempts := []
  sleeps := []

def remaining : Fate → Option Task
  | .suspended task => some task
  | .ended => none
  | .failed => none

def record (s : Supervised) (phase : TaskPhase) : TaskEvent → Supervised
  | .begin true | .woke true =>
      { s with drivers := s.drivers + 1, calls := s.calls ++ [.created s.drivers] }
  | .raised _ => { s with calls := s.calls ++ [.failed (s.drivers - 1)] }
  | .disconnected => { s with calls := s.calls ++ [.disconnected (s.drivers - 1)] }
  | .recovered elapsed =>
      match phase, s.task with
      | .recovering, some task =>
          { s with
            calls := s.calls ++ [.disconnected (s.drivers - 1)]
            attempts := s.attempts ++ [elapsed]
            sleeps := s.sleeps ++ [⟨task.backoff, s.status.consecutiveFailures⟩] }
      | _, _ => { s with calls := s.calls ++ [.disconnected (s.drivers - 1)] }
  | _ => s

def step (s : Supervised) (ev : TaskEvent) : Option Supervised :=
  match s.task with
  | none => none
  | some task =>
      match task.resume ev with
      | none => none
      | some (fate, write) =>
          some ({ s with task := remaining fate, status := write s.status }.record task.phase ev)

end Supervised

def superviseMachine : Machine Supervised TaskEvent := ⟨Supervised.step⟩

/-! ## Delays and counts -/

/-- Of these attempts, oldest first, `c` are counted: the last one that lasted a minute or more, or
the first if none did, and all after it. -/
def CountedFrom (attempts : List ℚ) (c : Nat) : Prop :=
  ∃ before first later, attempts = before ++ first :: later ∧ c = later.length + 1 ∧
    (∀ d ∈ later, d < BACKOFF_RESET_THRESHOLD_SECONDS) ∧
    (BACKOFF_RESET_THRESHOLD_SECONDS ≤ first ∨ before = [])

/-- The delay after the `c`-th failure. -/
def delayAfter (c : Nat) : Nat := min (2 ^ (c - 1)) MAX_BACKOFF_SECONDS

variable {d : ℚ}

theorem countedFrom_long (attempts : List ℚ) (h : BACKOFF_RESET_THRESHOLD_SECONDS ≤ d) :
    CountedFrom (attempts ++ [d]) 1 :=
  ⟨attempts, d, [], rfl, rfl, by simp, .inl h⟩

theorem countedFrom_singleton (d : ℚ) : CountedFrom [d] 1 :=
  ⟨[], d, [], rfl, rfl, by simp, .inr rfl⟩

variable {attempts : List ℚ} {c : Nat}

theorem CountedFrom.short (h : CountedFrom attempts c)
    (hd : d < BACKOFF_RESET_THRESHOLD_SECONDS) : CountedFrom (attempts ++ [d]) (c + 1) := by
  obtain ⟨before, first, later, rfl, rfl, hlater, hfirst⟩ := h
  refine ⟨before, first, later ++ [d], by simp, by simp, ?_, hfirst⟩
  exact List.forall_mem_append.2 ⟨hlater, List.forall_mem_singleton.2 hd⟩

theorem delayAfter_succ (h : 0 < c) :
    min (delayAfter c * BACKOFF_MULTIPLIER) MAX_BACKOFF_SECONDS = delayAfter (c + 1) := by
  obtain ⟨c, rfl⟩ := Nat.exists_eq_add_of_le' h
  rw [delayAfter, delayAfter, Nat.add_sub_cancel, Nat.add_sub_cancel, pow_succ,
    BACKOFF_MULTIPLIER, MAX_BACKOFF_SECONDS]
  omega

/-- The failures counted so far: none before the first. -/
def Count (attempts : List ℚ) (c : Nat) : Prop :=
  attempts = [] ∧ c = 0 ∨ CountedFrom attempts c

def InStep (attempts : List ℚ) (failures : Nat) (task : Task) : Prop :=
  match task.phase with
  | .created | .opening | .running | .closing =>
      Count attempts failures ∧ task.backoff = delayAfter (failures + 1)
  | .recovering =>
      ∃ c, failures = c + 1 ∧ Count attempts c ∧ task.backoff = delayAfter failures
  | .sleeping => CountedFrom attempts failures ∧ task.backoff = delayAfter failures
  | .winding => True

theorem Count.add (h : Count attempts c)
    (hd : d < BACKOFF_RESET_THRESHOLD_SECONDS) : CountedFrom (attempts ++ [d]) (c + 1) := by
  rcases h with ⟨rfl, rfl⟩ | h
  · exact countedFrom_singleton d
  · exact h.short hd

theorem CountedFrom.pos (h : CountedFrom attempts c) : 0 < c := by
  obtain ⟨before, first, later, -, rfl, -⟩ := h
  exact Nat.succ_pos _

/-! ## Delay and count stay in step -/

variable {task task' : Task} {ev : TaskEvent} {write : Status → Status} {st : Status}

theorem inStep_resumed
    (h : InStep attempts st.consecutiveFailures task)
    (hresumed : Resumed task ev (.suspended task') write)
    (hev : ∀ elapsed, ev ≠ .recovered elapsed) :
    InStep attempts (write st).consecutiveFailures task' := by
  unfold InStep at h
  cases hresumed with
  | begun hphase | connected hphase | runReturned hphase =>
    rw [hphase] at h
    exact h
  | raised error hphase =>
    have hopen : Count attempts st.consecutiveFailures ∧
        task.backoff = delayAfter (st.consecutiveFailures + 1) := by
      rcases hphase with hphase | hphase | hphase <;>
      · rw [hphase] at h
        exact h
    exact ⟨_, rfl, hopen⟩
  | recoveredLong elapsed | recoveredShort elapsed => exact absurd rfl (hev elapsed)
  | woken hphase =>
    rw [hphase] at h
    refine ⟨.inr h.1, ?_⟩
    rw [h.2]
    exact delayAfter_succ h.1.pos
  | winding => trivial

variable {elapsed : ℚ}

theorem inStep_recovered (h : InStep attempts st.consecutiveFailures task)
    (hresumed : Resumed task (.recovered elapsed) (.suspended task') write) :
    task.phase = .recovering ∧ task'.phase = .sleeping ∧
      CountedFrom (attempts ++ [elapsed]) (write st).consecutiveFailures ∧
      task'.backoff = delayAfter (write st).consecutiveFailures := by
  unfold InStep at h
  cases hresumed with
  | recoveredLong _ hphase hlong => exact ⟨hphase, rfl, countedFrom_long attempts hlong, rfl⟩
  | recoveredShort _ hphase hshort =>
    rw [hphase] at h
    obtain ⟨c, hc, hcount, hbackoff⟩ := h
    refine ⟨hphase, rfl, ?_, hbackoff⟩
    show CountedFrom _ st.consecutiveFailures
    rw [hc]
    exact hcount.add hshort

/-! ## The record -/

def Recorded (drivers : Nat) (calls : List DriverCall) : TaskPhase → Prop
  | .created => drivers = 0 ∧ calls = []
  | .opening | .running | .closing => 0 < drivers
  | .recovering => 0 < drivers ∧ ∃ front, calls = front ++ [.failed (drivers - 1)]
  | .sleeping =>
      0 < drivers ∧ ∃ front, calls = front ++ [.failed (drivers - 1), .disconnected (drivers - 1)]
  | .winding => True

/-- Every driver but the first is made right after the one before it has failed and was
disconnected. -/
def Tidy (calls : List DriverCall) : Prop :=
  ∀ front n back, calls = front ++ .created (n + 1) :: back →
    ∃ earlier, front = earlier ++ [.failed n, .disconnected n]

variable {calls : List DriverCall}

theorem Tidy.concat (h : Tidy calls) {c : DriverCall}
    (hc : ∀ n, c = .created (n + 1) →
      ∃ earlier, calls = earlier ++ [.failed n, .disconnected n]) : Tidy (calls ++ [c]) := by
  intro front n back heq
  rcases List.eq_nil_or_concat back with rfl | ⟨back', last, rfl⟩
  · obtain ⟨rfl, hlast⟩ := List.append_inj' heq rfl
    exact hc n (List.singleton_inj.1 hlast)
  · have hsplit : calls ++ [c] = (front ++ .created (n + 1) :: back') ++ [last] := by
      rw [heq, List.concat_eq_append, List.append_assoc, List.cons_append]
    exact h front n back' (List.append_inj' hsplit rfl).1

structure Slept (attempts : List ℚ) (sleeps : List Sleep) : Prop where
  length : sleeps.length = attempts.length
  sleep : ∀ i < attempts.length, ∃ c, CountedFrom (attempts.take (i + 1)) c ∧
    sleeps[i]? = some ⟨delayAfter c, c⟩

theorem Slept.concat {sleeps : List Sleep} (h : Slept attempts sleeps)
    (hc : CountedFrom (attempts ++ [d]) c) :
    Slept (attempts ++ [d]) (sleeps ++ [⟨delayAfter c, c⟩]) where
  length := by rw [List.length_append, List.length_append, h.length]; rfl
  sleep i hi := by
    rw [List.length_append, List.length_singleton] at hi
    rcases Nat.lt_succ_iff_lt_or_eq.1 hi with hlt | rfl
    · obtain ⟨c', hc', hsleep⟩ := h.sleep i hlt
      refine ⟨c', ?_, ?_⟩
      · rw [List.take_append_of_le_length hlt]
        exact hc'
      · rw [List.getElem?_append_left (h.length ▸ hlt)]
        exact hsleep
    · refine ⟨c, ?_, ?_⟩
      · rw [List.take_of_length_le (by simp)]
        exact hc
      · rw [← h.length]
        exact List.getElem?_concat_length

structure Lawful (s : Supervised) : Prop where
  inStep : ∀ task, s.task = some task → InStep s.attempts s.status.consecutiveFailures task
  recorded : ∀ task, s.task = some task → Recorded s.drivers s.calls task.phase
  tidy : Tidy s.calls
  slept : Slept s.attempts s.sleeps

theorem lawful_new : Lawful .new where
  inStep task h := by
    cases h
    exact ⟨.inl ⟨rfl, rfl⟩, rfl⟩
  recorded task h := by
    cases h
    exact ⟨rfl, rfl⟩
  tidy front n back h := by simp [Supervised.new] at h
  slept := ⟨rfl, by simp [Supervised.new]⟩

variable {s : Supervised}

theorem Lawful.ended (h : Lawful s) (status : Status) (calls : List DriverCall)
    (hcalls : Tidy calls) : Lawful { s with task := none, status, calls } where
  inStep task htask := by cases htask
  recorded task htask := by cases htask
  tidy := hcalls
  slept := h.slept

theorem Lawful.goesOn (h : Lawful s) (htask : s.task = some task)
    (hresumed : Resumed task ev (.suspended task') write) (hev : ∀ elapsed, ev ≠ .recovered elapsed)
    {drivers : Nat} (hrecorded : Recorded drivers calls task'.phase) (htidy : Tidy calls) :
    Lawful { s with task := some task', status := write s.status, drivers, calls } where
  inStep task'' htask'' := by
    cases htask''
    exact inStep_resumed (h.inStep task htask) hresumed hev
  recorded task'' htask'' := by
    cases htask''
    exact hrecorded
  tidy := htidy
  slept := h.slept

theorem Lawful.recovered (h : Lawful s) (htask : s.task = some task)
    (hresumed : Resumed task (.recovered elapsed) (.suspended task') write) :
    Lawful { s with
      task := some task'
      status := write s.status
      calls := s.calls ++ [.disconnected (s.drivers - 1)]
      attempts := s.attempts ++ [elapsed]
      sleeps := s.sleeps ++ [⟨task'.backoff, (write s.status).consecutiveFailures⟩] } := by
  obtain ⟨hphase, hphase', hcount, hdelay⟩ := inStep_recovered (h.inStep task htask) hresumed
  have hrecorded := h.recorded task htask
  rw [hphase] at hrecorded
  obtain ⟨hdrivers, front, hfront⟩ := hrecorded
  refine ⟨fun task'' htask'' => ?_, fun task'' htask'' => ?_, ?_, ?_⟩
  · cases htask''
    rw [InStep, hphase']
    exact ⟨hcount, hdelay⟩
  · cases htask''
    rw [hphase']
    exact ⟨hdrivers, front, by rw [hfront, List.append_assoc]; rfl⟩
  · exact h.tidy.concat fun n hn => by cases hn
  · simp only [hdelay]
    exact h.slept.concat hcount

theorem lawful_step {s' : Supervised} (h : Lawful s) (hstep : s.step ev = some s') : Lawful s' := by
  unfold Supervised.step at hstep
  split at hstep
  · cases hstep
  · next task htask =>
    split at hstep
    · cases hstep
    · next fate write hresume =>
      cases hstep
      have hrecorded := h.recorded task htask
      have hresumed := resumed_of_resume hresume
      cases hresumed with
      | begun hphase =>
        rw [hphase] at hrecorded
        obtain ⟨hdrivers, hcalls⟩ := hrecorded
        refine h.goesOn htask (.begun hphase) (by simp) (Nat.succ_pos _) ?_
        refine h.tidy.concat fun n hn => ?_
        rw [hdrivers] at hn
        cases hn
      | woken hphase =>
        rw [hphase] at hrecorded
        obtain ⟨hdrivers, front, hfront⟩ := hrecorded
        refine h.goesOn htask (.woken hphase) (by simp) (Nat.succ_pos _) ?_
        refine h.tidy.concat fun n hn => ⟨front, ?_⟩
        rw [DriverCall.created.injEq] at hn
        rw [hfront, hn, Nat.add_sub_cancel]
      | connected hphase =>
        rw [hphase] at hrecorded
        exact h.goesOn htask (.connected hphase) (by simp) hrecorded h.tidy
      | runReturned hphase =>
        rw [hphase] at hrecorded
        exact h.goesOn htask (.runReturned hphase) (by simp) hrecorded h.tidy
      | raised error hphase =>
        have hdrivers : 0 < s.drivers := by
          rcases hphase with hphase | hphase | hphase <;>
          · rw [hphase] at hrecorded
            exact hrecorded
        refine h.goesOn htask (.raised error hphase) (by simp) ⟨hdrivers, s.calls, rfl⟩ ?_
        exact h.tidy.concat fun n hn => by cases hn
      | recoveredLong elapsed hphase hlong =>
        rw [hphase]
        exact h.recovered htask (.recoveredLong elapsed hphase hlong)
      | recoveredShort elapsed hphase hshort =>
        rw [hphase]
        exact h.recovered htask (.recoveredShort elapsed hphase hshort)
      | wound elapsed hphase =>
        rw [hphase]
        exact h.ended _ _ (h.tidy.concat fun n hn => by cases hn)
      | disconnected => exact h.ended _ _ (h.tidy.concat fun n hn => by cases hn)
      | winding hcancelled =>
        exact h.goesOn htask (.winding hcancelled) (by simp) trivial h.tidy
      | notCreated | notCreatedAgain | cancelled => exact h.ended _ _ h.tidy

/-- **Delays, counts and drivers.**  In every run of a supervised task, however often its driver
fails and after whatever times: the delay slept after each failed attempt is `min(2^(c-1), 300)`
seconds, where `c` is the number of failures reported then, and `c` counts the attempts up to that
one from the most recent on that lasted a minute or more, or from the first; and each driver object
but the first is made right after the one before it has failed and was disconnected. -/
theorem backoff_law {es : List TaskEvent} {s : Supervised}
    (hrun : superviseMachine.run .new es = some s) :
    s.sleeps.length = s.attempts.length ∧
    (∀ i < s.attempts.length, ∃ c, CountedFrom (s.attempts.take (i + 1)) c ∧
      s.sleeps[i]? = some ⟨min (2 ^ (c - 1)) 300, c⟩) ∧
    ∀ front n back, s.calls = front ++ .created (n + 1) :: back →
      ∃ earlier, front = earlier ++ [.failed n, .disconnected n] := by
  have h : Lawful s := superviseMachine.inv_run (fun _ _ _ => lawful_step) lawful_new hrun
  exact ⟨h.slept.length, h.slept.sleep, h.tidy⟩

/-! ## Every history of failures happens -/

def failsAfter (elapsed : ℚ) : List TaskEvent :=
  [.connected, .raised "lost", .recovered elapsed, .woke true]

theorem backoff_law_longThird : ∃ s,
    superviseMachine.run .new (.begin true :: [0, 0, 120, 5].flatMap failsAfter) = some s ∧
    s.sleeps = [⟨1, 1⟩, ⟨2, 2⟩, ⟨1, 1⟩, ⟨2, 2⟩] ∧
    ∃ c, CountedFrom (s.attempts.take 4) c ∧ s.sleeps[3]? = some ⟨min (2 ^ (c - 1)) 300, c⟩ := by
  obtain ⟨s, hs, hv⟩ := Option.map_eq_some_iff.1
    (show (superviseMachine.run .new (.begin true :: [0, 0, 120, 5].flatMap failsAfter)).map
      (fun s => (s.sleeps, s.attempts.length)) = some ([⟨1, 1⟩, ⟨2, 2⟩, ⟨1, 1⟩, ⟨2, 2⟩], 4)
        by decide +kernel)
  obtain ⟨hsleeps, hlength⟩ := Prod.mk.inj hv
  exact ⟨s, hs, hsleeps, (backoff_law hs).2.1 3 (by omega)⟩

end XEdge.Core.Supervision
