import XEdge.Lib.Machine
import XEdge.Lib.Dict

/-!
# The request scheduler (`xedge/drivers/modbus/scheduler.py`)

`submit` creates a future, queues the request with its priority and its sequence number,
and awaits the future.  One consumer task, made by `start`, takes the least request off
the queue, awaits its coroutine and resolves its future.  `stop` cancels the consumer,
awaits its end and fails whatever is still queued.

The consumer is suspended in `queue.get()` or in the coroutine of a request; `stop` is
suspended in the await of the consumer.  An event resumes one task up to its next
suspension, so every interleaving of the callers is a list of events.
-/

namespace XEdge.Modbus

open Lib

/-! ## The scheduler -/

/-- `RequestPriority.WRITE`. -/
def PRIORITY_WRITE : Int := 0

/-- `RequestPriority.READ`. -/
def PRIORITY_READ : Int := 10

/-- `_QueuedRequest`.  Its sequence number also names its future and its coroutine. -/
structure QueuedRequest where
  priority : Int
  sequence : Nat
  deriving DecidableEq, Repr

namespace QueuedRequest

/-- The order of `@dataclass(order=True)`: by priority, then by sequence number. -/
def Precedes (q r : QueuedRequest) : Prop :=
  q.priority < r.priority ∨ q.priority = r.priority ∧ q.sequence < r.sequence

instance (q r : QueuedRequest) : Decidable (q.Precedes r) := inferInstanceAs (Decidable (_ ∨ _))

variable {q r t : QueuedRequest}

theorem Precedes.trans (h : q.Precedes r) (h' : r.Precedes t) :
    q.Precedes t := by
  unfold Precedes at *
  omega

theorem not_precedes_trans (h : ¬ q.Precedes r) (h' : ¬ r.Precedes t) :
    ¬ q.Precedes t := by
  unfold Precedes at *
  omega

def least (q : QueuedRequest) : List QueuedRequest → QueuedRequest
  | [] => q
  | r :: rs => least (if r.Precedes q then r else q) rs

theorem least_spec (q : QueuedRequest) (rs : List QueuedRequest) :
    least q rs ∈ q :: rs ∧ ∀ r ∈ q :: rs, ¬ r.Precedes (least q rs) := by
  induction rs generalizing q with
  | nil => simp [least, Precedes]
  | cons r rs ih =>
    rw [least]
    obtain ⟨hmem, hle⟩ := ih (if r.Precedes q then r else q)
    by_cases h : r.Precedes q
    · rw [if_pos h] at hmem hle ⊢
      refine ⟨List.mem_cons_of_mem _ hmem, ?_⟩
      intro t ht
      rcases List.mem_cons.1 ht with rfl | ht
      · intro hq
        exact hle r (List.mem_cons_self ..) (h.trans hq)
      · exact hle t ht
    · rw [if_neg h] at hmem hle ⊢
      refine ⟨?_, ?_⟩
      · rcases List.mem_cons.1 hmem with hq | hrs
        · rw [hq]
          exact List.mem_cons_self ..
        · exact List.mem_cons_of_mem _ (List.mem_cons_of_mem _ hrs)
      · intro t ht
        rcases List.mem_cons.1 ht with rfl | ht
        · exact hle t (List.mem_cons_self ..)
        · rcases List.mem_cons.1 ht with rfl | ht
          · exact not_precedes_trans h (hle q (List.mem_cons_self ..))
          · exact hle t (List.mem_cons_of_mem _ ht)

end QueuedRequest

/-- `PriorityQueue.get_nowait`: the least request, and the others. -/
def popMin : List QueuedRequest → Option (QueuedRequest × List QueuedRequest)
  | [] => none
  | q :: qs => some (q.least qs, (q :: qs).erase (q.least qs))

theorem popMin_spec {queue rest : List QueuedRequest} {r : QueuedRequest}
    (h : popMin queue = some (r, rest)) :
    r ∈ queue ∧ rest = queue.erase r ∧ ∀ q ∈ queue, ¬ q.Precedes r := by
  cases queue with
  | nil => cases h
  | cons q qs =>
    obtain ⟨rfl, rfl⟩ := Prod.mk.inj (Option.some.inj h)
    obtain ⟨hmem, hle⟩ := q.least_spec qs
    exact ⟨hmem, rfl, hle⟩

/-- What a future is resolved with: values `τ` and exceptions `ε` come from coroutines. -/
inductive Resolution (τ ε : Type) where
  | result (value : τ)
  | exception (error : ε)
  /-- `SchedulerStoppedError("RequestScheduler.stop() called")`. -/
  | schedulerStopped
  | cancelled
  deriving DecidableEq, Repr

/-- Whether `future.cancelled()` is true after it. -/
def Resolution.isCancelled {τ ε : Type} : Resolution τ ε → Bool
  | .cancelled => true
  | _ => false

inductive Ending (τ ε : Type) where
  | returned (value : τ)
  /-- An `Exception`. -/
  | raised (error : ε)
  /-- A `CancelledError`, which is none. -/
  | cancelledError
  deriving DecidableEq, Repr

/-- What `_run` resolves the future with: `except Exception` does not see a
`CancelledError`. -/
def Ending.resolution {τ ε : Type} : Ending τ ε → Option (Resolution τ ε)
  | .returned value => some (.result value)
  | .raised error => some (.exception error)
  | .cancelledError => none

/-- A task that runs `_run`. -/
structure Consumer where
  /-- The request whose coroutine it awaits; `none` in `queue.get()`. -/
  current : Option QueuedRequest
  /-- `cancel()` was called, and its `CancelledError` has not come out yet. -/
  cancelling : Bool
  deriving DecidableEq, Repr

/-- `RequestScheduler`, with its tasks and futures. -/
structure Scheduler (τ ε : Type) where
  queue : List QueuedRequest
  /-- `_counter`: the next sequence number. -/
  counter : Nat
  consumerTask : Option Nat
  consumers : Dict Nat Consumer
  nextTask : Nat
  /-- The suspended `stop` calls, each with the task it awaits. -/
  stopping : List Nat
  resolutions : List (Nat × Resolution τ ε)
  started : List QueuedRequest
  /-- How many futures there were when a `stop` last returned. -/
  returned : Nat
  deriving DecidableEq

inductive SchedulerEvent (τ ε : Type) where
  | submit (priority : Int)
  | cancel (sequence : Nat)
  /-- `start()` is called. -/
  | start
  | take (task : Nat)
  | finish (task : Nat) (ending : Ending τ ε)
  /-- A consumer in `queue.get()` gets the `CancelledError`. -/
  | ended (task : Nat)
  /-- `stop()` is called. -/
  | stop
  /-- The `i`-th suspended `stop()` goes on: the task it awaits has ended. -/
  | stopped (i : Nat)
  deriving DecidableEq, Repr

namespace Scheduler

variable {τ ε : Type}

/-- `RequestScheduler()`. -/
def new : Scheduler τ ε := ⟨[], 0, none, .empty, 0, [], [], [], 0⟩

def Done (s : Scheduler τ ε) (n : Nat) : Prop := n ∈ s.resolutions.map Prod.fst

instance (s : Scheduler τ ε) (n : Nat) : Decidable (s.Done n) :=
  inferInstanceAs (Decidable (n ∈ _))

def Cancelled (s : Scheduler τ ε) (n : Nat) : Prop :=
  ∃ p ∈ s.resolutions, p.1 = n ∧ p.2.isCancelled = true

instance (s : Scheduler τ ε) (n : Nat) : Decidable (s.Cancelled n) :=
  inferInstanceAs (Decidable (∃ p ∈ _, _ ∧ _))

def resolve (s : Scheduler τ ε) (n : Nat) (r : Resolution τ ε) : Scheduler τ ε :=
  if s.Done n then s else { s with resolutions := s.resolutions ++ [(n, r)] }

/-- The end of `stop()`, from `_consumer_task = None` on: fail what is queued, least first. -/
def drained (s : Scheduler τ ε) : Scheduler τ ε :=
  let cleared : Scheduler τ ε :=
    { s with consumerTask := none, queue := [], returned := s.counter }
  (s.queue.insertionSort fun q r => ¬ r.Precedes q).foldl
    (fun s q => s.resolve q.sequence .schedulerStopped) cleared

def step (s : Scheduler τ ε) : SchedulerEvent τ ε → Option (Scheduler τ ε)
  | .submit priority =>
      some { s with queue := s.queue ++ [⟨priority, s.counter⟩], counter := s.counter + 1 }
  | .cancel n => if n < s.counter then some (s.resolve n .cancelled) else none
  | .start =>
      match s.consumerTask with
      | some _ => some s
      | none =>
          some { s with
            consumerTask := some s.nextTask
            consumers := s.consumers.set s.nextTask ⟨none, false⟩
            nextTask := s.nextTask + 1 }
  | .take t =>
      match s.consumers.get? t, popMin s.queue with
      | some ⟨none, false⟩, some (r, rest) =>
          -- `if item.future.cancelled(): continue`
          if s.Cancelled r.sequence then some { s with queue := rest }
          else
            some { s with
              queue := rest
              consumers := s.consumers.set t ⟨some r, false⟩
              started := s.started ++ [r] }
      | _, _ => none
  | .finish t ending =>
      match s.consumers.get? t with
      | some ⟨some r, _⟩ =>
          match ending.resolution with
          -- also when the coroutine swallowed a cancellation: the consumer goes on
          | some res =>
              some ({ s with consumers := s.consumers.set t ⟨none, false⟩ }.resolve r.sequence res)
          -- the consumer ends, and the future stays as it is
          | none => some { s with consumers := s.consumers.erase t }
      | _ => none
  | .ended t =>
      match s.consumers.get? t with
      | some ⟨none, true⟩ => some { s with consumers := s.consumers.erase t }
      | _ => none
  | .stop =>
      match s.consumerTask with
      | none => some s.drained
      | some t =>
          match s.consumers.get? t with
          -- the await of a task that has ended does not suspend
          | none => some s.drained
          | some c =>
              some { s with
                consumers := s.consumers.set t { c with cancelling := true }
                stopping := s.stopping ++ [t] }
  | .stopped i =>
      match s.stopping[i]? with
      | some t =>
          if (s.consumers.get? t).isNone then
            some { s with stopping := s.stopping.eraseIdx i }.drained
          else none
      | none => none

def executing (s : Scheduler τ ε) : List QueuedRequest :=
  s.consumers.values.filterMap Consumer.current

/-! ## What the operations do, seen from outside -/

/-- The event leads from `s` to the last argument. -/
inductive Step (s : Scheduler τ ε) : SchedulerEvent τ ε → Scheduler τ ε → Prop
  | submit (priority : Int) : Step s (.submit priority)
      { s with queue := s.queue ++ [⟨priority, s.counter⟩], counter := s.counter + 1 }
  | cancel (n : Nat) (hn : n < s.counter) : Step s (.cancel n) (s.resolve n .cancelled)
  | alreadyStarted (t : Nat) (ht : s.consumerTask = some t) : Step s .start s
  | start (ht : s.consumerTask = none) : Step s .start
      { s with
        consumerTask := some s.nextTask
        consumers := s.consumers.set s.nextTask ⟨none, false⟩
        nextTask := s.nextTask + 1 }
  | skip (t : Nat) (r : QueuedRequest) (rest : List QueuedRequest)
      (ht : s.consumers.get? t = some ⟨none, false⟩) (hpop : popMin s.queue = some (r, rest))
      (hc : s.Cancelled r.sequence) : Step s (.take t) { s with queue := rest }
  | begin (t : Nat) (r : QueuedRequest) (rest : List QueuedRequest)
      (ht : s.consumers.get? t = some ⟨none, false⟩) (hpop : popMin s.queue = some (r, rest))
      (hc : ¬ s.Cancelled r.sequence) : Step s (.take t)
        { s with
          queue := rest
          consumers := s.consumers.set t ⟨some r, false⟩
          started := s.started ++ [r] }
  | finish (t : Nat) (r : QueuedRequest) (c : Bool) (ending : Ending τ ε) (res : Resolution τ ε)
      (ht : s.consumers.get? t = some ⟨some r, c⟩) (hres : ending.resolution = some res) :
      Step s (.finish t ending)
        ({ s with consumers := s.consumers.set t ⟨none, false⟩ }.resolve r.sequence res)
  | escape (t : Nat) (r : QueuedRequest) (c : Bool) (ending : Ending τ ε)
      (ht : s.consumers.get? t = some ⟨some r, c⟩) (hres : ending.resolution = none) :
      Step s (.finish t ending) { s with consumers := s.consumers.erase t }
  | ended (t : Nat) (ht : s.consumers.get? t = some ⟨none, true⟩) :
      Step s (.ended t) { s with consumers := s.consumers.erase t }
  | stopAtOnce (ht : ∀ t, s.consumerTask = some t → s.consumers.get? t = none) :
      Step s .stop s.drained
  | stop (t : Nat) (c : Consumer) (ht : s.consumerTask = some t)
      (hc : s.consumers.get? t = some c) : Step s .stop
        { s with
          consumers := s.consumers.set t { c with cancelling := true }
          stopping := s.stopping ++ [t] }
  | stopped (i t : Nat) (hi : s.stopping[i]? = some t) (ht : s.consumers.get? t = none) :
      Step s (.stopped i) { s with stopping := s.stopping.eraseIdx i }.drained

variable {s s' : Scheduler τ ε} {e : SchedulerEvent τ ε}

theorem step_cases (h : s.step e = some s') :
    Step s e s' := by
  cases e with
  | submit priority => cases h; exact .submit priority
  | cancel n =>
    simp only [step] at h
    split at h <;> cases h
    exact .cancel n ‹_›
  | start =>
    simp only [step] at h
    split at h <;> cases h
    · exact .alreadyStarted _ ‹_›
    · exact .start ‹_›
  | take t =>
    simp only [step] at h
    split at h
    · next r rest ht hpop =>
      split at h <;> cases h
      · exact .skip t r rest ht hpop ‹_›
      · exact .begin t r rest ht hpop ‹_›
    · cases h
  | finish t ending =>
    simp only [step] at h
    split at h
    · next r c ht =>
      split at h <;> cases h
      · exact .finish t r c ending _ ht ‹_›
      · exact .escape t r c ending ht ‹_›
    · cases h
  | ended t =>
    simp only [step] at h
    split at h <;> cases h
    exact .ended t ‹_›
  | stop =>
    simp only [step] at h
    split at h
    · next hnone =>
      cases h
      exact .stopAtOnce fun t ht => by rw [hnone] at ht; cases ht
    · next t ht =>
      split at h <;> cases h
      · next hgone =>
        refine .stopAtOnce fun t' ht' => ?_
        rw [ht] at ht'
        cases ht'
        exact hgone
      · exact .stop t _ ht ‹_›
  | stopped i =>
    simp only [step] at h
    split at h
    · next t hi =>
      split at h <;> cases h
      exact .stopped i t hi (Option.isNone_iff_eq_none.1 ‹_›)
    · cases h

section Resolve

variable (s : Scheduler τ ε) (n : Nat) (r : Resolution τ ε)

theorem resolve_eq : ∃ l, s.resolve n r = { s with resolutions := l } := by
  unfold resolve
  split
  · exact ⟨s.resolutions, rfl⟩
  · exact ⟨_, rfl⟩

theorem done_resolve (m : Nat) : (s.resolve n r).Done m ↔ m = n ∨ s.Done m := by
  unfold resolve
  split
  · next hdone =>
    constructor
    · exact Or.inr
    · rintro (rfl | h)
      · exact hdone
      · exact h
  · simp [Done, or_comm, eq_comm]

theorem nodup_resolve {s : Scheduler τ ε} (h : (s.resolutions.map Prod.fst).Nodup) :
    ((s.resolve n r).resolutions.map Prod.fst).Nodup := by
  unfold resolve
  split
  · exact h
  · next hnew =>
    rw [List.map_append, List.nodup_append]
    refine ⟨h, List.nodup_singleton _, ?_⟩
    intro a ha b hb hab
    rw [hab, List.mem_singleton.1 hb] at ha
    exact hnew ha

end Resolve

theorem foldl_resolve_spec (l : List QueuedRequest) (s : Scheduler τ ε) :
    let s' := l.foldl (fun s q => s.resolve q.sequence .schedulerStopped) s
    (∃ res, s' = { s with resolutions := res }) ∧
      (∀ m, s'.Done m ↔ m ∈ l.map QueuedRequest.sequence ∨ s.Done m) ∧
      ((s.resolutions.map Prod.fst).Nodup → (s'.resolutions.map Prod.fst).Nodup) := by
  induction l generalizing s with
  | nil => exact ⟨⟨s.resolutions, rfl⟩, by simp, id⟩
  | cons q l ih =>
    obtain ⟨⟨res, heq⟩, hdone, hnodup⟩ := ih (s.resolve q.sequence .schedulerStopped)
    obtain ⟨res', heq'⟩ := s.resolve_eq q.sequence .schedulerStopped
    refine ⟨⟨res, ?_⟩, ?_, ?_⟩
    · rw [List.foldl_cons, heq, heq']
    · intro m
      rw [List.foldl_cons, hdone, done_resolve, List.map_cons, List.mem_cons]
      tauto
    · exact fun h => hnodup (nodup_resolve _ _ h)

/-- **What the end of a `stop()` does**: the queue is empty, and every future of it is
resolved. -/
theorem drained_spec (s : Scheduler τ ε) :
    ∃ res, s.drained =
        { s with consumerTask := none, queue := [], returned := s.counter, resolutions := res } ∧
      (∀ m, s.drained.Done m ↔ m ∈ s.queue.map QueuedRequest.sequence ∨ s.Done m) ∧
      ((s.resolutions.map Prod.fst).Nodup → (res.map Prod.fst).Nodup) := by
  obtain ⟨⟨res, heq⟩, hdone, hnodup⟩ := foldl_resolve_spec
    (s.queue.insertionSort fun q r => ¬ r.Precedes q)
    { s with consumerTask := none, queue := [], returned := s.counter }
  refine ⟨res, heq, fun m => ?_, fun h => ?_⟩
  · refine (hdone m).trans (or_congr_left ?_)
    exact ((List.perm_insertionSort _ s.queue).map _).mem_iff
  · have := hnodup h
    rwa [heq] at this

variable {r : QueuedRequest}

theorem mem_executing :
    r ∈ s.executing ↔ ∃ t c, s.consumers.get? t = some ⟨some r, c⟩ := by
  simp only [executing, List.mem_filterMap, Dict.mem_values]
  constructor
  · rintro ⟨⟨cur, c⟩, ⟨t, ht⟩, hcur⟩
    cases hcur
    exact ⟨t, c, ht⟩
  · rintro ⟨t, c, ht⟩
    exact ⟨_, ⟨t, ht⟩, rfl⟩

/-! ## Once only -/

/-- What holds in every run: a future is resolved at most once, a request started at most
once, and what is queued was submitted and not started. -/
structure Once (s : Scheduler τ ε) : Prop where
  resolved : (s.resolutions.map Prod.fst).Nodup
  made : ∀ n, s.Done n → n < s.counter
  queued : ∀ q ∈ s.queue, q.sequence < s.counter
  distinct : (s.queue.map QueuedRequest.sequence).Nodup
  submitted : ∀ r ∈ s.started, r.sequence < s.counter
  begun : (s.started.map QueuedRequest.sequence).Nodup
  waiting : ∀ q ∈ s.queue, q.sequence ∉ s.started.map QueuedRequest.sequence
  current : ∀ r ∈ s.executing, r ∈ s.started
  tasks : ∀ t c, s.consumers.get? t = some c → t < s.nextTask

theorem once_new : (new : Scheduler τ ε).Once where
  resolved := List.nodup_nil
  made := by simp [Done, new]
  queued := by simp [new]
  distinct := List.nodup_nil
  submitted := by simp [new]
  begun := List.nodup_nil
  waiting := by simp [new]
  current := by simp [new, executing, Dict.values, Dict.empty]
  tasks := by simp [new]

theorem Once.resolve (h : s.Once) {n : Nat} (hn : n < s.counter)
    (r : Resolution τ ε) : (s.resolve n r).Once := by
  have hnodup := nodup_resolve n r h.resolved
  have hdone := s.done_resolve n r
  obtain ⟨l, heq⟩ := s.resolve_eq n r
  rw [heq] at hnodup hdone ⊢
  refine { h with resolved := hnodup, made := fun m hm => ?_ }
  rcases (hdone m).1 hm with rfl | hm
  · exact hn
  · exact h.made m hm

theorem Once.drained (h : s.Once) : s.drained.Once := by
  obtain ⟨res, heq, hdone, hnodup⟩ := s.drained_spec
  rw [heq] at hdone ⊢
  refine { h with
    resolved := hnodup h.resolved, made := fun m hm => ?_, queued := by simp,
    distinct := List.nodup_nil, waiting := by simp }
  rcases (hdone m).1 hm with hm | hm
  · obtain ⟨q, hq, rfl⟩ := List.mem_map.1 hm
    exact h.queued q hq
  · exact h.made m hm

theorem Once.sublist (h : s.Once) {rest : List QueuedRequest}
    (hsub : rest.Sublist s.queue) : { s with queue := rest }.Once :=
  { h with
    queued := fun q hq => h.queued q (hsub.mem hq)
    distinct := (hsub.map _).nodup h.distinct
    waiting := fun q hq => h.waiting q (hsub.mem hq) }

variable {d : Dict Nat Consumer}

theorem Once.consumers (h : s.Once)
    (hd : ∀ t c, d.get? t = some c → ∃ c', s.consumers.get? t = some c' ∧
      (c.current = none ∨ c.current = c'.current)) : { s with consumers := d }.Once := by
  refine { h with current := fun r hr => ?_, tasks := fun t c ht => ?_ }
  · obtain ⟨t, c, ht⟩ := mem_executing.1 hr
    obtain ⟨⟨cur, c'⟩, ht', hcur | hcur⟩ := hd t _ ht
    · cases hcur
    · cases hcur
      exact h.current r (mem_executing.2 ⟨t, c', ht'⟩)
  · obtain ⟨c', ht', -⟩ := hd t c ht
    exact h.tasks t c' ht'

variable {t t' : Nat} {c : Consumer}

theorem exists_of_get?_erase (h : (d.erase t).get? t' = some c) :
    ∃ c', d.get? t' = some c' ∧ (c.current = none ∨ c.current = c'.current) :=
  ⟨c, (Dict.get?_erase_eq_some.1 h).2, Or.inr rfl⟩

variable {c₁ : Consumer}

theorem exists_of_get?_set {c₀ : Consumer} (ht : d.get? t = some c₀)
    (hc : c₁.current = none ∨ c₁.current = c₀.current) (h : (d.set t c₁).get? t' = some c) :
    ∃ c', d.get? t' = some c' ∧ (c.current = none ∨ c.current = c'.current) := by
  rcases Dict.get?_set_eq_some.1 h with ⟨rfl, rfl⟩ | ⟨-, h⟩
  · exact ⟨c₀, ht, hc⟩
  · exact ⟨c, h, Or.inr rfl⟩

theorem nodup_sequences_append {l : List QueuedRequest}
    (h : (l.map QueuedRequest.sequence).Nodup) (hr : r.sequence ∉ l.map QueuedRequest.sequence) :
    ((l ++ [r]).map QueuedRequest.sequence).Nodup := by
  rw [List.map_append, List.nodup_append]
  refine ⟨h, List.nodup_singleton _, fun a ha b hb hab => ?_⟩
  rw [hab, List.mem_singleton.1 hb] at ha
  exact hr ha

theorem Once.submit (h : s.Once) (priority : Int) :
    Once { s with
      queue := s.queue ++ [⟨priority, s.counter⟩]
      counter := s.counter + 1 } := by
  have hqueued : s.counter ∉ s.queue.map QueuedRequest.sequence := by
    intro hmem
    obtain ⟨q, hq, heq⟩ := List.mem_map.1 hmem
    exact (h.queued q hq).ne heq
  have hstarted : s.counter ∉ s.started.map QueuedRequest.sequence := by
    intro hmem
    obtain ⟨r, hr, heq⟩ := List.mem_map.1 hmem
    exact (h.submitted r hr).ne heq
  exact { h with
    made := fun n hn => Nat.lt_succ_of_lt (h.made n hn)
    queued := List.forall_mem_append.2
      ⟨fun q hq => Nat.lt_succ_of_lt (h.queued q hq),
        List.forall_mem_singleton.2 (Nat.lt_succ_self _)⟩
    distinct := nodup_sequences_append h.distinct hqueued
    submitted := fun r hr => Nat.lt_succ_of_lt (h.submitted r hr)
    waiting := List.forall_mem_append.2 ⟨h.waiting, List.forall_mem_singleton.2 hstarted⟩ }

theorem Once.start (h : s.Once) :
    Once { s with
      consumerTask := some s.nextTask
      consumers := s.consumers.set s.nextTask ⟨none, false⟩
      nextTask := s.nextTask + 1 } := by
  refine { h with current := fun r hr => ?_, tasks := fun t c hc => ?_ }
  · obtain ⟨t, c, hc⟩ := mem_executing.1 hr
    rcases Dict.get?_set_eq_some.1 hc with ⟨-, hnone⟩ | ⟨-, hc⟩
    · cases hnone
    · exact h.current r (mem_executing.2 ⟨t, c, hc⟩)
  · rcases Dict.get?_set_eq_some.1 hc with ⟨rfl, -⟩ | ⟨-, hc⟩
    · exact Nat.lt_succ_self _
    · exact Nat.lt_succ_of_lt (h.tasks t c hc)

theorem Once.begin (h : s.Once)
    (ht : s.consumers.get? t = some ⟨none, false⟩) (hmem : r ∈ s.queue) :
    Once { s with
      queue := s.queue.erase r
      consumers := s.consumers.set t ⟨some r, false⟩
      started := s.started ++ [r] } := by
  have hleft : r.sequence ∉ (s.queue.erase r).map QueuedRequest.sequence := by
    have hperm := (List.perm_cons_erase hmem).map QueuedRequest.sequence
    exact (List.nodup_cons.1 (hperm.nodup h.distinct)).1
  have hsub := h.sublist (List.erase_sublist (a := r) (l := s.queue))
  refine { hsub with
    submitted := List.forall_mem_append.2
      ⟨h.submitted, List.forall_mem_singleton.2 (h.queued r hmem)⟩
    begun := nodup_sequences_append h.begun (h.waiting r hmem)
    waiting := fun q hq hstarted => ?_
    current := fun q hq => ?_
    tasks := fun t' c hc => ?_ }
  · rw [List.map_append, List.mem_append] at hstarted
    rcases hstarted with hstarted | hstarted
    · exact hsub.waiting q hq hstarted
    · rw [List.map_singleton, List.mem_singleton] at hstarted
      exact hleft (hstarted ▸ List.mem_map_of_mem hq)
  · obtain ⟨t', c, hc⟩ := mem_executing.1 hq
    rcases Dict.get?_set_eq_some.1 hc with ⟨-, heq⟩ | ⟨-, hc⟩
    · cases heq
      exact List.mem_append_right _ (List.mem_singleton_self _)
    · exact List.mem_append_left _ (h.current q (mem_executing.2 ⟨t', c, hc⟩))
  · rcases Dict.get?_set_eq_some.1 hc with ⟨rfl, -⟩ | ⟨-, hc⟩
    · exact h.tasks t' _ ht
    · exact h.tasks t' c hc

theorem once_step (h : s.Once) (hstep : s.step e = some s') : s'.Once := by
  cases step_cases hstep with
  | submit priority => exact h.submit priority
  | cancel n hn => exact h.resolve hn _
  | alreadyStarted => exact h
  | start ht => exact h.start
  | skip t r rest ht hpop =>
    obtain ⟨-, rfl, -⟩ := popMin_spec hpop
    exact h.sublist List.erase_sublist
  | begin t r rest ht hpop hc =>
    obtain ⟨hmem, rfl, -⟩ := popMin_spec hpop
    exact h.begin ht hmem
  | finish t r c ending res ht hres =>
    have hr : r.sequence < s.counter := h.submitted r (h.current r (mem_executing.2 ⟨t, c, ht⟩))
    exact (h.consumers fun t' c' => exists_of_get?_set ht (Or.inl rfl)).resolve hr res
  | escape | ended => exact h.consumers fun t' c' => exists_of_get?_erase
  | stopAtOnce ht => exact h.drained
  | stop t c ht hc =>
    have hc' := h.consumers (d := s.consumers.set t { c with cancelling := true })
      fun t' c' => exists_of_get?_set hc (Or.inr rfl)
    exact { hc' with }
  | stopped i t hi ht =>
    have hs : { s with stopping := s.stopping.eraseIdx i }.Once := { h with }
    exact hs.drained

/-! ## No caller is stranded -/

def Settled (s : Scheduler τ ε) : Prop := ∀ r ∈ s.executing, s.Done r.sequence

instance (s : Scheduler τ ε) : Decidable s.Settled := inferInstanceAs (Decidable (∀ r ∈ _, _))

/-- No coroutine ends in `CancelledError` under a waiting caller, and a `stop()` returns
only when nothing executes under one. -/
def Considerate (s : Scheduler τ ε) : SchedulerEvent τ ε → Prop
  | .finish t ending =>
      ending.resolution.isNone = true →
        ∀ r ∈ (s.consumers.get? t).bind Consumer.current, s.Done r.sequence
  | .stop => (s.consumerTask.bind s.consumers.get?).isNone = true → s.Settled
  | .stopped _ => s.Settled
  | _ => True

instance (s : Scheduler τ ε) : (e : SchedulerEvent τ ε) → Decidable (s.Considerate e)
  | .finish _ _ => inferInstanceAs (Decidable (_ → _))
  | .stop => inferInstanceAs (Decidable (_ → _))
  | .stopped _ => inferInstanceAs (Decidable (Settled _))
  | .submit _ | .cancel _ | .start | .take _ | .ended _ => isTrue trivial

/-- Every future is resolved, or its request is queued or executes; and it is resolved if
it was made before a `stop()` returned. -/
structure Answered (s : Scheduler τ ε) : Prop where
  once : s.Once
  accounted : ∀ n < s.counter, s.Done n ∨ n ∈ s.queue.map QueuedRequest.sequence ∨
    n ∈ s.executing.map QueuedRequest.sequence
  returned : ∀ n < s.returned, s.Done n

theorem answered_new : (new : Scheduler τ ε).Answered where
  once := once_new
  accounted := by simp [new]
  returned := by simp [new]

theorem Answered.drained (h : s.Answered) (hset : s.Settled) :
    s.drained.Answered := by
  obtain ⟨res, heq, hdone, -⟩ := s.drained_spec
  have hall : ∀ n < s.counter, s.drained.Done n := by
    intro n hn
    rw [hdone]
    rcases h.accounted n hn with hd | hq | hx
    · exact Or.inr hd
    · exact Or.inl hq
    · obtain ⟨r, hr, rfl⟩ := List.mem_map.1 hx
      exact Or.inr (hset r hr)
  have hreturned : s.drained.returned = s.counter := by rw [heq]
  have hcounter : s.drained.counter = s.counter := by rw [heq]
  exact ⟨h.once.drained, fun n hn => Or.inl (hall n (hcounter ▸ hn)),
    fun n hn => hall n (hreturned ▸ hn)⟩

theorem accounted_of_executing (h : s.Answered)
    (hcounter : s'.counter = s.counter) (hdone : ∀ n, s.Done n → s'.Done n)
    (hqueue : ∀ q ∈ s.queue, s'.Done q.sequence ∨ q ∈ s'.queue ∨ q ∈ s'.executing)
    (hexec : ∀ r ∈ s.executing, s'.Done r.sequence ∨ r ∈ s'.executing) :
    ∀ n < s'.counter, s'.Done n ∨ n ∈ s'.queue.map QueuedRequest.sequence ∨
      n ∈ s'.executing.map QueuedRequest.sequence := by
  intro n hn
  rcases h.accounted n (hcounter ▸ hn) with hd | hq | hx
  · exact Or.inl (hdone n hd)
  · obtain ⟨q, hmem, rfl⟩ := List.mem_map.1 hq
    rcases hqueue q hmem with hd | hq | hx
    · exact Or.inl hd
    · exact Or.inr (Or.inl (List.mem_map_of_mem hq))
    · exact Or.inr (Or.inr (List.mem_map_of_mem hx))
  · obtain ⟨r, hr, rfl⟩ := List.mem_map.1 hx
    rcases hexec r hr with hd | hx
    · exact Or.inl hd
    · exact Or.inr (Or.inr (List.mem_map_of_mem hx))

variable {q : QueuedRequest}

theorem executing_set (hs' : s'.consumers = s.consumers.set t c) (hq : q ∈ s.executing) :
    q ∈ s'.executing ∨ ∃ b, s.consumers.get? t = some ⟨some q, b⟩ := by
  obtain ⟨t', b, hb⟩ := mem_executing.1 hq
  by_cases ht : t' = t
  · exact Or.inr ⟨b, ht ▸ hb⟩
  · refine Or.inl (mem_executing.2 ⟨t', b, ?_⟩)
    rw [hs', Dict.get?_set_of_ne _ _ ht]
    exact hb

theorem executing_erase (hs' : s'.consumers = s.consumers.erase t) (hq : q ∈ s.executing) :
    q ∈ s'.executing ∨ ∃ b, s.consumers.get? t = some ⟨some q, b⟩ := by
  obtain ⟨t', b, hb⟩ := mem_executing.1 hq
  by_cases ht : t' = t
  · exact Or.inr ⟨b, ht ▸ hb⟩
  · refine Or.inl (mem_executing.2 ⟨t', b, ?_⟩)
    rw [hs']
    exact Dict.get?_erase_eq_some.2 ⟨ht, hb⟩

theorem answered_step (h : s.Answered)
    (hG : s.Considerate e) (hstep : s.step e = some s') : s'.Answered := by
  have honce := once_step h.once hstep
  cases step_cases hstep with
  | submit priority =>
    refine ⟨honce, fun n hn => ?_, h.returned⟩
    rcases Nat.lt_succ_iff_lt_or_eq.1 hn with hn | rfl
    · rcases h.accounted n hn with hd | hq | hx
      · exact Or.inl hd
      · refine Or.inr (Or.inl ?_)
        rw [List.map_append]
        exact List.mem_append_left _ hq
      · exact Or.inr (Or.inr hx)
    · exact Or.inr (Or.inl (by simp))
  | cancel n hn =>
    have hdone := s.done_resolve n .cancelled
    obtain ⟨l, heq⟩ := s.resolve_eq n .cancelled
    rw [heq] at honce hdone ⊢
    refine ⟨honce, accounted_of_executing h rfl (fun m hm => (hdone m).2 (Or.inr hm))
      (fun q hq => Or.inr (Or.inl hq)) (fun r hr => Or.inr hr), fun m hm => ?_⟩
    exact (hdone m).2 (Or.inr (h.returned m hm))
  | alreadyStarted => exact h
  | start ht =>
    refine ⟨honce, accounted_of_executing h rfl (fun _ h => h)
      (fun q hq => Or.inr (Or.inl hq)) (fun r hr => Or.inr ?_), h.returned⟩
    refine (executing_set rfl hr).resolve_right ?_
    rintro ⟨c, hc⟩
    exact lt_irrefl _ (h.once.tasks _ _ hc)
  | skip t r rest ht hpop hc =>
    obtain ⟨-, rfl, -⟩ := popMin_spec hpop
    refine ⟨honce, accounted_of_executing h rfl (fun _ h => h) (fun q hq => ?_)
      (fun r hr => Or.inr hr), h.returned⟩
    by_cases hq' : q = r
    · -- the future of a request that is skipped is done
      obtain ⟨p, hp, hpn, -⟩ := hc
      rw [hq', ← hpn]
      exact Or.inl (List.mem_map_of_mem hp)
    · exact Or.inr (Or.inl ((List.mem_erase_of_ne hq').2 hq))
  | begin t r rest ht hpop hc =>
    obtain ⟨-, rfl, -⟩ := popMin_spec hpop
    refine ⟨honce, accounted_of_executing h rfl (fun _ h => h) (fun q hq => Or.inr ?_)
      (fun q hq => Or.inr ?_), h.returned⟩
    · by_cases hq' : q = r
      · exact Or.inr (mem_executing.2 ⟨t, false, by rw [hq', Dict.get?_set_self]⟩)
      · exact Or.inl ((List.mem_erase_of_ne hq').2 hq)
    · refine (executing_set rfl hq).resolve_right ?_
      simp [ht]
  | finish t r c ending res ht hres =>
    set s₁ : Scheduler τ ε := { s with consumers := s.consumers.set t ⟨none, false⟩ } with hs₁
    have hdone := s₁.done_resolve r.sequence res
    obtain ⟨l, heq⟩ := s₁.resolve_eq r.sequence res
    rw [heq] at honce hdone ⊢
    refine ⟨honce, accounted_of_executing h rfl (fun m hm => (hdone m).2 (Or.inr hm))
      (fun q hq => Or.inr (Or.inl hq)) (fun q hq => ?_), fun m hm => ?_⟩
    · refine (executing_set (by rfl) hq).elim Or.inr ?_
      rintro ⟨b, hb⟩
      rw [ht] at hb
      cases hb
      exact Or.inl ((hdone _).2 (Or.inl rfl))
    · exact (hdone m).2 (Or.inr (h.returned m hm))
  | escape t r c ending ht hres =>
    have hr : s.Done r.sequence := hG (by rw [hres]; rfl) r (by rw [ht]; rfl)
    refine ⟨honce, accounted_of_executing h rfl (fun _ h => h)
      (fun q hq => Or.inr (Or.inl hq)) (fun q hq => ?_), h.returned⟩
    refine (executing_erase (by rfl) hq).elim Or.inr ?_
    rintro ⟨b, hb⟩
    rw [ht] at hb
    cases hb
    exact Or.inl hr
  | ended t ht =>
    refine ⟨honce, accounted_of_executing h rfl (fun _ h => h)
      (fun q hq => Or.inr (Or.inl hq)) (fun q hq => Or.inr ?_), h.returned⟩
    refine (executing_erase rfl hq).resolve_right ?_
    simp [ht]
  | stopAtOnce ht =>
    refine h.drained (hG ?_)
    cases hc : s.consumerTask with
    | none => rfl
    | some t => simp [ht t hc]
  | stop t c ht hc =>
    refine ⟨honce, accounted_of_executing h rfl (fun _ h => h)
      (fun q hq => Or.inr (Or.inl hq)) (fun q hq => Or.inr ?_), h.returned⟩
    refine (executing_set (by rfl) hq).elim id ?_
    -- a cancelled consumer goes on with its request until the coroutine ends
    rintro ⟨b, hb⟩
    rw [hc] at hb
    cases hb
    exact mem_executing.2 ⟨t, true, Dict.get?_set_self ..⟩
  | stopped i t hi ht =>
    have hs : { s with stopping := s.stopping.eraseIdx i }.Answered :=
      ⟨{ h.once with }, h.accounted, h.returned⟩
    exact hs.drained hG

/-! ## One at a time -/

def Alone (s : Scheduler τ ε) : Prop :=
  ∀ t c t' c', s.consumers.get? t = some c → s.consumers.get? t' = some c' → t = t'

/-- A `start()` that makes a consumer finds none alive. -/
def StartsAlone (s : Scheduler τ ε) : SchedulerEvent τ ε → Prop
  | .start => s.consumerTask = none → s.consumers.entries = []
  | _ => True

instance decidableStartsAlone (s : Scheduler τ ε) :
    (e : SchedulerEvent τ ε) → Decidable (s.StartsAlone e)
  | .start => inferInstanceAs (Decidable (_ → _))
  | .submit _ | .cancel _ | .take _ | .finish _ _ | .ended _ | .stop | .stopped _ => isTrue trivial

theorem Alone.set (h : s.Alone)
    (ht : s.consumers.get? t = some c) (hs' : s'.consumers = s.consumers.set t c₁) :
    s'.Alone := by
  have hlive : ∀ u d, s'.consumers.get? u = some d → ∃ d', s.consumers.get? u = some d' := by
    intro u d hd
    rw [hs'] at hd
    rcases Dict.get?_set_eq_some.1 hd with ⟨rfl, -⟩ | ⟨-, hd⟩
    · exact ⟨c, ht⟩
    · exact ⟨d, hd⟩
  intro u d u' d' hd hd'
  obtain ⟨e, he⟩ := hlive u d hd
  obtain ⟨e', he'⟩ := hlive u' d' hd'
  exact h u e u' e' he he'

theorem Alone.erase (h : s.Alone) (t : Nat) :
    { s with consumers := s.consumers.erase t }.Alone := by
  intro u d u' d' hd hd'
  obtain ⟨e, he, -⟩ := exists_of_get?_erase hd
  obtain ⟨e', he', -⟩ := exists_of_get?_erase hd'
  exact h u e u' e' he he'

theorem alone_step (h : s.Alone)
    (hG : s.StartsAlone e) (hstep : s.step e = some s') : s'.Alone := by
  cases step_cases hstep with
  | submit | alreadyStarted | skip => exact h
  | cancel n hn =>
    obtain ⟨l, heq⟩ := s.resolve_eq n .cancelled
    rw [heq]
    exact h
  | start ht =>
    have hnone : ∀ t, s.consumers.get? t = none := fun t => by
      rw [Dict.get?_eq_none_iff, Dict.keys, hG ht]
      simp
    intro t c t' c' hc hc'
    simp only [Dict.get?_set, hnone] at hc hc'
    split at hc <;> split at hc' <;> simp_all
  | begin t r rest ht hpop hc => exact h.set ht rfl
  | finish t r c ending res ht hres =>
    obtain ⟨l, heq⟩ := Scheduler.resolve_eq
      { s with consumers := s.consumers.set t ⟨none, false⟩ } r.sequence res
    rw [heq]
    exact h.set ht rfl
  | escape t r c ending ht hres => exact h.erase t
  | ended t ht => exact h.erase t
  | stopAtOnce =>
    obtain ⟨res, heq, -⟩ := s.drained_spec
    rw [heq]
    exact h
  | stop t c ht hc => exact h.set hc rfl
  | stopped i t hi ht =>
    obtain ⟨res, heq, -⟩ := drained_spec { s with stopping := s.stopping.eraseIdx i }
    rw [heq]
    exact h

theorem Alone.length_executing (h : s.Alone) : s.executing.length ≤ 1 :=
  calc s.executing.length ≤ s.consumers.values.length := List.length_filterMap_le ..
    _ = s.consumers.entries.length := List.length_map ..
    _ ≤ 1 := Dict.length_entries_le_one h

theorem begin_least (h : s.step (.take t) = some s') (hr : s'.started = s.started ++ [r]) :
    r ∈ s.queue ∧ ¬ s.Cancelled r.sequence ∧ ∀ q ∈ s.queue, q ≠ r → r.Precedes q := by
  cases step_cases h with
  | skip _ r' rest ht hpop hc => simp at hr
  | begin _ r' rest ht hpop hc =>
    obtain rfl : r' = r := by simpa using hr
    obtain ⟨hmem, -, hle⟩ := popMin_spec hpop
    refine ⟨hmem, hc, fun q hq hne => ?_⟩
    by_contra hnot
    refine hne ?_
    have hle' := hle q hq
    obtain ⟨p, n⟩ := q
    obtain ⟨p', n'⟩ := r'
    simp only [QueuedRequest.Precedes, QueuedRequest.mk.injEq] at *
    omega

end Scheduler

open Scheduler

def schedulerMachine (τ ε : Type) : Machine (Scheduler τ ε) (SchedulerEvent τ ε) := ⟨Scheduler.step⟩

/-- **No caller is stranded.**  In every run in which no coroutine ends in `CancelledError`
under a waiting caller and no `stop()` returns while a request executes under one: once a
`stop()` has returned, every future made before is resolved, and none is resolved twice. -/
theorem resolved_run {τ ε : Type} {es : List (SchedulerEvent τ ε)} {s : Scheduler τ ε}
    (hrun : (schedulerMachine τ ε).run Scheduler.new es = some s)
    (hG : (schedulerMachine τ ε).Meets Scheduler.Considerate Scheduler.new es) :
    (∀ n < s.returned, (s.resolutions.map Prod.fst).count n = 1) ∧
      ∀ n, (s.resolutions.map Prod.fst).count n ≤ 1 := by
  have h : s.Answered := (schedulerMachine τ ε).inv_run_of_meets (I := Scheduler.Answered)
    (fun _ _ _ hs hG hstep => answered_step hs hG hstep) answered_new hG hrun
  refine ⟨fun n hn => ?_, fun n => ?_⟩
  · exact List.count_eq_one_of_mem h.once.resolved (h.returned n hn)
  · exact List.nodup_iff_count_le_one.1 h.once.resolved n

/-- A write overtakes a read that is queued, a third caller gives up, and `stop()` comes
when the consumer is idle, with a late submission. -/
def stopWhenIdle : List (SchedulerEvent Nat Nat) :=
  [.submit PRIORITY_READ, .submit PRIORITY_WRITE, .submit PRIORITY_READ, .start, .take 0,
    .finish 0 (.returned 7), .cancel 2, .take 0, .finish 0 (.raised 5), .stop,
    .submit PRIORITY_READ, .ended 0, .stopped 0]

theorem resolved_stopWhenIdle : ∃ s : Scheduler Nat Nat,
    (schedulerMachine Nat Nat).run Scheduler.new stopWhenIdle = some s ∧ s.returned = 4 ∧
    (∀ n < s.returned, (s.resolutions.map Prod.fst).count n = 1) ∧
      ∀ n, (s.resolutions.map Prod.fst).count n ≤ 1 := by
  obtain ⟨s, hs, hr⟩ := Option.map_eq_some_iff.1
    (show ((schedulerMachine Nat Nat).run Scheduler.new stopWhenIdle).map Scheduler.returned =
      some 4 by decide +kernel)
  exact ⟨s, hs, hr, resolved_run hs (by decide +kernel)⟩

/-- **`stop()` strands the request that executes**: the cancelled consumer ends, `stop()`
returns, and the future of the request is unresolved. -/
theorem stop_strands_the_executing_request : ∃ s : Scheduler Nat Nat,
    (schedulerMachine Nat Nat).run Scheduler.new
      [.submit PRIORITY_READ, .start, .take 0, .stop, .finish 0 .cancelledError, .stopped 0] =
        some s ∧
    0 < s.returned ∧ (s.resolutions.map Prod.fst).count 0 = 0 := by
  obtain ⟨s, hs, hr⟩ := Option.map_eq_some_iff.1
    (show ((schedulerMachine Nat Nat).run Scheduler.new
      [.submit PRIORITY_READ, .start, .take 0, .stop, .finish 0 .cancelledError,
        .stopped 0]).map (fun s => (s.returned, s.resolutions)) = some (1, []) by decide +kernel)
  simp only [Prod.mk.injEq] at hr
  exact ⟨s, hs, by simp [hr.1], by simp [hr.2]⟩

end XEdge.Modbus
