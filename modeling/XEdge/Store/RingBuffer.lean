import XEdge.Lib.Dict

/-!
# The RAM ring buffer, hot tier (`xedge/store/ring_buffer.py`)

One bounded FIFO per stream key.  A full ordinary buffer evicts its oldest
sample and hands it to the `on_evict` callback; a full alarm buffer refuses the
new sample instead, so that its caller retries.  The callback belongs to another
component, so the model threads that component's state `σ` through a push, and
lets the callback fail with an error of type `ε`.

Samples have an arbitrary type `α`: no operation here looks into one.
-/

namespace XEdge.Store

open Lib

def DEFAULT_MAX_DEPTH : Nat := 10000

/-- What a push can end in; every case but the first is a Python exception. -/
inductive PushOutcome (ε : Type*) where
  | pushed
  /-- `RingBufferBackpressureError`: a full alarm buffer. -/
  | backpressure (message : String)
  /-- `IndexError`: `popleft` on the empty deque of a buffer of depth zero. -/
  | emptyPop
  /-- The `on_evict` callback raised. -/
  | evictFailed (error : ε)
  deriving DecidableEq, Repr

/-- `RingBuffer`: a bounded FIFO of samples, oldest first. -/
structure RingBuffer (α : Type*) where
  maxDepth : Nat
  isAlarmStream : Bool
  buffer : List α
  evictedCount : Nat
  bounded : buffer.length ≤ maxDepth
  deriving DecidableEq

namespace RingBuffer

variable {α σ ε : Type*}

/-- `RingBuffer(max_depth, is_alarm_stream)`: an empty buffer. -/
def new (maxDepth : Nat) (isAlarmStream : Bool) : RingBuffer α :=
  ⟨maxDepth, isAlarmStream, [], 0, Nat.zero_le _⟩

/-- The text of the `RingBufferBackpressureError`. -/
def backpressureMessage (maxDepth : Nat) : String :=
  "Alarm ring buffer full at " ++ toString maxDepth ++ " samples; caller must retry, not drop"

/-- `RingBuffer.push`.  The sample popped from a full buffer is gone from it
whether or not the callback takes it; the new one is appended only afterwards. -/
def push (onEvict : Option (α → σ → Except ε σ)) (rb : RingBuffer α) (tag : α) (s : σ) :
    PushOutcome ε × RingBuffer α × σ :=
  if hfull : rb.maxDepth ≤ rb.buffer.length then
    if rb.isAlarmStream then (.backpressure (backpressureMessage rb.maxDepth), rb, s)
    else
      match hb : rb.buffer with
      | [] => (.emptyPop, rb, s)
      | evicted :: rest =>
          have hlen : rest.length + 1 ≤ rb.maxDepth := by
            have := rb.bounded
            rwa [hb, List.length_cons] at this
          let appended : RingBuffer α :=
            ⟨rb.maxDepth, rb.isAlarmStream, rest ++ [tag], rb.evictedCount + 1, by simpa using hlen⟩
          match onEvict with
          | none => (.pushed, appended, s)
          | some f =>
              match f evicted s with
              | .error e =>
                  (.evictFailed e,
                    ⟨rb.maxDepth, rb.isAlarmStream, rest, rb.evictedCount + 1, by omega⟩, s)
              | .ok s' => (.pushed, appended, s')
  else
    (.pushed,
      ⟨rb.maxDepth, rb.isAlarmStream, rb.buffer ++ [tag], rb.evictedCount, by
        rw [List.length_append, List.length_singleton]
        omega⟩, s)

/-- `RingBuffer.drain`: up to `maxItems` samples (all, if `none`), oldest first. -/
def drain (rb : RingBuffer α) (maxItems : Option Nat) : List α × RingBuffer α :=
  let count := match maxItems with
    | none => rb.buffer.length
    | some n => min n rb.buffer.length
  (rb.buffer.take count,
    ⟨rb.maxDepth, rb.isAlarmStream, rb.buffer.drop count, rb.evictedCount, by
      rw [List.length_drop]
      exact le_trans (Nat.sub_le _ _) rb.bounded⟩)

inductive Pushed (onEvict : α → σ → σ) (tag : α) (old new : List α) (s s' : σ) : Prop
  | append (hnew : new = old ++ [tag]) (hs : s' = s)
  | evict (x : α) (rest : List α) (hold : old = x :: rest) (hnew : new = rest ++ [tag])
      (hs : s' = onEvict x s)

/-- A push either succeeds in one of the two ways of `Pushed`, or fails and
changes nothing. -/
theorem push_spec (f : α → σ → σ) (rb : RingBuffer α) (tag : α) (s : σ) :
    let r := rb.push (ε := ε) (some fun x t => .ok (f x t)) tag s
    (r.1 = .pushed ∧ Pushed f tag rb.buffer r.2.1.buffer s r.2.2) ∨
      (r.1 ≠ .pushed ∧ r.2 = (rb, s)) := by
  intro r
  by_cases hfull : rb.maxDepth ≤ rb.buffer.length
  · by_cases halarm : rb.isAlarmStream = true
    · right
      simp [r, push, hfull, halarm]
    · obtain ⟨d, a, l, n, hb⟩ := rb
      simp only at hfull halarm
      cases l with
      | nil =>
        right
        simp only [List.length_nil, Nat.le_zero] at hfull
        simp [r, push, halarm, hfull]
      | cons x rest =>
        left
        simp only [r, push, hfull, halarm, dite_true, if_false, Bool.false_eq_true]
        exact ⟨trivial, .evict x rest rfl rfl rfl⟩
  · left
    simp only [r, push, hfull, dite_false]
    exact ⟨trivial, .append rfl rfl⟩

theorem push_succeeds (f : α → σ → σ) (rb : RingBuffer α) (tag : α) (s : σ)
    (hpos : 0 < rb.maxDepth) (hroom : rb.isAlarmStream = true → rb.buffer.length < rb.maxDepth) :
    let r := rb.push (ε := ε) (some fun x t => .ok (f x t)) tag s
    r.1 = .pushed ∧ r.2.1.maxDepth = rb.maxDepth ∧ r.2.1.isAlarmStream = rb.isAlarmStream ∧
      r.2.1.buffer.length ≤ rb.buffer.length + 1 := by
  intro r
  obtain ⟨d, a, l, n, hb⟩ := rb
  simp only at hpos hroom
  by_cases hfull : d ≤ l.length
  · have halarm : a = false := by
      cases a with
      | false => rfl
      | true => exact absurd (hroom rfl) (not_lt.2 hfull)
    subst halarm
    cases l with
    | nil =>
      simp only [List.length_nil, Nat.le_zero] at hfull
      omega
    | cons x rest =>
      rw [List.length_cons] at hfull
      simp [r, push, hfull]
  · simp [r, push, hfull]
variable (onEvict : Option (α → σ → Except ε σ))


theorem maxDepth_push (rb : RingBuffer α) (tag : α)
    (s : σ) : (rb.push onEvict tag s).2.1.maxDepth = rb.maxDepth ∧
      (rb.push onEvict tag s).2.1.isAlarmStream = rb.isAlarmStream := by
  unfold push
  split
  · split
    · exact ⟨rfl, rfl⟩
    · split
      · exact ⟨rfl, rfl⟩
      · split
        · exact ⟨rfl, rfl⟩
        · split <;> exact ⟨rfl, rfl⟩
  · exact ⟨rfl, rfl⟩

theorem push_of_room (rb : RingBuffer α) (tag : α) (s : σ)
    (hroom : rb.buffer.length < rb.maxDepth) :
    let r := rb.push onEvict tag s
    r.1 = .pushed ∧ r.2.1.buffer = rb.buffer ++ [tag] ∧ r.2.2 = s := by
  rw [push, dif_neg (Nat.not_le.2 hroom)]
  exact ⟨rfl, rfl, rfl⟩

theorem push_of_full (f : α → σ → Except ε σ) (rb : RingBuffer α) (tag : α) (s : σ)
    (hfull : rb.maxDepth ≤ rb.buffer.length) (halarm : rb.isAlarmStream = false) {evicted : α}
    {rest : List α} (hbuffer : rb.buffer = evicted :: rest) :
    let r := rb.push (some f) tag s
    (∀ s', f evicted s = .ok s' → r.1 = .pushed ∧ r.2.1.buffer = rest ++ [tag] ∧ r.2.2 = s') ∧
    (∀ e, f evicted s = .error e → r.1 = .evictFailed e ∧ r.2.1.buffer = rest ∧ r.2.2 = s) := by
  obtain ⟨d, a, l, n, hbounded⟩ := rb
  simp only at hfull halarm hbuffer
  subst halarm hbuffer
  rw [List.length_cons] at hfull
  refine ⟨fun s' hf => ?_, fun e hf => ?_⟩
  · simp [push, hfull, hf]
  · simp [push, hfull, hf]

theorem push_of_nil (rb : RingBuffer α) (tag : α) (s : σ)
    (hfull : rb.maxDepth ≤ rb.buffer.length) (halarm : rb.isAlarmStream = false)
    (hbuffer : rb.buffer = []) : rb.push onEvict tag s = (.emptyPop, rb, s) := by
  obtain ⟨d, a, l, n, hbounded⟩ := rb
  simp only at hfull halarm hbuffer
  subst halarm hbuffer
  rw [List.length_nil, Nat.le_zero] at hfull
  simp [push, hfull]

theorem push_ne_emptyPop (rb : RingBuffer α) (tag : α)
    (s : σ) (hpos : 0 < rb.maxDepth) : (rb.push onEvict tag s).1 ≠ .emptyPop := by
  unfold push
  split
  · next hfull =>
    split
    · simp
    · split
      · next hbuffer =>
        rw [hbuffer, List.length_nil] at hfull
        omega
      · split
        · simp
        · split <;> simp
  · simp

theorem push_backpressure (rb : RingBuffer α) (tag : α)
    (s : σ) (halarm : rb.isAlarmStream = true) (hfull : rb.maxDepth ≤ rb.buffer.length) :
    rb.push onEvict tag s = (.backpressure (backpressureMessage rb.maxDepth), rb, s) := by
  rw [push, dif_pos hfull, if_pos halarm]

end RingBuffer

/-- `RingBufferManager`: one buffer per stream key, created on first push. -/
structure RingBufferManager (α : Type*) where
  /-- `_max_depth`, the depth of every buffer it creates. -/
  maxDepth : Nat
  buffers : Dict String (RingBuffer α)
  deriving DecidableEq

namespace RingBufferManager

variable {α σ ε : Type*}

/-- `RingBufferManager(max_depth)`: no stream yet. -/
def new (maxDepth : Nat) : RingBufferManager α := ⟨maxDepth, Dict.empty⟩

/-- The buffer a push to `streamKey` goes to.  The alarm flag only matters when
the buffer is created. -/
def bufferFor (m : RingBufferManager α) (streamKey : String) (isAlarmStream : Bool) :
    RingBuffer α :=
  (m.buffers.get? streamKey).getD (RingBuffer.new m.maxDepth isAlarmStream)

def push (onEvict : Option (String → α → σ → Except ε σ)) (m : RingBufferManager α)
    (streamKey : String) (tag : α) (isAlarmStream : Bool) (s : σ) :
    PushOutcome ε × RingBufferManager α × σ :=
  let r := (m.bufferFor streamKey isAlarmStream).push (onEvict.map fun f => f streamKey) tag s
  (r.1, ⟨m.maxDepth, m.buffers.set streamKey r.2.1⟩, r.2.2)

/-- `RingBufferManager.drain_all`: every stream, streams in insertion order. -/
def drainAll (m : RingBufferManager α) (maxItemsPerStream : Option Nat) :
    List α × RingBufferManager α :=
  ((m.buffers.values.map fun b => (b.drain maxItemsPerStream).1).flatten,
    ⟨m.maxDepth, m.buffers.mapValues fun b => (b.drain maxItemsPerStream).2⟩)

def streamKeys (m : RingBufferManager α) : List String := m.buffers.keys

/-- The samples a stream holds in RAM; a stream nobody pushed to holds none. -/
def contents (m : RingBufferManager α) (streamKey : String) : List α :=
  ((m.buffers.get? streamKey).map RingBuffer.buffer).getD []

@[simp] theorem contents_new (d : Nat) (k : String) :
    (new d : RingBufferManager α).contents k = [] :=
  rfl
variable (m : RingBufferManager α)


theorem contents_of_notMem {k : String} (h : k ∉ m.streamKeys) :
    m.contents k = [] := by
  rw [contents, m.buffers.get?_eq_none_iff.2 h]
  rfl

theorem buffer_bufferFor (k : String) (a : Bool) :
    (m.bufferFor k a).buffer = m.contents k := by
  unfold bufferFor contents
  cases m.buffers.get? k <;> rfl

/-- **What a push does to the streams.**  With a callback that cannot fail, a
push either succeeds on its own stream in one of the two ways of
`RingBuffer.Pushed` and leaves the others alone, or fails and leaves every
stream, and the callback's state, as they were. -/
theorem push_spec (f : String → α → σ → σ) (m : RingBufferManager α) (k : String) (tag : α)
    (a : Bool) (s : σ) :
    let r := m.push (ε := ε) (some fun k x t => .ok (f k x t)) k tag a s
    (r.1 = .pushed ∧ RingBuffer.Pushed (f k) tag (m.contents k) (r.2.1.contents k) s r.2.2 ∧
        ∀ j, j ≠ k → r.2.1.contents j = m.contents j) ∨
      (r.1 ≠ .pushed ∧ (∀ j, r.2.1.contents j = m.contents j) ∧ r.2.2 = s) := by
  intro r
  have hother : ∀ j, j ≠ k → r.2.1.contents j = m.contents j := by
    intro j hj
    simp only [r, push, contents, Dict.get?_set_of_ne _ _ hj]
  have hself : r.2.1.contents k =
      ((m.bufferFor k a).push (ε := ε) (some fun x t => .ok (f k x t)) tag s).2.1.buffer := by
    simp [r, push, contents]
  rcases RingBuffer.push_spec (ε := ε) (f k) (m.bufferFor k a) tag s with ⟨hok, hp⟩ | ⟨hbad, hsame⟩
  · left
    refine ⟨hok, ?_, hother⟩
    rw [hself, ← buffer_bufferFor m k a]
    exact hp
  · right
    refine ⟨hbad, fun j => ?_, congrArg Prod.snd hsame⟩
    by_cases hj : j = k
    · rw [hj, hself, hsame, buffer_bufferFor]
    · exact hother j hj

theorem push_succeeds (f : String → α → σ → σ) (m : RingBufferManager α) (k : String) (tag : α)
    (a : Bool) (s : σ) (hpos : 0 < (m.bufferFor k a).maxDepth)
    (hroom : (m.bufferFor k a).isAlarmStream = true →
      (m.contents k).length < (m.bufferFor k a).maxDepth) :
    ∃ b s', m.push (ε := ε) (some fun k x t => .ok (f k x t)) k tag a s =
        (.pushed, ⟨m.maxDepth, m.buffers.set k b⟩, s') ∧
      b.maxDepth = (m.bufferFor k a).maxDepth ∧
      b.isAlarmStream = (m.bufferFor k a).isAlarmStream ∧
      b.buffer.length ≤ (m.contents k).length + 1 := by
  rw [← buffer_bufferFor m k a] at hroom ⊢
  obtain ⟨hok, hdepth, halarm, hlen⟩ :=
    RingBuffer.push_succeeds (ε := ε) (f k) (m.bufferFor k a) tag s hpos hroom
  refine ⟨_, ((m.bufferFor k a).push (ε := ε) (some fun x t => .ok (f k x t)) tag s).2.2, ?_,
    hdepth, halarm, hlen⟩
  exact Prod.ext hok rfl

structure Deep (m : RingBufferManager α) : Prop where
  created : 0 < m.maxDepth
  buffers : ∀ k b, m.buffers.get? k = some b → 0 < b.maxDepth

theorem deep_new {d : Nat} (hd : 0 < d) : (new d : RingBufferManager α).Deep :=
  ⟨hd, fun _ _ hb => by cases hb⟩

variable {m : RingBufferManager α}

theorem Deep.bufferFor (h : m.Deep) (k : String) (a : Bool) :
    0 < (m.bufferFor k a).maxDepth := by
  unfold RingBufferManager.bufferFor
  cases hb : m.buffers.get? k with
  | some b => exact h.buffers k b hb
  | none => exact h.created

theorem Deep.push (h : m.Deep)
    (onEvict : Option (String → α → σ → Except ε σ)) (k : String) (tag : α) (a : Bool) (s : σ) :
    (m.push onEvict k tag a s).2.1.Deep := by
  refine ⟨h.created, fun j b hb => ?_⟩
  simp only [RingBufferManager.push, Dict.get?_set] at hb
  split at hb
  · cases hb
    rw [(RingBuffer.maxDepth_push _ _ tag s).1]
    exact h.bufferFor k a
  · exact h.buffers j b hb

theorem Deep.drainAll (h : m.Deep) (n : Option Nat) :
    (m.drainAll n).2.Deep := by
  refine ⟨h.created, fun k b hb => ?_⟩
  simp only [RingBufferManager.drainAll, Dict.get?_mapValues] at hb
  obtain ⟨b₀, hb₀, rfl⟩ := Option.map_eq_some_iff.1 hb
  exact h.buffers k b₀ hb₀

theorem contents_drainAll_suffix (n : Option Nat) (k : String) :
    (m.drainAll n).2.contents k <:+ m.contents k := by
  simp only [drainAll, contents, Dict.get?_mapValues]
  cases m.buffers.get? k with
  | none => exact List.suffix_rfl
  | some b => exact List.drop_suffix _ b.buffer

@[simp] theorem contents_drainAll (k : String) :
    (m.drainAll none).2.contents k = [] := by
  simp only [drainAll, contents, Dict.get?_mapValues]
  cases m.buffers.get? k <;> simp [RingBuffer.drain]

theorem mem_drainAll {x : α} :
    x ∈ (m.drainAll none).1 ↔ ∃ k, x ∈ m.contents k := by
  simp only [drainAll, List.mem_flatten, List.mem_map, contents]
  constructor
  · rintro ⟨l, ⟨b, hb, rfl⟩, hx⟩
    obtain ⟨k, hk⟩ := (Dict.mem_values _).1 hb
    exact ⟨k, by simpa [hk, RingBuffer.drain] using hx⟩
  · rintro ⟨k, hx⟩
    cases hk : m.buffers.get? k with
    | none => simp [hk] at hx
    | some b =>
      refine ⟨_, ⟨b, (Dict.mem_values _).2 ⟨k, hk⟩, rfl⟩, ?_⟩
      simpa [hk, RingBuffer.drain] using hx

/-- Where every sample carries the key of its stream, the share of a stream in a
full drain is what the stream held, in its order. -/
theorem filter_drainAll (label : α → String)
    (hlabel : ∀ k, ∀ x ∈ m.contents k, label x = k) (k : String) :
    (m.drainAll none).1.filter (fun x => label x = k) = m.contents k := by
  obtain ⟨d, ⟨l, hnd⟩⟩ := m
  have hmem : ∀ p ∈ l, ∀ x ∈ p.2.buffer, label x = p.1 := by
    intro p hp x hx
    refine hlabel p.1 x ?_
    have hget : (Dict.mk l hnd).get? p.1 = some p.2 := (Dict.get?_eq_some_iff _).2 hp
    simpa [contents, hget] using hx
  have hdrain : (RingBufferManager.drainAll ⟨d, ⟨l, hnd⟩⟩ none).1 =
      (l.map fun p => p.2.buffer).flatten := by
    simp [drainAll, Dict.values, RingBuffer.drain, Function.comp_def]
  have hcontents : contents ⟨d, ⟨l, hnd⟩⟩ k = ((lookup k l).map RingBuffer.buffer).getD [] := rfl
  rw [hdrain, hcontents]
  clear hlabel hdrain hcontents
  -- one stream at a time: all of a buffer is kept, or none of it
  induction l with
  | nil => rfl
  | cons p l ih =>
    rw [List.map_cons, List.nodup_cons] at hnd
    have hp := hmem p (List.mem_cons_self ..)
    have hrest := ih hnd.2 fun q hq => hmem q (List.mem_cons_of_mem _ hq)
    rw [List.map_cons, List.flatten_cons, List.filter_append, hrest, lookup]
    by_cases hk : p.1 = k
    · have hnone : lookup k l = none := lookup_eq_none_iff.2 (hk ▸ hnd.1)
      have hall : p.2.buffer.filter (fun x => label x = k) = p.2.buffer :=
        List.filter_eq_self.2 fun x hx => by simp [hp x hx, hk]
      simp [hk, hnone, hall]
    · have hnil : p.2.buffer.filter (fun x => label x = k) = [] :=
        List.filter_eq_nil_iff.2 fun x hx => by simp [hp x hx, hk]
      simp [hk, hnil]

end RingBufferManager

end XEdge.Store
