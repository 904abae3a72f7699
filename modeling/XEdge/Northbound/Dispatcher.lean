import XEdge.Lib.Machine
import XEdge.Core.Assets
import XEdge.Core.Pipeline
import XEdge.Store.RingBuffer
import XEdge.Store.SqliteStore

/-!
# Store and forward: rings, cold store and dispatcher together

`async_main` wires three components: the pipeline pushes samples into the ring
buffers, an eviction spills the oldest sample of a full ring into the cold store
(unless an asset parameter says `store: false`), and the northbound dispatcher
(`xedge/northbound/dispatcher.py`) replays the cold store after every connect and
then drains and publishes the rings at every interval.

The dispatcher is a coroutine; other tasks run only while it awaits.  `Phase` has
one constructor for each of its await points and carries the local variables that
are live there, and each event resumes one await with one outcome.  Pushes,
retention purges and asset reloads happen in any phase.
-/

namespace XEdge.Northbound

open Lib XEdge.Core Store

/-! ## Data -/

structure Sample where
  stream : String
  seq : Nat
  tag : UnifiedTag
  deriving DecidableEq

def Sample.timestampNs (x : Sample) : Int := x.tag.timestampNs

structure Params where
  /-- Python's `str.isalnum` on one character. -/
  isalnum : Char → Bool
  ramMaxDepth : Nat
  /-- The dispatcher's `replay_batch_size`. -/
  replayBatchSize : Nat

def DEFAULT_REPLAY_BATCH_SIZE : Nat := 500

def INITIAL_BACKOFF_SECONDS : Nat := 1

def MAX_BACKOFF_SECONDS : Nat := 300

def BACKOFF_MULTIPLIER : Nat := 2

/-- How `connector.connect()` ends. -/
inductive ConnectOutcome where
  | connected
  | raised
  deriving DecidableEq, Repr

/-- How `connector.publish(batch)` ends. -/
inductive PublishOutcome where
  /-- `PublishResult(success=True)`. -/
  | success
  /-- `PublishResult(success=False)`. -/
  | failure
  | raised
  deriving DecidableEq, Repr

/-- Where `NorthboundDispatcher.run` is suspended. -/
inductive Phase where
  /-- `await self._connector.connect()`. -/
  | connecting
  /-- `await asyncio.sleep(backoff)`. -/
  | backingOff
  /-- `await self._connector.publish(batch)` in `_replay_cold_store`: the stream
  being replayed, the streams still to come, the rows that were peeked. -/
  | replaying (streamKey : String) (rest : List String) (rows : List (Row Sample))
  /-- `await asyncio.wait_for(self._publish_trigger.wait(), ...)`. -/
  | waiting
  /-- `await self._connector.publish(batch)` of a drained batch. -/
  | publishing (batch : List Sample)
  /-- An exception left `run`. -/
  | crashed
  deriving DecidableEq

/-- What an eviction touches: the cold store, and the record of the samples the
asset filter kept out of it. -/
structure Spill where
  cold : SqliteColdStore Sample
  /-- Evicted and suppressed by `store: false`. -/
  dropped : List Sample
  deriving DecidableEq

structure Gateway where
  /-- `ring_buffers`. -/
  rings : RingBufferManager Sample
  /-- `cold_store`, behind the asset filter. -/
  spill : Spill
  suppressed : List String
  phase : Phase
  connected : Bool
  /-- The local `backoff` of `run`. -/
  backoff : Nat
  pushed : List Sample
  nextSeq : Nat
  published : List (List Sample)
  purged : List Sample
  deriving DecidableEq

inductive Event where
  /-- A task calls `ring_buffers.push`. -/
  | push (streamKey : String) (isAlarmStream : Bool) (tag : UnifiedTag)
  /-- A config reload calls `AssetStorageFilter.refresh`. -/
  | refresh (assetsConfig : List AssetEntry)
  /-- The purge loop calls `purge_older_than`. -/
  | purge (streamKey : String) (cutoffNs : Int)
  /-- `connect()` is over. -/
  | connectDone (outcome : ConnectOutcome)
  | slept
  /-- The publish interval elapsed, or `trigger_publish` was called. -/
  | woken
  /-- `publish()` is over, in the replay or live. -/
  | publishDone (outcome : PublishOutcome)
  deriving DecidableEq

namespace Gateway

variable (P : Params)

abbrev cold (g : Gateway) : SqliteColdStore Sample := g.spill.cold

def inFlight (g : Gateway) : List Sample :=
  match g.phase with
  | .publishing batch => batch
  | _ => []

/-- The gateway as `async_main` starts it, over the store directory it finds;
`nextSeq` pushes were made by earlier runs. -/
def start (assetsConfig : List AssetEntry) (cold : SqliteColdStore Sample) (nextSeq : Nat) :
    Gateway where
  rings := RingBufferManager.new P.ramMaxDepth
  spill := ⟨cold, []⟩
  suppressed := computeSuppressedTagIds (parseAssets assetsConfig)
  phase := .connecting
  connected := false
  backoff := INITIAL_BACKOFF_SECONDS
  pushed := []
  nextSeq := nextSeq
  published := []
  purged := []

/-! ## One event -/

/-- `AssetStorageFilter.wrap(cold_store.append)`. -/
def filteredAppend (suppressed : List String) (streamKey : String) (x : Sample) (s : Spill) :
    Spill :=
  if x.tag.tagId ∈ suppressed then { s with dropped := s.dropped ++ [x] }
  else { s with cold := s.cold.append P.isalnum streamKey x }

/-- `ring_buffers.push`; a push that raises changes no stream. -/
def push (g : Gateway) (streamKey : String) (isAlarmStream : Bool) (tag : UnifiedTag) : Gateway :=
  let x : Sample := ⟨streamKey, g.nextSeq, tag⟩
  let r := g.rings.push (ε := Empty)
    (some fun k y s => .ok (filteredAppend P g.suppressed k y s)) streamKey x isAlarmStream g.spill
  match r.1 with
  | .pushed =>
      { g with
        rings := r.2.1, spill := r.2.2, pushed := g.pushed ++ [x], nextSeq := g.nextSeq + 1 }
  | _ => { g with rings := r.2.1, spill := r.2.2 }

def refresh (g : Gateway) (assetsConfig : List AssetEntry) : Gateway :=
  { g with suppressed := computeSuppressedTagIds (parseAssets assetsConfig) }

/-- `cold_store.purge_older_than`. -/
def purge (g : Gateway) (streamKey : String) (cutoffNs : Int) : Gateway :=
  let r := g.cold.purgeOlderThan P.isalnum Sample.timestampNs streamKey cutoffNs
  { g with spill := { g.spill with cold := r.1 }, purged := g.purged ++ r.2.map Row.tag }

/-- The head of the `while True` of `run`. -/
def loopHead (g : Gateway) : Gateway :=
  { g with phase := if g.connected then .waiting else .connecting }

/-- `_replay_cold_store` from the head of its `while True`: the next peek that
finds rows is published; when the streams are exhausted `run` goes on to wait. -/
def replayFrom (g : Gateway) : List String → Gateway
  | [] => { g with phase := .waiting }
  | k :: ks =>
      let r := g.cold.peek P.isalnum k P.replayBatchSize
      if r.2 = [] then
        replayFrom { g with spill := { g.spill with cold := r.1 } } ks
      else
        { g with spill := { g.spill with cold := r.1 }, phase := .replaying k ks r.2 }

/-- `connect()` is over. -/
def onConnect (g : Gateway) : ConnectOutcome → Gateway
  | .connected =>
      replayFrom P { g with connected := true, backoff := INITIAL_BACKOFF_SECONDS }
        g.cold.streamKeys
  | .raised => { g with phase := .backingOff }

def onSlept (g : Gateway) : Gateway :=
  loopHead { g with backoff := min (g.backoff * BACKOFF_MULTIPLIER) MAX_BACKOFF_SECONDS }

/-- The wait is over: drain every ring, and publish what there was. -/
def onWoken (g : Gateway) : Gateway :=
  let r := g.rings.drainAll none
  if r.1 = [] then loopHead { g with rings := r.2 }
  else { g with rings := r.2, phase := .publishing r.1 }

def onLivePublish (g : Gateway) (batch : List Sample) : PublishOutcome → Gateway
  | .success => loopHead { g with published := g.published ++ [batch] }
  | .failure => loopHead { g with connected := false }
  -- nothing in `run` catches it
  | .raised => { g with phase := .crashed }

def onReplayPublish (g : Gateway) (streamKey : String) (rest : List String)
    (rows : List (Row Sample)) : PublishOutcome → Gateway
  | .success =>
      replayFrom P
        { g with
          spill :=
            { g.spill with cold := g.cold.deleteIds P.isalnum streamKey (rows.map Row.id) }
          published := g.published ++ [rows.map Row.tag] }
        (streamKey :: rest)
  -- `_replay_cold_store` returns, and `run` goes on with the wait below it
  | .failure => { g with connected := false, phase := .waiting }
  -- caught by the `except` around the connect
  | .raised => { g with phase := .backingOff }

def step (g : Gateway) : Event → Option Gateway
  | .push k a tag => some (g.push P k a tag)
  | .refresh assets => some (g.refresh assets)
  | .purge k cutoff => some (g.purge P k cutoff)
  | .connectDone outcome =>
      match g.phase with
      | .connecting => some (g.onConnect P outcome)
      | _ => none
  | .slept =>
      match g.phase with
      | .backingOff => some g.onSlept
      | _ => none
  | .woken =>
      match g.phase with
      | .waiting => some g.onWoken
      | _ => none
  | .publishDone outcome =>
      match g.phase with
      | .publishing batch => some (g.onLivePublish batch outcome)
      | .replaying k rest rows => some (g.onReplayPublish P k rest rows outcome)
      | _ => none

end Gateway

def machine (P : Params) : Machine Gateway Event := ⟨fun g e => g.step P e⟩

/-! ## What the operations do, seen from outside -/

namespace Gateway

variable {P : Params}

/-- The event `e` leads from `g` to the last argument. -/
inductive Step (P : Params) (g : Gateway) : Event → Gateway → Prop
  | push (k : String) (a : Bool) (tag : UnifiedTag) : Step P g (.push k a tag) (g.push P k a tag)
  | refresh (assets : List AssetEntry) : Step P g (.refresh assets) (g.refresh assets)
  | purge (k : String) (cutoff : Int) : Step P g (.purge k cutoff) (g.purge P k cutoff)
  | connect (outcome : ConnectOutcome) (hph : g.phase = .connecting) :
      Step P g (.connectDone outcome) (g.onConnect P outcome)
  | slept (hph : g.phase = .backingOff) : Step P g .slept g.onSlept
  | woken (hph : g.phase = .waiting) : Step P g .woken g.onWoken
  | live (batch : List Sample) (outcome : PublishOutcome) (hph : g.phase = .publishing batch) :
      Step P g (.publishDone outcome) (g.onLivePublish batch outcome)
  | replay (k : String) (rest : List String) (rows : List (Row Sample))
      (outcome : PublishOutcome) (hph : g.phase = .replaying k rest rows) :
      Step P g (.publishDone outcome) (g.onReplayPublish P k rest rows outcome)

variable {g g' : Gateway} {e : Event}

theorem step_cases (h : g.step P e = some g') : Step P g e g' := by
  cases e with
  | push k a tag => cases h; exact .push k a tag
  | refresh assets => cases h; exact .refresh assets
  | purge k cutoff => cases h; exact .purge k cutoff
  | connectDone outcome =>
    simp only [step] at h
    split at h <;> cases h
    exact .connect outcome ‹_›
  | slept =>
    simp only [step] at h
    split at h <;> cases h
    exact .slept ‹_›
  | woken =>
    simp only [step] at h
    split at h <;> cases h
    exact .woken ‹_›
  | publishDone outcome =>
    simp only [step] at h
    split at h <;> cases h
    · exact .live _ outcome ‹_›
    · exact .replay _ _ _ outcome ‹_›

/-- `_replay_cold_store` only opens databases, until it has rows to publish: it
ends in the wait, or in the publish of the oldest rows of some stream. -/
theorem replayFrom_spec (g : Gateway) (keys : List String) :
    ∃ c ph, replayFrom P g keys = { g with spill := ⟨c, g.spill.dropped⟩, phase := ph } ∧
      (∀ f, c.rowsAt f = g.cold.rowsAt f ∧ c.lastIdAt f = g.cold.lastIdAt f) ∧
      (ph = .waiting ∨ ∃ k ks, ph =
        .replaying k ks ((g.cold.rowsAt (fileName P.isalnum k)).take P.replayBatchSize)) := by
  induction keys generalizing g with
  | nil => exact ⟨g.cold, .waiting, rfl, fun f => ⟨rfl, rfl⟩, Or.inl rfl⟩
  | cons k ks ih =>
    rw [replayFrom]
    split
    · obtain ⟨c, ph, heq, hsame, hph⟩ :=
        ih { g with
          spill := { g.spill with cold := (g.cold.peek P.isalnum k P.replayBatchSize).1 } }
      refine ⟨c, ph, heq, fun f => ?_, ?_⟩
      · simpa [cold] using hsame f
      · simpa [cold] using hph
    · refine ⟨_, _, rfl, fun f => ?_, Or.inr ⟨k, ks, ?_⟩⟩
      · simp
      · rw [SqliteColdStore.peek_rows]

@[simp] theorem pushed_replayFrom (g : Gateway) (keys : List String) :
    (replayFrom P g keys).pushed = g.pushed := by
  obtain ⟨c, ph, heq, -⟩ := replayFrom_spec (P := P) g keys
  rw [heq]

@[simp] theorem nextSeq_replayFrom (g : Gateway) (keys : List String) :
    (replayFrom P g keys).nextSeq = g.nextSeq := by
  obtain ⟨c, ph, heq, -⟩ := replayFrom_spec (P := P) g keys
  rw [heq]

@[simp] theorem rings_replayFrom (g : Gateway) (keys : List String) :
    (replayFrom P g keys).rings = g.rings := by
  obtain ⟨c, ph, heq, -⟩ := replayFrom_spec (P := P) g keys
  rw [heq]

theorem rows_replayFrom (g : Gateway) (keys : List String) (f : String) :
    (replayFrom P g keys).cold.rowsAt f = g.cold.rowsAt f := by
  obtain ⟨c, ph, heq, hsame, -⟩ := replayFrom_spec (P := P) g keys
  rw [heq]
  exact (hsame f).1

theorem onWoken_spec (g : Gateway) :
    ∃ ph, g.onWoken = { g with rings := (g.rings.drainAll none).2, phase := ph } ∧
      (ph = .publishing (g.rings.drainAll none).1 ∨
        (g.rings.drainAll none).1 = [] ∧ (ph = .waiting ∨ ph = .connecting)) := by
  unfold onWoken
  simp only
  split
  · next hnil =>
    refine ⟨_, rfl, Or.inr ⟨hnil, ?_⟩⟩
    cases g.connected <;> simp
  · exact ⟨_, rfl, Or.inl rfl⟩

theorem filteredAppend_spec (suppressed : List String) (k : String) (x : Sample) (s : Spill) :
    (filteredAppend P suppressed k x s = ⟨s.cold, s.dropped ++ [x]⟩) ∨
      (filteredAppend P suppressed k x s = ⟨s.cold.append P.isalnum k x, s.dropped⟩) := by
  unfold filteredAppend
  split
  · exact Or.inl rfl
  · exact Or.inr rfl

/-- **What a push does to the gateway.**  It fails and changes no stream; or it
appends to its ring; or it appends after the oldest sample of the ring went through
the asset filter. -/
theorem push_spec (g : Gateway) (k : String) (a : Bool) (tag : UnifiedTag) :
    let x : Sample := ⟨k, g.nextSeq, tag⟩
    let g' := g.push P k a tag
    (∃ m, g' = { g with rings := m } ∧ ∀ j, m.contents j = g.rings.contents j) ∨
    (∃ m s, g' = { g with
          rings := m, spill := s, pushed := g.pushed ++ [x], nextSeq := g.nextSeq + 1 } ∧
      RingBuffer.Pushed (filteredAppend P g.suppressed k) x (g.rings.contents k) (m.contents k)
        g.spill s ∧
      ∀ j, j ≠ k → m.contents j = g.rings.contents j) := by
  intro x g'
  have hspec := RingBufferManager.push_spec (ε := Empty)
    (filteredAppend P g.suppressed) g.rings k x a g.spill
  rcases hspec with ⟨hok, hp, hother⟩ | ⟨hbad, hsame, hs⟩
  · right
    refine ⟨_, _, ?_, hp, hother⟩
    simp only [g', push, x]
    simp only [x] at hok
    rw [hok]
  · left
    refine ⟨_, ?_, hsame⟩
    simp only [g', push]
    split
    · next h => exact absurd h hbad
    · simp only [x] at hs
      rw [hs]

/-! ## The replay invariant -/

/-- While the batch `rows` of stream `k` awaits its publish, the file of `k` holds
a remainder of the batch followed by younger rows, and no id of the batch is still
to be given out. -/
def ReplayInv (P : Params) (g : Gateway) : Prop :=
  ∀ k rest rows, g.phase = .replaying k rest rows →
    (∃ old young, g.cold.rowsAt (fileName P.isalnum k) = old ++ young ∧ old.Sublist rows ∧
      ∀ r ∈ young, ∀ q ∈ rows, q.id < r.id) ∧
    ∀ q ∈ rows, q.id ≤ g.cold.lastIdAt (fileName P.isalnum k)

theorem replayInv_of_phase (h : ∀ k rest rows, g.phase ≠ .replaying k rest rows) :
    ReplayInv P g :=
  fun k rest rows hph => absurd hph (h k rest rows)

theorem replayInv_replayFrom (g : Gateway) (keys : List String) :
    ReplayInv P (replayFrom P g keys) := by
  obtain ⟨c, ph, heq, hsame, hph⟩ := replayFrom_spec (P := P) g keys
  rw [heq]
  intro k rest rows hphase
  rcases hph with rfl | ⟨k', ks, rfl⟩
  · exact absurd hphase (by simp)
  · simp only [Phase.replaying.injEq] at hphase
    obtain ⟨rfl, rfl, rfl⟩ := hphase
    set l := g.cold.rowsAt (fileName P.isalnum k') with hl
    refine ⟨⟨l.take P.replayBatchSize, l.drop P.replayBatchSize, ?_, List.Sublist.refl _, ?_⟩, ?_⟩
    · rw [List.take_append_drop]
      exact (hsame _).1
    · intro r hr q hq
      have hsorted := g.cold.rowsAt_sorted (fileName P.isalnum k')
      rw [← hl, ← List.take_append_drop P.replayBatchSize l, List.pairwise_append] at hsorted
      exact hsorted.2.2 q hq r hr
    · intro q hq
      rw [(hsame _).2]
      exact g.cold.rowsAt_bounded _ q (List.mem_of_mem_take hq)

theorem replayInv_append (h : ReplayInv P g) (k : String) (x : Sample) :
    ReplayInv P { g with spill := ⟨g.cold.append P.isalnum k x, g.spill.dropped⟩ } := by
  intro κ rest rows hph
  obtain ⟨⟨old, young, hrows, hsub, hyoung⟩, hle⟩ := h κ rest rows hph
  refine ⟨?_, fun q hq => le_trans (hle q hq)
    (SqliteColdStore.lastIdAt_append_le P.isalnum g.cold k _ x)⟩
  rw [SqliteColdStore.rowsAt_append]
  split
  · next hf =>
    refine ⟨old, young ++ [⟨g.cold.lastIdAt (fileName P.isalnum κ) + 1, x⟩], ?_, hsub, ?_⟩
    · rw [hrows, List.append_assoc]
    · intro r hr q hq
      rcases List.mem_append.1 hr with hr | hr
      · exact hyoung r hr q hq
      · rw [List.mem_singleton.1 hr]
        exact Nat.lt_succ_of_le (hle q hq)
  · exact ⟨old, young, hrows, hsub, hyoung⟩

theorem replayInv_purge (h : ReplayInv P g) (k : String) (cutoff : Int) :
    ReplayInv P (g.purge P k cutoff) := by
  intro κ rest rows hph
  obtain ⟨⟨old, young, hrows, hsub, hyoung⟩, hle⟩ := h κ rest rows hph
  refine ⟨?_, fun q hq => ?_⟩
  · show ∃ old young, (g.cold.purgeOlderThan _ _ k cutoff).1.rowsAt _ = _ ∧ _
    rw [SqliteColdStore.rowsAt_purgeOlderThan, hrows]
    split
    · rw [List.filter_append]
      exact ⟨_, _, rfl, List.filter_sublist.trans hsub,
        fun r hr => hyoung r (List.mem_of_mem_filter hr)⟩
    · exact ⟨old, young, rfl, hsub, hyoung⟩
  · show q.id ≤ (g.cold.purgeOlderThan _ _ k cutoff).1.lastIdAt _
    rw [SqliteColdStore.lastIdAt_purgeOlderThan]
    exact hle q hq

theorem replayInv_push (h : ReplayInv P g) (k : String) (a : Bool)
    (tag : UnifiedTag) : ReplayInv P (g.push P k a tag) := by
  rcases push_spec (P := P) g k a tag with ⟨m, heq, -⟩ | ⟨m, s, heq, hp, -⟩
  · rw [heq]
    exact h
  · rw [heq]
    cases hp with
    | append _ hs =>
      rw [hs]
      exact h
    | evict y ys _ _ hs =>
      rcases filteredAppend_spec (P := P) g.suppressed k y g.spill with hf | hf
      · rw [hs, hf]
        exact h
      · rw [hs, hf]
        exact replayInv_append h k y

theorem phase_loopHead (g : Gateway) (k : String) (rest : List String) (rows : List (Row Sample)) :
    g.loopHead.phase ≠ .replaying k rest rows := by
  unfold loopHead
  cases g.connected <;> simp

theorem replayInv_step (h : ReplayInv P g) (hstep : g.step P e = some g') : ReplayInv P g' := by
  cases step_cases hstep with
  | push k a tag => exact replayInv_push h k a tag
  | refresh assets => exact h
  | purge k cutoff => exact replayInv_purge h k cutoff
  | connect outcome hph =>
    cases outcome with
    | connected => exact replayInv_replayFrom _ _
    | raised => exact replayInv_of_phase (by simp [onConnect])
  | slept hph => exact replayInv_of_phase (phase_loopHead _)
  | woken hph =>
    refine replayInv_of_phase fun k rest rows => ?_
    unfold onWoken
    simp only
    split
    · exact phase_loopHead _ k rest rows
    · simp
  | live batch outcome hph =>
    cases outcome with
    | success | failure => exact replayInv_of_phase (phase_loopHead _)
    | raised => exact replayInv_of_phase (by simp [onLivePublish])
  | replay k rest rows outcome hph =>
    cases outcome with
    | success => exact replayInv_replayFrom _ _
    | failure | raised => exact replayInv_of_phase (by simp [onReplayPublish])

theorem replayInv_start (assets : List AssetEntry) (c : SqliteColdStore Sample) (n : Nat) :
    ReplayInv P (start P assets c n) :=
  replayInv_of_phase (by simp [start])

end Gateway

/-! ## A small gateway, for worked runs -/

def tinyParams : Params := ⟨Char.isAlphanum, 1, 1⟩

/-- A reading of the tag `tagId`. -/
def reading (tagId : String) (timestampNs : Int) : UnifiedTag where
  tagId := tagId
  timestampNs := timestampNs
  value := .int 1
  dataType := "int16"
  quality := .good
  sourceDriver := "d"
  sourceAddress := "0"
  engineeringUnit := none
  isAlarm := false

end XEdge.Northbound
