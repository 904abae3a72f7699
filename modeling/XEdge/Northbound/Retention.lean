import XEdge.Core.Alarms
import XEdge.Northbound.DeliveryOrder

/-!
# Retention (`purge_loop` of `xedge/store/sqlite_store.py`)

Every interval the purge loop deletes what is older than the retention of its
stream: one time for alarm streams, another for the rest.  It runs between two
awaits, so a cycle is one event; but the streams it goes through are those of
the RAM buffers, not those of the store.
-/

namespace XEdge.Northbound

open Lib XEdge.Core Store

/-- The retention arguments of `purge_loop`, in nanoseconds. -/
structure RetentionConfig where
  /-- `retention_duration_seconds`. -/
  retentionNs : Int
  /-- `alarm_retention_duration_seconds`. -/
  alarmRetentionNs : Option Int

/-- `stream_key.endswith(ALARM_STREAM_KEY_SUFFIX)`. -/
def isAlarmKey (streamKey : String) : Bool :=
  ALARM_STREAM_KEY_SUFFIX.toList.isSuffixOf streamKey.toList

/-- `normal_cutoff` or `alarm_cutoff`. -/
def cutoffNs (R : RetentionConfig) (now : Int) (streamKey : String) : Int :=
  if isAlarmKey streamKey then now - R.alarmRetentionNs.getD R.retentionNs
  else now - R.retentionNs

namespace Gateway

variable (P : Params) (R : RetentionConfig)

/-- The `for` of `purge_loop`. -/
def purgeStreams (now : Int) (g : Gateway) (streamKeys : List String) : Gateway :=
  streamKeys.foldl (fun g k => g.purge P k (cutoffNs R now k)) g

/-- One cycle of `purge_loop`, with `ring_buffers.stream_keys`. -/
def purgeCycle (now : Int) (g : Gateway) : Gateway :=
  g.purgeStreams P R now g.rings.streamKeys

variable {P R}

theorem rowsAt_purge (g : Gateway) (k f : String) (cutoff : Int) :
    (g.purge P k cutoff).cold.rowsAt f =
      if f = fileName P.isalnum k then
        (g.cold.rowsAt f).filter fun r => cutoff ≤ r.tag.timestampNs
      else g.cold.rowsAt f :=
  SqliteColdStore.rowsAt_purgeOlderThan P.isalnum Sample.timestampNs g.cold k f cutoff

theorem mem_rowsAt_purgeStreams {now : Int} {g : Gateway} {ks : List String} {f : String}
    {r : Row Sample} :
    r ∈ (g.purgeStreams P R now ks).cold.rowsAt f ↔
      r ∈ g.cold.rowsAt f ∧
        ∀ k ∈ ks, fileName P.isalnum k = f → cutoffNs R now k ≤ r.tag.timestampNs := by
  induction ks generalizing g with
  | nil => simp [purgeStreams]
  | cons k ks ih =>
    have hrest := @ih (g.purge P k (cutoffNs R now k))
    rw [purgeStreams, List.foldl_cons, ← purgeStreams, hrest, rowsAt_purge, List.forall_mem_cons]
    by_cases hf : f = fileName P.isalnum k
    · rw [if_pos hf, List.mem_filter, decide_eq_true_eq]
      constructor
      · rintro ⟨⟨hr, hk⟩, hks⟩
        exact ⟨hr, fun _ => hk, hks⟩
      · rintro ⟨hr, hk, hks⟩
        exact ⟨⟨hr, hk hf.symm⟩, hks⟩
    · rw [if_neg hf]
      constructor
      · rintro ⟨hr, hks⟩
        exact ⟨hr, fun hk => (hf hk.symm).elim, hks⟩
      · rintro ⟨hr, -, hks⟩
        exact ⟨hr, hks⟩

end Gateway

/-! ## Runs with purge cycles -/

structure Purged where
  gateway : Gateway
  /-- `now` of the cycle. -/
  purgedAt : Option Int
  deriving DecidableEq

inductive RetentionEvent where
  | gateway (e : Event)
  | purgeCycle (now : Int)
  deriving DecidableEq

def retentionMachine (P : Params) (R : RetentionConfig) : Machine Purged RetentionEvent where
  step s
    | .gateway e => (s.gateway.step P e).map fun g => ⟨g, none⟩
    | .purgeCycle now => some ⟨s.gateway.purgeCycle P R now, some now⟩

/-- Right after a cycle no file holds a sample that is older than the retention of its
stream. -/
def Retained (R : RetentionConfig) (s : Purged) : Prop :=
  ∀ now, s.purgedAt = some now → ∀ f, ∀ r ∈ s.gateway.cold.rowsAt f,
    cutoffNs R now r.tag.stream ≤ r.tag.timestampNs

/-- A cycle finds every overdue sample in the file of a stream with a RAM buffer, for
which it is overdue too. -/
def OverdueBuffered (P : Params) (R : RetentionConfig) (s : Purged) : RetentionEvent → Prop
  | .gateway _ => True
  | .purgeCycle now => ∀ f, ∀ r ∈ s.gateway.cold.rowsAt f,
      r.tag.timestampNs < cutoffNs R now r.tag.stream →
        ∃ k ∈ s.gateway.rings.streamKeys, fileName P.isalnum k = f ∧
          r.tag.timestampNs < cutoffNs R now k

variable {P : Params} {R : RetentionConfig}

theorem retained_step {s s' : Purged} {e : RetentionEvent}
    (hstep : (retentionMachine P R).step s e = some s') :
    Retained R s' ↔ OverdueBuffered P R s e := by
  cases e with
  | gateway e =>
    obtain ⟨g, -, rfl⟩ := Option.map_eq_some_iff.1 hstep
    refine iff_of_true (fun now hnow => ?_) trivial
    cases hnow
  | purgeCycle now =>
    cases hstep
    constructor
    · intro h f r hr hover
      by_contra hnone
      -- then no stream deletes it
      have hleft : r ∈ (s.gateway.purgeCycle P R now).cold.rowsAt f := by
        refine Gateway.mem_rowsAt_purgeStreams.2 ⟨hr, fun k hk hf => ?_⟩
        exact not_lt.1 fun hlt => hnone ⟨k, hk, hf, hlt⟩
      exact absurd (h now rfl f r hleft) (not_le.2 hover)
    · intro h now' hnow f r hr
      cases hnow
      obtain ⟨hold, hkept⟩ := Gateway.mem_rowsAt_purgeStreams.1 hr
      refine not_lt.1 fun hover => ?_
      obtain ⟨k, hk, hf, hlt⟩ := h f r hold hover
      exact absurd (hkept k hk hf) (not_le.2 hlt)

/-- **When retention is enforced.**  For any directory that earlier runs left, and any
run of this process: right after every purge cycle no file holds an overdue sample, just
in case every cycle finds the overdue samples in files of streams with a RAM buffer. -/
theorem retained_iff (P : Params) (R : RetentionConfig) {assets : List AssetEntry}
    {cold : SqliteColdStore Sample} {nextSeq : Nat} {events : List RetentionEvent} {s : Purged}
    (hrun : (retentionMachine P R).run ⟨Gateway.start P assets cold nextSeq, none⟩ events =
      some s) :
    (retentionMachine P R).Always (Retained R) ⟨Gateway.start P assets cold nextSeq, none⟩ events ↔
      (retentionMachine P R).Meets (OverdueBuffered P R)
        ⟨Gateway.start P assets cold nextSeq, none⟩ events := by
  refine (retentionMachine P R).always_iff_meets (I := fun _ => True) (fun _ _ _ _ _ => trivial)
    (fun _ _ _ _ _ hstep => retained_step hstep) trivial (fun now hnow => ?_) hrun
  cases hnow

/-! ## A directory of this process alone -/

namespace Gateway

variable {g g' : Gateway} {e : Event}

def Buffered (g : Gateway) : Prop :=
  ∀ f, ∀ r ∈ g.cold.rowsAt f, r.tag.stream ∈ g.rings.streamKeys

theorem Buffered.of_subset (h : Buffered g)
    (hkeys : ∀ k ∈ g.rings.streamKeys, k ∈ g'.rings.streamKeys)
    (hrows : ∀ f, ∀ r ∈ g'.cold.rowsAt f, r ∈ g.cold.rowsAt f) : Buffered g' :=
  fun f r hr => hkeys _ (h f r (hrows f r hr))

variable {k : String} {a : Bool} {tag : UnifiedTag}

theorem mem_streamKeys_push {j : String}
    (hj : j ∈ g.rings.streamKeys) : j ∈ (g.push P k a tag).rings.streamKeys := by
  have hset : ∀ b, j ∈ (g.rings.buffers.set k b).keys := by
    intro b
    obtain ⟨old, hold⟩ := (Dict.mem_keys _).1 hj
    rw [Dict.mem_keys, Dict.get?_set]
    split
    · exact ⟨b, rfl⟩
    · exact ⟨old, hold⟩
  unfold push
  simp only
  split
  · exact hset _
  · exact hset _

theorem mem_rowsAt_push {f : String} {r : Row Sample} (hr : r ∈ (g.push P k a tag).cold.rowsAt f) :
    r ∈ g.cold.rowsAt f ∨ r.tag ∈ g.rings.contents k := by
  rcases push_spec (P := P) g k a tag with ⟨m, heq, -⟩ | ⟨m, s, heq, hp, -⟩ <;> rw [heq] at hr
  · exact .inl hr
  · cases hp with
    | append hnew hs =>
      rw [hs] at hr
      exact .inl hr
    | evict y ys hold hnew hs =>
      rcases filteredAppend_spec (P := P) g.suppressed k y g.spill with hf | hf <;>
        rw [hs, hf] at hr
      · exact .inl hr
      · rw [SqliteColdStore.rowsAt_append] at hr
        split at hr
        · rcases List.mem_append.1 hr with hr | hr
          · exact .inl hr
          · rw [List.mem_singleton.1 hr, hold]
            exact .inr List.mem_cons_self
        · exact .inl hr

theorem buffered_push (hlab : Labelled P g) (h : Buffered g) (k : String) (a : Bool)
    (tag : UnifiedTag) : Buffered (g.push P k a tag) := by
  intro f r hr
  refine mem_streamKeys_push ?_
  rcases mem_rowsAt_push hr with hr | hr
  · exact h f r hr
  · rw [hlab.rings k _ hr]
    by_contra hk
    rw [g.rings.contents_of_notMem hk] at hr
    cases hr

theorem buffered_step (hlab : Labelled P g) (h : Buffered g) (hstep : g.step P e = some g') :
    Buffered g' := by
  cases step_cases hstep with
  | push k a tag => exact buffered_push hlab h k a tag
  | refresh | slept => exact h
  | purge k cutoff =>
    exact h.of_subset (fun _ hk => hk) fun f r hr =>
      (g.cold.rowsAt_purgeOlderThan_sublist ..).subset hr
  | connect outcome hph =>
    cases outcome with
    | connected =>
      refine h.of_subset (fun k hk => ?_) fun f r hr => ?_
      · rwa [onConnect, rings_replayFrom]
      · rwa [onConnect, rows_replayFrom] at hr
    | raised => exact h
  | woken hph =>
    obtain ⟨ph, heq, -⟩ := onWoken_spec g
    rw [heq]
    refine h.of_subset (fun k hk => ?_) fun f r hr => hr
    obtain ⟨b, hb⟩ := (Dict.mem_keys _).1 hk
    refine (Dict.mem_keys _).2 ⟨(b.drain none).2, ?_⟩
    rw [RingBufferManager.drainAll, Dict.get?_mapValues, hb]
    rfl
  | live batch outcome hph => cases outcome <;> exact h
  | replay k rest rows outcome hph =>
    cases outcome with
    | success =>
      refine h.of_subset (fun k hk => ?_) fun f r hr => ?_
      · rwa [onReplayPublish, rings_replayFrom]
      · rw [onReplayPublish, rows_replayFrom] at hr
        exact (g.cold.rowsAt_deleteIds_sublist ..).subset hr
    | failure | raised => exact h

theorem rings_purgeCycle (now : Int) (g : Gateway) : (g.purgeCycle P R now).rings = g.rings := by
  suffices h : ∀ ks g, (purgeStreams P R now g ks).rings = g.rings from h _ g
  intro ks
  induction ks with
  | nil => exact fun _ => rfl
  | cons k ks ih => exact fun g => ih (g.purge P k (cutoffNs R now k))

end Gateway

theorem meets_of_new (assets : List AssetEntry) (nextSeq : Nat) (events : List RetentionEvent) :
    (retentionMachine P R).Meets (OverdueBuffered P R)
      ⟨Gateway.start P assets SqliteColdStore.new nextSeq, none⟩ events := by
  refine (retentionMachine P R).meets_of_inv
    (I := fun s => Gateway.Labelled P s.gateway ∧ Gateway.Buffered s.gateway) ?_ ?_
    ⟨labelled_start (consistent_new P nextSeq), fun f r hr => by cases hr⟩
  · rintro s e s' ⟨hlab, hbuf⟩ hstep
    cases e with
    | gateway e =>
      obtain ⟨g, hg, rfl⟩ := Option.map_eq_some_iff.1 hstep
      exact ⟨Gateway.labelled_step hlab hg, Gateway.buffered_step hlab hbuf hg⟩
    | purgeCycle now =>
      cases hstep
      have hrows : ∀ f, ∀ r ∈ (s.gateway.purgeCycle P R now).cold.rowsAt f,
          r ∈ s.gateway.cold.rowsAt f :=
        fun f r hr => (Gateway.mem_rowsAt_purgeStreams.1 hr).1
      have hrings := Gateway.rings_purgeCycle (P := P) (R := R) now s.gateway
      exact ⟨hlab.of_subset (fun k x hx => by rwa [hrings] at hx) hrows,
        hbuf.of_subset (fun k hk => by rwa [hrings]) hrows⟩
  · rintro s (e | now) ⟨hlab, hbuf⟩
    · trivial
    · exact fun f r hr hover => ⟨_, hbuf f r hr, hlab.rows f r hr, hover⟩

def shortRetention : RetentionConfig := ⟨10, some 100⟩

def evictThenPurge : List RetentionEvent :=
  [.gateway (.push "s" false (reading "t" 1)), .gateway (.push "s" false (reading "t" 2)),
    .purgeCycle 50]

theorem retained_evictThenPurge : ∃ s, (retentionMachine tinyParams shortRetention).run
      ⟨Gateway.start tinyParams [] SqliteColdStore.new 0, none⟩ evictThenPurge = some s ∧
    s.gateway.purged.length = 1 ∧ s.purgedAt = some 50 ∧
    (retentionMachine tinyParams shortRetention).Always (Retained shortRetention)
      ⟨Gateway.start tinyParams [] SqliteColdStore.new 0, none⟩ evictThenPurge := by
  obtain ⟨s, hs, hv⟩ := Option.map_eq_some_iff.1
    (show ((retentionMachine tinyParams shortRetention).run
        ⟨Gateway.start tinyParams [] SqliteColdStore.new 0, none⟩ evictThenPurge).map
        (fun s => (s.gateway.purged.length, s.purgedAt)) = some (1, some 50) by decide +kernel)
  obtain ⟨hpurged, hat⟩ := Prod.mk.inj hv
  exact ⟨s, hs, hpurged, hat, (retained_iff _ _ hs).2 (meets_of_new [] 0 evictThenPurge)⟩

/-- The directory of a process that stored one reading of the stream `old`. -/
def leftByEarlierRun : SqliteColdStore Sample :=
  ((SqliteColdStore.new).append Char.isAlphanum "old" ⟨"old", 0, reading "t" 1⟩).close

/-- A purge cycle of a process that pushes to the stream `s` only: the reading of the
stream `old` is still there, long after its time. -/
theorem earlier_stream_not_purged : ∃ s, (retentionMachine tinyParams shortRetention).run
      ⟨Gateway.start tinyParams [] leftByEarlierRun 1, none⟩
      [.gateway (.push "s" false (reading "t" 40)), .purgeCycle 50] = some s ∧
    s.purgedAt = some 50 ∧ s.gateway.cold.streamKeys = ["old", "s"] ∧
    ∃ r ∈ s.gateway.cold.rowsAt "old.db", r.tag.stream = "old" ∧
      r.tag.timestampNs < cutoffNs shortRetention 50 r.tag.stream := by
  obtain ⟨s, hs, hv⟩ := Option.map_eq_some_iff.1
    (show ((retentionMachine tinyParams shortRetention).run
        ⟨Gateway.start tinyParams [] leftByEarlierRun 1, none⟩
        [.gateway (.push "s" false (reading "t" 40)), .purgeCycle 50]).map
        (fun s => (s.purgedAt, s.gateway.cold.streamKeys, s.gateway.cold.rowsAt "old.db")) =
      some (some 50, ["old", "s"], [⟨1, ⟨"old", 0, reading "t" 1⟩⟩]) by decide +kernel)
  simp only [Prod.mk.injEq] at hv
  obtain ⟨hat, hkeys, hrows⟩ := hv
  refine ⟨s, hs, hat, hkeys, ⟨1, ⟨"old", 0, reading "t" 1⟩⟩, ?_, rfl, by decide +kernel⟩
  rw [hrows]
  exact List.mem_singleton_self _

end XEdge.Northbound
