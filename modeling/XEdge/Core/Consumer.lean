import XEdge.Lib.Machine
import XEdge.Core.Alarms
import XEdge.Store.RingBuffer

/-!
# The pipeline consumer (`xedge/core/main.py`)

One task takes the updates of all drivers off one queue.  It normalises an update, shows it
to the alarm engine and to the deadband filter, and pushes it into the ring buffer of its
stream: the driver's, or the driver's alarm stream if the tag has an alarm rule.  A full
alarm buffer refuses, and the task retries the push until the dispatcher has drained the
buffer.  Meanwhile it takes nothing else off the queue.
-/

namespace XEdge.Core

open Lib Store

deriving instance DecidableEq for TagUpdate

def TAG_QUEUE_MAX_DEPTH : Nat := 10000

structure PipelineConfig where
  tagConfigs : Dict String TagPipelineConfig
  alarmRules : Dict String AlarmRule
  ramMaxDepth : Nat
  ramMaxDepth_pos : 0 < ramMaxDepth

/-- An update that the consumer is done with: the sample it became, and whether the deadband
filter let it through to its buffer. -/
structure Handled where
  update : TagUpdate
  tag : UnifiedTag
  published : Bool

inductive ConsumerPhase where
  /-- In `queue.get()`. -/
  | idle
  /-- In the sleep of `_push_with_backpressure_retry`. -/
  | retrying (update : TagUpdate) (tag : UnifiedTag) (streamKey : String) (isAlarmStream : Bool)
  /-- Nowhere: another exception ended it. -/
  | crashed

structure Pipeline where
  queue : List TagUpdate
  phase : ConsumerPhase
  alarms : AlarmEngine
  deadband : DeadbandFilter
  rings : RingBufferManager UnifiedTag
  spilled : List (String × UnifiedTag)
  handled : List Handled

inductive PipelineEvent where
  | put (update : TagUpdate)
  | take
  | retry
  | drain (maxItemsPerStream : Option Nat)
  | operate (call : AlarmCall)

namespace Pipeline

variable (C : PipelineConfig)

def new : Pipeline where
  queue := []
  phase := .idle
  alarms := .new C.alarmRules
  deadband := .new
  rings := .new C.ramMaxDepth
  spilled := []
  handled := []

def streamKey (e : AlarmEngine) (tagId sourceDriver : String) : String :=
  if e.hasRule tagId then sourceDriver ++ ALARM_STREAM_KEY_SUFFIX else sourceDriver

/-- One attempt of `_push_with_backpressure_retry`. -/
def attempt (s : Pipeline) (update : TagUpdate) (tag : UnifiedTag) (key : String)
    (isAlarmStream : Bool) : Pipeline :=
  let r := s.rings.push (ε := Empty) (some fun k x spilled => .ok (spilled ++ [(k, x)]))
    key tag isAlarmStream s.spilled
  let s' := { s with rings := r.2.1, spilled := r.2.2 }
  match r.1 with
  | .pushed => { s' with phase := .idle, handled := s.handled ++ [⟨update, tag, true⟩] }
  | .backpressure _ => { s' with phase := .retrying update tag key isAlarmStream }
  | .emptyPop | .evictFailed _ => { s' with phase := .crashed }

/-- The body of the loop of `_pipeline_to_buffer`, for the update it took. -/
def process (s : Pipeline) (update : TagUpdate) : Pipeline :=
  let config := C.tagConfigs.get? update.tagId
  let (tag, alarms) := s.alarms.evaluate (normalize update config)
  let (publish, deadband) := s.deadband.shouldPublish tag (config.bind TagPipelineConfig.deadband)
  let s' := { s with alarms, deadband }
  if publish then
    s'.attempt update tag (streamKey alarms tag.tagId tag.sourceDriver) (alarms.hasRule tag.tagId)
  else { s' with handled := s.handled ++ [⟨update, tag, false⟩] }

def step (s : Pipeline) : PipelineEvent → Option Pipeline
  | .put update =>
      -- a driver that finds the queue full waits
      if s.queue.length < TAG_QUEUE_MAX_DEPTH then some { s with queue := s.queue ++ [update] }
      else none
  | .take =>
      match s.phase, s.queue with
      | .idle, update :: rest => some ({ s with queue := rest }.process C update)
      | _, _ => none
  | .retry =>
      match s.phase with
      | .retrying update tag key isAlarmStream => some (s.attempt update tag key isAlarmStream)
      | _ => none
  | .drain n => some { s with rings := (s.rings.drainAll n).2 }
  | .operate call => some { s with alarms := s.alarms.operate call }

def keyOf (s : Pipeline) (update : TagUpdate) : String :=
  streamKey s.alarms update.tagId update.sourceDriver

def AlarmStream (s : Pipeline) (k : String) : Prop :=
  match s.rings.buffers.get? k with
  | some b => b.isAlarmStream = true
  | none => ∃ u ∈ s.queue, s.keyOf u = k ∧ s.alarms.hasRule u.tagId = true

instance (s : Pipeline) (k : String) : Decidable (s.AlarmStream k) :=
  match h : s.rings.buffers.get? k with
  | some b => decidable_of_iff (b.isAlarmStream = true) (by rw [AlarmStream, h])
  | none =>
      decidable_of_iff (∃ u ∈ s.queue, s.keyOf u = k ∧ s.alarms.hasRule u.tagId = true)
        (by rw [AlarmStream, h])

def HasRoom (s : Pipeline) (k : String) : Prop :=
  s.AlarmStream k →
    (s.rings.contents k).length + s.queue.countP (fun u => s.keyOf u = k) ≤ s.rings.maxDepth

instance (s : Pipeline) (k : String) : Decidable (s.HasRoom k) :=
  inferInstanceAs (Decidable (_ → _))

/-- An update is queued only if its stream, should it be an alarm stream, has room for all
that is then queued for it. -/
def QueuesWithRoom (s : Pipeline) : PipelineEvent → Prop
  | .put u => { s with queue := s.queue ++ [u] }.HasRoom (s.keyOf u)
  | _ => True

instance (s : Pipeline) : (e : PipelineEvent) → Decidable (s.QueuesWithRoom e)
  | .put _ => inferInstanceAs (Decidable (HasRoom _ _))
  | .take | .retry | .drain _ | .operate _ => isTrue trivial

/-! ## No blocking -/

structure Roomy (s : Pipeline) : Prop where
  idle : s.phase = .idle
  depth : s.rings.maxDepth = C.ramMaxDepth
  buffers : ∀ k b, s.rings.buffers.get? k = some b → b.maxDepth = C.ramMaxDepth
  room : ∀ k, s.HasRoom k

theorem roomy_new : (new C).Roomy C where
  idle := rfl
  depth := rfl
  buffers := by simp [new, RingBufferManager.new]
  room := by simp [HasRoom, new]

variable {C} {s s' : Pipeline}

theorem hasRule_congr {e e' : AlarmEngine} (h : e'.rules = e.rules) (tagId : String) :
    e'.hasRule tagId = e.hasRule tagId := by
  rw [AlarmEngine.hasRule, AlarmEngine.hasRule, h]

theorem keyOf_congr (h : s'.alarms.rules = s.alarms.rules) (u : TagUpdate) :
    s'.keyOf u = s.keyOf u := by
  rw [keyOf, keyOf, streamKey, streamKey, hasRule_congr h]

theorem HasRoom.of_le {k : String} (h : s.HasRoom k) (hrules : s'.alarms.rules = s.alarms.rules)
    (hdepth : s'.rings.maxDepth = s.rings.maxDepth)
    (hmark : (s'.rings.buffers.get? k).map RingBuffer.isAlarmStream =
      (s.rings.buffers.get? k).map RingBuffer.isAlarmStream)
    (hlen : (s'.rings.contents k).length ≤ (s.rings.contents k).length)
    (hmem : ∀ u ∈ s'.queue, s.keyOf u = k → u ∈ s.queue)
    (hcount : s'.queue.countP (fun u => s.keyOf u = k) ≤ s.queue.countP (fun u => s.keyOf u = k)) :
    s'.HasRoom k := by
  intro halarm
  have hwas : s.AlarmStream k := by
    unfold AlarmStream at halarm ⊢
    cases hb' : s'.rings.buffers.get? k with
    | some b' =>
      rw [hb'] at halarm hmark
      obtain ⟨b, hb, hflag⟩ := Option.map_eq_some_iff.1 hmark.symm
      rw [hb]
      exact hflag.trans halarm
    | none =>
      rw [hb'] at halarm hmark
      rw [Option.map_eq_none_iff.1 hmark.symm]
      obtain ⟨u, hu, hkey, hrule⟩ := halarm
      rw [keyOf_congr hrules] at hkey
      rw [hasRule_congr hrules] at hrule
      exact ⟨u, hmem u hu hkey, hkey, hrule⟩
  have hroom := h hwas
  simp only [keyOf_congr hrules]
  omega

variable {u : TagUpdate}

theorem alarmStream_of_bufferFor (hu : u ∈ s.queue)
    (h : (s.rings.bufferFor (s.keyOf u) (s.alarms.hasRule u.tagId)).isAlarmStream = true) :
    s.AlarmStream (s.keyOf u) := by
  unfold AlarmStream
  unfold RingBufferManager.bufferFor at h
  cases hb : s.rings.buffers.get? (s.keyOf u) with
  | some b =>
    rw [hb] at h
    exact h
  | none =>
    rw [hb] at h
    exact ⟨u, hu, rfl, h⟩

theorem Roomy.maxDepth_bufferFor (h : s.Roomy C) (k : String) (a : Bool) :
    (s.rings.bufferFor k a).maxDepth = C.ramMaxDepth := by
  unfold RingBufferManager.bufferFor
  cases hb : s.rings.buffers.get? k with
  | some b => exact h.buffers k b hb
  | none => exact h.depth

theorem process_cases (s : Pipeline) (u : TagUpdate) :
    ∃ alarms deadband tag, alarms.rules = s.alarms.rules ∧
      tag.value = (normalize u (C.tagConfigs.get? u.tagId)).value ∧
      (s.process C u = { s with alarms, deadband, handled := s.handled ++ [⟨u, tag, false⟩] } ∨
        s.process C u = { s with alarms, deadband }.attempt u tag (s.keyOf u)
          (s.alarms.hasRule u.tagId)) := by
  set config := C.tagConfigs.get? u.tagId with hconfig
  set evaluated := s.alarms.evaluate (normalize u config) with hevaluated
  set filtered := s.deadband.shouldPublish evaluated.1 (config.bind TagPipelineConfig.deadband)
    with hfiltered
  have hrules : evaluated.2.rules = s.alarms.rules := s.alarms.rules_evaluate _
  refine ⟨evaluated.2, filtered.2, evaluated.1, hrules, s.alarms.value_evaluate _, ?_⟩
  by_cases hpub : filtered.1 = true
  · right
    have hid : evaluated.1.tagId = u.tagId := s.alarms.tagId_evaluate _
    have hdriver : evaluated.1.sourceDriver = u.sourceDriver := s.alarms.sourceDriver_evaluate _
    have hflag : evaluated.2.hasRule evaluated.1.tagId = s.alarms.hasRule u.tagId := by
      rw [hid, hasRule_congr hrules]
    have hkey : streamKey evaluated.2 evaluated.1.tagId evaluated.1.sourceDriver = s.keyOf u := by
      rw [streamKey, hflag, hdriver, keyOf, streamKey]
    simp only [process, ← hconfig, ← hevaluated, ← hfiltered, hpub, if_true, hflag, hkey]
  · left
    simp only [process, ← hconfig, ← hevaluated, ← hfiltered, hpub, if_false, Bool.false_eq_true]

theorem attempt_cases (h : s.rings.Deep) (u : TagUpdate) (tag : UnifiedTag) (k : String)
    (a : Bool) :
    ∃ rings spilled, rings.Deep ∧
      (s.attempt u tag k a = { s with
          phase := .idle, rings, spilled, handled := s.handled ++ [⟨u, tag, true⟩] } ∨
        s.attempt u tag k a = { s with phase := .retrying u tag k a, rings, spilled }) := by
  set onEvict : String → UnifiedTag → List (String × UnifiedTag) →
      Except Empty (List (String × UnifiedTag)) :=
    fun k x spilled => .ok (spilled ++ [(k, x)]) with honEvict
  refine ⟨_, (s.rings.push (some onEvict) k tag a s.spilled).2.2,
    h.push (some onEvict) k tag a s.spilled, ?_⟩
  have hpop : (s.rings.push (some onEvict) k tag a s.spilled).1 ≠ .emptyPop :=
    RingBuffer.push_ne_emptyPop _ _ tag s.spilled (h.bufferFor k a)
  cases hout : (s.rings.push (some onEvict) k tag a s.spilled).1 with
  | pushed => exact .inl (by simp [attempt, ← honEvict, hout])
  | backpressure message => exact .inr (by simp [attempt, ← honEvict, hout])
  | emptyPop => exact absurd hout hpop
  | evictFailed e => exact e.elim

theorem attempt_of_room (s : Pipeline) (u : TagUpdate) (tag : UnifiedTag) (k : String) (a : Bool)
    (hpos : 0 < (s.rings.bufferFor k a).maxDepth)
    (hroom : (s.rings.bufferFor k a).isAlarmStream = true →
      (s.rings.contents k).length < (s.rings.bufferFor k a).maxDepth) :
    ∃ b spilled, s.attempt u tag k a =
        { s with
          phase := .idle
          rings := ⟨s.rings.maxDepth, s.rings.buffers.set k b⟩
          spilled
          handled := s.handled ++ [⟨u, tag, true⟩] } ∧
      b.maxDepth = (s.rings.bufferFor k a).maxDepth ∧
      b.isAlarmStream = (s.rings.bufferFor k a).isAlarmStream ∧
      b.buffer.length ≤ (s.rings.contents k).length + 1 := by
  obtain ⟨b, spilled, hpush, hb⟩ := s.rings.push_succeeds (ε := Empty)
    (fun k x spilled => spilled ++ [(k, x)]) k tag a s.spilled hpos hroom
  refine ⟨b, spilled, ?_, hb⟩
  simp only [attempt, hpush]

variable {rest : List TagUpdate}

theorem Roomy.pushed (h : s.Roomy C)
    (hq : s.queue = u :: rest) {b : RingBuffer UnifiedTag}
    (hrules : s'.alarms.rules = s.alarms.rules) (hqueue : s'.queue = rest)
    (hrings : s'.rings = ⟨s.rings.maxDepth, s.rings.buffers.set (s.keyOf u) b⟩)
    (hflag : b.isAlarmStream =
      (s.rings.bufferFor (s.keyOf u) (s.alarms.hasRule u.tagId)).isAlarmStream)
    (hlen : b.buffer.length ≤ (s.rings.contents (s.keyOf u)).length + 1) (k : String) :
    s'.HasRoom k := by
  by_cases hk : k = s.keyOf u
  · subst hk
    intro halarm
    have hget : s'.rings.buffers.get? (s.keyOf u) = some b := by
      rw [hrings]
      exact Dict.get?_set_self ..
    have hwas : s.AlarmStream (s.keyOf u) := by
      refine alarmStream_of_bufferFor (hq ▸ List.mem_cons_self ..) ?_
      rw [AlarmStream, hget] at halarm
      exact hflag.symm.trans halarm
    have hroom := h.room _ hwas
    have hcount : s.queue.countP (fun v => s.keyOf v = s.keyOf u) =
        rest.countP (fun v => s.keyOf v = s.keyOf u) + 1 := by
      rw [hq, List.countP_cons_of_pos (by simp)]
    have hcontents : s'.rings.contents (s.keyOf u) = b.buffer := by
      rw [RingBufferManager.contents, hget]
      rfl
    have hdepth : s'.rings.maxDepth = s.rings.maxDepth := by rw [hrings]
    simp only [keyOf_congr hrules, hcontents, hqueue, hdepth]
    omega
  · have hget : s'.rings.buffers.get? k = s.rings.buffers.get? k := by
      rw [hrings]
      exact Dict.get?_set_of_ne _ _ hk
    refine (h.room k).of_le hrules (by rw [hrings]) (by rw [hget]) ?_ ?_ ?_
    · rw [RingBufferManager.contents, RingBufferManager.contents, hget]
    · intro v hv _
      rw [hq]
      exact List.mem_cons_of_mem _ (hqueue ▸ hv)
    · rw [hqueue, hq]
      exact (List.sublist_cons_self u rest).countP_le

theorem Roomy.process (h : s.Roomy C) (hq : s.queue = u :: rest) :
    let s' := { s with queue := rest }.process C u
    s'.Roomy C ∧ s'.queue = rest ∧ ∃ d, s'.handled = s.handled ++ [d] ∧ d.update = u := by
  intro s'
  have hbuffer := h.maxDepth_bufferFor (s.keyOf u) (s.alarms.hasRule u.tagId)
  have hroom : (s.rings.bufferFor (s.keyOf u) (s.alarms.hasRule u.tagId)).isAlarmStream = true →
      (s.rings.contents (s.keyOf u)).length < C.ramMaxDepth := by
    intro ha
    have hroom := h.room _ (alarmStream_of_bufferFor (hq ▸ List.mem_cons_self ..) ha)
    rw [h.depth, hq, List.countP_cons_of_pos (by simp)] at hroom
    omega
  obtain ⟨alarms, deadband, tag, hrules, -, hs' | hs'⟩ :=
    process_cases (C := C) { s with queue := rest } u
  · refine ⟨⟨?_, ?_, ?_, fun k => ?_⟩, ?_, ⟨u, tag, false⟩, ?_, rfl⟩
    all_goals simp only [s', hs']
    · exact h.idle
    · exact h.depth
    · exact h.buffers
    · refine (h.room k).of_le hrules rfl rfl le_rfl ?_ ?_
      · intro v hv _
        rw [hq]
        exact List.mem_cons_of_mem _ hv
      · rw [hq]
        exact (List.sublist_cons_self u rest).countP_le
  · obtain ⟨b, spilled, hpushed, hdepth, hflag, hlen⟩ := attempt_of_room
      { s with queue := rest, alarms, deadband } u tag (s.keyOf u) (s.alarms.hasRule u.tagId)
      (by rw [hbuffer]; exact C.ramMaxDepth_pos) (by rw [hbuffer]; exact hroom)
    have hs'' := hs'.trans hpushed
    refine ⟨⟨?_, ?_, fun k c hc => ?_, fun k => ?_⟩, ?_, ⟨u, tag, true⟩, ?_, rfl⟩
    · simp only [s', hs'']
    · simp only [s', hs'']
      exact h.depth
    · simp only [s', hs'', Dict.get?_set] at hc
      split at hc
      · cases hc
        exact hdepth.trans hbuffer
      · exact h.buffers k c hc
    · simp only [s', hs'']
      exact h.pushed hq hrules rfl rfl hflag hlen k
    · simp only [s', hs'']
    · simp only [s', hs'']

theorem step_take (hidle : s.phase = .idle) (hq : s.queue = u :: rest) :
    s.step C .take = some ({ s with queue := rest }.process C u) := by
  simp only [step, hidle, hq]

theorem roomy_step {e : PipelineEvent} (h : s.Roomy C) (hG : s.QueuesWithRoom e)
    (hstep : s.step C e = some s') : s'.Roomy C := by
  cases e with
  | put u =>
    simp only [step] at hstep
    split at hstep <;> cases hstep
    refine ⟨h.idle, h.depth, h.buffers, fun k => ?_⟩
    by_cases hk : k = s.keyOf u
    · exact hk ▸ hG
    · refine (h.room k).of_le rfl rfl rfl le_rfl ?_ ?_
      · intro v hv hkey
        rcases List.mem_append.1 hv with hv | hv
        · exact hv
        · rw [List.mem_singleton.1 hv] at hkey
          exact absurd hkey.symm hk
      · simp [List.countP_append, Ne.symm hk]
  | take =>
    simp only [step] at hstep
    split at hstep
    · next u rest hphase hq =>
      cases hstep
      exact (h.process hq).1
    · cases hstep
  | retry =>
    simp only [step, h.idle] at hstep
    cases hstep
  | drain n =>
    cases hstep
    refine ⟨h.idle, h.depth, fun k b hb => ?_, fun k => ?_⟩
    · simp only [RingBufferManager.drainAll, Dict.get?_mapValues] at hb
      obtain ⟨b₀, hb₀, rfl⟩ := Option.map_eq_some_iff.1 hb
      exact h.buffers k b₀ hb₀
    · refine (h.room k).of_le rfl rfl ?_ ?_ (fun v hv _ => hv) le_rfl
      · simp only [RingBufferManager.drainAll, Dict.get?_mapValues, Option.map_map]
        rfl
      · exact (s.rings.contents_drainAll_suffix n k).length_le
  | operate call =>
    cases hstep
    exact ⟨h.idle, h.depth, h.buffers, fun k => (h.room k).of_le (s.alarms.rules_operate call) rfl
      rfl le_rfl (fun v hv _ => hv) le_rfl⟩

end Pipeline

def pipelineMachine (C : PipelineConfig) : Machine Pipeline PipelineEvent := ⟨Pipeline.step C⟩

namespace Pipeline

variable {C : PipelineConfig} {s s' : Pipeline}

/-- A sample has the value that `normalize` gives its update. -/
def Normalized (C : PipelineConfig) (u : TagUpdate) (tag : UnifiedTag) : Prop :=
  tag.value = (normalize u (C.tagConfigs.get? u.tagId)).value

structure Traced (C : PipelineConfig) (s : Pipeline) : Prop where
  handled : ∀ h ∈ s.handled, Normalized C h.update h.tag
  retrying : ∀ u tag k a, s.phase = .retrying u tag k a → Normalized C u tag
  buffered : ∀ k, ∀ x ∈ s.rings.contents k, ∃ h ∈ s.handled, h.published = true ∧ h.tag = x

theorem traced_new (C : PipelineConfig) : (new C).Traced C where
  handled h hh := by cases hh
  retrying u tag k a hphase := by cases hphase
  buffered k x hx := by cases hx

theorem Traced.handled_concat (h : s.Traced C) {d : Handled} (hd : Normalized C d.update d.tag) :
    ∀ h ∈ s.handled ++ [d], Normalized C h.update h.tag := by
  intro g hg
  rcases List.mem_append.1 hg with hg | hg
  · exact h.handled g hg
  · rwa [List.mem_singleton.1 hg]

theorem Traced.attempt (h : s.Traced C) {u : TagUpdate} {tag : UnifiedTag}
    (hn : Normalized C u tag) (k : String) (a : Bool) : (s.attempt u tag k a).Traced C := by
  have hspec := s.rings.push_spec (ε := Empty)
    (fun k x (spilled : List (String × UnifiedTag)) => spilled ++ [(k, x)]) k tag a s.spilled
  set r := s.rings.push (ε := Empty) (some fun k x spilled => .ok (spilled ++ [(k, x)])) k tag a
    s.spilled with hr
  rcases hspec with ⟨hok, hpushed, hother⟩ | ⟨hfailed, hsame, -⟩
  · have hs' : s.attempt u tag k a = { s with
        rings := r.2.1, spilled := r.2.2, phase := .idle
        handled := s.handled ++ [⟨u, tag, true⟩] } := by
      simp only [Pipeline.attempt, ← hr, hok]
    rw [hs']
    refine ⟨h.handled_concat hn, fun u tag k a hphase => (by cases hphase), fun j x hx => ?_⟩
    have hold : x ∈ s.rings.contents j ∨ x = tag := by
      by_cases hj : j = k
      · subst hj
        rcases hpushed with ⟨hnew, -⟩ | ⟨y, rest, hcontents, hnew, -⟩
        · rw [hnew, List.mem_append, List.mem_singleton] at hx
          exact hx
        · rw [hnew, List.mem_append, List.mem_singleton] at hx
          rw [hcontents]
          exact hx.imp_left (List.mem_cons_of_mem _)
      · exact .inl (hother j hj ▸ hx)
    rcases hold with hx | rfl
    · obtain ⟨g, hg, hgx⟩ := h.buffered j x hx
      exact ⟨g, List.mem_append_left _ hg, hgx⟩
    · exact ⟨⟨u, x, true⟩, List.mem_append_right _ (List.mem_singleton_self _), rfl, rfl⟩
  · have hbuffered : ∀ j, ∀ x ∈ r.2.1.contents j,
        ∃ g ∈ s.handled, g.published = true ∧ g.tag = x :=
      fun j x hx => h.buffered j x (hsame j ▸ hx)
    cases hout : r.1 with
    | pushed => exact absurd hout hfailed
    | backpressure message =>
      simp only [Pipeline.attempt, ← hr, hout]
      refine ⟨h.handled, fun u' tag' k' a' hphase => ?_, hbuffered⟩
      cases hphase
      exact hn
    | emptyPop =>
      simp only [Pipeline.attempt, ← hr, hout]
      exact ⟨h.handled, fun u' tag' k' a' hphase => (by cases hphase), hbuffered⟩
    | evictFailed e => exact e.elim

theorem traced_step {e : PipelineEvent} (h : s.Traced C) (hstep : s.step C e = some s') :
    s'.Traced C := by
  cases e with
  | put u =>
    simp only [step] at hstep
    split at hstep <;> cases hstep
    exact ⟨h.handled, h.retrying, h.buffered⟩
  | take =>
    simp only [step] at hstep
    split at hstep
    · next u rest hphase hq =>
      cases hstep
      obtain ⟨alarms, deadband, tag, -, hn, hs' | hs'⟩ :=
        process_cases (C := C) { s with queue := rest } u
      · rw [hs']
        refine ⟨h.handled_concat hn, h.retrying, fun k x hx => ?_⟩
        obtain ⟨g, hg, hgx⟩ := h.buffered k x hx
        exact ⟨g, List.mem_append_left _ hg, hgx⟩
      · rw [hs']
        have htraced : { s with queue := rest, alarms, deadband }.Traced C :=
          ⟨h.handled, h.retrying, h.buffered⟩
        exact htraced.attempt hn _ _
    · cases hstep
  | retry =>
    simp only [step] at hstep
    split at hstep
    · next u tag k a hphase =>
      cases hstep
      exact h.attempt (h.retrying u tag k a hphase) k a
    · cases hstep
  | drain n =>
    cases hstep
    exact ⟨h.handled, h.retrying, fun k x hx =>
      h.buffered k x ((s.rings.contents_drainAll_suffix n k).subset hx)⟩
  | operate call =>
    cases hstep
    exact ⟨h.handled, h.retrying, h.buffered⟩

theorem traced_run {es : List PipelineEvent} (hrun : (pipelineMachine C).run (new C) es = some s) :
    s.Traced C :=
  (pipelineMachine C).inv_run (fun _ _ _ h hstep => traced_step h hstep) (traced_new C) hrun

end Pipeline

def PipelineEvent.isDrain : PipelineEvent → Bool
  | .drain _ => true
  | _ => false

namespace Pipeline

variable {C : PipelineConfig} {s : Pipeline}

theorem Roomy.takes (h : s.Roomy C) {pre post : List TagUpdate} {u : TagUpdate}
    (hq : s.queue = pre ++ u :: post) :
    ∃ s' before d, (pipelineMachine C).run s (List.replicate (pre.length + 1) .take) = some s' ∧
      s'.queue = post ∧ s'.handled = s.handled ++ before ++ [d] ∧ d.update = u := by
  induction pre generalizing s with
  | nil =>
    obtain ⟨-, hqueue, d, hd, hu⟩ := h.process hq
    refine ⟨_, [], d, ?_, hqueue, by rw [hd, List.append_nil], hu⟩
    rw [List.length_nil, List.replicate_succ, Machine.run_cons]
    exact congrArg (Option.bind · _) (step_take h.idle hq)
  | cons v pre ih =>
    obtain ⟨hroomy, hqueue, d, hd, -⟩ := h.process hq
    obtain ⟨s', before, d', hrun, hqueue', hd', hu⟩ := ih hroomy hqueue
    refine ⟨s', d :: before, d', ?_, hqueue', ?_, hu⟩
    · rw [List.length_cons, List.replicate_succ, Machine.run_cons]
      exact (congrArg (Option.bind · _) (step_take h.idle hq)).trans hrun
    · rw [hd', hd]
      simp

end Pipeline

/-- An alarm on the pressure of a boiler, and buffers of one sample and `n` more. -/
def pressureAlarm (n : Nat) : PipelineConfig where
  tagConfigs := .empty
  alarmRules := .ofList [("boiler/pressure", ⟨some 10, none, none, none, none⟩)]
  ramMaxDepth := n + 1
  ramMaxDepth_pos := n.succ_pos

def goodUpdate (driver tag : String) (value : Int) : TagUpdate :=
  ⟨qualifiedId driver tag, .int value, .good, 0, none, driver, "40001"⟩

def risingPressure : List PipelineEvent :=
  [.put (goodUpdate "boiler" "pressure" 9), .take, .put (goodUpdate "boiler" "pressure" 11),
    .put (goodUpdate "pump" "flow" 3)]

namespace Pipeline

variable {C : PipelineConfig} {s s' : Pipeline}

/-- The consumer retries on a full alarm stream, with an update behind it in the queue. -/
structure Stuck (u : TagUpdate) (handled : List Handled) (s : Pipeline) : Prop where
  retrying : ∃ v tag k a b, s.phase = .retrying v tag k a ∧ s.rings.buffers.get? k = some b ∧
    b.isAlarmStream = true ∧ b.maxDepth ≤ b.buffer.length
  waiting : u ∈ s.queue
  unchanged : s.handled = handled

theorem stuck_step {u : TagUpdate} {handled : List Handled} {e : PipelineEvent}
    (h : s.Stuck u handled) (he : e.isDrain = false) (hstep : s.step C e = some s') :
    s'.Stuck u handled := by
  obtain ⟨v, tag, k, a, b, hphase, hb, halarm, hfull⟩ := h.retrying
  cases e with
  | put v =>
    simp only [step] at hstep
    split at hstep <;> cases hstep
    exact ⟨h.retrying, List.mem_append_left _ h.waiting, h.unchanged⟩
  | take =>
    simp only [step, hphase] at hstep
    cases hstep
  | retry =>
    simp only [step, hphase] at hstep
    cases hstep
    have hbuffer : s.rings.bufferFor k a = b := by rw [RingBufferManager.bufferFor, hb]; rfl
    simp only [attempt, RingBufferManager.push, hbuffer, RingBuffer.push_backpressure _ b tag _
      halarm hfull]
    exact ⟨⟨v, tag, k, a, b, rfl, Dict.get?_set_self .., halarm, hfull⟩, h.waiting, h.unchanged⟩
  | drain => cases he
  | operate call =>
    cases hstep
    exact ⟨h.retrying, h.waiting, h.unchanged⟩

end Pipeline

end XEdge.Core
