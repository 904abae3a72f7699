import XEdge.Core.Consumer

/-!
# Evictions that the cold store refuses

A full ordinary buffer hands its oldest sample to the cold store before it takes the new one.  The
store may raise: the disk is full, or the database is locked.  `RingBuffer.push` has popped the
sample by then, and of the exceptions of a push the consumer catches the backpressure of an alarm
buffer only.
-/

namespace XEdge.Core

open Lib Store

/-- What `sqlite3` raises. -/
inductive StoreError where
  | diskFull
  | locked
  deriving DecidableEq, Repr

namespace Pipeline

variable (C : PipelineConfig)

/-- `append` of the cold store, which keeps the sample or refuses it. -/
def spill (refusal : Option StoreError) (key : String) (tag : UnifiedTag)
    (stored : List (String × UnifiedTag)) : Except StoreError (List (String × UnifiedTag)) :=
  match refusal with
  | none => .ok (stored ++ [(key, tag)])
  | some error => .error error

/-- One attempt of `_push_with_backpressure_retry`. -/
def attemptSpilling (refusal : Option StoreError) (s : Pipeline) (update : TagUpdate)
    (tag : UnifiedTag) (key : String) (isAlarmStream : Bool) : Pipeline :=
  let r := s.rings.push (some (spill refusal)) key tag isAlarmStream s.spilled
  let s' := { s with rings := r.2.1, spilled := r.2.2 }
  match r.1 with
  | .pushed => { s' with phase := .idle, handled := s.handled ++ [⟨update, tag, true⟩] }
  | .backpressure _ => { s' with phase := .retrying update tag key isAlarmStream }
  -- no other exception is caught, and it ends the task
  | .emptyPop | .evictFailed _ => { s' with phase := .crashed }

/-- The body of the loop of `_pipeline_to_buffer`, for the update it took. -/
def processSpilling (refusal : Option StoreError) (s : Pipeline) (update : TagUpdate) : Pipeline :=
  let config := C.tagConfigs.get? update.tagId
  let (tag, alarms) := s.alarms.evaluate (normalize update config)
  let (publish, deadband) := s.deadband.shouldPublish tag (config.bind TagPipelineConfig.deadband)
  let s' := { s with alarms, deadband }
  if publish then
    s'.attemptSpilling refusal update tag (streamKey alarms tag.tagId tag.sourceDriver)
      (alarms.hasRule tag.tagId)
  else { s' with handled := s.handled ++ [⟨update, tag, false⟩] }

/-- The next step of the consumer: it takes an update, or pushes again. -/
def consume (refusal : Option StoreError) (s : Pipeline) : Option Pipeline :=
  match s.phase, s.queue with
  | .idle, update :: rest => some ({ s with queue := rest }.processSpilling C refusal update)
  | .retrying update tag key isAlarmStream, _ =>
      some (s.attemptSpilling refusal update tag key isAlarmStream)
  | _, _ => none

/-- What the next step of the consumer pushes: the sample, the stream and its kind. -/
def nextPush (s : Pipeline) : Option (UnifiedTag × String × Bool) :=
  match s.phase, s.queue with
  | .idle, update :: _ =>
      let config := C.tagConfigs.get? update.tagId
      let (tag, alarms) := s.alarms.evaluate (normalize update config)
      if (s.deadband.shouldPublish tag (config.bind TagPipelineConfig.deadband)).1 then
        some (tag, streamKey alarms tag.tagId tag.sourceDriver, alarms.hasRule tag.tagId)
      else none
  | .retrying _ tag key isAlarmStream, _ => some (tag, key, isAlarmStream)
  | _, _ => none

/-- A push to the stream evicts: its buffer is full, and no alarm buffer. -/
def Evicts (s : Pipeline) (key : String) (isAlarmStream : Bool) : Prop :=
  (s.rings.bufferFor key isAlarmStream).maxDepth ≤ (s.rings.contents key).length ∧
    (s.rings.bufferFor key isAlarmStream).isAlarmStream = false ∧ s.rings.contents key ≠ []

def RefusedEviction (refusal : Option StoreError) (s : Pipeline) : Prop :=
  refusal ≠ none ∧ ∃ tag key isAlarmStream,
    s.nextPush C = some (tag, key, isAlarmStream) ∧ s.Evicts key isAlarmStream

def NoLoss (s s' : Pipeline) : Prop :=
  ∀ key x, (s.rings.contents key).count x + s.spilled.count (key, x) ≤
    (s'.rings.contents key).count x + s'.spilled.count (key, x)

def GoesOn (s : Pipeline) : Prop :=
  ∀ u, ∃ es s' d, (pipelineMachine C).run { s with queue := s.queue ++ [u] } es = some s' ∧
    s'.queue = [] ∧ s'.handled.getLast? = some d ∧ d.update = u

variable {C} {s s' : Pipeline} {refusal : Option StoreError}

/-! ## The store that keeps what it is handed -/

theorem attemptSpilling_none (s : Pipeline) (u : TagUpdate) (tag : UnifiedTag) (k : String)
    (a : Bool) : s.attemptSpilling none u tag k a = s.attempt u tag k a := by
  simp only [attemptSpilling, attempt, RingBufferManager.push]
  generalize s.rings.bufferFor k a = b
  obtain ⟨d, isAlarmStream, l, n, hbounded⟩ := b
  by_cases hfull : d ≤ l.length
  · cases isAlarmStream with
    | true => simp [RingBuffer.push, hfull]
    | false =>
      cases l with
      | nil =>
        rw [List.length_nil, Nat.le_zero] at hfull
        simp [RingBuffer.push, hfull]
      | cons x rest =>
        rw [List.length_cons] at hfull
        simp [RingBuffer.push, hfull, spill]
  · simp [RingBuffer.push, hfull]

/-- With a store that keeps what it is handed, the next step of the consumer is a step of the
pipeline. -/
theorem consume_none (s : Pipeline) :
    s.consume C none = (s.step C .take).or (s.step C .retry) := by
  have hprocess : ∀ (s : Pipeline) (u : TagUpdate),
      s.processSpilling C none u = s.process C u := by
    intro s u
    simp only [processSpilling, process, attemptSpilling_none]
  unfold consume
  cases hphase : s.phase with
  | idle =>
    cases hqueue : s.queue with
    | nil => simp [step, hphase, hqueue]
    | cons u rest => simp [step, hphase, hqueue, hprocess]
  | retrying u tag k a => simp [step, hphase, attemptSpilling_none]
  | crashed => simp [step, hphase]

/-! ## What a step does to the samples -/

theorem consume_cases (h : s.consume C refusal = some s') :
    (s.nextPush C = none ∧ s'.rings = s.rings ∧ s'.spilled = s.spilled ∧ s'.phase = .idle) ∨
      ∃ (t : Pipeline) (u : TagUpdate) (tag : UnifiedTag) (k : String) (a : Bool),
        s' = t.attemptSpilling refusal u tag k a ∧ s.nextPush C = some (tag, k, a) ∧
          t.rings = s.rings ∧ t.spilled = s.spilled := by
  unfold consume at h
  split at h
  · next u rest hidle hqueue =>
    cases h
    simp only [nextPush, hidle, hqueue, processSpilling]
    split
    · exact .inr ⟨_, u, _, _, _, rfl, rfl, rfl, rfl⟩
    · exact .inl ⟨rfl, rfl, rfl, rfl⟩
  · next u tag k a hretrying =>
    cases h
    simp only [nextPush, hretrying]
    exact .inr ⟨s, u, tag, k, a, rfl, rfl, rfl, rfl⟩
  · cases h

/-- What an attempt to push to the stream `k` can end in. -/
inductive Attempted (refusal : Option StoreError) (s s' : Pipeline) (u : TagUpdate)
    (tag : UnifiedTag) (k : String) (a : Bool) : Prop
  | appended (hkept : ¬ s.Evicts k a) (hphase : s'.phase = .idle)
      (hcontents : s'.rings.contents k = s.rings.contents k ++ [tag])
      (hspilled : s'.spilled = s.spilled)
  | refused (hkept : ¬ s.Evicts k a) (hphase : s.rings.Deep → s'.phase = .retrying u tag k a)
      (hcontents : s'.rings.contents k = s.rings.contents k) (hspilled : s'.spilled = s.spilled)
  | stored (x : UnifiedTag) (rest : List UnifiedTag) (hheld : s.rings.contents k = x :: rest)
      (hstore : refusal = none) (hphase : s'.phase = .idle)
      (hcontents : s'.rings.contents k = rest ++ [tag])
      (hspilled : s'.spilled = s.spilled ++ [(k, x)])
  | lost (x : UnifiedTag) (rest : List UnifiedTag) (hheld : s.rings.contents k = x :: rest)
      (hstore : refusal ≠ none) (hevicts : s.Evicts k a) (hphase : s'.phase = .crashed)
      (hcontents : s'.rings.contents k = rest) (hspilled : s'.spilled = s.spilled)

theorem rings_attemptSpilling (refusal : Option StoreError) (s : Pipeline) (u : TagUpdate)
    (tag : UnifiedTag) (k : String) (a : Bool) :
    (s.attemptSpilling refusal u tag k a).rings =
      (s.rings.push (some (spill refusal)) k tag a s.spilled).2.1 := by
  unfold attemptSpilling
  dsimp only
  split <;> rfl

variable {k : String}

theorem contents_attemptSpilling_of_ne (refusal : Option StoreError) (s : Pipeline) (u : TagUpdate)
    (tag : UnifiedTag) {j : String} (hj : j ≠ k) (a : Bool) :
    (s.attemptSpilling refusal u tag k a).rings.contents j = s.rings.contents j := by
  rw [rings_attemptSpilling]
  simp only [RingBufferManager.push, RingBufferManager.contents, Dict.get?_set_of_ne _ _ hj]

theorem attemptSpilling_of_push (refusal : Option StoreError) (s : Pipeline) (u : TagUpdate)
    (tag : UnifiedTag) (k : String) (a : Bool) :
    let r := (s.rings.bufferFor k a).push (some (spill refusal k)) tag s.spilled
    let s' := s.attemptSpilling refusal u tag k a
    s'.rings.contents k = r.2.1.buffer ∧ s'.spilled = r.2.2 ∧
      (r.1 = .pushed → s'.phase = .idle) ∧
      (∀ message, r.1 = .backpressure message → s'.phase = .retrying u tag k a) ∧
      ∀ error, r.1 = .evictFailed error → s'.phase = .crashed := by
  intro r s'
  have hpush : s.rings.push (some (spill refusal)) k tag a s.spilled =
      (r.1, ⟨s.rings.maxDepth, s.rings.buffers.set k r.2.1⟩, r.2.2) := rfl
  have hcontents : RingBufferManager.contents
      ⟨s.rings.maxDepth, s.rings.buffers.set k r.2.1⟩ k = r.2.1.buffer := by
    simp [RingBufferManager.contents]
  simp only [s', attemptSpilling, hpush]
  cases r.1 with
  | pushed | backpressure | emptyPop | evictFailed => simp [hcontents]

theorem attempted (refusal : Option StoreError) (s : Pipeline) (u : TagUpdate) (tag : UnifiedTag)
    (k : String) (a : Bool) :
    Attempted refusal s (s.attemptSpilling refusal u tag k a) u tag k a := by
  obtain ⟨hcontents, hspilled, hpushed, hrefused, hfailed⟩ :=
    s.attemptSpilling_of_push refusal u tag k a
  have hbuffer := s.rings.buffer_bufferFor k a
  by_cases hroom : (s.rings.bufferFor k a).buffer.length < (s.rings.bufferFor k a).maxDepth
  · obtain ⟨hout, hnew, hsame⟩ :=
      (s.rings.bufferFor k a).push_of_room (some (spill refusal k)) tag s.spilled hroom
    refine .appended ?_ (hpushed hout) (hcontents.trans (hnew.trans ?_)) (hspilled.trans hsame)
    · rintro ⟨hfull, -, -⟩
      rw [← hbuffer] at hfull
      exact absurd hfull (Nat.not_le.2 hroom)
    · rw [hbuffer]
  · rw [Nat.not_lt] at hroom
    cases halarm : (s.rings.bufferFor k a).isAlarmStream with
    | true =>
      rw [RingBuffer.push_backpressure _ _ tag _ halarm hroom] at hcontents hspilled hrefused
      refine .refused ?_ (fun _ => hrefused _ rfl) (hcontents.trans hbuffer) hspilled
      rintro ⟨-, hordinary, -⟩
      rw [halarm] at hordinary
      cases hordinary
    | false =>
      cases hheld : (s.rings.bufferFor k a).buffer with
      | nil =>
        rw [RingBuffer.push_of_nil _ _ tag s.spilled hroom halarm hheld] at hcontents hspilled
        refine .refused ?_ (fun hdeep => ?_) (hcontents.trans hbuffer) hspilled
        · rintro ⟨-, -, hne⟩
          exact hne (hbuffer.symm.trans hheld)
        · rw [hheld, List.length_nil] at hroom
          exact absurd (hdeep.bufferFor k a) (Nat.not_lt.2 hroom)
      | cons x rest =>
        obtain ⟨hstored, hlost⟩ := RingBuffer.push_of_full (spill refusal k) _ tag s.spilled hroom
          halarm hheld
        cases refusal with
        | none =>
          obtain ⟨hout, hnew, hspill⟩ := hstored _ rfl
          exact .stored x rest (hbuffer.symm.trans hheld) rfl (hpushed hout) (hcontents.trans hnew)
            (hspilled.trans hspill)
        | some error =>
          obtain ⟨hout, hnew, hspill⟩ := hlost _ rfl
          refine .lost x rest (hbuffer.symm.trans hheld) (by simp) ?_ (hfailed _ hout)
            (hcontents.trans hnew) (hspilled.trans hspill)
          exact ⟨hbuffer ▸ hroom, halarm, by rw [← hbuffer, hheld]; simp⟩

/-! ## What is lost -/

theorem noLoss_iff (hothers : ∀ j, j ≠ k → s'.rings.contents j = s.rings.contents j)
    (hspilled : ∀ j x, j ≠ k → s'.spilled.count (j, x) = s.spilled.count (j, x)) :
    s.NoLoss s' ↔ ∀ x, (s.rings.contents k).count x + s.spilled.count (k, x) ≤
      (s'.rings.contents k).count x + s'.spilled.count (k, x) := by
  constructor
  · intro h x
    exact h k x
  · intro h j x
    by_cases hj : j = k
    · subst hj
      exact h x
    · rw [hothers j hj, hspilled j x hj]

theorem noLoss_attemptSpilling_iff (refusal : Option StoreError) (s : Pipeline) (u : TagUpdate)
    (tag : UnifiedTag) (k : String) (a : Bool) :
    s.NoLoss (s.attemptSpilling refusal u tag k a) ↔ ¬ (refusal ≠ none ∧ s.Evicts k a) := by
  have hothers : ∀ j, j ≠ k →
      (s.attemptSpilling refusal u tag k a).rings.contents j = s.rings.contents j :=
    fun j hj => contents_attemptSpilling_of_ne refusal s u tag hj a
  cases attempted refusal s u tag k a with
  | appended hkept _ hcontents hspilled =>
    rw [noLoss_iff hothers fun _ _ _ => by rw [hspilled]]
    refine ⟨fun _ h => hkept h.2, fun _ x => ?_⟩
    rw [hcontents, hspilled, List.count_append]
    omega
  | refused hkept _ hcontents hspilled =>
    rw [noLoss_iff hothers fun _ _ _ => by rw [hspilled]]
    refine ⟨fun _ h => hkept h.2, fun _ x => ?_⟩
    rw [hcontents, hspilled]
  | stored y rest hheld hstore _ hcontents hspilled =>
    have hcount : ∀ j x, j ≠ k → (s.attemptSpilling refusal u tag k a).spilled.count (j, x) =
        s.spilled.count (j, x) := by
      intro j x hj
      rw [hspilled, List.count_append]
      simp [Ne.symm hj]
    rw [noLoss_iff hothers hcount]
    refine ⟨fun _ h => h.1 hstore, fun _ x => ?_⟩
    rw [hcontents, hspilled, hheld, List.count_append, List.count_append, List.count_cons]
    by_cases hx : y = x
    · subst hx
      simp only [beq_self_eq_true, if_true, List.count_singleton_self]
      omega
    · simp only [beq_iff_eq, hx, if_false]
      omega
  | lost y rest hheld hstore hevicts _ hcontents hspilled =>
    rw [noLoss_iff hothers fun _ _ _ => by rw [hspilled]]
    refine ⟨fun h => ?_, fun h => absurd ⟨hstore, hevicts⟩ h⟩
    have hfewer := h y
    rw [hcontents, hspilled, hheld, List.count_cons_self] at hfewer
    omega

/-! ## Whether the consumer goes on -/

variable {u : TagUpdate}

theorem settles {tag : UnifiedTag} {a : Bool} (hdeep : s.rings.Deep)
    (hphase : s.phase = .retrying u tag k a) :
    ∃ t, (pipelineMachine C).run s [.drain none, .retry] = some t ∧ t.phase = .idle ∧
      t.rings.Deep ∧ t.queue = s.queue ∧ t.handled = s.handled ++ [⟨u, tag, true⟩] := by
  set d : Pipeline := { s with rings := (s.rings.drainAll none).2 } with hd
  have hdrained : d.rings.Deep := hdeep.drainAll none
  have hpos := hdrained.bufferFor k a
  have hroom : (d.rings.contents k).length < (d.rings.bufferFor k a).maxDepth := by
    rw [hd, RingBufferManager.contents_drainAll]
    exact hpos
  have hretry : (pipelineMachine C).run s [.drain none, .retry] = some (d.attempt u tag k a) := by
    have hphase' : d.phase = .retrying u tag k a := hphase
    have hstep : (pipelineMachine C).step d .retry = some (d.attempt u tag k a) := by
      simp only [pipelineMachine, step, hphase']
    exact ((pipelineMachine C).run_singleton d .retry).trans hstep
  obtain ⟨b, spilled, hattempt, hdepth, -, -⟩ := d.attempt_of_room u tag k a hpos fun _ => hroom
  refine ⟨_, hretry, ?_, ?_, ?_, ?_⟩
  · rw [hattempt]
  · rw [hattempt]
    refine ⟨hdrained.created, fun j c hc => ?_⟩
    simp only [Dict.get?_set] at hc
    split at hc
    · cases hc
      exact hdepth ▸ hpos
    · exact hdrained.buffers j c hc
  · rw [hattempt]
  · rw [hattempt]

theorem handles_next {rest : List TagUpdate} (hdeep : s.rings.Deep)
    (hidle : s.phase = .idle) (hqueue : s.queue = u :: rest) :
    ∃ es t d, (pipelineMachine C).run s es = some t ∧ t.phase = .idle ∧ t.rings.Deep ∧
      t.queue = rest ∧ t.handled = s.handled ++ [d] ∧ d.update = u := by
  have htake := step_take (C := C) hidle hqueue
  obtain ⟨alarms, deadband, tag, -, -, hs' | hs'⟩ :=
    process_cases (C := C) { s with queue := rest } u
  · refine ⟨[.take], _, ⟨u, tag, false⟩, ((pipelineMachine C).run_singleton s .take).trans htake,
      ?_⟩
    rw [hs']
    exact ⟨hidle, hdeep, rfl, rfl, rfl⟩
  · have hbase : { s with queue := rest, alarms, deadband }.rings.Deep := hdeep
    obtain ⟨rings, spilled, hnew, hdone | hretry⟩ := attempt_cases hbase u tag
      ({ s with queue := rest }.keyOf u) (s.alarms.hasRule u.tagId)
    · refine ⟨[.take], _, ⟨u, tag, true⟩, ((pipelineMachine C).run_singleton s .take).trans htake,
        ?_⟩
      rw [hs'.trans hdone]
      exact ⟨rfl, hnew, rfl, rfl, rfl⟩
    · rw [hs'.trans hretry] at htake
      obtain ⟨t, hrun, hphase, hdeep', hrest, hhandled⟩ := settles (C := C) (s := { s with
        queue := rest, alarms, deadband, rings, spilled
        phase := .retrying u tag ({ s with queue := rest }.keyOf u) (s.alarms.hasRule u.tagId) })
        hnew rfl
      refine ⟨[.take, .drain none, .retry], t, ⟨u, tag, true⟩, ?_, hphase, hdeep', hrest, hhandled,
        rfl⟩
      rw [Machine.run_cons]
      exact (congrArg (Option.bind · _) htake).trans hrun

theorem handles_all {earlier : List TagUpdate} (hdeep : s.rings.Deep)
    (hidle : s.phase = .idle) (hqueue : s.queue = earlier ++ [u]) :
    ∃ es t d, (pipelineMachine C).run s es = some t ∧ t.queue = [] ∧
      t.handled.getLast? = some d ∧ d.update = u := by
  induction earlier generalizing s with
  | nil =>
    obtain ⟨es, t, d, hrun, -, -, hrest, hhandled, hu⟩ := handles_next (C := C) hdeep hidle hqueue
    exact ⟨es, t, d, hrun, hrest, by rw [hhandled, List.getLast?_concat], hu⟩
  | cons v earlier ih =>
    obtain ⟨es, t, -, hrun, hidle', hdeep', hrest, -, -⟩ :=
      handles_next (C := C) hdeep hidle hqueue
    obtain ⟨es', t', d, hrun', hdone⟩ := ih hdeep' hidle' hrest
    refine ⟨es ++ es', t', d, ?_, hdone⟩
    rw [Machine.run_append, hrun]
    exact hrun'

theorem goesOn_of_running (hdeep : s.rings.Deep) (hphase : s.phase ≠ .crashed) : s.GoesOn C := by
  intro u
  have hcases : s.phase = .idle ∨ ∃ v tag k a, s.phase = .retrying v tag k a := by
    cases hcase : s.phase with
    | idle => exact .inl rfl
    | retrying v tag k a => exact .inr ⟨v, tag, k, a, rfl⟩
    | crashed => exact absurd hcase hphase
  rcases hcases with hidle | ⟨v, tag, k, a, hretrying⟩
  · exact handles_all (s := { s with queue := s.queue ++ [u] }) hdeep hidle rfl
  · obtain ⟨t, hrun, hidle, hdeep', hqueue, -⟩ :=
      settles (C := C) (s := { s with queue := s.queue ++ [u] }) hdeep hretrying
    obtain ⟨es, t', d, hrun', hdone⟩ := handles_all (C := C) hdeep' hidle hqueue
    refine ⟨[.drain none, .retry] ++ es, t', d, ?_, hdone⟩
    rw [Machine.run_append, hrun]
    exact hrun'

theorem crashed_run {es : List PipelineEvent} (hphase : s.phase = .crashed)
    (hrun : (pipelineMachine C).run s es = some s') :
    s'.phase = .crashed ∧ s'.handled = s.handled ∧ s.queue <+: s'.queue := by
  refine (pipelineMachine C).inv_run
    (I := fun t => t.phase = .crashed ∧ t.handled = s.handled ∧ s.queue <+: t.queue) ?_
    ⟨hphase, rfl, List.prefix_rfl⟩ hrun
  rintro t e t' ⟨hcrashed, hhandled, hqueue⟩ hstep
  cases e with
  | put u =>
    simp only [pipelineMachine, step] at hstep
    split at hstep <;> cases hstep
    exact ⟨hcrashed, hhandled, hqueue.trans (List.prefix_append _ _)⟩
  | take | retry =>
    simp only [pipelineMachine, step, hcrashed] at hstep
    cases hstep
  | drain | operate =>
    cases hstep
    exact ⟨hcrashed, hhandled, hqueue⟩

theorem not_goesOn_of_crashed (hphase : s.phase = .crashed) : ¬ s.GoesOn C := by
  intro h
  set u : TagUpdate := ⟨"", .bool false, .good, 0, none, "", ""⟩
  obtain ⟨es, t, d, hrun, hempty, -⟩ := h u
  obtain ⟨-, -, hqueue⟩ := crashed_run (s := { s with queue := s.queue ++ [u] }) hphase hrun
  rw [hempty] at hqueue
  simp at hqueue

theorem goesOn_attemptSpilling_iff (refusal : Option StoreError) (hdeep : s.rings.Deep)
    (u : TagUpdate) (tag : UnifiedTag) (k : String) (a : Bool) :
    (s.attemptSpilling refusal u tag k a).GoesOn C ↔ ¬ (refusal ≠ none ∧ s.Evicts k a) := by
  have hdeep' : (s.attemptSpilling refusal u tag k a).rings.Deep := by
    rw [rings_attemptSpilling]
    exact hdeep.push _ k tag a s.spilled
  cases attempted refusal s u tag k a with
  | appended hkept hphase _ _ =>
    exact iff_of_true (goesOn_of_running hdeep' (by simp [hphase])) fun h => hkept h.2
  | refused hkept hphase _ _ =>
    exact iff_of_true (goesOn_of_running hdeep' (by simp [hphase hdeep])) fun h => hkept h.2
  | stored _ _ _ hstore hphase _ _ =>
    exact iff_of_true (goesOn_of_running hdeep' (by simp [hphase])) fun h => h.1 hstore
  | lost _ _ _ hstore hevicts hphase _ _ =>
    exact iff_of_false (not_goesOn_of_crashed hphase) (not_not.2 ⟨hstore, hevicts⟩)

end Pipeline

open Pipeline

/-- **What a refused eviction does.**  A step of the consumer loses a sample, and ends the
consumer, exactly if it evicts a sample that the cold store refuses.  For the second, no buffer
may have depth zero, which the configuration rules out. -/
theorem eviction_atomic_iff (C : PipelineConfig) (refusal : Option StoreError) {s s' : Pipeline}
    (hstep : s.consume C refusal = some s') :
    (s.NoLoss s' ↔ ¬ s.RefusedEviction C refusal) ∧
      (s.rings.Deep → (s'.GoesOn C ↔ ¬ s.RefusedEviction C refusal)) := by
  rcases consume_cases hstep with ⟨hpush, hrings, hspilled, hphase⟩ |
    ⟨t, u, tag, k, a, rfl, hpush, hrings, hspilled⟩
  · have hnone : ¬ s.RefusedEviction C refusal := by
      rintro ⟨-, tag, k, a, hsome, -⟩
      rw [hpush] at hsome
      cases hsome
    refine ⟨iff_of_true (fun k x => ?_) hnone, fun hdeep => iff_of_true ?_ hnone⟩
    · rw [hrings, hspilled]
    · exact goesOn_of_running (hrings ▸ hdeep) (by simp [hphase])
  · have hevicts : t.Evicts k a ↔ s.Evicts k a := by rw [Evicts, hrings, Evicts]
    have hrefused : s.RefusedEviction C refusal ↔ refusal ≠ none ∧ t.Evicts k a := by
      rw [hevicts]
      constructor
      · rintro ⟨hstore, tag', k', a', hsome, hfull⟩
        rw [hpush, Option.some.injEq, Prod.mk.injEq, Prod.mk.injEq] at hsome
        obtain ⟨-, rfl, rfl⟩ := hsome
        exact ⟨hstore, hfull⟩
      · rintro ⟨hstore, hfull⟩
        exact ⟨hstore, tag, k, a, hpush, hfull⟩
    have hloss : s.NoLoss (t.attemptSpilling refusal u tag k a) ↔
        t.NoLoss (t.attemptSpilling refusal u tag k a) := by
      rw [NoLoss, NoLoss, hrings, hspilled]
    rw [hrefused, hloss]
    refine ⟨noLoss_attemptSpilling_iff refusal t u tag k a, fun hdeep => ?_⟩
    exact goesOn_attemptSpilling_iff refusal (hrings ▸ hdeep) u tag k a

/-! ## Runs with a store that may refuse -/

inductive SpillEvent where
  | working (event : PipelineEvent)
  | refused (error : StoreError)

def spillMachine (C : PipelineConfig) : Machine Pipeline SpillEvent where
  step s
    | .working event => s.step C event
    | .refused error => s.consume C (some error)

namespace Pipeline

variable {C : PipelineConfig} {s s' : Pipeline} {refusal : Option StoreError}

theorem deep_consume (h : s.rings.Deep) (hstep : s.consume C refusal = some s') :
    s'.rings.Deep := by
  rcases consume_cases hstep with ⟨-, hrings, -, -⟩ | ⟨t, u, tag, k, a, rfl, -, hrings, -⟩
  · exact hrings ▸ h
  · rw [rings_attemptSpilling]
    exact (hrings ▸ h : t.rings.Deep).push _ k tag a t.spilled

theorem deep_step {e : SpillEvent} (h : s.rings.Deep)
    (hstep : (spillMachine C).step s e = some s') : s'.rings.Deep := by
  rcases e with event | error
  · cases event with
    | put u =>
      simp only [spillMachine, step] at hstep
      split at hstep <;> cases hstep
      exact h
    | take =>
      have hconsume : s.consume C none = some s' := by
        rw [consume_none]
        exact congrArg (Option.or · _) hstep
      exact deep_consume h hconsume
    | retry =>
      have htake : s.step C .take = none := by
        simp only [spillMachine, step] at hstep ⊢
        split at hstep
        · next hphase => simp [hphase]
        · cases hstep
      have hconsume : s.consume C none = some s' := by
        rw [consume_none, htake]
        exact hstep
      exact deep_consume h hconsume
    | drain n =>
      cases hstep
      exact h.drainAll n
    | operate call =>
      cases hstep
      exact h
  · exact deep_consume h hstep

theorem deep_run {es : List SpillEvent} (hrun : (spillMachine C).run (new C) es = some s) :
    s.rings.Deep :=
  (spillMachine C).inv_run (I := fun s => s.rings.Deep) (fun _ _ _ h hstep => deep_step h hstep)
    (RingBufferManager.deep_new C.ramMaxDepth_pos) hrun

end Pipeline

def twoFlows : List SpillEvent :=
  [.working (.put (goodUpdate "pump" "flow" 3)), .working .take,
    .working (.put (goodUpdate "pump" "flow" 4))]

theorem eviction_atomic_iff_twoFlows : ∃ s s',
    (spillMachine (pressureAlarm 0)).run (Pipeline.new (pressureAlarm 0)) twoFlows = some s ∧
    (s.rings.contents "pump").map UnifiedTag.value = [.int 3] ∧
    s.consume (pressureAlarm 0) none = some s' ∧
    s'.spilled.map (fun p => p.2.value) = [.int 3] ∧
    s.NoLoss s' ∧ s'.GoesOn (pressureAlarm 0) := by
  obtain ⟨s, hs, hv⟩ := Option.map_eq_some_iff.1
    (show ((spillMachine (pressureAlarm 0)).run (Pipeline.new (pressureAlarm 0)) twoFlows).map
      (fun s => ((s.rings.contents "pump").map UnifiedTag.value,
        (s.consume (pressureAlarm 0) none).map fun s' => s'.spilled.map fun p => p.2.value)) =
      some ([.int 3], some [.int 3]) by decide +kernel)
  obtain ⟨hheld, hnext⟩ := Prod.mk.inj hv
  obtain ⟨s', hstep, hspilled⟩ := Option.map_eq_some_iff.1 hnext
  obtain ⟨hloss, hgoes⟩ := eviction_atomic_iff (pressureAlarm 0) none hstep
  have hkept : ¬ s.RefusedEviction (pressureAlarm 0) none := fun h => h.1 rfl
  exact ⟨s, s', hs, hheld, hstep, hspilled, hloss.2 hkept, (hgoes (Pipeline.deep_run hs)).2 hkept⟩

/-- **A refused eviction loses samples and ends the consumer.**  The buffer of the pump holds one
flow; the second one is taken off the queue while the disk is full.  Then neither is in the buffer
or in the store, and nothing is handled ever after, for no driver. -/
theorem refused_eviction_loses : ∃ s s',
    (spillMachine (pressureAlarm 0)).run (Pipeline.new (pressureAlarm 0)) twoFlows = some s ∧
    (s.rings.contents "pump").map UnifiedTag.value = [.int 3] ∧
    s.consume (pressureAlarm 0) (some .diskFull) = some s' ∧
    s'.rings.contents "pump" = [] ∧ s'.spilled = [] ∧
    ∀ es t, (pipelineMachine (pressureAlarm 0)).run s' es = some t → t.handled = s'.handled := by
  obtain ⟨s, hs, hv⟩ := Option.map_eq_some_iff.1
    (show ((spillMachine (pressureAlarm 0)).run (Pipeline.new (pressureAlarm 0)) twoFlows).map
      (fun s => ((s.rings.contents "pump").map UnifiedTag.value,
        (s.consume (pressureAlarm 0) (some .diskFull)).map fun s' =>
          ((s'.rings.contents "pump").length, s'.spilled.length,
            match s'.phase with
            | .crashed => true
            | _ => false))) =
      some ([.int 3], some (0, 0, true)) by decide +kernel)
  obtain ⟨hheld, hnext⟩ := Prod.mk.inj hv
  obtain ⟨s', hstep, hafter⟩ := Option.map_eq_some_iff.1 hnext
  simp only [Prod.mk.injEq] at hafter
  obtain ⟨hempty, hspilled, hphase⟩ := hafter
  have hcrashed : s'.phase = .crashed := by
    split at hphase
    · next h => exact h
    · cases hphase
  exact ⟨s, s', hs, hheld, hstep, List.length_eq_zero_iff.1 hempty,
    List.length_eq_zero_iff.1 hspilled, fun es t hrun => (Pipeline.crashed_run hcrashed hrun).2.1⟩

end XEdge.Core
