import XEdge.Core.BadSamples
import XEdge.Lib.Keyed
import XEdge.Lib.Latch

/-!
# Episodes of an alarm

An episode is a run of samples of a tag that all meet a condition of its rule.  The engine keeps
of it only the state, the condition and the time at which it began; operators acknowledge and
shelve in between.  Here the episode is defined by the history of the calls, and what the engine
keeps is shown to be what the history says.
-/

namespace XEdge.Core

open Lib

def AlarmCall.tagId : AlarmCall → String
  | .acknowledge tagId _ _ => tagId
  | .shelve tagId _ => tagId
  | .unshelve tagId => tagId

inductive EngineCall where
  | evaluate (tag : UnifiedTag)
  | operate (call : AlarmCall)
  deriving DecidableEq

def EngineCall.tagId : EngineCall → String
  | .evaluate tag => tag.tagId
  | .operate call => call.tagId

namespace AlarmEngine

variable {e : AlarmEngine} {tag : UnifiedTag} {rule : AlarmRule}

/-- The engine after a call, with the sample that `evaluate` returns. -/
def call (e : AlarmEngine) : EngineCall → Option UnifiedTag × AlarmEngine
  | .evaluate tag => (some (e.evaluate tag).1, (e.evaluate tag).2)
  | .operate c => (none, e.operate c)

def conditionMet (e : AlarmEngine) (tag : UnifiedTag) : Option AlarmCondition :=
  match e.rules.get? tag.tagId with
  | none => none
  | some rule =>
      (e.checkConditions rule tag { e.statusOf tag.tagId with lastValue := some tag.value }).1

/-! ## What a call does to the tags -/

theorem checkRateOfChange_frame (e : AlarmEngine) (rule : AlarmRule) (tag : UnifiedTag)
    (status : AlarmStatus) :
    (e.checkRateOfChange rule tag status).2.1.status = e.status ∧
      ∀ k, k ≠ tag.tagId →
        (e.checkRateOfChange rule tag status).2.1.lastSample.get? k = e.lastSample.get? k := by
  unfold checkRateOfChange
  split
  · exact ⟨rfl, fun _ _ => rfl⟩
  · split
    · exact ⟨rfl, fun k hk => Dict.get?_set_of_ne _ _ hk⟩
    · dsimp only
      split
      · exact ⟨rfl, fun k hk => Dict.get?_set_of_ne _ _ hk⟩
      · split <;> exact ⟨rfl, fun k hk => Dict.get?_set_of_ne _ _ hk⟩

theorem checkConditions_frame (e : AlarmEngine) (rule : AlarmRule) (tag : UnifiedTag)
    (status : AlarmStatus) :
    (e.checkConditions rule tag status).2.1.status = e.status ∧
      ∀ k, k ≠ tag.tagId →
        (e.checkConditions rule tag status).2.1.lastSample.get? k = e.lastSample.get? k := by
  have hrate := e.checkRateOfChange_frame rule tag status
  unfold checkConditions
  by_cases hlimit : rule.rateOfChangePerSecond.isSome = true
  · simp only [if_pos hlimit]
    split <;> exact hrate
  · simp only [if_neg hlimit]
    split <;> exact ⟨rfl, fun _ _ => rfl⟩

def sampled (e : AlarmEngine) (rule : AlarmRule) (tag : UnifiedTag) : AlarmStatus :=
  transition { e.statusOf tag.tagId with
      lastValue := some tag.value
      lastRatePerSecond :=
        ((e.view tag.tagId).rate rule tag.value.number tag.timestampNs).2.2 }
    ((e.view tag.tagId).meets rule tag.value.number tag.timestampNs) tag.timestampNs

theorem conditionMet_of_rule (hrule : e.rules.get? tag.tagId = some rule) :
    e.conditionMet tag = (e.view tag.tagId).meets rule tag.value.number tag.timestampNs := by
  rw [conditionMet, hrule]
  exact (checkConditions_eq rule (e.view tag.tagId)
    { e.statusOf tag.tagId with lastValue := some tag.value } rfl rfl).1

theorem evaluate_of_rule (hrule : e.rules.get? tag.tagId = some rule) :
    (e.evaluate tag).1 = { tag with
        isAlarm := decide ((e.sampled rule tag).state ≠ .normal) &&
          !(e.sampled rule tag).shelvedUntil.any (tag.timestampNs < ·) } ∧
      (e.evaluate tag).2.status = e.status.set tag.tagId (e.sampled rule tag) ∧
      ∀ k, (e.evaluate tag).2.lastSample.get? k =
        if k = tag.tagId then
          ((e.view tag.tagId).rate rule tag.value.number tag.timestampNs).2.1
        else e.lastSample.get? k := by
  obtain ⟨hcondition, hmemory, hstatus⟩ := checkConditions_eq rule (e.view tag.tagId)
    { e.statusOf tag.tagId with lastValue := some tag.value } rfl rfl
  obtain ⟨hkept, hothers⟩ := e.checkConditions_frame rule tag
    { e.statusOf tag.tagId with lastValue := some tag.value }
  simp only [evaluate, hrule, hcondition, hstatus, hkept]
  refine ⟨rfl, rfl, fun k => ?_⟩
  split
  · next hk =>
    subst hk
    exact hmemory
  · next hk => exact hothers k hk

theorem evaluate_of_none (hrule : e.rules.get? tag.tagId = none) : e.evaluate tag = (tag, e) := by
  simp only [evaluate, hrule]

end AlarmEngine

def AlarmStatus.operated : Option AlarmStatus → AlarmCall → Option AlarmStatus
  | status, .acknowledge _ actor now => status.map fun s =>
      if s.state = .active then
        { s with state := .activeAcked, acknowledgedBy := some actor, acknowledgedAt := some now }
      else s
  | status, .shelve _ lapses => some { status.getD .new with shelvedUntil := some lapses }
  | status, .unshelve _ => status.map fun s => { s with shelvedUntil := none }

namespace AlarmEngine

variable {e : AlarmEngine}

theorem lastSample_operate (e : AlarmEngine) (c : AlarmCall) :
    (e.operate c).lastSample = e.lastSample := by
  unfold operate
  split
  · split
    · split <;> rfl
    · rfl
  · rfl
  · split
    · split <;> rfl
    · rfl

theorem get?_status_operate (e : AlarmEngine) (c : AlarmCall) (k : String) :
    (e.operate c).status.get? k =
      if k = c.tagId then AlarmStatus.operated (e.status.get? k) c else e.status.get? k := by
  by_cases hk : k = c.tagId
  · rw [if_pos hk, hk]
    cases c with
    | acknowledge id actor now =>
      simp only [AlarmCall.tagId, AlarmStatus.operated, operate]
      cases hget : e.status.get? id with
      | none => simp [hget]
      | some status =>
        by_cases hactive : status.state = .active
        · simp [hactive]
        · simp [hactive, hget]
    | shelve id lapses => exact Dict.get?_set_self ..
    | unshelve id =>
      simp only [AlarmCall.tagId, AlarmStatus.operated, operate]
      cases hget : e.status.get? id with
      | none => simp [hget]
      | some status =>
        cases hshelved : status.shelvedUntil with
        | none =>
          have hsame : { status with shelvedUntil := none } = status := by rw [← hshelved]
          simp [hshelved, hget, hsame]
        | some lapses => simp [hshelved]
  · rw [if_neg hk]
    cases c with
    | acknowledge | unshelve =>
      simp only [operate]
      split
      · split
        · exact Dict.get?_set_of_ne _ _ hk
        · rfl
      · rfl
    | shelve id lapses => exact Dict.get?_set_of_ne _ _ hk

end AlarmEngine

/-- `AlarmEngine`: its state is kept by tag. -/
def alarmEngine : Keyed AlarmEngine String
    (Option AlarmRule × Option AlarmStatus × Option (ℚ × Int)) EngineCall (Option UnifiedTag) where
  step := AlarmEngine.call
  key := EngineCall.tagId
  view e k := (e.rules.get? k, e.status.get? k, e.lastSample.get? k)
  view_step_of_ne e c k hk := by
    cases c with
    | evaluate tag =>
      have hne : k ≠ tag.tagId := hk
      cases hrule : e.rules.get? tag.tagId with
      | none => simp only [AlarmEngine.call, AlarmEngine.evaluate_of_none hrule]
      | some rule =>
        obtain ⟨-, hstatus, hsample⟩ := AlarmEngine.evaluate_of_rule hrule
        simp only [AlarmEngine.call, AlarmEngine.rules_evaluate, hstatus, hsample,
          Dict.get?_set_of_ne _ _ hne, if_neg hne]
    | operate c =>
      have hne : k ≠ c.tagId := hk
      simp only [AlarmEngine.call, AlarmEngine.rules_operate, AlarmEngine.lastSample_operate,
        AlarmEngine.get?_status_operate, if_neg hne]
  step_congr e e' c h := by
    simp only [Prod.mk.injEq] at h
    obtain ⟨hrules, hstatus, hsample⟩ := h
    cases c with
    | evaluate tag =>
      simp only [EngineCall.tagId] at hrules hstatus hsample ⊢
      cases hrule : e.rules.get? tag.tagId with
      | none =>
        have hrule' := hrules.symm.trans hrule
        simp only [AlarmEngine.call, AlarmEngine.evaluate_of_none hrule,
          AlarmEngine.evaluate_of_none hrule', hrules, hstatus, hsample, and_self]
      | some rule =>
        have hrule' := hrules.symm.trans hrule
        have hof : e.statusOf tag.tagId = e'.statusOf tag.tagId := by
          rw [AlarmEngine.statusOf, hstatus, AlarmEngine.statusOf]
        have hview : e.view tag.tagId = e'.view tag.tagId := by
          rw [AlarmEngine.view, hof, hsample, AlarmEngine.view]
        have hsampled : e.sampled rule tag = e'.sampled rule tag := by
          rw [AlarmEngine.sampled, hof, hview, AlarmEngine.sampled]
        obtain ⟨hout, hset, hmemory⟩ := AlarmEngine.evaluate_of_rule hrule
        obtain ⟨hout', hset', hmemory'⟩ := AlarmEngine.evaluate_of_rule hrule'
        simp only [AlarmEngine.call, AlarmEngine.rules_evaluate, hout, hout', hset, hset', hmemory,
          hmemory', hsampled, hview, hrules, Dict.get?_set_self, if_true, and_self]
    | operate c =>
      simp only [EngineCall.tagId] at hrules hstatus hsample ⊢
      simp only [AlarmEngine.call, AlarmEngine.rules_operate, AlarmEngine.lastSample_operate,
        AlarmEngine.get?_status_operate, hrules, hstatus, hsample, and_self]

/-! ## The history of a tag -/

/-- What the history of a tag is made of: its samples, each with whether it met a condition, and
the acknowledgements. -/
inductive AlarmNote where
  | sample (timestamp : Int) (alarming : Bool)
  | acknowledge (actor : String) (now : Int)
  deriving DecidableEq

def AlarmNote.verdict : AlarmNote → Option Bool
  | .sample _ alarming => some alarming
  | .acknowledge _ _ => none

namespace AlarmEngine

def note (e : AlarmEngine) (k : String) : EngineCall → List AlarmNote
  | .evaluate tag =>
      if tag.tagId = k then [.sample tag.timestampNs (e.conditionMet tag).isSome] else []
  | .operate (.acknowledge tagId actor now) => if tagId = k then [.acknowledge actor now] else []
  | .operate _ => []

def notes (e : AlarmEngine) (k : String) : List EngineCall → List AlarmNote
  | [] => []
  | c :: cs => e.note k c ++ (e.call c).2.notes k cs

theorem notes_concat (e : AlarmEngine) (k : String) (cs : List EngineCall) (c : EngineCall) :
    e.notes k (cs ++ [c]) = e.notes k cs ++ (alarmEngine.final e cs).note k c := by
  induction cs generalizing e with
  | nil => simp [notes]
  | cons d cs ih =>
    simp only [List.cons_append, notes, ih, List.append_assoc]
    rfl

theorem rules_final (e : AlarmEngine) (cs : List EngineCall) :
    (alarmEngine.final e cs).rules = e.rules := by
  induction cs generalizing e with
  | nil => rfl
  | cons c cs ih =>
    rw [Keyed.final_cons, ih]
    cases c with
    | evaluate tag => exact e.rules_evaluate tag
    | operate c => exact e.rules_operate c

end AlarmEngine

def shelving (k : String) : EngineCall → Option (Option Int)
  | .operate (.shelve tagId lapses) => if tagId = k then some (some lapses) else none
  | .operate (.unshelve tagId) => if tagId = k then some none else none
  | _ => none

def shelveEnd (k : String) (cs : List EngineCall) : Option Int :=
  (cs.filterMap (shelving k)).getLast?.join

theorem shelveEnd_concat (k : String) (cs : List EngineCall) (c : EngineCall) :
    shelveEnd k (cs ++ [c]) = (shelving k c).getD (shelveEnd k cs) := by
  unfold shelveEnd
  cases h : shelving k c with
  | none | some => simp [h]

/-! ## A status and its history -/

structure Episodic (notes : List AlarmNote) (shelved : Option Int) (s : AlarmStatus) : Prop where
  condition : s.state = .normal ↔ s.condition = none
  since : s.state = .normal ↔ s.activeSince = none
  raised : s.state ≠ .normal ↔ Raised AlarmNote.verdict notes
  unacknowledged : s.state = .active → s.acknowledgedBy = none
  run : ∀ since, s.activeSince = some since →
    ∃ rest, CurrentRun AlarmNote.verdict notes (.sample since true) rest ∧
      (s.state = .activeAcked → ∃ actor now, .acknowledge actor now ∈ rest ∧
        s.acknowledgedBy = some actor ∧ s.acknowledgedAt = some now)
  shelve : s.shelvedUntil = shelved

theorem episodic_new : Episodic [] none .new where
  condition := by simp [AlarmStatus.new]
  since := by simp [AlarmStatus.new]
  raised := by simp [AlarmStatus.new, Raised]
  unacknowledged := by simp [AlarmStatus.new]
  run := by simp [AlarmStatus.new]
  shelve := rfl

variable {notes : List AlarmNote} {shelved : Option Int} {s : AlarmStatus}

theorem Episodic.sample (h : Episodic notes shelved s) (value : Option TagValue) (rate : Option ℚ)
    (condition : Option AlarmCondition) (timestamp : Int) :
    Episodic (notes ++ [.sample timestamp condition.isSome]) shelved
      (AlarmEngine.transition { s with lastValue := value, lastRatePerSecond := rate } condition
        timestamp) := by
  cases condition with
  | none =>
    exact
      { condition := by simp [AlarmEngine.transition]
        since := by simp [AlarmEngine.transition]
        raised := by simp [AlarmEngine.transition, raised_concat_of_some, AlarmNote.verdict]
        unacknowledged := by simp [AlarmEngine.transition]
        run := by simp [AlarmEngine.transition]
        shelve := h.shelve }
  | some c =>
    have hverdict : AlarmNote.verdict (.sample timestamp (some c).isSome) = some true := rfl
    have hraised : Raised AlarmNote.verdict (notes ++ [.sample timestamp (some c).isSome]) :=
      (raised_concat_of_some hverdict).2 rfl
    by_cases hstate : s.state = .normal
    · have hquiet : ¬ Raised AlarmNote.verdict notes := fun hc => h.raised.2 hc hstate
      simp only [AlarmEngine.transition, hstate, if_true]
      exact
        { condition := by simp
          since := by simp
          raised := by simpa using hraised
          unacknowledged := by simp
          run := fun since hsince => by
            obtain rfl : timestamp = since := Option.some.inj hsince
            exact ⟨[], currentRun_start hquiet rfl, by simp⟩
          shelve := h.shelve }
    · simp only [AlarmEngine.transition, hstate, if_false]
      exact
        { condition := by simp [hstate]
          since := h.since
          raised := by simpa [hstate] using hraised
          unacknowledged := h.unacknowledged
          run := fun since hsince => by
            obtain ⟨rest, hrun, hacked⟩ := h.run since hsince
            refine ⟨_, hrun.concat (by simp [AlarmNote.verdict]), fun hstate => ?_⟩
            obtain ⟨actor, now, hmem, hby⟩ := hacked hstate
            exact ⟨actor, now, List.mem_append_left _ hmem, hby⟩
          shelve := h.shelve }

theorem Episodic.acknowledge (h : Episodic notes shelved s) (actor : String) (now : Int) :
    Episodic (notes ++ [.acknowledge actor now]) shelved
      (if s.state = .active then
        { s with state := .activeAcked, acknowledgedBy := some actor, acknowledgedAt := some now }
      else s) := by
  have hraised : Raised AlarmNote.verdict (notes ++ [.acknowledge actor now]) ↔
      Raised AlarmNote.verdict notes := raised_concat_of_none rfl
  by_cases hactive : s.state = .active
  · have hnormal : s.state ≠ .normal := by simp [hactive]
    rw [if_pos hactive]
    exact
      { condition := by simpa [hactive] using h.condition
        since := by simpa [hactive] using h.since
        raised := by simpa [hactive, hraised] using h.raised
        unacknowledged := by simp
        run := fun since hsince => by
          obtain ⟨rest, hrun, -⟩ := h.run since hsince
          exact ⟨_, hrun.concat (by simp [AlarmNote.verdict]),
            fun _ => ⟨actor, now, by simp, rfl, rfl⟩⟩
        shelve := h.shelve }
  · rw [if_neg hactive]
    exact
      { condition := h.condition
        since := h.since
        raised := h.raised.trans hraised.symm
        unacknowledged := h.unacknowledged
        run := fun since hsince => by
          obtain ⟨rest, hrun, hacked⟩ := h.run since hsince
          refine ⟨_, hrun.concat (by simp [AlarmNote.verdict]), fun hstate => ?_⟩
          obtain ⟨actor', now', hmem, hby⟩ := hacked hstate
          exact ⟨actor', now', List.mem_append_left _ hmem, hby⟩
        shelve := h.shelve }

theorem Episodic.setShelve (h : Episodic notes shelved s) (lapses : Option Int) :
    Episodic notes lapses { s with shelvedUntil := lapses } :=
  ⟨h.condition, h.since, h.raised, h.unacknowledged, h.run, rfl⟩

variable {e : AlarmEngine} {rule : AlarmRule} {tag : UnifiedTag}

theorem episodic_evaluate (hrule : e.rules.get? tag.tagId = some rule)
    (h : Episodic notes shelved (e.statusOf tag.tagId)) :
    Episodic (notes ++ e.note tag.tagId (.evaluate tag)) shelved
      ((e.evaluate tag).2.statusOf tag.tagId) := by
  have hstatus := (AlarmEngine.evaluate_of_rule hrule).2.1
  have hof : (e.evaluate tag).2.statusOf tag.tagId = e.sampled rule tag := by
    rw [AlarmEngine.statusOf, hstatus, Dict.get?_set_self, Option.getD_some]
  have hnote : e.note tag.tagId (.evaluate tag) =
      [.sample tag.timestampNs (e.conditionMet tag).isSome] := if_pos rfl
  rw [hof, hnote, AlarmEngine.conditionMet_of_rule hrule]
  exact h.sample _ _ _ _

theorem episodic_operate {c : AlarmCall} (h : Episodic notes shelved (e.statusOf c.tagId)) :
    Episodic (notes ++ e.note c.tagId (.operate c))
      ((shelving c.tagId (.operate c)).getD shelved) ((e.operate c).statusOf c.tagId) := by
  have hof : (e.operate c).statusOf c.tagId =
      (AlarmStatus.operated (e.status.get? c.tagId) c).getD .new := by
    rw [AlarmEngine.statusOf, AlarmEngine.get?_status_operate, if_pos rfl]
  rw [hof]
  rw [AlarmEngine.statusOf] at h
  cases c with
  | acknowledge id actor now =>
    simp only [AlarmCall.tagId, AlarmEngine.note, shelving, if_true, Option.getD_none,
      AlarmStatus.operated] at h ⊢
    have hacked := h.acknowledge actor now
    cases hget : e.status.get? id with
    | none =>
      rw [hget] at hacked
      simpa [AlarmStatus.new] using hacked
    | some status =>
      rw [hget] at hacked
      exact hacked
  | shelve id lapses =>
    simp only [AlarmCall.tagId, AlarmEngine.note, shelving, if_true, Option.getD_some,
      AlarmStatus.operated, List.append_nil] at h ⊢
    exact h.setShelve _
  | unshelve id =>
    simp only [AlarmCall.tagId, AlarmEngine.note, shelving, if_true, Option.getD_some,
      AlarmStatus.operated, List.append_nil] at h ⊢
    have hunshelved := h.setShelve none
    cases hget : e.status.get? id with
    | none | some =>
      rw [hget] at hunshelved
      exact hunshelved

variable {k : String}

theorem episodic_other {c : EngineCall} (hk : c.tagId ≠ k)
    (h : Episodic notes shelved (e.statusOf k)) :
    Episodic (notes ++ e.note k c) ((shelving k c).getD shelved) ((e.call c).2.statusOf k) := by
  have hview := alarmEngine.view_step_of_ne e c k (Ne.symm hk)
  have hstatus : (e.call c).2.status.get? k = e.status.get? k :=
    (Prod.mk.inj (Prod.mk.inj hview).2).1
  have hnote : e.note k c = [] := by
    rcases c with tag | (_ | _ | _)
    · exact if_neg hk
    · exact if_neg hk
    · rfl
    · rfl
  have hshelving : shelving k c = none := by
    rcases c with tag | (_ | _ | _)
    · rfl
    · rfl
    · exact if_neg hk
    · exact if_neg hk
  rw [AlarmEngine.statusOf, hstatus, hnote, hshelving, List.append_nil]
  exact h

theorem episodic_call (hrule : e.rules.get? k = some rule)
    (h : Episodic notes shelved (e.statusOf k)) (c : EngineCall) :
    Episodic (notes ++ e.note k c) ((shelving k c).getD shelved) ((e.call c).2.statusOf k) := by
  by_cases hk : c.tagId = k
  · subst hk
    cases c with
    | evaluate tag => exact episodic_evaluate hrule h
    | operate c => exact episodic_operate h
  · exact episodic_other hk h

theorem episodic_final {rules : Dict String AlarmRule}
    (hrule : rules.get? k = some rule) (cs : List EngineCall) :
    Episodic ((AlarmEngine.new rules).notes k cs) (shelveEnd k cs)
      ((alarmEngine.final (.new rules) cs).statusOf k) := by
  induction cs using List.reverseRecOn with
  | nil => exact episodic_new
  | append_singleton cs c ih =>
    rw [AlarmEngine.notes_concat, shelveEnd_concat, Keyed.final_append]
    have hrules : (alarmEngine.final (.new rules) cs).rules.get? k = some rule := by
      rw [AlarmEngine.rules_final]
      exact hrule
    exact episodic_call hrules ih c

/-! ## The invariant -/

theorem isAlarm_evaluate (hrule : e.rules.get? tag.tagId = some rule) :
    (e.evaluate tag).1.isAlarm = true ↔
      ((e.evaluate tag).2.statusOf tag.tagId).state ≠ .normal ∧
        ∀ lapses, (e.statusOf tag.tagId).shelvedUntil = some lapses →
          ¬ tag.timestampNs < lapses := by
  obtain ⟨hout, hstatus, -⟩ := AlarmEngine.evaluate_of_rule hrule
  have hof : (e.evaluate tag).2.statusOf tag.tagId = e.sampled rule tag := by
    rw [AlarmEngine.statusOf, hstatus, Dict.get?_set_self, Option.getD_some]
  have hshelved : (e.sampled rule tag).shelvedUntil = (e.statusOf tag.tagId).shelvedUntil := by
    unfold AlarmEngine.sampled AlarmEngine.transition
    split
    · split <;> rfl
    · rfl
  rw [hout, hof, hshelved]
  cases (e.statusOf tag.tagId).shelvedUntil with
  | none | some => simp

/-- **The invariant of the alarm engine.**  After any calls for any tags, the status of a tag with
a rule is what the history of the tag says.  The tag alarms exactly while there are a condition
and a beginning; an alarm that is active has no acknowledger, and one that is acknowledged was
acknowledged in the episode that goes on; the beginning is the time of the first sample of that
episode; `is_alarm` says that the tag alarms and is not shelved; a call for another tag changes
nothing. -/
theorem alarm_engine_invariant (rules : Dict String AlarmRule) (k : String) {rule : AlarmRule}
    (hrule : rules.get? k = some rule) (cs : List EngineCall) :
    let e := alarmEngine.final (.new rules) cs
    let notes := (AlarmEngine.new rules).notes k cs
    let s := e.statusOf k
    (s.state = .normal ↔ s.condition = none) ∧ (s.condition = none ↔ s.activeSince = none) ∧
    (s.state = .active → s.acknowledgedBy = none) ∧
    (s.state = .activeAcked → ∃ first rest actor now,
      CurrentRun AlarmNote.verdict notes first rest ∧ .acknowledge actor now ∈ rest ∧
        s.acknowledgedBy = some actor ∧ s.acknowledgedAt = some now) ∧
    (∀ since, s.activeSince = some since ↔
      ∃ rest, CurrentRun AlarmNote.verdict notes (.sample since true) rest) ∧
    (∀ tag, tag.tagId = k → ((e.evaluate tag).1.isAlarm = true ↔
      ((e.evaluate tag).2.statusOf k).state ≠ .normal ∧
        ∀ lapses, shelveEnd k cs = some lapses → ¬ tag.timestampNs < lapses)) ∧
    ∀ c, c.tagId ≠ k → (e.call c).2.status.get? k = e.status.get? k := by
  intro e notes s
  have h : Episodic notes (shelveEnd k cs) s := episodic_final hrule cs
  have hsince : s.state ≠ .normal → ∃ since, s.activeSince = some since := fun hstate =>
    Option.ne_none_iff_exists'.1 fun hnone => hstate (h.since.2 hnone)
  refine ⟨h.condition, h.condition.symm.trans h.since, h.unacknowledged, fun hacked => ?_,
    fun since => ⟨fun hs => ?_, fun hrun => ?_⟩, fun tag htag => ?_, fun c hc => ?_⟩
  · obtain ⟨since, hs⟩ := hsince (by simp [hacked])
    obtain ⟨rest, hrun, hactor⟩ := h.run since hs
    obtain ⟨actor, now, hmem, hby⟩ := hactor hacked
    exact ⟨_, rest, actor, now, hrun, hmem, hby⟩
  · obtain ⟨rest, hrun, -⟩ := h.run since hs
    exact ⟨rest, hrun⟩
  · obtain ⟨rest, hrun⟩ := hrun
    obtain ⟨since', hs⟩ := hsince (h.raised.2 hrun.raised)
    obtain ⟨rest', hrun', -⟩ := h.run since' hs
    cases (hrun.unique hrun').1
    exact hs
  · subst htag
    have hrules : e.rules.get? tag.tagId = some rule := by
      rw [AlarmEngine.rules_final]
      exact hrule
    rw [isAlarm_evaluate hrules, ← h.shelve]
  · exact (Prod.mk.inj (Prod.mk.inj (alarmEngine.view_step_of_ne e c k (Ne.symm hc))).2).1

def tankRules : Dict String AlarmRule := .ofList [("tank/level", ⟨some 10, none, none, none, none⟩)]

def tankLevel (value : Int) (timestamp : Int) : EngineCall :=
  .evaluate ⟨"tank/level", timestamp, .int value, "INT64", .good, "tank", "40001", none, false⟩

def twoEpisodes : List EngineCall :=
  [tankLevel 11 1, .operate (.acknowledge "tank/level" "ana" 2), tankLevel 9 3, tankLevel 12 4,
    tankLevel 13 5, .operate (.acknowledge "tank/level" "bo" 6),
    .operate (.shelve "tank/level" 20)]

theorem alarm_engine_invariant_twoEpisodes :
    tankRules.get? "tank/level" = some ⟨some 10, none, none, none, none⟩ ∧
      (∃ rest, CurrentRun AlarmNote.verdict
        ((AlarmEngine.new tankRules).notes "tank/level" twoEpisodes) (.sample 4 true) rest) ∧
      ∃ first rest actor now, CurrentRun AlarmNote.verdict
          ((AlarmEngine.new tankRules).notes "tank/level" twoEpisodes) first rest ∧
        .acknowledge actor now ∈ rest ∧
        ((alarmEngine.final (.new tankRules) twoEpisodes).statusOf "tank/level").acknowledgedBy =
          some actor := by
  have hrule : tankRules.get? "tank/level" = some ⟨some 10, none, none, none, none⟩ := by
    decide +kernel
  obtain ⟨-, -, -, hacked, hsince, -, -⟩ := alarm_engine_invariant tankRules "tank/level" hrule
    twoEpisodes
  refine ⟨hrule, (hsince 4).1 (by decide +kernel), ?_⟩
  obtain ⟨first, rest, actor, now, hrun, hmem, hby, -⟩ := hacked (by decide +kernel)
  exact ⟨first, rest, actor, now, hrun, hmem, hby⟩

end XEdge.Core
