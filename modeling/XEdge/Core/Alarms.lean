import XEdge.Core.Pipeline

/-!
# The alarm engine (`xedge/core/alarms.py`)

A tag with a rule is alarm-tier, whether or not it alarms at the moment.  `evaluate` compares
a sample with the rule of its tag, moves the tag's alarm between normal, active and
acknowledged, and marks the sample; operators acknowledge and shelve.
-/

namespace XEdge.Core

open Lib

def ALARM_STREAM_KEY_SUFFIX : String := "::alarm"

structure AlarmRule where
  high : Option ℚ
  highHigh : Option ℚ
  low : Option ℚ
  lowLow : Option ℚ
  rateOfChangePerSecond : Option ℚ
  deriving DecidableEq

inductive AlarmState where
  | normal
  | active
  | activeAcked
  deriving DecidableEq

inductive AlarmCondition where
  | highHigh
  | lowLow
  | high
  | low
  | rateOfChange
  deriving DecidableEq

structure AlarmStatus where
  state : AlarmState
  condition : Option AlarmCondition
  activeSince : Option Int
  acknowledgedBy : Option String
  acknowledgedAt : Option Int
  shelvedUntil : Option Int
  lastValue : Option TagValue
  lastRatePerSecond : Option ℚ
  deriving DecidableEq

/-- `AlarmStatus(tag_id)`. -/
def AlarmStatus.new : AlarmStatus := ⟨.normal, none, none, none, none, none, none, none⟩

structure AlarmEngine where
  rules : Dict String AlarmRule
  status : Dict String AlarmStatus
  /-- `_last_sample`: the value and time of the latest sample whose rate was looked at. -/
  lastSample : Dict String (ℚ × Int)
  deriving DecidableEq

inductive AlarmCall where
  | acknowledge (tagId actor : String) (now : Int)
  /-- `shelve`, with the time at which it lapses. -/
  | shelve (tagId : String) (lapses : Int)
  | unshelve (tagId : String)
  deriving DecidableEq

namespace AlarmEngine

/-- `AlarmEngine(rules)`. -/
def new (rules : Dict String AlarmRule) : AlarmEngine := ⟨rules, .empty, .empty⟩

def hasRule (e : AlarmEngine) (tagId : String) : Bool := (e.rules.get? tagId).isSome

/-- `_status.setdefault(tag_id, AlarmStatus(tag_id))`, as a value. -/
def statusOf (e : AlarmEngine) (tagId : String) : AlarmStatus :=
  (e.status.get? tagId).getD AlarmStatus.new

def checkRateOfChange (e : AlarmEngine) (rule : AlarmRule) (tag : UnifiedTag)
    (status : AlarmStatus) : Option AlarmCondition × AlarmEngine × AlarmStatus :=
  match tag.value.number with
  | none => (none, e, status)
  | some value =>
      let e' := { e with lastSample := e.lastSample.set tag.tagId (value, tag.timestampNs) }
      match e.lastSample.get? tag.tagId with
      | none => (none, e', status)
      | some (priorValue, priorTimestamp) =>
          let elapsedSeconds : ℚ := ((tag.timestampNs - priorTimestamp : Int) : ℚ) / 1000000000
          if elapsedSeconds ≤ 0 then (none, e', status)
          else
            let rate := |value - priorValue| / elapsedSeconds
            let status' := { status with lastRatePerSecond := some rate }
            match rule.rateOfChangePerSecond with
            | some limit => (if limit < rate then some .rateOfChange else none, e', status')
            | none => (none, e', status')

/-- The thresholds of `_check_conditions`, worst first. -/
def checkThresholds (rule : AlarmRule) (value : ℚ) : Option AlarmCondition :=
  if rule.highHigh.any (· ≤ value) then some .highHigh
  else if rule.lowLow.any (value ≤ ·) then some .lowLow
  else if rule.high.any (· ≤ value) then some .high
  else if rule.low.any (value ≤ ·) then some .low
  else none

def checkConditions (e : AlarmEngine) (rule : AlarmRule) (tag : UnifiedTag)
    (status : AlarmStatus) : Option AlarmCondition × AlarmEngine × AlarmStatus :=
  let (rateCondition, e', status') :=
    if rule.rateOfChangePerSecond.isSome then e.checkRateOfChange rule tag status
    else (none, e, status)
  match tag.value.number with
  | none => (rateCondition, e', status')
  | some value => ((checkThresholds rule value).or rateCondition, e', status')

/-- The status after a sample that meets `condition`. -/
def transition (status : AlarmStatus) (condition : Option AlarmCondition) (timestamp : Int) :
    AlarmStatus :=
  match condition with
  | some c =>
      if status.state = .normal then
        { status with
          state := .active
          activeSince := some timestamp
          acknowledgedBy := none
          acknowledgedAt := none
          condition := some c }
      else { status with condition := some c }
  | none => { status with state := .normal, condition := none, activeSince := none }

def evaluate (e : AlarmEngine) (tag : UnifiedTag) : UnifiedTag × AlarmEngine :=
  match e.rules.get? tag.tagId with
  | none => (tag, e)
  | some rule =>
      let status := { e.statusOf tag.tagId with lastValue := some tag.value }
      let (condition, e', status') := e.checkConditions rule tag status
      let status'' := transition status' condition tag.timestampNs
      let shelved := status''.shelvedUntil.any (tag.timestampNs < ·)
      ({ tag with isAlarm := decide (status''.state ≠ .normal) && !shelved },
        { e' with status := e'.status.set tag.tagId status'' })

/-- `acknowledge`, `shelve` and `unshelve`. -/
def operate (e : AlarmEngine) : AlarmCall → AlarmEngine
  | .acknowledge tagId actor now =>
      match e.status.get? tagId with
      | some status =>
          if status.state = .active then
            { e with
              status := e.status.set tagId
                { status with
                  state := .activeAcked
                  acknowledgedBy := some actor
                  acknowledgedAt := some now } }
          else e
      | none => e
  | .shelve tagId lapses =>
      { e with status := e.status.set tagId { e.statusOf tagId with shelvedUntil := some lapses } }
  | .unshelve tagId =>
      match e.status.get? tagId with
      | some status =>
          if status.shelvedUntil.isSome then
            { e with status := e.status.set tagId { status with shelvedUntil := none } }
          else e
      | none => e
variable (e : AlarmEngine)


theorem rules_checkRateOfChange (rule : AlarmRule) (tag : UnifiedTag)
    (status : AlarmStatus) : (e.checkRateOfChange rule tag status).2.1.rules = e.rules := by
  unfold checkRateOfChange
  split
  · rfl
  · split
    · rfl
    · simp only
      split
      · rfl
      · split <;> rfl

theorem rules_checkConditions (rule : AlarmRule) (tag : UnifiedTag)
    (status : AlarmStatus) : (e.checkConditions rule tag status).2.1.rules = e.rules := by
  have h := e.rules_checkRateOfChange rule tag status
  unfold checkConditions
  by_cases hrate : rule.rateOfChangePerSecond.isSome = true
  · simp only [if_pos hrate]
    split <;> exact h
  · simp only [if_neg hrate]
    split <;> rfl

@[simp] theorem rules_evaluate (tag : UnifiedTag) :
    (e.evaluate tag).2.rules = e.rules := by
  unfold evaluate
  split
  · rfl
  · exact e.rules_checkConditions ..

@[simp] theorem rules_operate (c : AlarmCall) :
    (e.operate c).rules = e.rules := by
  unfold operate
  split
  · split
    · split <;> rfl
    · rfl
  · rfl
  · split
    · split <;> rfl
    · rfl

@[simp] theorem tagId_evaluate (tag : UnifiedTag) :
    (e.evaluate tag).1.tagId = tag.tagId := by
  unfold evaluate
  split <;> rfl

@[simp] theorem sourceDriver_evaluate (tag : UnifiedTag) :
    (e.evaluate tag).1.sourceDriver = tag.sourceDriver := by
  unfold evaluate
  split <;> rfl

@[simp] theorem value_evaluate (tag : UnifiedTag) :
    (e.evaluate tag).1.value = tag.value := by
  unfold evaluate
  split <;> rfl

end AlarmEngine

end XEdge.Core
