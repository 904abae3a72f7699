import XEdge.Core.Consumer
import XEdge.Modbus.Codec

/-!
# Alarms and bad samples (`AlarmEngine.evaluate`, `_bad_update`)

A Modbus read that the device answers with an exception becomes an update of bad quality with
a placeholder for its value.  The pipeline scales it like any other value, and the alarm engine
evaluates it without looking at the quality.
-/

namespace XEdge.Core

open Lib XEdge.Modbus

/-! ## Reads of a tag -/

/-- A tag of a Modbus driver: what an update of it takes from the configuration. -/
structure ModbusTag where
  instanceId : String
  id : String
  address : Nat
  functionCode : FunctionCode
  dataType : Option String

namespace ModbusTag

/-- `tag_id` of the updates. -/
def tagId (tag : ModbusTag) : String := qualifiedId tag.instanceId tag.id

/-- `datatypes.is_float` of the data type, `uint16` if there is none. -/
def isFloat (tag : ModbusTag) : Bool :=
  let dataType := tag.dataType.getD "uint16"
  dataType = "float32" || dataType = "float64"

/-- `_good_update`, with the decoded value. -/
def goodUpdate (tag : ModbusTag) (value : TagValue) (now : Int) : TagUpdate where
  tagId := tag.tagId
  value := value
  quality := .good
  timestampNs := now
  sourceTimestampNs := none
  sourceDriver := tag.instanceId
  sourceAddress := toString tag.address

/-- The placeholder of `_bad_update`. -/
def placeholder (tag : ModbusTag) : TagValue :=
  if isBitFunction tag.functionCode then .bool false
  else if tag.isFloat then .float 0
  else .int 0

def badUpdate (tag : ModbusTag) (now : Int) : TagUpdate where
  tagId := tag.tagId
  value := tag.placeholder
  quality := .bad
  timestampNs := now
  sourceTimestampNs := none
  sourceDriver := tag.instanceId
  sourceAddress := toString tag.address

/-- The number that the alarm engine sees in a bad update: the offset, unless the tag is a
bit. -/
def placeholderNumber (tag : ModbusTag) (config : Option TagPipelineConfig) : Option ℚ :=
  if isBitFunction tag.functionCode then none else some (appliedScaling config).2

theorem number_badUpdate (tag : ModbusTag) (config : Option TagPipelineConfig) (now : Int) :
    (normalize (tag.badUpdate now) config).value.number = tag.placeholderNumber config := by
  by_cases hbit : isBitFunction tag.functionCode = true
  · have hvalue : (tag.badUpdate now).value = .bool false := if_pos hbit
    rw [placeholderNumber, if_pos hbit]
    show (scaleValue (tag.badUpdate now).value config).number = none
    rw [hvalue, scaleValue]
    cases config.bind TagPipelineConfig.scaling <;> rfl
  · have hzero : (tag.badUpdate now).value.number = some 0 := by
      show tag.placeholder.number = some 0
      rw [placeholder, if_neg hbit]
      split
      · rfl
      · exact congrArg some Int.cast_zero
    rw [number_normalize hzero, placeholderNumber, if_neg hbit, zero_mul, zero_add]

end ModbusTag

/-! ## What a sample does to an alarm -/

/-- The alarm of a tag: its state and condition, and the memory of the rate of change. -/
structure AlarmView where
  state : AlarmState
  condition : Option AlarmCondition
  lastSample : Option (ℚ × Int)
  lastRate : Option ℚ
  deriving DecidableEq

namespace AlarmView

/-- The rate of change: its condition, the new memory and the new rate. -/
def rate (v : AlarmView) (rule : AlarmRule) (number : Option ℚ) (now : Int) :
    Option AlarmCondition × Option (ℚ × Int) × Option ℚ :=
  match rule.rateOfChangePerSecond, number with
  | some limit, some value =>
      match v.lastSample with
      | none => (none, some (value, now), v.lastRate)
      | some (prior, before) =>
          let elapsedSeconds : ℚ := ((now - before : Int) : ℚ) / 1000000000
          if elapsedSeconds ≤ 0 then (none, some (value, now), v.lastRate)
          else
            let rate := |value - prior| / elapsedSeconds
            (if limit < rate then some .rateOfChange else none, some (value, now), some rate)
  | _, _ => (none, v.lastSample, v.lastRate)

def meets (v : AlarmView) (rule : AlarmRule) (number : Option ℚ) (now : Int) :
    Option AlarmCondition :=
  match number with
  | none => (v.rate rule number now).1
  | some value => (AlarmEngine.checkThresholds rule value).or (v.rate rule number now).1

/-- The state after a sample that meets `condition`. -/
def next (state : AlarmState) : Option AlarmCondition → AlarmState
  | some _ => if state = .normal then .active else state
  | none => .normal

def sample (v : AlarmView) (rule : AlarmRule) (number : Option ℚ) (now : Int) : AlarmView where
  state := next v.state (v.meets rule number now)
  condition := v.meets rule number now
  lastSample := (v.rate rule number now).2.1
  lastRate := (v.rate rule number now).2.2

def operate (v : AlarmView) (tagId : String) : AlarmCall → AlarmView
  | .acknowledge id _ _ =>
      if id = tagId ∧ v.state = .active then { v with state := .activeAcked } else v
  | _ => v

def Consistent (v : AlarmView) : Prop := v.state = .normal ↔ v.condition = none

theorem consistent_sample (v : AlarmView) (rule : AlarmRule) (number : Option ℚ) (now : Int) :
    (v.sample rule number now).Consistent := by
  show next v.state (v.meets rule number now) = .normal ↔ v.meets rule number now = none
  cases v.meets rule number now with
  | none => exact ⟨fun _ => rfl, fun _ => rfl⟩
  | some c =>
    rw [next]
    split
    · simp
    · next hstate => simp [hstate]

variable {v : AlarmView}

theorem Consistent.operate (h : v.Consistent) (tagId : String) (c : AlarmCall) :
    (v.operate tagId c).Consistent := by
  unfold AlarmView.operate
  split
  · split
    · next hactive =>
      -- an active alarm has a condition, and keeps it
      have hcondition : v.condition ≠ none := by
        intro hnone
        rw [h.2 hnone] at hactive
        cases hactive.2
      constructor
      · intro hnormal
        cases hnormal
      · intro hnone
        exact absurd hnone hcondition
    · exact h
  · exact h

theorem next_condition (h : v.Consistent) : next v.state v.condition = v.state := by
  cases hcondition : v.condition with
  | none => exact (h.2 hcondition).symm
  | some c =>
    rw [next, if_neg]
    intro hnormal
    rw [h.1 hnormal] at hcondition
    cases hcondition

end AlarmView

def AlarmEngine.view (e : AlarmEngine) (tagId : String) : AlarmView where
  state := (e.statusOf tagId).state
  condition := (e.statusOf tagId).condition
  lastSample := e.lastSample.get? tagId
  lastRate := (e.statusOf tagId).lastRatePerSecond

namespace AlarmEngine

variable {e : AlarmEngine} {tag : UnifiedTag} {rule : AlarmRule}

theorem checkRateOfChange_eq (v : AlarmView) (status : AlarmStatus)
    (hsample : v.lastSample = e.lastSample.get? tag.tagId)
    (hlast : v.lastRate = status.lastRatePerSecond) {limit : ℚ}
    (hlimit : rule.rateOfChangePerSecond = some limit) :
    let r := e.checkRateOfChange rule tag status
    let w := v.rate rule tag.value.number tag.timestampNs
    r.1 = w.1 ∧ r.2.1.lastSample.get? tag.tagId = w.2.1 ∧
      r.2.2 = { status with lastRatePerSecond := w.2.2 } := by
  have hstatus : status = { status with lastRatePerSecond := v.lastRate } := by rw [hlast]
  simp only [checkRateOfChange, AlarmView.rate, hlimit]
  cases tag.value.number with
  | none => exact ⟨rfl, hsample.symm, hstatus⟩
  | some value =>
    simp only [hsample]
    cases e.lastSample.get? tag.tagId with
    | none => exact ⟨rfl, Dict.get?_set_self .., hstatus⟩
    | some prior =>
      simp only
      split
      · exact ⟨rfl, Dict.get?_set_self .., hstatus⟩
      · exact ⟨rfl, Dict.get?_set_self .., rfl⟩

theorem checkConditions_eq (rule : AlarmRule) (v : AlarmView) (status : AlarmStatus)
    (hsample : v.lastSample = e.lastSample.get? tag.tagId)
    (hlast : v.lastRate = status.lastRatePerSecond) :
    let r := e.checkConditions rule tag status
    let w := v.rate rule tag.value.number tag.timestampNs
    r.1 = v.meets rule tag.value.number tag.timestampNs ∧
      r.2.1.lastSample.get? tag.tagId = w.2.1 ∧
      r.2.2 = { status with lastRatePerSecond := w.2.2 } := by
  cases hlimit : rule.rateOfChangePerSecond with
  | some limit =>
    obtain ⟨hcondition, hmemory, hstatus⟩ := checkRateOfChange_eq v status hsample hlast hlimit
    simp only [checkConditions, hlimit, Option.isSome_some, if_true, AlarmView.meets]
    cases hnumber : tag.value.number with
    | none =>
      rw [hnumber] at hcondition hmemory hstatus
      exact ⟨hcondition, hmemory, hstatus⟩
    | some value =>
      rw [hnumber] at hcondition hmemory hstatus
      exact ⟨congrArg (checkThresholds rule value).or hcondition, hmemory, hstatus⟩
  | none =>
    have hkept : ∀ number, v.rate rule number tag.timestampNs =
        (none, v.lastSample, v.lastRate) := by
      intro number
      simp only [AlarmView.rate, hlimit]
    have hstatus : status = { status with lastRatePerSecond := v.lastRate } := by rw [hlast]
    simp only [checkConditions, hlimit, Option.isSome_none, Bool.false_eq_true, if_false,
      AlarmView.meets, hkept]
    cases tag.value.number with
    | none | some => exact ⟨rfl, hsample.symm, hstatus⟩

theorem statusOf_set_self (e : AlarmEngine) (tagId : String) (status : AlarmStatus) :
    statusOf { e with status := e.status.set tagId status } tagId = status := by
  rw [statusOf, Dict.get?_set_self, Option.getD_some]
variable (status : AlarmStatus)


theorem state_transition (condition : Option AlarmCondition) (now : Int) :
    (transition status condition now).state = AlarmView.next status.state condition := by
  cases condition with
  | none => rfl
  | some c =>
    simp only [transition, AlarmView.next]
    split
    · rfl
    · rfl

theorem condition_transition (condition : Option AlarmCondition)
    (now : Int) : (transition status condition now).condition = condition := by
  cases condition with
  | none => rfl
  | some c =>
    simp only [transition]
    split
    · rfl
    · rfl

theorem lastRate_transition (condition : Option AlarmCondition) (now : Int) :
    (transition status condition now).lastRatePerSecond = status.lastRatePerSecond := by
  cases condition with
  | none => rfl
  | some c =>
    simp only [transition]
    split
    · rfl
    · rfl

theorem view_evaluate (hrule : e.rules.get? tag.tagId = some rule) :
    (e.evaluate tag).2.view tag.tagId =
      (e.view tag.tagId).sample rule tag.value.number tag.timestampNs := by
  have hchecked := checkConditions_eq rule (e.view tag.tagId)
    { e.statusOf tag.tagId with lastValue := some tag.value } rfl rfl
  obtain ⟨hcondition, hmemory, hstatus⟩ := hchecked
  simp only [evaluate, hrule]
  rw [view, statusOf_set_self, state_transition, condition_transition, lastRate_transition,
    hcondition, hstatus, hmemory]
  rfl

theorem view_evaluate_of_none (hrule : e.rules.get? tag.tagId = none) (tagId : String) :
    (e.evaluate tag).2.view tagId = e.view tagId := by
  simp only [evaluate, hrule]

theorem view_set (tagId tagId' : String) :
    view { e with status := e.status.set tagId' status } tagId =
      if tagId = tagId' then
        ⟨status.state, status.condition, e.lastSample.get? tagId, status.lastRatePerSecond⟩
      else e.view tagId := by
  simp only [view, statusOf, Dict.get?_set]
  split
  · rfl
  · rfl

theorem view_operate (e : AlarmEngine) (tagId : String) (c : AlarmCall) :
    (e.operate c).view tagId = (e.view tagId).operate tagId c := by
  cases c with
  | acknowledge id actor now =>
    simp only [operate, AlarmView.operate]
    by_cases hid : id = tagId
    · subst hid
      cases hget : e.status.get? id with
      | none => simp [view, statusOf, hget, AlarmStatus.new]
      | some status =>
        have hstatus : e.statusOf id = status := by rw [statusOf, hget, Option.getD_some]
        by_cases hactive : status.state = .active
        · simp only [hactive, if_true]
          rw [view_set, if_pos rfl, view, hstatus, if_pos ⟨trivial, hactive⟩]
        · simp only [hactive, if_false]
          rw [view, hstatus, if_neg (fun h => hactive h.2)]
    · simp only [hid, false_and, if_false]
      split
      · split
        · rw [view_set, if_neg (Ne.symm hid)]
        · rfl
      · rfl
  | shelve id lapses =>
    simp only [operate, AlarmView.operate, view_set]
    split
    · next hid =>
      subst hid
      rfl
    · rfl
  | unshelve id =>
    simp only [operate, AlarmView.operate]
    split
    · next status hget =>
      split
      · rw [view_set]
        split
        · next hid =>
          subst hid
          simp only [view, statusOf, hget, Option.getD_some]
        · rfl
      · rfl
    · rfl

end AlarmEngine

/-! ## Samples that do not matter -/

def AlarmView.Ignores (v : AlarmView) (rule : AlarmRule) (number : Option ℚ) (now : Int) : Prop :=
  match number with
  | none => v.condition = none
  | some x => AlarmEngine.checkThresholds rule x = v.condition ∧
      (rule.rateOfChangePerSecond = none ∨ v.lastSample = some (x, now))

variable {v : AlarmView}

theorem AlarmView.rate_of_ignores {rule : AlarmRule} {number : Option ℚ}
    {now : Int} (h : v.Ignores rule number now) :
    v.rate rule number now = (none, v.lastSample, v.lastRate) := by
  cases number with
  | none => cases hlimit : rule.rateOfChangePerSecond <;> simp only [AlarmView.rate, hlimit]
  | some x =>
    obtain ⟨-, hnone | hsame⟩ := h
    · simp only [AlarmView.rate, hnone]
    · cases hlimit : rule.rateOfChangePerSecond with
      | none => simp only [AlarmView.rate, hlimit]
      | some limit => simp [AlarmView.rate, hlimit, hsame]

theorem AlarmView.sample_eq_self_iff (hv : v.Consistent) (rule : AlarmRule)
    (number : Option ℚ) (now : Int) :
    v.sample rule number now = v ↔ v.Ignores rule number now := by
  constructor
  · intro h
    have hcondition : v.meets rule number now = v.condition := congrArg AlarmView.condition h
    have hmemory : (v.rate rule number now).2.1 = v.lastSample := congrArg AlarmView.lastSample h
    cases number with
    | none =>
      have hnone : (v.rate rule none now).1 = none := by
        cases hlimit : rule.rateOfChangePerSecond <;> simp only [AlarmView.rate, hlimit]
      exact hcondition.symm.trans hnone
    | some x =>
      cases hlimit : rule.rateOfChangePerSecond with
      | none =>
        refine ⟨?_, .inl hlimit⟩
        have hrate : (v.rate rule (some x) now).1 = none := by simp only [AlarmView.rate, hlimit]
        rw [← hcondition, AlarmView.meets, hrate, Option.or_none]
      | some limit =>
        -- a rate is looked at, so the sample is remembered
        have hremembered : (v.rate rule (some x) now).2.1 = some (x, now) := by
          simp only [AlarmView.rate, hlimit]
          split
          · rfl
          · split <;> rfl
        have hsame : v.lastSample = some (x, now) := hmemory.symm.trans hremembered
        refine ⟨?_, .inr hsame⟩
        have hrate : (v.rate rule (some x) now).1 = none := by
          simp [AlarmView.rate, hlimit, hsame]
        rw [← hcondition, AlarmView.meets, hrate, Option.or_none]
  · intro h
    have hrate := AlarmView.rate_of_ignores h
    have hcondition : v.meets rule number now = v.condition := by
      cases number with
      | none =>
        rw [AlarmView.meets, hrate]
        exact h.symm
      | some x => rw [AlarmView.meets, hrate, Option.or_none, h.1]
    rw [AlarmView.sample, hcondition, hrate, AlarmView.next_condition hv]

/-! ## Two engines -/

inductive AlarmInput where
  | good (value : TagValue) (now : Int)
  | bad (now : Int)
  | operate (call : AlarmCall)

structure Watched where
  all : AlarmEngine
  good : AlarmEngine
  disturbed : Bool

namespace Watched

def start (rules : Dict String AlarmRule) : Watched := ⟨.new rules, .new rules, false⟩

variable (tag : ModbusTag) (config : Option TagPipelineConfig)

def after (s : Watched) : AlarmInput → Watched
  | .good value now =>
      let sample := normalize (tag.goodUpdate value now) config
      { s with all := (s.all.evaluate sample).2, good := (s.good.evaluate sample).2 }
  | .bad now =>
      let all := (s.all.evaluate (normalize (tag.badUpdate now) config)).2
      { s with
        all := all
        disturbed := s.disturbed ||
          decide ((all.view tag.tagId).state = .normal) !=
            decide ((s.all.view tag.tagId).state = .normal) }
  | .operate call => { s with all := s.all.operate call, good := s.good.operate call }

/-- The two engines have the same alarm for the tag, and no bad sample has raised or cleared
it. -/
def Agree (s : Watched) : Prop :=
  s.all.view tag.tagId = s.good.view tag.tagId ∧ s.disturbed = false

/-- A bad sample does not matter: the tag has no rule; or it is a bit, and does not alarm; or
the offset of its scaling meets just the condition that the tag is in, and the rate of change
is not looked at or has this very sample in its memory. -/
def HarmlessBad (s : Watched) : AlarmInput → Prop
  | .bad now => ∀ rule, s.all.rules.get? tag.tagId = some rule →
      (isBitFunction tag.functionCode = true → (s.all.statusOf tag.tagId).condition = none) ∧
      (isBitFunction tag.functionCode = false →
        AlarmEngine.checkThresholds rule (appliedScaling config).2 =
            (s.all.statusOf tag.tagId).condition ∧
          (rule.rateOfChangePerSecond = none ∨
            s.all.lastSample.get? tag.tagId = some ((appliedScaling config).2, now)))
  | _ => True

structure Inv (rules : Dict String AlarmRule) (s : Watched) : Prop where
  all : s.all.rules = rules
  good : s.good.rules = rules
  consistent : (s.all.view tag.tagId).Consistent

end Watched

def watchedMachine (tag : ModbusTag) (config : Option TagPipelineConfig) :
    Machine Watched AlarmInput := ⟨fun s input => some (s.after tag config input)⟩

section Watched

variable {tag : ModbusTag} {config : Option TagPipelineConfig} {rules : Dict String AlarmRule}
variable {s : Watched}

theorem inv_start : (Watched.start rules).Inv tag rules where
  all := rfl
  good := rfl
  consistent := ⟨fun _ => rfl, fun _ => rfl⟩

theorem consistent_evaluate {e : AlarmEngine} (sample : UnifiedTag)
    (h : (e.view sample.tagId).Consistent) :
    ((e.evaluate sample).2.view sample.tagId).Consistent := by
  cases hrule : e.rules.get? sample.tagId with
  | none => rwa [AlarmEngine.view_evaluate_of_none hrule]
  | some rule =>
    rw [AlarmEngine.view_evaluate hrule]
    exact AlarmView.consistent_sample ..

theorem inv_after (h : s.Inv tag rules) (input : AlarmInput) :
    (s.after tag config input).Inv tag rules := by
  cases input with
  | good value now =>
    exact ⟨(AlarmEngine.rules_evaluate ..).trans h.all,
      (AlarmEngine.rules_evaluate ..).trans h.good,
      consistent_evaluate (normalize (tag.goodUpdate value now) config) h.consistent⟩
  | bad now =>
    exact ⟨(AlarmEngine.rules_evaluate ..).trans h.all, h.good,
      consistent_evaluate (normalize (tag.badUpdate now) config) h.consistent⟩
  | operate call =>
    refine ⟨(AlarmEngine.rules_operate ..).trans h.all, (AlarmEngine.rules_operate ..).trans h.good,
      ?_⟩
    show ((s.all.operate call).view tag.tagId).Consistent
    rw [AlarmEngine.view_operate]
    exact h.consistent.operate _ _

theorem view_evaluate_congr {e e' : AlarmEngine} (sample : UnifiedTag)
    (hrules : e.rules = e'.rules) (hview : e.view sample.tagId = e'.view sample.tagId) :
    (e.evaluate sample).2.view sample.tagId = (e'.evaluate sample).2.view sample.tagId := by
  cases hrule : e.rules.get? sample.tagId with
  | none =>
    rw [AlarmEngine.view_evaluate_of_none hrule,
      AlarmEngine.view_evaluate_of_none (hrules ▸ hrule), hview]
  | some rule =>
    rw [AlarmEngine.view_evaluate hrule, AlarmEngine.view_evaluate (hrules ▸ hrule), hview]

theorem view_bad_iff (h : s.Inv tag rules) (now : Int) :
    (s.all.evaluate (normalize (tag.badUpdate now) config)).2.view tag.tagId =
        s.all.view tag.tagId ↔
      s.HarmlessBad tag config (.bad now) := by
  have hid : (normalize (tag.badUpdate now) config).tagId = tag.tagId := rfl
  cases hrule : s.all.rules.get? tag.tagId with
  | none =>
    rw [AlarmEngine.view_evaluate_of_none (hid ▸ hrule)]
    refine ⟨fun _ rule hsome => ?_, fun _ => rfl⟩
    rw [hrule] at hsome
    cases hsome
  | some rule =>
    have hview := AlarmEngine.view_evaluate
      (show s.all.rules.get? (normalize (tag.badUpdate now) config).tagId = some rule from hrule)
    rw [hid, ModbusTag.number_badUpdate] at hview
    rw [hview, AlarmView.sample_eq_self_iff h.consistent]
    simp only [Watched.HarmlessBad, hrule, Option.some_inj, forall_eq', AlarmView.Ignores,
      ModbusTag.placeholderNumber]
    cases isBitFunction tag.functionCode with
    | true => simp [AlarmEngine.view]
    | false => simp [AlarmEngine.view, normalize, ModbusTag.badUpdate]

theorem agree_after_iff (h : s.Inv tag rules) (hagree : s.Agree tag) (input : AlarmInput) :
    (s.after tag config input).Agree tag ↔ s.HarmlessBad tag config input := by
  obtain ⟨hview, hquiet⟩ := hagree
  cases input with
  | good value now =>
    refine ⟨fun _ => trivial, fun _ => ⟨?_, hquiet⟩⟩
    exact view_evaluate_congr (normalize (tag.goodUpdate value now) config)
      (h.all.trans h.good.symm) hview
  | bad now =>
    rw [← view_bad_iff h now]
    constructor
    · rintro ⟨hafter, -⟩
      exact hafter.trans hview.symm
    · intro hsame
      refine ⟨hsame.trans hview, ?_⟩
      simp only [Watched.after, hsame, hquiet, Bool.false_or, bne_self_eq_false]
  | operate call =>
    refine ⟨fun _ => trivial, fun _ => ⟨?_, hquiet⟩⟩
    show (s.all.operate call).view tag.tagId = (s.good.operate call).view tag.tagId
    rw [AlarmEngine.view_operate, AlarmEngine.view_operate, hview]

end Watched

/-- **When bad samples do not matter.**  All along a run the alarm is that of the good samples
alone, and no bad sample raises or clears it, exactly if each bad sample is harmless. -/
theorem bad_samples_ignored_iff (tag : ModbusTag) (config : Option TagPipelineConfig)
    (rules : Dict String AlarmRule) (inputs : List AlarmInput) :
    (watchedMachine tag config).Always (Watched.Agree tag) (.start rules) inputs ↔
      (watchedMachine tag config).Meets (Watched.HarmlessBad tag config) (.start rules)
        inputs := by
  obtain ⟨s, hrun⟩ := (watchedMachine tag config).exists_run (fun _ _ => ⟨_, rfl⟩)
    (.start rules) inputs
  refine (watchedMachine tag config).always_iff_meets (I := Watched.Inv tag rules) ?_ ?_ inv_start
    ⟨rfl, rfl⟩ hrun
  · rintro s input _ h hstep
    cases hstep
    exact inv_after h input
  · rintro s input _ h hagree hstep
    cases hstep
    exact agree_after_iff h hagree input

def levelTag : ModbusTag := ⟨"plc", "level", 10, .readHoldingRegisters, none⟩

def levelRules : Dict String AlarmRule :=
  Dict.empty.set "plc/level" ⟨some 80, none, some 5, none, none⟩

/-- **A read error raises an alarm, and clears one.**  A level of 10 is normal and the
placeholder too low; a level of 90 is too high, and with an offset of 20 the placeholder is
normal. -/
theorem placeholder_raises :
    ((watchedMachine levelTag none).run (.start levelRules) [.good (.int 10) 0, .bad 1]).map
        (fun s => ((s.all.view "plc/level").state, (s.good.view "plc/level").state,
          s.disturbed)) = some (.active, .normal, true) ∧
    ((watchedMachine levelTag (some ⟨some ⟨1, 20⟩, none, none⟩)).run (.start levelRules)
        [.good (.int 90) 0, .bad 1]).map
        (fun s => ((s.all.view "plc/level").state, (s.good.view "plc/level").state,
          s.disturbed)) = some (.normal, .active, true) := by
  exact ⟨by decide +kernel, by decide +kernel⟩

end XEdge.Core
