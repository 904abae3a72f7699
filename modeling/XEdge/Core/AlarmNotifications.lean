import XEdge.Core.Alarms
import XEdge.Lib.Machine

/-!
# Alarm notifications (`xedge/core/smtp.py`, `xedge/core/snmp_notify.py`)

The alarm engine calls nobody back: two loops, one for e-mails and one for SNMP notifications,
poll it, compare the state of every alarm with the one they saw last, and send when a boundary
between normal and alarming has been crossed.  Between two polls, and between two tags of one
poll, the engine goes on.
-/

namespace XEdge.Core

open Lib

/-! ## Messages -/

def AlarmCondition.text : AlarmCondition → String
  | .highHigh => "high_high"
  | .lowLow => "low_low"
  | .high => "high"
  | .low => "low"
  | .rateOfChange => "rate_of_change"

/-- The value of an `AlarmState`. -/
def AlarmState.value : AlarmState → String
  | .normal => "normal"
  | .active => "active"
  | .activeAcked => "active_acked"

def isAlarming (state : AlarmState) : Bool := state ≠ .normal

def isShelved (status : AlarmStatus) (now : Int) : Bool := status.shelvedUntil.any (now < ·)

structure Email where
  toAddresses : List String
  subject : String
  body : String
  deriving DecidableEq

/-- An SNMP notification: its type, and its variables with their values. -/
structure SnmpNotification where
  oid : String
  varbinds : List (String × String)
  deriving DecidableEq

section Messages

-- `repr` of a value and `isoformat` of a time
variable (repr : Option TagValue → String) (isoformat : Int → String)

/-- `alarm_status.condition or 'normal'`. -/
def conditionText (status : AlarmStatus) : String :=
  (status.condition.map AlarmCondition.text).getD "normal"

def formatAlarmNotification (tagId : String) (status : AlarmStatus) (raised : Bool) :
    String × String :=
  let verb := if raised then "ALARM" else "CLEARED"
  let since := if raised then status.activeSince.map fun t => "Active since: " ++ isoformat t
    else none
  let lines := ["Tag: " ++ tagId, "Condition: " ++ conditionText status,
    "Value: " ++ repr status.lastValue] ++ since.toList
  ("[xEdge] " ++ verb ++ ": " ++ tagId, String.intercalate "\n" lines)

def PLACEHOLDER_ENTERPRISE_OID : String := "1.3.6.1.4.1.999999"

/-- The notification that `_send_one` builds. -/
def snmpNotification (tagId : String) (status : AlarmStatus) (raised : Bool) :
    SnmpNotification where
  oid := PLACEHOLDER_ENTERPRISE_OID ++ if raised then ".3.1" else ".3.2"
  varbinds :=
    [(PLACEHOLDER_ENTERPRISE_OID ++ ".4.1", tagId),
      (PLACEHOLDER_ENTERPRISE_OID ++ ".4.2", conditionText status),
      (PLACEHOLDER_ENTERPRISE_OID ++ ".4.3", repr status.lastValue),
      (PLACEHOLDER_ENTERPRISE_OID ++ ".4.4", status.state.value)]

end Messages

/-! ## The loop -/

inductive SendOutcome where
  | accepted
  /-- An exception that `send_email` or `send_alarm_notification` catches. -/
  | failed
  /-- Any other exception: it ends the loop. -/
  | raised
  deriving DecidableEq

structure Notifier (μ : Type*) where
  format : String → AlarmStatus → Bool → μ
  configured : Bool

structure Notification (μ : Type*) where
  tagId : String
  raised : Bool
  message : μ
  outcome : SendOutcome
  /-- Ghost: the episode of the alarm that it is about. -/
  episode : Nat
  deriving DecidableEq

structure NotifierState (μ : Type*) where
  engine : AlarmEngine
  previousStates : Dict String AlarmState
  now : Int
  pending : List String
  running : Bool
  sent : List (Notification μ)
  /-- Ghost: how often the alarm of a tag has gone from normal to alarming. -/
  episode : String → Nat
  /-- Ghost: the episode in which the loop saw a tag last. -/
  seen : String → Nat
  /-- Ghost: the tags that were seen alarming and not shelved, with their episodes. -/
  observed : List (String × Nat)

inductive NotifierEvent where
  | evaluate (tag : UnifiedTag)
  | operate (call : AlarmCall)
  | poll (now : Int)
  /-- The poll looks at the next tag; what becomes of the message, if there is one. -/
  | observe (outcome : SendOutcome)

namespace NotifierState

variable {μ : Type*}

def start (rules : Dict String AlarmRule) : NotifierState μ :=
  ⟨.new rules, .empty, 0, [], true, [], fun _ => 0, fun _ => 0, []⟩

/-- `previous_states.get(tag_id, AlarmState.NORMAL)`. -/
def prior (s : NotifierState μ) (tagId : String) : AlarmState :=
  (s.previousStates.get? tagId).getD .normal

/-- The engine moves on; an alarm that has left normal begins a new episode. -/
def setEngine (s : NotifierState μ) (e : AlarmEngine) : NotifierState μ :=
  { s with
    engine := e
    episode := fun tagId =>
      if isAlarming (s.engine.statusOf tagId).state = false ∧
          isAlarming (e.statusOf tagId).state = true then
        s.episode tagId + 1
      else s.episode tagId }

def look (s : NotifierState μ) (tagId : String) (rest : List String) : NotifierState μ :=
  let status := s.engine.statusOf tagId
  { s with
    previousStates := s.previousStates.set tagId status.state
    pending := rest
    seen := Function.update s.seen tagId (s.episode tagId)
    observed := s.observed ++
      if isAlarming status.state && !isShelved status s.now then [(tagId, s.episode tagId)]
      else [] }

def notify (s : NotifierState μ) (m : Notification μ) : NotifierState μ :=
  { s with
    sent := s.sent ++ [m]
    running := s.running && m.outcome ≠ .raised
    pending := if m.outcome = .raised then [] else s.pending }

/-- What the loop does with the next tag.  A raise is about the episode of now, a clear about
the one that the loop saw last. -/
def observe (n : Notifier μ) (s : NotifierState μ) (outcome : SendOutcome) :
    Option (NotifierState μ) :=
  match s.pending with
  | [] => none
  | tagId :: rest =>
      let status := s.engine.statusOf tagId
      let raised := isAlarming status.state
      let s' := s.look tagId rest
      if status.state = s.prior tagId then some s'
      else if raised = isAlarming (s.prior tagId) then some s'
      else if isShelved status s.now then some s'
      else if n.configured then
        some (s'.notify ⟨tagId, raised, n.format tagId status raised, outcome,
          if raised then s.episode tagId else s.seen tagId⟩)
      else some s'

def step (n : Notifier μ) (s : NotifierState μ) : NotifierEvent → Option (NotifierState μ)
  | .evaluate tag => some (s.setEngine (s.engine.evaluate tag).2)
  | .operate call => some (s.setEngine (s.engine.operate call))
  | .poll now =>
      if s.running ∧ s.pending = [] then
        some { s with now := now, pending := s.engine.status.keys }
      else none
  | .observe outcome => s.observe n outcome

def RaiseSent (s : NotifierState μ) (tagId : String) (episode : Nat) : Prop :=
  ∃ m ∈ s.sent, m.tagId = tagId ∧ m.episode = episode ∧ m.raised = true ∧ m.outcome = .accepted

structure Follows (s : NotifierState μ) : Prop where
  raise : ∀ x ∈ s.observed, s.RaiseSent x.1 x.2
  clear : ∀ m ∈ s.sent, m.raised = false → s.RaiseSent m.tagId m.episode

/-- A tag that is alarming and was normal when the loop saw it last is not shelved, and its
message is accepted; one that was alarming already is so in the same episode. -/
def SeenInTime (s : NotifierState μ) : NotifierEvent → Prop
  | .observe outcome => ∀ tagId ∈ s.pending.head?,
      isAlarming (s.engine.statusOf tagId).state = true →
        if isAlarming (s.prior tagId) then s.episode tagId = s.seen tagId
        else isShelved (s.engine.statusOf tagId) s.now = false ∧ outcome = .accepted
  | _ => True

instance (s : NotifierState μ) : (e : NotifierEvent) → Decidable (s.SeenInTime e)
  | .observe outcome => inferInstanceAs (Decidable (∀ tagId ∈ s.pending.head?,
      isAlarming (s.engine.statusOf tagId).state = true →
        if isAlarming (s.prior tagId) then s.episode tagId = s.seen tagId
        else isShelved (s.engine.statusOf tagId) s.now = false ∧ outcome = .accepted))
  | .evaluate _ | .operate _ | .poll _ => isTrue trivial

end NotifierState

def notifierMachine {μ : Type*} (n : Notifier μ) : Machine (NotifierState μ) NotifierEvent :=
  ⟨NotifierState.step n⟩

def alarmNotificationLoop (repr : Option TagValue → String) (isoformat : Int → String)
    (recipients : List String) : Machine (NotifierState Email) NotifierEvent :=
  notifierMachine
    { format := fun tagId status raised =>
        let (subject, body) := formatAlarmNotification repr isoformat tagId status raised
        ⟨recipients, subject, body⟩
      configured := recipients ≠ [] }

/-- `snmp_alarm_notification_loop`; the destinations are host and port. -/
def snmpAlarmNotificationLoop (repr : Option TagValue → String)
    (destinations : List (String × Nat)) :
    Machine (NotifierState (SnmpNotification × List (String × Nat))) NotifierEvent :=
  notifierMachine
    { format := fun tagId status raised => (snmpNotification repr tagId status raised, destinations)
      configured := destinations ≠ [] }

/-! ## What a look does -/

namespace NotifierState

variable {μ : Type*} {n : Notifier μ} {s s' : NotifierState μ}

theorem prior_look (s : NotifierState μ) (tagId tagId' : String) (rest : List String) :
    (s.look tagId rest).prior tagId' =
      if tagId' = tagId then (s.engine.statusOf tagId).state else s.prior tagId' := by
  show ((s.previousStates.set tagId _).get? tagId').getD _ = _
  rw [Dict.get?_set]
  split
  · rfl
  · rfl

variable {outcome : SendOutcome}

/-- **All that a look can do**: nothing but to look, or to send one message on a crossing. -/
theorem observe_cases (hconfigured : n.configured = true) (h : s.observe n outcome = some s') :
    ∃ tagId rest, s.pending = tagId :: rest ∧
      ((isAlarming (s.engine.statusOf tagId).state = isAlarming (s.prior tagId) ∨
          isShelved (s.engine.statusOf tagId) s.now = true) ∧ s' = s.look tagId rest ∨
        isAlarming (s.engine.statusOf tagId).state = true ∧ isAlarming (s.prior tagId) = false ∧
          (∃ message, s' = (s.look tagId rest).notify
            ⟨tagId, true, message, outcome, s.episode tagId⟩) ∨
        isAlarming (s.engine.statusOf tagId).state = false ∧ isAlarming (s.prior tagId) = true ∧
          (∃ message, s' = (s.look tagId rest).notify
            ⟨tagId, false, message, outcome, s.seen tagId⟩)) := by
  unfold observe at h
  split at h
  · cases h
  · next tagId rest hpending =>
    refine ⟨tagId, rest, hpending, ?_⟩
    simp only [hconfigured, if_true] at h
    split at h
    · next hsame =>
      cases h
      exact .inl ⟨.inl (by rw [hsame]), rfl⟩
    · split at h
      · next hcrossed =>
        cases h
        exact .inl ⟨.inl hcrossed, rfl⟩
      · next hcrossed =>
        split at h
        · next hshelved =>
          cases h
          exact .inl ⟨.inr hshelved, rfl⟩
        · cases h
          cases hnow : isAlarming (s.engine.statusOf tagId).state with
          | true =>
            rw [hnow] at hcrossed
            exact .inr (.inl ⟨rfl, by simpa using hcrossed, _, rfl⟩)
          | false =>
            rw [hnow] at hcrossed
            exact .inr (.inr ⟨rfl, by simpa using hcrossed, _, rfl⟩)

variable {tagId : String}

theorem RaiseSent.notify {episode : Nat} (h : s.RaiseSent tagId episode)
    (m : Notification μ) : (s.notify m).RaiseSent tagId episode := by
  obtain ⟨m', hm', hraise⟩ := h
  exact ⟨m', List.mem_append_left _ hm', hraise⟩

variable {m : Notification μ}

theorem raiseSent_notify_self (hraised : m.raised = true)
    (haccepted : m.outcome = .accepted) : (s.notify m).RaiseSent m.tagId m.episode :=
  ⟨m, List.mem_append_right _ (List.mem_singleton_self m), rfl, rfl, hraised, haccepted⟩

/-- The invariant: a tag that the loop saw alarming last has had its raise. -/
structure Announced (s : NotifierState μ) : Prop where
  follows : s.Follows
  alarming : ∀ tagId, isAlarming (s.prior tagId) = true → s.RaiseSent tagId (s.seen tagId)

variable {rest : List String}

theorem Announced.look (h : s.Announced)
    (hraise : isAlarming (s.engine.statusOf tagId).state = true →
      s.RaiseSent tagId (s.episode tagId)) : (s.look tagId rest).Announced := by
  refine ⟨⟨?_, h.follows.clear⟩, ?_⟩
  · intro x hx
    obtain hold | hnew := List.mem_append.1 hx
    · exact h.follows.raise x hold
    · split at hnew
      · next hseen =>
        rw [List.mem_singleton.1 hnew]
        exact hraise (Bool.and_eq_true_iff.1 hseen).1
      · exact absurd hnew List.not_mem_nil
  · intro tagId' hprior
    rw [prior_look] at hprior
    by_cases htag : tagId' = tagId
    · subst htag
      rw [if_pos rfl] at hprior
      show s.RaiseSent tagId' (Function.update s.seen tagId' (s.episode tagId') tagId')
      rw [Function.update_self]
      exact hraise hprior
    · rw [if_neg htag] at hprior
      show s.RaiseSent tagId' (Function.update s.seen tagId (s.episode tagId) tagId')
      rw [Function.update_of_ne htag]
      exact h.alarming tagId' hprior

theorem Announced.notify (h : s.Announced)
    (hclear : m.raised = false → s.RaiseSent m.tagId m.episode) : (s.notify m).Announced := by
  refine ⟨⟨?_, ?_⟩, ?_⟩
  · intro x hx
    exact (h.follows.raise x hx).notify m
  · intro m' hm' hcleared
    rw [show (s.notify m).sent = s.sent ++ [m] from rfl, List.mem_append, List.mem_singleton] at hm'
    obtain hold | rfl := hm'
    · exact (h.follows.clear m' hold hcleared).notify m
    · exact (hclear hcleared).notify m'
  · intro tagId hprior
    exact (h.alarming tagId hprior).notify m

theorem Announced.look_notify
    (h : ((s.notify m).look tagId rest).Announced) : ((s.look tagId rest).notify m).Announced :=
  ⟨⟨h.follows.raise, h.follows.clear⟩, h.alarming⟩

theorem announced_observe (hconfigured : n.configured = true)
    (h : s.Announced) (hseen : s.SeenInTime (.observe outcome))
    (hstep : s.observe n outcome = some s') : s'.Announced := by
  obtain ⟨tagId, rest, hpending, hcases⟩ := observe_cases hconfigured hstep
  have hguard := hseen tagId (by rw [hpending]; rfl)
  obtain ⟨hquiet, rfl⟩ | ⟨hnow, hprior, message, rfl⟩ | ⟨hnow, hprior, message, rfl⟩ := hcases
  · refine h.look fun hnow => ?_
    have htime := hguard hnow
    split at htime
    · next hprior =>
      rw [htime]
      exact h.alarming tagId hprior
    · next hprior =>
      -- a crossing, which the guard allows only when the tag is not shelved
      obtain hsame | hshelved := hquiet
      · exact absurd (hsame.symm.trans hnow) hprior
      · rw [htime.1] at hshelved
        cases hshelved
  · have htime := hguard hnow
    rw [hprior, if_neg Bool.false_ne_true] at htime
    refine Announced.look_notify ((h.notify fun hraised => by cases hraised).look fun _ => ?_)
    exact raiseSent_notify_self rfl htime.2
  · refine Announced.look_notify ((h.notify fun _ => h.alarming tagId hprior).look fun hnow' => ?_)
    have hcontra : isAlarming (s.engine.statusOf tagId).state = true := hnow'
    rw [hnow] at hcontra
    cases hcontra

theorem announced_step {e : NotifierEvent} (hconfigured : n.configured = true)
    (h : s.Announced) (hseen : s.SeenInTime e) (hstep : s.step n e = some s') :
    s'.Announced := by
  cases e with
  | evaluate | operate =>
    cases hstep
    exact ⟨⟨h.follows.raise, h.follows.clear⟩, h.alarming⟩
  | poll now =>
    rw [step] at hstep
    split at hstep
    · cases hstep
      exact ⟨⟨h.follows.raise, h.follows.clear⟩, h.alarming⟩
    · cases hstep
  | observe outcome => exact announced_observe hconfigured h hseen hstep

theorem announced_start (rules : Dict String AlarmRule) :
    (start rules : NotifierState μ).Announced := by
  refine ⟨⟨?_, ?_⟩, ?_⟩
  · exact fun x hx => absurd hx List.not_mem_nil
  · exact fun m hm => absurd hm List.not_mem_nil
  · intro tagId hprior
    have hnormal : isAlarming .normal = true := hprior
    cases hnormal

end NotifierState

theorem follows_of_meets {μ : Type*} {n : Notifier μ} (hconfigured : n.configured = true)
    {rules : Dict String AlarmRule} {es : List NotifierEvent} {s : NotifierState μ}
    (hseen : (notifierMachine n).Meets NotifierState.SeenInTime (.start rules) es)
    (hrun : (notifierMachine n).run (.start rules) es = some s) : s.Follows := by
  have hannounced : s.Announced := (notifierMachine n).inv_run_of_meets
    (fun _ _ _ h hG hstep => NotifierState.announced_step hconfigured h hG hstep)
    (NotifierState.announced_start rules) hseen hrun
  exact hannounced.follows

/-- **Notifications follow the alarms.**  Whatever the samples, the operators and the polls do:
as long as every tag is seen in time, a tag that is seen alarming and not shelved has had a raise
for its episode, and a clear is sent only for an episode that has had its raise. -/
theorem notifications_follow_run (repr : Option TagValue → String) (isoformat : Int → String)
    (recipients : List String) (destinations : List (String × Nat))
    (rules : Dict String AlarmRule) (es : List NotifierEvent) :
    (recipients ≠ [] →
      ∀ s, (alarmNotificationLoop repr isoformat recipients).run (.start rules) es = some s →
        (alarmNotificationLoop repr isoformat recipients).Meets NotifierState.SeenInTime
          (.start rules) es → s.Follows) ∧
      (destinations ≠ [] →
        ∀ s, (snmpAlarmNotificationLoop repr destinations).run (.start rules) es = some s →
          (snmpAlarmNotificationLoop repr destinations).Meets NotifierState.SeenInTime
            (.start rules) es → s.Follows) := by
  constructor
  · intro hrecipients s hrun hseen
    exact follows_of_meets (decide_eq_true hrecipients) hseen hrun
  · intro hdestinations s hrun hseen
    exact follows_of_meets (decide_eq_true hdestinations) hseen hrun

/-! ## Two runs -/

def highAtTen : Dict String AlarmRule :=
  Dict.empty.set "tank/level" ⟨some 10, none, none, none, none⟩

def levelSample (value : Int) (timestamp : Int) : NotifierEvent :=
  .evaluate ⟨"tank/level", timestamp, .int value, "int16", .good, "plc", "40001", none, false⟩

def operatorLoop : Machine (NotifierState Email) NotifierEvent :=
  alarmNotificationLoop (fun _ => "11") (fun _ => "2026-01-01T00:00:01+00:00") ["op@plant"]

def acknowledgedAlarm : List NotifierEvent :=
  [levelSample 11 1, .poll 2, .observe .accepted, .operate (.acknowledge "tank/level" "op" 3),
    .poll 4, .observe .accepted, levelSample 5 5, .poll 6, .observe .failed]

theorem notifications_follow_acknowledged : ∃ s,
    operatorLoop.run (.start highAtTen) acknowledgedAlarm = some s ∧
      s.sent.map (fun m => (m.message.subject, m.episode)) =
        [("[xEdge] ALARM: tank/level", 1), ("[xEdge] CLEARED: tank/level", 1)] ∧
      s.observed = [("tank/level", 1), ("tank/level", 1)] ∧ s.Follows := by
  obtain ⟨s, hs, hv⟩ := Option.map_eq_some_iff.1
    (show (operatorLoop.run (.start highAtTen) acknowledgedAlarm).map
        (fun s => (s.sent.map fun m => (m.message.subject, m.episode), s.observed)) =
      some ([("[xEdge] ALARM: tank/level", 1), ("[xEdge] CLEARED: tank/level", 1)],
        [("tank/level", 1), ("tank/level", 1)]) by decide +kernel)
  obtain ⟨hsent, hobserved⟩ := Prod.mk.inj hv
  refine ⟨s, hs, hsent, hobserved, ?_⟩
  exact (notifications_follow_run _ _ ["op@plant"] [] highAtTen acknowledgedAlarm).1
    (by decide) s hs (by decide +kernel)

def shelvedAlarm : List NotifierEvent :=
  [.operate (.shelve "tank/level" 100), levelSample 11 1, .poll 2, .observe .accepted,
    .operate (.unshelve "tank/level"), .poll 4, .observe .accepted, levelSample 5 5, .poll 6,
    .observe .accepted]

/-- **An alarm without a raise.**  The loop has remembered the state of the shelved alarm, so
that nothing is sent when the alarm is seen alarming and no longer shelved; the only message is
that it is cleared. -/
theorem shelved_alarm_never_raised : ∃ s,
    operatorLoop.run (.start highAtTen) shelvedAlarm = some s ∧
      s.observed = [("tank/level", 1)] ∧
      s.sent.map (fun m => (m.message.subject, m.raised, m.episode)) =
        [("[xEdge] CLEARED: tank/level", false, 1)] ∧ ¬ s.Follows := by
  obtain ⟨s, hs, hv⟩ := Option.map_eq_some_iff.1
    (show (operatorLoop.run (.start highAtTen) shelvedAlarm).map
        (fun s => (s.observed, s.sent.map fun m => (m.message.subject, m.raised, m.episode))) =
      some ([("tank/level", 1)], [("[xEdge] CLEARED: tank/level", false, 1)]) by decide +kernel)
  obtain ⟨hobserved, hsent⟩ := Prod.mk.inj hv
  refine ⟨s, hs, hobserved, hsent, fun hfollows => ?_⟩
  obtain ⟨m, hm, -, -, hraised, -⟩ := hfollows.raise ("tank/level", 1) (by rw [hobserved]; decide)
  have hmem := List.mem_map_of_mem (f := fun m => (m.message.subject, m.raised, m.episode)) hm
  rw [hsent, List.mem_singleton] at hmem
  have hcleared : m.raised = false := (Prod.mk.inj (Prod.mk.inj hmem).2).1
  rw [hraised] at hcleared
  cases hcleared

end XEdge.Core
