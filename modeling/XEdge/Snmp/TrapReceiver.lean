import XEdge.Lib.Machine
import XEdge.Snmp.Client

/-!
# The trap receiver (`xedge/drivers/snmp/receiver.py`)

A notification carries variable bindings.  `configure` has made a dictionary from OIDs to tags, and
the callback queues an update for each binding whose OID is in it.  The queue is the one of all
drivers and is bounded; the callback cannot wait, so what does not fit is dropped and counted as an
error.  A dictionary holds one tag for each OID, the last of the configuration.
-/

namespace XEdge.Snmp

open Lib XEdge.Core

/-! ## The configuration -/

/-- An entry of `tags`. -/
structure TrapTag extends TagDef where
  trapOid : String
  deriving DecidableEq

/-- An entry of `tag_groups`. -/
structure TrapTagGroup where
  id : String
  tags : List TrapTag
  deriving DecidableEq

/-- What the driver is given: its configuration, and how long the queue may become (0 for any
length). -/
structure TrapConfig where
  instanceId : String
  tagGroups : List TrapTagGroup
  maxsize : Nat

/-- The `pattern` of `trap_oid`: decimal numbers with dots between them, two at least.  The
`$` of a regular expression matches before a last newline, too. -/
def OidPattern (text : List Char) : Prop :=
  let body := if text.getLast? = some '\n' then text.dropLast else text
  2 ≤ (body.splitOn '.').length ∧ ∀ arc ∈ body.splitOn '.', arc ≠ [] ∧ arc.all Char.isDigit

instance (text : List Char) : Decidable (OidPattern text) := inferInstanceAs (Decidable (_ ∧ _))

/-- `snmp_trap_receiver.schema.json`, for `tag_groups`. -/
def TrapConfig.SchemaValid (C : TrapConfig) : Prop :=
  ∀ group ∈ C.tagGroups, group.id ≠ "" ∧ group.tags ≠ [] ∧
    ∀ tag ∈ group.tags, tag.id ≠ "" ∧ OidPattern tag.trapOid.toList

instance (C : TrapConfig) : Decidable C.SchemaValid :=
  inferInstanceAs (Decidable (∀ group ∈ C.tagGroups, _))

namespace TrapConfig

variable (C : TrapConfig)

def tags : List TrapTag := C.tagGroups.flatMap TrapTagGroup.tags

/-- `configure`. -/
def tagsByOid : Dict String TrapTag := .ofList (C.tags.map fun tag => (tag.trapOid, tag))

def tagsFor (oid : String) : List TrapTag := C.tags.filter fun tag => tag.trapOid = oid

end TrapConfig

/-! ## The driver -/

/-- A variable binding: `str(oid)`, and the value. -/
structure Binding where
  oid : String
  value : Asn1Value
  deriving DecidableEq

/-- `SnmpTrapReceiverDriver`, with the queue that it puts into. -/
structure TrapReceiver where
  /-- `_output` is set. -/
  running : Bool
  metrics : DriverMetrics
  queue : List TagUpdate

inductive ReceiverEvent where
  /-- `run` is called. -/
  | run
  /-- `run` ends. -/
  | ended
  | notification (now : Int) (varBinds : List Binding)
  | put (update : TagUpdate)
  | get

def trapUpdate (instanceId : String) (now : Int) (b : Binding) (tag : TrapTag) : TagUpdate :=
  ⟨qualifiedId instanceId tag.id, decode b.value, .good, now, none, instanceId, b.oid⟩

namespace TrapReceiver

variable (C : TrapConfig) (now : Int)

/-- The driver before `run`. -/
def start : TrapReceiver := ⟨false, .new, []⟩

def Full (queue : List TagUpdate) : Prop := 0 < C.maxsize ∧ C.maxsize ≤ queue.length

instance (queue : List TagUpdate) : Decidable (Full C queue) :=
  inferInstanceAs (Decidable (_ ∧ _))

/-- The body of the loop in `_on_notification`. -/
def onVarBind (s : TrapReceiver) (b : Binding) : TrapReceiver :=
  match C.tagsByOid.get? b.oid with
  | none => s
  | some tag =>
      let metrics := s.metrics.read now
      if s.running then
        if Full C s.queue then { s with metrics := metrics.failed 1 }
        else { s with metrics, queue := s.queue ++ [trapUpdate C.instanceId now b tag] }
      else { s with metrics }

def onNotification (s : TrapReceiver) (varBinds : List Binding) : TrapReceiver :=
  varBinds.foldl (onVarBind C now) s

def step (s : TrapReceiver) : ReceiverEvent → Option TrapReceiver
  | .run => some { s with running := true }
  | .ended => some { s with running := false }
  | .notification now varBinds => some (s.onNotification C now varBinds)
  | .put update => if Full C s.queue then none else some { s with queue := s.queue ++ [update] }
  | .get => if s.queue = [] then none else some { s with queue := s.queue.tail }

end TrapReceiver

def receiverMachine (C : TrapConfig) : Machine TrapReceiver ReceiverEvent :=
  ⟨TrapReceiver.step C⟩

/-! ## What a notification is for, and what becomes of it -/

section Updates

variable (C : TrapConfig) (now : Int)

/-- The updates that a notification is for: one for each binding and each tag with its OID. -/
def dueUpdates (varBinds : List Binding) : List TagUpdate :=
  varBinds.flatMap fun b => (C.tagsFor b.oid).map (trapUpdate C.instanceId now b)

def madeUpdates (varBinds : List Binding) : List TagUpdate :=
  varBinds.flatMap fun b => (C.tagsByOid.get? b.oid).toList.map (trapUpdate C.instanceId now b)

/-- The updates are queued in their order up to the last that fits, and the others are counted as
errors. -/
def Delivered (updates : List TagUpdate) (s s' : TrapReceiver) : Prop :=
  ∃ k ≤ updates.length, s'.queue = s.queue ++ updates.take k ∧
    s'.metrics.errorCount = s.metrics.errorCount + (updates.length - k) ∧
    (k < updates.length → TrapReceiver.Full C s'.queue)

/-- What is asked of an event: a notification brings every tag its updates. -/
def FansOut (s : TrapReceiver) : ReceiverEvent → Prop
  | .notification now varBinds =>
      Delivered C (dueUpdates C now varBinds) s (s.onNotification C now varBinds)
  | _ => True

def NamesOnce (s : TrapReceiver) : ReceiverEvent → Prop
  | .notification _ varBinds => ∀ b ∈ varBinds,
      (C.tagsFor b.oid).length ≤ 1 ∧ (s.running = false → C.tagsFor b.oid = [])
  | _ => True

end Updates

theorem get?_tagsByOid (C : TrapConfig) (oid : String) :
    C.tagsByOid.get? oid = (C.tagsFor oid).getLast? := by
  rw [TrapConfig.tagsByOid, Dict.get?_ofList, TrapConfig.tagsFor]
  induction C.tags using List.reverseRecOn with
  | nil => rfl
  | append_singleton tags tag ih =>
    by_cases h : tag.trapOid = oid
    · simp [lookup, h]
    · simpa [lookup, h, Ne.symm h] using ih

section Callback

variable {C : TrapConfig} (now : Int) {s s' : TrapReceiver} (varBinds : List Binding)

open TrapReceiver

variable {b : Binding}

theorem onVarBind_of_none (h : C.tagsByOid.get? b.oid = none) :
    onVarBind C now s b = s := by
  unfold onVarBind
  rw [h]

theorem onNotification_of_not_running (h : s.running = false) :
    (s.onNotification C now varBinds).queue = s.queue ∧
      (s.onNotification C now varBinds).metrics.errorCount = s.metrics.errorCount := by
  induction varBinds generalizing s with
  | nil => exact ⟨rfl, rfl⟩
  | cons b varBinds ih =>
    have hb : (onVarBind C now s b).running = false ∧ (onVarBind C now s b).queue = s.queue ∧
        (onVarBind C now s b).metrics.errorCount = s.metrics.errorCount := by
      unfold onVarBind
      cases C.tagsByOid.get? b.oid with
      | none => exact ⟨h, rfl, rfl⟩
      | some tag =>
        simp only [h]
        exact ⟨rfl, rfl, rfl⟩
    obtain ⟨hqueue, herrors⟩ := ih hb.1
    exact ⟨hqueue.trans hb.2.1, herrors.trans hb.2.2⟩

theorem madeUpdates_cons_of_none (h : C.tagsByOid.get? b.oid = none) :
    madeUpdates C now (b :: varBinds) = madeUpdates C now varBinds := by
  rw [madeUpdates, List.flatMap_cons, h]
  rfl

theorem madeUpdates_cons_of_some {tag : TrapTag} (h : C.tagsByOid.get? b.oid = some tag) :
    madeUpdates C now (b :: varBinds) =
      trapUpdate C.instanceId now b tag :: madeUpdates C now varBinds := by
  rw [madeUpdates, List.flatMap_cons, h]
  rfl

theorem onNotification_of_full (hrun : s.running = true) (hfull : Full C s.queue) :
    (s.onNotification C now varBinds).queue = s.queue ∧
      (s.onNotification C now varBinds).metrics.errorCount =
        s.metrics.errorCount + (madeUpdates C now varBinds).length := by
  induction varBinds generalizing s with
  | nil => exact ⟨rfl, rfl⟩
  | cons b varBinds ih =>
    rw [onNotification, List.foldl_cons, ← onNotification]
    cases htag : C.tagsByOid.get? b.oid with
    | none =>
      rw [onVarBind_of_none now htag, madeUpdates_cons_of_none now varBinds htag]
      exact ih hrun hfull
    | some tag =>
      have hb : onVarBind C now s b = { s with metrics := (s.metrics.read now).failed 1 } := by
        unfold onVarBind
        rw [htag]
        simp only [hrun, if_true, if_pos hfull]
      rw [hb, madeUpdates_cons_of_some now varBinds htag, List.length_cons]
      obtain ⟨hqueue, herrors⟩ := ih (s := { s with metrics := (s.metrics.read now).failed 1 })
        hrun hfull
      refine ⟨hqueue, herrors.trans ?_⟩
      show s.metrics.errorCount + 1 + _ = _
      omega

theorem onNotification_of_running (hrun : s.running = true) :
    Delivered C (madeUpdates C now varBinds) s (s.onNotification C now varBinds) := by
  induction varBinds generalizing s with
  | nil => exact ⟨0, Nat.le_refl 0, (List.append_nil _).symm, rfl, fun h => absurd h (lt_irrefl 0)⟩
  | cons b varBinds ih =>
    by_cases hfull : Full C s.queue
    · obtain ⟨hqueue, herrors⟩ := onNotification_of_full now (b :: varBinds) hrun hfull
      refine ⟨0, Nat.zero_le _, ?_, herrors, fun _ => ?_⟩
      · rw [hqueue, List.take_zero, List.append_nil]
      · rwa [hqueue]
    · rw [onNotification, List.foldl_cons, ← onNotification]
      cases htag : C.tagsByOid.get? b.oid with
      | none =>
        rw [onVarBind_of_none now htag, madeUpdates_cons_of_none now varBinds htag]
        exact ih hrun
      | some tag =>
        have hb : onVarBind C now s b =
            { s with
              metrics := s.metrics.read now
              queue := s.queue ++ [trapUpdate C.instanceId now b tag] } := by
          unfold onVarBind
          rw [htag]
          simp only [hrun, if_true, if_neg hfull]
        rw [hb, madeUpdates_cons_of_some now varBinds htag]
        obtain ⟨k, hk, hqueue, herrors, hrest⟩ := ih (s := { s with
          metrics := s.metrics.read now
          queue := s.queue ++ [trapUpdate C.instanceId now b tag] }) hrun
        refine ⟨k + 1, Nat.succ_le_succ hk, ?_, ?_, fun h => hrest (Nat.lt_of_succ_lt_succ h)⟩
        · rw [hqueue, List.take_succ_cons, List.append_assoc]
          rfl
        · rw [herrors, List.length_cons, Nat.add_sub_add_right]
          rfl

theorem Delivered.length {updates : List TagUpdate} (h : Delivered C updates s s') :
    s'.queue.length + s'.metrics.errorCount =
      s.queue.length + s.metrics.errorCount + updates.length := by
  obtain ⟨k, hk, hqueue, herrors, -⟩ := h
  rw [hqueue, herrors, List.length_append, List.length_take, Nat.min_eq_left hk]
  omega

end Callback

/-! ## Which notifications reach every tag -/

section FanOut

variable {C : TrapConfig} {now : Int} {s : TrapReceiver} {varBinds : List Binding}

theorem length_getLast? {α : Type} (l : List α) : l.getLast?.toList.length = min 1 l.length := by
  cases l using List.reverseRecOn with
  | nil => rfl
  | append_singleton l a => simp

theorem length_madeUpdates_cons (b : Binding) :
    (madeUpdates C now (b :: varBinds)).length =
      min 1 (C.tagsFor b.oid).length + (madeUpdates C now varBinds).length := by
  rw [madeUpdates, List.flatMap_cons, List.length_append, List.length_map, get?_tagsByOid,
    length_getLast?, ← madeUpdates]

theorem length_dueUpdates_cons (b : Binding) :
    (dueUpdates C now (b :: varBinds)).length =
      (C.tagsFor b.oid).length + (dueUpdates C now varBinds).length := by
  rw [dueUpdates, List.flatMap_cons, List.length_append, List.length_map, ← dueUpdates]

theorem length_madeUpdates_le :
    (madeUpdates C now varBinds).length ≤ (dueUpdates C now varBinds).length := by
  induction varBinds with
  | nil => exact Nat.le_refl 0
  | cons b varBinds ih =>
    rw [length_madeUpdates_cons, length_dueUpdates_cons]
    omega

theorem names_once_of_length
    (h : (madeUpdates C now varBinds).length = (dueUpdates C now varBinds).length) :
    ∀ b ∈ varBinds, (C.tagsFor b.oid).length ≤ 1 := by
  induction varBinds with
  | nil => exact fun b hb => absurd hb List.not_mem_nil
  | cons b varBinds ih =>
    have hle : (madeUpdates C now varBinds).length ≤ (dueUpdates C now varBinds).length :=
      length_madeUpdates_le
    rw [length_madeUpdates_cons, length_dueUpdates_cons] at h
    intro a ha
    obtain rfl | ha := List.mem_cons.1 ha
    · omega
    · exact ih (by omega) a ha

theorem madeUpdates_eq (h : ∀ b ∈ varBinds, (C.tagsFor b.oid).length ≤ 1) :
    madeUpdates C now varBinds = dueUpdates C now varBinds := by
  refine List.flatMap_congr fun b hb => ?_
  have hb := h b hb
  rw [get?_tagsByOid]
  cases htags : C.tagsFor b.oid with
  | nil => rfl
  | cons tag rest =>
    rw [htags, List.length_cons] at hb
    rw [List.eq_nil_of_length_eq_zero (show rest.length = 0 by omega)]
    rfl

theorem dueUpdates_eq_nil_iff :
    dueUpdates C now varBinds = [] ↔ ∀ b ∈ varBinds, C.tagsFor b.oid = [] := by
  rw [dueUpdates, List.flatMap_eq_nil_iff]
  exact forall₂_congr fun b _ => List.map_eq_nil_iff

theorem fansOut_iff (s : TrapReceiver) (e : ReceiverEvent) : FansOut C s e ↔ NamesOnce C s e := by
  cases e with
  | run | ended | put update | get => exact Iff.rfl
  | notification now varBinds =>
    show Delivered C _ s _ ↔ _
    cases hrun : s.running with
    | true =>
      have hmade : Delivered C (madeUpdates C now varBinds) s (s.onNotification C now varBinds) :=
        onNotification_of_running now varBinds hrun
      constructor
      · intro h b hb
        have hdue := h.length
        rw [hmade.length] at hdue
        have hlength :
            (madeUpdates C now varBinds).length = (dueUpdates C now varBinds).length := by
          omega
        refine ⟨names_once_of_length hlength b hb, fun hnot => ?_⟩
        rw [hrun] at hnot
        cases hnot
      · intro h
        rwa [← madeUpdates_eq fun b hb => (h b hb).1]
    | false =>
      obtain ⟨hqueue, herrors⟩ := onNotification_of_not_running (C := C) now varBinds hrun
      constructor
      · intro h b hb
        have hlength := h.length
        rw [hqueue, herrors] at hlength
        have hnil := dueUpdates_eq_nil_iff.1 (List.eq_nil_of_length_eq_zero
          (show (dueUpdates C now varBinds).length = 0 by omega)) b hb
        rw [hnil]
        exact ⟨Nat.zero_le 1, fun _ => rfl⟩
      · intro h
        rw [dueUpdates_eq_nil_iff.2 fun b hb => (h b hb).2 hrun]
        exact ⟨0, Nat.le_refl 0, by rw [hqueue, List.take_nil, List.append_nil], herrors,
          fun hlt => absurd hlt (lt_irrefl 0)⟩

end FanOut

/-- **When every tag gets its updates.**  Over any run of the driver among the others: every
notification brings each tag with the OID of a binding one update for that binding, in the order of
the bindings, up to those that a full queue makes it count as dropped; exactly if no binding has
the OID of two tags, and none has that of a tag while the driver does not run. -/
theorem trap_fan_out_iff (C : TrapConfig) (events : List ReceiverEvent) :
    (receiverMachine C).Meets (FansOut C) .start events ↔
      (receiverMachine C).Meets (NamesOnce C) .start events :=
  (receiverMachine C).meets_congr (I := fun _ => True) (fun s e _ => fansOut_iff s e)
    (fun _ _ _ _ _ _ => trivial) trivial

def temperature (id : String) : TrapTag := ⟨⟨id, none, none⟩, "1.3.6.1.4.1.9.9.13.1"⟩

def twoGroups : TrapConfig :=
  ⟨"ups", [⟨"display", [temperature "shown"]⟩, ⟨"history", [temperature "logged"]⟩], 100⟩

def temperatureTrap : List Binding := [⟨"1.3.6.1.4.1.9.9.13.1", .numeric .integer32 31⟩]

/-- Two tags with one OID: the first gets no update, and nothing is counted as dropped. -/
theorem shared_oid_starves_first :
    twoGroups.SchemaValid ∧
    (dueUpdates twoGroups 0 temperatureTrap).map TagUpdate.tagId = ["ups/shown", "ups/logged"] ∧
    ((receiverMachine twoGroups).run .start [.run, .notification 0 temperatureTrap]).map
      (fun s => (s.queue.map TagUpdate.tagId, s.metrics.errorCount)) =
        some (["ups/logged"], 0) := by
  exact ⟨by decide +kernel, by decide +kernel, by decide +kernel⟩

end XEdge.Snmp
