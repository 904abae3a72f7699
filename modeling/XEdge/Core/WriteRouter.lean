import XEdge.Core.Pipeline
import XEdge.Core.Supervision
import XEdge.Modbus.Polling

/-!
# Write-back (`xedge/core/write_router.py`, `xedge/drivers/modbus/polling.py`)

Every write to a device, from the REST API or from an MQTT command, goes through
`WriteRouter.write`: find the driver, await its `write`, and record the result in the audit
log.  The recording comes after the await, and nothing catches what the await raises.

Any number of calls can be suspended in their driver at the same time, so the router is a
machine; what a driver's `write` comes to is an event.
-/

namespace XEdge.Core

open Lib Supervision

structure WriteResult where
  success : Bool
  tagId : String
  errorMessage : Option String
  deriving DecidableEq

/-! ## The Modbus driver's `write` -/

section Modbus

open Modbus

/-- What a `write` of a Modbus driver meets on its way to the device. -/
inductive WriteError where
  /-- `ModbusDataTypeError`. -/
  | dataType (message : String)
  /-- `float(value)`, the inverse scaling, `round` or `struct.pack` raised something else. -/
  | conversion
  | failure (f : Failure)
  /-- `SchedulerStoppedError`. -/
  | schedulerStopped
  /-- `CancelledError`. -/
  | cancelled
  deriving DecidableEq, Repr

/-- `ExceptionCode(exception_code).name`, or what stands for it. -/
def exceptionName (exceptionCode : Nat) : String :=
  match exceptionCode with
  | 0x01 => "ILLEGAL_FUNCTION"
  | 0x02 => "ILLEGAL_DATA_ADDRESS"
  | 0x03 => "ILLEGAL_DATA_VALUE"
  | 0x04 => "SLAVE_DEVICE_FAILURE"
  | 0x05 => "ACKNOWLEDGE"
  | 0x06 => "SLAVE_DEVICE_BUSY"
  | 0x08 => "MEMORY_PARITY_ERROR"
  | 0x0A => "GATEWAY_PATH_UNAVAILABLE"
  | 0x0B => "GATEWAY_TARGET_DEVICE_FAILED_TO_RESPOND"
  | n =>
      let digits := (Nat.toDigits 16 n).map Char.toUpper
      "UNKNOWN(0x" ++ String.ofList (List.replicate (2 - digits.length) '0' ++ digits) ++ ")"

/-- The message of the exceptions that `write` catches. -/
def WriteError.message : WriteError → Option String
  | .failure (.codec (.modbusException functionCode exceptionCode)) =>
      some ("Modbus exception on FC" ++ hex 2 functionCode ++ ": " ++ exceptionName exceptionCode)
  | .dataType message => some message
  | _ => none

/-- What `write` reads of a tag. -/
structure WritableTag where
  functionCode : String
  address : Int
  access : Option String
  deriving DecidableEq

def writeFunctionCodeForRead : String → Option FunctionCode
  | "read_coils" => some .writeSingleCoil
  | "read_holding_registers" => some .writeSingleRegister
  | _ => none

def WritableTag.tagAccess (tag : WritableTag) : String := tag.access.getD "read_write"

/-- `BaseModbusPollingDriver.write`; `attempt` is what converting the value and submitting
the request come to. -/
def modbusWrite (tagsById : Dict String WritableTag)
    (attempt : FunctionCode → WritableTag → TagValue → Except WriteError Unit)
    (tagId : String) (value : TagValue) : Except WriteError WriteResult :=
  match tagsById.get? tagId with
  | none => .ok ⟨false, tagId, some "Unknown tag"⟩
  | some tag =>
      if tag.tagAccess = "read_only" then
        .ok ⟨false, tagId, some "Tag is configured read-only (access: read_only)"⟩
      else
        match writeFunctionCodeForRead tag.functionCode with
        | none =>
            .ok ⟨false, tagId, some (tag.functionCode ++ " is a read-only Modbus memory class")⟩
        | some functionCode =>
            match attempt functionCode tag value with
            | .ok () => .ok ⟨true, tagId, none⟩
            | .error e =>
                match e.message with
                | some message => .ok ⟨false, tagId, some message⟩
                | none => .error e

/-- The exceptions that come out of `write`: those of an attempt that was made, other than a
rejection by the device and a value that the data type cannot hold. -/
theorem modbusWrite_raises_iff {tagsById : Dict String WritableTag}
    {attempt : FunctionCode → WritableTag → TagValue → Except WriteError Unit}
    {tagId : String} {value : TagValue} {e : WriteError} :
    modbusWrite tagsById attempt tagId value = .error e ↔
      ∃ tag functionCode, tagsById.get? tagId = some tag ∧ tag.tagAccess ≠ "read_only" ∧
        writeFunctionCodeForRead tag.functionCode = some functionCode ∧
        attempt functionCode tag value = .error e ∧ e.message = none := by
  unfold modbusWrite
  constructor
  · intro h
    split at h
    · cases h
    · next tag htag =>
      split at h
      · cases h
      · next haccess =>
        split at h
        · cases h
        · next functionCode hcode =>
          split at h
          · cases h
          · next e' he =>
            split at h
            · cases h
            · next hmessage =>
              cases h
              exact ⟨tag, functionCode, htag, haccess, hcode, he, hmessage⟩
  · rintro ⟨tag, functionCode, htag, haccess, hcode, he, hmessage⟩
    simp only [htag, if_neg haccess, hcode, he, hmessage]

end Modbus

/-! ## The router -/

/-- The arguments of `WriteRouter.write`. -/
structure WriteCall where
  actor : String
  instanceId : String
  tagName : String
  value : TagValue
  deriving DecidableEq

def WriteCall.tagId (c : WriteCall) : String := qualifiedId c.instanceId c.tagName

/-- `sys.int_info.default_max_str_digits`. -/
def MAX_STR_DIGITS : Nat := 4300

/-- `json.dumps` of the recorded value does not raise. -/
def TagValue.Dumpable : TagValue → Prop
  | .int i => i.natAbs < 10 ^ MAX_STR_DIGITS
  | _ => True

instance : (v : TagValue) → Decidable v.Dumpable
  | .int i => inferInstanceAs (Decidable (i.natAbs < _))
  | .bool _ | .float _ | .str _ | .bytes _ => isTrue trivial

/-- `DriverState.value`. -/
def stateText : DriverState → String
  | .stopped => "stopped"
  | .starting => "starting"
  | .running => "running"
  | .backoff => "backoff"
  | .failed => "failed"
  | .disabled => "disabled"

/-- The `repr` of texts and of bytes. -/
structure PyRepr where
  str : String → String
  bytes : List UInt8 → String

/-- `details` of a `tag.write` entry. -/
structure WriteDetails where
  tagId : String
  value : TagValue
  success : Bool
  error : Option String
  deriving DecidableEq

structure AuditEntry where
  call : Nat
  actor : String
  event : String
  details : WriteDetails
  deriving DecidableEq

/-- A call that has ended: what there was to record when it did. -/
structure EndedCall (ε : Type) where
  number : Nat
  call : WriteCall
  result : Except ε WriteResult

structure Router (ε : Type) where
  log : List AuditEntry
  calls : Dict Nat WriteCall
  next : Nat
  ended : List (EndedCall ε)

inductive RouterEvent (ε : Type) where
  /-- `write` is called; the supervisor has this state for the instance, if it knows it, and
  a driver for it or none. -/
  | write (call : WriteCall) (status : Option DriverState) (hasDriver : Bool)
  /-- The driver's `write` that a call awaits has ended. -/
  | driverEnded (number : Nat) (outcome : Except ε WriteResult)

namespace Router

variable {ε : Type} (R : PyRepr)

def new : Router ε := ⟨[], .empty, 0, []⟩

/-- The answer of `write` where it does not get to a driver. -/
def refusal (c : WriteCall) : Option DriverState → Bool → Option WriteResult
  | none, _ => some ⟨false, c.tagId, some ("No such driver instance: " ++ R.str c.instanceId)⟩
  | some .running, true => none
  | some .running, false =>
      some ⟨false, c.tagId, some ("No live driver for " ++ R.str c.instanceId)⟩
  | some state, _ =>
      some ⟨false, c.tagId, some ("Driver instance " ++ R.str c.instanceId ++
        " is not running (state: " ++ stateText state ++ ")")⟩

/-- The entry that `_audit` appends. -/
def entry (n : Nat) (c : WriteCall) (r : WriteResult) : AuditEntry where
  call := n
  actor := c.actor
  event := "tag.write"
  details :=
    { tagId := r.tagId
      value := match c.value with
        | .bytes b => .str (R.bytes b)
        | v => v
      success := r.success
      error := r.errorMessage }

/-- What a call that ends with `result` appends: nothing if it raises, be it in the driver or
in the dump of the entry. -/
def appended (n : Nat) (c : WriteCall) : Except ε WriteResult → List AuditEntry
  | .ok r => if c.value.Dumpable then [entry R n c r] else []
  | .error _ => []

def finish (s : Router ε) (n : Nat) (c : WriteCall) (result : Except ε WriteResult) : Router ε :=
  { s with log := s.log ++ appended R n c result, ended := s.ended ++ [⟨n, c, result⟩] }

def step (s : Router ε) : RouterEvent ε → Option (Router ε)
  | .write c status hasDriver =>
      match refusal R c status hasDriver with
      | some r => some ({ s with next := s.next + 1 }.finish R s.next c (.ok r))
      | none => some { s with calls := s.calls.set s.next c, next := s.next + 1 }
  | .driverEnded n outcome =>
      match s.calls.get? n with
      | some c =>
          -- the result of the driver carries the bare name of the tag
          let result := outcome.map fun r => { r with tagId := c.tagId }
          some ({ s with calls := s.calls.erase n }.finish R n c result)
      | none => none

end Router

def AuditEntry.Records {ε : Type} (e : AuditEntry) (c : EndedCall ε) : Prop :=
  e.actor = c.call.actor ∧ e.event = "tag.write" ∧ e.details.tagId = c.call.tagId ∧
    match c.result with
    | .ok r => e.details.success = r.success ∧ e.details.error = r.errorMessage
    | .error _ => e.details.success = false

namespace Router

variable {ε : Type} (R : PyRepr)

def Recorded (s : Router ε) (c : EndedCall ε) : Prop :=
  ∃ e, s.log.filter (fun e => e.call = c.number) = [e] ∧ e.Records c

/-! ## The audit trail -/

/-- Every call has ended, awaits its driver or is still to come, and what a call has logged
is what its end appended. -/
structure Trail (s : Router ε) : Prop where
  pending : ∀ n ∈ s.calls.keys, n < s.next ∧ ∀ c ∈ s.ended, c.number ≠ n
  past : ∀ c ∈ s.ended, c.number < s.next
  logged : ∀ e ∈ s.log, ∃ c ∈ s.ended, c.number = e.call
  own : ∀ c ∈ s.ended, s.log.filter (fun e => e.call = c.number) =
    appended R c.number c.call c.result
  stamped : ∀ c ∈ s.ended, ∀ r, c.result = .ok r → r.tagId = c.call.tagId

theorem trail_new : (new : Router ε).Trail R := by
  refine ⟨?_, ?_, ?_, ?_, ?_⟩ <;> simp [new, Dict.keys, Dict.empty]

variable {R}

variable {n : Nat} {c : WriteCall} {result : Except ε WriteResult}

theorem call_of_mem_appended {e : AuditEntry} (h : e ∈ appended R n c result) : e.call = n := by
  unfold appended at h
  split at h
  · split at h
    · rw [List.mem_singleton.1 h]
      rfl
    · cases h
  · cases h

variable {s : Router ε}

theorem Trail.finish {s₁ : Router ε}
    (h : s.Trail R) (hlog : s₁.log = s.log) (hended : s₁.ended = s.ended)
    (hnext : s.next ≤ s₁.next) (hcalls : ∀ m ∈ s₁.calls.keys, m ∈ s.calls.keys ∧ m ≠ n)
    (hn : n < s₁.next) (hnew : ∀ d ∈ s.ended, d.number ≠ n)
    (hstamp : ∀ r, result = .ok r → r.tagId = c.tagId) : (s₁.finish R n c result).Trail R := by
  have hended' : (s₁.finish R n c result).ended = s.ended ++ [⟨n, c, result⟩] := by
    rw [← hended]
    rfl
  have hlog' : (s₁.finish R n c result).log = s.log ++ appended R n c result := by
    rw [← hlog]
    rfl
  have hnone : s.log.filter (fun e => e.call = n) = [] := by
    refine List.filter_eq_nil_iff.2 fun e he => ?_
    obtain ⟨d, hd, hde⟩ := h.logged e he
    simpa using hde ▸ hnew d hd
  refine ⟨fun m hm => ?_, fun d hd => ?_, fun e he => ?_, fun d hd => ?_, fun d hd => ?_⟩
  · obtain ⟨hmem, hne⟩ := hcalls m hm
    refine ⟨lt_of_lt_of_le (h.pending m hmem).1 hnext, fun d hd => ?_⟩
    rw [hended'] at hd
    rcases List.mem_append.1 hd with hd | hd
    · exact (h.pending m hmem).2 d hd
    · rw [List.mem_singleton.1 hd]
      exact hne.symm
  · rw [hended'] at hd
    rcases List.mem_append.1 hd with hd | hd
    · exact lt_of_lt_of_le (h.past d hd) hnext
    · rw [List.mem_singleton.1 hd]
      exact hn
  · rw [hlog'] at he
    rw [hended']
    rcases List.mem_append.1 he with he | he
    · obtain ⟨d, hd, hde⟩ := h.logged e he
      exact ⟨d, List.mem_append_left _ hd, hde⟩
    · exact ⟨_, List.mem_append_right _ (List.mem_singleton_self _), (call_of_mem_appended he).symm⟩
  · rw [hended'] at hd
    rw [hlog', List.filter_append]
    rcases List.mem_append.1 hd with hd | hd
    · -- an earlier call: the new entries are not its own
      rw [h.own d hd, List.filter_eq_nil_iff.2, List.append_nil]
      intro e he
      rw [call_of_mem_appended he]
      simpa using (hnew d hd).symm
    · rw [List.mem_singleton.1 hd, hnone, List.nil_append, List.filter_eq_self.2]
      intro e he
      simpa using call_of_mem_appended he
  · rw [hended'] at hd
    rcases List.mem_append.1 hd with hd | hd
    · exact h.stamped d hd
    · rw [List.mem_singleton.1 hd]
      exact hstamp

theorem tagId_refusal {status : Option DriverState} {hasDriver : Bool}
    {r : WriteResult} (h : refusal R c status hasDriver = some r) : r.tagId = c.tagId := by
  unfold refusal at h
  split at h <;> cases h <;> rfl

theorem trail_step {s' : Router ε} {e : RouterEvent ε} (h : s.Trail R)
    (hstep : s.step R e = some s') : s'.Trail R := by
  cases e with
  | write c status hasDriver =>
    simp only [step] at hstep
    split at hstep
    · next r hr =>
      cases hstep
      refine h.finish rfl rfl (Nat.le_succ _) (fun m hm => ⟨hm, ?_⟩) (Nat.lt_succ_self _)
        (fun d hd => (h.past d hd).ne) ?_
      · exact (h.pending m hm).1.ne
      · rintro _ ⟨⟩
        exact tagId_refusal hr
    · cases hstep
      refine ⟨fun m hm => ?_, fun d hd => Nat.lt_succ_of_lt (h.past d hd), h.logged, h.own,
        h.stamped⟩
      obtain ⟨v, hv⟩ := (Dict.mem_keys _).1 hm
      rcases Dict.get?_set_eq_some.1 hv with ⟨rfl, -⟩ | ⟨-, hold⟩
      · exact ⟨Nat.lt_succ_self _, fun d hd => (h.past d hd).ne⟩
      · obtain ⟨hlt, hne⟩ := h.pending m ((Dict.mem_keys _).2 ⟨v, hold⟩)
        exact ⟨Nat.lt_succ_of_lt hlt, hne⟩
  | driverEnded n outcome =>
    simp only [step] at hstep
    split at hstep
    · next c hc =>
      cases hstep
      obtain ⟨hlt, hne⟩ := h.pending n ((Dict.mem_keys _).2 ⟨c, hc⟩)
      refine h.finish rfl rfl le_rfl (fun m hm => ?_) hlt hne ?_
      · obtain ⟨v, hv⟩ := (Dict.mem_keys _).1 hm
        obtain ⟨hmn, hold⟩ := Dict.get?_erase_eq_some.1 hv
        exact ⟨(Dict.mem_keys _).2 ⟨v, hold⟩, hmn⟩
      · intro r hr
        obtain ⟨r₀, -, rfl⟩ := map_eq_ok.1 hr
        rfl
    · cases hstep

theorem recorded_iff_appended (h : s.Trail R) {c : EndedCall ε} (hc : c ∈ s.ended) :
    s.Recorded c ↔ (∀ x, c.result ≠ .error x) ∧ c.call.value.Dumpable := by
  unfold Recorded
  rw [h.own c hc]
  match hr : c.result with
  | .error x =>
    constructor
    · rintro ⟨e, he, -⟩
      cases he
    · rintro ⟨hne, -⟩
      exact absurd rfl (hne x)
  | .ok r =>
    have hstamp := h.stamped c hc r hr
    unfold appended
    by_cases hd : c.call.value.Dumpable
    · simp only [if_pos hd]
      refine ⟨fun _ => ⟨fun x => by simp, hd⟩, fun _ => ⟨_, rfl, rfl, rfl, hstamp, ?_⟩⟩
      rw [hr]
      exact ⟨rfl, rfl⟩
    · simp only [if_neg hd]
      constructor
      · rintro ⟨e, he, -⟩
        cases he
      · rintro ⟨-, hd'⟩
        exact absurd hd' hd

end Router

/-- The router as a machine, for drivers whose `write` raises an `ε`. -/
def routerMachine (R : PyRepr) (ε : Type) : Machine (Router ε) (RouterEvent ε) := ⟨Router.step R⟩

/-- **The audit trail.**  In every run of overlapping calls, a call that has ended made
exactly one `tag.write` entry that records how it ended if and only if no exception came out
of its driver's `write` and the value can be dumped. -/
theorem recorded_iff (R : PyRepr) {ε : Type} {es : List (RouterEvent ε)} {s : Router ε}
    (hrun : (routerMachine R ε).run Router.new es = some s) {c : EndedCall ε} (hc : c ∈ s.ended) :
    s.Recorded c ↔ (∀ x, c.result ≠ .error x) ∧ c.call.value.Dumpable := by
  have h : s.Trail R := (routerMachine R ε).inv_run (I := Router.Trail R)
    (fun _ _ _ hs hstep => Router.trail_step hs hstep) (Router.trail_new R) hrun
  exact Router.recorded_iff_appended h hc

/-- Quotes, which is what `repr` does to plain texts. -/
def quoted : PyRepr := ⟨fun s => "'" ++ s ++ "'", fun _ => "b''"⟩

def setpoint (value : TagValue) : WriteCall := ⟨"alice", "plc", "setpoint", value⟩

def setpointTags : Dict String WritableTag :=
  .ofList [("setpoint", ⟨"read_holding_registers", 40, none⟩)]

def answeredWrites : List (RouterEvent WriteError) :=
  [.write (setpoint (.int 5)) (some .running) true,
    .write (setpoint (.int 6)) (some .running) true,
    .driverEnded 1 (modbusWrite setpointTags
      (fun _ _ _ => .error (.failure (.codec (.modbusException 6 3)))) "setpoint" (.int 6)),
    .driverEnded 0 (modbusWrite setpointTags (fun _ _ _ => .ok ()) "setpoint" (.int 5)),
    .write (setpoint (.int 7)) (some .stopped) true]

theorem recorded_answeredWrites : ∃ s,
    (routerMachine quoted WriteError).run Router.new answeredWrites = some s ∧
    s.log.map (fun e => (e.call, e.details.success)) = [(1, false), (0, true), (2, false)] ∧
    ∃ c ∈ s.ended, s.Recorded c := by
  obtain ⟨s, hs, hv⟩ := Option.map_eq_some_iff.1
    (show ((routerMachine quoted WriteError).run Router.new answeredWrites).map
      (fun s => (s.log.map (fun e => (e.call, e.details.success)),
        s.ended.head?.map fun c => (c.result.toBool, c.call.value))) =
      some ([(1, false), (0, true), (2, false)], some (true, .int 6)) by decide +kernel)
  obtain ⟨hlog, hended⟩ := Prod.mk.inj hv
  obtain ⟨c, hc, hcv⟩ := Option.map_eq_some_iff.1 hended
  obtain ⟨hok, hvalue⟩ := Prod.mk.inj hcv
  have hmem : c ∈ s.ended := List.mem_of_head? hc
  refine ⟨s, hs, hlog, c, hmem, (recorded_iff quoted hs hmem).2 ⟨fun x hx => ?_, ?_⟩⟩
  · rw [hx] at hok
    cases hok
  · rw [hvalue]
    decide +kernel

/-- **A write that timed out is not recorded.**  The request may have reached the device. -/
theorem timed_out_write_is_not_recorded : ∃ s c,
    (routerMachine quoted WriteError).run Router.new
      [.write (setpoint (.int 5)) (some .running) true,
        .driverEnded 0 (modbusWrite setpointTags (fun _ _ _ => .error (.failure .timeout))
          "setpoint" (.int 5))] = some s ∧
    s.ended = [c] ∧ s.log = [] ∧ ¬ s.Recorded c := by
  obtain ⟨s, hs, hv⟩ := Option.map_eq_some_iff.1
    (show ((routerMachine quoted WriteError).run Router.new
      [.write (setpoint (.int 5)) (some .running) true,
        .driverEnded 0 (modbusWrite setpointTags (fun _ _ _ => .error (.failure .timeout))
          "setpoint" (.int 5))]).map (fun s => (s.log, s.ended.length)) = some ([], 1)
      by decide +kernel)
  obtain ⟨hlog, hlen⟩ := Prod.mk.inj hv
  obtain ⟨c, hc⟩ := List.length_eq_one_iff.1 hlen
  refine ⟨s, c, hs, hc, hlog, ?_⟩
  rintro ⟨e, he, -⟩
  rw [hlog] at he
  cases he

end XEdge.Core
