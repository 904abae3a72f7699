import XEdge.Core.DriverConfig

/-!
# Driver reconciliation (`xedge/core/hot_reload.py`)

Three parts of the gateway start and stop drivers: startup (`_start_configured_drivers` of
`xedge/core/main.py`), the watch loop (`apply_driver_changes`), and the REST calls that
enable and disable a driver (`_set_driver_enabled` of `xedge/api/server.py`).  They share the
task table of the `DriverSupervisor`; the watch loop alone keeps a tracking dictionary of the
entries it believes to be in effect.
-/

namespace XEdge.Core

open Lib Config

/-! ## The supervisor -/

/-- `DriverSupervisor`: the driver configuration of every supervised task. -/
structure Supervisor (V : Type) where
  tasks : Dict String (DriverConfig V)
  /-- Ghost: the task tables there have been, this one included, newest first. -/
  past : List (Dict String (DriverConfig V))

namespace Supervisor

variable {V : Type}

def new : Supervisor V := ⟨.empty, [.empty]⟩

def update (sup : Supervisor V) (tasks : Dict String (DriverConfig V)) : Supervisor V :=
  ⟨tasks, tasks :: sup.past⟩

def start (sup : Supervisor V) (cfg : DriverConfig V) : Except Exn (Supervisor V) :=
  match sup.tasks.get? cfg.instanceId with
  | some _ => .error (.fault .value)
  | none => .ok (sup.update (sup.tasks.set cfg.instanceId cfg))

def stop (sup : Supervisor V) (id : String) : Supervisor V := sup.update (sup.tasks.erase id)

/-- `disable`: a `stop` that reports another state. -/
def disable (sup : Supervisor V) (id : String) : Supervisor V := sup.stop id

theorem get?_stop (sup : Supervisor V) (id j : String) :
    (sup.stop id).tasks.get? j = if j = id then none else sup.tasks.get? j :=
  Dict.get?_erase _ _ _

theorem get?_stop_if (stop : Bool) (sup : Supervisor V) (id j : String) :
    (if stop then sup.stop id else sup).tasks.get? j =
      if stop = true ∧ j = id then none else sup.tasks.get? j := by
  cases stop with
  | false => simp
  | true => simp [get?_stop]

theorem get?_stop_if_of_ne (stop : Bool) (sup : Supervisor V) {id j : String} (hj : j ≠ id) :
    (if stop then sup.stop id else sup).tasks.get? j = sup.tasks.get? j := by
  rw [get?_stop_if, if_neg fun h => hj h.2]

theorem get?_of_stop_if {stop : Bool} {sup : Supervisor V} {id j : String} {cfg : DriverConfig V}
    (h : (if stop then sup.stop id else sup).tasks.get? j = some cfg) :
    sup.tasks.get? j = some cfg := by
  rw [get?_stop_if] at h
  split at h
  · cases h
  · exact h

theorem start_of_none {sup : Supervisor V} {cfg : DriverConfig V}
    (h : sup.tasks.get? cfg.instanceId = none) :
    sup.start cfg = .ok (sup.update (sup.tasks.set cfg.instanceId cfg)) := by
  rw [start, h]

theorem start_eq_ok {sup sup' : Supervisor V} {cfg : DriverConfig V}
    (h : sup.start cfg = .ok sup') : sup' = sup.update (sup.tasks.set cfg.instanceId cfg) := by
  rw [start] at h
  split at h
  · cases h
  · exact (Except.ok.inj h).symm

end Supervisor

/-! ## Reconciliation -/

section Reconciliation

variable {V : Type}

/-- `{entry["id"]: entry for entry in entries}`. -/
def byId (entries : List (Entry V)) : Dict String (Entry V) :=
  Dict.ofList (entries.map fun e => (e.id, e))

def enabledById (drivers : List (Entry V)) : Dict String (Entry V) :=
  byId (drivers.filter Entry.isEnabled)

def disabledById (drivers : List (Entry V)) : Dict String (Entry V) :=
  byId (drivers.filter fun e => !e.isEnabled)

/-- The first loop of `apply_driver_changes`: tracked instances that the file lacks. -/
def stopRemoved (present : List String) (current : Dict String (Entry V)) (sup : Supervisor V) :
    Supervisor V :=
  (current.keys.filter fun id => id ∉ present).foldl Supervisor.stop sup

variable [DecidableEq V] (D : DriverTypes V)

/-- The second loop: disabled entries. -/
def disableChanged (current : Dict String (Entry V)) :
    List (String × Entry V) → Dict String (Entry V) → Supervisor V →
      Dict String (Entry V) × Supervisor V
  | [], result, sup => (result, sup)
  | (id, entry) :: rest, result, sup =>
      disableChanged current rest (result.set id entry)
        (if current.get? id = some entry then sup else sup.disable id)

/-- The first two loops.  The new tracking dictionary begins as `enabled_by_id`. -/
def stopAndDisable (drivers : List (Entry V)) (current : Dict String (Entry V))
    (sup : Supervisor V) : Dict String (Entry V) × Supervisor V :=
  let present := (enabledById drivers).keys ++ (disabledById drivers).keys
  disableChanged current (disabledById drivers).entries (enabledById drivers)
    (stopRemoved present current sup)

/-- A rejected entry: what was tracked before stays tracked. -/
def keepPrior (current : Dict String (Entry V)) (id : String) (result : Dict String (Entry V)) :
    Dict String (Entry V) :=
  match current.get? id with
  | some prior => result.set id prior
  | none => result.erase id

/-- The third loop: enabled entries. -/
def startChanged (conflicting : List String) (current : Dict String (Entry V)) :
    List (String × Entry V) → Dict String (Entry V) → Supervisor V →
      Supervisor V × Except Exn (Dict String (Entry V))
  | [], result, sup => (sup, .ok result)
  | (id, entry) :: rest, result, sup =>
      if current.get? id = some entry then startChanged conflicting current rest result sup
      else if id ∈ conflicting then
        startChanged conflicting current rest (keepPrior current id result) sup
      else
        match buildDriverConfig D entry with
        | .error _ => startChanged conflicting current rest (keepPrior current id result) sup
        | .ok cfg =>
            let sup := if (current.get? id).isSome then sup.stop id else sup
            match sup.start cfg with
            | .error e => (sup, .error e)
            | .ok sup => startChanged conflicting current rest result sup

/-- `apply_driver_changes`: the new supervisor, and the new tracking dictionary unless it
raises. -/
def applyDriverChanges (drivers : List (Entry V)) (current : Dict String (Entry V))
    (sup : Supervisor V) : Supervisor V × Except Exn (Dict String (Entry V)) :=
  match conflictingSerialInstanceIds D drivers with
  | .error f => (sup, .error (.fault f))
  | .ok conflicting =>
      let (result, sup) := stopAndDisable drivers current sup
      startChanged D conflicting current (enabledById drivers).entries result sup

end Reconciliation

/-! ## The gateway -/

structure Gateway (V : Type) where
  /-- The `drivers` section on disk. -/
  file : List (Entry V)
  /-- `current_drivers`. -/
  tracking : Dict String (Entry V)
  sup : Supervisor V
  alive : Bool

section Gateway

variable {V : Type} [DecidableEq V] (D : DriverTypes V)

/-- The `drivers` section of the store after a reload. -/
def Gateway.drivers (s : Gateway V) : List (Entry V) := s.file.map (Entry.resolve D)

/-- The loop of `_start_configured_drivers`. -/
def startConfigured (conflicting : List String) :
    List (Entry V) → Supervisor V → Except Exn (Supervisor V)
  | [], sup => .ok sup
  | entry :: rest, sup =>
      if !entry.isEnabled then startConfigured conflicting rest sup
      else if entry.id ∈ conflicting then startConfigured conflicting rest sup
      else do
        let cfg ← buildDriverConfig D entry
        let sup ← sup.start cfg
        startConfigured conflicting rest sup

/-- The part of `async_main` that starts the drivers and builds the tracking dictionary. -/
def startup (file : List (Entry V)) : Except Exn (Gateway V) := do
  let drivers := file.map (Entry.resolve D)
  let conflicting ← (conflictingSerialInstanceIds D drivers).mapError .fault
  let sup ← startConfigured D conflicting drivers .new
  .ok ⟨file, enabledById drivers, sup, true⟩

/-- `entry["enabled"] = enabled` for the first entry with that id. -/
def setEnabled (id : String) (enabled : Bool) : List (Entry V) → List (Entry V)
  | [] => []
  | e :: rest =>
      if e.id = id then { e with enabled := some enabled } :: rest
      else e :: setEnabled id enabled rest

/-- The `enable` call.  The entry is the one on disk, so its secrets are not substituted;
that the instance is running already is not an error. -/
def enableDriver (s : Gateway V) (id : String) : Gateway V :=
  match s.file.find? fun e => e.id = id with
  | none => s
  | some entry =>
      let s := { s with file := setEnabled id true s.file }
      match buildDriverConfig D { entry with enabled := some true } with
      | .error _ => s
      | .ok cfg =>
          match s.sup.start cfg with
          | .error _ => s
          | .ok sup => { s with sup }

/-- The `disable` call. -/
def disableDriver (s : Gateway V) (id : String) : Gateway V :=
  match s.file.find? fun e => e.id = id with
  | none => s
  | some _ => { s with file := setEnabled id false s.file, sup := s.sup.disable id }

def watchPass (s : Gateway V) : Gateway V :=
  match applyDriverChanges D (s.drivers D) s.tracking s.sup with
  | (sup, .ok tracking) => { s with sup, tracking }
  | (sup, .error _) => { s with sup, alive := false }

inductive GatewayEvent (V : Type) where
  | edit (file : List (Entry V))
  | enable (id : String)
  | disable (id : String)
  | pass

def gatewayMachine : Machine (Gateway V) (GatewayEvent V) where
  step s
    | .edit file => some { s with file }
    | .enable id => some (enableDriver D s id)
    | .disable id => some (disableDriver s id)
    | .pass => if s.alive then some (watchPass D s) else none

end Gateway

/-! ## What a reconciliation does -/

section Effects

variable {V : Type} [DecidableEq V] {D : DriverTypes V} {current : Dict String (Entry V)}

omit [DecidableEq V] in
theorem get?_foldl_stop (ids : List String) (sup : Supervisor V) (j : String) :
    (ids.foldl Supervisor.stop sup).tasks.get? j =
      if j ∈ ids then none else sup.tasks.get? j := by
  induction ids generalizing sup with
  | nil => simp
  | cons id ids ih =>
    rw [List.foldl_cons, ih, Supervisor.get?_stop]
    by_cases hj : j = id
    · simp [hj]
    · simp [hj]

theorem get?_disableChanged {l : List (String × Entry V)} (hl : (l.map Prod.fst).Nodup)
    (result : Dict String (Entry V)) (sup : Supervisor V) (j : String) :
    (disableChanged current l result sup).1.get? j =
        (match lookup j l with
          | some e => some e
          | none => result.get? j) ∧
      (disableChanged current l result sup).2.tasks.get? j =
        (match lookup j l with
          | some e => if current.get? j = some e then sup.tasks.get? j else none
          | none => sup.tasks.get? j) := by
  induction l generalizing result sup with
  | nil => exact ⟨rfl, rfl⟩
  | cons p l ih =>
    obtain ⟨id, entry⟩ := p
    rw [List.map_cons, List.nodup_cons] at hl
    obtain ⟨hresult, htasks⟩ := ih hl.2 (result.set id entry)
      (if current.get? id = some entry then sup else sup.disable id)
    rw [disableChanged, hresult, htasks, lookup]
    by_cases hj : id = j
    · subst hj
      -- the key does not occur again, so what this step does to it is final
      have hnone : lookup id l = none := lookup_eq_none_iff.2 hl.1
      rw [hnone, if_pos rfl]
      by_cases hc : current.get? id = some entry
      · simp [hc]
      · simp [hc, Supervisor.disable, Supervisor.get?_stop]
    · rw [if_neg hj]
      refine ⟨by rw [Dict.get?_set_of_ne _ _ (Ne.symm hj)], ?_⟩
      by_cases hc : current.get? id = some entry
      · simp [hc]
      · simp [hc, Supervisor.disable, Supervisor.get?_stop, Ne.symm hj]

inductive Verdict where
  | unchanged
  | rejected
  | start
  deriving DecidableEq

def verdict (D : DriverTypes V) (conflicting : List String) (current : Dict String (Entry V))
    (id : String) (entry : Entry V) : Verdict :=
  if current.get? id = some entry then .unchanged
  else if id ∈ conflicting then .rejected
  else if entry.Valid D then .start
  else .rejected

omit [DecidableEq V] in
theorem buildDriverConfig_of_valid {e : Entry V} (h : e.Valid D) :
    buildDriverConfig D e = .ok (e.driverConfig D) :=
  buildDriverConfig_eq_ok.2 ⟨h, rfl⟩

theorem startChanged_cons (conflicting : List String) (id : String) (entry : Entry V)
    (rest : List (String × Entry V)) (result : Dict String (Entry V)) (sup : Supervisor V) :
    startChanged D conflicting current ((id, entry) :: rest) result sup =
      match verdict D conflicting current id entry with
      | .unchanged => startChanged D conflicting current rest result sup
      | .rejected => startChanged D conflicting current rest (keepPrior current id result) sup
      | .start =>
          let sup := if (current.get? id).isSome then sup.stop id else sup
          match sup.start (entry.driverConfig D) with
          | .error e => (sup, .error e)
          | .ok sup => startChanged D conflicting current rest result sup := by
  rw [startChanged, verdict]
  by_cases hc : current.get? id = some entry
  · simp only [if_pos hc]
  · by_cases hconf : id ∈ conflicting
    · simp only [if_neg hc, if_pos hconf]
    · by_cases hv : entry.Valid D
      · simp only [if_neg hc, if_neg hconf, if_pos hv, buildDriverConfig_of_valid hv]
      · simp only [if_neg hc, if_neg hconf, if_neg hv]
        cases hb : buildDriverConfig D entry with
        | error e => rfl
        | ok cfg => exact (hv (buildDriverConfig_eq_ok.1 hb).1).elim

omit [DecidableEq V] in
theorem get?_keepPrior (current result : Dict String (Entry V)) (id j : String) :
    (keepPrior current id result).get? j = if j = id then current.get? id else result.get? j := by
  rw [keepPrior]
  cases hc : current.get? id with
  | none => exact Dict.get?_erase _ _ _
  | some prior => exact Dict.get?_set _ _ _ _

def settled (D : DriverTypes V) (conflicting : List String) (current : Dict String (Entry V))
    (j : String) (e : Entry V) (task : Option (DriverConfig V)) (tracked : Option (Entry V)) :
    Option (DriverConfig V) × Option (Entry V) :=
  match verdict D conflicting current j e with
  | .unchanged => (task, tracked)
  | .rejected => (task, current.get? j)
  | .start => (some (e.driverConfig D), tracked)

/-- The third loop, for every instance at once.  It raises only if it starts an instance
that runs although it is not tracked. -/
theorem startChanged_spec {conflicting : List String} {l : List (String × Entry V)}
    (hl : (l.map Prod.fst).Nodup) (hid : ∀ p ∈ l, p.2.id = p.1)
    (result : Dict String (Entry V)) (sup : Supervisor V)
    (hfree : ∀ p ∈ l, verdict D conflicting current p.1 p.2 = .start →
      current.get? p.1 = none → sup.tasks.get? p.1 = none) :
    ∃ result' sup', startChanged D conflicting current l result sup = (sup', .ok result') ∧
      ∀ j, (sup'.tasks.get? j, result'.get? j) =
        match lookup j l with
        | none => (sup.tasks.get? j, result.get? j)
        | some e => settled D conflicting current j e (sup.tasks.get? j) (result.get? j) := by
  induction l generalizing result sup with
  | nil => exact ⟨result, sup, rfl, fun _ => rfl⟩
  | cons p l ih =>
    obtain ⟨id, entry⟩ := p
    rw [List.map_cons, List.nodup_cons] at hl
    rw [List.forall_mem_cons] at hid hfree
    have hnone : lookup id l = none := lookup_eq_none_iff.2 hl.1
    have hne : ∀ p ∈ l, p.1 ≠ id := fun p hp heq => hl.1 (heq ▸ List.mem_map.2 ⟨p, hp, rfl⟩)
    rw [startChanged_cons]
    cases hv : verdict D conflicting current id entry with
    | unchanged =>
      obtain ⟨result', sup', heq, hspec⟩ := ih hl.2 hid.2 result sup hfree.2
      refine ⟨result', sup', heq, fun j => ?_⟩
      rw [hspec j, lookup]
      by_cases hj : id = j
      · subst hj
        simp [hnone, settled, hv]
      · simp [hj]
    | rejected =>
      obtain ⟨result', sup', heq, hspec⟩ := ih hl.2 hid.2 (keepPrior current id result) sup hfree.2
      refine ⟨result', sup', heq, fun j => ?_⟩
      rw [hspec j, lookup, get?_keepPrior]
      by_cases hj : id = j
      · subst hj
        simp [hnone, settled, hv]
      · simp [hj, Ne.symm hj]
    | start =>
      -- after the stop, if there is one, the instance has no task
      have hfst : entry.id = id := hid.1
      have hstart :
          (if (current.get? id).isSome then sup.stop id else sup).tasks.get? id = none := by
        rw [Supervisor.get?_stop_if]
        cases hc : current.get? id with
        | none => simpa using hfree.1 hv hc
        | some prior => simp
      have hother : ∀ j, j ≠ id →
          (if (current.get? id).isSome then sup.stop id else sup).tasks.get? j =
            sup.tasks.get? j := fun j => Supervisor.get?_stop_if_of_ne _ sup
      generalize (if (current.get? id).isSome then sup.stop id else sup) = stopped at hstart hother
      rw [← hfst] at hstart
      have hok : stopped.start (entry.driverConfig D) = _ := Supervisor.start_of_none hstart
      obtain ⟨result', sup', heq, hspec⟩ := ih hl.2 hid.2 result
        (stopped.update (stopped.tasks.set entry.id (entry.driverConfig D)))
        (fun p hp hvp hcp => by
          rw [hfst]
          show (Dict.set _ _ _).get? _ = _
          rw [Dict.get?_set_of_ne _ _ (hne p hp), hother _ (hne p hp)]
          exact hfree.2 p hp hvp hcp)
      refine ⟨result', sup', ?_, fun j => ?_⟩
      · simp only [hok]
        exact heq
      · rw [hspec j, lookup, hfst]
        have htask : (stopped.update (stopped.tasks.set id (entry.driverConfig D))).tasks.get? j =
            if j = id then some (entry.driverConfig D) else stopped.tasks.get? j :=
          Dict.get?_set _ _ _ _
        rw [htask]
        by_cases hj : id = j
        · subst hj
          simp [hnone, settled, hv]
        · simp [hj, Ne.symm hj, hother j (Ne.symm hj)]

/-- What a reconciliation has done to each instance: its task, and its tracked entry. -/
structure Reconciled (D : DriverTypes V) (conflicting : List String) (drivers : List (Entry V))
    (current tracking : Dict String (Entry V)) (sup sup' : Supervisor V) : Prop where
  absent : ∀ j, (∀ e ∈ drivers, e.id ≠ j) →
    sup'.tasks.get? j = (if (current.get? j).isSome then none else sup.tasks.get? j) ∧
      tracking.get? j = none
  disabled : ∀ e ∈ drivers, e.isEnabled = false →
    sup'.tasks.get? e.id =
        (if current.get? e.id = some e then sup.tasks.get? e.id else none) ∧
      tracking.get? e.id = some e
  enabled : ∀ e ∈ drivers, e.isEnabled = true →
    (sup'.tasks.get? e.id, tracking.get? e.id) =
      settled D conflicting current e.id e (sup.tasks.get? e.id) (some e)

variable {drivers : List (Entry V)} {j : String} {e : Entry V}

omit [DecidableEq V] in
theorem entries_byId {l : List (Entry V)} (h : (l.map Entry.id).Nodup) :
    (byId l).entries = l.map fun e => (e.id, e) :=
  Dict.entries_ofList (by simpa [Function.comp_def] using h)

omit [DecidableEq V] in
theorem get?_byId {l : List (Entry V)} (h : (l.map Entry.id).Nodup) :
    (byId l).get? j = some e ↔ e ∈ l ∧ e.id = j := by
  rw [Dict.get?_eq_some_iff, entries_byId h, List.mem_map]
  constructor
  · rintro ⟨e', he', heq⟩
    cases heq
    exact ⟨he', rfl⟩
  · rintro ⟨he, rfl⟩
    exact ⟨e, he, rfl⟩

omit [DecidableEq V] in
theorem eq_of_id_eq (h : (drivers.map Entry.id).Nodup) {e e' : Entry V}
    (he : e ∈ drivers) (he' : e' ∈ drivers) (hid : e.id = e'.id) : e = e' :=
  List.inj_on_of_nodup_map h he he' hid

omit [DecidableEq V] in
theorem get?_byId_filter (h : (drivers.map Entry.id).Nodup) (p : Entry V → Bool) :
    (byId (drivers.filter p)).get? j = some e ↔ (e ∈ drivers ∧ p e = true) ∧ e.id = j := by
  rw [get?_byId ((List.filter_sublist.map Entry.id).nodup h), List.mem_filter]

omit [DecidableEq V] in
theorem get?_byId_filter_eq_none (h : (drivers.map Entry.id).Nodup)
    {p : Entry V → Bool} (he : e ∈ drivers) (hp : p e = false) :
    (byId (drivers.filter p)).get? e.id = none := by
  rw [Option.eq_none_iff_forall_ne_some]
  intro e' he'
  obtain ⟨⟨hmem, hp'⟩, hid⟩ := (get?_byId_filter h p).1 he'
  rw [eq_of_id_eq h hmem he hid, hp] at hp'
  cases hp'

omit [DecidableEq V] in
theorem get?_enabledById (h : (drivers.map Entry.id).Nodup) :
    (enabledById drivers).get? j = some e ↔ (e ∈ drivers ∧ e.isEnabled = true) ∧ e.id = j :=
  get?_byId_filter h _

omit [DecidableEq V] in
theorem get?_disabledById (h : (drivers.map Entry.id).Nodup) :
    (disabledById drivers).get? j = some e ↔ (e ∈ drivers ∧ e.isEnabled = false) ∧ e.id = j := by
  rw [disabledById, get?_byId_filter h, Bool.not_eq_true']

omit [DecidableEq V] in
theorem mem_present (h : (drivers.map Entry.id).Nodup) :
    j ∈ (enabledById drivers).keys ++ (disabledById drivers).keys ↔ ∃ e ∈ drivers, e.id = j := by
  rw [List.mem_append, Dict.mem_keys, Dict.mem_keys]
  simp only [get?_enabledById h, get?_disabledById h]
  constructor
  · rintro (⟨e, ⟨he, -⟩, hid⟩ | ⟨e, ⟨he, -⟩, hid⟩)
    · exact ⟨e, he, hid⟩
    · exact ⟨e, he, hid⟩
  · rintro ⟨e, he, hid⟩
    cases hen : e.isEnabled with
    | true => exact .inl ⟨e, ⟨he, hen⟩, hid⟩
    | false => exact .inr ⟨e, ⟨he, hen⟩, hid⟩

omit [DecidableEq V] in
theorem get?_stopRemoved (present : List String) (sup : Supervisor V) (j : String) :
    (stopRemoved present current sup).tasks.get? j =
      if (current.get? j).isSome ∧ j ∉ present then none else sup.tasks.get? j := by
  rw [stopRemoved, get?_foldl_stop]
  refine if_congr ?_ rfl rfl
  rw [List.mem_filter, Dict.mem_keys, Option.isSome_iff_exists, decide_eq_true_eq]

omit [DecidableEq V] in
theorem get?_eq_none_of_absent
    {d : Dict String (Entry V)} (hd : ∀ e, d.get? j = some e → e ∈ drivers ∧ e.id = j)
    (h : ∀ e ∈ drivers, e.id ≠ j) : d.get? j = none := by
  rw [Option.eq_none_iff_forall_ne_some]
  intro e he
  exact h e (hd e he).1 (hd e he).2

theorem stopAndDisable_absent (current : Dict String (Entry V))
    (sup : Supervisor V) (hids : (drivers.map Entry.id).Nodup) (h : ∀ e ∈ drivers, e.id ≠ j) :
    (stopAndDisable drivers current sup).1.get? j = none ∧
      (stopAndDisable drivers current sup).2.tasks.get? j =
        if (current.get? j).isSome then none else sup.tasks.get? j := by
  have hon : (enabledById drivers).get? j = none := get?_eq_none_of_absent
    (fun e he => ⟨((get?_enabledById hids).1 he).1.1, ((get?_enabledById hids).1 he).2⟩) h
  have hoff : lookup j (disabledById drivers).entries = none := get?_eq_none_of_absent
    (fun e he => ⟨((get?_disabledById hids).1 he).1.1, ((get?_disabledById hids).1 he).2⟩) h
  have hmem : j ∉ (enabledById drivers).keys ++ (disabledById drivers).keys := by
    rw [mem_present hids]
    rintro ⟨e, he, hid⟩
    exact h e he hid
  obtain ⟨hresult, htasks⟩ := get?_disableChanged (disabledById drivers).nodup
    (enabledById drivers)
    (stopRemoved ((enabledById drivers).keys ++ (disabledById drivers).keys) current sup) j
  rw [stopAndDisable, hresult, htasks, hoff]
  refine ⟨hon, ?_⟩
  simp only [get?_stopRemoved, hmem, not_false_eq_true, and_true]

theorem stopAndDisable_present (current : Dict String (Entry V))
    (sup : Supervisor V) (hids : (drivers.map Entry.id).Nodup) (he : e ∈ drivers) :
    (stopAndDisable drivers current sup).1.get? e.id = some e ∧
      (stopAndDisable drivers current sup).2.tasks.get? e.id =
        if e.isEnabled ∨ current.get? e.id = some e then sup.tasks.get? e.id else none := by
  have hmem : e.id ∈ (enabledById drivers).keys ++ (disabledById drivers).keys :=
    (mem_present hids).2 ⟨e, he, rfl⟩
  obtain ⟨hresult, htasks⟩ := get?_disableChanged (disabledById drivers).nodup
    (enabledById drivers)
    (stopRemoved ((enabledById drivers).keys ++ (disabledById drivers).keys) current sup) e.id
  rw [stopAndDisable, hresult, htasks]
  simp only [get?_stopRemoved, hmem, not_true_eq_false, and_false, if_false]
  cases hen : e.isEnabled with
  | false =>
    have hoff : lookup e.id (disabledById drivers).entries = some e :=
      (get?_disabledById hids).2 ⟨⟨he, hen⟩, rfl⟩
    simp [hoff]
  | true =>
    have hon : (enabledById drivers).get? e.id = some e :=
      (get?_enabledById hids).2 ⟨⟨he, hen⟩, rfl⟩
    have hoff : lookup e.id (disabledById drivers).entries = none :=
      get?_byId_filter_eq_none hids he (by simp [hen])
    simp [hoff, hon]

theorem applyDriverChanges_spec {conflicting : List String}
    {sup : Supervisor V} (hids : (drivers.map Entry.id).Nodup)
    (hconf : conflictingSerialInstanceIds D drivers = .ok conflicting)
    (hfree : ∀ e ∈ drivers, e.isEnabled = true →
      verdict D conflicting current e.id e = .start → current.get? e.id = none →
        sup.tasks.get? e.id = none) :
    ∃ tracking sup', applyDriverChanges D drivers current sup = (sup', .ok tracking) ∧
      Reconciled D conflicting drivers current tracking sup sup' := by
  have habsent := fun j => stopAndDisable_absent current sup hids (j := j)
  have hpresent := fun e => stopAndDisable_present current sup hids (e := e)
  generalize hstage : stopAndDisable drivers current sup = stage at habsent hpresent
  obtain ⟨result, sup₂⟩ := stage
  have hentries : ∀ p ∈ (enabledById drivers).entries,
      (p.2 ∈ drivers ∧ p.2.isEnabled = true) ∧ p.2.id = p.1 := fun p hp =>
    (get?_enabledById hids).1 ((Dict.get?_eq_some_iff _).2 hp)
  obtain ⟨tracking, sup', hrun, hspec⟩ := startChanged_spec (enabledById drivers).nodup
    (fun p hp => (hentries p hp).2) result sup₂ (fun p hp hv hc => by
      obtain ⟨⟨hmem, hen⟩, hid⟩ := hentries p hp
      rw [← hid] at hv hc ⊢
      rw [(hpresent p.2 hmem).2, hen, if_pos (.inl rfl)]
      exact hfree p.2 hmem hen hv hc)
  refine ⟨tracking, sup', ?_, ?_⟩
  · rw [applyDriverChanges, hconf]
    simp only [hstage]
    exact hrun
  · constructor
    · intro j hj
      have hnone : lookup j (enabledById drivers).entries = none := get?_eq_none_of_absent
        (fun e he => ⟨((get?_enabledById hids).1 he).1.1, ((get?_enabledById hids).1 he).2⟩) hj
      have hj' := hspec j
      rw [hnone, Prod.mk.injEq] at hj'
      exact ⟨hj'.1.trans (habsent j hj).2, hj'.2.trans (habsent j hj).1⟩
    · intro e he hen
      have hnone : lookup e.id (enabledById drivers).entries = none :=
        get?_byId_filter_eq_none hids he hen
      have hj' := hspec e.id
      rw [hnone, Prod.mk.injEq] at hj'
      refine ⟨hj'.1.trans ((hpresent e he).2.trans ?_), hj'.2.trans (hpresent e he).1⟩
      simp [hen]
    · intro e he hen
      have hsome : lookup e.id (enabledById drivers).entries = some e :=
        (get?_enabledById hids).2 ⟨⟨he, hen⟩, rfl⟩
      rw [hspec e.id, hsome, (hpresent e he).1, (hpresent e he).2, if_pos (.inl hen)]

omit [DecidableEq V] in
theorem mem_enabledById {p : String × Entry V} (h : p ∈ (enabledById drivers).entries) :
    p.2 ∈ drivers ∧ p.2.isEnabled = true ∧ p.2.id = p.1 := by
  obtain ⟨e, he, rfl⟩ := List.mem_map.1 (Dict.mem_of_mem_ofList h)
  obtain ⟨hmem, hen⟩ := List.mem_filter.1 he
  exact ⟨hmem, hen, rfl⟩

theorem stopAndDisable_tasks {sup : Supervisor V}
    {c : DriverConfig V} (h : (stopAndDisable drivers current sup).2.tasks.get? j = some c) :
    sup.tasks.get? j = some c ∧
      ((current.get? j).isSome = true →
        j ∈ (enabledById drivers).keys ++ (disabledById drivers).keys) ∧
      ∀ p ∈ (disabledById drivers).entries, p.1 = j → current.get? j = some p.2 := by
  obtain ⟨-, htasks⟩ := get?_disableChanged (disabledById drivers).nodup (enabledById drivers)
    (stopRemoved ((enabledById drivers).keys ++ (disabledById drivers).keys) current sup) j
  rw [stopAndDisable, htasks, get?_stopRemoved] at h
  have hleft : (if (current.get? j).isSome = true ∧
      j ∉ (enabledById drivers).keys ++ (disabledById drivers).keys then none
      else sup.tasks.get? j) = some c := by
    split at h
    · split at h
      · exact h
      · cases h
    · exact h
  split at hleft
  · cases hleft
  · next hkept =>
    refine ⟨hleft, fun hsome => by_contra fun hmem => hkept ⟨hsome, hmem⟩, ?_⟩
    rintro ⟨id, e⟩ hp rfl
    have hlookup : lookup id (disabledById drivers).entries = some e :=
      (Dict.get?_eq_some_iff _).2 hp
    rw [hlookup] at h
    by_contra hne
    simp only [if_neg hne] at h
    cases h

theorem startChanged_tasks {conflicting : List String} {l : List (String × Entry V)}
    {result : Dict String (Entry V)} {sup : Supervisor V} {c : DriverConfig V}
    (h : (startChanged D conflicting current l result sup).1.tasks.get? j = some c) :
    sup.tasks.get? j = some c ∨
      ∃ p ∈ l, verdict D conflicting current p.1 p.2 = .start ∧ c = p.2.driverConfig D := by
  induction l generalizing result sup with
  | nil => exact .inl h
  | cons p l ih =>
    obtain ⟨id, entry⟩ := p
    have hrest : ∀ {result sup},
        (startChanged D conflicting current l result sup).1.tasks.get? j = some c →
          sup.tasks.get? j = some c ∨ ∃ p ∈ (id, entry) :: l,
            verdict D conflicting current p.1 p.2 = .start ∧ c = p.2.driverConfig D := by
      intro result sup hloop
      rcases ih hloop with hold | ⟨p, hp, hprops⟩
      · exact .inl hold
      · exact .inr ⟨p, List.mem_cons_of_mem _ hp, hprops⟩
    rw [startChanged_cons] at h
    cases hv : verdict D conflicting current id entry with
    | unchanged | rejected =>
      rw [hv] at h
      exact hrest h
    | start =>
      rw [hv] at h
      dsimp only at h
      split at h
      · exact .inl (Supervisor.get?_of_stop_if h)
      · next started hstarted =>
        rcases hrest h with hold | hnew
        · rw [Supervisor.start_eq_ok hstarted] at hold
          have hget : ((if (current.get? id).isSome then sup.stop id else sup).tasks.set entry.id
              (entry.driverConfig D)).get? j = some c := hold
          rw [Dict.get?_set] at hget
          split at hget
          · exact .inr ⟨(id, entry), List.mem_cons_self .., hv, (Option.some.inj hget).symm⟩
          · exact .inl (Supervisor.get?_of_stop_if hget)
        · exact .inr hnew

theorem applyDriverChanges_tasks {sup : Supervisor V}
    {c : DriverConfig V} (h : (applyDriverChanges D drivers current sup).1.tasks.get? j = some c) :
    sup.tasks.get? j = some c ∨
      ∃ conflicting, conflictingSerialInstanceIds D drivers = .ok conflicting ∧
        ∃ p ∈ (enabledById drivers).entries,
          verdict D conflicting current p.1 p.2 = .start ∧ c = p.2.driverConfig D := by
  rw [applyDriverChanges] at h
  cases hconf : conflictingSerialInstanceIds D drivers with
  | error f =>
    rw [hconf] at h
    exact .inl h
  | ok conflicting =>
    rw [hconf] at h
    rcases startChanged_tasks h with hold | hnew
    · exact .inl (stopAndDisable_tasks hold).1
    · exact .inr ⟨conflicting, rfl, hnew⟩

end Effects

/-! ## What startup and the REST calls do -/

theorem sup_watchPass {V : Type} [DecidableEq V] (D : DriverTypes V) (s : Gateway V) :
    (watchPass D s).sup = (applyDriverChanges D (s.drivers D) s.tracking s.sup).1 := by
  rw [watchPass]
  split
  · next heq => rw [heq]
  · next heq => rw [heq]

section Calls

variable {V : Type} {D : DriverTypes V}

theorem startConfigured_tasks {conflicting : List String} {drivers : List (Entry V)}
    {sup sup' : Supervisor V} (h : startConfigured D conflicting drivers sup = .ok sup')
    {id : String} {cfg : DriverConfig V} (ht : sup'.tasks.get? id = some cfg) :
    sup.tasks.get? id = some cfg ∨
      ∃ e ∈ drivers, e.isEnabled = true ∧ e.id ∉ conflicting ∧ e.id = id ∧
        cfg = e.driverConfig D := by
  induction drivers generalizing sup with
  | nil =>
    cases h
    exact .inl ht
  | cons e rest ih =>
    have hrest : ∀ {sup₁}, startConfigured D conflicting rest sup₁ = .ok sup' →
        sup₁.tasks.get? id = some cfg ∨ ∃ e' ∈ e :: rest, e'.isEnabled = true ∧
          e'.id ∉ conflicting ∧ e'.id = id ∧ cfg = e'.driverConfig D := by
      intro sup₁ h₁
      rcases ih h₁ with hold | ⟨e', he', hprops⟩
      · exact .inl hold
      · exact .inr ⟨e', List.mem_cons_of_mem _ he', hprops⟩
    rw [startConfigured] at h
    split at h
    · exact hrest h
    · next hen =>
      split at h
      · exact hrest h
      · next hconf =>
        obtain ⟨cfg', hcfg', hbind⟩ := bind_eq_ok.1 h
        obtain ⟨sup₁, hsup₁, hloop⟩ := bind_eq_ok.1 hbind
        obtain ⟨-, rfl⟩ := buildDriverConfig_eq_ok.1 hcfg'
        rcases hrest hloop with hold | hnew
        · rw [Supervisor.start_eq_ok hsup₁] at hold
          rcases em (id = e.id) with rfl | hne
          · have hset : some (e.driverConfig D) = some cfg :=
              (Dict.get?_set_self _ _ _).symm.trans hold
            exact .inr ⟨e, List.mem_cons_self .., by simpa using hen, hconf, rfl,
              (Option.some.inj hset).symm⟩
          · exact .inl ((Dict.get?_set_of_ne _ _ hne).symm.trans hold)
        · exact .inr hnew

/-- The `enable` call finds no entry, or writes the file and starts nothing, or starts the
entry. -/
theorem enableDriver_cases (D : DriverTypes V) (s : Gateway V) (id : String) :
    enableDriver D s id = s ∨
      enableDriver D s id = { s with file := setEnabled id true s.file } ∨
      ∃ e, s.file.find? (fun e => e.id = id) = some e ∧ e.Valid D ∧ s.sup.tasks.get? id = none ∧
        enableDriver D s id = { s with
          file := setEnabled id true s.file
          sup := s.sup.update (s.sup.tasks.set id (e.driverConfig D)) } := by
  rw [enableDriver]
  cases hfind : s.file.find? fun e => e.id = id with
  | none => exact .inl rfl
  | some e =>
    have hid : e.id = id := by simpa using List.find?_some hfind
    dsimp only
    cases hbuild : buildDriverConfig D { e with enabled := some true } with
    | error err => exact .inr (.inl rfl)
    | ok cfg =>
      obtain ⟨hvalid, rfl⟩ := buildDriverConfig_eq_ok.1 hbuild
      cases htask : s.sup.tasks.get? id with
      | some cfg' =>
        right
        left
        simp only [Supervisor.start, Entry.driverConfig, hid, htask]
      | none =>
        right
        right
        refine ⟨e, rfl, hvalid, rfl, ?_⟩
        simp only [Supervisor.start, Entry.driverConfig, hid, htask]

theorem sup_disableDriver (s : Gateway V) (id : String) :
    (disableDriver s id).sup = s.sup ∨ (disableDriver s id).sup = s.sup.stop id := by
  rw [disableDriver]
  split
  · exact .inl rfl
  · exact .inr rfl

end Calls

/-! ## A few concrete values -/

/-- Texts, numbers, the mappings of serial settings, and lists of one tag group: its tags
with their scale and offset. -/
inductive Lit where
  | text (s : String)
  | num (n : Nat)
  | map (port : Option String) (unitId : Option Nat)
  | list (tags : List (String × ℚ × ℚ))
  deriving DecidableEq

/-- Two driver types: one takes no settings and no tags, the other one requires a port. -/
def litTypes : DriverTypes Lit where
  emptyDict := .map none none
  emptyList := .list []
  get
    | .map port unitId, key =>
        .ok (if key = "port" then port.map .text
          else if key = "unit_id" then unitId.map .num
          else none)
    | _, _ => .error .attribute
  hashable
    | .text _ | .num _ => true
    | _ => false
  defaultUnitId := .num 1
  schemaErrors type config tagGroups :=
    if type = "loopback" then
      match config, tagGroups with
      | .map none none, .list [] => some []
      | _, _ => some ["config: Additional properties are not allowed"]
    else if type = "modbus_rtu_serial" then
      match config, tagGroups with
      | .map (some _) _, .list _ => some []
      | .map none _, .list _ => some ["config: 'port' is a required property"]
      | _, _ => some ["config: not of type 'object'"]
    else none
  schemaPath type := "config/schema/drivers/" ++ type ++ ".schema.json"
  pyRepr type := "'" ++ type ++ "'"
  resolve := id

end XEdge.Core
