import XEdge.Core.HotReload

/-!
# The calls of a reconciliation

`apply_driver_changes` acts on the drivers through three calls of the supervisor: `stop`, `disable`
and `start`.  This file lists the calls it makes, in order, up to a `start` that raises.
-/

namespace XEdge.Core

open Lib Config

variable {V : Type} [DecidableEq V]

/-! ## The calls -/

inductive SupervisorCall (V : Type) where
  | stop (id : String)
  | disable (id : String)
  | start (cfg : DriverConfig V)
  deriving DecidableEq

def SupervisorCall.instanceId : SupervisorCall V → String
  | .stop id => id
  | .disable id => id
  | .start cfg => cfg.instanceId

/-- What a call does to the supervisor; a `start` that raises does nothing. -/
def Supervisor.perform (sup : Supervisor V) : SupervisorCall V → Supervisor V
  | .stop id => sup.stop id
  | .disable id => sup.disable id
  | .start cfg =>
      match sup.start cfg with
      | .ok sup' => sup'
      | .error _ => sup

section Calls

variable (D : DriverTypes V)

def stopCalls (present : List String) (current : Dict String (Entry V)) :
    List (SupervisorCall V) :=
  (current.keys.filter fun id => id ∉ present).map .stop

def disableCalls (current : Dict String (Entry V)) :
    List (String × Entry V) → List (SupervisorCall V)
  | [] => []
  | (id, entry) :: rest =>
      if current.get? id = some entry then disableCalls current rest
      else .disable id :: disableCalls current rest

def startCalls (conflicting : List String) (current : Dict String (Entry V)) :
    List (String × Entry V) → Supervisor V → List (SupervisorCall V)
  | [], _ => []
  | (id, entry) :: rest, sup =>
      if current.get? id = some entry then startCalls conflicting current rest sup
      else if id ∈ conflicting then startCalls conflicting current rest sup
      else
        match buildDriverConfig D entry with
        | .error _ => startCalls conflicting current rest sup
        | .ok cfg =>
            let stops := if (current.get? id).isSome then [SupervisorCall.stop id] else []
            let sup := if (current.get? id).isSome then sup.stop id else sup
            match sup.start cfg with
            | .error _ => stops ++ [.start cfg]
            | .ok sup => stops ++ .start cfg :: startCalls conflicting current rest sup

/-- The calls of `apply_driver_changes`. -/
def reconcileCalls (drivers : List (Entry V)) (current : Dict String (Entry V))
    (sup : Supervisor V) : List (SupervisorCall V) :=
  match conflictingSerialInstanceIds D drivers with
  | .error _ => []
  | .ok conflicting =>
      let present := (enabledById drivers).keys ++ (disabledById drivers).keys
      stopCalls present current ++ disableCalls current (disabledById drivers).entries ++
        startCalls D conflicting current (enabledById drivers).entries
          (stopAndDisable drivers current sup).2

end Calls

variable {D : DriverTypes V} {conflicting : List String} {current : Dict String (Entry V)}

theorem startCalls_cons (id : String) (entry : Entry V) (rest : List (String × Entry V))
    (sup : Supervisor V) :
    startCalls D conflicting current ((id, entry) :: rest) sup =
      match verdict D conflicting current id entry with
      | .unchanged | .rejected => startCalls D conflicting current rest sup
      | .start =>
          let stops := if (current.get? id).isSome then [SupervisorCall.stop id] else []
          let sup := if (current.get? id).isSome then sup.stop id else sup
          match sup.start (entry.driverConfig D) with
          | .error _ => stops ++ [.start (entry.driverConfig D)]
          | .ok sup =>
              stops ++ .start (entry.driverConfig D) ::
                startCalls D conflicting current rest sup := by
  rw [startCalls, verdict]
  by_cases hc : current.get? id = some entry
  · simp only [if_pos hc]
  · by_cases hconf : id ∈ conflicting
    · simp only [if_neg hc, if_pos hconf]
    · by_cases hv : entry.Valid D
      · simp only [if_neg hc, if_neg hconf, if_pos hv, buildDriverConfig_of_valid hv]
      · simp only [if_neg hc, if_neg hconf, if_neg hv]
        cases hb : buildDriverConfig D entry with
        | error e => rfl
        | ok cfg => exact (hv (buildDriverConfig_eq_ok.1 hb).1).elim

/-! ## Making the calls is what a reconciliation does -/

omit [DecidableEq V] in
theorem foldl_stopCalls (present : List String) (sup : Supervisor V) :
    (stopCalls present current).foldl Supervisor.perform sup = stopRemoved present current sup := by
  rw [stopCalls, stopRemoved, List.foldl_map]
  rfl

theorem foldl_disableCalls (l : List (String × Entry V)) (result : Dict String (Entry V))
    (sup : Supervisor V) :
    (disableCalls current l).foldl Supervisor.perform sup =
      (disableChanged current l result sup).2 := by
  induction l generalizing result sup with
  | nil => rfl
  | cons p l ih =>
    obtain ⟨id, entry⟩ := p
    rw [disableCalls, disableChanged]
    by_cases hc : current.get? id = some entry
    · rw [if_pos hc, if_pos hc]
      exact ih (result.set id entry) sup
    · rw [if_neg hc, if_neg hc, List.foldl_cons]
      exact ih (result.set id entry) (sup.disable id)

omit [DecidableEq V] in
theorem foldl_stop_if (stop : Bool) (id : String) (sup : Supervisor V) :
    (if stop then [SupervisorCall.stop id] else []).foldl Supervisor.perform sup =
      if stop then sup.stop id else sup := by
  cases stop <;> rfl

theorem foldl_startCalls (l : List (String × Entry V)) (result : Dict String (Entry V))
    (sup : Supervisor V) :
    (startCalls D conflicting current l sup).foldl Supervisor.perform sup =
      (startChanged D conflicting current l result sup).1 := by
  induction l generalizing result sup with
  | nil => rfl
  | cons p l ih =>
    obtain ⟨id, entry⟩ := p
    rw [startCalls_cons, startChanged_cons]
    cases verdict D conflicting current id entry with
    | unchanged => exact ih result sup
    | rejected => exact ih (keepPrior current id result) sup
    | start =>
      cases hstart : (if (current.get? id).isSome then sup.stop id else sup).start
          (entry.driverConfig D) with
      | error e =>
        simp only [List.foldl_append, foldl_stop_if, List.foldl_cons, List.foldl_nil,
          Supervisor.perform, hstart]
      | ok started =>
        simp only [List.foldl_append, foldl_stop_if, List.foldl_cons, Supervisor.perform, hstart]
        exact ih result started

/-- What the third loop does to the new dictionary: what was tracked before replaces every entry
that is rejected. -/
def rejectAll (D : DriverTypes V) (conflicting : List String) (current : Dict String (Entry V)) :
    List (String × Entry V) → Dict String (Entry V) → Dict String (Entry V)
  | [], result => result
  | (id, entry) :: rest, result =>
      rejectAll D conflicting current rest
        (if verdict D conflicting current id entry = .rejected then keepPrior current id result
          else result)

variable {l : List (String × Entry V)} {sup : Supervisor V}

theorem startChanged_eq_ok {result tracking : Dict String (Entry V)}
    (h : (startChanged D conflicting current l result sup).2 = .ok tracking) :
    tracking = rejectAll D conflicting current l result := by
  induction l generalizing result sup with
  | nil =>
    cases h
    rfl
  | cons p l ih =>
    obtain ⟨id, entry⟩ := p
    rw [startChanged_cons] at h
    rw [rejectAll]
    cases hv : verdict D conflicting current id entry with
    | unchanged | rejected =>
      rw [hv] at h
      exact ih h
    | start =>
      rw [hv] at h
      dsimp only at h
      split at h
      · cases h
      · exact ih h

theorem get?_rejectAll (hl : (l.map Prod.fst).Nodup) (result : Dict String (Entry V)) (j : String) :
    (rejectAll D conflicting current l result).get? j =
      match lookup j l with
      | none => result.get? j
      | some e =>
          if verdict D conflicting current j e = .rejected then current.get? j
          else result.get? j := by
  induction l generalizing result with
  | nil => rfl
  | cons p l ih =>
    obtain ⟨id, entry⟩ := p
    rw [List.map_cons, List.nodup_cons] at hl
    rw [rejectAll, ih hl.2, lookup]
    by_cases hj : id = j
    · subst hj
      have hnone : lookup id l = none := lookup_eq_none_iff.2 hl.1
      rw [hnone, if_pos rfl]
      dsimp only
      split
      · exact (get?_keepPrior ..).trans (if_pos rfl)
      · rfl
    · rw [if_neg hj]
      have hother : (if verdict D conflicting current id entry = .rejected then
          keepPrior current id result else result).get? j = result.get? j := by
        split
        · exact (get?_keepPrior ..).trans (if_neg (Ne.symm hj))
        · rfl
      rw [hother]

theorem fst_stopAndDisable (drivers : List (Entry V)) (current current' : Dict String (Entry V))
    (sup sup' : Supervisor V) :
    (stopAndDisable drivers current sup).1 = (stopAndDisable drivers current' sup').1 := by
  have hloop : ∀ (l : List (String × Entry V)) (result : Dict String (Entry V))
      (sup sup' : Supervisor V),
      (disableChanged current l result sup).1 = (disableChanged current' l result sup').1 := by
    intro l
    induction l with
    | nil => exact fun _ _ _ => rfl
    | cons p l ih => exact fun result sup sup' => ih (result.set p.1 p.2) _ _
  exact hloop _ _ _ _

/-! ## Minimal and idempotent -/

variable {c : SupervisorCall V}

theorem instanceId_disableCalls (h : c ∈ disableCalls current l) :
    ∃ p ∈ l, current.get? p.1 ≠ some p.2 ∧ c = .disable p.1 := by
  induction l with
  | nil => cases h
  | cons p l ih =>
    obtain ⟨id, entry⟩ := p
    rw [disableCalls] at h
    have hrest : c ∈ disableCalls current l →
        ∃ p ∈ (id, entry) :: l, current.get? p.1 ≠ some p.2 ∧ c = .disable p.1 := by
      intro hmem
      obtain ⟨p, hp, hprops⟩ := ih hmem
      exact ⟨p, List.mem_cons_of_mem _ hp, hprops⟩
    split at h
    · exact hrest h
    · next hc =>
      rcases List.mem_cons.1 h with rfl | hmem
      · exact ⟨(id, entry), List.mem_cons_self .., hc, rfl⟩
      · exact hrest hmem

theorem instanceId_startCalls (hid : ∀ p ∈ l, p.2.id = p.1)
    (h : c ∈ startCalls D conflicting current l sup) :
    ∃ p ∈ l, verdict D conflicting current p.1 p.2 = .start ∧ c.instanceId = p.1 := by
  induction l generalizing sup with
  | nil => cases h
  | cons p l ih =>
    obtain ⟨id, entry⟩ := p
    rw [List.forall_mem_cons] at hid
    have hrest : ∀ {sup}, c ∈ startCalls D conflicting current l sup →
        ∃ p ∈ (id, entry) :: l, verdict D conflicting current p.1 p.2 = .start ∧
          c.instanceId = p.1 := by
      intro sup hmem
      obtain ⟨p, hp, hprops⟩ := ih hid.2 hmem
      exact ⟨p, List.mem_cons_of_mem _ hp, hprops⟩
    rw [startCalls_cons] at h
    cases hv : verdict D conflicting current id entry with
    | unchanged | rejected =>
      rw [hv] at h
      exact hrest h
    | start =>
      rw [hv] at h
      dsimp only at h
      -- a stop and a start of this instance, and perhaps the calls for the others
      have hthis : ∀ c', c' ∈ (if (current.get? id).isSome then [SupervisorCall.stop id] else []) ∨
          c' = .start (entry.driverConfig D) → ∃ p ∈ (id, entry) :: l,
            verdict D conflicting current p.1 p.2 = .start ∧ c'.instanceId = p.1 := by
        intro c' hc'
        refine ⟨(id, entry), List.mem_cons_self .., hv, ?_⟩
        rcases hc' with hstop | rfl
        · split at hstop
          · rw [List.mem_singleton.1 hstop]
            rfl
          · cases hstop
        · exact hid.1
      split at h
      · rcases List.mem_append.1 h with hstop | hstart
        · exact hthis c (.inl hstop)
        · exact hthis c (.inr (List.mem_singleton.1 hstart))
      · rcases List.mem_append.1 h with hstop | hstart
        · exact hthis c (.inl hstop)
        · rcases List.mem_cons.1 hstart with hstart | hmem
          · exact hthis c (.inr hstart)
          · exact hrest hmem

variable {id : String} {entry : Entry V}

theorem verdict_of_tracked
    (h : current.get? id = some entry) : verdict D conflicting current id entry = .unchanged :=
  if_pos h

theorem ne_instanceId_of_tracked {drivers : List (Entry V)} (hids : (drivers.map Entry.id).Nodup)
    {e : Entry V} (he : e ∈ drivers) (hsame : current.get? e.id = some e)
    (hc : c ∈ reconcileCalls D drivers current sup) :
    c.instanceId ≠ e.id := by
  intro heq
  rw [reconcileCalls] at hc
  cases hconf : conflictingSerialInstanceIds D drivers with
  | error f =>
    rw [hconf] at hc
    cases hc
  | ok conflicting =>
    rw [hconf] at hc
    rcases List.mem_append.1 hc with hc | hc
    · rcases List.mem_append.1 hc with hc | hc
      · -- what is stopped is not in the list
        obtain ⟨id, hid, rfl⟩ := List.mem_map.1 hc
        have habsent := of_decide_eq_true (List.mem_filter.1 hid).2
        exact habsent ((mem_present hids).2 ⟨e, he, heq.symm⟩)
      · obtain ⟨p, hp, hchanged, rfl⟩ := instanceId_disableCalls hc
        obtain ⟨⟨hmem, -⟩, hid⟩ := (get?_disabledById hids).1 ((Dict.get?_eq_some_iff _).2 hp)
        have hentry : p.2 = e := eq_of_id_eq hids hmem he (hid.trans heq)
        rw [show p.1 = e.id from heq, hentry] at hchanged
        exact hchanged hsame
    · have hentries : ∀ p ∈ (enabledById drivers).entries, p.2.id = p.1 := fun p hp =>
        (mem_enabledById hp).2.2
      obtain ⟨p, hp, hstart, hid⟩ := instanceId_startCalls hentries hc
      have hentry : p.2 = e :=
        eq_of_id_eq hids (mem_enabledById hp).1 he ((hentries p hp).trans (hid.symm.trans heq))
      rw [← hid, heq, hentry, verdict_of_tracked hsame] at hstart
      cases hstart

theorem startCalls_eq_nil (h : ∀ p ∈ l, verdict D conflicting current p.1 p.2 ≠ .start)
    (result : Dict String (Entry V)) (sup : Supervisor V) :
    startCalls D conflicting current l sup = [] ∧
      (startChanged D conflicting current l result sup).2 =
        .ok (rejectAll D conflicting current l result) := by
  induction l generalizing result with
  | nil => exact ⟨rfl, rfl⟩
  | cons p l ih =>
    obtain ⟨id, entry⟩ := p
    rw [List.forall_mem_cons] at h
    rw [startCalls_cons, startChanged_cons, rejectAll]
    cases hv : verdict D conflicting current id entry with
    | unchanged => exact ih h.2 result
    | rejected => exact ih h.2 (keepPrior current id result)
    | start => exact absurd hv h.1

variable {current' : Dict String (Entry V)}

theorem rejectAll_congr
    (h : ∀ p ∈ l, (verdict D conflicting current' p.1 p.2 = .rejected ↔
        verdict D conflicting current p.1 p.2 = .rejected) ∧
      (verdict D conflicting current p.1 p.2 = .rejected →
        current'.get? p.1 = current.get? p.1)) (result : Dict String (Entry V)) :
    rejectAll D conflicting current' l result = rejectAll D conflicting current l result := by
  induction l generalizing result with
  | nil => rfl
  | cons p l ih =>
    obtain ⟨id, entry⟩ := p
    rw [List.forall_mem_cons] at h
    obtain ⟨⟨hiff, hsame⟩, hrest⟩ := h
    rw [rejectAll, rejectAll]
    by_cases hrejected : verdict D conflicting current id entry = .rejected
    · rw [if_pos hrejected, if_pos (hiff.2 hrejected), keepPrior, keepPrior, hsame hrejected]
      exact ih hrest _
    · rw [if_neg hrejected, if_neg fun h' => hrejected (hiff.1 h')]
      exact ih hrest _

theorem verdict_congr (h : current'.get? id = current.get? id) :
    verdict D conflicting current' id entry = verdict D conflicting current id entry := by
  rw [verdict, verdict, h]

section Returned

variable {drivers : List (Entry V)} {sup : Supervisor V} {tracking : Dict String (Entry V)}

theorem tracking_eq_rejectAll (h : (applyDriverChanges D drivers current sup).2 = .ok tracking) :
    ∃ conflicting, conflictingSerialInstanceIds D drivers = .ok conflicting ∧
      tracking = rejectAll D conflicting current (enabledById drivers).entries
        (stopAndDisable drivers current sup).1 := by
  rw [applyDriverChanges] at h
  cases hconf : conflictingSerialInstanceIds D drivers with
  | error f =>
    rw [hconf] at h
    cases h
  | ok conflicting =>
    rw [hconf] at h
    exact ⟨conflicting, rfl, startChanged_eq_ok h⟩

variable {p : String × Entry V}

theorem get?_tracking_enabled (hids : (drivers.map Entry.id).Nodup)
    (hp : p ∈ (enabledById drivers).entries) :
    (rejectAll D conflicting current (enabledById drivers).entries
        (stopAndDisable drivers current sup).1).get? p.1 =
      if verdict D conflicting current p.1 p.2 = .rejected then current.get? p.1
      else some p.2 := by
  obtain ⟨hmem, -, hid⟩ := mem_enabledById hp
  have hlookup : lookup p.1 (enabledById drivers).entries = some p.2 :=
    (Dict.get?_eq_some_iff _).2 hp
  have hresult := (stopAndDisable_present current sup hids hmem).1
  rw [hid] at hresult
  rw [get?_rejectAll (enabledById drivers).nodup, hlookup, hresult]

theorem get?_tracking_disabled (hids : (drivers.map Entry.id).Nodup)
    (hp : p ∈ (disabledById drivers).entries) :
    (rejectAll D conflicting current (enabledById drivers).entries
        (stopAndDisable drivers current sup).1).get? p.1 = some p.2 := by
  obtain ⟨⟨hmem, hoff⟩, hid⟩ := (get?_disabledById hids).1 ((Dict.get?_eq_some_iff _).2 hp)
  have hlookup : lookup p.1 (enabledById drivers).entries = none := by
    rw [← hid]
    exact get?_byId_filter_eq_none hids hmem hoff
  have hresult := (stopAndDisable_present current sup hids hmem).1
  rw [hid] at hresult
  rw [get?_rejectAll (enabledById drivers).nodup, hlookup, hresult]

theorem mem_present_of_tracking (hids : (drivers.map Entry.id).Nodup) {j : String} {e : Entry V}
    (h : (rejectAll D conflicting current (enabledById drivers).entries
      (stopAndDisable drivers current sup).1).get? j = some e) :
    j ∈ (enabledById drivers).keys ++ (disabledById drivers).keys := by
  rw [mem_present hids]
  by_contra habsent
  have hne : ∀ e ∈ drivers, e.id ≠ j := fun e he hid => habsent ⟨e, he, hid⟩
  have hlookup : lookup j (enabledById drivers).entries = none := get?_eq_none_of_absent
    (fun e he => ⟨((get?_enabledById hids).1 he).1.1, ((get?_enabledById hids).1 he).2⟩) hne
  rw [get?_rejectAll (enabledById drivers).nodup, hlookup,
    (stopAndDisable_absent current sup hids hne).1] at h
  cases h

/-- **A second reconciliation has nothing to do.**  Whatever the supervisor is by then. -/
theorem reconcile_again (hids : (drivers.map Entry.id).Nodup)
    (h : (applyDriverChanges D drivers current sup).2 = .ok tracking) (sup' : Supervisor V) :
    reconcileCalls D drivers tracking sup' = [] ∧
      (applyDriverChanges D drivers tracking sup').2 = .ok tracking := by
  obtain ⟨conflicting, hconf, rfl⟩ := tracking_eq_rejectAll h
  set tracking := rejectAll D conflicting current (enabledById drivers).entries
    (stopAndDisable drivers current sup).1 with htracking
  have hstop : stopCalls ((enabledById drivers).keys ++ (disabledById drivers).keys) tracking =
      ([] : List (SupervisorCall V)) := by
    rw [stopCalls, List.map_eq_nil_iff, List.filter_eq_nil_iff]
    intro j hj
    obtain ⟨e, he⟩ := (Dict.mem_keys _).1 hj
    have hpresent := mem_present_of_tracking hids he
    rw [decide_eq_true_eq, not_not]
    exact hpresent
  have hdisable : disableCalls tracking (disabledById drivers).entries = [] := by
    refine List.eq_nil_iff_forall_not_mem.2 fun c hc => ?_
    obtain ⟨p, hp, hchanged, -⟩ := instanceId_disableCalls hc
    exact hchanged (get?_tracking_disabled hids hp)
  -- an entry is rejected again, or tracked as it is
  have hverdict : ∀ p ∈ (enabledById drivers).entries,
      verdict D conflicting tracking p.1 p.2 =
        if verdict D conflicting current p.1 p.2 = .rejected then .rejected else .unchanged := by
    intro p hp
    have hget : tracking.get? p.1 = if verdict D conflicting current p.1 p.2 = .rejected
        then current.get? p.1 else some p.2 := get?_tracking_enabled hids hp
    split
    · next hrejected =>
      rw [if_pos hrejected] at hget
      rw [verdict_congr hget, hrejected]
    · next hkept =>
      rw [if_neg hkept] at hget
      exact verdict_of_tracked hget
  have hstart : ∀ p ∈ (enabledById drivers).entries,
      verdict D conflicting tracking p.1 p.2 ≠ .start := by
    intro p hp hv
    rw [hverdict p hp] at hv
    split at hv <;> cases hv
  obtain ⟨hcalls, hok⟩ := startCalls_eq_nil hstart (stopAndDisable drivers tracking sup').1
    (stopAndDisable drivers tracking sup').2
  constructor
  · rw [reconcileCalls, hconf]
    simp only [hstop, hdisable, hcalls, List.append_nil]
  · rw [applyDriverChanges, hconf]
    rw [hok, fst_stopAndDisable drivers tracking current sup' sup]
    refine congrArg Except.ok (rejectAll_congr (fun p hp => ⟨?_, fun hrejected => ?_⟩) _)
    · rw [hverdict p hp]
      split
      · next hrejected => exact iff_of_true rfl hrejected
      · next hkept => exact iff_of_false Verdict.noConfusion hkept
    · exact (get?_tracking_enabled hids hp).trans (if_pos hrejected)

end Returned

/-- **What a reconciliation leaves alone.**  For every list of entries with ids of their own, every
tracking dictionary and every supervisor: no instance whose entry is tracked as it is, is stopped,
disabled or started; and if the reconciliation returns, one more with the dictionary that it has
returned stops, disables and starts nothing, and returns that dictionary again. -/
theorem reconcile_minimal_idempotent (D : DriverTypes V) (drivers : List (Entry V))
    (hids : (drivers.map Entry.id).Nodup) (current : Dict String (Entry V)) (sup : Supervisor V) :
    (∀ e ∈ drivers, current.get? e.id = some e →
      ∀ c ∈ reconcileCalls D drivers current sup, c.instanceId ≠ e.id) ∧
    ∀ tracking, (applyDriverChanges D drivers current sup).2 = .ok tracking → ∀ sup',
      reconcileCalls D drivers tracking sup' = [] ∧
        (applyDriverChanges D drivers tracking sup').2 = .ok tracking :=
  ⟨fun _ he hsame _ hc => ne_instanceId_of_tracked hids he hsame hc,
    fun _ h sup' => reconcile_again hids h sup'⟩

def mixedDrivers : List (Entry Lit) :=
  [⟨"same", "loopback", none, none, none, .num 0⟩, ⟨"new", "loopback", none, none, none, .num 0⟩,
    ⟨"broken", "modbus_rtu_serial", none, some (.map none none), none, .num 0⟩,
    ⟨"off", "loopback", some false, none, none, .num 0⟩]

def mixedTracking : Dict String (Entry Lit) :=
  byId [⟨"same", "loopback", none, none, none, .num 0⟩,
    ⟨"broken", "modbus_rtu_serial", none, some (.map (some "COM1") none), none, .num 0⟩,
    ⟨"off", "loopback", none, none, none, .num 0⟩, ⟨"gone", "loopback", none, none, none, .num 0⟩]

theorem reconcile_minimal_idempotent_mixed :
    reconcileCalls litTypes mixedDrivers mixedTracking .new =
      [.stop "gone", .disable "off", .start ⟨"new", "loopback", .map none none, .list []⟩] ∧
    ∃ tracking, (applyDriverChanges litTypes mixedDrivers mixedTracking .new).2 = .ok tracking ∧
      tracking.keys = ["same", "new", "broken", "off"] ∧
      reconcileCalls litTypes mixedDrivers tracking .new = [] := by
  refine ⟨by decide +kernel, ?_⟩
  have hkeys : ((applyDriverChanges litTypes mixedDrivers mixedTracking .new).2.toOption.map
      Dict.keys) = some ["same", "new", "broken", "off"] := by decide +kernel
  cases h : (applyDriverChanges litTypes mixedDrivers mixedTracking .new).2 with
  | error e =>
    rw [h] at hkeys
    cases hkeys
  | ok tracking =>
    rw [h] at hkeys
    refine ⟨tracking, rfl, Option.some.inj hkeys, ?_⟩
    exact ((reconcile_minimal_idempotent litTypes mixedDrivers (by decide) mixedTracking .new).2
      tracking h .new).1

end XEdge.Core
