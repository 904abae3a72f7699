import XEdge.Core.HotReload

/-!
# One instance per slave id

Two serial instances with the same port and unit id are two masters talking to one slave.
The conflict check refuses files in which two entries name the same slave id.  It looks at
the incoming list only: an instance whose new entry is rejected goes on with its old one,
instances are restarted one after the other, an entry that leaves its unit id to the default
is not compared, and a REST call does not check at all.
-/

namespace XEdge.Core

open Lib Config

variable {V : Type} [DecidableEq V]

/-! ## Slave ids of tasks -/

def slaveOf (D : DriverTypes V) (cfg : DriverConfig V) : Option (V × V) :=
  if cfg.driverType = "modbus_rtu_serial" then
    match D.get cfg.config "port", D.get cfg.config "unit_id" with
    | .ok (some port), .ok unitId => some (port, unitId.getD D.defaultUnitId)
    | _, _ => none
  else none

def clash (D : DriverTypes V) (c c' : DriverConfig V) : Bool :=
  (slaveOf D c).isSome && slaveOf D c = slaveOf D c'

def Exclusive (D : DriverTypes V) (tasks : Dict String (DriverConfig V)) : Prop :=
  ∀ i j c c', tasks.get? i = some c → tasks.get? j = some c' → clash D c c' = true → i = j

structure Safe (D : DriverTypes V) (sup : Supervisor V) : Prop where
  now : Exclusive D sup.tasks
  ever : ∀ t ∈ sup.past, Exclusive D t

variable {D : DriverTypes V}

theorem clash_symm {c c' : DriverConfig V} (h : clash D c c' = true) : clash D c' c = true := by
  simp only [clash, Bool.and_eq_true, decide_eq_true_eq] at h ⊢
  exact ⟨h.2 ▸ h.1, h.2.symm⟩
variable {tasks : Dict String (DriverConfig V)} {sup : Supervisor V}


theorem Exclusive.erase (h : Exclusive D tasks) (id : String) : Exclusive D (tasks.erase id) := by
  intro i j c c' hi hj hc
  exact h i j c c' (Dict.get?_erase_eq_some.1 hi).2 (Dict.get?_erase_eq_some.1 hj).2 hc

variable {id : String}

theorem Exclusive.set (h : Exclusive D tasks)
    {cfg : DriverConfig V} (hfree : ∀ j c, j ≠ id → tasks.get? j = some c → clash D c cfg = false) :
    Exclusive D (tasks.set id cfg) := by
  intro i j c c' hi hj hc
  rcases Dict.get?_set_eq_some.1 hi with ⟨rfl, rfl⟩ | ⟨hid, hold⟩
  · rcases Dict.get?_set_eq_some.1 hj with ⟨rfl, -⟩ | ⟨hjd, hj⟩
    · rfl
    · have hnot := hfree j c' hjd hj
      rw [clash_symm hc] at hnot
      cases hnot
  · rcases Dict.get?_set_eq_some.1 hj with ⟨rfl, rfl⟩ | ⟨-, hold'⟩
    · have hnot := hfree i c hid hold
      rw [hc] at hnot
      cases hnot
    · exact h i j c c' hold hold' hc

theorem Safe.update (h : Safe D sup) (ht : Exclusive D tasks) :
    Safe D (sup.update tasks) :=
  ⟨ht, List.forall_mem_cons.2 ⟨ht, h.ever⟩⟩

theorem Safe.stop (h : Safe D sup) (id : String) : Safe D (sup.stop id) :=
  h.update (h.now.erase id)

theorem Safe.foldl_stop (h : Safe D sup) (ids : List String) :
    Safe D (ids.foldl Supervisor.stop sup) := by
  induction ids generalizing sup with
  | nil => exact h
  | cons id ids ih => exact ih (h.stop id)

theorem Safe.disableChanged {current result : Dict String (Entry V)}
    (h : Safe D sup) (l : List (String × Entry V)) :
    Safe D (disableChanged current l result sup).2 := by
  induction l generalizing result sup with
  | nil => exact h
  | cons p l ih =>
    obtain ⟨id, entry⟩ := p
    rw [Core.disableChanged]
    split
    · exact ih h
    · exact ih (h.stop id)

theorem safe_new : Safe D (Supervisor.new : Supervisor V) := by
  have hempty : Exclusive D (Dict.empty : Dict String (DriverConfig V)) := by
    intro i j c c' hi
    cases hi
  exact ⟨hempty, fun t ht => List.mem_singleton.1 ht ▸ hempty⟩

/-! ## What the conflict check gives -/

def NamedWhereShared (D : DriverTypes V) (drivers : List (Entry V)) : Prop :=
  ∀ e ∈ drivers, ∀ e' ∈ drivers, e.isEnabled = true → e'.isEnabled = true → e.id ≠ e'.id →
    clash D (e.driverConfig D) (e'.driverConfig D) = true →
      slaveKey D e = .ok (slaveOf D (e.driverConfig D)) ∧
        slaveKey D e' = .ok (slaveOf D (e'.driverConfig D))

instance (D : DriverTypes V) (drivers : List (Entry V)) : Decidable (NamedWhereShared D drivers) :=
  inferInstanceAs (Decidable (∀ e ∈ drivers, ∀ e' ∈ drivers, e.isEnabled = true →
    e'.isEnabled = true → e.id ≠ e'.id →
      clash D (e.driverConfig D) (e'.driverConfig D) = true →
        slaveKey D e = .ok (slaveOf D (e.driverConfig D)) ∧
          slaveKey D e' = .ok (slaveOf D (e'.driverConfig D))))

theorem mem_claimants_of_slaveKey {drivers : List (Entry V)} {e : Entry V} (he : e ∈ drivers)
    {key : V × V} (hkey : slaveKey D e = .ok (some key)) : e.id ∈ claimants D drivers key :=
  List.mem_map.2 ⟨e, List.mem_filter.2 ⟨he, by simp [claims, hkey]⟩, rfl⟩

variable {conflicting : List String}

theorem clash_eq_false {drivers : List (Entry V)}
    (hconf : conflictingSerialInstanceIds D drivers = .ok conflicting)
    (hnamed : NamedWhereShared D drivers) {e e' : Entry V} (he : e ∈ drivers) (he' : e' ∈ drivers)
    (hen : e.isEnabled = true) (hen' : e'.isEnabled = true) (hid : e.id ≠ e'.id)
    (hfree : e.id ∉ conflicting) : clash D (e.driverConfig D) (e'.driverConfig D) = false := by
  rw [← Bool.not_eq_true]
  intro hclash
  obtain ⟨hkey, hkey'⟩ := hnamed e he e' he' hen hen' hid hclash
  simp only [clash, Bool.and_eq_true, decide_eq_true_eq] at hclash
  obtain ⟨key, hslave⟩ := Option.isSome_iff_exists.1 hclash.1
  rw [← hclash.2, hslave] at hkey'
  rw [hslave] at hkey
  have hmem := mem_claimants_of_slaveKey he hkey
  have hmem' := mem_claimants_of_slaveKey he' hkey'
  refine hfree ((mem_conflicting_iff hconf).2 ⟨key, hmem, ?_⟩)
  -- two different instances are among the claimants
  match hlist : claimants D drivers key with
  | [] => simp [hlist] at hmem
  | [id] =>
    rw [hlist, List.mem_singleton] at hmem hmem'
    exact (hid (hmem.trans hmem'.symm)).elim
  | _ :: _ :: _ => simp

/-! ## The loops -/

section Loops

variable {conflicting : List String} {current : Dict String (Entry V)}

/-- Whoever is in the way of an entry that the loop will start is restarted before it. -/
def Yielding (D : DriverTypes V) (conflicting : List String) (current : Dict String (Entry V))
    (l : List (String × Entry V)) (tasks : Dict String (DriverConfig V)) : Prop :=
  ∀ before p after, l = before ++ p :: after → verdict D conflicting current p.1 p.2 = .start →
    ∀ j c, j ≠ p.1 → tasks.get? j = some c → clash D c (p.2.driverConfig D) = true →
      ∃ q ∈ before, q.1 = j ∧ verdict D conflicting current q.1 q.2 = .start

variable {tasks : Dict String (DriverConfig V)} {p : String × Entry V}
  {l : List (String × Entry V)}

theorem Yielding.head (h : Yielding D conflicting current (p :: l) tasks)
    (hv : verdict D conflicting current p.1 p.2 = .start) {j : String} {c : DriverConfig V}
    (hj : j ≠ p.1) (hc : tasks.get? j = some c) : clash D c (p.2.driverConfig D) = false := by
  rw [← Bool.not_eq_true]
  intro hclash
  obtain ⟨q, hq, -⟩ := h [] p l rfl hv j c hj hc hclash
  cases hq

/-- The next entry is dealt with: it is not started, or it is and clashes with none of the
others. -/
theorem Yielding.tail (h : Yielding D conflicting current (p :: l) tasks)
    {tasks' : Dict String (DriverConfig V)} (hother : ∀ j, j ≠ p.1 → tasks'.get? j = tasks.get? j)
    (hself : verdict D conflicting current p.1 p.2 = .start → ∀ q ∈ l, p.1 ≠ q.1 → ∀ c,
      tasks'.get? p.1 = some c → clash D c (q.2.driverConfig D) = false)
    (hsame : verdict D conflicting current p.1 p.2 ≠ .start → tasks' = tasks) :
    Yielding D conflicting current l tasks' := by
  intro before q after heq hv j c hj hc hclash
  have hq : q ∈ l := heq ▸ List.mem_append_right _ (List.mem_cons_self ..)
  have hearlier : tasks.get? j = some c → (∃ r ∈ p :: before, r.1 = j ∧
      verdict D conflicting current r.1 r.2 = .start) :=
    fun hold => h (p :: before) q after (by rw [heq]; rfl) hv j c hj hold hclash
  by_cases hstart : verdict D conflicting current p.1 p.2 = .start
  · have hjp : j ≠ p.1 := by
      rintro rfl
      have hnot := hself hstart q hq hj c hc
      rw [hclash] at hnot
      cases hnot
    obtain ⟨r, hr, hrj, hrv⟩ := hearlier (hother j hjp ▸ hc)
    rcases List.mem_cons.1 hr with rfl | hr
    · exact absurd hrj.symm hjp
    · exact ⟨r, hr, hrj, hrv⟩
  · obtain ⟨r, hr, hrj, hrv⟩ := hearlier (hsame hstart ▸ hc)
    rcases List.mem_cons.1 hr with rfl | hr
    · exact absurd hrv hstart
    · exact ⟨r, hr, hrj, hrv⟩

/-- **The third loop keeps slaves apart**, if the entries it starts do not clash with each
other, and whoever is in the way of one of them is restarted before. -/
theorem startChanged_safe (hl : (l.map Prod.fst).Nodup) (hid : ∀ p ∈ l, p.2.id = p.1)
    (hapart : ∀ p ∈ l, ∀ q ∈ l, p.1 ≠ q.1 → verdict D conflicting current p.1 p.2 = .start →
      clash D (p.2.driverConfig D) (q.2.driverConfig D) = false)
    (result : Dict String (Entry V)) {sup : Supervisor V} (h : Safe D sup)
    (hway : Yielding D conflicting current l sup.tasks) :
    Safe D (startChanged D conflicting current l result sup).1 := by
  induction l generalizing result sup with
  | nil => exact h
  | cons p l ih =>
    obtain ⟨id, entry⟩ := p
    rw [List.map_cons, List.nodup_cons] at hl
    have hid' := (List.forall_mem_cons.1 hid).2
    have hapart' : ∀ p ∈ l, ∀ q ∈ l, p.1 ≠ q.1 →
        verdict D conflicting current p.1 p.2 = .start →
          clash D (p.2.driverConfig D) (q.2.driverConfig D) = false :=
      fun p hp q hq => hapart p (List.mem_cons_of_mem _ hp) q (List.mem_cons_of_mem _ hq)
    rw [startChanged_cons]
    cases hv : verdict D conflicting current id entry with
    | unchanged =>
      exact ih hl.2 hid' hapart' result h
        (hway.tail (fun _ _ => rfl) (fun hstart => by simp [hv] at hstart) fun _ => rfl)
    | rejected =>
      exact ih hl.2 hid' hapart' _ h
        (hway.tail (fun _ _ => rfl) (fun hstart => by simp [hv] at hstart) fun _ => rfl)
    | start =>
      have hentry : entry.id = id := (List.forall_mem_cons.1 hid).1
      have hstopped : Safe D (if (current.get? id).isSome then sup.stop id else sup) := by
        split
        · exact h.stop id
        · exact h
      have hother : ∀ j, j ≠ id →
          (if (current.get? id).isSome then sup.stop id else sup).tasks.get? j =
            sup.tasks.get? j := fun j => Supervisor.get?_stop_if_of_ne _ sup
      generalize (if (current.get? id).isSome then sup.stop id else sup) = stopped
        at hstopped hother
      dsimp only
      cases hstart : stopped.start (entry.driverConfig D) with
      | error e => exact hstopped
      | ok started =>
        have hset : started = stopped.update (stopped.tasks.set id (entry.driverConfig D)) := by
          rw [Supervisor.start_eq_ok hstart, ← hentry]
          rfl
        have hexclusive : Exclusive D (stopped.tasks.set id (entry.driverConfig D)) :=
          hstopped.now.set fun j c hj hc => hway.head hv hj (hother j hj ▸ hc)
        rw [hset]
        refine ih hl.2 hid' hapart' result (hstopped.update hexclusive) (hway.tail ?_ ?_ ?_)
        · exact fun j hj => (Dict.get?_set_of_ne _ _ hj).trans (hother j hj)
        · intro _ q hq hne c hc
          cases (Dict.get?_set_self _ _ _).symm.trans hc
          exact hapart _ (List.mem_cons_self ..) q (List.mem_cons_of_mem _ hq) hne hv
        · exact fun hnot => absurd hv hnot

end Loops

/-! ## Passes, startup and REST -/

/-- The instance loses its task before the entries after `before` are reached: it is tracked
and gone from the file, switched off in it, or restarted earlier. -/
def GivesWay (D : DriverTypes V) (conflicting : List String) (drivers : List (Entry V))
    (current : Dict String (Entry V)) (before : List (String × Entry V)) (j : String) : Prop :=
  ((current.get? j).isSome = true ∧
      j ∉ (enabledById drivers).keys ++ (disabledById drivers).keys) ∨
    (∃ p ∈ (disabledById drivers).entries, p.1 = j ∧ current.get? j ≠ some p.2) ∨
    ∃ q ∈ before, q.1 = j ∧ verdict D conflicting current q.1 q.2 = .start

instance (D : DriverTypes V) (conflicting : List String) (drivers : List (Entry V))
    (current : Dict String (Entry V)) (before : List (String × Entry V)) (j : String) :
    Decidable (GivesWay D conflicting drivers current before j) :=
  inferInstanceAs (Decidable (_ ∨ (∃ p ∈ _, _ ∧ _) ∨ ∃ q ∈ _, _ ∧ _))

def FindsFree (D : DriverTypes V) (conflicting : List String) (s : Gateway V) : Prop :=
  ∀ i : Fin (enabledById (s.drivers D)).entries.length,
    verdict D conflicting s.tracking ((enabledById (s.drivers D)).entries.get i).1
        ((enabledById (s.drivers D)).entries.get i).2 = .start →
      ∀ q ∈ s.sup.tasks.entries, q.1 ≠ ((enabledById (s.drivers D)).entries.get i).1 →
        clash D q.2 (((enabledById (s.drivers D)).entries.get i).2.driverConfig D) = true →
          GivesWay D conflicting (s.drivers D) s.tracking
            ((enabledById (s.drivers D)).entries.take i) q.1

def Guarded (D : DriverTypes V) (s : Gateway V) : GatewayEvent V → Prop
  | .edit _ => True
  | .disable _ => True
  | .enable id =>
      match s.file.find? fun e => e.id = id with
      | none => True
      | some e =>
          e.Valid D → s.sup.tasks.get? id = none →
            ∀ q ∈ s.sup.tasks.entries, clash D q.2 (e.driverConfig D) = false
  | .pass =>
      match conflictingSerialInstanceIds D (s.drivers D) with
      | .error _ => True
      | .ok conflicting => NamedWhereShared D (s.drivers D) ∧ FindsFree D conflicting s

instance (D : DriverTypes V) (conflicting : List String) (s : Gateway V) :
    Decidable (FindsFree D conflicting s) :=
  inferInstanceAs (Decidable (∀ i : Fin (enabledById (s.drivers D)).entries.length,
    verdict D conflicting s.tracking ((enabledById (s.drivers D)).entries.get i).1
        ((enabledById (s.drivers D)).entries.get i).2 = .start →
      ∀ q ∈ s.sup.tasks.entries, q.1 ≠ ((enabledById (s.drivers D)).entries.get i).1 →
        clash D q.2 (((enabledById (s.drivers D)).entries.get i).2.driverConfig D) = true →
          GivesWay D conflicting (s.drivers D) s.tracking
            ((enabledById (s.drivers D)).entries.take i) q.1))

instance (D : DriverTypes V) (s : Gateway V) : (ev : GatewayEvent V) → Decidable (Guarded D s ev)
  | .edit _ => isTrue trivial
  | .disable _ => isTrue trivial
  | .enable id =>
      match h : s.file.find? fun e => e.id = id with
      | none => isTrue (by simp [Guarded, h])
      | some e => decidable_of_iff (e.Valid D → s.sup.tasks.get? id = none →
          ∀ q ∈ s.sup.tasks.entries, clash D q.2 (e.driverConfig D) = false) (by simp [Guarded, h])
  | .pass =>
      match h : conflictingSerialInstanceIds D (s.drivers D) with
      | .error _ => isTrue (by simp [Guarded, h])
      | .ok conflicting => decidable_of_iff
          (NamedWhereShared D (s.drivers D) ∧ FindsFree D conflicting s) (by simp [Guarded, h])

variable {s s' : Gateway V}

theorem not_mem_of_verdict_start {current : Dict String (Entry V)}
    {e : Entry V} (h : verdict D conflicting current id e = .start) :
    id ∉ conflicting := by
  intro hmem
  rw [verdict, if_pos hmem] at h
  split at h
  · cases h
  · cases h

theorem safe_pass (h : Safe D s.sup) (hG : Guarded D s .pass) : Safe D (watchPass D s).sup := by
  rw [sup_watchPass, applyDriverChanges]
  cases hconf : conflictingSerialInstanceIds D (s.drivers D) with
  | error f => exact h
  | ok conflicting =>
    obtain ⟨hnamed, hfree⟩ : NamedWhereShared D (s.drivers D) ∧ FindsFree D conflicting s := by
      simpa only [Guarded, hconf] using hG
    have hsafe : Safe D (stopAndDisable (s.drivers D) s.tracking s.sup).2 :=
      (h.foldl_stop _).disableChanged _
    refine startChanged_safe (enabledById (s.drivers D)).nodup
      (fun p hp => (mem_enabledById hp).2.2) ?_ _ hsafe ?_
    · intro p hp q hq hne hv
      obtain ⟨hpm, hpe, hpi⟩ := mem_enabledById hp
      obtain ⟨hqm, hqe, hqi⟩ := mem_enabledById hq
      exact clash_eq_false hconf hnamed hpm hqm hpe hqe (by rw [hpi, hqi]; exact hne)
        (hpi ▸ not_mem_of_verdict_start hv)
    · intro before p after heq hv j c hj hc hclash
      obtain ⟨htask, hpresent, hunchanged⟩ := stopAndDisable_tasks hc
      have hlen : before.length < (enabledById (s.drivers D)).entries.length := by
        rw [heq, List.length_append, List.length_cons]
        omega
      have hget : (enabledById (s.drivers D)).entries.get ⟨before.length, hlen⟩ = p := by
        simp [heq]
      have htake : (enabledById (s.drivers D)).entries.take before.length = before := by
        rw [heq, List.take_left]
      have hway := hfree ⟨before.length, hlen⟩
      rw [hget, htake] at hway
      rcases hway hv (j, c) ((Dict.get?_eq_some_iff _).1 htask) hj hclash with
        ⟨hsome, hgone⟩ | ⟨q, hq, hqj, hchanged⟩ | hearlier
      · exact (hgone (hpresent hsome)).elim
      · exact (hchanged (hunchanged q hq hqj)).elim
      · exact hearlier

theorem safe_enable (h : Safe D s.sup) (hG : Guarded D s (.enable id)) :
    Safe D (enableDriver D s id).sup := by
  rcases enableDriver_cases D s id with heq | heq | ⟨e, hfind, hvalid, hnone, heq⟩
  · rw [heq]
    exact h
  · rw [heq]
    exact h
  · rw [heq]
    simp only [Guarded, hfind] at hG
    exact h.update (h.now.set fun j c _ hc =>
      hG hvalid hnone (j, c) ((Dict.get?_eq_some_iff _).1 hc))

theorem safe_step {ev : GatewayEvent V} (h : Safe D s.sup) (hG : Guarded D s ev)
    (hstep : (gatewayMachine D).step s ev = some s') : Safe D s'.sup := by
  cases ev with
  | edit file =>
    cases hstep
    exact h
  | enable id =>
    cases hstep
    exact safe_enable h hG
  | disable id =>
    cases hstep
    rcases sup_disableDriver s id with heq | heq
    · rw [heq]
      exact h
    · rw [heq]
      exact h.stop id
  | pass =>
    cases (Option.ite_none_right_eq_some.1 hstep).2
    exact safe_pass h hG

theorem startConfigured_safe {drivers : List (Entry V)} {sup sup' : Supervisor V}
    (hapart : ∀ e ∈ drivers, ∀ e' ∈ drivers, e.isEnabled = true → e'.isEnabled = true →
      e.id ≠ e'.id → e.id ∉ conflicting → clash D (e.driverConfig D) (e'.driverConfig D) = false)
    (hnext : ∀ e ∈ drivers, e.isEnabled = true → ∀ j c, j ≠ e.id → sup.tasks.get? j = some c →
      clash D c (e.driverConfig D) = false)
    (h : Safe D sup) (hrun : startConfigured D conflicting drivers sup = .ok sup') :
    Safe D sup' := by
  induction drivers generalizing sup with
  | nil =>
    cases hrun
    exact h
  | cons e rest ih =>
    have hapart' : ∀ e₁ ∈ rest, ∀ e₂ ∈ rest, e₁.isEnabled = true → e₂.isEnabled = true →
        e₁.id ≠ e₂.id → e₁.id ∉ conflicting →
          clash D (e₁.driverConfig D) (e₂.driverConfig D) = false :=
      fun e₁ h₁ e₂ h₂ => hapart e₁ (List.mem_cons_of_mem _ h₁) e₂ (List.mem_cons_of_mem _ h₂)
    rw [List.forall_mem_cons] at hnext
    rw [startConfigured] at hrun
    split at hrun
    · exact ih hapart' hnext.2 h hrun
    · next hen =>
      have hen : e.isEnabled = true := by simpa using hen
      split at hrun
      · exact ih hapart' hnext.2 h hrun
      · next hfree =>
        obtain ⟨cfg, hcfg, hbind⟩ := bind_eq_ok.1 hrun
        obtain ⟨started, hstarted, hloop⟩ := bind_eq_ok.1 hbind
        obtain ⟨-, rfl⟩ := buildDriverConfig_eq_ok.1 hcfg
        rw [Supervisor.start_eq_ok hstarted] at hloop
        refine ih hapart' ?_ (h.update (h.now.set (hnext.1 hen))) hloop
        intro e' he' hen' j c hj hc
        have hget : (sup.tasks.set e.id (e.driverConfig D)).get? j = some c := hc
        rw [Dict.get?_set] at hget
        split at hget
        · next hje =>
          cases hget
          exact hapart e (List.mem_cons_self ..) e' (List.mem_cons_of_mem _ he') hen hen'
            (hje ▸ hj) hfree
        · exact hnext.2 e' he' hen' j c hj hget

theorem safe_startup {file : List (Entry V)}
    (hnamed : NamedWhereShared D (file.map (Entry.resolve D))) (h : startup D file = .ok s) :
    Safe D s.sup := by
  obtain ⟨conflicting, hconf, hbind⟩ := bind_eq_ok.1 h
  obtain ⟨sup, hsup, hs⟩ := bind_eq_ok.1 hbind
  cases hs
  have hconf' : conflictingSerialInstanceIds D (file.map (Entry.resolve D)) = .ok conflicting := by
    cases hc : conflictingSerialInstanceIds D (file.map (Entry.resolve D)) with
    | error f =>
      rw [hc] at hconf
      cases hconf
    | ok ids =>
      rw [hc] at hconf
      cases hconf
      rfl
  refine startConfigured_safe (fun e he e' he' hen hen' hid hfree =>
    clash_eq_false hconf' hnamed he he' hen hen' hid hfree) ?_ safe_new hsup
  intro e _ _ j c _ hc
  cases hc

/-- **One instance per slave id.**  From startup on, in every run whose starts all find
their slave free, no task table there has been, in the middle of a reconciliation or after
it, has two tasks on one slave. -/
theorem slave_exclusive_run {V : Type} [DecidableEq V] {D : DriverTypes V}
    {file : List (Entry V)} {s₀ s : Gateway V} {es : List (GatewayEvent V)}
    (hnamed : NamedWhereShared D (file.map (Entry.resolve D)))
    (hstart : startup D file = .ok s₀) (hrun : (gatewayMachine D).run s₀ es = some s)
    (hG : (gatewayMachine D).Meets (Guarded D) s₀ es) :
    Exclusive D s.sup.tasks ∧ ∀ t ∈ s.sup.past, Exclusive D t := by
  have hsafe : Safe D s.sup := (gatewayMachine D).inv_run_of_meets (I := fun s => Safe D s.sup)
    (fun _ _ _ h hG hstep => safe_step h hG hstep) (safe_startup hnamed hstart) hG hrun
  exact ⟨hsafe.now, hsafe.ever⟩

/-! ### Two runs -/

def serial (id : String) (port : Option String) (unitId : Option Nat) : Entry Lit :=
  ⟨id, "modbus_rtu_serial", none, some (.map port unitId), none, .map none none⟩

def twoUnits : List (Entry Lit) :=
  [serial "a" (some "/dev/ttyUSB0") (some 1), serial "b" (some "/dev/ttyUSB0") (some 2)]

def twoUnitsStarted : Gateway Lit where
  file := twoUnits
  tracking := enabledById twoUnits
  sup :=
    let a := Dict.empty.set "a" ((serial "a" (some "/dev/ttyUSB0") (some 1)).driverConfig litTypes)
    let ab := a.set "b" ((serial "b" (some "/dev/ttyUSB0") (some 2)).driverConfig litTypes)
    ⟨ab, [ab, a, .empty]⟩
  alive := true

/-- Unit 3 is given to `a`, and `b`, which is restarted after it, takes over unit 1; then `b`
is switched off over REST and on again. -/
def unitsMove : List (GatewayEvent Lit) :=
  [.edit [serial "a" (some "/dev/ttyUSB0") (some 3), serial "b" (some "/dev/ttyUSB0") (some 1)],
    .pass, .disable "b", .enable "b", .pass]

theorem slave_exclusive_unitsMove : ∃ s, startup litTypes twoUnits = .ok twoUnitsStarted ∧
    (gatewayMachine litTypes).run twoUnitsStarted unitsMove = some s ∧
    s.sup.tasks.keys = ["a", "b"] ∧ Exclusive litTypes s.sup.tasks ∧
    ∀ t ∈ s.sup.past, Exclusive litTypes t := by
  have hstart : startup litTypes twoUnits = .ok twoUnitsStarted := rfl
  obtain ⟨s, hs, hkeys⟩ := Option.map_eq_some_iff.1
    (show ((gatewayMachine litTypes).run twoUnitsStarted unitsMove).map
        (fun s => s.sup.tasks.keys) = some ["a", "b"] by decide +kernel)
  exact ⟨s, hstart, hs, hkeys,
    slave_exclusive_run (by decide +kernel) hstart hs (by decide +kernel)⟩

/-- **A rejected entry keeps its slave.**  The edit takes the port out of the entry of `a`,
which its schema rejects, and gives the slave of `a` to `c`: both tasks run on it. -/
theorem rejected_entry_shares_slave : ∃ s, startup litTypes twoUnits = .ok twoUnitsStarted ∧
    (gatewayMachine litTypes).run twoUnitsStarted
      [.edit [serial "a" none (some 1), serial "b" (some "/dev/ttyUSB0") (some 2),
        serial "c" (some "/dev/ttyUSB0") (some 1)], .pass] = some s ∧
    s.alive = true ∧ ¬ Exclusive litTypes s.sup.tasks := by
  obtain ⟨s, hs, hv⟩ := Option.map_eq_some_iff.1
    (show ((gatewayMachine litTypes).run twoUnitsStarted
        [.edit [serial "a" none (some 1), serial "b" (some "/dev/ttyUSB0") (some 2),
          serial "c" (some "/dev/ttyUSB0") (some 1)], .pass]).map
        (fun s => (s.alive, s.sup.tasks.get? "a", s.sup.tasks.get? "c")) =
      some (true, some ((serial "a" (some "/dev/ttyUSB0") (some 1)).driverConfig litTypes),
        some ((serial "c" (some "/dev/ttyUSB0") (some 1)).driverConfig litTypes))
      by decide +kernel)
  simp only [Prod.mk.injEq] at hv
  refine ⟨s, rfl, hs, hv.1, fun hex => ?_⟩
  have hsame := hex "a" "c" _ _ hv.2.1 hv.2.2 (by decide +kernel)
  exact absurd hsame (by decide)

end XEdge.Core
