import XEdge.Core.Pipeline
import XEdge.Core.HotReload

/-!
# Read scaling and write scaling

A tag's raw value is scaled on its way out, by the pipeline, and a written value is scaled
back on its way in, by the driver.  The driver takes scale and offset from the entry it was
started with.  The pipeline takes them from a lookup that `async_main` builds once, from the
`drivers` section at startup; a reload restarts drivers and leaves the lookup as it is.
-/

namespace XEdge.Core

open Lib Config

/-! ## The driver's side -/

variable {V : Type}

abbrev TagTables (V : Type) := V → Option (List TagGroup)

def groupedTags (groups : List TagGroup) : List (String × TagGroup × TagDef) :=
  groups.flatMap fun group => group.tags.map fun tag => (tag.id, group, tag)

/-- `_tags_by_id` of a driver. -/
def tagsById (T : TagTables V) (cfg : DriverConfig V) : Dict String TagDef :=
  Dict.ofList ((groupedTags ((T cfg.tagGroups).getD [])).map fun p => (p.1, p.2.2))

/-- For every tag of the driver, what the pipeline applies is what the driver inverts. -/
def Agree (T : TagTables V) (tagConfigs : Dict String TagPipelineConfig)
    (cfg : DriverConfig V) : Prop :=
  ∀ p ∈ (tagsById T cfg).entries,
    appliedScaling (tagConfigs.get? (qualifiedId cfg.instanceId p.1)) =
      RawScaling.values p.2.scaling

instance (T : TagTables V) (tagConfigs : Dict String TagPipelineConfig) (cfg : DriverConfig V) :
    Decidable (Agree T tagConfigs cfg) :=
  inferInstanceAs (Decidable (∀ p ∈ (tagsById T cfg).entries,
    appliedScaling (tagConfigs.get? (qualifiedId cfg.instanceId p.1)) =
      RawScaling.values p.2.scaling))

/-! ## The pipeline's side -/

variable [DecidableEq V]

structure Station (V : Type) where
  gateway : Gateway V
  tagConfigs : Dict String TagPipelineConfig

section Station

variable (D : DriverTypes V) (T : TagTables V)

def Entry.groups (e : Entry V) : String × List TagGroup :=
  (e.id, (T (e.tagGroups.getD D.emptyList)).getD [])

/-- The part of `async_main` that starts the drivers and builds the lookup, from every entry
of the file, the disabled ones included. -/
def startStation (file : List (Entry V)) : Except Exn (Station V) := do
  let gateway ← startup D file
  let drivers := file.map (Entry.resolve D)
  if drivers.all fun e => (T (e.tagGroups.getD D.emptyList)).isSome then
    .ok ⟨gateway, buildTagPipelineConfigs (drivers.map (Entry.groups D T))⟩
  else .error (.fault .attribute)

def stationMachine : Machine (Station V) (GatewayEvent V) where
  step st ev := ((gatewayMachine D).step st.gateway ev).map fun gateway => { st with gateway }

def KeepsScaling (st : Station V) : GatewayEvent V → Prop
  | .edit _ => True
  | .disable _ => True
  | .enable id =>
      match st.gateway.file.find? fun e => e.id = id with
      | none => True
      | some e =>
          e.Valid D → st.gateway.sup.tasks.get? id = none →
            Agree T st.tagConfigs (e.driverConfig D)
  | .pass =>
      match conflictingSerialInstanceIds D (st.gateway.drivers D) with
      | .error _ => True
      | .ok conflicting =>
          ∀ p ∈ (enabledById (st.gateway.drivers D)).entries,
            verdict D conflicting st.gateway.tracking p.1 p.2 = .start →
              Agree T st.tagConfigs (p.2.driverConfig D)

def Entry.tagIds (e : Entry V) : List String :=
  (driverTagConfigs (e.groups D T).1 (e.groups D T).2).map Prod.fst

def UniqueTagIds (drivers : List (Entry V)) : Prop :=
  drivers.Pairwise fun e e' => ∀ q ∈ e.tagIds D T, q ∉ e'.tagIds D T

instance (st : Station V) : (ev : GatewayEvent V) → Decidable (KeepsScaling D T st ev)
  | .edit _ => isTrue trivial
  | .disable _ => isTrue trivial
  | .enable id =>
      match h : st.gateway.file.find? fun e => e.id = id with
      | none => isTrue (by simp [KeepsScaling, h])
      | some e => decidable_of_iff (e.Valid D → st.gateway.sup.tasks.get? id = none →
          Agree T st.tagConfigs (e.driverConfig D)) (by simp [KeepsScaling, h])
  | .pass =>
      match h : conflictingSerialInstanceIds D (st.gateway.drivers D) with
      | .error _ => isTrue (by simp [KeepsScaling, h])
      | .ok conflicting => decidable_of_iff
          (∀ p ∈ (enabledById (st.gateway.drivers D)).entries,
            verdict D conflicting st.gateway.tracking p.1 p.2 = .start →
              Agree T st.tagConfigs (p.2.driverConfig D)) (by simp [KeepsScaling, h])

instance (drivers : List (Entry V)) : Decidable (UniqueTagIds D T drivers) :=
  inferInstanceAs (Decidable (drivers.Pairwise _))

end Station

variable {D : DriverTypes V} {T : TagTables V}

theorem driverTagConfigs_eq (instanceId : String) (groups : List TagGroup) :
    driverTagConfigs instanceId groups = (groupedTags groups).map fun p =>
      (qualifiedId instanceId p.1,
        ⟨RawScaling.toConfig p.2.2.scaling, p.2.1.deadband, p.2.2.engineeringUnit⟩) := by
  simp [driverTagConfigs, groupedTags, List.map_flatMap, Function.comp_def]

omit [DecidableEq V] in
theorem lookup_driverTagConfigs {T : TagTables V} {cfg : DriverConfig V} {tag : String}
    {tagDef : TagDef} (h : (tagsById T cfg).get? tag = some tagDef) :
    ∃ config, lookup (qualifiedId cfg.instanceId tag)
        (driverTagConfigs cfg.instanceId ((T cfg.tagGroups).getD [])).reverse = some config ∧
      appliedScaling (some config) = RawScaling.values tagDef.scaling := by
  rw [tagsById, Dict.get?_ofList, ← List.map_reverse] at h
  have hmap := lookup_map_of_injective Function.injective_id
    (fun p : TagGroup × TagDef => p.2) tag (groupedTags ((T cfg.tagGroups).getD [])).reverse
  obtain ⟨⟨group, tagDef'⟩, hfound, rfl⟩ := Option.map_eq_some_iff.1 (hmap.symm.trans h)
  refine ⟨⟨RawScaling.toConfig tagDef'.scaling, group.deadband, tagDef'.engineeringUnit⟩, ?_,
    appliedScaling_toConfig _ _ _⟩
  rw [driverTagConfigs_eq, ← List.map_reverse]
  have hcfg := lookup_map_of_injective (qualifiedId_injective cfg.instanceId)
    (fun p : TagGroup × TagDef => (⟨RawScaling.toConfig p.2.scaling, p.1.deadband,
      p.2.engineeringUnit⟩ : TagPipelineConfig)) tag
    (groupedTags ((T cfg.tagGroups).getD [])).reverse
  rw [hfound] at hcfg
  exact hcfg

omit [DecidableEq V] in
/-- **At startup pipeline and drivers agree**: the entry's own tag decides what the lookup
says, since no other entry has one of that id. -/
theorem agree_startup {drivers : List (Entry V)} (hunique : UniqueTagIds D T drivers)
    {e : Entry V} (he : e ∈ drivers) :
    Agree T (buildTagPipelineConfigs (drivers.map (Entry.groups D T))) (e.driverConfig D) := by
  rintro ⟨tag, tagDef⟩ hp
  obtain ⟨config, hconfig, hvalues⟩ := lookup_driverTagConfigs ((Dict.get?_eq_some_iff _).2 hp)
  have hmine : lookup (qualifiedId e.id tag)
      (driverTagConfigs (e.groups D T).1 (e.groups D T).2).reverse = some config := hconfig
  obtain ⟨before, after, rfl⟩ := List.append_of_mem he
  -- a later entry would win, but none has a tag of this id
  have hafter : lookup (qualifiedId e.id tag)
      ((after.map (Entry.groups D T)).flatMap fun d => driverTagConfigs d.1 d.2).reverse =
        none := by
    rw [lookup_eq_none_iff, List.map_reverse, List.mem_reverse]
    intro hmem
    obtain ⟨⟨q, c⟩, hq, hqid⟩ := List.mem_map.1 hmem
    obtain ⟨d, hd, hqd⟩ := List.mem_flatMap.1 hq
    obtain ⟨e', he', rfl⟩ := List.mem_map.1 hd
    have hpair := (List.pairwise_cons.1 (List.pairwise_append.1 hunique).2.1).1 e' he'
    refine hpair (qualifiedId e.id tag) ?_ (List.mem_map.2 ⟨(q, c), hqd, hqid⟩)
    have hself : qualifiedId e.id tag ∉
        ((driverTagConfigs (e.groups D T).1 (e.groups D T).2).reverse).map Prod.fst → False := by
      intro hnot
      rw [lookup_eq_none_iff.2 hnot] at hmine
      cases hmine
    rw [Entry.tagIds, ← List.mem_reverse, ← List.map_reverse]
    exact not_not.1 hself
  show appliedScaling (Dict.get? _ (qualifiedId e.id tag)) = _
  rw [buildTagPipelineConfigs, Dict.get?_ofList, List.map_append, List.map_cons,
    List.flatMap_append, List.flatMap_cons, List.reverse_append, List.reverse_append,
    List.append_assoc, lookup_append, lookup_append, hafter, Option.none_or, hmine,
    Option.some_or]
  exact hvalues

/-! ## Runs -/

variable {st st' : Station V}

variable {id : String}

theorem agree_startStation {file : List (Entry V)}
    (hunique : UniqueTagIds D T (file.map (Entry.resolve D)))
    (h : startStation D T file = .ok st) {cfg : DriverConfig V}
    (ht : st.gateway.sup.tasks.get? id = some cfg) : Agree T st.tagConfigs cfg := by
  obtain ⟨gateway, hgateway, hst⟩ := bind_eq_ok.1 h
  dsimp only at hst
  split at hst
  · cases hst
    obtain ⟨conflicting, -, hbind⟩ := bind_eq_ok.1 hgateway
    obtain ⟨sup, hsup, hg⟩ := bind_eq_ok.1 hbind
    cases hg
    rcases startConfigured_tasks hsup ht with hold | ⟨e, he, -, -, -, rfl⟩
    · cases hold
    · exact agree_startup hunique he
  · cases hst

def AllAgree (T : TagTables V) (st : Station V) : Prop :=
  ∀ id cfg, st.gateway.sup.tasks.get? id = some cfg → Agree T st.tagConfigs cfg

theorem allAgree_pass (h : AllAgree T st) (hG : KeepsScaling D T st .pass)
    {cfg : DriverConfig V} (ht : (watchPass D st.gateway).sup.tasks.get? id = some cfg) :
    Agree T st.tagConfigs cfg := by
  rw [sup_watchPass] at ht
  rcases applyDriverChanges_tasks ht with hold | ⟨conflicting, hconf, p, hp, hv, rfl⟩
  · exact h id cfg hold
  · simp only [KeepsScaling, hconf] at hG
    exact hG p hp hv

omit [DecidableEq V] in
theorem allAgree_disable (h : AllAgree T st) (i : String) {cfg : DriverConfig V}
    (ht : (disableDriver st.gateway i).sup.tasks.get? id = some cfg) :
    Agree T st.tagConfigs cfg := by
  rcases sup_disableDriver st.gateway i with heq | heq
  · rw [heq] at ht
    exact h id cfg ht
  · rw [heq, Supervisor.get?_stop] at ht
    split at ht
    · cases ht
    · exact h id cfg ht

theorem allAgree_enable {i : String} (h : AllAgree T st) (hG : KeepsScaling D T st (.enable i))
    {cfg : DriverConfig V} (ht : (enableDriver D st.gateway i).sup.tasks.get? id = some cfg) :
    Agree T st.tagConfigs cfg := by
  rcases enableDriver_cases D st.gateway i with heq | heq | ⟨e, hfind, hvalid, hnone, heq⟩
  · rw [heq] at ht
    exact h id cfg ht
  · rw [heq] at ht
    exact h id cfg ht
  · rw [heq] at ht
    have hget : (st.gateway.sup.tasks.set i (e.driverConfig D)).get? id = some cfg := ht
    rw [Dict.get?_set] at hget
    split at hget
    · cases hget
      simp only [KeepsScaling, hfind] at hG
      exact hG hvalid hnone
    · exact h id cfg hget

theorem allAgree_step {ev : GatewayEvent V} (h : AllAgree T st) (hG : KeepsScaling D T st ev)
    (hstep : (stationMachine D).step st ev = some st') : AllAgree T st' := by
  obtain ⟨gateway, hg, rfl⟩ := Option.map_eq_some_iff.1 hstep
  intro id cfg ht
  cases ev with
  | edit file =>
    cases hg
    exact h id cfg ht
  | enable i =>
    cases hg
    exact allAgree_enable h hG ht
  | disable i =>
    cases hg
    exact allAgree_disable h i ht
  | pass =>
    cases (Option.ite_none_right_eq_some.1 hg).2
    exact allAgree_pass h hG ht

/-- **Read scaling and write scaling agree** for every task in every state that is reached,
as long as whatever is started keeps the scale and offset that startup found. -/
theorem scaling_agrees_run {V : Type} [DecidableEq V] {D : DriverTypes V} {T : TagTables V}
    {file : List (Entry V)} {st₀ st : Station V} {es : List (GatewayEvent V)}
    (hunique : UniqueTagIds D T (file.map (Entry.resolve D)))
    (hstart : startStation D T file = .ok st₀) (hrun : (stationMachine D).run st₀ es = some st)
    (hG : (stationMachine D).Meets (KeepsScaling D T) st₀ es) {id : String} {cfg : DriverConfig V}
    (ht : st.gateway.sup.tasks.get? id = some cfg) :
    Agree T st.tagConfigs cfg := by
  have hall : AllAgree T st := (stationMachine D).inv_run_of_meets
    (fun _ _ _ h hG hstep => allAgree_step h hG hstep)
    (fun _ _ ht => agree_startStation hunique hstart ht) hG hrun
  exact hall id cfg ht

/-! ### Two runs -/

def litTables : TagTables Lit
  | .list tags =>
      some [⟨none, tags.map fun t => ⟨t.1, some ⟨some t.2.1, some t.2.2⟩, none⟩⟩]
  | _ => none

/-- A serial driver with one tag `t` of that scale, and a key the driver does not read. -/
def scaledDriver (scale : ℚ) (extra : Lit) : Entry Lit :=
  ⟨"a", "modbus_rtu_serial", none, some (.map (some "/dev/ttyUSB0") (some 1)),
    some (.list [("t", scale, 0)]), extra⟩

def scaledByTwo : Station Lit where
  gateway :=
    let tasks := Dict.empty.set "a" ((scaledDriver 2 (.num 0)).driverConfig litTypes)
    ⟨[scaledDriver 2 (.num 0)], enabledById [scaledDriver 2 (.num 0)], ⟨tasks, [tasks, .empty]⟩,
      true⟩
  tagConfigs := buildTagPipelineConfigs [(scaledDriver 2 (.num 0)).groups litTypes litTables]

theorem scaling_agrees_otherKey : ∃ st cfg,
    startStation litTypes litTables [scaledDriver 2 (.num 0)] = .ok scaledByTwo ∧
    (stationMachine litTypes).run scaledByTwo [.edit [scaledDriver 2 (.num 1)], .pass] = some st ∧
    st.gateway.sup.tasks.get? "a" = some cfg ∧ Agree litTables st.tagConfigs cfg := by
  have hstart : startStation litTypes litTables [scaledDriver 2 (.num 0)] = .ok scaledByTwo := rfl
  obtain ⟨st, hst, hv⟩ := Option.map_eq_some_iff.1
    (show ((stationMachine litTypes).run scaledByTwo
        [.edit [scaledDriver 2 (.num 1)], .pass]).map (fun st => st.gateway.sup.tasks.get? "a") =
      some (some ((scaledDriver 2 (.num 1)).driverConfig litTypes)) by decide +kernel)
  exact ⟨st, _, hstart, hst, hv,
    scaling_agrees_run (by decide +kernel) hstart hst (by decide +kernel) hv⟩

/-- **A reload changes the scale for writes only.**  The driver is restarted with scale 3; the
pipeline goes on with 2. -/
theorem reload_changes_write_scaling_only : ∃ st cfg,
    startStation litTypes litTables [scaledDriver 2 (.num 0)] = .ok scaledByTwo ∧
    (stationMachine litTypes).run scaledByTwo [.edit [scaledDriver 3 (.num 0)], .pass] = some st ∧
    st.gateway.alive = true ∧ st.gateway.sup.tasks.get? "a" = some cfg ∧
    appliedScaling (st.tagConfigs.get? "a/t") = (2, 0) ∧
    ((tagsById litTables cfg).get? "t").map (fun t => RawScaling.values t.scaling) =
      some (3, 0) ∧
    ¬ Agree litTables st.tagConfigs cfg := by
  obtain ⟨st, hst, hv⟩ := Option.map_eq_some_iff.1
    (show ((stationMachine litTypes).run scaledByTwo
        [.edit [scaledDriver 3 (.num 0)], .pass]).map (fun st => (st.gateway.alive,
          st.gateway.sup.tasks.get? "a", st.tagConfigs)) =
      some (true, some ((scaledDriver 3 (.num 0)).driverConfig litTypes), scaledByTwo.tagConfigs)
      by decide +kernel)
  simp only [Prod.mk.injEq] at hv
  refine ⟨st, _, rfl, hst, hv.1, hv.2.1, ?_, by decide +kernel, ?_⟩
  · rw [hv.2.2]
    decide +kernel
  · rw [hv.2.2]
    decide +kernel

end XEdge.Core
