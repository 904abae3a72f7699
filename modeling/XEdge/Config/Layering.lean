import XEdge.Config.Value

/-!
# Layering configurations (`deep_merge` of `xedge/core/config.py`)

The environment's file and the runtime overrides are merged onto the base configuration, one after
the other (`_load_merged`).
-/

namespace XEdge.Config

open Lib

/-- A nested `dict`: no key twice, at no level. -/
inductive Mapping : Entries → Prop
  | nil : Mapping []
  | cons {key : Key} {v : Value} {rest : Entries} (hkey : key ∉ rest.map Prod.fst)
      (hvalue : ∀ entries, v = .dict entries → Mapping entries) (hrest : Mapping rest) :
      Mapping ((key, v) :: rest)

def Value.IsMapping (v : Value) : Prop := ∃ entries, v = .dict entries

def valueAt : List Key → Value → Option Value
  | [], v => some v
  | key :: path, .dict entries => (lookup key entries).bind (valueAt path)
  | _ :: _, _ => none

/-- The overlay has a key on this path of the base, and not both have a mapping there. -/
def Replaced (base overlay : Entries) (path : List Key) : Prop :=
  ∃ p, p <+: path ∧ ∃ v w, valueAt p (.dict base) = some v ∧
    valueAt p (.dict overlay) = some w ∧ ¬ (v.IsMapping ∧ w.IsMapping)

variable {base overlay : Entries} {v : Value} {key : Key} {path : List Key}

theorem Mapping.nodup (h : Mapping overlay) : (overlay.map Prod.fst).Nodup := by
  induction h with
  | nil => exact List.nodup_nil
  | cons hkey _ _ _ ih => exact List.nodup_cons.2 ⟨hkey, ih⟩

/-- Induction over the mappings inside of a mapping. -/
theorem Mapping.inside {motive : Entries → Prop} (h : Mapping overlay)
    (step : ∀ overlay, Mapping overlay →
      (∀ key entries, (key, .dict entries) ∈ overlay → motive entries) → motive overlay) :
    motive overlay := by
  refine step overlay h ?_
  induction h with
  | nil =>
    intro key entries hmem
    cases hmem
  | cons _ hvalue _ ihvalue ihrest =>
    intro key entries hmem
    rcases List.mem_cons.1 hmem with heq | hmem
    · have hv := (Prod.mk.inj heq).2.symm
      exact step entries (hvalue entries hv) (ihvalue entries hv)
    · exact ihrest key entries hmem

theorem Mapping.of_mem (h : Mapping overlay) {entries : Entries}
    (hmem : (key, .dict entries) ∈ overlay) : Mapping entries := by
  induction h with
  | nil => cases hmem
  | cons _ hvalue _ _ ih =>
    rcases List.mem_cons.1 hmem with heq | hmem
    · exact hvalue entries (Prod.mk.inj heq).2.symm
    · exact ih hmem

/-! ## One level -/

theorem mergeValue_cases (baseValue : Option Value) (v : Value) :
    mergeValue baseValue v = v ∨ ∃ base overlay, baseValue = some (.dict base) ∧
      v = .dict overlay ∧ mergeValue baseValue v = .dict (deepMerge base overlay) := by
  cases v with
  | dict overlay =>
    cases baseValue with
    | none => exact .inl rfl
    | some w =>
      cases w with
      | dict base => exact .inr ⟨base, overlay, rfl, rfl, rfl⟩
      | _ => exact .inl rfl
  | _ => exact .inl rfl

theorem lookup_deepMerge (h : (overlay.map Prod.fst).Nodup) (key : Key) (base : Entries) :
    lookup key (deepMerge base overlay) =
      (lookup key overlay).elim (lookup key base) fun v =>
        some (mergeValue (lookup key base) v) := by
  induction overlay generalizing base with
  | nil => rfl
  | cons p rest ih =>
    obtain ⟨a, v⟩ := p
    rw [List.map_cons, List.nodup_cons] at h
    rw [deepMerge, ih h.2, lookup_upsert, lookup]
    by_cases hk : a = key
    · subst hk
      simp [lookup_eq_none_iff.2 h.1]
    · simp [hk, Ne.symm hk]

theorem deepMerge_eq_append (h : (overlay.map Prod.fst).Nodup)
    (hnew : ∀ k ∈ overlay.map Prod.fst, k ∉ base.map Prod.fst) :
    deepMerge base overlay = base ++ overlay := by
  induction overlay generalizing base with
  | nil => exact (List.append_nil base).symm
  | cons p rest ih =>
    obtain ⟨a, v⟩ := p
    rw [List.map_cons, List.nodup_cons] at h
    have ha : a ∉ base.map Prod.fst := hnew a (List.mem_cons_self ..)
    have hv : mergeValue none v = v := by cases v <;> rfl
    rw [deepMerge, lookup_eq_none_iff.2 ha, hv, upsert_of_notMem ha, ih h.2]
    · exact List.append_assoc ..
    · intro k hk hmem
      rw [List.map_append, List.mem_append] at hmem
      rcases hmem with hmem | hmem
      · exact hnew k (List.mem_cons_of_mem _ hk) hmem
      · cases List.mem_singleton.1 hmem
        exact h.1 hk

theorem nil_deepMerge (h : (overlay.map Prod.fst).Nodup) : deepMerge [] overlay = overlay :=
  deepMerge_eq_append h fun _ _ hmem => by cases hmem

theorem deepMerge_eq_self
    (h : ∀ k v, (k, v) ∈ overlay → lookup k base = some (mergeValue (lookup k base) v)) :
    deepMerge base overlay = base := by
  induction overlay with
  | nil => rfl
  | cons p rest ih =>
    obtain ⟨a, v⟩ := p
    rw [deepMerge, upsert_of_lookup (h a v (List.mem_cons_self ..))]
    exact ih fun k v hmem => h k v (List.mem_cons_of_mem _ hmem)

/-! ## A layer twice -/

theorem deepMerge_deepMerge (h : Mapping overlay) :
    ∀ base, deepMerge (deepMerge base overlay) overlay = deepMerge base overlay := by
  refine h.inside (motive := fun overlay => ∀ base,
    deepMerge (deepMerge base overlay) overlay = deepMerge base overlay) ?_
  intro overlay h ih base
  refine deepMerge_eq_self fun k v hmem => ?_
  rw [lookup_deepMerge h.nodup, (lookup_eq_some_iff h.nodup).2 hmem]
  refine congrArg some (Eq.symm ?_)
  rcases mergeValue_cases (lookup k base) v with heq | ⟨b, o, -, rfl, heq⟩
  · simp only [Option.elim_some, heq]
    rcases mergeValue_cases (some v) v with heq | ⟨b, o, hb, rfl, heq⟩
    · exact heq
    · -- a mapping that was copied: as merged onto nothing
      have hinner := h.of_mem hmem
      have hnil := ih k o hmem []
      rw [nil_deepMerge hinner.nodup] at hnil
      cases hb
      rw [heq, hnil]
  · simp only [Option.elim_some, heq]
    rw [mergeValue, ih k o hmem b]

/-! ## Paths -/

theorem valueAt_of_overlay (h : Mapping overlay) (hvalue : valueAt path (.dict overlay) = some v)
    (hv : ¬ v.IsMapping) : valueAt path (.dict (deepMerge base overlay)) = some v := by
  induction path generalizing base overlay with
  | nil =>
    cases hvalue
    exact absurd ⟨overlay, rfl⟩ hv
  | cons key path ih =>
    obtain ⟨u, hu, hrest⟩ := Option.bind_eq_some_iff.1 hvalue
    rw [valueAt, lookup_deepMerge h.nodup, hu]
    simp only [Option.elim_some, Option.bind_some]
    rcases mergeValue_cases (lookup key base) u with heq | ⟨b, o, -, rfl, heq⟩
    · rwa [heq]
    · rw [heq]
      exact ih (h.of_mem (mem_of_lookup hu)) hrest

theorem valueAt_of_base (h : Mapping overlay) (hvalue : valueAt path (.dict base) = some v)
    (hkept : ¬ Replaced base overlay path) :
    (valueAt path (.dict overlay) = none →
        valueAt path (.dict (deepMerge base overlay)) = some v) ∧
      ∀ w, valueAt path (.dict overlay) = some w → ∃ b o, v = .dict b ∧ w = .dict o ∧
        valueAt path (.dict (deepMerge base overlay)) = some (.dict (deepMerge b o)) := by
  induction path generalizing base overlay with
  | nil =>
    cases hvalue
    refine ⟨?_, ?_⟩
    · intro hnone
      cases hnone
    intro w hw
    cases hw
    exact ⟨base, overlay, rfl, rfl, rfl⟩
  | cons key path ih =>
    obtain ⟨u, hu, hrest⟩ := Option.bind_eq_some_iff.1 hvalue
    simp only [valueAt, lookup_deepMerge h.nodup, hu]
    cases ho : lookup key overlay with
    | none => exact ⟨fun _ => hrest, fun w hw => by cases hw⟩
    | some x =>
      have hboth : u.IsMapping ∧ x.IsMapping := by
        by_contra hnot
        exact hkept ⟨[key], ⟨path, rfl⟩, u, x, by simp [valueAt, hu], by simp [valueAt, ho], hnot⟩
      obtain ⟨⟨b, rfl⟩, o, rfl⟩ := hboth
      refine ih (h.of_mem (mem_of_lookup ho)) hrest fun ⟨p, hp, v, w, hv, hw, hnot⟩ => ?_
      refine hkept ⟨key :: p, List.cons_prefix_cons.2 ⟨rfl, hp⟩, v, w, ?_, ?_, hnot⟩
      · simp only [valueAt, hu, Option.bind_some, hv]
      · simp only [valueAt, ho, Option.bind_some, hw]

/-- **Layering**: an empty layer, above or below, and a layer for the second time change nothing;
what is no mapping in the overlay is found at its path; and a path of the base is kept, with what
it holds, or with the overlay's mapping merged onto its own, unless the overlay has a key on the
path where it or the base has no mapping. -/
theorem deepMerge_layers (base overlay : Entries) (h : Mapping overlay) :
    deepMerge base [] = base ∧ deepMerge [] overlay = overlay ∧
      deepMerge (deepMerge base overlay) overlay = deepMerge base overlay ∧
      (∀ path v, valueAt path (.dict overlay) = some v → ¬ v.IsMapping →
        valueAt path (.dict (deepMerge base overlay)) = some v) ∧
      ∀ path v, valueAt path (.dict base) = some v → ¬ Replaced base overlay path →
        (valueAt path (.dict overlay) = none →
            valueAt path (.dict (deepMerge base overlay)) = some v) ∧
          ∀ w, valueAt path (.dict overlay) = some w → ∃ b o, v = .dict b ∧ w = .dict o ∧
            valueAt path (.dict (deepMerge base overlay)) = some (.dict (deepMerge b o)) :=
  ⟨rfl, nil_deepMerge h.nodup, deepMerge_deepMerge h base,
    fun _ _ hvalue hv => valueAt_of_overlay h hvalue hv,
    fun _ _ hvalue hkept => valueAt_of_base h hvalue hkept⟩

theorem deepMerge_layers_level :
    valueAt [.str "log", .str "level"]
      (.dict (deepMerge [(.str "log", .dict [(.str "level", .str "INFO")])]
        [(.str "log", .dict [(.str "level", .str "DEBUG")])])) = some (.str "DEBUG") := by
  have hinner : Mapping [(.str "level", .str "DEBUG")] :=
    .cons (by simp) (fun _ h => by cases h) .nil
  refine (deepMerge_layers _ _ ?_).2.2.2.1 _ _ rfl fun ⟨_, h⟩ => by cases h
  refine .cons (by simp) (fun entries h => ?_) .nil
  cases h
  exact hinner

end XEdge.Config
