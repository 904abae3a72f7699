import XEdge.Config.Engine

/-!
# The configuration watch loop (`config_watch_loop` of `xedge/core/hot_reload.py`)

Every few seconds the loop looks at the modification time of the configuration file.  When
it has changed, the file is reloaded and the drivers are reconciled with it.  A reload that
raises `ConfigValidationError` is logged and forgotten; nothing else is caught, so any
other exception ends the task.  What reconciles the drivers is a parameter here.
-/

namespace XEdge.Config

open Lib

/-! ## The loop -/

/-- What the loop works on: `δ` is the running drivers with their tracking. -/
structure Watch (δ : Type) where
  engine : Engine
  drivers : δ
  lastMtime : Option ℚ
  running : Bool

structure Pass where
  /-- The modification time, unless `stat` raises `OSError`. -/
  mtime : Option ℚ
  layers : Layers
  call : Call

/-- `store.get_section("drivers", [])`. -/
def driversSection (s : Engine) : Value :=
  match s.store with
  | some ⟨.dict entries, _⟩ => (lookup (Key.str "drivers") entries).getD (.list [])
  | _ => .list []

section Loop

variable {δ : Type} (L : Libraries) (apply : Value → δ → δ × Except Exn Unit)

def reconcile (w : Watch δ) : Watch δ :=
  match apply (driversSection w.engine) w.drivers with
  | (drivers, .ok ()) => { w with drivers }
  | (drivers, .error _) => { w with drivers, running := false }

def onChanged (w : Watch δ) (p : Pass) : Watch δ :=
  match reload L w.engine p.layers p.call with
  | (engine, .ok ()) => reconcile apply { w with engine }
  | (engine, .error (.configValidation _)) => { w with engine }
  | (engine, .error _) => { w with engine, running := false }

def pass (w : Watch δ) (p : Pass) : Watch δ :=
  match p.mtime with
  | none => w
  | some m =>
      if w.lastMtime = some m then w
      else onChanged L apply { w with lastMtime := some m } p

def watchMachine : Machine (Watch δ) Pass where
  step w p := if w.running then some (pass L apply w p) else none

end Loop

/-! ## Where loading fails -/

section Loading

variable (L : Libraries)

/-- The first of the files that does not load raises `e`. -/
def FailsWith (layers : List Layer) (e : Exn) : Prop :=
  ∃ before layer after, layers = before ++ layer :: after ∧
    (∀ l ∈ before, (loadYaml L l).isOk = true) ∧ loadYaml L layer = .error e

def Layers.present (layers : Layers) : List Layer :=
  layers.base :: layers.overlays.filter fun l =>
    match l.content with
    | .missing => false
    | _ => true

variable {L}

variable {e : Exn}

theorem not_failsWith_nil : ¬ FailsWith L [] e := by
  rintro ⟨before, layer, after, h, -⟩
  exact List.append_ne_nil_of_right_ne_nil before (List.cons_ne_nil _ _) h.symm

variable {l : Layer} {ls : List Layer}

theorem failsWith_cons :
    FailsWith L (l :: ls) e ↔
      loadYaml L l = .error e ∨ (loadYaml L l).isOk = true ∧ FailsWith L ls e := by
  constructor
  · rintro ⟨before, layer, after, heq, hbefore, hlayer⟩
    cases before with
    | nil =>
      cases heq
      exact .inl hlayer
    | cons b before =>
      cases heq
      exact .inr ⟨hbefore l (List.mem_cons_self ..), before, layer, after, rfl,
        fun x hx => hbefore x (List.mem_cons_of_mem _ hx), hlayer⟩
  · rintro (h | ⟨hl, before, layer, after, rfl, hbefore, hlayer⟩)
    · exact ⟨[], l, ls, rfl, fun _ h => (List.not_mem_nil h).elim, h⟩
    · exact ⟨l :: before, layer, after, rfl, List.forall_mem_cons.2 ⟨hl, hbefore⟩, hlayer⟩

theorem bind_loadYaml_eq_error {next : Entries → Except Exn Entries}
    (hnext : ∀ entries, next entries = .error e ↔ FailsWith L ls e) :
    (loadYaml L l >>= next) = .error e ↔ FailsWith L (l :: ls) e := by
  rw [bind_eq_error, failsWith_cons]
  cases loadYaml L l with
  | error e' => simp [Except.isOk, Except.toBool]
  | ok entries => simp [Except.isOk, Except.toBool, hnext]

theorem mergeOverlays_eq_error (overlays : List Layer) (merged : Entries) :
    mergeOverlays L merged overlays = .error e ↔
      FailsWith L (overlays.filter fun l =>
        match l.content with
        | .missing => false
        | _ => true) e := by
  induction overlays generalizing merged with
  | nil =>
    constructor
    · intro h
      cases h
    · intro h
      exact (not_failsWith_nil h).elim
  | cons l rest ih =>
    rw [mergeOverlays]
    cases hc : l.content with
    | missing =>
      rw [List.filter_cons_of_neg (by simp [hc])]
      exact ih merged
    | unreadable | text =>
      rw [List.filter_cons_of_pos (by simp [hc])]
      exact bind_loadYaml_eq_error fun _ => ih _

theorem loadMerged_eq_error {layers : Layers} :
    loadMerged L layers = .error e ↔ FailsWith L layers.present e :=
  bind_loadYaml_eq_error fun merged => mergeOverlays_eq_error layers.overlays merged

def Layer.nonMapping (L : Libraries) (layer : Layer) : Bool :=
  match layer.content with
  | .text s =>
      match L.safeLoad s with
      | .error _ | .ok .null | .ok (.dict _) => false
      | .ok _ => true
  | _ => false

theorem nonMapping_iff {layer : Layer} :
    layer.nonMapping L = true ↔
      ∃ message, loadYaml L layer = .error (.configValidation message) := by
  rw [Layer.nonMapping, loadYaml]
  cases layer.content with
  | missing | unreadable => simp
  | text s =>
    dsimp only
    cases L.safeLoad s with
    | error f => simp
    | ok v => cases v <;> simp

end Loading

/-! ## Rejected files -/

/-- What `ConfigValidationError` stands for: the first file that does not load is a YAML
document that is no mapping, or they all load and the validator has complaints. -/
def Rejected (L : Libraries) (layers : Layers) : Prop :=
  (∃ before layer after, layers.present = before ++ layer :: after ∧
      (∀ l ∈ before, (loadYaml L l).isOk = true) ∧ layer.nonMapping L = true) ∨
    ∃ config message messages, loadMerged L layers = .ok config ∧
      validationErrors L (.dict config) = .ok (message :: messages)

section Reloading

variable {L : Libraries} {s : Engine} {layers : Layers} {c : Call}

theorem commits_reload (L : Libraries) (s : Engine) (layers : Layers) (c : Call) :
    Commits L s (fromFiles L layers) c (reload L s layers c).1 (reload L s layers c).2 :=
  commits s _ c

theorem reload_of_rejected (s : Engine) (c : Call) (h : Rejected L layers) :
    ∃ message, reload L s layers c = (s, .error (.configValidation message)) := by
  rcases h with ⟨before, layer, after, heq, hbefore, hlayer⟩ | ⟨config, m, ms, hconfig, herrors⟩
  · obtain ⟨message, hmessage⟩ := nonMapping_iff.1 hlayer
    have hload := loadMerged_eq_error.2 ⟨before, layer, after, heq, hbefore, hmessage⟩
    refine ⟨message, ?_⟩
    rw [reload, fromFiles, map_eq_error.2 hload]
    rfl
  · have hvalidate : validate L (.dict config) =
        .error (.configValidation (validationMessage (m :: ms))) := by
      rw [validate, herrors]
    refine ⟨validationMessage (m :: ms), ?_⟩
    rw [reload, fromFiles, map_eq_ok.2 ⟨config, hconfig, rfl⟩, commit, hvalidate]

variable {message : String}

theorem rejected_of_validate {config : Entries} (hload : loadMerged L layers = .ok config)
    (h : validate L (.dict config) = .error (.configValidation message)) : Rejected L layers := by
  rw [validate] at h
  cases herrors : validationErrors L (.dict config) with
  | error f =>
    rw [herrors] at h
    cases h
  | ok messages =>
    cases messages with
    | nil =>
      rw [herrors] at h
      cases h
    | cons m ms => exact .inr ⟨config, m, ms, hload, herrors⟩

theorem rejected_of_reload
    (h : (reload L s layers c).2 = .error (.configValidation message)) : Rejected L layers := by
  have hcommits := commits_reload L s layers c
  generalize reload L s layers c = r at h hcommits
  obtain ⟨s', res⟩ := r
  cases hcommits with
  | unread hc =>
    cases h
    obtain ⟨before, layer, after, heq, hbefore, hlayer⟩ :=
      loadMerged_eq_error.1 (map_eq_error.1 hc)
    exact .inl ⟨before, layer, after, heq, hbefore, nonMapping_iff.2 ⟨message, hlayer⟩⟩
  | invalid hc hv =>
    cases h
    obtain ⟨config, hload, rfl⟩ := map_eq_ok.1 hc
    exact rejected_of_validate hload hv
  | unsaved hc hv hs => cases h
  | unresolved hc hv hs hr =>
    cases h
    exact (SecretsResolver.resolve_ne_configValidation _ _ _ hr).elim
  | replaced hc hv hs hr =>
    cases hl : c.listener with
    | none | some =>
      rw [hl] at h
      cases h

end Reloading

/-! ## Passes whose reload fails -/

section Passes

variable {δ : Type} {L : Libraries} {apply : Value → δ → δ × Except Exn Unit}
  {w : Watch δ} {p : Pass} {m : ℚ}

theorem pass_of_changed (hm : p.mtime = some m) (hchanged : w.lastMtime ≠ some m) :
    pass L apply w p = onChanged L apply { w with lastMtime := some m } p := by
  rw [pass, hm]
  exact if_neg hchanged

theorem pass_of_rejected (hm : p.mtime = some m) (hchanged : w.lastMtime ≠ some m)
    (h : Rejected L p.layers) : pass L apply w p = { w with lastMtime := some m } := by
  obtain ⟨message, hreload⟩ := reload_of_rejected w.engine p.call h
  rw [pass_of_changed hm hchanged, onChanged, hreload]

theorem pass_of_not_rejected (hm : p.mtime = some m) (hchanged : w.lastMtime ≠ some m)
    (hfail : (reload L w.engine p.layers p.call).2 ≠ .ok ()) (h : ¬ Rejected L p.layers) :
    pass L apply w p =
      { w with engine := (reload L w.engine p.layers p.call).1, lastMtime := some m,
               running := false } := by
  have hnot : ∀ message,
      (reload L w.engine p.layers p.call).2 ≠ .error (.configValidation message) :=
    fun message hmessage => h (rejected_of_reload hmessage)
  rw [pass_of_changed hm hchanged, onChanged]
  dsimp only
  generalize reload L w.engine p.layers p.call = r at hfail hnot
  obtain ⟨engine, res⟩ := r
  cases res with
  | ok u => exact (hfail rfl).elim
  | error e =>
    cases e with
    | configValidation message => exact (hnot message rfl).elim
    | secretResolution | fileNotFound | fault => rfl

theorem pass_of_ok (hm : p.mtime = some m) (hchanged : w.lastMtime ≠ some m)
    (h : (reload L w.engine p.layers p.call).2 = .ok ()) :
    pass L apply w p = reconcile apply
      { w with engine := (reload L w.engine p.layers p.call).1, lastMtime := some m } := by
  rw [pass_of_changed hm hchanged, onChanged]
  generalize reload L w.engine p.layers p.call = r at h
  obtain ⟨engine, res⟩ := r
  cases h
  rfl

structure Harmless (L : Libraries) (apply : Value → δ → δ × Except Exn Unit)
    (w w' : Watch δ) : Prop where
  store : w'.engine.store = w.engine.store
  drivers : w'.drivers = w.drivers
  running : w'.running = true
  /-- A later file that loads is put in the store and the drivers are reconciled with it. -/
  picksUp : ∀ (p : Pass) (m : ℚ), p.mtime = some m → w'.lastMtime ≠ some m →
    (reload L w'.engine p.layers p.call).2 = .ok () →
      (watchMachine L apply).step w' p = some (reconcile apply
        { w' with engine := (reload L w'.engine p.layers p.call).1, lastMtime := some m })

/-- **A failed reload is harmless exactly when the file is rejected.** -/
theorem failed_pass_harmless_iff {δ : Type} {L : Libraries}
    {apply : Value → δ → δ × Except Exn Unit} {w : Watch δ} {p : Pass} {m : ℚ}
    (hrunning : w.running = true) (hm : p.mtime = some m) (hchanged : w.lastMtime ≠ some m)
    (hfail : (reload L w.engine p.layers p.call).2 ≠ .ok ()) :
    Harmless L apply w (pass L apply w p) ↔ Rejected L p.layers := by
  constructor
  · intro h
    by_contra hnot
    have hrunning' := h.running
    rw [pass_of_not_rejected hm hchanged hfail hnot] at hrunning'
    cases hrunning'
  · intro h
    rw [pass_of_rejected hm hchanged h]
    refine ⟨rfl, rfl, hrunning, fun q n hn hchanged' hok => ?_⟩
    rw [← pass_of_ok hn hchanged' hok]
    exact if_pos hrunning

end Passes

/-! ### Two passes -/

/-- The loop after `name: x` was loaded at time 0; its drivers are what is configured. -/
def watching : Watch Value where
  engine := (load oneLine ⟨some noVersions, none⟩ (oneFile "name: x") quietCall).1
  drivers := .list []
  lastMtime := some 0
  running := true

def changedTo (text : String) : Pass := ⟨some 1, oneFile text, quietCall⟩

def takeOver (drivers _ : Value) : Value × Except Exn Unit := (drivers, .ok ())

theorem failed_pass_harmless_nonMapping :
    Harmless oneLine takeOver watching (pass oneLine takeOver watching (changedTo "- x")) := by
  have hrejected : Rejected oneLine (changedTo "- x").layers :=
    .inl ⟨[], _, [], rfl, fun _ h => (List.not_mem_nil h).elim, by decide +kernel⟩
  have hfail : (reload oneLine watching.engine (changedTo "- x").layers quietCall).2 ≠ .ok () := by
    decide +kernel
  exact (failed_pass_harmless_iff rfl rfl (by decide) hfail).2 hrejected

/-- **An unresolvable secret ends the loop**, and no later file is picked up. -/
theorem unresolved_secret_ends_loop :
    (reload oneLine watching.engine (oneFile "name: $\x7bSECRET:missing\x7d") quietCall).2 ≠
        .ok () ∧
      (watchMachine oneLine takeOver).run watching
        [changedTo "name: $\x7bSECRET:missing\x7d", ⟨some 2, oneFile "name: y", quietCall⟩] = none ∧
      ¬ Harmless oneLine takeOver watching
        (pass oneLine takeOver watching (changedTo "name: $\x7bSECRET:missing\x7d")) := by
  refine ⟨by decide +kernel, ?_, ?_⟩
  · have hnone : ((watchMachine oneLine takeOver).run watching
        [changedTo "name: $\x7bSECRET:missing\x7d",
          ⟨some 2, oneFile "name: y", quietCall⟩]).isNone = true := by decide +kernel
    exact Option.isNone_iff_eq_none.1 hnone
  · intro h
    exact absurd h.running (by decide +kernel)

end XEdge.Config
