import XEdge.Lib.Machine
import XEdge.Config.Value

/-!
# The configuration engine (`xedge/core/config.py`)

`ConfigEngine` loads and layers the configuration files, validates the result, records it
in the version history, substitutes secrets and puts the outcome in the store.  A
rollback does the same with a recorded version in place of the files.  All three calls
are one pipeline (`commit`) over a different candidate, and each of its stages can fail:

    read and parse -> merge -> validate -> save a version -> resolve secrets -> replace

The libraries it rests on (YAML, JSON Schema, JSON) are parameters (`Libraries`); what
the files hold, which secrets exist and how the disk behaves is part of each call.
-/

namespace XEdge.Config

open Lib

structure Libraries where
  safeLoad : String → Except Fault Value
  /-- The formatted errors of `jsonschema`, sorted. -/
  schemaErrors : Value → Except Fault (List String)
  /-- `json.dumps(dict(config), indent=2)`. -/
  dumps : Value → Except Fault String
  loads : String → Except Fault Value
  /-- `str`. -/
  pyStr : Value → String
  /-- `repr`. -/
  pyRepr : Value → String

/-! ## Loading and layering -/

inductive FileContent where
  | missing
  | unreadable (f : Fault)
  | text (s : String)

structure Layer where
  path : String
  content : FileContent

structure Layers where
  base : Layer
  overlays : List Layer

variable (L : Libraries)

def loadYaml (layer : Layer) : Except Exn Entries :=
  match layer.content with
  | .missing => .error (.fault .os)
  | .unreadable f => .error (.fault f)
  | .text s =>
      match L.safeLoad s with
      | .error f => .error (.fault f)
      | .ok .null => .ok []
      | .ok (.dict entries) => .ok entries
      | .ok _ =>
          .error (.configValidation
            (layer.path ++ ": top-level YAML document must be a mapping"))

/-- The loop of `_load_merged`: overlays that are not there are skipped. -/
def mergeOverlays (merged : Entries) : List Layer → Except Exn Entries
  | [] => .ok merged
  | overlay :: rest =>
      match overlay.content with
      | .missing => mergeOverlays merged rest
      | _ => do
          let entries ← loadYaml L overlay
          mergeOverlays (deepMerge merged entries) rest

def loadMerged (layers : Layers) : Except Exn Entries := do
  let merged ← loadYaml L layers.base
  mergeOverlays L merged layers.overlays

/-! ## Validation -/

def allTagRefs (driversConfig : Value) : Except Fault (List String) := do
  let drivers ← driversConfig.iter
  let refs ← drivers.mapM fun driver => do
    let instanceId ← driver.get "id" .null
    if !instanceId.truthy then pure []
    else do
      let groups ← (← driver.get "tag_groups" (.list [])).iter
      let groupRefs ← groups.mapM fun group => do
        let tags ← (← group.get "tags" (.list [])).iter
        let tagRefs ← tags.mapM fun tag => do
          let tagId ← tag.get "id" .null
          pure (if tagId.truthy then [L.pyStr instanceId ++ "/" ++ L.pyStr tagId] else [])
        pure tagRefs.flatten
      pure groupRefs.flatten
  pure refs.flatten

/-- `tag_ref in valid_refs`: a set of strings, and a lookup that hashes. -/
def memRefs (tagRef : Value) (validRefs : List String) : Except Fault Bool :=
  if tagRef.hashable then
    match tagRef with
    | .str s => .ok (s ∈ validRefs)
    | _ => .ok false
  else .error .type

def validateAssetReferences (config : Value) : Except Fault (List String) := do
  let assetsConfig ← config.get "assets" .null
  if !assetsConfig.truthy then pure []
  else do
    let validRefs ← allTagRefs L (← config.get "drivers" (.list []))
    let assets ← assetsConfig.iter
    let errors ← assets.zipIdx.mapM fun (entry, assetIndex) => do
      let assetId ← entry.get "id" (.str ("<index " ++ toString assetIndex ++ ">"))
      let parameters ← (← entry.get "parameters" (.list [])).iter
      let messages ← parameters.zipIdx.mapM fun (parameter, paramIndex) => do
        let tagRef ← parameter.get "tag_ref" .null
        if !tagRef.truthy then pure []
        else do
          let known ← memRefs tagRef validRefs
          pure (if known then [] else
            ["assets/" ++ toString assetIndex ++ "/parameters/" ++ toString paramIndex ++
              ": asset " ++ L.pyRepr assetId ++ " references tag_ref " ++ L.pyRepr tagRef ++
              ", which does not match any configured driver's tag"])
      pure messages.flatten
    pure errors.flatten

/-- The text of the `ConfigValidationError` of `validate`. -/
def validationMessage (messages : List String) : String :=
  "Configuration failed validation (" ++ toString messages.length ++ " error(s)):\n" ++
    "\n".intercalate (messages.map fun m => "  - " ++ m)

/-- What `ConfigValidator.validate` finds wrong. -/
def validationErrors (config : Value) : Except Fault (List String) := do
  let schema ← L.schemaErrors config
  let references ← validateAssetReferences L config
  .ok (schema ++ references)

def validate (config : Value) : Except Exn Unit :=
  match validationErrors L config with
  | .error f => .error (.fault f)
  | .ok [] => .ok ()
  | .ok messages => .error (.configValidation (validationMessage messages))

/-! ## The version history -/

/-- `ConfigVersionHistory`: the numbered files of its directory, by number.  The schema
keeps `max_versions` positive. -/
structure History where
  maxVersions : Nat
  pos : 1 ≤ maxVersions
  versions : List (Nat × String)
  sorted : versions.Pairwise fun a b => a.1 < b.1

inductive SaveOutcome where
  | complete
  | notWritten (f : Fault)
  | torn (text : String) (f : Fault)
  /-- The version was written; after some removals of old ones, one raised. -/
  | pruneFailed (removed : Nat) (f : Fault)

namespace History

def nextVersionId (h : History) : Nat :=
  match h.versions.getLast? with
  | some v => v.1 + 1
  | none => 1

theorem lt_nextVersionId (h : History) : ∀ v ∈ h.versions, v.1 < h.nextVersionId := by
  intro v hv
  have hsorted := h.sorted
  obtain ⟨init, last, hlast⟩ : ∃ init last, h.versions = init ++ [last] :=
    (List.eq_nil_or_concat' _).resolve_left (List.ne_nil_of_mem hv)
  rw [nextVersionId, hlast, List.getLast?_concat]
  rw [hlast, List.pairwise_append] at hsorted
  rw [hlast] at hv
  rcases List.mem_append.1 hv with hv | hv
  · have := hsorted.2.2 v hv last (List.mem_singleton_self _)
    show v.1 < last.1 + 1
    omega
  · rw [List.mem_singleton.1 hv]
    exact Nat.lt_succ_self _

def write (h : History) (text : String) : History where
  maxVersions := h.maxVersions
  pos := h.pos
  versions := h.versions ++ [(h.nextVersionId, text)]
  sorted := by
    rw [List.pairwise_append]
    refine ⟨h.sorted, List.pairwise_singleton _ _, fun v hv w hw => ?_⟩
    rw [List.mem_singleton.1 hw]
    exact h.lt_nextVersionId v hv

/-- The oldest `n` files are removed. -/
def prune (h : History) (n : Nat) : History where
  maxVersions := h.maxVersions
  pos := h.pos
  versions := h.versions.drop n
  sorted := h.sorted.sublist (List.drop_sublist n _)

def excess (h : History) : Nat := h.versions.length - h.maxVersions

def save (h : History) (config : Value) (outcome : SaveOutcome) : History × Except Fault Nat :=
  match L.dumps config with
  | .error f => (h, .error f)
  | .ok text =>
      match outcome with
      | .notWritten f => (h, .error f)
      | .torn t f => (h.write t, .error f)
      | .complete => ((h.write text).prune (h.write text).excess, .ok h.nextVersionId)
      | .pruneFailed n f => ((h.write text).prune (min n (h.write text).excess), .error f)

def loadVersion (h : History) (versionId : Int) : Except Exn Value :=
  match h.versions.find? fun v => (v.1 : Int) = versionId with
  | none => .error (.fileNotFound ("No such config version: " ++ toString versionId))
  | some v => (L.loads v.2).mapError .fault

def newest (h : History) : Option String := h.versions.getLast?.map Prod.snd

theorem newest_prune_excess (h : History) (text : String) :
    ((h.write text).prune (h.write text).excess).newest = some text := by
  have hle : (h.write text).excess ≤ h.versions.length := by
    have := h.pos
    simp only [excess, write, List.length_append, List.length_singleton]
    omega
  simp only [newest, prune, write] at hle ⊢
  rw [List.drop_append_of_le_length hle, List.getLast?_concat]
  rfl

end History

/-! ## The engine -/

/-- A `ConfigStore`. -/
structure Store where
  data : Value
  /-- Ghost: the configuration before its secrets were substituted. -/
  source : Value

/-- A `ConfigEngine` with the store it last returned. -/
structure Engine where
  /-- `_version_history`. -/
  history : Option History
  store : Option Store

structure Call where
  secrets : SecretsResolver
  saving : SaveOutcome
  listener : Option Fault

def record (history : Option History) (config : Value) (outcome : SaveOutcome) :
    Option History × Except Fault Unit :=
  match history with
  | none => (none, .ok ())
  | some h => (some (h.save L config outcome).1, (fun _ => ()) <$> (h.save L config outcome).2)

def notified : Option Fault → Except Exn Unit
  | none => .ok ()
  | some f => .error (.fault f)

/-- What `load`, `reload` and `rollback` do with the configuration they have read. -/
def commit (s : Engine) (candidate : Except Exn Value) (c : Call) : Engine × Except Exn Unit :=
  match candidate with
  | .error e => (s, .error e)
  | .ok merged =>
      match validate L merged with
      | .error e => (s, .error e)
      | .ok () =>
          match record L s.history merged c.saving with
          | (history, .error f) => ({ s with history }, .error (.fault f))
          | (history, .ok ()) =>
              match c.secrets.resolve merged with
              | .error e => ({ s with history }, .error e)
              | .ok data => (⟨history, some ⟨data, merged⟩⟩, notified c.listener)

def fromFiles (layers : Layers) : Except Exn Value := Value.dict <$> loadMerged L layers

def fromHistory (history : Option History) (versionId : Int) : Except Exn Value :=
  match history with
  | none =>
      .error (.configValidation "No version history configured; cannot roll back")
  | some h => h.loadVersion L versionId

/-- `load`: a new store, which nobody subscribes to yet. -/
def load (s : Engine) (layers : Layers) (c : Call) : Engine × Except Exn Unit :=
  commit L s (fromFiles L layers) { c with listener := none }

def reload (s : Engine) (layers : Layers) (c : Call) : Engine × Except Exn Unit :=
  commit L s (fromFiles L layers) c

def rollback (s : Engine) (versionId : Int) (c : Call) : Engine × Except Exn Unit :=
  commit L s (fromHistory L s.history versionId) c

/-- Where `commit` can end, and with what. -/
inductive Commits (s : Engine) (candidate : Except Exn Value) (c : Call) :
    Engine → Except Exn Unit → Prop
  | unread {e} (hc : candidate = .error e) : Commits s candidate c s (.error e)
  | invalid {merged e} (hc : candidate = .ok merged) (hv : validate L merged = .error e) :
      Commits s candidate c s (.error e)
  | unsaved {merged history f} (hc : candidate = .ok merged) (hv : validate L merged = .ok ())
      (hs : record L s.history merged c.saving = (history, .error f)) :
      Commits s candidate c { s with history } (.error (.fault f))
  | unresolved {merged history e} (hc : candidate = .ok merged)
      (hv : validate L merged = .ok ())
      (hs : record L s.history merged c.saving = (history, .ok ()))
      (hr : c.secrets.resolve merged = .error e) :
      Commits s candidate c { s with history } (.error e)
  | replaced {merged history data} (hc : candidate = .ok merged)
      (hv : validate L merged = .ok ())
      (hs : record L s.history merged c.saving = (history, .ok ()))
      (hr : c.secrets.resolve merged = .ok data) :
      Commits s candidate c ⟨history, some ⟨data, merged⟩⟩ (notified c.listener)

variable {L}

theorem commits (s : Engine) (candidate : Except Exn Value) (c : Call) :
    Commits L s candidate c (commit L s candidate c).1 (commit L s candidate c).2 := by
  unfold commit
  split
  · exact .unread rfl
  · split
    · exact .invalid rfl ‹_›
    · split
      · exact .unsaved rfl ‹_› ‹_›
      · split
        · exact .unresolved rfl ‹_› ‹_› ‹_›
        · exact .replaced rfl ‹_› ‹_› ‹_›

/-! ## Sequences of calls -/

inductive EngineEvent where
  | load (layers : Layers) (c : Call)
  | reload (layers : Layers) (c : Call)
  | rollback (versionId : Int) (c : Call)

variable (L)

def EngineEvent.candidate (s : Engine) : EngineEvent → Except Exn Value
  | .load layers _ | .reload layers _ => fromFiles L layers
  | .rollback versionId _ => fromHistory L s.history versionId

def EngineEvent.call : EngineEvent → Call
  | .load _ c => { c with listener := none }
  | .reload _ c | .rollback _ c => c

/-- A `reload` and a `rollback` need a store to work on. -/
def engineMachine : Machine Engine EngineEvent where
  step s
    | .load layers c => some (load L s layers c).1
    | .reload layers c => if s.store.isSome then some (reload L s layers c).1 else none
    | .rollback versionId c =>
        if s.store.isSome then some (rollback L s versionId c).1 else none

variable {s s' : Engine} {ev : EngineEvent}

theorem engine_step (hstep : (engineMachine L).step s ev = some s') :
    ∃ r, Commits L s (ev.candidate L s) ev.call s' r := by
  have heq : s' = (commit L s (ev.candidate L s) ev.call).1 := by
    cases ev with
    | load layers c => exact (Option.some.inj hstep).symm
    | reload layers c => exact (Option.some.inj (Option.ite_none_right_eq_some.1 hstep).2).symm
    | rollback versionId c =>
      exact (Option.some.inj (Option.ite_none_right_eq_some.1 hstep).2).symm
  rw [heq]
  exact ⟨_, commits s _ _⟩

/-- The disk leaves no half-made version: none is written, or all is done. -/
def SaveOutcome.clean : SaveOutcome → Bool
  | .complete | .notWritten _ => true
  | .torn _ _ | .pruneFailed _ _ => false

/-- If the candidate is a configuration that passes validation, then its version file is
written in full or not at all, and all its secrets exist. -/
def EngineEvent.sound (s : Engine) (ev : EngineEvent) : Bool :=
  match ev.candidate L s with
  | .error _ => true
  | .ok merged =>
      match validate L merged with
      | .error _ => true
      | .ok () =>
          ev.call.saving.clean &&
            decide (∀ name ∈ SecretsResolver.references merged, ev.call.secrets.Knows name)

def Reflects (history : Option History) (st : Store) : Prop :=
  ∃ h text, history = some h ∧ h.newest = some text ∧ L.dumps st.source = .ok text ∧
    ∃ secrets : SecretsResolver, secrets.resolve st.source = .ok st.data

variable {L}

variable {history' : Option History} {config : Value} {outcome : SaveOutcome}

theorem record_error_of_clean {history : Option History} {f : Fault} (hclean : outcome.clean = true)
    (h : record L history config outcome = (history', .error f)) : history' = history := by
  cases history with
  | none => cases h
  | some hist =>
    rw [record, Prod.mk.injEq, History.save] at h
    obtain ⟨hfst, hsnd⟩ := h
    cases hd : L.dumps config with
    | error e' => rw [← hfst, hd]
    | ok text =>
      rw [hd] at hfst hsnd
      cases outcome with
      | complete => cases hsnd
      | notWritten e' => exact hfst.symm
      | torn | pruneFailed => cases hclean

variable {hist : History}

theorem record_ok (h : record L (some hist) config outcome = (history', .ok ())) :
    ∃ hist' text, history' = some hist' ∧ hist'.newest = some text ∧
      L.dumps config = .ok text := by
  rw [record, Prod.mk.injEq, History.save] at h
  obtain ⟨hfst, hsnd⟩ := h
  cases hd : L.dumps config with
  | error e => rw [hd] at hsnd; cases hsnd
  | ok text =>
    rw [hd] at hfst hsnd
    cases outcome with
    | complete => exact ⟨_, text, hfst.symm, hist.newest_prune_excess text, rfl⟩
    | notWritten | torn | pruneFailed => cases hsnd

theorem commits_sound {r : Except Exn Unit} (hh : s.history = some hist)
    (hsound : ev.sound L s = true) (h : Commits L s (ev.candidate L s) ev.call s' r) :
    s' = s ∨ ∃ st, s'.store = some st ∧ Reflects L s'.history st := by
  rw [EngineEvent.sound] at hsound
  cases h with
  | unread | invalid => exact .inl rfl
  | unsaved hc hv hs =>
    simp only [hc, hv, Bool.and_eq_true] at hsound
    rw [record_error_of_clean hsound.1 hs]
    exact .inl rfl
  | unresolved hc hv hs hr =>
    simp only [hc, hv, Bool.and_eq_true, decide_eq_true_eq] at hsound
    have hok := (SecretsResolver.isOk_resolve _ _).2 hsound.2
    rw [hr] at hok
    cases hok
  | replaced hc hv hs hr =>
    rw [hh] at hs
    obtain ⟨hist', text, hhist, hnew, hd⟩ := record_ok hs
    exact .inr ⟨_, rfl, hist', text, hhist, hnew, hd, _, hr⟩

def Kept (L : Libraries) (s : Engine) : Prop :=
  (∃ hist, s.history = some hist) ∧ ∀ st, s.store = some st → Reflects L s.history st

theorem kept_step (hk : Kept L s)
    (hsound : ev.sound L s = true) (hstep : (engineMachine L).step s ev = some s') :
    Kept L s' := by
  obtain ⟨hist, hh⟩ := hk.1
  obtain ⟨r, hcommits⟩ := engine_step L hstep
  rcases commits_sound hh hsound hcommits with heq | ⟨st, hst, hreflects⟩
  · rw [heq]
    exact hk
  · obtain ⟨hist', _, hhist', _⟩ := id hreflects
    refine ⟨⟨hist', hhist'⟩, fun st' hst' => ?_⟩
    rw [hst] at hst'
    cases hst'
    exact hreflects

/-- **History reflects what runs.**  Whatever the calls are and wherever they fail, if
none fails between the writing of its version and the replacement of the store, the
newest version is the unresolved form of the configuration in the store. -/
theorem newest_is_source_run {hist : History} {es : List EngineEvent} {s : Engine} {st : Store}
    (hrun : (engineMachine L).run ⟨some hist, none⟩ es = some s)
    (hG : (engineMachine L).Meets (fun s ev => ev.sound L s = true) ⟨some hist, none⟩ es)
    (hst : s.store = some st) : Reflects L s.history st := by
  have hstart : Kept L ⟨some hist, none⟩ := ⟨⟨hist, rfl⟩, fun _ h => by cases h⟩
  have hkept : Kept L s := (engineMachine L).inv_run_of_meets
    (fun _ _ _ hk hG hstep => kept_step hk hG hstep) hstart hG hrun
  exact hkept.2 st hst

/-! ### Two runs -/

/-- Documents of one line, `name: text` or `- text`, for texts that need no quoting. -/
def oneLine : Libraries where
  safeLoad s :=
    if "name: ".toList.isPrefixOf s.toList then
      .ok (.dict [(.str "name", .str (String.ofList (s.toList.drop 6)))])
    else if "- ".toList.isPrefixOf s.toList then
      .ok (.list [.str (String.ofList (s.toList.drop 2))])
    else .error .yaml
  schemaErrors _ := .ok []
  dumps
    | .dict [(.str "name", .str t)] => .ok ("\x7b\n  \"name\": \"" ++ t ++ "\"\n\x7d")
    | _ => .error .type
  loads s :=
    .ok (.dict [(.str "name",
      .str (String.ofList ((s.toList.drop 13).dropLast.dropLast.dropLast)))])
  pyStr _ := ""
  pyRepr _ := ""

def oneFile (text : String) : Layers := ⟨⟨"xedge.yaml", .text text⟩, []⟩

def quietCall : Call := ⟨⟨fun _ => none, fun _ => none⟩, .complete, none⟩

def noVersions : History := ⟨10, by decide, [], List.Pairwise.nil⟩

def editAndRestore : List EngineEvent :=
  [.load (oneFile "name: x") quietCall, .reload (oneFile "name: y") quietCall,
    .reload (oneFile "[") quietCall, .rollback 1 quietCall]

theorem newest_is_source_editAndRestore : ∃ s st,
    (engineMachine oneLine).run ⟨some noVersions, none⟩ editAndRestore = some s ∧
      s.store = some st ∧ oneLine.dumps st.source = .ok "\x7b\n  \"name\": \"x\"\n\x7d" ∧
      Reflects oneLine s.history st := by
  obtain ⟨s, hs, hv⟩ := Option.map_eq_some_iff.1
    (show ((engineMachine oneLine).run ⟨some noVersions, none⟩ editAndRestore).map
        (fun s => s.store.map fun st => oneLine.dumps st.source) =
      some (some (.ok "\x7b\n  \"name\": \"x\"\n\x7d")) by decide +kernel)
  obtain ⟨st, hst, hd⟩ := Option.map_eq_some_iff.1 hv
  exact ⟨s, st, hs, hst, hd, newest_is_source_run hs (by decide +kernel) hst⟩

/-- **A version that never ran can be the newest.**  The second file passes validation and
is saved, then its secret does not resolve: the store keeps the first one. -/
theorem unresolved_secret_is_newest : ∃ s st,
    (engineMachine oneLine).run ⟨some noVersions, none⟩
        [.load (oneFile "name: x") quietCall,
          .reload (oneFile "name: $\x7bSECRET:missing\x7d") quietCall] = some s ∧
      s.store = some st ∧ ¬ Reflects oneLine s.history st := by
  obtain ⟨s, hs, hv⟩ := Option.map_eq_some_iff.1
    (show ((engineMachine oneLine).run ⟨some noVersions, none⟩
          [.load (oneFile "name: x") quietCall,
            .reload (oneFile "name: $\x7bSECRET:missing\x7d") quietCall]).map
        (fun s => (s.store.map fun st => oneLine.dumps st.source, s.history.bind History.newest)) =
      some (some (.ok "\x7b\n  \"name\": \"x\"\n\x7d"),
        some "\x7b\n  \"name\": \"$\x7bSECRET:missing\x7d\"\n\x7d") by decide +kernel)
  obtain ⟨hstore, hnewest⟩ := Prod.mk.inj hv
  obtain ⟨st, hst, hd⟩ := Option.map_eq_some_iff.1 hstore
  refine ⟨s, st, hs, hst, ?_⟩
  rintro ⟨hist, text, hhist, hnew, htext, -⟩
  rw [hhist, Option.bind_some, hnew] at hnewest
  rw [hd] at htext
  have hsame := (Except.ok.inj htext).trans (Option.some.inj hnewest)
  exact absurd hsame (by decide)

end XEdge.Config
