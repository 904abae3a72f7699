import XEdge.Core.Pipeline

/-!
# Batches of reads (`xedge/drivers/base.py`)

Some drivers read the tags of a group with one request.  The answer has one result for each tag,
and the driver builds an update from each pair and counts what became of it.
-/

namespace XEdge.Core

/-- `DriverMetrics`, without the reconnects that the supervisor counts. -/
structure DriverMetrics where
  tagReadCount : Nat
  errorCount : Nat
  lastSuccessfulRead : Option Int
  deriving DecidableEq

namespace DriverMetrics

/-- `DriverMetrics()`. -/
def new : DriverMetrics := ⟨0, 0, none⟩

def read (m : DriverMetrics) (now : Int) : DriverMetrics :=
  { m with tagReadCount := m.tagReadCount + 1, lastSuccessfulRead := some now }

def failed (m : DriverMetrics) (count : Nat) : DriverMetrics :=
  { m with errorCount := m.errorCount + count }

end DriverMetrics

section Batch

variable {α β : Type} (build : DriverMetrics → α → β → TagUpdate × DriverMetrics)

/-- `[build(tag, result) for tag, result in zip(tags, results, strict=True)]`; `none` is the
`ValueError` of `zip`. -/
def buildAll : List α → List β → DriverMetrics → Option (List TagUpdate) × DriverMetrics
  | [], [], m => (some [], m)
  | tag :: tags, result :: results, m =>
      let (update, m) := build m tag result
      let (updates, m) := buildAll tags results m
      (updates.map (update :: ·), m)
  | [], _ :: _, m | _ :: _, [], m => (none, m)

variable {build}

theorem buildAll_eq {γ : Type} {content : β → Option γ} (update : α → Option γ → TagUpdate)
    (hbuild : ∀ m a b, (build m a b).1 = update a (content b)) (tags : List α) (results : List β)
    (m : DriverMetrics) :
    (buildAll build tags results m).1 =
      if results.length = tags.length then
        some (tags.mapIdx fun i tag => update tag (results[i]?.bind content))
      else none := by
  induction tags generalizing results m with
  | nil =>
    cases results with
    | nil | cons => rfl
  | cons a tags ih =>
    cases results with
    | nil => rfl
    | cons b results =>
      simp only [buildAll, ih, hbuild, List.length_cons, Nat.add_right_cancel_iff,
        List.mapIdx_cons, List.getElem?_cons_zero, List.getElem?_cons_succ, Option.bind_some]
      split <;> rfl

theorem mapIdx_const (f : α → TagUpdate) (tags : List α) :
    (tags.mapIdx fun _ tag => f tag) = tags.map f := by
  refine List.ext_getElem? fun i => ?_
  rw [List.getElem?_mapIdx, List.getElem?_map]

theorem exists_of_mem_zip_mapIdx {f : Nat → α → TagUpdate} {tags : List α} {tag : α}
    {update : TagUpdate} (h : (tag, update) ∈ tags.zip (tags.mapIdx f)) :
    tag ∈ tags ∧ ∃ i, update = f i tag := by
  refine ⟨(List.of_mem_zip h).1, ?_⟩
  obtain ⟨i, hi⟩ := List.mem_iff_getElem?.1 h
  obtain ⟨htag, hupdate⟩ := List.getElem?_zip_eq_some.1 hi
  rw [List.getElem?_mapIdx, htag] at hupdate
  exact ⟨i, (Option.some.inj hupdate).symm⟩

end Batch

end XEdge.Core
