import Mathlib.Data.List.DropRight
import XEdge.Config.Engine

/-!
# The version history over many saves (`ConfigVersionHistory`, `xedge/core/config.py`)
-/

namespace XEdge.Config.History

variable (L : Libraries)

def listVersions (h : History) : List Nat := h.versions.map Prod.fst

def saveAll (h : History) : List Value → History × Except Fault (List Nat)
  | [] => (h, .ok [])
  | config :: configs =>
      match h.save L config .complete with
      | (h, .error f) => (h, .error f)
      | (h, .ok versionId) =>
          match h.saveAll configs with
          | (h, .error f) => (h, .error f)
          | (h, .ok ids) => (h, .ok (versionId :: ids))

/-- The files that saves of these texts write, numbered from `next` on. -/
def numbered (next : Nat) (texts : List String) : List (Nat × String) :=
  (List.range' next texts.length).zip texts

theorem map_fst_numbered (next : Nat) (texts : List String) :
    (numbered next texts).map Prod.fst = List.range' next texts.length :=
  List.map_fst_zip (by simp)

theorem rtake_append_rtake {α : Type*} (n : Nat) (xs ys : List α) :
    (xs.rtake n ++ ys).rtake n = (xs ++ ys).rtake n := by
  have hle : xs.length - n ≤ xs.length := Nat.sub_le ..
  rw [List.rtake, List.rtake, List.rtake, ← List.drop_append_of_le_length hle, List.drop_drop]
  simp only [List.length_drop, List.length_append]
  congr 1
  omega

variable {L} {h h' : History}

theorem nextVersionId_of_versions {files : List (Nat × String)} {v : Nat × String}
    (hv : h.versions = files ++ [v]) : h.nextVersionId = v.1 + 1 := by
  rw [nextVersionId, hv, List.getLast?_concat]

theorem save_complete {config : Value} {text : String} (hd : L.dumps config = .ok text) :
    ∃ h', h.save L config .complete = (h', .ok h.nextVersionId) ∧
      h'.maxVersions = h.maxVersions ∧
      h'.versions = (h.versions ++ [(h.nextVersionId, text)]).rtake h.maxVersions ∧
      h'.nextVersionId = h.nextVersionId + 1 := by
  refine ⟨(h.write text).prune (h.write text).excess, by simp only [save, hd], rfl, rfl, ?_⟩
  obtain ⟨n, hn⟩ : ∃ n, h.maxVersions = n + 1 := ⟨h.maxVersions - 1, by have := h.pos; omega⟩
  exact nextVersionId_of_versions (v := (h.nextVersionId, text))
    (show (h.versions ++ [(h.nextVersionId, text)]).rtake h.maxVersions = _ by
      rw [hn, List.rtake_concat_succ])

theorem saveAll_versions (saves : List (Value × String))
    (hd : ∀ s ∈ saves, L.dumps s.1 = .ok s.2) :
    ∃ h', h.saveAll L (saves.map Prod.fst) =
        (h', .ok (List.range' h.nextVersionId saves.length)) ∧
      (saves ≠ [] → h'.versions =
        (h.versions ++ numbered h.nextVersionId (saves.map Prod.snd)).rtake h.maxVersions) := by
  induction saves generalizing h with
  | nil => exact ⟨h, rfl, fun hne => absurd rfl hne⟩
  | cons s saves ih =>
    obtain ⟨h₁, hsave, hmax, hversions, hnext⟩ := save_complete (h := h) (hd s List.mem_cons_self)
    obtain ⟨h₂, hall, hlast⟩ := ih (h := h₁) fun s' hs' => hd s' (List.mem_cons_of_mem _ hs')
    refine ⟨h₂, ?_, fun _ => ?_⟩
    · simp only [List.map_cons, saveAll, hsave, hall, hnext, List.length_cons, List.range'_succ]
    · have hnumbered : numbered h.nextVersionId ((s :: saves).map Prod.snd) =
          [(h.nextVersionId, s.2)] ++ numbered (h.nextVersionId + 1) (saves.map Prod.snd) := by
        simp [numbered, List.range'_succ]
      rw [hnumbered, ← List.append_assoc, ← rtake_append_rtake, ← hversions, ← hnext]
      cases saves with
      | nil =>
        obtain rfl : h₁ = h₂ := congrArg Prod.fst hall
        rw [hversions, List.map_nil, show numbered h₁.nextVersionId [] = [] from rfl,
          List.append_nil]
        simpa using (rtake_append_rtake h.maxVersions
          (h.versions ++ [(h.nextVersionId, s.2)]) []).symm
      | cons _ _ => rw [← hmax, hlast (by simp)]

theorem loadVersion_of_mem {v : Nat × String} (hv : v ∈ h.versions) :
    h.loadVersion L v.1 = (L.loads v.2).mapError .fault := by
  have hfind : h.versions.find? (fun w => (w.1 : Int) = v.1) = some v := by
    obtain ⟨before, after, hsplit⟩ := List.append_of_mem hv
    have hsorted := h.sorted
    rw [hsplit, List.pairwise_append] at hsorted
    rw [hsplit, List.find?_append, List.find?_cons_of_pos (by simp)]
    have hbefore : before.find? (fun w => (w.1 : Int) = v.1) = none := by
      refine List.find?_eq_none.2 fun w hw => ?_
      have := hsorted.2.2 w hw v List.mem_cons_self
      simp only [decide_eq_true_eq]
      omega
    rw [hbefore, Option.none_or]
  rw [loadVersion, hfind]

theorem mem_numbered {next k : Nat} {texts : List String} {text t : String}
    (htext : texts[k]? = some text) (h : (next + k, t) ∈ numbered next texts) : t = text := by
  obtain ⟨i, hi, hget⟩ := List.getElem_of_mem h
  simp only [numbered, List.getElem_zip, List.getElem_range', Prod.mk.injEq] at hget
  obtain rfl : i = k := by omega
  obtain ⟨_, htext⟩ := List.getElem?_eq_some_iff.1 htext
  exact hget.2.symm.trans htext

def overfull : History := ⟨2, by decide, [(3, "a"), (7, "b"), (9, "c")], by decide⟩

end XEdge.Config.History
