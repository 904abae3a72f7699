import XEdge.Core.Consumer
import XEdge.Lib.Keyed

/-!
# What the deadband filter keeps back

The filter compares a sample with the one of the tag that was last published, not with the one
before it, so that a slow drift adds up until it leaves the band.  Here the last published sample
is defined by the filter's decisions on the whole sequence of samples, and the latest sample of a
tag is shown never to be far from it.
-/

namespace XEdge.Core

open Lib Store

structure Sample where
  tag : UnifiedTag
  deadband : Option DeadbandConfig
  deriving DecidableEq

def UnifiedTag.published (tag : UnifiedTag) : TagValue × Quality × Bool :=
  (tag.value, tag.quality, tag.isAlarm)

theorem DeadbandFilter.get?_shouldPublish (f : DeadbandFilter) (tag : UnifiedTag)
    (deadband : Option DeadbandConfig) (tagId : String) :
    (f.shouldPublish tag deadband).2.lastPublished.get? tagId =
      if tagId = tag.tagId ∧ (f.shouldPublish tag deadband).1 then some tag.published
      else f.lastPublished.get? tagId := by
  unfold DeadbandFilter.shouldPublish
  split
  · simp [Dict.get?_set, UnifiedTag.published]
  · simp

/-- `DeadbandFilter`: its state is kept by tag. -/
def deadbandFilter :
    Keyed DeadbandFilter String (Option (TagValue × Quality × Bool)) Sample Bool where
  step f x := f.shouldPublish x.tag x.deadband
  key x := x.tag.tagId
  view f tagId := f.lastPublished.get? tagId
  view_step_of_ne f x tagId h := by
    rw [DeadbandFilter.get?_shouldPublish, if_neg fun hc => h hc.1]
  step_congr f g x h := by
    have hanswer : (f.shouldPublish x.tag x.deadband).1 = (g.shouldPublish x.tag x.deadband).1 := by
      unfold DeadbandFilter.shouldPublish
      rw [h]
      split <;> rfl
    refine ⟨hanswer, ?_⟩
    rw [DeadbandFilter.get?_shouldPublish, DeadbandFilter.get?_shouldPublish, hanswer, h]

def decisions (samples : List Sample) : List (Sample × Bool) :=
  deadbandFilter.outputs .new samples

def lastPublished (tagId : String) (samples : List Sample) : Option UnifiedTag :=
  ((decisions samples).filter fun d => d.2 ∧ d.1.tag.tagId = tagId).getLast?.map fun d => d.1.tag

def Within (deadband : Option DeadbandConfig) (value prior : TagValue) : Prop :=
  value.pyEq prior = true ∨
    ∃ d x p, deadband = some d ∧ value.number = some x ∧ prior.number = some p ∧
      match d.kind with
      | .absolute => |x - p| < d.value
      | .percentage => |x - p| < d.value / 100 * |p|

def Latest (x : Sample) (samples : List Sample) : Prop :=
  ∃ before after, samples = before ++ x :: after ∧ ∀ z ∈ after, z.tag.tagId ≠ x.tag.tagId

/-! ## One decision -/

theorem TagValue.pyEq_self (v : TagValue) : v.pyEq v = true := by
  unfold TagValue.pyEq
  cases v.comparable with
  | none | some => simp

variable {x : ℚ}

theorem TagValue.pyEq_of_number {v w : TagValue} (hv : v.number = some x)
    (hw : w.number = some x) : v.pyEq w = true := by
  have hcomparable : ∀ u : TagValue, u.number = some x → u.comparable = some x := by
    intro u hu
    cases u with
    | bool b => cases hu
    | int _ | float _ | str _ | bytes _ => exact hu
  rw [TagValue.pyEq, hcomparable v hv, hcomparable w hw]
  simp

variable {value : TagValue}

theorem within_of_not_exceeds {d : DeadbandConfig} {prior : TagValue} {p : ℚ}
    (hvalue : value.number = some x) (hprior : prior.number = some p)
    (h : DeadbandFilter.exceeds d x p = false) : Within (some d) value prior := by
  unfold DeadbandFilter.exceeds at h
  cases hkind : d.kind with
  | absolute =>
    simp only [hkind, decide_eq_false_iff_not, not_le] at h
    exact .inr ⟨d, x, p, rfl, hvalue, hprior, by rw [hkind]; exact h⟩
  | percentage =>
    simp only [hkind] at h
    by_cases hzero : |p| = 0
    · -- a percentage of zero: only the same number is kept back
      have hdiff : x - p = 0 := by simpa [hzero] using h
      exact .inl (TagValue.pyEq_of_number hvalue (by rw [hprior, sub_eq_zero.1 hdiff]))
    · simp only [hzero, if_false, decide_eq_false_iff_not, not_le] at h
      refine .inr ⟨d, x, p, rfl, hvalue, hprior, ?_⟩
      rw [hkind]
      calc |x - p| = |x - p| / |p| * 100 / 100 * |p| := by field_simp
        _ < d.value / 100 * |p| := by gcongr

variable {tag : UnifiedTag} {quality : Quality} {isAlarm : Bool} {deadband : Option DeadbandConfig}

theorem agrees_of_not_significant
    (h : DeadbandFilter.significant tag (some (value, quality, isAlarm)) deadband = false) :
    quality = tag.quality ∧ isAlarm = tag.isAlarm ∧ Within deadband tag.value value := by
  unfold DeadbandFilter.significant at h
  simp only at h
  split at h
  · cases h
  · next hsame =>
    push Not at hsame
    refine ⟨hsame.1, hsame.2, ?_⟩
    split at h
    · next d x p hvalue hprior => exact within_of_not_exceeds hvalue hprior h
    · exact .inl (by simpa using h)

theorem significant_of_changed (h : quality ≠ tag.quality ∨ isAlarm ≠ tag.isAlarm) :
    DeadbandFilter.significant tag (some (value, quality, isAlarm)) deadband = true := by
  exact if_pos h

/-! ## The last published sample -/

theorem decisions_concat (samples : List Sample) (x : Sample) :
    decisions (samples ++ [x]) = decisions samples ++
      [(x, ((deadbandFilter.final .new samples).shouldPublish x.tag x.deadband).1)] :=
  deadbandFilter.outputs_concat .new samples x

theorem get?_final (samples : List Sample) (tagId : String) :
    (deadbandFilter.final .new samples).lastPublished.get? tagId =
      (lastPublished tagId samples).map UnifiedTag.published := by
  induction samples using List.reverseRecOn with
  | nil => rfl
  | append_singleton samples x ih =>
    rw [Keyed.final_append]
    show ((deadbandFilter.final .new samples).shouldPublish x.tag x.deadband).2.lastPublished.get?
      tagId = _
    rw [DeadbandFilter.get?_shouldPublish, ih]
    unfold lastPublished
    rw [decisions_concat, List.filter_append]
    split
    · next h => simp [h.1, h.2]
    · next h =>
      have hkept : ¬ (
          ((deadbandFilter.final .new samples).shouldPublish x.tag x.deadband).1 = true ∧
            x.tag.tagId = tagId) := fun hc => h ⟨hc.2.symm, hc.1⟩
      simp [hkept]

theorem agrees_shouldPublish (f : DeadbandFilter) (x : Sample) :
    ∃ value, (f.shouldPublish x.tag x.deadband).2.lastPublished.get? x.tag.tagId =
        some (value, x.tag.quality, x.tag.isAlarm) ∧
      Within x.deadband x.tag.value value := by
  rw [DeadbandFilter.get?_shouldPublish]
  split
  · exact ⟨x.tag.value, rfl, .inl x.tag.value.pyEq_self⟩
  · next hkept =>
    have hnot : DeadbandFilter.significant x.tag (f.lastPublished.get? x.tag.tagId) x.deadband =
        false := by
      by_contra hsignificant
      rw [Bool.not_eq_false] at hsignificant
      exact hkept ⟨rfl, by rw [DeadbandFilter.shouldPublish, if_pos hsignificant]⟩
    rcases hprior : f.lastPublished.get? x.tag.tagId with _ | ⟨value, quality, isAlarm⟩
    · -- the first sample of a tag is published
      rw [hprior] at hnot
      cases hnot
    · rw [hprior] at hnot
      obtain ⟨hquality, halarm, hwithin⟩ := agrees_of_not_significant hnot
      exact ⟨value, by rw [hquality, halarm], hwithin⟩

variable {samples : List Sample}

theorem agrees_latest {x : Sample} (h : Latest x samples) :
    ∃ p, lastPublished x.tag.tagId samples = some p ∧ p.quality = x.tag.quality ∧
      p.isAlarm = x.tag.isAlarm ∧ Within x.deadband x.tag.value p.value := by
  obtain ⟨before, after, rfl, hafter⟩ := h
  obtain ⟨value, hget, hwithin⟩ := agrees_shouldPublish (deadbandFilter.final .new before) x
  have hview := get?_final (before ++ x :: after) x.tag.tagId
  rw [Keyed.final_append, Keyed.final_cons] at hview
  -- the samples after it are of other tags
  have hsame := deadbandFilter.view_final_of_ne (s := (deadbandFilter.step
    (deadbandFilter.final .new before) x).2) hafter
  obtain ⟨p, hp, hpublished⟩ := Option.map_eq_some_iff.1 ((hview.symm.trans hsame).trans hget)
  rw [UnifiedTag.published, Prod.mk.injEq, Prod.mk.injEq] at hpublished
  obtain ⟨hvalue, hquality, halarm⟩ := hpublished
  exact ⟨p, hp, hquality, halarm, hvalue ▸ hwithin⟩

theorem published_of_changed {x y : Sample} (hlatest : Latest y samples)
    (htag : y.tag.tagId = x.tag.tagId)
    (hchanged : y.tag.quality ≠ x.tag.quality ∨ y.tag.isAlarm ≠ x.tag.isAlarm) :
    (decisions (samples ++ [x])).getLast? = some (x, true) := by
  obtain ⟨p, hp, hquality, halarm, -⟩ := agrees_latest hlatest
  have hprior := get?_final samples x.tag.tagId
  rw [← htag, hp, Option.map_some, UnifiedTag.published] at hprior
  have hsignificant : DeadbandFilter.significant x.tag
      ((deadbandFilter.final .new samples).lastPublished.get? x.tag.tagId) x.deadband = true := by
    rw [← htag, hprior, hquality, halarm]
    exact significant_of_changed hchanged
  rw [decisions_concat, List.getLast?_concat, DeadbandFilter.shouldPublish, if_pos hsignificant]

/-- **Fidelity.**  Whatever samples of whatever tags came in whatever order: the sample of a tag
that was last published has the quality and the alarm flag of the latest one, and its value is
equal or within the band; a sample that changes the quality or the alarm flag is published; and
the decisions for a tag are those on its own samples. -/
theorem deadband_fidelity (samples : List Sample) :
    (∀ x, Latest x samples →
      ∃ p, lastPublished x.tag.tagId samples = some p ∧ p.quality = x.tag.quality ∧
        p.isAlarm = x.tag.isAlarm ∧ Within x.deadband x.tag.value p.value) ∧
    (∀ x y, Latest y samples → y.tag.tagId = x.tag.tagId →
      y.tag.quality ≠ x.tag.quality ∨ y.tag.isAlarm ≠ x.tag.isAlarm →
      (decisions (samples ++ [x])).getLast? = some (x, true)) ∧
    ∀ tagId, (decisions samples).filter (fun d => d.1.tag.tagId = tagId) =
      decisions (samples.filter fun x => x.tag.tagId = tagId) :=
  ⟨fun _ => agrees_latest, fun _ _ => published_of_changed,
    fun _ => deadbandFilter.filter_outputs rfl samples⟩

def temperature (tenths : Int) (quality : Quality) : Sample :=
  ⟨⟨"plc/temperature", 0, .int tenths, "INT64", quality, "plc", "40001", none, false⟩,
    some ⟨.absolute, 5⟩⟩

/-- A slow drift: the third sample is within the band of the second and not of the first, which
was published last.  The fourth has the value of the third, and another quality. -/
theorem deadband_fidelity_drift :
    decisions [temperature 200 .good, temperature 204 .good, temperature 208 .good] =
        [(temperature 200 .good, true), (temperature 204 .good, false),
          (temperature 208 .good, true)] ∧
      (decisions ([temperature 200 .good, temperature 204 .good, temperature 208 .good] ++
        [temperature 208 .bad])).getLast? = some (temperature 208 .bad, true) := by
  refine ⟨by decide +kernel, (deadband_fidelity _).2.1 (temperature 208 .bad)
    (temperature 208 .good) ⟨[temperature 200 .good, temperature 204 .good], [], rfl, ?_⟩ rfl ?_⟩
  · simp
  · simp [temperature]

/-! ## The consumer -/

namespace Pipeline

variable {C : PipelineConfig} {s s' : Pipeline}

/-- What the consumer has shown to the filter: all it is done with, and the update it retries. -/
def seen (s : Pipeline) : List Handled :=
  match s.phase with
  | .retrying update tag _ _ => s.handled ++ [⟨update, tag, true⟩]
  | _ => s.handled

def sampleOf (C : PipelineConfig) (h : Handled) : Sample :=
  ⟨h.tag, (C.tagConfigs.get? h.update.tagId).bind TagPipelineConfig.deadband⟩

structure Filtered (C : PipelineConfig) (s : Pipeline) : Prop where
  deep : s.rings.Deep
  running : s.phase ≠ .crashed
  filter : s.deadband = deadbandFilter.final .new (s.seen.map (sampleOf C))
  decided : decisions (s.seen.map (sampleOf C)) = s.seen.map fun h => (sampleOf C h, h.published)

theorem filtered_new (C : PipelineConfig) : (new C).Filtered C where
  deep := RingBufferManager.deep_new C.ramMaxDepth_pos
  running := by simp [new]
  filter := rfl
  decided := rfl

theorem filtered_attempt (h : s.rings.Deep) (u : TagUpdate) (tag : UnifiedTag) (k : String)
    (a : Bool)
    (hfilter : s.deadband =
      deadbandFilter.final .new ((s.handled ++ [Handled.mk u tag true]).map (sampleOf C)))
    (hdecided : decisions ((s.handled ++ [Handled.mk u tag true]).map (sampleOf C)) =
      (s.handled ++ [Handled.mk u tag true]).map fun h => (sampleOf C h, h.published)) :
    (s.attempt u tag k a).Filtered C := by
  obtain ⟨rings, spilled, hdeep, hs' | hs'⟩ := attempt_cases h u tag k a
  · rw [hs']
    exact ⟨hdeep, by simp, hfilter, hdecided⟩
  · rw [hs']
    exact ⟨hdeep, by simp, hfilter, hdecided⟩

theorem Filtered.decide (h : s.Filtered C) (hidle : s.phase = .idle) (u : TagUpdate)
    (tag : UnifiedTag) :
    let r := s.deadband.shouldPublish tag
      ((C.tagConfigs.get? u.tagId).bind TagPipelineConfig.deadband)
    r.2 = deadbandFilter.final .new ((s.handled ++ [Handled.mk u tag r.1]).map (sampleOf C)) ∧
    decisions ((s.handled ++ [Handled.mk u tag r.1]).map (sampleOf C)) =
      (s.handled ++ [Handled.mk u tag r.1]).map fun h => (sampleOf C h, h.published) := by
  have hseen : s.seen = s.handled := by simp only [seen, hidle]
  have hfilter := h.filter
  have hdecided := h.decided
  rw [hseen] at hfilter hdecided
  refine ⟨?_, ?_⟩
  · rw [List.map_append, Keyed.final_append, ← hfilter]
    rfl
  · rw [List.map_append, List.map_singleton, decisions_concat, hdecided, ← hfilter, List.map_append]
    rfl

theorem Filtered.process (h : s.Filtered C) (hidle : s.phase = .idle) (u : TagUpdate) :
    (s.process C u).Filtered C := by
  have hnext := h.decide hidle u (s.alarms.evaluate (normalize u (C.tagConfigs.get? u.tagId))).1
  unfold Pipeline.process
  simp only at hnext ⊢
  split
  · next hpublish =>
    rw [hpublish] at hnext
    refine filtered_attempt ?_ u _ _ _ ?_ ?_
    · exact h.deep
    · exact hnext.1
    · exact hnext.2
  · next hkept =>
    rw [Bool.not_eq_true] at hkept
    rw [hkept] at hnext
    refine ⟨h.deep, by simp [hidle], ?_, ?_⟩
    · simp only [seen, hidle]
      exact hnext.1
    · simp only [seen, hidle]
      exact hnext.2

theorem filtered_step {e : PipelineEvent} (h : s.Filtered C) (hstep : s.step C e = some s') :
    s'.Filtered C := by
  cases e with
  | put u =>
    simp only [step] at hstep
    split at hstep <;> cases hstep
    exact ⟨h.deep, h.running, h.filter, h.decided⟩
  | take =>
    simp only [step] at hstep
    split at hstep
    · next u rest hidle hq =>
      cases hstep
      have hrest : { s with queue := rest }.Filtered C := ⟨h.deep, h.running, h.filter, h.decided⟩
      exact hrest.process hidle u
    · cases hstep
  | retry =>
    simp only [step] at hstep
    split at hstep
    · next u tag k a hphase =>
      cases hstep
      have hseen : s.seen = s.handled ++ [⟨u, tag, true⟩] := by simp only [seen, hphase]
      exact filtered_attempt h.deep u tag k a (hseen ▸ h.filter) (hseen ▸ h.decided)
    · cases hstep
  | drain n =>
    cases hstep
    exact ⟨h.deep.drainAll n, h.running, h.filter, h.decided⟩
  | operate call =>
    cases hstep
    exact ⟨h.deep, h.running, h.filter, h.decided⟩

end Pipeline

end XEdge.Core
