import XEdge.Northbound.Dispatcher

/-!
# What store and forward keeps

Follow one pushed sample through the gateway.  It sits in its ring until it is
drained or evicted; an eviction moves it to the cold store, unless the asset filter
stops it there; the cold store gives it up to a retention purge or after a replay
publish that reported success.  All of that keeps it (`kept_step`).

The live path does not.  `drain_all` removes the batch from the rings before the
publish, and when the publish reports failure, or raises, nobody puts it back: the
replay path's "delete on confirmed success" has no counterpart there.
-/

namespace XEdge.Northbound

open Lib XEdge.Core Store

namespace Gateway

variable {P : Params} {g g' : Gateway} {x : Sample}

/-! ## Where a sample can be -/

inductive Kept (g : Gateway) (x : Sample) : Prop
  /-- An eviction dropped it because an asset parameter says `store: false`. -/
  | suppressed (h : x ∈ g.spill.dropped)
  | ring (h : x ∈ g.rings.contents x.stream)
  | cold (h : g.cold.Holds x)
  | published (batch : List Sample) (hb : batch ∈ g.published) (h : x ∈ batch)
  | purged (h : x ∈ g.purged)

def Accounted (g : Gateway) : Prop := ∀ x ∈ g.pushed, Kept g x ∨ x ∈ g.inFlight

def LivePublishSucceeds (g : Gateway) : Event → Prop
  | .publishDone outcome =>
      match g.phase with
      | .publishing _ => outcome = .success
      | _ => True
  | _ => True

instance decidableLivePublishSucceeds : ∀ g e, Decidable (LivePublishSucceeds g e)
  | g, .publishDone outcome =>
      match h : g.phase with
      | .publishing _ => decidable_of_iff (outcome = .success) (by simp [LivePublishSucceeds, h])
      | .connecting | .backingOff | .replaying .. | .waiting | .crashed =>
          isTrue (by simp [LivePublishSucceeds, h])
  | _, .push .. | _, .refresh _ | _, .purge .. | _, .connectDone _ | _, .slept | _, .woken =>
      isTrue trivial

/-! ## What one event does to a kept sample -/

theorem Kept.mono (h : Kept g x) (hdropped : ∀ y ∈ g.spill.dropped, y ∈ g'.spill.dropped)
    (hring : x ∈ g.rings.contents x.stream → Kept g' x) (hcold : g.cold.Holds x → Kept g' x)
    (hpub : ∀ b ∈ g.published, b ∈ g'.published) (hpurged : ∀ y ∈ g.purged, y ∈ g'.purged) :
    Kept g' x := by
  cases h with
  | suppressed h => exact .suppressed (hdropped x h)
  | ring h => exact hring h
  | cold h => exact hcold h
  | published b hb h => exact .published b (hpub b hb) h
  | purged h => exact .purged (hpurged x h)

theorem Kept.of_rings (h : Kept g x) (hspill : g'.spill = g.spill)
    (hpub : g'.published = g.published) (hpurged : g'.purged = g.purged)
    (hring : x ∈ g.rings.contents x.stream → Kept g' x) : Kept g' x := by
  refine h.mono (by simp [hspill]) hring (fun h => .cold ?_) (by simp [hpub]) (by simp [hpurged])
  show g'.spill.cold.Holds x
  rw [hspill]
  exact h

theorem Kept.congr (h : Kept g x) (hrings : g'.rings = g.rings) (hspill : g'.spill = g.spill)
    (hpub : g'.published = g.published) (hpurged : g'.purged = g.purged) : Kept g' x :=
  h.of_rings hspill hpub hpurged fun h => .ring (hrings ▸ h)

theorem kept_loopHead (h : Kept g x) : Kept g.loopHead x := h.congr rfl rfl rfl rfl

theorem kept_replayFrom (keys : List String) (h : Kept g x) : Kept (replayFrom P g keys) x := by
  obtain ⟨c, ph, heq, hsame, -⟩ := replayFrom_spec (P := P) g keys
  rw [heq]
  refine h.mono (fun _ h => h) (fun h => .ring h) ?_ (fun _ h => h) (fun _ h => h)
  rintro ⟨f, r, hr, hx⟩
  exact .cold ⟨f, r, by rw [← (hsame f).1] at hr; exact hr, hx⟩

theorem kept_evicted (k : String) (y : Sample) :
    Kept { g with spill := filteredAppend P g.suppressed k y g.spill } y := by
  rcases filteredAppend_spec (P := P) g.suppressed k y g.spill with hf | hf <;> rw [hf]
  · exact .suppressed (by simp)
  · refine .cold ⟨fileName P.isalnum k, ⟨g.cold.lastIdAt (fileName P.isalnum k) + 1, y⟩, ?_, rfl⟩
    rw [SqliteColdStore.rowsAt_append, if_pos rfl]
    exact List.mem_append_right _ (List.mem_singleton_self _)

theorem holds_append (k : String) (y : Sample) (h : g.cold.Holds x) :
    (g.cold.append P.isalnum k y).Holds x := by
  obtain ⟨f, r, hr, hx⟩ := h
  refine ⟨f, r, ?_, hx⟩
  rw [SqliteColdStore.rowsAt_append]
  split
  · exact List.mem_append_left _ hr
  · exact hr

theorem kept_filteredAppend (k : String) (y : Sample) (h : Kept g x) :
    Kept { g with spill := filteredAppend P g.suppressed k y g.spill } x := by
  rcases filteredAppend_spec (P := P) g.suppressed k y g.spill with hf | hf <;> rw [hf]
  · exact h.mono (by simp +contextual) (fun h => .ring h) (fun h => .cold h)
      (fun _ h => h) (fun _ h => h)
  · exact h.mono (fun _ h => h) (fun h => .ring h) (fun h => .cold (holds_append k y h))
      (fun _ h => h) (fun _ h => h)

theorem kept_purge (k : String) (cutoff : Int) (h : Kept g x) : Kept (g.purge P k cutoff) x := by
  refine h.mono (fun _ h => h) (fun h => .ring h) ?_ (fun _ h => h)
    (fun y h => List.mem_append_left _ h)
  rintro ⟨f, r, hr, rfl⟩
  by_cases hgone : f = fileName P.isalnum k ∧ r.tag.timestampNs < cutoff
  · refine .purged (List.mem_append_right _ (List.mem_map.2 ⟨r, ?_, rfl⟩))
    rw [SqliteColdStore.purgeOlderThan_rows, List.mem_filter, ← hgone.1]
    exact ⟨hr, by simpa using hgone.2⟩
  · refine .cold ⟨f, r, ?_, rfl⟩
    show r ∈ (g.cold.purgeOlderThan _ _ k cutoff).1.rowsAt f
    rw [SqliteColdStore.rowsAt_purgeOlderThan]
    split
    · next hf =>
      refine List.mem_filter.2 ⟨hr, ?_⟩
      simpa [hf] using hgone
    · exact hr

/-- **The deletion after a replay publish loses nothing**: a row it deletes has the
id of a row of the batch, and by the replay invariant it is that row. -/
theorem kept_deleteIds {k : String} {rest : List String} {rows : List (Row Sample)}
    (hinv : ReplayInv P g) (hph : g.phase = .replaying k rest rows) (h : Kept g x) :
    Kept { g with
      spill := { g.spill with cold := g.cold.deleteIds P.isalnum k (rows.map Row.id) }
      published := g.published ++ [rows.map Row.tag] } x := by
  obtain ⟨⟨old, young, hrows, hsub, hyoung⟩, -⟩ := hinv k rest rows hph
  refine h.mono (fun _ h => h) (fun h => .ring h) ?_ (fun b h => List.mem_append_left _ h)
    (fun _ h => h)
  rintro ⟨f, r, hr, rfl⟩
  by_cases hgone : f = fileName P.isalnum k ∧ r.id ∈ rows.map Row.id
  · obtain ⟨rfl, hid⟩ := hgone
    obtain ⟨q, hq, hqid⟩ := List.mem_map.1 hid
    have hmem : r ∈ rows := by
      rw [hrows] at hr
      rcases List.mem_append.1 hr with hr | hr
      · exact hsub.subset hr
      · exact absurd (hyoung r hr q hq) (by omega)
    exact .published _ (List.mem_append_right _ (List.mem_singleton_self _))
      (List.mem_map.2 ⟨r, hmem, rfl⟩)
  · refine .cold ⟨f, r, ?_, rfl⟩
    show r ∈ (g.cold.deleteIds _ k _).rowsAt f
    rw [SqliteColdStore.rowsAt_deleteIds]
    split
    · next hf =>
      refine List.mem_filter.2 ⟨hr, ?_⟩
      simpa [hf] using hgone
    · exact hr

/-! ## What one event does to the account -/

theorem accounted_push (h : Accounted g) (k : String) (a : Bool) (tag : UnifiedTag) :
    Accounted (g.push P k a tag) := by
  rcases push_spec (P := P) g k a tag with ⟨m, heq, hsame⟩ | ⟨m, s, heq, hp, hother⟩
  · rw [heq]
    intro x hx
    refine (h x hx).imp_left fun hk => hk.of_rings rfl rfl rfl fun hr => .ring ?_
    rwa [hsame]
  · rw [heq]
    intro x hx
    rcases List.mem_append.1 hx with hx | hx
    · -- an older sample: only the ring of `k` changed, and it may have lost its head
      refine (h x hx).imp_left fun hk => ?_
      cases hp with
      | append hnew hs =>
        subst hs
        refine hk.of_rings rfl rfl rfl fun hr => .ring ?_
        by_cases hxk : x.stream = k
        · rw [hxk] at hr ⊢
          rw [hnew]
          exact List.mem_append_left _ hr
        · rwa [hother _ hxk]
      | evict y ys hold hnew hs =>
        subst hs
        refine (kept_filteredAppend (P := P) k y hk).of_rings rfl rfl rfl fun hr => ?_
        by_cases hxk : x.stream = k
        · rw [hxk] at hr
          rcases List.mem_cons.1 (hold ▸ hr) with rfl | hr
          · exact (kept_evicted (P := P) (g := { g with rings := m }) k x).congr rfl rfl rfl rfl
          · refine .ring ?_
            rw [hxk, hnew]
            exact List.mem_append_left _ hr
        · refine .ring ?_
          rwa [hother _ hxk]
    · -- the pushed sample itself
      rw [List.mem_singleton.1 hx]
      refine Or.inl (.ring ?_)
      cases hp with
      | append hnew hs => simp [hnew]
      | evict y ys hold hnew hs => simp [hnew]

theorem accounted_onWoken (h : Accounted g) (hph : g.phase = .waiting) : Accounted g.onWoken := by
  have hkept : ∀ x ∈ g.pushed, Kept g x := by
    intro x hx
    simpa [inFlight, hph] using h x hx
  have hmove : ∀ x ∈ g.pushed, Kept { g with rings := (g.rings.drainAll none).2 } x ∨
      x ∈ (g.rings.drainAll none).1 := by
    intro x hx
    by_cases hin : x ∈ (g.rings.drainAll none).1
    · exact Or.inr hin
    · refine Or.inl ((hkept x hx).of_rings rfl rfl rfl fun hr => ?_)
      exact absurd (g.rings.mem_drainAll.2 ⟨_, hr⟩) hin
  unfold onWoken
  simp only
  split
  · next hempty =>
    intro x hx
    rcases hmove x hx with hk | hin
    · exact Or.inl (kept_loopHead hk)
    · simp [hempty] at hin
  · intro x hx
    exact (hmove x hx).imp_left fun hk => hk.congr rfl rfl rfl rfl

/-- **Every event keeps the account**, a live publish that does not succeed apart. -/
theorem accounted_step {e : Event} (hinv : ReplayInv P g) (h : Accounted g)
    (hlive : LivePublishSucceeds g e) (hstep : g.step P e = some g') : Accounted g' := by
  have hidle : (∀ b, g.phase ≠ .publishing b) → ∀ x ∈ g.pushed, Kept g x := by
    intro hph x hx
    refine (h x hx).resolve_right fun hin => ?_
    unfold inFlight at hin
    split at hin
    · next b hb => exact hph b hb
    · simp at hin
  cases step_cases hstep with
  | push k a tag => exact accounted_push h k a tag
  | refresh assets => exact fun x hx => (h x hx).imp_left fun hk => hk.congr rfl rfl rfl rfl
  | purge k cutoff => exact fun x hx => (h x hx).imp_left (kept_purge k cutoff)
  | connect outcome hph =>
    intro x hx
    cases outcome with
    | connected =>
      rw [onConnect, pushed_replayFrom] at hx
      exact Or.inl (kept_replayFrom _ ((hidle (by simp [hph]) x hx).congr rfl rfl rfl rfl))
    | raised => exact Or.inl ((hidle (by simp [hph]) x hx).congr rfl rfl rfl rfl)
  | slept hph =>
    exact fun x hx => Or.inl (kept_loopHead ((hidle (by simp [hph]) x hx).congr rfl rfl rfl rfl))
  | woken hph => exact accounted_onWoken h hph
  | live batch outcome hph =>
    simp only [LivePublishSucceeds, hph] at hlive
    subst hlive
    intro x hx
    refine Or.inl (kept_loopHead ?_)
    rcases h x hx with hk | hin
    · exact hk.mono (fun _ h => h) (fun h => .ring h) (fun h => .cold h)
        (fun b h => List.mem_append_left _ h) (fun _ h => h)
    · refine .published batch (List.mem_append_right _ (List.mem_singleton_self _)) ?_
      simpa [inFlight, hph] using hin
  | replay k rest rows outcome hph =>
    intro x hx
    cases outcome with
    | success =>
      rw [onReplayPublish, pushed_replayFrom] at hx
      exact Or.inl (kept_replayFrom _ (kept_deleteIds hinv hph (hidle (by simp [hph]) x hx)))
    | failure | raised => exact Or.inl ((hidle (by simp [hph]) x hx).congr rfl rfl rfl rfl)

end Gateway

/-! ## Whole runs -/

open Gateway

section Runs

variable {P : Params} {assets : List AssetEntry} {c : SqliteColdStore Sample} {n : Nat}
  {es : List Event} {g : Gateway}

/-- **No loss when live publishes succeed.**  From whatever cold store the process
starts with, in every run whose live publishes all report success, every pushed
sample that no asset parameter suppressed is in its ring, in the cold store, in a
batch whose publish reported success, among the purged ones, or in the batch that is
being published at the moment. -/
theorem accounted_run (hrun : (machine P).run (start P assets c n) es = some g)
    (hlive : (machine P).Meets LivePublishSucceeds (start P assets c n) es) :
    ∀ x ∈ g.pushed, x ∉ g.spill.dropped →
      x ∈ g.rings.contents x.stream ∨ g.cold.Holds x ∨ (∃ b ∈ g.published, x ∈ b) ∨
        x ∈ g.purged ∨ x ∈ g.inFlight := by
  have hinv : g.ReplayInv P ∧ Accounted g := by
    refine (machine P).inv_run_of_meets (I := fun s => s.ReplayInv P ∧ Accounted s) ?_
      ⟨replayInv_start assets c n, by simp [Accounted, start]⟩ hlive hrun
    rintro s e s' ⟨hr, ha⟩ hG hstep
    exact ⟨replayInv_step hr hstep, accounted_step hr ha hG hstep⟩
  intro x hx hsup
  rcases hinv.2 x hx with hk | hin
  · cases hk with
    | suppressed h => exact absurd h hsup
    | ring h => exact Or.inl h
    | cold h => exact Or.inr (Or.inl h)
    | published b hb h => exact Or.inr (Or.inr (Or.inl ⟨b, hb, h⟩))
    | purged h => exact Or.inr (Or.inr (Or.inr (Or.inl h)))
  · exact Or.inr (Or.inr (Or.inr (Or.inr hin)))

end Runs

def deliveredRun : List Event :=
  [.push "s" false (reading "t" 1), .push "s" false (reading "t" 2), .connectDone .connected,
    .publishDone .success, .woken, .publishDone .success]

theorem accounted_deliveredRun : ∃ g, (machine tinyParams).run
      (start tinyParams [] SqliteColdStore.new 0) deliveredRun = some g ∧ g.pushed.length = 2 ∧
    ∀ x ∈ g.pushed, x ∉ g.spill.dropped →
      x ∈ g.rings.contents x.stream ∨ g.cold.Holds x ∨ (∃ b ∈ g.published, x ∈ b) ∨
        x ∈ g.purged ∨ x ∈ g.inFlight := by
  obtain ⟨g, hg, hlen⟩ := Option.map_eq_some_iff.1
    (show ((machine tinyParams).run (start tinyParams [] SqliteColdStore.new 0)
      deliveredRun).map (fun g => g.pushed.length) = some 2 by decide)
  exact ⟨g, hg, hlen, accounted_run hg (by decide)⟩

def failedRun : List Event :=
  [.connectDone .connected, .push "s" false (reading "t" 1), .woken, .publishDone .failure]

/-- **One failed live publish loses its batch.**  A sample is pushed, drained at the
next interval, and the publish reports failure: the sample was never suppressed or
purged, and it is nowhere any more. -/
theorem failed_live_publish_loses_sample : ∃ g x, (machine tinyParams).run
      (start tinyParams [] SqliteColdStore.new 0) failedRun = some g ∧
    x ∈ g.pushed ∧ x ∉ g.spill.dropped ∧
      ¬ (x ∈ g.rings.contents x.stream ∨ g.cold.Holds x ∨ (∃ b ∈ g.published, x ∈ b) ∨
        x ∈ g.purged ∨ x ∈ g.inFlight) := by
  let x : Sample := ⟨"s", 0, reading "t" 1⟩
  obtain ⟨g, hg, h⟩ := Option.map_eq_some_iff.1
    (show ((machine tinyParams).run (start tinyParams [] SqliteColdStore.new 0) failedRun).map
        (fun g => (g.pushed, g.spill, g.rings.contents "s", g.published, g.purged, g.inFlight)) =
      some ([x], ⟨SqliteColdStore.new, []⟩, [], [], [], []) from rfl)
  simp only [Prod.mk.injEq] at h
  obtain ⟨hpushed, hspill, hring, hpub, hpurged, hfly⟩ := h
  have hx : x.stream = "s" := rfl
  refine ⟨g, x, hg, by simp [hpushed], by simp [hspill], ?_⟩
  simp [SqliteColdStore.Holds, cold, hx, hspill, hring, hpub, hpurged, hfly]

end XEdge.Northbound
