import XEdge.Northbound.Dispatcher

/-!
# The order in which a stream is delivered

Line up everything the gateway knows of one stream: what was delivered, what is in a
batch that is being published, what waits behind it in the cold store, and what is in
the ring.  This is the stream's `timeline`, and in a gateway that replays before it
goes on, it is in push order: samples enter at its end and leave it by being delivered
at its front or by being dropped.

There is one event that reorders it.  A drain takes the ring and puts it in front of
the cold store.  That is harmless only if one of the two is empty, and the dispatcher
does not look: a replay whose publish fails falls through to the live loop with its
backlog still on disk, and what is evicted while the connection is up stays there until
the next reconnect.
-/

namespace XEdge.Northbound

open Lib XEdge.Core Store

/-! ## Lines of samples -/

/-- In push order, with push numbers below `n`. -/
structure InOrder (n : Nat) (l : List Sample) : Prop where
  sorted : l.Pairwise fun x y => x.seq < y.seq
  bounded : ∀ x ∈ l, x.seq < n

/-- No push number stands twice in the line, and all are below `n`. -/
structure Unique (n : Nat) (l : List Sample) : Prop where
  distinct : l.Pairwise fun x y => x.seq ≠ y.seq
  bounded : ∀ x ∈ l, x.seq < n

/-- The line `l` becomes `l'` while the push counter goes from `n` to `n'`: samples
may drop out, and the sample with number `n` may enter at the end. -/
inductive Advance (n n' : Nat) (l l' : List Sample) : Prop
  | shrink (h : l'.Sublist l) (hn : n ≤ n')
  | enter (x : Sample) (h : l'.Sublist (l ++ [x])) (hx : x.seq = n) (hn : n < n')

section Lines

variable {n n' : Nat} {l l' : List Sample}

theorem Advance.refl : Advance n n l l := .shrink (List.Sublist.refl l) le_rfl

theorem Advance.append_left (m : List Sample) (h : Advance n n' l l') :
    Advance n n' (m ++ l) (m ++ l') := by
  cases h with
  | shrink h hn => exact .shrink ((List.Sublist.refl m).append h) hn
  | enter x h hx hn =>
    refine .enter x ?_ hx hn
    rw [List.append_assoc]
    exact (List.Sublist.refl m).append h

/-- What enters has a larger number than all that are there, and stays in any relation that
holds between a number and a larger one. -/
theorem Advance.pairwise {R : Nat → Nat → Prop} (hR : ∀ {a b}, a < b → R a b)
    (ha : Advance n n' l l') (h : l.Pairwise fun x y => R x.seq y.seq)
    (hbound : ∀ x ∈ l, x.seq < n) :
    (l'.Pairwise fun x y => R x.seq y.seq) ∧ ∀ x ∈ l', x.seq < n' := by
  cases ha with
  | shrink hsub hn =>
    exact ⟨h.sublist hsub, fun x hx => lt_of_lt_of_le (hbound x (hsub.subset hx)) hn⟩
  | enter x hsub hx hn =>
    have hline : (l ++ [x]).Pairwise fun x y => R x.seq y.seq := by
      rw [List.pairwise_append]
      refine ⟨h, List.pairwise_singleton _ _, fun y hy z hz => ?_⟩
      rw [List.mem_singleton.1 hz, hx]
      exact hR (hbound y hy)
    refine ⟨hline.sublist hsub, fun y hy => ?_⟩
    rcases List.mem_append.1 (hsub.subset hy) with hy | hy
    · exact lt_trans (hbound y hy) hn
    · rw [List.mem_singleton.1 hy, hx]
      exact hn

theorem InOrder.advance (h : InOrder n l) (ha : Advance n n' l l') : InOrder n' l' :=
  have hline := ha.pairwise id h.sorted h.bounded
  ⟨hline.1, hline.2⟩

theorem Unique.advance (h : Unique n l) (ha : Advance n n' l l') : Unique n' l' :=
  have hline := ha.pairwise Nat.ne_of_lt h.distinct h.bounded
  ⟨hline.1, hline.2⟩

def ofStream (k : String) (l : List Sample) : List Sample := l.filter fun x => x.stream = k

@[simp] theorem ofStream_nil (k : String) : ofStream k [] = [] := rfl

@[simp] theorem ofStream_append (k : String) :
    ofStream k (l ++ l') = ofStream k l ++ ofStream k l' :=
  List.filter_append ..

theorem ofStream_sublist (k : String) (h : l.Sublist l') :
    (ofStream k l).Sublist (ofStream k l') := h.filter _

variable {k : String}

theorem ofStream_singleton {x : Sample} (h : x.stream = k) : ofStream k [x] = [x] := by
  simp [ofStream, h]

theorem ofStream_eq_nil (h : ∀ x ∈ l, x.stream ≠ k) : ofStream k l = [] :=
  List.filter_eq_nil_iff.2 fun x hx => by simpa using h x hx

end Lines

/-! ## A stream in the cold store -/

/-- The samples of stream `k` among those rows of its file that satisfy `p`. -/
def coldView (isalnum : Char → Bool) (p : Row Sample → Bool) (c : SqliteColdStore Sample)
    (k : String) : List Sample :=
  ofStream k (((c.rowsAt (fileName isalnum k)).filter p).map Row.tag)

section ColdView

variable {isalnum : Char → Bool} {p : Row Sample → Bool} {c c' : SqliteColdStore Sample}

theorem coldView_congr (h : ∀ f, c'.rowsAt f = c.rowsAt f) (k : String) :
    coldView isalnum p c' k = coldView isalnum p c k := by
  unfold coldView
  rw [h]

theorem coldView_append (c : SqliteColdStore Sample) {j : String} {y : Sample} (hy : y.stream = j)
    (k : String) (hp : p ⟨c.lastIdAt (fileName isalnum k) + 1, y⟩ = true) :
    coldView isalnum p (c.append isalnum j y) k = coldView isalnum p c k ++ ofStream k [y] := by
  unfold coldView
  rw [SqliteColdStore.rowsAt_append]
  split
  · simp [hp]
  · next hf =>
    have hjk : j ≠ k := fun h => hf (by rw [h])
    rw [ofStream_eq_nil (l := [y]) (by simpa [hy] using hjk), List.append_nil]

theorem coldView_sublist (h : ∀ f, (c'.rowsAt f).Sublist (c.rowsAt f)) (k : String) :
    (coldView isalnum p c' k).Sublist (coldView isalnum p c k) :=
  ofStream_sublist k (((h _).filter p).map _)

end ColdView

/-! ## Cold store and ring together -/

namespace Gateway

variable {P : Params} {g g' : Gateway} {e : Event}

/-- Samples are where their stream is: in its ring, and in its file. -/
structure Labelled (P : Params) (g : Gateway) : Prop where
  rings : ∀ k, ∀ x ∈ g.rings.contents k, x.stream = k
  rows : ∀ f, ∀ r ∈ g.cold.rowsAt f, fileName P.isalnum r.tag.stream = f

theorem Labelled.of_subset (h : Labelled P g)
    (hrings : ∀ k, ∀ x ∈ g'.rings.contents k, x ∈ g.rings.contents k)
    (hrows : ∀ f, ∀ r ∈ g'.cold.rowsAt f, r ∈ g.cold.rowsAt f) : Labelled P g' :=
  ⟨fun k x hx => h.rings k x (hrings k x hx), fun f r hr => h.rows f r (hrows f r hr)⟩

def backlog (P : Params) (g : Gateway) (k : String) : List Sample :=
  coldView P.isalnum (fun _ => true) g.cold k

def stored (P : Params) (g : Gateway) (k : String) : List Sample :=
  backlog P g k ++ g.rings.contents k

theorem labelled_push (h : Labelled P g) (k : String) (a : Bool) (tag : UnifiedTag) :
    Labelled P (g.push P k a tag) := by
  rcases push_spec (P := P) g k a tag with ⟨m, heq, hsame⟩ | ⟨m, s, heq, hp, hother⟩ <;> rw [heq]
  · exact h.of_subset (fun j x hx => by rwa [← hsame j]) fun f r hr => hr
  · constructor
    · intro j x hx
      by_cases hj : j = k
      · subst hj
        cases hp with
        | append hnew hs =>
          rcases List.mem_append.1 (hnew ▸ hx) with hx | hx
          · exact h.rings j x hx
          · rw [List.mem_singleton.1 hx]
        | evict y ys hold hnew hs =>
          rcases List.mem_append.1 (hnew ▸ hx) with hx | hx
          · exact h.rings j x (hold ▸ List.mem_cons_of_mem y hx)
          · rw [List.mem_singleton.1 hx]
      · exact h.rings j x (hother j hj ▸ hx)
    · intro f r hr
      cases hp with
      | append hnew hs =>
        rw [hs] at hr
        exact h.rows f r hr
      | evict y ys hold hnew hs =>
        have hy : y.stream = k := h.rings k y (hold ▸ List.mem_cons_self ..)
        rcases filteredAppend_spec (P := P) g.suppressed k y g.spill with hf | hf <;>
          rw [hs, hf] at hr
        · exact h.rows f r hr
        · rw [SqliteColdStore.rowsAt_append] at hr
          split at hr
          · next hfile =>
            rcases List.mem_append.1 hr with hr | hr
            · exact h.rows f r hr
            · rw [List.mem_singleton.1 hr, hfile, hy]
          · exact h.rows f r hr

/-- **A push keeps a stream's stored samples in line**: the new one enters at the end,
and an evicted one moves from the front of the ring to the end of the backlog, or
drops out. -/
theorem advance_push (h : Labelled P g) (j : String) (a : Bool) (tag : UnifiedTag)
    (p : Row Sample → Bool) (k : String)
    (hp : ∀ y, p ⟨g.cold.lastIdAt (fileName P.isalnum k) + 1, y⟩ = true) :
    Advance g.nextSeq (g.push P j a tag).nextSeq
      (coldView P.isalnum p g.cold k ++ g.rings.contents k)
      (coldView P.isalnum p (g.push P j a tag).cold k ++ (g.push P j a tag).rings.contents k) := by
  rcases push_spec (P := P) g j a tag with ⟨m, heq, hsame⟩ | ⟨m, s, heq, hpush, hother⟩ <;> rw [heq]
  · rw [hsame]
    exact .refl
  · by_cases hk : k = j
    · subst hk
      refine .enter ⟨k, g.nextSeq, tag⟩ ?_ rfl (Nat.lt_succ_self _)
      cases hpush with
      | append hnew hs =>
        rw [hs, hnew, ← List.append_assoc]
      | evict y ys hold hnew hs =>
        have hy : y.stream = k := h.rings k y (hold ▸ List.mem_cons_self ..)
        rcases filteredAppend_spec (P := P) g.suppressed k y g.spill with hf | hf
        · rw [hs, hf, hold, hnew, List.append_assoc]
          exact (List.Sublist.refl _).append (List.sublist_cons_self y _)
        · have hview := coldView_append g.cold hy k (hp y)
          rw [hs, hf, hold, hnew, hview, ofStream_singleton hy]
          simp
    · rw [hother k hk]
      refine .shrink ?_ (Nat.le_succ _)
      cases hpush with
      | append hnew hs => rw [hs]
      | evict y ys hold hnew hs =>
        have hy : y.stream = j := h.rings j y (hold ▸ List.mem_cons_self ..)
        rcases filteredAppend_spec (P := P) g.suppressed j y g.spill with hf | hf
        · rw [hs, hf]
        · have hview := coldView_append g.cold hy k (hp y)
          have hnil : ofStream k [y] = [] := ofStream_eq_nil (by simpa [hy] using Ne.symm hk)
          rw [hs, hf, hview, hnil, List.append_nil]

theorem labelled_step (h : Labelled P g) (hstep : g.step P e = some g') : Labelled P g' := by
  cases step_cases hstep with
  | push k a tag => exact labelled_push h k a tag
  | refresh | slept => exact ⟨h.rings, h.rows⟩
  | purge k cutoff =>
    exact h.of_subset (fun _ _ hx => hx) fun f r hr =>
      (g.cold.rowsAt_purgeOlderThan_sublist ..).subset hr
  | connect outcome hph =>
    cases outcome with
    | connected =>
      refine h.of_subset (fun k x hx => ?_) fun f r hr => ?_
      · rwa [onConnect, rings_replayFrom] at hx
      · rwa [onConnect, rows_replayFrom] at hr
    | raised => exact ⟨h.rings, h.rows⟩
  | woken hph =>
    obtain ⟨ph, heq, -⟩ := onWoken_spec g
    rw [heq]
    exact h.of_subset (fun k x hx => by simp at hx) fun f r hr => hr
  | live batch outcome hph => cases outcome <;> exact ⟨h.rings, h.rows⟩
  | replay k rest rows outcome hph =>
    cases outcome with
    | success =>
      refine h.of_subset (fun k x hx => ?_) fun f r hr => ?_
      · rwa [onReplayPublish, rings_replayFrom] at hx
      · rw [onReplayPublish, rows_replayFrom] at hr
        exact (g.cold.rowsAt_deleteIds_sublist ..).subset hr
    | failure | raised => exact ⟨h.rings, h.rows⟩

theorem backlog_replayFrom (g : Gateway) (keys : List String) (k : String) :
    backlog P (replayFrom P g keys) k = backlog P g k :=
  coldView_congr (rows_replayFrom g keys) k

/-! ## The timeline of a stream -/

def delivered (g : Gateway) (k : String) : List Sample := ofStream k g.published.flatten

def pending (g : Gateway) (k : String) : List Sample :=
  match g.phase with
  | .publishing batch => ofStream k batch
  | .replaying _ _ rows => ofStream k (rows.map Row.tag)
  | _ => []

/-- The row, of the file of stream `k`, is not in the replay batch being published. -/
def notAwaited (P : Params) (g : Gateway) (k : String) (r : Row Sample) : Bool :=
  match g.phase with
  | .replaying j _ rows =>
      !(decide (fileName P.isalnum j = fileName P.isalnum k) && decide (r.id ∈ rows.map Row.id))
  | _ => true

def behind (P : Params) (g : Gateway) (k : String) : List Sample :=
  coldView P.isalnum (notAwaited P g k) g.cold k

def timeline (P : Params) (g : Gateway) (k : String) : List Sample :=
  delivered g k ++ (pending g k ++ (behind P g k ++ g.rings.contents k))

def Idle (g : Gateway) : Prop :=
  (∀ b, g.phase ≠ .publishing b) ∧ ∀ k rest rows, g.phase ≠ .replaying k rest rows

variable {j k : String} {rest : List String} {rows : List (Row Sample)}

theorem notAwaited_replaying (hph : g.phase = .replaying j rest rows)
    (hfile : fileName P.isalnum j = fileName P.isalnum k) :
    notAwaited P g k = fun r => decide (r.id ∉ rows.map Row.id) := by
  funext r
  simp only [notAwaited, hph, hfile, decide_true, Bool.true_and, decide_not]

theorem behind_eq_backlog (h : ∀ j rest rows, g.phase = .replaying j rest rows →
    fileName P.isalnum j ≠ fileName P.isalnum k) : behind P g k = backlog P g k := by
  have htrue : notAwaited P g k = fun _ => true := by
    unfold notAwaited
    split
    · next hph => simp [h _ _ _ hph]
    · rfl
  rw [behind, htrue, backlog]

theorem timeline_of_idle (h : Idle g) (k : String) :
    timeline P g k = delivered g k ++ stored P g k := by
  have hpending : pending g k = [] := by
    unfold pending
    split
    · next hph => exact absurd hph (h.1 _)
    · next hph => exact absurd hph (h.2 _ _ _)
    · rfl
  rw [timeline, hpending, behind_eq_backlog fun j rest rows hph => absurd hph (h.2 j rest rows),
    stored, List.nil_append]

theorem idle_loopHead (g : Gateway) : Idle g.loopHead := by
  constructor
  · unfold loopHead
    cases g.connected <;> simp
  · exact phase_loopHead g

/-- The rows of the batch that are left in its file, and the rows after them, are a
part of the batch and of what is behind it. -/
theorem backlog_sublist (hinv : ReplayInv P g) (k : String) :
    (backlog P g k).Sublist (pending g k ++ behind P g k) := by
  by_cases h : ∃ j rest rows, g.phase = .replaying j rest rows ∧
      fileName P.isalnum j = fileName P.isalnum k
  · obtain ⟨j, rest, rows, hph, hfile⟩ := h
    obtain ⟨⟨old, young, hrows, hsub, hyoung⟩, -⟩ := hinv j rest rows hph
    have hkept : young.filter (fun r => decide (r.id ∉ rows.map Row.id)) = young := by
      refine List.filter_eq_self.2 fun r hr => decide_eq_true fun hid => ?_
      obtain ⟨q, hq, hqid⟩ := List.mem_map.1 hid
      exact absurd (hyoung r hr q hq) (by omega)
    have hbehind : (ofStream k (young.map Row.tag)).Sublist (behind P g k) := by
      rw [behind, coldView, notAwaited_replaying hph hfile, ← hfile, hrows, List.filter_append,
        hkept, List.map_append]
      exact ofStream_sublist k (List.sublist_append_right _ _)
    have hpending : pending g k = ofStream k (rows.map Row.tag) := by simp only [pending, hph]
    rw [hpending, backlog, coldView, ← hfile, hrows, List.filter_true, List.map_append,
      ofStream_append]
    exact (ofStream_sublist k (hsub.map _)).append hbehind
  · rw [behind_eq_backlog fun j rest rows hph hfile => h ⟨j, rest, rows, hph, hfile⟩]
    exact List.sublist_append_right _ _

theorem stored_sublist (hinv : ReplayInv P g) (k : String) :
    (delivered g k ++ stored P g k).Sublist (timeline P g k) := by
  refine (List.Sublist.refl _).append ?_
  rw [stored, ← List.append_assoc]
  exact (backlog_sublist hinv k).append (List.Sublist.refl _)

theorem backlog_of_peeked (hlab : Labelled P g)
    (hph : g.phase = .replaying j rest
      ((g.cold.rowsAt (fileName P.isalnum j)).take P.replayBatchSize)) (k : String) :
    pending g k ++ behind P g k = backlog P g k := by
  have hpending : pending g k = ofStream k
      (((g.cold.rowsAt (fileName P.isalnum j)).take P.replayBatchSize).map Row.tag) := by
    simp only [pending, hph]
  by_cases hfile : fileName P.isalnum j = fileName P.isalnum k
  · rw [hpending, behind, coldView, notAwaited_replaying hph hfile, ← hfile,
      SqliteColdStore.filter_notMem_take (g.cold.rowsAt_sorted _), ← ofStream_append,
      ← List.map_append, List.take_append_drop, backlog, coldView, ← hfile, List.filter_true]
  · -- the rows of another file belong to other streams
    rw [hpending, ofStream_eq_nil, List.nil_append, behind_eq_backlog]
    · rintro j' rest' rows' hph'
      rw [hph] at hph'
      cases hph'
      exact hfile
    · intro x hx hxk
      obtain ⟨r, hr, rfl⟩ := List.mem_map.1 hx
      exact hfile (by rw [← hxk, hlab.rows _ r (List.mem_of_mem_take hr)])

theorem timeline_replayFrom (hlab : Labelled P g) (keys : List String) (k : String) :
    timeline P (replayFrom P g keys) k = delivered g k ++ stored P g k := by
  obtain ⟨c, ph, heq, hsame, hph⟩ := replayFrom_spec (P := P) g keys
  have hstored : stored P (replayFrom P g keys) k = stored P g k := by
    rw [stored, stored, backlog_replayFrom, rings_replayFrom]
  have hdelivered : delivered (replayFrom P g keys) k = delivered g k := by
    rw [heq]
    rfl
  rw [← hstored, ← hdelivered]
  rcases hph with rfl | ⟨j, ks, rfl⟩
  · exact timeline_of_idle ⟨by simp [heq], by simp [heq]⟩ k
  · have hlab' : Labelled P (replayFrom P g keys) :=
      hlab.of_subset (fun k x hx => by rwa [rings_replayFrom] at hx)
        (fun f r hr => by rwa [rows_replayFrom] at hr)
    have hpeeked : (replayFrom P g keys).phase = .replaying j ks
        (((replayFrom P g keys).cold.rowsAt (fileName P.isalnum j)).take P.replayBatchSize) := by
      rw [rows_replayFrom, heq]
    rw [timeline, stored, ← List.append_assoc (pending _ _), backlog_of_peeked hlab' hpeeked k]

theorem advance_of_idle (hinv : ReplayInv P g) (hidle : Idle g')
    (hdelivered : delivered g' k = delivered g k) (hstored : stored P g' k = stored P g k)
    (hseq : g'.nextSeq = g.nextSeq) :
    Advance g.nextSeq g'.nextSeq (timeline P g k) (timeline P g' k) := by
  rw [timeline_of_idle hidle, hdelivered, hstored, hseq]
  exact .shrink (stored_sublist hinv k) le_rfl

/-- An event that leaves the phase and the history alone advances the timeline as it
advances what is behind and in the ring. -/
theorem advance_of_phase (hphase : g'.phase = g.phase) (hpub : g'.published = g.published)
    (h : Advance g.nextSeq g'.nextSeq (behind P g k ++ g.rings.contents k)
      (coldView P.isalnum (notAwaited P g k) g'.cold k ++ g'.rings.contents k)) :
    Advance g.nextSeq g'.nextSeq (timeline P g k) (timeline P g' k) := by
  have hdelivered : delivered g' k = delivered g k := by rw [delivered, hpub, delivered]
  have hpending : pending g' k = pending g k := by rw [pending, hphase, pending]
  have hbehind : behind P g' k = coldView P.isalnum (notAwaited P g k) g'.cold k := by
    have hna : notAwaited P g' k = notAwaited P g k := by
      funext r
      rw [notAwaited, hphase, notAwaited]
    rw [behind, hna]
  rw [timeline, timeline, hdelivered, hpending, hbehind]
  exact (h.append_left _).append_left _

theorem advance_timeline_push (hinv : ReplayInv P g) (hlab : Labelled P g) (j : String) (a : Bool)
    (tag : UnifiedTag) (k : String) :
    Advance g.nextSeq (g.push P j a tag).nextSeq (timeline P g k)
      (timeline P (g.push P j a tag) k) := by
  have hkeep : (g.push P j a tag).phase = g.phase ∧ (g.push P j a tag).published = g.published := by
    rcases push_spec (P := P) g j a tag with ⟨m, heq, -⟩ | ⟨m, s, heq, -⟩ <;> rw [heq] <;>
      exact ⟨rfl, rfl⟩
  refine advance_of_phase hkeep.1 hkeep.2 (advance_push hlab j a tag _ k fun y => ?_)
  -- a row that is still to come has a larger id than the batch
  unfold notAwaited
  split
  · next j' rest rows hph =>
    by_cases hfile : fileName P.isalnum j' = fileName P.isalnum k
    · have hnot : g.cold.lastIdAt (fileName P.isalnum k) + 1 ∉ rows.map Row.id := by
        intro hid
        obtain ⟨q, hq, hqid⟩ := List.mem_map.1 hid
        have hle := (hinv j' rest rows hph).2 q hq
        rw [hfile] at hle
        omega
      simp only [hnot, decide_false, Bool.and_false, Bool.not_false]
    · simp [hfile]
  · rfl

def RingsAreOldest (P : Params) (g : Gateway) : Event → Prop
  | .woken => ∀ k ∈ g.rings.streamKeys, g.rings.contents k = [] ∨ backlog P g k = []
  | _ => True

instance decidableRingsAreOldest (P : Params) :
    ∀ g e, Decidable (RingsAreOldest P g e)
  | g, .woken => inferInstanceAs
      (Decidable (∀ k ∈ g.rings.streamKeys, g.rings.contents k = [] ∨ backlog P g k = []))
  | _, .push .. | _, .refresh _ | _, .purge .. | _, .connectDone _ | _, .slept
  | _, .publishDone _ => isTrue trivial

/-- A drain puts the ring of a stream in front of its backlog. -/
theorem timeline_onWoken (hlab : Labelled P g) (k : String) :
    timeline P g.onWoken k = delivered g k ++ (g.rings.contents k ++ backlog P g k) := by
  have hdrain : ofStream k (g.rings.drainAll none).1 = g.rings.contents k :=
    g.rings.filter_drainAll Sample.stream hlab.rings k
  obtain ⟨ph, heq, hout⟩ := onWoken_spec g
  rcases hout with rfl | ⟨hnil, hidle⟩
  · have hphase : ∀ j rest rows, g.onWoken.phase ≠ .replaying j rest rows := by simp [heq]
    rw [timeline, behind_eq_backlog fun j rest rows hph => absurd hph (hphase j rest rows), heq]
    simp only [pending, hdrain, RingBufferManager.contents_drainAll, List.append_nil]
    rfl
  · rw [hnil, ofStream_nil] at hdrain
    rw [timeline_of_idle (by rcases hidle with rfl | rfl <;> constructor <;> simp [heq]), heq,
      ← hdrain, List.nil_append]
    simp only [stored, RingBufferManager.contents_drainAll, List.append_nil]
    rfl

theorem nextSeq_onWoken (g : Gateway) : g.onWoken.nextSeq = g.nextSeq := by
  obtain ⟨ph, heq, -⟩ := onWoken_spec g
  rw [heq]

theorem advance_onWoken (hlab : Labelled P g) (hph : g.phase = .waiting)
    (hG : RingsAreOldest P g .woken) (k : String) :
    Advance g.nextSeq g.onWoken.nextSeq (timeline P g k) (timeline P g.onWoken k) := by
  have hold : g.rings.contents k = [] ∨ backlog P g k = [] := by
    by_cases hk : k ∈ g.rings.streamKeys
    · exact hG k hk
    · exact Or.inl (g.rings.contents_of_notMem hk)
  have hbefore : timeline P g k = delivered g k ++ stored P g k :=
    timeline_of_idle ⟨by simp [hph], by simp [hph]⟩ k
  have hswap : g.rings.contents k ++ backlog P g k = stored P g k := by
    rcases hold with h | h <;> simp [stored, h]
  rw [hbefore, timeline_onWoken hlab, hswap, nextSeq_onWoken]
  exact .refl

theorem timeline_live_success {batch : List Sample} (hph : g.phase = .publishing batch)
    (k : String) :
    timeline P (g.onLivePublish batch .success) k = timeline P g k := by
  have hpending : pending g k = ofStream k batch := by simp only [pending, hph]
  have hdelivered : delivered (g.onLivePublish batch .success) k =
      delivered g k ++ ofStream k batch := by
    simp [delivered, onLivePublish, loopHead]
  rw [onLivePublish, timeline_of_idle (idle_loopHead _), timeline, hpending,
    behind_eq_backlog (by simp [hph])]
  rw [onLivePublish] at hdelivered
  rw [hdelivered, List.append_assoc]
  rfl

/-- A success reported for a replay batch moves it to the delivered samples, and the
deletion leaves what was behind it. -/
theorem timeline_replay_success
    (hlab : Labelled P g) (hph : g.phase = .replaying j rest rows) (k : String) :
    timeline P (g.onReplayPublish P j rest rows .success) k = timeline P g k := by
  have hpending : pending g k = ofStream k (rows.map Row.tag) := by simp only [pending, hph]
  have hbehind : coldView P.isalnum (fun _ => true)
      (g.cold.deleteIds P.isalnum j (rows.map Row.id)) k = behind P g k := by
    by_cases hfile : fileName P.isalnum j = fileName P.isalnum k
    · rw [behind, coldView, coldView, notAwaited_replaying hph hfile,
        SqliteColdStore.rowsAt_deleteIds, if_pos hfile.symm, List.filter_true]
    · rw [behind_eq_backlog]
      · rw [backlog, coldView, coldView, SqliteColdStore.rowsAt_deleteIds, if_neg (Ne.symm hfile)]
      · rintro j' rest' rows' hph'
        rw [hph] at hph'
        cases hph'
        exact hfile
  rw [onReplayPublish, timeline_replayFrom]
  · rw [timeline, hpending, ← hbehind, ← List.append_assoc]
    simp only [delivered, stored, backlog, cold, List.flatten_append, ofStream_append,
      List.flatten_cons, List.flatten_nil, List.append_nil, List.append_assoc]
  · exact hlab.of_subset (fun _ _ hx => hx) fun f r hr =>
      (g.cold.rowsAt_deleteIds_sublist ..).subset hr

/-- **Every event keeps the timeline of every stream in line**, a drain over a backlog
apart. -/
theorem timeline_step (hinv : ReplayInv P g) (hlab : Labelled P g) (hG : RingsAreOldest P g e)
    (hstep : g.step P e = some g') (k : String) :
    Advance g.nextSeq g'.nextSeq (timeline P g k) (timeline P g' k) := by
  cases step_cases hstep with
  | push j a tag => exact advance_timeline_push hinv hlab j a tag k
  | refresh assets => exact .refl
  | purge j cutoff =>
    have hsub : (coldView P.isalnum (notAwaited P g k) (g.purge P j cutoff).cold k).Sublist
        (behind P g k) :=
      coldView_sublist (fun f => g.cold.rowsAt_purgeOlderThan_sublist P.isalnum
        Sample.timestampNs j f cutoff) k
    have hphase : (g.purge P j cutoff).phase = g.phase := rfl
    exact advance_of_phase hphase rfl (.shrink (hsub.append (List.Sublist.refl _)) le_rfl)
  | connect outcome hph =>
    cases outcome with
    | connected =>
      have hlab' : Labelled P { g with connected := true, backoff := INITIAL_BACKOFF_SECONDS } :=
        ⟨hlab.rings, hlab.rows⟩
      rw [onConnect, timeline_replayFrom hlab', nextSeq_replayFrom]
      exact .shrink (stored_sublist hinv k) le_rfl
    | raised => exact advance_of_idle hinv ⟨by simp [onConnect], by simp [onConnect]⟩ rfl rfl rfl
  | slept hph => exact advance_of_idle hinv (idle_loopHead _) rfl rfl rfl
  | woken hph => exact advance_onWoken hlab hph hG k
  | live batch outcome hph =>
    cases outcome with
    | success =>
      rw [timeline_live_success hph]
      exact .refl
    | failure => exact advance_of_idle hinv (idle_loopHead _) rfl rfl rfl
    | raised =>
      exact advance_of_idle hinv ⟨by simp [onLivePublish], by simp [onLivePublish]⟩ rfl rfl rfl
  | replay j rest rows outcome hph =>
    cases outcome with
    | success =>
      rw [timeline_replay_success hlab hph, onReplayPublish, nextSeq_replayFrom]
      exact .refl
    | failure | raised =>
      exact advance_of_idle hinv ⟨by simp [onReplayPublish], by simp [onReplayPublish]⟩ rfl rfl rfl

/-- **No event doubles a sample**, whether the drain it makes keeps the order or not. -/
theorem unique_step (hinv : ReplayInv P g) (hlab : Labelled P g)
    (h : Unique g.nextSeq (timeline P g k)) (hstep : g.step P e = some g') :
    Unique g'.nextSeq (timeline P g' k) := by
  by_cases he : e = .woken
  · subst he
    cases step_cases hstep with
    | woken hph =>
      rw [timeline_of_idle ⟨by simp [hph], by simp [hph]⟩, stored] at h
      have hperm : (delivered g k ++ (g.rings.contents k ++ backlog P g k)).Perm
          (delivered g k ++ (backlog P g k ++ g.rings.contents k)) :=
        List.perm_append_comm.append_left _
      rw [timeline_onWoken hlab, nextSeq_onWoken]
      exact ⟨(hperm.pairwise_iff Ne.symm).2 h.distinct,
        fun x hx => h.bounded x (hperm.mem_iff.1 hx)⟩
  · refine h.advance (timeline_step hinv hlab ?_ hstep k)
    cases e <;> trivial

end Gateway

/-! ## Whole runs -/

open Gateway

/-- What a run finds on disk at its start: every row is in the file of its stream, and
the rows of a stream are in push order.  `n` samples were pushed before. -/
structure Consistent (P : Params) (c : SqliteColdStore Sample) (n : Nat) : Prop where
  rows : ∀ f, ∀ r ∈ c.rowsAt f, fileName P.isalnum r.tag.stream = f
  inOrder : ∀ k, InOrder n (coldView P.isalnum (fun _ => true) c k)

theorem consistent_new (P : Params) (n : Nat) : Consistent P SqliteColdStore.new n :=
  ⟨by simp, fun k => ⟨by simp [coldView], by simp [coldView]⟩⟩

section Runs

variable {P : Params} {assets : List AssetEntry} {c : SqliteColdStore Sample} {n : Nat}
  {es : List Event} {g : Gateway}

theorem labelled_start (hc : Consistent P c n) : Labelled P (start P assets c n) :=
  ⟨by simp [start], hc.rows⟩

/-- **Delivery order.**  From every consistent cold store, in every run in which no
ring is drained while its stream has samples on disk, the delivered samples of every
stream, live and replayed, are in the order they were pushed. -/
theorem delivered_inOrder_run (hc : Consistent P c n)
    (hrun : (machine P).run (start P assets c n) es = some g)
    (hG : (machine P).Meets (RingsAreOldest P) (start P assets c n) es) (k : String) :
    (delivered g k).Pairwise fun x y => x.seq < y.seq := by
  have hinv : ReplayInv P g ∧ Labelled P g ∧ ∀ k, InOrder g.nextSeq (timeline P g k) := by
    refine (machine P).inv_run_of_meets
      (I := fun s => ReplayInv P s ∧ Labelled P s ∧ ∀ k, InOrder s.nextSeq (timeline P s k)) ?_
      ⟨replayInv_start assets c n, labelled_start hc, fun k => ?_⟩ hG hrun
    · rintro s e s' ⟨hr, hlab, hord⟩ hG hstep
      exact ⟨replayInv_step hr hstep, labelled_step hlab hstep,
        fun k => (hord k).advance (timeline_step hr hlab hG hstep k)⟩
    · rw [timeline_of_idle ⟨by simp [start], by simp [start]⟩]
      simpa [delivered, stored, start, backlog] using hc.inOrder k
  exact (hinv.2.2 k).sorted.sublist (List.sublist_append_left _ _)

/-- **At most once.**  From every consistent cold store, in every run, no sample is in two
batches that were reported as published or twice in one, and none that is delivered is still in
the cold store or in its ring. -/
theorem delivered_once_run (hc : Consistent P c n)
    (hrun : (machine P).run (start P assets c n) es = some g) (k : String) :
    ((delivered g k ++ stored P g k).map Sample.seq).Nodup := by
  have hinv : ReplayInv P g ∧ Labelled P g ∧ Unique g.nextSeq (timeline P g k) := by
    refine (machine P).inv_run
      (I := fun s => ReplayInv P s ∧ Labelled P s ∧ Unique s.nextSeq (timeline P s k)) ?_
      ⟨replayInv_start assets c n, labelled_start hc, ?_⟩ hrun
    · rintro s e s' ⟨hr, hlab, h⟩ hstep
      exact ⟨replayInv_step hr hstep, labelled_step hlab hstep, unique_step hr hlab h hstep⟩
    · rw [timeline_of_idle ⟨by simp [start], by simp [start]⟩]
      have hcold := hc.inOrder k
      simpa [delivered, stored, start, backlog] using
        (⟨hcold.sorted.imp Nat.ne_of_lt, hcold.bounded⟩ : Unique n _)
  exact List.pairwise_map.2 (hinv.2.2.distinct.sublist (stored_sublist hinv.1 k))

end Runs

def replayThenLive : List Event :=
  [.push "s" false (reading "t" 1), .push "s" false (reading "t" 2), .connectDone .connected,
    .publishDone .success, .woken, .publishDone .success]

theorem delivered_inOrder_replayThenLive : ∃ g, (machine tinyParams).run
      (start tinyParams [] SqliteColdStore.new 0) replayThenLive = some g ∧
    (delivered g "s").length = 2 ∧ (delivered g "s").Pairwise fun x y => x.seq < y.seq := by
  obtain ⟨g, hg, hlen⟩ := Option.map_eq_some_iff.1
    (show ((machine tinyParams).run (start tinyParams [] SqliteColdStore.new 0)
      replayThenLive).map (fun g => (delivered g "s").length) = some 2 by decide)
  exact ⟨g, hg, hlen, delivered_inOrder_run (consistent_new _ 0) hg (by decide) "s"⟩

/-- The replay publish fails, the live loop goes on, and the backlog is replayed after
the next connect. -/
def liveThenReplay : List Event :=
  [.push "s" false (reading "t" 1), .push "s" false (reading "t" 2), .connectDone .connected,
    .publishDone .failure, .woken, .publishDone .success, .connectDone .connected,
    .publishDone .success]

/-- **A failed replay publish reorders the stream.**  The first sample is on disk and
the second in the ring when the replay fails; the second is delivered first. -/
theorem failed_replay_reorders : ∃ g, (machine tinyParams).run
      (start tinyParams [] SqliteColdStore.new 0) liveThenReplay = some g ∧
    (delivered g "s").map Sample.seq = [1, 0] ∧
    ¬ (delivered g "s").Pairwise fun x y => x.seq < y.seq := by
  obtain ⟨g, hg, hd⟩ := Option.map_eq_some_iff.1
    (show ((machine tinyParams).run (start tinyParams [] SqliteColdStore.new 0)
        liveThenReplay).map (fun g => delivered g "s") =
      some [⟨"s", 1, reading "t" 2⟩, ⟨"s", 0, reading "t" 1⟩] by decide)
  exact ⟨g, hg, by rw [hd]; rfl, by rw [hd]; decide⟩

/-- The run that reorders the stream delivers each of its samples once. -/
theorem delivered_once_liveThenReplay : ∃ g, (machine tinyParams).run
      (start tinyParams [] SqliteColdStore.new 0) liveThenReplay = some g ∧
    (delivered g "s").length = 2 ∧
    ((delivered g "s" ++ stored tinyParams g "s").map Sample.seq).Nodup := by
  obtain ⟨g, hg, hlen⟩ := Option.map_eq_some_iff.1
    (show ((machine tinyParams).run (start tinyParams [] SqliteColdStore.new 0)
      liveThenReplay).map (fun g => (delivered g "s").length) = some 2 by decide)
  exact ⟨g, hg, hlen, delivered_once_run (consistent_new _ 0) hg "s"⟩

end XEdge.Northbound
