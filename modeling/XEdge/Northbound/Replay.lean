import XEdge.Northbound.Dispatcher

/-!
# One replay of the cold store (`_replay_cold_store`)

After a connect the backlog on disk is published stream by stream, oldest rows first.  A batch is
peeked, published, and deleted by its row ids once the publish has succeeded; while a publish is
awaited, other tasks append.  Here one replay is a machine of its own, over samples of any type,
that remembers what was inserted, what was handed to `publish` and what was delivered.
-/

namespace XEdge.Northbound

open Lib XEdge.Core Store

/-! ## The machine -/

/-- Where `_replay_cold_store` is. -/
inductive ReplayPhase (α : Type*) where
  /-- `await self._connector.publish(batch)`: the stream, the streams still to come, the rows. -/
  | publishing (streamKey : String) (rest : List String) (rows : List (Row α))
  | returned
  | failed
  | raised
  deriving DecidableEq

structure Replay (α : Type*) where
  cold : SqliteColdStore α
  phase : ReplayPhase α
  /-- Every batch that was handed to `publish`, with its stream, in order. -/
  published : List (String × List (Row α))
  delivered : List (String × List (Row α))
  inserted : String → List (Row α)

inductive ReplayEvent (α : Type*) where
  /-- Another task calls `append`. -/
  | append (streamKey : String) (tag : α)
  /-- `publish()` is over. -/
  | publishDone (outcome : PublishOutcome)
  deriving DecidableEq

def rowsOf {α : Type*} (isalnum : Char → Bool) (file : String)
    (batches : List (String × List (Row α))) : List (Row α) :=
  (batches.filter fun b => fileName isalnum b.1 = file).flatMap Prod.snd

namespace Replay

variable {α : Type*} (isalnum : Char → Bool) (batchSize : Nat)

/-- From the head of the `while True`: the next peek that finds rows is published. -/
def next (r : Replay α) : List String → Replay α
  | [] => { r with phase := .returned }
  | k :: ks =>
      let peeked := r.cold.peek isalnum k batchSize
      if peeked.2 = [] then next { r with cold := peeked.1 } ks
      else
        { r with
          cold := peeked.1
          phase := .publishing k ks peeked.2
          published := r.published ++ [(k, peeked.2)] }

/-- `_replay_cold_store` over the store it finds. -/
def start (cold : SqliteColdStore α) : Replay α :=
  next isalnum batchSize
    { cold, phase := .returned, published := [], delivered := [], inserted := cold.rowsAt }
    cold.streamKeys

def onPublish (r : Replay α) (streamKey : String) (rest : List String) (rows : List (Row α)) :
    PublishOutcome → Replay α
  | .success =>
      next isalnum batchSize
        { r with
          cold := r.cold.deleteIds isalnum streamKey (rows.map Row.id)
          delivered := r.delivered ++ [(streamKey, rows)] }
        (streamKey :: rest)
  | .failure => { r with phase := .failed }
  | .raised => { r with phase := .raised }

def step (r : Replay α) : ReplayEvent α → Option (Replay α)
  | .append k x =>
      some { r with
        cold := r.cold.append isalnum k x
        inserted := fun f =>
          if f = fileName isalnum k then r.inserted f ++ [⟨r.cold.lastIdAt f + 1, x⟩]
          else r.inserted f }
  | .publishDone outcome =>
      match r.phase with
      | .publishing k rest rows => some (r.onPublish isalnum batchSize k rest rows outcome)
      | _ => none

def removed (r : Replay α) (file : String) : List (Row α) :=
  (r.inserted file).filter fun row => row.id ∉ (r.cold.rowsAt file).map Row.id

end Replay

def replayMachine {α : Type*} (isalnum : Char → Bool) (batchSize : Nat) :
    Machine (Replay α) (ReplayEvent α) := ⟨Replay.step isalnum batchSize⟩

/-! ## Batches and files -/

section Rows

variable {α : Type*} {isalnum : Char → Bool} {file : String}

@[simp] theorem rowsOf_append (batches batches' : List (String × List (Row α))) :
    rowsOf isalnum file (batches ++ batches') =
      rowsOf isalnum file batches ++ rowsOf isalnum file batches' := by
  simp [rowsOf]

theorem rowsOf_singleton (k : String) (rows : List (Row α)) :
    rowsOf isalnum file [(k, rows)] = if fileName isalnum k = file then rows else [] := by
  unfold rowsOf
  split <;> simp [*]

theorem rowsOf_of_distinct {k : String} {batches : List (String × List (Row α))}
    (h : ∀ b ∈ batches, fileName isalnum b.1 = fileName isalnum k → b.1 = k) :
    rowsOf isalnum (fileName isalnum k) batches =
      (batches.filter fun b => b.1 = k).flatMap Prod.snd := by
  unfold rowsOf
  congr 1
  refine List.filter_congr fun b hb => ?_
  have hiff : fileName isalnum b.1 = fileName isalnum k ↔ b.1 = k :=
    ⟨h b hb, fun hk => by rw [hk]⟩
  simp [hiff]

variable {l m : List (Row α)}

theorem filter_notMem_end (hl : (l ++ m).Pairwise fun r r' => r.id < r'.id) :
    ((l ++ m).filter fun r => r.id ∉ m.map Row.id) = l := by
  have hcross := (List.pairwise_append.1 hl).2.2
  rw [List.filter_append]
  have hkept : l.filter (fun r => r.id ∉ m.map Row.id) = l := by
    refine List.filter_eq_self.2 fun r hr => ?_
    have hid : r.id ∉ m.map Row.id := by
      intro hid
      obtain ⟨q, hq, hqid⟩ := List.mem_map.1 hid
      exact absurd (hcross r hr q hq) (by omega)
    simp only [hid, not_false_eq_true, decide_true]
  have hgone : m.filter (fun r => r.id ∉ m.map Row.id) = [] := by
    refine List.filter_eq_nil_iff.2 fun r hr => ?_
    have hid : r.id ∈ m.map Row.id := List.mem_map.2 ⟨r, hr, rfl⟩
    simp only [hid, not_true, decide_false, Bool.false_eq_true, not_false_eq_true]
  rw [hkept, hgone, List.append_nil]

theorem filter_notMem_prefix (hl : (l ++ m).Pairwise fun r r' => r.id < r'.id) :
    ((l ++ m).filter fun r => r.id ∉ l.map Row.id) = m := by
  have htake : (l ++ m).take l.length = l := by simp
  have hdrop : (l ++ m).drop l.length = m := by simp
  have hfilter := SqliteColdStore.filter_notMem_take hl l.length
  rw [htake, hdrop] at hfilter
  exact hfilter

end Rows

namespace Replay

variable {α : Type*} {isalnum : Char → Bool} {batchSize : Nat} {r r' : Replay α}

/-! ## The line -/

/-- **The line.**  Of every file, the delivered rows followed by the rows on disk are the rows in
the order of their insertion; a batch that was handed to `publish` and is not delivered is the
beginning of what is on disk. -/
structure Inv (isalnum : Char → Bool) (r : Replay α) : Prop where
  line : ∀ f, rowsOf isalnum f r.delivered ++ r.cold.rowsAt f = r.inserted f
  sorted : ∀ f, (r.inserted f).Pairwise fun a b => a.id < b.id
  bounded : ∀ f, ∀ row ∈ r.inserted f, row.id ≤ r.cold.lastIdAt f
  pending : r.published = r.delivered ∨ ∃ k rows, r.published = r.delivered ++ [(k, rows)] ∧
    rows <+: r.cold.rowsAt (fileName isalnum k)
  awaited : ∀ k rest rows, r.phase = .publishing k rest rows →
    r.published = r.delivered ++ [(k, rows)]

variable (isalnum batchSize) in
theorem next_spec (r : Replay α) (keys : List String) :
    ∃ cold phase pending,
      next isalnum batchSize r keys = { r with
        cold, phase, published := r.published ++ pending } ∧
      (∀ f, cold.rowsAt f = r.cold.rowsAt f ∧ cold.lastIdAt f = r.cold.lastIdAt f) ∧
      ((phase = .returned ∧ pending = []) ∨ ∃ k ks,
        let rows := (r.cold.rowsAt (fileName isalnum k)).take batchSize
        phase = .publishing k ks rows ∧ pending = [(k, rows)]) := by
  induction keys generalizing r with
  | nil => exact ⟨r.cold, .returned, [], by simp [next], fun f => ⟨rfl, rfl⟩, .inl ⟨rfl, rfl⟩⟩
  | cons k ks ih =>
    rw [next]
    split
    · obtain ⟨cold, phase, pending, heq, hsame, hphase⟩ :=
        ih { r with cold := (r.cold.peek isalnum k batchSize).1 }
      refine ⟨cold, phase, pending, heq, fun f => ?_, ?_⟩
      · simpa using hsame f
      · simpa using hphase
    · refine ⟨_, _, _, rfl, fun f => ⟨?_, ?_⟩, .inr ⟨k, ks, ?_⟩⟩
      · exact SqliteColdStore.rowsAt_peek ..
      · exact SqliteColdStore.lastIdAt_peek ..
      · rw [SqliteColdStore.peek_rows]
        exact ⟨rfl, rfl⟩

theorem inv_next (hline : ∀ f, rowsOf isalnum f r.delivered ++ r.cold.rowsAt f = r.inserted f)
    (hsorted : ∀ f, (r.inserted f).Pairwise fun a b => a.id < b.id)
    (hbounded : ∀ f, ∀ row ∈ r.inserted f, row.id ≤ r.cold.lastIdAt f)
    (hpublished : r.published = r.delivered) (keys : List String) :
    (next isalnum batchSize r keys).Inv isalnum := by
  obtain ⟨cold, phase, pending, heq, hsame, ⟨rfl, rfl⟩ | ⟨k, ks, rfl, rfl⟩⟩ :=
    next_spec isalnum batchSize r keys
  · rw [heq]
    refine ⟨fun f => ?_, hsorted, fun f row hrow => ?_, .inl ?_, fun _ _ _ h => by cases h⟩
    · simp only [(hsame f).1, hline]
    · simp only [(hsame f).2]
      exact hbounded f row hrow
    · simp only [List.append_nil, hpublished]
  · rw [heq]
    refine ⟨fun f => ?_, hsorted, fun f row hrow => ?_,
      .inr ⟨k, (r.cold.rowsAt (fileName isalnum k)).take batchSize, ?_, ?_⟩, ?_⟩
    · simp only [(hsame f).1, hline]
    · simp only [(hsame f).2]
      exact hbounded f row hrow
    · simp only [hpublished]
    · simp only [(hsame _).1]
      exact List.take_prefix _ _
    · intro k' rest rows hphase
      cases hphase
      simp only [hpublished]

theorem inv_start (cold : SqliteColdStore α) : (start isalnum batchSize cold).Inv isalnum :=
  inv_next (fun _ => rfl) (fun f => cold.rowsAt_sorted f) (fun f => cold.rowsAt_bounded f) rfl _

theorem Inv.append (h : r.Inv isalnum) (k : String) (x : α)
    (hstep : r.step isalnum batchSize (.append k x) = some r') : r'.Inv isalnum := by
  cases hstep
  refine ⟨fun f => ?_, fun f => ?_, fun f row hrow => ?_, ?_, h.awaited⟩
  · simp only [SqliteColdStore.rowsAt_append]
    split
    · rw [← List.append_assoc, h.line]
    · exact h.line f
  · dsimp only
    split
    · rw [List.pairwise_append]
      refine ⟨h.sorted f, List.pairwise_singleton _ _, fun a ha b hb => ?_⟩
      rw [List.mem_singleton.1 hb]
      exact Nat.lt_succ_of_le (h.bounded f a ha)
    · exact h.sorted f
  · simp only [SqliteColdStore.lastIdAt_append]
    dsimp only at hrow
    split at hrow
    · next hf =>
      rw [if_pos hf]
      rcases List.mem_append.1 hrow with hrow | hrow
      · exact Nat.le_succ_of_le (h.bounded f row hrow)
      · rw [List.mem_singleton.1 hrow]
    · next hf =>
      rw [if_neg hf]
      exact h.bounded f row hrow
  · refine h.pending.imp_right ?_
    rintro ⟨j, rows, hpublished, hrows⟩
    refine ⟨j, rows, hpublished, hrows.trans ?_⟩
    simp only [SqliteColdStore.rowsAt_append]
    split
    · exact List.prefix_append _ _
    · exact List.prefix_rfl

theorem Inv.success (h : r.Inv isalnum) {k : String} {rest : List String} {rows : List (Row α)}
    (hphase : r.phase = .publishing k rest rows) :
    (r.onPublish isalnum batchSize k rest rows .success).Inv isalnum := by
  have hpublished := h.awaited k rest rows hphase
  -- the batch is the beginning of its file
  obtain ⟨left, hleft⟩ : rows <+: r.cold.rowsAt (fileName isalnum k) := by
    rcases h.pending with hnone | ⟨k', rows', hsome, hrows⟩
    · rw [hnone] at hpublished
      simp at hpublished
    · obtain ⟨rfl, rfl⟩ : k' = k ∧ rows' = rows := by
        simpa using hsome.symm.trans hpublished
      exact hrows
  apply inv_next
  · intro f
    simp only [rowsOf_append, rowsOf_singleton, SqliteColdStore.rowsAt_deleteIds]
    by_cases hf : f = fileName isalnum k
    · subst hf
      have hsorted := r.cold.rowsAt_sorted (fileName isalnum k)
      rw [← hleft] at hsorted
      rw [if_pos rfl, if_pos rfl, ← hleft, filter_notMem_prefix hsorted, List.append_assoc, hleft]
      exact h.line _
    · rw [if_neg (Ne.symm hf), if_neg hf, List.append_nil]
      exact h.line f
  · exact h.sorted
  · intro f row hrow
    simp only [SqliteColdStore.lastIdAt_deleteIds]
    exact h.bounded f row hrow
  · exact hpublished

theorem inv_step {e : ReplayEvent α} (h : r.Inv isalnum)
    (hstep : r.step isalnum batchSize e = some r') : r'.Inv isalnum := by
  cases e with
  | append k x => exact h.append k x hstep
  | publishDone outcome =>
    simp only [step] at hstep
    split at hstep
    · next hphase =>
      cases hstep
      cases outcome with
      | success => exact h.success hphase
      | failure | raised =>
        exact ⟨h.line, h.sorted, h.bounded, h.pending, fun _ _ _ hp => by cases hp⟩
    · cases hstep

variable {es : List (ReplayEvent α)}

theorem inv_run {cold : SqliteColdStore α}
    (hrun : (replayMachine isalnum batchSize).run (start isalnum batchSize cold) es = some r) :
    r.Inv isalnum :=
  (replayMachine isalnum batchSize).inv_run (fun _ _ _ h hstep => inv_step h hstep)
    (inv_start cold) hrun

/-! ## What the line says -/

theorem Inv.removed_eq (h : r.Inv isalnum) (f : String) :
    r.removed f = rowsOf isalnum f r.delivered := by
  have hsorted := h.sorted f
  rw [← h.line f] at hsorted
  rw [removed, ← h.line f]
  exact filter_notMem_end hsorted

theorem Inv.delivered_prefix (h : r.Inv isalnum) : r.delivered <+: r.published := by
  rcases h.pending with hnone | ⟨k, rows, hsome, -⟩
  · rw [hnone]
  · rw [hsome]
    exact List.prefix_append _ _

theorem Inv.published_prefix (h : r.Inv isalnum) (f : String) :
    rowsOf isalnum f r.published <+: r.inserted f := by
  rw [← h.line f]
  rcases h.pending with hnone | ⟨k, rows, hsome, hrows⟩
  · rw [hnone]
    exact List.prefix_append _ _
  · rw [hsome, rowsOf_append, rowsOf_singleton, List.prefix_append_right_inj]
    split
    · next hf => exact hf ▸ hrows
    · exact List.nil_prefix

theorem Inv.published_nodup (h : r.Inv isalnum) (f : String) :
    ((rowsOf isalnum f r.published).map Row.id).Nodup := by
  have hsorted := (h.sorted f).sublist (h.published_prefix f).sublist
  exact (List.pairwise_map.2 hsorted).imp fun hlt => Nat.ne_of_lt hlt

theorem ended_run (hended : r.phase = .failed ∨ r.phase = .raised)
    (hrun : (replayMachine isalnum batchSize).run r es = some r') :
    r'.published = r.published ∧ r'.delivered = r.delivered ∧
      ∀ f, r.cold.rowsAt f <+: r'.cold.rowsAt f := by
  have hinv := (replayMachine isalnum batchSize).inv_run
    (I := fun t : Replay α => t.phase = r.phase ∧ t.published = r.published ∧
      t.delivered = r.delivered ∧ ∀ f, r.cold.rowsAt f <+: t.cold.rowsAt f)
    ?_ ⟨rfl, rfl, rfl, fun f => List.prefix_rfl⟩ hrun
  · exact hinv.2
  rintro t e t' ⟨hphase, hpublished, hdelivered, hrows⟩ hstep
  cases e with
  | append k x =>
    cases hstep
    refine ⟨hphase, hpublished, hdelivered, fun f => (hrows f).trans ?_⟩
    simp only [SqliteColdStore.rowsAt_append]
    split
    · exact List.prefix_append _ _
    · exact List.prefix_rfl
  | publishDone outcome =>
    rw [← hphase] at hended
    rcases hended with hended | hended
    · simp only [replayMachine, step, hended] at hstep
      cases hstep
    · simp only [replayMachine, step, hended] at hstep
      cases hstep

end Replay

/-- **A replay deletes exactly what was delivered.**  Whatever is appended and however the
publishes end: the rows that were removed from a file are those of the delivered batches; they are
a beginning of what was inserted into the file, and so is all that was published of it, in that
order and without repeats; the delivered batches are the published ones up to the first that did
not succeed, and after that one nothing is published or removed.  Streams that share no file with
another one are their files. -/
theorem replay_deletes_delivered {α : Type*} (isalnum : Char → Bool) (batchSize : Nat)
    (cold : SqliteColdStore α) {es : List (ReplayEvent α)} {r : Replay α}
    (hrun : (replayMachine isalnum batchSize).run (Replay.start isalnum batchSize cold) es =
      some r) :
    (∀ f, r.removed f = rowsOf isalnum f r.delivered ∧
      rowsOf isalnum f r.delivered <+: r.inserted f ∧
      rowsOf isalnum f r.published <+: r.inserted f ∧
      ((rowsOf isalnum f r.published).map Row.id).Nodup) ∧
    (∀ k, (∀ b ∈ r.published, fileName isalnum b.1 = fileName isalnum k → b.1 = k) →
      rowsOf isalnum (fileName isalnum k) r.delivered =
        (r.delivered.filter fun b => b.1 = k).flatMap Prod.snd) ∧
    r.delivered <+: r.published ∧
    (r.phase = .failed ∨ r.phase = .raised → ∀ es' r',
      (replayMachine isalnum batchSize).run r es' = some r' →
        r'.published = r.published ∧ r'.delivered = r.delivered ∧
          ∀ f, r.cold.rowsAt f <+: r'.cold.rowsAt f) := by
  have h := Replay.inv_run hrun
  refine ⟨fun f => ⟨h.removed_eq f, ?_, h.published_prefix f, h.published_nodup f⟩,
    fun k hk => rowsOf_of_distinct fun b hb => hk b (h.delivered_prefix.subset hb),
    h.delivered_prefix, fun hended es' r' hrun' => Replay.ended_run hended hrun'⟩
  rw [← h.line f]
  exact List.prefix_append _ _

def backlogOfFive : SqliteColdStore Nat :=
  [1, 2, 3, 4, 5].foldl (fun c x => c.append Char.isAlphanum "plc" x) .new

def failingReplay : List (ReplayEvent Nat) :=
  [.append "plc" 6, .publishDone .success, .append "rtu" 7, .publishDone .failure, .append "plc" 8]

theorem replay_deletes_delivered_failing : ∃ r,
    (replayMachine Char.isAlphanum 2).run (Replay.start Char.isAlphanum 2 backlogOfFive)
      failingReplay = some r ∧
    r.published.map (fun b => b.2.map Row.tag) = [[1, 2], [3, 4]] ∧
    (r.cold.rowsAt (fileName Char.isAlphanum "plc")).map Row.tag = [3, 4, 5, 6, 8] ∧
    r.removed (fileName Char.isAlphanum "plc") =
      rowsOf Char.isAlphanum (fileName Char.isAlphanum "plc") r.delivered := by
  obtain ⟨r, hr, hv⟩ := Option.map_eq_some_iff.1
    (show ((replayMachine Char.isAlphanum 2).run (Replay.start Char.isAlphanum 2 backlogOfFive)
      failingReplay).map (fun r => (r.published.map (fun b => b.2.map Row.tag),
        (r.cold.rowsAt (fileName Char.isAlphanum "plc")).map Row.tag)) =
      some ([[1, 2], [3, 4]], [3, 4, 5, 6, 8]) by decide +kernel)
  obtain ⟨hpublished, hrows⟩ := Prod.mk.inj hv
  exact ⟨r, hr, hpublished, hrows,
    ((replay_deletes_delivered Char.isAlphanum 2 backlogOfFive hr).1 _).1⟩

end XEdge.Northbound
