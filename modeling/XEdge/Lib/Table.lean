import Mathlib

/-!
# Tables with a primary key, whose rows have owners

A table is the list of its rows.  A row is found and updated by its primary key; each row belongs
to an owner, which an update does not change.
-/

namespace XEdge.Lib.Table

variable {ρ κ τ : Type*} [DecidableEq κ] [DecidableEq τ] (key : ρ → κ) (owner : ρ → τ)

def find (k : κ) (rows : List ρ) : Option ρ := rows.find? fun x => key x = k

/-- `UPDATE … WHERE key = k`. -/
def update (k : κ) (f : ρ → ρ) (rows : List ρ) : List ρ :=
  rows.map fun x => if key x = k then f x else x

/-- `SELECT … WHERE owner = t`. -/
def ownedBy (t : τ) (rows : List ρ) : List ρ := rows.filter fun x => owner x = t

variable {key owner}

@[simp] theorem mem_ownedBy {t : τ} {rows : List ρ} {x : ρ} :
    x ∈ ownedBy owner t rows ↔ x ∈ rows ∧ owner x = t := by
  simp [ownedBy]

@[simp] theorem ownedBy_ownedBy (t : τ) (rows : List ρ) :
    ownedBy owner t (ownedBy owner t rows) = ownedBy owner t rows := by
  simp [ownedBy, List.filter_filter]

theorem ownedBy_append (t : τ) (rows rows' : List ρ) :
    ownedBy owner t (rows ++ rows') = ownedBy owner t rows ++ ownedBy owner t rows' :=
  List.filter_append ..

theorem mem_of_find {k : κ} {rows : List ρ} {x : ρ} (h : find key k rows = some x) :
    x ∈ rows ∧ key x = k :=
  ⟨List.mem_of_find?_eq_some h, by simpa using List.find?_some h⟩

theorem eq_of_find {k : κ} {rows : List ρ} (hkeys : (rows.map key).Nodup) {x y : ρ}
    (h : find key k rows = some x) (hy : y ∈ rows) (hk : key y = k) : y = x := by
  obtain ⟨hx, hxk⟩ := mem_of_find h
  exact List.inj_on_of_nodup_map hkeys hy hx (hk.trans hxk.symm)

omit [DecidableEq κ] in
theorem nodup_ownedBy {rows : List ρ} (hkeys : (rows.map key).Nodup) (t : τ) :
    ((ownedBy owner t rows).map key).Nodup :=
  hkeys.sublist (List.filter_sublist.map key)

theorem find_ownedBy {rows : List ρ} (hkeys : (rows.map key).Nodup) (k : κ) (t : τ) :
    find key k (ownedBy owner t rows) = (find key k rows).filter fun x => owner x = t := by
  cases hfound : find key k rows with
  | none =>
    refine List.find?_eq_none.2 fun x hx => ?_
    exact List.find?_eq_none.1 hfound x (mem_ownedBy.1 hx).1
  | some x =>
    obtain ⟨hx, hk⟩ := mem_of_find hfound
    by_cases howner : owner x = t
    · rw [Option.filter_some_pos (by simpa using howner)]
      cases hown : find key k (ownedBy owner t rows) with
      | none =>
        have hne := List.find?_eq_none.1 hown x (mem_ownedBy.2 ⟨hx, howner⟩)
        exact absurd (decide_eq_true hk) hne
      | some y =>
        obtain ⟨hy, hyk⟩ := mem_of_find hown
        rw [eq_of_find hkeys hfound (mem_ownedBy.1 hy).1 hyk]
    · rw [Option.filter_some_neg (by simpa using howner)]
      refine List.find?_eq_none.2 fun y hy hyk => howner ?_
      obtain ⟨hmem, hyowner⟩ := mem_ownedBy.1 hy
      rw [← eq_of_find hkeys hfound hmem (of_decide_eq_true hyk)]
      exact hyowner

section Update

variable {f : ρ → ρ}

theorem map_key_update (hf : ∀ x, key (f x) = key x) (k : κ) (rows : List ρ) :
    (update key k f rows).map key = rows.map key := by
  rw [update, List.map_map]
  refine List.map_congr_left fun x _ => ?_
  show key (if key x = k then f x else x) = key x
  split
  · exact hf x
  · rfl

omit [DecidableEq τ] in
theorem exists_mem_update (hkey : ∀ x, key (f x) = key x) (howner : ∀ x, owner (f x) = owner x)
    (k : κ) {rows : List ρ} {x : ρ} (hx : x ∈ rows) :
    ∃ y ∈ update key k f rows, key y = key x ∧ owner y = owner x := by
  refine ⟨if key x = k then f x else x, List.mem_map_of_mem hx, ?_⟩
  split
  · exact ⟨hkey x, howner x⟩
  · exact ⟨rfl, rfl⟩

theorem ownedBy_update (hf : ∀ x, owner (f x) = owner x) (k : κ) (t : τ) (rows : List ρ) :
    ownedBy owner t (update key k f rows) = update key k f (ownedBy owner t rows) := by
  rw [ownedBy, update, List.filter_map, update, ownedBy]
  refine congrArg _ (List.filter_congr fun x _ => ?_)
  show decide (owner (if key x = k then f x else x) = t) = decide (owner x = t)
  split
  · rw [hf]
  · rfl

theorem ownedBy_update_ownedBy (hf : ∀ x, owner (f x) = owner x) (k : κ) (t : τ) (rows : List ρ) :
    ownedBy owner t (update key k f (ownedBy owner t rows)) =
      ownedBy owner t (update key k f rows) := by
  rw [ownedBy_update hf, ownedBy_update hf, ownedBy_ownedBy]

theorem ownedBy_update_of_ne (hf : ∀ x, owner (f x) = owner x) {k : κ} {t : τ} {rows : List ρ}
    (hkeys : (rows.map key).Nodup) {x : ρ} (hfound : find key k rows = some x)
    (hne : owner x ≠ t) : ownedBy owner t (update key k f rows) = ownedBy owner t rows := by
  rw [ownedBy_update hf]
  refine (List.map_congr_left fun y hy => ?_).trans (List.map_id _)
  obtain ⟨hmem, howner⟩ := mem_ownedBy.1 hy
  refine if_neg fun hk => hne ?_
  rw [← eq_of_find hkeys hfound hmem hk]
  exact howner

end Update

end XEdge.Lib.Table
