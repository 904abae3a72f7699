import Mathlib

/-!
# Insertion-ordered dictionaries

The gateway is written in Python, whose `dict` keeps its keys in the order of
their first insertion: assigning to a key that is present changes its value in
place, assigning to a new key appends it, and iteration follows that order.
-/

namespace XEdge.Lib

def lookup {κ ν : Type*} [DecidableEq κ] (k : κ) : List (κ × ν) → Option ν
  | [] => none
  | (k', v) :: l => if k' = k then some v else lookup k l

def upsert {κ ν : Type*} [DecidableEq κ] (k : κ) (v : ν) : List (κ × ν) → List (κ × ν)
  | [] => [(k, v)]
  | (k', v') :: l => if k' = k then (k, v) :: l else (k', v') :: upsert k v l

section Bindings

variable {κ ν : Type*} [DecidableEq κ]

theorem lookup_upsert (k j : κ) (v : ν) (l : List (κ × ν)) :
    lookup j (upsert k v l) = if j = k then some v else lookup j l := by
  induction l with
  | nil => simp only [upsert, lookup, eq_comm]
  | cons p l ih =>
    obtain ⟨k', v'⟩ := p
    by_cases hk : k' = k
    · subst hk
      simp only [upsert, if_pos, lookup]
      by_cases hj : k' = j
      · simp [hj]
      · simp [hj, Ne.symm hj]
    · simp only [upsert, if_neg hk, lookup, ih]
      by_cases hj : k' = j
      · subst hj
        simp [hk]
      · simp [hj]

variable {k : κ} {v : ν} {l : List (κ × ν)}

theorem mem_keys_upsert {j : κ} :
    j ∈ (upsert k v l).map Prod.fst ↔ j = k ∨ j ∈ l.map Prod.fst := by
  induction l with
  | nil => simp [upsert]
  | cons p l ih =>
    obtain ⟨k', v'⟩ := p
    by_cases hk : k' = k
    · subst hk
      simp [upsert]
    · simp only [upsert, if_neg hk, List.map_cons, List.mem_cons, ih]
      tauto

theorem nodup_keys_upsert (h : (l.map Prod.fst).Nodup) :
    ((upsert k v l).map Prod.fst).Nodup := by
  induction l with
  | nil => simp [upsert]
  | cons p l ih =>
    obtain ⟨k', v'⟩ := p
    rw [List.map_cons, List.nodup_cons] at h
    by_cases hk : k' = k
    · subst hk
      simpa [upsert] using h
    · simp only [upsert, if_neg hk, List.map_cons, List.nodup_cons]
      refine ⟨?_, ih h.2⟩
      rw [mem_keys_upsert]
      rintro (rfl | hmem)
      · exact hk rfl
      · exact h.1 hmem

theorem lookup_filter (q : κ → Bool) (j : κ) (l : List (κ × ν)) :
    lookup j (l.filter fun p => q p.1) = if q j then lookup j l else none := by
  induction l with
  | nil => simp [lookup]
  | cons p l ih =>
    obtain ⟨k', v'⟩ := p
    by_cases hj : k' = j
    · subst hj
      cases hq : q k' <;> simp [lookup, hq, ih]
    · cases hq : q k' <;> simp [lookup, hq, ih, hj]

theorem lookup_filter_ne (k j : κ) (l : List (κ × ν)) :
    lookup j (l.filter fun p => p.1 ≠ k) = if j = k then none else lookup j l := by
  rw [lookup_filter (fun k' => decide (k' ≠ k))]
  by_cases hj : j = k <;> simp [hj]

theorem lookup_eq_some_iff (h : (l.map Prod.fst).Nodup) :
    lookup k l = some v ↔ (k, v) ∈ l := by
  induction l with
  | nil => simp [lookup]
  | cons p l ih =>
    obtain ⟨k', v'⟩ := p
    rw [List.map_cons, List.nodup_cons] at h
    by_cases hk : k' = k
    · subst hk
      have hnot : (k', v) ∉ l := fun hm => h.1 (List.mem_map.2 ⟨_, hm, rfl⟩)
      simp [lookup, hnot, eq_comm]
    · simp [lookup, hk, ih h.2, Ne.symm hk]

theorem mem_of_lookup (h : lookup k l = some v) :
    (k, v) ∈ l := by
  induction l with
  | nil => cases h
  | cons p l ih =>
    obtain ⟨k', v'⟩ := p
    by_cases hk : k' = k
    · rw [lookup, if_pos hk] at h
      rw [hk, Option.some.inj h]
      exact List.mem_cons_self ..
    · rw [lookup, if_neg hk] at h
      exact List.mem_cons_of_mem _ (ih h)

theorem lookup_eq_none_iff :
    lookup k l = none ↔ k ∉ l.map Prod.fst := by
  induction l with
  | nil => simp [lookup]
  | cons p l ih =>
    obtain ⟨k', v'⟩ := p
    by_cases hk : k' = k
    · simp [lookup, hk]
    · simp only [lookup, if_neg hk, ih, List.map_cons, List.mem_cons, not_or]
      exact ⟨fun h => ⟨Ne.symm hk, h⟩, fun h => h.2⟩

theorem lookup_append (k : κ) (l l' : List (κ × ν)) :
    lookup k (l ++ l') = (lookup k l).or (lookup k l') := by
  induction l with
  | nil => rfl
  | cons p l ih =>
    obtain ⟨k', v⟩ := p
    by_cases hk : k' = k
    · simp [lookup, hk]
    · simp [lookup, hk, ih]

theorem lookup_map_of_injective {μ ξ : Type*} [DecidableEq μ] {f : κ → μ}
    (hf : Function.Injective f) (g : ν → ξ) (k : κ) (l : List (κ × ν)) :
    lookup (f k) (l.map fun p => (f p.1, g p.2)) = (lookup k l).map g := by
  induction l with
  | nil => rfl
  | cons p l ih =>
    obtain ⟨k', v⟩ := p
    by_cases hk : k' = k
    · simp [lookup, hk]
    · simp [lookup, hk, hf.ne hk, ih]

theorem upsert_of_notMem (h : k ∉ l.map Prod.fst) :
    upsert k v l = l ++ [(k, v)] := by
  induction l with
  | nil => rfl
  | cons p l ih =>
    rw [List.map_cons, List.mem_cons, not_or] at h
    rw [upsert, if_neg (Ne.symm h.1), ih h.2, List.cons_append]

theorem upsert_of_lookup (h : lookup k l = some v) : upsert k v l = l := by
  induction l with
  | nil => cases h
  | cons p l ih =>
    obtain ⟨k', v'⟩ := p
    by_cases hk : k' = k
    · rw [lookup, if_pos hk] at h
      rw [upsert, if_pos hk, hk, Option.some.inj h]
    · rw [lookup, if_neg hk] at h
      rw [upsert, if_neg hk, ih h]

theorem mem_of_mem_upsert {p : κ × ν} (h : p ∈ upsert k v l) : p = (k, v) ∨ p ∈ l := by
  induction l with
  | nil => exact .inl (List.mem_singleton.1 h)
  | cons q l ih =>
    rw [upsert] at h
    split at h
    · rcases List.mem_cons.1 h with h | h
      · exact .inl h
      · exact .inr (List.mem_cons_of_mem _ h)
    · rcases List.mem_cons.1 h with h | h
      · exact .inr (h ▸ List.mem_cons_self ..)
      · exact (ih h).imp_right (List.mem_cons_of_mem _)

end Bindings

/-- A Python `dict`: bindings in insertion order, no key bound twice. -/
structure Dict (κ : Type*) (ν : Type*) where
  entries : List (κ × ν)
  nodup : (entries.map Prod.fst).Nodup

namespace Dict

variable {κ ν : Type*}

/-- The empty dictionary `{}`. -/
def empty : Dict κ ν := ⟨[], List.nodup_nil⟩

instance : Inhabited (Dict κ ν) := ⟨empty⟩

def keys (d : Dict κ ν) : List κ := d.entries.map Prod.fst

def values (d : Dict κ ν) : List ν := d.entries.map Prod.snd

variable {d : Dict κ ν}

@[ext] theorem ext {e : Dict κ ν} (h : d.entries = e.entries) : d = e := by
  cases d
  cases h
  rfl

variable [DecidableEq κ]

instance [DecidableEq ν] : DecidableEq (Dict κ ν) := fun d e =>
  decidable_of_iff (d.entries = e.entries) ⟨ext, fun h => h ▸ rfl⟩

/-- `d.get(k)`. -/
def get? (d : Dict κ ν) (k : κ) : Option ν := lookup k d.entries

/-- `d[k] = v`. -/
def set (d : Dict κ ν) (k : κ) (v : ν) : Dict κ ν :=
  ⟨upsert k v d.entries, nodup_keys_upsert d.nodup⟩

/-- `d.pop(k, None)`, without its result. -/
def erase (d : Dict κ ν) (k : κ) : Dict κ ν :=
  ⟨d.entries.filter fun p => p.1 ≠ k, (List.filter_sublist.map Prod.fst).nodup d.nodup⟩

def mapValues {μ : Type*} (d : Dict κ ν) (f : ν → μ) : Dict κ μ :=
  ⟨d.entries.map fun p => (p.1, f p.2), by simpa [Function.comp_def] using d.nodup⟩

/-- `{k: v for k, v in l}`: later bindings of a key win. -/
def ofList (l : List (κ × ν)) : Dict κ ν := l.foldl (fun d p => d.set p.1 p.2) empty

@[simp] theorem get?_empty (k : κ) : (empty : Dict κ ν).get? k = none := rfl

theorem get?_set (d : Dict κ ν) (k j : κ) (v : ν) :
    (d.set k v).get? j = if j = k then some v else d.get? j :=
  lookup_upsert k j v d.entries

@[simp] theorem get?_set_self (d : Dict κ ν) (k : κ) (v : ν) : (d.set k v).get? k = some v := by
  simp [get?_set]

variable {k j : κ}

theorem get?_set_of_ne (d : Dict κ ν) (v : ν) (h : j ≠ k) :
    (d.set k v).get? j = d.get? j := by
  simp [get?_set, h]

theorem get?_erase (d : Dict κ ν) (k j : κ) :
    (d.erase k).get? j = if j = k then none else d.get? j :=
  lookup_filter_ne k j d.entries

variable {v : ν}

theorem get?_eq_some_iff (d : Dict κ ν) :
    d.get? k = some v ↔ (k, v) ∈ d.entries :=
  lookup_eq_some_iff d.nodup

theorem get?_eq_none_iff (d : Dict κ ν) : d.get? k = none ↔ k ∉ d.keys :=
  lookup_eq_none_iff

variable {w : ν}

theorem get?_set_eq_some :
    (d.set k v).get? j = some w ↔ j = k ∧ w = v ∨ j ≠ k ∧ d.get? j = some w := by
  rw [get?_set]
  by_cases h : j = k
  · simp [h, eq_comm]
  · simp [h]

theorem get?_erase_eq_some :
    (d.erase k).get? j = some w ↔ j ≠ k ∧ d.get? j = some w := by
  rw [get?_erase]
  by_cases h : j = k
  · simp [h]
  · simp [h]

theorem length_entries_le_one (h : ∀ k v k' v', d.get? k = some v → d.get? k' = some v' → k = k') :
    d.entries.length ≤ 1 := by
  have hkeys : ∀ p ∈ d.entries, ∀ q ∈ d.entries, p.1 = q.1 := fun p hp q hq =>
    h p.1 p.2 q.1 q.2 (d.get?_eq_some_iff.2 hp) (d.get?_eq_some_iff.2 hq)
  have hnodup := d.nodup
  match hentries : d.entries with
  | [] => simp
  | [_] => simp
  | p :: q :: rest =>
    rw [hentries] at hkeys hnodup
    have hpq := hkeys p (by simp) q (by simp)
    simp [hpq] at hnodup

theorem mem_keys (d : Dict κ ν) : k ∈ d.keys ↔ ∃ v, d.get? k = some v := by
  constructor
  · intro h
    obtain ⟨⟨k', v⟩, hp, rfl⟩ := List.mem_map.1 h
    exact ⟨v, (get?_eq_some_iff d).2 hp⟩
  · rintro ⟨v, h⟩
    exact List.mem_map.2 ⟨(k, v), (get?_eq_some_iff d).1 h, rfl⟩

theorem mem_values (d : Dict κ ν) : v ∈ d.values ↔ ∃ k, d.get? k = some v := by
  constructor
  · intro h
    obtain ⟨⟨k, v'⟩, hp, rfl⟩ := List.mem_map.1 h
    exact ⟨k, (get?_eq_some_iff d).2 hp⟩
  · rintro ⟨k, h⟩
    exact List.mem_map.2 ⟨(k, v), (get?_eq_some_iff d).1 h, rfl⟩

variable {l : List (κ × ν)}

theorem mem_of_mem_ofList {p : κ × ν} (h : p ∈ (ofList l).entries) : p ∈ l := by
  have hfold : ∀ (l : List (κ × ν)) (d : Dict κ ν),
      p ∈ (l.foldl (fun d p => d.set p.1 p.2) d).entries → p ∈ d.entries ∨ p ∈ l := by
    intro l
    induction l with
    | nil => exact fun d h => .inl h
    | cons q l ih =>
      intro d h
      rcases ih _ h with h | h
      · rcases mem_of_mem_upsert h with h | h
        · exact .inr (h ▸ List.mem_cons_self ..)
        · exact .inl h
      · exact .inr (List.mem_cons_of_mem _ h)
  exact (hfold l empty h).resolve_left List.not_mem_nil

theorem get?_ofList (l : List (κ × ν)) (k : κ) : (ofList l).get? k = lookup k l.reverse := by
  have hfold : ∀ (l : List (κ × ν)) (d : Dict κ ν),
      (l.foldl (fun d p => d.set p.1 p.2) d).get? k = (lookup k l.reverse).or (d.get? k) := by
    intro l
    induction l with
    | nil => exact fun d => rfl
    | cons p l ih =>
      intro d
      rw [List.foldl_cons, ih, List.reverse_cons, lookup_append, get?_set, Option.or_assoc]
      obtain ⟨k', v⟩ := p
      by_cases hk : k' = k
      · simp [lookup, hk]
      · simp [lookup, hk, Ne.symm hk]
  rw [ofList, hfold, get?_empty, Option.or_none]

theorem entries_foldl_set (l : List (κ × ν)) (d : Dict κ ν)
    (h : ((d.entries ++ l).map Prod.fst).Nodup) :
    (l.foldl (fun d p => d.set p.1 p.2) d).entries = d.entries ++ l := by
  induction l generalizing d with
  | nil => simp
  | cons p l ih =>
    have hnew : p.1 ∉ d.entries.map Prod.fst := by
      rw [List.map_append, List.map_cons, List.nodup_append] at h
      exact fun hmem => h.2.2 _ hmem _ (List.mem_cons_self ..) rfl
    have hset : (d.set p.1 p.2).entries = d.entries ++ [p] := upsert_of_notMem hnew
    rw [List.foldl_cons, ih _ (by rw [hset, List.append_assoc]; exact h), hset, List.append_assoc]
    rfl

theorem entries_ofList (h : (l.map Prod.fst).Nodup) :
    (ofList l).entries = l :=
  entries_foldl_set l empty h

theorem get?_mapValues {μ : Type*} (d : Dict κ ν) (f : ν → μ) (k : κ) :
    (d.mapValues f).get? k = (d.get? k).map f := by
  obtain ⟨l, hl⟩ := d
  show lookup k (l.map fun p => (p.1, f p.2)) = (lookup k l).map f
  clear hl
  induction l with
  | nil => rfl
  | cons p l ih =>
    obtain ⟨k', v⟩ := p
    by_cases hk : k' = k
    · simp [lookup, hk]
    · simp [lookup, hk, ih]

/-! ## Grouping by key -/

section GroupBy

variable {α : Type*} (key : α → κ)

/-- `d.setdefault(key(x), []).append(x)` for every `x` of the list. -/
def groupBy (l : List α) : Dict κ (List α) :=
  l.foldl (fun d x => d.set (key x) ((d.get? (key x)).getD [] ++ [x])) empty

theorem getD_foldl_group (l : List α) (d : Dict κ (List α)) (k : κ) :
    ((l.foldl (fun d x => d.set (key x) ((d.get? (key x)).getD [] ++ [x])) d).get? k).getD [] =
      (d.get? k).getD [] ++ l.filter fun x => key x = k := by
  induction l generalizing d with
  | nil => simp
  | cons x l ih =>
    rw [List.foldl_cons, ih, get?_set]
    by_cases hk : key x = k
    · simp [hk]
    · simp [hk, Ne.symm hk]

theorem getD_groupBy (l : List α) (k : κ) :
    ((groupBy key l).get? k).getD [] = l.filter fun x => key x = k :=
  (getD_foldl_group key l empty k).trans (List.nil_append _)

theorem mem_keys_foldl_group (l : List α) (d : Dict κ (List α)) (k : κ) :
    k ∈ (l.foldl (fun d x => d.set (key x) ((d.get? (key x)).getD [] ++ [x])) d).keys ↔
      k ∈ d.keys ∨ ∃ x ∈ l, key x = k := by
  induction l generalizing d with
  | nil => simp
  | cons x l ih =>
    have hkeys : ∀ v, k ∈ (d.set (key x) v).keys ↔ k = key x ∨ k ∈ d.keys :=
      fun v => mem_keys_upsert
    rw [List.foldl_cons, ih, hkeys, List.exists_mem_cons_iff, eq_comm]
    tauto

theorem mem_keys_groupBy {l : List α} {k : κ} :
    k ∈ (groupBy key l).keys ↔ ∃ x ∈ l, key x = k := by
  refine (mem_keys_foldl_group key l empty k).trans ?_
  simp [keys, empty]

theorem perm_flatMap_filter {ks : List κ} (hks : ks.Nodup) (l : List α) :
    (ks.flatMap fun k => l.filter fun x => key x = k).Perm (l.filter fun x => key x ∈ ks) := by
  induction ks with
  | nil => simp
  | cons k ks ih =>
    obtain ⟨hk, hks⟩ := List.nodup_cons.1 hks
    have hthis : (l.filter fun x => key x = k) =
        (l.filter fun x => key x ∈ k :: ks).filter fun x => key x = k := by
      rw [List.filter_filter]
      refine List.filter_congr fun x _ => ?_
      by_cases hx : key x = k <;> simp [hx]
    have hothers : (l.filter fun x => key x ∈ ks) =
        (l.filter fun x => key x ∈ k :: ks).filter fun x => !decide (key x = k) := by
      rw [List.filter_filter]
      refine List.filter_congr fun x _ => ?_
      by_cases hx : key x = k
      · simp [hx, hk]
      · simp [hx]
    rw [List.flatMap_cons]
    refine ((ih hks).append_left _).trans ?_
    rw [hthis, hothers]
    exact List.filter_append_perm _ _

end GroupBy

end Dict

end XEdge.Lib
