import Mathlib

/-!
# Hash chains

Each record of a chain is hashed together with the hash before it; the last hash
is the tip.  A hash function need not be injective on everything: it is enough
that it is on the hashes and the records that occur.
-/

namespace XEdge.Lib.HashChain

variable {η β : Type*} (link : η → β → η)

def tip (h : η) (bs : List β) : η := bs.foldl link h

@[simp] theorem tip_nil (h : η) : tip link h [] = h := rfl

theorem tip_cons (h : η) (b : β) (bs : List β) : tip link h (b :: bs) = tip link (link h b) bs :=
  rfl

theorem tip_concat (h : η) (bs : List β) (b : β) :
    tip link h (bs ++ [b]) = link (tip link h bs) b := by
  simp [tip]

def hashes (h : η) : List β → List η
  | [] => []
  | b :: bs => link h b :: hashes (link h b) bs

theorem exists_take_of_mem {h x : η} {bs : List β} (hx : x ∈ hashes link h bs) :
    ∃ k, 0 < k ∧ k ≤ bs.length ∧ tip link h (bs.take k) = x := by
  induction bs generalizing h with
  | nil => cases hx
  | cons b bs ih =>
    rcases List.mem_cons.1 hx with rfl | hx
    · exact ⟨1, by omega, by simp, by simp [tip_cons]⟩
    · obtain ⟨k, _, hk, htip⟩ := ih hx
      exact ⟨k + 1, by omega, by simpa using hk, by simpa [tip_cons] using htip⟩

/-- What is asked of the hash function, on the hashes `H` and the records `B` that
occur: different arguments have different hashes, none of which is the genesis. -/
structure Binding (genesis : η) (H : η → Prop) (B : β → Prop) : Prop where
  start : H genesis
  closed : ∀ {h b}, H h → B b → H (link h b)
  injective : ∀ {h h' b b'}, H h → H h' → B b → B b' → link h b = link h' b' → h = h' ∧ b = b'
  fresh : ∀ {h b}, H h → B b → link h b ≠ genesis

namespace Binding

variable {link} {genesis : η} {H : η → Prop} {B : β → Prop}

variable {bs : List β}

theorem tip_mem (hb : Binding link genesis H B) (h : ∀ b ∈ bs, B b) :
    H (tip link genesis bs) := by
  induction bs using List.reverseRecOn with
  | nil => exact hb.start
  | append_singleton bs b ih =>
    rw [tip_concat]
    exact hb.closed (ih fun c hc => h c (List.mem_append_left _ hc))
      (h b (List.mem_append_right _ (List.mem_singleton_self b)))

variable {cs : List β}

/-- **A tip determines the chain.**  From the end: the last records have the same
hash, so they are the same and so are the tips before them; a chain that is used
up first would have the genesis as a hash. -/
theorem eq_of_tip (hb : Binding link genesis H B) (hbs : ∀ b ∈ bs, B b)
    (hcs : ∀ c ∈ cs, B c) (h : tip link genesis bs = tip link genesis cs) : bs = cs := by
  induction bs using List.reverseRecOn generalizing cs with
  | nil =>
    induction cs using List.reverseRecOn with
    | nil => rfl
    | append_singleton cs c _ =>
      rw [tip_nil, tip_concat] at h
      have hc := hcs c (List.mem_append_right _ (List.mem_singleton_self c))
      exact (hb.fresh (hb.tip_mem fun d hd => hcs d (List.mem_append_left _ hd)) hc h.symm).elim
  | append_singleton bs b ih =>
    have hb' := hbs b (List.mem_append_right _ (List.mem_singleton_self b))
    have hbs' : ∀ d ∈ bs, B d := fun d hd => hbs d (List.mem_append_left _ hd)
    induction cs using List.reverseRecOn with
    | nil =>
      rw [tip_nil, tip_concat] at h
      exact (hb.fresh (hb.tip_mem hbs') hb' h).elim
    | append_singleton cs c _ =>
      rw [tip_concat, tip_concat] at h
      have hc := hcs c (List.mem_append_right _ (List.mem_singleton_self c))
      have hcs' : ∀ d ∈ cs, B d := fun d hd => hcs d (List.mem_append_left _ hd)
      obtain ⟨htip, rfl⟩ := hb.injective (hb.tip_mem hbs') (hb.tip_mem hcs') hb' hc h
      rw [ih hbs' hcs' htip]

theorem eq_take_of_mem (hb : Binding link genesis H B) (hbs : ∀ b ∈ bs, B b)
    (hcs : ∀ c ∈ cs, B c) (h : tip link genesis bs ∈ hashes link genesis cs) :
    bs = cs.take bs.length ∧ bs.length ≤ cs.length := by
  obtain ⟨k, -, hk, htip⟩ := exists_take_of_mem link h
  have heq := hb.eq_of_tip hbs (fun c hc => hcs c (List.mem_of_mem_take hc)) htip.symm
  have hlen : bs.length = k := by
    rw [heq, List.length_take]
    omega
  rw [hlen]
  exact ⟨heq, hk⟩

end Binding

end XEdge.Lib.HashChain
