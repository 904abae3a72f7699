import Mathlib

/-!
# One request at a time over a byte stream

A client sends a request, waits for the bytes of the answer, and gives up after a
while; a peer answers when it likes.  Nothing on the stream says which request a
byte answers.  This file is the theory of that situation, for any requests, any
bytes and any peer.

A read in progress that is abandoned has already consumed its finished chunks; the
bytes it was still waiting for stay in the stream (`abort`).
-/

namespace XEdge.Lib

inductive Next where
  | more (n : Nat)
  | done
  | fail
  deriving DecidableEq, Repr

/-- A request/response protocol over bytes `β`: requests `ρ`, answers `α`. -/
structure Protocol (ρ : Type*) (α : Type*) (β : Type*) where
  next : ρ → List (List β) → Next
  reply : ρ → α → List β

structure Link (ρ : Type*) (β : Type*) where
  inbox : List β
  wire : List β
  unanswered : List ρ
  current : Option (ρ × List (List β))
  deriving DecidableEq

inductive Progress (ρ : Type*) (β : Type*) where
  | reading (l : Link ρ β)
  | finished (r : ρ) (frame : List β) (l : Link ρ β)
  | failed (r : ρ) (l : Link ρ β)

namespace Link

variable {ρ α β : Type*} (P : Protocol ρ α β)

def new : Link ρ β := ⟨[], [], [], none⟩

def send (l : Link ρ β) (r : ρ) : Option (Link ρ β) :=
  match l.current with
  | none => some { l with unanswered := l.unanswered ++ [r], current := some (r, []) }
  | some _ => none

/-- The peer answers the `i`-th request it has not answered. -/
def answer (l : Link ρ β) (i : Nat) (a : α) : Option (Link ρ β) :=
  match l.unanswered[i]? with
  | some r => some { l with wire := l.wire ++ P.reply r a, unanswered := l.unanswered.eraseIdx i }
  | none => none

/-- The next `n` bytes on the wire arrive. -/
def deliver (l : Link ρ β) (n : Nat) : Option (Link ρ β) :=
  if n ≤ l.wire.length then
    some { l with inbox := l.inbox ++ l.wire.take n, wire := l.wire.drop n }
  else none

def progress (l : Link ρ β) : Option (Progress ρ β) :=
  match l.current with
  | none => none
  | some (r, chunks) =>
      match P.next r chunks with
      | .more n =>
          if n ≤ l.inbox.length then
            some (.reading
              { l with inbox := l.inbox.drop n, current := some (r, chunks ++ [l.inbox.take n]) })
          else none
      | .done => some (.finished r chunks.flatten { l with current := none })
      | .fail => some (.failed r { l with current := none })

def abort (l : Link ρ β) : Option (ρ × Link ρ β) :=
  match l.current with
  | some (r, _) => some (r, { l with current := none })
  | none => none

def Quiet (l : Link ρ β) : Prop := l.inbox = [] ∧ l.wire = [] ∧ l.unanswered = []

instance [DecidableEq ρ] [DecidableEq β] (l : Link ρ β) : Decidable l.Quiet :=
  inferInstanceAs (Decidable (_ ∧ _ ∧ _))

/-- The bytes the waiting client has read or will read are those of its own answer,
which may not have been sent yet. -/
def Paired (l : Link ρ β) : Prop :=
  ∀ r chunks, l.current = some (r, chunks) →
    (l.unanswered = [r] ∧ chunks.flatten ++ (l.inbox ++ l.wire) = []) ∨
      (l.unanswered = [] ∧ ∃ a, chunks.flatten ++ (l.inbox ++ l.wire) = P.reply r a)

variable {P} {l l' : Link ρ β}

theorem paired_of_current_eq_none (h : l.current = none) : l.Paired P := by
  intro r chunks hc
  rw [h] at hc
  cases hc

theorem paired_new : (new : Link ρ β).Paired P := paired_of_current_eq_none rfl

variable {r : ρ}

theorem current_send (h : l.send r = some l') : l'.current = some (r, []) := by
  unfold send at h
  split at h <;> cases h
  rfl

theorem paired_send (hq : l.Quiet) (h : l.send r = some l') : l'.Paired P := by
  obtain ⟨hin, hwire, hun⟩ := hq
  unfold send at h
  split at h <;> cases h
  intro r' chunks hc
  cases hc
  simp [hin, hwire, hun]

variable {i : Nat} {a : α}

theorem paired_answer (hl : l.Paired P) (h : l.answer P i a = some l') :
    l'.Paired P := by
  unfold answer at h
  split at h <;> cases h
  next r hr =>
  intro r' chunks hc
  rcases hl r' chunks hc with ⟨hun, hnil⟩ | ⟨hun, -⟩
  · -- the only request to answer is the current one
    rw [hun, List.getElem?_singleton] at hr
    split at hr <;> cases hr
    next hi =>
    right
    refine ⟨by simp [hun, hi], a, ?_⟩
    simp only [List.append_eq_nil_iff] at hnil
    simp [hnil]
  · simp [hun] at hr

theorem current_answer (h : l.answer P i a = some l') :
    l'.current = l.current := by
  unfold answer at h
  split at h <;> cases h
  rfl

variable {n : Nat}

theorem current_deliver (h : l.deliver n = some l') : l'.current = l.current := by
  unfold deliver at h
  split at h <;> cases h
  rfl

theorem paired_deliver (hl : l.Paired P) (h : l.deliver n = some l') : l'.Paired P := by
  unfold deliver at h
  split at h <;> cases h
  intro r chunks hc
  simpa using hl r chunks hc

theorem paired_reading (hl : l.Paired P) (h : l.progress P = some (.reading l')) :
    l'.Paired P := by
  unfold progress at h
  split at h
  · cases h
  · next r chunks hcur =>
    split at h
    · next n hn =>
      split at h <;> cases h
      intro r' chunks' hc
      cases hc
      have hbytes : (chunks ++ [l.inbox.take n]).flatten ++ (l.inbox.drop n ++ l.wire) =
          chunks.flatten ++ (l.inbox ++ l.wire) := by
        rw [List.flatten_append, List.flatten_singleton, List.append_assoc,
          ← List.append_assoc (l.inbox.take n), List.take_append_drop]
      simp only [hbytes]
      exact hl r chunks hcur
    · cases h
    · cases h

theorem current_reading (h : l.progress P = some (.reading l')) :
    ∃ r chunks chunks', l.current = some (r, chunks) ∧ l'.current = some (r, chunks') := by
  unfold progress at h
  split at h
  · cases h
  · next r chunks hcur =>
    split at h
    · split at h <;> cases h
      exact ⟨r, chunks, _, hcur, rfl⟩
    · cases h
    · cases h

variable {frame : List β}

theorem progress_finished (h : l.progress P = some (.finished r frame l')) :
    ∃ chunks, l.current = some (r, chunks) ∧ P.next r chunks = .done ∧ frame = chunks.flatten ∧
      l' = { l with current := none } := by
  unfold progress at h
  split at h
  · cases h
  · next r' chunks hcur =>
    split at h
    · split at h <;> cases h
    · next hdone =>
      cases h
      exact ⟨chunks, hcur, hdone, rfl, rfl⟩
    · cases h

theorem progress_failed (h : l.progress P = some (.failed r l')) :
    l'.current = none := by
  unfold progress at h
  split at h
  · cases h
  · split at h
    · split at h <;> cases h
    · cases h
    · cases h
      rfl

/-- **Pairing.**  What a client on a paired link takes for the answer to its request is
the beginning of an answer to that request. -/
theorem finished_begins_reply [Nonempty α] (hl : l.Paired P)
    (h : l.progress P = some (.finished r frame l')) : ∃ a, frame <+: P.reply r a := by
  obtain ⟨chunks, hcur, -, rfl, -⟩ := progress_finished h
  rcases hl r chunks hcur with ⟨-, hnil⟩ | ⟨-, a, ha⟩
  · obtain ⟨a⟩ := ‹Nonempty α›
    refine ⟨a, ?_⟩
    rw [(List.append_eq_nil_iff.1 hnil).1]
    exact List.nil_prefix
  · exact ⟨a, ha ▸ List.prefix_append _ _⟩

/-! ### A whole frame -/

end Link

end XEdge.Lib
