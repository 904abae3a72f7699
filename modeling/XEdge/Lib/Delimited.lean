import XEdge.Lib.Except

/-!
# Streams of items that say where they end

A reader takes one item off the front of a stream and leaves the rest.  Where every item takes
something off, the reader can be run until nothing is left.  A reader is self-delimiting if what it
takes off is taken whatever follows, and missed if the end is cut off (`Reads`).
-/

namespace XEdge.Lib

section SelfDelimiting

variable {α β γ ε : Type}

/-- The reader takes `b` for `x`, whatever follows, and raises if the end of `b` is missing. -/
structure Reads (read : List β → Except ε (α × List β)) (b : List β) (x : α) : Prop where
  append : ∀ rest, read (b ++ rest) = .ok (x, rest)
  truncated : ∀ q r, b = q ++ r → r ≠ [] → ∃ e, read q = .error e

def SelfDelimiting (read : List β → Except ε (α × List β)) : Prop :=
  ∀ s x rest, read s = .ok (x, rest) → ∃ b, s = b ++ rest ∧ Reads read b x

variable {read : List β → Except ε (α × List β)} {next : α → List β → Except ε (γ × List β)}

theorem Reads.bind {b b' : List β} {x : α} {y : γ} (h : Reads read b x)
    (h' : Reads (next x) b' y) : Reads (fun s => read s >>= fun r => next r.1 r.2) (b ++ b') y where
  append rest := by
    rw [List.append_assoc, h.append]
    exact h'.append rest
  truncated q r heq hr := by
    rcases List.append_eq_append_iff.1 heq with ⟨m, rfl, hm⟩ | ⟨m, hb, hm⟩
    · obtain ⟨e, he⟩ := h'.truncated m r hm hr
      exact ⟨e, by rw [h.append]; exact he⟩
    · rcases eq_or_ne m [] with rfl | hne
      · -- the cut is between the two
        obtain ⟨e, he⟩ := h'.truncated [] r hm.symm hr
        have hread := h.append []
        rw [List.append_nil] at hb hread
        exact ⟨e, by rw [← hb, hread]; exact he⟩
      · obtain ⟨e, he⟩ := h.truncated q m hb hne
        exact ⟨e, by rw [he]; rfl⟩

theorem SelfDelimiting.bind (h : SelfDelimiting read) (h' : ∀ x, SelfDelimiting (next x)) :
    SelfDelimiting fun s => read s >>= fun r => next r.1 r.2 := by
  intro s y rest hs
  obtain ⟨⟨x, mid⟩, hx, hy⟩ := bind_eq_ok.1 hs
  obtain ⟨b, rfl, hb⟩ := h s x mid hx
  obtain ⟨b', rfl, hb'⟩ := h' x mid y rest hy
  exact ⟨b ++ b', (List.append_assoc ..).symm, hb.bind hb'⟩

theorem SelfDelimiting.map (h : SelfDelimiting read) (f : α → γ) :
    SelfDelimiting fun s => (read s).map fun r => (f r.1, r.2) := by
  intro s y rest hs
  obtain ⟨⟨x, rest'⟩, hx, hy⟩ := map_eq_ok.1 hs
  cases hy
  obtain ⟨b, hs, hb⟩ := h s x rest' hx
  refine ⟨b, hs, fun rest => by rw [hb.append]; rfl, fun q r heq hr => ?_⟩
  obtain ⟨e, he⟩ := hb.truncated q r heq hr
  exact ⟨e, by rw [he]; rfl⟩

theorem SelfDelimiting.reads {b : List β} {x : α} (h : SelfDelimiting read)
    (hx : read b = .ok (x, [])) : Reads read b x := by
  obtain ⟨b', rfl, hb⟩ := h b x [] hx
  rwa [List.append_nil]

end SelfDelimiting

/-- A reader of items `α` from a stream of `β`, which may raise an `ε`. -/
structure Reader (α β ε : Type) where
  read : List β → Except ε (α × List β)
  consumes : ∀ {s : List β} {x : α} {rest : List β},
    read s = .ok (x, rest) → rest.length < s.length

namespace Reader

variable {α β ε : Type} (R : Reader α β ε)

def readAll (s : List β) : Except ε (List α) :=
  match s with
  | [] => .ok []
  | b :: s =>
      match h : R.read (b :: s) with
      | .error e => .error e
      | .ok (x, rest) =>
          have : rest.length ≤ s.length := Nat.le_of_lt_succ (R.consumes h)
          (readAll rest).map (x :: ·)
termination_by s.length

@[simp] theorem readAll_nil : R.readAll [] = .ok [] := by
  rw [readAll]

/-- Read so many items; the rest of the stream is left. -/
def readMany : Nat → List β → Except ε (List α × List β)
  | 0, s => .ok ([], s)
  | n + 1, s => do
      let (x, s) ← R.read s
      let (xs, s) ← readMany n s
      .ok (x :: xs, s)

theorem readAll_of_read {s rest : List β} {x : α} (h : R.read s = .ok (x, rest)) :
    R.readAll s = (R.readAll rest).map (x :: ·) := by
  cases s with
  | nil => exact absurd (R.consumes h) (Nat.not_lt_zero _)
  | cons b s =>
    rw [readAll]
    split
    · next e he =>
      rw [h] at he
      cases he
    · next y rest' hread =>
      rw [h] at hread
      cases hread
      rfl

variable {R} {γ : Type} {encode : γ → List β} {item : γ → α}
  (hread : ∀ m rest, R.read (encode m ++ rest) = .ok (item m, rest))

include hread

theorem readAll_flatMap (ms : List γ) : R.readAll (ms.flatMap encode) = .ok (ms.map item) := by
  induction ms with
  | nil => exact R.readAll_nil
  | cons m ms ih =>
    rw [List.flatMap_cons, R.readAll_of_read (hread m _), ih]
    rfl

theorem readMany_flatMap (ms : List γ) (rest : List β) :
    R.readMany ms.length (ms.flatMap encode ++ rest) = .ok (ms.map item, rest) := by
  induction ms with
  | nil => rfl
  | cons m ms ih =>
    rw [List.flatMap_cons, List.append_assoc, List.length_cons, readMany, hread]
    show (R.readMany ms.length (ms.flatMap encode ++ rest) >>= _) = _
    rw [ih]
    rfl

end Reader

end XEdge.Lib
