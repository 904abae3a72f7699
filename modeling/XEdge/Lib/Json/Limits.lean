import XEdge.Lib.Except
import XEdge.Lib.Json

/-!
# What `json.loads` raises

`json.loads` goes through the text from left to right and stops at the first thing that it cannot
read.  That is a `JSONDecodeError` where the text is no JSON, a `ValueError` where an integer has
more digits than `int` converts, and a `RecursionError` where a list or an object begins that is
nested deeper than the interpreter allows.
-/

namespace XEdge.Lib.Json

/-- What `json.loads` raises. -/
inductive LoadError where
  /-- `JSONDecodeError`. -/
  | decode
  /-- `ValueError`: too many digits. -/
  | digits
  /-- `RecursionError`. -/
  | recursion
  deriving DecidableEq

structure Limits where
  /-- `sys.get_int_max_str_digits()`. -/
  digits : Nat
  levels : Nat

/-- What is there, or a `JSONDecodeError`. -/
def orDecode {α : Type} : Option α → Except LoadError α
  | some a => .ok a
  | none => .error .decode

section Reading

variable (F : FloatFormat) (digits : Nat)

def readScalar (s : Text) : Except LoadError (Value × Text) :=
  match lexNumber s with
  | some (t, false, _) =>
      if digits < (t.filter Char.isDigit).length then .error .digits else orDecode (scalar F s)
  | _ => orDecode (scalar F s)

mutual

def readValue : Nat → Nat → Text → Except LoadError (Value × Text)
  | 0, _, _ => .error .decode
  | _ + 1, _, [] => .error .decode
  | fuel + 1, levels, c :: s =>
      if c = '"' then orDecode ((scanString s).map fun x => (.str x.1, x.2))
      else if c = '[' then
        if levels = 0 then .error .recursion
        else
          match expect ']' (skipWs s) with
          | some r => .ok (.arr [], r)
          | none => (readItems fuel (levels - 1) s).map fun x => (.arr x.1, x.2)
      else if c = '\x7b' then
        if levels = 0 then .error .recursion
        else
          match expect '\x7d' (skipWs s) with
          | some r => .ok (.obj [], r)
          | none =>
              (readMembers fuel (levels - 1) s).map fun x => (.obj (Dict.ofList x.1).entries, x.2)
      else readScalar F digits (c :: s)

def readItems : Nat → Nat → Text → Except LoadError (List Value × Text)
  | 0, _, _ => .error .decode
  | fuel + 1, levels, s =>
      match readValue fuel levels (skipWs s) with
      | .error e => .error e
      | .ok (v, r) =>
          match after ']' r with
          | none => .error .decode
          | some (.closed r) => .ok ([v], r)
          | some (.more r) => (readItems fuel levels r).map fun x => (v :: x.1, x.2)

def readMembers : Nat → Nat → Text → Except LoadError (Members × Text)
  | 0, _, _ => .error .decode
  | fuel + 1, levels, s =>
      match key s with
      | none => .error .decode
      | some (k, t) =>
          match readValue fuel levels t with
          | .error e => .error e
          | .ok (v, r) =>
              match after '\x7d' r with
              | none => .error .decode
              | some (.closed r) => .ok ([(k, v)], r)
              | some (.more r) => (readMembers fuel levels r).map fun x => ((k, v) :: x.1, x.2)

end

/-- `json.loads`, with what it raises. -/
def loadsWithin (L : Limits) (s : Text) : Except LoadError Value :=
  match readValue F L.digits (2 * s.length + 1) L.levels (skipWs s) with
  | .error e => .error e
  | .ok (v, r) => if skipWs r = [] then .ok v else .error .decode

end Reading

/-! ## Elements in a row -/

def readSequence {α : Type} (close : Char) (rest : Text → Except LoadError (List α × Text)) :
    Except LoadError (α × Text) → Except LoadError (List α × Text)
  | .error e => .error e
  | .ok (x, r) =>
      match after close r with
      | none => .error .decode
      | some (.closed r) => .ok ([x], r)
      | some (.more r) => (rest r).map fun xs => (x :: xs.1, xs.2)

variable {F : FloatFormat} {digits : Nat}

theorem readItems_succ (fuel levels : Nat) (s : Text) :
    readItems F digits (fuel + 1) levels s = readSequence ']' (readItems F digits fuel levels)
      (readValue F digits fuel levels (skipWs s)) := by
  rw [readItems]
  cases readValue F digits fuel levels (skipWs s) <;> rfl

/-! ## The fuel is enough -/

/-! ## `loads` and its limits -/

variable {L : Limits}

/-! ## Nesting -/

theorem readValue_deep (n : Nat) (t : Text) {fuel : Nat} (hfuel : 2 * n + 1 ≤ fuel) :
    readValue F digits fuel n (List.replicate (n + 1) '[' ++ t) = .error .recursion := by
  induction n generalizing fuel with
  | zero =>
    obtain ⟨k, rfl⟩ : ∃ k, fuel = k + 1 := ⟨fuel - 1, by omega⟩
    rfl
  | succ n ih =>
    obtain ⟨k, rfl⟩ : ∃ k, fuel = k + 2 := ⟨fuel - 2, by omega⟩
    have hinner := ih (show 2 * n + 1 ≤ k by omega)
    rw [List.replicate_succ, List.cons_append] at hinner
    rw [List.replicate_succ, List.cons_append, List.replicate_succ, List.cons_append, readValue,
      if_neg (by decide), if_pos rfl, if_neg (Nat.succ_ne_zero n), skipWs_cons rfl]
    show (readItems F digits (k + 1) n _).map _ = _
    rw [readItems_succ, skipWs_cons rfl, hinner]
    rfl

/-- **Opening brackets, one more than the limit, are nested too deep**, whatever follows. -/
theorem loadsWithin_deep (F : FloatFormat) (L : Limits) (t : Text) :
    loadsWithin F L (List.replicate (L.levels + 1) '[' ++ t) = .error .recursion := by
  have hskip : skipWs (List.replicate (L.levels + 1) '[' ++ t) =
      List.replicate (L.levels + 1) '[' ++ t := by
    exact skipWs_cons rfl _
  rw [loadsWithin, hskip, readValue_deep]
  rw [List.length_append, List.length_replicate]
  omega

/-! ## Integers -/

theorem head_intText (i : Int) : ∃ c t, intText i = c :: t ∧ (c.isDigit = true ∨ c = '-') := by
  cases i with
  | ofNat n =>
    obtain ⟨c, t, h⟩ := List.exists_cons_of_ne_nil (natText_ne_nil n)
    refine ⟨c, t, h, .inl (isDigit_natText n c ?_)⟩
    rw [h]
    exact List.mem_cons_self
  | negSucc n => exact ⟨'-', natText (n + 1), rfl, .inr rfl⟩

theorem loadsWithin_intText (F : FloatFormat) {L : Limits} {i : Int}
    (h : ((intText i).filter Char.isDigit).length ≤ L.digits) :
    loadsWithin F L (intText i) = .ok (.int i) := by
  have hlex := lexNumber_intText i (u := []) (fun c r h => by cases h)
  rw [List.append_nil] at hlex
  have hscalar : readScalar F L.digits (intText i) = .ok (.int i, []) := by
    rw [readScalar, hlex]
    show (if L.digits < _ then _ else orDecode (scalar F (intText i))) = _
    rw [if_neg (not_lt.2 h), scalar, hlex]
    show Except.ok (Value.int (intValue (intText i)), _) = _
    rw [intValue_intText]
  obtain ⟨c, t, htext, hc⟩ := head_intText i
  have hplain : isWs c = false ∧ c ≠ '"' ∧ c ≠ '[' ∧ c ≠ '\x7b' := by
    obtain hdigit | rfl := hc
    · refine ⟨?_, ?_, ?_, ?_⟩
      · by_contra hws
        simp only [isWs, Bool.not_eq_false, Bool.or_eq_true, decide_eq_true_eq] at hws
        rcases hws with ((rfl | rfl) | rfl) | rfl <;> exact absurd hdigit (by decide)
      all_goals
        rintro rfl
        exact absurd hdigit (by decide)
    · decide
  rw [htext] at hscalar ⊢
  rw [loadsWithin, skipWs_cons hplain.1, readValue, if_neg hplain.2.1, if_neg hplain.2.2.1,
    if_neg hplain.2.2.2, hscalar]
  rfl

end XEdge.Lib.Json
