import XEdge.Lib.Floats
import XEdge.Lib.Json.Numbers

/-!
# Numbers in decimal

`printf` with `%.17g` writes the nearest number with seventeen significant digits, and leaves out
the zeros at its end.
-/

namespace XEdge.Lib

namespace Decimal

open Json (Text natText natValue)

/-! ## Digits -/

def AllDigits (t : Text) : Prop := ∀ c ∈ t, c.isDigit = true

variable {t : Text}

theorem AllDigits.append {s : Text} (hs : AllDigits s) (ht : AllDigits t) :
    AllDigits (s ++ t) := by
  intro c hc
  rcases List.mem_append.1 hc with h | h
  · exact hs c h
  · exact ht c h

theorem allDigits_zeros (k : Nat) : AllDigits (List.replicate k '0') := by
  intro c hc
  rw [List.eq_of_mem_replicate hc]
  rfl

def Printable (c : Char) : Prop := 0x20 ≤ c.toNat ∧ c.toNat < 0x7F

instance (c : Char) : Decidable (Printable c) :=
  inferInstanceAs (Decidable (0x20 ≤ c.toNat ∧ c.toNat < 0x7F))

theorem printable_of_all (h : t.all (fun c => decide (Printable c)) = true) :
    ∀ c ∈ t, Printable c :=
  fun c hc => of_decide_eq_true (List.all_eq_true.1 h c hc)

theorem printable_digit {c : Char} (h : c.isDigit = true) : Printable c := by
  have hbounds : 48 ≤ c.toNat ∧ c.toNat ≤ 57 := by
    rw [Char.isDigit, Bool.and_eq_true, decide_eq_true_eq, decide_eq_true_eq] at h
    exact ⟨UInt32.le_iff_toNat_le.1 h.1, UInt32.le_iff_toNat_le.1 h.2⟩
  rw [Printable]
  omega

theorem printable_intText (i : Int) : ∀ c ∈ Json.intText i, Printable c := by
  intro c hc
  cases i with
  | ofNat n => exact printable_digit (Json.isDigit_natText n c hc)
  | negSucc n =>
    rcases List.mem_cons.1 hc with rfl | hc
    · decide
    · exact printable_digit (Json.isDigit_natText _ c hc)

def stripZeros (t : Text) : Text := t.rdropWhile (· = '0')

theorem stripZeros_isPrefix (t : Text) : stripZeros t <+: t := List.rdropWhile_prefix _ t

theorem AllDigits.stripZeros (h : AllDigits t) : AllDigits (stripZeros t) :=
  fun c hc => h c ((stripZeros_isPrefix t).subset hc)

/-! ## Number texts -/

/-- The exponent: its sign, and two digits at least. -/
def exponentText (e : Int) : Text :=
  (if e < 0 then '-' else '+') ::
    (if e.natAbs < 10 then '0' :: natText e.natAbs else natText e.natAbs)

structure Numeral where
  whole : Text
  decimals : Text
  power : Option Int
  whole_digits : AllDigits whole
  whole_form : whole = ['0'] ∨ ∃ c t, whole = c :: t ∧ c ≠ '0'
  decimals_digits : AllDigits decimals

namespace Numeral

def fraction (N : Numeral) : Text := if N.decimals = [] then [] else '.' :: N.decimals

def powerText (N : Numeral) : Text := N.power.elim [] fun e => 'e' :: exponentText e

def text (N : Numeral) : Text := N.whole ++ (N.fraction ++ N.powerText)

end Numeral

theorem printable_exponentText (e : Int) : ∀ c ∈ exponentText e, Printable c := by
  intro c hc
  rcases List.mem_cons.1 hc with rfl | hc
  · split <;> decide
  · split at hc
    · rcases List.mem_cons.1 hc with rfl | hc
      · decide
      · exact printable_digit (Json.isDigit_natText _ c hc)
    · exact printable_digit (Json.isDigit_natText _ c hc)

namespace Numeral

variable (N : Numeral)

def signed (negative : Bool) : Text := if negative then '-' :: N.text else N.text

theorem printable_signed (negative : Bool) : ∀ c ∈ N.signed negative, Printable c := by
  have hfraction : ∀ c ∈ N.fraction, Printable c := by
    intro c hc
    rw [fraction] at hc
    split at hc
    · cases hc
    · rcases List.mem_cons.1 hc with rfl | hc
      · decide
      · exact printable_digit (N.decimals_digits c hc)
  have hpower : ∀ c ∈ N.powerText, Printable c := by
    rw [powerText]
    cases N.power with
    | none =>
      intro c hc
      cases hc
    | some e =>
      intro c hc
      rcases List.mem_cons.1 hc with rfl | hc
      · decide
      · exact printable_exponentText e c hc
  have htext : ∀ c ∈ N.text, Printable c := by
    intro c hc
    rcases List.mem_append.1 hc with h | h
    · exact printable_digit (N.whole_digits c h)
    · rcases List.mem_append.1 h with h | h
      · exact hfraction c h
      · exact hpower c h
  intro c hc
  cases negative with
  | true =>
    rcases List.mem_cons.1 hc with rfl | hc
    · decide
    · exact htext c hc
  | false => exact htext c hc

end Numeral

/-! ## `printf` with `%g` -/

/-- The nearest number of `p` digits, and the decimal exponent of its first digit. -/
def significant (p : Nat) (x : ℚ) : Nat × Int :=
  let e := Int.log 10 x
  let m := (roundHalfEven (x * 10 ^ ((p : Int) - 1 - e))).toNat
  -- rounding can lead to the next power of ten
  if m = 10 ^ p then (10 ^ (p - 1), e + 1) else (m, e)

theorem wholeForm_take (m k : Nat) :
    (natText m).take (k + 1) = ['0'] ∨ ∃ c t, (natText m).take (k + 1) = c :: t ∧ c ≠ '0' := by
  rcases Json.natText_cases m with h | ⟨c, t, h, hc⟩
  · exact .inl (by simp [h])
  · exact .inr ⟨c, t.take k, by rw [h, List.take_succ_cons], hc⟩

theorem allDigits_take (m k : Nat) : AllDigits ((natText m).take k) :=
  fun c hc => Json.isDigit_natText m c (List.mem_of_mem_take hc)

theorem allDigits_drop (m k : Nat) : AllDigits ((natText m).drop k) :=
  fun c hc => Json.isDigit_natText m c (List.mem_of_mem_drop hc)

/-- The digits `m` of a number with the decimal exponent `e`. -/
def layout (p m : Nat) (e : Int) : Numeral :=
  if e < -4 ∨ p ≤ e then
    { whole := (natText m).take 1
      decimals := stripZeros ((natText m).drop 1)
      power := some e
      whole_digits := allDigits_take m 1
      whole_form := wholeForm_take m 0
      decimals_digits := (allDigits_drop m 1).stripZeros }
  else if e < 0 then
    { whole := ['0']
      decimals := stripZeros (List.replicate ((-e).toNat - 1) '0' ++ natText m)
      power := none
      whole_digits := allDigits_zeros 1
      whole_form := .inl rfl
      decimals_digits := ((allDigits_zeros _).append (Json.isDigit_natText m)).stripZeros }
  else
    { whole := (natText m).take (e.toNat + 1)
      decimals := stripZeros ((natText m).drop (e.toNat + 1))
      power := none
      whole_digits := allDigits_take m _
      whole_form := wholeForm_take m _
      decimals_digits := (allDigits_drop m _).stripZeros }

/-- `printf` with `%.<p>g`, of a number other than zero. -/
def printG (p : Nat) (x : ℚ) : Text :=
  (layout p (significant p |x|).1 (significant p |x|).2).signed (x < 0)

section Significant

variable {p : Nat} (hp : 0 < p) {x : ℚ} (hx : 0 < x)

include hp hx

end Significant

/-! ### The room that the text takes -/

end Decimal

end XEdge.Lib
