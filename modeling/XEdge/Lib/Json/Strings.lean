import Mathlib

/-!
# JSON strings as Python's `json` module reads and writes them

A Python `str` is a list of code points, lone surrogates included.  `json.dumps`
writes it in ASCII: a code point beyond the basic plane becomes two `\u` escapes.
`json.loads` puts two escapes together again when they are a high and a low
surrogate, so a string with such a pair is not one that it returns.
-/

namespace XEdge.Lib.Json

abbrev Text := List Char

/-- A character of a Python `str`. -/
abbrev CodePoint := Fin 0x110000

/-- A Python `str`. -/
abbrev Str := List CodePoint

def codePoint (n : Nat) : CodePoint := ⟨n % 0x110000, Nat.mod_lt _ (by decide)⟩

variable {n : Nat}

theorem val_codePoint (h : n < 0x110000) : (codePoint n).val = n := Nat.mod_eq_of_lt h

@[simp] theorem codePoint_val (c : CodePoint) : codePoint c.val = c :=
  Fin.ext (Nat.mod_eq_of_lt c.isLt)

/-- A text as a Python `str`. -/
def Str.ofText (t : Text) : Str := t.map fun c => codePoint c.toNat

theorem Char.toNat_lt_max (c : Char) : c.toNat < 0x110000 := by
  have hvalid := c.valid
  show c.val.toNat < _
  omega

theorem ofText_injective : Function.Injective Str.ofText := by
  refine List.map_injective_iff.2 fun c d h => ?_
  have hval := congrArg Fin.val h
  simp only [val_codePoint (Char.toNat_lt_max _)] at hval
  exact Char.toNat_inj.1 hval

/-! ## Surrogates -/

def isHigh (c : CodePoint) : Bool := 0xD800 ≤ c.val && c.val < 0xDC00

def isLow (c : CodePoint) : Bool := 0xDC00 ≤ c.val && c.val < 0xE000

def joinPair (h l : CodePoint) : CodePoint :=
  codePoint (0x10000 + (h.val - 0xD800) * 0x400 + (l.val - 0xDC00))

def joinSurrogates : Str → Str
  | [] => []
  | [c] => [c]
  | h :: l :: r =>
      if isHigh h && isLow l then joinPair h l :: joinSurrogates r
      else h :: joinSurrogates (l :: r)

def Joined (s : Str) : Prop := s.IsChain fun h l => (isHigh h && isLow l) = false

variable {s : Str}

theorem joined_of_not_high (h : ∀ c ∈ s, isHigh c = false) : Joined s := by
  refine List.isChain_iff_forall_rel_of_append_cons_cons.2 ?_
  rintro c d l r rfl
  rw [h c (List.mem_append_right _ List.mem_cons_self)]
  rfl

/-- A code point as one or two units below `0x10000`. -/
def units (c : CodePoint) : Str :=
  if c.val < 0x10000 then [c]
  else
    [codePoint (0xD800 + (c.val - 0x10000) / 0x400), codePoint (0xDC00 + (c.val - 0x10000) % 0x400)]

variable {c : CodePoint}

theorem units_of_lt (h : c.val < 0x10000) : units c = [c] := if_pos h

theorem units_of_ge (h : 0x10000 ≤ c.val) :
    ∃ hi lo, units c = [hi, lo] ∧ isHigh hi = true ∧ isLow lo = true ∧ joinPair hi lo = c := by
  have hhi : (codePoint (0xD800 + (c.val - 0x10000) / 0x400)).val =
      0xD800 + (c.val - 0x10000) / 0x400 := val_codePoint (by omega)
  have hlo : (codePoint (0xDC00 + (c.val - 0x10000) % 0x400)).val =
      0xDC00 + (c.val - 0x10000) % 0x400 := val_codePoint (by omega)
  refine ⟨_, _, if_neg (by omega), ?_, ?_, Fin.ext ?_⟩
  · simp only [isHigh, hhi, Bool.and_eq_true, decide_eq_true_eq]
    omega
  · simp only [isLow, hlo, Bool.and_eq_true, decide_eq_true_eq]
    omega
  · rw [joinPair, val_codePoint (by rw [hhi, hlo]; omega), hhi, hlo]
    omega

variable {u : CodePoint}

theorem units_lt (h : u ∈ units c) : u.val < 0x10000 := by
  rcases Nat.lt_or_ge c.val 0x10000 with hc | hc
  · rw [units_of_lt hc, List.mem_singleton] at h
    rw [h]
    exact hc
  · obtain ⟨hi, lo, hu, hhi, hlo, -⟩ := units_of_ge hc
    rw [hu] at h
    simp only [isHigh, isLow, Bool.and_eq_true, decide_eq_true_eq] at hhi hlo
    simp only [List.mem_cons, List.not_mem_nil, or_false] at h
    rcases h with rfl | rfl <;> omega

theorem units_surrogate (h : isHigh c = true ∨ isLow c = true) :
    units c = [c] := by
  refine units_of_lt ?_
  simp only [isHigh, isLow, Bool.and_eq_true, decide_eq_true_eq] at h
  omega

theorem isHigh_of_ge (h : 0x10000 ≤ c.val) : isHigh c = false := by
  simp only [isHigh, Bool.and_eq_false_iff, decide_eq_false_iff_not]
  omega

theorem isLow_of_ge (h : 0x10000 ≤ c.val) : isLow c = false := by
  simp only [isLow, Bool.and_eq_false_iff, decide_eq_false_iff_not]
  omega

variable {h l : CodePoint}

theorem val_joinPair (hh : isHigh h = true) (hl : isLow l = true) :
    (joinPair h l).val = 0x10000 + (h.val - 0xD800) * 0x400 + (l.val - 0xDC00) := by
  simp only [isHigh, isLow, Bool.and_eq_true, decide_eq_true_eq] at hh hl
  exact val_codePoint (by omega)

theorem units_joinPair (hh : isHigh h = true) (hl : isLow l = true) :
    units (joinPair h l) = [h, l] := by
  have hj := val_joinPair hh hl
  simp only [isHigh, isLow, Bool.and_eq_true, decide_eq_true_eq] at hh hl
  unfold units
  rw [if_neg (by omega), hj]
  have h1 : 0xD800 + (0x10000 + (h.val - 0xD800) * 0x400 + (l.val - 0xDC00) - 0x10000) / 0x400 =
      h.val := by omega
  have h2 : 0xDC00 + (0x10000 + (h.val - 0xD800) * 0x400 + (l.val - 0xDC00) - 0x10000) % 0x400 =
      l.val := by omega
  rw [h1, h2, codePoint_val, codePoint_val]

theorem flatMap_units_joinSurrogates (s : Str) :
    (joinSurrogates s).flatMap units = s.flatMap units := by
  fun_induction joinSurrogates s with
  | case1 => rfl
  | case2 c => rfl
  | case3 h l r hpair ih =>
    rw [Bool.and_eq_true] at hpair
    rw [List.flatMap_cons, ih, units_joinPair hpair.1 hpair.2, List.flatMap_cons,
      List.flatMap_cons, units_surrogate (.inl hpair.1), units_surrogate (.inr hpair.2)]
    rfl
  | case4 h l r _ ih => rw [List.flatMap_cons, ih, ← List.flatMap_cons]

theorem joinSurrogates_cons_of_not (h : ∀ l r, s = l :: r → (isHigh c && isLow l) = false) :
    joinSurrogates (c :: s) = c :: joinSurrogates s := by
  cases s with
  | nil => rfl
  | cons l r =>
    rw [joinSurrogates, h l r rfl]
    rfl

theorem isLow_head_units {r : Str} (h : units c = u :: r) :
    isLow u = isLow c := by
  rcases Nat.lt_or_ge c.val 0x10000 with hc | hc
  · rw [units_of_lt hc] at h
    cases h
    rfl
  · obtain ⟨hi, lo, hu, hhi, -⟩ := units_of_ge hc
    rw [hu, List.cons.injEq] at h
    rw [h.1] at hhi
    simp only [isHigh, Bool.and_eq_true, decide_eq_true_eq] at hhi
    have hul : isLow u = false := by
      simp only [isLow, Bool.and_eq_false_iff, decide_eq_false_iff_not]
      omega
    rw [hul, isLow_of_ge hc]

theorem joinSurrogates_flatMap_units (h : Joined s) :
    joinSurrogates (s.flatMap units) = s := by
  induction s with
  | nil => rfl
  | cons c s ih =>
    have hs : Joined s := h.tail
    rw [List.flatMap_cons]
    rcases Nat.lt_or_ge c.val 0x10000 with hc | hc
    · rw [units_of_lt hc, List.singleton_append, joinSurrogates_cons_of_not, ih hs]
      -- the next unit is low only if the next code point is
      intro l r hl
      cases s with
      | nil => cases hl
      | cons d s =>
        obtain ⟨u, us, hu⟩ : ∃ u us, units d = u :: us := by
          unfold units
          split <;> exact ⟨_, _, rfl⟩
        rw [List.flatMap_cons, hu, List.cons_append] at hl
        cases hl
        rw [isLow_head_units hu]
        exact (List.isChain_cons_cons.1 h).1
    · obtain ⟨hi, lo, hu, hhi, hlo, hj⟩ := units_of_ge hc
      rw [hu]
      show joinSurrogates (hi :: lo :: s.flatMap units) = c :: s
      rw [joinSurrogates, hhi, hlo, hj, ih hs]
      rfl

theorem joined_joinSurrogates (s : Str) : Joined (joinSurrogates s) := by
  -- a joined pair is no surrogate, so only the first code points matter
  have hhead : ∀ s : Str, ∀ x xs, joinSurrogates s = x :: xs → ∀ c, s.head? = some c →
      isLow x = true → x = c := by
    intro s
    fun_cases joinSurrogates s with
    | case1 => intro x xs h; cases h
    | case2 c =>
      intro x xs h d hd _
      cases h
      cases hd
      rfl
    | case3 h l r hpair =>
      intro x xs hx c _ hlow
      rw [List.cons.injEq] at hx
      rw [Bool.and_eq_true] at hpair
      rw [← hx.1, isLow_of_ge (by rw [val_joinPair hpair.1 hpair.2]; omega)] at hlow
      cases hlow
    | case4 h l r _ =>
      intro x xs hx c hc _
      cases hx
      cases hc
      rfl
  fun_induction joinSurrogates s with
  | case1 => exact List.IsChain.nil
  | case2 c => exact List.IsChain.singleton c
  | case3 h l r hpair ih =>
    rw [Bool.and_eq_true] at hpair
    cases hr : joinSurrogates r with
    | nil => exact List.IsChain.singleton _
    | cons x xs =>
      rw [hr] at ih
      refine List.isChain_cons_cons.2 ⟨?_, ih⟩
      rw [isHigh_of_ge (by rw [val_joinPair hpair.1 hpair.2]; omega)]
      rfl
  | case4 h l r hpair ih =>
    cases hr : joinSurrogates (l :: r) with
    | nil => exact List.IsChain.singleton _
    | cons x xs =>
      rw [hr] at ih
      refine List.isChain_cons_cons.2 ⟨?_, ih⟩
      by_contra hbad
      rw [Bool.not_eq_false, Bool.and_eq_true] at hbad
      have hx : x = l := hhead (l :: r) x xs hr l rfl hbad.2
      rw [hx] at hbad
      exact hpair (by rw [hbad.1, hbad.2]; rfl)

/-! ## Writing -/

def shortEscape (n : Nat) : Option Char :=
  if n = 0x22 then some '"'
  else if n = 0x5C then some '\\'
  else if n = 0x08 then some 'b'
  else if n = 0x0C then some 'f'
  else if n = 0x0A then some 'n'
  else if n = 0x0D then some 'r'
  else if n = 0x09 then some 't'
  else none

def hexDigit (n : Nat) : Char := if n < 10 then Char.ofNat (48 + n) else Char.ofNat (87 + n)

def hex4 (n : Nat) : Text :=
  [hexDigit (n / 4096 % 16), hexDigit (n / 256 % 16), hexDigit (n / 16 % 16), hexDigit (n % 16)]

def escapeUnit (u : CodePoint) : Text :=
  match shortEscape u.val with
  | some e => ['\\', e]
  | none =>
      if 0x20 ≤ u.val ∧ u.val ≤ 0x7E then [Char.ofNat u.val]
      else '\\' :: 'u' :: hex4 u.val

/-- A string as `json.dumps` writes it between the quotes. -/
def escape (s : Str) : Text := (s.flatMap units).flatMap escapeUnit

theorem escape_joinSurrogates (s : Str) : escape (joinSurrogates s) = escape s := by
  unfold escape
  rw [flatMap_units_joinSurrogates]

def inLine (c : Char) : Bool := c ≠ '\n' && c ≠ '\r'

theorem inLine_of_le {c : Char} (h : 0x20 ≤ c.toNat) : inLine c = true := by
  have hne : c ≠ '\n' ∧ c ≠ '\r' := by
    constructor <;> rintro rfl <;> exact absurd h (by decide)
  simp [inLine, hne.1, hne.2]

theorem inLine_escape (s : Str) : ∀ c ∈ escape s, inLine c = true := by
  intro c hc
  obtain ⟨u, -, hu⟩ := List.mem_flatMap.1 hc
  have hhex : ∀ n : Nat, inLine (hexDigit (n % 16)) = true := by
    intro n
    have hall : ∀ m : Fin 16, inLine (hexDigit m.val) = true := by decide
    exact hall ⟨n % 16, Nat.mod_lt _ (by decide)⟩
  unfold escapeUnit at hu
  split at hu
  · next e he =>
    simp only [List.mem_cons, List.not_mem_nil, or_false] at hu
    rcases hu with rfl | rfl
    · rfl
    · unfold shortEscape at he
      repeat' split at he
      all_goals first | (cases he; rfl) | cases he
  · split at hu
    · next hprint =>
      rw [List.mem_singleton.1 hu]
      refine inLine_of_le ?_
      rw [Char.toNat_ofNat, if_pos (.inl (by omega))]
      exact hprint.1
    · simp only [hex4, List.mem_cons, List.not_mem_nil, or_false] at hu
      rcases hu with rfl | rfl | rfl | rfl | rfl | rfl
      · rfl
      · rfl
      all_goals exact hhex _

/-! ## Reading -/

def hexValue (c : Char) : Option Nat :=
  if 48 ≤ c.toNat ∧ c.toNat ≤ 57 then some (c.toNat - 48)
  else if 97 ≤ c.toNat ∧ c.toNat ≤ 102 then some (c.toNat - 87)
  else if 65 ≤ c.toNat ∧ c.toNat ≤ 70 then some (c.toNat - 55)
  else none

def hexValue4 (a b c d : Char) : Option Nat :=
  match hexValue a, hexValue b, hexValue c, hexValue d with
  | some a, some b, some c, some d => some (((a * 16 + b) * 16 + c) * 16 + d)
  | _, _, _, _ => none

def readShort (e : Char) : Option Nat :=
  if e = '"' then some 0x22
  else if e = '\\' then some 0x5C
  else if e = '/' then some 0x2F
  else if e = 'b' then some 0x08
  else if e = 'f' then some 0x0C
  else if e = 'n' then some 0x0A
  else if e = 'r' then some 0x0D
  else if e = 't' then some 0x09
  else none

def consUnit (n : Nat) (x : Str × Text) : Str × Text := (codePoint n :: x.1, x.2)

def readHex : Text → Option (Nat × Text)
  | h₁ :: h₂ :: h₃ :: h₄ :: r => (hexValue4 h₁ h₂ h₃ h₄).map fun n => (n, r)
  | _ => none

def readEscape : Text → Option (Nat × Text)
  | [] => none
  | e :: t => if e = 'u' then readHex t else (readShort e).map fun n => (n, t)

/-- The units of a string, from behind the opening quote, and what follows the
closing one.  A control character is not allowed.  `fuel` bounds the number of
units. -/
def scanUnits : Nat → Text → Option (Str × Text)
  | 0, _ => none
  | _ + 1, [] => none
  | fuel + 1, c :: s =>
      if c = '"' then some ([], s)
      else if c = '\\' then
        match readEscape s with
        | some (n, r) => (scanUnits fuel r).map (consUnit n)
        | none => none
      else if c.toNat < 0x20 then none
      else (scanUnits fuel s).map (consUnit c.toNat)

/-- `scanstring`: two escapes that are a pair of surrogates are one code point. -/
def scanString (s : Text) : Option (Str × Text) :=
  (scanUnits s.length s).map fun x => (joinSurrogates x.1, x.2)

/-! ## The round trip -/

theorem readShort_shortEscape {e : Char} (h : shortEscape n = some e) :
    readShort e = some n ∧ e ≠ 'u' := by
  unfold shortEscape at h
  repeat' split at h
  all_goals first
    | (cases h; rename_i hn; subst hn; exact ⟨by decide, by decide⟩)
    | cases h

theorem hexValue_hexDigit (h : n < 16) : hexValue (hexDigit n) = some n := by
  have hall : ∀ n : Fin 16, hexValue (hexDigit n.val) = some n.val := by decide
  exact hall ⟨n, h⟩

theorem hexValue4_hex4 (h : n < 0x10000) :
    hexValue4 (hexDigit (n / 4096 % 16)) (hexDigit (n / 256 % 16)) (hexDigit (n / 16 % 16))
      (hexDigit (n % 16)) = some n := by
  unfold hexValue4
  rw [hexValue_hexDigit (Nat.mod_lt _ (by decide)), hexValue_hexDigit (Nat.mod_lt _ (by decide)),
    hexValue_hexDigit (Nat.mod_lt _ (by decide)), hexValue_hexDigit (Nat.mod_lt _ (by decide))]
  simp only [Option.some.injEq]
  omega

theorem scanUnits_printable (hshort : shortEscape u.val = none)
    (hprint : 0x20 ≤ u.val ∧ u.val ≤ 0x7E) (fuel : Nat) (s : Text) :
    scanUnits (fuel + 1) (Char.ofNat u.val :: s) =
      (scanUnits fuel s).map (consUnit u.val) := by
  have hval : (Char.ofNat u.val).toNat = u.val := by
    rw [Char.toNat_ofNat, if_pos]
    exact .inl (by omega)
  have hquote : Char.ofNat u.val ≠ '"' := by
    intro h
    rw [h] at hval
    rw [← hval] at hshort
    exact absurd hshort (by decide)
  have hback : Char.ofNat u.val ≠ '\\' := by
    intro h
    rw [h] at hval
    rw [← hval] at hshort
    exact absurd hshort (by decide)
  rw [scanUnits, if_neg hquote, if_neg hback, if_neg (by omega), hval]

theorem scanUnits_escapeUnit (hu : u.val < 0x10000) (fuel : Nat) (s : Text) :
    scanUnits (fuel + 1) (escapeUnit u ++ s) = (scanUnits fuel s).map (consUnit u.val) := by
  unfold escapeUnit
  split
  · next e he =>
    obtain ⟨hread, hne⟩ := readShort_shortEscape he
    have hesc : readEscape (e :: s) = some (u.val, s) := by
      rw [readEscape, if_neg hne, hread]
      rfl
    show scanUnits (fuel + 1) ('\\' :: e :: s) = _
    rw [scanUnits, if_neg (by decide), if_pos rfl, hesc]
  · next hshort =>
    split
    · next hprint => exact scanUnits_printable hshort hprint fuel s
    · have hesc : readEscape ('u' :: (hex4 u.val ++ s)) = some (u.val, s) := by
        rw [readEscape, if_pos rfl]
        simp only [hex4, List.cons_append, List.nil_append, readHex, hexValue4_hex4 hu,
          Option.map_some]
      show scanUnits (fuel + 1) ('\\' :: 'u' :: (hex4 u.val ++ s)) = _
      rw [scanUnits, if_neg (by decide), if_pos rfl, hesc]

theorem escapeUnit_ne_nil (u : CodePoint) : escapeUnit u ≠ [] := by
  unfold escapeUnit
  split
  · simp
  · split <;> simp

variable {fuel : Nat}

theorem scanUnits_flatMap {us : Str} (h : ∀ u ∈ us, u.val < 0x10000) (r : Text)
    (hfuel : (us.flatMap escapeUnit).length < fuel) :
    scanUnits fuel (us.flatMap escapeUnit ++ '"' :: r) = some (us, r) := by
  induction us generalizing fuel with
  | nil =>
    cases fuel with
    | zero => cases hfuel
    | succ fuel => rfl
  | cons u us ih =>
    rw [List.flatMap_cons, List.length_append] at hfuel
    have hpos : 0 < (escapeUnit u).length := List.length_pos_of_ne_nil (escapeUnit_ne_nil u)
    cases fuel with
    | zero => cases hfuel
    | succ fuel =>
      rw [List.flatMap_cons, List.append_assoc,
        scanUnits_escapeUnit (h u (List.mem_cons_self ..)),
        ih (fun v hv => h v (List.mem_cons_of_mem _ hv)) (by omega)]
      show some (codePoint u.val :: us, r) = _
      rw [codePoint_val]

theorem scanString_escape (s : Str) (r : Text) :
    scanString (escape s ++ '"' :: r) = some (joinSurrogates s, r) := by
  have hlt : ∀ u ∈ (joinSurrogates s).flatMap units, u.val < 0x10000 := by
    intro u hu
    obtain ⟨c, -, hc⟩ := List.mem_flatMap.1 hu
    exact units_lt hc
  have hfuel : (((joinSurrogates s).flatMap units).flatMap escapeUnit).length <
      (((joinSurrogates s).flatMap units).flatMap escapeUnit ++ '"' :: r).length := by
    rw [List.length_append, List.length_cons]
    omega
  rw [← escape_joinSurrogates, scanString, escape, scanUnits_flatMap hlt r hfuel,
    Option.map_some, joinSurrogates_flatMap_units (joined_joinSurrogates s)]

variable {r : Text} {x : Str}

theorem joined_of_scanString {s : Text} (h : scanString s = some (x, r)) :
    Joined x := by
  obtain ⟨⟨us, r'⟩, -, hx⟩ := Option.map_eq_some_iff.1 h
  cases hx
  exact joined_joinSurrogates us

theorem joinSurrogates_of_joined (h : Joined s) : joinSurrogates s = s := by
  induction s with
  | nil => rfl
  | cons c s ih =>
    rw [joinSurrogates_cons_of_not, ih h.tail]
    rintro l r rfl
    exact (List.isChain_cons_cons.1 h).1

/-! ## Locality -/

theorem readEscape_local {s : Text} (h : readEscape s = some (n, r)) :
    ∃ p, s = p ++ r ∧ p ≠ [] ∧ ∀ u, readEscape (p ++ u) = some (n, u) := by
  unfold readEscape at h
  split at h
  · cases h
  · next e t =>
    split at h
    · next he =>
      subst he
      unfold readHex at h
      split at h
      · next h₁ h₂ h₃ h₄ r' =>
        obtain ⟨m, hm, hx⟩ := Option.map_eq_some_iff.1 h
        cases hx
        refine ⟨['u', h₁, h₂, h₃, h₄], rfl, by simp, fun u => ?_⟩
        simp [readEscape, readHex, hm]
      · cases h
    · next he =>
      obtain ⟨m, hm, hx⟩ := Option.map_eq_some_iff.1 h
      cases hx
      refine ⟨[e], rfl, by simp, fun u => ?_⟩
      simp [readEscape, he, hm]

/-- What is read of a string is determined by the text that is consumed, and so is
the fuel that it takes. -/
theorem scanUnits_local {s : Text} (h : scanUnits fuel s = some (x, r)) :
    ∃ p, s = p ++ r ∧ ∀ u m, p.length ≤ m → scanUnits m (p ++ u) = some (x, u) := by
  fun_induction scanUnits fuel s generalizing x r with
  | case1 => cases h
  | case2 => cases h
  | case3 fuel s =>
    cases h
    refine ⟨['"'], rfl, fun u m hm => ?_⟩
    obtain ⟨m, rfl⟩ := Nat.exists_eq_add_of_lt hm
    simp [scanUnits]
  | case4 fuel s n t hesc hc ih =>
    obtain ⟨⟨x', r'⟩, hx', hx⟩ := Option.map_eq_some_iff.1 h
    cases hx
    obtain ⟨q, hq, hne, hqlocal⟩ := readEscape_local hesc
    obtain ⟨p, rfl, hp⟩ := ih hx'
    refine ⟨'\\' :: (q ++ p), by rw [hq]; simp, fun u m hm => ?_⟩
    rw [List.length_cons, List.length_append] at hm
    cases m with
    | zero => omega
    | succ m =>
      have hrest := hp u m (by omega)
      have hesc' := hqlocal (p ++ u)
      rw [← List.append_assoc] at hesc'
      show scanUnits (m + 1) ('\\' :: (q ++ p ++ u)) = _
      rw [scanUnits, if_neg hc, if_pos rfl, hesc']
      simp only [hrest, Option.map_some]
      rfl
  | case5 => cases h
  | case6 => cases h
  | case7 fuel c s hc hb hlow ih =>
    obtain ⟨⟨x', r'⟩, hx', hx⟩ := Option.map_eq_some_iff.1 h
    cases hx
    obtain ⟨p, rfl, hp⟩ := ih hx'
    refine ⟨c :: p, rfl, fun u m hm => ?_⟩
    rw [List.length_cons] at hm
    cases m with
    | zero => omega
    | succ m =>
      show scanUnits (m + 1) (c :: (p ++ u)) = _
      rw [scanUnits, if_neg hc, if_neg hb, if_neg hlow, hp u m (by omega)]
      rfl

theorem scanString_local {s : Text} (h : scanString s = some (x, r)) :
    ∃ p, s = p ++ r ∧ ∀ u, scanString (p ++ u) = some (x, u) := by
  obtain ⟨⟨us, r'⟩, hus, hx⟩ := Option.map_eq_some_iff.1 h
  cases hx
  obtain ⟨p, hp, hlocal⟩ := scanUnits_local hus
  refine ⟨p, hp, fun u => ?_⟩
  rw [scanString, hlocal u _ (by rw [List.length_append]; omega)]
  rfl

end XEdge.Lib.Json
