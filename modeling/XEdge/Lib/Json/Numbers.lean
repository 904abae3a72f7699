import XEdge.Lib.Json.Strings

/-!
# JSON numbers as Python's `json` module reads and writes them

A number text is an integer part, then a fraction and an exponent that may be
missing; with neither it is an `int`, otherwise a `float`.  The reader takes the
longest such text: a dot without digits behind it is not part of the number.
-/

namespace XEdge.Lib.Json

/-! ## Integers -/

def natText (n : Nat) : Text :=
  if n = 0 then ['0'] else (Nat.digits 10 n).reverse.map fun d => Char.ofNat (48 + d)

def intText : Int → Text
  | .ofNat n => natText n
  | .negSucc n => '-' :: natText (n + 1)

def natValue (t : Text) : Nat := t.foldl (fun n c => n * 10 + (c.toNat - 48)) 0

def intValue : Text → Int
  | [] => 0
  | c :: t => if c = '-' then -(natValue t : Int) else natValue (c :: t)

variable {d : Nat}

theorem toNat_digit (h : d < 10) : (Char.ofNat (48 + d)).toNat = 48 + d := by
  rw [Char.toNat_ofNat, if_pos (.inl (by omega))]

theorem isDigit_digit (h : d < 10) : (Char.ofNat (48 + d)).isDigit = true := by
  have hall : ∀ d : Fin 10, (Char.ofNat (48 + d.val)).isDigit = true := by decide
  exact hall ⟨d, h⟩

theorem natValue_reverse {ds : List Nat} (h : ∀ d ∈ ds, d < 10) :
    natValue (ds.reverse.map fun d => Char.ofNat (48 + d)) = Nat.ofDigits 10 ds := by
  unfold natValue
  rw [List.map_reverse, List.foldl_reverse]
  induction ds with
  | nil => rfl
  | cons d ds ih =>
    rw [List.map_cons, List.foldr_cons, ih fun e he => h e (List.mem_cons_of_mem _ he),
      toNat_digit (h d (List.mem_cons_self ..)), Nat.ofDigits_cons]
    omega

theorem natValue_natText (n : Nat) : natValue (natText n) = n := by
  unfold natText
  split
  · next h =>
    rw [h]
    rfl
  · rw [natValue_reverse fun d hd => Nat.digits_lt_base (by decide) hd, Nat.ofDigits_digits]

theorem isDigit_natText (n : Nat) : ∀ c ∈ natText n, c.isDigit = true := by
  intro c hc
  unfold natText at hc
  split at hc
  · rw [List.mem_singleton.1 hc]
    rfl
  · obtain ⟨d, hd, rfl⟩ := List.mem_map.1 hc
    exact isDigit_digit (Nat.digits_lt_base (by decide) (List.mem_reverse.1 hd))

theorem natText_cases (n : Nat) :
    natText n = ['0'] ∨ ∃ c t, natText n = c :: t ∧ c ≠ '0' := by
  unfold natText
  split
  · exact .inl rfl
  · next hn =>
    right
    have hne : Nat.digits 10 n ≠ [] := Nat.digits_ne_nil_iff_ne_zero.2 hn
    have hlast : (Nat.digits 10 n).getLast hne ≠ 0 := Nat.getLast_digit_ne_zero 10 hn
    have hlt : (Nat.digits 10 n).getLast hne < 10 :=
      Nat.digits_lt_base (by decide) (List.getLast_mem hne)
    refine ⟨Char.ofNat (48 + (Nat.digits 10 n).getLast hne),
      (Nat.digits 10 n).dropLast.reverse.map fun d => Char.ofNat (48 + d), ?_, ?_⟩
    · conv_lhs => rw [← List.dropLast_append_getLast hne, List.reverse_append]
      rfl
    · intro h
      have hval := toNat_digit hlt
      rw [h] at hval
      exact hlast (by simpa using hval.symm)

theorem natText_ne_nil (n : Nat) : natText n ≠ [] := by
  rcases natText_cases n with h | ⟨c, t, h, -⟩ <;> rw [h] <;> simp

theorem intValue_intText (i : Int) : intValue (intText i) = i := by
  cases i with
  | ofNat n =>
    show intValue (natText n) = n
    obtain ⟨c, t, h⟩ := List.exists_cons_of_ne_nil (natText_ne_nil n)
    have hdigit : c.isDigit = true := isDigit_natText n c (by rw [h]; exact List.mem_cons_self ..)
    have hc : c ≠ '-' := by
      rintro rfl
      exact absurd hdigit (by decide)
    have hval := natValue_natText n
    rw [h] at hval ⊢
    rw [intValue, if_neg hc, hval]
  | negSucc n =>
    show intValue ('-' :: natText (n + 1)) = _
    rw [intValue, if_pos rfl, natValue_natText]
    rfl

/-! ## Taking a number off a text -/

def numberChar (c : Char) : Bool := c.isDigit || c = '.' || c = 'e' || c = 'E'

def Stops (t : Text) : Prop := ∀ c r, t = c :: r → numberChar c = false

def lexNat : Text → Option (Text × Text)
  | [] => none
  | c :: s =>
      if c = '0' then some (['0'], s)
      else if c.isDigit then some (c :: s.takeWhile Char.isDigit, s.dropWhile Char.isDigit)
      else none

def lexInt : Text → Option (Text × Text)
  | [] => none
  | c :: s =>
      if c = '-' then (lexNat s).map fun x => ('-' :: x.1, x.2)
      else lexNat (c :: s)

/-- Digits behind what has been taken; without a digit nothing is taken. -/
def lexDigits (taken s rest : Text) : Text × Text :=
  if s.takeWhile Char.isDigit = [] then ([], rest)
  else (taken ++ s.takeWhile Char.isDigit, s.dropWhile Char.isDigit)

def lexFrac : Text → Text × Text
  | [] => ([], [])
  | c :: s => if c = '.' then lexDigits ['.'] s (c :: s) else ([], c :: s)

def lexPower (c : Char) : Text → Text × Text
  | [] => ([], [c])
  | d :: s =>
      if d = '+' ∨ d = '-' then lexDigits [c, d] s (c :: d :: s)
      else lexDigits [c] (d :: s) (c :: d :: s)

def lexExp : Text → Text × Text
  | [] => ([], [])
  | c :: s => if c = 'e' ∨ c = 'E' then lexPower c s else ([], c :: s)

/-- The number text at the beginning, whether it is a `float`, and what follows. -/
def lexNumber (s : Text) : Option (Text × Bool × Text) :=
  match lexInt s with
  | none => none
  | some (i, r) =>
      let f := lexFrac r
      let e := lexExp f.2
      some (i ++ (f.1 ++ e.1), !(f.1.isEmpty && e.1.isEmpty), e.2)

/-! ## Locality -/

variable {t : Text}

theorem Stops.not_digit (h : Stops t) : t.takeWhile Char.isDigit = [] := by
  cases t with
  | nil => rfl
  | cons c r =>
    have hc := h c r rfl
    simp only [numberChar, Bool.or_eq_false_iff] at hc
    simp [hc.1.1.1]

variable {p u : Text}

theorem takeWhile_digits (hp : ∀ c ∈ p, c.isDigit = true) (hu : u.takeWhile Char.isDigit = []) :
    (p ++ u).takeWhile Char.isDigit = p ∧ (p ++ u).dropWhile Char.isDigit = u := by
  induction p with
  | nil =>
    refine ⟨hu, ?_⟩
    have hsplit := List.takeWhile_append_dropWhile (p := Char.isDigit) (l := u)
    rw [hu] at hsplit
    exact hsplit
  | cons c p ih =>
    obtain ⟨htake, hdrop⟩ := ih fun d hd => hp d (List.mem_cons_of_mem _ hd)
    have hc := hp c (List.mem_cons_self ..)
    simp [hc, htake, hdrop]

variable {s r : Text}

theorem lexNat_local (h : lexNat s = some (t, r)) :
    s = t ++ r ∧ t ≠ [] ∧
      ∀ u, u.takeWhile Char.isDigit = [] → lexNat (t ++ u) = some (t, u) := by
  unfold lexNat at h
  split at h
  · cases h
  · next c s =>
    split at h
    · next hc =>
      cases h
      subst hc
      exact ⟨rfl, by simp, fun u _ => rfl⟩
    · next hc =>
      split at h
      · next hd =>
        cases h
        refine ⟨?_, by simp, fun u hu => ?_⟩
        · rw [List.cons_append, List.takeWhile_append_dropWhile]
        · have hdigits : ∀ d ∈ s.takeWhile Char.isDigit, d.isDigit = true :=
            fun d hd => List.mem_takeWhile_imp hd
          obtain ⟨htake, hdrop⟩ := takeWhile_digits hdigits hu
          show lexNat (c :: (s.takeWhile Char.isDigit ++ u)) = _
          rw [lexNat, if_neg hc, if_pos hd, htake, hdrop]
      · cases h

theorem lexInt_local (h : lexInt s = some (t, r)) :
    s = t ++ r ∧ t ≠ [] ∧
      ∀ u, u.takeWhile Char.isDigit = [] → lexInt (t ++ u) = some (t, u) := by
  unfold lexInt at h
  split at h
  · cases h
  · next c s =>
    split at h
    · next hc =>
      subst hc
      obtain ⟨⟨t', r'⟩, hlex, hx⟩ := Option.map_eq_some_iff.1 h
      cases hx
      obtain ⟨hs, -, hlocal⟩ := lexNat_local hlex
      refine ⟨by rw [hs]; rfl, by simp, fun u hu => ?_⟩
      show lexInt ('-' :: (t' ++ u)) = _
      rw [lexInt, if_pos rfl, hlocal u hu]
      rfl
    · next hc =>
      obtain ⟨hs, hne, hlocal⟩ := lexNat_local h
      refine ⟨hs, hne, fun u hu => ?_⟩
      obtain ⟨d, t', rfl⟩ := List.exists_cons_of_ne_nil hne
      have hd : d = c := (List.cons.inj hs).1.symm
      have hlex := hlocal u hu
      rw [List.cons_append] at hlex ⊢
      rw [lexInt, if_neg (by rw [hd]; exact hc), hlex]

variable {taken rest : Text}

theorem lexDigits_local (h : lexDigits taken s rest = (t, r)) (ht : t ≠ []) :
    ∃ ds, ds ≠ [] ∧ s = ds ++ r ∧ t = taken ++ ds ∧
      ∀ u rest', u.takeWhile Char.isDigit = [] → lexDigits taken (ds ++ u) rest' = (t, u) := by
  unfold lexDigits at h
  split at h
  · cases h
    exact (ht rfl).elim
  · next hds =>
    cases h
    refine ⟨_, hds, (List.takeWhile_append_dropWhile ..).symm, rfl, fun u rest' hu => ?_⟩
    obtain ⟨htake, hdrop⟩ :=
      takeWhile_digits (fun d hd => List.mem_takeWhile_imp (p := Char.isDigit) (l := s) hd) hu
    rw [lexDigits, htake, hdrop, if_neg hds]

theorem lexDigits_nil (htaken : taken ≠ []) (h : lexDigits taken s rest = ([], r)) : r = rest := by
  unfold lexDigits at h
  split at h
  · cases h
    rfl
  · next hds =>
    rw [Prod.mk.injEq, List.append_eq_nil_iff] at h
    exact (htaken h.1.1).elim

theorem lexFrac_local (h : lexFrac s = (t, r)) :
    s = t ++ r ∧ ∀ u : Text, u.takeWhile Char.isDigit = [] → (∀ c v, u = c :: v → c ≠ '.') →
      lexFrac (t ++ u) = (t, u) := by
  have hnil : ∀ u : Text, (∀ c v, u = c :: v → c ≠ '.') → lexFrac u = ([], u) := by
    intro u hu
    cases u with
    | nil => rfl
    | cons c v => rw [lexFrac, if_neg (hu c v rfl)]
  unfold lexFrac at h
  split at h
  · cases h
    exact ⟨rfl, fun u _ hu => hnil u hu⟩
  · next c s =>
    split at h
    · next hc =>
      subst hc
      by_cases ht : t = []
      · subst ht
        rw [lexDigits_nil (by simp) h]
        exact ⟨rfl, fun u _ hu => hnil u hu⟩
      · obtain ⟨ds, -, hs, rfl, hlocal⟩ := lexDigits_local h ht
        refine ⟨by rw [hs]; rfl, fun u hu _ => ?_⟩
        show lexFrac ('.' :: (ds ++ u)) = _
        exact hlocal u _ hu
    · cases h
      exact ⟨rfl, fun u _ hu => hnil u hu⟩

variable {c : Char}

theorem lexPower_local (h : lexPower c s = (t, r)) :
    c :: s = t ++ r ∧ (t = [] ∨ ∃ v, t = c :: v ∧
      ∀ u : Text, u.takeWhile Char.isDigit = [] → lexPower c (v ++ u) = (t, u)) := by
  unfold lexPower at h
  split at h
  · cases h
    exact ⟨rfl, .inl rfl⟩
  · next d s =>
    by_cases ht : t = []
    · subst ht
      refine ⟨?_, .inl rfl⟩
      split at h
      · rw [lexDigits_nil (by simp) h]
        rfl
      · rw [lexDigits_nil (by simp) h]
        rfl
    · split at h
      · next hd =>
        obtain ⟨ds, -, hs, rfl, hlocal⟩ := lexDigits_local h ht
        refine ⟨by rw [hs]; rfl, .inr ⟨d :: ds, rfl, fun u hu => ?_⟩⟩
        rw [List.cons_append, lexPower, if_pos hd]
        exact hlocal u _ hu
      · next hd =>
        obtain ⟨ds, hne, hs, rfl, hlocal⟩ := lexDigits_local h ht
        obtain ⟨e, ds, rfl⟩ := List.exists_cons_of_ne_nil hne
        obtain ⟨rfl, hs⟩ := List.cons.inj hs
        refine ⟨by rw [hs]; rfl, .inr ⟨d :: ds, rfl, fun u hu => ?_⟩⟩
        rw [List.cons_append, lexPower, if_neg hd]
        exact hlocal u _ hu

theorem lexExp_of_stops (hu : Stops u) : lexExp u = ([], u) := by
  cases u with
  | nil => rfl
  | cons c v =>
    have hc := hu c v rfl
    simp only [numberChar, Bool.or_eq_false_iff, decide_eq_false_iff_not] at hc
    refine if_neg ?_
    rintro (h | h)
    · exact hc.1.2 h
    · exact hc.2 h

theorem lexExp_local (h : lexExp s = (t, r)) :
    s = t ++ r ∧ (∀ c v, t = c :: v → c = 'e' ∨ c = 'E') ∧
      ∀ u : Text, Stops u → lexExp (t ++ u) = (t, u) := by
  cases s with
  | nil =>
    cases h
    exact ⟨rfl, by simp, fun u hu => lexExp_of_stops hu⟩
  | cons c s =>
    rw [lexExp] at h
    split at h
    · next hc =>
      obtain ⟨hs, rfl | ⟨v, rfl, hlocal⟩⟩ := lexPower_local h
      · exact ⟨hs, by simp, fun u hu => lexExp_of_stops hu⟩
      · refine ⟨hs, ?_, fun u hu => ?_⟩
        · rintro d w hdw
          cases hdw
          exact hc
        · rw [List.cons_append, lexExp, if_pos hc]
          exact hlocal u hu.not_digit
    · cases h
      exact ⟨rfl, by simp, fun u hu => lexExp_of_stops hu⟩

theorem lexFrac_head (h : lexFrac s = (c :: t, r)) : c = '.' := by
  unfold lexFrac at h
  split at h
  · cases h
  · split at h
    · obtain ⟨ds, -, -, hct, -⟩ := lexDigits_local h (by simp)
      exact (List.cons.inj hct).1
    · cases h

variable {b : Bool}

/-- **Locality of numbers**: the text that was taken is taken again in front of
anything that does not go on with a number. -/
theorem lexNumber_local (h : lexNumber s = some (t, b, r)) :
    s = t ++ r ∧ t ≠ [] ∧ ∀ u, Stops u → lexNumber (t ++ u) = some (t, b, u) := by
  unfold lexNumber at h
  split at h
  · cases h
  · next i r₁ hint =>
    obtain ⟨f, r₂, hfrac⟩ : ∃ f r₂, lexFrac r₁ = (f, r₂) := ⟨_, _, rfl⟩
    obtain ⟨e, r₃, hexp⟩ : ∃ e r₃, lexExp r₂ = (e, r₃) := ⟨_, _, rfl⟩
    simp only [hfrac, hexp, Option.some.injEq, Prod.mk.injEq] at h
    obtain ⟨rfl, rfl, rfl⟩ := h
    obtain ⟨hs, hne, hilocal⟩ := lexInt_local hint
    obtain ⟨hr₁, hflocal⟩ := lexFrac_local hfrac
    obtain ⟨hr₂, hehead, helocal⟩ := lexExp_local hexp
    refine ⟨by rw [hs, hr₁, hr₂]; simp, by simp [hne], fun u hu => ?_⟩
    -- what follows the fraction begins with the exponent or is `u`
    have hnodigit : (e ++ u).takeWhile Char.isDigit = [] := by
      cases e with
      | nil => exact hu.not_digit
      | cons c v => rcases hehead c v rfl with rfl | rfl <;> rfl
    have hnodot : ∀ c v, e ++ u = c :: v → c ≠ '.' := by
      intro c v hcv
      cases e with
      | nil =>
        have hc := hu c v hcv
        rintro rfl
        exact absurd hc (by decide)
      | cons d w =>
        cases hcv
        rcases hehead c w rfl with rfl | rfl <;> decide
    have hifrac : (f ++ (e ++ u)).takeWhile Char.isDigit = [] := by
      cases f with
      | nil => exact hnodigit
      | cons c v =>
        rw [lexFrac_head hfrac]
        rfl
    rw [lexNumber, List.append_assoc, List.append_assoc, hilocal _ hifrac]
    dsimp only
    rw [hflocal _ hnodigit hnodot]
    rw [helocal u hu]

/-! ## Numbers are written in one line -/

theorem inLine_digit (h : c.isDigit = true) : inLine c = true := by
  refine inLine_of_le ?_
  simp only [Char.isDigit, Bool.and_eq_true, decide_eq_true_eq] at h
  have hle : (48 : Nat) ≤ c.val.toNat := h.1
  exact le_trans (by decide) hle

theorem inLine_takeWhile (s : Text) : ∀ c ∈ s.takeWhile Char.isDigit, inLine c = true :=
  fun _ hc => inLine_digit (List.mem_takeWhile_imp hc)

theorem inLine_lexNat (h : lexNat s = some (t, r)) : ∀ c ∈ t, inLine c = true := by
  unfold lexNat at h
  split at h
  · cases h
  · split at h
    · cases h
      intro c hc
      rw [List.mem_singleton.1 hc]
      rfl
    · split at h
      · next hd =>
        cases h
        intro c hc
        rcases List.mem_cons.1 hc with rfl | hc
        · exact inLine_digit hd
        · exact inLine_takeWhile _ c hc
      · cases h

theorem inLine_lexInt (h : lexInt s = some (t, r)) : ∀ c ∈ t, inLine c = true := by
  unfold lexInt at h
  split at h
  · cases h
  · split at h
    · obtain ⟨⟨t', r'⟩, hlex, hx⟩ := Option.map_eq_some_iff.1 h
      cases hx
      intro c hc
      rcases List.mem_cons.1 hc with rfl | hc
      · rfl
      · exact inLine_lexNat hlex c hc
    · exact inLine_lexNat h

theorem inLine_lexDigits (h : ∀ c ∈ taken, inLine c = true) :
    ∀ c ∈ (lexDigits taken s rest).1, inLine c = true := by
  unfold lexDigits
  split
  · intro c hc
    cases hc
  · intro c hc
    rcases List.mem_append.1 hc with hc | hc
    · exact h c hc
    · exact inLine_takeWhile _ c hc

theorem inLine_lexFrac (s : Text) : ∀ c ∈ (lexFrac s).1, inLine c = true := by
  unfold lexFrac
  split
  · intro c hc
    cases hc
  · split
    · exact inLine_lexDigits (by simp [inLine])
    · intro c hc
      cases hc

theorem inLine_lexExp (s : Text) : ∀ c ∈ (lexExp s).1, inLine c = true := by
  have hsign : ∀ {c : Char}, c = '+' ∨ c = '-' ∨ c = 'e' ∨ c = 'E' → inLine c = true := by
    rintro c (rfl | rfl | rfl | rfl) <;> rfl
  unfold lexExp
  split
  · intro c hc
    cases hc
  · split
    · next hc =>
      unfold lexPower
      split
      · intro c hc
        cases hc
      · split
        · next hd =>
          refine inLine_lexDigits fun c' hc' => ?_
          simp only [List.mem_cons, List.not_mem_nil, or_false] at hc'
          rcases hc' with rfl | rfl
          · exact hsign (.inr (.inr hc))
          · exact hsign (hd.imp_right .inl)
        · refine inLine_lexDigits fun c' hc' => ?_
          rw [List.mem_singleton.1 hc']
          exact hsign (.inr (.inr hc))
    · intro c hc
      cases hc

theorem inLine_lexNumber (h : lexNumber s = some (t, b, r)) :
    ∀ c ∈ t, inLine c = true := by
  unfold lexNumber at h
  split at h
  · cases h
  · next i r' hint =>
    cases h
    intro c hc
    rcases List.mem_append.1 hc with hc | hc
    · exact inLine_lexInt hint c hc
    · rcases List.mem_append.1 hc with hc | hc
      · exact inLine_lexFrac _ c hc
      · exact inLine_lexExp _ c hc

/-! ## Integers are read back -/

theorem lexNat_digits (hform : p = ['0'] ∨ ∃ c t, p = c :: t ∧ c ≠ '0')
    (hdigits : ∀ c ∈ p, c.isDigit = true) (hu : u.takeWhile Char.isDigit = []) :
    lexNat (p ++ u) = some (p, u) := by
  rcases hform with rfl | ⟨c, t, rfl, hc⟩
  · rfl
  · obtain ⟨htake, hdrop⟩ := takeWhile_digits (fun d hd => hdigits d (List.mem_cons_of_mem _ hd)) hu
    rw [List.cons_append, lexNat, if_neg hc, if_pos (hdigits c (List.mem_cons_self ..)), htake,
      hdrop]

theorem lexNat_natText (n : Nat) (hu : u.takeWhile Char.isDigit = []) :
    lexNat (natText n ++ u) = some (natText n, u) :=
  lexNat_digits (natText_cases n) (isDigit_natText n) hu

theorem lexInt_intText (i : Int) (hu : u.takeWhile Char.isDigit = []) :
    lexInt (intText i ++ u) = some (intText i, u) := by
  cases i with
  | ofNat n =>
    show lexInt (natText n ++ u) = some (natText n, u)
    obtain ⟨c, t, h⟩ := List.exists_cons_of_ne_nil (natText_ne_nil n)
    have hdigit : c.isDigit = true := isDigit_natText n c (by rw [h]; exact List.mem_cons_self ..)
    have hc : c ≠ '-' := by
      rintro rfl
      exact absurd hdigit (by decide)
    have hlex := lexNat_natText n hu
    rw [h, List.cons_append] at hlex ⊢
    rw [lexInt, if_neg hc, hlex]
  | negSucc n =>
    show lexInt ('-' :: (natText (n + 1) ++ u)) = _
    rw [lexInt, if_pos rfl, lexNat_natText (n + 1) hu]
    rfl

theorem lexNumber_intText (i : Int) (hu : Stops u) :
    lexNumber (intText i ++ u) = some (intText i, false, u) := by
  have hfrac : lexFrac u = ([], u) := by
    cases u with
    | nil => rfl
    | cons c v =>
      have hc := hu c v rfl
      refine if_neg ?_
      rintro rfl
      exact absurd hc (by decide)
  rw [lexNumber, lexInt_intText i hu.not_digit]
  simp [hfrac, lexExp_of_stops hu]

end XEdge.Lib.Json
