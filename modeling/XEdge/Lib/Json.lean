import XEdge.Lib.Dict
import XEdge.Lib.Json.Numbers

/-!
# Python's `json` module

`json.loads` and `json.dumps` as functions between texts and values: objects keep
the order in which their keys came, the last of two equal keys wins, and
`NaN`, `Infinity` and `-Infinity` are read and written.

A `fuel` bounds the nesting; the length of the text is enough, by `value_local`.
-/

namespace XEdge.Lib.Json

/-! ## Values -/

inductive Value where
  | null
  | bool (b : Bool)
  | int (i : Int)
  | float (t : Text)
  | str (s : Str)
  | arr (xs : List Value)
  /-- A `dict`, in insertion order. -/
  | obj (kvs : List (Str × Value))

/-- The entries of a `dict`. -/
abbrev Members := List (Str × Value)

/-- A `float` and an `int` end where the text stops going on with a number. -/
def Value.isNumber : Value → Bool
  | .int _ | .float _ => true
  | _ => false

def specials : List Text := ["NaN".toList, "Infinity".toList, "-Infinity".toList]

structure FloatFormat where
  /-- The text that is written for the float that a text denotes, `repr(float(t))`
  or one of the `specials`. -/
  canon : Text → Text
  canon_spec : ∀ t, lexNumber t = some (t, true, []) → canon t ∈ specials ∨
    lexNumber (canon t) = some (canon t, true, []) ∧ canon (canon t) = canon t

def FloatFormat.IsFloat (F : FloatFormat) (t : Text) : Prop :=
  t ∈ specials ∨ lexNumber t = some (t, true, []) ∧ F.canon t = t

def FloatFormat.exact : FloatFormat := ⟨id, fun _ h => .inr ⟨h, rfl⟩⟩

/-! ## Writing -/

section Writing

variable (pad : Text)

mutual

def dumps : Value → Text
  | .null => "null".toList
  | .bool true => "true".toList
  | .bool false => "false".toList
  | .int i => intText i
  | .float t => t
  | .str s => '"' :: (escape s ++ ['"'])
  | .arr xs => '[' :: (dumpsItems xs ++ [']'])
  | .obj kvs => '\x7b' :: (dumpsMembers kvs ++ ['\x7d'])

def dumpsItems : List Value → Text
  | [] => []
  | x :: xs => dumps x ++ (if xs = [] then [] else ',' :: pad) ++ dumpsItems xs

def dumpsMembers : Members → Text
  | [] => []
  | (k, v) :: kvs =>
      '"' :: (escape k ++ '"' :: ':' :: (pad ++ (dumps v ++
        ((if kvs = [] then [] else ',' :: pad) ++ dumpsMembers kvs))))

end

variable {pad}

theorem dumps_int (i : Int) : dumps pad (.int i) = intText i := rfl

theorem dumps_float (t : Text) : dumps pad (.float t) = t := rfl

theorem dumps_str (s : Str) : dumps pad (.str s) = '"' :: (escape s ++ ['"']) := rfl

theorem dumps_arr (xs : List Value) :
    dumps pad (.arr xs) = '[' :: (dumpsItems pad xs ++ [']']) := rfl

theorem dumps_obj (kvs : Members) :
    dumps pad (.obj kvs) = '\x7b' :: (dumpsMembers pad kvs ++ ['\x7d']) := rfl

theorem dumpsItems_cons (x : Value) (xs : List Value) :
    dumpsItems pad (x :: xs) =
      dumps pad x ++ (if xs = [] then [] else ',' :: pad) ++ dumpsItems pad xs := rfl

theorem dumpsMembers_cons (k : Str) (v : Value) (kvs : Members) :
    dumpsMembers pad ((k, v) :: kvs) =
      '"' :: (escape k ++ '"' :: ':' :: (pad ++ (dumps pad v ++
        ((if kvs = [] then [] else ',' :: pad) ++ dumpsMembers pad kvs)))) := rfl

theorem dumps_obj_congr {kvs kvs' : Members}
    (h : List.Forall₂ (fun p q => p.1 = q.1 ∧ dumps pad p.2 = dumps pad q.2) kvs kvs') :
    dumps pad (.obj kvs) = dumps pad (.obj kvs') := by
  suffices hmembers : dumpsMembers pad kvs = dumpsMembers pad kvs' by
    rw [dumps_obj, dumps_obj, hmembers]
  induction h with
  | nil => rfl
  | @cons p q kvs kvs' hpq hrest ih =>
    obtain ⟨k, v⟩ := p
    obtain ⟨k', v'⟩ := q
    obtain ⟨rfl, hv⟩ := hpq
    have hnil : kvs = [] ↔ kvs' = [] := by
      rw [← List.length_eq_zero_iff, ← List.length_eq_zero_iff, hrest.length_eq]
    have hseparator : (if kvs = [] then [] else ',' :: pad) =
        (if kvs' = [] then [] else ',' :: pad) := if_congr hnil rfl rfl
    rw [dumpsMembers_cons, dumpsMembers_cons, show dumps pad v = dumps pad v' from hv, ih,
      hseparator]

theorem dumps_joinSurrogates (pad : Text) (s : Str) :
    dumps pad (.str (joinSurrogates s)) = dumps pad (.str s) := by
  rw [dumps_str, dumps_str, escape_joinSurrogates]

end Writing

/-! ## Reading -/

def isWs (c : Char) : Bool := c = ' ' || c = '\t' || c = '\n' || c = '\r'

def skipWs (s : Text) : Text := s.dropWhile isWs

def expect (c : Char) : Text → Option Text
  | [] => none
  | d :: r => if d = c then some r else none

def keyword (w s : Text) : Option Text :=
  if w.isPrefixOf s then some (s.drop w.length) else none

def words : List (Text × Value) :=
  [("null".toList, .null), ("true".toList, .bool true), ("false".toList, .bool false),
    ("NaN".toList, .float "NaN".toList), ("Infinity".toList, .float "Infinity".toList),
    ("-Infinity".toList, .float "-Infinity".toList)]

/-- What follows an element: the end, or a comma. -/
inductive After where
  | closed (rest : Text)
  | more (rest : Text)

def after (close : Char) (s : Text) : Option After :=
  match expect close (skipWs s) with
  | some r => some (.closed r)
  | none => (expect ',' (skipWs s)).map .more

section Reading

variable (F : FloatFormat)

def scalar (s : Text) : Option (Value × Text) :=
  match lexNumber s with
  | some (t, true, r) => some (.float (F.canon t), r)
  | some (t, false, r) => some (.int (intValue t), r)
  | none => words.findSome? fun w => (keyword w.1 s).map fun r => (w.2, r)

def key (s : Text) : Option (Str × Text) :=
  match (expect '"' (skipWs s)).bind scanString with
  | none => none
  | some (k, r) => (expect ':' (skipWs r)).map fun r => (k, skipWs r)

mutual

def value : Nat → Text → Option (Value × Text)
  | 0, _ => none
  | _ + 1, [] => none
  | fuel + 1, c :: s =>
      if c = '"' then (scanString s).map fun x => (.str x.1, x.2)
      else if c = '[' then
        match expect ']' (skipWs s) with
        | some r => some (.arr [], r)
        | none => (items fuel s).map fun x => (.arr x.1, x.2)
      else if c = '\x7b' then
        match expect '\x7d' (skipWs s) with
        | some r => some (.obj [], r)
        | none => (members fuel s).map fun x => (.obj (Dict.ofList x.1).entries, x.2)
      else scalar F (c :: s)

def items : Nat → Text → Option (List Value × Text)
  | 0, _ => none
  | fuel + 1, s =>
      match value fuel (skipWs s) with
      | none => none
      | some (v, r) =>
          match after ']' r with
          | none => none
          | some (.closed r) => some ([v], r)
          | some (.more r) => (items fuel r).map fun x => (v :: x.1, x.2)

def members : Nat → Text → Option (Members × Text)
  | 0, _ => none
  | fuel + 1, s =>
      match key s with
      | none => none
      | some (k, t) =>
          match value fuel t with
          | none => none
          | some (v, r) =>
              match after '\x7d' r with
              | none => none
              | some (.closed r) => some ([(k, v)], r)
              | some (.more r) => (members fuel r).map fun x => ((k, v) :: x.1, x.2)

end

/-- `json.loads`; `none` is `JSONDecodeError`. -/
def loads (s : Text) : Option Value :=
  match value F s.length (skipWs s) with
  | none => none
  | some (v, r) => if skipWs r = [] then some v else none

end Reading

/-! ## Locality -/

variable {s t : Text}

theorem skipWs_local (h : skipWs s = t) :
    ∃ w, s = w ++ t ∧ ∀ c r, isWs c = false → skipWs (w ++ c :: r) = c :: r := by
  refine ⟨s.takeWhile isWs, by rw [← h]; exact (List.takeWhile_append_dropWhile ..).symm, ?_⟩
  intro c r hc
  have hw : ∀ d ∈ s.takeWhile isWs, isWs d = true := fun d hd => List.mem_takeWhile_imp hd
  generalize s.takeWhile isWs = w at hw
  induction w with
  | nil => simp [skipWs, hc]
  | cons d w ih =>
    have hd := hw d (List.mem_cons_self ..)
    have hrest := ih fun e he => hw e (List.mem_cons_of_mem _ he)
    simpa [skipWs, hd] using hrest

variable {c : Char}

theorem skipWs_cons (hc : isWs c = false) (r : Text) : skipWs (c :: r) = c :: r := by
  simp [skipWs, hc]

variable {w : Text}

theorem skipWs_append (hw : ∀ c ∈ w, isWs c = true) (s : Text) :
    skipWs (w ++ s) = skipWs s := by
  induction w with
  | nil => rfl
  | cons c w ih =>
    have hc := hw c (List.mem_cons_self ..)
    have hrest := ih fun d hd => hw d (List.mem_cons_of_mem _ hd)
    simpa [skipWs, hc] using hrest

variable {r : Text}

theorem expect_eq_some : expect c s = some r ↔ s = c :: r := by
  cases s with
  | nil => simp [expect]
  | cons d t =>
    rw [expect]
    split
    · next h => simp [h]
    · next h => simp [h]

theorem expect_skipWs_local (hc : isWs c = false) (h : expect c (skipWs s) = some r) :
    ∃ p, s = p ++ r ∧ p ≠ [] ∧ ∀ u, expect c (skipWs (p ++ u)) = some u := by
  obtain ⟨w, hs, hskip⟩ := skipWs_local (expect_eq_some.1 h)
  refine ⟨w ++ [c], by rw [hs]; simp, by simp, fun u => ?_⟩
  rw [List.append_assoc, List.singleton_append, hskip c u hc]
  exact expect_eq_some.2 rfl

theorem head_of_expect {d : Char} (h : expect c (skipWs s) = some r)
    (hs : s = d :: t) : isWs d = true ∨ d = c := by
  subst hs
  by_cases hd : isWs d = true
  · exact .inl hd
  · rw [skipWs_cons (by simpa using hd), expect_eq_some] at h
    exact .inr (List.cons.inj h).1

theorem not_numberChar_of_isWs (h : isWs c = true) : numberChar c = false := by
  simp only [isWs, Bool.or_eq_true, decide_eq_true_eq] at h
  rcases h with ((rfl | rfl) | rfl) | rfl <;> rfl

def closing (c : Char) : Prop := c = ']' ∨ c = '\x7d'

theorem closing.spec (h : closing c) : isWs c = false ∧ numberChar c = false := by
  rcases h with rfl | rfl <;> exact ⟨rfl, rfl⟩

theorem stops_of_after (hc : closing c) {a : After} (h : after c s = some a) : Stops s := by
  intro d t hs
  unfold after at h
  split at h
  · next r hr =>
    rcases head_of_expect hr hs with hd | rfl
    · exact not_numberChar_of_isWs hd
    · exact hc.spec.2
  · obtain ⟨r, hr, -⟩ := Option.map_eq_some_iff.1 h
    rcases head_of_expect hr hs with hd | rfl
    · exact not_numberChar_of_isWs hd
    · rfl

theorem after_closed_local (hc : closing c) (h : after c s = some (.closed r)) :
    ∃ p, s = p ++ r ∧ p ≠ [] ∧ ∀ u, after c (p ++ u) = some (.closed u) := by
  unfold after at h
  split at h
  · next r' hr =>
    cases h
    obtain ⟨p, hs, hne, hlocal⟩ := expect_skipWs_local hc.spec.1 hr
    refine ⟨p, hs, hne, fun u => ?_⟩
    rw [after, hlocal]
  · obtain ⟨r', -, hx⟩ := Option.map_eq_some_iff.1 h
    cases hx

theorem after_more_local (hc : closing c) (h : after c s = some (.more r)) :
    ∃ p, s = p ++ r ∧ p ≠ [] ∧ ∀ u, after c (p ++ u) = some (.more u) := by
  unfold after at h
  split at h
  · cases h
  · obtain ⟨r', hr, hx⟩ := Option.map_eq_some_iff.1 h
    cases hx
    obtain ⟨p, hs, hne, hlocal⟩ := expect_skipWs_local rfl hr
    refine ⟨p, hs, hne, fun u => ?_⟩
    have hcomma := hlocal u
    have hclose : expect c (skipWs (p ++ u)) = none := by
      rw [expect_eq_some.1 hcomma]
      rcases hc with rfl | rfl <;> rfl
    rw [after, hclose, hcomma]
    rfl

theorem keyword_eq_some (h : keyword w s = some r) :
    s = w ++ r ∧ ∀ u, keyword w (w ++ u) = some u := by
  unfold keyword at h
  split at h
  · next hp =>
    cases h
    obtain ⟨t, ht⟩ := List.isPrefixOf_iff_prefix.1 hp
    refine ⟨by rw [← ht]; simp, fun u => ?_⟩
    rw [keyword, if_pos (List.isPrefixOf_iff_prefix.2 (List.prefix_append w u))]
    simp
  · cases h

variable {F : FloatFormat}

variable {v : Value}

theorem scalar_word (h : (w, v) ∈ words) (u : Text) :
    scalar F (w ++ u) = some (v, u) := by
  simp only [words, List.mem_cons, Prod.mk.injEq, List.not_mem_nil, or_false] at h
  rcases h with ⟨rfl, rfl⟩ | ⟨rfl, rfl⟩ | ⟨rfl, rfl⟩ | ⟨rfl, rfl⟩ | ⟨rfl, rfl⟩ | ⟨rfl, rfl⟩ <;>
    rfl

theorem word_ne_nil (h : (w, v) ∈ words) : w ≠ [] := by
  simp only [words, List.mem_cons, Prod.mk.injEq, List.not_mem_nil, or_false] at h
  rcases h with ⟨rfl, rfl⟩ | ⟨rfl, rfl⟩ | ⟨rfl, rfl⟩ | ⟨rfl, rfl⟩ | ⟨rfl, rfl⟩ | ⟨rfl, rfl⟩ <;>
    simp

theorem scalar_local (h : scalar F s = some (v, r)) :
    ∃ p, s = p ++ r ∧ p ≠ [] ∧
      ∀ u, v.isNumber = false ∨ Stops u → scalar F (p ++ u) = some (v, u) := by
  unfold scalar at h
  split at h
  · next t r' hlex =>
    cases h
    obtain ⟨hs, hne, hlocal⟩ := lexNumber_local hlex
    refine ⟨t, hs, hne, fun u hu => ?_⟩
    rw [scalar, hlocal u (hu.resolve_left (by simp [Value.isNumber]))]
  · next t r' hlex =>
    cases h
    obtain ⟨hs, hne, hlocal⟩ := lexNumber_local hlex
    refine ⟨t, hs, hne, fun u hu => ?_⟩
    rw [scalar, hlocal u (hu.resolve_left (by simp [Value.isNumber]))]
  · obtain ⟨⟨w, v'⟩, hmem, hword⟩ := List.exists_of_findSome?_eq_some h
    obtain ⟨r', hr, hx⟩ := Option.map_eq_some_iff.1 hword
    cases hx
    exact ⟨w, (keyword_eq_some hr).1, word_ne_nil hmem, fun u _ => scalar_word hmem u⟩

variable {k : Str}

theorem key_local (h : key s = some (k, r)) :
    ∃ p, s = p ++ r ∧ p ≠ [] ∧
      ∀ c u, isWs c = false → key (p ++ c :: u) = some (k, c :: u) := by
  unfold key at h
  split at h
  · cases h
  · next k' r₁ hk =>
    obtain ⟨r₃, hcolon, hx⟩ := Option.map_eq_some_iff.1 h
    cases hx
    obtain ⟨r₀, hquote, hscan⟩ := Option.bind_eq_some_iff.1 hk
    obtain ⟨p₁, hs, hne, hlocal₁⟩ := expect_skipWs_local rfl hquote
    obtain ⟨p₂, hr₀, hlocal₂⟩ := scanString_local hscan
    obtain ⟨p₃, hr₁, -, hlocal₃⟩ := expect_skipWs_local rfl hcolon
    obtain ⟨w, hr₃, hskip⟩ := skipWs_local (rfl : skipWs r₃ = skipWs r₃)
    refine ⟨p₁ ++ (p₂ ++ (p₃ ++ w)), by rw [hs, hr₀, hr₁]; simp [← hr₃], by simp [hne], ?_⟩
    intro c u hc
    rw [key, List.append_assoc, hlocal₁]
    simp only [Option.bind_some, List.append_assoc, hlocal₂, hlocal₃, Option.map_some]
    rw [hskip c u hc]

theorem scalar_isWs (hc : isWs c = true) (s : Text) : scalar F (c :: s) = none := by
  simp only [isWs, Bool.or_eq_true, decide_eq_true_eq] at hc
  rcases hc with ((rfl | rfl) | rfl) | rfl <;> rfl

variable {fuel : Nat}

theorem not_isWs_of_value (h : value F fuel (c :: s) = some (v, r)) : isWs c = false := by
  by_contra hc
  rw [Bool.not_eq_false] at hc
  cases fuel with
  | zero => cases h
  | succ fuel =>
    have hne : c ≠ '"' ∧ c ≠ '[' ∧ c ≠ '\x7b' := by
      refine ⟨?_, ?_, ?_⟩ <;> rintro rfl <;> exact absurd hc (by decide)
    rw [value, if_neg hne.1, if_neg hne.2.1, if_neg hne.2.2, scalar_isWs hc] at h
    cases h

theorem scalar_closing (hc : closing c) (s : Text) : scalar F (c :: s) = none := by
  rcases hc with rfl | rfl <;> rfl

theorem value_closing (hc : closing c) (fuel : Nat) (s : Text) :
    value F fuel (c :: s) = none := by
  cases fuel with
  | zero => rfl
  | succ fuel =>
    have hne : c ≠ '"' ∧ c ≠ '[' ∧ c ≠ '\x7b' := by
      rcases hc with rfl | rfl <;> decide
    rw [value, if_neg hne.1, if_neg hne.2.1, if_neg hne.2.2, scalar_closing hc]

theorem isNumber_of_brace (h : value F fuel ('\x7b' :: s) = some (v, r)) : v.isNumber = false := by
  cases fuel with
  | zero => cases h
  | succ fuel =>
    rw [value, if_neg (by decide), if_neg (by decide), if_pos rfl] at h
    split at h
    · cases h
      rfl
    · obtain ⟨⟨xs, r'⟩, -, hx⟩ := Option.map_eq_some_iff.1 h
      cases hx
      rfl

theorem expect_items_eq_none {x : List Value × Text}
    (h : items F fuel s = some x) : expect ']' (skipWs s) = none := by
  cases fuel with
  | zero => cases h
  | succ fuel =>
    rw [items] at h
    cases he : expect ']' (skipWs s) with
    | none => rfl
    | some r =>
      rw [expect_eq_some.1 he, value_closing (.inl rfl)] at h
      cases h

theorem expect_members_eq_none {x : Members × Text}
    (h : members F fuel s = some x) : expect '\x7d' (skipWs s) = none := by
  cases fuel with
  | zero => cases h
  | succ fuel =>
    rw [members, key] at h
    cases he : expect '\x7d' (skipWs s) with
    | none => rfl
    | some r =>
      rw [expect_eq_some.1 he] at h
      cases h

def Local {α : Type} (read : Nat → Text → Option (α × Text)) (safe : α → Text → Prop)
    (s : Text) (x : α) (r : Text) : Prop :=
  ∃ p, s = p ++ r ∧ p ≠ [] ∧
    ∀ u m, p.length ≤ m → safe x u → read m (p ++ u) = some (x, u)

/-- A number must not be continued; behind anything else any text may stand. -/
def Safe (v : Value) (u : Text) : Prop := v.isNumber = false ∨ Stops u

def sequence {α : Type} (close : Char) (rest : Text → Option (List α × Text)) :
    Option (α × Text) → Option (List α × Text)
  | none => none
  | some (x, r) =>
      match after close r with
      | none => none
      | some (.closed r) => some ([x], r)
      | some (.more r) => (rest r).map fun xs => (x :: xs.1, xs.2)

def member (F : FloatFormat) (fuel : Nat) (s : Text) : Option ((Str × Value) × Text) :=
  (key s).bind fun k => (value F fuel k.2).map fun v => ((k.1, v.1), v.2)

theorem items_succ (fuel : Nat) (s : Text) :
    items F (fuel + 1) s = sequence ']' (items F fuel) (value F fuel (skipWs s)) := by
  rw [items]
  cases value F fuel (skipWs s) <;> rfl

theorem members_succ (fuel : Nat) (s : Text) :
    members F (fuel + 1) s = sequence '\x7d' (members F fuel) (member F fuel s) := by
  rw [members, member]
  cases key s with
  | none => rfl
  | some k =>
    obtain ⟨k, t⟩ := k
    simp only [Option.bind_some]
    cases value F fuel t <;> rfl

theorem sequence_local {α : Type} {close : Char} (hclose : closing close)
    {element : Nat → Text → Option (α × Text)} {list : Nat → Text → Option (List α × Text)}
    (hlist : ∀ m s, list (m + 1) s = sequence close (list m) (element m s))
    (helement : ∀ s x r, element fuel s = some (x, r) →
      Local element (fun _ u => Stops u) s x r)
    (hrest : ∀ s xs r, list fuel s = some (xs, r) → Local list (fun _ _ => True) s xs r)
    {xs : List α} (h : list (fuel + 1) s = some (xs, r)) :
    Local list (fun _ _ => True) s xs r := by
  rw [hlist] at h
  cases hx : element fuel s with
  | none =>
    rw [hx] at h
    cases h
  | some x =>
    obtain ⟨x, r₁⟩ := x
    obtain ⟨p, rfl, hne, hlocal⟩ := helement _ _ _ hx
    rw [hx, sequence] at h
    split at h
    · cases h
    · next r₂ hafter =>
      cases h
      obtain ⟨q, rfl, hqne, hq⟩ := after_closed_local hclose hafter
      have hqpos : 0 < q.length := List.length_pos_of_ne_nil hqne
      refine ⟨p ++ q, by simp, by simp [hne], fun u m hm _ => ?_⟩
      rw [List.length_append] at hm
      cases m with
      | zero => omega
      | succ m =>
        have hx' := hlocal (q ++ u) m (by omega) (stops_of_after hclose (hq u))
        rw [hlist, List.append_assoc, hx', sequence]
        simp only [hq]
    · next r₂ hafter =>
      obtain ⟨⟨ys, r₃⟩, hys, hcons⟩ := Option.map_eq_some_iff.1 h
      cases hcons
      obtain ⟨q, rfl, hqne, hq⟩ := after_more_local hclose hafter
      obtain ⟨q', rfl, -, hq'⟩ := hrest _ _ _ hys
      have hqpos : 0 < q.length := List.length_pos_of_ne_nil hqne
      refine ⟨p ++ (q ++ q'), by simp, by simp [hne], fun u m hm _ => ?_⟩
      rw [List.length_append, List.length_append] at hm
      cases m with
      | zero => omega
      | succ m =>
        have hx' := hlocal (q ++ (q' ++ u)) m (by omega) (stops_of_after hclose (hq (q' ++ u)))
        have hys' := hq' u m (by omega) trivial
        rw [hlist, List.append_assoc, List.append_assoc, hx', sequence]
        simp only [hq, hys', Option.map_some]

variable (F) in
structure ReadLocal (fuel : Nat) : Prop where
  value : ∀ s v r, value F fuel s = some (v, r) → Local (value F) Safe s v r
  items : ∀ s xs r, items F fuel s = some (xs, r) → Local (items F) (fun _ _ => True) s xs r
  members : ∀ s xs r, members F fuel s = some (xs, r) →
    Local (members F) (fun _ _ => True) s xs r

theorem items_local_step (ih : ReadLocal F fuel) {xs : List Value}
    (h : items F (fuel + 1) s = some (xs, r)) : Local (items F) (fun _ _ => True) s xs r := by
  have helement : ∀ s v r, value F fuel (skipWs s) = some (v, r) →
      Local (fun m s => value F m (skipWs s)) (fun _ u => Stops u) s v r := by
    intro s v r hv
    obtain ⟨p, hs, hne, hlocal⟩ := ih.value _ _ _ hv
    obtain ⟨c, p, rfl⟩ := List.exists_cons_of_ne_nil hne
    obtain ⟨w, hw, hskip⟩ := skipWs_local hs
    have hc : isWs c = false := not_isWs_of_value (by rw [hs] at hv; exact hv)
    refine ⟨w ++ (c :: p), by rw [hw]; simp, by simp, fun u m hm hu => ?_⟩
    rw [List.length_append] at hm
    show value F m (skipWs (w ++ (c :: p) ++ u)) = _
    rw [List.append_assoc, List.cons_append, hskip c (p ++ u) hc]
    exact hlocal u m (by omega) (.inr hu)
  exact sequence_local (.inl rfl) items_succ helement ih.items h

variable {kvs : Members}

theorem members_local_step (ih : ReadLocal F fuel) (h : members F (fuel + 1) s = some (kvs, r)) :
    Local (members F) (fun _ _ => True) s kvs r := by
  have helement : ∀ s x r, member F fuel s = some (x, r) →
      Local (member F) (fun _ u => Stops u) s x r := by
    intro s x r hx
    obtain ⟨⟨k, t⟩, hk, hx⟩ := Option.bind_eq_some_iff.1 hx
    obtain ⟨⟨v, r'⟩, hv, hx⟩ := Option.map_eq_some_iff.1 hx
    cases hx
    obtain ⟨p, rfl, hne, hlocal⟩ := ih.value _ _ _ hv
    obtain ⟨c, p, rfl⟩ := List.exists_cons_of_ne_nil hne
    obtain ⟨w, hw, -, hkey⟩ := key_local hk
    have hc : isWs c = false := not_isWs_of_value hv
    refine ⟨w ++ (c :: p), by rw [hw]; simp, by simp, fun u m hm hu => ?_⟩
    rw [List.length_append] at hm
    have hread : value F m (c :: (p ++ u)) = some (v, u) := hlocal u m (by omega) (.inr hu)
    rw [member, List.append_assoc, List.cons_append, hkey c (p ++ u) hc, Option.bind_some, hread]
    rfl
  exact sequence_local (.inr rfl) members_succ helement ih.members h

/-- A list or an object: what opens it, and then its end or its elements. -/
theorem bracket_local {α : Type} {list : Nat → Text → Option (List α × Text)}
    (make : List α → Value) {opening : Char} (hclose : closing c)
    (hvalue : ∀ m s, value F (m + 1) (opening :: s) = match expect c (skipWs s) with
      | some r => some (make [], r)
      | none => (list m s).map fun x => (make x.1, x.2))
    (hnone : ∀ {m s x}, list m s = some x → expect c (skipWs s) = none)
    (hlist : ∀ s xs r, list fuel s = some (xs, r) → Local list (fun _ _ => True) s xs r)
    (h : value F (fuel + 1) (opening :: s) = some (v, r)) :
    Local (value F) Safe (opening :: s) v r := by
  rw [hvalue] at h
  split at h
  · next r' hend =>
    cases h
    obtain ⟨p, hs, hne, hlocal⟩ := expect_skipWs_local hclose.spec.1 hend
    refine ⟨opening :: p, by rw [hs]; rfl, by simp, fun u m hm _ => ?_⟩
    cases m with
    | zero => simp at hm
    | succ m => rw [List.cons_append, hvalue, hlocal]
  · obtain ⟨⟨xs, r'⟩, hxs, hx⟩ := Option.map_eq_some_iff.1 h
    cases hx
    obtain ⟨p, hs, hne, hlocal⟩ := hlist _ _ _ hxs
    refine ⟨opening :: p, by rw [hs]; rfl, by simp, fun u m hm _ => ?_⟩
    cases m with
    | zero => simp at hm
    | succ m =>
      have hxs' := hlocal u m (by simpa using hm) trivial
      rw [List.cons_append, hvalue, hnone hxs', hxs']
      rfl

theorem value_bracket (m : Nat) (s : Text) : value F (m + 1) ('[' :: s) =
    match expect ']' (skipWs s) with
    | some r => some (.arr [], r)
    | none => (items F m s).map fun x => (.arr x.1, x.2) := rfl

theorem value_brace (m : Nat) (s : Text) : value F (m + 1) ('\x7b' :: s) =
    match expect '\x7d' (skipWs s) with
    | some r => some (.obj [], r)
    | none => (members F m s).map fun x => (.obj (Dict.ofList x.1).entries, x.2) := rfl

theorem value_local_step (ih : ReadLocal F fuel)
    (h : value F (fuel + 1) s = some (v, r)) : Local (value F) Safe s v r := by
  cases s with
  | nil => cases h
  | cons c s =>
    by_cases hquote : c = '"'
    · subst hquote
      obtain ⟨⟨x, r'⟩, hscan, hx⟩ := Option.map_eq_some_iff.1 h
      cases hx
      obtain ⟨p, hs, hlocal⟩ := scanString_local hscan
      refine ⟨'"' :: p, by rw [hs]; rfl, by simp, fun u m hm _ => ?_⟩
      cases m with
      | zero => simp at hm
      | succ m =>
        rw [List.cons_append, value, if_pos rfl, hlocal]
        rfl
    by_cases hbracket : c = '['
    · subst hbracket
      exact bracket_local .arr (.inl rfl) value_bracket expect_items_eq_none ih.items h
    by_cases hbrace : c = '\x7b'
    · subst hbrace
      exact bracket_local (fun kvs => .obj (Dict.ofList kvs).entries) (.inr rfl)
        value_brace expect_members_eq_none ih.members h
    rw [value, if_neg hquote, if_neg hbracket, if_neg hbrace] at h
    obtain ⟨p, hs, hne, hlocal⟩ := scalar_local h
    refine ⟨p, hs, hne, fun u m hm hu => ?_⟩
    obtain ⟨d, p, rfl⟩ := List.exists_cons_of_ne_nil hne
    obtain ⟨rfl, hs⟩ := List.cons.inj hs
    cases m with
    | zero => simp at hm
    | succ m =>
      rw [List.cons_append, value, if_neg hquote, if_neg hbracket, if_neg hbrace,
        ← List.cons_append, hlocal u hu]

theorem read_local (fuel : Nat) : ReadLocal F fuel := by
  induction fuel with
  | zero =>
    refine ⟨fun s v r h => ?_, fun s v r h => ?_, fun s v r h => ?_⟩
    · cases h
    · cases h
    · cases h
  | succ fuel ih =>
    exact ⟨fun s v r h => value_local_step ih h, fun s v r h => items_local_step ih h,
      fun s v r h => members_local_step ih h⟩

theorem value_local (h : value F fuel s = some (v, r)) : Local (value F) Safe s v r :=
  (read_local fuel).value s v r h

/-! ## What can be read -/

section WellFormed

variable (F)

mutual

/-- A value that `loads` can return: no string has a pair of surrogates, a float is
written as it is read, and the keys of an object are distinct. -/
def Value.WellFormed : Value → Prop
  | .float t => F.IsFloat t
  | .str s => Joined s
  | .arr xs => WellFormedItems xs
  | .obj kvs => (kvs.map Prod.fst).Nodup ∧ WellFormedMembers kvs
  | _ => True

def WellFormedItems : List Value → Prop
  | [] => True
  | x :: xs => x.WellFormed ∧ WellFormedItems xs

def WellFormedMembers : Members → Prop
  | [] => True
  | (k, v) :: kvs => Joined k ∧ v.WellFormed ∧ WellFormedMembers kvs

end

variable {F}

theorem wellFormedMembers_iff {kvs : Members} :
    WellFormedMembers F kvs ↔ ∀ p ∈ kvs, Joined p.1 ∧ p.2.WellFormed F := by
  induction kvs with
  | nil => simp [WellFormedMembers]
  | cons p kvs ih =>
    simp [WellFormedMembers, ih, and_assoc]

variable {s r : Text} {v : Value}

theorem wellFormed_of_scalar (h : scalar F s = some (v, r)) :
    v.WellFormed F := by
  unfold scalar at h
  split at h
  · next t r' hlex =>
    cases h
    obtain ⟨-, -, hlocal⟩ := lexNumber_local hlex
    have hwhole := hlocal [] (fun c r h => by cases h)
    rw [List.append_nil] at hwhole
    exact F.canon_spec t hwhole
  · cases h
    trivial
  · obtain ⟨⟨w, v'⟩, hmem, hword⟩ := List.exists_of_findSome?_eq_some h
    obtain ⟨r', hr, hx⟩ := Option.map_eq_some_iff.1 hword
    cases hx
    simp only [words, List.mem_cons, Prod.mk.injEq, List.not_mem_nil, or_false] at hmem
    rcases hmem with ⟨-, rfl⟩ | ⟨-, rfl⟩ | ⟨-, rfl⟩ | ⟨-, rfl⟩ | ⟨-, rfl⟩ | ⟨-, rfl⟩
    · trivial
    · trivial
    · trivial
    all_goals exact .inl (by simp [specials])

theorem joined_of_key {k : Str} (h : key s = some (k, r)) : Joined k := by
  unfold key at h
  split at h
  · cases h
  · next k' r₁ hk =>
    obtain ⟨r', -, hx⟩ := Option.map_eq_some_iff.1 h
    cases hx
    obtain ⟨r₀, -, hscan⟩ := Option.bind_eq_some_iff.1 hk
    exact joined_of_scanString hscan

theorem read_wellFormed (fuel : Nat) :
    (∀ s v r, value F fuel s = some (v, r) → v.WellFormed F) ∧
      (∀ s xs r, items F fuel s = some (xs, r) → WellFormedItems F xs) ∧
      (∀ s xs r, members F fuel s = some (xs, r) → WellFormedMembers F xs) := by
  induction fuel with
  | zero =>
    refine ⟨fun s v r h => ?_, fun s v r h => ?_, fun s v r h => ?_⟩
    · cases h
    · cases h
    · cases h
  | succ fuel ih =>
    obtain ⟨hvalue, hitems, hmembers⟩ := ih
    refine ⟨fun s v r h => ?_, fun s xs r h => ?_, fun s xs r h => ?_⟩
    · cases s with
      | nil => cases h
      | cons c s =>
        rw [value] at h
        split at h
        · obtain ⟨⟨x, r'⟩, hscan, hx⟩ := Option.map_eq_some_iff.1 h
          cases hx
          exact joined_of_scanString hscan
        · split at h
          · split at h
            · cases h
              trivial
            · obtain ⟨⟨xs, r'⟩, hxs, hx⟩ := Option.map_eq_some_iff.1 h
              cases hx
              exact hitems _ _ _ hxs
          · split at h
            · split at h
              · cases h
                exact ⟨List.nodup_nil, trivial⟩
              · obtain ⟨⟨xs, r'⟩, hxs, hx⟩ := Option.map_eq_some_iff.1 h
                cases hx
                refine ⟨(Dict.ofList xs).nodup, wellFormedMembers_iff.2 fun p hp => ?_⟩
                exact wellFormedMembers_iff.1 (hmembers _ _ _ hxs) p (Dict.mem_of_mem_ofList hp)
            · exact wellFormed_of_scalar h
    · rw [items] at h
      split at h
      · cases h
      · next v r₁ hv =>
        split at h
        · cases h
        · cases h
          exact ⟨hvalue _ _ _ hv, trivial⟩
        · obtain ⟨⟨ys, r'⟩, hys, hx⟩ := Option.map_eq_some_iff.1 h
          cases hx
          exact ⟨hvalue _ _ _ hv, hitems _ _ _ hys⟩
    · rw [members] at h
      split at h
      · cases h
      · next k t hk =>
        split at h
        · cases h
        · next v r₁ hv =>
          split at h
          · cases h
          · cases h
            exact ⟨joined_of_key hk, hvalue _ _ _ hv, trivial⟩
          · obtain ⟨⟨ys, r'⟩, hys, hx⟩ := Option.map_eq_some_iff.1 h
            cases hx
            exact ⟨joined_of_key hk, hvalue _ _ _ hv, hmembers _ _ _ hys⟩

theorem wellFormed_of_loads (h : loads F s = some v) :
    v.WellFormed F := by
  unfold loads at h
  split at h
  · cases h
  · next v' r hv =>
    split at h
    · cases h
      exact (read_wellFormed _).1 _ _ _ hv
    · cases h

end WellFormed

/-! ## The round trip -/

section RoundTrip

variable {pad : Text}

def Value.isScalar : Value → Bool
  | .str _ | .arr _ | .obj _ => false
  | _ => true

variable {v : Value} {u : Text}

theorem scalar_dumps (pad : Text) (hv : v.WellFormed F) (hs : v.isScalar = true)
    (hu : Safe v u) : scalar F (dumps pad v ++ u) = some (v, u) := by
  cases v with
  | null => exact scalar_word (w := "null".toList) (by simp [words]) u
  | bool b =>
    cases b with
    | true => exact scalar_word (w := "true".toList) (by simp [words]) u
    | false => exact scalar_word (w := "false".toList) (by simp [words]) u
  | int i =>
    have hstop : Stops u := hu.resolve_left (by simp [Value.isNumber])
    rw [dumps_int, scalar, lexNumber_intText i hstop]
    simp only [intValue_intText]
  | float t =>
    have hstop : Stops u := hu.resolve_left (by simp [Value.isNumber])
    rw [dumps_float]
    rcases hv with hspecial | ⟨hlex, hcanon⟩
    · simp only [specials, List.mem_cons, List.not_mem_nil, or_false] at hspecial
      rcases hspecial with rfl | rfl | rfl
      all_goals exact scalar_word (by simp [words]) u
    · rw [scalar, (lexNumber_local hlex).2.2 u hstop]
      simp only [hcanon]
  | str | arr | obj => cases hs

/-- A value is written with a character in front that is not white space; a scalar
with one that does not open anything. -/
theorem dumps_head (pad : Text) (hv : v.WellFormed F) :
    ∃ c t, dumps pad v = c :: t ∧ isWs c = false ∧
      (v.isScalar = true → c ≠ '"' ∧ c ≠ '[' ∧ c ≠ '\x7b') := by
  by_cases hs : v.isScalar = true
  · have hread := scalar_dumps pad hv hs (u := []) (.inr fun c r h => by cases h)
    rw [List.append_nil] at hread
    cases hd : dumps pad v with
    | nil =>
      rw [hd] at hread
      cases hread
    | cons c t =>
      rw [hd] at hread
      refine ⟨c, t, rfl, ?_, fun _ => ⟨?_, ?_, ?_⟩⟩
      · by_contra hws
        rw [scalar_isWs (by simpa using hws)] at hread
        cases hread
      all_goals
        rintro rfl
        cases hread
  · cases v with
    | str s => exact ⟨'"', _, dumps_str s, rfl, fun h => absurd h hs⟩
    | arr xs => exact ⟨'[', _, dumps_arr xs, rfl, fun h => absurd h hs⟩
    | obj kvs => exact ⟨'\x7b', _, dumps_obj kvs, rfl, fun h => absurd h hs⟩
    | null | bool | int | float => exact (hs rfl).elim

theorem dumps_pos (pad : Text) (hv : v.WellFormed F) : 0 < (dumps pad v).length := by
  obtain ⟨c, t, h, -⟩ := dumps_head pad hv
  rw [h]
  exact Nat.succ_pos _

theorem skipWs_dumps (pad : Text) (hv : v.WellFormed F) (u : Text) :
    skipWs (dumps pad v ++ u) = dumps pad v ++ u := by
  obtain ⟨c, t, h, hc, -⟩ := dumps_head pad hv
  rw [h, List.cons_append, skipWs_cons hc]

theorem key_dumps (hpad : ∀ c ∈ pad, isWs c = true) {k : Str} (hk : Joined k)
    (hv : v.WellFormed F) (u : Text) :
    key ('"' :: (escape k ++ '"' :: ':' :: (pad ++ (dumps pad v ++ u)))) =
      some (k, dumps pad v ++ u) := by
  rw [key, skipWs_cons rfl, expect_eq_some.2 rfl, Option.bind_some, scanString_escape,
    joinSurrogates_of_joined hk]
  show (expect ':' (skipWs (':' :: _))).map _ = _
  rw [skipWs_cons rfl, expect_eq_some.2 rfl, Option.map_some, skipWs_append hpad,
    skipWs_dumps pad hv]

variable {c : Char}

theorem after_closed (hc : closing c) (u : Text) :
    after c (c :: u) = some (.closed u) := by
  rw [after, skipWs_cons hc.spec.1, expect_eq_some.2 rfl]

theorem after_more (hc : closing c) (u : Text) :
    after c (',' :: u) = some (.more u) := by
  rcases hc with rfl | rfl <;> rfl

theorem stops_closed (hc : closing c) (u : Text) : Stops (c :: u) :=
  stops_of_after hc (after_closed hc u)

theorem stops_more (u : Text) : Stops (',' :: u) :=
  stops_of_after (.inl rfl) (after_more (.inl rfl) u)

theorem items_pad (hpad : ∀ c ∈ pad, isWs c = true) (fuel : Nat) (s : Text) :
    items F fuel (pad ++ s) = items F fuel s := by
  cases fuel with
  | zero => rfl
  | succ fuel => rw [items, items, skipWs_append hpad]

theorem members_pad (hpad : ∀ c ∈ pad, isWs c = true) (fuel : Nat) (s : Text) :
    members F fuel (pad ++ s) = members F fuel s := by
  cases fuel with
  | zero => rfl
  | succ fuel => rw [members, members, key, key, skipWs_append hpad]

/-- A list is read back if its first element is, in front of a text that ends it, and the rest
is. -/
theorem sequence_dumps {α : Type} {close : Char} (hclose : closing close)
    (read : Text → Option (α × Text)) (rest : Text → Option (List α × Text)) {text : Text} {x : α}
    (hread : ∀ u, Stops u → read (text ++ u) = some (x, u)) (xs : List α) (tail u : Text)
    (hnil : xs = [] → tail = [])
    (hrest : xs ≠ [] → rest (pad ++ (tail ++ close :: u)) = some (xs, u)) :
    sequence close rest
        (read (text ++ ((if xs = [] then [] else ',' :: pad) ++ (tail ++ close :: u)))) =
      some (x :: xs, u) := by
  cases xs with
  | nil =>
    rw [if_pos rfl, hnil rfl, List.nil_append, List.nil_append,
      hread _ (stops_closed hclose u), sequence]
    simp only [after_closed hclose]
  | cons y ys =>
    rw [if_neg (by simp), List.cons_append, hread _ (stops_more _), sequence]
    simp only [after_more hclose, hrest (by simp), Option.map_some]

variable {fuel : Nat}

variable (F pad) in
structure ReadBack (fuel : Nat) : Prop where
  value : ∀ v, v.WellFormed F → (dumps pad v).length ≤ fuel → ∀ u, Safe v u →
    value F fuel (dumps pad v ++ u) = some (v, u)
  items : ∀ xs, xs ≠ [] → WellFormedItems F xs → (dumpsItems pad xs).length + 1 ≤ fuel →
    ∀ u, items F fuel (dumpsItems pad xs ++ ']' :: u) = some (xs, u)
  members : ∀ kvs, kvs ≠ [] → WellFormedMembers F kvs → (dumpsMembers pad kvs).length + 1 ≤ fuel →
    ∀ u, members F fuel (dumpsMembers pad kvs ++ '\x7d' :: u) = some (kvs, u)

theorem items_dumps_step (hpad : ∀ c ∈ pad, isWs c = true) (ih : ReadBack F pad fuel)
    {xs : List Value} (hne : xs ≠ []) (hxs : WellFormedItems F xs)
    (hfuel : (dumpsItems pad xs).length + 1 ≤ fuel + 1) (u : Text) :
    items F (fuel + 1) (dumpsItems pad xs ++ ']' :: u) = some (xs, u) := by
  cases xs with
  | nil => exact (hne rfl).elim
  | cons x xs =>
    obtain ⟨hx, hxs⟩ := hxs
    have hpos := dumps_pos pad hx
    rw [dumpsItems_cons, List.length_append, List.length_append] at hfuel
    rw [dumpsItems_cons, List.append_assoc, List.append_assoc, items_succ]
    refine sequence_dumps (.inl rfl) (fun s => value F fuel (skipWs s)) (items F fuel) ?_
      xs _ u ?_ ?_
    · intro u hu
      rw [skipWs_dumps pad hx]
      exact ih.value x hx (by omega) u (.inr hu)
    · rintro rfl
      rfl
    · intro hne
      rw [items_pad hpad]
      exact ih.items xs hne hxs (by omega) u

variable {kvs : Members}

theorem members_dumps_step (hpad : ∀ c ∈ pad, isWs c = true) (ih : ReadBack F pad fuel)
    (hne : kvs ≠ []) (hkvs : WellFormedMembers F kvs)
    (hfuel : (dumpsMembers pad kvs).length + 1 ≤ fuel + 1) (u : Text) :
    members F (fuel + 1) (dumpsMembers pad kvs ++ '\x7d' :: u) = some (kvs, u) := by
  cases kvs with
  | nil => exact (hne rfl).elim
  | cons p kvs =>
    obtain ⟨k, v⟩ := p
    obtain ⟨hk, hv, hkvs⟩ := hkvs
    rw [dumpsMembers_cons] at hfuel
    simp only [List.length_cons, List.length_append] at hfuel
    rw [dumpsMembers_cons, members_succ]
    have hfirst : ∀ u, Stops u →
        member F fuel ('"' :: (escape k ++ '"' :: ':' :: (pad ++ dumps pad v)) ++ u) =
          some ((k, v), u) := by
      intro u hu
      have hread := ih.value v hv (by omega) u (.inr hu)
      simp only [member, List.cons_append, List.append_assoc, key_dumps hpad hk hv,
        Option.bind_some, hread, Option.map_some]
    have hrest : kvs ≠ [] →
        members F fuel (pad ++ (dumpsMembers pad kvs ++ '\x7d' :: u)) = some (kvs, u) := by
      intro hne
      rw [members_pad hpad]
      exact ih.members kvs hne hkvs (by omega) u
    have hnil : kvs = [] → dumpsMembers pad kvs = [] := by
      rintro rfl
      rfl
    have hlist := sequence_dumps (.inr rfl) (member F fuel) (members F fuel) hfirst
      kvs _ u hnil hrest
    simpa only [List.cons_append, List.append_assoc] using hlist

theorem value_dumps_step (ih : ReadBack F pad fuel) (hv : v.WellFormed F)
    (hfuel : (dumps pad v).length ≤ fuel + 1) (hu : Safe v u) :
    value F (fuel + 1) (dumps pad v ++ u) = some (v, u) := by
  by_cases hs : v.isScalar = true
  · obtain ⟨c, t, hd, -, hopen⟩ := dumps_head pad hv
    obtain ⟨h₁, h₂, h₃⟩ := hopen hs
    have hread := scalar_dumps pad hv hs hu
    rw [hd, List.cons_append] at hread ⊢
    rw [value, if_neg h₁, if_neg h₂, if_neg h₃, hread]
  · cases v with
    | str s =>
      show value F (fuel + 1) ('"' :: (escape s ++ ['"'] ++ u)) = _
      rw [value, if_pos rfl, List.append_assoc, List.singleton_append, scanString_escape,
        joinSurrogates_of_joined hv]
      rfl
    | arr xs =>
      rw [dumps_arr, List.length_cons, List.length_append, List.length_singleton] at hfuel
      show value F (fuel + 1) ('[' :: (dumpsItems pad xs ++ [']'] ++ u)) = _
      rw [value, if_neg (by decide), if_pos rfl, List.append_assoc, List.singleton_append]
      cases xs with
      | nil => rfl
      | cons x xs =>
        have hread := ih.items (x :: xs) (by simp) hv (by omega) u
        rw [expect_items_eq_none hread, hread]
        rfl
    | obj kvs =>
      rw [dumps_obj, List.length_cons, List.length_append, List.length_singleton] at hfuel
      show value F (fuel + 1) ('\x7b' :: (dumpsMembers pad kvs ++ ['\x7d'] ++ u)) = _
      rw [value, if_neg (by decide), if_neg (by decide), if_pos rfl, List.append_assoc,
        List.singleton_append]
      cases kvs with
      | nil => rfl
      | cons p kvs =>
        have hread := ih.members (p :: kvs) (by simp) hv.2 (by omega) u
        rw [expect_members_eq_none hread, hread]
        simp only [Option.map_some, Dict.entries_ofList hv.1]
    | null | bool | int | float => exact (hs rfl).elim
variable (hpad : ∀ c ∈ pad, isWs c = true)
include hpad

theorem read_dumps (fuel : Nat) : ReadBack F pad fuel := by
  induction fuel with
  | zero =>
    refine ⟨fun v hv hfuel => ?_, fun xs _ _ hfuel => ?_, fun kvs _ _ hfuel => ?_⟩
    · have hpos := dumps_pos pad hv
      omega
    · omega
    · omega
  | succ fuel ih =>
    exact ⟨fun v hwf hfuel u hu => value_dumps_step ih hwf hfuel hu,
      fun xs hne hwf hfuel u => items_dumps_step hpad ih hne hwf hfuel u,
      fun kvs hne hwf hfuel u => members_dumps_step hpad ih hne hwf hfuel u⟩

/-- A value that was written is read back in front of any text that does not go on
with a number. -/
theorem value_dumps (hv : v.WellFormed F) (hfuel : (dumps pad v).length ≤ fuel) (hu : Safe v u) :
    value F fuel (dumps pad v ++ u) = some (v, u) :=
  (read_dumps hpad fuel).value v hv hfuel u hu

theorem loads_dumps (hv : v.WellFormed F) :
    loads F (dumps pad v) = some v := by
  have hskip := skipWs_dumps pad hv []
  have hread := value_dumps hpad hv le_rfl (u := []) (.inr fun c r h => by cases h)
  rw [List.append_nil] at hskip hread
  rw [loads, hskip, hread]
  rfl

theorem dumps_injective {w : Value}
    (hv : v.WellFormed F) (hw : w.WellFormed F) (h : dumps pad v = dumps pad w) : v = w := by
  have hread := loads_dumps hpad hv
  rw [h, loads_dumps hpad hw] at hread
  exact (Option.some.inj hread).symm

theorem loads_append_eq_none (hv : (Value.obj kvs).WellFormed F) (hu : skipWs u ≠ []) :
    loads F (dumps pad (.obj kvs) ++ u) = none := by
  have hfuel : (dumps pad (.obj kvs)).length ≤ (dumps pad (.obj kvs) ++ u).length := by
    rw [List.length_append]
    omega
  have hread := value_dumps hpad hv hfuel (u := u) (.inl rfl)
  rw [loads, skipWs_dumps pad hv, hread]
  exact if_neg hu

theorem loads_take_eq_none (hv : (Value.obj kvs).WellFormed F)
    {p q : Text} (hq : q ≠ []) (h : dumps pad (.obj kvs) = p ++ q) : loads F p = none := by
  have hwhole := value_dumps hpad hv le_rfl (u := []) (.inl rfl)
  rw [List.append_nil] at hwhole
  cases p with
  | nil => rfl
  | cons c p =>
    have hc : c = '\x7b' := by
      exact (List.cons.inj h).1.symm
    subst hc
    rw [loads, skipWs_cons rfl]
    cases hread : value F ('\x7b' :: p).length ('\x7b' :: p) with
    | none => rfl
    | some x =>
      obtain ⟨v, r⟩ := x
      -- what was read of the beginning is read of the whole, but then `q` is left over
      obtain ⟨t, hp, -, hlocal⟩ := value_local hread
      have hobj : v.isNumber = false := isNumber_of_brace hread
      have hagain := hlocal (r ++ q) (dumps pad (.obj kvs)).length
        (by rw [h, hp]; simp) (.inl hobj)
      rw [← List.append_assoc, ← hp, ← h, hwhole] at hagain
      cases hr : r ++ q with
      | nil => exact (hq (List.append_eq_nil_iff.1 hr).2).elim
      | cons d t =>
        rw [hr] at hagain
        cases hagain

end RoundTrip

/-! ## One line -/

section OneLine

variable {pad : Text}

theorem inLine_separator (hpad : ∀ c ∈ pad, inLine c = true) {α : Type} (xs : List α)
    [Decidable (xs = [])] : ∀ c ∈ (if xs = [] then [] else ',' :: pad), inLine c = true := by
  intro c hc
  split at hc
  · cases hc
  · rcases List.mem_cons.1 hc with rfl | hc
    · rfl
    · exact hpad c hc

mutual

theorem inLine_dumps (hpad : ∀ c ∈ pad, inLine c = true) :
    ∀ v : Value, v.WellFormed F → ∀ c ∈ dumps pad v, inLine c = true
  | .null, _ => by
    show ∀ c ∈ "null".toList, inLine c = true
    simp [inLine]
  | .bool true, _ => by
    show ∀ c ∈ "true".toList, inLine c = true
    simp [inLine]
  | .bool false, _ => by
    show ∀ c ∈ "false".toList, inLine c = true
    simp [inLine]
  | .int i, _ => by
    rw [dumps_int]
    have hlex := lexNumber_intText i (u := []) fun c r h => by cases h
    exact inLine_lexNumber hlex
  | .float t, h => by
    rw [dumps_float]
    rcases h with hspecial | ⟨hlex, -⟩
    · have hall : ∀ t ∈ specials, ∀ c ∈ t, inLine c = true := by simp [specials, inLine]
      exact hall t hspecial
    · exact inLine_lexNumber hlex
  | .str s, _ => by
    simp only [dumps_str, List.forall_mem_cons, List.forall_mem_append]
    exact ⟨rfl, inLine_escape s, by simp [inLine]⟩
  | .arr xs, h => by
    simp only [dumps_arr, List.forall_mem_cons, List.forall_mem_append]
    exact ⟨rfl, inLine_dumpsItems hpad xs h, by simp [inLine]⟩
  | .obj kvs, h => by
    simp only [dumps_obj, List.forall_mem_cons, List.forall_mem_append]
    exact ⟨rfl, inLine_dumpsMembers hpad kvs h.2, by simp [inLine]⟩

theorem inLine_dumpsItems (hpad : ∀ c ∈ pad, inLine c = true) :
    ∀ xs : List Value, WellFormedItems F xs → ∀ c ∈ dumpsItems pad xs, inLine c = true
  | [], _ => by
    intro c hc
    cases hc
  | x :: xs, h => by
    simp only [dumpsItems_cons, List.forall_mem_append]
    exact ⟨⟨inLine_dumps hpad x h.1, inLine_separator hpad xs⟩, inLine_dumpsItems hpad xs h.2⟩

theorem inLine_dumpsMembers (hpad : ∀ c ∈ pad, inLine c = true) :
    ∀ kvs : Members, WellFormedMembers F kvs → ∀ c ∈ dumpsMembers pad kvs, inLine c = true
  | [], _ => by
    intro c hc
    cases hc
  | (k, v) :: kvs, h => by
    simp only [dumpsMembers_cons, List.forall_mem_cons, List.forall_mem_append]
    exact ⟨rfl, inLine_escape k, rfl, rfl, hpad, inLine_dumps hpad v h.2.1,
      inLine_separator hpad kvs, inLine_dumpsMembers hpad kvs h.2.2⟩

end

end OneLine

/-! ## Sorted keys -/

/-- The order of `sort_keys`: strings by their code points. -/
def keyLe (p q : Str × Value) : Prop := p.1 ≤ q.1

instance : DecidableRel keyLe := fun p q => inferInstanceAs (Decidable (p.1 ≤ q.1))

instance : Std.Total keyLe := ⟨fun p q => le_total p.1 q.1⟩

instance : IsTrans (Str × Value) keyLe := ⟨fun _ _ _ h h' => le_trans h h'⟩

mutual

def sortKeys : Value → Value
  | .arr xs => .arr (sortItems xs)
  | .obj kvs => .obj ((sortMembers kvs).insertionSort keyLe)
  | v => v

def sortItems : List Value → List Value
  | [] => []
  | x :: xs => sortKeys x :: sortItems xs

def sortMembers : Members → Members
  | [] => []
  | (k, v) :: kvs => (k, sortKeys v) :: sortMembers kvs

end

theorem sortMembers_eq_map (kvs : Members) :
    sortMembers kvs = kvs.map fun p => (p.1, sortKeys p.2) := by
  induction kvs with
  | nil => simp [sortMembers]
  | cons p kvs ih =>
    simp [sortMembers, ih]

theorem keys_sortMembers (kvs : Members) :
    (sortMembers kvs).map Prod.fst = kvs.map Prod.fst := by
  rw [sortMembers_eq_map, List.map_map]
  rfl

mutual

theorem wellFormed_sortKeys : ∀ v : Value, v.WellFormed F → (sortKeys v).WellFormed F
  | .null, h => h
  | .bool _, h => h
  | .int _, h => h
  | .float _, h => h
  | .str _, h => h
  | .arr xs, h => by
    rw [sortKeys]
    exact wellFormed_sortItems xs h
  | .obj kvs, h => by
    have hperm := List.perm_insertionSort keyLe (sortMembers kvs)
    have hnodup : ((sortMembers kvs).map Prod.fst).Nodup := by
      rw [keys_sortMembers]
      exact h.1
    rw [sortKeys]
    refine ⟨(hperm.map Prod.fst).nodup_iff.2 hnodup, wellFormedMembers_iff.2 fun p hp => ?_⟩
    exact wellFormedMembers_iff.1 (wellFormed_sortMembers kvs h.2) p (hperm.mem_iff.1 hp)

theorem wellFormed_sortItems : ∀ xs : List Value, WellFormedItems F xs →
    WellFormedItems F (sortItems xs)
  | [], _ => by
    rw [sortItems]
    trivial
  | x :: xs, h => by
    rw [sortItems]
    exact ⟨wellFormed_sortKeys x h.1, wellFormed_sortItems xs h.2⟩

theorem wellFormed_sortMembers : ∀ kvs : Members, WellFormedMembers F kvs →
    WellFormedMembers F (sortMembers kvs)
  | [], _ => by
    rw [sortMembers]
    trivial
  | (k, v) :: kvs, h => by
    rw [sortMembers]
    exact ⟨h.1, wellFormed_sortKeys v h.2.1, wellFormed_sortMembers kvs h.2.2⟩

end

variable {kvs' : Members}

/-- Two objects with the same entries, in whatever order, are the same once their
keys are sorted. -/
theorem sortKeys_obj_of_perm (hnodup : (kvs.map Prod.fst).Nodup)
    (h : (sortMembers kvs).Perm (sortMembers kvs')) :
    sortKeys (.obj kvs) = sortKeys (.obj kvs') := by
  have hsorted := (List.perm_insertionSort keyLe (sortMembers kvs)).trans
    (h.trans (List.perm_insertionSort keyLe (sortMembers kvs')).symm)
  rw [sortKeys, sortKeys]
  congr 1
  refine hsorted.eq_of_pairwise ?_ (List.pairwise_insertionSort keyLe _)
    (List.pairwise_insertionSort keyLe _)
  intro p q hp hq hpq hqp
  -- equal keys belong to one entry
  have hp' := (List.perm_insertionSort keyLe _).mem_iff.1 hp
  have hq' := h.mem_iff.2 ((List.perm_insertionSort keyLe _).mem_iff.1 hq)
  have hkeys : ((sortMembers kvs).map Prod.fst).Nodup := by
    rw [keys_sortMembers]
    exact hnodup
  exact List.inj_on_of_nodup_map hkeys hp' hq' (le_antisymm hpq hqp)

theorem perm_cons_filter (hnodup : (kvs.map Prod.fst).Nodup) (h : lookup k kvs = some v) :
    kvs.Perm ((k, v) :: kvs.filter fun p => p.1 ≠ k) := by
  induction kvs with
  | nil => cases h
  | cons p kvs ih =>
    obtain ⟨j, w⟩ := p
    rw [List.map_cons, List.nodup_cons] at hnodup
    rw [lookup] at h
    by_cases hj : j = k
    · subst hj
      rw [if_pos rfl] at h
      cases h
      have hall : kvs.filter (fun p => p.1 ≠ j) = kvs := by
        refine List.filter_eq_self.2 fun q hq => ?_
        have hne : q.1 ≠ j := fun heq => hnodup.1 (List.mem_map.2 ⟨q, hq, heq⟩)
        simpa using hne
      rw [List.filter_cons_of_neg (by simp), hall]
    · rw [if_neg hj] at h
      rw [List.filter_cons_of_pos (by simpa using hj)]
      exact ((ih hnodup.2 h).cons _).trans (List.Perm.swap _ _ _)

theorem perm_of_sortKeys (h : sortKeys (.obj kvs) = sortKeys (.obj kvs')) :
    (sortMembers kvs).Perm (sortMembers kvs') := by
  rw [sortKeys, sortKeys, Value.obj.injEq] at h
  have hleft := List.perm_insertionSort keyLe (sortMembers kvs)
  rw [h] at hleft
  exact hleft.symm.trans (List.perm_insertionSort keyLe _)

theorem sortKeys_obj_of_filter
    (hnodup : (kvs.map Prod.fst).Nodup) (hnodup' : (kvs'.map Prod.fst).Nodup)
    (h : lookup k kvs = some v) (h' : lookup k kvs' = some v)
    (hsame : sortKeys (.obj (kvs.filter fun p => p.1 ≠ k)) =
      sortKeys (.obj (kvs'.filter fun p => p.1 ≠ k))) :
    sortKeys (.obj kvs) = sortKeys (.obj kvs') := by
  refine sortKeys_obj_of_perm hnodup ?_
  have hrest := perm_of_sortKeys hsame
  rw [sortMembers_eq_map, sortMembers_eq_map] at hrest ⊢
  have hcons := (perm_cons_filter hnodup h).map fun p => (p.1, sortKeys p.2)
  have hcons' := (perm_cons_filter hnodup' h').map fun p => (p.1, sortKeys p.2)
  exact hcons.trans ((hrest.cons _).trans hcons'.symm)

theorem lookup_sortMembers (k : Str) (kvs : Members) :
    lookup k (sortMembers kvs) = (lookup k kvs).map sortKeys := by
  rw [sortMembers_eq_map]
  exact lookup_map_of_injective Function.injective_id sortKeys k kvs

theorem lookup_of_sortKeys (hnodup : (kvs.map Prod.fst).Nodup)
    (hnodup' : (kvs'.map Prod.fst).Nodup) (h : sortKeys (.obj kvs) = sortKeys (.obj kvs'))
    (k : Str) : (lookup k kvs).map sortKeys = (lookup k kvs').map sortKeys := by
  rw [← keys_sortMembers] at hnodup hnodup'
  rw [← lookup_sortMembers, ← lookup_sortMembers]
  refine Option.ext fun v => ?_
  rw [lookup_eq_some_iff hnodup, lookup_eq_some_iff hnodup', (perm_of_sortKeys h).mem_iff]

theorem sortKeys_filter_of_sortKeys (hnodup : (kvs.map Prod.fst).Nodup)
    (h : sortKeys (.obj kvs) = sortKeys (.obj kvs')) (k : Str) :
    sortKeys (.obj (kvs.filter fun p => p.1 ≠ k)) =
      sortKeys (.obj (kvs'.filter fun p => p.1 ≠ k)) := by
  refine sortKeys_obj_of_perm (hnodup.sublist (List.filter_sublist.map _)) ?_
  have hfilter := (perm_of_sortKeys h).filter fun p => p.1 ≠ k
  rw [sortMembers_eq_map, sortMembers_eq_map, List.filter_map, List.filter_map] at hfilter
  rw [sortMembers_eq_map, sortMembers_eq_map]
  exact hfilter

theorem eq_str_of_sortKeys {s : Str} (h : sortKeys v = .str s) : v = .str s := by
  cases v <;> simp only [sortKeys, reduceCtorEq] at h
  exact h

theorem eq_obj_of_sortKeys (h : sortKeys v = sortKeys (.obj kvs)) :
    ∃ kvs', v = .obj kvs' := by
  cases v <;> simp only [sortKeys, reduceCtorEq] at h
  exact ⟨_, rfl⟩

end XEdge.Lib.Json
