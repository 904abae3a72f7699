import XEdge.Observability.AuditLog

/-!
# What the audit log detects, and what a crash leaves

Two properties of a file that `append` wrote and that something else then touched.
-/

namespace XEdge.Observability

open Lib Lib.Json

/-! ## Edits -/

section Edits

variable (P : Python)

/-- `entry["hash"]` of a line. -/
def hashOf (line : Text) : Except AuditError Value :=
  parse P line >>= fun v => getItem v (name "hash")

/-- Where an entry has a correct hash, it is one that the log has: none was
recomputed. -/
def NotRecomputed (log file : Option Text) : Prop :=
  ∀ line ∈ records (file.getD []), ∀ h x, checkLine P h line = .ok (some x) →
    ∃ line' ∈ records (log.getD []), hashOf P line' = .ok (.str x)

/-- A line that `verify_chain` can check behind an entry with hash `h`: an object
with `prev_hash`, and with `hash` where that is looked at. -/
def Readable (h : Str) (line : Text) : Prop :=
  ∃ kvs v, loads P.floats line = some (.obj kvs) ∧ lookup (name "prev_hash") kvs = some v ∧
    (v = .str h → lookup (name "hash") kvs ≠ none)

variable {P}
variable {n k : Nat} {h : Str} {line : Text}


theorem isOk_checkLine :
    (∃ r, checkLine P h line = .ok r) ↔ Readable P h line := by
  constructor
  · rintro ⟨r, hcheck⟩
    obtain ⟨v, hparse, hcheck⟩ := bind_eq_ok.1 hcheck
    obtain ⟨prev, hprev, hcheck⟩ := bind_eq_ok.1 hcheck
    obtain ⟨kvs, rfl, hlookup⟩ := getItem_eq_ok.1 hprev
    refine ⟨kvs, prev, parse_eq_ok.1 hparse, hlookup, ?_⟩
    rintro rfl
    simp only [↓reduceIte] at hcheck
    obtain ⟨hash, hhash, -⟩ := bind_eq_ok.1 hcheck
    obtain ⟨_, hkvs, hhash⟩ := getItem_eq_ok.1 hhash
    cases hkvs
    rw [hhash]
    exact Option.some_ne_none hash
  · rintro ⟨kvs, v, hloads, hprev, hhash⟩
    have hget := getItem_eq_ok.2 ⟨kvs, rfl, hprev⟩
    simp only [checkLine, parse_eq_ok.2 hloads, bind, Except.bind, hget]
    by_cases hv : v = .str h
    · obtain ⟨hash, hsome⟩ := Option.ne_none_iff_exists'.1 (hhash hv)
      subst hv
      simp only [↓reduceIte, getItem_eq_ok.2 ⟨kvs, rfl, hsome⟩]
      cases hash <;> exact ⟨_, rfl⟩
    · cases v with
      | str prev =>
        have hne : prev ≠ h := fun heq => hv (congrArg Value.str heq)
        exact ⟨none, if_neg hne⟩
      | _ => exact ⟨none, rfl⟩

theorem checkLine_of_entryOf {h x : Str} {line line' : Text}
    (hcheck : checkLine P h line = .ok (some x)) (hsame : entryOf P line' = entryOf P line) :
    checkLine P h line' = .ok (some x) := by
  obtain ⟨kvs, hloads, hprev, hhash, hx⟩ := checkLine_eq_some.1 hcheck
  rw [entryOf, entryOf, hloads, Option.map_some, Option.map_eq_some_iff] at hsame
  obtain ⟨v, hloads', hsort⟩ := hsame
  obtain ⟨kvs', rfl⟩ := eq_obj_of_sortKeys hsort
  obtain ⟨hnodup, -⟩ := wellFormed_of_loads hloads
  obtain ⟨hnodup', -⟩ := wellFormed_of_loads hloads'
  -- both keys hold strings, which sorting leaves alone
  have hstr : ∀ {k s}, lookup k kvs = some (.str s) → lookup k kvs' = some (.str s) := by
    intro k s hk
    have hk' := lookup_of_sortKeys hnodup' hnodup hsort k
    rw [hk, Option.map_some, Option.map_eq_some_iff] at hk'
    obtain ⟨w, hw, hws⟩ := hk'
    rw [hw, eq_str_of_sortKeys hws]
  refine checkLine_eq_some.2 ⟨kvs', hloads', hstr hprev, hstr hhash, ?_⟩
  rw [hx, digest, digest, canonicalJson, canonicalJson, withoutHash, withoutHash,
    sortKeys_filter_of_sortKeys hnodup' hsort]

/-! ## A log and an edit of it -/

variable {cs : List Call}

theorem tip_bodies (hh : Hex h) (hcs : ∀ c ∈ cs, c.WellFormed P) :
    HashChain.tip (link P) h (((entriesFrom P n h cs).map lineOf).map (bodyOf P)) =
      hashAfter P n h cs := by
  induction cs generalizing n h with
  | nil => rfl
  | cons c cs ih =>
    have hcheck := checkLine_entry (n := n) hh (hcs c List.mem_cons_self)
    have hrest := ih (n := n + 1) (h := entryHash P n h c) (P.sha256_hex _)
      fun d hd => hcs d (List.mem_cons_of_mem _ hd)
    rw [entriesFrom, List.map_cons, List.map_cons, HashChain.tip_cons,
      ← (checkLine_spec hcheck).2, hrest]
    rfl

theorem mem_hashes {h x : Str} (hh : Hex h) (hcs : ∀ c ∈ cs, c.WellFormed P)
    (hline : line ∈ (entriesFrom P n h cs).map lineOf) (hx : hashOf P line = .ok (.str x)) :
    x ∈ HashChain.hashes (link P) h (((entriesFrom P n h cs).map lineOf).map (bodyOf P)) := by
  induction cs generalizing n h with
  | nil => cases hline
  | cons c cs ih =>
    have hc := hcs c List.mem_cons_self
    have hcheck := checkLine_entry (n := n) hh hc
    rw [entriesFrom, List.map_cons, List.map_cons, HashChain.hashes,
      ← (checkLine_spec hcheck).2]
    rcases List.mem_cons.1 hline with rfl | hline
    · have hown : hashOf P (lineOf (entry P n h c)) = .ok (.str (entryHash P n h c)) :=
        bind_eq_ok.2 ⟨_, parse_eq_ok.2 (loads_lineOf (wellFormed_entry hh hc)), rfl⟩
      rw [hown] at hx
      cases hx
      exact List.mem_cons_self
    · exact List.mem_cons_of_mem _
        (ih (P.sha256_hex _) (fun d hd => hcs d (List.mem_cons_of_mem _ hd)) hline)

theorem entriesFrom_take (n : Nat) (h : Str) (cs : List Call) (k : Nat) :
    entriesFrom P n h (cs.take k) = (entriesFrom P n h cs).take k := by
  induction cs generalizing n h k with
  | nil => simp [entriesFrom]
  | cons c cs ih =>
    cases k with
    | zero => rfl
    | succ k =>
      rw [List.take_succ_cons, entriesFrom, entriesFrom, List.take_succ_cons, ih]

theorem length_entries (cs : List Call) : (entries P cs).length = cs.length := by
  suffices h : ∀ n h, (entriesFrom P n h cs).length = cs.length from h 1 genesisHash
  induction cs with
  | nil => exact fun _ _ => rfl
  | cons c cs ih => exact fun n h => congrArg (· + 1) (ih _ _)

theorem checkLine_entries (hcs : ∀ c ∈ cs, c.WellFormed P)
    (hline : ((entries P cs).map lineOf)[k]? = some line) :
    checkLine P (lastHash P (cs.take k)) line = .ok (some (lastHash P (cs.take (k + 1)))) := by
  have hk : k < cs.length := by
    have hlt := (List.getElem?_eq_some_iff.1 hline).1
    rwa [List.length_map, length_entries] at hlt
  have htake : cs.take (k + 1) = cs.take k ++ [cs[k]] := (List.take_concat_get' cs k hk).symm
  have hentry : ((entries P cs).map lineOf)[k]? =
      some (lineOf (entry P ((cs.take k).length + 1) (lastHash P (cs.take k)) cs[k])) := by
    have hfirst : (entries P cs).take (k + 1) = entries P (cs.take k ++ [cs[k]]) := by
      rw [← htake, entries, entries, entriesFrom_take]
    have hlen : (entries P (cs.take k)).length = k := by
      rw [length_entries, List.length_take, Nat.min_eq_left hk.le]
    rw [List.getElem?_map, ← List.getElem?_take_of_lt (Nat.lt_succ_self k), hfirst,
      entries_concat, List.getElem?_append_right (by rw [hlen]), hlen, Nat.sub_self]
    rfl
  rw [hentry] at hline
  cases hline
  rw [htake, lastHash_concat]
  exact checkLine_entry (hex_lastHash P _) (hcs _ (List.getElem_mem hk))

/-- An entry that is accepted behind the first `k` entries of the log, with a hash
of the log, is the next entry of the log. -/
theorem entryOf_of_checkLine (hinj : Function.Injective P.sha256)
    (hfresh : ∀ s, P.sha256 s ≠ genesisHash) (hcs : ∀ c ∈ cs, c.WellFormed P) {k : Nat}
    (hk : k ≤ cs.length) {x : Str}
    (hcheck : checkLine P (lastHash P (cs.take k)) line = .ok (some x)) {line' : Text}
    (hline' : line' ∈ (entries P cs).map lineOf) (hx : hashOf P line' = .ok (.str x)) :
    (((entries P cs).map lineOf).map (entryOf P))[k]? = some (entryOf P line) := by
  obtain ⟨hbody, hlink⟩ := checkLine_spec hcheck
  let bodies := ((entries P cs).map lineOf).map (bodyOf P)
  have hbodies : ∀ b ∈ bodies, IsBody P b :=
    isBody_of_verifyLines (verifyLines_entries hcs)
  have hlen : bodies.length = cs.length := by
    simp only [bodies, List.length_map, length_entries]
  -- the chain of the first entries and this one ends in a hash of the log
  have htake : HashChain.tip (link P) genesisHash (bodies.take k) = lastHash P (cs.take k) := by
    have hfirst : ∀ c ∈ cs.take k, c.WellFormed P := fun c hc => hcs c (List.mem_of_mem_take hc)
    have htip := tip_bodies (n := 1) hex_genesisHash hfirst
    rwa [entriesFrom_take, List.map_take, List.map_take] at htip
  have hmem : HashChain.tip (link P) genesisHash (bodies.take k ++ [bodyOf P line]) ∈
      HashChain.hashes (link P) genesisHash bodies := by
    rw [HashChain.tip_concat, htake, ← hlink]
    exact mem_hashes hex_genesisHash hcs hline' hx
  have hall : ∀ b ∈ bodies.take k ++ [bodyOf P line], IsBody P b := by
    intro b hb
    rcases List.mem_append.1 hb with hb | hb
    · exact hbodies b (List.mem_of_mem_take hb)
    · rw [List.mem_singleton.1 hb]
      exact hbody
  obtain ⟨heq, hle⟩ := (Python.binding hinj hfresh).eq_take_of_mem hall hbodies hmem
  have hlength : (bodies.take k ++ [bodyOf P line]).length = k + 1 := by
    rw [List.length_append, List.length_take, List.length_singleton, hlen, Nat.min_eq_left hk]
  rw [hlength] at heq hle
  -- so its body is the next one
  obtain ⟨own, hown⟩ : ∃ own, ((entries P cs).map lineOf)[k]? = some own :=
    ⟨_, List.getElem?_eq_getElem (by rw [List.length_map, length_entries]; omega)⟩
  have hsame : bodyOf P line = bodyOf P own := by
    have hnth := congrArg (·[k]?) heq
    have hlenk : (bodies.take k).length = k := by
      rw [List.length_take, hlen, Nat.min_eq_left hk]
    simp only [List.getElem?_take_of_lt (Nat.lt_succ_self k)] at hnth
    rw [List.getElem?_append_right (by rw [hlenk]), hlenk, Nat.sub_self, List.getElem?_map,
      hown] at hnth
    exact Option.some.inj hnth
  rw [List.getElem?_map, hown, entryOf_eq hcheck (checkLine_entries hcs hown) hsame]
  rfl

section Verify

variable (hinj : Function.Injective P.sha256) (hfresh : ∀ s, P.sha256 s ≠ genesisHash)
  (hcs : ∀ c ∈ cs, c.WellFormed P)

abbrev logged (P : Python) (cs : List Call) : List (Option Value) :=
  ((entries P cs).map lineOf).map (entryOf P)

include hcs

theorem verifyLines_same (hsame : (logged P cs)[k]? = some (entryOf P line)) (lines : List Text) :
    verifyLines P (lastHash P (cs.take k)) (line :: lines) =
      verifyLines P (lastHash P (cs.take (k + 1))) lines := by
  rw [List.getElem?_map, Option.map_eq_some_iff] at hsame
  obtain ⟨own, hown, hentry⟩ := hsame
  rw [verifyLines, checkLine_of_entryOf (checkLine_entries hcs hown) hentry.symm]

include hinj hfresh

theorem verifyLines_changed (hk : k ≤ cs.length) (hkept : ∀ h x, checkLine P h line = .ok (some x) →
      ∃ line' ∈ (entries P cs).map lineOf, hashOf P line' = .ok (.str x))
    (hchanged : (logged P cs)[k]? ≠ some (entryOf P line)) (lines : List Text) :
    verifyLines P (lastHash P (cs.take k)) (line :: lines) =
      (checkLine P (lastHash P (cs.take k)) line).map fun _ => false := by
  rw [verifyLines]
  cases hcheck : checkLine P (lastHash P (cs.take k)) line with
  | error e => rfl
  | ok r =>
    cases r with
    | none => rfl
    | some x =>
      obtain ⟨line', hline', hx⟩ := hkept _ _ hcheck
      exact (hchanged (entryOf_of_checkLine hinj hfresh hcs hk hcheck hline' hx)).elim

/-- The check from position `k` of the log on: it ends with `False` at the first
line that has another entry, if that line can be read. -/
theorem verifyLines_eq_false {lines : List Text}
    (hkept : ∀ line ∈ lines, ∀ h x, checkLine P h line = .ok (some x) →
      ∃ line' ∈ (entries P cs).map lineOf, hashOf P line' = .ok (.str x))
    {k : Nat} (hk : k ≤ cs.length) :
    verifyLines P (lastHash P (cs.take k)) lines = .ok false ↔
      ∃ j line, lines[j]? = some line ∧
        (lines.map (entryOf P)).take j = ((logged P cs).drop k).take j ∧
        (lines.map (entryOf P))[j]? ≠ ((logged P cs).drop k)[j]? ∧
        Readable P (lastHash P (cs.take (k + j))) line := by
  induction lines generalizing k with
  | nil => simp [verifyLines]
  | cons line lines ih =>
    have hkept' := fun l hl => hkept l (List.mem_cons_of_mem _ hl)
    by_cases hsame : (logged P cs)[k]? = some (entryOf P line)
    · obtain ⟨hlt, hget⟩ := List.getElem?_eq_some_iff.1 hsame
      have hk' : k + 1 ≤ cs.length := by
        rwa [List.length_map, List.length_map, length_entries] at hlt
      have hdrop : (logged P cs).drop k = entryOf P line :: (logged P cs).drop (k + 1) := by
        rw [List.drop_eq_getElem_cons hlt, hget]
      rw [verifyLines_same hcs hsame, ih hkept' hk', hdrop]
      constructor
      · rintro ⟨j, l, hl, htake, hne, hread⟩
        refine ⟨j + 1, l, hl, ?_, hne, ?_⟩
        · rw [List.map_cons, List.take_succ_cons, List.take_succ_cons, htake]
        · rwa [Nat.add_right_comm, Nat.add_assoc] at hread
      · rintro ⟨j, l, hl, htake, hne, hread⟩
        cases j with
        | zero => exact (hne rfl).elim
        | succ j =>
          refine ⟨j, l, hl, (List.cons.inj htake).2, hne, ?_⟩
          rwa [Nat.add_right_comm, Nat.add_assoc]
    · rw [verifyLines_changed hinj hfresh hcs hk (hkept line List.mem_cons_self) hsame]
      constructor
      · intro hfalse
        refine ⟨0, line, rfl, rfl, ?_, ?_⟩
        · rw [List.getElem?_drop]
          exact fun heq => hsame heq.symm
        · refine isOk_checkLine.1 ?_
          cases hcheck : checkLine P (lastHash P (cs.take k)) line with
          | error e =>
            rw [hcheck] at hfalse
            cases hfalse
          | ok r => exact ⟨r, rfl⟩
      · rintro ⟨j, l, hl, htake, hne, hread⟩
        cases j with
        | zero =>
          cases hl
          obtain ⟨r, hr⟩ := isOk_checkLine.2 hread
          rw [Nat.add_zero] at hr
          rw [hr]
          rfl
        | succ j =>
          -- the first line would have the next entry
          have hfirst := congrArg List.head? htake
          rw [List.map_cons, List.take_succ_cons, List.head?_cons, List.head?_take,
            if_neg (Nat.succ_ne_zero j), List.head?_drop] at hfirst
          exact (hsame hfirst.symm).elim

end Verify

theorem notRecomputed_of_subset {log file : Option Text}
    (h : ∀ line ∈ records (file.getD []), line ∈ records (log.getD [])) :
    NotRecomputed P log file := by
  intro line hline x y hcheck
  obtain ⟨kvs, hloads, -, hhash, -⟩ := checkLine_eq_some.1 hcheck
  refine ⟨line, h line hline, ?_⟩
  exact bind_eq_ok.2 ⟨_, parse_eq_ok.2 hloads, getItem_eq_ok.2 ⟨kvs, rfl, hhash⟩⟩

theorem run_logins : ∃ w : World, (World.start P none >>= fun w =>
      w.run P [.append login, .append login]) = .ok w ∧ Holds P w [login, login] := by
  refine @run_spec P [.append login, .append login] fun c hc => ?_
  have hc' : c = login := by simpa [Event.calls] using hc
  rw [hc']
  exact wellFormed_login P

end Edits

/-! ## Crashes -/

section Crashes

variable (P : Python)

def argumentsOf (line : Text) : Except AuditError (List Value) :=
  parse P line >>= fun v => [name "actor", name "event", name "details"].mapM (getItem v)

def Call.arguments (c : Call) : List Value :=
  [.str c.read.actor, .str c.read.event, .obj (c.details.getD [])]

/-- What is asked of a start on a file with the complete lines `before` and a rest:
the file opens, `tail` returns the complete entries, and what happens then is recorded
behind them in a file that is accepted. -/
def Recovers (before rest : Text) : Prop :=
  ∃ w, World.start P (some (before ++ rest)) = .ok w ∧
    (∃ vs, tail P none none none 0 (some (before ++ rest)) = .ok vs ∧
      ∀ line ∈ records before, ∀ v, loads P.floats line = some v → v ∈ vs) ∧
    ∀ es : List Event, (∀ c ∈ es.flatMap Event.calls, c.WellFormed P) →
      ∃ w', w.run P es = .ok w' ∧ verifyChain P w'.file = .ok true ∧
        entriesOf P (some before) <+: entriesOf P w'.file ∧
        ((es.flatMap Event.calls).map fun c => .ok c.arguments) <:+
          (records (w'.file.getD [])).map (argumentsOf P)

variable {P} {cs : List Call}

theorem matching_entriesFrom {n : Nat} (hn : 1 ≤ n) {h : Str} (hh : Hex h)
    (hcs : ∀ c ∈ cs, c.WellFormed P) :
    matching P none none 0 ((entriesFrom P n h cs).map lineOf) =
      .ok ((entriesFrom P n h cs).map .obj) := by
  induction cs generalizing n h with
  | nil => rfl
  | cons c cs ih =>
    have hparse := parse_eq_ok.2 (loads_lineOf (wellFormed_entry (n := n) hh
      (hcs c List.mem_cons_self)))
    have hkeeps : keeps P none none 0 (.obj (entry P n h c)) = .ok true := by
      have hpos : decide ((n : Int) ≤ 0) = false := decide_eq_false (by omega)
      have hle : le P (.int n) 0 = .ok false := congrArg Except.ok hpos
      refine bind_eq_ok.2 ⟨.int n, rfl, bind_eq_ok.2 ⟨false, hle, ?_⟩⟩
      rfl
    have hrest := ih (n := n + 1) (by omega) (h := entryHash P n h c) (P.sha256_hex _)
      fun d hd => hcs d (List.mem_cons_of_mem _ hd)
    rw [entriesFrom, List.map_cons, matching, hparse]
    refine bind_eq_ok.2 ⟨_, rfl, bind_eq_ok.2 ⟨true, hkeeps, bind_eq_ok.2 ⟨_, hrest, rfl⟩⟩⟩

theorem argumentsOf_entriesFrom {n : Nat} {h : Str} (hh : Hex h) (hcs : ∀ c ∈ cs, c.WellFormed P) :
    ((entriesFrom P n h cs).map lineOf).map (argumentsOf P) =
      cs.map fun c => .ok c.arguments := by
  induction cs generalizing n h with
  | nil => rfl
  | cons c cs ih =>
    have hparse := parse_eq_ok.2 (loads_lineOf (wellFormed_entry (n := n) hh
      (hcs c List.mem_cons_self)))
    have hrest := ih (n := n + 1) (h := entryHash P n h c) (P.sha256_hex _)
      fun d hd => hcs d (List.mem_cons_of_mem _ hd)
    rw [entriesFrom, List.map_cons, List.map_cons, hrest, argumentsOf, hparse]
    rfl

theorem recovers_nil (hcs : ∀ c ∈ cs, c.WellFormed P) :
    Recovers P (textOf (entries P cs)) [] := by
  have hrecords := records_entries hcs
  have hresume : AuditLog.resume P (some (textOf (entries P cs))) = .ok (logAfter P cs) :=
    resume_entries hcs hrecords
  have hstart : Holds P ⟨some (textOf (entries P cs)), logAfter P cs⟩ cs := ⟨rfl, rfl, hcs⟩
  unfold Recovers
  rw [List.append_nil]
  refine ⟨_, by rw [World.start, hresume]; rfl, ⟨(entries P cs).map .obj, ?_, ?_⟩, ?_⟩
  · refine bind_eq_ok.2 ⟨_, ?_, rfl⟩
    rw [Option.getD_some, hrecords]
    exact matching_entriesFrom le_rfl hex_genesisHash hcs
  · intro line hline v hv
    rw [hrecords] at hline
    obtain ⟨e, he, rfl⟩ := List.mem_map.1 hline
    rw [loads_lineOf (wellFormed_entries hcs e he)] at hv
    exact List.mem_map.2 ⟨e, he, Option.some.inj hv⟩
  · intro es hes
    obtain ⟨w, hrun, h⟩ := hstart.run hes
    have hall : records (w.file.getD []) =
        (entries P (cs ++ es.flatMap Event.calls)).map lineOf := by
      rw [h.file, records_entries h.calls]
    refine ⟨w, hrun, verifyChain_entries h.calls h.file, ?_, ?_⟩
    · rw [entriesOf, entriesOf, hall, Option.getD_some, hrecords, entries, entries,
        entriesFrom_append, List.map_append, List.map_append]
      exact List.prefix_append _ _
    · rw [hall, entries, argumentsOf_entriesFrom hex_genesisHash h.calls, List.map_append]
      exact List.suffix_append _ _

/-- Stripping a text that does not begin with white space takes away its end only,
and not all of it. -/
theorem strip_isPrefix {c : Char} (hc : isSpace c = false) (s : Text) :
    strip (c :: s) <+: c :: s ∧ strip (c :: s) ≠ [] := by
  have hstrip : strip (c :: s) = (c :: s).rdropWhile isSpace := by
    rw [strip, List.dropWhile_cons_of_neg (by simp [hc])]
    rfl
  rw [hstrip]
  refine ⟨List.rdropWhile_prefix isSpace _, fun hnil => ?_⟩
  have hall := List.rdropWhile_eq_nil_iff.1 hnil c List.mem_cons_self
  rw [hc] at hall
  cases hall

theorem start_of_torn (hcs : ∀ c ∈ cs, c.WellFormed P) {e : Members}
    (he : (Value.obj e).WellFormed P.floats) {p q : Text} (hline : lineOf e = p ++ q)
    (hp : p ≠ []) (hq : q ≠ []) :
    World.start P (some (textOf (entries P cs) ++ p)) = .error .jsonDecodeError := by
  obtain ⟨s, hs⟩ := lineOf_eq e
  obtain ⟨c, r, rfl⟩ := List.exists_cons_of_ne_nil hp
  have hc : isSpace c = false := by
    rw [← (List.cons.inj hline).1]
    decide
  obtain ⟨⟨t, ht⟩, hne⟩ := strip_isPrefix hc r
  have hinLine : ∀ d ∈ c :: r, inLine d = true := fun d hd =>
    inLine_lineOf he d (by rw [hline]; exact List.mem_append_left _ hd)
  have hrecords : records (c :: r) = [strip (c :: r)] := by
    rw [records, splitLines_line hinLine]
    simp [hne]
  -- what is left of the line is a proper beginning of an object
  have hloads : loads P.floats (strip (c :: r)) = none := by
    refine loads_take_eq_none isWs_of_mem_space he (q := t ++ q) (by simp [hq]) ?_
    rw [← List.append_assoc, ht, ← hline]
    rfl
  have hlast : (records ((some (textOf (entries P cs) ++ c :: r)).getD [])).getLast? =
      some (strip (c :: r)) := by
    rw [Option.getD_some, records_textOf (wellFormed_entries hcs), hrecords,
      List.getLast?_concat]
  rw [World.start, AuditLog.resume, hlast]
  simp only [parse, hloads]
  rfl

/-- **A line without its end is joined with the next one**, and the check then raises. -/
theorem verifyChain_of_joined (hcs : ∀ c ∈ cs, c.WellFormed P) {e e' : Members}
    (he : (Value.obj e).WellFormed P.floats) (he' : (Value.obj e').WellFormed P.floats) :
    verifyChain P (some (textOf (entries P cs) ++ lineOf e ++ (lineOf e' ++ ['\n']))) =
      .error .jsonDecodeError := by
  obtain ⟨s, hs⟩ := lineOf_eq e
  obtain ⟨s', hs'⟩ := lineOf_eq e'
  have hinLine : ∀ d ∈ lineOf e ++ lineOf e', inLine d = true := by
    intro d hd
    exact (List.mem_append.1 hd).elim (inLine_lineOf he d) (inLine_lineOf he' d)
  have hends : lineOf e ++ lineOf e' =
      '\x7b' :: ((s ++ '\x7d' :: '\x7b' :: s') ++ ['\x7d']) := by
    rw [hs, hs']
    simp
  have hstrip : strip (lineOf e ++ lineOf e') = lineOf e ++ lineOf e' := by
    rw [hends]
    exact strip_of_ends (by decide) (by decide) _
  have hrecords : records (lineOf e ++ (lineOf e' ++ ['\n'])) = [lineOf e ++ lineOf e'] := by
    rw [← List.append_assoc, records, splitLines_append hinLine, List.map_cons, hstrip,
      List.filter_cons_of_pos (by simp [lineOf_ne_nil])]
    rfl
  have hloads : loads P.floats (lineOf e ++ lineOf e') = none := by
    refine loads_append_eq_none isWs_of_mem_space he ?_
    exact List.cons_ne_nil _ _
  have hcheck : ∀ h, checkLine P h (lineOf e ++ lineOf e') = .error .jsonDecodeError := by
    intro h
    rw [checkLine, parse, hloads]
    rfl
  rw [verifyChain, Option.getD_some, List.append_assoc, records_textOf (wellFormed_entries hcs),
    hrecords, entries, verifyLines_entriesFrom hex_genesisHash hcs, verifyLines, hcheck]

theorem not_recovers_of_line (hcs : ∀ c ∈ cs, c.WellFormed P) {c : Call} (hc : c.WellFormed P) :
    ¬ Recovers P (textOf (entries P cs))
      (lineOf (entry P (cs.length + 1) (lastHash P cs) c)) := by
  rintro ⟨w, hstart, -, hruns⟩
  have he := wellFormed_entry (n := cs.length + 1) (hex_lastHash P cs) hc
  have hall : ∀ d ∈ cs ++ [c], d.WellFormed P := by
    intro d hd
    rcases List.mem_append.1 hd with hd | hd
    · exact hcs d hd
    · rwa [List.mem_singleton.1 hd]
  have hresume := @resume_entries P (cs ++ [c]) hall
    (some (textOf (entries P cs) ++ lineOf (entry P (cs.length + 1) (lastHash P cs) c))) (by
      rw [Option.getD_some, records_textOf (wellFormed_entries hcs), records_lineOf he,
        entries_concat, List.map_append]
      rfl)
  rw [World.start, hresume] at hstart
  cases hstart
  obtain ⟨w', hrun, hverify, -⟩ := hruns [.append c] (by simpa [Event.calls] using hc)
  have happend := append_spec (P := P) (n := (cs ++ [c]).length + 1) (hex_lastHash P (cs ++ [c]))
    (some (textOf (entries P cs) ++ lineOf (entry P (cs.length + 1) (lastHash P cs) c))) c
  rw [World.run, World.step, logAfter, happend] at hrun
  cases hrun
  have hnext := wellFormed_entry (n := (cs ++ [c]).length + 1) (hex_lastHash P (cs ++ [c])) hc
  rw [Option.getD_some, verifyChain_of_joined hcs he hnext] at hverify
  cases hverify

/-- **When a log recovers from a crash.**  The process dies in an `append` to a log that
was written by appends and restarts, with `p` of the new line in the file and not all
of it: the log recovers just in case `p` is empty. -/
theorem recovers_iff (P : Python) {es : List Event}
    (hes : ∀ c ∈ es.flatMap Event.calls, c.WellFormed P) {w : World}
    (hrun : (World.start P none >>= fun w => w.run P es) = .ok w) {c : Call} (hc : c.WellFormed P)
    {text : Text} {log : AuditLog} (happend : w.log.append P w.file c = .ok (text, log))
    {p q : Text} (hcut : text = w.file.getD [] ++ (p ++ q)) (hq : q ≠ []) :
    Recovers P (w.file.getD []) p ↔ p = [] := by
  obtain ⟨w', hrun', h⟩ := run_spec hes
  rw [hrun] at hrun'
  cases hrun'
  have hspec := append_spec (P := P) (n := (es.flatMap Event.calls).length + 1)
    (hex_lastHash P (es.flatMap Event.calls)) w.file c
  rw [h.log, logAfter, hspec] at happend
  cases happend
  have he := wellFormed_entry (n := (es.flatMap Event.calls).length + 1)
    (hex_lastHash P (es.flatMap Event.calls)) hc
  have hline := List.append_cancel_left hcut
  rw [h.file]
  constructor
  · intro hrec
    by_contra hp
    obtain hnil | ⟨q', d, rfl⟩ := List.eq_nil_or_concat q
    · exact hq hnil
    · rw [List.concat_eq_append, ← List.append_assoc] at hline
      obtain ⟨hwhole, -⟩ := List.append_inj' hline rfl
      by_cases hq' : q' = []
      · rw [hq', List.append_nil] at hwhole
        rw [← hwhole] at hrec
        exact not_recovers_of_line hes hc hrec
      · obtain ⟨_, hstart, -⟩ := hrec
        rw [start_of_torn hes he hwhole hp hq'] at hstart
        cases hstart
  · rintro rfl
    exact recovers_nil hes

theorem recovers_login : ∃ text log, (World.mk none ⟨.int 1, .str genesisHash⟩).log.append .unary
      none login = .ok (text, log) ∧ text ≠ [] ∧ Recovers .unary [] [] := by
  have hrun : (World.start Python.unary none >>= fun w => w.run .unary []) =
      .ok ⟨none, ⟨.int 1, .str genesisHash⟩⟩ := rfl
  have happend := append_spec (P := .unary) (n := 1) hex_genesisHash none login
  have hne : lineOf (entry .unary 1 genesisHash login) ++ ['\n'] ≠ [] := by simp
  have hcalls : ∀ c ∈ ([] : List Event).flatMap Event.calls, c.WellFormed .unary := by simp
  have hiff := recovers_iff .unary hcalls hrun (wellFormed_login _) happend
    (p := []) rfl hne
  exact ⟨_, _, happend, hne, hiff.2 rfl⟩

/-- A crash after the first character of the first line: no process can open the log
again. -/
theorem torn_line_blocks_start :
    ∃ text log q, (World.mk none ⟨.int 1, .str genesisHash⟩).log.append .unary none login =
        .ok (text, log) ∧ text = ['\x7b'] ++ q ∧ q ≠ [] ∧
      World.start .unary (some ['\x7b']) = .error .jsonDecodeError ∧
      tail .unary none none none 0 (some ['\x7b']) = .error .jsonDecodeError ∧
      verifyChain .unary (some ['\x7b']) = .error .jsonDecodeError := by
  obtain ⟨s, hs⟩ := lineOf_eq (entry .unary 1 genesisHash login)
  refine ⟨_, _, s ++ ['\x7d'] ++ ['\n'], append_spec hex_genesisHash none login, ?_, ?_, rfl, rfl,
    rfl⟩
  · rw [hs]
    rfl
  · simp

end Crashes

end XEdge.Observability
