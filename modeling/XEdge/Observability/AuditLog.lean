import XEdge.Lib.Except
import XEdge.Lib.HashChain
import XEdge.Lib.Json

/-!
# The audit log (`xedge/observability/audit_log.py`)

An append-only file with one JSON object a line.  Every entry carries the hash of
the entry before it and its own, which is taken over the previous hash followed by
the canonical JSON of the entry without its hash.

SHA-256 is a parameter: a function to hexadecimal texts, of any length, since no
function to texts of 64 digits is injective.  A file is its decoded text; the
reader splits lines at `\n`, `\r` and `\r\n`, and skips blank lines.
-/

namespace XEdge.Observability

open Lib Lib.Json

/-! ## Texts -/

/-- A name in the source, as a Python `str`. -/
def name (s : String) : Str := Str.ofText s.toList

def isHex (c : CodePoint) : Bool :=
  (48 ≤ c.val && c.val ≤ 57) || (97 ≤ c.val && c.val ≤ 102)

/-- `str.isspace` of a character. -/
def isSpace (c : Char) : Bool :=
  (9 ≤ c.toNat && c.toNat ≤ 13) || (28 ≤ c.toNat && c.toNat ≤ 32) ||
    c.toNat ∈ [0x85, 0xA0, 0x1680, 0x2028, 0x2029, 0x202F, 0x205F, 0x3000] ||
    (0x2000 ≤ c.toNat && c.toNat ≤ 0x200A)

def strip (s : Text) : Text := ((s.dropWhile isSpace).reverse.dropWhile isSpace).reverse

def splitLines : Text → List Text
  | [] => [[]]
  | c :: s =>
      if c = '\n' ∨ c = '\r' then [] :: splitLines s
      else
        match splitLines s with
        | [] => [[c]]
        | l :: ls => (c :: l) :: ls

def records (text : Text) : List Text := ((splitLines text).map strip).filter (· ≠ [])

/-! ## The operations -/

inductive AuditError where
  | jsonDecodeError
  | keyError
  | typeError
  | unicodeEncodeError
  deriving DecidableEq, Repr

structure Python where
  /-- `float` texts. -/
  floats : FloatFormat
  /-- `hashlib.sha256(s.encode("utf-8")).hexdigest()`. -/
  sha256 : Str → Str
  /-- A digest is a text of hexadecimal digits. -/
  sha256_hex : ∀ s, ∀ c ∈ sha256 s, isHex c = true
  /-- `x + 1` of a float. -/
  floatSucc : Text → Value
  /-- `x <= n` of a float. -/
  floatLe : Text → Int → Bool
  /-- `str(v)` of a value that is not a string. -/
  strOf : Value → Str

def genesisHash : Str := List.replicate 64 (codePoint 48)

def canonicalJson (v : Value) : Text := dumps [] (sortKeys v)

/-- `entry[key]`. -/
def getItem (v : Value) (key : Str) : Except AuditError Value :=
  match v with
  | .obj kvs =>
      match lookup key kvs with
      | some w => .ok w
      | none => .error .keyError
  | _ => .error .typeError

/-- The state of an `AuditLog`. -/
structure AuditLog where
  nextSeq : Value
  lastHash : Value

/-- The arguments of an `append`, and the time it reads off the clock. -/
structure Call where
  timestamp : Str
  actor : Str
  event : Str
  details : Option Members

/-- The entry of an `append`, without its hash. -/
def body (seq prevHash : Value) (c : Call) : Members :=
  [(name "seq", seq), (name "timestamp", .str c.timestamp), (name "actor", .str c.actor),
    (name "event", .str c.event), (name "details", .obj (c.details.getD [])),
    (name "prev_hash", prevHash)]

section Operations

variable (P : Python)

/-- `json.loads`. -/
def parse (line : Text) : Except AuditError Value :=
  match loads P.floats line with
  | some v => .ok v
  | none => .error .jsonDecodeError

/-- `v + 1`. -/
def succ : Value → Except AuditError Value
  | .int i => .ok (.int (i + 1))
  | .bool b => .ok (.int (b.toNat + 1))
  | .float t => .ok (P.floatSucc t)
  | _ => .error .typeError

/-- `v <= n`. -/
def le (v : Value) (n : Int) : Except AuditError Bool :=
  match v with
  | .int i => .ok (i ≤ n)
  | .bool b => .ok ((b.toNat : Int) ≤ n)
  | .float t => .ok (P.floatLe t n)
  | _ => .error .typeError

def digest (prevHash : Str) (entry : Value) : Str :=
  P.sha256 (prevHash ++ Str.ofText (canonicalJson entry))

def AuditLog.resume (file : Option Text) : Except AuditError AuditLog :=
  match (records (file.getD [])).getLast? with
  | none => .ok ⟨.int 1, .str genesisHash⟩
  | some line => do
      let entry ← parse P line
      let seq ← getItem entry (name "seq")
      let next ← succ P seq
      let hash ← getItem entry (name "hash")
      .ok ⟨next, hash⟩

/-- `append`: the text of the file, and the state. -/
def AuditLog.append (log : AuditLog) (file : Option Text) (c : Call) :
    Except AuditError (Text × AuditLog) :=
  match log.lastHash with
  | .str h =>
      -- a lone surrogate has no UTF-8 form
      if h.any (fun c => isHigh c || isLow c) then .error .unicodeEncodeError
      else do
        let entry := body log.nextSeq (.str h) c
        let hash := digest P h (.obj entry)
        let line := dumps [' '] (.obj (entry ++ [(name "hash", .str hash)]))
        let next ← succ P log.nextSeq
        .ok (file.getD [] ++ (line ++ ['\n']), ⟨next, .str hash⟩)
  | _ => .error .typeError

/-- Whether `tail` keeps an entry. -/
def keeps (actor event : Option Str) (sinceSeq : Int) (v : Value) : Except AuditError Bool := do
  let seq ← getItem v (name "seq")
  if ← le P seq sinceSeq then .ok false
  else
    let sameActor ← match actor with
      | none => .ok true
      | some a => do
          match ← getItem v (name "actor") with
          | .str b => .ok (decide (b = a))
          | _ => .ok false
    if sameActor then
      match event with
      | none => .ok true
      | some e => do
          match ← getItem v (name "event") with
          | .str s => .ok (e.isPrefixOf s)
          | w => .ok (e.isPrefixOf (P.strOf w))
    else .ok false

/-- The entries of lines that `tail` keeps, in order. -/
def matching (actor event : Option Str) (sinceSeq : Int) :
    List Text → Except AuditError (List Value)
  | [] => .ok []
  | line :: lines => do
      let v ← parse P line
      let kept ← keeps P actor event sinceSeq v
      let vs ← matching actor event sinceSeq lines
      .ok (if kept then v :: vs else vs)

/-- `matches[-limit:]` when there are more than `limit`. -/
def lastOnes (limit : Option Int) (vs : List Value) : List Value :=
  match limit with
  | none => vs
  | some n =>
      if n < vs.length then vs.drop (if 0 < n then vs.length - n.toNat else (-n).toNat) else vs

def tail (limit : Option Int) (actor event : Option Str) (sinceSeq : Int)
    (file : Option Text) : Except AuditError (List Value) := do
  let vs ← matching P actor event sinceSeq (records (file.getD []))
  .ok (lastOnes limit vs)

/-- `entry.items()` without the hash. -/
def withoutHash : Value → Value
  | .obj kvs => .obj (kvs.filter fun p => p.1 ≠ name "hash")
  | v => v

/-- One line of `verify_chain`, after an entry with hash `expected`: its hash, or
`none` where the function returns `False`. -/
def checkLine (expected : Str) (line : Text) : Except AuditError (Option Str) := do
  let entry ← parse P line
  match ← getItem entry (name "prev_hash") with
  | .str prev =>
      if prev = expected then
        let recomputed := digest P expected (withoutHash entry)
        match ← getItem entry (name "hash") with
        | .str hash => .ok (if recomputed = hash then some hash else none)
        | _ => .ok none
      else .ok none
  | _ => .ok none

/-- The loop of `verify_chain`. -/
def verifyLines (expected : Str) : List Text → Except AuditError Bool
  | [] => .ok true
  | line :: lines =>
      match checkLine P expected line with
      | .error e => .error e
      | .ok none => .ok false
      | .ok (some hash) => verifyLines hash lines

def verifyChain (file : Option Text) : Except AuditError Bool :=
  verifyLines P genesisHash (records (file.getD []))

/-! ## A file and its writer -/

/-- The file, and the `AuditLog` of the process. -/
structure World where
  file : Option Text
  log : AuditLog

inductive Event where
  | append (c : Call)
  | restart

def World.start (file : Option Text) : Except AuditError World := do
  let log ← AuditLog.resume P file
  .ok ⟨file, log⟩

def World.step (w : World) : Event → Except AuditError World
  | .append c => do
      let x ← w.log.append P w.file c
      .ok ⟨some x.1, x.2⟩
  | .restart => World.start P w.file

def World.run : World → List Event → Except AuditError World
  | w, [] => .ok w
  | w, e :: es => do
      let w' ← w.step P e
      World.run w' es

end Operations

/-! ## Lines -/

theorem splitLines_line {line : Text} (h : ∀ c ∈ line, inLine c = true) :
    splitLines line = [line] := by
  induction line with
  | nil => rfl
  | cons c line ih =>
    have hc := h c List.mem_cons_self
    simp only [inLine, Bool.and_eq_true, decide_eq_true_eq] at hc
    rw [splitLines, if_neg (by simp [hc.1, hc.2]),
      ih fun d hd => h d (List.mem_cons_of_mem _ hd)]

theorem splitLines_append {line : Text} (h : ∀ c ∈ line, inLine c = true) (rest : Text) :
    splitLines (line ++ '\n' :: rest) = line :: splitLines rest := by
  induction line with
  | nil => simp [splitLines]
  | cons c line ih =>
    have hc := h c List.mem_cons_self
    simp only [inLine, Bool.and_eq_true, decide_eq_true_eq] at hc
    rw [List.cons_append, splitLines, if_neg (by simp [hc.1, hc.2]),
      ih fun d hd => h d (List.mem_cons_of_mem _ hd)]

theorem strip_of_ends {c d : Char} (hc : isSpace c = false) (hd : isSpace d = false) (s : Text) :
    strip (c :: (s ++ [d])) = c :: (s ++ [d]) := by
  have hback : (c :: (s ++ [d])).reverse = d :: (c :: s).reverse := by simp
  rw [strip, List.dropWhile_cons_of_neg (by simp [hc]), hback,
    List.dropWhile_cons_of_neg (by simp [hd]), ← hback, List.reverse_reverse]

def lineOf (entry : Members) : Text := dumps [' '] (.obj entry)

def textOf (es : List Members) : Text := es.flatMap fun e => lineOf e ++ ['\n']

theorem isWs_of_mem_space : ∀ c ∈ [' '], isWs c = true := by simp [isWs]

theorem lineOf_eq (entry : Members) :
    ∃ s, lineOf entry = '\x7b' :: (s ++ ['\x7d']) := by
  exact ⟨_, rfl⟩

theorem strip_lineOf (entry : Members) : strip (lineOf entry) = lineOf entry := by
  obtain ⟨s, hs⟩ := lineOf_eq entry
  rw [hs]
  exact strip_of_ends (by decide) (by decide) s

theorem lineOf_ne_nil (entry : Members) : lineOf entry ≠ [] := by
  obtain ⟨s, hs⟩ := lineOf_eq entry
  exact List.cons_ne_nil _ _

section Written

variable {P : Python}

theorem inLine_lineOf {entry : Members} (h : (Value.obj entry).WellFormed P.floats) :
    ∀ c ∈ lineOf entry, inLine c = true :=
  inLine_dumps (by simp [inLine]) _ h

theorem loads_lineOf {entry : Members} (h : (Value.obj entry).WellFormed P.floats) :
    loads P.floats (lineOf entry) = some (.obj entry) :=
  loads_dumps isWs_of_mem_space h

theorem records_lineOf {entry : Members} (h : (Value.obj entry).WellFormed P.floats) :
    records (lineOf entry) = [lineOf entry] := by
  rw [records, splitLines_line (inLine_lineOf h)]
  simp [strip_lineOf, lineOf_ne_nil]

theorem records_textOf {es : List Members} (h : ∀ e ∈ es, (Value.obj e).WellFormed P.floats)
    (rest : Text) : records (textOf es ++ rest) = es.map lineOf ++ records rest := by
  induction es with
  | nil => rfl
  | cons e es ih =>
    have htext : textOf (e :: es) ++ rest = lineOf e ++ '\n' :: (textOf es ++ rest) := by
      simp [textOf]
    have hsplit := splitLines_append (inLine_lineOf (h e List.mem_cons_self)) (textOf es ++ rest)
    have hrest := ih fun d hd => h d (List.mem_cons_of_mem _ hd)
    rw [htext, records, hsplit, List.map_cons, strip_lineOf,
      List.filter_cons_of_pos (by simpa using lineOf_ne_nil e), ← records, hrest]
    rfl

end Written

/-! ## What is written -/

def Call.read (c : Call) : Call where
  timestamp := joinSurrogates c.timestamp
  actor := joinSurrogates c.actor
  event := joinSurrogates c.event
  details := c.details

def Event.calls : Event → List Call
  | .append c => [c]
  | .restart => []

def Call.WellFormed (P : Python) (c : Call) : Prop :=
  (Value.obj (c.details.getD [])).WellFormed P.floats

def Hex (s : Str) : Prop := ∀ c ∈ s, isHex c = true

theorem hex_genesisHash : Hex genesisHash := by
  intro c hc
  rw [List.eq_of_mem_replicate hc]
  rfl

theorem isHigh_eq_false_of_isHex {c : CodePoint} (h : isHex c = true) :
    isHigh c = false ∧ isLow c = false := by
  simp only [isHex, Bool.or_eq_true, Bool.and_eq_true, decide_eq_true_eq] at h
  simp only [isHigh, isLow, Bool.and_eq_false_iff, decide_eq_false_iff_not]
  omega

theorem Hex.joined {s : Str} (h : Hex s) : Joined s :=
  joined_of_not_high fun c hc => (isHigh_eq_false_of_isHex (h c hc)).1

theorem Hex.encodes {s : Str} (h : Hex s) : s.any (fun c => isHigh c || isLow c) = false := by
  rw [List.any_eq_false]
  intro c hc
  obtain ⟨hhigh, hlow⟩ := isHigh_eq_false_of_isHex (h c hc)
  simp [hhigh, hlow]

section Written

variable (P : Python)

/-- The hash of the entry with number `n`, after the hash `h`. -/
def entryHash (n : Nat) (h : Str) (c : Call) : Str :=
  digest P h (.obj (body (.int n) (.str h) c))

/-- The entry with number `n`, after the hash `h`, as it is read back. -/
def entry (n : Nat) (h : Str) (c : Call) : Members :=
  body (.int n) (.str h) c.read ++ [(name "hash", .str (entryHash P n h c))]

/-- The entries with the numbers from `n` on. -/
def entriesFrom : Nat → Str → List Call → List Members
  | _, _, [] => []
  | n, h, c :: cs => entry P n h c :: entriesFrom (n + 1) (entryHash P n h c) cs

def hashAfter : Nat → Str → List Call → Str
  | _, h, [] => h
  | n, h, c :: cs => hashAfter (n + 1) (entryHash P n h c) cs

def entries (cs : List Call) : List Members := entriesFrom P 1 genesisHash cs

def lastHash (cs : List Call) : Str := hashAfter P 1 genesisHash cs

variable {P}
variable {n : Nat} {h : Str} {c : Call} {cs : List Call} {line : Text}


theorem entriesFrom_append (n : Nat) (h : Str) (cs ds : List Call) :
    entriesFrom P n h (cs ++ ds) =
      entriesFrom P n h cs ++ entriesFrom P (n + cs.length) (hashAfter P n h cs) ds := by
  induction cs generalizing n h with
  | nil => rfl
  | cons c cs ih =>
    rw [List.cons_append, entriesFrom, ih, entriesFrom, List.length_cons, hashAfter,
      Nat.add_right_comm, Nat.add_assoc]
    rfl

theorem hashAfter_concat (n : Nat) (h : Str) (cs : List Call) (c : Call) :
    hashAfter P n h (cs ++ [c]) = entryHash P (n + cs.length) (hashAfter P n h cs) c := by
  induction cs generalizing n h with
  | nil => rfl
  | cons d cs ih =>
    rw [List.cons_append, hashAfter, ih, hashAfter, List.length_cons, Nat.add_right_comm,
      Nat.add_assoc]

theorem hex_hashAfter (hh : Hex h) (cs : List Call) :
    Hex (hashAfter P n h cs) := by
  induction cs generalizing n h with
  | nil => exact hh
  | cons c cs ih => exact ih (P.sha256_hex _)

/-- The writer's line is the line of the entry: a pair of surrogates is written as
the character that is read. -/
theorem dumps_entry (n : Nat) (h : Str) (c : Call) :
    dumps [' '] (.obj (body (.int n) (.str h) c ++ [(name "hash", .str (entryHash P n h c))])) =
      lineOf (entry P n h c) := by
  have hstr := fun s => (dumps_joinSurrogates [' '] s).symm
  refine dumps_obj_congr ?_
  exact .cons ⟨rfl, rfl⟩ (.cons ⟨rfl, hstr _⟩ (.cons ⟨rfl, hstr _⟩ (.cons ⟨rfl, hstr _⟩
    (.cons ⟨rfl, rfl⟩ (.cons ⟨rfl, rfl⟩ (.cons ⟨rfl, rfl⟩ .nil))))))

theorem digest_body_read (n : Nat) (h : Str) (c : Call) :
    digest P h (.obj (body (.int n) (.str h) c.read)) = entryHash P n h c := by
  have hstr := dumps_joinSurrogates []
  have hdumps : canonicalJson (.obj (body (.int n) (.str h) c.read)) =
      canonicalJson (.obj (body (.int n) (.str h) c)) := by
    unfold canonicalJson
    refine dumps_obj_congr ?_
    exact .cons ⟨rfl, hstr _⟩ (.cons ⟨rfl, rfl⟩ (.cons ⟨rfl, hstr _⟩ (.cons ⟨rfl, rfl⟩
      (.cons ⟨rfl, rfl⟩ (.cons ⟨rfl, hstr _⟩ .nil)))))
  rw [entryHash, digest, digest, hdumps]

theorem wellFormed_entry (hh : Hex h) (hc : c.WellFormed P) :
    (Value.obj (entry P n h c)).WellFormed P.floats := by
  have hkeys : (entry P n h c).map Prod.fst = [name "seq", name "timestamp", name "actor",
    name "event", name "details", name "prev_hash", name "hash"] := rfl
  refine ⟨?_, ?_⟩
  · rw [hkeys]
    decide
  · have hread := joined_joinSurrogates
    have hname : ∀ s : Str, s.all (fun c => !isHigh c) = true → Joined s := fun s hs =>
      joined_of_not_high fun c hc => by simpa using List.all_eq_true.1 hs c hc
    exact ⟨hname _ (by decide), trivial, hname _ (by decide), hread _, hname _ (by decide),
      hread _, hname _ (by decide), hread _, hname _ (by decide), hc, hname _ (by decide),
      hh.joined, hname _ (by decide), Hex.joined (P.sha256_hex _), trivial⟩

theorem wellFormed_entriesFrom (hh : Hex h) (hcs : ∀ c ∈ cs, c.WellFormed P) :
    ∀ e ∈ entriesFrom P n h cs, (Value.obj e).WellFormed P.floats := by
  induction cs generalizing n h with
  | nil =>
    intro e he
    cases he
  | cons c cs ih =>
    intro e he
    rcases List.mem_cons.1 he with rfl | he
    · exact wellFormed_entry hh (hcs c List.mem_cons_self)
    · exact ih (P.sha256_hex _) (fun d hd => hcs d (List.mem_cons_of_mem _ hd)) e he

theorem wellFormed_entries (hcs : ∀ c ∈ cs, c.WellFormed P) :
    ∀ e ∈ entries P cs, (Value.obj e).WellFormed P.floats :=
  wellFormed_entriesFrom hex_genesisHash hcs

theorem records_entries (hcs : ∀ c ∈ cs, c.WellFormed P) :
    records (textOf (entries P cs)) = (entries P cs).map lineOf := by
  have h := records_textOf (wellFormed_entries hcs) []
  rw [List.append_nil] at h
  rw [h, show records [] = [] from rfl, List.append_nil]

theorem entries_concat (cs : List Call) (c : Call) :
    entries P (cs ++ [c]) = entries P cs ++ [entry P (cs.length + 1) (lastHash P cs) c] := by
  rw [entries, entriesFrom_append, Nat.add_comm 1]
  rfl

theorem lastHash_concat (cs : List Call) (c : Call) :
    lastHash P (cs ++ [c]) = entryHash P (cs.length + 1) (lastHash P cs) c := by
  rw [lastHash, hashAfter_concat, Nat.add_comm 1]
  rfl

variable (P) in
theorem hex_lastHash (cs : List Call) : Hex (lastHash P cs) := hex_hashAfter hex_genesisHash cs

/-! ## Runs -/

variable (P)

def logAfter (cs : List Call) : AuditLog :=
  ⟨.int ((cs.length + 1 : Nat) : Int), .str (lastHash P cs)⟩

structure Holds (w : World) (cs : List Call) : Prop where
  file : w.file.getD [] = textOf (entries P cs)
  log : w.log = logAfter P cs
  calls : ∀ c ∈ cs, c.WellFormed P

variable {P}

theorem resume_entry (hh : Hex h) (hc : c.WellFormed P) {file : Option Text}
    (hlast : (records (file.getD [])).getLast? = some (lineOf (entry P n h c))) :
    AuditLog.resume P file = .ok ⟨.int ((n : Int) + 1), .str (entryHash P n h c)⟩ := by
  rw [AuditLog.resume, hlast]
  simp only [parse]
  rw [loads_lineOf (wellFormed_entry hh hc)]
  rfl

theorem resume_entries (hcs : ∀ c ∈ cs, c.WellFormed P) {file : Option Text}
    (hfile : records (file.getD []) = (entries P cs).map lineOf) :
    AuditLog.resume P file = .ok (logAfter P cs) := by
  induction cs using List.reverseRecOn with
  | nil =>
    rw [AuditLog.resume, hfile]
    rfl
  | append_singleton cs c _ =>
    have hc := hcs c (List.mem_append_right _ (List.mem_singleton_self c))
    have hlast : (records (file.getD [])).getLast? =
        some (lineOf (entry P (cs.length + 1) (lastHash P cs) c)) := by
      rw [hfile, entries_concat]
      simp
    rw [resume_entry (hex_lastHash P cs) hc hlast, logAfter, lastHash_concat, List.length_append,
      List.length_singleton, Nat.cast_add_one (cs.length + 1)]

theorem append_spec (hh : Hex h) (file : Option Text) (c : Call) :
    AuditLog.append P ⟨.int n, .str h⟩ file c =
      .ok (file.getD [] ++ (lineOf (entry P n h c) ++ ['\n']),
        ⟨.int ((n : Int) + 1), .str (entryHash P n h c)⟩) := by
  simp only [AuditLog.append]
  rw [hh.encodes, ← dumps_entry]
  rfl

theorem holds_start : ∃ w, World.start P none = .ok w ∧ Holds P w [] := by
  refine ⟨_, rfl, rfl, rfl, ?_⟩
  intro c hc
  cases hc

theorem Holds.step {w : World} (h : Holds P w cs) {e : Event} (he : ∀ c ∈ e.calls, c.WellFormed P) :
    ∃ w', w.step P e = .ok w' ∧ Holds P w' (cs ++ e.calls) := by
  have hcalls : ∀ d ∈ cs ++ e.calls, d.WellFormed P := by
    intro d hd
    exact (List.mem_append.1 hd).elim (h.calls d) (he d)
  cases e with
  | append c =>
    have happend := append_spec (P := P) (n := cs.length + 1) (hex_lastHash P cs) w.file c
    refine ⟨_, by rw [World.step, h.log, logAfter, happend]; rfl, ?_, ?_, hcalls⟩
    · rw [Event.calls, entries_concat]
      simp [textOf, h.file]
    · rw [Event.calls, logAfter, lastHash_concat, List.length_append, List.length_singleton,
        Nat.cast_add_one (cs.length + 1)]
  | restart =>
    have hrecords : records (w.file.getD []) = (entries P cs).map lineOf := by
      rw [h.file, records_entries h.calls]
    have hresume := resume_entries h.calls hrecords
    refine ⟨_, by rw [World.step, World.start, hresume]; rfl, ?_, ?_, hcalls⟩
    · rw [Event.calls, List.append_nil]
      exact h.file
    · rw [Event.calls, List.append_nil]

theorem Holds.run {w : World} (h : Holds P w cs) {es : List Event}
    (hes : ∀ c ∈ es.flatMap Event.calls, c.WellFormed P) :
    ∃ w', w.run P es = .ok w' ∧ Holds P w' (cs ++ es.flatMap Event.calls) := by
  induction es generalizing w cs with
  | nil => exact ⟨w, rfl, by simpa using h⟩
  | cons e es ih =>
    rw [List.flatMap_cons] at hes ⊢
    obtain ⟨w₁, hstep, h₁⟩ := h.step fun c hc => hes c (List.mem_append_left _ hc)
    obtain ⟨w', hrun, h'⟩ := ih h₁ fun c hc => hes c (List.mem_append_right _ hc)
    refine ⟨w', ?_, by rw [← List.append_assoc]; exact h'⟩
    rw [World.run, hstep]
    exact hrun

theorem run_spec {es : List Event} (hes : ∀ c ∈ es.flatMap Event.calls, c.WellFormed P) :
    ∃ w, (World.start P none >>= fun w => w.run P es) = .ok w ∧
      Holds P w (es.flatMap Event.calls) := by
  obtain ⟨w₀, hstart, h₀⟩ := holds_start (P := P)
  obtain ⟨w, hrun, h⟩ := h₀.run hes
  exact ⟨w, bind_eq_ok.2 ⟨w₀, hstart, hrun⟩, by simpa using h⟩

/-! ## Verification -/

theorem getItem_eq_ok {v w : Value} {k : Str} :
    getItem v k = .ok w ↔ ∃ kvs, v = .obj kvs ∧ lookup k kvs = some w := by
  unfold getItem
  constructor
  · intro h
    split at h
    · next kvs =>
      split at h
      · next u hu =>
        cases h
        exact ⟨kvs, rfl, hu⟩
      · cases h
    · cases h
  · rintro ⟨kvs, rfl, h⟩
    simp only [h]

theorem parse_eq_ok {v : Value} :
    parse P line = .ok v ↔ loads P.floats line = some v := by
  unfold parse
  split <;> simp_all

theorem checkLine_eq_some {h x : Str} :
    checkLine P h line = .ok (some x) ↔
      ∃ kvs, loads P.floats line = some (.obj kvs) ∧
        lookup (name "prev_hash") kvs = some (.str h) ∧
        lookup (name "hash") kvs = some (.str x) ∧ x = digest P h (withoutHash (.obj kvs)) := by
  constructor
  · intro hcheck
    obtain ⟨v, hparse, hcheck⟩ := bind_eq_ok.1 hcheck
    obtain ⟨prev, hprev, hcheck⟩ := bind_eq_ok.1 hcheck
    obtain ⟨kvs, rfl, hlookup⟩ := getItem_eq_ok.1 hprev
    split at hcheck
    · split at hcheck
      · next hsame =>
        obtain ⟨hash, hhash, hcheck⟩ := bind_eq_ok.1 hcheck
        obtain ⟨_, hkvs, hhash⟩ := getItem_eq_ok.1 hhash
        cases hkvs
        split at hcheck
        · split at hcheck
          · next hdigest =>
            cases hcheck
            subst hsame
            exact ⟨_, parse_eq_ok.1 hparse, hlookup, hhash, hdigest.symm⟩
          · cases hcheck
        · cases hcheck
      · cases hcheck
    · cases hcheck
  · rintro ⟨kvs, hloads, hprev, hhash, rfl⟩
    refine bind_eq_ok.2 ⟨_, parse_eq_ok.2 hloads, ?_⟩
    refine bind_eq_ok.2 ⟨_, getItem_eq_ok.2 ⟨kvs, rfl, hprev⟩, ?_⟩
    simp only [↓reduceIte]
    refine bind_eq_ok.2 ⟨_, getItem_eq_ok.2 ⟨kvs, rfl, hhash⟩, ?_⟩
    simp only [↓reduceIte]

theorem checkLine_entry (hh : Hex h) (hc : c.WellFormed P) :
    checkLine P h (lineOf (entry P n h c)) = .ok (some (entryHash P n h c)) := by
  refine checkLine_eq_some.2 ⟨_, loads_lineOf (wellFormed_entry hh hc), rfl, rfl, ?_⟩
  exact (digest_body_read n h c).symm

theorem verifyLines_entriesFrom (hh : Hex h) (hcs : ∀ c ∈ cs, c.WellFormed P) (rest : List Text) :
    verifyLines P h ((entriesFrom P n h cs).map lineOf ++ rest) =
      verifyLines P (hashAfter P n h cs) rest := by
  induction cs generalizing n h with
  | nil => rfl
  | cons c cs ih =>
    rw [entriesFrom, List.map_cons, List.cons_append, verifyLines,
      checkLine_entry hh (hcs c List.mem_cons_self)]
    exact ih (P.sha256_hex _) fun d hd => hcs d (List.mem_cons_of_mem _ hd)

theorem verifyLines_entries (hcs : ∀ c ∈ cs, c.WellFormed P) :
    verifyLines P genesisHash ((entries P cs).map lineOf) = .ok true := by
  have hlines := verifyLines_entriesFrom (n := 1) hex_genesisHash hcs []
  rw [List.append_nil] at hlines
  rw [entries, hlines]
  rfl

theorem verifyChain_entries (hcs : ∀ c ∈ cs, c.WellFormed P)
    {file : Option Text} (hfile : file.getD [] = textOf (entries P cs)) :
    verifyChain P file = .ok true := by
  rw [verifyChain, hfile, records_entries hcs, verifyLines_entries hcs]

/-! ## Binding -/

variable (P)

def link (h : Str) (b : Value) : Str := P.sha256 (h ++ Str.ofText (dumps [] b))

def bodyOf (line : Text) : Value := sortKeys (withoutHash ((loads P.floats line).getD .null))

def entryOf (line : Text) : Option Value := (loads P.floats line).map sortKeys

def entriesOf (file : Option Text) : List (Option Value) :=
  (records (file.getD [])).map (entryOf P)

def tipOf (file : Option Text) : Option Value :=
  (records (file.getD [])).getLast?.bind fun line =>
    (parse P line >>= fun v => getItem v (name "hash")).toOption

/-- What `seq` is on each line of a file. -/
def seqsOf (file : Option Text) : List (Option Value) :=
  (records (file.getD [])).map fun line =>
    (parse P line >>= fun v => getItem v (name "seq")).toOption

variable {P}

theorem hex_append_inj {h h' : Str} (hh : Hex h) (hh' : Hex h') {c : CodePoint}
    (hc : isHex c = false) {s s' : Str} (heq : h ++ c :: s = h' ++ c :: s') :
    h = h' ∧ s = s' := by
  have hcut : ∀ {g : Str}, Hex g → ∀ r : Str, (g ++ c :: r).takeWhile isHex = g := by
    intro g hg r
    rw [List.takeWhile_append_of_pos hg, List.takeWhile_cons_of_neg (by simp [hc]),
      List.append_nil]
  have hsame : h = h' := by rw [← hcut hh s, heq, hcut hh' s']
  subst hsame
  exact ⟨rfl, (List.cons.inj (List.append_cancel_left heq)).2⟩

def IsBody (P : Python) (b : Value) : Prop := ∃ kvs, b = .obj kvs ∧ b.WellFormed P.floats

/-- **What is hashed determines the hash before it and the entry**, so an injective
SHA-256 makes the chain binding. -/
theorem Python.binding (hinj : Function.Injective P.sha256)
    (hfresh : ∀ s, P.sha256 s ≠ genesisHash) :
    HashChain.Binding (link P) genesisHash Hex (IsBody P) where
  start := hex_genesisHash
  closed _ _ := P.sha256_hex _
  fresh _ _ := hfresh _
  injective := by
    rintro h h' b b' hh hh' ⟨kvs, rfl, hb⟩ ⟨kvs', rfl, hb'⟩ heq
    have htext := hinj heq
    have hbrace : ∀ kvs, Str.ofText (dumps [] (.obj kvs)) =
        codePoint 123 :: Str.ofText (dumpsMembers [] kvs ++ ['\x7d']) := by
      intro kvs
      rw [dumps_obj]
      rfl
    rw [hbrace, hbrace] at htext
    obtain ⟨rfl, hrest⟩ := hex_append_inj hh hh' (by decide) htext
    have hdumps : dumps [] (.obj kvs) = dumps [] (.obj kvs') := by
      rw [dumps_obj, dumps_obj, ofText_injective hrest]
    exact ⟨rfl, dumps_injective (by simp) hb hb' hdumps⟩

theorem isBody_sortKeys {kvs : Members} (h : (Value.obj kvs).WellFormed P.floats) :
    IsBody P (sortKeys (.obj kvs)) := by
  have hwf := wellFormed_sortKeys _ h
  exact ⟨_, rfl, hwf⟩

theorem isBody_bodyOf {kvs : Members} (h : loads P.floats line = some (.obj kvs)) :
    IsBody P (bodyOf P line) := by
  obtain ⟨hnodup, hmembers⟩ := wellFormed_of_loads h
  rw [bodyOf, h]
  refine isBody_sortKeys ⟨hnodup.sublist (List.filter_sublist.map _), ?_⟩
  exact wellFormedMembers_iff.2 fun p hp =>
    wellFormedMembers_iff.1 hmembers p (List.mem_of_mem_filter hp)

theorem checkLine_spec {h x : Str} (hcheck : checkLine P h line = .ok (some x)) :
    IsBody P (bodyOf P line) ∧ x = link P h (bodyOf P line) := by
  obtain ⟨kvs, hloads, -, -, hx⟩ := checkLine_eq_some.1 hcheck
  refine ⟨isBody_bodyOf hloads, ?_⟩
  rw [hx, bodyOf, hloads]
  rfl

theorem entryOf_eq {h x x' : Str} {line line' : Text}
    (hcheck : checkLine P h line = .ok (some x)) (hcheck' : checkLine P h line' = .ok (some x'))
    (hbody : bodyOf P line = bodyOf P line') : entryOf P line = entryOf P line' := by
  have hx : x = x' := by rw [(checkLine_spec hcheck).2, (checkLine_spec hcheck').2, hbody]
  subst hx
  obtain ⟨kvs, hloads, -, hhash, -⟩ := checkLine_eq_some.1 hcheck
  obtain ⟨kvs', hloads', -, hhash', -⟩ := checkLine_eq_some.1 hcheck'
  rw [bodyOf, bodyOf, hloads, hloads'] at hbody
  rw [entryOf, entryOf, hloads, hloads', Option.map_some, Option.map_some]
  exact congrArg some (sortKeys_obj_of_filter (wellFormed_of_loads hloads).1
    (wellFormed_of_loads hloads').1 hhash hhash' hbody)

theorem verifyLines_cons {lines : List Text} :
    verifyLines P h (line :: lines) = .ok true ↔
      ∃ x, checkLine P h line = .ok (some x) ∧ verifyLines P x lines = .ok true := by
  rw [verifyLines]
  cases hcheck : checkLine P h line with
  | error e => simp
  | ok r =>
    cases r with
    | none | some => simp

theorem isBody_of_verifyLines {lines : List Text}
    (hv : verifyLines P h lines = .ok true) : ∀ b ∈ lines.map (bodyOf P), IsBody P b := by
  induction lines generalizing h with
  | nil =>
    intro b hb
    cases hb
  | cons line lines ih =>
    obtain ⟨x, hcheck, hrest⟩ := verifyLines_cons.1 hv
    intro b hb
    rcases List.mem_cons.1 hb with rfl | hb
    · exact (checkLine_spec hcheck).1
    · exact ih hrest b hb

theorem tip_of_verifyLines {lines : List Text} (hv : verifyLines P h (lines ++ [line]) = .ok true) :
    (parse P line >>= fun v => getItem v (name "hash")) =
      .ok (.str (HashChain.tip (link P) h ((lines ++ [line]).map (bodyOf P)))) := by
  induction lines generalizing h with
  | nil =>
    obtain ⟨x, hcheck, -⟩ := verifyLines_cons.1 hv
    have hx := (checkLine_spec hcheck).2
    obtain ⟨kvs, hloads, -, hhash, -⟩ := checkLine_eq_some.1 hcheck
    refine bind_eq_ok.2 ⟨_, parse_eq_ok.2 hloads, ?_⟩
    rw [hx] at hhash
    exact getItem_eq_ok.2 ⟨kvs, rfl, hhash⟩
  | cons l lines ih =>
    obtain ⟨x, hcheck, hrest⟩ := verifyLines_cons.1 hv
    rw [ih hrest, (checkLine_spec hcheck).2]
    rfl

theorem entryOf_eq_of_bodies {lines lines' : List Text}
    (hv : verifyLines P h lines = .ok true) (hv' : verifyLines P h lines' = .ok true)
    (hbodies : lines.map (bodyOf P) = lines'.map (bodyOf P)) :
    lines.map (entryOf P) = lines'.map (entryOf P) := by
  induction lines generalizing h lines' with
  | nil =>
    rw [List.map_nil, eq_comm, List.map_eq_nil_iff] at hbodies
    rw [hbodies]
  | cons l lines ih =>
    cases lines' with
    | nil => cases hbodies
    | cons l' lines' =>
      obtain ⟨hl, hlines⟩ := List.cons.inj hbodies
      obtain ⟨x, hcheck, hrest⟩ := verifyLines_cons.1 hv
      obtain ⟨x', hcheck', hrest'⟩ := verifyLines_cons.1 hv'
      have hx : x = x' := by rw [(checkLine_spec hcheck).2, (checkLine_spec hcheck').2, hl]
      subst hx
      rw [List.map_cons, List.map_cons, entryOf_eq hcheck hcheck' hl, ih hrest hrest' hlines]

theorem entriesOf_eq (hinj : Function.Injective P.sha256)
    (hfresh : ∀ s, P.sha256 s ≠ genesisHash) {f g : Option Text}
    (hf : verifyChain P f = .ok true) (hg : verifyChain P g = .ok true) {x : Value}
    (hxf : tipOf P f = some x) (hxg : tipOf P g = some x) : entriesOf P f = entriesOf P g := by
  have htip : ∀ {file}, verifyChain P file = .ok true → tipOf P file = some x →
      x = .str (HashChain.tip (link P) genesisHash
        ((records (file.getD [])).map (bodyOf P))) := by
    intro file hv hx
    rw [verifyChain] at hv
    rw [tipOf] at hx
    induction hlines : records (file.getD []) using List.reverseRecOn with
    | nil =>
      rw [hlines] at hx
      cases hx
    | append_singleton lines line _ =>
      rw [hlines] at hx hv
      rw [List.getLast?_concat, Option.bind_some, tip_of_verifyLines hv] at hx
      exact (Option.some.inj hx).symm
  have hsame := (htip hf hxf).symm.trans (htip hg hxg)
  have hbodies := (Python.binding hinj hfresh).eq_of_tip (isBody_of_verifyLines hf)
    (isBody_of_verifyLines hg) (Value.str.inj hsame)
  exact entryOf_eq_of_bodies hf hg hbodies

theorem seqsOf_entries (hh : Hex h) (hcs : ∀ c ∈ cs, c.WellFormed P) :
    ((entriesFrom P n h cs).map lineOf).map
        (fun line => (parse P line >>= fun v => getItem v (name "seq")).toOption) =
      (List.range' n cs.length).map fun i => some (.int (i : Int)) := by
  induction cs generalizing n h with
  | nil => rfl
  | cons c cs ih =>
    have hparse := parse_eq_ok.2 (loads_lineOf (wellFormed_entry (n := n) hh
      (hcs c List.mem_cons_self)))
    have hrest := ih (n := n + 1) (h := entryHash P n h c) (P.sha256_hex _)
      fun d hd => hcs d (List.mem_cons_of_mem _ hd)
    rw [entriesFrom, List.map_cons, List.map_cons, hparse, List.length_cons, List.range'_succ,
      List.map_cons, hrest]
    rfl

/-- **The chain is binding.**  For a SHA-256 without collisions that never yields the
genesis value, two accepted files whose last entries carry one hash have the same
entries.  Every run of appends and restarts, from no file, leaves an accepted file
with the sequence numbers `1, …, n`. -/
theorem audit_chain_binding (P : Python) (hinj : Function.Injective P.sha256)
    (hfresh : ∀ s, P.sha256 s ≠ genesisHash) :
    (∀ f g : Option Text, verifyChain P f = .ok true → verifyChain P g = .ok true →
      ∀ x, tipOf P f = some x → tipOf P g = some x → entriesOf P f = entriesOf P g) ∧
    ∀ es : List Event, (∀ c ∈ es.flatMap Event.calls, c.WellFormed P) →
      ∃ w, (World.start P none >>= fun w => w.run P es) = .ok w ∧
        verifyChain P w.file = .ok true ∧
        seqsOf P w.file =
          (List.range' 1 (es.flatMap Event.calls).length).map fun i => some (.int (i : Int)) := by
  refine ⟨fun f g hf hg x => entriesOf_eq hinj hfresh hf hg, fun es hes => ?_⟩
  obtain ⟨w, hrun, h⟩ := run_spec hes
  refine ⟨w, hrun, verifyChain_entries hes h.file, ?_⟩
  rw [seqsOf, h.file, records_entries hes]
  exact seqsOf_entries hex_genesisHash hes

/-- A digest without collisions: every text has a number, written in unary. -/
def unary (s : Str) : Str := List.replicate (Encodable.encode s) (codePoint 97)

theorem unary_injective : Function.Injective unary := by
  intro s t h
  have hlen := congrArg List.length h
  rw [unary, unary, List.length_replicate, List.length_replicate] at hlen
  exact Encodable.encode_injective hlen

theorem unary_ne_genesisHash (s : Str) : unary s ≠ genesisHash := by
  intro h
  have hmem : codePoint 48 ∈ unary s := by
    rw [h]
    exact List.mem_replicate.2 ⟨by decide, rfl⟩
  exact absurd (List.eq_of_mem_replicate hmem) (by decide)

def Python.unary : Python where
  floats := .exact
  sha256 := Observability.unary
  sha256_hex := by
    intro s c hc
    rw [List.eq_of_mem_replicate hc]
    rfl
  floatSucc t := .float t
  floatLe _ _ := false
  strOf _ := []

def login : Call where
  timestamp := name "2026-01-05T08:00:00+00:00"
  actor := name "admin"
  event := name "auth.login"
  details := none

theorem wellFormed_login (P : Python) : login.WellFormed P := ⟨List.nodup_nil, trivial⟩

theorem audit_chain_binding_unary :
    Function.Injective Python.unary.sha256 ∧ (∀ s, Python.unary.sha256 s ≠ genesisHash) ∧
      ∃ w, (World.start .unary none >>= fun w =>
          w.run .unary [.append login, .restart, .append login]) = .ok w ∧
        verifyChain .unary w.file = .ok true ∧
        seqsOf .unary w.file = [some (.int 1), some (.int 2)] ∧
        ∀ g x, verifyChain .unary g = .ok true → tipOf .unary w.file = some x →
          tipOf .unary g = some x → entriesOf .unary w.file = entriesOf .unary g := by
  obtain ⟨hsame, hruns⟩ :=
    audit_chain_binding .unary unary_injective unary_ne_genesisHash
  obtain ⟨w, hrun, hverify, hseqs⟩ := hruns [.append login, .restart, .append login] (by
    intro c hc
    have hc' : c = login := by simpa [Event.calls] using hc
    rw [hc']
    exact wellFormed_login _)
  exact ⟨unary_injective, unary_ne_genesisHash, w, hrun, hverify, hseqs,
    fun g x hg hx hxg => hsame _ g hverify hg x hx hxg⟩

end Written

end XEdge.Observability
