import XEdge.Lib.Machine
import XEdge.Lib.Link
import XEdge.Core.Pipeline

/-!
# BACnet MS/TP over the daemon's socket (`xedge/drivers/bacnet/mstp_client.py`)

The driver asks a daemon for one property at a time: it writes a line with the request and
reads a line with the answer, under a lock that all poll loops share.  The daemon
(`mstp_daemon/main.c`) answers every request line with one line, in order.  Neither side
numbers its lines.

`_read_tag` gives up after a while.  The daemon does not notice: its answer comes later,
stays in the stream, and is the line that the next request reads.

A line counts as received when its newline is there; `readline` takes nothing before that,
so a read that is given up leaves the stream as it is.
-/

namespace XEdge.Bacnet

open Lib XEdge.Core

/-! ## Requests, answers and values -/

structure Tag where
  id : String
  deviceInstance : Int
  macAddress : Int
  objectType : String
  objectInstance : Int
  propertyId : Option String
  deriving DecidableEq, Repr

def DEFAULT_PROPERTY_ID : String := "present-value"

structure RequestLine where
  deviceInstance : Int
  mac : Int
  objectType : String
  objectInstance : Int
  propertyId : String
  deriving DecidableEq, Repr

/-- The request that `_request` makes of a tag. -/
def Tag.requestLine (tag : Tag) : RequestLine where
  deviceInstance := tag.deviceInstance
  mac := tag.macAddress
  objectType := tag.objectType
  objectInstance := tag.objectInstance
  propertyId := tag.propertyId.getD DEFAULT_PROPERTY_ID

inductive JsonValue where
  | null
  | bool (b : Bool)
  | int (i : Int)
  | float (x : ℚ)
  | str (s : String)
  deriving DecidableEq

/-- A line of the daemon, as `json.loads` reads it. -/
inductive Answer where
  /-- `ok` is true. -/
  | value (v : JsonValue)
  /-- `ok` is false. -/
  | error (text : String)
  | malformed
  deriving DecidableEq

def BINARY_OBJECT_TYPES : List String := ["binary-input", "binary-output", "binary-value"]

/-- Whether the value of the tag is a binary present-value.  An empty property id counts as
none, as `or` takes it. -/
def isBinaryPresentValue (objectType : String) (propertyId : Option String) : Bool :=
  objectType ∈ BINARY_OBJECT_TYPES &&
    match propertyId with
    | none | some "" => true
    | some p => p = "present-value"

def coerceValue (value : JsonValue) (objectType : String) (propertyId : Option String) : TagValue :=
  match value, isBinaryPresentValue objectType propertyId with
  | .int i, true => .bool (i ≠ 0)
  -- `int(x)` drops the fraction
  | .float x, true => .bool (x.num.tdiv x.den ≠ 0)
  | .bool b, _ => .bool b
  | .int i, false => .int i
  | .float x, false => .float x
  | .str s, _ => .str s
  | .null, _ => .str "None"

/-! ## The session -/

/-- A request that was sent: its number among all requests, the tag it is for and the line
that was written. -/
structure Request where
  number : Nat
  tag : Tag
  line : RequestLine
  deriving DecidableEq, Repr

/-- An answer, labelled with the number of the request it answers.  Nothing reads the label. -/
abbrev Line := Nat × Answer

def lines : Protocol Request Answer Line where
  next _ chunks := if chunks = [] then .more 1 else .done
  reply r a := [(r.number, a)]

/-- An update that `_read_tag` returned, with the request it is for; `none` where the lock
was not got in time. -/
structure Emitted where
  tag : Tag
  request : Option Nat
  update : TagUpdate

structure Session where
  link : Link Request Line
  sent : Nat
  answers : List Line
  emitted : List Emitted

inductive SessionEvent where
  | request (tag : Tag)
  | lockTimeout (tag : Tag) (now : Int)
  | answer (a : Answer)
  | deliver
  /-- `readline` returns. -/
  | readLine (now : Int)
  /-- The wait for the answer times out, or the socket raises an `OSError`. -/
  | timeout (now : Int)
  /-- The daemon closed the connection, and the supervisor starts driver and daemon again. -/
  | reconnect
  deriving DecidableEq

namespace Session

variable (instanceId : String)

def new : Session := ⟨Link.new, 0, [], []⟩

/-- An update of `_read_tag`. -/
def tagUpdate (tag : Tag) (now : Int) (value : TagValue) (quality : Quality) : TagUpdate where
  tagId := instanceId ++ "/" ++ tag.id
  value
  quality
  timestampNs := now
  sourceTimestampNs := none
  sourceDriver := instanceId
  sourceAddress := toString tag.deviceInstance ++ "/" ++ tag.objectType ++ ":" ++
    toString tag.objectInstance

/-- The `BAD` update of a request that failed. -/
def badUpdate (tag : Tag) (now : Int) : TagUpdate := tagUpdate instanceId tag now (.int 0) .bad

/-- What `_read_tag` makes of the line it read. -/
def updateOf (tag : Tag) (now : Int) : Answer → TagUpdate
  | .value v => tagUpdate instanceId tag now (coerceValue v tag.objectType tag.propertyId) .good
  | .error _ => badUpdate instanceId tag now
  | .malformed => badUpdate instanceId tag now

/-- `readline`: the next line, if it is there, is the answer to the request. -/
def takeLine (l : Link Request Line) : Option (Request × Line × Link Request Line) :=
  match l.progress lines with
  | some (.reading l') =>
      match l'.progress lines with
      | some (.finished r [line] l'') => some (r, line, l'')
      | _ => none
  | _ => none

def step (s : Session) : SessionEvent → Option Session
  | .request tag =>
      (s.link.send ⟨s.sent, tag, tag.requestLine⟩).map fun l =>
        { s with link := l, sent := s.sent + 1 }
  | .lockTimeout tag now =>
      some { s with emitted := s.emitted ++ [⟨tag, none, badUpdate instanceId tag now⟩] }
  | .answer a =>
      match s.link.unanswered with
      | r :: _ =>
          (s.link.answer lines 0 a).map fun l =>
            { s with link := l, answers := s.answers ++ [(r.number, a)] }
      | [] => none
  | .deliver => (s.link.deliver 1).map fun l => { s with link := l }
  | .readLine now =>
      (takeLine s.link).map fun p =>
        { s with
          link := p.2.2
          emitted := s.emitted ++
            [⟨p.1.tag, some p.1.number, updateOf instanceId p.1.tag now p.2.1.2⟩] }
  | .timeout now =>
      s.link.abort.map fun p =>
        { s with
          link := p.2
          emitted := s.emitted ++ [⟨p.1.tag, some p.1.number, badUpdate instanceId p.1.tag now⟩] }
  | .reconnect => some { s with link := Link.new }

def SendsOnQuiet (s : Session) : SessionEvent → Prop
  | .request _ => s.link.Quiet
  | _ => True

instance (s : Session) : (e : SessionEvent) → Decidable (s.SendsOnQuiet e)
  | .request _ => inferInstanceAs (Decidable s.link.Quiet)
  | .lockTimeout .. | .answer _ | .deliver | .readLine _ | .timeout _ | .reconnect => isTrue trivial

/-- A `GOOD` update carries the value that the daemon sent in answer to its own request. -/
def OwnAnswer (answers : List Line) (e : Emitted) : Prop :=
  e.update.quality = .good → ∃ n v, e.request = some n ∧ (n, Answer.value v) ∈ answers ∧
    e.update.value = coerceValue v e.tag.objectType e.tag.propertyId

/-! ## Every value comes from the answer to its request -/

variable {r : Request} {line : Line}

theorem takeLine_spec {l l' : Link Request Line} (h : takeLine l = some (r, line, l')) :
    ∃ rest, l.current = some (r, []) ∧ l.inbox = line :: rest ∧
      l' = { l with inbox := rest, current := none } := by
  unfold takeLine Link.progress at h
  match hcur : l.current with
  | none => simp [hcur] at h
  | some (r', c :: cs) => simp [hcur, lines] at h
  | some (r', []) =>
    match hin : l.inbox with
    | [] => simp [hcur, lines, hin] at h
    | line' :: rest =>
      simp only [hcur, lines, hin, List.length_cons, Nat.le_add_left, if_pos,
        List.nil_append, List.take_succ_cons, List.take_zero, List.cons_ne_nil, if_false,
        List.flatten_cons, List.flatten_nil, List.append_nil, Option.some.injEq, Prod.mk.injEq] at h
      obtain ⟨rfl, rfl, rfl⟩ := h
      exact ⟨rest, rfl, rfl, rfl⟩

structure Sound (s : Session) : Prop where
  paired : s.link.Paired lines
  genuine : ∀ x ∈ s.link.inbox ++ s.link.wire, x ∈ s.answers
  own : ∀ e ∈ s.emitted, OwnAnswer s.answers e

theorem OwnAnswer.mono {answers answers' : List Line} {e : Emitted} (h : OwnAnswer answers e)
    (hsub : ∀ x ∈ answers, x ∈ answers') : OwnAnswer answers' e := by
  intro hgood
  obtain ⟨n, v, hn, hmem, hv⟩ := h hgood
  exact ⟨n, v, hn, hsub _ hmem, hv⟩

theorem ownAnswer_bad (answers : List Line) (tag : Tag) (n : Option Nat) (now : Int) :
    OwnAnswer answers ⟨tag, n, badUpdate instanceId tag now⟩ := by
  intro hgood
  cases hgood

theorem sound_new : new.Sound := ⟨Link.paired_new, by simp [new, Link.new], by simp [new]⟩

variable {instanceId}

variable {s : Session} {rest : List Line}

theorem Sound.own_line (h : s.Sound)
    (hcur : s.link.current = some (r, [])) (hin : s.link.inbox = line :: rest) :
    line.1 = r.number ∧ line ∈ s.answers := by
  refine ⟨?_, h.genuine line (by simp [hin])⟩
  rcases h.paired r [] hcur with ⟨-, hnil⟩ | ⟨-, a, ha⟩
  · simp [hin] at hnil
  · simp only [hin, List.flatten_nil, List.nil_append, List.cons_append, lines,
      List.cons.injEq] at ha
    rw [ha.1]

theorem Sound.readLine (h : s.Sound)
    (now : Int) (hcur : s.link.current = some (r, [])) (hin : s.link.inbox = line :: rest) :
    Sound { s with
      link := { s.link with inbox := rest, current := none }
      emitted := s.emitted ++ [⟨r.tag, some r.number, updateOf instanceId r.tag now line.2⟩] } := by
  obtain ⟨hnumber, hmem⟩ := h.own_line hcur hin
  refine ⟨Link.paired_of_current_eq_none rfl, fun x hx => ?_, fun e he => ?_⟩
  · refine h.genuine x ?_
    rw [hin, List.cons_append]
    exact List.mem_cons_of_mem _ hx
  · rcases List.mem_append.1 he with he | he
    · exact h.own e he
    · rw [List.mem_singleton.1 he]
      obtain ⟨n, a⟩ := line
      simp only at hnumber hmem
      subst hnumber
      cases a with
      | value v =>
        intro _
        exact ⟨r.number, v, rfl, hmem, rfl⟩
      | error | malformed => exact ownAnswer_bad instanceId _ _ _ _

theorem sound_step {s' : Session} {e : SessionEvent} (h : s.Sound) (hG : s.SendsOnQuiet e)
    (hstep : s.step instanceId e = some s') : s'.Sound := by
  cases e with
  | request tag =>
    obtain ⟨l, hl, rfl⟩ := Option.map_eq_some_iff.1 hstep
    refine ⟨Link.paired_send hG hl, ?_, h.own⟩
    unfold Link.send at hl
    split at hl <;> cases hl
    exact h.genuine
  | lockTimeout tag now =>
    cases hstep
    refine ⟨h.paired, h.genuine, fun e he => ?_⟩
    rcases List.mem_append.1 he with he | he
    · exact h.own e he
    · rw [List.mem_singleton.1 he]
      exact ownAnswer_bad instanceId _ _ _ _
  | answer a =>
    simp only [step] at hstep
    split at hstep
    · next r rest hun =>
      obtain ⟨l, hl, rfl⟩ := Option.map_eq_some_iff.1 hstep
      refine ⟨Link.paired_answer h.paired hl, fun x hx => ?_, fun e he =>
        (h.own e he).mono fun x hx => List.mem_append_left _ hx⟩
      simp only [Link.answer, hun, List.getElem?_cons_zero, Option.some.injEq] at hl
      subst hl
      rw [← List.append_assoc] at hx
      rcases List.mem_append.1 hx with hx | hx
      · exact List.mem_append_left _ (h.genuine x hx)
      · exact List.mem_append_right _ hx
    · cases hstep
  | deliver =>
    obtain ⟨l, hl, rfl⟩ := Option.map_eq_some_iff.1 hstep
    refine ⟨Link.paired_deliver h.paired hl, fun x hx => ?_, h.own⟩
    unfold Link.deliver at hl
    split at hl <;> cases hl
    simp only [List.append_assoc, List.take_append_drop] at hx
    exact h.genuine x hx
  | readLine now =>
    obtain ⟨⟨r, line, l⟩, hl, rfl⟩ := Option.map_eq_some_iff.1 hstep
    obtain ⟨rest, hcur, hin, rfl⟩ := takeLine_spec hl
    exact h.readLine now hcur hin
  | timeout now =>
    obtain ⟨⟨r, l⟩, hl, rfl⟩ := Option.map_eq_some_iff.1 hstep
    unfold Link.abort at hl
    split at hl <;> cases hl
    refine ⟨Link.paired_of_current_eq_none rfl, h.genuine, fun e he => ?_⟩
    rcases List.mem_append.1 he with he | he
    · exact h.own e he
    · rw [List.mem_singleton.1 he]
      exact ownAnswer_bad instanceId _ _ _ _
  | reconnect =>
    cases hstep
    exact ⟨Link.paired_new, by simp [Link.new], h.own⟩

end Session

def mstpMachine (instanceId : String) : Machine Session SessionEvent := ⟨Session.step instanceId⟩

/-- **Response pairing.**  In every run in which every request is sent when the daemon owes no
answer and the stream is empty, every `GOOD` update carries the value that the daemon sent in
answer to the request for that update. -/
theorem good_update_is_own_answer {instanceId : String} {es : List SessionEvent} {s : Session}
    (hrun : (mstpMachine instanceId).run Session.new es = some s)
    (hG : (mstpMachine instanceId).Meets Session.SendsOnQuiet Session.new es) :
    ∀ e ∈ s.emitted, Session.OwnAnswer s.answers e :=
  ((mstpMachine instanceId).inv_run_of_meets (I := Session.Sound)
    (fun _ _ _ hs hG hstep => Session.sound_step hs hG hstep) Session.sound_new hG hrun).own

/-! ## What is emitted for a tag -/

/-- The update of `_read_tag`, with the value that was answered in time. -/
def Session.updateFor (instanceId : String) (now : Int) (tag : Tag) :
    Option JsonValue → TagUpdate
  | none => badUpdate instanceId tag now
  | some v => tagUpdate instanceId tag now (coerceValue v tag.objectType tag.propertyId) .good

theorem Session.exists_updateFor (instanceId : String) (now : Int) (tag : Tag) (a : Answer) :
    ∃ value, updateOf instanceId tag now a = updateFor instanceId now tag value := by
  cases a with
  | value v => exact ⟨some v, rfl⟩
  | error | malformed => exact ⟨none, rfl⟩

def Session.Labelled (instanceId : String) (s : Session) : Prop :=
  ∀ e ∈ s.emitted, ∃ now value, e.update = updateFor instanceId now e.tag value

variable {instanceId : String} {s : Session}

theorem Session.Labelled.concat (h : s.Labelled instanceId) {e : Emitted}
    (he : ∃ now value, e.update = updateFor instanceId now e.tag value) (l : Link Request Line) :
    Labelled instanceId { s with link := l, emitted := s.emitted ++ [e] } := by
  intro e' he'
  rcases List.mem_append.1 he' with he' | he'
  · exact h e' he'
  · rw [List.mem_singleton.1 he']
    exact he

theorem Session.labelled_step {s' : Session} {e : SessionEvent}
    (h : s.Labelled instanceId) (hstep : s.step instanceId e = some s') :
    s'.Labelled instanceId := by
  cases e with
  | request | deliver =>
    obtain ⟨l, -, rfl⟩ := Option.map_eq_some_iff.1 hstep
    exact h
  | lockTimeout tag now =>
    cases hstep
    exact h.concat ⟨now, none, rfl⟩ s.link
  | answer a =>
    simp only [step] at hstep
    split at hstep
    · obtain ⟨l, -, rfl⟩ := Option.map_eq_some_iff.1 hstep
      exact h
    · cases hstep
  | readLine now =>
    obtain ⟨⟨r, line, l⟩, -, rfl⟩ := Option.map_eq_some_iff.1 hstep
    exact h.concat ⟨now, exists_updateFor instanceId now r.tag line.2⟩ l
  | timeout now =>
    obtain ⟨⟨r, l⟩, -, rfl⟩ := Option.map_eq_some_iff.1 hstep
    exact h.concat ⟨now, none, rfl⟩ l
  | reconnect =>
    cases hstep
    exact h

def Emits (instanceId : String) (tag : Tag) (update : TagUpdate) : Prop :=
  ∃ es s request, (mstpMachine instanceId).run Session.new es = some s ∧
    ⟨tag, request, update⟩ ∈ s.emitted

theorem emits_iff {tag : Tag} {update : TagUpdate} :
    Emits instanceId tag update ↔
      ∃ now value, update = Session.updateFor instanceId now tag value := by
  constructor
  · rintro ⟨es, s, request, hrun, hmem⟩
    have hnew : Session.new.Labelled instanceId := by
      intro e he
      cases he
    exact (mstpMachine instanceId).inv_run (fun _ _ _ => Session.labelled_step) hnew hrun _ hmem
  · rintro ⟨now, value, rfl⟩
    cases value with
    | none =>
      exact ⟨[.lockTimeout tag now], _, none, rfl, List.mem_singleton_self _⟩
    | some v =>
      refine ⟨[.request tag, .answer (.value v), .deliver, .readLine now], _, some 0, rfl, ?_⟩
      exact List.mem_singleton_self _

def analogInput (id : String) (objectInstance : Int) : Tag :=
  ⟨id, 260001, 1, "analog-input", objectInstance, none⟩

/-- The first request is answered in time; the second times out, and its answer is given up
with the connection; the third is answered with an error. -/
def answersInTime : List SessionEvent :=
  [.request (analogInput "a" 1), .answer (.value (.int 20)), .deliver, .readLine 0,
    .request (analogInput "b" 2), .timeout 5, .answer (.value (.int 30)), .reconnect,
    .request (analogInput "b" 2), .answer (.error "timeout"), .deliver, .readLine 9]

theorem good_update_is_own_answer_answersInTime : ∃ s,
    (mstpMachine "bus").run Session.new answersInTime = some s ∧
    s.emitted.map (fun e => e.update.quality) = [.good, .bad, .bad] ∧
    ∀ e ∈ s.emitted, Session.OwnAnswer s.answers e := by
  obtain ⟨s, hs, hq⟩ := Option.map_eq_some_iff.1
    (show ((mstpMachine "bus").run Session.new answersInTime).map
      (fun s => s.emitted.map fun e => e.update.quality) = some [.good, .bad, .bad]
        by decide +kernel)
  exact ⟨s, hs, hq, good_update_is_own_answer hs (by decide +kernel)⟩

def answersLate : List SessionEvent :=
  [.request (analogInput "a" 1), .timeout 5, .answer (.value (.int 20)), .deliver,
    .request (analogInput "b" 2), .readLine 6]

/-- **A late line is taken for the answer to the next request.**  The daemon has answered one
request, the one for tag `a`, and its value is emitted for tag `b`. -/
theorem late_line_is_taken : ∃ s e,
    (mstpMachine "bus").run Session.new answersLate = some s ∧ e ∈ s.emitted ∧
    e.tag.id = "b" ∧ e.update.quality = .good ∧ e.update.value = .int 20 ∧
    s.answers = [(0, .value (.int 20))] ∧ ¬ Session.OwnAnswer s.answers e := by
  obtain ⟨s, hs, hv⟩ := Option.map_eq_some_iff.1
    (show ((mstpMachine "bus").run Session.new answersLate).map
      (fun s => (s.answers, s.emitted.getLast?.map fun e =>
        ((e.tag.id, e.request), e.update.quality, e.update.value))) =
      some ([(0, .value (.int 20))], some (("b", some 1), .good, .int 20)) by decide +kernel)
  obtain ⟨hanswers, hlast⟩ := Prod.mk.inj hv
  obtain ⟨e, he, heq⟩ := Option.map_eq_some_iff.1 hlast
  simp only [Prod.mk.injEq] at heq
  obtain ⟨⟨hid, hreq⟩, hq, hval⟩ := heq
  refine ⟨s, e, hs, List.mem_of_getLast? he, hid, hq, hval, hanswers, fun hown => ?_⟩
  obtain ⟨n, v, hn, hmem, -⟩ := hown hq
  rw [hreq] at hn
  cases hn
  rw [hanswers] at hmem
  simp at hmem

end XEdge.Bacnet
