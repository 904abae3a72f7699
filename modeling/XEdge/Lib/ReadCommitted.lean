import XEdge.Lib.Machine

/-!
# Transactions on one row under READ COMMITTED

A call opens a transaction, reads the row once, decides in the program what to
write and what to return, writes with one flush, and commits.  Nothing holds the
row between the read and the flush: an `UPDATE` names its row by primary key, so
it is applied to whatever is committed when its lock is granted.  This file is
the theory of such calls, for an arbitrary row `ρ`, calls `κ`, results `β` and
errors `ε`; what a call decides is a parameter, `code`.

The flush is the point at which the lock is taken; it is kept until the
transaction ends, so at most one transaction is flushed (`Sound.lock`).
-/

namespace XEdge.Lib.ReadCommitted

variable {ρ κ β ε : Type*}

inductive Plan (ρ β ε : Type*)
  | done (result : β)
  | write (update : ρ → Except ε ρ) (result : β)
  | raise (error : ε)

inductive Phase (ρ β ε : Type*)
  | reading
  /-- The statements have been executed; the row is locked until the end. -/
  | flushed (new : ρ) (result : β)
  /-- Committed: the call has returned. -/
  | committed
  /-- Rolled back, by an exception of the program or of a constraint, or (`none`)
  because the connection was lost. -/
  | rolledBack (error : Option ε)

def Phase.isFlushed : Phase ρ β ε → Bool
  | .flushed _ _ => true
  | _ => false

/-- What a transaction knows: its call and the row it has read. -/
structure Request (ρ κ β : Type*) where
  call : κ
  /-- The row as the `SELECT` returned it. -/
  seen : ρ
  /-- Ghost: the calls that had returned when this one began, with their results. -/
  before : List (κ × β)

structure Tx (ρ κ β ε : Type*) where
  req : Request ρ κ β
  phase : Phase ρ β ε

structure State (ρ κ β ε : Type*) where
  row : ρ
  txs : List (Tx ρ κ β ε)
  /-- Ghost: the calls that have returned, in the order of their commits. -/
  returned : List (Request ρ κ β × β)

inductive Event (κ : Type*)
  /-- A call begins: its `SELECT` is executed. -/
  | select (call : κ)
  /-- Transaction `i` executes its statements. -/
  | flush (i : Nat)
  /-- Transaction `i` commits. -/
  | commit (i : Nat)
  /-- Transaction `i` loses its connection. -/
  | abort (i : Nat)

namespace State

def start (row : ρ) : State ρ κ β ε := ⟨row, [], []⟩

def requests (s : State ρ κ β ε) : List (Request ρ κ β) := s.txs.map Tx.req

def history (s : State ρ κ β ε) : List (κ × β) := s.returned.map fun x => (x.1.call, x.2)

def locked (s : State ρ κ β ε) : Bool := s.txs.any fun t => t.phase.isFlushed

/-- Transaction `i` enters a phase. -/
def setPhase (s : State ρ κ β ε) (i : Nat) (p : Phase ρ β ε) : State ρ κ β ε :=
  { s with txs := s.txs.modify i fun t => { t with phase := p } }

@[simp] theorem requests_setPhase (s : State ρ κ β ε) (i : Nat) (p : Phase ρ β ε) :
    (s.setPhase i p).requests = s.requests := by
  show (s.txs.modify i _).map Tx.req = s.txs.map Tx.req
  refine List.ext_getElem? fun j => ?_
  rw [List.getElem?_map, List.getElem?_map, List.getElem?_modify]
  cases s.txs[j]? with
  | none => rfl
  | some t => by_cases hij : i = j <;> simp [hij]

theorem getElem?_setPhase {s : State ρ κ β ε} {i j : Nat} {p : Phase ρ β ε}
    {t : Tx ρ κ β ε} (h : (s.setPhase i p).txs[j]? = some t) :
    (j = i ∧ t.phase = p ∧ ∃ u, s.txs[i]? = some u ∧ t.req = u.req) ∨
      (j ≠ i ∧ s.txs[j]? = some t) := by
  have hmod : (s.txs.modify i fun t => { t with phase := p })[j]? = some t := h
  rw [List.getElem?_modify] at hmod
  obtain ⟨u, hu, rfl⟩ := Option.map_eq_some_iff.1 hmod
  by_cases hij : i = j
  · subst hij
    exact .inl ⟨rfl, by simp, u, hu, by simp⟩
  · exact .inr ⟨Ne.symm hij, by simpa [hij] using hu⟩

end State

open State

def Plan.opening : Plan ρ β ε → Phase ρ β ε
  | .raise e => .rolledBack (some e)
  | _ => .reading

def execute (row : ρ) (update : ρ → Except ε ρ) (result : β) : Phase ρ β ε :=
  match update row with
  | .ok new => .flushed new result
  | .error e => .rolledBack (some e)

section Machine

variable (code : κ → ρ → Plan ρ β ε)

/-- Transaction `i` returns `result`, leaving `row` committed. -/
def State.finish (s : State ρ κ β ε) (i : Nat) (t : Tx ρ κ β ε) (row : ρ) (result : β) :
    State ρ κ β ε :=
  { s.setPhase i .committed with row := row, returned := s.returned ++ [(t.req, result)] }

def step (s : State ρ κ β ε) : Event κ → Option (State ρ κ β ε)
  | .select c =>
      some { s with txs := s.txs ++ [⟨⟨c, s.row, s.history⟩, (code c s.row).opening⟩] }
  | .flush i =>
      match s.txs[i]? with
      | none => none
      | some t =>
          match t.phase, code t.req.call t.req.seen with
          | .reading, .write update r =>
              -- another transaction's lock is waited for, not passed
              if s.locked then none else some (s.setPhase i (execute s.row update r))
          | _, _ => none
  | .commit i =>
      match s.txs[i]? with
      | none => none
      | some t =>
          match t.phase, code t.req.call t.req.seen with
          | .reading, .done r => some (s.finish i t s.row r)
          | .flushed new r, _ => some (s.finish i t new r)
          | _, _ => none
  | .abort i =>
      match s.txs[i]? with
      | none => none
      | some t =>
          match t.phase with
          | .reading | .flushed _ _ => some (s.setPhase i (.rolledBack none))
          | _ => none

def machine : Machine (State ρ κ β ε) (Event κ) := ⟨step code⟩

/-! ## What a step can do -/

inductive Step (s : State ρ κ β ε) : Event κ → State ρ κ β ε → Prop
  | select (c : κ) :
      Step s (.select c)
        { s with txs := s.txs ++ [⟨⟨c, s.row, s.history⟩, (code c s.row).opening⟩] }
  | flush {i : Nat} {t : Tx ρ κ β ε} {update : ρ → Except ε ρ} {r : β}
      (ht : s.txs[i]? = some t) (hphase : t.phase = .reading)
      (hplan : code t.req.call t.req.seen = .write update r) (hlock : s.locked = false) :
      Step s (.flush i) (s.setPhase i (execute s.row update r))
  | readOnly {i : Nat} {t : Tx ρ κ β ε} {r : β} (ht : s.txs[i]? = some t)
      (hphase : t.phase = .reading) (hplan : code t.req.call t.req.seen = .done r) :
      Step s (.commit i) (s.finish i t s.row r)
  | commit {i : Nat} {t : Tx ρ κ β ε} {new : ρ} {r : β} (ht : s.txs[i]? = some t)
      (hphase : t.phase = .flushed new r) : Step s (.commit i) (s.finish i t new r)
  | abort (i : Nat) : Step s (.abort i) (s.setPhase i (.rolledBack none))

variable {s s' : State ρ κ β ε} {e : Event κ}

theorem step_cases (h : step code s e = some s') :
    Step code s e s' := by
  cases e with
  | select c =>
    cases h
    exact .select c
  | flush i =>
    unfold step at h
    dsimp only at h
    split at h
    · cases h
    · next t ht =>
      split at h
      · next update r hphase hplan =>
        split at h
        · cases h
        · next hlock =>
          cases h
          exact .flush ht hphase hplan (by simpa using hlock)
      · cases h
  | commit i =>
    unfold step at h
    dsimp only at h
    split at h
    · cases h
    · next t ht =>
      split at h
      · next r hphase hplan =>
        cases h
        exact .readOnly ht hphase hplan
      · next new r hphase =>
        cases h
        exact .commit ht hphase
      · cases h
  | abort i =>
    unfold step at h
    dsimp only at h
    split at h
    · cases h
    · split at h
      · cases h
        exact .abort i
      · cases h
        exact .abort i
      · cases h

/-! ## The lock -/

/-- What holds of the lock: one transaction at most has it, and what that one
wrote is its update of the row that is committed. -/
structure Sound (s : State ρ κ β ε) : Prop where
  lock : ∀ {i j : Nat} {t u : Tx ρ κ β ε}, s.txs[i]? = some t → s.txs[j]? = some u →
    t.phase.isFlushed = true → u.phase.isFlushed = true → i = j
  flushed : ∀ {i : Nat} {t : Tx ρ κ β ε} {new : ρ} {r : β}, s.txs[i]? = some t →
    t.phase = .flushed new r →
    ∃ update, code t.req.call t.req.seen = .write update r ∧ update s.row = .ok new

theorem sound_start (row : ρ) : Sound code (start row : State ρ κ β ε) :=
  ⟨fun h => by simp [start] at h, fun h => by simp [start] at h⟩

variable {code}

variable {i : Nat} {t : Tx ρ κ β ε}

theorem locked_eq_true (h : s.txs[i]? = some t) (hf : t.phase.isFlushed = true) : s.locked = true :=
  List.any_eq_true.2 ⟨t, List.mem_of_getElem? h, hf⟩

/-- A transaction that leaves the lock, or never had it, changes nothing for the
others. -/
theorem Sound.setPhase (hs : Sound code s) (i : Nat) {p : Phase ρ β ε}
    (hp : p.isFlushed = false) : Sound code (s.setPhase i p) where
  lock := by
    intro j k t u ht hu htf huf
    rcases getElem?_setPhase ht with ⟨-, htp, -⟩ | ⟨-, ht'⟩
    · rw [htp, hp] at htf
      cases htf
    · rcases getElem?_setPhase hu with ⟨-, hup, -⟩ | ⟨-, hu'⟩
      · rw [hup, hp] at huf
        cases huf
      · exact hs.lock ht' hu' htf huf
  flushed := by
    intro j t new r ht hphase
    rcases getElem?_setPhase ht with ⟨-, htp, -⟩ | ⟨-, ht'⟩
    · rw [← htp, hphase] at hp
      cases hp
    · exact hs.flushed ht' hphase

variable {r : β}

theorem sound_flush {update : ρ → Except ε ρ} (ht : s.txs[i]? = some t)
    (hplan : code t.req.call t.req.seen = .write update r) (hlock : s.locked = false) :
    Sound code (s.setPhase i (execute s.row update r)) := by
  have hfree : ∀ {j : Nat} {u : Tx ρ κ β ε}, s.txs[j]? = some u →
      u.phase.isFlushed = true → False := by
    intro j u hu huf
    rw [locked_eq_true hu huf] at hlock
    cases hlock
  refine ⟨?_, ?_⟩
  · intro j k u v hu hv huf hvf
    rcases getElem?_setPhase hu with ⟨rfl, -⟩ | ⟨-, hu'⟩
    · rcases getElem?_setPhase hv with ⟨rfl, -⟩ | ⟨-, hv'⟩
      · rfl
      · exact (hfree hv' hvf).elim
    · exact (hfree hu' huf).elim
  · intro j u new r' hu hphase
    rcases getElem?_setPhase hu with ⟨rfl, hup, v, hv, hreq⟩ | ⟨-, hu'⟩
    · cases ht.symm.trans hv
      rw [hphase] at hup
      unfold execute at hup
      cases hrow : update s.row with
      | ok new' =>
        rw [hrow] at hup
        cases hup
        exact ⟨update, by rw [hreq]; exact hplan, hrow⟩
      | error e =>
        rw [hrow] at hup
        cases hup
    · refine (hfree hu' ?_).elim
      rw [hphase]
      rfl

theorem Sound.finish_flushed (hs : Sound code s) {new : ρ} (ht : s.txs[i]? = some t)
    (hphase : t.phase = .flushed new r) : Sound code (s.finish i t new r) := by
  have hfree : ∀ {j : Nat} {u : Tx ρ κ β ε}, (s.finish i t new r).txs[j]? = some u →
      u.phase.isFlushed = true → False := by
    intro j u hu huf
    rcases getElem?_setPhase (p := .committed) hu with ⟨-, hup, -⟩ | ⟨hji, hu'⟩
    · rw [hup] at huf
      cases huf
    · exact hji (hs.lock hu' ht huf (by rw [hphase]; rfl))
  refine ⟨fun hu _ huf _ => (hfree hu huf).elim, fun hu hp => (hfree hu ?_).elim⟩
  rw [hp]
  rfl

theorem sound_step (hs : Sound code s) (h : step code s e = some s') : Sound code s' := by
  cases step_cases code h with
  | select c =>
    have hnew : (code c s.row).opening.isFlushed = false := by cases code c s.row <;> rfl
    have hold : ∀ {j : Nat} {u : Tx ρ κ β ε},
        (s.txs ++ [⟨⟨c, s.row, s.history⟩, (code c s.row).opening⟩])[j]? = some u →
        u.phase.isFlushed = true → s.txs[j]? = some u := by
      intro j u hu huf
      rw [List.getElem?_append] at hu
      split at hu
      · exact hu
      · rw [List.mem_singleton.1 (List.mem_of_getElem? hu), hnew] at huf
        cases huf
    refine ⟨fun ht hu htf huf => hs.lock (hold ht htf) (hold hu huf) htf huf, ?_⟩
    intro j u new r hu hphase
    exact hs.flushed (hold hu (by rw [hphase]; rfl)) hphase
  | flush ht _ hplan hlock => exact sound_flush ht hplan hlock
  | @readOnly i t r ht hphase hplan =>
    have hkeep := hs.setPhase i (p := .committed) rfl
    exact ⟨hkeep.lock, hkeep.flushed⟩
  | commit ht hphase => exact hs.finish_flushed ht hphase
  | abort i => exact hs.setPhase i rfl

/-! ## The effect of a step -/

variable (code)

inductive Effect (s : State ρ κ β ε) : Event κ → State ρ κ β ε → Prop
  | select {s' : State ρ κ β ε} (c : κ) (hrow : s'.row = s.row)
      (hreturned : s'.returned = s.returned)
      (hrequests : s'.requests = s.requests ++ [⟨c, s.row, s.history⟩]) : Effect s (.select c) s'
  | silent {e : Event κ} {s' : State ρ κ β ε} (hrow : s'.row = s.row)
      (hreturned : s'.returned = s.returned) (hrequests : s'.requests = s.requests)
      (hcommit : ∀ i, e ≠ .commit i) : Effect s e s'
  | readOnly {s' : State ρ κ β ε} (i : Nat) (t : Tx ρ κ β ε) (r : β) (ht : s.txs[i]? = some t)
      (hphase : t.phase = .reading) (hplan : code t.req.call t.req.seen = .done r)
      (hrow : s'.row = s.row) (hreturned : s'.returned = s.returned ++ [(t.req, r)])
      (hrequests : s'.requests = s.requests) : Effect s (.commit i) s'
  | write {s' : State ρ κ β ε} (i : Nat) (t : Tx ρ κ β ε) (r : β) (update : ρ → Except ε ρ)
      (ht : s.txs[i]? = some t) (hphase : t.phase = .flushed s'.row r)
      (hplan : code t.req.call t.req.seen = .write update r)
      (hrow : update s.row = .ok s'.row) (hreturned : s'.returned = s.returned ++ [(t.req, r)])
      (hrequests : s'.requests = s.requests) : Effect s (.commit i) s'

theorem mem_requests (h : s.txs[i]? = some t) :
    t.req ∈ s.requests :=
  List.mem_map.2 ⟨t, List.mem_of_getElem? h, rfl⟩

variable {code}

theorem step_effect (hs : Sound code s) (h : step code s e = some s') : Effect code s e s' := by
  cases step_cases code h with
  | select c => exact .select c rfl rfl (List.map_append ..)
  | flush | abort => exact .silent rfl rfl (requests_setPhase ..) (by simp)
  | readOnly ht hphase hplan =>
    exact .readOnly _ _ _ ht hphase hplan rfl rfl (requests_setPhase ..)
  | commit ht hphase =>
    obtain ⟨update, hplan, hrow⟩ := hs.flushed ht hphase
    exact .write _ _ _ update ht hphase hplan hrow rfl (requests_setPhase ..)

/-! ## The row that was read and the row that is committed -/

def Seen (R : ρ → ρ → Prop) (s : State ρ κ β ε) : Prop := ∀ q ∈ s.requests, R q.seen s.row

theorem seen_start (R : ρ → ρ → Prop) (row : ρ) : Seen R (start row : State ρ κ β ε) :=
  fun q hq => by simp [requests, start] at hq

/-- A relation that every write of a request establishes relates, at all times,
the row a request has read to the row that is committed. -/
theorem seen_step {R : ρ → ρ → Prop} (hrefl : ∀ a, R a a)
    (htrans : ∀ {a b c}, R a b → R b c → R a c)
    (hwrite : ∀ {c seen row new update r}, R seen row → code c seen = .write update r →
      update row = .ok new → R row new)
    (hs : Sound code s) (hseen : Seen R s)
    (h : step code s e = some s') : Seen R s' := by
  intro q hq
  cases step_effect hs h with
  | select c hrow _ hrequests =>
    rw [hrequests] at hq
    rw [hrow]
    rcases List.mem_append.1 hq with hq | hq
    · exact hseen q hq
    · rw [List.mem_singleton.1 hq]
      exact hrefl _
  | silent hrow _ hrequests _ =>
    rw [hrequests] at hq
    rw [hrow]
    exact hseen q hq
  | readOnly i t r _ _ _ hrow _ hrequests =>
    rw [hrequests] at hq
    rw [hrow]
    exact hseen q hq
  | write i t r update ht _ hplan hrow _ hrequests =>
    rw [hrequests] at hq
    exact htrans (hseen q hq) (hwrite (hseen t.req (mem_requests ht)) hplan hrow)

end Machine

end XEdge.Lib.ReadCommitted
