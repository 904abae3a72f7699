import XEdge.Lib.Machine

/-!
# The agent's identity on disk (`xedge/fleet/agent.py`)

An enrollment leaves a key, the certificate on it, the CA's certificate and a token in four files;
a rotation overwrites the first two.  They are written one after the other.  An error on the way is
caught, and the loop goes on; a process that is killed leaves what it has written to the next one.

Keys are numbered as `generate_key_and_csr` makes them, the manager's answers are well formed, and
`write_text` writes a text in one piece, to a file that is empty from its opening on.
-/

namespace XEdge.Fleet

open Lib

inductive AgentPath
  | deviceToken
  | deviceCert
  | deviceKey
  | caCertificate
  deriving DecidableEq, Repr

/-- `none` is no file and `some none` an empty one; a number stands for what belongs to a key: the
key itself, the certificate on it, and what the manager sends along with that. -/
abbrev AgentFiles := AgentPath → Option (Option Nat)

inductive AgentPhase
  /-- There is no process. -/
  | down
  /-- In the loop of `_ensure_enrolled`. -/
  | enrolling
  | heartbeating
  /-- An exception has ended the loop. -/
  | raised
  deriving DecidableEq, Repr

def ENROLL_WRITES : List AgentPath := [.deviceKey, .deviceCert, .caCertificate, .deviceToken]

def ROTATE_WRITES : List AgentPath := [.deviceKey, .deviceCert]

def alreadyEnrolled (files : AgentFiles) : Bool :=
  (files .deviceToken).isSome && (files .deviceCert).isSome && (files .deviceKey).isSome &&
    (files .caCertificate).isSome

/-- `fleet_heartbeat_loop` up to its first heartbeat, or to `_ensure_enrolled`'s first request. -/
def startAgent (files : AgentFiles) : AgentPhase :=
  if alreadyEnrolled files then
    -- `RuntimeError`, and the `ValueError` of `load_pem_x509_certificate`
    if files .deviceToken = some none ∨ files .deviceCert = some none then .raised
    -- `ssl.SSLError`: no CA certificate, or a certificate on another key
    else if files .caCertificate = some none ∨ files .deviceKey ≠ files .deviceCert then .raised
    else .heartbeating
  else .enrolling

/-- How far an `_enroll` or a `_rotate_certificate` gets: every file is first opened, and then
written.  It is over then, unless it was cut short by an error or by the end of the process. -/
structure Exchange where
  done : Nat
  killed : Bool

def writeTexts (key : Nat) : List AgentPath → Nat → AgentFiles → AgentFiles
  | path :: paths, n + 2, files =>
      writeTexts key paths n (Function.update files path (some (some key)))
  | path :: _, 1, files => Function.update files path (some none)
  | _, _, files => files

inductive AgentEvent
  | boot
  | enroll (x : Exchange)
  | rotate (x : Exchange)
  /-- The process is killed at another time. -/
  | killed

structure AgentHost where
  files : AgentFiles
  keys : Nat
  phase : AgentPhase

namespace AgentHost

def unenrolled : AgentHost := ⟨fun _ => none, 0, .down⟩

def step (s : AgentHost) : AgentEvent → Option AgentHost
  | .boot => if s.phase = .down then some { s with phase := startAgent s.files } else none
  | .enroll x =>
      let files := writeTexts s.keys ENROLL_WRITES x.done s.files
      let phase :=
        if x.killed then .down
        -- the error is caught, and `_ensure_enrolled` tries again
        else if x.done < 8 then .enrolling
        else startAgent files
      if s.phase = .enrolling then some ⟨files, s.keys + 1, phase⟩ else none
  | .rotate x =>
      let files := writeTexts s.keys ROTATE_WRITES x.done s.files
      let phase := if x.killed then .down else .heartbeating
      if s.phase = .heartbeating then some ⟨files, s.keys + 1, phase⟩ else none
  | .killed => if s.phase = .down then none else some { s with phase := .down }

end AgentHost

def hostMachine : Machine AgentHost AgentEvent := ⟨AgentHost.step⟩

/-- Whether an exchange that has opened a file has written all of its files. -/
def AgentEvent.whole : AgentEvent → Option Bool
  | .enroll x => if x.done = 0 then none else some (decide (8 ≤ x.done))
  | .rotate x => if x.done = 0 then none else some (decide (4 ≤ x.done))
  | _ => none

/-- The last exchange that has opened a file. -/
def lastWhole (es : List AgentEvent) : Option Bool := (es.filterMap AgentEvent.whole).getLast?

section Files

variable {files : AgentFiles} {n : Nat}

theorem startAgent_eq_heartbeating_iff : startAgent files = .heartbeating ↔
    (∃ n, files .deviceToken = some (some n)) ∧ (∃ n, files .caCertificate = some (some n)) ∧
      ∃ n, files .deviceKey = some (some n) ∧ files .deviceCert = some (some n) := by
  rw [startAgent, alreadyEnrolled]
  rcases files .deviceToken with _ | _ | _ <;> rcases files .caCertificate with _ | _ | _ <;>
    rcases files .deviceKey with _ | _ | _ <;> rcases files .deviceCert with _ | _ | _ <;>
    simp [eq_comm]

theorem exists_absent_of_enrolling (h : startAgent files = .enrolling) :
    ∃ path, files path = none := by
  by_contra! hall
  have henrolled : alreadyEnrolled files = true := by
    simp [alreadyEnrolled, Option.isSome_iff_ne_none, hall]
  rw [startAgent, if_pos henrolled] at h
  split_ifs at h

theorem writeTexts_cases (key : Nat) (paths : List AgentPath) (n : Nat) (files : AgentFiles)
    (path : AgentPath) :
    writeTexts key paths n files path = files path ∨
      path ∈ paths ∧ (writeTexts key paths n files path = some none ∨
        writeTexts key paths n files path = some (some key)) := by
  fun_induction writeTexts key paths n files with
  | case1 => grind
  | case2 => grind
  | case3 => exact .inl rfl

theorem writeTexts_enroll_whole (key : Nat) (files : AgentFiles) (hn : 8 ≤ n) :
    writeTexts key ENROLL_WRITES n files = fun _ => some (some key) := by
  obtain ⟨m, rfl⟩ := Nat.exists_eq_add_of_le' hn
  funext path
  cases path <;> rfl

/-- The token is written last. -/
theorem writeTexts_enroll_token (key : Nat) (hn : n < 8)
    (htoken : ∀ m, files .deviceToken ≠ some (some m)) (m : Nat) :
    writeTexts key ENROLL_WRITES n files .deviceToken ≠ some (some m) := by
  interval_cases n <;> simp [writeTexts, ENROLL_WRITES, htoken]

end Files

namespace AgentHost

variable {s s' : AgentHost} {last : Option Bool} {ev : AgentEvent} {x : Exchange}

/-- What a run leaves; `last` is its last exchange. -/
structure Sound (s : AgentHost) (last : Option Bool) : Prop where
  fresh : ∀ path n, s.files path = some (some n) → n < s.keys
  token : ∀ n, s.files .deviceToken = some (some n) → ∀ path, s.files path ≠ none
  enrolling : s.phase = .enrolling → ∀ n, s.files .deviceToken ≠ some (some n)
  heartbeating : s.phase = .heartbeating →
    (∃ n, s.files .deviceToken = some (some n)) ∧ ∃ n, s.files .caCertificate = some (some n)
  restart : startAgent s.files = .heartbeating ↔ last = some true

theorem Sound.fresh_writeTexts (h : s.Sound last) {paths : List AgentPath} {k : Nat}
    (path : AgentPath) (n : Nat) (hn : writeTexts s.keys paths k s.files path = some (some n)) :
    n < s.keys + 1 := by
  obtain hw | ⟨-, hw | hw⟩ := writeTexts_cases s.keys paths k s.files path
  all_goals rw [hw] at hn
  · exact Nat.lt_succ_of_lt (h.fresh path n hn)
  · cases hn
  · cases hn
    exact Nat.lt_succ_self _

theorem Sound.boot (h : s.Sound last) : Sound { s with phase := startAgent s.files } last where
  fresh := h.fresh
  token := h.token
  enrolling := by
    intro hphase n hn
    obtain ⟨path, hpath⟩ := exists_absent_of_enrolling hphase
    exact h.token n hn path hpath
  heartbeating := by
    intro hphase
    obtain ⟨htoken, hca, -⟩ := startAgent_eq_heartbeating_iff.1 hphase
    exact ⟨htoken, hca⟩
  restart := h.restart

theorem Sound.enroll (h : s.Sound last) (hphase : s.phase = .enrolling)
    (hstep : s.step (.enroll x) = some s') : s'.Sound ((AgentEvent.enroll x).whole.or last) := by
  simp only [step, hphase, if_true, Option.some.injEq] at hstep
  subst hstep
  by_cases hwhole : x.done < 8
  · -- without a token there is no restart, before as after
    have htoken := writeTexts_enroll_token s.keys hwhole (h.enrolling hphase)
    refine ⟨h.fresh_writeTexts, fun n hn => absurd hn (htoken n), fun _ => htoken, ?_, ?_⟩
    · cases x.killed <;> simp [hwhole]
    · have hold := h.restart
      rw [startAgent_eq_heartbeating_iff] at hold ⊢
      simp only [htoken, h.enrolling hphase, exists_false, false_and, false_iff] at hold ⊢
      by_cases hdone : x.done = 0 <;> simp [AgentEvent.whole, hdone, hold, hwhole]
  · have hfiles := writeTexts_enroll_whole s.keys s.files (not_lt.1 hwhole)
    have hup : startAgent (writeTexts s.keys ENROLL_WRITES x.done s.files) = .heartbeating := by
      simp [hfiles, startAgent_eq_heartbeating_iff]
    refine ⟨h.fresh_writeTexts, by simp [hfiles], ?_, ?_, ?_⟩
    · cases x.killed <;> simp [hwhole, hup]
    · simp [hfiles]
    · simp [hup, AgentEvent.whole, show x.done ≠ 0 by omega, not_lt.1 hwhole]

theorem Sound.rotate (h : s.Sound last) (hphase : s.phase = .heartbeating)
    (hstep : s.step (.rotate x) = some s') : s'.Sound ((AgentEvent.rotate x).whole.or last) := by
  obtain ⟨⟨n, hn⟩, m, hm⟩ := h.heartbeating hphase
  simp only [step, hphase, if_true, Option.some.injEq] at hstep
  subst hstep
  have hcases := writeTexts_cases s.keys ROTATE_WRITES x.done s.files
  have htoken := (hcases .deviceToken).resolve_right (by simp [ROTATE_WRITES])
  have hca := (hcases .caCertificate).resolve_right (by simp [ROTATE_WRITES])
  refine ⟨h.fresh_writeTexts, ?_, ?_, fun _ => ⟨⟨n, htoken.trans hn⟩, m, hca.trans hm⟩, ?_⟩
  · intro _ _ path
    obtain hw | ⟨-, hw | hw⟩ := hcases path <;> simp [hw, h.token n hn]
  · cases x.killed <;> simp
  · -- the key is new, so that the old certificate is not on it
    have hcert : s.files .deviceCert ≠ some (some s.keys) := fun hk => lt_irrefl _ (h.fresh _ _ hk)
    have hrestart := h.restart
    rw [startAgent_eq_heartbeating_iff] at hrestart ⊢
    obtain ⟨_ | _ | _ | _ | done, killed⟩ := x <;>
      simp_all [writeTexts, ROTATE_WRITES, AgentEvent.whole]

theorem sound_step (h : s.Sound last) (hstep : s.step ev = some s') :
    s'.Sound (ev.whole.or last) := by
  cases ev with
  | boot =>
    rw [← Option.some.inj (Option.ite_none_right_eq_some.1 hstep).2]
    exact h.boot
  | enroll x => exact h.enroll (Option.ite_none_right_eq_some.1 hstep).1 hstep
  | rotate x => exact h.rotate (Option.ite_none_right_eq_some.1 hstep).1 hstep
  | killed =>
    rw [← Option.some.inj (Option.ite_none_left_eq_some.1 hstep).2]
    exact ⟨h.fresh, h.token, by simp, by simp, h.restart⟩

theorem sound_run {es : List AgentEvent} (hrun : hostMachine.run unenrolled es = some s) :
    s.Sound (lastWhole es) := by
  induction es using List.reverseRecOn generalizing s with
  | nil =>
    cases hrun
    constructor <;> simp [unenrolled, startAgent_eq_heartbeating_iff, lastWhole]
  | append_singleton es ev ih =>
    obtain ⟨u, hu, hstep⟩ := hostMachine.run_append_isSome hrun
    rw [hostMachine.run_singleton] at hstep
    have hlast : lastWhole (es ++ [ev]) = ev.whole.or (lastWhole es) := by
      cases hev : ev.whole <;> simp [lastWhole, hev]
    rw [hlast]
    exact sound_step (ih hu) hstep

variable {es : List AgentEvent}

/-- Nothing is written any more. -/
theorem stuck_run (hdown : s.phase = .down) (hraised : startAgent s.files = .raised)
    (hrun : hostMachine.run s es = some s') :
    s'.files = s.files ∧ (s'.phase = .down ∨ s'.phase = .raised) := by
  refine hostMachine.inv_run
    (I := fun u => u.files = s.files ∧ (u.phase = .down ∨ u.phase = .raised))
    (fun u ev u' hu hstep => ?_) ⟨rfl, .inl hdown⟩ hrun
  cases ev with
  | boot =>
    rw [← Option.some.inj (Option.ite_none_right_eq_some.1 hstep).2]
    exact ⟨hu.1, .inr (by rw [hu.1, hraised])⟩
  | enroll x | rotate x =>
    have hup := (Option.ite_none_right_eq_some.1 hstep).1
    simp [hup] at hu
  | killed =>
    rw [← Option.some.inj (Option.ite_none_left_eq_some.1 hstep).2]
    exact ⟨hu.1, .inl rfl⟩

/-- **What a restart finds.**  However often the process was killed and whatever failed: an agent
that is started comes to its heartbeats exactly if the last exchange that opened a file wrote all
of its files; and one that is down with four files that do not fit never does again. -/
theorem restart_run (hrun : hostMachine.run unenrolled es = some s) :
    (startAgent s.files = .heartbeating ↔ lastWhole es = some true) ∧
      (s.phase = .down → startAgent s.files = .raised →
        ∀ es' s', hostMachine.run s es' = some s' → s'.phase ≠ .heartbeating) := by
  refine ⟨(sound_run hrun).restart, fun hdown hraised es' s' hrun' => ?_⟩
  obtain ⟨-, hphase | hphase⟩ := stuck_run hdown hraised hrun' <;> simp [hphase]

/-- The process ends between the two writes of a rotation. -/
def killedRotation : List AgentEvent := [.boot, .enroll ⟨8, false⟩, .rotate ⟨2, true⟩]

theorem restart_killedRotation : ∃ s, hostMachine.run unenrolled killedRotation = some s ∧
    startAgent s.files ≠ .heartbeating ∧
      ∀ es' s', hostMachine.run s es' = some s' → s'.phase ≠ .heartbeating := by
  have hrun : hostMachine.run unenrolled killedRotation = some _ := rfl
  obtain ⟨hrestart, hstuck⟩ := restart_run hrun
  exact ⟨_, hrun, by rw [Ne, hrestart]; decide, hstuck rfl (by decide)⟩

end AgentHost

end XEdge.Fleet
