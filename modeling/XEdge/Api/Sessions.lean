import Mathlib

/-!
# Session tokens (`SessionManager`, `xedge/api/auth.py`)

A token is the username, the time of issue and a signature of both, joined by bars.

The signature, the times and their texts are parameters: `SessionManager` says what is assumed
of them.  The difference of two times is exact.
-/

namespace XEdge.Api

/-- Python `str`. -/
abbrev Text := List Char

def isAscii (text : Text) : Bool := text.all (·.toNat < 128)

/-- A session manager, with Python's `float` as `F`. -/
structure SessionManager (F : Type) where
  /-- `_sign`: the HMAC with the secret key, in hexadecimal. -/
  sign : Text → Text
  sign_ascii : ∀ payload, isAscii (sign payload) = true
  bar_notMem_sign : ∀ payload, '|' ∉ sign payload
  /-- `repr` of a time. -/
  repr : F → Text
  /-- `float` of a text; `none` is a `ValueError`. -/
  float : Text → Option F
  float_repr : ∀ x, float (repr x) = some x
  bar_notMem_repr : ∀ x, '|' ∉ repr x
  value : F → ℚ
  idleTimeoutSeconds : ℚ

def UsernamePattern (username : Text) : Prop :=
  (1 ≤ username.length ∧ username.length ≤ 64) ∧
    ∀ c ∈ username, c.isAlphanum = true ∨ c ∈ ['_', '.', '-']

/-- The exception of `compare_digest`. -/
inductive SessionError where
  | typeError
  deriving DecidableEq, Repr

/-- `hmac.compare_digest` of two texts. -/
def compareDigest (a b : Text) : Except SessionError Bool :=
  if isAscii a && isAscii b then .ok (a == b) else .error .typeError

/-- `text.rpartition("|")` of a text with a bar, without the bar. -/
def rpartition (text : Text) : Text × Text :=
  ((text.reverse.dropWhile (· ≠ '|')).tail.reverse, (text.reverse.takeWhile (· ≠ '|')).reverse)

/-- `text.partition("|")`, without the bar. -/
def partition (text : Text) : Text × Text :=
  (text.takeWhile (· ≠ '|'), (text.dropWhile (· ≠ '|')).tail)

namespace SessionManager

variable {F : Type} (M : SessionManager F)

def payload (username : Text) (now : F) : Text := username ++ '|' :: M.repr now

def issue (username : Text) (now : F) : Text :=
  M.payload username now ++ '|' :: M.sign (M.payload username now)

/-- `_validate`, at a time. -/
def validate (now : F) : Option Text → Except SessionError (Option Text)
  | none => .ok none
  | some token =>
      if token = [] ∨ token.count '|' ≠ 2 then .ok none
      else
        let (payload, signature) := rpartition token
        match compareDigest signature (M.sign payload) with
        | .error e => .error e
        | .ok false => .ok none
        | .ok true =>
            let (username, issuedAtStr) := partition payload
            if username = [] then .ok none
            else
              match M.float issuedAtStr with
              | none => .ok none
              | some issuedAt =>
                  if M.value now - M.value issuedAt > M.idleTimeoutSeconds then .ok none
                  else .ok (some username)

/-- `refresh_if_valid`; the clock is read again for the new token. -/
def refreshIfValid (now again : F) (token : Option Text) :
    Except SessionError (Option (Text × Text)) :=
  match M.validate now token with
  | .error e => .error e
  | .ok none => .ok none
  | .ok (some username) => .ok (some (M.issue username again, username))

end SessionManager

/-! ## Fields -/

variable {a b text : Text}

theorem rpartition_append (h : '|' ∉ b) : rpartition (a ++ '|' :: b) = (a, b) := by
  have hall : ∀ c ∈ b.reverse, decide (c ≠ '|') = true := by
    intro c hc
    exact decide_eq_true fun heq => h (heq ▸ List.mem_reverse.1 hc)
  have hreverse : (a ++ '|' :: b).reverse = b.reverse ++ '|' :: a.reverse := by simp
  rw [rpartition, hreverse, List.takeWhile_append_of_pos hall, List.dropWhile_append_of_pos hall]
  simp

theorem partition_append (h : '|' ∉ a) : partition (a ++ '|' :: b) = (a, b) := by
  have hall : ∀ c ∈ a, decide (c ≠ '|') = true := fun c hc =>
    decide_eq_true fun heq => h (heq ▸ hc)
  rw [partition, List.takeWhile_append_of_pos hall, List.dropWhile_append_of_pos hall]
  simp

theorem append_rpartition (h : '|' ∈ text) :
    (rpartition text).1 ++ '|' :: (rpartition text).2 = text := by
  obtain ⟨after, before, hsplit, hbar⟩ := List.eq_append_cons_of_mem (List.mem_reverse.2 h)
  have htext : text = before.reverse ++ '|' :: after.reverse := by
    rw [← List.reverse_reverse text, hsplit]
    simp
  rw [htext, rpartition_append (by simpa using hbar)]

section Tokens

variable {F : Type} {M : SessionManager F} {username cookie : Text} {now issuedAt : F}

theorem validate_issue (h : UsernamePattern username) :
    M.validate now (some (M.issue username issuedAt)) =
      .ok (if M.value now - M.value issuedAt ≤ M.idleTimeoutSeconds then some username
        else none) := by
  obtain ⟨⟨hpos, -⟩, hclass⟩ := h
  have hbar : '|' ∉ username := fun hmem => by
    rcases hclass _ hmem with h | h
    · exact absurd h (by decide)
    · exact absurd h (by decide)
  have hne : username ≠ [] := List.ne_nil_of_length_pos hpos
  have hcount : (M.issue username issuedAt).count '|' = 2 := by
    simp [SessionManager.issue, SessionManager.payload, List.count_eq_zero.2 hbar,
      List.count_eq_zero.2 (M.bar_notMem_repr issuedAt),
      List.count_eq_zero.2 (M.bar_notMem_sign _)]
  have hdigest : compareDigest (M.sign (M.payload username issuedAt))
      (M.sign (M.payload username issuedAt)) = .ok true := by
    rw [compareDigest, M.sign_ascii, beq_self_eq_true]
    rfl
  have hsplit : rpartition (M.issue username issuedAt) =
      (M.payload username issuedAt, M.sign (M.payload username issuedAt)) :=
    rpartition_append (M.bar_notMem_sign _)
  have hfields : partition (M.payload username issuedAt) = (username, M.repr issuedAt) :=
    partition_append hbar
  have hnonempty : M.issue username issuedAt ≠ [] := by simp [SessionManager.issue]
  simp only [SessionManager.validate, hnonempty, hcount, ne_eq, not_true, or_self, if_false,
    hsplit, hdigest, hfields, hne, M.float_repr, gt_iff_lt, ← not_le, ite_not]
  split <;> rfl

theorem validate_of_unsigned (h : ∀ payload, cookie ≠ payload ++ '|' :: M.sign payload) :
    M.validate now (some cookie) =
      if cookie.count '|' = 2 ∧ isAscii (rpartition cookie).2 = false
      then .error .typeError else .ok none := by
  by_cases hcount : cookie.count '|' = 2
  · have hmem : '|' ∈ cookie := List.count_pos_iff.1 (by omega)
    have hne : cookie ≠ [] := List.ne_nil_of_mem hmem
    have hwrong : (rpartition cookie).2 ≠ M.sign (rpartition cookie).1 := fun heq =>
      h _ (heq ▸ append_rpartition hmem).symm
    simp only [SessionManager.validate, hne, hcount, ne_eq, not_true, or_self, if_false, true_and]
    cases hascii : isAscii (rpartition cookie).2 with
    | true =>
      have hdigest : compareDigest (rpartition cookie).2 (M.sign (rpartition cookie).1) =
          .ok false := by
        rw [compareDigest, hascii, M.sign_ascii, beq_eq_false_iff_ne.2 hwrong]
        rfl
      simp [hdigest]
    | false =>
      have hdigest : compareDigest (rpartition cookie).2 (M.sign (rpartition cookie).1) =
          .error .typeError := by
        rw [compareDigest, hascii]
        rfl
      simp [hdigest]
  · rw [if_neg fun hboth => hcount hboth.1, SessionManager.validate, if_pos (.inr hcount)]

end Tokens

/-- **Session tokens.**  A token issued to a user is valid as that user's for the idle timeout.
Let `issued` be all that was ever issued, and a cookie with a valid signature be one of it, for
lack of the key: a cookie that was not issued is refused without an exception exactly if it has
not two bars or its last field is ASCII. -/
theorem session_tokens_iff {F : Type} (M : SessionManager F) :
    (∀ username, UsernamePattern username → ∀ issuedAt now,
      M.validate now (some (M.issue username issuedAt)) =
        .ok (if M.value now - M.value issuedAt ≤ M.idleTimeoutSeconds then some username
          else none)) ∧
    ∀ (issued : Set (Text × F)) (cookie : Text),
      (∀ payload, cookie = payload ++ '|' :: M.sign payload →
        ∃ u ∈ issued, payload = M.payload u.1 u.2) →
      (∀ u ∈ issued, cookie ≠ M.issue u.1 u.2) → ∀ now again,
        (M.refreshIfValid now again (some cookie) = .ok none ↔
          cookie.count '|' = 2 → isAscii (rpartition cookie).2 = true) := by
  refine ⟨fun username h issuedAt now => validate_issue h, ?_⟩
  intro issued cookie hforge hother now again
  have hunsigned : ∀ payload, cookie ≠ payload ++ '|' :: M.sign payload := by
    intro payload heq
    obtain ⟨u, hu, rfl⟩ := hforge payload heq
    exact hother u hu heq
  simp only [SessionManager.refreshIfValid, validate_of_unsigned hunsigned]
  by_cases h : cookie.count '|' = 2 ∧ isAscii (rpartition cookie).2 = false
  · rw [if_pos h]
    refine ⟨fun heq => ?_, fun hascii => ?_⟩
    · cases heq
    · exact absurd (hascii h.1) (by simp [h.2])
  · rw [if_neg h]
    exact ⟨fun _ hcount => Bool.not_eq_false _ ▸ fun hn => h ⟨hcount, hn⟩, fun _ => rfl⟩

def frozen : SessionManager Unit where
  sign _ := ['0']
  sign_ascii _ := rfl
  bar_notMem_sign _ := by decide
  repr _ := ['0']
  float _ := some ()
  float_repr _ := rfl
  bar_notMem_repr _ := by decide
  value _ := 0
  idleTimeoutSeconds := 900

/-- A cookie that nobody issued, with a last field that is not ASCII. -/
theorem cookie_raises : (∀ username now, "a|0|é".toList ≠ frozen.issue username now) ∧
    frozen.refreshIfValid () () (some "a|0|é".toList) = .error .typeError := by
  refine ⟨fun username now heq => ?_, by decide +kernel⟩
  have hlast := congrArg List.getLast? heq
  simp [SessionManager.issue, frozen, List.getLast?_append] at hlast

end XEdge.Api
