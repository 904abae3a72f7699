import XEdge.Fleet.JoinTokens

/-!
# Enrollment (`xedge/fleet/manager_app.py`)

`POST /enroll` redeems a join token before it does anything else.  Every redemption that has to
fail is to be answered alike, so that the answer is no oracle for device ids.

What the endpoint does after a redemption is the parameter `proceed`.
-/

namespace XEdge.Fleet

open Lib Lib.ReadCommitted

/-- `_EnrollBody`, the fields the redemption uses. -/
structure EnrollBody where
  deviceId : String
  joinToken : String
  deriving DecidableEq, Repr

inductive EnrollResponse
  | httpError (status : Nat) (detail : String)
  | enrolled (deviceToken certificatePem caCertificatePem : String)
  deriving DecidableEq, Repr

/-- The registry: the join tokens by their hash, and the other tables. -/
structure TokenRegistry (ρ : Type) where
  joinTokens : String → Option JoinToken
  tables : ρ

/-- What `enroll` does once it knows the tenant. -/
abbrev Proceed (ρ : Type) :=
  Nat → EnrollBody → TokenRegistry ρ → Except TokenError EnrollResponse × TokenRegistry ρ

variable {ρ : Type} (hashToken : String → String) (proceed : Proceed ρ)

/-- `consume_join_token` of the registry, as one transaction. -/
def redeem (now stamp : Nat) (reg : TokenRegistry ρ) (body : EnrollBody) :
    Except TokenError TokenResult × TokenRegistry ρ :=
  let tokenHash := hashToken body.joinToken
  match consumeJoinToken body.deviceId now stamp (reg.joinTokens tokenHash) with
  | .done result => (.ok result, reg)
  | .raise e => (.error e, reg)
  | .write update result =>
      match update (reg.joinTokens tokenHash) with
      | .error e => (.error e, reg)
      | .ok row =>
          (.ok result, { reg with joinTokens := Function.update reg.joinTokens tokenHash row })

def unauthorized : EnrollResponse := .httpError 401 "Invalid, expired, or used join token"

/-- `enroll`; an `error` is an exception that leaves the endpoint. -/
def enroll (now stamp : Nat) (reg : TokenRegistry ρ) (body : EnrollBody) :
    Except TokenError EnrollResponse × TokenRegistry ρ :=
  match redeem hashToken now stamp reg body with
  | (.error e, reg) => (.error e, reg)
  | (.ok (.tenant (some tenantId)), reg) => proceed tenantId body reg
  | (.ok _, reg) => (.ok unauthorized, reg)

def MustFail (now : Nat) (reg : TokenRegistry ρ) (body : EnrollBody) : Prop :=
  ∀ t ∈ reg.joinTokens (hashToken body.joinToken), t.deviceId ≠ body.deviceId ∨
    t.expiresAt < now ∨ t.consumedAt.isSome = true ∨ t.revokedAt.isSome = true

def Ascii (text : String) : Prop := text.toList.all (·.toNat < 128) = true

/-- The token is neither consumed nor revoked, and `compare_digest` refuses its device id or
the presented one. -/
def Uncomparable (reg : TokenRegistry ρ) (body : EnrollBody) : Prop :=
  ∃ t ∈ reg.joinTokens (hashToken body.joinToken), t.consumedAt.isSome = false ∧
    t.revokedAt.isSome = false ∧ ¬ (Ascii t.deviceId ∧ Ascii body.deviceId)

section Failures

variable {hashToken} {proceed} {now stamp : Nat} {reg : TokenRegistry ρ} {body : EnrollBody}

theorem enroll_of_comparable (hfail : MustFail hashToken now reg body)
    (h : ¬ Uncomparable hashToken reg body) :
    enroll hashToken proceed now stamp reg body = (.ok unauthorized, reg) := by
  suffices hplan : consumeJoinToken body.deviceId now stamp
      (reg.joinTokens (hashToken body.joinToken)) = .done (.tenant none) by
    simp only [enroll, redeem, hplan]
  cases hrow : reg.joinTokens (hashToken body.joinToken) with
  | none => rfl
  | some t =>
    have ht := hfail t hrow
    by_cases hused : (t.consumedAt.isSome || t.revokedAt.isSome) = true
    · simp only [consumeJoinToken, hused, if_true]
    · obtain ⟨hconsumed, hrevoked⟩ := Bool.or_eq_false_iff.1 (Bool.not_eq_true _ ▸ hused)
      have hascii : Ascii t.deviceId ∧ Ascii body.deviceId :=
        not_not.1 fun hn => h ⟨t, hrow, hconsumed, hrevoked, hn⟩
      have hdigest : compareDigest t.deviceId body.deviceId = .ok (t.deviceId == body.deviceId) :=
        if_pos (Bool.and_eq_true _ _ ▸ hascii)
      by_cases hdevice : t.deviceId = body.deviceId
      · have hexpired : t.expiresAt < now := by simpa [hdevice, hconsumed, hrevoked] using ht
        rw [beq_iff_eq.2 hdevice] at hdigest
        simp [consumeJoinToken, hconsumed, hrevoked, hdigest, hexpired]
      · rw [beq_eq_false_iff_ne.2 hdevice] at hdigest
        simp [consumeJoinToken, hconsumed, hrevoked, hdigest]

theorem enroll_of_uncomparable (h : Uncomparable hashToken reg body) :
    enroll hashToken proceed now stamp reg body = (.error .typeError, reg) := by
  obtain ⟨t, hrow, hconsumed, hrevoked, hascii⟩ := h
  have hdigest : compareDigest t.deviceId body.deviceId = .error .typeError :=
    if_neg (Bool.and_eq_true _ _ ▸ hascii)
  have hplan : consumeJoinToken body.deviceId now stamp
      (reg.joinTokens (hashToken body.joinToken)) = .raise .typeError := by
    rw [hrow]
    simp [consumeJoinToken, hconsumed, hrevoked, hdigest]
  simp only [enroll, redeem, hplan]

end Failures

/-- **Two failing requests, to any two registries, get the same response, without an exception
and without a change, exactly if `compare_digest` accepts the device ids of both.** -/
theorem enroll_alike_iff {now₁ now₂ stamp₁ stamp₂ : Nat} {reg₁ reg₂ : TokenRegistry ρ}
    {body₁ body₂ : EnrollBody} (hfail₁ : MustFail hashToken now₁ reg₁ body₁)
    (hfail₂ : MustFail hashToken now₂ reg₂ body₂) :
    (∃ response, enroll hashToken proceed now₁ stamp₁ reg₁ body₁ = (.ok response, reg₁) ∧
        enroll hashToken proceed now₂ stamp₂ reg₂ body₂ = (.ok response, reg₂)) ↔
      ¬ Uncomparable hashToken reg₁ body₁ ∧ ¬ Uncomparable hashToken reg₂ body₂ := by
  constructor
  · rintro ⟨response, h₁, h₂⟩
    refine ⟨fun h => ?_, fun h => ?_⟩
    · rw [enroll_of_uncomparable h] at h₁
      cases h₁
    · rw [enroll_of_uncomparable h] at h₂
      cases h₂
  · rintro ⟨h₁, h₂⟩
    exact ⟨unauthorized, enroll_of_comparable hfail₁ h₁, enroll_of_comparable hfail₂ h₂⟩

def oneToken (ρ : Type) (tables : ρ) : TokenRegistry ρ :=
  ⟨fun h => if h = "t" then some liveToken else none, tables⟩

theorem enroll_alike_unknown :
    ∃ response, enroll id (fun _ _ reg => (.ok (.enrolled "" "" ""), reg)) 10 11
        (oneToken Unit ()) ⟨"gw-1", "u"⟩ = (.ok response, oneToken Unit ()) ∧
      enroll id (fun _ _ reg => (.ok (.enrolled "" "" ""), reg)) 10 11
        (oneToken Unit ()) ⟨"gw-2", "v"⟩ = (.ok response, oneToken Unit ()) := by
  have hunknown : ∀ token, token ≠ "t" → (oneToken Unit ()).joinTokens token = none :=
    fun token h => if_neg h
  refine (enroll_alike_iff id _ ?_ ?_).2 ⟨?_, ?_⟩
  · simp [MustFail, hunknown]
  · simp [MustFail, hunknown]
  · simp [Uncomparable, hunknown]
  · simp [Uncomparable, hunknown]

/-- An unknown token is answered; a known one, presented by a device whose id is not ASCII,
raises. -/
theorem known_token_raises :
    MustFail id 10 (oneToken Unit ()) ⟨"gw-é", "t"⟩ ∧
      MustFail id 10 (oneToken Unit ()) ⟨"gw-é", "u"⟩ ∧
      ∀ proceed : Proceed Unit,
        enroll id proceed 10 11 (oneToken Unit ()) ⟨"gw-é", "t"⟩ =
            (.error .typeError, oneToken Unit ()) ∧
          enroll id proceed 10 11 (oneToken Unit ()) ⟨"gw-é", "u"⟩ =
            (.ok unauthorized, oneToken Unit ()) := by
  have hknown : (oneToken Unit ()).joinTokens "t" = some liveToken := rfl
  have hunknown : (oneToken Unit ()).joinTokens "u" = none := rfl
  have hfail : MustFail id 10 (oneToken Unit ()) ⟨"gw-é", "u"⟩ := by simp [MustFail, hunknown]
  refine ⟨?_, hfail, fun proceed => ⟨enroll_of_uncomparable ?_, enroll_of_comparable hfail ?_⟩⟩
  · intro t ht
    obtain rfl : liveToken = t := Option.some.inj (hknown.symm.trans ht)
    exact .inl (by decide)
  · exact ⟨liveToken, hknown, rfl, rfl, by unfold Ascii; decide⟩
  · simp [Uncomparable, hunknown]

end XEdge.Fleet
