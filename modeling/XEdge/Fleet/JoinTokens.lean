import XEdge.Lib.ReadCommitted

/-!
# Join tokens (`xedge/fleet/registry.py`)

An operator provisions a join token for one device; the device redeems it once,
with `consume_join_token`, and an operator may kill it before, with
`revoke_join_token`.  Both read the token's row, look at it in the program, and
write with an `UPDATE` by primary key: nothing in the `UPDATE` of a redemption
says that the token is still unconsumed.

The row is the one with the hash of the token that is presented; `none` when
there is no such row.  Times are in microseconds.
-/

namespace XEdge.Fleet

open Lib Lib.ReadCommitted

/-! ## The row and the calls -/

/-- `JoinToken`, the columns the two calls use. -/
structure JoinToken where
  tenantId : Nat
  deviceId : String
  expiresAt : Nat
  consumedAt : Option Nat
  revokedAt : Option Nat
  revokedBy : Option String
  deriving DecidableEq, Repr

inductive TokenError
  /-- `hmac.compare_digest` refuses text that is not ASCII. -/
  | typeError
  /-- The `UPDATE` has not matched a row. -/
  | staleData
  deriving DecidableEq, Repr

inductive TokenResult
  /-- `consume_join_token`: the tenant, or `None`. -/
  | tenant (tenantId : Option Nat)
  /-- `revoke_join_token`. -/
  | revoked (found : Bool)
  deriving DecidableEq, Repr

inductive TokenCall
  /-- `consume_join_token`; `now` is compared with the expiry, `stamp` is stored. -/
  | consume (deviceId : String) (now stamp : Nat)
  /-- `revoke_join_token`. -/
  | revoke (tenantId : Nat) (revokedBy : String) (now : Nat)
  deriving DecidableEq, Repr

/-- `hmac.compare_digest` on two strings. -/
def compareDigest (a b : String) : Except TokenError Bool :=
  if a.toList.all (·.toNat < 128) && b.toList.all (·.toNat < 128) then .ok (a == b)
  else .error .typeError

/-- `UPDATE join_tokens SET … WHERE token_hash = …`. -/
def updateToken (set : JoinToken → JoinToken) :
    Option JoinToken → Except TokenError (Option JoinToken)
  | none => .error .staleData
  | some t => .ok (some (set t))

def consumeJoinToken (deviceId : String) (now stamp : Nat) (row : Option JoinToken) :
    Plan (Option JoinToken) TokenResult TokenError :=
  match row with
  | none => .done (.tenant none)
  | some t =>
      if t.consumedAt.isSome || t.revokedAt.isSome then .done (.tenant none)
      else
        match compareDigest t.deviceId deviceId with
        | .error e => .raise e
        | .ok false => .done (.tenant none)
        | .ok true =>
            if t.expiresAt < now then .done (.tenant none)
            else .write (updateToken fun t => { t with consumedAt := some stamp })
              (.tenant (some t.tenantId))

def revokeJoinToken (tenantId : Nat) (revokedBy : String) (now : Nat)
    (row : Option JoinToken) : Plan (Option JoinToken) TokenResult TokenError :=
  match row with
  | none => .done (.revoked false)
  | some t =>
      if t.tenantId = tenantId then
        .write (updateToken fun t => { t with revokedAt := some now, revokedBy := some revokedBy })
          (.revoked true)
      else .done (.revoked false)

def tokenCode : TokenCall → Option JoinToken → Plan (Option JoinToken) TokenResult TokenError
  | .consume deviceId now stamp => consumeJoinToken deviceId now stamp
  | .revoke tenantId revokedBy now => revokeJoinToken tenantId revokedBy now

abbrev TokenState := State (Option JoinToken) TokenCall TokenResult TokenError

def tokenMachine : Machine TokenState (Event TokenCall) := machine tokenCode

/-! ## What the calls decide -/

def Consumed (row : Option JoinToken) : Prop := (row.bind JoinToken.consumedAt).isSome = true

def Revoked (row : Option JoinToken) : Prop := (row.bind JoinToken.revokedAt).isSome = true

instance (row : Option JoinToken) : Decidable (Consumed row) :=
  inferInstanceAs (Decidable (_ = true))

variable {c : TokenCall} {seen : Option JoinToken} {r : TokenResult}
  {update : Option JoinToken → Except TokenError (Option JoinToken)}

/-- A write of either call: a redemption of a token that was live when it was read,
or a revocation. -/
theorem tokenCode_write (h : tokenCode c seen = .write update r) :
    (∃ stamp tenantId, update = updateToken (fun t => { t with consumedAt := some stamp }) ∧
      r = .tenant (some tenantId) ∧ ¬ Consumed seen ∧ ¬ Revoked seen) ∨
    (∃ now revokedBy, update = updateToken (fun t =>
      { t with revokedAt := some now, revokedBy := some revokedBy }) ∧ r = .revoked true) := by
  cases c with
  | consume deviceId now stamp =>
    simp only [tokenCode, consumeJoinToken] at h
    split at h
    · cases h
    · next t =>
      split at h
      · cases h
      · next hlive =>
        simp only [Bool.or_eq_true, not_or] at hlive
        split at h
        · cases h
        · cases h
        · split at h
          · cases h
          · cases h
            exact .inl ⟨stamp, t.tenantId, rfl, rfl, hlive.1, hlive.2⟩
  | revoke tenantId revokedBy now =>
    simp only [tokenCode, revokeJoinToken] at h
    split at h
    · cases h
    · split at h
      · cases h
        exact .inr ⟨now, revokedBy, rfl, rfl⟩
      · cases h

theorem tokenCode_done
    (h : tokenCode c seen = .done r) : r = .tenant none ∨ r = .revoked false := by
  cases c with
  | consume deviceId now stamp =>
    simp only [tokenCode, consumeJoinToken] at h
    repeat' split at h
    all_goals first | (cases h; exact .inl rfl) | cases h
  | revoke tenantId revokedBy now =>
    simp only [tokenCode, revokeJoinToken] at h
    repeat' split at h
    all_goals first | (cases h; exact .inr rfl) | cases h

variable {row new : Option JoinToken}

theorem updateToken_ok {set : JoinToken → JoinToken}
    (h : updateToken set row = .ok new) : ∃ t, row = some t ∧ new = some (set t) := by
  cases row with
  | none => cases h
  | some t =>
    cases h
    exact ⟨t, rfl, rfl⟩

theorem tokenCode_row (hplan : tokenCode c seen = .write update r) (hrow : update row = .ok new) :
    (∃ tenantId, r = .tenant (some tenantId) ∧ ¬ Consumed seen ∧ ¬ Revoked seen ∧
      Consumed new ∧ (Revoked row → Revoked new)) ∨
    (r = .revoked true ∧ Revoked new ∧ (Consumed new ↔ Consumed row)) := by
  rcases tokenCode_write hplan with ⟨stamp, tenantId, rfl, hr, hc, hv⟩ | ⟨now, by_, rfl, hr⟩
  · obtain ⟨t, rfl, rfl⟩ := updateToken_ok hrow
    exact .inl ⟨tenantId, hr, hc, hv, rfl, id⟩
  · obtain ⟨t, rfl, rfl⟩ := updateToken_ok hrow
    exact .inr ⟨hr, rfl, Iff.rfl⟩

/-! ## The property -/

def TokenResult.redeems : TokenResult → Bool
  | .tenant (some _) => true
  | _ => false

def redemptions (s : TokenState) :
    List (Request (Option JoinToken) TokenCall TokenResult × TokenResult) :=
  s.returned.filter fun x => x.2.redeems

/-- At most one redemption has succeeded, and none that began after a revocation
was committed. -/
structure SingleUse (s : TokenState) : Prop where
  once : (redemptions s).length ≤ 1
  unrevoked : ∀ x ∈ redemptions s, ∀ y ∈ x.1.before, y.2 ≠ .revoked true

/-- A redemption is committed only while the committed row says that the token is
unconsumed. -/
def commitsUnconsumed (s : TokenState) : Event TokenCall → Bool
  | .commit i =>
      match (s.txs[i]?).map Tx.phase with
      | some (.flushed _ (.tenant _)) => decide (¬ Consumed s.row)
      | _ => true
  | _ => true

/-! ## What every interleaving keeps -/

def MarksStay (a b : Option JoinToken) : Prop :=
  (Consumed a → Consumed b) ∧ (Revoked a → Revoked b)

structure TokenInv (s : TokenState) : Prop where
  sound : Sound tokenCode s
  seen : Seen MarksStay s
  marked : redemptions s ≠ [] → Consumed s.row
  byRedemption : ∀ q ∈ s.requests, ¬ Consumed q.seen → Consumed s.row → redemptions s ≠ []
  revoked : ∀ y ∈ s.history, y.2 = .revoked true → Revoked s.row
  sees : ∀ q ∈ s.requests, ∀ y ∈ q.before, y.2 = .revoked true → Revoked q.seen
  live : ∀ x ∈ redemptions s, x.1 ∈ s.requests ∧ ¬ Revoked x.1.seen

theorem tokenInv_start (row : Option JoinToken) : TokenInv (State.start row) where
  sound := sound_start tokenCode row
  seen := seen_start MarksStay row
  marked h := (h rfl).elim
  byRedemption := by simp [State.requests, State.start]
  revoked := by simp [State.history, State.start]
  sees := by simp [State.requests, State.start]
  live := by simp [redemptions, State.start]

variable {s s' : TokenState} {x : Request (Option JoinToken) TokenCall TokenResult × TokenResult}

theorem redemptions_of_returned (h : s'.returned = s.returned ++ [x]) :
    redemptions s' = redemptions s ++ if x.2.redeems then [x] else [] := by
  unfold redemptions
  rw [h, List.filter_append, List.filter_singleton, Bool.cond_eq_ite]

theorem history_of_returned
    (h : s'.returned = s.returned ++ [x]) : s'.history = s.history ++ [(x.1.call, x.2)] := by
  unfold State.history
  rw [h, List.map_append]
  rfl

theorem marksStay_step {e : Event TokenCall} (hs : TokenInv s)
    (h : tokenMachine.step s e = some s') : Seen MarksStay s' := by
  refine seen_step (fun _ => ⟨id, id⟩) (fun hab hbc => ⟨hbc.1 ∘ hab.1, hbc.2 ∘ hab.2⟩) ?_
    hs.sound hs.seen h
  intro c seen row new update r _ hplan hrow
  rcases tokenCode_row hplan hrow with ⟨_, _, _, _, hc, hv⟩ | ⟨_, hv, hc⟩
  · exact ⟨fun _ => hc, hv⟩
  · exact ⟨hc.2, fun _ => hv⟩

/-- A step that neither redeems nor revokes keeps the invariant: the calls it adds
have read the committed row and know the calls that have returned. -/
theorem TokenInv.quiet (hs : TokenInv s) (hsound : Sound tokenCode s') (hseen : Seen MarksStay s')
    (hrow : s'.row = s.row) (hred : redemptions s' = redemptions s)
    (hrevoked : ∀ y ∈ s'.history, y.2 = .revoked true → y ∈ s.history)
    (hold : ∀ q ∈ s.requests, q ∈ s'.requests)
    (hnew : ∀ q ∈ s'.requests, q ∈ s.requests ∨ q.seen = s.row ∧ q.before = s.history) :
    TokenInv s' where
  sound := hsound
  seen := hseen
  marked := by
    rw [hred, hrow]
    exact hs.marked
  byRedemption := by
    intro q hq hunseen hcons
    rw [hrow] at hcons
    rw [hred]
    rcases hnew q hq with hq | ⟨hqseen, -⟩
    · exact hs.byRedemption q hq hunseen hcons
    · rw [hqseen] at hunseen
      exact (hunseen hcons).elim
  revoked := by
    intro y hy hyr
    rw [hrow]
    exact hs.revoked y (hrevoked y hy hyr) hyr
  sees := by
    intro q hq y hy hyr
    rcases hnew q hq with hq | ⟨hqseen, hqbefore⟩
    · exact hs.sees q hq y hy hyr
    · rw [hqseen]
      rw [hqbefore] at hy
      exact hs.revoked y hy hyr
  live := by
    intro x hx
    rw [hred] at hx
    obtain ⟨hmem, hlive⟩ := hs.live x hx
    exact ⟨hold _ hmem, hlive⟩

variable {q : Request (Option JoinToken) TokenCall TokenResult}

theorem TokenInv.redeem (hs : TokenInv s) (hsound : Sound tokenCode s') (hseen : Seen MarksStay s')
    {tenantId : Nat} (hq : q ∈ s.requests) (hlive : ¬ Revoked q.seen) (hcons : Consumed s'.row)
    (hrev : Revoked s.row → Revoked s'.row)
    (hret : s'.returned = s.returned ++ [(q, .tenant (some tenantId))])
    (hreq : s'.requests = s.requests) : TokenInv s' where
  sound := hsound
  seen := hseen
  marked _ := hcons
  byRedemption := by
    rw [redemptions_of_returned hret]
    simp [TokenResult.redeems]
  revoked := by
    intro y hy hyr
    rw [history_of_returned hret] at hy
    rcases List.mem_append.1 hy with hy | hy
    · exact hrev (hs.revoked y hy hyr)
    · rw [List.mem_singleton.1 hy] at hyr
      cases hyr
  sees := by
    rw [hreq]
    exact hs.sees
  live := by
    intro x hx
    rw [redemptions_of_returned hret] at hx
    rw [hreq]
    rcases List.mem_append.1 hx with hx | hx
    · exact hs.live x hx
    · rw [List.mem_singleton.1 hx]
      exact ⟨hq, hlive⟩

theorem TokenInv.revoke (hs : TokenInv s) (hsound : Sound tokenCode s')
    (hseen : Seen MarksStay s')
    (hrev : Revoked s'.row) (hcons : Consumed s'.row ↔ Consumed s.row)
    (hret : s'.returned = s.returned ++ [(q, .revoked true)])
    (hreq : s'.requests = s.requests) : TokenInv s' := by
  have hred : redemptions s' = redemptions s := by
    rw [redemptions_of_returned hret]
    exact List.append_nil _
  refine ⟨hsound, hseen, ?_, ?_, fun _ _ _ => hrev, ?_, ?_⟩
  · rw [hred, hcons]
    exact hs.marked
  · rw [hred, hreq, hcons]
    exact hs.byRedemption
  · rw [hreq]
    exact hs.sees
  · rw [hred, hreq]
    exact hs.live

theorem tokenInv_step (s : TokenState) (e : Event TokenCall) (s' : TokenState) (hs : TokenInv s)
    (h : tokenMachine.step s e = some s') : TokenInv s' := by
  have hsound : Sound tokenCode s' := sound_step hs.sound h
  have hseen : Seen MarksStay s' := marksStay_step hs h
  cases step_effect hs.sound h with
  | select c hrow hret hreq =>
    refine hs.quiet hsound hseen hrow (by simp [redemptions, hret]) ?_ ?_ ?_
    · intro y hy _
      simpa [State.history, hret] using hy
    · intro q hq
      rw [hreq]
      exact List.mem_append_left _ hq
    · intro q hq
      rw [hreq] at hq
      rcases List.mem_append.1 hq with hq | hq
      · exact .inl hq
      · rw [List.mem_singleton.1 hq]
        exact .inr ⟨rfl, rfl⟩
  | silent hrow hret hreq _ =>
    refine hs.quiet hsound hseen hrow (by simp [redemptions, hret]) ?_ ?_ ?_
    · intro y hy _
      simpa [State.history, hret] using hy
    · exact fun q hq => hreq ▸ hq
    · exact fun q hq => .inl (hreq ▸ hq)
  | readOnly i t r ht _ hplan hrow hret hreq =>
    have hnot : r.redeems = false ∧ r ≠ .revoked true := by
      rcases tokenCode_done hplan with rfl | rfl <;> exact ⟨rfl, by simp⟩
    refine hs.quiet hsound hseen hrow ?_ ?_ ?_ ?_
    · simp [redemptions_of_returned hret, hnot.1]
    · intro y hy hyr
      rw [history_of_returned hret] at hy
      rcases List.mem_append.1 hy with hy | hy
      · exact hy
      · rw [List.mem_singleton.1 hy] at hyr
        exact (hnot.2 hyr).elim
    · exact fun q hq => hreq ▸ hq
    · exact fun q hq => .inl (hreq ▸ hq)
  | write i t r update ht _ hplan hrow hret hreq =>
    rcases tokenCode_row hplan hrow with ⟨tenantId, rfl, _, hv, hc, hvrow⟩ | ⟨rfl, hv, hc⟩
    · exact hs.redeem hsound hseen (mem_requests ht) hv hc hvrow hret hreq
    · exact hs.revoke hsound hseen hv hc hret hreq

/-! ## Exactly when the token is used once -/

theorem TokenInv.unrevoked (hs : TokenInv s) :
    ∀ x ∈ redemptions s, ∀ y ∈ x.1.before, y.2 ≠ .revoked true := by
  intro x hx y hy hyr
  obtain ⟨hmem, hlive⟩ := hs.live x hx
  exact hlive (hs.sees x.1 hmem y hy hyr)

/-- One step keeps "at most one redemption" just in case it does not commit a
redemption over another one. -/
theorem redemptions_step (s : TokenState) (e : Event TokenCall) (s' : TokenState)
    (hs : TokenInv s) (h : tokenMachine.step s e = some s') :
    (redemptions s').length ≤ 1 ↔
      (redemptions s).length ≤ 1 ∧ commitsUnconsumed s e = true := by
  cases step_effect hs.sound h with
  | select c hrow hret hreq => simp [redemptions, hret, commitsUnconsumed]
  | silent hrow hret hreq hcommit =>
    have hguard : commitsUnconsumed s e = true := by
      cases e with
      | commit i => exact (hcommit i rfl).elim
      | select | flush | abort => rfl
    simp [redemptions, hret, hguard]
  | readOnly i t r ht hphase hplan hrow hret hreq =>
    have hnot : r.redeems = false := by
      rcases tokenCode_done hplan with rfl | rfl <;> rfl
    have hguard : commitsUnconsumed s (.commit i) = true := by
      simp [commitsUnconsumed, ht, hphase]
    simp [redemptions_of_returned hret, hnot, hguard]
  | write i t r update ht hphase hplan hrow hret hreq =>
    rcases tokenCode_row hplan hrow with ⟨tenantId, rfl, hunseen, _⟩ | ⟨rfl, _⟩
    · have hguard : commitsUnconsumed s (.commit i) = true ↔ ¬ Consumed s.row := by
        simp [commitsUnconsumed, ht, hphase]
      -- the token is marked just in case it was redeemed: this call saw it unmarked
      have hmarked : Consumed s.row ↔ redemptions s ≠ [] :=
        ⟨hs.byRedemption t.req (mem_requests ht) hunseen, hs.marked⟩
      rw [hguard, hmarked, redemptions_of_returned hret]
      cases redemptions s with
      | nil | cons => simp [TokenResult.redeems]
    · have hguard : commitsUnconsumed s (.commit i) = true := by
        simp [commitsUnconsumed, ht, hphase]
      simp [redemptions_of_returned hret, TokenResult.redeems, hguard]

/-- **Join tokens are used once just in case no redemption is committed over
another one.**  The row may be any row, or none; calls of either kind, any number
of them, may interleave in any way. -/
theorem single_use_iff (row : Option JoinToken) (es : List (Event TokenCall)) (s : TokenState)
    (hrun : tokenMachine.run (State.start row) es = some s) :
    SingleUse s ↔
      tokenMachine.Meets (fun s e => commitsUnconsumed s e = true) (State.start row) es := by
  have hinv : TokenInv s := tokenMachine.inv_run tokenInv_step (tokenInv_start row) hrun
  have honce := tokenMachine.iff_meets tokenInv_step redemptions_step (tokenInv_start row) hrun
  have hzero : (redemptions (State.start row)).length ≤ 1 := Nat.zero_le 1
  constructor
  · intro h
    exact (honce.1 h.once).2
  · intro h
    exact ⟨honce.2 ⟨hzero, h⟩, hinv.unrevoked⟩

/-! ### Two devices at once -/

def liveToken : JoinToken := ⟨7, "gw-1", 100, none, none, none⟩

def redeemThenRevoke : List (Event TokenCall) :=
  [.select (.consume "gw-1" 10 11), .flush 0, .commit 0,
    .select (.revoke 7 "admin" 12), .flush 1, .commit 1]

theorem single_use_redeemThenRevoke :
    ∃ s, tokenMachine.run (State.start (some liveToken)) redeemThenRevoke = some s ∧
      SingleUse s := by
  obtain ⟨s, hs, -⟩ := Option.map_eq_some_iff.1
    (show (tokenMachine.run (State.start (some liveToken)) redeemThenRevoke).map
      (fun s => s.returned.map Prod.snd) = some [.tenant (some 7), .revoked true] by
        decide +kernel)
  exact ⟨s, hs, (single_use_iff _ _ s hs).2 (by decide +kernel)⟩

def redeemTogether : List (Event TokenCall) :=
  [.select (.consume "gw-1" 10 11), .select (.consume "gw-1" 12 13), .flush 0, .commit 0,
    .flush 1, .commit 1]

/-- Two redemptions of one token, read before either has committed, both return
the tenant. -/
theorem redeemed_twice :
    ∃ s, tokenMachine.run (State.start (some liveToken)) redeemTogether = some s ∧
      s.returned.map Prod.snd = [.tenant (some 7), .tenant (some 7)] ∧ ¬ SingleUse s := by
  obtain ⟨s, hs, hv⟩ := Option.map_eq_some_iff.1
    (show (tokenMachine.run (State.start (some liveToken)) redeemTogether).map
      (fun s => (s.returned.map Prod.snd, (redemptions s).length)) =
        some ([.tenant (some 7), .tenant (some 7)], 2) by decide +kernel)
  obtain ⟨hresults, htwo⟩ := Prod.mk.inj hv
  refine ⟨s, hs, hresults, fun h => ?_⟩
  have honce : (redemptions s).length ≤ 1 := h.once
  omega

end XEdge.Fleet
