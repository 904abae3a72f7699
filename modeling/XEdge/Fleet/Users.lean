import XEdge.Api.Users

/-!
# Operator accounts of the fleet manager (`FleetUserStore` of `xedge/fleet/auth.py`)

The accounts of every tenant are rows of one table, with a unique index on tenant and name.
The calls are those of a gateway's store, made for one tenant, and the last administrator is
guarded in the same way: against deletion, and not against another role.
-/

namespace XEdge.Fleet

open Lib XEdge.Api

/-! ## The table and the calls -/

/-- A row of `fleet_users`, beside its tenant and name. -/
structure FleetUser where
  id : Nat
  passwordHash : String
  role : Role
  deriving DecidableEq, Repr

/-- The tenants, and `fleet_users` by its unique index. -/
structure FleetUsers where
  tenants : List Nat
  users : Dict (Nat × String) FleetUser

inductive FleetUserError where
  /-- `AuthError`. -/
  | auth (error : UserError)
  /-- `IntegrityError`: no such tenant, or a primary key that is taken. -/
  | integrity
  deriving DecidableEq, Repr

inductive FleetUserResult where
  /-- `FleetUserRecord`. -/
  | record (id : Nat) (username : String) (role : Role)
  | found (found : Bool)
  deriving DecidableEq, Repr

/-- A call of the store for a tenant; `id` is the new row's. -/
inductive FleetUserCall where
  | createUser (tenant : Nat) (username : String) (password : Option String) (role : String)
      (id : Nat)
  | setRole (tenant : Nat) (username role : String)
  | deleteUser (tenant : Nat) (username : String)
  | changePassword (tenant : Nat) (username : String) (password : Option String)

abbrev FleetUserOutcome := FleetUsers × Except FleetUserError FleetUserResult

namespace FleetUsers

def createUser (s : FleetUsers) (tenant : Nat) (username : String) (password : Option String)
    (role : String) (id : Nat) : FleetUserOutcome :=
  match Role.parse? role with
  | none => (s, .error (.auth (.unknownRole role)))
  | some r =>
      if validUsername username then
        match s.users.get? (tenant, username), password with
        | some _, _ => (s, .error (.auth (.userExists username)))
        | none, none => (s, .error (.auth .hashing))
        | none, some hash =>
            if tenant ∈ s.tenants ∧ ∀ u ∈ s.users.values, u.id ≠ id then
              ({ s with users := s.users.set (tenant, username) ⟨id, hash, r⟩ },
                .ok (.record id username r))
            else (s, .error .integrity)
      else (s, .error (.auth (.invalidUsername username)))

def setRole (s : FleetUsers) (tenant : Nat) (username role : String) : FleetUserOutcome :=
  match Role.parse? role with
  | none => (s, .error (.auth (.unknownRole role)))
  | some r =>
      match s.users.get? (tenant, username) with
      | none => (s, .ok (.found false))
      | some user =>
          ({ s with users := s.users.set (tenant, username) { user with role := r } },
            .ok (.found true))

/-- `other_admins.first() is not None`. -/
def otherAdmins (s : FleetUsers) (tenant : Nat) (user : FleetUser) : Bool :=
  s.users.entries.any fun p => p.1.1 = tenant && p.2.id ≠ user.id && p.2.role = .admin

def deleteUser (s : FleetUsers) (tenant : Nat) (username : String) : FleetUserOutcome :=
  match s.users.get? (tenant, username) with
  | none => (s, .ok (.found false))
  | some user =>
      if user.role = .admin && !s.otherAdmins tenant user then (s, .error (.auth .lastAdmin))
      else ({ s with users := s.users.erase (tenant, username) }, .ok (.found true))

def changePassword (s : FleetUsers) (tenant : Nat) (username : String)
    (password : Option String) : FleetUserOutcome :=
  match s.users.get? (tenant, username), password with
  | none, _ => (s, .ok (.found false))
  | some _, none => (s, .error (.auth .hashing))
  | some user, some hash =>
      ({ s with users := s.users.set (tenant, username) { user with passwordHash := hash } },
        .ok (.found true))

def call (s : FleetUsers) : FleetUserCall → FleetUserOutcome
  | .createUser tenant username password role id => s.createUser tenant username password role id
  | .setRole tenant username role => s.setRole tenant username role
  | .deleteUser tenant username => s.deleteUser tenant username
  | .changePassword tenant username password => s.changePassword tenant username password

def accounts (s : FleetUsers) (tenant : Nat) : Accounts :=
  fun name => (s.users.get? (tenant, name)).map FleetUser.role

end FleetUsers

/-- The store; every call can be made. -/
def fleetUserMachine : Machine FleetUsers FleetUserCall := ⟨fun s c => some (s.call c).1⟩

def FleetUserCall.KeepsAdmin (tenant : Nat) (a : Accounts) : FleetUserCall → Prop
  | .setRole tenant' username role =>
      tenant' = tenant → ∀ r, Role.parse? role = some r → a.OnlyAdmin username → r = .admin
  | _ => True

/-! ## Each call is a change -/

section Calls

variable {s : FleetUsers} {tenant tenant' : Nat} {username : String}

theorem accounts_set (s : FleetUsers) (tenant : Nat) (username : String) (user : FleetUser) :
    FleetUsers.accounts { s with users := s.users.set (tenant, username) user } tenant =
      Function.update (s.accounts tenant) username (some user.role) := by
  funext name
  simp only [FleetUsers.accounts, Function.update_apply, Dict.get?_set, Prod.mk.injEq, true_and]
  split <;> rfl

theorem accounts_erase (s : FleetUsers) (tenant : Nat) (username : String) :
    FleetUsers.accounts { s with users := s.users.erase (tenant, username) } tenant =
      Function.update (s.accounts tenant) username none := by
  funext name
  simp only [FleetUsers.accounts, Function.update_apply, Dict.get?_erase, Prod.mk.injEq, true_and]
  split <;> rfl

theorem accounts_set_other (h : tenant' ≠ tenant) (username : String) (user : FleetUser) :
    FleetUsers.accounts { s with users := s.users.set (tenant', username) user } tenant =
      s.accounts tenant := by
  funext name
  have hne : (tenant, name) ≠ (tenant', username) := by
    intro heq
    exact h (Prod.mk.inj heq).1.symm
  simp only [FleetUsers.accounts, Dict.get?_set_of_ne _ _ hne]

theorem accounts_erase_other (h : tenant' ≠ tenant) (username : String) :
    FleetUsers.accounts { s with users := s.users.erase (tenant', username) } tenant =
      s.accounts tenant := by
  funext name
  have hne : (tenant, name) ≠ (tenant', username) := by
    intro heq
    exact h (Prod.mk.inj heq).1.symm
  simp only [FleetUsers.accounts, Dict.get?_erase, if_neg hne]

variable {user : FleetUser}

theorem accounts_of_get? (h : s.users.get? (tenant, username) = some user) :
    s.accounts tenant username = some user.role := by
  rw [FleetUsers.accounts, h, Option.map_some]

theorem exists_of_otherAdmins (huser : s.users.get? (tenant, username) = some user)
    (h : s.otherAdmins tenant user = true) :
    ∃ other, other ≠ username ∧ s.accounts tenant other = some .admin := by
  obtain ⟨⟨⟨tenant', other⟩, row⟩, hmem, hrow⟩ := List.any_eq_true.1 h
  simp only [ne_eq, Bool.and_eq_true, decide_eq_true_eq] at hrow
  obtain ⟨⟨rfl, hid⟩, hrole⟩ := hrow
  have hget := (Dict.get?_eq_some_iff _).2 hmem
  refine ⟨other, ?_, by rw [accounts_of_get? hget, hrole]⟩
  rintro rfl
  rw [huser, Option.some_inj] at hget
  exact hid (by rw [hget])

theorem changesTo_createUser (s : FleetUsers) (tenant tenant' : Nat) (username : String)
    (password : Option String) (role : String) (id : Nat) :
    (s.accounts tenant).ChangesTo
      ((s.createUser tenant' username password role id).1.accounts tenant) True := by
  unfold FleetUsers.createUser
  split
  · exact Accounts.changesTo_self trivial
  · next r _ =>
    split
    · split
      · exact Accounts.changesTo_self trivial
      · exact Accounts.changesTo_self trivial
      · next hash hnone =>
        split
        · by_cases htenant : tenant' = tenant
          · subst htenant
            refine ⟨.add username r, ?_, accounts_set _ _ _ _, Iff.rfl⟩
            rw [Change.Allowed, FleetUsers.accounts, hnone]
            rfl
          · rw [accounts_set_other htenant]
            exact Accounts.changesTo_self trivial
        · exact Accounts.changesTo_self trivial
    · exact Accounts.changesTo_self trivial

theorem changesTo_setRole (s : FleetUsers) (tenant tenant' : Nat) (username role : String) :
    (s.accounts tenant).ChangesTo ((s.setRole tenant' username role).1.accounts tenant)
      ((FleetUserCall.setRole tenant' username role).KeepsAdmin tenant (s.accounts tenant)) := by
  unfold FleetUsers.setRole
  split
  · next hparse =>
    refine Accounts.changesTo_self ?_
    intro _ r hr
    rw [hparse] at hr
    cases hr
  · next r hparse =>
    split
    · next hnone =>
      refine Accounts.changesTo_self ?_
      rintro rfl _ _ honly
      rw [Accounts.OnlyAdmin, FleetUsers.accounts, hnone] at honly
      cases honly.1
    · next user huser =>
      by_cases htenant : tenant' = tenant
      · subst htenant
        refine ⟨.assign username r, ?_, accounts_set _ _ _ _, ?_⟩
        · rw [Change.Allowed, accounts_of_get? huser]
          exact Option.some_ne_none _
        · simp only [Change.Keeps, FleetUserCall.KeepsAdmin, hparse, Option.some_inj, forall_eq',
            forall_const]
      · rw [accounts_set_other htenant]
        exact Accounts.changesTo_self fun heq => absurd heq htenant

theorem changesTo_deleteUser (s : FleetUsers) (tenant tenant' : Nat) (username : String) :
    (s.accounts tenant).ChangesTo ((s.deleteUser tenant' username).1.accounts tenant) True := by
  unfold FleetUsers.deleteUser
  split
  · exact Accounts.changesTo_self trivial
  · next user huser =>
    split
    · exact Accounts.changesTo_self trivial
    · next hrefused =>
      by_cases htenant : tenant' = tenant
      · subst htenant
        refine ⟨.remove username, ?_, accounts_erase _ _ _, Iff.rfl⟩
        rintro ⟨hadmin, honly⟩
        rw [accounts_of_get? huser, Option.some_inj] at hadmin
        simp only [hadmin, decide_true, Bool.true_and, Bool.not_eq_true', Bool.not_eq_false]
          at hrefused
        obtain ⟨other, hne, hother⟩ := exists_of_otherAdmins huser hrefused
        exact hne (honly other hother)
      · rw [accounts_erase_other htenant]
        exact Accounts.changesTo_self trivial

theorem accounts_changePassword (s : FleetUsers) (tenant tenant' : Nat) (username : String)
    (password : Option String) :
    (s.changePassword tenant' username password).1.accounts tenant = s.accounts tenant := by
  unfold FleetUsers.changePassword
  split
  · rfl
  · rfl
  · next user hash huser =>
    by_cases htenant : tenant' = tenant
    · subst htenant
      rw [accounts_set, ← accounts_of_get? huser]
      exact Function.update_eq_self _ _
    · exact accounts_set_other htenant _ _

theorem changesTo_call (s : FleetUsers) (tenant : Nat) (c : FleetUserCall) :
    (s.accounts tenant).ChangesTo ((s.call c).1.accounts tenant)
      (c.KeepsAdmin tenant (s.accounts tenant)) := by
  cases c with
  | createUser tenant' username password role id =>
    exact changesTo_createUser s tenant tenant' username password role id
  | setRole tenant' username role => exact changesTo_setRole s tenant tenant' username role
  | deleteUser tenant' username => exact changesTo_deleteUser s tenant tenant' username
  | changePassword tenant' username password =>
    show (s.accounts tenant).ChangesTo
      ((s.changePassword tenant' username password).1.accounts tenant) True
    rw [accounts_changePassword]
    exact Accounts.changesTo_self trivial

end Calls

theorem hasAdmin_step_iff {s s' : FleetUsers} {c : FleetUserCall} {tenant : Nat}
    (h : (s.accounts tenant).HasAdmin) (hstep : fleetUserMachine.step s c = some s') :
    (s'.accounts tenant).HasAdmin ↔ c.KeepsAdmin tenant (s.accounts tenant) := by
  obtain rfl : (s.call c).1 = s' := Option.some.inj hstep
  exact Accounts.hasAdmin_iff_of_changesTo h (changesTo_call s tenant c)

/-! ## Both stores -/

/-- **When there is always an administrator.**  In the store of a gateway and for a tenant of
the fleet manager alike: exactly if no call gives the only administrator another role. -/
theorem admin_remains_iff (file : UserFile) (calls : List UserCall) (s : FleetUsers)
    (tenant : Nat) (fleetCalls : List FleetUserCall) :
    (file.accounts.HasAdmin →
      (userMachine.Always (fun f => f.accounts.HasAdmin) file calls ↔
        userMachine.Meets (fun f c => c.KeepsAdmin f.accounts) file calls)) ∧
    ((s.accounts tenant).HasAdmin →
      (fleetUserMachine.Always (fun s => (s.accounts tenant).HasAdmin) s fleetCalls ↔
        fleetUserMachine.Meets (fun s c => c.KeepsAdmin tenant (s.accounts tenant)) s
          fleetCalls)) := by
  constructor
  · intro h
    obtain ⟨file', hrun⟩ := userMachine.exists_run (fun _ _ => ⟨_, rfl⟩) file calls
    exact userMachine.always_iff_meets (I := fun _ => True) (fun _ _ _ _ _ => trivial)
      (fun _ _ _ _ hadmin hstep => Api.hasAdmin_step_iff hadmin hstep) trivial h hrun
  · intro h
    obtain ⟨s', hrun⟩ := fleetUserMachine.exists_run (fun _ _ => ⟨_, rfl⟩) s fleetCalls
    exact fleetUserMachine.always_iff_meets (I := fun _ => True) (fun _ _ _ _ _ => trivial)
      (fun _ _ _ _ hadmin hstep => hasAdmin_step_iff hadmin hstep) trivial h hrun

def firstLogin : UserFile := .users (Dict.empty.set "admin" ⟨"hash", .admin⟩)

def firstTenant : FleetUsers := ⟨[1], Dict.empty.set (1, "admin") ⟨7, "hash", .admin⟩⟩

/-- An operator is created and the administrator's deletion refused; a second administrator
is created and the first one deleted. -/
theorem admin_remains_handover :
    (firstLogin.accounts.HasAdmin ∧
      userMachine.Always (fun f => f.accounts.HasAdmin) firstLogin
        [.createUser "bo" (some "h") "operator", .deleteUser "admin",
          .changePassword "bo" (some "g")]) ∧
    ((firstTenant.accounts 1).HasAdmin ∧
      fleetUserMachine.Always (fun s => (s.accounts 1).HasAdmin) firstTenant
        [.createUser 1 "bo" (some "h") "admin" 8, .deleteUser 1 "admin",
          .deleteUser 1 "bo"]) := by
  have hfile : firstLogin.accounts.HasAdmin := ⟨"admin", rfl⟩
  have htenant : (firstTenant.accounts 1).HasAdmin := ⟨"admin", rfl⟩
  refine ⟨⟨hfile, ((admin_remains_iff firstLogin _ firstTenant 1 []).1 hfile).2 ?_⟩,
    htenant, ((admin_remains_iff firstLogin [] firstTenant 1 _).2 htenant).2 ?_⟩
  · exact ⟨trivial, trivial, trivial, trivial⟩
  · exact ⟨trivial, trivial, trivial, trivial⟩

/-- **The only administrator, made a reader**: both stores accept it, and have none left. -/
theorem admin_demoted :
    (firstLogin.accounts.HasAdmin ∧
      (firstLogin.call (.setRole "admin" "readonly")).2 = .ok () ∧
      ¬ (firstLogin.call (.setRole "admin" "readonly")).1.accounts.HasAdmin) ∧
    ((firstTenant.accounts 1).HasAdmin ∧
      (firstTenant.call (.setRole 1 "admin" "readonly")).2 = .ok (.found true) ∧
      ¬ ((firstTenant.call (.setRole 1 "admin" "readonly")).1.accounts 1).HasAdmin) := by
  have hfile : firstLogin.accounts.HasAdmin := ⟨"admin", rfl⟩
  have htenant : (firstTenant.accounts 1).HasAdmin := ⟨"admin", rfl⟩
  have honly : firstLogin.accounts.OnlyAdmin "admin" := by
    refine ⟨rfl, fun other hother => ?_⟩
    by_contra hne
    have hnone : firstLogin.accounts other = none := by
      rw [firstLogin, Api.accounts_set, Function.update_of_ne hne]
      rfl
    rw [hnone] at hother
    cases hother
  have honlyTenant : (firstTenant.accounts 1).OnlyAdmin "admin" := by
    refine ⟨rfl, fun other hother => ?_⟩
    by_contra hne
    have hnone : firstTenant.accounts 1 other = none := by
      rw [firstTenant, accounts_set ⟨[1], Dict.empty⟩, Function.update_of_ne hne]
      rfl
    rw [hnone] at hother
    cases hother
  refine ⟨⟨hfile, rfl, ?_⟩, htenant, rfl, ?_⟩
  · rw [Accounts.hasAdmin_iff_of_changesTo hfile (Api.changesTo_call _ _)]
    intro hkeeps
    exact absurd (hkeeps .readonly rfl honly) (by decide)
  · rw [Accounts.hasAdmin_iff_of_changesTo htenant (changesTo_call _ _ _)]
    intro hkeeps
    exact absurd (hkeeps rfl .readonly rfl honlyTenant) (by decide)

end XEdge.Fleet
