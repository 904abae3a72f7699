import XEdge.Lib.Dict
import XEdge.Lib.Machine

/-!
# User accounts of a gateway (`UserStore` of `xedge/api/auth.py`)

The accounts are kept in one JSON file, each with a role.  Deleting the last administrator is
refused; giving that account another role is not.
-/

namespace XEdge.Api

open Lib

/-! ## Accounts -/

/-- The keys of `ROLE_PERMISSIONS`. -/
inductive Role where
  | admin
  | operator
  | auditor
  | readonly
  deriving DecidableEq, Repr

/-- `role in ROLE_PERMISSIONS`, and which one it is. -/
def Role.parse? : String → Option Role
  | "admin" => some .admin
  | "operator" => some .operator
  | "auditor" => some .auditor
  | "readonly" => some .readonly
  | _ => none

abbrev Accounts := String → Option Role

namespace Accounts

def HasAdmin (a : Accounts) : Prop := ∃ name, a name = some .admin

def OnlyAdmin (a : Accounts) (name : String) : Prop :=
  a name = some .admin ∧ ∀ other, a other = some .admin → other = name

end Accounts

inductive Change where
  | keep
  | add (name : String) (role : Role)
  | assign (name : String) (role : Role)
  | remove (name : String)

namespace Change

def apply (a : Accounts) : Change → Accounts
  | keep => a
  | add name role => Function.update a name (some role)
  | assign name role => Function.update a name (some role)
  | remove name => Function.update a name none

def Allowed (a : Accounts) : Change → Prop
  | keep => True
  | add name _ => a name = none
  | assign name _ => a name ≠ none
  | remove name => ¬ a.OnlyAdmin name

def Keeps (a : Accounts) : Change → Prop
  | assign name role => a.OnlyAdmin name → role = .admin
  | _ => True

end Change

namespace Accounts

variable {a : Accounts}

theorem onlyAdmin_or_other (h : a.HasAdmin) (name : String) :
    a.OnlyAdmin name ∨ ∃ other, other ≠ name ∧ a other = some .admin := by
  by_cases hother : ∃ other, other ≠ name ∧ a other = some .admin
  · exact .inr hother
  push Not at hother
  have honly : ∀ other, a other = some .admin → other = name := by
    intro other hadmin
    by_contra hne
    exact hother other hne hadmin
  obtain ⟨admin, hadmin⟩ := h
  exact .inl ⟨honly admin hadmin ▸ hadmin, honly⟩

theorem hasAdmin_update_of_other {name other : String} (role : Option Role) (hne : other ≠ name)
    (hother : a other = some .admin) :
    HasAdmin (Function.update a name role) :=
  ⟨other, by rw [Function.update_of_ne hne, hother]⟩

theorem hasAdmin_update_of_only {name : String} (role : Option Role) (h : a.OnlyAdmin name) :
    HasAdmin (Function.update a name role) ↔ role = some .admin := by
  constructor
  · rintro ⟨admin, hadmin⟩
    by_cases hname : admin = name
    · rwa [hname, Function.update_self] at hadmin
    · rw [Function.update_of_ne hname] at hadmin
      exact absurd (h.2 admin hadmin) hname
  · intro hrole
    exact ⟨name, by rw [Function.update_self, hrole]⟩

/-- **A change leaves an administrator** exactly if it does not give the only one another
role. -/
theorem hasAdmin_apply_iff {c : Change} (h : a.HasAdmin) (hallowed : c.Allowed a) :
    (c.apply a).HasAdmin ↔ c.Keeps a := by
  cases c with
  | keep => exact ⟨fun _ => trivial, fun _ => h⟩
  | add name role =>
    refine ⟨fun _ => trivial, fun _ => ?_⟩
    obtain ⟨admin, hadmin⟩ := h
    refine hasAdmin_update_of_other _ ?_ hadmin
    rintro rfl
    rw [Change.Allowed, hadmin] at hallowed
    cases hallowed
  | assign name role =>
    obtain honly | ⟨other, hne, hother⟩ := onlyAdmin_or_other h name
    · rw [Change.apply, hasAdmin_update_of_only _ honly, Option.some_inj]
      exact ⟨fun hrole _ => hrole, fun hkeeps => hkeeps honly⟩
    · refine ⟨fun _ honly => absurd (honly.2 other hother) hne, fun _ => ?_⟩
      exact hasAdmin_update_of_other _ hne hother
  | remove name =>
    refine ⟨fun _ => trivial, fun _ => ?_⟩
    obtain honly | ⟨other, hne, hother⟩ := onlyAdmin_or_other h name
    · exact absurd honly hallowed
    · exact hasAdmin_update_of_other _ hne hother

/-- The accounts become `a'` by a change that a store allows, and `P` says that it keeps the
last administrator. -/
def ChangesTo (a a' : Accounts) (P : Prop) : Prop :=
  ∃ change : Change, change.Allowed a ∧ a' = change.apply a ∧ (change.Keeps a ↔ P)

theorem changesTo_self {P : Prop} (hP : P) : a.ChangesTo a P :=
  ⟨.keep, trivial, rfl, fun _ => hP, fun _ => trivial⟩

theorem hasAdmin_iff_of_changesTo {a' : Accounts} {P : Prop} (h : a.HasAdmin)
    (hchanges : a.ChangesTo a' P) : a'.HasAdmin ↔ P := by
  obtain ⟨change, hallowed, rfl, hkeeps⟩ := hchanges
  rw [hasAdmin_apply_iff h hallowed, hkeeps]

end Accounts

/-! ## The store of a gateway -/

/-- The exceptions of the calls: `AuthError`, apart from the last. -/
inductive UserError where
  | alreadySetUp
  | unknownRole (role : String)
  | invalidUsername (username : String)
  | userExists (username : String)
  | noSuchUser (username : String)
  | lastAdmin
  /-- `bcrypt.hashpw`, or the encoding of the password, raises. -/
  | hashing
  deriving DecidableEq, Repr

/-- The text of an `AuthError`; `repr` is Python's. -/
def UserError.message (repr : String → String) : UserError → Option String
  | alreadySetUp => some "An account already exists; use setup only once"
  | unknownRole role => some ("Unknown role: " ++ repr role)
  | invalidUsername username => some ("Invalid username: " ++ repr username)
  | userExists username => some ("User " ++ repr username ++ " already exists")
  | noSuchUser username => some ("No such user: " ++ repr username)
  | lastAdmin => some "Cannot delete the last remaining admin account"
  | hashing => none

/-- `_USERNAME_PATTERN.fullmatch`. -/
def validUsername (username : String) : Bool :=
  let chars := username.toList
  1 ≤ chars.length && chars.length ≤ 64 &&
    chars.all fun c => c.isAlpha || c.isDigit || c = '_' || c = '.' || c = '-'

structure UserEntry where
  passwordHash : String
  role : Role
  deriving DecidableEq, Repr

inductive UserFile where
  | absent
  | single (passwordHash : String)
  | users (users : Dict String UserEntry)

namespace UserFile

/-- `_load_users`, what it returns. -/
def loadUsers : UserFile → Dict String UserEntry
  | absent => .empty
  | single passwordHash => Dict.empty.set "admin" ⟨passwordHash, .admin⟩
  | users d => d

/-- `_load_users`, what it leaves: the file of a single account is migrated. -/
def migrated : UserFile → UserFile
  | absent => absent
  | file => users file.loadUsers

def accounts (file : UserFile) : Accounts :=
  fun name => (file.loadUsers.get? name).map UserEntry.role

end UserFile

/-- `create_user`.  A password is given by what `_hash_password` makes of it, `none` if it
raises. -/
def createUser (username : String) (password : Option String) (role : String) (file : UserFile) :
    UserFile × Except UserError Unit :=
  match Role.parse? role with
  | none => (file, .error (.unknownRole role))
  | some r =>
      if validUsername username then
        match file.loadUsers.get? username, password with
        | some _, _ => (file.migrated, .error (.userExists username))
        | none, none => (file.migrated, .error .hashing)
        | none, some hash => (.users (file.loadUsers.set username ⟨hash, r⟩), .ok ())
      else (file, .error (.invalidUsername username))

/-- `create`: the account of the first login. -/
def create (password : Option String) (file : UserFile) : UserFile × Except UserError Unit :=
  if file.loadUsers.keys = [] then createUser "admin" password "admin" file.migrated
  else (file.migrated, .error .alreadySetUp)

def setRole (username role : String) (file : UserFile) : UserFile × Except UserError Unit :=
  match Role.parse? role with
  | none => (file, .error (.unknownRole role))
  | some r =>
      match file.loadUsers.get? username with
      | none => (file.migrated, .error (.noSuchUser username))
      | some entry => (.users (file.loadUsers.set username { entry with role := r }), .ok ())

def otherAdminsRemain (users : Dict String UserEntry) (username : String) : Bool :=
  users.entries.any fun p => p.1 ≠ username && p.2.role = .admin

def deleteUser (username : String) (file : UserFile) : UserFile × Except UserError Unit :=
  match file.loadUsers.get? username with
  | none => (file.migrated, .error (.noSuchUser username))
  | some entry =>
      if entry.role = .admin && !otherAdminsRemain file.loadUsers username then
        (file.migrated, .error .lastAdmin)
      else (.users (file.loadUsers.erase username), .ok ())

def changePassword (username : String) (password : Option String) (file : UserFile) :
    UserFile × Except UserError Unit :=
  match file.loadUsers.get? username, password with
  | none, _ => (file.migrated, .error (.noSuchUser username))
  | some _, none => (file.migrated, .error .hashing)
  | some entry, some hash =>
      (.users (file.loadUsers.set username { entry with passwordHash := hash }), .ok ())

inductive UserCall where
  | create (password : Option String)
  | createUser (username : String) (password : Option String) (role : String)
  | setRole (username role : String)
  | deleteUser (username : String)
  | changePassword (username : String) (password : Option String)

def UserFile.call (file : UserFile) : UserCall → UserFile × Except UserError Unit
  | .create password => Api.create password file
  | .createUser username password role => Api.createUser username password role file
  | .setRole username role => Api.setRole username role file
  | .deleteUser username => Api.deleteUser username file
  | .changePassword username password => Api.changePassword username password file

def UserCall.KeepsAdmin (a : Accounts) : UserCall → Prop
  | .setRole username role =>
      ∀ r, Role.parse? role = some r → a.OnlyAdmin username → r = .admin
  | _ => True

/-- The store; every call can be made, and ends in success or in an exception. -/
def userMachine : Machine UserFile UserCall := ⟨fun file c => some (file.call c).1⟩

/-! ## Each call is a change -/

section Calls

variable {file : UserFile} {username : String}

@[simp] theorem accounts_migrated (file : UserFile) : file.migrated.accounts = file.accounts := by
  cases file <;> rfl

theorem accounts_set (d : Dict String UserEntry) (username : String) (entry : UserEntry) :
    (UserFile.users (d.set username entry)).accounts =
      Function.update (UserFile.users d).accounts username (some entry.role) := by
  funext name
  simp only [UserFile.accounts, UserFile.loadUsers, Function.update_apply, Dict.get?_set]
  split <;> rfl

theorem accounts_erase (d : Dict String UserEntry) (username : String) :
    (UserFile.users (d.erase username)).accounts =
      Function.update (UserFile.users d).accounts username none := by
  funext name
  simp only [UserFile.accounts, UserFile.loadUsers, Function.update_apply, Dict.get?_erase]
  split <;> rfl

theorem accounts_loadUsers (file : UserFile) :
    (UserFile.users file.loadUsers).accounts = file.accounts := rfl

theorem accounts_of_get? {entry : UserEntry} (h : file.loadUsers.get? username = some entry) :
    file.accounts username = some entry.role := by
  rw [UserFile.accounts, h, Option.map_some]

theorem otherAdminsRemain_iff :
    otherAdminsRemain file.loadUsers username = true ↔
      ∃ other, other ≠ username ∧ file.accounts other = some .admin := by
  rw [otherAdminsRemain, List.any_eq_true]
  simp only [ne_eq, Bool.and_eq_true, decide_eq_true_eq, Prod.exists, UserFile.accounts,
    Option.map_eq_some_iff, Dict.get?_eq_some_iff]
  constructor
  · rintro ⟨other, entry, hmem, hne, hrole⟩
    exact ⟨other, by simpa using hne, entry, hmem, hrole⟩
  · rintro ⟨other, hne, entry, hmem, hrole⟩
    exact ⟨other, entry, hmem, by simpa using hne, hrole⟩

theorem changesTo_createUser (file : UserFile) (username : String) (password : Option String)
    (role : String) :
    file.accounts.ChangesTo (createUser username password role file).1.accounts True := by
  unfold createUser
  split
  · exact Accounts.changesTo_self trivial
  · next r _ =>
    split
    · split
      · rw [accounts_migrated]
        exact Accounts.changesTo_self trivial
      · rw [accounts_migrated]
        exact Accounts.changesTo_self trivial
      · next hash hnone =>
        refine ⟨.add username r, ?_, accounts_set _ _ _, Iff.rfl⟩
        rw [Change.Allowed, UserFile.accounts, hnone]
        rfl
    · exact Accounts.changesTo_self trivial

theorem changesTo_setRole (file : UserFile) (username role : String) :
    file.accounts.ChangesTo (setRole username role file).1.accounts
      ((UserCall.setRole username role).KeepsAdmin file.accounts) := by
  unfold setRole
  split
  · next hparse =>
    refine Accounts.changesTo_self ?_
    intro r hr
    rw [hparse] at hr
    cases hr
  · next r hparse =>
    split
    · next hnone =>
      rw [accounts_migrated]
      refine Accounts.changesTo_self ?_
      intro _ _ honly
      rw [Accounts.OnlyAdmin, UserFile.accounts, hnone] at honly
      cases honly.1
    · next entry hentry =>
      refine ⟨.assign username r, ?_, accounts_set _ _ _, ?_⟩
      · rw [Change.Allowed, accounts_of_get? hentry]
        exact Option.some_ne_none _
      · simp only [Change.Keeps, UserCall.KeepsAdmin, hparse, Option.some_inj, forall_eq']

theorem changesTo_deleteUser (file : UserFile) (username : String) :
    file.accounts.ChangesTo (deleteUser username file).1.accounts True := by
  unfold deleteUser
  split
  · rw [accounts_migrated]
    exact Accounts.changesTo_self trivial
  · next entry hentry =>
    split
    · rw [accounts_migrated]
      exact Accounts.changesTo_self trivial
    · next hrefused =>
      refine ⟨.remove username, ?_, accounts_erase _ _, Iff.rfl⟩
      rintro ⟨hadmin, honly⟩
      rw [accounts_of_get? hentry, Option.some_inj] at hadmin
      simp only [hadmin, decide_true, Bool.true_and, Bool.not_eq_true', Bool.not_eq_false,
        otherAdminsRemain_iff] at hrefused
      obtain ⟨other, hne, hother⟩ := hrefused
      exact hne (honly other hother)

theorem accounts_changePassword (file : UserFile) (username : String) (password : Option String) :
    (changePassword username password file).1.accounts = file.accounts := by
  unfold changePassword
  split
  · exact accounts_migrated file
  · exact accounts_migrated file
  · next entry hash hentry =>
    rw [accounts_set, accounts_loadUsers, ← accounts_of_get? hentry]
    exact Function.update_eq_self _ _

/-- **Each call is a change**, and only `set_role` can be one that takes the role from the last
administrator. -/
theorem changesTo_call (file : UserFile) (c : UserCall) :
    file.accounts.ChangesTo (file.call c).1.accounts (c.KeepsAdmin file.accounts) := by
  cases c with
  | create password =>
    show file.accounts.ChangesTo (Api.create password file).1.accounts True
    unfold Api.create
    split
    · have hmigrated := changesTo_createUser file.migrated "admin" password "admin"
      rwa [accounts_migrated] at hmigrated
    · rw [accounts_migrated]
      exact Accounts.changesTo_self trivial
  | createUser username password role => exact changesTo_createUser file username password role
  | setRole username role => exact changesTo_setRole file username role
  | deleteUser username => exact changesTo_deleteUser file username
  | changePassword username password =>
    show file.accounts.ChangesTo (Api.changePassword username password file).1.accounts True
    rw [accounts_changePassword]
    exact Accounts.changesTo_self trivial

end Calls

theorem hasAdmin_step_iff {file file' : UserFile} {c : UserCall} (h : file.accounts.HasAdmin)
    (hstep : userMachine.step file c = some file') :
    file'.accounts.HasAdmin ↔ c.KeepsAdmin file.accounts := by
  obtain rfl : (file.call c).1 = file' := Option.some.inj hstep
  exact Accounts.hasAdmin_iff_of_changesTo h (changesTo_call file c)

end XEdge.Api
