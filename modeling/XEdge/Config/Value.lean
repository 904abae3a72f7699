import XEdge.Lib.Dict
import XEdge.Lib.Except

/-!
# Configuration data

What a YAML or JSON document becomes in Python, the exceptions the configuration code
meets, and the two functions of `xedge/core/config.py` that work on whole documents:
layering (`deepMerge`) and secrets substitution (`SecretsResolver`).
-/

namespace XEdge.Config

open Lib

/-! ## Exceptions -/

inductive Fault where
  /-- `yaml.YAMLError`. -/
  | yaml
  /-- `json.JSONDecodeError`. -/
  | jsonDecode
  /-- `UnicodeDecodeError`. -/
  | unicodeDecode
  /-- `OSError`. -/
  | os
  | type
  | attribute
  | value
  | recursion
  deriving DecidableEq, Repr

/-- What the configuration code raises: its own exceptions, with their messages, and what
it lets through. -/
inductive Exn where
  /-- `ConfigValidationError`. -/
  | configValidation (message : String)
  /-- `SecretResolutionError`. -/
  | secretResolution (message : String)
  /-- `FileNotFoundError` of `load_version`. -/
  | fileNotFound (message : String)
  | fault (f : Fault)
  deriving DecidableEq, Repr

/-! ## Documents -/

inductive Key where
  | str (s : String)
  | num (x : ℚ)
  | null
  | other (text : String)
  deriving DecidableEq

inductive Value where
  | null
  | bool (b : Bool)
  | int (i : Int)
  | float (x : ℚ)
  | str (s : String)
  | list (values : List Value)
  | dict (entries : List (Key × Value))
  | bytes (octets : List Nat)
  | set (keys : List Key)
  /-- An entry of an ordered map, `!!omap` or `!!pairs`. -/
  | tuple (first second : Value)
  | other (text : String)

abbrev Entries := List (Key × Value)

def Key.toValue : Key → Value
  | .str s => .str s
  | .num x => .float x
  | .null => .null
  | .other t => .other t

namespace Value

/-- `bool(v)`. -/
def truthy : Value → Bool
  | null => false
  | bool b => b
  | int i => i ≠ 0
  | float x => x ≠ 0
  | str s => s ≠ ""
  | list vs => !vs.isEmpty
  | dict kvs => !kvs.isEmpty
  | bytes bs => !bs.isEmpty
  | set ks => !ks.isEmpty
  | tuple _ _ => true
  | other _ => true

/-- Whether `hash(v)` succeeds. -/
def hashable : Value → Bool
  | list _ | dict _ | set _ => false
  | tuple a b => a.hashable && b.hashable
  | _ => true

/-- `v.get(key, default)`: only dictionaries have a `get`. -/
def get (v : Value) (key : String) (default : Value) : Except Fault Value :=
  match v with
  | dict kvs => .ok ((lookup (Key.str key) kvs).getD default)
  | _ => .error .attribute

/-- What `for x in v` ranges over. -/
def iter : Value → Except Fault (List Value)
  | list vs => .ok vs
  | dict kvs => .ok (kvs.map fun p => p.1.toValue)
  | str s => .ok (s.toList.map fun c => .str (String.singleton c))
  | bytes bs => .ok (bs.map fun b => .int b)
  | set ks => .ok (ks.map Key.toValue)
  | tuple a b => .ok [a, b]
  | _ => .error .type

end Value

/-! ## Layering -/

mutual

/-- The loop of `deep_merge` over the items of the overlay. -/
def deepMerge (base : Entries) : Entries → Entries
  | [] => base
  | (key, v) :: rest => deepMerge (upsert key (mergeValue (lookup key base) v) base) rest

/-- What `deep_merge` binds to a key of the overlay. -/
def mergeValue (baseValue : Option Value) : Value → Value
  | .dict overlay =>
      match baseValue with
      | some (.dict base) => .dict (deepMerge base overlay)
      | _ => .dict overlay
  | v => v

end

/-! ## Secrets -/

/-- The backends of a `SecretsResolver`. -/
structure SecretsResolver where
  environ : String → Option String
  /-- The file of that name in `secrets_dir`, stripped, or what reading it raises. -/
  secretFile : String → Option (Except Fault String)

namespace SecretsResolver

def resolveOne (R : SecretsResolver) (name : String) : Except Exn String :=
  match R.environ name.toUpper with
  | some v => .ok v
  | none =>
      match R.secretFile name with
      | some (.ok v) => .ok v
      | some (.error f) => .error (.fault f)
      | none =>
          .error (.secretResolution ("Could not resolve $\x7bSECRET:" ++ name ++
            "\x7d (checked env var and secrets dir)"))

/-- A character that `_SECRET_PATTERN` allows in a name. -/
def isNameChar (c : Char) : Bool := c.isAlphanum || c ∈ ['_', '.', '-', '/']

/-- What `_SECRET_PATTERN` begins with. -/
def opening : List Char := "$\x7bSECRET:".toList

/-- A match of `_SECRET_PATTERN` at the beginning: the name, and what follows. -/
def matchHere (cs : List Char) : Option (String × List Char) :=
  if opening.isPrefixOf cs then
    let body := cs.drop opening.length
    let name := body.takeWhile isNameChar
    match name, body.dropWhile isNameChar with
    | _ :: _, '\x7d' :: rest => some (String.ofList name, rest)
    | _, _ => none
  else none

/-- `_SECRET_PATTERN.sub`, left to right; `fuel` bounds the length of the text. -/
def substitute (R : SecretsResolver) : Nat → List Char → Except Exn (List Char)
  | 0, cs => .ok cs
  | _ + 1, [] => .ok []
  | fuel + 1, c :: cs =>
      match matchHere (c :: cs) with
      | some (name, rest) => do
          let secret ← R.resolveOne name
          let tail ← substitute R fuel rest
          .ok (secret.toList ++ tail)
      | none => do
          let tail ← substitute R fuel cs
          .ok (c :: tail)

/-- `resolve` of a string: a reference that is the whole string, or references in it. -/
def resolveString (R : SecretsResolver) (s : String) : Except Exn String :=
  match matchHere s.toList with
  | some (name, []) => R.resolveOne name
  | _ => do
      let cs ← substitute R s.length s.toList
      .ok (String.ofList cs)

mutual

def resolve (R : SecretsResolver) : Value → Except Exn Value
  | .str s => do
      let t ← R.resolveString s
      .ok (.str t)
  | .dict kvs => do
      let kvs' ← resolveEntries R kvs
      .ok (.dict kvs')
  | .list vs => do
      let vs' ← resolveList R vs
      .ok (.list vs')
  | v => .ok v

/-- `resolve` of the values of a dictionary, in order. -/
def resolveEntries (R : SecretsResolver) : Entries → Except Exn Entries
  | [] => .ok []
  | (k, v) :: rest => do
      let v' ← resolve R v
      let rest' ← resolveEntries R rest
      .ok ((k, v') :: rest')

/-- `resolve` of the elements of a list, in order. -/
def resolveList (R : SecretsResolver) : List Value → Except Exn (List Value)
  | [] => .ok []
  | v :: rest => do
      let v' ← resolve R v
      let rest' ← resolveList R rest
      .ok (v' :: rest')

end

/-! ### When substitution succeeds -/

/-- The names that `substitute` looks up. -/
def namesIn : Nat → List Char → List String
  | 0, _ => []
  | _ + 1, [] => []
  | fuel + 1, c :: cs =>
      match matchHere (c :: cs) with
      | some (name, rest) => name :: namesIn fuel rest
      | none => namesIn fuel cs

/-- The names that `resolveString` looks up. -/
def stringReferences (s : String) : List String :=
  match matchHere s.toList with
  | some (name, []) => [name]
  | _ => namesIn s.length s.toList

mutual

def references : Value → List String
  | .str s => stringReferences s
  | .dict kvs => entriesReferences kvs
  | .list vs => listReferences vs
  | _ => []

def entriesReferences : Entries → List String
  | [] => []
  | (_, v) :: rest => references v ++ entriesReferences rest

def listReferences : List Value → List String
  | [] => []
  | v :: rest => references v ++ listReferences rest

end

def Knows (R : SecretsResolver) (name : String) : Prop := (R.resolveOne name).isOk = true

instance (R : SecretsResolver) (name : String) : Decidable (R.Knows name) :=
  inferInstanceAs (Decidable (_ = true))

theorem isOk_substitute (R : SecretsResolver) (fuel : Nat) (cs : List Char) :
    (R.substitute fuel cs).isOk = true ↔ ∀ name ∈ namesIn fuel cs, R.Knows name := by
  fun_induction substitute R fuel cs with
  | case1 cs => simp [namesIn, Except.isOk, Except.toBool]
  | case2 fuel => simp [namesIn, Except.isOk, Except.toBool]
  | case3 fuel c cs name rest hm ih =>
    rw [isOk_bind_bind, ih]
    simp [namesIn, hm, Knows]
  | case4 fuel c cs hm ih =>
    rw [isOk_bind_ok, ih]
    simp [namesIn, hm]

theorem isOk_resolveString (R : SecretsResolver) (s : String) :
    (R.resolveString s).isOk = true ↔ ∀ name ∈ stringReferences s, R.Knows name := by
  rw [resolveString, stringReferences]
  split
  · simp [Knows]
  · rw [isOk_bind_ok, isOk_substitute]

mutual

theorem isOk_resolve (R : SecretsResolver) : (v : Value) →
    ((R.resolve v).isOk = true ↔ ∀ name ∈ references v, R.Knows name)
  | .str s => by
      rw [resolve, references, isOk_bind_ok, isOk_resolveString]
  | .dict kvs => by
      rw [resolve, references, isOk_bind_ok, isOk_resolveEntries R kvs]
  | .list vs => by
      rw [resolve, references, isOk_bind_ok, isOk_resolveList R vs]
  | .null | .bool _ | .int _ | .float _ | .bytes _ | .set _ | .tuple _ _ | .other _ => by
      simp [resolve, references, Except.isOk, Except.toBool]

theorem isOk_resolveEntries (R : SecretsResolver) : (kvs : Entries) →
    ((R.resolveEntries kvs).isOk = true ↔ ∀ name ∈ entriesReferences kvs, R.Knows name)
  | [] => by simp [resolveEntries, entriesReferences, Except.isOk, Except.toBool]
  | (_, v) :: rest => by
      rw [resolveEntries, entriesReferences, isOk_bind_bind, isOk_resolve R v,
        isOk_resolveEntries R rest, List.forall_mem_append]

theorem isOk_resolveList (R : SecretsResolver) : (vs : List Value) →
    ((R.resolveList vs).isOk = true ↔ ∀ name ∈ listReferences vs, R.Knows name)
  | [] => by simp [resolveList, listReferences, Except.isOk, Except.toBool]
  | v :: rest => by
      rw [resolveList, listReferences, isOk_bind_bind, isOk_resolve R v,
        isOk_resolveList R rest, List.forall_mem_append]

end

/-! ### What substitution raises -/

variable {R : SecretsResolver} {e : Exn}

theorem substitute_error {fuel : Nat} {cs : List Char}
    (h : R.substitute fuel cs = .error e) : ∃ name, R.resolveOne name = .error e := by
  fun_induction substitute R fuel cs with
  | case1 cs => cases h
  | case2 fuel => cases h
  | case3 fuel c cs name rest hm ih =>
    rcases bind_eq_error.1 h with hname | ⟨_, _, h⟩
    · exact ⟨name, hname⟩
    · rcases bind_eq_error.1 h with htail | ⟨_, _, h⟩
      · exact ih htail
      · cases h
  | case4 fuel c cs hm ih =>
    rcases bind_eq_error.1 h with htail | ⟨_, _, h⟩
    · exact ih htail
    · cases h

theorem resolveString_error {s : String}
    (h : R.resolveString s = .error e) : ∃ name, R.resolveOne name = .error e := by
  rw [resolveString] at h
  split at h
  · exact ⟨_, h⟩
  · rcases bind_eq_error.1 h with h | ⟨_, _, h⟩
    · exact substitute_error h
    · cases h

mutual

variable {R : SecretsResolver} {e : Exn}

theorem resolve_error : {v : Value} →
    R.resolve v = .error e → ∃ name, R.resolveOne name = .error e
  | .str s, h => by
      rw [resolve] at h
      rcases bind_eq_error.1 h with h | ⟨_, _, h⟩
      · exact resolveString_error h
      · cases h
  | .dict kvs, h => by
      rw [resolve] at h
      rcases bind_eq_error.1 h with h | ⟨_, _, h⟩
      · exact resolveEntries_error h
      · cases h
  | .list vs, h => by
      rw [resolve] at h
      rcases bind_eq_error.1 h with h | ⟨_, _, h⟩
      · exact resolveList_error h
      · cases h
  | .null, h | .bool _, h | .int _, h | .float _, h | .bytes _, h | .set _, h | .tuple _ _, h
  | .other _, h => by
      simp [resolve] at h

theorem resolveEntries_error : {kvs : Entries} →
    R.resolveEntries kvs = .error e → ∃ name, R.resolveOne name = .error e
  | [], h => by cases h
  | (_, v) :: rest, h => by
      rw [resolveEntries] at h
      rcases bind_eq_error.1 h with h | ⟨_, _, h⟩
      · exact resolve_error h
      · rcases bind_eq_error.1 h with h | ⟨_, _, h⟩
        · exact resolveEntries_error h
        · cases h

theorem resolveList_error : {vs : List Value} →
    R.resolveList vs = .error e → ∃ name, R.resolveOne name = .error e
  | [], h => by cases h
  | v :: rest, h => by
      rw [resolveList] at h
      rcases bind_eq_error.1 h with h | ⟨_, _, h⟩
      · exact resolve_error h
      · rcases bind_eq_error.1 h with h | ⟨_, _, h⟩
        · exact resolveList_error h
        · cases h

end

theorem resolve_ne_configValidation (R : SecretsResolver) (v : Value) (message : String) :
    R.resolve v ≠ .error (.configValidation message) := by
  intro h
  obtain ⟨name, hname⟩ := resolve_error h
  rw [resolveOne] at hname
  split at hname
  · cases hname
  · split at hname <;> cases hname

end SecretsResolver

end XEdge.Config
