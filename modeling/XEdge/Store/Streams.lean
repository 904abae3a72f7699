import XEdge.Core.Alarms
import XEdge.Store.SqliteStore

/-!
# The streams of the cold store

A stream is a key, and a key has a file; what a caller sees of a stream is what
`peek` and `count` return for its key.
-/

namespace XEdge.Store

open Lib XEdge.Core

namespace SqliteColdStore

variable {α : Type*}

inductive Call (α : Type*) where
  | append (streamKey : String) (tag : α)
  | count (streamKey : String)
  | peek (streamKey : String) (maxItems : Nat)
  | deleteIds (streamKey : String) (ids : List Nat)
  | drain (streamKey : String) (maxItems : Nat)
  | purgeOlderThan (streamKey : String) (cutoffNs : Int)
  | reopen

def Call.streamKey : Call α → Option String
  | .append k _ | .count k | .peek k _ | .deleteIds k _ | .drain k _ | .purgeOlderThan k _ => some k
  | .reopen => none

section Calls

variable (isalnum : Char → Bool) (timestampNs : α → Int)

def Call.apply (c : SqliteColdStore α) : Call α → SqliteColdStore α
  | .append k tag => c.append isalnum k tag
  | .count k => (c.count isalnum k).1
  | .peek k n => (c.peek isalnum k n).1
  | .deleteIds k ids => c.deleteIds isalnum k ids
  | .drain k n => (c.drain isalnum k n).1
  | .purgeOlderThan k cutoff => (c.purgeOlderThan isalnum timestampNs k cutoff).1
  | .reopen => c.close

def run (calls : List (Call α)) : SqliteColdStore α :=
  calls.foldl (Call.apply isalnum timestampNs) new

/-- The calls are for keys of `K`. -/
def CallsFor (K : Set String) (calls : List (Call α)) : Prop :=
  ∀ call ∈ calls, ∀ k, call.streamKey = some k → k ∈ K

/-- The streams with the keys `K` do not show each other's samples, and none that
holds samples is left out of `stream_keys`. -/
structure Isolated (K : Set String) : Prop where
  frame : ∀ calls, CallsFor K calls → ∀ call : Call α, ∀ k ∈ K, call.streamKey = some k →
    ∀ j ∈ K, j ≠ k →
      let c := run isalnum timestampNs calls
      let c' := call.apply isalnum timestampNs c
      (∀ n, (c'.peek isalnum j n).2 = (c.peek isalnum j n).2) ∧
        (c'.count isalnum j).2 = (c.count isalnum j).2
  listed : ∀ calls : List (Call α), CallsFor K calls → ∀ k ∈ K,
    ((run isalnum timestampNs calls).count isalnum k).2 ≠ 0 →
      k ∈ (run isalnum timestampNs calls).streamKeys

variable {isalnum timestampNs}

variable {call : Call α}

theorem rowsAt_apply_of_ne (c : SqliteColdStore α) {f : String}
    (h : ∀ k, call.streamKey = some k → f ≠ fileName isalnum k) :
    (call.apply isalnum timestampNs c).rowsAt f = c.rowsAt f := by
  cases call with
  | append k tag =>
    rw [Call.apply, rowsAt_append, if_neg (h k rfl)]
  | count k => exact rowsAt_count isalnum c k f
  | peek k n => exact rowsAt_peek isalnum c k f n
  | deleteIds k ids =>
    rw [Call.apply, rowsAt_deleteIds, if_neg (h k rfl)]
  | drain k n => exact rowsAt_drain_of_ne isalnum c (h k rfl) n
  | purgeOlderThan k cutoff =>
    rw [Call.apply, rowsAt_purgeOlderThan, if_neg (h k rfl)]
  | reopen => rfl

/-! ## What the files remember -/

structure Described (isalnum : Char → Bool) (K : Set String) (c : SqliteColdStore α) : Prop where
  files : ∀ f db, c.files.get? f = some db →
    ∃ k ∈ K, db.streamKey = some k ∧ fileName isalnum k = f
  connections : ∀ k ∈ c.connections, ∃ db, c.files.get? (fileName isalnum k) = some db

variable {K : Set String} {c : SqliteColdStore α}

theorem described_new : Described isalnum K (new : SqliteColdStore α) where
  files _ _ h := by cases h
  connections _ h := by cases h

theorem mem_connections_connection (c : SqliteColdStore α) (k : String) :
    k ∈ (c.connection isalnum k).connections := by
  unfold connection
  split
  · next h => exact h
  · exact List.mem_append_right _ (List.mem_singleton_self k)

variable {k : String} {db : Db α}

theorem Described.setDb (h : Described isalnum K c) (hk : k ∈ K)
    (hdb : db.streamKey = some ((c.dbAt (fileName isalnum k)).streamKey.getD k)) :
    Described isalnum K (c.setDb (fileName isalnum k) db) where
  files f db' hget := by
    rcases Dict.get?_set_eq_some.1 hget with ⟨rfl, rfl⟩ | ⟨-, hget⟩
    · rw [hdb, dbAt]
      cases hold : c.files.get? (fileName isalnum k) with
      | none => exact ⟨k, hk, rfl, rfl⟩
      | some old =>
        obtain ⟨j, hj, hkey, hfile⟩ := h.files _ _ hold
        exact ⟨j, hj, by rw [Option.getD_some, hkey]; rfl, hfile⟩
    · exact h.files f db' hget
  connections j hj := by
    by_cases hsame : fileName isalnum j = fileName isalnum k
    · exact ⟨db, by rw [hsame]; exact Dict.get?_set_self _ _ _⟩
    · obtain ⟨old, hold⟩ := h.connections j hj
      exact ⟨old, by rw [SqliteColdStore.setDb, Dict.get?_set_of_ne _ _ hsame, hold]⟩

theorem Described.connection (h : Described isalnum K c) (hk : k ∈ K) :
    Described isalnum K (c.connection isalnum k) := by
  unfold SqliteColdStore.connection
  split
  · exact h
  · have hset := h.setDb hk (show ((c.dbAt (fileName isalnum k)).describe k).streamKey = _ from rfl)
    refine ⟨hset.files, fun j hj => ?_⟩
    rcases List.mem_append.1 hj with hj | hj
    · exact hset.connections j hj
    · rw [List.mem_singleton.1 hj]
      exact ⟨_, Dict.get?_set_self _ _ _⟩

theorem Described.update (h : Described isalnum K c) (hk : k ∈ K)
    (hdb : db.streamKey =
      ((c.connection isalnum k).dbAt (fileName isalnum k)).streamKey) :
    Described isalnum K ((c.connection isalnum k).setDb (fileName isalnum k) db) := by
  have hopen := h.connection hk
  obtain ⟨old, hold⟩ := hopen.connections k (mem_connections_connection c k)
  obtain ⟨j, -, hkey, -⟩ := hopen.files _ _ hold
  refine hopen.setDb hk ?_
  rw [hdb, dbAt, hold, Option.getD_some, hkey]
  rfl

theorem Described.deleteIds (h : Described isalnum K c) (hk : k ∈ K)
    (ids : List Nat) : Described isalnum K (c.deleteIds isalnum k ids) := by
  unfold SqliteColdStore.deleteIds
  split
  · exact h
  · exact h.update hk rfl

theorem Described.apply (h : Described isalnum K c) (hcall : ∀ k, call.streamKey = some k → k ∈ K) :
    Described isalnum K (call.apply isalnum timestampNs c) := by
  cases call with
  | append k tag => exact h.update (hcall k rfl) rfl
  | count k => exact h.connection (hcall k rfl)
  | peek k n => exact h.connection (hcall k rfl)
  | deleteIds k ids => exact h.deleteIds (hcall k rfl) ids
  | drain k n =>
    have hpeek : Described isalnum K (c.peek isalnum k n).1 := h.connection (hcall k rfl)
    simp only [Call.apply, SqliteColdStore.drain]
    split
    · exact hpeek
    · exact hpeek.deleteIds (hcall k rfl) _
  | purgeOlderThan k cutoff => exact h.update (hcall k rfl) rfl
  | reopen => exact ⟨h.files, fun k hk => by cases hk⟩

theorem described_run {calls : List (Call α)} (hcalls : CallsFor K calls) :
    Described isalnum K (run isalnum timestampNs calls) := by
  induction calls using List.reverseRecOn with
  | nil => exact described_new
  | append_singleton calls call ih =>
    have hfirst := ih fun a ha => hcalls a (List.mem_append_left _ ha)
    rw [run, List.foldl_append]
    exact hfirst.apply (hcalls call (List.mem_append_right _ (List.mem_singleton_self call)))

theorem Described.mem_streamKeys (h : Described isalnum K c) (hinj : Set.InjOn (fileName isalnum) K)
    (hk : k ∈ K) (hrows : (c.count isalnum k).2 ≠ 0) : k ∈ c.streamKeys := by
  rw [count_rows, rowsAt, dbAt] at hrows
  cases hget : c.files.get? (fileName isalnum k) with
  | none =>
    rw [hget] at hrows
    exact (hrows rfl).elim
  | some db =>
    obtain ⟨j, hj, hkey, hfile⟩ := h.files _ _ hget
    rw [hinj hj hk hfile] at hkey
    rw [streamKeys, (List.perm_insertionSort _ _).mem_iff, List.mem_dedup]
    refine List.mem_append_right _ (List.mem_filterMap.2 ⟨db, ?_, hkey⟩)
    exact (Dict.mem_values _).2 ⟨_, hget⟩

end Calls

/-- **When the streams of a store are isolated.**  `x` is a sample, so that there is
something to store. -/
theorem isolated_iff (isalnum : Char → Bool) (timestampNs : α → Int) (x : α) (K : Set String) :
    Isolated isalnum timestampNs K ↔ Set.InjOn (fileName isalnum) K := by
  constructor
  · intro h k hk j hj hsame
    by_contra hne
    -- a first sample of `k` is counted under `j`
    have hcount := (h.frame [] (by simp [CallsFor]) (.append k x) k hk rfl j hj (Ne.symm hne)).2
    rw [count_rows, count_rows, Call.apply, rowsAt_append, if_pos hsame.symm,
      List.length_append] at hcount
    simp at hcount
  · intro hinj
    refine ⟨fun calls _ call k hk hcall j hj hne => ?_, fun calls hcalls k hk =>
      (described_run hcalls).mem_streamKeys hinj hk⟩
    have hrows : (call.apply isalnum timestampNs (run isalnum timestampNs calls)).rowsAt
        (fileName isalnum j) = (run isalnum timestampNs calls).rowsAt (fileName isalnum j) := by
      refine rowsAt_apply_of_ne _ fun k' hk' => ?_
      rw [hcall] at hk'
      cases hk'
      exact fun hfile => hne (hinj hj hk hfile)
    simp only [peek_rows, count_rows, hrows, implies_true, and_self]

/-- A sample of the alarm stream of the driver `plc` is counted, and handed out, as one
of the driver `plc__alarm`; and after a restart `stream_keys` does not name a stream that
holds samples. -/
theorem alarm_stream_shares_file :
    let key := "plc" ++ ALARM_STREAM_KEY_SUFFIX
    let c := run Char.isAlphanum (fun n : Nat => (n : Int)) [.append key 7]
    let d := run Char.isAlphanum (fun n : Nat => (n : Int)) [.append key 7,
      .append "plc__alarm" 8, .reopen]
    key ≠ "plc__alarm" ∧
      (c.count Char.isAlphanum "plc__alarm").2 = 1 ∧
      (c.drain Char.isAlphanum "plc__alarm" 10).2 = [7] ∧
      (d.count Char.isAlphanum "plc__alarm").2 = 2 ∧ d.streamKeys = [key] := by
  decide +kernel

end SqliteColdStore

end XEdge.Store
