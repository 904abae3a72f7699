import XEdge.Lib.Dict

/-!
# The SQLite cold tier (`xedge/store/sqlite_store.py`)

Samples that overflow the RAM tier are kept in one database file per stream key.
The file name is a lossy image of the key (`safeFilename`), so two keys may share
a file; the `meta` table of a file remembers the key it was first opened under.

Samples have an arbitrary type `α` with a timestamp in nanoseconds.  `isalnum` is
Python's `str.isalnum`; nothing depends on which characters it accepts.
-/

namespace XEdge.Store

open Lib

/-! ## One database -/

/-- A row of the `samples` table. -/
structure Row (α : Type*) where
  id : Nat
  tag : α
  deriving DecidableEq, Repr

structure Db (α : Type*) where
  /-- The `stream_key` row of the `meta` table. -/
  streamKey : Option String
  /-- The `samples` table, by ascending `id`. -/
  rows : List (Row α)
  /-- The largest `id` ever given out (`AUTOINCREMENT`). -/
  lastId : Nat
  sorted : rows.Pairwise fun r r' => r.id < r'.id
  bounded : ∀ r ∈ rows, r.id ≤ lastId
  deriving DecidableEq

namespace Db

variable {α : Type*}

def new : Db α := ⟨none, [], 0, List.Pairwise.nil, by simp⟩

/-- `INSERT OR IGNORE INTO meta`: the key of the first opening stays. -/
def describe (db : Db α) (key : String) : Db α :=
  { db with streamKey := some (db.streamKey.getD key) }

/-- `INSERT INTO samples`. -/
def insert (db : Db α) (tag : α) : Db α where
  streamKey := db.streamKey
  rows := db.rows ++ [⟨db.lastId + 1, tag⟩]
  lastId := db.lastId + 1
  sorted := by
    rw [List.pairwise_append]
    refine ⟨db.sorted, List.pairwise_singleton _ _, ?_⟩
    intro r hr r' hr'
    rw [List.mem_singleton.1 hr']
    exact Nat.lt_succ_of_le (db.bounded r hr)
  bounded := by
    intro r hr
    rcases List.mem_append.1 hr with h | h
    · exact Nat.le_succ_of_le (db.bounded r h)
    · rw [List.mem_singleton.1 h]

/-- `DELETE FROM samples WHERE` the row fails `keep`. -/
def restrict (db : Db α) (keep : Row α → Bool) : Db α where
  streamKey := db.streamKey
  rows := db.rows.filter keep
  lastId := db.lastId
  sorted := db.sorted.sublist List.filter_sublist
  bounded := fun r hr => db.bounded r (List.mem_of_mem_filter hr)

end Db

/-! ## The store -/

def safeFilename (isalnum : Char → Bool) (streamKey : String) : String :=
  String.ofList (streamKey.toList.map fun c =>
    if isalnum c || c ∈ ['-', '_', '.'] then c else '_')

def fileName (isalnum : Char → Bool) (streamKey : String) : String :=
  safeFilename isalnum streamKey ++ ".db"

/-- `SqliteColdStore`: the directory, and the keys with an open connection. -/
structure SqliteColdStore (α : Type*) where
  /-- The directory: file name to database. -/
  files : Dict String (Db α)
  /-- The keys of `_connections`. -/
  connections : List String
  deriving DecidableEq

namespace SqliteColdStore

variable {α : Type*} (isalnum : Char → Bool)

def new : SqliteColdStore α := ⟨Dict.empty, []⟩

def dbAt (c : SqliteColdStore α) (file : String) : Db α := (c.files.get? file).getD Db.new

def rowsAt (c : SqliteColdStore α) (file : String) : List (Row α) := (c.dbAt file).rows

def lastIdAt (c : SqliteColdStore α) (file : String) : Nat := (c.dbAt file).lastId

def Holds (c : SqliteColdStore α) (x : α) : Prop := ∃ file, ∃ r ∈ c.rowsAt file, r.tag = x

def setDb (c : SqliteColdStore α) (file : String) (db : Db α) : SqliteColdStore α :=
  { c with files := c.files.set file db }

/-- `_connection`: open, and create, the database of a stream. -/
def connection (c : SqliteColdStore α) (streamKey : String) : SqliteColdStore α :=
  if streamKey ∈ c.connections then c
  else
    { c.setDb (fileName isalnum streamKey)
        ((c.dbAt (fileName isalnum streamKey)).describe streamKey) with
      connections := c.connections ++ [streamKey] }

/-- `stream_keys`: every key with a connection or recorded in a file, sorted. -/
def streamKeys (c : SqliteColdStore α) : List String :=
  (c.connections ++ c.files.values.filterMap Db.streamKey).dedup.insertionSort (· ≤ ·)

def append (c : SqliteColdStore α) (streamKey : String) (tag : α) : SqliteColdStore α :=
  let c := c.connection isalnum streamKey
  c.setDb (fileName isalnum streamKey) ((c.dbAt (fileName isalnum streamKey)).insert tag)

/-- `peek`: the oldest rows, which stay in the store. -/
def peek (c : SqliteColdStore α) (streamKey : String) (maxItems : Nat) :
    SqliteColdStore α × List (Row α) :=
  let c := c.connection isalnum streamKey
  (c, (c.rowsAt (fileName isalnum streamKey)).take maxItems)

def deleteIds (c : SqliteColdStore α) (streamKey : String) (ids : List Nat) :
    SqliteColdStore α :=
  if ids = [] then c
  else
    let c := c.connection isalnum streamKey
    c.setDb (fileName isalnum streamKey)
      ((c.dbAt (fileName isalnum streamKey)).restrict fun r => r.id ∉ ids)

/-- `purge_older_than`: delete what is older than the cutoff; the deleted rows are
returned where the source returns their number. -/
def purgeOlderThan (timestampNs : α → Int) (c : SqliteColdStore α) (streamKey : String)
    (cutoffNs : Int) : SqliteColdStore α × List (Row α) :=
  let c := c.connection isalnum streamKey
  (c.setDb (fileName isalnum streamKey)
      ((c.dbAt (fileName isalnum streamKey)).restrict fun r => cutoffNs ≤ timestampNs r.tag),
    (c.rowsAt (fileName isalnum streamKey)).filter fun r => timestampNs r.tag < cutoffNs)

def count (c : SqliteColdStore α) (streamKey : String) : SqliteColdStore α × Nat :=
  let c := c.connection isalnum streamKey
  (c, (c.rowsAt (fileName isalnum streamKey)).length)

/-- `drain`: read the oldest rows and delete them. -/
def drain (c : SqliteColdStore α) (streamKey : String) (maxItems : Nat) :
    SqliteColdStore α × List α :=
  let r := c.peek isalnum streamKey maxItems
  if r.2 = [] then (r.1, [])
  else (r.1.deleteIds isalnum streamKey (r.2.map Row.id), r.2.map Row.tag)

/-- `close`, or the end of the process. -/
def close (c : SqliteColdStore α) : SqliteColdStore α := { c with connections := [] }

/-! ### What each operation does to the files -/
variable (c : SqliteColdStore α)


theorem dbAt_setDb (f g : String) (db : Db α) :
    (c.setDb f db).dbAt g = if g = f then db else c.dbAt g := by
  unfold dbAt setDb
  rw [Dict.get?_set]
  split <;> rfl

@[simp] theorem rowsAt_new (f : String) : (new : SqliteColdStore α).rowsAt f = [] := rfl

theorem rowsAt_sorted (f : String) :
    (c.rowsAt f).Pairwise fun r r' => r.id < r'.id := (c.dbAt f).sorted

theorem rowsAt_bounded (f : String) :
    ∀ r ∈ c.rowsAt f, r.id ≤ c.lastIdAt f := (c.dbAt f).bounded

@[simp] theorem rowsAt_connection (k f : String) :
    (c.connection isalnum k).rowsAt f = c.rowsAt f := by
  unfold connection
  split
  · rfl
  · show ((c.setDb _ _).dbAt f).rows = (c.dbAt f).rows
    rw [dbAt_setDb]
    split
    · next h => rw [h]; rfl
    · rfl

@[simp] theorem lastIdAt_connection (k f : String) :
    (c.connection isalnum k).lastIdAt f = c.lastIdAt f := by
  unfold connection
  split
  · rfl
  · show ((c.setDb _ _).dbAt f).lastId = (c.dbAt f).lastId
    rw [dbAt_setDb]
    split
    · next h => rw [h]; rfl
    · rfl

theorem rowsAt_append (k f : String) (x : α) :
    (c.append isalnum k x).rowsAt f =
      if f = fileName isalnum k then c.rowsAt f ++ [⟨c.lastIdAt f + 1, x⟩] else c.rowsAt f := by
  show ((setDb _ _ _).dbAt f).rows = _
  rw [dbAt_setDb]
  split
  · next h =>
    rw [h, ← rowsAt_connection isalnum c k, ← lastIdAt_connection isalnum c k]
    rfl
  · exact rowsAt_connection isalnum c k f

theorem lastIdAt_append (k f : String) (x : α) :
    (c.append isalnum k x).lastIdAt f =
      if f = fileName isalnum k then c.lastIdAt f + 1 else c.lastIdAt f := by
  show ((setDb _ _ _).dbAt f).lastId = _
  rw [dbAt_setDb]
  split
  · next h =>
    rw [h, ← lastIdAt_connection isalnum c k]
    rfl
  · exact lastIdAt_connection isalnum c k f

theorem lastIdAt_append_le (k f : String) (x : α) :
    c.lastIdAt f ≤ (c.append isalnum k x).lastIdAt f := by
  rw [lastIdAt_append]
  split <;> omega

@[simp] theorem rowsAt_peek (k f : String) (n : Nat) :
    (c.peek isalnum k n).1.rowsAt f = c.rowsAt f :=
  rowsAt_connection isalnum c k f

@[simp] theorem lastIdAt_peek (k f : String) (n : Nat) :
    (c.peek isalnum k n).1.lastIdAt f = c.lastIdAt f :=
  lastIdAt_connection isalnum c k f

theorem peek_rows (k : String) (n : Nat) :
    (c.peek isalnum k n).2 = (c.rowsAt (fileName isalnum k)).take n := by
  show List.take n (rowsAt (connection isalnum c k) _) = _
  rw [rowsAt_connection]

theorem rowsAt_deleteIds (k f : String) (ids : List Nat) :
    (c.deleteIds isalnum k ids).rowsAt f =
      if f = fileName isalnum k then (c.rowsAt f).filter fun r => r.id ∉ ids else c.rowsAt f := by
  unfold deleteIds
  split
  · next h => simp [h]
  · show ((setDb _ _ _).dbAt f).rows = _
    rw [dbAt_setDb]
    split
    · next h =>
      rw [h, ← rowsAt_connection isalnum c k]
      rfl
    · exact rowsAt_connection isalnum c k f

@[simp] theorem lastIdAt_deleteIds (k f : String) (ids : List Nat) :
    (c.deleteIds isalnum k ids).lastIdAt f = c.lastIdAt f := by
  unfold deleteIds
  split
  · rfl
  · show ((setDb _ _ _).dbAt f).lastId = _
    rw [dbAt_setDb, ← lastIdAt_connection isalnum c k f]
    split
    · next h =>
      rw [h]
      rfl
    · rfl

theorem rowsAt_deleteIds_sublist (k f : String) (ids : List Nat) :
    ((c.deleteIds isalnum k ids).rowsAt f).Sublist (c.rowsAt f) := by
  rw [rowsAt_deleteIds]
  split
  · exact List.filter_sublist
  · exact List.Sublist.refl _

theorem count_rows (k : String) :
    (c.count isalnum k).2 = (c.rowsAt (fileName isalnum k)).length := by
  show List.length (rowsAt (connection isalnum c k) _) = _
  rw [rowsAt_connection]

@[simp] theorem rowsAt_count (k f : String) :
    (c.count isalnum k).1.rowsAt f = c.rowsAt f :=
  rowsAt_connection isalnum c k f

theorem rowsAt_drain_of_ne {k f : String} (h : f ≠ fileName isalnum k)
    (n : Nat) : (c.drain isalnum k n).1.rowsAt f = c.rowsAt f := by
  unfold drain
  simp only
  split
  · exact rowsAt_peek isalnum c k f n
  · rw [rowsAt_deleteIds, if_neg h, rowsAt_peek]

theorem filter_notMem_take {l : List (Row α)} (hl : l.Pairwise fun r r' => r.id < r'.id)
    (n : Nat) : (l.filter fun r => r.id ∉ (l.take n).map Row.id) = l.drop n := by
  have hsorted := hl
  rw [← List.take_append_drop n l, List.pairwise_append] at hsorted
  have htaken : (l.take n).filter (fun r => r.id ∉ (l.take n).map Row.id) = [] := by
    refine List.filter_eq_nil_iff.2 fun r hr => ?_
    have hid : r.id ∈ (l.take n).map Row.id := List.mem_map.2 ⟨r, hr, rfl⟩
    simp only [hid, not_true, decide_false, Bool.false_eq_true, not_false_eq_true]
  have hleft : (l.drop n).filter (fun r => r.id ∉ (l.take n).map Row.id) = l.drop n := by
    refine List.filter_eq_self.2 fun r hr => ?_
    have hid : r.id ∉ (l.take n).map Row.id := by
      intro hid
      obtain ⟨q, hq, hqid⟩ := List.mem_map.1 hid
      exact absurd (hsorted.2.2 q hq r hr) (by omega)
    simp only [hid, not_false_eq_true, decide_true]
  calc l.filter (fun r => r.id ∉ (l.take n).map Row.id)
      = (l.take n ++ l.drop n).filter (fun r => r.id ∉ (l.take n).map Row.id) := by
        rw [List.take_append_drop]
    _ = l.drop n := by rw [List.filter_append, htaken, hleft, List.nil_append]

theorem rowsAt_purgeOlderThan (timestampNs : α → Int) (c : SqliteColdStore α) (k f : String)
    (cutoff : Int) :
    (c.purgeOlderThan isalnum timestampNs k cutoff).1.rowsAt f =
      if f = fileName isalnum k then (c.rowsAt f).filter fun r => cutoff ≤ timestampNs r.tag
      else c.rowsAt f := by
  show ((setDb _ _ _).dbAt f).rows = _
  rw [dbAt_setDb]
  split
  · next h =>
    rw [h, ← rowsAt_connection isalnum c k]
    rfl
  · exact rowsAt_connection isalnum c k f

theorem rowsAt_purgeOlderThan_sublist (timestampNs : α → Int) (c : SqliteColdStore α)
    (k f : String) (cutoff : Int) :
    ((c.purgeOlderThan isalnum timestampNs k cutoff).1.rowsAt f).Sublist (c.rowsAt f) := by
  rw [rowsAt_purgeOlderThan]
  split
  · exact List.filter_sublist
  · exact List.Sublist.refl _

theorem lastIdAt_purgeOlderThan (timestampNs : α → Int) (c : SqliteColdStore α) (k f : String)
    (cutoff : Int) :
    (c.purgeOlderThan isalnum timestampNs k cutoff).1.lastIdAt f = c.lastIdAt f := by
  show ((setDb _ _ _).dbAt f).lastId = _
  rw [dbAt_setDb, ← lastIdAt_connection isalnum c k f]
  split
  · next h =>
    rw [h]
    rfl
  · rfl

theorem purgeOlderThan_rows (timestampNs : α → Int) (c : SqliteColdStore α) (k : String)
    (cutoff : Int) :
    (c.purgeOlderThan isalnum timestampNs k cutoff).2 =
      (c.rowsAt (fileName isalnum k)).filter fun r => timestampNs r.tag < cutoff := by
  show List.filter _ (rowsAt (connection isalnum c k) _) = _
  rw [rowsAt_connection]

end SqliteColdStore

end XEdge.Store
