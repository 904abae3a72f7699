import XEdge.Core.BatchRead

/-!
# Polling over EtherNet/IP (`xedge/drivers/ethernet_ip/client.py`)

A cycle reads all tags of a group with one call.  A `CommError` means that the connection is dead
and leaves the loop; any other `PycommError` makes every tag of the group bad, and a result without
a value makes its tag bad.  The value of a bad update is the integer 0, whatever the type of the tag
in the controller.
-/

namespace XEdge.EthernetIp

open XEdge.Core

inductive CipValue where
  | bool (b : Bool)
  | int (i : Int)
  | float (x : ℚ)
  | str (s : String)
  | bytes (b : List UInt8)
  /-- A structure or an array, by the text that `str` makes of it. -/
  | other (text : String)
  deriving DecidableEq

def coerceValue : CipValue → TagValue
  | .bool b => .bool b
  | .int i => .int i
  | .float x => .float x
  | .str s => .str s
  | .bytes b => .bytes b
  | .other text => .str text

/-- `Tag` of the library, as far as it is read. -/
structure PycommTag where
  value : Option CipValue
  error : Option String
  deriving DecidableEq

/-- The value of a result that counts as true: there is one, and no error. -/
def PycommTag.content (result : PycommTag) : Option CipValue :=
  match result.error with
  | none => result.value
  | some _ => none

inductive Access where
  | readWrite
  | readOnly
  | writeOnly
  deriving DecidableEq, Repr

/-- A tag of the driver: beside what the pipeline reads, where its values come from. -/
structure Tag extends TagDef where
  tagName : String
  access : Option Access
  deriving DecidableEq

def Tag.Polled (tag : Tag) : Prop := tag.access.getD .readWrite ≠ .writeOnly

instance (tag : Tag) : Decidable tag.Polled := inferInstanceAs (Decidable (_ ≠ _))

/-- The tags of a group that `_poll_group` reads. -/
def polledTags (tags : List Tag) : List Tag := tags.filter fun tag => tag.Polled

variable {tag : Tag}

theorem polled_of_mem {tags : List Tag} (h : tag ∈ polledTags tags) : tag.Polled :=
  of_decide_eq_true (List.mem_filter.1 h).2

theorem polledTags_singleton (h : tag.Polled) : polledTags [tag] = [tag] :=
  List.filter_cons_of_pos (decide_eq_true h)

/-- How `LogixDriver.read` ends.  For one tag it returns the result itself, which the driver puts in
a list. -/
inductive ReadResult where
  | commError
  /-- Any other `PycommError`. -/
  | pycommError (error : String)
  | answered (results : List PycommTag)
  deriving DecidableEq

def ReadResult.valueAt (place : Nat) : ReadResult → Option CipValue
  | .answered results => results[place]?.bind PycommTag.content
  | .commError | .pycommError _ => none

def ReadResult.Fits (count : Nat) : ReadResult → Prop
  | .commError => False
  | .pycommError _ => True
  | .answered results => results.length = count

instance (count : Nat) : (result : ReadResult) → Decidable (result.Fits count)
  | .commError => isFalse not_false
  | .pycommError _ => isTrue trivial
  | .answered results => inferInstanceAs (Decidable (results.length = count))

section Reads

variable (instanceId : String)

def badUpdate (now : Int) (tag : Tag) : TagUpdate :=
  ⟨qualifiedId instanceId tag.id, .int 0, .bad, now, none, instanceId, tag.tagName⟩

def goodUpdate (now : Int) (tag : Tag) (v : CipValue) : TagUpdate :=
  ⟨qualifiedId instanceId tag.id, coerceValue v, .good, now, none, instanceId, tag.tagName⟩

def buildUpdate (now : Int) (m : DriverMetrics) (tag : Tag) (result : PycommTag) :
    TagUpdate × DriverMetrics :=
  match result.content with
  | none => (badUpdate instanceId now tag, m.failed 1)
  | some v => (goodUpdate instanceId now tag v, m.read now)

/-- `_read_tags`, from the answer on; no updates mean that it raises. -/
def readTags (m : DriverMetrics) (tags : List Tag) (result : ReadResult) (now : Int) :
    Option (List TagUpdate) × DriverMetrics :=
  match result with
  | .commError => (none, m)
  | .pycommError _ => (some (tags.map (badUpdate instanceId now)), m.failed tags.length)
  | .answered results => buildAll (buildUpdate instanceId now) tags results m

def updateOf (now : Int) (tag : Tag) : Option CipValue → TagUpdate
  | none => badUpdate instanceId now tag
  | some v => goodUpdate instanceId now tag v

def answers (tags : List Tag) (result : ReadResult) (now : Int) : List TagUpdate :=
  tags.mapIdx fun i tag => updateOf instanceId now tag (result.valueAt i)

theorem readTags_eq (m : DriverMetrics) (tags : List Tag) (result : ReadResult) (now : Int) :
    (readTags instanceId m tags result now).1 =
      if result.Fits tags.length then some (answers instanceId tags result now) else none := by
  cases result with
  | commError => rfl
  | pycommError error =>
    have hanswers : answers instanceId tags (.pycommError error) now =
        tags.map (badUpdate instanceId now) := mapIdx_const (badUpdate instanceId now) tags
    exact (congrArg some hanswers.symm).trans (if_pos trivial).symm
  | answered results =>
    refine buildAll_eq (updateOf instanceId now) (fun m tag result => ?_) tags results m
    rw [buildUpdate]
    cases result.content with
    | none | some => rfl

def Emits (tag : Tag) (update : TagUpdate) : Prop :=
  ∃ (m : DriverMetrics) (tags : List Tag) (result : ReadResult) (now : Int)
    (updates : List TagUpdate),
    (readTags instanceId m (polledTags tags) result now).1 = some updates ∧
    (tag, update) ∈ (polledTags tags).zip updates

variable {instanceId}

theorem emits_iff {tag : Tag} {update : TagUpdate} :
    Emits instanceId tag update ↔
      tag.Polled ∧ ∃ now value, update = updateOf instanceId now tag value := by
  constructor
  · rintro ⟨m, tags, result, now, updates, hread, hmem⟩
    rw [readTags_eq] at hread
    split at hread
    · cases hread
      obtain ⟨htag, i, hupdate⟩ := exists_of_mem_zip_mapIdx hmem
      exact ⟨polled_of_mem htag, now, _, hupdate⟩
    · cases hread
  · rintro ⟨hpolled, now, value, rfl⟩
    refine ⟨.new, [tag], .answered [⟨value, none⟩], now, [updateOf instanceId now tag value], ?_,
      ?_⟩
    · rw [polledTags_singleton hpolled, readTags_eq]
      exact if_pos rfl
    · rw [polledTags_singleton hpolled]
      exact List.mem_singleton_self _

end Reads

end XEdge.EthernetIp
