import XEdge.Core.BatchRead
import XEdge.Core.Connectivity

/-!
# Polling over SNMP (`xedge/drivers/snmp/client.py`, `asn1types.py`)

A cycle sends one request for the tags of a group that are read with GET and one for those that are
read with GETNEXT (or GETBULK).  A request can fail as a whole, by an exception, by an error
indication or by an error status, and then every tag of it gets a bad update; or one varbind of the
answer is an exception value, and that tag gets one.  The value of a bad update is the integer 0,
whatever the device has under that OID.
-/

namespace XEdge.Snmp

open XEdge.Core

/-- `_NUMERIC_TYPES`. -/
inductive NumericType where
  | integer32
  | counter32
  | counter64
  | gauge32
  | timeTicks
  | unsigned32
  deriving DecidableEq, Repr

inductive Asn1Value where
  | numeric (type : NumericType) (value : Int)
  /-- Any other type, by its name and what `prettyPrint()` makes of the value. -/
  | other (typeName : String) (prettyPrint : String)
  deriving DecidableEq

/-- `_EXCEPTION_VALUE_TYPES`. -/
inductive ExceptionType where
  | noSuchObject
  | noSuchInstance
  | endOfMibView
  deriving DecidableEq, Repr

inductive VarBind where
  | value (v : Asn1Value)
  | exception (type : ExceptionType)
  deriving DecidableEq

/-- The value, unless it is one of `_EXCEPTION_VALUE_TYPES`. -/
def VarBind.content : VarBind → Option Asn1Value
  | .value v => some v
  | .exception _ => none

def decode : Asn1Value → TagValue
  | .numeric _ value => .int value
  | .other _ prettyPrint => .str prettyPrint

inductive Operation where
  | get
  | getNext
  deriving DecidableEq, Repr

inductive Access where
  | readWrite
  | readOnly
  | writeOnly
  deriving DecidableEq, Repr

/-- A tag of the driver: beside what the pipeline reads, where its values come from. -/
structure Tag extends TagDef where
  oid : String
  operation : Option Operation
  access : Option Access
  deriving DecidableEq

def Tag.Polled (tag : Tag) : Prop := tag.access.getD .readWrite ≠ .writeOnly

instance (tag : Tag) : Decidable tag.Polled := inferInstanceAs (Decidable (_ ≠ _))

/-- The tags of a group that `_poll_group` reads. -/
def polledTags (tags : List Tag) : List Tag := tags.filter fun tag => tag.Polled

variable {tag : Tag}

theorem polled_of_mem {tags : List Tag} (h : tag ∈ polledTags tags) : tag.Polled :=
  of_decide_eq_true (List.mem_filter.1 h).2

theorem polledTags_singleton (h : tag.Polled) : polledTags [tag] = [tag] :=
  List.filter_cons_of_pos (decide_eq_true h)

inductive Response where
  /-- A `PySnmpError`. -/
  | raised (error : String)
  | errorIndication (error : String)
  | errorStatus (error : String)
  | varBinds (values : List VarBind)
  deriving DecidableEq

def Response.valueAt (place : Nat) : Response → Option Asn1Value
  | .varBinds values => values[place]?.bind VarBind.content
  | .raised _ | .errorIndication _ | .errorStatus _ => none

/-- An answer that `zip` accepts: one varbind for each tag. -/
def Response.Fits (count : Nat) : Response → Prop
  | .varBinds values => values.length = count
  | .raised _ | .errorIndication _ | .errorStatus _ => True

instance (count : Nat) : (response : Response) → Decidable (response.Fits count)
  | .varBinds values => inferInstanceAs (Decidable (values.length = count))
  | .raised _ | .errorIndication _ | .errorStatus _ => isTrue trivial

/-- `SnmpClientDriver`, as far as polling is concerned. -/
structure SnmpClientDriver where
  connectivity : ConnectivityTracker
  metrics : DriverMetrics

def badUpdate (instanceId : String) (now : Int) (tag : Tag) : TagUpdate :=
  ⟨qualifiedId instanceId tag.id, .int 0, .bad, now, none, instanceId, tag.oid⟩

def goodUpdate (instanceId : String) (now : Int) (tag : Tag) (v : Asn1Value) : TagUpdate :=
  ⟨qualifiedId instanceId tag.id, decode v, .good, now, none, instanceId, tag.oid⟩

def buildUpdate (instanceId : String) (now : Int) (m : DriverMetrics) (tag : Tag) :
    VarBind → TagUpdate × DriverMetrics
  | .exception _ => (badUpdate instanceId now tag, m.failed 1)
  | .value v => (goodUpdate instanceId now tag v, m.read now)

namespace SnmpClientDriver

variable (c : SnmpClientDriver) (instanceId : String)

def allBad (tags : List Tag) (error : String) (connectivityFailure : Bool) (now : Int) :
    List TagUpdate × SnmpClientDriver :=
  (tags.map (badUpdate instanceId now),
    { connectivity :=
        if connectivityFailure then c.connectivity.recordFailure now (some error)
        else c.connectivity
      metrics := c.metrics.failed tags.length })

/-- `_request`, from the answer on; no updates mean a `ValueError`. -/
def request (tags : List Tag) (response : Response) (now : Int) :
    Option (List TagUpdate) × SnmpClientDriver :=
  match response with
  | .raised error | .errorIndication error =>
      let (updates, c) := c.allBad instanceId tags error true now
      (some updates, c)
  | .errorStatus error =>
      -- the device answered
      let (updates, c) := c.allBad instanceId tags error false now
      (some updates, c)
  | .varBinds values =>
      let (updates, metrics) := buildAll (buildUpdate instanceId now) tags values c.metrics
      (updates, ⟨c.connectivity.recordSuccess now, metrics⟩)

def getTags (tags : List Tag) : List Tag :=
  tags.filter fun tag => tag.operation.getD .get ≠ .getNext

def nextTags (tags : List Tag) : List Tag := tags.filter fun tag => tag.operation = some .getNext
variable (tags : List Tag)


theorem getTags_subset : getTags tags ⊆ tags := List.filter_sublist.subset

theorem nextTags_subset : nextTags tags ⊆ tags := List.filter_sublist.subset

def requestAny (tags : List Tag) (response : Response) (now : Int) :
    Option (List TagUpdate) × SnmpClientDriver :=
  if tags = [] then (some [], c) else c.request instanceId tags response now

/-- `_read_tags`, with the two answers. -/
def readTags (tags : List Tag) (getResponse nextResponse : Response) (now : Int) :
    Option (List TagUpdate) × SnmpClientDriver :=
  match c.requestAny instanceId (getTags tags) getResponse now with
  | (none, c) => (none, c)
  | (some updates, c) =>
      let (more, c) := c.requestAny instanceId (nextTags tags) nextResponse now
      (more.map (updates ++ ·), c)

/-! ## What a request answers -/

def updateOf (now : Int) (tag : Tag) : Option Asn1Value → TagUpdate
  | none => badUpdate instanceId now tag
  | some v => goodUpdate instanceId now tag v

def answers (tags : List Tag) (response : Response) (now : Int) : List TagUpdate :=
  tags.mapIdx fun i tag => updateOf instanceId now tag (response.valueAt i)

variable {c instanceId}

theorem request_eq (response : Response) (now : Int) :
    (c.request instanceId tags response now).1 =
      if response.Fits tags.length then some (answers instanceId tags response now) else none := by
  cases response with
  | raised error | errorIndication error | errorStatus error =>
    have hanswers : answers instanceId tags (.raised error) now =
        tags.map (badUpdate instanceId now) := mapIdx_const (badUpdate instanceId now) tags
    exact (congrArg some hanswers.symm).trans (if_pos trivial).symm
  | varBinds values =>
    refine buildAll_eq (updateOf instanceId now) (fun m tag v => ?_) tags values c.metrics
    cases v with
    | value | exception => rfl

/-- The answer is not asked for, or `zip` accepts it. -/
def Accepted (tags : List Tag) (response : Response) : Prop :=
  tags = [] ∨ response.Fits tags.length

instance (tags : List Tag) (response : Response) : Decidable (Accepted tags response) :=
  inferInstanceAs (Decidable (_ ∨ _))

theorem requestAny_eq (response : Response) (now : Int) :
    (c.requestAny instanceId tags response now).1 =
      if Accepted tags response then some (answers instanceId tags response now) else none := by
  rw [requestAny]
  split
  · next hnil =>
    subst hnil
    exact (if_pos (Or.inl rfl)).symm
  · next hne =>
    have hfits : Accepted tags response ↔ response.Fits tags.length := by
      simp [Accepted, hne]
    rw [request_eq, if_congr hfits rfl rfl]

theorem readTags_eq (getResponse nextResponse : Response) (now : Int) :
    (c.readTags instanceId tags getResponse nextResponse now).1 =
      if Accepted (getTags tags) getResponse ∧ Accepted (nextTags tags) nextResponse then
        some (answers instanceId (getTags tags) getResponse now ++
          answers instanceId (nextTags tags) nextResponse now)
      else none := by
  have hfirst : (c.requestAny instanceId (getTags tags) getResponse now).1 = _ :=
    requestAny_eq (getTags tags) getResponse now
  rw [readTags]
  split
  · next c' hrequest =>
    rw [hrequest] at hfirst
    have hget : ¬ Accepted (getTags tags) getResponse := by
      intro haccepted
      rw [if_pos haccepted] at hfirst
      cases hfirst
    exact (if_neg fun h => hget h.1).symm
  · next updates c' hrequest =>
    rw [hrequest] at hfirst
    by_cases hget : Accepted (getTags tags) getResponse
    · rw [if_pos hget] at hfirst
      cases hfirst
      simp only [requestAny_eq, hget, true_and]
      split <;> rfl
    · rw [if_neg hget] at hfirst
      cases hfirst

end SnmpClientDriver

open SnmpClientDriver

def Emits (instanceId : String) (tag : Tag) (update : TagUpdate) : Prop :=
  ∃ (c : SnmpClientDriver) (tags : List Tag) (getResponse nextResponse : Response) (now : Int)
    (updates : List TagUpdate),
    (c.readTags instanceId (polledTags tags) getResponse nextResponse now).1 = some updates ∧
    (tag, update) ∈ (getTags (polledTags tags) ++ nextTags (polledTags tags)).zip updates

theorem requested_once (tag : Tag) : getTags [tag] = [tag] ∧ nextTags [tag] = [] ∨
    getTags [tag] = [] ∧ nextTags [tag] = [tag] := by
  by_cases h : tag.operation = some .getNext
  · exact .inr ⟨by simp [getTags, h], by simp [nextTags, h]⟩
  · refine .inl ⟨?_, by simp [nextTags, h]⟩
    cases hoperation : tag.operation with
    | none => simp [getTags, hoperation]
    | some operation =>
      cases operation with
      | get => simp [getTags, hoperation]
      | getNext => exact absurd hoperation h

theorem exists_response (value : Option Asn1Value) :
    ∃ response : Response, response.Fits 1 ∧ response.valueAt 0 = value := by
  cases value with
  | none => exact ⟨.raised "", trivial, rfl⟩
  | some v => exact ⟨.varBinds [.value v], rfl, rfl⟩

theorem emits_iff {instanceId : String} {update : TagUpdate} :
    Emits instanceId tag update ↔
      tag.Polled ∧ ∃ now value, update = updateOf instanceId now tag value := by
  constructor
  · rintro ⟨c, tags, getResponse, nextResponse, now, updates, hread, hmem⟩
    rw [readTags_eq] at hread
    split at hread
    · cases hread
      have hlength : (getTags (polledTags tags)).length =
          (answers instanceId (getTags (polledTags tags)) getResponse now).length :=
        List.length_mapIdx.symm
      rw [List.zip_append hlength, List.mem_append] at hmem
      -- the tag is in one of the two requests
      have hplace : ∀ {l : List Tag} {response : Response}, l ⊆ polledTags tags →
          (tag, update) ∈ l.zip (answers instanceId l response now) →
          tag.Polled ∧ ∃ now value, update = updateOf instanceId now tag value := by
        intro l response hsubset hzip
        obtain ⟨htag, i, hupdate⟩ := exists_of_mem_zip_mapIdx hzip
        exact ⟨polled_of_mem (hsubset htag), now, _, hupdate⟩
      obtain hget | hnext := hmem
      · exact hplace (getTags_subset _) hget
      · exact hplace (nextTags_subset _) hnext
    · cases hread
  · rintro ⟨hpolled, now, value, rfl⟩
    obtain ⟨response, hfits, hvalue⟩ := exists_response value
    refine ⟨⟨.default now, .new⟩, [tag], response, response, now,
      [updateOf instanceId now tag value], ?_, ?_⟩
    · rw [polledTags_singleton hpolled, readTags_eq]
      obtain ⟨hget, hnext⟩ | ⟨hget, hnext⟩ := requested_once tag
      · rw [hget, hnext, if_pos ⟨.inr hfits, .inl rfl⟩, ← hvalue]
        rfl
      · rw [hget, hnext, if_pos ⟨.inl rfl, .inr hfits⟩, ← hvalue]
        rfl
    · rw [polledTags_singleton hpolled]
      obtain ⟨hget, hnext⟩ | ⟨hget, hnext⟩ := requested_once tag
      · rw [hget, hnext]
        exact List.mem_singleton_self _
      · rw [hget, hnext]
        exact List.mem_singleton_self _

end XEdge.Snmp
