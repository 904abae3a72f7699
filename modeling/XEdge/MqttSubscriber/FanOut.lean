import XEdge.MqttSubscriber.Client

/-!
# Tags that share a topic (`MqttSubscriberDriver._find_mapping`)

A configuration may give several tags the same topic, or filters that overlap.  `configure`
keeps one mapping for each filter, and `_find_mapping` takes one of those that match, so a
message becomes one update at most.
-/

namespace XEdge.MqttSubscriber

open Lib XEdge.Core

/-! ## Topic filters -/

/-- The levels of a filter against those of a topic: `+` is any level, and a last `#` any
number of them. -/
def matchLevels : List (List Char) → List (List Char) → Bool
  | [['#']], _ => true
  | [], [] => true
  | f :: fs, t :: ts => (f = ['+'] || f = t) && matchLevels fs ts
  | _, _ => false

/-- A filter matches a topic.  One that begins with a wildcard matches no topic that begins
with `$`. -/
def topicMatches (filter topic : List Char) : Bool :=
  !(topic.head? = some '$' && (filter.head? = some '#' || filter.head? = some '+')) &&
    matchLevels (filter.splitOn '/') (topic.splitOn '/')

theorem matchLevels_self (levels : List (List Char)) : matchLevels levels levels = true := by
  induction levels with
  | nil => rfl
  | cons level levels ih =>
    unfold matchLevels
    split
    · rfl
    · rfl
    · next heq heq' =>
      cases heq
      cases heq'
      simp [ih]
    · next h => exact absurd rfl (h level levels level levels rfl)

theorem topicMatches_self (topic : List Char) : topicMatches topic topic = true := by
  rw [topicMatches, matchLevels_self, Bool.and_true, Bool.not_eq_true']
  cases topic with
  | nil => rfl
  | cons c cs =>
    by_cases hc : c = '$'
    · subst hc
      rfl
    · simp [hc]

/-- `topic_matches_sub` is the matching that MQTT prescribes. -/
def Externals.MatchesTopics (E : Externals) : Prop :=
  ∀ filter topic : String, E.topicMatchesSub filter topic = topicMatches filter.toList topic.toList

/-! ## What a message is for, and what it becomes -/

def matchingTags (groups : List MqttTagGroup) (topic : String) : List MqttTag :=
  (groups.flatMap MqttTagGroup.tags).filter fun tag =>
    topicMatches tag.topic.toList topic.toList

/-- The tags of the updates that `run` queues for a message.  `raises` is whether
`_decode_message` raises what it does not catch: an `OverflowError` of a number that no float
holds, a `RecursionError` of `json.loads`. -/
def queuedTags (E : Externals) (raises : TopicMapping → List UInt8 → Bool)
    (mappings : Dict String TopicMapping) (topic : String) (payload : List UInt8) :
    List String :=
  match findMapping E mappings topic with
  | none => []
  | some m => if raises m payload then [] else [m.tagId]

section Mappings

variable {E : Externals} {i : String} {groups : List MqttTagGroup} {topic : String}

variable {m : TopicMapping}

theorem topic_of_get? {k : String} (h : (configure i groups).get? k = some m) : m.topic = k := by
  rw [configure, Dict.get?_ofList] at h
  obtain ⟨tag, -, heq⟩ := List.mem_map.1 (List.mem_reverse.1 (mem_of_lookup h))
  obtain ⟨rfl, rfl⟩ := Prod.mk.inj heq
  rfl

variable {tag : MqttTag}

theorem exists_get?_of_tag (h : tag ∈ groups.flatMap MqttTagGroup.tags) :
    ∃ m, (configure i groups).get? tag.topic = some m := by
  refine Option.ne_none_iff_exists'.1 fun hnone => ?_
  rw [configure, Dict.get?_ofList, lookup_eq_none_iff, List.map_reverse, List.mem_reverse] at hnone
  exact hnone (List.mem_map.2 ⟨_, List.mem_map.2 ⟨tag, h, rfl⟩, rfl⟩)

theorem topicMatches_of_findMapping (hpaho : E.MatchesTopics)
    (h : findMapping E (configure i groups) topic = some m) :
    topicMatches m.topic.toList topic.toList = true := by
  unfold findMapping at h
  split at h
  · next exact hexact =>
    cases h
    rw [topic_of_get? hexact]
    exact topicMatches_self _
  · have hmatches : E.topicMatchesSub m.topic topic = true :=
      List.find?_some (p := fun m : TopicMapping => E.topicMatchesSub m.topic topic) h
    rwa [hpaho] at hmatches

theorem mem_matchingTags_of_findMapping (hpaho : E.MatchesTopics)
    (h : findMapping E (configure i groups) topic = some m) :
    ∃ tag ∈ matchingTags groups topic, m = tag.mapping i := by
  obtain ⟨tag, htag, rfl⟩ := exists_tag_of_findMapping h
  have hmatches := topicMatches_of_findMapping hpaho h
  exact ⟨tag, List.mem_filter.2 ⟨htag, hmatches⟩, rfl⟩

theorem exists_findMapping (hpaho : E.MatchesTopics) (h : tag ∈ matchingTags groups topic) :
    ∃ m, findMapping E (configure i groups) topic = some m := by
  obtain ⟨htag, hmatches⟩ := List.mem_filter.1 h
  obtain ⟨m, hm⟩ := exists_get?_of_tag (i := i) htag
  unfold findMapping
  split
  · next exact _ => exact ⟨exact, rfl⟩
  · refine Option.isSome_iff_exists.1 (List.find?_isSome.2 ⟨m, ?_, ?_⟩)
    · exact (Dict.mem_values _).2 ⟨_, hm⟩
    · rw [hpaho, topic_of_get? hm]
      exact hmatches

theorem length_queuedTags_le (raises : TopicMapping → List UInt8 → Bool)
    (mappings : Dict String TopicMapping) (payload : List UInt8) :
    (queuedTags E raises mappings topic payload).length ≤ 1 := by
  unfold queuedTags
  split
  · exact Nat.zero_le 1
  · split
    · exact Nat.zero_le 1
    · exact le_refl 1

theorem eq_singleton_of_mem {tags : List MqttTag} (hlength : tags.length ≤ 1)
    (h : tag ∈ tags) : tags = [tag] := by
  have hone : tags.length = 1 := le_antisymm hlength (List.length_pos_of_mem h)
  obtain ⟨only, rfl⟩ := List.length_eq_one_iff.1 hone
  rw [List.mem_singleton.1 h]

end Mappings

/-- **When every tag gets its update.**  One mapping is all that a message finds, so there may
be one matching tag at most. -/
theorem fanOut_iff (E : Externals) (hpaho : E.MatchesTopics)
    (raises : TopicMapping → List UInt8 → Bool) (i : String) (groups : List MqttTagGroup)
    (topic : String) (payload : List UInt8) :
    (queuedTags E raises (configure i groups) topic payload).Perm
        ((matchingTags groups topic).map fun tag => qualifiedId i tag.id) ↔
      (matchingTags groups topic).length ≤ 1 ∧
        ∀ tag ∈ matchingTags groups topic, raises (tag.mapping i) payload = false := by
  constructor
  · intro hperm
    have hlength : (matchingTags groups topic).length ≤ 1 := by
      rw [← List.length_map, ← hperm.length_eq]
      exact length_queuedTags_le raises _ payload
    refine ⟨hlength, fun tag htag => ?_⟩
    obtain ⟨m, hm⟩ := exists_findMapping (i := i) hpaho htag
    obtain ⟨tag', htag', rfl⟩ := mem_matchingTags_of_findMapping hpaho hm
    rw [eq_singleton_of_mem hlength htag', List.mem_singleton] at htag
    subst htag
    -- a decoding that raised would leave nothing queued
    by_contra hraises
    rw [queuedTags, hm] at hperm
    simp only [Bool.not_eq_false] at hraises
    simp only [hraises, if_true] at hperm
    have hnil := hperm.symm.eq_nil
    rw [List.map_eq_nil_iff] at hnil
    rw [hnil] at htag'
    exact absurd htag' List.not_mem_nil
  · rintro ⟨hlength, hraises⟩
    cases hfound : findMapping E (configure i groups) topic with
    | none =>
      have hnil : matchingTags groups topic = [] := by
        refine List.eq_nil_iff_forall_not_mem.2 fun tag htag => ?_
        obtain ⟨m, hm⟩ := exists_findMapping (i := i) hpaho htag
        rw [hfound] at hm
        cases hm
      rw [queuedTags, hfound, hnil]
      exact List.Perm.refl _
    | some m =>
      obtain ⟨tag, htag, rfl⟩ := mem_matchingTags_of_findMapping hpaho hfound
      rw [queuedTags, hfound, eq_singleton_of_mem hlength htag]
      simp only [hraises tag htag]
      exact List.Perm.refl _

def lineTag (id path : String) : MqttTag where
  id := id
  scaling := none
  engineeringUnit := none
  topic := "plant/line1"
  qos := none
  payloadFormat := some .json
  jsonPath := some path

def lineGroups : List MqttTagGroup := [⟨none, [lineTag "temp" "t", lineTag "pressure" "p"]⟩]

def mqttExternals : Externals :=
  { plainExternals with
    topicMatchesSub := fun filter topic => topicMatches filter.toList topic.toList }

def lineMessage : List UInt8 :=
  [123, 34, 116, 34, 58, 49, 44, 34, 112, 34, 58, 50, 125]

theorem fanOut_level :
    (queuedTags mqttExternals (fun _ _ => false) (configure "tank" (tank 2 0)) "tank/level"
      [49]).Perm ((matchingTags (tank 2 0) "tank/level").map fun tag =>
        qualifiedId "tank" tag.id) := by
  refine (fanOut_iff mqttExternals (fun _ _ => rfl) _ "tank" (tank 2 0) "tank/level" [49]).2 ?_
  exact ⟨by decide +kernel, fun _ _ => rfl⟩

/-- **The first of two tags gets nothing**: the message is for both, and only the pressure is
updated. -/
theorem shared_topic_starves_first :
    (matchingTags lineGroups "plant/line1").map (fun tag => qualifiedId "line" tag.id) =
      ["line/temp", "line/pressure"] ∧
    queuedTags mqttExternals (fun _ _ => false) (configure "line" lineGroups) "plant/line1"
      lineMessage = ["line/pressure"] ∧
    (receive mqttExternals "line" (configure "line" lineGroups) "plant/line1" lineMessage
      0).map (fun u => (u.tagId, u.value, u.quality)) =
        some ("line/pressure", .float 2, .good) := by
  exact ⟨by decide +kernel, by decide +kernel, by decide +kernel⟩

end XEdge.MqttSubscriber
