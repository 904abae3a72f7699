import XEdge.Northbound.Mqtt

/-!
# Qualified tag ids, and the ways back

A tag is known by the id of its driver, a slash, and its own id.  Three routes take
such an id apart again: the NCMD handler and the assets cut it at the first slash, and
`LatestValueStore.for_driver` looks for the driver's id and a slash at its front.  The
schemas only ask that ids are not empty, so an id may itself contain slashes.
-/

namespace XEdge.Northbound

open Lib XEdge.Core

/-! ## The latest values (`xedge/store/latest_values.py`) -/

structure LatestValueStore where
  values : Dict String UnifiedTag

namespace LatestValueStore

def new : LatestValueStore := ⟨.empty⟩

def update (s : LatestValueStore) (tag : UnifiedTag) : LatestValueStore :=
  ⟨s.values.set tag.tagId tag⟩

def get (s : LatestValueStore) (tagId : String) : Option UnifiedTag := s.values.get? tagId

def forDriver (s : LatestValueStore) (instanceId : String) : List UnifiedTag :=
  (s.values.entries.filter fun p => (instanceId ++ "/").toList.isPrefixOf p.1.toList).map Prod.snd

def ofUpdates (tags : List UnifiedTag) : LatestValueStore := tags.foldl update new

variable {tags : List UnifiedTag} {tag : UnifiedTag}

theorem tagId_of_get {k : String} (h : (ofUpdates tags).get k = some tag) : tag.tagId = k := by
  induction tags using List.reverseRecOn with
  | nil => cases h
  | append_singleton tags last ih =>
    rw [ofUpdates, List.foldl_append] at h
    rcases Dict.get?_set_eq_some.1 h with ⟨rfl, rfl⟩ | ⟨-, h⟩
    · rfl
    · exact ih h

theorem mem_forDriver {i : String} :
    tag ∈ (ofUpdates tags).forDriver i ↔
      (ofUpdates tags).get tag.tagId = some tag ∧ (i ++ "/").toList <+: tag.tagId.toList := by
  constructor
  · intro h
    obtain ⟨⟨k, tag'⟩, hp, rfl⟩ := List.mem_map.1 h
    obtain ⟨hentry, hfront⟩ := List.mem_filter.1 hp
    have hget : (ofUpdates tags).get k = some tag' := (Dict.get?_eq_some_iff _).2 hentry
    rw [tagId_of_get hget]
    exact ⟨hget, List.isPrefixOf_iff_prefix.1 hfront⟩
  · rintro ⟨hget, hfront⟩
    refine List.mem_map.2 ⟨(tag.tagId, tag), List.mem_filter.2 ⟨?_, ?_⟩, rfl⟩
    · exact (Dict.get?_eq_some_iff _).1 hget
    · exact List.isPrefixOf_iff_prefix.2 hfront

end LatestValueStore

/-! ## Configured tags -/

def configuredTags (drivers : List (String × List TagGroup)) : List (String × String) :=
  drivers.flatMap fun d => d.2.flatMap fun group => group.tags.map fun tag => (d.1, tag.id)

/-- What the schemas ask: ids are not empty, and a group has a tag. -/
structure SchemaValid (drivers : List (String × List TagGroup)) : Prop where
  driverIds : ∀ d ∈ drivers, d.1 ≠ ""
  groups : ∀ d ∈ drivers, ∀ group ∈ d.2, group.tags ≠ []
  tagIds : ∀ p ∈ configuredTags drivers, p.2 ≠ ""

structure TagIdentity (drivers : List (String × List TagGroup)) : Prop where
  unique : ∀ p ∈ configuredTags drivers, ∀ q ∈ configuredTags drivers,
    qualifiedId p.1 p.2 = qualifiedId q.1 q.2 → p = q
  ncmd : ∀ p ∈ configuredTags drivers, ∀ value,
    onMessage [⟨some (qualifiedId p.1 p.2), some value, false⟩] =
      [⟨"mqtt-ncmd", p.1, p.2, value⟩]
  assets : ∀ asset : Asset,
    (∀ q ∈ asset.parameters, ∃ p ∈ configuredTags drivers, q.tagRef = qualifiedId p.1 p.2) →
      ∀ i, i ∈ assetBackingInstanceIds asset ↔
        ∃ q ∈ asset.parameters, ∃ p ∈ configuredTags drivers,
          q.tagRef = qualifiedId p.1 p.2 ∧ p.1 = i
  latest : ∀ tags : List UnifiedTag, ∀ d ∈ drivers, ∀ p ∈ configuredTags drivers,
    ∀ tag, tag.tagId = qualifiedId p.1 p.2 →
      (LatestValueStore.ofUpdates tags).get tag.tagId = some tag →
        (tag ∈ (LatestValueStore.ofUpdates tags).forDriver d.1 ↔ d.1 = p.1)

structure Unambiguous (drivers : List (String × List TagGroup)) : Prop where
  noSlash : ∀ p ∈ configuredTags drivers, '/' ∉ p.1.toList
  noFront : ∀ d ∈ drivers, '/' ∈ d.1.toList → ∀ p ∈ configuredTags drivers, ∀ rest,
    qualifiedId p.1 p.2 ≠ qualifiedId d.1 rest

/-! ## Cutting at the first slash -/

theorem toList_qualifiedId (i t : String) :
    (qualifiedId i t).toList = i.toList ++ '/' :: t.toList := by
  simp [qualifiedId]

variable {i : String}

theorem ne_slash_of_noSlash (hi : '/' ∉ i.toList) :
    ∀ c ∈ i.toList, decide (c ≠ '/') = true := by
  intro c hc
  rw [decide_eq_true_iff]
  rintro rfl
  exact hi hc

theorem takeWhile_qualifiedId (hi : '/' ∉ i.toList) (t : String) :
    (qualifiedId i t).toList.takeWhile (· ≠ '/') = i.toList := by
  rw [toList_qualifiedId, List.takeWhile_append_of_pos (ne_slash_of_noSlash hi),
    List.takeWhile_cons_of_neg (by simp), List.append_nil]

theorem dropWhile_qualifiedId (hi : '/' ∉ i.toList) (t : String) :
    (qualifiedId i t).toList.dropWhile (· ≠ '/') = '/' :: t.toList := by
  rw [toList_qualifiedId, List.dropWhile_append_of_pos (ne_slash_of_noSlash hi),
    List.dropWhile_cons_of_neg (by simp)]

theorem partitionSlash_qualifiedId (hi : '/' ∉ i.toList) (t : String) :
    partitionSlash (qualifiedId i t) = some (i, t) := by
  rw [partitionSlash, List.span_eq_takeWhile_dropWhile, takeWhile_qualifiedId hi,
    dropWhile_qualifiedId hi]
  simp

variable {t : String}

theorem noSlash_of_partitionSlash {s : String} (h : partitionSlash s = some (i, t)) :
    '/' ∉ i.toList := by
  rw [partitionSlash, List.span_eq_takeWhile_dropWhile] at h
  split at h
  · next front c tagName hspan =>
    cases h
    have hfront : s.toList.takeWhile (· ≠ '/') = front := congrArg Prod.fst hspan
    rw [String.toList_ofList, ← hfront]
    intro hmem
    simpa using List.mem_takeWhile_imp hmem
  · cases h

variable {j : String}

theorem front_qualifiedId_iff (t : String) :
    (j ++ "/").toList <+: (qualifiedId i t).toList ↔
      ∃ rest, qualifiedId i t = qualifiedId j rest := by
  constructor
  · rintro ⟨rest, hrest⟩
    refine ⟨String.ofList rest, String.toList_inj.1 ?_⟩
    rw [← hrest, toList_qualifiedId]
    simp
  · rintro ⟨rest, hrest⟩
    rw [hrest, toList_qualifiedId]
    exact ⟨rest.toList, by simp⟩

theorem eq_of_qualifiedId {u : String} (hi : '/' ∉ i.toList) (hj : '/' ∉ j.toList)
    (h : qualifiedId i t = qualifiedId j u) : (i, t) = (j, u) := by
  have hpart := partitionSlash_qualifiedId hi t
  rw [h, partitionSlash_qualifiedId hj] at hpart
  exact (Option.some.inj hpart).symm

theorem onMessage_singleton (n : String) (value : TagValue) :
    onMessage [⟨some n, some value, false⟩] =
      ((partitionSlash n).map fun p => ⟨"mqtt-ncmd", p.1, p.2, value⟩).toList := by
  cases h : partitionSlash n <;> simp [onMessage, NcmdMetric.write, h]

/-! ## The equivalence -/

variable {drivers : List (String × List TagGroup)}

variable {p : String × String}

theorem noSlash_of_ncmd {value : TagValue}
    (h : onMessage [⟨some (qualifiedId p.1 p.2), some value, false⟩] =
      [⟨"mqtt-ncmd", p.1, p.2, value⟩]) : '/' ∉ p.1.toList := by
  rw [onMessage_singleton] at h
  cases hpart : partitionSlash (qualifiedId p.1 p.2) with
  | none => rw [hpart] at h; cases h
  | some q =>
    rw [hpart] at h
    have hcall := List.head_eq_of_cons_eq h
    have hfst : q.1 = p.1 := congrArg WriteCall.instanceId hcall
    rw [← hfst]
    exact noSlash_of_partitionSlash hpart

theorem Unambiguous.assets (h : Unambiguous drivers) (asset : Asset)
    (hrefs : ∀ q ∈ asset.parameters,
      ∃ p ∈ configuredTags drivers, q.tagRef = qualifiedId p.1 p.2) (i : String) :
    i ∈ assetBackingInstanceIds asset ↔
      ∃ q ∈ asset.parameters, ∃ p ∈ configuredTags drivers,
        q.tagRef = qualifiedId p.1 p.2 ∧ p.1 = i := by
  have hback : ∀ p ∈ configuredTags drivers, backingInstanceId (qualifiedId p.1 p.2) = p.1 := by
    intro p hp
    rw [backingInstanceId, takeWhile_qualifiedId (h.noSlash p hp), String.ofList_toList]
  rw [assetBackingInstanceIds, List.mem_dedup, List.mem_map]
  constructor
  · rintro ⟨q, hq, rfl⟩
    obtain ⟨p, hp, href⟩ := hrefs q hq
    exact ⟨q, hq, p, hp, href, by rw [href, hback p hp]⟩
  · rintro ⟨q, hq, p, hp, href, rfl⟩
    exact ⟨q, hq, by rw [href, hback p hp]⟩

theorem Unambiguous.latest (h : Unambiguous drivers) (tags : List UnifiedTag)
    {d : String × List TagGroup} (hd : d ∈ drivers)
    (hp : p ∈ configuredTags drivers) {tag : UnifiedTag} (htag : tag.tagId = qualifiedId p.1 p.2)
    (hget : (LatestValueStore.ofUpdates tags).get tag.tagId = some tag) :
    tag ∈ (LatestValueStore.ofUpdates tags).forDriver d.1 ↔ d.1 = p.1 := by
  rw [LatestValueStore.mem_forDriver, and_iff_right hget, htag, front_qualifiedId_iff]
  constructor
  · rintro ⟨rest, hrest⟩
    by_cases hslash : '/' ∈ d.1.toList
    · exact absurd hrest (h.noFront d hd hslash p hp rest)
    · exact (Prod.mk.inj (eq_of_qualifiedId (h.noSlash p hp) hslash hrest)).1.symm
  · intro heq
    exact ⟨p.2, by rw [heq]⟩

def sampleOf (tagId : String) : UnifiedTag :=
  ⟨tagId, 0, .int 0, "INT64", .good, "", "", none, false⟩

def slashIds : List (String × List TagGroup) :=
  [("a", [⟨none, [⟨"b/c", none, none⟩]⟩]), ("a/b", [⟨none, [⟨"c", none, none⟩]⟩])]

end XEdge.Northbound
