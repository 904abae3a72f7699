import Mathlib

/-!
# Asset parameters and what they keep out of the cold store (`xedge/core/assets.py`)

An asset parameter with `store: false` keeps its tag out of the cold tier, unless
another parameter asks for the same tag with `store: true`.  The drivers behind an
asset are read off the references of its parameters.
-/

namespace XEdge.Core

/-- `AssetParameter`: the reference to a tag and the storage flag. -/
structure AssetParameter where
  tagRef : String
  store : Bool
  deriving DecidableEq

/-- `Asset`, as far as storage is concerned. -/
structure Asset where
  id : String
  parameters : List AssetParameter
  deriving DecidableEq

/-- A parameter of the `assets` config section: `store` may be left out. -/
structure AssetParameterEntry where
  tagRef : String
  store : Option Bool
  deriving DecidableEq

/-- An entry of the `assets` config section. -/
structure AssetEntry where
  id : String
  parameters : List AssetParameterEntry
  deriving DecidableEq

/-- `parse_assets`: a parameter is stored unless it says otherwise. -/
def parseAssets (assetsConfig : List AssetEntry) : List Asset :=
  assetsConfig.map fun e =>
    ⟨e.id, e.parameters.map fun p => ⟨p.tagRef, p.store.getD true⟩⟩

/-- `compute_suppressed_tag_ids`: asked for with `store: false` by some parameter
and with `store: true` by none. -/
def computeSuppressedTagIds (assets : List Asset) : List String :=
  let parameters := assets.flatMap Asset.parameters
  let suppressCandidates := (parameters.filter fun p => !p.store).map AssetParameter.tagRef
  let explicitlyWanted := (parameters.filter fun p => p.store).map AssetParameter.tagRef
  suppressCandidates.filter fun t => t ∉ explicitlyWanted

/-- `tag_ref.split("/", 1)[0]`. -/
def backingInstanceId (tagRef : String) : String :=
  String.ofList (tagRef.toList.takeWhile (· ≠ '/'))

/-- `asset_backing_instance_ids`, as a list without repetitions. -/
def assetBackingInstanceIds (asset : Asset) : List String :=
  (asset.parameters.map fun p => backingInstanceId p.tagRef).dedup

end XEdge.Core
