import RentalAgent.Database
import RentalAgent.Foundation.Transition
import RentalAgent.Foundation.Url

/-! # Media ingestion

A media reference is fetched and checked: its URL, its size, its type by signature, and the
decoded image. Bytes that are not stored yet are stored with a thumbnail; bytes that are stored
are referenced, and the asset is grouped with the one it repeats.
-/

namespace RentalAgent

open Relational Transition Url

/-! ## Rows -/

abbrev Bytes := List UInt8

/-- The kinds of variants of a media asset. -/
inductive MediaVariantType
  | thumbnail | preview | normalized | pdfPageRender | contactRedactedReviewCopy
  deriving DecidableEq

/-- What the members of a duplicate group have in common. -/
inductive MediaDuplicateType
  | exact | nearDuplicate | derivative | reviewRequired
  deriving DecidableEq

/-- How a member of a duplicate group relates to it. -/
inductive MediaDuplicateRelationship
  | exact | cropped | resized | compressed | watermarkVariant | colorVariant | other
  deriving DecidableEq

/-- Whether the membership in a duplicate group is settled. -/
inductive MediaDuplicateMemberStatus
  | autoConfirmed | humanConfirmed | candidate | rejected
  deriving DecidableEq

/-- The results of the quality and the safety check of a media asset. -/
inductive MediaCheckStatus
  | pending | pass | warning | fail | blocked
  deriving DecidableEq

/-- A row of `app.media_asset` with what fetching it adds. -/
structure IngestedAsset extends MediaAsset where
  sourceObservationId : Option Uuid
  storageRef : Option (List String)
  retrievedAt : Timestamp
  mimeType : String
  widthPx : Nat
  heightPx : Nat
  byteSize : Nat
  contentHash : String
  technicalQualityStatus : MediaCheckStatus
  contentSafetyStatus : MediaCheckStatus
  deriving DecidableEq

/-- A row of `app.media_variant`. -/
structure MediaVariant where
  mediaVariantId : Uuid
  mediaAssetId : Uuid
  variantType : MediaVariantType
  storageRef : List String
  mimeType : String
  widthPx : Nat
  heightPx : Nat
  byteSize : Nat
  contentHash : String
  transformVersion : String
  deriving DecidableEq

/-- A row of `app.media_duplicate_group`. -/
structure MediaDuplicateGroup where
  mediaDuplicateGroupId : Uuid
  duplicateType : MediaDuplicateType
  canonicalAssetId : Option Uuid
  methodVersion : String
  deriving DecidableEq

/-- A row of `app.media_duplicate_member`. -/
structure MediaDuplicateMember where
  mediaDuplicateMemberId : Uuid
  mediaDuplicateGroupId : Uuid
  mediaAssetId : Uuid
  relationship : MediaDuplicateRelationship
  status : MediaDuplicateMemberStatus
  deriving DecidableEq

/-- The media tables, the rows they refer to, and the files under the media root: each with
its path relative to the root, in the order they were written. -/
structure MediaStore where
  drawn : Nat
  sources : List Source
  observations : List Uuid
  assets : List IngestedAsset
  variants : List MediaVariant
  groups : List MediaDuplicateGroup
  members : List MediaDuplicateMember
  files : List (List String × Bytes)
  deriving DecidableEq

/-! ## Checks -/

/-- The exceptions of an ingestion. -/
inductive MediaError
  /-- `MediaPolicyError`. -/
  | policy (message : List Char)
  /-- `ValueError` of `urlparse`. -/
  | valueError
  /-- `MultipleResultsFound`: a query for at most one row found several. -/
  | multipleResultsFound
  /-- The image cannot be decoded. -/
  | unidentifiedImage
  /-- `IntegrityError`: a row that another row refers to is missing. -/
  | integrityError
  deriving DecidableEq

/-- What decoding an image yields: its size, and the thumbnail with its size. -/
structure DecodedImage where
  width : Nat
  height : Nat
  thumbnail : Bytes
  thumbnailWidth : Nat
  thumbnailHeight : Nat

/-- The media pipeline with what it uses of other libraries: the hash, the image decoder, the
checks and the lowering of hosts, and how identifiers and dates are written in paths. -/
structure MediaEnvironment where
  ids : IdSupply
  sha256 : Bytes → String
  decode : Bytes → Option DecodedImage
  checks : HostChecks
  lower : List Char → List Char
  uuidText : Uuid → String
  monthFolders : Timestamp → List String

/-- `MAX_ASSET_BYTES`. -/
def maxAssetBytes : Nat := 15 * 1024 * 1024

/-- `TRANSFORM_VERSION`. -/
def transformVersion : String := "thumb-v1"

/-- The call `ingest_reference`, with what the server answers and the time it is made at. -/
structure IngestCall where
  sourceId : Uuid
  sourceUrl : String
  allowedDomains : List String
  policyVersion : String
  sourceObservationId : Option Uuid := none
  proposedType : MediaType := .unknown
  body : Bytes
  now : Timestamp

/-- `_default_fetcher`: no more than the limit is read. -/
def fetchMedia (body : Bytes) (maxBytes : Nat) : Except MediaError Bytes :=
  let data := body.take (maxBytes + 1)
  if maxBytes < data.length then .error (.policy "asset exceeds size cap".toList) else .ok data

/-- `SIGNATURES`: file signatures with their type and format. -/
def mediaSignatures : List (Bytes × String × String) :=
  [([0xFF, 0xD8, 0xFF], "image/jpeg", "JPEG"),
    ([0x89, 0x50, 0x4E, 0x47, 0x0D, 0x0A, 0x1A, 0x0A], "image/png", "PNG"),
    ([0x52, 0x49, 0x46, 0x46], "image/webp", "WEBP")]

/-- `detect_type`: the first signature that the bytes start with; a RIFF file is one only with
the mark of WebP. -/
def detectType (data : Bytes) : Except MediaError (String × String) :=
  match mediaSignatures.find? fun signature =>
    signature.1.isPrefixOf data &&
      !(signature.2.2 = "WEBP" && (data.take 12).drop 8 ≠ [0x57, 0x45, 0x42, 0x50]) with
  | some signature => .ok signature.2
  | none => .error (.policy "unsupported or unrecognized file type".toList)

namespace MediaEnvironment

variable (env : MediaEnvironment)

/-- `parsed.hostname`: without the user, the brackets and the port, in lower case but for a
zone. -/
def hostname (netloc : List Char) : List Char :=
  let hostinfo := netloc.rtakeWhile (· ≠ '@')
  let host :=
    if '[' ∈ hostinfo then (splitOnce ']' (splitOnce '[' hostinfo).2).1
    else (splitOnce ':' hostinfo).1
  env.lower (host.takeWhile (· ≠ '%')) ++ host.dropWhile (· ≠ '%')

/-- `_validate_url`. -/
def validateUrl (url : String) (allowedDomains : List String) : Except MediaError Unit :=
  match urlparse env.checks url.toList with
  | .error _ => .error .valueError
  | .ok parsed =>
      let host := env.hostname parsed.netloc
      if parsed.scheme ≠ "https".toList then
        .error (.policy "only https media URLs are permitted".toList)
      else if host = "localhost".toList ∨ host = "127.0.0.1".toList ∨
          ["10.", "192.168.", "169.254."].any (fun start => start.toList.isPrefixOf host) then
        .error (.policy "private/loopback hosts are blocked".toList)
      else if allowedDomains.any (fun domain =>
          host = domain.toList || ('.' :: domain.toList).isSuffixOf host) then .ok ()
      else
        .error (.policy ("host '".toList ++ host ++ "' not on the source media allowlist".toList))

end MediaEnvironment

/-! ## Ingestion -/

namespace MediaStore

variable (store : MediaStore)

/-- The assets with the hash of a content. -/
def copiesOf (contentHash : String) : List IngestedAsset :=
  store.assets.filter fun asset => asset.contentHash = contentHash

/-- The groups that an asset is a member of, one row for each membership. -/
def groupsOf (mediaAssetId : Uuid) : List MediaDuplicateGroup :=
  (store.members.filter fun member => member.mediaAssetId = mediaAssetId).flatMap fun member =>
    store.groups.filter fun group => group.mediaDuplicateGroupId = member.mediaDuplicateGroupId

end MediaStore

namespace MediaEnvironment

variable (env : MediaEnvironment)

/-- What is known of a reference before anything is written. -/
structure Inspected where
  data : Bytes
  mimeType : String
  existing : Option IngestedAsset
  image : DecodedImage

/-- `ingest_reference` up to the first write: the URL, the bytes, their type, the asset with
the same hash, and the decoded image. -/
def inspect (store : MediaStore) (call : IngestCall) : Except MediaError Inspected := do
  env.validateUrl call.sourceUrl call.allowedDomains
  let data ← fetchMedia call.body maxAssetBytes
  let (mimeType, _) ← detectType data
  let existing ← scalarOneOrNone .multipleResultsFound (store.copiesOf (env.sha256 data))
  match env.decode data with
  | none => .error .unidentifiedImage
  | some image => .ok ⟨data, mimeType, existing, image⟩

/-- `_group_exact_duplicate`. The duplicate was inserted just before, so that no membership of
it can stand in the way. -/
def groupExactDuplicate (store : MediaStore) (original duplicate : Uuid) :
    Except MediaError Unit × MediaStore :=
  match scalarOneOrNone MediaError.multipleResultsFound (store.groupsOf original) with
  | .error failure => (.error failure, store)
  | .ok none =>
      let groupId := env.ids.uuid store.drawn
      (.ok (), { store with
        drawn := store.drawn + 3
        groups := store.groups ++ [⟨groupId, .exact, some original, "sha256-v1"⟩]
        members := store.members ++
          [⟨env.ids.uuid (store.drawn + 1), groupId, original, .exact, .autoConfirmed⟩,
            ⟨env.ids.uuid (store.drawn + 2), groupId, duplicate, .exact, .autoConfirmed⟩] })
  | .ok (some group) =>
      (.ok (), { store with
        drawn := store.drawn + 1
        members := store.members ++ [⟨env.ids.uuid store.drawn, group.mediaDuplicateGroupId,
          duplicate, .exact, .autoConfirmed⟩] })

/-- The row of a reference: stored, or a reference to the file of the asset it repeats. -/
def assetRow (call : IngestCall) (seen : Inspected) (id : Uuid) (folder : List String) :
    IngestedAsset where
  mediaAssetId := id
  sourceId := call.sourceId
  sourceObservationId := call.sourceObservationId
  sourceUrl := call.sourceUrl
  retrievedAt := call.now
  availabilityStatus := if seen.existing.isSome then .referenced else .stored
  mediaType := call.proposedType
  mimeType := seen.mimeType
  widthPx := seen.image.width
  heightPx := seen.image.height
  byteSize := seen.data.length
  contentHash := env.sha256 seen.data
  policyVersion := call.policyVersion
  technicalQualityStatus := .pass
  contentSafetyStatus := .pass
  storageRef :=
    match seen.existing with
    | some original => original.storageRef
    | none => some (folder ++ ["original"])

/-- `ingest_reference`: the outcome and the store behind it. -/
def ingestReference (store : MediaStore) (call : IngestCall) :
    Except MediaError IngestedAsset × MediaStore :=
  match env.inspect store call with
  | .error failure => (.error failure, store)
  | .ok seen =>
      let source := store.sources.find? fun source => source.sourceId = call.sourceId
      -- the foreign keys of the new row
      if source.isNone ∨ ¬∀ observation ∈ call.sourceObservationId,
          observation ∈ store.observations then (.error .integrityError, store)
      else
        let id := env.ids.uuid store.drawn
        let folder := "media" :: (source.map (·.sourceCode)).getD "unknown" ::
          env.monthFolders call.now ++ [env.uuidText id]
        let asset := env.assetRow call seen id folder
        let store := { store with
          drawn := store.drawn + 1
          assets := store.assets ++ [asset] }
        match seen.existing with
        | some original =>
            match env.groupExactDuplicate store original.mediaAssetId id with
            | (.ok (), store) => (.ok asset, store)
            | (.error failure, store) => (.error failure, store)
        | none =>
            let thumbnailRef := folder ++ ["thumbnail_" ++ transformVersion ++ ".jpg"]
            (.ok asset, { store with
              drawn := store.drawn + 1
              files := store.files ++
                [(folder ++ ["original"], seen.data), (thumbnailRef, seen.image.thumbnail)]
              variants := store.variants ++ [{
                mediaVariantId := env.ids.uuid store.drawn
                mediaAssetId := id
                variantType := .thumbnail
                storageRef := thumbnailRef
                mimeType := "image/jpeg"
                widthPx := seen.image.thumbnailWidth
                heightPx := seen.image.thumbnailHeight
                byteSize := seen.image.thumbnail.length
                contentHash := env.sha256 seen.image.thumbnail
                transformVersion := transformVersion }] })

end MediaEnvironment

end RentalAgent
