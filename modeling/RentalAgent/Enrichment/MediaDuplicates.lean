import Mathlib.Data.List.Induction
import RentalAgent.Enrichment.MediaIngest

/-! # Exact duplicates of media

The lookup of the asset with equal bytes expects at most one row with their hash, and a
duplicate keeps the hash: from the third reference to a content on, the lookup finds two rows
and the call fails. Contents that are referenced at most twice are stored once and grouped as
intended (`media_ingested_exactly_iff`).
-/

namespace RentalAgent

open Relational Transition

/-! ## What is promised -/

namespace MediaStore

variable (store : MediaStore)

/-- Empty media tables beside some sources and observations. -/
def empty (sources : List Source) (observations : List Uuid) : MediaStore :=
  ⟨0, sources, observations, [], [], [], [], []⟩

/-- The stored originals with some bytes. -/
def originals (content : Bytes) : List (List String × Bytes) :=
  store.files.filter fun file => file.1.getLast? = some "original" ∧ file.2 = content

/-- The thumbnails of an asset. -/
def thumbnailsOf (mediaAssetId : Uuid) : List MediaVariant :=
  store.variants.filter fun variant =>
    variant.mediaAssetId = mediaAssetId ∧ variant.variantType = .thumbnail

/-- The memberships of an asset. -/
def membershipsOf (mediaAssetId : Uuid) : List MediaDuplicateMember :=
  store.members.filter fun member => member.mediaAssetId = mediaAssetId

/-- The groups of exact duplicates with a member among some assets. -/
def exactGroups (assets : List IngestedAsset) : List MediaDuplicateGroup :=
  store.groups.filter fun group => group.duplicateType = .exact ∧
    ∃ asset ∈ assets, ∃ member ∈ store.membershipsOf asset.mediaAssetId,
      member.mediaDuplicateGroupId = group.mediaDuplicateGroupId

/-- The content is stored once, with one thumbnail, its assets share the file, and if there are
several they are in one group, each of them once. -/
structure KeepsContent (contentHash : String) (content : Bytes) (several : Prop) : Prop where
  stored : ∃ ref, store.originals content = [(ref, content)] ∧
    ∀ asset ∈ store.copiesOf contentHash, asset.storageRef = some ref
  thumbnail : ((store.copiesOf contentHash).flatMap fun asset =>
    store.thumbnailsOf asset.mediaAssetId).length = 1
  grouped : several → ∃ group, store.exactGroups (store.copiesOf contentHash) = [group] ∧
    ∀ asset ∈ store.copiesOf contentHash,
      (store.membershipsOf asset.mediaAssetId).countP (fun member =>
        member.mediaDuplicateGroupId = group.mediaDuplicateGroupId) = 1

end MediaStore

namespace MediaEnvironment

variable (env : MediaEnvironment)

/-- The store behind a call. -/
def ingestStep (store : MediaStore) (call : IngestCall) : MediaStore :=
  (env.ingestReference store call).2

/-- The call returns an asset. -/
def Succeeds (store : MediaStore) (call : IngestCall) : Prop :=
  ∃ asset, (env.ingestReference store call).1 = .ok asset

/-- A reference to a decodable image on an allowed host, from a known source. -/
structure Admissible (sources : List Source) (observations : List Uuid) (call : IngestCall) :
    Prop where
  allowed : env.validateUrl call.sourceUrl call.allowedDomains = .ok ()
  short : call.body.length ≤ maxAssetBytes
  typed : ∃ detected, detectType call.body = .ok detected
  decodes : ∃ image, env.decode call.body = some image
  source : ∃ source ∈ sources, source.sourceId = call.sourceId
  observation : ∀ observation ∈ call.sourceObservationId, observation ∈ observations

/-- How often a content is referenced. -/
def references (calls : List IngestCall) (content : Bytes) : Nat :=
  calls.countP fun call => call.body = content

/-- Every call succeeds, and every content is kept. -/
structure IngestsExactly (start : MediaStore) (calls : List IngestCall) : Prop where
  succeeds : Permitted env.ingestStep env.Succeeds start calls
  keeps : ∀ content, 0 < references calls content →
    (run env.ingestStep start calls).KeepsContent (env.sha256 content) content
      (2 ≤ references calls content)

/-! ## One call -/

variable {env} {store : MediaStore} {call : IngestCall} {sources : List Source}
  {observations : List Uuid}

/-- An admissible call is decided by the lookup of its content. -/
theorem inspect_eq (admissible : env.Admissible sources observations call) (store : MediaStore) :
    ∃ mimeType image, env.inspect store call =
      (scalarOneOrNone .multipleResultsFound (store.copiesOf (env.sha256 call.body))).map
        fun existing => ⟨call.body, mimeType, existing, image⟩ := by
  obtain ⟨⟨mimeType, format⟩, detected⟩ := admissible.typed
  obtain ⟨image, decoded⟩ := admissible.decodes
  have whole : fetchMedia call.body maxAssetBytes = .ok call.body := by
    have short := admissible.short
    rw [fetchMedia, List.take_of_length_le (by omega)]
    exact if_neg (by omega)
  refine ⟨mimeType, image, ?_⟩
  simp only [inspect, admissible.allowed, whole, ok_bind, detected, decoded]
  cases scalarOneOrNone MediaError.multipleResultsFound
    (store.copiesOf (env.sha256 call.body)) <;> rfl

/-- The rows that a new row refers to are there. -/
theorem references_present (admissible : env.Admissible store.sources store.observations call) :
    ¬((store.sources.find? fun source => source.sourceId = call.sourceId).isNone ∨
      ¬∀ observation ∈ call.sourceObservationId, observation ∈ store.observations) := by
  rw [not_or, not_not]
  refine ⟨fun missing => ?_, admissible.observation⟩
  obtain ⟨source, member, same⟩ := admissible.source
  have absent := List.find?_eq_none.mp (Option.isNone_iff_eq_none.mp missing) source member
  exact absent (decide_eq_true same)

/-- A content that is not stored yet is stored, with a thumbnail. -/
theorem ingest_new (admissible : env.Admissible store.sources store.observations call)
    (absent : store.copiesOf (env.sha256 call.body) = []) :
    ∃ asset variant ref thumbnailRef thumbnail,
      env.ingestReference store call = (.ok asset, { store with
        drawn := store.drawn + 2
        assets := store.assets ++ [asset]
        files := store.files ++ [(ref, call.body), (thumbnailRef, thumbnail)]
        variants := store.variants ++ [variant] }) ∧
      asset.mediaAssetId = env.ids.uuid store.drawn ∧
      asset.contentHash = env.sha256 call.body ∧ asset.storageRef = some ref ∧
      variant.mediaAssetId = env.ids.uuid store.drawn ∧ variant.variantType = .thumbnail ∧
      ref.getLast? = some "original" ∧ thumbnailRef.getLast? ≠ some "original" := by
  obtain ⟨mimeType, image, inspected⟩ := inspect_eq admissible store
  rw [absent, scalarOneOrNone_nil, Except.map] at inspected
  unfold ingestReference
  simp only [inspected, if_neg (references_present admissible)]
  refine ⟨_, _, _, _, _, rfl, rfl, rfl, rfl, rfl, rfl, ?_, ?_⟩
  · rw [List.getLast?_concat]
  · rw [List.getLast?_concat]
    decide

/-- A content that is stored and not grouped yet is grouped with its original. -/
theorem ingest_duplicate (admissible : env.Admissible store.sources store.observations call)
    {original : IngestedAsset}
    (stored : store.copiesOf (env.sha256 call.body) = [original])
    (alone : store.membershipsOf original.mediaAssetId = []) :
    ∃ asset group first second,
      env.ingestReference store call = (.ok asset, { store with
        drawn := store.drawn + 4
        assets := store.assets ++ [asset]
        groups := store.groups ++ [group]
        members := store.members ++ [first, second] }) ∧
      asset.mediaAssetId = env.ids.uuid store.drawn ∧
      asset.contentHash = env.sha256 call.body ∧ asset.storageRef = original.storageRef ∧
      group.mediaDuplicateGroupId = env.ids.uuid (store.drawn + 1) ∧
      group.duplicateType = .exact ∧
      first.mediaAssetId = original.mediaAssetId ∧
      second.mediaAssetId = env.ids.uuid store.drawn ∧
      first.mediaDuplicateGroupId = group.mediaDuplicateGroupId ∧
      second.mediaDuplicateGroupId = group.mediaDuplicateGroupId := by
  obtain ⟨mimeType, image, inspected⟩ := inspect_eq admissible store
  rw [stored, scalarOneOrNone_singleton, Except.map] at inspected
  have ungrouped : ∀ drawn assets, MediaStore.groupsOf
      { store with drawn := drawn, assets := assets } original.mediaAssetId = [] := by
    intro drawn assets
    rw [MediaStore.membershipsOf] at alone
    rw [MediaStore.groupsOf, alone, List.flatMap_nil]
  unfold ingestReference
  simp only [inspected, if_neg (references_present admissible), groupExactDuplicate, ungrouped,
    scalarOneOrNone_nil]
  refine ⟨_, _, _, _, rfl, rfl, rfl, rfl, rfl, rfl, rfl, rfl, rfl, rfl⟩

/-- Where a content has two assets the call fails. -/
theorem ingest_third (admissible : env.Admissible store.sources store.observations call)
    (several : 2 ≤ (store.copiesOf (env.sha256 call.body)).length) :
    ¬env.Succeeds store call := by
  obtain ⟨mimeType, image, inspected⟩ := inspect_eq admissible store
  have failed : env.inspect store call = .error .multipleResultsFound := by
    rw [inspected]
    cases copies : store.copiesOf (env.sha256 call.body) with
    | nil => simp [copies] at several
    | cons first rest =>
        cases rest with
        | nil => simp [copies] at several
        | cons second rest => rfl
  rintro ⟨asset, succeeded⟩
  unfold ingestReference at succeeded
  simp only [failed] at succeeded
  cases succeeded

end MediaEnvironment

/-! ## Kept contents -/

namespace MediaStore

/-- How a content is kept: not at all, once, or with one duplicate. The number is that of its
assets. -/
inductive Kept (store : MediaStore) (contentHash : String) (content : Bytes) : Nat → Prop
  | absent (copies : store.copiesOf contentHash = []) (unstored : store.originals content = []) :
      Kept store contentHash content 0
  | once (only : IngestedAsset) (ref : List String)
      (copies : store.copiesOf contentHash = [only]) (shared : only.storageRef = some ref)
      (stored : store.originals content = [(ref, content)])
      (thumbnail : (store.thumbnailsOf only.mediaAssetId).length = 1)
      (alone : store.membershipsOf only.mediaAssetId = []) :
      Kept store contentHash content 1
  | twice (first second : IngestedAsset) (ref : List String) (group : MediaDuplicateGroup)
      (copies : store.copiesOf contentHash = [first, second])
      (firstRef : first.storageRef = some ref) (secondRef : second.storageRef = some ref)
      (stored : store.originals content = [(ref, content)])
      (thumbnail : (store.thumbnailsOf first.mediaAssetId).length = 1)
      (without : store.thumbnailsOf second.mediaAssetId = [])
      (member : group ∈ store.groups) (exact : group.duplicateType = .exact)
      (firstIn : (store.membershipsOf first.mediaAssetId).map
        MediaDuplicateMember.mediaDuplicateGroupId = [group.mediaDuplicateGroupId])
      (secondIn : (store.membershipsOf second.mediaAssetId).map
        MediaDuplicateMember.mediaDuplicateGroupId = [group.mediaDuplicateGroupId]) :
      Kept store contentHash content 2

/-- The identifiers of the store are drawn ones, and no two rows of a table share one. -/
structure Sound (ids : IdSupply) (store : MediaStore) : Prop where
  assetIds : ∀ asset ∈ store.assets, ∃ k < store.drawn, asset.mediaAssetId = ids.uuid k
  groupIds : ∀ group ∈ store.groups, ∃ k < store.drawn, group.mediaDuplicateGroupId = ids.uuid k
  variantIds : ∀ variant ∈ store.variants, ∃ k < store.drawn, variant.mediaAssetId = ids.uuid k
  memberIds : ∀ member ∈ store.members, ∃ k < store.drawn, member.mediaAssetId = ids.uuid k
  assetKey : PrimaryKey (fun asset : IngestedAsset => asset.mediaAssetId) store.assets
  groupKey : PrimaryKey MediaDuplicateGroup.mediaDuplicateGroupId store.groups

variable {store next : MediaStore} {ids : IdSupply} {contentHash : String} {content : Bytes}
  {n : Nat}

/-- A content has as many assets as it is kept times. -/
theorem Kept.length_copiesOf (kept : store.Kept contentHash content n) :
    (store.copiesOf contentHash).length = n := by
  cases kept with
  | absent copies => rw [copies]; rfl
  | once only ref copies => rw [copies]; rfl
  | twice first second ref group copies => rw [copies]; rfl

/-- What does not touch the rows of a content does not touch how it is kept. -/
theorem Kept.frame (kept : store.Kept contentHash content n)
    (copies : next.copiesOf contentHash = store.copiesOf contentHash)
    (originals : next.originals content = store.originals content)
    (thumbnails : ∀ asset ∈ store.copiesOf contentHash,
      next.thumbnailsOf asset.mediaAssetId = store.thumbnailsOf asset.mediaAssetId)
    (memberships : ∀ asset ∈ store.copiesOf contentHash,
      next.membershipsOf asset.mediaAssetId = store.membershipsOf asset.mediaAssetId)
    (groups : store.groups ⊆ next.groups) : next.Kept contentHash content n := by
  cases kept with
  | absent none unstored => exact .absent (copies.trans none) (originals.trans unstored)
  | once only ref one shared stored thumbnail alone =>
      have inside : only ∈ store.copiesOf contentHash := by simp [one]
      exact .once only ref (copies.trans one) shared (originals.trans stored)
        (by rw [thumbnails only inside, thumbnail]) ((memberships only inside).trans alone)
  | twice first second ref group two firstRef secondRef stored thumbnail without member exact
      firstIn secondIn =>
      have firstInside : first ∈ store.copiesOf contentHash := by simp [two]
      have secondInside : second ∈ store.copiesOf contentHash := by simp [two]
      exact .twice first second ref group (copies.trans two) firstRef secondRef
        (originals.trans stored) (by rw [thumbnails first firstInside, thumbnail])
        ((thumbnails second secondInside).trans without) (groups member) exact
        (by rw [memberships first firstInside, firstIn])
        (by rw [memberships second secondInside, secondIn])

/-- An identifier that is not drawn yet belongs to no row. -/
theorem ne_of_drawn {id : Uuid} {drawn : Nat} (old : ∃ k < drawn, id = ids.uuid k) (more : Nat) :
    id ≠ ids.uuid (drawn + more) := by
  obtain ⟨k, below, rfl⟩ := old
  exact fun same => by
    have := ids.distinct same
    omega

theorem Sound.thumbnailsOf_drawn (sound : store.Sound ids) (more : Nat) :
    store.thumbnailsOf (ids.uuid (store.drawn + more)) = [] :=
  List.filter_eq_nil_iff.mpr fun variant member => by
    simp [ne_of_drawn (sound.variantIds variant member) more]

theorem Sound.membershipsOf_drawn (sound : store.Sound ids) (more : Nat) :
    store.membershipsOf (ids.uuid (store.drawn + more)) = [] :=
  List.filter_eq_nil_iff.mpr fun member inside => by
    simp [ne_of_drawn (sound.memberIds member inside) more]

/-- Assets with different hashes are different. -/
theorem Sound.ne_of_hash (sound : store.Sound ids) {asset other : IngestedAsset}
    {otherHash : String} (differ : otherHash ≠ contentHash)
    (member : asset ∈ store.copiesOf contentHash) (inside : other ∈ store.copiesOf otherHash) :
    other.mediaAssetId ≠ asset.mediaAssetId := by
  obtain ⟨stored, hashed⟩ := List.mem_filter.mp member
  obtain ⟨otherStored, otherHashed⟩ := List.mem_filter.mp inside
  intro same
  obtain rfl := sound.assetKey.eq_of_mem otherStored stored same
  exact differ ((of_decide_eq_true otherHashed).symm.trans (of_decide_eq_true hashed))

/-- What a kept content promises. -/
theorem Kept.keepsContent (kept : store.Kept contentHash content n) (sound : store.Sound ids)
    (present : 0 < n) : store.KeepsContent contentHash content (2 ≤ n) := by
  cases kept with
  | absent => exact absurd present (Nat.lt_irrefl 0)
  | once only ref copies shared stored thumbnail alone =>
      refine ⟨⟨ref, stored, ?_⟩, ?_, fun several => absurd several (by decide)⟩
      · rw [copies]
        simpa using shared
      · rw [copies]
        simpa using thumbnail
  | twice first second ref group copies firstRef secondRef stored thumbnail without member exact
      firstIn secondIn =>
      refine ⟨⟨ref, stored, ?_⟩, ?_, fun _ => ⟨group, ?_, ?_⟩⟩
      · rw [copies]
        simp [firstRef, secondRef]
      · rw [copies]
        simpa [without] using thumbnail
      · -- only the group of the two assets has one of them as a member
        have only : ∀ other ∈ store.groups, other.duplicateType = .exact ∧
            (∃ asset ∈ store.copiesOf contentHash,
              ∃ member ∈ store.membershipsOf asset.mediaAssetId,
                member.mediaDuplicateGroupId = other.mediaDuplicateGroupId) →
            other.mediaDuplicateGroupId = group.mediaDuplicateGroupId := by
          rintro other - ⟨-, asset, inside, membership, among, same⟩
          rw [← same]
          rw [copies, List.mem_cons, List.mem_singleton] at inside
          have listed := List.mem_map_of_mem
            (f := MediaDuplicateMember.mediaDuplicateGroupId) among
          rcases inside with rfl | rfl
          · rw [firstIn] at listed
            exact List.mem_singleton.mp listed
          · rw [secondIn] at listed
            exact List.mem_singleton.mp listed
        refine sound.groupKey.filter_eq_singleton group.mediaDuplicateGroupId
          (fun other inside selected => ⟨trivial, only other inside (of_decide_eq_true selected)⟩)
          member (decide_eq_true ⟨exact, first, by simp [copies], ?_⟩)
        have listed : group.mediaDuplicateGroupId ∈ (store.membershipsOf first.mediaAssetId).map
            MediaDuplicateMember.mediaDuplicateGroupId := by
          rw [firstIn]
          exact List.mem_singleton.mpr rfl
        exact List.mem_map.mp listed
      · have counted : ∀ asset ∈ [first, second], (store.membershipsOf asset.mediaAssetId).countP
            (fun member => member.mediaDuplicateGroupId = group.mediaDuplicateGroupId) =
            ((store.membershipsOf asset.mediaAssetId).map
              MediaDuplicateMember.mediaDuplicateGroupId).countP
                fun id => id = group.mediaDuplicateGroupId := fun asset _ => by
          rw [List.countP_map]
          rfl
        rw [copies]
        simp only [List.forall_mem_cons, List.not_mem_nil, false_implies, implies_true, and_true]
        rw [counted first (by simp), counted second (by simp), firstIn, secondIn]
        simp

end MediaStore

namespace MediaEnvironment

variable {env : MediaEnvironment} {store : MediaStore} {call : IngestCall}

/-- The rows of a new asset. -/
theorem sound_asset (sound : store.Sound env.ids) {asset : IngestedAsset} (more : Nat)
    (assetId : asset.mediaAssetId = env.ids.uuid store.drawn) :
    (∀ row ∈ store.assets ++ [asset], ∃ k < store.drawn + (more + 1),
      row.mediaAssetId = env.ids.uuid k) ∧
    PrimaryKey (fun asset : IngestedAsset => asset.mediaAssetId) (store.assets ++ [asset]) := by
  refine ⟨fun row member => ?_, UniqueIndex.insert sound.assetKey fun _ row member _ same => ?_⟩
  · rcases List.mem_append.mp member with old | new
    · obtain ⟨k, below, drawn⟩ := sound.assetIds row old
      exact ⟨k, by omega, drawn⟩
    · rw [List.mem_singleton.mp new]
      exact ⟨store.drawn, by omega, assetId⟩
  · exact MediaStore.ne_of_drawn (sound.assetIds row member) 0 (same.trans assetId)

/-- A first copy keeps the store sound. -/
theorem sound_new (sound : store.Sound env.ids) {asset : IngestedAsset} {variant : MediaVariant}
    (assetId : asset.mediaAssetId = env.ids.uuid store.drawn)
    (variantId : variant.mediaAssetId = env.ids.uuid store.drawn)
    (files : List (List String × Bytes)) :
    MediaStore.Sound env.ids { store with
      drawn := store.drawn + 2
      assets := store.assets ++ [asset]
      files := files
      variants := store.variants ++ [variant] } where
  assetIds := (sound_asset sound 1 assetId).1
  assetKey := (sound_asset sound 1 assetId).2
  groupIds group member := by
    obtain ⟨k, below, drawn⟩ := sound.groupIds group member
    exact ⟨k, by simp only; omega, drawn⟩
  groupKey := sound.groupKey
  variantIds row member := by
    rcases List.mem_append.mp member with old | new
    · obtain ⟨k, below, drawn⟩ := sound.variantIds row old
      exact ⟨k, by simp only; omega, drawn⟩
    · rw [List.mem_singleton.mp new]
      exact ⟨store.drawn, by simp only; omega, variantId⟩
  memberIds member inside := by
    obtain ⟨k, below, drawn⟩ := sound.memberIds member inside
    exact ⟨k, by simp only; omega, drawn⟩

/-- A later copy keeps the store sound, with its group and its members. -/
theorem sound_duplicate (sound : store.Sound env.ids) {asset original : IngestedAsset}
    {group : MediaDuplicateGroup} {first second : MediaDuplicateMember}
    (stored : original ∈ store.assets)
    (assetId : asset.mediaAssetId = env.ids.uuid store.drawn)
    (groupId : group.mediaDuplicateGroupId = env.ids.uuid (store.drawn + 1))
    (firstId : first.mediaAssetId = original.mediaAssetId)
    (secondId : second.mediaAssetId = env.ids.uuid store.drawn) :
    MediaStore.Sound env.ids { store with
      drawn := store.drawn + 4
      assets := store.assets ++ [asset]
      groups := store.groups ++ [group]
      members := store.members ++ [first, second] } where
  assetIds := (sound_asset sound 3 assetId).1
  assetKey := (sound_asset sound 3 assetId).2
  groupIds row member := by
    rcases List.mem_append.mp member with old | new
    · obtain ⟨k, below, drawn⟩ := sound.groupIds row old
      exact ⟨k, by simp only; omega, drawn⟩
    · rw [List.mem_singleton.mp new]
      exact ⟨store.drawn + 1, by simp only; omega, groupId⟩
  groupKey := UniqueIndex.insert sound.groupKey fun _ row member _ same =>
    MediaStore.ne_of_drawn (sound.groupIds row member) 1 (same.trans groupId)
  variantIds row member := by
    obtain ⟨k, below, drawn⟩ := sound.variantIds row member
    exact ⟨k, by simp only; omega, drawn⟩
  memberIds row member := by
    rcases List.mem_append.mp member with old | new
    · obtain ⟨k, below, drawn⟩ := sound.memberIds row old
      exact ⟨k, by simp only; omega, drawn⟩
    · rcases List.mem_cons.mp new with rfl | last
      · obtain ⟨k, below, drawn⟩ := sound.assetIds original stored
        exact ⟨k, by simp only; omega, firstId.trans drawn⟩
      · rw [List.mem_singleton.mp last]
        exact ⟨store.drawn, by simp only; omega, secondId⟩

variable {contentHash : String} {content : Bytes} {n : Nat}

/-- A new asset is a copy of its own content only. -/
theorem copiesOf_append (store next : MediaStore) {asset : IngestedAsset}
    (assets : next.assets = store.assets ++ [asset]) (contentHash : String) :
    next.copiesOf contentHash = store.copiesOf contentHash ++
      if asset.contentHash = contentHash then [asset] else [] := by
  rw [MediaStore.copiesOf, assets, List.filter_append, List.filter_singleton, MediaStore.copiesOf]
  by_cases same : asset.contentHash = contentHash
  · rw [if_pos same, decide_eq_true same]
    rfl
  · rw [if_neg same, decide_eq_false same]
    rfl

/-- A new content is kept once, and the others as before. -/
theorem kept_new (injective : Function.Injective env.sha256) (sound : store.Sound env.ids)
    {asset : IngestedAsset} {variant : MediaVariant} {body thumbnail : Bytes}
    {ref thumbnailRef : List String}
    (assetId : asset.mediaAssetId = env.ids.uuid store.drawn)
    (hashed : asset.contentHash = env.sha256 body) (shared : asset.storageRef = some ref)
    (variantId : variant.mediaAssetId = env.ids.uuid store.drawn)
    (kind : variant.variantType = .thumbnail) (named : ref.getLast? = some "original")
    (other : thumbnailRef.getLast? ≠ some "original")
    (kept : store.Kept (env.sha256 content) content n) (unseen : content = body → n = 0) :
    MediaStore.Kept { store with
      drawn := store.drawn + 2
      assets := store.assets ++ [asset]
      files := store.files ++ [(ref, body), (thumbnailRef, thumbnail)]
      variants := store.variants ++ [variant] }
      (env.sha256 content) content (n + if body = content then 1 else 0) := by
  have copies := fun next assets => @copiesOf_append store next asset assets (env.sha256 content)
  by_cases same : body = content
  · subst same
    obtain rfl := unseen rfl
    rw [if_pos rfl, Nat.zero_add]
    cases kept with
    | absent none unstored =>
        refine .once asset ref ?_ shared ?_ ?_ ?_
        · rw [copies _ rfl, none, if_pos hashed, List.nil_append]
        · rw [MediaStore.originals] at unstored ⊢
          rw [List.filter_append, unstored]
          simp [named, other]
        · have old : store.thumbnailsOf (env.ids.uuid store.drawn) = [] :=
            sound.thumbnailsOf_drawn 0
          rw [MediaStore.thumbnailsOf] at old ⊢
          rw [List.filter_append, assetId, old]
          simp [variantId, kind]
        · rw [assetId]
          exact sound.membershipsOf_drawn 0
  · rw [if_neg same, Nat.add_zero]
    have otherHash : asset.contentHash ≠ env.sha256 content := fun equal =>
      same (injective (hashed.symm.trans equal))
    refine kept.frame ?_ ?_ (fun old member => ?_) (fun _ _ => rfl) fun _ member => member
    · rw [copies _ rfl, if_neg otherHash, List.append_nil]
    · rw [MediaStore.originals, MediaStore.originals, List.filter_append]
      simp [same, other]
    · have drawn : old.mediaAssetId ≠ env.ids.uuid store.drawn :=
        MediaStore.ne_of_drawn (sound.assetIds old (List.mem_of_mem_filter member)) 0
      rw [MediaStore.thumbnailsOf, MediaStore.thumbnailsOf, List.filter_append]
      simp [variantId, Ne.symm drawn]

/-- A repeated content is kept twice, and the others as before. -/
theorem kept_duplicate (injective : Function.Injective env.sha256) (sound : store.Sound env.ids)
    {asset original : IngestedAsset} {group : MediaDuplicateGroup}
    {first second : MediaDuplicateMember} {body : Bytes}
    (stored : store.copiesOf (env.sha256 body) = [original])
    (assetId : asset.mediaAssetId = env.ids.uuid store.drawn)
    (hashed : asset.contentHash = env.sha256 body)
    (shared : asset.storageRef = original.storageRef) (exact : group.duplicateType = .exact)
    (firstId : first.mediaAssetId = original.mediaAssetId)
    (secondId : second.mediaAssetId = env.ids.uuid store.drawn)
    (firstGroup : first.mediaDuplicateGroupId = group.mediaDuplicateGroupId)
    (secondGroup : second.mediaDuplicateGroupId = group.mediaDuplicateGroupId)
    (kept : store.Kept (env.sha256 content) content n) (seen : content = body → n = 1) :
    MediaStore.Kept { store with
      drawn := store.drawn + 4
      assets := store.assets ++ [asset]
      groups := store.groups ++ [group]
      members := store.members ++ [first, second] }
      (env.sha256 content) content (n + if body = content then 1 else 0) := by
  have copies := fun next assets => @copiesOf_append store next asset assets (env.sha256 content)
  have inside : original ∈ store.copiesOf (env.sha256 body) := by simp [stored]
  have old : original.mediaAssetId ≠ env.ids.uuid store.drawn :=
    MediaStore.ne_of_drawn (sound.assetIds original (List.mem_of_mem_filter inside)) 0
  by_cases same : body = content
  · subst same
    obtain rfl := seen rfl
    rw [if_pos rfl]
    cases kept with
    | once only ref one ownRef kept thumbnail alone =>
        obtain rfl : only = original := by simpa [one] using stored
        refine .twice only asset ref group ?_ ownRef (shared.trans ownRef) kept thumbnail ?_
          (List.mem_append_right _ (List.mem_singleton.mpr rfl)) exact ?_ ?_
        · rw [copies _ rfl, one, if_pos hashed]
          rfl
        · rw [assetId]
          exact sound.thumbnailsOf_drawn 0
        · rw [MediaStore.membershipsOf] at alone ⊢
          rw [List.filter_append, alone]
          simp [firstId, secondId, Ne.symm old, firstGroup]
        · have none : store.membershipsOf (env.ids.uuid store.drawn) = [] :=
            sound.membershipsOf_drawn 0
          rw [MediaStore.membershipsOf] at none ⊢
          rw [List.filter_append, assetId, none]
          simp [firstId, secondId, old, secondGroup]
  · rw [if_neg same, Nat.add_zero]
    have otherHash : asset.contentHash ≠ env.sha256 content := fun equal =>
      same (injective (hashed.symm.trans equal))
    refine kept.frame ?_ rfl (fun _ _ => rfl) (fun other member => ?_)
      (List.subset_append_left _ _)
    · rw [copies _ rfl, if_neg otherHash, List.append_nil]
    · have apart := sound.ne_of_hash (fun equal => same (injective equal)) member inside
      have drawn : other.mediaAssetId ≠ env.ids.uuid store.drawn :=
        MediaStore.ne_of_drawn (sound.assetIds other (List.mem_of_mem_filter member)) 0
      rw [MediaStore.membershipsOf, MediaStore.membershipsOf, List.filter_append]
      simp [firstId, secondId, apart, Ne.symm drawn]

/-! ## Runs -/

section Runs

variable {sources : List Source} {observations : List Uuid} {calls : List IngestCall}

theorem references_concat (calls : List IngestCall) (call : IngestCall) (content : Bytes) :
    references (calls ++ [call]) content =
      references calls content + if call.body = content then 1 else 0 := by
  rw [references, List.countP_append, List.countP_singleton, references]
  simp only [decide_eq_true_eq]

/-- A store in which every content is kept as often as it was referenced. -/
structure Tracks (env : MediaEnvironment) (sources : List Source) (observations : List Uuid)
    (calls : List IngestCall) (store : MediaStore) : Prop where
  sources : store.sources = sources
  observations : store.observations = observations
  sound : store.Sound env.ids
  kept : ∀ content, store.Kept (env.sha256 content) content (references calls content)

theorem tracks_empty (env : MediaEnvironment) (sources : List Source)
    (observations : List Uuid) :
    Tracks env sources observations [] (MediaStore.empty sources observations) where
  sources := rfl
  observations := rfl
  sound := ⟨by simp [MediaStore.empty], by simp [MediaStore.empty], by simp [MediaStore.empty],
    by simp [MediaStore.empty], uniqueIndex_nil, uniqueIndex_nil⟩
  kept _ := .absent rfl rfl

/-- A first or a second reference to a content succeeds, and the content is kept once more. -/
theorem Tracks.ingest (injective : Function.Injective env.sha256)
    (tracks : Tracks env sources observations calls store)
    (admissible : env.Admissible sources observations call)
    (few : references calls call.body ≤ 1) :
    env.Succeeds store call ∧
      Tracks env sources observations (calls ++ [call]) (env.ingestStep store call) := by
  obtain ⟨rfl, rfl, sound, kept⟩ := tracks
  have own := kept call.body
  have none_or_one : references calls call.body = 0 ∨ references calls call.body = 1 := by omega
  rcases none_or_one with zero | one
  · rw [zero] at own
    have absent : store.copiesOf (env.sha256 call.body) = [] :=
      List.length_eq_zero_iff.mp own.length_copiesOf
    obtain ⟨asset, variant, ref, thumbnailRef, thumbnail, outcome, assetId, hashed, shared,
      variantId, kind, named, other⟩ := ingest_new admissible absent
    refine ⟨⟨asset, congrArg Prod.fst outcome⟩, ?_⟩
    rw [ingestStep, outcome]
    exact ⟨rfl, rfl, sound_new sound assetId variantId _, fun content => by
      rw [references_concat]
      exact kept_new injective sound assetId hashed shared variantId kind named other
        (kept content) fun same => same ▸ zero⟩
  · rw [one] at own
    cases own with
    | once original ref copies ownRef stored thumbnail alone =>
        obtain ⟨asset, group, first, second, outcome, assetId, hashed, shared, groupId, exact,
          firstId, secondId, firstGroup, secondGroup⟩ := ingest_duplicate admissible copies alone
        refine ⟨⟨asset, congrArg Prod.fst outcome⟩, ?_⟩
        have inside : original ∈ store.assets := List.mem_of_mem_filter
          (by rw [copies]; exact List.mem_singleton.mpr rfl :
            original ∈ store.copiesOf (env.sha256 call.body))
        rw [ingestStep, outcome]
        exact ⟨rfl, rfl, sound_duplicate sound inside assetId groupId firstId secondId,
          fun content => by
            rw [references_concat]
            exact kept_duplicate injective sound copies assetId hashed shared exact firstId
              secondId firstGroup secondGroup (kept content) fun same => same ▸ one⟩

/-- The references so far succeed as long as no content has more than two of them. -/
theorem tracks_run (injective : Function.Injective env.sha256)
    (admissible : ∀ call ∈ calls, env.Admissible sources observations call) :
    (Permitted env.ingestStep env.Succeeds (MediaStore.empty sources observations) calls ↔
      ∀ content, references calls content ≤ 2) ∧
    ((∀ content, references calls content ≤ 2) → Tracks env sources observations calls
      (run env.ingestStep (MediaStore.empty sources observations) calls)) := by
  induction calls using List.reverseRecOn with
  | nil => exact ⟨by simp [references], fun _ => tracks_empty env sources observations⟩
  | append_singleton calls call ih =>
      obtain ⟨permitted, tracks⟩ := ih fun other member =>
        admissible other (List.mem_append_left _ member)
      have here := admissible call (List.mem_append_right _ (List.mem_singleton.mpr rfl))
      have split : (∀ content, references (calls ++ [call]) content ≤ 2) ↔
          (∀ content, references calls content ≤ 2) ∧ references calls call.body ≤ 1 := by
        simp only [references_concat]
        constructor
        · intro few
          refine ⟨fun content => (Nat.le_add_right _ _).trans (few content), ?_⟩
          have own := few call.body
          rw [if_pos rfl] at own
          omega
        · rintro ⟨few, own⟩ content
          split
          · rename_i same
            subst same
            omega
          · exact few content
      refine ⟨?_, fun few => ?_⟩
      · rw [permitted_append, permitted, split, permitted_cons]
        refine and_congr_right fun few => ?_
        constructor
        · rintro ⟨succeeds, -⟩
          by_contra several
          have copies := ((tracks few).kept call.body).length_copiesOf
          obtain ⟨sources, observations, -, -⟩ := tracks few
          exact ingest_third (by rwa [sources, observations]) (by omega) succeeds
        · exact fun own => ⟨((tracks few).ingest injective here own).1, permitted_nil _⟩
      · obtain ⟨before, own⟩ := split.mp few
        rw [run_append]
        exact ((tracks before).ingest injective here own).2

end Runs

/-- **Exact duplicates.** References to decodable images on allowed hosts, in any order and
with any bytes, all succeed and keep each content once, with one thumbnail, one file and one
group of its assets, exactly when no content is referenced more than twice. -/
theorem media_ingested_exactly_iff (env : MediaEnvironment)
    (injective : Function.Injective env.sha256) (sources : List Source)
    (observations : List Uuid) (calls : List IngestCall)
    (admissible : ∀ call ∈ calls, env.Admissible sources observations call) :
    env.IngestsExactly (MediaStore.empty sources observations) calls ↔
      ∀ content, references calls content ≤ 2 := by
  obtain ⟨permitted, tracks⟩ := tracks_run injective admissible
  refine ⟨fun exactly => permitted.mp exactly.succeeds, fun few => ⟨permitted.mpr few, ?_⟩⟩
  exact fun content present =>
    ((tracks few).kept content).keepsContent (tracks few).sound present

/-! ## Photos -/

/-- The bytes as characters. -/
def bytesText (data : Bytes) : String := String.ofList (data.map fun byte => Char.ofNat byte.toNat)

/-- Different bytes have different texts. -/
theorem bytesText_injective : Function.Injective bytesText := by
  intro first second same
  have letters : Function.Injective fun byte : UInt8 => Char.ofNat byte.toNat := by
    intro left right equal
    have values := congrArg Char.toNat equal
    have valid : ∀ byte : UInt8, byte.toNat.isValidChar := fun byte =>
      .inl (byte.toNat_lt.trans (by decide))
    have value : ∀ byte : UInt8, (Char.ofNat byte.toNat).toNat = byte.toNat := fun byte => by
      rw [Char.ofNat, dif_pos (valid byte)]
      rfl
    exact UInt8.toNat_inj.mp ((value left).symm.trans (values.trans (value right)))
  exact List.map_injective_iff.mpr letters (String.ofList_injective same)

/-- A pipeline that decodes JPEG files. -/
def photoPipeline : MediaEnvironment where
  ids := countingIds
  sha256 := bytesText
  decode data :=
    if [0xFF, 0xD8, 0xFF].isPrefixOf data then some ⟨800, 600, [0xFF, 0xD8, 0xFF], 400, 300⟩
    else none
  checks := ⟨id, fun _ => true⟩
  lower := List.map Char.toLower
  uuidText id := toString id
  monthFolders _ := ["2026", "08"]

/-- A reference to a photo on the allowed host. -/
def photoCall (url : String) (body : Bytes) : IngestCall where
  sourceId := 1
  sourceUrl := url
  allowedDomains := ["cdn.example.com"]
  policyVersion := "p1"
  body := body
  now := 5

/-- The bytes of a photo. -/
def photo : Bytes := [0xFF, 0xD8, 0xFF, 0xE0]

/-- A photo from an allowed host is admissible. -/
theorem photoCall_admissible {url : String}
    (allowed : photoPipeline.validateUrl url ["cdn.example.com"] = .ok ()) :
    photoPipeline.Admissible [⟨1, "FIXTURE"⟩] [] (photoCall url photo) where
  allowed := allowed
  short := (by decide : photo.length ≤ maxAssetBytes)
  typed := ⟨("image/jpeg", "JPEG"), by rfl⟩
  decodes := ⟨_, rfl⟩
  source := ⟨_, List.mem_singleton.mpr rfl, rfl⟩
  observation := by simp [photoCall]

/-- Two references to one photo keep it once, in one group. -/
theorem two_references_keep_photo : photoPipeline.IngestsExactly
    (MediaStore.empty [⟨1, "FIXTURE"⟩] [])
    [photoCall "https://cdn.example.com/a.jpg" photo,
      photoCall "https://cdn.example.com/b.jpg" photo] := by
  refine (media_ingested_exactly_iff photoPipeline bytesText_injective [⟨1, "FIXTURE"⟩] [] _
    ?_).mpr fun content => List.countP_le_length
  simp only [List.forall_mem_cons, List.not_mem_nil, false_implies, implies_true, and_true]
  exact ⟨photoCall_admissible (by rfl), photoCall_admissible (by rfl)⟩

/-- A third reference to a photo fails. -/
theorem third_reference_fails : ¬photoPipeline.IngestsExactly
    (MediaStore.empty [⟨1, "FIXTURE"⟩] [])
    [photoCall "https://cdn.example.com/a.jpg" photo,
      photoCall "https://cdn.example.com/b.jpg" photo,
      photoCall "https://cdn.example.com/c.jpg" photo] := by
  intro exactly
  have admissible : ∀ call ∈ [photoCall "https://cdn.example.com/a.jpg" photo,
      photoCall "https://cdn.example.com/b.jpg" photo,
      photoCall "https://cdn.example.com/c.jpg" photo],
      photoPipeline.Admissible [⟨1, "FIXTURE"⟩] [] call := by
    simp only [List.forall_mem_cons, List.not_mem_nil, false_implies, implies_true, and_true]
    exact ⟨photoCall_admissible (by rfl), photoCall_admissible (by rfl),
      photoCall_admissible (by rfl)⟩
  have few := (tracks_run bytesText_injective admissible).1.mp exactly.succeeds photo
  exact absurd few (by decide)

end MediaEnvironment

end RentalAgent
