import RentalAgent.Canonical.History

/-! # Native ids and URLs

The lookup of an identity goes by native id when the observation has one and by URL
otherwise, and only native ids are unique. The identities of a history are
`Registered` with its visits; from that follows when all observations of a URL stay
with one link: a URL seen with and without its native id needs the native id first,
and first at this URL (`History.identity_agrees_iff`).
-/

namespace RentalAgent

open Relational Transition

/-- The row carries the native id. -/
def SourceObservation.carries (sourceId : Uuid) (nativeId : String) (row : SourceObservation) :
    Bool :=
  row.sourceId = sourceId && row.sourceNativeId = some nativeId

/-- The row carries the native id, or lacks one and is of the URL. -/
def SourceObservation.mentions (sourceId : Uuid) (nativeId url : String)
    (row : SourceObservation) : Bool :=
  row.sourceId = sourceId &&
    (row.sourceNativeId = some nativeId || row.sourceNativeId = none && row.sourceUrl = url)

/-- The row starts the identity. -/
def SourceObservation.Starts (row : SourceObservation) (entry : LinkIdentity) : Prop :=
  row.opens entry.linkId entry.listingId = entry

/-- One URL of a source never comes with two native ids. -/
def OneListingPerUrl (rows : List SourceObservation) : Prop :=
  ∀ first ∈ rows, ∀ second ∈ rows, first.sourceId = second.sourceId →
    first.sourceUrl = second.sourceUrl → ∀ nativeId ∈ first.sourceNativeId,
      ∀ other ∈ second.sourceNativeId, nativeId = other

instance (rows : List SourceObservation) : Decidable (OneListingPerUrl rows) :=
  inferInstanceAs (Decidable (∀ first ∈ rows, _))

/-- Where a URL comes with and without its native id, the first row that carries the
native id, or lacks one at this URL, carries it and is of this URL. -/
def NativeFirst (rows : List SourceObservation) : Prop :=
  ∀ native ∈ rows, ∀ plain ∈ rows, native.sourceId = plain.sourceId →
    native.sourceUrl = plain.sourceUrl → plain.sourceNativeId = none →
      ∀ nativeId ∈ native.sourceNativeId, ∀ first ∈
        rows.find? (SourceObservation.mentions native.sourceId nativeId native.sourceUrl),
          first.sourceNativeId = some nativeId ∧ first.sourceUrl = native.sourceUrl

instance (rows : List SourceObservation) : Decidable (NativeFirst rows) :=
  inferInstanceAs (Decidable (∀ native ∈ rows, _))

/-- All visits of a URL end on one link and one listing. -/
def UrlsAgree (visits : List Visit) : Prop :=
  ∀ first ∈ visits, ∀ second ∈ visits, first.row.sourceId = second.row.sourceId →
    first.row.sourceUrl = second.row.sourceUrl →
      first.outcome.listingSourceLinkId = second.outcome.listingSourceLinkId ∧
        first.outcome.canonicalListingId = second.outcome.canonicalListingId

/-- The identities are those that the visits opened, in order. -/
structure Registered (identities : List LinkIdentity) (visits : List Visit) : Prop where
  created : ∀ entry ∈ identities, ∃ visit ∈ visits, visit.row.Starts entry
  visited : ∀ before visit after, visits = before ++ visit :: after → ∃ entry ∈ identities,
    entry.identifies visit.row = true ∧
      visit.outcome.listingSourceLinkId = some entry.linkId ∧
      visit.outcome.canonicalListingId = some entry.listingId ∧
      ∃ first ∈ before ++ [visit], first.row.Starts entry
  native : UniqueIndex (fun entry => entry.sourceNativeId ≠ none)
    (fun entry => (entry.sourceId, entry.sourceNativeId)) identities
  url : UniqueIndex (fun entry => entry.sourceNativeId = none)
    (fun entry => (entry.sourceId, entry.sourceUrl)) identities
  firstNative : ∀ entry ∈ identities, ∀ nativeId, entry.sourceNativeId = some nativeId → ∀ first,
    (visits.map Visit.row).find? (SourceObservation.carries entry.sourceId nativeId) = some first →
      first.sourceUrl = entry.sourceUrl
  firstPlain : ∀ entry ∈ identities, entry.sourceNativeId = none → ∀ nativeId first,
    (visits.map Visit.row).find?
        (SourceObservation.mentions entry.sourceId nativeId entry.sourceUrl) = some first →
      ¬ (first.sourceNativeId = some nativeId ∧ first.sourceUrl = entry.sourceUrl)

variable {identities : List LinkIdentity} {visits : List Visit} {visit : Visit}
  {row : SourceObservation} {entry : LinkIdentity}

/-! ## First rows -/

section First

variable {Row : Type} {rows more : List Row} {query narrower : Row → Bool} {found : Row}

theorem find?_append_of_mem (member : found ∈ rows) (holds : query found = true) :
    (rows ++ more).find? query = rows.find? query := by
  obtain ⟨first, same⟩ := Option.isSome_iff_exists.mp
    (List.find?_isSome.mpr ⟨found, member, holds⟩)
  rw [List.find?_append, same, Option.some_or]

/-- The first row that satisfies a condition is the first of a narrower condition that
it satisfies. -/
theorem find?_narrow (first : rows.find? query = some found) (holds : narrower found = true)
    (implies : ∀ other, narrower other = true → query other = true) :
    rows.find? narrower = some found := by
  obtain ⟨_, before, after, same, earlier⟩ := List.find?_eq_some_iff_append.mp first
  refine List.find?_eq_some_iff_append.mpr ⟨holds, before, after, same, fun other member => ?_⟩
  have fails := earlier other member
  simp only [Bool.not_eq_true'] at fails ⊢
  by_contra narrow
  rw [implies other (by simpa using narrow)] at fails
  contradiction

end First

theorem mentions_of_carries {sourceId : Uuid} {nativeId url : String}
    (carries : row.carries sourceId nativeId = true) :
    row.mentions sourceId nativeId url = true := by
  simp only [SourceObservation.carries, Bool.and_eq_true, decide_eq_true_eq] at carries
  simp [SourceObservation.mentions, carries.1, carries.2]

/-! ## One visit -/

theorem Registered.empty : Registered [] [] where
  created _ member := (List.not_mem_nil member).elim
  visited before visit after split := by simp at split
  native := uniqueIndex_nil
  url := uniqueIndex_nil
  firstNative _ member := (List.not_mem_nil member).elim
  firstPlain _ member := (List.not_mem_nil member).elim

/-- Each row of a visit has its identity. -/
theorem Registered.of_mem (registered : Registered identities visits) (member : visit ∈ visits) :
    ∃ entry ∈ identities, entry.identifies visit.row = true ∧
      visit.outcome.listingSourceLinkId = some entry.linkId ∧
      visit.outcome.canonicalListingId = some entry.listingId := by
  obtain ⟨before, after, split⟩ := List.append_of_mem member
  obtain ⟨entry, inside, identifies, link, listing, _⟩ :=
    registered.visited before visit after split
  exact ⟨entry, inside, identifies, link, listing⟩

/-- The splits of a longer list of visits. -/
theorem append_singleton_split {before after : List Visit} {new : Visit}
    (split : visits ++ [new] = before ++ visit :: after) :
    (∃ rest, visits = before ++ visit :: rest) ∨ before = visits ∧ visit = new := by
  rcases List.eq_nil_or_concat after with rfl | ⟨rest, last, rfl⟩
  · obtain ⟨same, equal⟩ := List.append_inj' split rfl
    exact .inr ⟨same.symm, (List.cons.inj equal).1.symm⟩
  · rw [List.concat_eq_append, ← List.cons_append, ← List.append_assoc] at split
    exact .inl ⟨rest, (List.append_inj' split rfl).1⟩

theorem carries_iff {sourceId : Uuid} {nativeId : String} :
    row.carries sourceId nativeId = true ↔
      row.sourceId = sourceId ∧ row.sourceNativeId = some nativeId := by
  simp [SourceObservation.carries]

theorem mentions_iff {sourceId : Uuid} {nativeId url : String} :
    row.mentions sourceId nativeId url = true ↔ row.sourceId = sourceId ∧
      (row.sourceNativeId = some nativeId ∨ row.sourceNativeId = none ∧ row.sourceUrl = url) := by
  simp [SourceObservation.mentions]

theorem identifies_of_native {nativeId : String} (native : row.sourceNativeId = some nativeId) :
    entry.identifies row = true ↔
      entry.sourceId = row.sourceId ∧ entry.sourceNativeId = some nativeId := by
  simp [LinkIdentity.identifies, native]

theorem identifies_of_plain (plain : row.sourceNativeId = none) :
    entry.identifies row = true ↔
      entry.sourceId = row.sourceId ∧ entry.sourceUrl = row.sourceUrl := by
  simp [LinkIdentity.identifies, plain]

theorem SourceObservation.Starts.columns (starts : row.Starts entry) :
    row.sourceId = entry.sourceId ∧ row.sourceNativeId = entry.sourceNativeId ∧
      row.sourceUrl = entry.sourceUrl :=
  ⟨congrArg LinkIdentity.sourceId starts, congrArg LinkIdentity.sourceNativeId starts,
    congrArg LinkIdentity.sourceUrl starts⟩

theorem SourceObservation.Starts.identifies (starts : row.Starts entry) :
    entry.identifies row = true := by
  obtain ⟨source, native, url⟩ := starts.columns
  cases stated : row.sourceNativeId with
  | none => exact (identifies_of_plain stated).mpr ⟨source.symm, url.symm⟩
  | some nativeId => exact (identifies_of_native stated).mpr ⟨source.symm, native.symm.trans stated⟩

/-- The first row that carries a native id is settled once the identity is there. -/
theorem Registered.find?_carries (registered : Registered identities visits)
    (member : entry ∈ identities) {nativeId : String}
    (native : entry.sourceNativeId = some nativeId) (more : List SourceObservation) :
    (visits.map Visit.row ++ more).find? (SourceObservation.carries entry.sourceId nativeId) =
      (visits.map Visit.row).find? (SourceObservation.carries entry.sourceId nativeId) := by
  obtain ⟨visit, inside, starts⟩ := registered.created entry member
  obtain ⟨source, same, _⟩ := starts.columns
  exact find?_append_of_mem (List.mem_map_of_mem inside)
    (carries_iff.mpr ⟨source, same.trans native⟩)

/-- So is the first row that mentions an identity without a native id. -/
theorem Registered.find?_mentions (registered : Registered identities visits)
    (member : entry ∈ identities) (plain : entry.sourceNativeId = none) (nativeId : String)
    (more : List SourceObservation) :
    (visits.map Visit.row ++ more).find?
        (SourceObservation.mentions entry.sourceId nativeId entry.sourceUrl) =
      (visits.map Visit.row).find?
        (SourceObservation.mentions entry.sourceId nativeId entry.sourceUrl) := by
  obtain ⟨visit, inside, starts⟩ := registered.created entry member
  obtain ⟨source, same, url⟩ := starts.columns
  exact find?_append_of_mem (List.mem_map_of_mem inside)
    (mentions_iff.mpr ⟨source, .inr ⟨same.trans plain, url⟩⟩)

/-- A visit with a known identity. -/
theorem Registered.known (registered : Registered identities visits) (member : entry ∈ identities)
    (identifies : entry.identifies visit.row = true)
    (link : visit.outcome.listingSourceLinkId = some entry.linkId)
    (listing : visit.outcome.canonicalListingId = some entry.listingId) :
    Registered identities (visits ++ [visit]) where
  created other inside := by
    obtain ⟨first, earlier, starts⟩ := registered.created other inside
    exact ⟨first, List.mem_append_left _ earlier, starts⟩
  visited before later after split := by
    rcases append_singleton_split split with ⟨rest, old⟩ | ⟨rfl, rfl⟩
    · exact registered.visited before later rest old
    · obtain ⟨first, earlier, starts⟩ := registered.created entry member
      exact ⟨entry, member, identifies, link, listing, first, List.mem_append_left _ earlier,
        starts⟩
  native := registered.native
  url := registered.url
  firstNative other inside nativeId native first found := by
    rw [List.map_append, registered.find?_carries inside native] at found
    exact registered.firstNative other inside nativeId native first found
  firstPlain other inside plain nativeId first found := by
    rw [List.map_append, registered.find?_mentions inside plain] at found
    exact registered.firstPlain other inside plain nativeId first found

/-- No visit carries the native id of a row that no identity identifies. -/
theorem Registered.uncarried (registered : Registered identities visits) {row : SourceObservation}
    (unknown : ∀ other ∈ identities, other.identifies row ≠ true) {nativeId : String}
    (native : row.sourceNativeId = some nativeId) :
    (visits.map Visit.row).find? (SourceObservation.carries row.sourceId nativeId) = none := by
  refine List.find?_eq_none.mpr fun earlier earlierMem carries => ?_
  obtain ⟨old, oldMem, rfl⟩ := List.mem_map.mp earlierMem
  obtain ⟨source, same⟩ := carries_iff.mp carries
  obtain ⟨other, inside, identifies, _⟩ := registered.of_mem oldMem
  obtain ⟨otherSource, otherNative⟩ := (identifies_of_native same).mp identifies
  exact unknown other inside
    ((identifies_of_native native).mpr ⟨otherSource.trans source, otherNative⟩)

/-- The first visit to mention a native id or the address of a row without one does not
have both, when no identity identifies the row. -/
theorem Registered.mentioned_apart (registered : Registered identities visits)
    {row first : SourceObservation} (unknown : ∀ other ∈ identities, other.identifies row ≠ true)
    (plain : row.sourceNativeId = none) {nativeId : String}
    (found : (visits.map Visit.row).find?
      (SourceObservation.mentions row.sourceId nativeId row.sourceUrl) = some first) :
    ¬ (first.sourceNativeId = some nativeId ∧ first.sourceUrl = row.sourceUrl) := by
  rintro ⟨native, url⟩
  obtain ⟨source, _⟩ := mentions_iff.mp (List.find?_some found)
  obtain ⟨old, oldMem, oldRow⟩ := List.mem_map.mp (List.mem_of_find?_eq_some found)
  obtain ⟨owner, ownerMem, identifies, _⟩ := registered.of_mem oldMem
  rw [oldRow] at identifies
  obtain ⟨ownerSource, ownerNative⟩ := (identifies_of_native native).mp identifies
  have carried := find?_narrow found (carries_iff.mpr ⟨source, native⟩)
    fun _ => mentions_of_carries
  have ownerUrl := registered.firstNative owner ownerMem nativeId ownerNative first
    (ownerSource.trans source ▸ carried)
  exact unknown owner ownerMem ((identifies_of_plain plain).mpr
    ⟨ownerSource.trans source, ownerUrl.symm.trans url⟩)

/-- A visit that opens an identity. -/
theorem Registered.opened (registered : Registered identities visits) {linkId listingId : Uuid}
    (absent : identities.filter (LinkIdentity.identifies visit.row) = [])
    (link : visit.outcome.listingSourceLinkId = some linkId)
    (listing : visit.outcome.canonicalListingId = some listingId) :
    Registered (identities ++ [visit.row.opens linkId listingId]) (visits ++ [visit]) := by
  have unknown : ∀ other ∈ identities, other.identifies visit.row ≠ true :=
    List.filter_eq_nil_iff.mp absent
  have starts : visit.row.Starts (visit.row.opens linkId listingId) := rfl
  have newest :
      visit.row.opens linkId listingId ∈ identities ++ [visit.row.opens linkId listingId] :=
    List.mem_append_right _ (List.mem_singleton_self _)
  refine ⟨?created, ?visited, ?native, ?url, ?firstNative, ?firstPlain⟩
  case created =>
    intro other inside
    rcases List.mem_append.mp inside with old | new
    · obtain ⟨first, earlier, begins⟩ := registered.created other old
      exact ⟨first, List.mem_append_left _ earlier, begins⟩
    · cases List.mem_singleton.mp new
      exact ⟨visit, List.mem_append_right _ (List.mem_singleton_self _), starts⟩
  case visited =>
    intro before later after split
    rcases append_singleton_split split with ⟨rest, old⟩ | ⟨rfl, rfl⟩
    · obtain ⟨other, inside, identified⟩ := registered.visited before later rest old
      exact ⟨other, List.mem_append_left _ inside, identified⟩
    · exact ⟨_, newest, starts.identifies, link, listing, later,
        List.mem_append_right _ (List.mem_singleton_self _), starts⟩
  case native =>
    refine registered.native.insert fun stated other inside _ same => ?_
    obtain ⟨nativeId, native⟩ := Option.ne_none_iff_exists'.mp stated
    obtain ⟨source, equal⟩ := Prod.mk.inj same
    exact unknown other inside ((identifies_of_native native).mpr ⟨source, equal.trans native⟩)
  case url =>
    refine registered.url.insert fun plain other inside _ same => ?_
    obtain ⟨source, equal⟩ := Prod.mk.inj same
    exact unknown other inside ((identifies_of_plain plain).mpr ⟨source, equal⟩)
  case firstNative =>
    intro other inside nativeId native first found
    rw [List.map_append] at found
    rcases List.mem_append.mp inside with old | new
    · rw [registered.find?_carries old native] at found
      exact registered.firstNative other old nativeId native first found
    · cases List.mem_singleton.mp new
      have before : (visits.map Visit.row).find? (SourceObservation.carries
          (visit.row.opens linkId listingId).sourceId nativeId) = none :=
        registered.uncarried unknown native
      rw [List.find?_append, before, Option.none_or] at found
      cases List.mem_singleton.mp (List.mem_of_find?_eq_some found)
      rfl
  case firstPlain =>
    intro other inside plain nativeId first found
    rw [List.map_append] at found
    rcases List.mem_append.mp inside with old | new
    · rw [registered.find?_mentions old plain] at found
      exact registered.firstPlain other old plain nativeId first found
    · cases List.mem_singleton.mp new
      rw [List.find?_append] at found
      cases earlier : (visits.map Visit.row).find? (SourceObservation.mentions
          (visit.row.opens linkId listingId).sourceId nativeId
          (visit.row.opens linkId listingId).sourceUrl) with
      | none =>
          rw [earlier, Option.none_or] at found
          cases List.mem_singleton.mp (List.mem_of_find?_eq_some found)
          rintro ⟨native, _⟩
          cases plain.symm.trans native
      | some row =>
          rw [earlier, Option.some_or] at found
          cases found
          exact registered.mentioned_apart unknown plain earlier

/-- One more visit keeps the register. -/
theorem Registered.step {db next : Database} (registered : Registered db.identities visits)
    (visited : Database.Visited db next visit) :
    Registered next.identities (visits ++ [visit]) := by
  cases visited with
  | known found same link listing =>
      obtain ⟨inside, identifies⟩ :=
        List.mem_filter.mp (found ▸ List.mem_singleton_self _)
      rw [same]
      exact registered.known inside identifies link listing
  | opened absent added link listing =>
      rw [added]
      exact registered.opened absent link listing

/-! ## Agreement -/

/-- Native ids come first in the beginning of a history, when they do in the whole. -/
theorem NativeFirst.of_append {rows more : List SourceObservation}
    (ordered : NativeFirst (rows ++ more)) : NativeFirst rows := by
  intro native nativeMem plain plainMem source url without nativeId stated first found
  refine ordered native (List.mem_append_left _ nativeMem) plain (List.mem_append_left _ plainMem)
    source url without nativeId stated first ?_
  rw [Option.mem_def] at found ⊢
  rw [List.find?_append, found, Option.some_or]

/-- Each identity has a row that started it. -/
theorem Registered.starter (registered : Registered identities visits)
    (member : entry ∈ identities) :
    ∃ row ∈ visits.map Visit.row, row.Starts entry := by
  obtain ⟨visit, inside, starts⟩ := registered.created entry member
  exact ⟨visit.row, List.mem_map_of_mem inside, starts⟩

/-- Where native ids come first, a URL has no identity without its native id beside
the one with it. -/
theorem Registered.not_mixed (registered : Registered identities visits)
    (ordered : NativeFirst (visits.map Visit.row)) {native plain : LinkIdentity}
    (nativeMem : native ∈ identities) (plainMem : plain ∈ identities)
    (source : native.sourceId = plain.sourceId) (url : native.sourceUrl = plain.sourceUrl)
    {nativeId : String} (stated : native.sourceNativeId = some nativeId) :
    plain.sourceNativeId ≠ none := by
  intro without
  obtain ⟨nativeRow, nativeRowMem, nativeStarts⟩ := registered.starter nativeMem
  obtain ⟨plainRow, plainRowMem, plainStarts⟩ := registered.starter plainMem
  obtain ⟨nativeSource, nativeNative, nativeUrl⟩ := nativeStarts.columns
  obtain ⟨plainSource, plainNative, plainUrl⟩ := plainStarts.columns
  have mentioned : nativeRow.mentions nativeRow.sourceId nativeId nativeRow.sourceUrl = true :=
    mentions_iff.mpr ⟨rfl, .inl (nativeNative.trans stated)⟩
  obtain ⟨first, found⟩ := Option.isSome_iff_exists.mp
    (List.find?_isSome.mpr ⟨nativeRow, nativeRowMem, mentioned⟩)
  have settled := ordered nativeRow nativeRowMem plainRow plainRowMem
    (by rw [nativeSource, source, plainSource]) (by rw [nativeUrl, url, plainUrl])
    (plainNative.trans without) nativeId (nativeNative.trans stated) first found
  rw [nativeSource, nativeUrl, source, url] at found
  exact registered.firstPlain plain plainMem without nativeId first found
    ⟨settled.1, settled.2.trans (nativeUrl.trans url)⟩

/-- Where native ids come first, a URL has one identity. -/
theorem Registered.entry_unique (registered : Registered identities visits)
    (denotes : OneListingPerUrl (visits.map Visit.row))
    (ordered : NativeFirst (visits.map Visit.row)) {other : LinkIdentity}
    (member : entry ∈ identities) (otherMem : other ∈ identities)
    (source : entry.sourceId = other.sourceId) (url : entry.sourceUrl = other.sourceUrl) :
    entry = other := by
  cases stated : entry.sourceNativeId with
  | none =>
      cases otherStated : other.sourceNativeId with
      | none =>
          exact UniqueIndex.eq_of_mem registered.url member otherMem stated otherStated
            (Prod.ext source url)
      | some nativeId =>
          exact (registered.not_mixed ordered otherMem member source.symm url.symm otherStated
            stated).elim
  | some nativeId =>
      cases otherStated : other.sourceNativeId with
      | none =>
          exact (registered.not_mixed ordered member otherMem source url stated otherStated).elim
      | some otherId =>
          obtain ⟨row, rowMem, starts⟩ := registered.starter member
          obtain ⟨otherRow, otherRowMem, otherStarts⟩ := registered.starter otherMem
          obtain ⟨rowSource, rowNative, rowUrl⟩ := starts.columns
          obtain ⟨otherSource, otherNative, otherUrl⟩ := otherStarts.columns
          have same := denotes row rowMem otherRow otherRowMem
            (by rw [rowSource, source, otherSource])
            (by rw [rowUrl, url, otherUrl]) nativeId (rowNative.trans stated) otherId
            (otherNative.trans otherStated)
          exact UniqueIndex.eq_of_mem registered.native member otherMem (by simp [stated])
            (by simp [otherStated]) (Prod.ext source (by rw [stated, otherStated, same]))

/-- Where native ids come first, no lookup finds several identities. -/
theorem Registered.lookup (registered : Registered identities visits)
    (denotes : OneListingPerUrl (visits.map Visit.row))
    (ordered : NativeFirst (visits.map Visit.row)) (row : SourceObservation) :
    (identities.filter (LinkIdentity.identifies row)).length ≤ 1 := by
  cases stated : row.sourceNativeId with
  | some nativeId =>
      refine registered.native.length_filter_le_one (row.sourceId, some nativeId) ?_
      intro entry _ identifies
      obtain ⟨source, native⟩ := (identifies_of_native stated).mp identifies
      exact ⟨by simp [native], Prod.ext source native⟩
  | none =>
      match found : identities.filter (LinkIdentity.identifies row) with
      | [] => simp
      | [_] => simp
      | first :: second :: rest =>
          have apart : first ≠ second := by
            have nodup : identities.Pairwise (· ≠ ·) := by
              refine (registered.native.and registered.url).imp fun {first second} apart same => ?_
              subst same
              cases native : first.sourceNativeId with
              | none => exact apart.2 native native rfl
              | some _ => exact apart.1 (by simp [native]) (by simp [native]) rfl
            have selected := nodup.filter (LinkIdentity.identifies row)
            rw [found] at selected
            exact (List.pairwise_cons.mp selected).1 second List.mem_cons_self
          have inside : ∀ entry ∈ [first, second], entry ∈ identities ∧
              entry.sourceId = row.sourceId ∧ entry.sourceUrl = row.sourceUrl := by
            intro entry member
            have listed : entry ∈ identities.filter (LinkIdentity.identifies row) := by
              rw [found]
              simp only [List.mem_cons, List.not_mem_nil, or_false] at member ⊢
              exact member.imp_right .inl
            obtain ⟨known, identifies⟩ := List.mem_filter.mp listed
            exact ⟨known, (identifies_of_plain stated).mp identifies⟩
          obtain ⟨firstMem, firstSource, firstUrl⟩ := inside first (by simp)
          obtain ⟨secondMem, secondSource, secondUrl⟩ := inside second (by simp)
          exact (apart (registered.entry_unique denotes ordered firstMem secondMem
            (firstSource.trans secondSource.symm) (firstUrl.trans secondUrl.symm))).elim

/-- The link of the first row that carries the native id is of its URL. -/
theorem Registered.url_of_first (registered : Registered identities visits)
    (member : entry ∈ identities) {nativeId url : String}
    (stated : entry.sourceNativeId = some nativeId) {first : SourceObservation}
    (found : (visits.map Visit.row).find?
      (SourceObservation.mentions entry.sourceId nativeId url) = some first)
    (native : first.sourceNativeId = some nativeId) : first.sourceUrl = entry.sourceUrl := by
  obtain ⟨source, _⟩ := mentions_iff.mp (List.find?_some found)
  exact registered.firstNative entry member nativeId stated first
    (find?_narrow found (carries_iff.mpr ⟨source, native⟩) fun _ => mentions_of_carries)

/-- Where native ids come first, the identity of a row is of the URL of the row, if some
row of the URL lacks the native id. -/
theorem Registered.url_of_visit (registered : Registered identities visits)
    (ordered : NativeFirst (visits.map Visit.row)) {plain : Visit} (visitMem : visit ∈ visits)
    (plainMem : plain ∈ visits) (source : visit.row.sourceId = plain.row.sourceId)
    (url : visit.row.sourceUrl = plain.row.sourceUrl) (without : plain.row.sourceNativeId = none)
    (member : entry ∈ identities) (identifies : entry.identifies visit.row = true) :
    entry.sourceId = visit.row.sourceId ∧ entry.sourceUrl = visit.row.sourceUrl := by
  cases stated : visit.row.sourceNativeId with
  | none => exact (identifies_of_plain stated).mp identifies
  | some nativeId =>
      obtain ⟨entrySource, entryNative⟩ := (identifies_of_native stated).mp identifies
      have mentioned : visit.row.mentions visit.row.sourceId nativeId visit.row.sourceUrl = true :=
        mentions_iff.mpr ⟨rfl, .inl stated⟩
      obtain ⟨first, found⟩ := Option.isSome_iff_exists.mp
        (List.find?_isSome.mpr ⟨visit.row, List.mem_map_of_mem visitMem, mentioned⟩)
      obtain ⟨firstNative, firstUrl⟩ := ordered visit.row (List.mem_map_of_mem visitMem) plain.row
        (List.mem_map_of_mem plainMem) source url without nativeId stated first found
      rw [← entrySource] at found
      exact ⟨entrySource, (registered.url_of_first member entryNative found firstNative).symm.trans
        firstUrl⟩

/-- Where a URL denotes one listing and native ids come first, the registered visits agree on
their URLs. -/
theorem Registered.agree (registered : Registered identities visits)
    (denotes : OneListingPerUrl (visits.map Visit.row))
    (ordered : NativeFirst (visits.map Visit.row)) : UrlsAgree visits := by
  intro first firstMem second secondMem source url
  obtain ⟨entry, member, identifies, link, listing⟩ := registered.of_mem firstMem
  obtain ⟨other, otherMem, otherIdentifies, otherLink, otherListing⟩ := registered.of_mem secondMem
  suffices same : entry = other by
    rw [link, listing, otherLink, otherListing, same]
    exact ⟨rfl, rfl⟩
  by_cases mixed : first.row.sourceNativeId = none ∨ second.row.sourceNativeId = none
  · obtain ⟨plain, plainMem, plainSource, plainUrl, without⟩ : ∃ plain ∈ visits,
        first.row.sourceId = plain.row.sourceId ∧ first.row.sourceUrl = plain.row.sourceUrl ∧
          plain.row.sourceNativeId = none := by
      rcases mixed with without | without
      · exact ⟨first, firstMem, rfl, rfl, without⟩
      · exact ⟨second, secondMem, source, url, without⟩
    obtain ⟨entrySource, entryUrl⟩ := registered.url_of_visit ordered firstMem plainMem plainSource
      plainUrl without member identifies
    obtain ⟨otherSource, otherUrl⟩ := registered.url_of_visit ordered secondMem plainMem
      (source.symm.trans plainSource) (url.symm.trans plainUrl) without otherMem otherIdentifies
    exact registered.entry_unique denotes ordered member otherMem
      (entrySource.trans (source.trans otherSource.symm)) (entryUrl.trans (url.trans otherUrl.symm))
  · rw [not_or] at mixed
    obtain ⟨nativeId, stated⟩ := Option.ne_none_iff_exists'.mp mixed.1
    obtain ⟨otherId, otherStated⟩ := Option.ne_none_iff_exists'.mp mixed.2
    obtain ⟨entrySource, entryNative⟩ := (identifies_of_native stated).mp identifies
    obtain ⟨otherSource, otherNative⟩ := (identifies_of_native otherStated).mp otherIdentifies
    have same := denotes first.row (List.mem_map_of_mem firstMem) second.row
      (List.mem_map_of_mem secondMem) source url nativeId stated otherId otherStated
    exact UniqueIndex.eq_of_mem registered.native member otherMem (by simp [entryNative])
      (by simp [otherNative]) (Prod.ext (entrySource.trans (source.trans otherSource.symm))
        (by rw [entryNative, otherNative, same]))

/-- Where the visits of a URL agree, native ids come first. -/
theorem Registered.nativeFirst (registered : Registered identities visits)
    (distinct : (identities.map LinkIdentity.linkId).Nodup) (agree : UrlsAgree visits) :
    NativeFirst (visits.map Visit.row) := by
  intro native nativeMem plain plainMem source url without nativeId stated first found
  obtain ⟨visit, visitMem, rfl⟩ := List.mem_map.mp nativeMem
  obtain ⟨plainVisit, plainVisitMem, rfl⟩ := List.mem_map.mp plainMem
  obtain ⟨entry, member, identifies, link, _⟩ := registered.of_mem visitMem
  obtain ⟨entrySource, entryNative⟩ := (identifies_of_native stated).mp identifies
  -- a visit of the URL has the link of the visit that carries the native id
  have shared : ∀ other ∈ visits, other.row.sourceId = visit.row.sourceId →
      other.row.sourceUrl = visit.row.sourceUrl → ∀ owner ∈ identities,
        other.outcome.listingSourceLinkId = some owner.linkId → owner = entry := by
    intro other otherMem otherSource otherUrl owner ownerMem ownerLink
    have same := (agree other otherMem visit visitMem otherSource otherUrl).1
    rw [ownerLink, link] at same
    exact List.inj_on_of_nodup_map distinct ownerMem member (Option.some.inj same)
  have entryUrl : entry.sourceUrl = visit.row.sourceUrl := by
    obtain ⟨owner, ownerMem, owns, ownerLink, _⟩ := registered.of_mem plainVisitMem
    obtain rfl := shared plainVisit plainVisitMem source.symm url.symm owner ownerMem ownerLink
    exact ((identifies_of_plain without).mp owns).2.trans url.symm
  rw [← entrySource] at found
  obtain ⟨firstSource, firstNative | ⟨firstPlain, firstUrl⟩⟩ :=
    mentions_iff.mp (List.find?_some found)
  · exact ⟨firstNative,
      (registered.url_of_first member entryNative found firstNative).trans entryUrl⟩
  · -- the identity of the first row was started by then, by a row that mentions it
    obtain ⟨_, before, after, split, earlier⟩ := List.find?_eq_some_iff_append.mp found
    obtain ⟨olds, rest, splitVisits, rfl, tailRows⟩ := List.map_eq_append_iff.mp split
    obtain ⟨middle, later, rfl, rfl, _⟩ := List.map_eq_cons_iff.mp tailRows
    obtain ⟨owner, ownerMem, _, ownerLink, _, starter, starterMem, starts⟩ :=
      registered.visited olds middle later splitVisits
    obtain rfl := shared middle (splitVisits ▸ by simp) (firstSource.trans entrySource) firstUrl
      owner
      ownerMem ownerLink
    obtain ⟨starterSource, starterNative, _⟩ := starts.columns
    rcases List.mem_append.mp starterMem with old | new
    · have unmentioned := earlier starter.row (List.mem_map_of_mem old)
      simp [mentions_iff.mpr ⟨starterSource, .inl (starterNative.trans entryNative)⟩]
        at unmentioned
    · obtain rfl := List.mem_singleton.mp new
      cases (firstPlain.symm.trans starterNative).trans entryNative

/-! ## Histories -/

namespace History

variable {ids : IdSupply} {unicode : UnicodeTables} {observations : List SourceObservation}
  {overrides : List HumanOverride}

/-- Every visit keeps the identities registered. -/
theorem registered_preserved (ids : IdSupply) (unicode : UnicodeTables) :
    Preserved (step ids unicode) (fun _ _ => True)
      fun history => Registered history.db.identities history.visits := by
  intro history request registered _
  rcases step_cases ids unicode history request with idle | ⟨next, visit, visited, stepped⟩
  · rw [idle]
    exact registered
  · rw [stepped]
    exact registered.step (Database.visit_cases visited)

theorem registered_start (observations : List SourceObservation) (overrides : List HumanOverride) :
    Registered (start observations overrides).db.identities (start observations overrides).visits :=
  Registered.empty

/-- No lookup of a processable row fails, and all visits of a URL end on one link and
one listing. -/
def IdentityAgrees (ids : IdSupply) (unicode : UnicodeTables) (start : History)
    (requests : List Request) : Prop :=
  (∀ moment ∈ moments (step ids unicode) start requests, ∀ row failure,
    moment.1.db.observation? moment.2.observationId = some row → row.processable = true →
      moment.1.db.findLink row ≠ .error failure) ∧
  UrlsAgree (run (step ids unicode) start requests).visits

/-- **Source identity.** When one URL denotes one listing of its source, no lookup fails
and the visits of each URL agree on their link and listing just when native ids come
first. -/
theorem identity_agrees_iff (ids : IdSupply) (unicode : UnicodeTables)
    (observations : List SourceObservation) (overrides : List HumanOverride)
    (denotes : OneListingPerUrl observations) (requests : List Request) :
    IdentityAgrees ids unicode (start observations overrides) requests ↔
      NativeFirst (run (step ids unicode) (start observations overrides) requests).rows := by
  have everywhere : Permitted (step ids unicode) (fun _ _ => True) (start observations overrides)
      requests := fun _ _ => trivial
  have stored : Stored observations (start observations overrides) :=
    ⟨rfl, fun _ member => (List.not_mem_nil member).elim⟩
  have denotesOn : ∀ history, Stored observations history → OneListingPerUrl history.rows :=
    fun history kept first firstMem second secondMem =>
      denotes first (kept.2 first firstMem) second (kept.2 second secondMem)
  have registered := (registered_preserved ids unicode).run
    (registered_start observations overrides) everywhere
  have final := (stored_preserved ids unicode observations).run stored everywhere
  constructor
  · rintro ⟨_, agree⟩
    have distinct := ((tracked_preserved ids unicode).run
      (tracked_start ids observations overrides) everywhere).linkIds
    refine registered.nativeFirst ?_ agree
    rwa [Database.identities, List.map_map]
  · intro ordered
    refine ⟨fun moment member row failure _ _ fails => ?_,
      registered.agree (denotesOn _ final) ordered⟩
    obtain ⟨more, split⟩ := visits_of_moment ids unicode moment member
    have onTheWay := (registered_preserved ids unicode).moments
      (registered_start observations overrides) everywhere moment member
    have keptOnTheWay := (stored_preserved ids unicode observations).moments stored everywhere
      moment
      member
    rw [rows, split, List.map_append] at ordered
    have single := onTheWay.lookup (denotesOn _ keptOnTheWay) ordered.of_append row
    exact absurd (Database.findLink_fails_iff.mp fails).2 (Nat.not_lt.mpr single)

/-! ## One URL with and without its native id -/

/-- An observation of one URL, with or without the native id. -/
def seenAs (id : Uuid) (nativeId : Option String) : SourceObservation :=
  { Database.observedAt id 1 "u" none with sourceNativeId := nativeId }

def request (observationId : Uuid) : Request where
  scan := fun _ => 0
  now := 0
  discoveryMethod := .direct
  observationId := observationId

/-- The native id is missing first, then present, then missing again. -/
def mixedRows : List SourceObservation := [seenAs 1 none, seenAs 2 (some "n"), seenAs 3 none]

theorem identity_agrees_iff_nativeFirst :
    IdentityAgrees countingIds Database.asciiTables (start mixedRows [])
      [request 2, request 1, request 3] :=
  (identity_agrees_iff countingIds Database.asciiTables mixedRows [] (by decide)
    [request 2, request 1, request 3]).mpr (by decide)

/-- The second call opens a second link of the URL, and the third one fails. -/
theorem second_link_of_url :
    OneListingPerUrl mixedRows ∧
      ¬ IdentityAgrees countingIds Database.asciiTables (start mixedRows [])
        [request 1, request 2, request 3] := by
  refine ⟨by decide, fun agrees => ?_⟩
  exact agrees.1 _ (.tail _ (.tail _ (.head _))) (seenAs 3 none) .multipleResultsFound rfl rfl rfl

end History

end RentalAgent
