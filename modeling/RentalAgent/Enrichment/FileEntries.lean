import RentalAgent.Enrichment.Portfolio

/-! # The entries of a company file

Entries are collected in a dictionary under the fingerprints of their names, and only the first
entry of a fingerprint is kept. The name that a model gives is stripped after its fingerprint was
taken, which does not change the fingerprint (`nameFingerprint_strip`), so no two entries of a
file have one (`extractEntries_nodup`).
-/

namespace RentalAgent.Portfolio

variable {unicode : UnicodeTables}

/-! ## Fingerprints -/

/-- Text without the characters of a kind at its ends has none at its ends. -/
theorem dropEnds_idem {α : Type} (p : α → Bool) (text : List α) :
    (((text.dropWhile p).rdropWhile p).dropWhile p).rdropWhile p =
      (text.dropWhile p).rdropWhile p := by
  have starts : ((text.dropWhile p).rdropWhile p).dropWhile p =
      (text.dropWhile p).rdropWhile p := by
    cases trimmed : text.dropWhile p with
    | nil => rfl
    | cons c rest =>
        have kept : p c = false := by
          have present : text.dropWhile p ≠ [] := by
            rw [trimmed]
            exact List.cons_ne_nil _ _
          simpa [trimmed] using List.head_dropWhile_not p present
        rcases List.prefix_cons_iff.mp (List.rdropWhile_prefix p (c :: rest)) with
          empty | ⟨more, same, -⟩
        · rw [empty]
          rfl
        · rw [same, List.dropWhile_cons_of_neg (by simp [kept])]
  rw [starts]
  exact List.rdropWhile_idempotent p _

theorem nameFingerprint_strip (raw : String) :
    nameFingerprint unicode (String.ofList (strip raw.toList)) =
      nameFingerprint unicode raw := by
  rw [nameFingerprint, String.toList_ofList, strip, strip, dropEnds_idem]
  rfl

/-- The entries of a dictionary that has them under their fingerprints. -/
theorem nodup_firstEntries {keyed : List (String × CompanyFileEntry)}
    (keys : ∀ item ∈ keyed, item.1 = nameFingerprint unicode item.2.name) :
    ((firstEntries keyed).map fun entry => nameFingerprint unicode entry.name).Nodup := by
  have same : (firstEntries keyed).map (fun entry => nameFingerprint unicode entry.name) =
      (Dictionary.firsts keyed).map Prod.fst := by
    rw [firstEntries, List.map_map]
    refine List.map_congr_left fun item member => ?_
    obtain ⟨before, after, split, -⟩ := Dictionary.mem_firsts.mp member
    exact (keys item (by simp [split])).symm
  rw [same]
  exact Dictionary.nodup_firsts keyed

/-- No two entries of a file have one fingerprint. -/
theorem extractEntries_nodup (doc : ParsedDocument) (llm : Option CompanyFileModel) :
    ((extractEntries unicode doc llm).1.map fun entry =>
      nameFingerprint unicode entry.name).Nodup := by
  rw [extractEntries]
  split
  · rename_i entries found
    obtain ⟨model, -, read⟩ := Option.bind_eq_some_iff.mp (Option.filter_eq_some_iff.mp found).1
    rw [entriesViaLlm] at read
    split at read
    · cases read
    · split at read
      · cases read
        refine nodup_firstEntries fun item member => ?_
        obtain ⟨entry, -, rfl⟩ := List.mem_map.mp member
        exact (nameFingerprint_strip entry.name).symm
      · cases read
  · refine nodup_firstEntries fun item member => ?_
    obtain ⟨link, -, found⟩ := List.mem_filterMap.mp member
    obtain ⟨name, -, rfl⟩ := Option.map_eq_some_iff.mp found
    rfl

end RentalAgent.Portfolio
