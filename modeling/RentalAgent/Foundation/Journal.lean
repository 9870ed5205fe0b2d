import Mathlib.Data.List.Basic

/-! # Journals with keys

A journal keeps each key once: posting a key that is already there does nothing, as an
insertion does that ignores conflicts on a unique key. The entries of a class are as
many as were posted just when no post of the class repeated a key (`countP_postAll_iff`).
-/

namespace Journal

variable {Key : Type*} [DecidableEq Key] {keys posts : List Key} {key : Key}

/-- Posting one key. -/
def post (keys : List Key) (key : Key) : List Key :=
  if key ∈ keys then keys else keys ++ [key]

/-- Posting keys in order. -/
def postAll (keys posts : List Key) : List Key := posts.foldl post keys

@[simp] theorem postAll_nil (keys : List Key) : postAll keys [] = keys := rfl

@[simp] theorem postAll_cons (keys : List Key) (key : Key) (posts : List Key) :
    postAll keys (key :: posts) = postAll (post keys key) posts := rfl

theorem postAll_append (keys first second : List Key) :
    postAll keys (first ++ second) = postAll (postAll keys first) second :=
  List.foldl_append

theorem post_of_mem (member : key ∈ keys) : post keys key = keys := if_pos member

theorem post_of_not_mem (fresh : key ∉ keys) : post keys key = keys ++ [key] := if_neg fresh

/-- After a post the keys are those from before and the one posted. -/
theorem mem_post {other : Key} : other ∈ post keys key ↔ other ∈ keys ∨ other = key := by
  by_cases member : key ∈ keys
  · rw [post_of_mem member]
    constructor
    · exact .inl
    · rintro (old | rfl)
      · exact old
      · exact member
  · rw [post_of_not_mem member, List.mem_append, List.mem_singleton]

theorem mem_postAll {other : Key} : other ∈ postAll keys posts ↔ other ∈ keys ∨ other ∈ posts := by
  induction posts generalizing keys with
  | nil => simp
  | cons key rest ih => rw [postAll_cons, ih, mem_post, List.mem_cons, or_assoc]

/-- The entries of a class come from the posts of the class. -/
theorem filter_postAll (counted : Key → Bool) (keys posts : List Key) :
    (postAll keys posts).filter counted =
      postAll (keys.filter counted) (posts.filter counted) := by
  induction posts generalizing keys with
  | nil => rfl
  | cons key rest ih =>
      rw [postAll_cons, ih]
      cases chosen : counted key with
      | true =>
          rw [List.filter_cons_of_pos chosen, postAll_cons]
          congr 1
          by_cases member : key ∈ keys
          · rw [post_of_mem member, post_of_mem (List.mem_filter.mpr ⟨member, chosen⟩)]
          · rw [post_of_not_mem member, List.filter_append,
              post_of_not_mem fun inside => member (List.mem_filter.mp inside).1]
            simp [chosen]
      | false =>
          rw [List.filter_cons_of_neg (by simp [chosen])]
          congr 1
          by_cases member : key ∈ keys
          · rw [post_of_mem member]
          · rw [post_of_not_mem member, List.filter_append]
            simp [chosen]

/-- Posts add at most one key each. -/
theorem length_postAll_le (keys posts : List Key) :
    (postAll keys posts).length ≤ keys.length + posts.length := by
  induction posts generalizing keys with
  | nil => exact Nat.le_refl _
  | cons key rest ih =>
      have grown : (post keys key).length ≤ keys.length + 1 := by
        unfold post
        split <;> simp
      have later := ih (post keys key)
      rw [postAll_cons, List.length_cons]
      omega

/-- Every post is an entry just when no post repeats a key. -/
theorem length_postAll_iff : (postAll keys posts).length = keys.length + posts.length ↔
    posts.Nodup ∧ ∀ key ∈ posts, key ∉ keys := by
  induction posts generalizing keys with
  | nil => simp
  | cons key rest ih =>
      rw [postAll_cons, List.length_cons, List.nodup_cons, List.forall_mem_cons]
      by_cases member : key ∈ keys
      · have short := length_postAll_le keys rest
        rw [post_of_mem member]
        refine iff_of_false (by omega) fun fresh => fresh.2.1 member
      · have longer : (post keys key).length = keys.length + 1 := by
          simp [post_of_not_mem member]
        have counts : (postAll (post keys key) rest).length = keys.length + (rest.length + 1) ↔
            (postAll (post keys key) rest).length = (post keys key).length + rest.length := by
          rw [longer]
          omega
        rw [counts, ih]
        constructor
        · rintro ⟨distinct, fresh⟩
          refine ⟨⟨fun again => fresh key again (mem_post.mpr (.inr rfl)), distinct⟩, member,
            fun other inside old => fresh other inside (mem_post.mpr (.inl old))⟩
        · rintro ⟨⟨apart, distinct⟩, _, fresh⟩
          refine ⟨distinct, fun other inside posted => ?_⟩
          rcases mem_post.mp posted with old | rfl
          · exact fresh other inside old
          · exact apart inside

/-- **Counting rule.** Every post of a class is an entry just when no post of the class
repeats a key. -/
theorem countP_postAll_iff (counted : Key → Bool) :
    (postAll keys posts).countP counted = keys.countP counted + posts.countP counted ↔
      (posts.filter counted).Nodup ∧ ∀ key ∈ posts, counted key = true → key ∉ keys := by
  rw [List.countP_eq_length_filter, List.countP_eq_length_filter, List.countP_eq_length_filter,
    filter_postAll, length_postAll_iff]
  refine and_congr_right fun _ => ?_
  constructor
  · intro fresh key member chosen old
    exact fresh key (List.mem_filter.mpr ⟨member, chosen⟩) (List.mem_filter.mpr ⟨old, chosen⟩)
  · intro fresh key member old
    obtain ⟨inside, chosen⟩ := List.mem_filter.mp member
    exact fresh key inside chosen (List.mem_filter.mp old).1

end Journal
