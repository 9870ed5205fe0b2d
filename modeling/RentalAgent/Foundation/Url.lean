import Mathlib.Data.List.DropRight
import RentalAgent.Foundation.Letters

/-! # Splitting and joining URLs

`urlparse` and `urlunparse` of the standard library on lists of characters. A URL that is
put together from clean parts splits into them again (`urlparse_render`). What stands behind
a semicolon in the last segment of a path is no part of the path (`cutParams`), but a slash
at the end makes the last segment empty and the semicolon a letter of the path
(`cutParams_append_slash`).
-/

namespace Url

/-- What the checks of a host consult: the normalization NFKC, and which hosts may stand in
brackets. -/
structure HostChecks where
  nfkc : List Char → List Char
  isBracketed : List Char → Bool

/-- The exception of the checks. -/
inductive UrlError
  | valueError
  deriving DecidableEq

/-- `ParseResult`. -/
structure ParsedUrl where
  scheme : List Char
  netloc : List Char
  path : List Char
  params : List Char
  query : List Char
  fragment : List Char
  deriving DecidableEq

/-! ## Splitting -/

/-- The characters that a URL cannot hide: tabs and line breaks are removed. -/
def isRemoved (c : Char) : Bool := c = '\t' || c = '\r' || c = '\n'

/-- The text without tabs and line breaks. -/
def clean (text : List Char) : List Char := text.filter fun c => !isRemoved c

/-- A character of a scheme after its first letter. -/
def isSchemeChar (c : Char) : Bool := c.isAlphanum || c = '+' || c = '-' || c = '.'

/-- The scheme in lower case and what follows it, when there is one. -/
def splitScheme (url : List Char) : List Char × List Char :=
  let scheme := url.takeWhile (· ≠ ':')
  if scheme.length < url.length && scheme.head?.any Char.isAlpha && scheme.all isSchemeChar then
    (scheme.map Char.toLower, url.drop (scheme.length + 1))
  else ([], url)

/-- A character that ends a network location. -/
def endsNetloc (c : Char) : Bool := c = '/' || c = '?' || c = '#'

/-- The network location, and what follows it. -/
def splitNetloc : List Char → List Char × List Char
  | '/' :: '/' :: rest =>
      (rest.takeWhile fun c => !endsNetloc c, rest.dropWhile fun c => !endsNetloc c)
  | url => ([], url)

/-- The text before a character, and the text after it. -/
def splitOnce (separator : Char) (text : List Char) : List Char × List Char :=
  (text.takeWhile (· ≠ separator), (text.dropWhile (· ≠ separator)).tail)

/-- What may stand in a network location. -/
def checkNetloc (checks : HostChecks) (netloc : List Char) : Bool :=
  let bare := netloc.filter fun c => c ≠ '@' && c ≠ ':' && c ≠ '#' && c ≠ '?'
  netloc.contains '[' = netloc.contains ']' &&
    (!netloc.contains '[' ||
      checks.isBracketed (splitOnce ']' (splitOnce '[' netloc).2).1) &&
    (netloc.all (·.toNat < 128) || checks.nfkc bare = bare ||
      (checks.nfkc bare).all fun c => !endsNetloc c && c ≠ '@' && c ≠ ':')

/-- What stands after the last slash. -/
def lastSegment (path : List Char) : List Char := path.rtakeWhile (· ≠ '/')

/-- `_splitparams(path)[0]`: the path without its last segment's parameters. -/
def cutParams (path : List Char) : List Char :=
  path.rdropWhile (· ≠ '/') ++ (lastSegment path).takeWhile (· ≠ ';')

/-- `uses_params`. -/
def usesParams : List String :=
  ["", "ftp", "hdl", "prospero", "http", "https", "shttp", "rtsp", "rtsps", "rtspu", "sip",
    "sips", "mms", "sftp", "tel"]

/-- The result for the parts of a URL: the last segment of the path loses its parameters in
the schemes that have them. -/
def ParsedUrl.of (scheme netloc path query fragment : List Char) : ParsedUrl :=
  if String.ofList scheme ∈ usesParams then
    ⟨scheme, netloc, cutParams path, (splitOnce ';' (lastSegment path)).2, query, fragment⟩
  else ⟨scheme, netloc, path, [], query, fragment⟩

/-- `urlparse`. -/
def urlparse (checks : HostChecks) (url : List Char) : Except UrlError ParsedUrl :=
  let url := clean (url.dropWhile (·.toNat ≤ 32))
  let (scheme, url) := splitScheme url
  let (netloc, url) := splitNetloc url
  if checkNetloc checks netloc then
    let (url, fragment) := splitOnce '#' url
    let (path, query) := splitOnce '?' url
    .ok (ParsedUrl.of scheme netloc path query fragment)
  else .error .valueError

/-! ## Joining -/

/-- `urlunparse` of a URL with a scheme and a network location. -/
def urlunparse (url : ParsedUrl) : List Char :=
  let path := if url.params = [] then url.path else url.path ++ ';' :: url.params
  let path := if path.head?.any (· ≠ '/') then '/' :: path else path
  url.scheme ++ ':' :: '/' :: '/' :: url.netloc ++ path ++
    (if url.query = [] then [] else '?' :: url.query) ++
    if url.fragment = [] then [] else '#' :: url.fragment

/-- A URL as it is written: a part that is absent has no separator. -/
def render (scheme netloc path : List Char) (query fragment : Option (List Char)) : List Char :=
  scheme ++ ':' :: '/' :: '/' :: (netloc ++ (path ++
    (query.elim [] ('?' :: ·) ++ fragment.elim [] ('#' :: ·))))

/-- A path that does not run into its neighbours: it is empty or starts with a slash, and has
no separator. -/
structure IsPath (path : List Char) : Prop where
  starts : path = [] ∨ path.head? = some '/'
  separators : ∀ c ∈ path, c ≠ '?' ∧ c ≠ '#'

/-- A scheme begins with a letter. -/
structure IsScheme (scheme : List Char) : Prop where
  starts : scheme.head?.any Char.isAlpha = true
  letters : scheme.all isSchemeChar = true

variable {checks : HostChecks} {scheme netloc path text tail : List Char}
  {query fragment : Option (List Char)}

@[simp] theorem clean_append (text tail : List Char) : clean (text ++ tail) =
    clean text ++ clean tail := List.filter_append ..

theorem mem_clean {c : Char} : c ∈ clean text ↔ c ∈ text ∧ isRemoved c = false := by
  rw [clean, List.mem_filter, Bool.not_eq_true']

theorem splitOnce_append {separator : Char} (free : separator ∉ text) :
    splitOnce separator (text ++ separator :: tail) = (text, tail) := by
  have others : ∀ c ∈ text, decide (c ≠ separator) = true := fun c member =>
    decide_eq_true fun same => free (same ▸ member)
  rw [splitOnce, List.takeWhile_append_of_pos others, List.dropWhile_append_of_pos others]
  simp

theorem splitOnce_of_not_mem {separator : Char} (free : separator ∉ text) :
    splitOnce separator text = (text, []) := by
  have others : ∀ c ∈ text, decide (c ≠ separator) = true := fun c member =>
    decide_eq_true fun same => free (same ▸ member)
  rw [splitOnce, List.takeWhile_eq_self_iff.mpr others, List.dropWhile_eq_nil_iff.mpr others]
  rfl

theorem isRemoved_of_isSchemeChar {c : Char} (inScheme : isSchemeChar c = true) :
    isRemoved c = false := by
  by_contra removed
  simp only [isRemoved, Bool.not_eq_false, Bool.or_eq_true, decide_eq_true_eq] at removed
  rcases removed with (rfl | rfl) | rfl <;> revert inScheme <;> decide

theorem clean_eq_self (none : ∀ c ∈ text, isRemoved c = false) : clean text = text :=
  List.filter_eq_self.mpr fun c member => by rw [none c member, Bool.not_false]

/-- A URL with a scheme is split behind its colon. -/
theorem splitScheme_append (isScheme : IsScheme scheme) (rest : List Char) :
    splitScheme (scheme ++ ':' :: rest) = (scheme.map Char.toLower, rest) := by
  have letters : ∀ c ∈ scheme, decide (c ≠ ':') = true := by
    intro c member
    have inScheme := List.all_eq_true.mp isScheme.letters c member
    refine decide_eq_true fun same => ?_
    rw [same] at inScheme
    exact absurd inScheme (by decide)
  have start : (scheme ++ ':' :: rest).takeWhile (· ≠ ':') = scheme := by
    rw [List.takeWhile_append_of_pos letters, List.takeWhile_cons_of_neg (by simp),
      List.append_nil]
  rw [splitScheme, start, if_pos]
  · rw [← List.drop_drop, List.drop_left]
    rfl
  · simp [isScheme.starts, isScheme.letters]

/-- A network location is split off where its path, query or fragment begins. -/
theorem splitNetloc_append (netlocFree : ∀ c ∈ netloc, endsNetloc c = false)
    (bounded : tail = [] ∨ tail.head?.any endsNetloc = true) :
    splitNetloc ('/' :: '/' :: (netloc ++ tail)) = (netloc, tail) := by
  have free : ∀ c ∈ netloc, (!endsNetloc c) = true := fun c member => by
    rw [netlocFree c member, Bool.not_false]
  rw [splitNetloc, List.takeWhile_append_of_pos free, List.dropWhile_append_of_pos free]
  rcases bounded with rfl | bounded
  · simp
  · cases tail with
    | nil => cases bounded
    | cons c tail =>
        have ends : endsNetloc c = true := bounded
        simp [ends]

/-! ## Paths -/

/-- `path.rstrip("/")`. -/
def dropSlashes (path : List Char) : List Char := path.rdropWhile (· = '/')

theorem cutParams_append_slash (path : List Char) : cutParams (path ++ ['/']) = path ++ ['/'] := by
  rw [cutParams, lastSegment, List.rtakeWhile_concat_neg _ _ _ (by simp),
    List.rdropWhile_concat_neg _ _ _ (by simp)]
  exact List.append_nil _

theorem dropSlashes_append_slash (path : List Char) :
    dropSlashes (path ++ ['/']) = dropSlashes path :=
  List.rdropWhile_concat_pos _ _ _ (by simp)

theorem dropSlashes_append_replicate (path : List Char) (count : Nat) :
    dropSlashes (path ++ List.replicate count '/') = dropSlashes path := by
  induction count with
  | zero => simp
  | succ count ih =>
      rw [List.replicate_succ', ← List.append_assoc, dropSlashes_append_slash, ih]

theorem dropSlashes_idem (path : List Char) : dropSlashes (dropSlashes path) = dropSlashes path :=
  List.rdropWhile_idempotent _ _

theorem prefix_of_dropSlashes (path : List Char) : dropSlashes path <+: path :=
  List.rdropWhile_prefix _ _

/-- A path stays whole just when its last segment has no semicolon. -/
theorem cutParams_eq_self_iff : cutParams path = path ↔ ';' ∉ lastSegment path := by
  have whole : path.rdropWhile (· ≠ '/') ++ lastSegment path = path :=
    List.rdropWhile_append_rtakeWhile
  constructor
  · intro same
    rw [cutParams] at same
    have kept := List.append_cancel_left (same.trans whole.symm)
    exact fun member => absurd (List.takeWhile_eq_self_iff.mp kept _ member) (by simp)
  · intro free
    rw [cutParams, List.takeWhile_eq_self_iff.mpr, whole]
    exact fun c member => decide_eq_true fun same => free (same ▸ member)

/-- A path without parameters is a beginning of the path. -/
theorem prefix_of_cutParams (path : List Char) : cutParams path <+: path := by
  have whole : path.rdropWhile (· ≠ '/') ++ lastSegment path = path :=
    List.rdropWhile_append_rtakeWhile
  obtain ⟨others, split⟩ : (lastSegment path).takeWhile (· ≠ ';') <+: lastSegment path :=
    List.takeWhile_prefix _
  refine ⟨others, ?_⟩
  rw [cutParams, List.append_assoc, split, whole]

theorem mem_splitOnce {separator c : Char} (member : c ∈ (splitOnce separator text).1) :
    c ∈ text ∧ c ≠ separator := by
  refine ⟨(List.takeWhile_sublist _).subset member, ?_⟩
  have kept := List.mem_takeWhile_imp (show c ∈ text.takeWhile (· ≠ separator) from member)
  exact of_decide_eq_true kept

/-- A path has no character that ends it, and none that is removed. -/
theorem path_of_urlparse {checks : HostChecks} {url : List Char} {parsed : ParsedUrl}
    (split : urlparse checks url = .ok parsed) :
    ∀ c ∈ parsed.path, isRemoved c = false ∧ c ≠ '?' ∧ c ≠ '#' := by
  have afterScheme (text : List Char) : (splitScheme text).2.Sublist text := by
    rw [splitScheme]
    split
    · exact List.drop_sublist _ _
    · exact List.Sublist.refl _
  have afterNetloc (text : List Char) : (splitNetloc text).2.Sublist text := by
    unfold splitNetloc
    split
    · exact (List.dropWhile_sublist _).trans
        ((List.sublist_cons_self _ _).trans (List.sublist_cons_self _ _))
    · exact List.Sublist.refl _
  rw [urlparse] at split
  dsimp only at split
  split at split
  · obtain rfl := Except.ok.inj split
    intro c member
    have inPath : c ∈ (splitOnce '?' (splitOnce '#' (splitNetloc (splitScheme
        (clean (url.dropWhile (·.toNat ≤ 32)))).2).2).1).1 := by
      rw [ParsedUrl.of] at member
      split at member
      · exact (prefix_of_cutParams _).subset member
      · exact member
    obtain ⟨beforeHash, noQuestion⟩ := mem_splitOnce inPath
    obtain ⟨inUrl, noHash⟩ := mem_splitOnce beforeHash
    have inText := (afterScheme _).subset ((afterNetloc _).subset inUrl)
    exact ⟨(mem_clean.mp inText).2, noQuestion, noHash⟩
  · cases split

/-! ## Reading what was written -/

/-- A path without its tabs and line breaks is a path. -/
theorem IsPath.clean (isPath : IsPath path) : IsPath (clean path) where
  starts := by
    cases path with
    | nil => exact .inl rfl
    | cons c path =>
        obtain slash : c = '/' := by simpa using isPath.starts
        rw [slash]
        exact .inr rfl
  separators c member := isPath.separators c (mem_clean.mp member).1

/-- What a URL is read as before it is split: a text of clean parts. -/
theorem clean_render (isScheme : IsScheme scheme) :
    clean ((render scheme netloc path query fragment).dropWhile (·.toNat ≤ 32)) =
      render scheme (clean netloc) (clean path) (query.map clean) (fragment.map clean) := by
  have letters : clean scheme = scheme := clean_eq_self fun c member =>
    isRemoved_of_isSchemeChar (List.all_eq_true.mp isScheme.letters c member)
  have stays : (render scheme netloc path query fragment).dropWhile (·.toNat ≤ 32) =
      render scheme netloc path query fragment := by
    cases scheme with
    | nil => exact absurd isScheme.starts (by simp)
    | cons c scheme =>
        refine List.dropWhile_cons_of_neg ?_
        rw [decide_eq_true_eq]
        rcases Letters.isAlpha_iff.mp isScheme.starts with upper | lower
        · have range := Letters.isUpper_iff.mp upper
          omega
        · have range := Letters.isLower_iff.mp lower
          omega
  have bound (text : List Char) :
      clean (':' :: '/' :: '/' :: text) = ':' :: '/' :: '/' :: clean text := rfl
  rw [stays, render, render, clean_append, letters, bound, clean_append, clean_append, clean_append]
  cases query <;> cases fragment <;> rfl

/-- **A URL splits into the parts it was written with.** -/
theorem urlparse_render (isScheme : IsScheme scheme)
    (netlocFree : ∀ c ∈ netloc, endsNetloc c = false) (isPath : IsPath path)
    (queryFree : ∀ text ∈ query, '#' ∉ text) :
    urlparse checks (render scheme netloc path query fragment) =
      if checkNetloc checks (clean netloc) then
        .ok (ParsedUrl.of (scheme.map Char.toLower) (clean netloc) (clean path)
          (clean (query.getD [])) (clean (fragment.getD [])))
      else .error .valueError := by
  have cleanPath := isPath.clean
  have cleanFree : ∀ c ∈ clean netloc, endsNetloc c = false := fun c member =>
    netlocFree c (mem_clean.mp member).1
  have cleanQuery : ∀ text ∈ query.map clean, '#' ∉ text := by
    intro text member
    obtain ⟨original, same, rfl⟩ := Option.map_eq_some_iff.mp member
    exact fun inside => queryFree original same (mem_clean.mp inside).1
  rw [urlparse, clean_render isScheme, render, splitScheme_append isScheme]
  have bounded : ∀ tail : List Char, (tail = [] ∨ tail.head?.any endsNetloc = true) →
      (clean path ++ tail = [] ∨ (clean path ++ tail).head?.any endsNetloc = true) := by
    intro tail ends
    rcases cleanPath.starts with empty | slash
    · rw [empty]
      exact ends
    · obtain ⟨others, split⟩ := List.head?_eq_some_iff.mp slash
      rw [split]
      exact .inr rfl
  have rest : ∀ query fragment : Option (List Char),
      (query.elim [] ('?' :: ·) ++ fragment.elim [] ('#' :: ·) = ([] : List Char) ∨
        (query.elim [] ('?' :: ·) ++ fragment.elim [] ('#' :: ·)).head?.any endsNetloc = true) := by
    rintro (_ | query) (_ | fragment)
    · exact .inl rfl
    · exact .inr rfl
    · exact .inr rfl
    · exact .inr rfl
  have noQuestion : '?' ∉ clean path := fun member => (cleanPath.separators _ member).1 rfl
  have noHash : '#' ∉ clean path := fun member => (cleanPath.separators _ member).2 rfl
  have noHashBefore : '#' ∉ clean path ++ (query.map clean).elim [] ('?' :: ·) := by
    rw [List.mem_append, not_or]
    refine ⟨noHash, ?_⟩
    cases query with
    | none => exact List.not_mem_nil
    | some query =>
        simpa using cleanQuery (clean query) rfl
  have atHash : splitOnce '#' (clean path ++ ((query.map clean).elim [] ('?' :: ·) ++
      (fragment.map clean).elim [] ('#' :: ·))) =
      (clean path ++ (query.map clean).elim [] ('?' :: ·), clean (fragment.getD [])) := by
    rw [← List.append_assoc]
    cases fragment with
    | none =>
        change splitOnce '#' (_ ++ []) = _
        rw [List.append_nil, splitOnce_of_not_mem noHashBefore]
        rfl
    | some fragment => exact splitOnce_append noHashBefore
  have atQuestion : splitOnce '?' (clean path ++ (query.map clean).elim [] ('?' :: ·)) =
      (clean path, clean (query.getD [])) := by
    cases query with
    | none =>
        change splitOnce '?' (_ ++ []) = _
        rw [List.append_nil, splitOnce_of_not_mem noQuestion]
        rfl
    | some query => exact splitOnce_append noQuestion
  simp only [splitNetloc_append cleanFree (bounded _ (rest _ _)), atHash, atQuestion]

end Url
