import RouteDocs.Proofs.Files.Directory
import RouteDocs.Proofs.Route.Settled
import RouteDocs.Render.Folder

/-!
# Names of Files and Directories

An endpoint is filed under names in which everything unusual is a hyphen.  Different endpoints can
have the same names, but not if the parts of their URLs are words, alone or in braces.

## Main Definitions

* `Folder.filePlace`: the directory and the name of the file of an endpoint
* `Folder.Named`: the endpoints whose names can be given to a directory and a file
* `Folder.SimplePart`: a part of a URL that is a word, alone or in braces
* `Folder.spelled`: what the parts are in the name of a file
* `Folder.Simple`: the endpoints of a verb whose URL has such parts

## Main Statements

* `Folder.named_iff`: which names cannot be given
* `Folder.endpointId_eq`: the name of a simple endpoint is that of its verb and its parts
* `Folder.spelled_injective`: **the parts can be told from the name**
* `Folder.nodup_filePlace`: simple endpoints are filed under different names

## Design Notes

A part in braces has a hyphen for each brace, and the hyphens at the end of a name are dropped.  So
`spelled` takes along whether a closing brace is still to be written, and the last one never is.
-/

namespace RouteDocs

namespace Folder

/-! ### Names That Can Be Given -/

/-- The directory and the name of the file of an endpoint. -/
def filePlace (e : Endpoint) : List Text :=
  [directoryName e.category, endpointId e ++ ".json"]

/-- The endpoints whose names can be given to a directory and to a file, and whose directory does
not have the name of the index. -/
structure Named (e : Endpoint) : Prop where
  /-- The name of the directory is one. -/
  directory : IsName (directoryName e.category)
  /-- The directory is not in the place of the index. -/
  apart : directoryName e.category ≠ "index.json"
  /-- The name of the file is one. -/
  file : IsName (endpointId e ++ ".json")

/-- The code points of names: letters, digits, underscores, points and hyphens. -/
def isNameChar (c : CodePoint) : Bool :=
  isAlphanumeric c || c == '_' || c == '.' || c == '-'

variable {t : Text} {c : CodePoint} {e : Endpoint}

/-- What stands in names is ASCII and stands in paths. -/
theorem isNameChar_spec (h : isNameChar c = true) : c.val < 0x80 ∧ IsPathChar c ∧ c ≠ '/' := by
  have bounds : 0x2D ≤ c.val ∧ c.val ≤ 0x7A ∧ c.val ≠ 0x2F := by
    simp only [isNameChar, isAlphanumeric, CodePoint.isAsciiLetter, CodePoint.isAsciiDigit,
      Bool.or_eq_true, Bool.and_eq_true, decide_eq_true_eq, beq_iff_eq] at h
    rcases h with (((letter | digit) | rfl) | rfl) | rfl
    · omega
    · omega
    · decide
    · decide
    · decide
  refine ⟨by omega, ⟨by omega, fun surrogate => ?_⟩, ?_⟩
  · simp only [CodePoint.isSurrogate, Bool.and_eq_true, decide_eq_true_eq] at surrogate
    omega
  · rintro rfl
    exact bounds.2.2 rfl

/-- Every code point of an ASCII name is one byte. -/
theorem nameSize_eq_length (h : ∀ c ∈ t, c.val < 0x80) : nameSize t = t.length := by
  have single : ∀ c ∈ t,
      (if isNameByte c then [c.val.toUInt8] else Utf8.encodeOne c).length = 1 := by
    intro c hc
    have ascii := h c hc
    rw [Utf8.encodeOne]
    simp only [ascii, if_true]
    split <;> rfl
  rw [nameSize, List.length_flatMap, List.map_congr_left single]
  simp

/-- A text of such code points is a name unless it is one of a few, or too long. -/
theorem isName_iff (h : ∀ c ∈ t, isNameChar c = true) :
    IsName t ↔ t ≠ [] ∧ t ≠ "." ∧ t ≠ ".." ∧ t.length ≤ maxNameSize := by
  have chars : ∀ c ∈ t, IsPathChar c ∧ c ≠ '/' := fun c hc => (isNameChar_spec (h c hc)).2
  rw [IsName, nameSize_eq_length fun c hc => (isNameChar_spec (h c hc)).1]
  exact ⟨fun ⟨nonempty, dot, dots, short, _⟩ => ⟨nonempty, dot, dots, short⟩,
    fun ⟨nonempty, dot, dots, short⟩ => ⟨nonempty, dot, dots, short, chars⟩⟩

/-- With an ending, such a text is a name unless it is too long. -/
theorem isName_json_iff (h : ∀ c ∈ t, isNameChar c = true) :
    IsName (t ++ ".json") ↔ t.length + 5 ≤ maxNameSize := by
  have ending : (".json" : Text).all isNameChar = true := by decide
  have chars : ∀ c ∈ t ++ ".json", isNameChar c = true := by
    intro c hc
    rcases List.mem_append.mp hc with hc | hc
    · exact h c hc
    · exact List.all_eq_true.mp ending c hc
  have length : (t ++ ".json").length = t.length + 5 := List.length_append
  have apart : ∀ u : Text, u.length < 5 → t ++ ".json" ≠ u := by
    rintro u short rfl
    omega
  rw [isName_iff chars, length]
  exact ⟨fun named => named.2.2.2, fun short =>
    ⟨apart [] (by decide), apart "." (by decide), apart ".." (by decide), short⟩⟩

/-- What is left of a trimmed text is in the text. -/
theorem mem_of_mem_trim {cls : CodePoint → Bool} (h : c ∈ Text.trim cls t) : c ∈ t := by
  have kept := (List.dropWhile_suffix cls).subset (List.mem_reverse.mp h)
  exact (List.dropWhile_suffix cls).subset (List.mem_reverse.mp kept)

theorem isNameChar_of_mem_directoryName {category : Text} (h : c ∈ directoryName category) :
    isNameChar c = true := by
  rw [directoryName] at h
  split at h
  · have general : ("general" : Text).all isNameChar = true := by decide
    exact List.all_eq_true.mp general c h
  · obtain ⟨d, -, rfl⟩ := List.mem_map.mp (mem_of_mem_trim h)
    split
    · assumption
    · decide

theorem directoryName_ne_nil (category : Text) : directoryName category ≠ [] := by
  rw [directoryName]
  split
  · decide
  · next nonempty => exact fun eq => nonempty (List.isEmpty_iff.mpr eq)

/-- The URL in the name of a file. -/
def hyphenated (url : Text) : Text :=
  url.map fun c => if isAlphanumeric c then c else '-'

theorem isNameChar_of_mem_hyphenated {url : Text} (h : c ∈ hyphenated url) :
    isNameChar c = true := by
  obtain ⟨d, -, rfl⟩ := List.mem_map.mp h
  split
  · next usual => simp [isNameChar, usual]
  · decide

variable {v : Verb}

theorem isNameChar_of_mem_endpointId (verb : e.method = v.name) (h : c ∈ endpointId e) :
    isNameChar c = true := by
  have method : (Text.lower v.name ++ "-").all isNameChar = true := by
    cases v <;> decide +kernel
  have mem : c ∈ Text.lower v.name ++ "-" ++ hyphenated e.url := by
    rw [← verb]
    exact mem_of_mem_trim h
  rcases List.mem_append.mp mem with mem | mem
  · exact List.all_eq_true.mp method c mem
  · exact isNameChar_of_mem_hyphenated mem

/-- **Which names cannot be given** to the endpoint of a verb: the directory is not the folder or
the one above it and not in the place of the index, and both names are short enough. -/
theorem named_iff (verb : e.method = v.name) :
    Named e ↔ (directoryName e.category ≠ "." ∧ directoryName e.category ≠ ".." ∧
      directoryName e.category ≠ "index.json" ∧
      (directoryName e.category).length ≤ maxNameSize) ∧
      (endpointId e).length + 5 ≤ maxNameSize := by
  have directory : IsName (directoryName e.category) ↔ _ :=
    isName_iff fun _ => isNameChar_of_mem_directoryName
  have file : IsName (endpointId e ++ ".json") ↔ _ :=
    isName_json_iff fun _ => isNameChar_of_mem_endpointId verb
  constructor
  · rintro ⟨isDirectory, apart, isFile⟩
    obtain ⟨-, dot, dots, short⟩ := directory.mp isDirectory
    exact ⟨⟨dot, dots, apart, short⟩, file.mp isFile⟩
  · rintro ⟨⟨dot, dots, apart, short⟩, isFile⟩
    exact ⟨directory.mpr ⟨directoryName_ne_nil _, dot, dots, short⟩, apart, file.mpr isFile⟩

/-! ### Words and Hyphens -/

/-- The texts of letters and digits, at least one. -/
def Word (t : Text) : Prop :=
  t ≠ [] ∧ ∀ c ∈ t, isAlphanumeric c = true

/-- The texts before which a word ends: a hyphen comes first, if anything. -/
def EndsWord (t : Text) : Prop :=
  ∀ c ∈ t.head?, c = '-'

theorem Word.hyphen_notMem (ht : Word t) : ('-' : CodePoint) ∉ t :=
  fun mem => absurd (ht.2 _ mem) (by decide)

/-- A word can be told from what follows it. -/
theorem Word.append_injective {u x y : Text} (ht : Word t) (hu : Word u) (hx : EndsWord x)
    (hy : EndsWord y) (eq : t ++ x = u ++ y) : t = u ∧ x = y :=
  Text.append_injective_of_head ht.hyphen_notMem hu.hyphen_notMem hx hy eq

/-- A word does not begin with a hyphen. -/
theorem Word.cons_ne {x y : Text} (ht : Word t) : ('-' : CodePoint) :: x ≠ t ++ y := by
  obtain ⟨c, r, rfl⟩ := List.exists_cons_of_ne_nil ht.1
  intro eq
  have letter := ht.2 c List.mem_cons_self
  rw [← (List.cons.inj eq).1] at letter
  exact absurd letter (by decide)

/-- Hyphens are dropped after the last word only. -/
theorem Word.trimRight_append (ht : Word t) (x y : Text) :
    Text.trimRight isHyphen (x ++ t ++ y) = x ++ t ++ Text.trimRight isHyphen y := by
  have kept : (x ++ t).reverse.dropWhile isHyphen = (x ++ t).reverse := by
    obtain ⟨front, c, rfl⟩ := (List.eq_nil_or_concat' t).resolve_left ht.1
    have letter := ht.2 c List.mem_concat_self
    have other : isHyphen c = false := by
      rw [isHyphen, beq_eq_false_iff_ne]
      rintro rfl
      exact absurd letter (by decide)
    rw [← List.append_assoc, List.reverse_append, List.reverse_singleton, List.singleton_append,
      List.dropWhile_cons_of_neg (by rw [other]; exact Bool.false_ne_true)]
  rw [Text.trimRight, List.reverse_append, List.dropWhile_append, kept, Text.trimRight]
  split
  · next blank =>
      rw [List.isEmpty_iff.mp blank, List.reverse_reverse, List.reverse_nil, List.append_nil]
  · rw [List.reverse_append, List.reverse_reverse]

/-! ### Simple URLs -/

/-- A part of a URL that is a word, alone or in braces. -/
structure SimplePart where
  /-- Whether it is in braces. -/
  braced : Bool
  /-- The word. -/
  word : Text

namespace SimplePart

/-- How a part is written. -/
def text (p : SimplePart) : Text :=
  if p.braced then "\x7b" ++ p.word ++ "\x7d" else p.word

end SimplePart

/-- A hyphen, if there is one. -/
def hyphenIf : Bool → Text
  | true => "-"
  | false => []

/-- What parts are in the name of a file, where the closing brace before them may still have to be
written: hyphens for the slash and the braces, and the words. -/
def spelled : Bool → List SimplePart → Text
  | _, [] => []
  | pending, p :: ps =>
    hyphenIf pending ++ "-" ++ hyphenIf p.braced ++ p.word ++ spelled p.braced ps

variable {ps qs : List SimplePart}

theorem endsWord_spelled (pending : Bool) (ps : List SimplePart) : EndsWord (spelled pending ps) := by
  cases ps with
  | nil => exact nofun
  | cons p ps =>
      cases pending with
      | false => exact fun c hc => (Option.some.inj hc).symm
      | true => exact fun c hc => (Option.some.inj hc).symm

/-- **The parts can be told from the name.** -/
theorem spelled_injective (pending : Bool) (hp : ∀ p ∈ ps, Word p.word) (hq : ∀ q ∈ qs, Word q.word)
    (eq : spelled pending ps = spelled pending qs) : ps = qs := by
  induction ps generalizing pending qs with
  | nil =>
      cases qs with
      | nil => rfl
      | cons q qs => cases pending <;> cases eq
  | cons p ps ih =>
      cases qs with
      | nil => cases pending <;> cases eq
      | cons q qs =>
          obtain ⟨braced, word⟩ := p
          obtain ⟨braced', word'⟩ := q
          have hw : Word word := hp _ List.mem_cons_self
          have hw' : Word word' := hq _ List.mem_cons_self
          simp only [spelled, List.append_assoc] at eq
          have rest := List.append_cancel_left (List.append_cancel_left eq)
          have same : braced = braced' := by
            cases braced with
            | false =>
                cases braced' with
                | false => rfl
                | true =>
                    have hyphen : ('-' : CodePoint) :: _ = word ++ _ := rest.symm
                    exact absurd hyphen hw.cons_ne
            | true =>
                cases braced' with
                | false =>
                    have hyphen : ('-' : CodePoint) :: _ = word' ++ _ := rest
                    exact absurd hyphen hw'.cons_ne
                | true => rfl
          subst same
          obtain ⟨rfl, more⟩ := Word.append_injective hw hw' (endsWord_spelled braced ps)
            (endsWord_spelled braced qs) (List.append_cancel_left rest)
          rw [ih braced (fun p mem => hp p (List.mem_cons_of_mem _ mem))
            (fun q mem => hq q (List.mem_cons_of_mem _ mem)) more]

/-- A word stands in a name as it is. -/
theorem Word.hyphenated_eq (ht : Word t) : hyphenated t = t := by
  have same : ∀ c ∈ t, (if isAlphanumeric c then c else '-') = c :=
    fun c hc => if_pos (ht.2 c hc)
  rw [hyphenated, List.map_congr_left same, List.map_id']

/-- The parts of a URL after the API root. -/
def slashed (ps : List SimplePart) : Text :=
  (ps.map SimplePart.text).flatMap fun part => ('/' : CodePoint) :: part

/-- What one part more is in a name. -/
theorem hyphenated_slashed_cons {p : SimplePart} (hp : Word p.word) (ps : List SimplePart) :
    hyphenated (slashed (p :: ps)) =
      "-" ++ hyphenIf p.braced ++ p.word ++ (hyphenIf p.braced ++ hyphenated (slashed ps)) := by
  have part : hyphenated (('/' : CodePoint) :: p.text) =
      "-" ++ hyphenIf p.braced ++ p.word ++ hyphenIf p.braced := by
    obtain ⟨braced, word⟩ := p
    cases braced with
    | false =>
        change _ :: hyphenated word = _
        rw [hp.hyphenated_eq, hyphenIf, List.append_nil, List.append_nil]
        rfl
    | true =>
        change _ :: _ :: hyphenated (word ++ "\x7d") = _
        rw [hyphenated, List.map_append, ← hyphenated, hp.hyphenated_eq]
        rfl
  rw [slashed, List.map_cons, List.flatMap_cons, ← slashed, hyphenated, List.map_append,
    ← hyphenated, ← hyphenated, part, List.append_assoc _ (hyphenIf p.braced)]

/-- What the parts of a URL are in a name, up to the hyphens at its end. -/
theorem trimRight_hyphenated (pending : Bool) (hp : ∀ p ∈ ps, Word p.word) :
    Text.trimRight isHyphen (hyphenIf pending ++ hyphenated (slashed ps)) = spelled pending ps := by
  induction ps generalizing pending with
  | nil => cases pending <;> rfl
  | cons p ps ih =>
      have word : Word p.word := hp p List.mem_cons_self
      have grouped : hyphenIf pending ++ hyphenated (slashed (p :: ps)) =
          hyphenIf pending ++ "-" ++ hyphenIf p.braced ++ p.word ++
            (hyphenIf p.braced ++ hyphenated (slashed ps)) := by
        rw [hyphenated_slashed_cons word]
        simp only [List.append_assoc]
      rw [grouped, word.trimRight_append,
        ih p.braced fun p mem => hp p (List.mem_cons_of_mem _ mem), spelled]

/-- The endpoints of a verb whose URL has simple parts. -/
def Simple (e : Endpoint) : Prop :=
  ∃ (v : Verb) (ps : List SimplePart), e.method = v.name ∧ (∀ p ∈ ps, Word p.word) ∧
    e.url = Route.rooted (ps.map SimplePart.text)

/-- **The name of a simple endpoint** is that of its verb and its parts. -/
theorem endpointId_eq (verb : e.method = v.name) (hp : ∀ p ∈ ps, Word p.word)
    (url : e.url = Route.rooted (ps.map SimplePart.text)) :
    endpointId e = Text.lower v.name ++ ("--api" ++ spelled false ps) := by
  have api : Word "api" := ⟨nofun, List.all_eq_true.mp (by decide)⟩
  have root : hyphenated apiRoot = "-" ++ "api" := by decide +kernel
  have whole : Text.lower e.method ++ "-" ++ hyphenated e.url =
      (Text.lower v.name ++ "--") ++ "api" ++ (hyphenIf false ++ hyphenated (slashed ps)) := by
    rw [verb, url, Route.rooted, ← slashed, hyphenated, List.map_append, ← hyphenated,
      ← hyphenated, root]
    simp only [List.append_assoc]
    rfl
  have start : ∀ rest : Text,
      Text.trimLeft isHyphen (Text.lower v.name ++ rest) = Text.lower v.name ++ rest := by
    intro rest
    cases v <;> rfl
  change Text.trim isHyphen (Text.lower e.method ++ "-" ++ hyphenated e.url) = _
  rw [whole, Text.trim, List.append_assoc, List.append_assoc, start, ← List.append_assoc,
    ← List.append_assoc, api.trimRight_append, trimRight_hyphenated false hp, List.append_assoc,
    List.append_assoc]
  rfl

/-- The names of verbs are words, also in lower case. -/
theorem word_lower_name (v : Verb) : Word (Text.lower v.name) := by
  have word : Text.lower v.name ≠ [] ∧ (Text.lower v.name).all isAlphanumeric = true := by
    cases v <;> decide +kernel
  exact ⟨word.1, List.all_eq_true.mp word.2⟩

theorem lower_name_injective {v w : Verb} (eq : Text.lower v.name = Text.lower w.name) : v = w := by
  have back : ∀ v : Verb, (Text.lower v.name).flatMap CodePoint.upper = v.name := by
    intro v
    cases v <;> decide +kernel
  exact Verb.name_injective (back v ▸ back w ▸ congrArg (List.flatMap CodePoint.upper) eq)

/-- Simple endpoints with one name have one verb and one URL. -/
theorem endpointId_injective {e' : Endpoint} (simple : Simple e) (simple' : Simple e')
    (eq : endpointId e = endpointId e') : e.method = e'.method ∧ e.url = e'.url := by
  obtain ⟨v, ps, verb, hp, url⟩ := simple
  obtain ⟨w, qs, verb', hq, url'⟩ := simple'
  rw [endpointId_eq verb hp url, endpointId_eq verb' hq url'] at eq
  have hyphen : ∀ rest : Text, EndsWord ("--api" ++ rest) := fun rest c hc => by
    exact (Option.some.inj hc).symm
  obtain ⟨lower, rest⟩ := Word.append_injective (word_lower_name v) (word_lower_name w)
    (hyphen _) (hyphen _) eq
  obtain rfl := lower_name_injective lower
  obtain rfl := spelled_injective false hp hq (List.append_cancel_left rest)
  exact ⟨verb.trans verb'.symm, url.trans url'.symm⟩

/-- **Simple endpoints are filed under different names** if no two have one verb and one URL. -/
theorem nodup_filePlace {es : List Endpoint} (simple : ∀ e ∈ es, Simple e)
    (nodup : (es.map fun e => (e.method, e.url)).Nodup) : (es.map filePlace).Nodup := by
  refine List.Nodup.map_on ?_ (List.Nodup.of_map _ nodup)
  intro e mem e' mem' eq
  have id : endpointId e = endpointId e' :=
    List.append_cancel_right (List.cons.inj (List.cons.inj eq).2).1
  obtain ⟨method, url⟩ := endpointId_injective (simple e mem) (simple e' mem') id
  exact List.inj_on_of_nodup_map nodup mem mem' (Prod.ext method url)

end Folder

end RouteDocs
