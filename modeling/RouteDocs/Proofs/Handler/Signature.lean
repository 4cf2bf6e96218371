import RouteDocs.Proofs.Handler.Start
import RouteDocs.Proofs.Handler.Tiling

/-!
# Signatures and Sections

The section of a handler begins at the comment attached to its signature.  It holds the signature
unless another section begins in between, and that takes a signature within a comment.

## Main Definitions

* `Handler.InCommentOf`: a place lies in the comment attached to another place

## Main Statements

* `Handler.startAt_eq_of_not_inCommentOf`: the places from the start of a section to its signature
  belong to the comment or share the start
* `Handler.startAt_ne_of_inCommentOf`: a signature within a comment does not share its start
* `Handler.signatures_in_sections`: the sections hold their signatures exactly when no signature
  stands in a comment attached to another one
* `Handler.signature_cut_off`: an opening mark within a string cuts a section off

## Design Notes

Signatures are searched in the raw text and the comments backwards from each of them, so a comment
may reach over other code when its opening mark is text of that code.
-/

namespace RouteDocs

namespace Handler

/-- A place lies in the comment attached to another place. -/
def InCommentOf (content : Text) (p o : Nat) : Prop :=
  ∃ d ∈ DocComment.before? content o, d.start ≤ p ∧ p < d.stop

variable {content method : Text} {v w : Verb} {o p : Nat} {d : DocComment}

/-! ### The First Code Point of a Signature -/

/-- A signature starts with the first letter of its keyword. -/
theorem startsIn_of_mem_signatures {sig : Pattern} (mem : sig ∈ signatures method) :
    sig.StartsIn (CodePoint.sameLetter 'e') := by
  have keyword : (Pattern.caseless "export").StartsIn (CodePoint.sameLetter 'e') :=
    (Pattern.startsIn_one _).append _
  simp only [signatures, List.mem_cons, List.not_mem_nil, or_false] at mem
  rcases mem with rfl | rfl | rfl
  · unfold functionExport
    iterate 7 apply Pattern.StartsIn.append
    exact keyword
  · unfold constantExport
    iterate 6 apply Pattern.StartsIn.append
    exact keyword
  · unfold listExport
    iterate 9 apply Pattern.StartsIn.append
    exact keyword

/-- Where a signature stands there is no slash. -/
theorem getElem?_offset (signature : offset? content method = some o) :
    ∃ c : CodePoint, content[o]? = some c ∧ c ≠ '/' := by
  obtain ⟨sig, mem, m, found, rfl⟩ := exists_signature signature
  obtain ⟨c, here, letter⟩ := Pattern.getElem?_find? (startsIn_of_mem_signatures mem) found
  refine ⟨c, here, ?_⟩
  rintro rfl
  exact absurd letter (by decide)

/-- A signature begins before the end of the file. -/
theorem offset?_lt (signature : offset? content method = some o) : o < content.length := by
  obtain ⟨c, here, -⟩ := getElem?_offset signature
  exact (List.getElem?_eq_some_iff.mp here).1

/-! ### Between a Start and Its Signature -/

theorem startAt_of_isAttached (attached : DocComment.IsAttached content o d) :
    startAt content o = d.start := by
  rw [startAt, DocComment.before?_eq_some_iff.mpr attached]
  rfl

/-- A section that begins before its signature begins with a comment. -/
theorem exists_isAttached (lt : startAt content o < o) :
    ∃ d, DocComment.IsAttached content o d ∧ startAt content o = d.start := by
  cases comment : DocComment.before? content o with
  | none =>
      rw [startAt, comment] at lt
      exact absurd lt (Nat.lt_irrefl o)
  | some d =>
      have attached := DocComment.before?_eq_some_iff.mp comment
      exact ⟨d, attached, startAt_of_isAttached attached⟩

/-- **A place between the start of a section and its signature shares the start** unless it lies in
the comment: what is attached to the signature is attached to the places of the gap too. -/
theorem startAt_eq_of_not_inCommentOf {c : CodePoint} (here : content[p]? = some c) (ne : c ≠ '/')
    (after : startAt content o ≤ p) (le : p ≤ o) (outside : ¬InCommentOf content p o) :
    startAt content p = startAt content o := by
  rcases Nat.eq_or_lt_of_le le with rfl | lt
  · rfl
  · obtain ⟨d, attached, start⟩ := exists_isAttached (Nat.lt_of_le_of_lt after lt)
    have behind : d.stop ≤ p := by
      by_contra! inside
      exact outside ⟨d, DocComment.before?_eq_some_iff.mpr attached, start ▸ after, inside⟩
    rw [startAt_of_isAttached (attached.at_gap behind lt here ne), start]

/-- **A signature in a comment does not share its start**: a comment of its own that began there
would end before it. -/
theorem startAt_ne_of_inCommentOf (signature : offset? content method = some o)
    (inside : InCommentOf content o p) : startAt content o ≠ startAt content p := by
  obtain ⟨d, comment, from_start, before⟩ := inside
  have attached := DocComment.before?_eq_some_iff.mp comment
  rw [startAt_of_isAttached attached]
  intro same
  have lt : startAt content o < o := by
    rcases Nat.eq_or_lt_of_le from_start with rfl | lt
    · obtain ⟨c, here, ne⟩ := getElem?_offset signature
      rw [attached.getElem?_start] at here
      exact absurd (Option.some.inj here).symm ne
    · omega
  obtain ⟨own, attached', start⟩ := exists_isAttached lt
  have stop := attached'.stop_eq attached (start.symm.trans same)
  have ends := attached'.stop_le
  omega

/-! ### Signatures in Their Sections -/

theorem startAt_mem_cuts (signature : offset? content v.name = some o) :
    startAt content o ∈ cuts content :=
  mem_cuts.mpr (mem_startPlaces.mpr ⟨v, mem_starts.mpr ⟨o, signature, rfl⟩⟩)

/-- A cut is where the section of an exported verb begins. -/
theorem exists_of_mem_cuts {s : Nat} (mem : s ∈ cuts content) :
    ∃ (w : Verb) (p : Nat), offset? content w.name = some p ∧ startAt content p = s := by
  obtain ⟨w, start⟩ := mem_startPlaces.mp (mem_cuts.mp mem)
  obtain ⟨p, signature, start⟩ := mem_starts.mp start
  exact ⟨w, p, signature, start⟩

/-- A section whose comment has no part in another signature, and whose signature stands in no
other comment, holds its signature. -/
theorem lt_sectionEnd_startAt (signature : offset? content v.name = some o)
    (apart : ∀ (w : Verb) (p : Nat), offset? content w.name = some p →
      ¬InCommentOf content p o ∧ ¬InCommentOf content o p) :
    o < sectionEnd content (startAt content o) := by
  refine lt_sectionEnd (offset?_lt signature) fun s mem later => ?_
  obtain ⟨w, p, other, rfl⟩ := exists_of_mem_cuts mem
  by_contra! early
  rcases Nat.le_total p o with le | le
  · obtain ⟨c, here, ne⟩ := getElem?_offset other
    have after : startAt content o ≤ p := (Nat.le_of_lt later).trans (startAt_le content p)
    have same := startAt_eq_of_not_inCommentOf here ne after le (apart w p other).1
    omega
  · obtain ⟨c, here, ne⟩ := getElem?_offset signature
    have same := startAt_eq_of_not_inCommentOf here ne early le (apart w p other).2
    omega

/-- The source of a verb reaches from its start over its signature to the end of its section. -/
theorem source_eq_of_lt_sectionEnd (signature : offset? content v.name = some o)
    (holds : o < sectionEnd content (startAt content o)) :
    source content v.name = content.take (preambleEnd content) ++
      (slice content (startAt content o) o ++
        slice content o (sectionEnd content (startAt content o))) := by
  rw [source_of_mem_starts (mem_starts.mpr ⟨o, signature, rfl⟩)]
  congr 1
  have before := take_append_slice content (Nat.le_of_lt holds)
  rw [slice, ← before, List.drop_append_of_le_length]
  · rfl
  · rw [List.length_take, Nat.min_eq_left (Nat.le_of_lt (offset?_lt signature))]
    exact startAt_le content o

/-- A signature is in the source as a whole if its section does not end within it. -/
theorem text_infix_source (signature : offset? content v.name = some o)
    (holds : o < sectionEnd content (startAt content o)) {sig : Pattern} {m : Pattern.Match}
    (found : sig.find? content = some m) (here : m.start.offset = o)
    (whole : m.stop.offset ≤ sectionEnd content (startAt content o)) :
    m.text <:+: source content v.name := by
  have text : m.text = slice content o m.stop.offset := by
    rw [Pattern.Match.text, Cursor.textUntil, (Pattern.find?_sound found).1, here, slice,
      List.drop_take]
  have begins : m.text <+: slice content o (sectionEnd content (startAt content o)) := by
    rw [text]
    exact (List.take_prefix_take_left whole).drop o
  rw [source_eq_of_lt_sectionEnd signature holds, ← List.append_assoc]
  exact begins.isInfix.trans (List.suffix_append _ _).isInfix

/-- **The sections of a route file hold their signatures exactly when no signature stands in a
comment attached to another one.**  One handler at a time, the section begins no later than the
signature and holds it if neither of the comments of two handlers has part in the signature of the
other; the source then consists of the preamble, what is above the signature, and everything from
the signature to the end of the section, and the text of the signature is part of it if the section
does not end within that text. -/
theorem signatures_in_sections (content : Text) :
    (∀ (v : Verb) (o : Nat), offset? content v.name = some o →
      startAt content o ≤ o ∧
      ((∀ (w : Verb) (p : Nat), offset? content w.name = some p →
          ¬InCommentOf content p o ∧ ¬InCommentOf content o p) →
        o < sectionEnd content (startAt content o)) ∧
      (o < sectionEnd content (startAt content o) →
        source content v.name = content.take (preambleEnd content) ++
          (slice content (startAt content o) o ++
            slice content o (sectionEnd content (startAt content o))) ∧
        ∀ sig ∈ signatures v.name, ∀ m, sig.find? content = some m → m.start.offset = o →
          m.stop.offset ≤ sectionEnd content (startAt content o) →
          m.text <:+: source content v.name)) ∧
    ((∀ (v : Verb) (o : Nat), offset? content v.name = some o →
        o < sectionEnd content (startAt content o)) ↔
      ∀ (v w : Verb) (o p : Nat), offset? content v.name = some o → offset? content w.name = some p →
        ¬InCommentOf content o p) := by
  refine ⟨fun v o signature => ⟨startAt_le content o, lt_sectionEnd_startAt signature, ?_⟩, ?_, ?_⟩
  · intro holds
    exact ⟨source_eq_of_lt_sectionEnd signature holds, fun sig _ m found here whole =>
      text_infix_source signature holds found here whole⟩
  · intro hold v w o p signature other inside
    obtain ⟨d, comment, from_start, before⟩ := id inside
    have attached := DocComment.before?_eq_some_iff.mp comment
    have start := startAt_of_isAttached attached
    have ends := attached.stop_le
    -- Whichever of the two sections begins first is cut off by the other one.
    rcases Nat.lt_or_gt_of_ne (startAt_ne_of_inCommentOf signature inside) with lt | gt
    · have cut := sectionEnd_le (startAt_mem_cuts other) lt
      have holds := hold v o signature
      omega
    · have cut := sectionEnd_le (startAt_mem_cuts signature) gt
      have holds := hold w p other
      have le := startAt_le content o
      omega
  · intro apart v o signature
    refine lt_sectionEnd_startAt signature fun w p other => ⟨?_, ?_⟩
    · exact apart w v p o other signature
    · exact apart v w o p signature other

/-- **An opening mark within a string cuts a section off.**  The comment above `POST` begins with
the plain mark `/*`, so the mark `/**` in the string of the list of files counts as its beginning;
the section of `POST` begins there and ends where the one of `GET` begins, before `POST`. -/
theorem signature_cut_off :
    let files : Text := "const FILES = 'content/**/*.md';\n\n"
    let get : Text :=
      "export async function GET() \x7b\n  return NextResponse.json(list(FILES));\n\x7d\n\n"
    let post : Text := "/* Create article */\nexport async function POST() \x7b\x7d\n"
    let content := files ++ get ++ post
    offset? content "POST" = some 129 ∧ startAt content 129 = 22 ∧ sectionEnd content 22 = 34 ∧
      Text.hasPart "POST" (source content "POST") = false := by
  decide +kernel

end Handler

end RouteDocs
