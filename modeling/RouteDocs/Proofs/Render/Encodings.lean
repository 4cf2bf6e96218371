import RouteDocs.Proofs.Json.RoundTrip
import RouteDocs.Proofs.Render.Limits
import RouteDocs.Proofs.Yaml.Printed

/-!
# Two Encodings of One Document

An OpenAPI document is read from its JSON text and from its YAML text.

## Main Definitions

* `OpenApi.EncodingsAgree`: both texts of a documentation are read as one value

## Main Statements

* `OpenApi.read_renderJson`: the JSON text is read as the document
* `OpenApi.read_renderYaml`: **the YAML text is read as the document, where some texts are not read
  back**
* `OpenApi.encodings_agree_iff`: **the texts agree exactly if no next-line character stands between
  single quotation marks**

## Design Notes

A text with the next-line character U+0085 and without other code points that need an escape is put
in single quotation marks as it is, and the reader takes the character for a line end. The other
characters that end a line are read as themselves.
-/

namespace RouteDocs

namespace OpenApi

open Json Yaml

variable {d : Documentation} {room depth : Nat} {dialect : Dialect} {v : Json} {ints : Int → Prop}

/-- **Both texts of a documentation are read as one value.** -/
def EncodingsAgree (dialect : Dialect) (depth : Nat) (d : Documentation) : Prop :=
  ∃ v, Json.read dialect (renderJson d) = .ok v ∧ Yaml.read depth (renderYaml d) = .ok (.ofJson v)

/-- A value without floating-point numbers is read from its JSON text. -/
theorem read_renderJson (fits : Within dialect.Takes (fun _ => False) room (document d))
    (scalar : ∀ t ∈ (document d).texts, t.isScalar = true) (enough : room ≤ dialect.maxDepth) :
    Json.read dialect (renderJson d) = .ok (document d) := by
  have read := Json.read_print (g := .float) separates_asciiIndented (fits.of_texts scalar)
    (fun _ none => none.elim) enough
  rwa [mapFloats_float] at read

/-- **A document without floating-point numbers is read from its YAML text**, where some texts are not
read back. -/
theorem read_renderYaml (fits : Within ints (fun _ => False) room (document d))
    (few : ∀ i, ints i → Binary64.decimalLength i.natAbs ≤ maxDigits)
    (near : ∀ k ∈ (document d).keys, isSimpleKey k = true → (onOneLine k).length ≤ 1024)
    (steady : ∀ t ∈ (document d).texts, Steady (2 * (document d).depth) t) (deep : room ≤ depth) :
    Yaml.read depth (renderYaml d) = .ok (.ofJson ((document d).mapTexts readBack)) := by
  have keys : ∀ k ∈ (document d).keys, IsKey (2 * (document d).depth) k := by
    intro k hk
    unfold IsKey
    split
    · next simple => exact near k hk simple
    · exact steady k (mem_texts_of_mem_keys hk)
  have some : 1 ≤ (document d).depth := Nat.succ_pos _
  exact read_printBlock (fits.madeOf few steady keys) (by omega) le_rfl (fits.depth_le.trans deep)

/-- Where both texts are read, they agree exactly if every text of the document is read back. -/
theorem encodingsAgree_iff_of_read {texts keys : Text → Prop} (made : (document d).MadeOf texts keys)
    (json : Json.read dialect (renderJson d) = .ok (document d))
    (yaml : Yaml.read depth (renderYaml d) = .ok (.ofJson ((document d).mapTexts readBack))) :
    EncodingsAgree dialect depth d ↔ ∀ t ∈ (document d).texts, readBack t = t := by
  rw [← made.mapTexts_eq_self_iff]
  constructor
  · rintro ⟨v, json', yaml'⟩
    obtain rfl : document d = v := Except.ok.inj (json.symm.trans json')
    exact Value.ofJson_inj (Except.ok.inj (yaml.symm.trans yaml'))
  · intro same
    exact ⟨document d, json, by rw [yaml, same]⟩

/-- Short keys leave their colon in reach. -/
theorem near_of_length_le {ks : List Text} (few : ks.all (·.length ≤ 100) = true) :
    ∀ k ∈ ks, isSimpleKey k = true → (onOneLine k).length ≤ 1024 := by
  intro k hk _
  have short : k.length ≤ 100 := of_decide_eq_true (List.all_eq_true.mp few k hk)
  have le := length_onOneLine_le k
  omega

/-- **The two texts of a documentation agree exactly if no next-line character stands between single
quotation marks**, where the reader of JSON takes no longer numbers than that of YAML. -/
theorem encodings_agree_iff
    (values : ∀ e ∈ d.endpoints, IsShown d.endpoints e →
      e.ValuesFit dialect.Takes (fun _ => False) room)
    (few : dialect.rules.maxLength ≤ maxDigits)
    (scalar : ∀ t ∈ (document d).texts, t.isScalar = true)
    (near : ∀ k ∈ (document d).keys, isSimpleKey k = true → (onOneLine k).length ≤ 1024)
    (steady : ∀ t ∈ (document d).texts, Steady (2 * (document d).depth) t)
    (enough : room + 10 ≤ dialect.maxDepth) (deep : room + 10 ≤ depth) :
    Json.read dialect (renderJson d) = .ok (document d) ∧
      Yaml.read depth (renderYaml d) = .ok (.ofJson ((document d).mapTexts readBack)) ∧
      (EncodingsAgree dialect depth d ↔
        ∀ t ∈ (document d).texts, style t = .singleQuoted → ∀ c ∈ t, c.val ≠ 0x85) := by
  have fits := fits_document values
  have json := read_renderJson fits scalar enough
  have few (i : Int) (taken : dialect.Takes i) : Binary64.decimalLength i.natAbs ≤ maxDigits :=
    taken.decimalLength_le.trans few
  have yaml := read_renderYaml fits few near steady deep
  have made := fits.madeOf few (fun _ _ => trivial) fun _ _ => trivial
  refine ⟨json, yaml, ?_⟩
  rw [encodingsAgree_iff_of_read made json yaml]
  exact forall₂_congr fun t _ => readBack_eq_self_iff

/-- A documentation whose texts look like other values. -/
def lookalikes : Documentation where
  info := ⟨"yes", "1.0", some "- a: b # c", none, none⟩
  endpoints := [{ tokenEndpoint "GET" "/api/users/\x7bid\x7d" "users" with
    parameters := [⟨"id", "number", true, .path, some "it's", .int 7⟩]
    responses := [("200", ⟨"200", "", .obj [("note", .str "null"), ("on", .arr [.bool true])],
      [], []⟩)] }]
  totalEndpoints := 1
  generatedAt := "2024-05-01T12:00:00"

theorem encodings_agree_lookalikes : (∀ t ∈ (document lookalikes).texts, t.isScalar = true) ∧
    (∀ k ∈ (document lookalikes).keys, isSimpleKey k = true → (onOneLine k).length ≤ 1024) ∧
    2 * (document lookalikes).depth < width ∧ EncodingsAgree .fragment 12 lookalikes := by
  have scalar : (document lookalikes).texts.all Text.isScalar = true := by decide +kernel
  have scalar : ∀ t ∈ (document lookalikes).texts, t.isScalar = true := List.all_eq_true.mp scalar
  have few : (document lookalikes).keys.all (·.length ≤ 100) = true := by decide +kernel
  have inLine : 2 * (document lookalikes).depth < width := by decide +kernel
  have values : ∀ e ∈ lookalikes.endpoints, IsShown lookalikes.endpoints e →
      e.ValuesFit Dialect.fragment.Takes (fun _ => False) 2 := by
    refine List.forall_mem_singleton.mpr fun _ => ?_
    have answer : Within Dialect.fragment.Takes (fun _ => False) 2
        (.obj [("note", .str "null"), ("on", .arr [.bool true])]) :=
      fits_obj ["note", "on"] (.refl _) (by decide) (by simp)
    exact ⟨List.forall_mem_singleton.mpr fun _ => .int (by decide), nofun, nofun,
      List.nodup_singleton _, List.forall_mem_singleton.mpr answer⟩
  have ascii : (document lookalikes).texts.all (fun t => t.all (·.val < 0x80)) = true := by
    decide +kernel
  obtain ⟨-, -, agree⟩ : _ ∧ _ ∧ (EncodingsAgree .fragment 12 lookalikes ↔ _) :=
    encodings_agree_iff values le_rfl scalar (near_of_length_le few) (fun _ _ => .inl inLine)
      (by decide) (by decide)
  refine ⟨scalar, near_of_length_le few, inLine, agree.mpr fun t ht _ c hc => ?_⟩
  have low : c.val < 0x80 :=
    of_decide_eq_true (List.all_eq_true.mp (List.all_eq_true.mp ascii t ht) c hc)
  omega

/-- A documentation with a next-line character in its title. -/
def nextLine : Documentation where
  info := ⟨['a', CodePoint.ofNat 0x85, 'b'], "1.0", none, none, none⟩
  endpoints := []
  totalEndpoints := 0
  generatedAt := "2024-05-01T12:00:00"

theorem encodings_differ : readBack nextLine.info.title = "a b" ∧
    Json.read .fragment (renderJson nextLine) = .ok (document nextLine) ∧
    Yaml.read 10 (renderYaml nextLine) = .ok (.ofJson ((document nextLine).mapTexts readBack)) ∧
    ¬EncodingsAgree .fragment 10 nextLine := by
  have folded : readBack nextLine.info.title = "a b" := by decide
  have fits : Within Dialect.fragment.Takes (fun _ => False) 10 (document nextLine) :=
    fits_document fun _ none => (List.not_mem_nil none).elim
  have scalar : (document nextLine).texts.all Text.isScalar = true := by decide +kernel
  have few : (document nextLine).keys.all (·.length ≤ 100) = true := by decide +kernel
  have inLine : 2 * (document nextLine).depth < width := by decide +kernel
  have json : Json.read .fragment (renderJson nextLine) = .ok (document nextLine) :=
    read_renderJson fits (List.all_eq_true.mp scalar) (by decide)
  have digits (i : Int) (taken : Dialect.fragment.Takes i) :
      Binary64.decimalLength i.natAbs ≤ maxDigits := taken
  have yaml := read_renderYaml fits digits (near_of_length_le few) (fun _ _ => .inl inLine) le_rfl
  have made := fits.madeOf digits (fun _ _ => trivial) fun _ _ => trivial
  refine ⟨folded, json, yaml, fun agree => ?_⟩
  have title : nextLine.info.title ∈ (document nextLine).texts := by decide +kernel
  have same := (encodingsAgree_iff_of_read made json yaml).mp agree _ title
  rw [folded] at same
  exact absurd same (by decide)

end OpenApi

end RouteDocs
