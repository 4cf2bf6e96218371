import RouteDocs.Proofs.Docs.Codec
import RouteDocs.Proofs.Docs.Limits
import RouteDocs.Proofs.Editor.Run
import RouteDocs.Proofs.Files.Write
import RouteDocs.Proofs.Json.Printed
import RouteDocs.Proofs.Render.Folder
import RouteDocs.Proofs.Yaml.Brackets
import RouteDocs.Proofs.Yaml.Value
import RouteDocs.Settings

/-!
# Settings Saved and Loaded

Settings are saved as JSON and loaded as YAML, which comes to the same for most texts.

## Main Definitions

* `Settings.mapTexts`, `Settings.texts`: settings with other texts, and the texts of settings
* `Settings.inUnits`: settings with a pair of surrogates for each code point beyond the first plane

## Main Statements

* `Yaml.read_print`: **JSON in ASCII is read as YAML**, in units of 16 bits
* `Settings.decode_toJson`: **encoded settings are decoded to the settings**
* `Settings.ofText_print`: **printed settings are read as YAML**, in units of 16 bits
* `Settings.load_of_save`: **saved settings are loaded in units of 16 bits**

## Design Notes

The writer escapes a code point beyond the first plane as two units, and the reader gives them back as
two code points. What is loaded is what was saved exactly if there is no such code point.
-/

namespace RouteDocs

namespace Json

variable {f : Text → Text} {t : Text} {c : CodePoint} {v : Json} {texts keys : Text → Prop}

/-! ### Units -/

theorem length_units_le (c : CodePoint) : 1 ≤ (units true c).length := by
  unfold units
  split <;> simp

/-- **A text stays as it is in units exactly if all of it is in the first plane.** -/
theorem inUnits_eq_self_iff : inUnits t = t ↔ ∀ c ∈ t, c.val < 0x10000 := by
  constructor
  · induction t with
    | nil => exact fun _ => nofun
    | cons c r ih =>
        intro same
        have le : r.length ≤ (inUnits r).length := by
          clear ih same
          induction r with
          | nil => exact Nat.zero_le _
          | cons d r ih =>
              have := length_units_le d
              rw [inUnits, List.flatMap_cons, List.length_append, List.length_cons]
              unfold inUnits at ih
              omega
        have plane : c.val < 0x10000 := by
          by_contra beyond
          have pair : units true c =
              [CodePoint.ofNat (highUnit c), CodePoint.ofNat (lowUnit c)] :=
            if_pos ⟨rfl, Nat.le_of_not_lt beyond⟩
          have length := congrArg List.length same
          rw [inUnits, List.flatMap_cons, List.length_append, pair] at length
          unfold inUnits at le
          simp only [List.length_cons, List.length_nil] at length
          omega
        have one : units true c = [c] := if_neg fun wide => Nat.not_le_of_lt plane wide.2
        rw [inUnits, List.flatMap_cons, one] at same
        exact List.forall_mem_cons.mpr ⟨plane, ih (List.cons.inj same).2⟩
  · intro plane
    induction t with
    | nil => rfl
    | cons c r ih =>
        obtain ⟨first, others⟩ := List.forall_mem_cons.mp plane
        have one : units true c = [c] := if_neg fun wide => Nat.not_le_of_lt first wide.2
        rw [inUnits, List.flatMap_cons, one]
        exact congrArg (c :: ·) (ih others)

theorem inUnits_ofString {s : String} (ascii : s.toList.all (·.toNat < 0x10000) = true) :
    inUnits s = s := by
  refine inUnits_eq_self_iff.mpr fun c hc => ?_
  obtain ⟨d, hd, rfl⟩ := List.mem_map.mp hc
  exact of_decide_eq_true (List.all_eq_true.mp ascii d hd)

/-! ### Records -/

theorem isNull_mapTexts (v : Json) : (v.mapTexts f).isNull = v.isNull := by
  cases v <;> rfl

/-- A record with other texts is the record of its parts with other texts, if its keys stay. -/
theorem mapTexts_record {parts : List (Text × Json)} (kept : ∀ p ∈ parts, f p.1 = p.1) :
    (record false parts).mapTexts f =
      record false (parts.map fun p => (p.1, p.2.mapTexts f)) := by
  rw [record, record, mapTexts, mapTextsOfMembers_eq, List.filter_map]
  refine congrArg Json.obj ?_
  have same : (parts.filter fun p => false || !p.2.isNull) =
      parts.filter ((fun p => false || !p.2.isNull) ∘ fun p => (p.1, p.2.mapTexts f)) :=
    List.filter_congr fun p _ => by simp [isNull_mapTexts]
  rw [← same]
  exact List.map_congr_left fun p hp => by rw [kept p (List.mem_of_mem_filter hp)]

theorem mapTexts_ofText? (t : Option Text) : (ofText? t).mapTexts f = ofText? (t.map f) := by
  cases t <;> rfl

theorem mapTexts_ofTexts (ts : List Text) : (ofTexts ts).mapTexts f = ofTexts (ts.map f) := by
  rw [ofTexts, mapTexts, mapTextsOfItems_eq, List.map_map, ofTexts, List.map_map]
  rfl

theorem mapTexts_elim {α : Type} {encode : α → Json} {change : α → α}
    (each : ∀ a, (encode a).mapTexts f = encode (change a)) (o : Option α) :
    (o.elim .null encode).mapTexts f = (o.map change).elim .null encode := by
  cases o with
  | none => rfl
  | some a => exact each a

theorem MadeOf.record {parts : List (Text × Json)} (named : ∀ p ∈ parts, keys p.1)
    (made : ∀ p ∈ parts, MadeOf texts keys p.2) : MadeOf texts keys (Json.record false parts) :=
  .obj (fun p hp => named p (List.mem_of_mem_filter hp))
    fun p hp => made p (List.mem_of_mem_filter hp)

theorem MadeOf.elim {α : Type} {encode : α → Json} (made : ∀ a, MadeOf texts keys (encode a))
    (o : Option α) : MadeOf texts keys (o.elim .null encode) := by
  cases o with
  | none => exact .null
  | some a => exact made a

/-! ### Quoted Keys -/

/-- An escape takes twelve code points at most. -/
theorem length_escape_le (c : CodePoint) : (escape true c).length ≤ 12 := by
  have unit {m : Nat} (h : m < 0x10000) : (unitEscape m).length = 6 := by
    rw [unitEscape, List.length_cons, List.length_cons,
      Yaml.Quoted.length_ofHex (by decide) (by omega)]
  unfold escape
  split_ifs
  any_goals simp
  · rw [unit (by omega)]
    decide
  · by_cases plane : c.val < 0x10000
    · rw [numberEscape, if_pos plane, unit plane]
      decide
    · rw [numberEscape_eq plane, List.length_append, unit highUnit_lt, unit lowUnit_lt]

/-- A key of a few code points leaves its colon in reach. -/
theorem isNear_of_length_le {k : Text} (short : k.length ≤ 64) : Yaml.Cutting.IsNear k := by
  have le : (k.flatMap (escape true)).length ≤ 12 * k.length := by
    clear short
    induction k with
    | nil => exact le_rfl
    | cons c r ih =>
        have := length_escape_le c
        rw [List.flatMap_cons, List.length_append, List.length_cons]
        omega
  rw [Yaml.Cutting.IsNear, quote, List.length_append, List.length_cons, List.length_singleton]
  omega

end Json

/-! ### JSON Read as YAML -/

/-- **JSON in ASCII is read as YAML**, with two code points in the place of each one beyond the first
plane. -/
theorem Yaml.read_print {v : Json} {depth : Nat}
    (made : Json.MadeOf (fun _ => True) Cutting.IsNear v) (deep : v.depth ≤ depth) :
    read depth (Json.print .asciiIndented v ++ ("\n" : Text)) =
      .ok (.ofJson (v.mapTexts Json.inUnits)) := by
  have tokens := Token.ofText_print made
  have makes := Composing.makes_flowTokens (made.mapTexts (f := Json.inUnits))
  obtain ⟨token, ts, begins, isBegin⟩ := Composing.exists_flowTokens (v.mapTexts Json.inUnits)
  rw [begins] at tokens makes
  exact read_of_makes tokens makes isBegin made.mapTexts ((Json.depth_mapTexts made).trans_le deep)

/-! ### Settings Encoded and Decoded -/

open Decoder Json

/-- Formats are decoded from their names. -/
theorem Format.ofName?_name (f : Format) : ofName? f.name = some f := by
  cases f <;> decide

variable {f : Text → Text}

/-- What is said about authentication, with other texts in it. -/
def InfoAuthentication.mapTexts (f : Text → Text) (a : InfoAuthentication) : InfoAuthentication :=
  { a with
    endpoint := a.endpoint.map f
    headerName := a.headerName.map f
    description := a.description.map f }

/-- The texts of what is said about authentication. -/
def InfoAuthentication.texts (a : InfoAuthentication) : List Text :=
  a.endpoint.toList ++ a.headerName.toList ++ a.description.toList

theorem option_map_eq_self_iff {α : Type} {g : α → α} {o : Option α} :
    o.map g = o ↔ ∀ a ∈ o, g a = a := by
  cases o <;> simp

theorem InfoAuthentication.mapTexts_eq_self_iff {a : InfoAuthentication} :
    a.mapTexts f = a ↔ ∀ t ∈ a.texts, f t = t := by
  obtain ⟨kind, required, endpoint, headerName, description⟩ := a
  simp only [InfoAuthentication.mapTexts, InfoAuthentication.texts, InfoAuthentication.mk.injEq,
    option_map_eq_self_iff, true_and, List.forall_mem_append, Option.mem_toList, Option.mem_def,
    and_assoc]

/-- Encoding with other texts gives the other texts, if keys and the names of kinds stay. -/
theorem InfoAuthentication.mapTexts_toJson (a : InfoAuthentication) :
    (a.toJson false).mapTexts Json.inUnits = (a.mapTexts Json.inUnits).toJson false := by
  have kind (k : AuthKind) : (Json.str k.name).mapTexts Json.inUnits = .str (id k).name := by
    cases k <;> exact congrArg Json.str (inUnits_ofString rfl)
  have required (b : Bool) : (Json.bool b).mapTexts Json.inUnits = .bool (id b) := rfl
  rw [InfoAuthentication.toJson, mapTexts_record]
  · simp only [List.map_cons, List.map_nil, mapTexts_ofText?, mapTexts_elim kind,
      mapTexts_elim required, Option.map_id, id]
    rfl
  · simp only [List.forall_mem_cons, List.not_mem_nil, false_imp_iff, implies_true, and_true]
    refine ⟨?_, ?_, ?_, ?_, ?_⟩ <;> exact inUnits_ofString rfl

namespace Settings

variable {s : Settings}

/-- Settings with other texts in them. -/
def mapTexts (f : Text → Text) (s : Settings) : Settings :=
  { s with
    path := s.path.map f
    output := s.output.map f
    ignore := s.ignore.map (List.map f)
    baseUrl := s.baseUrl.map f
    title := s.title.map f
    version := s.version.map f
    description := s.description.map f
    authentication := s.authentication.map (InfoAuthentication.mapTexts f) }

/-- The texts of settings. -/
def texts (s : Settings) : List Text :=
  s.path.toList ++ s.output.toList ++ s.ignore.getD [] ++ s.baseUrl.toList ++ s.title.toList ++
    s.version.toList ++ s.description.toList ++ s.authentication.toList.flatMap (·.texts)

/-- **Settings stay as they are exactly if each of their texts does.** -/
theorem mapTexts_eq_self_iff : s.mapTexts f = s ↔ ∀ t ∈ s.texts, f t = t := by
  obtain ⟨path, output, format, verbose, ignore, baseUrl, title, version, description,
    authentication⟩ := s
  have ignored : ignore.map (List.map f) = ignore ↔ ∀ t ∈ ignore.getD [], f t = t := by
    cases ignore <;> simp [list_map_eq_self_iff]
  have authenticated : authentication.map (InfoAuthentication.mapTexts f) = authentication ↔
      ∀ t ∈ authentication.toList.flatMap (·.texts), f t = t := by
    cases authentication <;> simp [InfoAuthentication.mapTexts_eq_self_iff]
  simp only [mapTexts, texts, Settings.mk.injEq, true_and, List.forall_mem_append,
    Option.mem_toList, Option.mem_def, and_assoc, ignored, authenticated, option_map_eq_self_iff]

/-- **Encoded settings are decoded to the settings.** -/
theorem decode_toJson {origin : Origin} (s : Settings) :
    decode origin (s.toJson false) = .ok s := by
  rw [← mapFloats_float (s.toJson false)]
  refine object_record (by simp) fun ms kept => ?_
  have name : ofText? (s.format.map Format.name) = s.format.elim .null fun k => .str k.name := by
    cases s.format <;> rfl
  have format : Decoder.member ms "format" "format" (some none)
      (nullable (enumeration Format.ofName?)) = .ok (s.format.map id) := by
    refine kept.optional (fun k => .str k.name) (by simp [name]) (by simp) (fun _ => ⟨rfl, rfl⟩) ?_
    intro k _
    simp only [mapFloats, enumeration, Format.ofName?_name, id]
  have ignore : Decoder.member ms "ignore" "ignore" (some none) (nullable (list text)) =
      .ok (s.ignore.map id) :=
    kept.optional Json.ofTexts (by simp) (by simp) (fun _ => ⟨rfl, rfl⟩) fun _ _ => list_ofTexts _
  have authentication : Decoder.member ms "authentication" "authentication" (some none)
      (nullable (InfoAuthentication.decode origin)) = .ok (s.authentication.map id) :=
    kept.optional (InfoAuthentication.toJson false) (by simp) (by simp) (fun _ => ⟨rfl, rfl⟩)
      fun a _ => a.decode_toJson
  rw [Option.map_id] at format ignore authentication
  refine also_ok (also_ok (also_ok (also_ok (also_ok (also_ok (also_ok (also_ok (also_ok (also_ok rfl
    ?_) ?_) format) ?_) ignore) ?_) ?_) ?_) ?_) authentication
  · exact kept.optionalText (by simp) (by simp)
  · exact kept.optionalText (by simp) (by simp)
  · exact kept.found (v := .bool s.verbose) (by simp) (by simp) rfl rfl
  · exact kept.optionalText (by simp) (by simp)
  · exact kept.optionalText (by simp) (by simp)
  · exact kept.optionalText (by simp) (by simp)
  · exact kept.optionalText (by simp) (by simp)

/-! ### Settings Loaded -/

/-- Settings in units of 16 bits, where each code point beyond the first plane is two. -/
def inUnits (s : Settings) : Settings := s.mapTexts Json.inUnits

/-- **Encoding settings with other texts gives the other texts**, as keys and the names of formats
and of kinds are in the first plane. -/
theorem mapTexts_toJson (s : Settings) :
    (s.toJson false).mapTexts Json.inUnits = s.inUnits.toJson false := by
  have format : (ofText? (s.format.map Format.name)).mapTexts Json.inUnits =
      ofText? (s.format.map Format.name) := by
    rw [mapTexts_ofText?]
    cases s.format with
    | none => rfl
    | some k => cases k <;> exact congrArg Json.str (inUnits_ofString rfl)
  rw [toJson, mapTexts_record]
  · simp only [List.map_cons, List.map_nil, mapTexts_ofText?, format, mapTexts_elim mapTexts_ofTexts,
      mapTexts_elim InfoAuthentication.mapTexts_toJson]
    rfl
  · simp only [List.forall_mem_cons, List.not_mem_nil, false_imp_iff, implies_true, and_true]
    refine ⟨?_, ?_, ?_, ?_, ?_, ?_, ?_, ?_, ?_, ?_⟩ <;> exact inUnits_ofString rfl

theorem madeOf_toJson (s : Settings) :
    Json.MadeOf (fun _ => True) Yaml.Cutting.IsNear (s.toJson false) := by
  have text (t : Option Text) :
      Json.MadeOf (fun _ => True) Yaml.Cutting.IsNear (ofText? t) :=
    MadeOf.elim (fun _ => .str trivial) t
  have authentication (a : InfoAuthentication) :
      Json.MadeOf (fun _ => True) Yaml.Cutting.IsNear (a.toJson false) := by
    refine MadeOf.record ?_ ?_
    · simp only [List.forall_mem_cons, List.not_mem_nil, false_imp_iff, implies_true, and_true]
      refine ⟨?_, ?_, ?_, ?_, ?_⟩ <;> exact isNear_of_length_le (by decide)
    · simp only [List.forall_mem_cons, List.not_mem_nil, false_imp_iff, implies_true, and_true]
      exact ⟨MadeOf.elim (fun _ => .str trivial) _, MadeOf.elim (fun b => .bool b) _, text _, text _,
        text _⟩
  refine MadeOf.record ?_ ?_
  · simp only [List.forall_mem_cons, List.not_mem_nil, false_imp_iff, implies_true, and_true]
    refine ⟨?_, ?_, ?_, ?_, ?_, ?_, ?_, ?_, ?_, ?_⟩ <;> exact isNear_of_length_le (by decide)
  · simp only [List.forall_mem_cons, List.not_mem_nil, false_imp_iff, implies_true, and_true]
    refine ⟨text _, text _, text _, .bool _, MadeOf.elim (fun ts => .arr ?_) _, text _, text _,
      text _, text _, MadeOf.elim authentication _⟩
    exact List.forall_mem_map.mpr fun _ _ => .str trivial

theorem bounded_toJson (s : Settings) : Bounded (fun _ => False) depth (s.toJson false) := by
  have authentication : Bounded (fun _ => False) 2
      (s.authentication.elim .null (InfoAuthentication.toJson false)) :=
    Bounded.elim fun a _ => a.bounded
  have ignore : Bounded (fun _ => False) 2 (s.ignore.elim .null Json.ofTexts) :=
    Bounded.elim fun ts _ => Bounded.ofTexts ts
  exact Bounded.record (by simp) (by simp [authentication, ignore])

/-- **Printed settings are read as YAML**, in units of 16 bits. -/
theorem ofText_print (s : Settings) : ofText s.print = .ok s.inUnits := by
  have read := Yaml.read_print (madeOf_toJson s) (bounded_toJson s).depth_le
  have value : (Yaml.Value.ofJson (s.inUnits.toJson false)).toJson isWord =
      s.inUnits.toJson false :=
    Yaml.Value.toJson_ofJson _ (bounded_toJson s.inUnits)
  rw [mapTexts_toJson] at read
  rw [ofText, print, read]
  dsimp only
  rw [value]
  change Except.ok (((decode .value (s.inUnits.toJson false)).toOption).getD default) = _
  rw [decode_toJson]
  rfl

/-- Printed settings are text in ASCII with line feeds. -/
theorem print_all_isPrinted (s : Settings) : s.print.all isPrinted = true := by
  rw [print, Json.print, List.all_append,
    printAt_all_isPrinted separates_asciiIndented 0 _ (.inl rfl)]
  rfl

variable {tree tree' : FileTree} {path : FilePath}

theorem load_eq_of_save (saved : s.save path tree = (.ok (), tree')) :
    load tree' path = .ok s.inUnits := by
  have read := FileTree.readText_of_writeText saved
    (scalar_and_lines_of_isPrinted (print_all_isPrinted s)).2
  rw [load, read]
  dsimp only
  rw [ofText_print]
  rfl

/-- Settings in units are the settings exactly if their texts are in the first plane. -/
theorem inUnits_eq_self_iff : s.inUnits = s ↔ ∀ t ∈ s.texts, ∀ c ∈ t, c.val < 0x10000 :=
  mapTexts_eq_self_iff.trans (forall₂_congr fun _ _ => Json.inUnits_eq_self_iff)

/-- **Saved settings are loaded in units of 16 bits**, that is, as they are exactly if all their
texts are in the first plane. -/
theorem load_of_save (saved : s.save path tree = (.ok (), tree')) :
    load tree' path = .ok s.inUnits ∧
      (load tree' path = .ok s ↔ ∀ t ∈ s.texts, ∀ c ∈ t, c.val < 0x10000) := by
  have loaded := load_eq_of_save saved
  refine ⟨loaded, ?_⟩
  rw [loaded, Except.ok.injEq, inUnits_eq_self_iff]

/-- Settings that leave files out and say nothing else. -/
def ignoring (patterns : List Text) : Settings := { default with ignore := some patterns }

/-- Settings can be saved over a file. -/
theorem exists_save (s : Settings) :
    ∃ tree', s.save (.ofText "doc.json") Editor.usersTree = (.ok (), tree') := by
  obtain ⟨⟨t, read, -⟩, -⟩ := Editor.holds_usersTree
  obtain ⟨scalar, lines⟩ := scalar_and_lines_of_isPrinted (print_all_isPrinted s)
  obtain ⟨tree', written, -⟩ := Editor.wellFormed_usersTree.exists_write_read read scalar lines
  exact ⟨tree', written⟩

theorem load_of_save_drafts :
    ∃ tree', (ignoring ["*/drafts/*"]).save (.ofText "doc.json") Editor.usersTree =
        (.ok (), tree') ∧
      load tree' (.ofText "doc.json") = .ok (ignoring ["*/drafts/*"]) := by
  obtain ⟨tree', saved⟩ := exists_save (ignoring ["*/drafts/*"])
  have plane : ∀ t ∈ (ignoring ["*/drafts/*"]).texts, ∀ c ∈ t, c.val < 0x10000 :=
    List.forall_mem_singleton.mpr (Json.inUnits_eq_self_iff.mp (inUnits_ofString rfl))
  exact ⟨tree', saved, (load_of_save saved).2.mpr plane⟩

/-- A pattern with a code point beyond the first plane is loaded with two surrogates in its
place. -/
theorem pattern_loads_as_surrogates :
    ∃ tree', (ignoring [[⟨0x1F600, by decide⟩]]).save (.ofText "doc.json") Editor.usersTree =
        (.ok (), tree') ∧
      load tree' (.ofText "doc.json") =
        .ok (ignoring [[⟨0xD83D, by decide⟩, ⟨0xDE00, by decide⟩]]) ∧
      load tree' (.ofText "doc.json") ≠ .ok (ignoring [[⟨0x1F600, by decide⟩]]) := by
  obtain ⟨tree', saved⟩ := exists_save (ignoring [[⟨0x1F600, by decide⟩]])
  have loaded := load_eq_of_save saved
  refine ⟨tree', saved, loaded, fun same => ?_⟩
  have patterns := congrArg Settings.ignore (Except.ok.inj (loaded.symm.trans same))
  exact absurd patterns (by decide)

end Settings

end RouteDocs
