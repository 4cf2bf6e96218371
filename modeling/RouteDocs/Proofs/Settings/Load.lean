import RouteDocs.Proofs.Json.Stops
import RouteDocs.Proofs.Settings
import RouteDocs.Proofs.Yaml.Faults

/-!
# Settings of Any File

What is loaded from a file, whatever its bytes are. Most files that give no settings count as files
that say nothing, but three kinds of files cannot be loaded: those whose bytes are no text, those
whose text is denied as YAML, such as a title that is a day of a thirteenth month, and those whose
text is malformed as YAML and too deep to be read as JSON.

## Main Definitions

* `Settings.Holds`: the value of a text, in YAML or else in JSON
* `Settings.Gives`: the settings that a text gives
* `Settings.Stops`: a text cannot be read

## Main Statements

* `Settings.ofText_cases`: a text that can be read has a value, or counts as one that says nothing
* `Settings.ofText_eq_error_iff`: **reading settings fails exactly for texts that cannot be read**
* `Settings.load_of_file`: **what is loaded from any file**
-/

namespace RouteDocs

namespace Settings

/-- The value of a text: in YAML, or else in JSON. -/
inductive Holds (t : Text) : Json → Prop
  /-- The text is YAML. -/
  | yaml {v : Yaml.Value} (read : Yaml.read depth t = .ok v) : Holds t (v.toJson isWord)
  /-- The text is malformed as YAML, but it is JSON. -/
  | json {v : Json} (malformed : Yaml.read depth t = .error .malformed)
      (read : Json.read .fragment t = .ok v) : Holds t v

/-- The settings that a text gives: those of its value, which is a valid object. -/
def Gives (t : Text) (s : Settings) : Prop :=
  ∃ ms, Holds t (.obj ms) ∧ decode .value (.obj ms) = .ok s

/-- **A text cannot be read.** -/
inductive Stops (t : Text) : Yaml.ScalarFault → Prop
  /-- It is YAML, but denotes no value. -/
  | denied {f : Yaml.ScalarFault} (denied : Yaml.Denied t f) : Stops t f
  /-- It is malformed as YAML, and as JSON it opens more brackets than may be open. -/
  | tooDeep {place : Nat} (malformed : Yaml.read depth t = .error .malformed)
      (deep : Json.read .fragment t = .error ⟨.tooDeep, place⟩)
      (many : Json.Dialect.fragment.maxDepth < Json.openings t) :
      Stops t (.tooDeep (t[place]? == some ('[' : CodePoint)))

variable {t : Text} {s : Settings} {tree : FileTree} {path : FilePath} {bytes : List UInt8}

/-- A text has one value. -/
theorem Holds.unique {v w : Json} (first : Holds t v) (second : Holds t w) : v = w := by
  rcases first with read | ⟨malformed, read⟩ <;> rcases second with read' | ⟨malformed', read'⟩
  · rw [Except.ok.inj (read.symm.trans read')]
  · cases read.symm.trans malformed'
  · cases read'.symm.trans malformed
  · exact Except.ok.inj (read.symm.trans read')

/-- A text that is malformed in both forms has no value. -/
theorem not_holds {e : Json.ReadError} (yaml : Yaml.read depth t = .error .malformed)
    (json : Json.read .fragment t = .error e) (v : Json) : ¬ Holds t v := by
  rintro (read | ⟨-, read⟩)
  · cases yaml.symm.trans read
  · cases json.symm.trans read

/-- The settings of a value are those that it gives, if it gives any. -/
theorem ofJson_eq_of_decode {ms : List (Text × Json)} (valid : decode .value (.obj ms) = .ok s) :
    ofJson (.obj ms) = s := by
  rw [ofJson, valid]
  rfl

theorem ofJson_eq_default {v : Json}
    (invalid : ∀ ms s, v = .obj ms → decode .value v ≠ .ok s) : ofJson v = default := by
  cases v with
  | obj ms =>
      rw [ofJson]
      cases decoded : decode .value (.obj ms) with
      | error e => rfl
      | ok s => exact absurd decoded (invalid ms s rfl)
  | _ => rfl

/-- **Reading fails exactly for texts that cannot be read.** -/
theorem ofText_eq_error_iff {f : Yaml.ScalarFault} : ofText t = .error f ↔ Stops t f := by
  constructor
  · intro fault
    cases yaml : Yaml.read depth t with
    | ok v =>
        rw [ofText, yaml] at fault
        cases fault
    | error e =>
        cases e with
        | scalar g =>
            rw [ofText, yaml] at fault
            obtain rfl : g = f := Except.error.inj fault
            exact .denied (Yaml.read_eq_scalar_iff.mp yaml)
        | malformed =>
            cases json : Json.read .fragment t with
            | ok v =>
                rw [ofText, yaml, json] at fault
                cases fault
            | error e =>
                obtain ⟨cause, place⟩ := e
                rw [ofText, yaml, json] at fault
                cases cause with
                | tooDeep =>
                    have many := Json.excess_of_read json
                    rw [← Except.error.inj fault]
                    exact .tooDeep yaml json (Nat.zero_add (Json.openings t) ▸ many)
                | _ => cases fault
  · rintro (denied | ⟨malformed, deep, -⟩)
    · rw [ofText, Yaml.read_eq_scalar_iff.mpr denied]
    · rw [ofText, malformed, deep]

/-- **A text that can be read has a value, or gives no settings.** -/
theorem ofText_cases (fair : ∀ f, ¬ Stops t f) :
    (∃ v, Holds t v ∧ ofText t = .ok (ofJson v)) ∨
      (∀ v, ¬ Holds t v) ∧ ofText t = .ok default := by
  cases yaml : Yaml.read depth t with
  | ok v =>
      refine .inl ⟨v.toJson isWord, .yaml yaml, ?_⟩
      rw [ofText, yaml]
  | error e =>
      cases e with
      | scalar f => exact absurd (.denied (Yaml.read_eq_scalar_iff.mp yaml)) (fair f)
      | malformed =>
          cases json : Json.read .fragment t with
          | ok v =>
              refine .inl ⟨v, .json yaml json, ?_⟩
              rw [ofText, yaml, json]
          | error e =>
              refine .inr ⟨not_holds yaml json, ?_⟩
              cases read : ofText t with
              | error f => exact absurd (ofText_eq_error_iff.mp read) (fair f)
              | ok s =>
                  obtain ⟨cause, place⟩ := e
                  rw [ofText, yaml, json] at read
                  cases cause with
                  | tooDeep => cases read
                  | _ => exact read.symm

/-- The settings that a text gives are read. -/
theorem ofText_eq_of_gives (gives : Gives t s) (fair : ∀ f, ¬ Stops t f) :
    ofText t = .ok s := by
  obtain ⟨ms, holds, valid⟩ := gives
  rcases ofText_cases fair with ⟨v, own, eq⟩ | ⟨nothing, -⟩
  · rw [eq, own.unique holds, ofJson_eq_of_decode valid]
  · exact absurd holds (nothing _)

/-- A text that gives no settings counts as one that says nothing. -/
theorem ofText_eq_default (invalid : ∀ s, ¬ Gives t s) (fair : ∀ f, ¬ Stops t f) :
    ofText t = .ok default := by
  rcases ofText_cases fair with ⟨v, holds, eq⟩ | ⟨-, eq⟩
  · rw [eq, ofJson_eq_default]
    rintro ms s rfl valid
    exact invalid s ⟨ms, holds, valid⟩
  · exact eq

/-! ### Files -/

theorem readBytes_of_file (there : tree.at? path = some (.file bytes)) :
    tree.readBytes path = .ok bytes := by
  rw [FileTree.at?] at there
  cases located : tree.locate path with
  | error e =>
      rw [located] at there
      cases there
  | ok place =>
      rw [located] at there
      have found : tree.entry? place = some (.file bytes) := there
      simp only [FileTree.readBytes, located, bind, Except.bind, found]

/-- Bytes that are no text cannot be loaded. -/
theorem load_of_undecodable {e : Utf8.DecodeError} (there : tree.at? path = some (.file bytes))
    (noText : Utf8.decode bytes = .error e) :
    load tree path = .error (.file (.undecodable e)) := by
  have read : tree.readText path = .error (.undecodable e) := by
    simp only [FileTree.readText, readBytes_of_file there, bind, Except.bind, noText]
  rw [load, read]

/-- From bytes that are a text its settings are loaded. -/
theorem load_of_decoded (there : tree.at? path = some (.file bytes))
    (decoded : Utf8.decode bytes = .ok t) :
    load tree path = (ofText t.universalNewlines).mapError .scalar := by
  have read : tree.readText path = .ok t.universalNewlines := by
    simp only [FileTree.readText, readBytes_of_file there, bind, Except.bind, decoded]
  rw [load, read]

/-- A path never fails to lead somewhere because of what is in a file. -/
theorem locate_ne_undecodable (tree : FileTree) (path : FilePath) (e : Utf8.DecodeError) :
    tree.locate path ≠ .error (.undecodable e) := by
  have walk (t : Text) (place : Place) (parts : List Text) :
      tree.walk t place parts ≠ .error (.undecodable e) := by
    induction parts generalizing place with
    | nil => rintro ⟨⟩
    | cons part more ih =>
        rw [FileTree.walk]
        split
        · rintro ⟨⟩
        · rintro ⟨⟩
        · split
          · split
            · rintro ⟨⟩
            · exact ih _
          · split
            · rintro ⟨⟩
            · exact ih _
  unfold FileTree.locate
  dsimp only
  split
  · rintro ⟨⟩
  · split
    · rintro ⟨⟩
    · split
      · split
        · exact walk _ _ _
        · rintro ⟨⟩
      · exact walk _ _ _

/-- Where nothing is, no settings are loaded, unless the name is too long to ask for it. -/
theorem load_of_missing (missing : tree.at? path = none) :
    load tree path = .ok default ∨ ∃ p, tree.locate path = .error (.nameTooLong p) ∧
      load tree path = .error (.file (.nameTooLong p)) := by
  cases located : tree.locate path with
  | ok place =>
      have nothing : tree.entry? place = none := by
        rwa [FileTree.at?, located] at missing
      have read : tree.readText path = .error (.notFound path.toText) := by
        simp only [FileTree.readText, FileTree.readBytes, located, bind, Except.bind, nothing]
      exact .inl (by rw [load, read])
  | error e =>
      have read : tree.readText path = .error e := by
        simp only [FileTree.readText, FileTree.readBytes, located, bind, Except.bind]
      cases e with
      | nameTooLong p => exact .inr ⟨p, rfl, by rw [load, read]⟩
      | undecodable e => exact absurd located (locate_ne_undecodable tree path e)
      | _ => exact .inl (by rw [load, read])

/-- **What is loaded from any path**: where nothing is, settings that say nothing, unless the name
is too long. From a file with any bytes, nothing if they are no text, and nothing if the text cannot
be read; otherwise the settings that the text gives, or else settings that say nothing. -/
theorem load_of_file (tree : FileTree) (path : FilePath) :
    (tree.at? path = none → load tree path = .ok default ∨
      ∃ p, tree.locate path = .error (.nameTooLong p) ∧
        load tree path = .error (.file (.nameTooLong p))) ∧
    ∀ bytes, tree.at? path = some (.file bytes) →
      (∀ e, Utf8.decode bytes = .error e → load tree path = .error (.file (.undecodable e))) ∧
      ∀ t, Utf8.decode bytes = .ok t →
        (∀ f, load tree path = .error (.scalar f) ↔ Stops t.universalNewlines f) ∧
        ((∀ f, ¬ Stops t.universalNewlines f) →
          (∀ s, Gives t.universalNewlines s → load tree path = .ok s) ∧
          ((∀ s, ¬ Gives t.universalNewlines s) → load tree path = .ok default)) := by
  refine ⟨load_of_missing, fun bytes there => ⟨fun e => load_of_undecodable there,
    fun t decoded => ?_⟩⟩
  have loaded := load_of_decoded there decoded
  refine ⟨fun f => ?_, fun fair => ⟨fun s gives => ?_, fun invalid => ?_⟩⟩
  · rw [loaded, ← ofText_eq_error_iff]
    cases ofText t.universalNewlines <;> constructor <;> rintro ⟨⟩ <;> rfl
  · rw [loaded, ofText_eq_of_gives gives fair]
    rfl
  · rw [loaded, ofText_eq_default invalid fair]
    rfl

/-- A tree with one file, under the name that settings have. -/
def holding (bytes : List UInt8) : FileTree :=
  ⟨.ofText "/work", [], [([defaultFile], .file bytes)]⟩

/-- Printed settings are given by their text. -/
theorem gives_print (s : Settings) : Gives s.print s.inUnits := by
  have read := Yaml.read_print (madeOf_toJson s) (bounded_toJson s).depth_le
  have value : (Yaml.Value.ofJson (s.inUnits.toJson false)).toJson isWord =
      s.inUnits.toJson false :=
    Yaml.Value.toJson_ofJson _ (bounded_toJson s.inUnits)
  rw [mapTexts_toJson] at read
  have holds := Holds.yaml read
  rw [value] at holds
  exact ⟨_, holds, decode_toJson s.inUnits⟩

theorem not_stops_print (s : Settings) (f : Yaml.ScalarFault) : ¬ Stops s.print f := by
  rw [← ofText_eq_error_iff, ofText_print]
  rintro ⟨⟩

/-- Settings are loaded from what is printed for them, and settings that say nothing from a bracket
and from where nothing is; a byte that is no text cannot be loaded. -/
theorem load_of_file_holding :
    load (holding ((ignoring ["*/drafts/*"]).print.flatMap Utf8.encodeOne)) (.ofText defaultFile) =
        .ok (ignoring ["*/drafts/*"]) ∧
      load (holding [0x5B]) (.ofText defaultFile) = .ok default ∧
      load (holding [0xFF]) (.ofText defaultFile) =
        .error (.file (.undecodable ⟨0, 0xFF, 1, .invalidStart⟩)) ∧
      load (holding []) (.ofText "other.json") = .ok default := by
  refine ⟨?_, ?_, ?_, ?_⟩
  · obtain ⟨scalar, lines⟩ :=
      Json.scalar_and_lines_of_isPrinted (print_all_isPrinted (ignoring ["*/drafts/*"]))
    have plane : ∀ t ∈ (ignoring ["*/drafts/*"]).texts, ∀ c ∈ t, c.val < 0x10000 :=
      List.forall_mem_singleton.mpr (Json.inUnits_eq_self_iff.mp (Json.inUnits_ofString rfl))
    have gives := gives_print (ignoring ["*/drafts/*"])
    rw [inUnits_eq_self_iff.mpr plane] at gives
    have loaded := (load_of_file (holding ((ignoring ["*/drafts/*"]).print.flatMap
      Utf8.encodeOne)) (.ofText defaultFile)).2 _ rfl
    have settled := (loaded.2 _ (Utf8.decodeFrom_flatMap scalar 0)).2
    rw [Text.universalNewlines_eq_self lines] at settled
    exact (settled (not_stops_print _)).1 _ gives
  · have yaml : Yaml.read depth "[" = .error .malformed := by decide +kernel
    have json : Json.read .fragment "[" = .error ⟨.noValue, 1⟩ := by decide +kernel
    have fair (f : Yaml.ScalarFault) : ¬ Stops "[" f := by
      rw [← ofText_eq_error_iff, ofText, yaml, json]
      rintro ⟨⟩
    have settled := ((load_of_file (holding [0x5B]) (.ofText defaultFile)).2 _ rfl).2 "[" rfl
    refine (settled.2 fair).2 ?_
    rintro s ⟨ms, holds, -⟩
    exact not_holds yaml json _ holds
  · exact ((load_of_file (holding [0xFF]) (.ofText defaultFile)).2 _ rfl).1 _ rfl
  · exact ((load_of_file (holding []) (.ofText "other.json")).1 rfl).resolve_right
      (by rintro ⟨p, located, -⟩; cases located)

/-- More opening brackets than may be open, behind which a bell makes the text malformed as YAML. -/
def nestedText : Text := List.replicate 991 ('[' : CodePoint) ++ ("\x07" : Text)

theorem stops_nestedText : Stops nestedText (.tooDeep true) := by
  have malformed : Yaml.read depth nestedText = .error .malformed := by decide +kernel
  have deep : Json.read .fragment nestedText = .error ⟨.tooDeep, 990⟩ := by decide +kernel
  have bracket : (nestedText[990]? == some ('[' : CodePoint)) = true := by decide +kernel
  exact bracket ▸ .tooDeep malformed deep (by decide +kernel)

/-- **Loading fails** for a byte that is no text, for a title that is a day of a thirteenth month,
and for brackets that are nested too deep. -/
theorem load_fails :
    load (holding [0xFF]) (.ofText defaultFile) =
        .error (.file (.undecodable ⟨0, 0xFF, 1, .invalidStart⟩)) ∧
      load (holding (("title: 2024-13-01" : Text).flatMap Utf8.encodeOne)) (.ofText defaultFile) =
        .error (.scalar .month) ∧
      load (holding (nestedText.flatMap Utf8.encodeOne)) (.ofText defaultFile) =
        .error (.scalar (.tooDeep true)) := by
  have denied : Yaml.Denied (Text.universalNewlines "title: 2024-13-01") .month := by
    decide +kernel
  refine ⟨load_of_undecodable rfl rfl, ?_, ?_⟩
  · rw [load_of_decoded rfl (Utf8.decodeFrom_flatMap rfl 0),
      ofText_eq_error_iff.mpr (.denied denied)]
    rfl
  · have scalar : nestedText.isScalar = true := by decide +kernel
    have lines : nestedText.universalNewlines = nestedText := by decide +kernel
    rw [load_of_decoded rfl (Utf8.decodeFrom_flatMap scalar 0), lines,
      ofText_eq_error_iff.mpr stops_nestedText]
    rfl

end Settings

end RouteDocs
