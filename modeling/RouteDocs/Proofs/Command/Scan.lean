import RouteDocs.Command.Run
import RouteDocs.Proofs.Command.Call
import RouteDocs.Proofs.Files.Frame

/-!
# What the Scan Command Writes

A call of the scan command writes one file and nothing else: where, in which format and of which
directory is settled by its options, the settings and the defaults, in this order.

## Main Definitions

* `FileTree.Written`: a file is written, and else at most directories are made
* `Command.IsShown`: the lines that the command prints can be encoded

## Main Statements

* `Command.program_scan`: the first word names the command
* `Command.ScanPlan.stops_run`: where there is no directory to scan, nothing is written
* `Command.ScanPlan.gives_run`: the documentation is written, and the command ends well
* `Command.scan_writes_one_file`: **the scan command writes its output and nothing else**
* `Command.ScanPlan.stops_run_of_stray`, `Command.scan_writes_nothing`: a line that cannot be encoded
  ends the command before it writes

## Design Notes

Lines are printed before and after the file is written, and each of them ends the command if it
cannot be encoded.  A path on a disk need not be a text that can, so the lines with paths are a
condition of their own.
-/

namespace RouteDocs

namespace FileTree

variable {tree made tree' : FileTree} {path : FilePath} {t : Text}

/-- **A file is written**, and nothing else changes but that directories are made. -/
def Written (path : FilePath) (t : Text) (tree tree' : FileTree) : Prop :=
  ∃ place, tree'.locate path = .ok place ∧
    tree'.entry? place = some (.file (t.flatMap Utf8.encodeOne)) ∧
    ∀ q, q ≠ place → tree'.entry? q = tree.entry? q ∨
      tree.entry? q = none ∧ tree'.entry? q = some .directory

theorem written_of_writeText {directory : FilePath}
    (first : makeDirs directory tree = (.ok (), made))
    (second : writeText path t made = (.ok (), tree')) : Written path t tree tree' := by
  have grows : Grows tree made := by
    have all := makeDirs_grows directory tree
    rwa [first] at all
  obtain ⟨place, bytes, located, ne, free, encoded, rfl⟩ := eq_put_of_writeText second
  obtain ⟨-, rfl⟩ := Utf8.encode_eq_ok.mp encoded
  refine ⟨place, (put_keeps ne free _).locate_eq_ok located, ?_, fun q apart => ?_⟩
  · rw [entry?_put ne, if_pos rfl]
  · rw [entry?_put ne, if_neg apart]
    exact grows.entry q

/-- Writing does not move anything. -/
theorem absolute_eq_of_writeText {directory : FilePath}
    (first : makeDirs directory tree = (.ok (), made))
    (second : writeText path t made = (.ok (), tree')) (p : FilePath) :
    tree'.absolute p = tree.absolute p := by
  have keeps : Keeps tree made := by
    have all := (makeDirs_grows directory tree).keeps
    rwa [first] at all
  obtain ⟨place, bytes, -, ne, free, -, rfl⟩ := eq_put_of_writeText second
  have keeps' := put_keeps ne free (.file bytes)
  rw [absolute, absolute, keeps'.base, keeps'.cwd, keeps.base, keeps.cwd]

end FileTree

/-! ### Lines That Can Be Encoded -/

namespace Text

variable {t u : Text}

theorem isScalar_append : (t ++ u).isScalar = true ↔ t.isScalar = true ∧ u.isScalar = true := by
  rw [isScalar, List.all_append, Bool.and_eq_true]
  rfl

theorem isScalar_ofNat (n : Nat) : (ofNat n).isScalar = true :=
  List.all_eq_true.mpr fun c mem => by
    have digit := isAsciiDigit_of_mem_ofNat mem
    simp only [CodePoint.isAsciiDigit, Bool.and_eq_true, decide_eq_true_eq] at digit
    simp only [CodePoint.isSurrogate, Bool.not_eq_true', Bool.and_eq_false_iff,
      decide_eq_false_iff_not]
    omega

end Text

namespace Command

open FileTree

theorem isScalar_kilobytes (n : Nat) : (kilobytes n).isScalar = true := by
  unfold kilobytes
  simp only [Text.isScalar_append, Text.isScalar_ofNat, true_and, and_true]
  split <;> exact ⟨rfl, rfl⟩

variable {tree tree' made : FileTree} {plan : ScanPlan} {s : Settings} {workers : Nat} {now : Text}

/-- **The lines that the command prints can be encoded**: they show the directory, the whole path of
the file and, if more is told, the path as it was given. -/
structure IsShown (tree : FileTree) (plan : ScanPlan) : Prop where
  path : plan.path.isScalar = true
  output : plan.verbose = true → plan.output.isScalar = true
  file : (tree.absolute (FilePath.ofText plan.output)).toText.isScalar = true

/-! ### Scanning and Writing -/

/-- The first word names the command. -/
theorem program_scan (words : List Text) (now : Text) :
    program ("scan" :: words) now = scan words now := by
  have read : readOptions programOptions false ("scan" :: words) = .ok ⟨[], "scan" :: words⟩ := by
    have size := add_length_le_foldl (("scan" : Text) :: words) 1
    obtain ⟨steps, fuel⟩ := Nat.exists_eq_add_of_le (show 1 ≤
      2 * (("scan" : Text) :: words).foldl (fun n w => n + w.length + 1) 1 by omega)
    rw [readOptions, fuel, Nat.add_comm]
    rfl
  unfold program
  rw [read]
  rfl

theorem run_scan (words : List Text) (input : Text) (tree : FileTree) (now : Text) :
    run ("scan" :: words) input tree now =
      (ScanCall.ofWords words >>= fun a => a.run now).finish ⟨tree, typedLines input, [], []⟩ := by
  rw [run, program_scan]
  rfl

/-- What a plan does after it has told the configuration. -/
def ScanPlan.scanAndWrite (plan : ScanPlan) (s : Settings) (workers : Nat) (now : Text) :
    Action Unit := do
  match Scan.run (← get).tree (scanOptions plan.path s workers) now with
  | .error e => throw (.refused e.message)
  | .ok d => do
    echo ("Found " ++ Text.ofNat d.totalEndpoints.toNat ++ " endpoints.")
    let written ← onFiles Failure.output (plan.format.write d (FilePath.ofText plan.output))
    if plan.format == .jsonFolder then
      echo ("Documentation saved to " ++ plan.output ++ " (" ++ Text.ofNat written.length
        ++ " files)")
    else written.forM reportFile

theorem ScanPlan.run_eq (plan : ScanPlan) (s : Settings) (workers : Nat) (now : Text) :
    plan.run s workers now =
      if plan.verbose then do
        echo "Configuration:"
        echo ("  Path: " ++ plan.path)
        echo ("  Output: " ++ plan.output)
        echo ("  Format: " ++ plan.format.name)
        plan.scanAndWrite s workers now
      else plan.scanAndWrite s workers now :=
  rfl

/-- **Where there is no directory to scan, nothing is written.** -/
theorem ScanPlan.stops_run (absent : tree.pathExists (FilePath.ofText plan.path) = false) :
    (plan.run s workers now).Stops tree 1 tree := by
  have refused : Scan.run tree (scanOptions plan.path s workers) now =
      .error (.notFound (FilePath.ofText plan.path)) := by
    simp only [Scan.run, Scan.runFinishing, scanOptions, absent, Bool.not_false, if_true]
  have rest : (plan.scanAndWrite s workers now).Stops tree 1 tree := by
    refine stops_get tree fun c here => ?_
    rw [here, refused]
    exact Action.stops_throw _ tree
  rw [run_eq]
  split
  · exact stops_echo_bind (stops_echo_bind (stops_echo_bind (stops_echo_bind rest)))
  · exact rest

/-- **An output that cannot be encoded ends the command before it writes**, if more is told. -/
theorem ScanPlan.stops_run_of_stray (told : plan.verbose = true)
    (stray : plan.output.isScalar = false) : (plan.run s workers now).Stops tree 1 tree := by
  have line : (("  Output: " : Text) ++ plan.output).isScalar = false := by
    rw [← Bool.not_eq_true, Text.isScalar_append, stray]
    exact fun both => Bool.false_ne_true both.2
  rw [run_eq, if_pos told]
  exact stops_echo_bind (stops_echo_bind (stops_echo line tree).bind)

/-- Where a file is, and how large it is, is told. -/
theorem gives_reportFile {path : FilePath} (scalar : (tree.absolute path).toText.isScalar = true) :
    (reportFile path).Gives tree () tree := by
  refine gives_get tree fun c here => (gives_echo ?_ tree).bind (gives_echo ?_ tree)
  · rw [here]
    exact Text.isScalar_append.mpr ⟨rfl, scalar⟩
  · exact Text.isScalar_append.mpr
      ⟨Text.isScalar_append.mpr ⟨rfl, isScalar_kilobytes _⟩, rfl⟩

/-- A text that is rendered is written to one file. -/
theorem write_eq_ok {f : Format} (single : f ≠ .jsonFolder) {d : Documentation} {output : FilePath}
    {t : Text} (rendered : f.render (Format.isYamlPath output) d = .ok t)
    (first : makeDirs output.parent tree = (.ok (), made))
    (second : writeText output t made = (.ok (), tree')) :
    f.write d output tree = (.ok [output], tree') := by
  have action : (do makeDirs output.parent; writeText output t; pure [output] :
      FileAction (List FilePath)) tree = (.ok [output], tree') := by
    rw [bind_apply, first]
    dsimp only
    rw [bind_apply, second]
    rfl
  have steps : f.write d output tree =
      OutputAction.ofFile (do makeDirs output.parent; writeText output t; pure [output]) tree := by
    rw [Format.write, rendered]
    · rfl
    · exact single
  rw [steps, OutputAction.ofFile, action]

/-- **The documentation is written, and the command ends well.** -/
theorem ScanPlan.gives_run (single : plan.format ≠ .jsonFolder) {d : Documentation}
    (scanned : Scan.run tree (scanOptions plan.path s workers) now = .ok d)
    (wrote : plan.format.write d (FilePath.ofText plan.output) tree =
      (.ok [FilePath.ofText plan.output], tree'))
    (still : ∀ p, tree'.absolute p = tree.absolute p) (shown : IsShown tree plan) :
    (plan.run s workers now).Gives tree () tree' := by
  have name : plan.format.name.isScalar = true := by cases plan.format <;> rfl
  have rest : (plan.scanAndWrite s workers now).Gives tree () tree' := by
    refine gives_get tree fun c here => ?_
    rw [here, scanned]
    refine (gives_echo ?_ tree).bind ((gives_onFiles wrote).bind ?_)
    · exact Text.isScalar_append.mpr ⟨Text.isScalar_append.mpr ⟨rfl, Text.isScalar_ofNat _⟩, rfl⟩
    · rw [if_neg (by simpa using single)]
      refine (gives_reportFile ?_).bind (Action.gives_pure () tree')
      rw [still]
      exact shown.file
  rw [run_eq]
  split
  · next told =>
      exact (gives_echo rfl tree).bind ((gives_echo (Text.isScalar_append.mpr ⟨rfl, shown.path⟩)
        tree).bind ((gives_echo (Text.isScalar_append.mpr ⟨rfl, shown.output told⟩) tree).bind
          ((gives_echo (Text.isScalar_append.mpr ⟨rfl, name⟩) tree).bind rest)))
  · exact rest

variable {a : ScanCall}

theorem ScanCall.stops_run (loaded : Settings.load tree (FilePath.ofText a.settings) = .ok s)
    (rest : ((ScanPlan.ofCall a s).run s a.workers now).Stops tree 1 tree) :
    (a.run now).Stops tree 1 tree := by
  refine stops_get tree fun c here => ?_
  rw [here, loaded]
  exact (Action.gives_pure s tree).stops ((gives_request _ tree).stops (stops_echo_bind rest))

/-- Where there is something to scan, a scan gives a documentation. -/
theorem exists_scan (s : Settings) (workers : Nat) (now : Text) {path : Text}
    (present : tree.pathExists (FilePath.ofText path) = true) :
    ∃ d, Scan.run tree (scanOptions path s workers) now = .ok d := by
  rw [Scan.run, Scan.runFinishing, if_neg (by simpa [scanOptions] using present)]
  exact ⟨_, rfl⟩

/-- Where a plan stops and changes nothing, so does the program. -/
theorem run_of_stops {words : List Text} (read : (ScanCall.ofWords words).Gives tree a tree)
    (loaded : Settings.load tree (FilePath.ofText a.settings) = .ok s) (input : Text)
    (rest : ((ScanPlan.ofCall a s).run s a.workers now).Stops tree 1 tree) :
    (run ("scan" :: words) input tree now).1.exitCode = 1 ∧
      (run ("scan" :: words) input tree now).2.tree = tree := by
  rw [run_scan]
  exact (read.stops (ScanCall.stops_run loaded rest)).finish

theorem ScanCall.gives_run (loaded : Settings.load tree (FilePath.ofText a.settings) = .ok s)
    (path : (ScanPlan.ofCall a s).path.isScalar = true)
    (rest : ((ScanPlan.ofCall a s).run s a.workers now).Gives tree () tree') :
    (a.run now).Gives tree () tree' := by
  refine gives_get tree fun c here => ?_
  rw [here, loaded]
  refine (Action.gives_pure s tree).bind
    ((gives_request _ tree).bind ((gives_echo ?_ tree).bind rest))
  exact Text.isScalar_append.mpr ⟨Text.isScalar_append.mpr ⟨rfl, path⟩, rfl⟩

/-- Of two texts the first that is given and not empty counts. -/
theorem firstText_pair (t u : Option Text) (default : Text) : firstText [t, u] default =
    ((t.filter (· ≠ [])).or (u.filter (· ≠ []))).getD default := by
  have filtered : ∀ t : Option Text, t.filter (fun t => !t.isEmpty) = t.filter (· ≠ []) := by
    intro t
    congr 1
    funext t
    cases t <;> rfl
  unfold firstText
  simp only [List.findSome?_cons, List.findSome?_nil, filtered]
  cases t.filter (· ≠ []) <;> cases u.filter (· ≠ []) <;> rfl

/-- **The scan command writes its output and nothing else.**  Every call of it can be typed.  However
it is typed, its directory, format and output are settled by the options before the settings and by
those before the defaults.  If there is nothing to scan at the directory, the command fails and
changes nothing.  Else, if the documentation can be rendered and written and the lines that are
printed can be encoded, the command ends well and the output, which holds the text of the
documentation, is the only file that is new or changed. -/
theorem scan_writes_one_file (positive : 1 ≤ a.workers)
    (loaded : Settings.load tree (FilePath.ofText a.settings) = .ok s)
    (single : a.format.getD (s.format.getD .json) ≠ .jsonFolder) :
    (ScanCall.ofWords a.words).Gives tree a tree ∧
    ∀ words : List Text, (ScanCall.ofWords words).Gives tree a tree → ∀ input now : Text,
      let ownFormat := s.format.getD .json
      let format := a.format.getD ownFormat
      let path := ((a.path.filter (· ≠ [])).or (s.path.filter (· ≠ []))).getD "src/app/api"
      let ownOutput := if format = ownFormat then s.output else none
      let output := ((a.output.filter (· ≠ [])).or (ownOutput.filter (· ≠ []))).getD
        format.defaultOutput
      let file := FilePath.ofText output
      let result := run ("scan" :: words) input tree now
      (tree.pathExists (FilePath.ofText path) = false →
        result.1.exitCode = 1 ∧ result.2.tree = tree) ∧
      (tree.pathExists (FilePath.ofText path) = true →
        ∃ d, Scan.run tree (scanOptions path s a.workers) now = .ok d ∧
          ∀ t made tree', format.render (Format.isYamlPath file) d = .ok t →
            makeDirs file.parent tree = (.ok (), made) → writeText file t made = (.ok (), tree') →
            IsShown tree ⟨path, output, format, a.verbose || s.verbose⟩ →
            result.1.exitCode = 0 ∧ result.2.tree = tree' ∧ Written file t tree tree') := by
  refine ⟨ScanCall.gives_ofWords positive tree, fun words read input now => ?_⟩
  intro ownFormat format path ownOutput output file result
  let plan : ScanPlan := ⟨path, output, format, a.verbose || s.verbose⟩
  have settled : ScanPlan.ofCall a s = plan := by
    simp only [ScanPlan.ofCall, firstText_pair, beq_iff_eq]
    rfl
  refine ⟨fun absent => ?_, fun present => ?_⟩
  · refine run_of_stops read loaded input ?_
    rw [settled]
    exact ScanPlan.stops_run absent
  · obtain ⟨d, scanned⟩ := exists_scan s a.workers now present
    refine ⟨d, scanned, ?_⟩
    intro t made tree' rendered first second shown
    refine and_assoc.mp ⟨?_, written_of_writeText first second⟩
    have start : result = _ := run_scan words input tree now
    rw [start]
    refine (read.bind (ScanCall.gives_run loaded ?_ ?_)).finish
    · rw [settled]
      exact shown.path
    · rw [settled]
      exact ScanPlan.gives_run single scanned (write_eq_ok single rendered first second)
        (absolute_eq_of_writeText first second) shown

/-- A directory with one route file. -/
def routeTree : FileTree :=
  ⟨.ofText "/t", [], [(["src"], .directory), (["src", "app"], .directory),
    (["src", "app", "api"], .directory),
    (["src", "app", "api", "route.ts"],
      .file ((Text.ofString "export const GET = g").flatMap Utf8.encodeOne))]⟩

/-- The directory together with settings. -/
def configured (s : Settings) : FileTree :=
  routeTree.put [Settings.defaultFile] (.file (s.print.flatMap Utf8.encodeOne))

theorem load_configured (s : Settings) :
    Settings.load (configured s) (FilePath.ofText Settings.defaultFile) = .ok s.inUnits := by
  have free : routeTree.entry? [Settings.defaultFile] ≠ some .directory := by decide +kernel
  have here : routeTree.locate (FilePath.ofText Settings.defaultFile) =
      .ok [Settings.defaultFile] := by decide +kernel
  obtain ⟨scalar, lines⟩ := Json.scalar_and_lines_of_isPrinted s.print_all_isPrinted
  have read : (configured s).readText (FilePath.ofText Settings.defaultFile) = .ok s.print :=
    readText_eq_ok ((put_keeps (List.cons_ne_nil _ _) free _).locate_eq_ok here)
      (by rw [configured, entry?_put (List.cons_ne_nil _ _), if_pos rfl])
      (Utf8.encode_eq_ok.mpr ⟨scalar, rfl⟩) lines
  rw [Settings.load, read]
  dsimp only
  rw [Settings.ofText_print]
  rfl

/-- The settings name another format than the call, so that their output is not used. -/
theorem scan_writes_one_file_markdown :
    let s : Settings := { Settings.default with output := some "docs.json" }
    let tree := configured s
    let a : ScanCall := { ScanCall.plain with format := some .markdown, workers := 2 }
    1 ≤ a.workers ∧ Settings.load tree (FilePath.ofText a.settings) = .ok s ∧
      a.format.getD (s.format.getD .json) ≠ .jsonFolder ∧
      ∃ t, (run ("scan" :: a.words) [] tree "now").1.exitCode = 0 ∧
        Written (.ofText "api-documentation.md") t tree
          (run ("scan" :: a.words) [] tree "now").2.tree := by
  intro s tree a
  have plain : s.inUnits = s := Settings.inUnits_eq_self_iff.mpr
    (List.forall_mem_singleton.mpr (Json.inUnits_eq_self_iff.mp (Json.inUnits_ofString rfl)))
  have loaded : Settings.load tree (FilePath.ofText a.settings) = .ok s :=
    (load_configured s).trans (congrArg Except.ok plain)
  have single : a.format.getD (s.format.getD .json) ≠ .jsonFolder := by decide
  obtain ⟨typed, all⟩ := scan_writes_one_file (a := a) (by decide) loaded single
  obtain ⟨-, present⟩ := all a.words typed [] "now"
  obtain ⟨d, scanned, writes⟩ := present (by decide +kernel)
  have scalar : (Scan.run tree (scanOptions "src/app/api" s 2) "now").toOption.all
      (fun d => (Markdown.render d).isScalar) = true := by decide +kernel
  rw [show Scan.run tree (scanOptions "src/app/api" s 2) "now" = .ok d from scanned] at scalar
  have here : tree.IsDirectoryAt (FilePath.ofText "api-documentation.md").parent [] :=
    ⟨by decide +kernel, rfl⟩
  have located : tree.locate (.ofText "api-documentation.md") = .ok ["api-documentation.md"] := by
    decide +kernel
  have wrote := writeText_eq_ok located rfl (by decide +kernel)
    (Utf8.encode_eq_ok.mpr ⟨scalar, rfl⟩)
  obtain ⟨ends, left, written⟩ := writes (Markdown.render d) tree _ rfl here.makeDirs_eq wrote
    ⟨by decide +kernel, fun _ => by decide +kernel, by decide +kernel⟩
  refine ⟨by decide, loaded, single, Markdown.render d, ends, ?_⟩
  rw [left]
  exact written

/-- **A file can be written whose name cannot be printed**: the command fails and writes nothing. -/
theorem scan_writes_nothing :
    let tree := routeTree
    let output : Text := ("out" : Text) ++ [CodePoint.ofNat 0xDC80] ++ (".json" : Text)
    let a : ScanCall := { ScanCall.plain with output := some output, verbose := true }
    Settings.load tree (FilePath.ofText a.settings) = .ok Settings.default ∧
      tree.pathExists (FilePath.ofText "src/app/api") = true ∧
      (∃ d t tree', Scan.run tree (scanOptions "src/app/api" Settings.default 1) "now" = .ok d ∧
        Format.json.render false d = .ok t ∧
        makeDirs (FilePath.ofText output).parent tree = (.ok (), tree) ∧
        writeText (FilePath.ofText output) t tree = (.ok (), tree')) ∧
      (run ("scan" :: a.words) [] tree "now").1.exitCode = 1 ∧
      (run ("scan" :: a.words) [] tree "now").2.tree = tree := by
  intro tree output a
  have absent : tree.readText (FilePath.ofText a.settings) =
      .error (.notFound ".api-scanner.json") := by decide +kernel
  have loaded : Settings.load tree (FilePath.ofText a.settings) = .ok Settings.default := by
    rw [Settings.load, absent]
  have present : tree.pathExists (FilePath.ofText "src/app/api") = true := by decide +kernel
  refine ⟨loaded, present, ?_, ?_⟩
  · obtain ⟨d, scanned⟩ := exists_scan Settings.default 1 "now" present
    have printed : (Scan.run tree (scanOptions "src/app/api" Settings.default 1) "now").toOption.all
        (fun d => d.print.toOption.any Text.isScalar) = true := by decide +kernel
    rw [scanned] at printed
    obtain ⟨t, rendered, scalar⟩ : ∃ t, d.print = .ok t ∧ t.isScalar = true := by
      change d.print.toOption.any Text.isScalar = true at printed
      cases text : d.print with
      | error e =>
          rw [text] at printed
          cases printed
      | ok t =>
          rw [text] at printed
          exact ⟨t, rfl, printed⟩
    have here : tree.IsDirectoryAt (FilePath.ofText output).parent [] := ⟨by decide +kernel, rfl⟩
    have located : tree.locate (.ofText output) = .ok [output] := by decide +kernel
    refine ⟨d, t, _, scanned, rendered, here.makeDirs_eq, writeText_eq_ok located rfl
      (by decide +kernel) (Utf8.encode_eq_ok.mpr ⟨scalar, rfl⟩)⟩
  · exact run_of_stops (ScanCall.gives_ofWords (by decide) tree) loaded []
      (ScanPlan.stops_run_of_stray rfl (by decide +kernel))

end Command

end RouteDocs
