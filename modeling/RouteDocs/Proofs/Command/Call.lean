import RouteDocs.Command.Scan
import RouteDocs.Proofs.Command.Console
import RouteDocs.Proofs.Json.Integer
import RouteDocs.Proofs.Settings

/-!
# Calls of the Scan Command

Every combination of options can be typed, and is read as it was meant.

## Main Definitions

* `Command.ScanCall.words`: a call as it is typed

## Main Statements

* `Text.readInt?_ofNat`: a number is read from its digits
* `Command.readRemainder_words`: options are read one after another
* `Command.ScanCall.gives_ofWords`: **the words of a call are read as the call**

## Design Notes

A value is taken from the next word whatever that is, so values need no care: a value may begin with
a hyphen or be empty.
-/

namespace RouteDocs

/-! ### Numbers -/

namespace Text

theorem digitValue?_of_isAsciiDigit {c : CodePoint} (digit : c.isAsciiDigit = true) :
    c.digitValue? = some (c.val - 0x30) := by
  have bounds := digit
  simp only [CodePoint.isAsciiDigit, Bool.and_eq_true, decide_eq_true_eq] at bounds
  rw [CodePoint.digitValue?, if_pos (by omega), if_pos digit]

theorem readDigitsFrom_of_digits {ds : Text} (digits : ∀ c ∈ ds, c.isAsciiDigit = true)
    (value : Nat) : readDigitsFrom value ds =
      some (ds.foldl (fun n c => 10 * n + (c.val - 0x30)) value) := by
  induction ds generalizing value with
  | nil => rfl
  | cons c r ih =>
      obtain ⟨digit, digits⟩ := List.forall_mem_cons.mp digits
      have line : (c == '_') = false := by
        rw [beq_eq_false_iff_ne]
        rintro rfl
        cases digit
      rw [readDigitsFrom.eq_def]
      simp only [line, digitValue?_of_isAsciiDigit digit, Option.bind_some, ih digits]
      rfl

/-- **A number is read from its digits.** -/
theorem readInt?_ofNat (n : Nat) : (ofNat n).readInt? = some (n : Int) := by
  have strip : (ofNat n).stripNumber = ofNat n := Decoder.stripNumber_ofInt (n : Int)
  have digits : ∀ c ∈ ofNat n, c.isAsciiDigit = true := fun c => isAsciiDigit_of_mem_ofNat
  have value := digitsValue_ofNat n
  obtain ⟨c, r, eq⟩ := List.exists_cons_of_ne_nil (ofNat_ne_nil (n := n))
  rw [eq] at strip digits value
  obtain ⟨digit, digits⟩ := List.forall_mem_cons.mp digits
  obtain ⟨-, -, -, minus, plus⟩ := Decoder.digit_cases digit
  have read : readDigits? (c :: r) = some n := by
    rw [readDigits?, digitValue?_of_isAsciiDigit digit, Option.bind_some,
      readDigitsFrom_of_digits digits, Option.some.injEq, ← value, Json.digitsValue,
      List.foldl_cons, Nat.mul_zero, Nat.zero_add]
  rw [readInt?, eq, strip]
  simp only [beq_false_of_ne minus, beq_false_of_ne plus, Bool.false_eq_true, if_false, read]
  rfl

end Text

namespace Command

open ScanParameter

/-- The short name of the option that sets a parameter. -/
def ScanParameter.short : ScanParameter → Text
  | .path => "-p"
  | .output => "-o"
  | .format => "-f"
  | .settings => "-c"
  | .workers => "-w"
  | .verbose => "-v"
  | .help => "--help"

/-- An option as it is typed. -/
def Occurrence.words : Occurrence ScanParameter → List Text
  | .value p t => [p.short, t]
  | .turned p _ => [p.short]

/-- The options of a call. -/
def ScanCall.options (a : ScanCall) : List (Occurrence ScanParameter) :=
  (a.path.map (.value .path)).toList ++ (a.output.map (.value .output)).toList
    ++ (a.format.map fun f => .value .format f.name).toList
    ++ [.value .settings a.settings, .value .workers (Text.ofNat a.workers)]
    ++ (if a.verbose then [.turned .verbose true] else [])

/-- A call as it is typed. -/
def ScanCall.words (a : ScanCall) : List Text := a.options.flatMap Occurrence.words

/-- The options that can be typed: values for some parameters, and more being told. -/
def Occurrence.IsTyped (o : Occurrence ScanParameter) : Prop :=
  (∃ p t, o = .value p t ∧ p ≠ .verbose ∧ p ≠ .help) ∨ o = .turned .verbose true

/-- An option is read from its words. -/
theorem readRemainder_words {o : Occurrence ScanParameter} (typed : o.IsTyped) (steps : Nat)
    (rest : List Text) : readRemainder names true (steps + 1) ⟨[], o.words ++ rest⟩ =
      (readRemainder names true steps ⟨[], rest⟩).map (Arguments.withOption o) := by
  rcases typed with ⟨p, t, rfl, valued⟩ | rfl
  · cases p <;> first | rfl | exact absurd rfl valued.1 | exact absurd rfl valued.2
  · rfl

/-- The words of a call are counted in what bounds the steps. -/
theorem add_length_le_foldl (words : List Text) (n : Nat) :
    n + words.length ≤ words.foldl (fun n w => n + w.length + 1) n := by
  induction words generalizing n with
  | nil => exact Nat.le_refl n
  | cons w words ih =>
      have rest := ih (n + w.length + 1)
      rw [List.foldl_cons, List.length_cons]
      omega

theorem readRemainder_flatMap_words {os : List (Occurrence ScanParameter)}
    (typed : ∀ o ∈ os, o.IsTyped) (steps : Nat) :
    readRemainder names true (os.length + steps + 1) ⟨[], os.flatMap Occurrence.words⟩ =
      .ok ⟨os, []⟩ := by
  induction os with
  | nil => rfl
  | cons o os ih =>
      obtain ⟨first, rest⟩ := List.forall_mem_cons.mp typed
      have count : (o :: os).length + steps + 1 = (os.length + steps + 1) + 1 := by
        rw [List.length_cons]
        omega
      rw [count, List.flatMap_cons, readRemainder_words first, ih rest]
      rfl

/-- **Options are read one after another.** -/
theorem readOptions_words {os : List (Occurrence ScanParameter)} (typed : ∀ o ∈ os, o.IsTyped) :
    readOptions names true (os.flatMap Occurrence.words) = .ok ⟨os, []⟩ := by
  have size := add_length_le_foldl (os.flatMap Occurrence.words) 1
  have nonempty : os.length ≤ (os.flatMap Occurrence.words).length := by
    have counts : ∀ n ∈ os.map fun o => o.words.length, 1 ≤ n := by
      rintro _ mem
      obtain ⟨o, -, rfl⟩ := List.mem_map.mp mem
      cases o <;> exact Nat.succ_le_succ (Nat.zero_le _)
    have bound := List.length_le_sum_of_one_le _ counts
    rwa [List.length_map, ← List.length_flatMap] at bound
  obtain ⟨steps, fuel⟩ := Nat.exists_eq_add_of_le (show os.length + 1 ≤
    2 * (os.flatMap Occurrence.words).foldl (fun n w => n + w.length + 1) 1 by omega)
  rw [readOptions, fuel, Nat.add_right_comm]
  exact readRemainder_flatMap_words typed steps

variable {a : ScanCall}

theorem isTyped_of_mem_options : ∀ o ∈ a.options, o.IsTyped := by
  obtain ⟨path, output, format, settings, workers, verbose⟩ := a
  cases path <;> cases output <;> cases format <;> cases verbose <;>
    simp [ScanCall.options, Occurrence.IsTyped]

theorem value?_options (p : ScanParameter) : (⟨a.options, []⟩ : Arguments _).value? p =
    match p with
    | .path => a.path
    | .output => a.output
    | .format => a.format.map Format.name
    | .settings => some a.settings
    | .workers => some (Text.ofNat a.workers)
    | .verbose | .help => none := by
  obtain ⟨path, output, format, settings, workers, verbose⟩ := a
  cases path <;> cases output <;> cases format <;> cases verbose <;> cases p <;> rfl

theorem isOn_options (p : ScanParameter) : (⟨a.options, []⟩ : Arguments _).isOn p false =
    (a.verbose && decide (p = .verbose)) := by
  obtain ⟨path, output, format, settings, workers, verbose⟩ := a
  cases path <;> cases output <;> cases format <;> cases verbose <;> cases p <;> rfl

/-- A number of workers is read from its digits. -/
theorem readWorkers_ofNat {n : Nat} (positive : 1 ≤ n) : readWorkers (Text.ofNat n) = .ok n := by
  have counted : ¬ (n : Int) < 1 := by omega
  simp only [readWorkers, readNumber, Text.readInt?_ofNat, if_neg counted, Int.toNat_natCast]

/-- No value of a call is refused. -/
theorem check_options (positive : 1 ≤ a.workers) :
    (⟨a.options, []⟩ : Arguments _).check ScanParameter.fault? = .ok () := by
  have sound : ∀ p, ((⟨a.options, []⟩ : Arguments _).value? p).bind p.fault? = none := by
    intro p
    rw [value?_options]
    cases p with
    | format => cases named : a.format <;> simp [fault?, readFormat, Format.ofName?_name]
    | workers => simp [fault?, readWorkers_ofNat positive]
    | path => cases a.path <;> rfl
    | output => cases a.output <;> rfl
    | settings => rfl
    | verbose => rfl
    | help => rfl
  rw [Arguments.check, List.findSome?_eq_none_iff.mpr fun p _ => sound p]

/-- **The words of a call are read as the call.** -/
theorem ScanCall.gives_ofWords (positive : 1 ≤ a.workers) (tree : FileTree) :
    (ScanCall.ofWords a.words).Gives tree a tree := by
  have read : readOptions names true a.words = .ok ⟨a.options, []⟩ :=
    readOptions_words isTyped_of_mem_options
  have help : (⟨a.options, []⟩ : Arguments _).isOn .help false = false := by
    rw [isOn_options, decide_eq_false (by decide), Bool.and_false]
  have told : (⟨a.options, []⟩ : Arguments _).isOn .verbose false = a.verbose := by
    rw [isOn_options, decide_eq_true rfl, Bool.and_true]
  have format : (a.format.map Format.name).bind Format.ofName? = a.format := by
    cases a.format with
    | none => rfl
    | some f => exact Format.ofName?_name f
  unfold ScanCall.ofWords
  rw [read]
  refine (gives_checked _ _ tree).bind ?_
  simp only [help, told, check_options positive, value?_options, format]
  refine (gives_checked _ _ tree).bind ((gives_checked _ _ tree).bind ?_)
  simp only [Option.bind_some, readWorkers_ofNat positive]
  exact Action.gives_pure a tree

end Command

end RouteDocs
