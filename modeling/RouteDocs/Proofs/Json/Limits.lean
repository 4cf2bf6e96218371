import RouteDocs.Json.Decode
import RouteDocs.Proofs.Json.Reader
import RouteDocs.Proofs.Text.Digit
import RouteDocs.Proofs.Text.Join

/-!
# What Decoders Give

Data decoded from a value within limits has a form within limits. Each combinator of decoders has
one law, from which the laws for data types are put together.

## Main Definitions

* `Json.Bounded`: values within the limits whose texts may have surrogates
* `Decoded.All`: a property of what is decoded, if something is

## Main Statements

* `Json.Bounded.record`: a record of parts within limits is within limits
* `Decoded.also_all`, `Decoder.member_all`, `Decoder.list_all`, …: what is decoded has a property if
  its parts have one
* `Decoder.integer_all`: a decoded integer is one that the reader takes

## Design Notes

A decoder may fail, and most of its faults do not matter here: every law is about what is decoded
if something is. A text that stands for an integer is the one place where a decoder computes a
number of its own.
-/

namespace RouteDocs

namespace Json

variable {ints : Int → Prop} {room : Nat} {v : Json}

/-- Values within limits, with integers of a class and any texts. -/
abbrev Bounded (ints : Int → Prop) (room : Nat) (v : Json) : Prop :=
  Within ints Binary64.IsCanonical room v

namespace Bounded

@[simp] theorem ofText? (t : Option Text) : Bounded ints room (.ofText? t) := by
  cases t with
  | none => exact .null
  | some t => exact .str trivial

@[simp] theorem ofTexts (ts : List Text) : Bounded ints (room + 1) (.ofTexts ts) := by
  refine .arr fun v hv => ?_
  obtain ⟨t, -, rfl⟩ := List.mem_map.mp hv
  exact .str trivial

section

variable {α : Type} {encode : α → Json}

theorem arr_map {as : List α} (h : ∀ a ∈ as, Bounded ints room (encode a)) :
    Bounded ints (room + 1) (.arr (as.map encode)) := by
  refine .arr fun w hw => ?_
  obtain ⟨a, ha, rfl⟩ := List.mem_map.mp hw
  exact h a ha

theorem obj_map {as : Assoc α} (nodup : (as.map (·.1)).Nodup)
    (h : ∀ p ∈ as, Bounded ints room (encode p.2)) :
    Bounded ints (room + 1) (.obj (as.map fun p => (p.1, encode p.2))) := by
  refine .obj ?_ (fun _ _ => trivial) fun q hq => ?_
  · rw [List.map_map]
    exact nodup
  · obtain ⟨p, hp, rfl⟩ := List.mem_map.mp hq
    exact h p hp

theorem elim {o : Option α} (h : ∀ a, o = some a → Bounded ints room (encode a)) :
    Bounded ints room (o.elim .null encode) := by
  cases o with
  | none => exact .null
  | some a => exact h a rfl

end

/-- **A record of parts within limits is within limits.** -/
theorem record {keepNulls : Bool} {parts : List (Text × Json)} (nodup : (parts.map (·.1)).Nodup)
    (h : ∀ p ∈ parts, Bounded ints room p.2) :
    Bounded ints (room + 1) (.record keepNulls parts) := by
  refine .obj (nodup.sublist (List.filter_sublist.map _)) (fun _ _ => trivial) fun p hp => ?_
  exact h p (List.mem_filter.mp hp).1

end Bounded

end Json

/-! ### Decoded Properties -/

namespace Decoded

variable {α β : Type} {P : α → Prop} {Q : β → Prop}

/-- A property of what is decoded, if something is. -/
def All (P : α → Prop) (r : Decoded α) : Prop :=
  ∀ a, r = .ok a → P a

theorem all_of {a : α} (h : P a) : (Decoded.of a).All P := by
  rintro _ ⟨⟩
  exact h

theorem all_fail {problem : Issue.Problem} : (Decoded.fail problem : Decoded α).All P := by
  rintro _ ⟨⟩

/-- **What a function makes of decoded data has a property** if the function gives it to all data
like that. -/
theorem also_all {f : Decoded (α → β)} {r : Decoded α} (hf : f.All fun h => ∀ a, P a → Q (h a))
    (hr : r.All P) : (f.also r).All Q := by
  intro b decoded
  cases f with
  | error es => cases r <;> cases decoded
  | ok h =>
      cases r with
      | error es => cases decoded
      | ok a =>
          cases decoded
          exact hf h rfl a (hr a rfl)

/-- What a function makes of any data has a property, whatever is decoded. -/
theorem also_any {f : Decoded (α → β)} {r : Decoded α} (hf : f.All fun h => ∀ a, Q (h a)) :
    (f.also r).All Q :=
  also_all (fun h decoded a (_ : True) => hf h decoded a) fun _ _ => trivial

theorem below_all {r : Decoded α} {step : Step} (h : r.All P) : (r.below step).All P := by
  intro a decoded
  cases r with
  | error es => cases decoded
  | ok b => exact h a decoded

end Decoded

namespace Decoder

open Decoded Json

variable {α : Type} {P : α → Prop} {decode : Decoder α} {ints : Int → Prop} {room : Nat} {v : Json}
  {origin : Origin}

/-- Objects have members with less room. -/
theorem object_all {decode : Assoc Json → Decoded α} (h : Bounded ints (room + 1) v)
    (members : ∀ ms : Assoc Json, (∀ p ∈ ms, Bounded ints room p.2) → (decode ms).All P) :
    (object origin decode v).All P := by
  cases v with
  | obj ms => exact members ms (Fits.obj_iff.mp h).2.2
  | _ => exact all_fail

/-- **A member has a property** if all its values and its default have it. -/
theorem member_all {ms : Assoc Json} {outer inner : Text} {default : Option α}
    (h : ∀ p ∈ ms, Bounded ints room p.2) (absent : ∀ a, default = some a → P a)
    (present : ∀ v, Bounded ints room v → (decode v).All P) :
    (member ms outer inner default decode).All P := by
  have value : ∀ key v, ms.get? key = some v → Bounded ints room v := by
    intro key v found
    obtain ⟨p, hp, rfl⟩ := Option.map_eq_some_iff.mp found
    exact h p (List.mem_of_find?_eq_some hp)
  unfold member
  split
  · next found => exact below_all (present _ (value _ _ found))
  · split
    · next found => exact below_all (present _ (value _ _ found))
    · split
      · exact all_of (absent _ rfl)
      · exact below_all all_fail

/-- Any value that is decoded is the value itself. -/
theorem free_all (h : Bounded ints room v) : (free origin v).All (Bounded ints room) := by
  intro w decoded
  unfold free at decoded
  split at decoded
  · cases decoded
    exact h
  · split at decoded
    · cases decoded
      exact h
    · cases decoded

theorem nullable_all (h : (decode v).All P) :
    (nullable decode v).All fun o => ∀ a, o = some a → P a := by
  intro o decoded
  unfold nullable at decoded
  split at decoded
  · cases decoded
    simp
  · obtain ⟨a, found, rfl⟩ := map_eq_ok.mp decoded
    rintro _ ⟨⟩
    exact h _ found

/-- The items of a list have what all values with less room have. -/
theorem list_all (h : Bounded ints (room + 1) v)
    (item : ∀ v, Bounded ints room v → (decode v).All P) :
    (list decode v).All fun as => ∀ a ∈ as, P a := by
  have items : ∀ i vs, (∀ v ∈ vs, Bounded ints room v) →
      (items decode i vs).All fun as => ∀ a ∈ as, P a := by
    intro i vs bounded
    induction vs generalizing i with
    | nil => exact all_of (by simp)
    | cons v more ih =>
        obtain ⟨first, bounded⟩ := List.forall_mem_cons.mp bounded
        refine also_all (also_all (all_of ?_) (below_all (item v first))) (ih (i + 1) bounded)
        exact fun a ha as has => List.forall_mem_cons.mpr ⟨ha, has⟩
  cases v with
  | arr vs => exact items 0 vs (Fits.arr_iff.mp h)
  | _ => exact all_fail

/-- The values of a map have what all values with less room have, and its keys stay different. -/
theorem map_all (h : Bounded ints (room + 1) v)
    (value : ∀ v, Bounded ints room v → (decode v).All P) :
    (Decoder.map decode v).All fun as => (as.map (·.1)).Nodup ∧ ∀ p ∈ as, P p.2 := by
  have values : ∀ ms : List (Text × Json), (∀ p ∈ ms, Bounded ints room p.2) →
      (values decode ms).All fun as => as.map (·.1) = ms.map (·.1) ∧ ∀ p ∈ as, P p.2 := by
    intro ms bounded
    induction ms with
    | nil => exact all_of (by simp)
    | cons p more ih =>
        obtain ⟨first, bounded⟩ := List.forall_mem_cons.mp bounded
        refine also_all (also_all (all_of ?_) (below_all (value p.2 first))) (ih bounded)
        rintro a ha as ⟨keys, has⟩
        exact ⟨congrArg (p.1 :: ·) keys, List.forall_mem_cons.mpr ⟨ha, has⟩⟩
  cases v with
  | obj ms =>
      obtain ⟨nodup, -, bounded⟩ := Fits.obj_iff.mp h
      intro as decoded
      obtain ⟨keys, has⟩ := values ms bounded as decoded
      exact ⟨keys ▸ nodup, has⟩
  | _ => exact all_fail

/-! ### Integers -/

theorem length_withoutLeadingZeros_le {t body : Text} (h : withoutLeadingZeros t = some body) :
    body.length ≤ t.length := by
  unfold withoutLeadingZeros at h
  split at h
  · cases h
  next c r =>
  split_ifs at h
  · cases h; exact le_rfl
  · cases h; exact le_rfl
  · have shorter := List.length_dropWhile_le (fun d : CodePoint => d == '0' || d == '_') r
    split at h
    · cases h
      simp [Text.ofString]
    next d s rest =>
      rw [rest] at shorter
      split_ifs at h <;> cases h
      · exact Nat.le_succ_of_le shorter
      · exact Nat.succ_le_succ shorter

theorem length_withoutZeroFraction_le (t : Text) : (withoutZeroFraction t).length ≤ t.length := by
  unfold withoutZeroFraction
  split
  · next whole fraction cut =>
    split
    · exact Text.length_cut?_le cut
    · exact le_rfl
  · exact le_rfl

/-- Grouped digits have no greater value than as many digits have. -/
theorem groupedDigits?_lt {t : Text} {n : Nat} (h : groupedDigits? t = some n) :
    n < 10 ^ t.length := by
  unfold groupedDigits? at h
  dsimp only at h
  split_ifs at h with groups
  cases h
  have digits : ∀ c ∈ (t.splitOn '_').flatten, c.isAsciiDigit = true := by
    intro c hc
    obtain ⟨group, hg, hc⟩ := List.mem_flatten.mp hc
    have group := List.all_eq_true.mp groups group hg
    exact List.all_eq_true.mp (Bool.and_eq_true_iff.mp group).2 c hc
  calc digitsValue (t.splitOn '_').flatten
      < 10 ^ (t.splitOn '_').flatten.length := digitsValue_lt digits
    _ ≤ 10 ^ t.length := Nat.pow_le_pow_right (by decide) (Text.length_flatten_splitBy_le _ t)

/-- **The integer that a text stands for has no more digits than the text has code points**, one of
which is the sign of a negative one. -/
theorem readInteger?_lt {t : Text} {i : Int} (h : readInteger? t = some i) :
    ∃ digits, i.natAbs < 10 ^ digits ∧ digits + (decide (i < 0)).toNat ≤ t.length := by
  unfold readInteger? at h
  obtain ⟨body, start, h⟩ := Option.bind_eq_some_iff.mp h
  have length : body.length ≤ t.length := by
    refine (length_withoutLeadingZeros_le start).trans ?_
    have stripped : (Text.stripNumber t).length ≤ t.length := Text.length_trim_le _ t
    split
    · next c d r shape =>
      rw [shape] at stripped
      split
      · exact (Nat.le_succ _).trans stripped
      · rw [shape]
        exact stripped
    · exact stripped
  -- Every rewriting of the text makes it shorter, so that digits can only get lost.
  have whole := (length_withoutZeroFraction_le body).trans length
  split at h
  · cases h
  next c r shape =>
  rw [shape] at whole
  split_ifs at h
  · obtain ⟨_, lifted, rfl⟩ := Option.map_eq_some_iff.mp h
    obtain ⟨n, digits, lift⟩ := Option.bind_eq_some_iff.mp lifted
    cases lift
    refine ⟨r.length, ?_, (Nat.add_le_add_left (Bool.toNat_le _) _).trans whole⟩
    rw [Int.natAbs_neg]
    exact groupedDigits?_lt digits
  · obtain ⟨n, digits, rfl⟩ := Option.map_eq_some_iff.mp h
    have sign : decide ((n : Int) < 0) = false := decide_eq_false (by omega)
    refine ⟨(c :: r).length, groupedDigits?_lt digits, ?_⟩
    rw [show Int.ofNat n = (n : Int) from rfl, sign]
    exact whole

section

variable {dialect : Dialect}

/-- Few digits are taken, with a sign or without. -/
theorem takes_of_lt {i : Int} {digits : Nat} (some : 0 < digits) (small : i.natAbs < 10 ^ digits)
    (le : digits + (decide (i < 0)).toNat ≤ dialect.rules.maxLength) : dialect.Takes i := by
  have length : Binary64.decimalLength i.natAbs ≤ digits :=
    (Nat.length_toDigits_le_iff (by decide) some).mpr small
  unfold Dialect.Takes Dialect.counted
  split_ifs <;> omega

/-- **A decoded integer is one that the reader takes.** -/
theorem integer_all (ample : maxDigits ≤ dialect.rules.maxLength) (h : Bounded dialect.Takes room v) :
    (integer v).All dialect.Takes := by
  have ample : 4300 ≤ dialect.rules.maxLength := ample
  intro i decoded
  have sign := Bool.toNat_le (decide (i < 0))
  unfold integer at decoded
  split at decoded
  · cases decoded
    exact Fits.int_iff.mp h
  · next b =>
    cases decoded
    have small : (if b then 1 else 0 : Int).natAbs < 10 ^ 1 := by cases b <;> decide
    exact takes_of_lt one_pos small (by omega)
  · next x =>
    unfold integerOfFloat at decoded
    split at decoded
    · split at decoded
      · cases decoded
      split_ifs at decoded with word
      on_goal 2 => cases decoded
      cases decoded
      simp only [withinWord, Bool.and_eq_true, decide_eq_true_eq] at word
      have small : i.natAbs < 10 ^ 19 := by omega
      exact takes_of_lt (by decide) small (by omega)
    · cases decoded
  · split_ifs at decoded with long
    · cases decoded
    split at decoded
    · next found =>
      cases decoded
      obtain ⟨digits, small, le⟩ := readInteger?_lt found
      rcases Nat.eq_zero_or_pos digits with rfl | some
      -- A number below one is zero and has one digit.
      · exact takes_of_lt one_pos (small.trans (by decide)) (by omega)
      · exact takes_of_lt some small (by omega)
    · cases decoded
  · cases decoded

end

end Decoder

end RouteDocs
