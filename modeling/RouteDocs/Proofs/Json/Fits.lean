import Mathlib.Data.List.Nodup
import Mathlib.Tactic.SplitIfs
import RouteDocs.Json.Printer
import RouteDocs.Json.Reader
import RouteDocs.Proofs.Number.Nearest
import RouteDocs.Proofs.Text.Utf8

/-!
# Values within the Limits of a Reader

What a reader can give: objects have each key once, integers have a limited number of digits and
brackets are nested to a limited depth.

## Main Definitions

* `Json.Dialect.Takes`: the integers that a reader takes
* `Json.Fits`: the values within the limits, with integers, texts and floating-point numbers of given
  classes
* `Json.depth`: how many brackets of a value are nested

## Main Statements

* `Assoc.nodup_ofList`, `Assoc.ofList_eq_self`: a map made from entries has each key once
* `Json.Fits.mono`: limits can be widened
* `Json.Fits.depth_le`: a value is nested no deeper than the room that it has
* `Json.Fits.of_firstSurrogates`: what can be encoded has scalar texts

## Design Notes

The predicate is inductive, so that its induction principle is the one that proofs about nested
values want: for a list and an object it supplies the hypothesis for all parts.
-/

namespace RouteDocs

namespace Assoc

variable {β : Type} {m : Assoc β} {key : Text} {value : β}

theorem mem_put {p : Text × β} (h : p ∈ m.put key value) : p = (key, value) ∨ p ∈ m := by
  induction m with
  | nil => exact Or.inl (List.mem_singleton.mp h)
  | cons q more ih =>
      rw [put] at h
      split at h
      · next same =>
        obtain rfl := eq_of_beq same
        rcases List.mem_cons.mp h with new | h
        · exact Or.inl new
        · exact Or.inr (List.mem_cons_of_mem _ h)
      · rcases List.mem_cons.mp h with rfl | h
        · exact Or.inr (by simp)
        · rcases ih h with new | old
          · exact Or.inl new
          · exact Or.inr (List.mem_cons_of_mem _ old)

theorem nodup_put (h : (m.map (·.1)).Nodup) : ((m.put key value).map (·.1)).Nodup := by
  induction m with
  | nil => simp [put]
  | cons q more ih =>
      rw [List.map_cons, List.nodup_cons] at h
      rw [put]
      split
      · next same =>
        rw [List.map_cons, List.nodup_cons]
        exact ⟨eq_of_beq same ▸ h.1, h.2⟩
      · next other =>
        rw [List.map_cons, List.nodup_cons]
        refine ⟨fun mem => ?_, ih h.2⟩
        obtain ⟨p, hp, eq⟩ := List.mem_map.mp mem
        rcases mem_put hp with rfl | hp
        · exact other (by simpa using eq.symm)
        · exact h.1 (List.mem_map.mpr ⟨p, hp, eq⟩)

/-- A key that is absent is put at the end. -/
theorem put_of_notMem (h : key ∉ m.map (·.1)) : m.put key value = m ++ [(key, value)] := by
  induction m with
  | nil => rfl
  | cons q more ih =>
      rw [List.map_cons, List.mem_cons, not_or] at h
      have other : ¬(q.1 == key) = true := by simpa using Ne.symm h.1
      rw [put, if_neg other, ih h.2]
      rfl

variable {entries : List (Text × β)}

/-- The map of some entries, continued from a map. -/
theorem foldl_put (start : Assoc β) :
    (∀ p ∈ entries.foldl (fun m (k, v) => m.put k v) start, p ∈ start ∨ p ∈ entries) ∧
      ((start.map (·.1)).Nodup →
        ((entries.foldl (fun m (k, v) => m.put k v) start).map (·.1)).Nodup) ∧
      (((start ++ entries).map (·.1)).Nodup →
        entries.foldl (fun m (k, v) => m.put k v) start = start ++ entries) := by
  induction entries generalizing start with
  | nil => simp
  | cons e more ih =>
      obtain ⟨k, v⟩ := e
      -- The start is general, since each entry is put into the map of those before it.
      obtain ⟨members, nodup, same⟩ := ih (start.put k v)
      rw [List.foldl_cons]
      refine ⟨fun p hp => ?_, fun h => nodup (nodup_put h), fun h => ?_⟩
      · rcases members p hp with hp | hp
        · rcases mem_put hp with rfl | hp
          · exact Or.inr (by simp)
          · exact Or.inl hp
        · exact Or.inr (List.mem_cons_of_mem _ hp)
      · have absent : k ∉ start.map (·.1) := by
          rw [List.map_append, List.nodup_append] at h
          exact fun mem => h.2.2 _ mem k (by simp) rfl
        rw [put_of_notMem absent] at same
        dsimp only
        rw [put_of_notMem absent, same (by simpa using h), List.append_assoc]
        rfl

theorem mem_ofList {p : Text × β} (h : p ∈ ofList entries) : p ∈ entries := by
  simpa using (foldl_put []).1 p h

/-- Each key of a map made from entries stands once. -/
theorem nodup_ofList (entries : List (Text × β)) : ((ofList entries).map (·.1)).Nodup :=
  (foldl_put []).2.1 (by simp)

/-- Entries with different keys are a map already. -/
theorem ofList_eq_self (h : (entries.map (·.1)).Nodup) : ofList entries = entries :=
  (foldl_put []).2.2 h

end Assoc

namespace Json

/-! ### Integers -/

/-- The integers that a reader takes, by the length of their decimals. -/
def Dialect.Takes (dialect : Dialect) (i : Int) : Prop :=
  dialect.counted (decide (i < 0)) true (Binary64.decimalLength i.natAbs) ≤ dialect.rules.maxLength

instance (dialect : Dialect) : DecidablePred dialect.Takes :=
  fun i => inferInstanceAs
    (Decidable (dialect.counted (decide (i < 0)) true (Binary64.decimalLength i.natAbs) ≤ _))

namespace Dialect

variable {dialect : Dialect} {i : Int} {n : Nat}

/-- The reader of fragments counts digits only. -/
@[simp] theorem fragment_takes : fragment.Takes i ↔ Binary64.decimalLength i.natAbs ≤ maxDigits :=
  Iff.rfl

/-- The reader of documents counts the sign too. -/
@[simp] theorem document_takes : document.Takes i ↔
    Binary64.decimalLength i.natAbs + (decide (i < 0)).toNat ≤ maxDigits :=
  Iff.rfl

theorem counted_mono {negative negative' isInteger : Bool} {k : Nat} (le : n ≤ k)
    (sign : negative = true → negative' = true) :
    dialect.counted negative isInteger n ≤ dialect.counted negative' isInteger k := by
  have signs : negative.toNat ≤ negative'.toNat := by
    cases negative
    · exact Nat.zero_le _
    · rw [sign rfl]
  unfold counted
  split_ifs <;> omega

/-- A sign adds one at most. -/
theorem counted_le (dialect : Dialect) (negative isInteger : Bool) (n : Nat) :
    dialect.counted negative isInteger n ≤ n + 1 := by
  have sign := Bool.toNat_le negative
  unfold counted
  split_ifs <;> omega

/-- Every reader counts the digits of an integer. -/
theorem Takes.decimalLength_le (h : dialect.Takes i) :
    Binary64.decimalLength i.natAbs ≤ dialect.rules.maxLength := by
  unfold Takes counted at h
  split at h
  · omega
  · exact h

/-- Below zero, the digits of a power of ten are as many as those of the power itself. -/
theorem natAbs_neg_pow (n : Nat) : (-10 ^ n : Int).natAbs = 10 ^ n := by
  rw [Int.natAbs_neg, Int.natAbs_pow]
  rfl

theorem fragment_takes_neg_pow (n : Nat) : fragment.Takes (-10 ^ n) ↔ n < maxDigits := by
  rw [fragment_takes, natAbs_neg_pow, Binary64.decimalLength_pow, Nat.succ_le_iff]

/-- The reader of documents takes one digit less below zero. -/
theorem document_takes_neg_pow (n : Nat) : document.Takes (-10 ^ n) ↔ n + 1 < maxDigits := by
  have negative : decide ((-10 ^ n : Int) < 0) = true := by simp
  rw [document_takes, natAbs_neg_pow, Binary64.decimalLength_pow, negative, Bool.toNat_true,
    Nat.succ_le_iff]

end Dialect

/-! ### Values -/

/-- **Values within the limits of a reader** that may open a number of brackets inside one
another: objects have each key once. Integers, texts, keys included, and floating-point numbers are
of given classes. -/
inductive Fits (ints : Int → Prop) (texts : Text → Prop) (floats : Binary64 → Prop) :
    Nat → Json → Prop
  /-- The null value. -/
  | null {room : Nat} : Fits ints texts floats room .null
  /-- A truth value. -/
  | bool {room : Nat} (b : Bool) : Fits ints texts floats room (.bool b)
  /-- An integer of the class. -/
  | int {room : Nat} {i : Int} (h : ints i) : Fits ints texts floats room (.int i)
  /-- A floating-point number of the class. -/
  | float {room : Nat} {x : Binary64} (h : floats x) : Fits ints texts floats room (.float x)
  /-- A text of the class. -/
  | str {room : Nat} {t : Text} (h : texts t) : Fits ints texts floats room (.str t)
  /-- A list, which takes one bracket. -/
  | arr {room : Nat} {vs : List Json} (items : ∀ v ∈ vs, Fits ints texts floats room v) :
      Fits ints texts floats (room + 1) (.arr vs)
  /-- An object, which takes one bracket. -/
  | obj {room : Nat} {ms : List (Text × Json)} (nodup : (ms.map (·.1)).Nodup)
      (keys : ∀ p ∈ ms, texts p.1) (values : ∀ p ∈ ms, Fits ints texts floats room p.2) :
      Fits ints texts floats (room + 1) (.obj ms)

/-- Values within limits, with any texts. -/
abbrev Within (ints : Int → Prop) (floats : Binary64 → Prop) (room : Nat) (v : Json) : Prop :=
  Fits ints (fun _ => True) floats room v

namespace Fits

variable {ints ints' : Int → Prop} {texts texts' : Text → Prop} {floats floats' : Binary64 → Prop}
  {room room' : Nat} {v : Json}

/-- Limits can be widened. -/
theorem mono (h : Fits ints texts floats room v) (hi : ∀ i, ints i → ints' i)
    (ht : ∀ t, texts t → texts' t) (hf : ∀ x, floats x → floats' x) (le : room ≤ room') :
    Fits ints' texts' floats' room' v := by
  induction h generalizing room' with
  | null => exact .null
  | bool b => exact .bool b
  | int h => exact .int (hi _ h)
  | float h => exact .float (hf _ h)
  | str h => exact .str (ht _ h)
  | arr _ ih =>
      cases room' with
      | zero => cases le
      | succ r => exact .arr fun v hv => ih v hv (Nat.le_of_succ_le_succ le)
  | obj nodup keys _ ih =>
      cases room' with
      | zero => cases le
      | succ r =>
          exact .obj nodup (fun p hp => ht _ (keys p hp))
            fun p hp => ih p hp (Nat.le_of_succ_le_succ le)

/-- What is within two limits is within both. -/
theorem and (h : Fits ints texts floats room v) (h' : Fits ints' texts' floats' room' v) :
    Fits (fun i => ints i ∧ ints' i) (fun t => texts t ∧ texts' t)
      (fun x => floats x ∧ floats' x) room v := by
  induction h generalizing room' with
  | null => exact .null
  | bool b => exact .bool b
  | int h => cases h' with | int h' => exact .int ⟨h, h'⟩
  | float h => cases h' with | float h' => exact .float ⟨h, h'⟩
  | str h => cases h' with | str h' => exact .str ⟨h, h'⟩
  | arr _ ih => cases h' with | arr items' => exact .arr fun v hv => ih v hv (items' v hv)
  | obj nodup keys _ ih => cases h' with
    | obj _ keys' values' =>
        exact .obj nodup (fun p hp => ⟨keys p hp, keys' p hp⟩)
          fun p hp => ih p hp (values' p hp)

@[simp] theorem of_null : Fits ints texts floats room .null :=
  .null

@[simp] theorem of_bool (b : Bool) : Fits ints texts floats room (.bool b) :=
  .bool b

@[simp] theorem int_iff {i : Int} : Fits ints texts floats room (.int i) ↔ ints i :=
  ⟨fun h => by cases h; assumption, .int⟩

@[simp] theorem str_iff {t : Text} : Fits ints texts floats room (.str t) ↔ texts t :=
  ⟨fun h => by cases h; assumption, .str⟩

@[simp] theorem arr_iff {vs : List Json} :
    Fits ints texts floats (room + 1) (.arr vs) ↔ ∀ v ∈ vs, Fits ints texts floats room v :=
  ⟨fun h => by cases h; assumption, .arr⟩

@[simp] theorem obj_iff {ms : List (Text × Json)} :
    Fits ints texts floats (room + 1) (.obj ms) ↔
      (ms.map (·.1)).Nodup ∧ (∀ p ∈ ms, texts p.1) ∧ ∀ p ∈ ms, Fits ints texts floats room p.2 :=
  ⟨fun h => by cases h with | obj nodup keys values => exact ⟨nodup, keys, values⟩,
    fun h => .obj h.1 h.2.1 h.2.2⟩

end Fits

/-! ### Nesting -/

mutual

/-- How many brackets of a value are nested at most. -/
def depth : Json → Nat
  | .arr vs => depthOfItems vs + 1
  | .obj ms => depthOfMembers ms + 1
  | _ => 0

/-- How many brackets are nested in an item at most. -/
def depthOfItems : List Json → Nat
  | [] => 0
  | v :: more => max (depth v) (depthOfItems more)

/-- How many brackets are nested in a member at most. -/
def depthOfMembers : List (Text × Json) → Nat
  | [] => 0
  | (_, v) :: more => max (depth v) (depthOfMembers more)

end

theorem depth_le_of_mem_items {v : Json} {vs : List Json} (h : v ∈ vs) :
    v.depth ≤ depthOfItems vs := by
  induction vs with
  | nil => cases h
  | cons w more ih =>
      rw [depthOfItems]
      rcases List.mem_cons.mp h with rfl | h
      · exact le_max_left _ _
      · exact (ih h).trans (le_max_right _ _)

theorem depth_le_of_mem_members {ms : List (Text × Json)} {p : Text × Json} (h : p ∈ ms) :
    p.2.depth ≤ depthOfMembers ms := by
  induction ms with
  | nil => cases h
  | cons q more ih =>
      rw [depthOfMembers]
      rcases List.mem_cons.mp h with rfl | h
      · exact le_max_left _ _
      · exact (ih h).trans (le_max_right _ _)

theorem depthOfItems_le {n : Nat} {vs : List Json} (h : ∀ v ∈ vs, v.depth ≤ n) :
    depthOfItems vs ≤ n := by
  induction vs with
  | nil => exact Nat.zero_le n
  | cons w more ih =>
      rw [List.forall_mem_cons] at h
      exact max_le h.1 (ih h.2)

theorem depthOfMembers_le {n : Nat} {ms : List (Text × Json)} (h : ∀ p ∈ ms, p.2.depth ≤ n) :
    depthOfMembers ms ≤ n := by
  induction ms with
  | nil => exact Nat.zero_le n
  | cons q more ih =>
      rw [List.forall_mem_cons] at h
      exact max_le h.1 (ih h.2)

variable {ints : Int → Prop} {texts : Text → Prop} {floats : Binary64 → Prop} {room room' : Nat}
  {v : Json}

theorem Fits.depth_le (h : Fits ints texts floats room v) : v.depth ≤ room := by
  induction h with
  | null | bool | int | float | str => exact Nat.zero_le _
  | arr _ ih => exact Nat.succ_le_succ (depthOfItems_le ih)
  | obj _ _ _ ih => exact Nat.succ_le_succ (depthOfMembers_le ih)

/-! ### Texts That Can Be Encoded -/

theorem firstSurrogatesOfItems_eq_none {vs : List Json} :
    firstSurrogatesOfItems vs = none ↔ ∀ v ∈ vs, firstSurrogates v = none := by
  induction vs with
  | nil => simp [firstSurrogatesOfItems]
  | cons v more ih =>
      rw [firstSurrogatesOfItems, List.forall_mem_cons, ← ih]
      cases firstSurrogates v <;> simp

theorem firstSurrogatesOfMembers_eq_none {ms : List (Text × Json)} :
    firstSurrogatesOfMembers ms = none ↔
      ∀ p ∈ ms, p.1.isScalar = true ∧ firstSurrogates p.2 = none := by
  induction ms with
  | nil => simp [firstSurrogatesOfMembers]
  | cons p more ih =>
      rw [firstSurrogatesOfMembers, List.forall_mem_cons, ← ih, ← Utf8.firstSurrogates_eq_none]
      cases Utf8.firstSurrogates 0 p.1 <;> cases firstSurrogates p.2 <;> simp

/-- What has scalar texts can be encoded. -/
theorem Fits.firstSurrogates_eq_none (h : Fits ints (·.isScalar = true) floats room v) :
    firstSurrogates v = none := by
  induction h with
  | null | bool | int | float => rfl
  | str scalar => exact Utf8.firstSurrogates_eq_none.mpr scalar
  | arr _ ih => exact firstSurrogatesOfItems_eq_none.mpr ih
  | obj _ keys _ ih =>
      exact firstSurrogatesOfMembers_eq_none.mpr fun p hp => ⟨keys p hp, ih p hp⟩

/-- What can be encoded has scalar texts. -/
theorem Fits.of_firstSurrogates (h : Fits ints texts floats room v) (none : firstSurrogates v = none) :
    Fits ints (·.isScalar = true) floats room v := by
  induction h with
  | null => exact .null
  | bool b => exact .bool b
  | int h => exact .int h
  | float h => exact .float h
  | str => exact .str (Utf8.firstSurrogates_eq_none.mp none)
  | arr _ ih => exact .arr fun v hv => ih v hv (firstSurrogatesOfItems_eq_none.mp none v hv)
  | obj nodup _ _ ih =>
      have members := firstSurrogatesOfMembers_eq_none.mp none
      exact .obj nodup (fun p hp => (members p hp).1) fun p hp => ih p hp (members p hp).2

end Json

end RouteDocs
