import RouteDocs.Proofs.Json.Fits

/-!
# Floating-Point Numbers of Values

A property of all floating-point numbers of a value, wherever they stand in it.

## Main Definitions

* `Json.FloatsIn`: the values whose floating-point numbers are of a class

## Main Statements

* `Json.FloatsIn.arr_iff`, `Json.FloatsIn.obj_iff`: the numbers of a value are those of its parts
* `Json.Fits.floatsIn`: the numbers of a value within the limits of a reader
-/

namespace RouteDocs

namespace Json

/-- **Values whose floating-point numbers are of a class.** -/
inductive FloatsIn (floats : Binary64 → Prop) : Json → Prop
  /-- The null value. -/
  | null : FloatsIn floats .null
  /-- A truth value. -/
  | bool (b : Bool) : FloatsIn floats (.bool b)
  /-- An integer. -/
  | int (i : Int) : FloatsIn floats (.int i)
  /-- A floating-point number of the class. -/
  | float {x : Binary64} (h : floats x) : FloatsIn floats (.float x)
  /-- A text. -/
  | str (t : Text) : FloatsIn floats (.str t)
  /-- A list of such values. -/
  | arr {vs : List Json} (items : ∀ v ∈ vs, FloatsIn floats v) : FloatsIn floats (.arr vs)
  /-- An object of such values. -/
  | obj {ms : List (Text × Json)} (values : ∀ p ∈ ms, FloatsIn floats p.2) :
      FloatsIn floats (.obj ms)

attribute [simp] FloatsIn.null FloatsIn.bool FloatsIn.int FloatsIn.str

variable {floats floats' : Binary64 → Prop} {v : Json}

namespace FloatsIn

@[simp] theorem float_iff {x : Binary64} : FloatsIn floats (.float x) ↔ floats x :=
  ⟨fun h => by cases h; assumption, .float⟩

@[simp] theorem arr_iff {vs : List Json} :
    FloatsIn floats (.arr vs) ↔ ∀ v ∈ vs, FloatsIn floats v :=
  ⟨fun h => by cases h; assumption, .arr⟩

@[simp] theorem obj_iff {ms : List (Text × Json)} :
    FloatsIn floats (.obj ms) ↔ ∀ p ∈ ms, FloatsIn floats p.2 :=
  ⟨fun h => by cases h; assumption, .obj⟩

theorem mono (h : FloatsIn floats v) (wider : ∀ x, floats x → floats' x) : FloatsIn floats' v := by
  induction h with
  | null => exact .null
  | bool b => exact .bool b
  | int i => exact .int i
  | float h => exact .float (wider _ h)
  | str t => exact .str t
  | arr _ ih => exact .arr ih
  | obj _ ih => exact .obj ih

/-- Numbers of two classes are of both. -/
theorem and (h : FloatsIn floats v) (h' : FloatsIn floats' v) :
    FloatsIn (fun x => floats x ∧ floats' x) v := by
  induction h with
  | null => exact .null
  | bool b => exact .bool b
  | int i => exact .int i
  | float h => exact .float ⟨h, float_iff.mp h'⟩
  | str t => exact .str t
  | arr _ ih => exact .arr fun v hv => ih v hv (arr_iff.mp h' v hv)
  | obj _ ih => exact .obj fun p hp => ih p hp (obj_iff.mp h' p hp)

@[simp] theorem ofTexts (ts : List Text) : FloatsIn floats (.ofTexts ts) := by
  refine .arr fun v hv => ?_
  obtain ⟨t, -, rfl⟩ := List.mem_map.mp hv
  exact .str t

/-- A map that is made from such values holds such values. -/
theorem of_mem_ofList {entries : List (Text × Json)} (h : ∀ p ∈ entries, FloatsIn floats p.2) :
    ∀ p ∈ Assoc.ofList entries, FloatsIn floats p.2 :=
  fun p mem => h p (Assoc.mem_ofList mem)

end FloatsIn

section

variable [DecidablePred floats]

mutual

/-- Whether the numbers of a value are of a class. -/
def decideFloatsIn : (v : Json) → Decidable (v.FloatsIn floats)
  | .null => isTrue .null
  | .bool b => isTrue (.bool b)
  | .int i => isTrue (.int i)
  | .float x => decidable_of_iff (floats x) FloatsIn.float_iff.symm
  | .str t => isTrue (.str t)
  | .arr vs => @decidable_of_iff _ _ FloatsIn.arr_iff.symm (decideFloatsInItems vs)
  | .obj ms => @decidable_of_iff _ _ FloatsIn.obj_iff.symm (decideFloatsInMembers ms)

/-- Whether the numbers of all items are of a class. -/
def decideFloatsInItems : (vs : List Json) → Decidable (∀ v ∈ vs, v.FloatsIn floats)
  | [] => isTrue (List.forall_mem_nil _)
  | v :: more => @decidable_of_iff _ _ List.forall_mem_cons.symm
      (@instDecidableAnd _ _ (decideFloatsIn v) (decideFloatsInItems more))

/-- Whether the numbers of all members are of a class. -/
def decideFloatsInMembers :
    (ms : List (Text × Json)) → Decidable (∀ p ∈ ms, p.2.FloatsIn floats)
  | [] => isTrue (List.forall_mem_nil _)
  | (_, v) :: more => @decidable_of_iff _ _ List.forall_mem_cons.symm
      (@instDecidableAnd _ _ (decideFloatsIn v) (decideFloatsInMembers more))

end

instance : DecidablePred (FloatsIn floats) := decideFloatsIn

end

theorem Fits.floatsIn {ints : Int → Prop} {texts : Text → Prop} {room : Nat}
    (h : Fits ints texts floats room v) :
    FloatsIn floats v := by
  induction h with
  | null => exact .null
  | bool b => exact .bool b
  | int => exact .int _
  | float h => exact .float h
  | str => exact .str _
  | arr _ ih => exact .arr ih
  | obj _ _ _ ih => exact .obj ih

end Json

end RouteDocs
