import RouteDocs.Editor.Request
import RouteDocs.Proofs.Json.Integer

/-!
# What Requests Ask For

Which requests ask to replace an endpoint, and that no `GET` request does.

## Main Definitions

* `Editor.Request.putEndpoint`: the request that puts a body at the path of an endpoint

## Main Statements

* `Editor.Request.call_get`: a `GET` request asks for the page or for the documentation
* `Editor.Request.call_putEndpoint`: **the path of an endpoint with a valid body** asks to replace
  the endpoint
* `Editor.Request.call_putEndpoint_of_long`: a number with too many digits is refused
-/

namespace RouteDocs

namespace Editor

/-! ### Paths -/

/-- A text without percent signs has no escapes. -/
theorem unescapePercents_eq_self {t : Text} (h : ∀ c ∈ t, c ≠ ('%' : CodePoint)) (turns : Nat) :
    unescapePercents turns t = t := by
  induction turns generalizing t with
  | zero => rfl
  | succ turns ih =>
      cases t with
      | nil => rfl
      | cons x t =>
          have sign : (x == ('%' : CodePoint)) = false := beq_false_of_ne (h x (by simp))
          have none : percentBytes (x :: t) = ([], x :: t) := by
            match t with
            | [] => rfl
            | [_] => rfl
            | a :: b :: rest => rw [percentBytes, sign]; rfl
          rw [unescapePercents, none]
          simp only [List.isEmpty_nil, if_true, ih fun c hc => h c (List.mem_cons_of_mem x hc)]

/-- A path without a query, a fragment and escapes is a plain one. -/
theorem Request.plainPath_eq_self {r : Request}
    (h : ∀ c ∈ r.path, c ≠ ('?' : CodePoint) ∧ c ≠ ('#' : CodePoint) ∧ c ≠ ('%' : CodePoint)) :
    r.plainPath = r.path := by
  have whole : (r.path.takeWhile fun c : CodePoint => c != '?' && c != '#') = r.path := by
    refine List.takeWhile_eq_self_iff.mpr fun c hc => ?_
    simp [(h c hc).1, (h c hc).2.1]
  rw [plainPath]
  simp only [whole]
  exact unescapePercents_eq_self (fun c hc => (h c hc).2.2) _

/-- The path of an endpoint leads to it, as it is written. -/
theorem Resource.ofExactPath?_endpoint {t : Text} (ne : t ≠ [])
    (h : ∀ c ∈ t, c ≠ ('/' : CodePoint)) :
    ofExactPath? (endpointStart ++ t) = some (.endpoint t) := by
  -- The sixth code point tells the path from all fixed ones.
  have sixth : (endpointStart ++ t)[5]? = some ('e' : CodePoint) := rfl
  have other {path : Text} (different : path[5]? ≠ some ('e' : CodePoint)) :
      (endpointStart ++ t == path) = false :=
    beq_false_of_ne fun same => different (same ▸ sixth)
  have start : (endpointStart ++ t).startsWith endpointStart = true :=
    List.isPrefixOf_iff_prefix.mpr (List.prefix_append _ t)
  have nonempty : t.isEmpty = false := List.isEmpty_eq_false_iff.mpr ne
  have slash : t.contains ('/' : CodePoint) = false := by
    simpa using fun mem => h _ mem rfl
  rw [ofExactPath?, other (by decide), other (by decide), other (by decide), start]
  simp only [List.drop_left, nonempty, slash]
  rfl

namespace Request

variable {r : Request} {c : Call}

/-- **A `GET` request asks for the page or for the documentation.** -/
theorem call_get (get : r.method = "GET") (h : r.call = .ok c) : c = .page ∨ c = .data := by
  unfold call at h
  split at h
  · cases h
  split at h
  · cases h
  next known =>
  split at h
  · cases h
    exact .inl rfl
  · cases h
    exact .inr rfl
  all_goals
    rw [get] at known
    exact absurd rfl known

/-- The request that puts a body at the path of the endpoint with a number. -/
def putEndpoint (index : Int) (body : Text) : Request :=
  ⟨"PUT", Resource.endpointStart ++ Text.ofInt index, body⟩

/-- The path of an endpoint has nothing to be cut off or unescaped. -/
theorem plainPath_putEndpoint (index : Int) (body : Text) :
    (putEndpoint index body).plainPath = Resource.endpointStart ++ Text.ofInt index := by
  have start : Resource.endpointStart.all (fun c => c != '?' && c != '#' && c != '%') = true := by
    decide
  refine plainPath_eq_self fun c hc => ?_
  rcases List.mem_append.mp hc with hc | hc
  · simpa [and_assoc] using List.all_eq_true.mp start c hc
  rcases Decoder.mem_ofInt hc with digit | rfl
  · refine ⟨?_, ?_, ?_⟩ <;>
    · rintro rfl
      exact absurd digit (by decide)
  · decide

/-- The path of an endpoint leads to its number, as it is written. -/
theorem ofPath?_putEndpoint (index : Int) (body : Text) :
    Resource.ofPath? (putEndpoint index body).plainPath = some (.endpoint (Text.ofInt index)) := by
  have nonempty : Text.ofInt index ≠ [] := by
    cases index with
    | ofNat n => exact Text.ofNat_ne_nil
    | negSucc n => exact List.cons_ne_nil _ _
  have segment : ∀ c ∈ Text.ofInt index, c ≠ ('/' : CodePoint) := by
    intro c hc
    rcases Decoder.mem_ofInt hc with digit | rfl
    · rintro rfl
      exact absurd digit (by decide)
    · decide
  rw [plainPath_putEndpoint, Resource.ofPath?, Resource.ofExactPath?_endpoint nonempty segment]
  rfl

/-- **The path of an endpoint with a valid body asks to replace the endpoint.** -/
theorem call_putEndpoint {index : Int} {body : Text} {v : Json} {e : Endpoint}
    (few : (Text.ofInt index).length ≤ 4300)
    (value : (putEndpoint index body).bodyValue? = .ok (some v))
    (decoded : Endpoint.decode .request v = .ok e) :
    (putEndpoint index body).call = .ok (.update index e) := by
  have number : decodeIndex (Text.ofInt index) = .ok index := by
    rw [decodeIndex, Decoder.integer, if_neg (Nat.not_lt_of_le few), Decoder.readInteger?_ofInt]
    rfl
  have method : ((putEndpoint index body).method != (Resource.endpoint (Text.ofInt index)).method) =
      false := rfl
  unfold call
  simp only [ofPath?_putEndpoint, method, Bool.false_eq_true, if_false, value, bind, Except.bind,
    number, decodeBody, decoded]
  rfl

/-- A number with too many digits is no index, whatever the body is. -/
theorem call_putEndpoint_of_long {index : Int} (long : 4300 < (Text.ofInt index).length)
    (body : Text) : ∃ refusal, (putEndpoint index body).call = .error refusal := by
  have number : ∃ issues, decodeIndex (Text.ofInt index) = .error issues := by
    rw [decodeIndex, Decoder.integer, if_pos long]
    exact ⟨_, rfl⟩
  obtain ⟨issues, number⟩ := number
  have method : ((putEndpoint index body).method != (Resource.endpoint (Text.ofInt index)).method) =
      false := rfl
  unfold call
  simp only [ofPath?_putEndpoint, method, Bool.false_eq_true, if_false, bind, Except.bind, number]
  cases (putEndpoint index body).bodyValue? with
  | error refusal => exact ⟨refusal, rfl⟩
  | ok v =>
      dsimp only
      cases decodeBody (Endpoint.decode .request) v <;> exact ⟨_, rfl⟩

end Request

end Editor

end RouteDocs
