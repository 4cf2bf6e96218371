import RouteDocs.Handler.Section
import RouteDocs.Proofs.Handler.Comment
import RouteDocs.Proofs.Text.Match

/-!
# The Places of Handlers

A handler is found at a place of the file, and its section begins there or at the comment before.

## Main Statements

* `DocComment.before?_start_le`: the comment attached to a place stands before it
* `Handler.startAt_le`, `Handler.offset?_le`: a section begins no later than its signature, which
  stands within the file
-/

namespace RouteDocs

/-- **The comment attached to a place stands before it.** -/
theorem DocComment.before?_start_le {content : Text} {offset : Nat} {comment : DocComment}
    (h : before? content offset = some comment) : comment.start ≤ offset := by
  have attached := before?_eq_some_iff.mp h
  have apart := attached.start_add_le
  have stop := attached.stop_eq_add
  have before := attached.stop_le
  omega

namespace Handler

variable {content method : Text} {offset : Nat}

/-- The earliest signature is one that is found. -/
theorem exists_signature (h : offset? content method = some offset) :
    ∃ p ∈ signatures method, ∃ m, p.find? content = some m ∧ m.start.offset = offset := by
  obtain ⟨p, mem, place⟩ := List.mem_filterMap.mp (List.min?_mem h)
  exact ⟨p, mem, Option.map_eq_some_iff.mp place⟩

/-- A signature stands within the file. -/
theorem offset?_le (h : offset? content method = some offset) : offset ≤ content.length := by
  obtain ⟨p, -, m, found, rfl⟩ := exists_signature h
  exact Pattern.find?_start_le found

/-- A section begins no later than its signature. -/
theorem startAt_le (content : Text) (offset : Nat) : startAt content offset ≤ offset := by
  unfold startAt
  cases comment : DocComment.before? content offset with
  | none => exact Nat.le_refl _
  | some found => exact DocComment.before?_start_le comment

end Handler

end RouteDocs
