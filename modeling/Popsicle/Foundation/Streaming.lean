import Mathlib.Tactic.Common

/-!
# Functions of a stream

A streamed function takes a list in pieces, one after the other, and does not depend on
where the list is cut.  A reader gives a list in such pieces: how long they are is up to the
reader, and a read can fail.
-/

namespace Foundation

/-- A function from lists of `α` to `β` that goes through contexts in `γ`. -/
structure Streamed (γ α β : Type) where
  new : γ
  update : γ → List α → γ
  finish : γ → β
  update_nil : ∀ context, update context [] = context
  update_append : ∀ context left right,
    update context (left ++ right) = update (update context left) right

/-- The value of a list that is taken in one piece. -/
def Streamed.value {γ α β : Type} (streamed : Streamed γ α β) (whole : List α) : β :=
  streamed.finish (streamed.update streamed.new whole)

/-- What is left to read, and how the next reads go: a read fails with a fault, or gives no
more than a number of entries.  After these, each read gives as much as is asked for. -/
structure Reader (φ α : Type) where
  left : List α
  grants : List (Except φ Nat)

namespace Reader

variable {φ α : Type}

/-- Read a piece of the given size or less: it is empty only if nothing is left. -/
def read (size : Nat) (reader : Reader φ α) : Except φ (List α × Reader φ α) :=
  match reader.grants with
  | [] => .ok (reader.left.take size, { left := reader.left.drop size, grants := [] })
  | .ok count :: rest =>
      .ok (reader.left.take (max 1 (min count size)),
        { left := reader.left.drop (max 1 (min count size)), grants := rest })
  | .error fault :: _ => .error fault

variable {size : Nat} {reader after : Reader φ α} {piece : List α}

/-- A read takes a piece off what is left, and a grant off the next ones. -/
theorem read_ok (positive : 0 < size) (isRead : reader.read size = .ok (piece, after)) :
    reader.left = piece ++ after.left ∧ (piece = [] ↔ reader.left = []) ∧
      ∀ grant ∈ after.grants, grant ∈ reader.grants := by
  unfold read at isRead
  split at isRead
  · cases isRead
    refine ⟨(List.take_append_drop size reader.left).symm, ?_, by simp⟩
    simp only [List.take_eq_nil_iff, Nat.ne_of_gt positive, false_or]
  · rename_i count rest isGrants
    cases isRead
    refine ⟨(List.take_append_drop _ reader.left).symm, ?_, ?_⟩
    · have given : max 1 (min count size) ≠ 0 := by omega
      simp only [List.take_eq_nil_iff, given, false_or]
    · intro grant member
      rw [isGrants]
      exact List.mem_cons_of_mem _ member
  · cases isRead

theorem read_error {fault : φ} (isRead : reader.read size = .error fault) :
    .error fault ∈ reader.grants := by
  unfold read at isRead
  split at isRead
  · cases isRead
  · cases isRead
  · rename_i isGrants
    cases isRead
    rw [isGrants]
    exact List.mem_cons_self

/-- What is left gets shorter with every piece that is not empty. -/
theorem length_left_lt (positive : 0 < size) (isRead : reader.read size = .ok (piece, after))
    (nonempty : piece ≠ []) : after.left.length < reader.left.length := by
  have taken := congrArg List.length (read_ok positive isRead).1
  have some : 0 < piece.length := List.length_pos_iff.mpr nonempty
  rw [List.length_append] at taken
  omega

end Reader

end Foundation
