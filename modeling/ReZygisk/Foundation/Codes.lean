import Mathlib.Data.List.Basic

/-!
# Words that end by themselves

A code whose words can be told apart whatever follows them may be strung together
without separators.  One symbol that starts no word is enough to end the string.
-/

namespace ReZygisk
namespace Foundation

variable {symbol letter : Type} {code : symbol -> List letter}

/-- What follows a word does not depend on how the word is read. -/
def SelfDelimiting (code : symbol -> List letter) : Prop :=
  forall a b u v, code a ++ u = code b ++ v -> a = b ∧ u = v

theorem SelfDelimiting.injective (h : SelfDelimiting code) : Function.Injective code := by
  intro a b heq
  refine (h a b [] [] ?_).left
  rw [heq]

/-- A string of words is read back up to a letter that starts no word. -/
theorem SelfDelimiting.flatMap_injective (h : SelfDelimiting code) {last : letter}
    (hlast : forall a u v, code a ++ u ≠ last :: v) :
    forall (xs ys : List symbol) (u v : List letter),
      xs.flatMap code ++ last :: u = ys.flatMap code ++ last :: v -> xs = ys ∧ u = v
  | [], [], _, _, heq => by
      injection heq with _ heq
      exact ⟨rfl, heq⟩
  | [], y :: ys, u, v, heq => by
      rw [List.flatMap_cons, List.append_assoc] at heq
      exact absurd heq.symm (hlast y _ u)
  | x :: xs, [], u, v, heq => by
      rw [List.flatMap_cons, List.append_assoc] at heq
      exact absurd heq (hlast x _ v)
  | x :: xs, y :: ys, u, v, heq => by
      rw [List.flatMap_cons, List.flatMap_cons, List.append_assoc, List.append_assoc] at heq
      rcases h x y _ _ heq with ⟨hxy, hrest⟩
      rcases SelfDelimiting.flatMap_injective h hlast xs ys u v hrest with ⟨hxs, huv⟩
      exact ⟨by rw [hxy, hxs], huv⟩

end Foundation
end ReZygisk
