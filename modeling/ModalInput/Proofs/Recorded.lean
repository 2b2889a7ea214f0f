import ModalInput.Surface.Recording

/-!
# What a recording makes of effects

A recording looks at the calls and at the announcements apart: the announcements are kept as they
come, and of the calls those are left out that perform an action it does not have.

    es.filterMap (accepted? u) = (es.filterMap Effect.call?).filter (!·.performs u)
                                                                         (filterMap_accepted?)
-/

namespace ModalInput

/-- The call performs one of the actions. -/
def Call.performs {S : Type} (actions : List Action) : Call S → Bool
  | .perform a => decide (a ∈ actions)
  | .type _ | .restore _ => false

/-- No call performs an action of none. -/
theorem Call.filter_performs_nil {S : Type} (cs : List (Call S)) :
    (cs.filter fun c => !c.performs []) = cs := by
  refine List.filter_eq_self.2 fun c _ => ?_
  cases c <;> rfl

namespace Recording

variable (unavailable : List Action)

/-! ## One effect -/

theorem accepted?_eq (e : Effect Span) :
    accepted? unavailable e = e.call?.filter fun c => !c.performs unavailable := by
  cases e with
  | announce | warn => rfl
  | call c =>
    cases c with
    | type | restore => rfl
    | perform a =>
      unfold accepted? answer
      by_cases h : a ∈ unavailable <;> simp [Effect.call?, Call.performs, Option.filter, h]

/-! ## Lists of effects -/

variable (es : List (Effect Span))

theorem filterMap_accepted? :
    es.filterMap (accepted? unavailable) =
      (es.filterMap Effect.call?).filter fun c => !c.performs unavailable := by
  rw [List.filter_filterMap]
  exact congrArg (es.filterMap ·) (funext (accepted?_eq unavailable))

/-- Announcements and warnings do not move the selection. -/
theorem foldl_selectionAfter (selection : Option Span) :
    es.foldl selectionAfter selection =
      (es.filterMap Effect.call?).foldl (fun x c => selectionAfter x (.call c)) selection := by
  rw [List.foldl_filterMap]
  congr 1
  funext x e
  cases e <;> rfl

end Recording

end ModalInput
