import DiagramLayout.Proofs.Scene.Attached.Class
import DiagramLayout.Proofs.Scene.Attached.UseCase
import DiagramLayout.Proofs.Script.Size

/-!
# Scenes of scripts with attached edges

With the standard settings, the associations and the relations that are read from a script of moderate
length are drawn from box to box.
-/

namespace DiagramLayout

/-- The use cases and the classes of a model with moderate diagrams are drawn with attached edges. -/
theorem Model.HasAtMost.isAttached_scene {m : Model} {n : ℕ} (h : m.HasAtMost n) (hn : n ≤ 10001)
    (hmembers : m.classes.memberCount ≤ 10000) :
  (m.scene .useCase .standard).IsAttached ∧ (m.scene .classes .standard).IsAttached
  := by
  have hactors := h.actors
  have huseCases := h.useCases
  have hclasses := h.classes
  have hrelations := h.relations
  constructor
  · apply UseCaseDiagram.isAttached_scene (by omega) (by omega)
  · apply ClassDiagram.isAttached_scene ⟨by omega, hmembers⟩
    exact (hrelations.trans hn).trans_lt (by norm_num)

namespace Reading

/-- Of a script with at most 10000 line feeds and 10000 class members, every edge between use cases or
between classes begins on the border of the box of its source and ends on the border of the box of its
target. -/
theorem ofText_isAttached (text : String) (hlines : text.toList.count '\n' ≤ 10000)
    (hmembers : (ofText text).model.classes.memberCount ≤ 10000) :
  ((ofText text).model.scene .useCase .standard).IsAttached
    ∧ ((ofText text).model.scene .classes .standard).IsAttached
  := (hasAtMost_ofText text).isAttached_scene (by omega) hmembers

/-- A script with an association, a parent of two heirs and a relation of a class to itself. -/
def attachedScript : String :=
  "User -> (Log in)\nclass A { x; y() }\nB <|-- A\nB <|-- C\nC *-- C"

theorem ofText_isAttached_attachedScript :
  (attachedScript.toList.count '\n' ≤ 10000
      ∧ (ofText attachedScript).model.classes.memberCount ≤ 10000)
    ∧ (ofText attachedScript).model.useCase.associations.length = 1
    ∧ (ofText attachedScript).model.classes.relations.length = 3
    ∧ ((ofText attachedScript).model.scene .useCase .standard).IsAttached
    ∧ ((ofText attachedScript).model.scene .classes .standard).IsAttached
  := by
  have hlines : attachedScript.toList.count '\n' ≤ 10000 := by decide +kernel
  have hmembers : (ofText attachedScript).model.classes.memberCount ≤ 10000 := by decide +kernel
  refine ⟨⟨hlines, hmembers⟩, by decide +kernel, by decide +kernel, ?_⟩
  exact ofText_isAttached attachedScript hlines hmembers

end Reading

end DiagramLayout
