import DiagramLayout.Proofs.Scene.Tidy.Class
import DiagramLayout.Proofs.Scene.Tidy.Sequence
import DiagramLayout.Proofs.Scene.Tidy.State
import DiagramLayout.Proofs.Scene.Tidy.UseCase
import DiagramLayout.Proofs.Script.Size

/-!
# Scenes of scripts

With the standard settings, whatever is read from a script of moderate length is drawn without
overlaps and on the canvas. The bounds keep all places below `2 ^ 23`, where sums of whole numbers are exact.
-/

namespace DiagramLayout

/-- The scene of a model with moderate diagrams is tidy. -/
theorem Model.HasAtMost.isTidy_scene {m : Model} {n : ℕ} (h : m.HasAtMost n) (hn : n ≤ 10001)
    (hmembers : m.classes.memberCount ≤ 10000) (kind : DiagramKind) :
  (m.scene kind .standard).IsTidy
  := by
  have hactors := h.actors
  have huseCases := h.useCases
  have hparticipants := h.participants
  have hclasses := h.classes
  have hstates := h.states
  cases kind with
  | useCase => apply UseCaseDiagram.isTidy_scene (by omega) (by omega)
  | sequence => apply SequenceDiagram.isTidy_scene (by omega)
  | classes => apply ClassDiagram.isTidy_scene ⟨by omega, hmembers⟩
  | state => apply StateDiagram.isTidy_scene (by omega)

namespace Reading

/-- A script with at most 10000 line feeds and 10000 class members is drawn without overlaps and on
the canvas, as a diagram of any kind. -/
theorem ofText_isTidy (text : String) (kind : DiagramKind) (hlines : text.toList.count '\n' ≤ 10000)
    (hmembers : (ofText text).model.classes.memberCount ≤ 10000) :
  ((ofText text).model.scene kind .standard).IsTidy
  := (hasAtMost_ofText text).isTidy_scene (by omega) hmembers kind

/-- A script with two heirs of a class that has members, and with a part of one of them. -/
def smallScript : String :=
  "class A { x; y() }\nA <|-- B\nA <|-- C\nB *-- D"

theorem ofText_isTidy_smallScript :
  smallScript.toList.count '\n' ≤ 10000 ∧ (ofText smallScript).model.classes.memberCount = 2
    ∧ ((ofText smallScript).model.scene .classes .standard).nodes.keys = ["A", "B", "C", "D"]
    ∧ ((ofText smallScript).model.scene .classes .standard).IsTidy
  := by
  have hlines : smallScript.toList.count '\n' ≤ 10000 := by decide +kernel
  have hmembers : (ofText smallScript).model.classes.memberCount = 2 := by decide +kernel
  have hkeys : ((ofText smallScript).model.scene .classes .standard).nodes.keys
      = ["A", "B", "C", "D"] := by decide +kernel
  exact ⟨hlines, hmembers, hkeys, ofText_isTidy smallScript .classes hlines (by omega)⟩

end Reading

end DiagramLayout
