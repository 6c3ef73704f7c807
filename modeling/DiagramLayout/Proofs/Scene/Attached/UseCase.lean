import DiagramLayout.Proofs.Scene.Attached.Basic
import DiagramLayout.Proofs.Scene.Tidy.UseCase

/-!
# Attached associations

Actors and use cases have boxes with whole ends, and an association is attached where it suits it.
-/

namespace DiagramLayout

open Single

namespace UseCaseDiagram

variable {d : UseCaseDiagram} {n : Node}

/-- The boxes of actors and use cases have room for the inset. -/
theorem hasRoom_box (hactors : d.actors.size ≤ 20002) (huseCases : d.useCases.size ≤ 20002)
    (hn : n ∈ (UseCaseSettings.standard.nodes d).values) :
  n.box.HasRoom Settings.standard.attachment.inset
  := by
  rcases exists_of_mem_nodes hn with ⟨i, hi, rfl⟩ | ⟨i, hi, rfl⟩
  · apply (spans_actorNode (by omega : i ≤ 20002) d.actors.toList[i]).hasRoom
      (isWhole_ofNat (n := 48) (by norm_num)) (isWhole_ofNat (n := 92) (by norm_num)) isWhole_inset
    all_goals omega
  · apply (spans_useCaseNode (by omega : i ≤ 20002) d.useCases.toList[i]).hasRoom
      (isWhole_ofNat (n := 180) (by norm_num)) (isWhole_ofNat (n := 60) (by norm_num)) isWhole_inset
    all_goals omega

/-- The edges of a use case diagram that is not too large are attached. -/
theorem isAttached_scene (hactors : d.actors.size ≤ 20002) (huseCases : d.useCases.size ≤ 20002) :
  (d.scene .standard).IsAttached
  := by
  intro e he
  obtain ⟨a, -, hedge⟩ := List.mem_filterMap.mp he
  rw [Association.edge?] at hedge
  split at hedge
  case h_2 => contradiction
  case h_1 actor useCase hactor huseCase =>
    obtain rfl := Option.some.inj hedge
    have hindexed := Node.areIndexed_catalog
      (d.actors.toList.mapIdx UseCaseSettings.standard.actorNode
        ++ d.useCases.toList.mapIdx UseCaseSettings.standard.useCaseNode)
    have hroom : ∀ {id : String} {n : Node},
        (UseCaseSettings.standard.nodes d).find? id = some n →
          n.box.HasRoom Settings.standard.attachment.inset := by
      intro id n hfind
      apply hasRoom_box hactors huseCases
      exact Catalog.mem_values_of_find? hfind
    have hstubs : UseCaseSettings.standard.route.HasStubs :=
      RouteSpacing.hasStubs (isWhole_ofNat (n := 12) (by norm_num)) (by norm_num) (by norm_num)
    refine Edge.isAttached_of_route actor useCase ?_ ?_ rfl
      (Attachment.isOnBorders_select (hroom hactor) (hroom huseCase)) (hroom huseCase)
      hasPenalties_standard hstubs
    · rw [← hindexed.id_eq hactor] at hactor
      exact hactor
    · rw [← hindexed.id_eq huseCase] at huseCase
      exact huseCase

end UseCaseDiagram

end DiagramLayout
