import DiagramLayout.Proofs.Settings.Record
import DiagramLayout.Settings.File

/-!
# Sound sections

The fields of every section of the settings have different names, set different parts of the section
and are read soundly. Where the spacing or the advances of a section are begun, they start from the
standard values of their kind.
-/

namespace DiagramLayout

/-- The standard settings, but with spacings and advances that are standard for their kind. -/
def Settings.bare : Settings where
  useCase := { route := {} }
  sequence := { route := {} }
  classes := { charWidths := {}, route := {} }
  state := { route := {} }
  caption := { charWidths := {} }

/-! ### Records of numbers -/

/-- The fields of a spacing are sound, with the standard spacing as its beginning. -/
theorem RouteSpacing.areSound_fields (start : RouteSpacing) :
  Field.AreSound RouteSpacing.fields {} start {}
  where
  names := by simp [fields]
  apart := by
    simp only [fields, Field.apart_cons, Field.apart_nil, List.Forall, and_true]
    and_intros <;> exact Field.spares_of_map (fun _ _ _ => rfl) fun _ _ => rfl
  sound := by
    simp only [fields, List.Forall]
    and_intros <;> exact Field.isSound_single (fun _ _ => rfl) rfl
  complete s t := by
    cases s
    cases t
    simp [fields]

/-- The fields of the advances are sound, with the standard advances as their beginning. -/
theorem CharWidths.areSound_fields (start : CharWidths) :
  Field.AreSound CharWidths.fields {} start {}
  where
  names := by simp [fields]
  apart := by
    simp only [fields, Field.apart_cons, Field.apart_nil, List.Forall, and_true]
    and_intros <;> exact Field.spares_of_map (fun _ _ _ => rfl) fun _ _ => rfl
  sound := by
    simp only [fields, List.Forall]
    and_intros <;> exact Field.isSound_single (fun _ _ => rfl) rfl
  complete s t := by
    cases s
    cases t
    simp [fields]

/-! ### Sections -/

/-- The fields of the section on use case diagrams are sound. -/
theorem UseCaseSettings.areSound_fields :
  Field.AreSound UseCaseSettings.fields {} Settings.standard.useCase Settings.bare.useCase
  where
  names := by simp [fields]
  apart := by
    simp only [fields, Field.apart_cons, Field.apart_nil, List.Forall, and_true]
    and_intros <;> exact Field.spares_of_map (fun _ _ _ => rfl) fun _ _ => rfl
  sound := by
    simp only [fields, List.Forall]
    and_intros
    all_goals first
      | exact Field.isSound_single (fun _ _ => rfl) rfl
      | exact Field.isSound_record (fun _ _ => rfl) rfl (RouteSpacing.areSound_fields _)
  complete s t := by
    cases s
    cases t
    simp [fields, (RouteSpacing.areSound_fields {}).contentOf_inj]

/-- The fields of the section on sequence diagrams are sound. -/
theorem SequenceSettings.areSound_fields :
  Field.AreSound SequenceSettings.fields {} Settings.standard.sequence Settings.bare.sequence
  where
  names := by simp [fields]
  apart := by
    simp only [fields, Field.apart_cons, Field.apart_nil, List.Forall, and_true]
    and_intros <;> exact Field.spares_of_map (fun _ _ _ => rfl) fun _ _ => rfl
  sound := by
    simp only [fields, List.Forall]
    and_intros
    all_goals first
      | exact Field.isSound_single (fun _ _ => rfl) rfl
      | exact Field.isSound_record (fun _ _ => rfl) rfl (RouteSpacing.areSound_fields _)
  complete s t := by
    cases s
    cases t
    simp [fields, (RouteSpacing.areSound_fields {}).contentOf_inj]

/-- The fields of the section on class diagrams are sound. -/
theorem ClassSettings.areSound_fields :
  Field.AreSound ClassSettings.fields {} Settings.standard.classes Settings.bare.classes
  where
  names := by simp [fields]
  apart := by
    simp only [fields, Field.apart_cons, Field.apart_nil, List.Forall, and_true]
    and_intros <;> exact Field.spares_of_map (fun _ _ _ => rfl) fun _ _ => rfl
  sound := by
    simp only [fields, List.Forall]
    and_intros
    all_goals first
      | exact Field.isSound_single (fun _ _ => rfl) rfl
      | exact Field.isSound_record (fun _ _ => rfl) rfl (CharWidths.areSound_fields _)
      | exact Field.isSound_record (fun _ _ => rfl) rfl (RouteSpacing.areSound_fields _)
  complete s t := by
    cases s
    cases t
    simp [fields, (CharWidths.areSound_fields {}).contentOf_inj,
      (RouteSpacing.areSound_fields {}).contentOf_inj]

/-- The fields of the section on state diagrams are sound. -/
theorem StateSettings.areSound_fields :
  Field.AreSound StateSettings.fields {} Settings.standard.state Settings.bare.state
  where
  names := by simp [fields]
  apart := by
    simp only [fields, Field.apart_cons, Field.apart_nil, List.Forall, and_true]
    and_intros <;> exact Field.spares_of_map (fun _ _ _ => rfl) fun _ _ => rfl
  sound := by
    simp only [fields, List.Forall]
    and_intros
    all_goals first
      | exact Field.isSound_single (fun _ _ => rfl) rfl
      | exact Field.isSound_record (fun _ _ => rfl) rfl (RouteSpacing.areSound_fields _)
  complete s t := by
    cases s
    cases t
    simp [fields, (RouteSpacing.areSound_fields {}).contentOf_inj]

/-- The fields of the section on the router are sound. -/
theorem RouteTuning.areSound_fields :
  Field.AreSound RouteTuning.fields {} Settings.standard.router Settings.bare.router
  where
  names := by simp [fields]
  apart := by
    simp only [fields, Field.apart_cons, Field.apart_nil, List.Forall, and_true]
    and_intros <;> exact Field.spares_of_map (fun _ _ _ => rfl) fun _ _ => rfl
  sound := by
    simp only [fields, List.Forall]
    and_intros
    all_goals first
      | exact Field.isSound_single (fun _ _ => rfl) rfl
      | exact Field.isSound_count (fun _ _ => rfl) rfl
  complete s t := by
    cases s
    cases t
    simp [fields]

/-- The fields of the section on anchors are sound. -/
theorem AttachmentRules.areSound_fields :
  Field.AreSound AttachmentRules.fields {} Settings.standard.attachment Settings.bare.attachment
  where
  names := by simp [fields]
  apart := by
    simp only [fields, Field.apart_cons, Field.apart_nil, List.Forall, and_true]
    and_intros <;> exact Field.spares_of_map (fun _ _ _ => rfl) fun _ _ => rfl
  sound := by
    simp only [fields, List.Forall]
    and_intros <;> exact Field.isSound_single (fun _ _ => rfl) rfl
  complete s t := by
    cases s
    cases t
    simp [fields]

/-- The fields of the section on labels are sound. -/
theorem CaptionRules.areSound_fields :
  Field.AreSound CaptionRules.fields {} Settings.standard.caption Settings.bare.caption
  where
  names := by simp [fields]
  apart := by
    simp only [fields, Field.apart_cons, Field.apart_nil, List.Forall, and_true]
    and_intros <;> exact Field.spares_of_map (fun _ _ _ => rfl) fun _ _ => rfl
  sound := by
    simp only [fields, List.Forall]
    and_intros
    all_goals first
      | exact Field.isSound_single (fun _ _ => rfl) rfl
      | exact Field.isSound_record (fun _ _ => rfl) rfl (CharWidths.areSound_fields _)
  complete s t := by
    cases s
    cases t
    simp [fields, (CharWidths.areSound_fields {}).contentOf_inj]

/-- The sections are sound fields of the settings, since their own fields are. -/
theorem Settings.areSound_fields :
  Field.AreSound Settings.fields standard standard bare
  where
  names := by simp [fields]
  apart := by
    simp only [fields, Field.apart_cons, Field.apart_nil, List.Forall, and_true]
    and_intros <;> exact Field.spares_of_map (fun _ _ _ => rfl) fun _ _ => rfl
  sound := by
    simp only [fields, List.Forall]
    and_intros
    · exact Field.isSound_record (fun _ _ => rfl) rfl UseCaseSettings.areSound_fields
    · exact Field.isSound_record (fun _ _ => rfl) rfl SequenceSettings.areSound_fields
    · exact Field.isSound_record (fun _ _ => rfl) rfl ClassSettings.areSound_fields
    · exact Field.isSound_record (fun _ _ => rfl) rfl StateSettings.areSound_fields
    · exact Field.isSound_record (fun _ _ => rfl) rfl RouteTuning.areSound_fields
    · exact Field.isSound_record (fun _ _ => rfl) rfl AttachmentRules.areSound_fields
    · exact Field.isSound_record (fun _ _ => rfl) rfl CaptionRules.areSound_fields
  complete s t := by
    cases s
    cases t
    simp [fields, UseCaseSettings.areSound_fields.contentOf_inj,
      SequenceSettings.areSound_fields.contentOf_inj, ClassSettings.areSound_fields.contentOf_inj,
      StateSettings.areSound_fields.contentOf_inj, RouteTuning.areSound_fields.contentOf_inj,
      AttachmentRules.areSound_fields.contentOf_inj, CaptionRules.areSound_fields.contentOf_inj]

end DiagramLayout
