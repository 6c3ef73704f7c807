import DiagramLayout.Proofs.Scene.Rows
import DiagramLayout.Proofs.Script.Nesting
import DiagramLayout.Proofs.Script.Size

/-!
# The nesting of activation bars

A bar begins a fixed distance above the moment at which its activation starts, and ends a fixed distance
below the one at which it finishes: with the standard settings even the shortest bar is higher than the
least height. So bars are nested as their activations are.
-/

namespace DiagramLayout

open Single

/-- The scene has a bar for every activation, and where the interval of one contains that of another of
the same participant, their bars stand at the same place and the one reaches around the other. -/
structure Scene.NestsBars (s : Scene) (d : SequenceDiagram) : Prop where
  bars : s.bars.map (fun b => (b.id, b.participant))
    = d.activations.map fun a => (a.id, a.participant)
  inside : ∀ outer ∈ d.activations.zip s.bars, ∀ inner ∈ d.activations.zip s.bars,
    outer.1.participant = inner.1.participant → outer.1.Contains inner.1 →
    inner.2.box.x = outer.2.box.x ∧ outer.2.box.y ≤ inner.2.box.y
      ∧ inner.2.box.bottom ≤ outer.2.box.bottom

namespace SequenceSettings

variable {settings : SequenceSettings} {nodes : Catalog Node} {a b : Activation}
  {bar other : ActivationBar}

/-- A bar has the id and the participant of its activation. -/
theorem bar?_eq_some (h : settings.bar? nodes a = some bar) :
  bar.id = a.id ∧ bar.participant = a.participant
  := by
  obtain ⟨node, -, rfl⟩ := Option.map_eq_some_iff.mp h
  exact ⟨rfl, rfl⟩

/-- All bars of a participant stand at the same place. -/
theorem x_eq_of_participant_eq (ha : settings.bar? nodes a = some bar)
    (hb : settings.bar? nodes b = some other) (h : a.participant = b.participant) :
  other.box.x = bar.box.x
  := by
  obtain ⟨node, hnode, rfl⟩ := Option.map_eq_some_iff.mp ha
  obtain ⟨node', hnode', rfl⟩ := Option.map_eq_some_iff.mp hb
  rw [← h, hnode] at hnode'
  rw [Option.some.inj hnode']

/-- With the standard settings a bar reaches from 18 above the start to 22 below the finish. -/
theorem isWhole_bar (h : Settings.standard.sequence.bar? nodes a = some bar)
    (hordered : a.start ≤ a.finish) (hfinish : a.finish ≤ 10001) :
  IsWhole bar.box.y (122 + a.start * 70) ∧ IsWhole bar.box.bottom (162 + a.finish * 70)
  := by
  obtain ⟨node, -, rfl⟩ := Option.map_eq_some_iff.mp h
  have hgap : IsWhole Settings.standard.sequence.messageGap 70 := isWhole_ofNat (n := 70) (by norm_num)
  have hstart : IsWhole (Settings.standard.sequence.messageY a.start) (140 + a.start * 70) :=
    isWhole_messageY (by omega)
  have hlead : IsWhole Settings.standard.sequence.activationLead 18 :=
    isWhole_ofNat (n := 18) (by norm_num)
  have hspan : IsWhole ((Float32.ofNat a.finish - Float32.ofNat a.start)
      * Settings.standard.sequence.messageGap) ((a.finish - a.start) * 70) := by
    have hlength : IsWhole (Float32.ofNat a.finish - Float32.ofNat a.start) (a.finish - a.start) :=
      (isWhole_ofNat (by omega)).sub (isWhole_ofNat (by omega)) (by rw [abs_le]; omega)
    exact hlength.mul hgap (by rw [abs_le]; omega)
  have hlong : IsWhole ((Float32.ofNat a.finish - Float32.ofNat a.start)
      * Settings.standard.sequence.messageGap + Settings.standard.sequence.activationTail)
      ((a.finish - a.start) * 70 + 40) :=
    hspan.add (isWhole_ofNat (n := 40) (by norm_num)) (by rw [abs_le]; omega)
  have hleast : IsWhole Settings.standard.sequence.activationMinHeight 28 :=
    isWhole_ofNat (n := 28) (by norm_num)
  have htop := hstart.sub hlead (by rw [abs_le]; omega)
  have hbottom := htop.add (hlong.greater hleast) (by rw [abs_le]; omega)
  have hfrom : (140 + a.start * 70 - 18 : ℤ) = 122 + a.start * 70 := by ring
  have hto : 140 + (a.start : ℤ) * 70 - 18 + max (((a.finish : ℤ) - a.start) * 70 + 40) 28
      = 162 + a.finish * 70 := by omega
  rw [hfrom] at htop
  rw [hto] at hbottom
  exact ⟨htop, hbottom⟩

end SequenceSettings

namespace SequenceDiagram

variable {d : SequenceDiagram}

/-- An activation of a declared participant has a bar. -/
theorem exists_bar? {a : Activation} (h : a.participant ∈ d.participants)
    (settings : SequenceSettings) :
  ∃ bar, settings.bar? (settings.nodes d) a = some bar
  := by
  have hkey : a.participant ∈ (settings.nodes d).keys := by
    rw [SequenceSettings.nodes, Node.mem_keys_catalog,
      Node.map_id_mapIdx d.participants.toList (fun name => name) fun _ _ => rfl, List.map_id']
    exact h
  obtain ⟨node, hnode⟩ := Catalog.exists_find?_iff.mpr hkey
  rw [SequenceSettings.bar?, hnode]
  exact ⟨_, rfl⟩

/-- The bars of a diagram of moderate length are nested as its activations are. -/
theorem nestsBars_scene (hparticipants : ∀ a ∈ d.activations, a.participant ∈ d.participants)
    (hordered : ∀ a ∈ d.activations, a.start ≤ a.finish ∧ a.finish ≤ 10001) :
  (d.scene .standard).NestsBars d
  := by
  have hbars : List.Forall₂ (fun a bar => Settings.standard.sequence.bar?
      (Settings.standard.sequence.nodes d) a = some bar) d.activations (d.scene .standard).bars :=
    forall₂_filterMap fun a ha => exists_bar? (hparticipants a ha) _
  constructor
  case bars =>
    rw [← List.forall₂_eq_eq_eq, List.forall₂_map_left_iff, List.forall₂_map_right_iff]
    apply hbars.flip.imp
    intro bar a h
    obtain ⟨hid, hparticipant⟩ := SequenceSettings.bar?_eq_some h
    rw [hid, hparticipant]
  case inside =>
    rintro ⟨a, bar⟩ ha ⟨b, other⟩ hb heq ⟨hstart, hfinish⟩
    have hbar := (List.forall₂_iff_zip.mp hbars).2 ha
    have hother := (List.forall₂_iff_zip.mp hbars).2 hb
    obtain ⟨horderedA, hlastA⟩ := hordered a (List.of_mem_zip ha).1
    obtain ⟨horderedB, hlastB⟩ := hordered b (List.of_mem_zip hb).1
    obtain ⟨hyA, hbottomA⟩ := SequenceSettings.isWhole_bar hbar horderedA hlastA
    obtain ⟨hyB, hbottomB⟩ := SequenceSettings.isWhole_bar hother horderedB hlastB
    refine ⟨SequenceSettings.x_eq_of_participant_eq hbar hother heq, ?_, ?_⟩
    · apply (hyA.le_iff hyB).mpr
      dsimp only at hstart
      omega
    · apply (hbottomB.le_iff hbottomA).mpr
      dsimp only at hfinish
      omega

end SequenceDiagram

namespace Reading

/-- The activations that are read from a text do not end before they start, nor behind the last
message. -/
theorem ordered_ofText (text : String) :
  ∀ a ∈ (ofText text).model.sequence.activations,
    a.start ≤ a.finish ∧ a.finish ≤ (ofText text).model.sequence.messages.length
  := by
  have haccounted := isAccounted_readFrom 1 (Script.lines text.toList)
  intro a ha
  have hmessages : (ofText text).model.sequence.messages
      = (initial.readFrom 1 (Script.lines text.toList)).model.sequence.messages := by
    rw [ofText, finish_eq, foldl_activateFrom]
  rw [hmessages]
  rw [ofText, finish_eq] at ha
  rcases SequenceDiagram.mem_activations_foldl ha with ha | ⟨ha, hfinish⟩
  · obtain ⟨hstart, hle, -⟩ := haccounted.ended a ha
    exact ⟨hstart, hle⟩
  · rw [hfinish]
    exact ⟨haccounted.pending_le _ ha, Nat.le_refl _⟩

/-- In every text any two activations of a participant are nested or meet in at most an end point, those
that last to the end included. In the scene of a script with at most 10000 line feeds their bars are
nested as well. -/
theorem ofText_nests (text : String) :
  (ofText text).model.sequence.IsNested
    ∧ (text.toList.count '\n' ≤ 10000 → ((ofText text).model.scene .sequence .standard).NestsBars
      (ofText text).model.sequence)
  := by
  refine ⟨isNested_ofText text, ?_⟩
  intro hlines
  have hmessages := (hasAtMost_ofText text).messages
  have hwellFormed := (isWellFormed_readFrom 1 (Script.lines text.toList)).finish.model.sequence
  apply SequenceDiagram.nestsBars_scene hwellFormed.activation_mem
  intro a ha
  obtain ⟨hstart, hfinish⟩ := ordered_ofText text a ha
  exact ⟨hstart, by omega⟩

/-- A script with an activation inside another one and one that lasts to the end. -/
def nestedScript : String :=
  "activate A\nA -> B: one\nactivate A\nB -> A: two\ndeactivate A\nactivate B\nA -> B: three"

/-- The activations of the nested script are nested, and so are their bars. -/
theorem ofText_nests_nestedScript :
  nestedScript.toList.count '\n' ≤ 10000
    ∧ (ofText nestedScript).model.sequence.activations
      = [⟨"activation-1", "A", 1, 2⟩, ⟨"activation-2", "A", 0, 3⟩, ⟨"activation-3", "B", 2, 3⟩]
    ∧ (ofText nestedScript).model.sequence.IsNested
    ∧ ((ofText nestedScript).model.scene .sequence .standard).NestsBars
      (ofText nestedScript).model.sequence
  := by
  have hlines : nestedScript.toList.count '\n' ≤ 10000 := by decide +kernel
  obtain ⟨hnested, hbars⟩ := ofText_nests nestedScript
  exact ⟨hlines, by decide +kernel, hnested, hbars hlines⟩

end Reading

end DiagramLayout
