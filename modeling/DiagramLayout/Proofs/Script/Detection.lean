import DiagramLayout.Proofs.Route.Alignment
import DiagramLayout.Proofs.Scene.Edges
import DiagramLayout.Script.Detection
import Mathlib

/-!
# The detected kind

The outcome of detection compares the scores of all kinds: none is positive, one is greater than all
others, or the greatest one is shared. Ranking the kinds by their scores and comparing the first two gives
the same outcome. What is detected has content, and content of a well-formed model has nodes: the ends of
its links, its active participants or its classes.
-/

namespace DiagramLayout

theorem DiagramKind.mem_all (k : DiagramKind) :
  k ∈ all
  := by
  cases k <;> decide

theorem DiagramKind.nodup_all :
  all.Nodup
  := by decide

namespace Model

variable {m : Model} {k : DiagramKind}

/-- The outcome of detection says which scores are positive, and which one is greatest. -/
structure IsDetected (m : Model) : Prop where
  ordered : m.candidates.Sublist DiagramKind.all
  candidates : ∀ k, k ∈ m.candidates ↔ 0 < m.score k
  unknown : m.detect = .unknown ↔ ∀ k, m.score k = 0
  only : ∀ k, m.detect = .only k ↔ ∀ j, j ≠ k → m.score j < m.score k
  mixed : m.detect = .mixed
    ↔ ∃ j k, j ≠ k ∧ m.score j = m.score k ∧ 0 < m.score k ∧ ∀ i, m.score i ≤ m.score k
  inactive : m.activeKind? none = none ↔ m.detect = .unknown
  active : ∀ k, m.activeKind? none = some k → 0 < m.score k

/-! ### Scores -/

/-- The candidates are the kinds of positive score. -/
theorem mem_candidates :
  k ∈ m.candidates ↔ 0 < m.score k
  := by
  rw [candidates, List.mem_filter, decide_eq_true_eq]
  exact and_iff_right k.mem_all

/-- There are no candidates when nothing scores. -/
theorem candidates_eq_nil_iff :
  m.candidates = [] ↔ ∀ k, m.score k = 0
  := by
  rw [List.eq_nil_iff_forall_not_mem]
  apply forall_congr'
  intro k
  rw [mem_candidates, Nat.pos_iff_ne_zero, not_not]

/-- The best score is the least bound of all scores. -/
theorem bestScore_le_iff {n : ℕ} :
  m.bestScore ≤ n ↔ ∀ k, m.score k ≤ n
  := by
  have hbest : m.bestScore ≤ n ↔ ∀ k ∈ DiagramKind.all, m.score k ≤ n := by
    simp [bestScore, DiagramKind.all]
  rw [hbest]
  exact forall_congr' fun k => forall_prop_of_true k.mem_all

/-- No kind scores more than the best. -/
theorem score_le_bestScore (m : Model) (k : DiagramKind) :
  m.score k ≤ m.bestScore
  := bestScore_le_iff.mp le_rfl k

/-- Some score is the greatest. -/
theorem exists_forall_score_le (m : Model) :
  ∃ k, ∀ j, m.score j ≤ m.score k
  := by
  by_contra! hnone
  -- Each score would be below the best one, which is no more than any bound of the scores.
  have hlt : ∀ k, m.score k < m.bestScore := by
    intro k
    obtain ⟨j, hj⟩ := hnone k
    exact hj.trans_le (m.score_le_bestScore j)
  have hle : m.bestScore ≤ m.bestScore - 1 :=
    bestScore_le_iff.mpr fun k => Nat.le_sub_one_of_lt (hlt k)
  have hpos := hlt .useCase
  omega

/-- One kind alone has the best score when its score is greater than all others. -/
theorem filter_bestScore_eq_singleton_iff :
  (DiagramKind.all.filter fun j => m.score j = m.bestScore) = [k]
    ↔ ∀ j, j ≠ k → m.score j < m.score k
  := by
  have hmem : ∀ j, j ∈ DiagramKind.all.filter (fun j => m.score j = m.bestScore)
      ↔ m.score j = m.bestScore := by
    intro j
    rw [List.mem_filter, decide_eq_true_eq]
    exact and_iff_right j.mem_all
  rw [← List.perm_singleton, List.perm_ext_iff_of_nodup (DiagramKind.nodup_all.filter _)
    (List.nodup_singleton k)]
  simp only [hmem, List.mem_singleton]
  constructor
  · intro h j hj
    rw [(h k).mpr rfl]
    exact lt_of_le_of_ne (m.score_le_bestScore j) (mt (h j).mp hj)
  · intro h
    have hbest : m.score k = m.bestScore := by
      apply le_antisymm (m.score_le_bestScore k)
      apply bestScore_le_iff.mpr
      intro j
      rcases eq_or_ne j k with rfl | hj
      · exact le_rfl
      · exact (h j hj).le
    intro j
    rw [← hbest]
    constructor
    · intro heq
      by_contra hj
      exact (h j hj).ne heq
    · rintro rfl
      rfl

/-! ### Outcomes -/

/-- The kind is unknown exactly when nothing scores. -/
theorem detect_eq_unknown_iff :
  m.detect = .unknown ↔ ∀ k, m.score k = 0
  := by
  rw [← candidates_eq_nil_iff, ← List.isEmpty_iff, detect]
  split_ifs with hempty
  · exact iff_of_true rfl hempty
  · apply iff_of_false _ hempty
    split <;> nofun

/-- One kind is detected exactly when it scores more than every other. -/
theorem detect_eq_only_iff :
  m.detect = .only k ↔ ∀ j, j ≠ k → m.score j < m.score k
  := by
  rw [← filter_bestScore_eq_singleton_iff, detect]
  split_ifs with hempty
  · -- Without content all kinds share the best score.
    apply iff_of_false nofun
    rw [filter_bestScore_eq_singleton_iff]
    have hzero := candidates_eq_nil_iff.mp (List.isEmpty_iff.mp hempty)
    intro h
    obtain ⟨j, hj⟩ : ∃ j, j ≠ k := by
      cases k
      case useCase => exact ⟨.state, nofun⟩
      all_goals exact ⟨.useCase, nofun⟩
    have hlt := h j hj
    rw [hzero j, hzero k] at hlt
    exact hlt.false
  · split
    · rename_i j hj
      rw [hj, List.cons.injEq, Detection.only.injEq]
      exact (and_iff_left rfl).symm
    · rename_i hne
      exact iff_of_false nofun (hne k)

/-- The outcomes exclude each other, so that a mixed one is what the other two leave. -/
theorem detect_eq_mixed_iff :
  m.detect = .mixed
    ↔ ∃ j k, j ≠ k ∧ m.score j = m.score k ∧ 0 < m.score k ∧ ∀ i, m.score i ≤ m.score k
  := by
  constructor
  · intro hmixed
    have hunknown : ¬∀ k, m.score k = 0 := by
      rw [← detect_eq_unknown_iff, hmixed]
      nofun
    obtain ⟨k, hk⟩ := m.exists_forall_score_le
    have honly : ¬∀ j, j ≠ k → m.score j < m.score k := by
      rw [← detect_eq_only_iff, hmixed]
      nofun
    push Not at hunknown honly
    obtain ⟨i, hi⟩ := hunknown
    obtain ⟨j, hj, hle⟩ := honly
    exact ⟨j, k, hj, le_antisymm (hk j) hle, (Nat.pos_of_ne_zero hi).trans_le (hk i), hk⟩
  · rintro ⟨j, k, hjk, heq, hpos, hk⟩
    cases hdetect : m.detect with
    | mixed => rfl
    | unknown => exact absurd (detect_eq_unknown_iff.mp hdetect k) hpos.ne'
    | only i =>
      have hi := detect_eq_only_iff.mp hdetect
      rcases eq_or_ne k i with rfl | hki
      · exact absurd heq (hi j hjk).ne
      · exact absurd (hi k hki) (hk i).not_gt

/-- The kinds by their scores, the greatest first; those of one score keep their order. -/
def ranking (m : Model) : List DiagramKind :=
  DiagramKind.all.mergeSort fun j k => m.score k ≤ m.score j

/-- All kinds are ranked, each of them once. -/
theorem ranking_perm (m : Model) :
  m.ranking.Perm DiagramKind.all
  := List.mergeSort_perm _ _

/-- The scores do not increase along the ranking. -/
theorem pairwise_ranking (m : Model) :
  m.ranking.Pairwise fun j k => m.score k ≤ m.score j
  := by
  refine (List.pairwise_mergeSort ?_ ?_ DiagramKind.all).imp of_decide_eq_true
  · intro i j k hij hjk
    exact decide_eq_true ((of_decide_eq_true hjk).trans (of_decide_eq_true hij))
  · intro i j
    rw [Bool.or_eq_true, decide_eq_true_eq, decide_eq_true_eq]
    exact le_total _ _

/-- It is enough to compare the first two kinds of the ranking. -/
theorem detect_eq_match_ranking (m : Model) :
  m.detect =
    if m.candidates = [] then .unknown
    else
      match m.ranking with
      | first :: second :: _ => if m.score second = m.score first then .mixed else .only first
      | _ => .mixed
  := by
  have hperm := m.ranking_perm
  have hsorted := m.pairwise_ranking
  obtain ⟨first, second, third, fourth, hranking⟩ := List.length_eq_four.mp hperm.length_eq
  rw [hranking] at hperm hsorted ⊢
  -- There are four kinds, and the first two decide: the second is the best of the others.
  have hmem : ∀ k, k ∈ [first, second, third, fourth] := fun k => hperm.mem_iff.mpr k.mem_all
  obtain ⟨hfirst, hsecond⟩ := List.pairwise_cons.mp hsorted
  have hbest : ∀ k, m.score k ≤ m.score first := by
    intro k
    rcases List.mem_cons.mp (hmem k) with rfl | hk
    · exact le_rfl
    · exact hfirst k hk
  change m.detect = if m.candidates = [] then .unknown
    else if m.score second = m.score first then .mixed else .only first
  split_ifs with hempty htie
  · exact detect_eq_unknown_iff.mpr (candidates_eq_nil_iff.mp hempty)
  · have hne : second ≠ first := by
      rintro rfl
      exact (hperm.nodup_iff.mpr DiagramKind.nodup_all).notMem List.mem_cons_self
    have hpos : 0 < m.score first := by
      obtain ⟨k, hk⟩ := List.exists_mem_of_ne_nil _ hempty
      exact (mem_candidates.mp hk).trans_le (hbest k)
    exact detect_eq_mixed_iff.mpr ⟨second, first, hne, htie, hpos, hbest⟩
  · apply detect_eq_only_iff.mpr
    intro k hk
    have hlt := lt_of_le_of_ne (hbest second) htie
    rcases List.mem_cons.mp ((List.mem_cons.mp (hmem k)).resolve_left hk) with rfl | hrest
    · exact hlt
    · exact ((List.pairwise_cons.mp hsecond).1 k hrest).trans_lt hlt

/-! ### The kind to be drawn -/

/-- Without a choice of the user, no kind is active only when the kind is unknown. -/
theorem activeKind?_eq_none_iff :
  m.activeKind? none = none ↔ m.detect = .unknown
  := by
  rw [activeKind?]
  split
  · rename_i k hk
    rw [hk]
    exact iff_of_false nofun nofun
  · rename_i hmixed
    rw [hmixed, List.head?_eq_none_iff, candidates_eq_nil_iff, ← detect_eq_unknown_iff, hmixed]
  · rename_i hunknown
    exact iff_of_true rfl hunknown

/-- The kind that is active without a choice of the user has a positive score. -/
theorem score_pos_of_activeKind? (h : m.activeKind? none = some k) :
  0 < m.score k
  := by
  rw [activeKind?] at h
  split at h
  · rename_i j hj
    obtain rfl := Option.some.inj h
    by_contra! hzero
    -- A kind without content would be greater than all others.
    have hall : ∀ i, m.score i = 0 := by
      intro i
      rcases eq_or_ne i j with rfl | hij
      · exact Nat.le_zero.mp hzero
      · exact absurd ((detect_eq_only_iff.mp hj i hij).trans_le hzero) (Nat.not_lt_zero _)
    rw [detect_eq_unknown_iff.mpr hall] at hj
    contradiction
  · exact mem_candidates.mp (List.mem_of_mem_head? h)
  · contradiction

/-- Every model is detected from its scores. -/
theorem isDetected (m : Model) :
  m.IsDetected
  where
  ordered := List.filter_sublist
  candidates := fun _ => mem_candidates
  unknown := detect_eq_unknown_iff
  only := fun _ => detect_eq_only_iff
  mixed := detect_eq_mixed_iff
  inactive := activeKind?_eq_none_iff
  active := fun _ => score_pos_of_activeKind?

/-! ### Nodes -/

/-- A well-formed diagram with content has nodes. -/
theorem IsWellFormed.nodeIds_ne_nil (h : m.IsWellFormed) (hscore : 0 < m.score k) :
  m.nodeIds k ≠ []
  := by
  have hlinks : m.links k ≠ [] → m.nodeIds k ≠ [] := by
    intro hne
    obtain ⟨l, hl⟩ := List.exists_mem_of_ne_nil _ hne
    exact List.ne_nil_of_mem (h.isBetween k l hl).1
  cases k with
  | useCase =>
    apply hlinks
    exact List.map_eq_nil_iff.not.mpr (List.ne_nil_of_length_pos hscore)
  | sequence =>
    by_cases hmessages : m.sequence.messages = []
    · rw [score, hmessages, List.length_nil, zero_add] at hscore
      obtain ⟨a, ha⟩ := List.exists_mem_of_length_pos hscore
      exact List.ne_nil_of_mem (h.sequence.activation_mem a ha)
    · apply hlinks
      exact List.map_eq_nil_iff.not.mpr hmessages
  | classes =>
    -- Members belong to classes, so that the other two parts of the score ask for a class.
    by_cases hclasses : m.classes.classes.entries = []
    · rw [score, Catalog.size, Catalog.values, hclasses, List.length_nil, mul_zero, zero_add,
        List.map_nil, List.foldl_nil, add_zero] at hscore
      apply hlinks
      exact List.map_eq_nil_iff.not.mpr (List.ne_nil_of_length_pos hscore)
    · exact List.map_eq_nil_iff.not.mpr hclasses
  | state =>
    apply hlinks
    exact List.map_eq_nil_iff.not.mpr (List.ne_nil_of_length_pos hscore)

/-- A diagram that declares something has a node in its scene. -/
theorem values_scene_ne_nil {settings : Settings} (h : m.nodeIds k ≠ []) :
  (m.scene k settings).nodes.values ≠ []
  := by
  obtain ⟨id, hid⟩ := List.exists_mem_of_ne_nil _ h
  obtain ⟨e, he, -⟩ := List.mem_map.mp ((mem_keys_scene m k settings id).mpr hid)
  exact List.ne_nil_of_mem (List.mem_map_of_mem (f := Prod.snd) he)

end Model

/-! ### Points -/

section Points

variable {settings : Settings} {nodes : Catalog Node} {e : Edge}

/-- A message that is drawn has a point on its edge. -/
theorem Message.points_ne_nil (h : settings.router.HasPenalties) {m : Message} {index : ℕ}
    (he : m.edge? settings nodes index = some e) :
  e.points ≠ []
  := by
  rw [edge?] at he
  split at he
  · split_ifs at he
    · obtain rfl := Option.some.inj he
      exact List.cons_ne_nil _ _
    · obtain rfl := Option.some.inj he
      exact Connector.route_ne_nil _ h
  · contradiction

/-- The transitions that are drawn have points on their edges. -/
theorem StateCanvas.points_ne_nil (h : settings.router.HasPenalties)
    (transitions : List Transition) (c : StateCanvas) :
  ∀ e ∈ c.edges settings nodes transitions, e.points ≠ []
  := by
  induction transitions generalizing c with
  | nil => nofun
  | cons t rest ih =>
    rw [edges]
    split
    · exact List.forall_mem_cons.mpr ⟨Connector.route_ne_nil _ h, ih _⟩
    · exact ih c

/-- With penalties that are not negative, every edge of a scene is drawn. -/
theorem Model.points_ne_nil (h : settings.router.HasPenalties) (m : Model) (kind : DiagramKind) :
  ∀ e ∈ (m.scene kind settings).edges, e.points ≠ []
  := by
  intro e he
  cases kind with
  | useCase =>
    obtain ⟨a, -, ha⟩ := List.mem_filterMap.mp he
    rw [Association.edge?] at ha
    split at ha
    · obtain rfl := Option.some.inj ha
      exact Connector.route_ne_nil _ h
    · contradiction
  | sequence =>
    obtain ⟨message, -, hmessage⟩ := List.mem_filterMap.mp he
    exact Message.points_ne_nil h hmessage
  | classes =>
    obtain ⟨r, -, hr⟩ := List.mem_filterMap.mp he
    rw [ClassRelation.edge?] at hr
    split at hr
    · obtain rfl := Option.some.inj hr
      exact Connector.route_ne_nil _ h
    · contradiction
  | state => exact StateCanvas.points_ne_nil h m.state.transitions _ e he

end Points

namespace Reading

/-- The detected kind of a text is decided by its scores. Without a selection a kind with content is
drawn, unless no kind has any; whatever the settings are its scene has nodes, and with penalties that are
not negative all its edges are drawn. -/
theorem ofText_isDetected (text : String) :
  let m := (ofText text).model
  m.IsDetected
    ∧ ∀ kind ∈ m.activeKind? none, ∀ settings, (m.scene kind settings).nodes.values ≠ []
      ∧ (settings.router.HasPenalties → ∀ e ∈ (m.scene kind settings).edges, e.points ≠ [])
  := by
  intro m
  refine ⟨m.isDetected, ?_⟩
  intro kind hkind settings
  have hmodel : m.IsWellFormed := (isWellFormed_readFrom 1 (Script.lines text.toList)).finish.model
  have hscore : 0 < m.score kind := Model.score_pos_of_activeKind? hkind
  exact ⟨Model.values_scene_ne_nil (hmodel.nodeIds_ne_nil hscore), fun h => m.points_ne_nil h kind⟩

/-- A script with one association and one message. -/
def tiedScript : String :=
  "User -> (Login)\nAlice -> Bob: Hi"

/-- Two kinds of equal score are mixed, and the first of them is drawn. -/
theorem ofText_isDetected_tiedScript :
  let m := (ofText tiedScript).model
  m.detect = .mixed ∧ m.activeKind? none = some .useCase
    ∧ (m.scene .useCase .standard).nodes.values ≠ []
    ∧ ∀ e ∈ (m.scene .useCase .standard).edges, e.points ≠ []
  := by
  have hactive : (ofText tiedScript).model.activeKind? none = some .useCase := by decide +kernel
  obtain ⟨-, hdrawn⟩ := ofText_isDetected tiedScript
  obtain ⟨hnodes, hedges⟩ := hdrawn .useCase hactive .standard
  exact ⟨by decide +kernel, hactive, hnodes, hedges (by decide +kernel)⟩

end Reading

end DiagramLayout
