import DiagramLayout.Proofs.Caption.Choice
import Mathlib.Data.Option.Basic

/-!
# Runs of a placer

A placer is asked for captions and told of paths in any order. At every moment it holds the boxes of the
captions that it has answered with and of the segments that it was told of, in the order of the calls, and
nothing else. So an answer depends on the earlier calls through these boxes only: it is the first caption of
least score among those that are tried, or none where the label is empty or the path has no segment.
-/

namespace DiagramLayout.CaptionPlacer

open Single

/-- A call of a placer: a label is placed on a path, or a path is marked as drawn. -/
inductive Call
  | place (rules : CaptionRules) (label : String) (path : List Point) (nodes : List Rect)
  | record (path : List Point) (clearance : Float32)

/-- The boxes of the segments that a call marks as drawn. -/
def Call.drawn : Call → List Rect
  | place _ _ _ _ => []
  | record path clearance => segmentBoxes path clearance

/-- What a call is answered with, and the placer behind it. -/
def call (placer : CaptionPlacer) : Call → Option Caption × CaptionPlacer
  | .place rules label path nodes => placer.place rules label path nodes
  | .record path clearance => (none, placer.record path clearance)

/-- The placer behind some calls. -/
def after (placer : CaptionPlacer) (calls : List Call) : CaptionPlacer :=
  calls.foldl (fun placer c => (placer.call c).2) placer

/-- Some calls with their answers. -/
def history (placer : CaptionPlacer) : List Call → List (Call × Option Caption)
  | [] => []
  | c :: rest => (c, (placer.call c).1) :: (placer.call c).2.history rest

/-- The boxes of all captions that were given as answers, and those of all segments that were marked as
drawn. -/
def accountOf (past : List (Call × Option Caption)) : CaptionPlacer :=
  ⟨past.filterMap fun e => e.2.map Caption.box, past.flatMap fun e => e.1.drawn⟩

/-- What a call is answered with, and what it adds to the boxes before it. -/
inductive Step (before : CaptionPlacer) : Call → Option Caption → CaptionPlacer → Prop
  | refused {rules : CaptionRules} {label : String} {path : List Point} {nodes : List Rect}
      (h : label = "" ∨ path.length < 2) :
    Step before (.place rules label path nodes) none before
  | placed {rules : CaptionRules} {label : String} {path : List Point} {nodes : List Rect}
      {middle : Point} {caption : Caption} (hlabel : label ≠ "") (hlength : 2 ≤ path.length)
      (hmiddle : path[path.length / 2]? = some middle)
      (h : IsFirstLeast (before.score rules nodes middle) (trials rules label path middle) caption) :
    Step before (.place rules label path nodes) (some caption)
      ⟨before.placed ++ [caption.box], before.drawn⟩
  | recorded (path : List Point) (clearance : Float32) :
    Step before (.record path clearance) none
      ⟨before.placed, before.drawn ++ segmentBoxes path clearance⟩

/-- The scores of all captions that are tried in a call are numbers. -/
def IsScored (placer : CaptionPlacer) : Call → Prop
  | .place rules label path nodes =>
    label ≠ "" → 2 ≤ path.length → ∀ middle ∈ path[path.length / 2]?,
      ∀ caption ∈ trials rules label path middle, IsNumber (placer.score rules nodes middle caption)
  | .record _ _ => True

/-- The scores of all captions that are tried in some calls are numbers. -/
def AreScored (placer : CaptionPlacer) : List Call → Prop
  | [] => True
  | c :: rest => placer.IsScored c ∧ (placer.call c).2.AreScored rest

instance (placer : CaptionPlacer) : DecidablePred placer.IsScored
  | .place _ _ _ _ => inferInstanceAs (Decidable (_ → _ → ∀ _ ∈ _, ∀ _ ∈ _, _))
  | .record _ _ => inferInstanceAs (Decidable True)

instance decidableAreScored (placer : CaptionPlacer) :
    (calls : List Call) → Decidable (placer.AreScored calls)
  | [] => inferInstanceAs (Decidable True)
  | c :: rest =>
    have := decidableAreScored (placer.call c).2 rest
    inferInstanceAs (Decidable (_ ∧ _))

/-- At every moment the placer holds the account of the calls so far, and what the next call is answered with
and adds follows from it. -/
structure KeepsAccount (calls : List Call) : Prop where
  answered : (initial.history calls).map Prod.fst = calls
  state : ∀ past rest, initial.history calls = past ++ rest →
    initial.after (past.map Prod.fst) = accountOf past
  step : ∀ past c answer rest, initial.history calls = past ++ (c, answer) :: rest →
    Step (accountOf past) c answer (accountOf (past ++ [(c, answer)]))

/-- The boxes of one placer, then those of another. -/
instance : Append CaptionPlacer :=
  ⟨fun p q => ⟨p.placed ++ q.placed, p.drawn ++ q.drawn⟩⟩

variable {placer : CaptionPlacer} {c : Call} {calls front back : List Call}

theorem append_initial (p : CaptionPlacer) :
  p ++ initial = p
  := congrArg₂ mk (List.append_nil p.placed) (List.append_nil p.drawn)

/-- The boxes of several placers may be grouped in any way. -/
theorem append_assoc (p q r : CaptionPlacer) :
  p ++ q ++ r = p ++ (q ++ r)
  := congrArg₂ mk (List.append_assoc p.placed q.placed r.placed)
    (List.append_assoc p.drawn q.drawn r.drawn)

/-- The account of more calls is the account of the first ones and then that of the others. -/
theorem accountOf_append (past rest : List (Call × Option Caption)) :
  accountOf (past ++ rest) = accountOf past ++ accountOf rest
  := congrArg₂ mk List.filterMap_append List.flatMap_append

/-! ### One call -/

/-- A call adds its answer and its segments to the boxes. -/
theorem snd_call (placer : CaptionPlacer) (c : Call) :
  (placer.call c).2 = placer ++ accountOf [(c, (placer.call c).1)]
  := by
  cases c with
  | place rules label path nodes =>
    rw [call, place]
    cases placer.choose? rules label path nodes with
    | none => exact (append_initial placer).symm
    | some caption => exact congrArg (mk _) (List.append_nil placer.drawn).symm
  | record path clearance =>
    exact congrArg₂ mk (List.append_nil placer.placed).symm
      (congrArg (placer.drawn ++ ·) (List.append_nil _).symm)

/-- A call whose scores are numbers is answered and adds boxes as it should. -/
theorem step_call (h : placer.IsScored c) :
  Step placer c (placer.call c).1 (placer.call c).2
  := by
  cases c with
  | place rules label path nodes =>
    rw [call, place]
    cases hchoice : placer.choose? rules label path nodes with
    | none => exact .refused (choose?_eq_none_iff.mp hchoice)
    | some caption =>
      obtain ⟨hlabel, hlength⟩ := isSome_choose?_iff.mp (Option.isSome_of_eq_some hchoice)
      have hmiddle : path[path.length / 2]? = some path[path.length / 2] :=
        List.getElem?_eq_getElem (by omega)
      rw [choose?_eq_leastBy hlabel hlength hmiddle] at hchoice
      exact .placed hlabel hlength hmiddle
        (isFirstLeast_of_leastBy (h hlabel hlength _ hmiddle) hchoice)
  | record path clearance => exact .recorded path clearance

/-! ### Calls in a row -/

theorem map_fst_history (placer : CaptionPlacer) (calls : List Call) :
  (placer.history calls).map Prod.fst = calls
  := by
  induction calls generalizing placer with
  | nil => rfl
  | cons c rest ih => rw [history, List.map_cons, ih]

/-- Calls that follow others are answered from the boxes that these leave. -/
theorem history_append :
  placer.history (front ++ back) = placer.history front ++ (placer.after front).history back
  := by
  induction front generalizing placer with
  | nil => rfl
  | cons c rest ih =>
    rw [List.cons_append, history, ih, history, List.cons_append]
    rfl

/-- Where all scores are numbers, they are after some of the calls as well. -/
theorem AreScored.append (h : placer.AreScored (front ++ back)) :
  (placer.after front).AreScored back
  := by
  induction front generalizing placer with
  | nil => exact h
  | cons c rest ih => exact ih h.2

/-- The boxes behind some calls are those before them and the account of the calls. -/
theorem after_eq :
  placer.after calls = placer ++ accountOf (placer.history calls)
  := by
  induction calls generalizing placer with
  | nil => exact (append_initial placer).symm
  | cons c rest ih =>
    rw [after, List.foldl_cons, ← after, ih, history, ← List.singleton_append, accountOf_append,
      ← append_assoc, ← snd_call]

/-- What stands before some moment of a history is the history up to this moment. -/
theorem eq_history_of_append {past rest : List (Call × Option Caption)}
    (h : placer.history calls = past ++ rest) :
  past = placer.history (past.map Prod.fst)
    ∧ rest = (placer.after (past.map Prod.fst)).history (rest.map Prod.fst)
  := by
  have hcalls : calls = past.map Prod.fst ++ rest.map Prod.fst := by
    rw [← List.map_append, ← h, map_fst_history]
  rw [hcalls, history_append] at h
  have hlength : (placer.history (past.map Prod.fst)).length = past.length := by
    rw [← List.length_map Prod.fst, map_fst_history, List.length_map]
  obtain ⟨hpast, hrest⟩ := List.append_inj h hlength
  exact ⟨hpast.symm, hrest.symm⟩

/-- Two labels on one path that is drawn after the first, and an empty label between them; a node is in the
way of the second. -/
def twoLabels : List Call :=
  let path := [⟨0.0, 100.0⟩, ⟨200.0, 100.0⟩]
  [.place {} "hold" path [], .record path 4.0, .place {} "" path [],
    .place {} "resume" path [⟨150.0, 40.0, 100.0, 50.0⟩]]

/-- The first label is written above the middle of the path, the second below it. -/
example : (initial.history twoLabels).map (fun e => e.2.map Caption.center)
    = [some ⟨200.0, 82.0⟩, none, none, some ⟨200.0, 118.0⟩] := by
  decide +kernel

end DiagramLayout.CaptionPlacer
