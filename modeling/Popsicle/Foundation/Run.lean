import Mathlib.Data.List.Forall2
import Mathlib.Tactic.Common

/-!
# Runs of a transition system

A system takes one action at a time and may refuse it.  `Reaches` collects the
states that some run leads to, where every action of the run is admitted in the
state it is taken in.  Properties of runs are proved once per step.
-/

namespace Foundation

variable {σ ι : Type}

/-- `Reaches step admits start state`: a run of admitted actions leads from
`start` to `state`. -/
inductive Reaches (step : σ → ι → Option σ) (admits : σ → ι → Prop) (start : σ) : σ → Prop where
  | start : Reaches step admits start start
  | next {state after : σ} (action : ι) : Reaches step admits start state →
      admits state action → step state action = some after → Reaches step admits start after

/-- Every action of a list is admitted in the state it is taken in. -/
def Admitted (step : σ → ι → Option σ) (admits : σ → ι → Prop) : σ → List ι → Prop
  | _, [] => True
  | state, action :: rest =>
      admits state action ∧ ∀ after, step state action = some after →
        Admitted step admits after rest

/-- Every state that a list of actions goes through satisfies a property. -/
def Throughout (step : σ → ι → Option σ) (holds : σ → Prop) : σ → List ι → Prop
  | state, [] => holds state
  | state, action :: rest =>
      holds state ∧ ∀ after, step state action = some after → Throughout step holds after rest

/-- Take a list of actions. -/
def run (step : σ → ι → Option σ) (state : σ) : List ι → Option σ
  | [] => some state
  | action :: rest => (step state action).bind fun after => run step after rest

/-- Take a list of actions that all pass a check in the states they are taken in. -/
def checkedRun (step : σ → ι → Option σ) (check : σ → ι → Bool) (state : σ) :
    List ι → Option σ
  | [] => some state
  | action :: rest =>
      if check state action then
        (step state action).bind fun after => checkedRun step check after rest
      else none

namespace Reaches

variable {step : σ → ι → Option σ} {admits : σ → ι → Prop} {start state : σ}

/-- An invariant holds in every reached state. -/
theorem invariant {holds : σ → Prop} (reaches : Reaches step admits start state)
    (initial : holds start)
    (preserved : ∀ state action after, holds state → admits state action →
      step state action = some after → holds after) : holds state := by
  induction reaches with
  | start => exact initial
  | next action _ admitted taken ih => exact preserved _ action _ ih admitted taken

theorem weaken {more : σ → ι → Prop} (reaches : Reaches step admits start state)
    (allow : ∀ state action, admits state action → more state action) :
    Reaches step more start state := by
  induction reaches with
  | start => exact .start
  | next action _ admitted taken ih => exact .next action ih (allow _ _ admitted) taken

theorem eq_or_admits (reaches : Reaches step admits start state) :
    state = start ∨ ∃ action, admits start action := by
  induction reaches with
  | start => exact .inl rfl
  | next action _ admitted _ ih =>
      rcases ih with rfl | first
      · exact .inr ⟨action, admitted⟩
      · exact .inr first

theorem append {middle : σ} (reaches : Reaches step admits start middle)
    {actions : List ι} (admitted : Admitted step admits middle actions)
    (taken : run step middle actions = some state) : Reaches step admits start state := by
  induction actions generalizing middle with
  | nil =>
      cases taken
      exact reaches
  | cons action rest ih =>
      simp only [run, Option.bind_eq_some_iff] at taken
      obtain ⟨after, first, others⟩ := taken
      exact ih (.next action reaches admitted.1 first) (admitted.2 after first) others

/-- Actions that pass a check are admitted, if the check is right. -/
theorem of_checked {middle : σ} {check : σ → ι → Bool} {actions : List ι}
    (reaches : Reaches step admits start middle)
    (right : ∀ state action, check state action = true → admits state action)
    (taken : checkedRun step check middle actions = some state) :
    Reaches step admits start state := by
  induction actions generalizing middle with
  | nil =>
      cases taken
      exact reaches
  | cons action rest ih =>
      rw [checkedRun, Option.ite_none_right_eq_some, Option.bind_eq_some_iff] at taken
      obtain ⟨passes, after, first, others⟩ := taken
      exact ih (.next action reaches (right middle action passes) first) others

end Reaches

theorem admitted_of_forall {step : σ → ι → Option σ} {admits : σ → ι → Prop}
    {actions : List ι} (all : ∀ state, ∀ action ∈ actions, admits state action) (state : σ) :
    Admitted step admits state actions := by
  induction actions generalizing state with
  | nil => trivial
  | cons action rest ih =>
      refine ⟨all state action (by simp), fun after _ => ?_⟩
      exact ih (fun state action member => all state action (by simp [member])) after

/-- A property holds throughout exactly the runs of admitted actions, if the states from
where an admitted action keeps it and no other action does form an invariant. -/
theorem throughout_iff_admitted {step : σ → ι → Option σ} {admits : σ → ι → Prop}
    {holds invariant : σ → Prop} (within : ∀ state, invariant state → holds state)
    (keeps : ∀ state action after, invariant state → admits state action →
      step state action = some after → invariant after)
    (breaks : ∀ state action, invariant state →
      (∀ after, step state action = some after → holds after) → admits state action)
    {start : σ} (initial : invariant start) (actions : List ι) :
    Throughout step holds start actions ↔ Admitted step admits start actions := by
  induction actions generalizing start with
  | nil => exact iff_of_true (within start initial) trivial
  | cons action rest ih =>
      constructor
      · rintro ⟨_, others⟩
        have admitted : admits start action := by
          apply breaks start action initial
          intro after taken
          have held := others after taken
          cases rest with
          | nil => exact held
          | cons _ _ => exact held.1
        refine ⟨admitted, fun after taken => ?_⟩
        exact (ih (keeps start action after initial admitted taken)).mp (others after taken)
      · rintro ⟨admitted, others⟩
        refine ⟨within start initial, fun after taken => ?_⟩
        exact (ih (keeps start action after initial admitted taken)).mpr (others after taken)

/-- Two restrictions admit the same runs if they agree on an invariant of these. -/
theorem admitted_congr {step : σ → ι → Option σ} {admits allows : σ → ι → Prop}
    {invariant : σ → Prop}
    (keeps : ∀ state action after, invariant state → allows state action →
      step state action = some after → invariant after)
    (same : ∀ state action, invariant state → (admits state action ↔ allows state action))
    {start : σ} (initial : invariant start) (actions : List ι) :
    Admitted step admits start actions ↔ Admitted step allows start actions := by
  induction actions generalizing start with
  | nil => exact Iff.rfl
  | cons action rest ih =>
      refine and_congr_left' (same start action initial) |>.trans ?_
      refine and_congr_right fun allowed => forall_congr' fun after => forall_congr' fun taken => ?_
      exact ih (keeps start action after initial allowed taken)

/-- The last action of an admitted list is admitted in the state before it. -/
theorem Admitted.last {step : σ → ι → Option σ} {admits : σ → ι → Prop} {start state : σ}
    {actions : List ι} {action : ι} (admitted : Admitted step admits start (actions ++ [action]))
    (taken : run step start actions = some state) : admits state action := by
  induction actions generalizing start with
  | nil =>
      cases taken
      exact admitted.1
  | cons first rest ih =>
      obtain ⟨after, isAfter, others⟩ := Option.bind_eq_some_iff.mp taken
      exact ih (admitted.2 after isAfter) others

/-! ## Systems that follow another one -/

variable {τ κ : Type}

/-- A system whose steps each take one move of another system or keep the view of it takes
such moves over whole runs, in the order of the actions that cause them. -/
theorem run_follows {step : σ → ι → Option σ} {abstract : τ → κ → Option τ} {view : σ → τ}
    {causes : κ → ι → Prop} {invariant : σ → Prop}
    (follows : ∀ state action after, invariant state → step state action = some after →
      invariant after ∧ (view after = view state ∨
        ∃ move, causes move action ∧ abstract (view state) move = some (view after)))
    {start last : σ} (initial : invariant start) {actions : List ι}
    (taken : run step start actions = some last) :
    ∃ moves, run abstract (view start) moves = some (view last) ∧
      moves.SublistForall₂ causes actions := by
  induction actions generalizing start with
  | nil =>
      cases taken
      exact ⟨[], rfl, .nil⟩
  | cons action rest ih =>
      obtain ⟨middle, first, others⟩ := Option.bind_eq_some_iff.mp taken
      obtain ⟨kept, same | ⟨move, caused, moved⟩⟩ := follows start action middle initial first
      · obtain ⟨moves, moved, sublist⟩ := ih kept others
        exact ⟨moves, same ▸ moved, .cons_right sublist⟩
      · obtain ⟨moves, others, sublist⟩ := ih kept others
        exact ⟨move :: moves, Option.bind_eq_some_iff.mpr ⟨_, moved, others⟩, .cons caused sublist⟩

/-- A path of moves, each allowed in the state it is made in. -/
inductive Path (moves : τ → κ → τ → Prop) : τ → List κ → τ → Prop where
  | nil (state : τ) : Path moves state [] state
  | cons {state middle last : τ} {move : κ} {rest : List κ} (first : moves state move middle)
      (others : Path moves middle rest last) : Path moves state (move :: rest) last

namespace Path

variable {moves : τ → κ → τ → Prop} {start middle last : τ} {left right : List κ} {move : κ}

theorem single (first : moves start move last) : Path moves start [move] last :=
  .cons first (.nil last)

theorem append (first : Path moves start left middle) (second : Path moves middle right last) :
    Path moves start (left ++ right) last := by
  induction first with
  | nil => exact second
  | cons first _ ih => exact .cons first (ih second)

end Path

/-- A system whose steps each are a path of moves goes along such paths over whole runs. -/
theorem run_path {step : σ → ι → Option σ} {moves : τ → κ → τ → Prop} (view : σ → τ)
    {causes : κ → ι → Prop} {invariant : σ → Prop}
    (follows : ∀ state action after, invariant state → step state action = some after →
      invariant after ∧ ∃ piece, Path moves (view state) piece (view after) ∧
        ∀ move ∈ piece, causes move action)
    {start last : σ} (initial : invariant start) {actions : List ι}
    (taken : run step start actions = some last) :
    ∃ pieces : List (List κ), Path moves (view start) pieces.flatten (view last) ∧
      List.Forall₂ (fun piece action => ∀ move ∈ piece, causes move action) pieces actions := by
  induction actions generalizing start with
  | nil =>
      cases taken
      exact ⟨[], .nil _, .nil⟩
  | cons action rest ih =>
      obtain ⟨middle, first, others⟩ := Option.bind_eq_some_iff.mp taken
      obtain ⟨kept, piece, path, caused⟩ := follows start action middle initial first
      obtain ⟨pieces, further, related⟩ := ih kept others
      exact ⟨piece :: pieces, path.append further, .cons caused related⟩

/-- What is caused by actions in their order still is if some of it is left out. -/
theorem sublistForall₂_of_sublist {causes : κ → ι → Prop} {few moves : List κ} {actions : List ι}
    (fewer : few.Sublist moves) (caused : moves.SublistForall₂ causes actions) :
    few.SublistForall₂ causes actions := by
  induction caused generalizing few with
  | nil =>
      rw [List.sublist_nil.mp fewer]
      exact .nil
  | cons first _ ih =>
      cases fewer with
      | cons _ rest => exact .cons_right (ih rest)
      | cons_cons _ rest => exact .cons first (ih rest)
  | cons_right _ ih => exact .cons_right (ih fewer)

/-! ## Systems that answer -/

variable {ρ : Type}

/-- Serve a list of requests in order: the last state and the answers. -/
def serve (respond : σ → ι → σ × ρ) : σ → List ι → σ × List ρ
  | state, [] => (state, [])
  | state, request :: rest =>
      let (after, answer) := respond state request
      let (last, answers) := serve respond after rest
      (last, answer :: answers)

/-- Systems that stay related and agree on every single answer give the same answers. -/
theorem serve_related {respond : σ → ι → σ × ρ} {abstract : τ → ι → τ × ρ}
    (related : σ → τ → Prop)
    (preserved : ∀ state view request, related state view →
      related (respond state request).1 (abstract view request).1 ∧
        (respond state request).2 = (abstract view request).2)
    {state : σ} {view : τ} (initial : related state view) (requests : List ι) :
    related (serve respond state requests).1 (serve abstract view requests).1 ∧
      (serve respond state requests).2 = (serve abstract view requests).2 := by
  induction requests generalizing state view with
  | nil => exact ⟨initial, rfl⟩
  | cons request rest ih =>
      obtain ⟨stillRelated, sameAnswer⟩ := preserved state view request initial
      obtain ⟨lastRelated, sameAnswers⟩ := ih stillRelated
      exact ⟨lastRelated, congrArg₂ List.cons sameAnswer sameAnswers⟩

end Foundation
