import TransferClient.Trace
import TransferClient.World

namespace TransferClient

open Interaction

-- `P` holds of every request of a run, of the world in which its response is read, of
-- this response and of what the run does then.
def EachAnswered (P : Request → World → Response → Trace → Prop) (steps : List (Step Ans World)) :
    Prop :=
  ∀ past asking answering future, steps = past ++ asking :: answering :: future →
    ∀ request response, asking.event = sent request → answering.event = got response →
      P request answering.before response (future.map Step.event)

namespace EachAnswered

variable {P : Request → World → Response → Trace → Prop} {first second : List (Step Ans World)}

theorem of_append_right (hsteps : EachAnswered P (first ++ second)) : EachAnswered P second := by
  intro past asking answering future hsplit
  apply hsteps (first ++ past) asking answering future
  rw [hsplit, List.append_assoc]

-- A part of the run sees less of the future.
theorem of_append_left
    (hfuture : ∀ request world response future rest,
      P request world response (future ++ rest) → P request world response future)
    (hsteps : EachAnswered P (first ++ second)) : EachAnswered P first := by
  intro past asking answering future hsplit request response hasking hanswering
  have hwhole := hsteps past asking answering (future ++ second)
    (by rw [hsplit, List.append_assoc, List.cons_append, List.cons_append])
    request response hasking hanswering
  rw [List.map_append] at hwhole
  exact hfuture _ _ _ _ _ hwhole

theorem nil : EachAnswered P [] := by
  intro past asking answering future hsplit
  cases past <;> cases hsplit

theorem cons {step : Step Ans World} {steps : List (Step Ans World)}
    (hstep : ∀ request, step.event.op ≠ .sendRequest request) (hsteps : EachAnswered P steps) :
    EachAnswered P (step :: steps) := by
  intro past asking answering future hsplit request response hasking hanswering
  cases past with
  | nil =>
      cases hsplit
      exact absurd (congrArg Event.op hasking) (hstep request)
  | cons other past =>
      cases hsplit
      exact hsteps past asking answering future rfl request response hasking hanswering

theorem exchange {asking answering : Step Ans World} {steps : List (Step Ans World)}
    {request : Request} {response : Response} (hasking : asking.event = sent request)
    (hanswering : answering.event = got response)
    (hanswer : P request answering.before response (steps.map Step.event))
    (hsteps : EachAnswered P steps) : EachAnswered P (asking :: answering :: steps) := by
  intro past other next future hsplit request' response' hother hnext
  match past with
  | [] =>
      cases hsplit
      rw [hasking] at hother
      rw [hanswering] at hnext
      cases hother
      cases hnext
      exact hanswer
  | [step] =>
      cases hsplit
      rw [hanswering] at hother
      cases hother
  | step :: other :: past =>
      cases hsplit
      exact hsteps past _ _ future rfl request' response' hother hnext

end EachAnswered

end TransferClient
