import Mathlib.Data.List.Basic

namespace TransferClient.Interaction

-- A deterministic automaton over labels. `step` has no result for a label that
-- the automaton does not accept.
structure Automaton (σ ℓ : Type) where
  start : σ
  step : σ → ℓ → Option σ

namespace Automaton

variable {σ ℓ : Type} (automaton : Automaton σ ℓ)

def run : σ → List ℓ → Option σ
  | state, [] => some state
  | state, label :: rest => (automaton.step state label).bind fun next => run next rest

@[simp] theorem run_nil (state : σ) : automaton.run state [] = some state := rfl

theorem run_singleton (state : σ) (label : ℓ) :
    automaton.run state [label] = automaton.step state label := by
  simp [run]

theorem run_append (first second : List ℓ) (state : σ) :
    automaton.run state (first ++ second) =
      (automaton.run state first).bind fun middle => automaton.run middle second := by
  induction first generalizing state with
  | nil => rfl
  | cons label rest ih =>
      simp only [List.cons_append, run, ih, Option.bind_assoc]

-- What a step keeps of the past and the state, every run keeps.
theorem run_invariant (inv : List ℓ → σ → Prop)
    (hstep : ∀ past state label next, inv past state →
      automaton.step state label = some next → inv (past ++ [label]) next)
    (labels past : List ℓ) (state final : σ) (hinv : inv past state)
    (hrun : automaton.run state labels = some final) : inv (past ++ labels) final := by
  induction labels generalizing past state with
  | nil =>
      cases hrun
      rwa [List.append_nil]
  | cons label rest ih =>
      obtain ⟨next, hnext, hrest⟩ := Option.bind_eq_some_iff.mp hrun
      have hkeep := ih (past ++ [label]) next (hstep past state label next hinv hnext) hrest
      rwa [List.append_assoc] at hkeep

-- What holds of the past and the label at each step under an invariant, holds at
-- each place of an accepted word.
theorem run_along (inv : List ℓ → σ → Prop) (P : List ℓ → ℓ → Prop)
    (hstart : inv [] automaton.start)
    (hstep : ∀ past state label next, inv past state →
      automaton.step state label = some next → P past label ∧ inv (past ++ [label]) next)
    (labels : List ℓ) (final : σ) (hrun : automaton.run automaton.start labels = some final)
    (past : List ℓ) (label : ℓ) (future : List ℓ) (hsplit : labels = past ++ label :: future) :
    P past label := by
  rw [hsplit, run_append] at hrun
  obtain ⟨state, hpast, hrest⟩ := Option.bind_eq_some_iff.mp hrun
  obtain ⟨next, hnext, _⟩ := Option.bind_eq_some_iff.mp hrest
  have hinv := automaton.run_invariant inv
    (fun past state label next hi hs => (hstep past state label next hi hs).2) past []
    automaton.start state hstart hpast
  exact (hstep past state label next hinv hnext).1

end Automaton

end TransferClient.Interaction
