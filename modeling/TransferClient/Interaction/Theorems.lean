import TransferClient.Interaction

namespace TransferClient.Interaction

variable {Op : Type} {Ans : Op → Type} {ε α β σ : Type}

namespace Prog

@[simp] theorem runs_pure (value : α) (trace : List (Event Ans)) (outcome : Except ε α) :
    (pure value : Prog Ans ε α).Runs trace outcome ↔ trace = [] ∧ outcome = .ok value :=
  Iff.rfl

@[simp] theorem runs_throw (error : ε) (trace : List (Event Ans)) (outcome : Except ε α) :
    (throw error : Prog Ans ε α).Runs trace outcome ↔ trace = [] ∧ outcome = .error error :=
  Iff.rfl

@[simp] theorem runs_ask (op : Op) (trace : List (Event Ans)) (outcome : Except ε (Ans op)) :
    (ask op).Runs trace outcome ↔ ∃ answer, trace = [⟨op, answer⟩] ∧ outcome = .ok answer := by
  simp [ask, Runs]

@[simp] theorem runs_pure_bind (value : α) (next : α → Prog Ans ε β)
    (trace : List (Event Ans)) (outcome : Except ε β) :
    ((pure value : Prog Ans ε α) >>= next).Runs trace outcome ↔ (next value).Runs trace outcome :=
  Iff.rfl

@[simp] theorem runs_throw_bind (error : ε) (next : α → Prog Ans ε β)
    (trace : List (Event Ans)) (outcome : Except ε β) :
    ((throw error : Prog Ans ε α) >>= next).Runs trace outcome ↔
      trace = [] ∧ outcome = .error error :=
  Iff.rfl

@[simp] theorem runs_ask_bind (op : Op) (next : Ans op → Prog Ans ε β)
    (trace : List (Event Ans)) (outcome : Except ε β) :
    (ask op >>= next).Runs trace outcome ↔
      ∃ answer rest, trace = ⟨op, answer⟩ :: rest ∧ (next answer).Runs rest outcome :=
  Iff.rfl

-- A run of a sequence either stops in the first part, or goes through it and
-- continues with the second part.
theorem runs_bind (program : Prog Ans ε α) (next : α → Prog Ans ε β)
    (trace : List (Event Ans)) (outcome : Except ε β) :
    (program >>= next).Runs trace outcome ↔
      (∃ value first rest, trace = first ++ rest ∧ program.Runs first (.ok value) ∧
        (next value).Runs rest outcome) ∨
      (∃ error, outcome = .error error ∧ program.Runs trace (.error error)) := by
  change (program.bind next).Runs trace outcome ↔ _
  induction program generalizing trace with
  | done value =>
      simp [bind, Runs]
  | stop error =>
      simp [bind, Runs, and_comm]
  | call op following ih =>
      simp only [bind, Runs, ih]
      constructor
      · rintro ⟨answer, rest, rfl, ⟨value, first, last, rfl, hf, hl⟩ | ⟨error, rfl, hr⟩⟩
        · exact .inl ⟨value, ⟨op, answer⟩ :: first, last, rfl, ⟨answer, first, rfl, hf⟩, hl⟩
        · exact .inr ⟨error, rfl, answer, rest, rfl, hr⟩
      · rintro (⟨value, _, last, rfl, ⟨answer, first, rfl, hf⟩, hl⟩ | ⟨error, rfl, answer, rest, rfl, hr⟩)
        · exact ⟨answer, first ++ last, rfl, .inl ⟨value, first, last, rfl, hf, hl⟩⟩
        · exact ⟨answer, rest, rfl, .inr ⟨error, rfl, hr⟩⟩

theorem runs_tryCatch (program : Prog Ans ε α) (handler : ε → Prog Ans ε α)
    (trace : List (Event Ans)) (outcome : Except ε α) :
    (tryCatch program handler).Runs trace outcome ↔
      (∃ value, outcome = .ok value ∧ program.Runs trace (.ok value)) ∨
      (∃ error first rest, trace = first ++ rest ∧ program.Runs first (.error error) ∧
        (handler error).Runs rest outcome) := by
  change (program.catching handler).Runs trace outcome ↔ _
  induction program generalizing trace with
  | done value =>
      simp [catching, Runs, and_comm]
  | stop error =>
      simp [catching, Runs]
  | call op following ih =>
      simp only [catching, Runs, ih]
      constructor
      · rintro ⟨answer, rest, rfl, ⟨value, rfl, hr⟩ | ⟨error, first, last, rfl, hf, hl⟩⟩
        · exact .inl ⟨value, rfl, answer, rest, rfl, hr⟩
        · exact .inr ⟨error, ⟨op, answer⟩ :: first, last, rfl, ⟨answer, first, rfl, hf⟩, hl⟩
      · rintro (⟨value, rfl, answer, rest, rfl, hr⟩ | ⟨error, _, last, rfl, ⟨answer, first, rfl, hf⟩, hl⟩)
        · exact ⟨answer, rest, rfl, .inl ⟨value, rfl, hr⟩⟩
        · exact ⟨answer, first ++ last, rfl, .inr ⟨error, first, last, rfl, hf, hl⟩⟩

-- What an environment with a state does is one of the possible runs.
theorem exec_runs (handler : Handler Ans σ) (program : Prog Ans ε α) (state : σ) :
    program.Runs (program.exec handler state).trace (program.exec handler state).outcome := by
  induction program generalizing state with
  | done value => exact ⟨rfl, rfl⟩
  | stop error => exact ⟨rfl, rfl⟩
  | call op next ih => exact ⟨_, _, rfl, ih _ _⟩

-- Every answer of an execution is the handler's, in the state before it.
theorem exec_answer (handler : Handler Ans σ) (program : Prog Ans ε α) (state : σ) :
    ∀ step ∈ (program.exec handler state).steps,
      step.event.answer = (handler step.event.op step.before).1 := by
  induction program generalizing state with
  | done value => simp [exec]
  | stop error => simp [exec]
  | call op next ih =>
      intro step hstep
      rcases List.mem_cons.mp hstep with rfl | hstep
      · rfl
      · exact ih _ _ step hstep

end Prog

-- The steps lead from one state to another, each with the handler's answer.
inductive Chain (handler : Handler Ans σ) : σ → List (Step Ans σ) → σ → Prop where
  | nil (state : σ) : Chain handler state [] state
  | cons (op : Op) (state final : σ) (steps : List (Step Ans σ))
      (hrest : Chain handler (handler op state).2 steps final) :
      Chain handler state (⟨state, ⟨op, (handler op state).1⟩⟩ :: steps) final

theorem Prog.exec_chain (handler : Handler Ans σ) (program : Prog Ans ε α) (state : σ) :
    Chain handler state (program.exec handler state).steps (program.exec handler state).final := by
  induction program generalizing state with
  | done value => exact .nil state
  | stop error => exact .nil state
  | call op next ih => exact .cons op state _ _ (ih _ _)

namespace Chain

variable {handler : Handler Ans σ} {state final : σ}

theorem append {first second : List (Step Ans σ)}
    (hchain : Chain handler state (first ++ second) final) :
    ∃ middle, Chain handler state first middle ∧ Chain handler middle second final := by
  induction first generalizing state with
  | nil => exact ⟨state, .nil state, hchain⟩
  | cons step first ih =>
      cases hchain with
      | cons op _ _ _ hrest =>
          obtain ⟨middle, hfirst, hsecond⟩ := ih hrest
          exact ⟨middle, .cons op state middle first hfirst, hsecond⟩

-- The steps before one of them lead to the state that it starts in.
theorem before {past future : List (Step Ans σ)} {step : Step Ans σ}
    (hchain : Chain handler state (past ++ step :: future) final) :
    Chain handler state past step.before := by
  obtain ⟨middle, hpast, hrest⟩ := hchain.append
  cases hrest with
  | cons op _ _ _ hrest => exact hpast

end Chain

end TransferClient.Interaction
