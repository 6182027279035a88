import TransferClient.Interaction.Theorems

namespace TransferClient.Interaction

variable {Op : Type} {Ans : Op → Type} {ε α σ τ : Type}

-- From related states the two environments answer every operation alike, and the states
-- behind it are related again.
structure Simulation (concrete : Handler Ans σ) (abstract : Handler Ans τ) where
  related : σ → τ → Prop
  answer : ∀ op s t, related s t → (concrete op s).1 = (abstract op t).1
  next : ∀ op s t, related s t → related (concrete op s).2 (abstract op t).2

namespace Simulation

variable {concrete : Handler Ans σ} {abstract : Handler Ans τ}

-- No program can tell the two environments apart.
theorem exec (simulation : Simulation concrete abstract) (program : Prog Ans ε α) (s : σ) (t : τ)
    (hrelated : simulation.related s t) :
    (program.exec concrete s).trace = (program.exec abstract t).trace ∧
      (program.exec concrete s).outcome = (program.exec abstract t).outcome ∧
      simulation.related (program.exec concrete s).final (program.exec abstract t).final := by
  induction program generalizing s t with
  | done value => exact ⟨rfl, rfl, hrelated⟩
  | stop error => exact ⟨rfl, rfl, hrelated⟩
  | call op next ih =>
      have hanswer := simulation.answer op s t hrelated
      obtain ⟨htrace, houtcome, hfinal⟩ :=
        ih (concrete op s).1 _ _ (simulation.next op s t hrelated)
      rw [hanswer] at htrace houtcome hfinal
      refine ⟨?_, ?_, ?_⟩
      · show ⟨op, (concrete op s).1⟩ :: ((next (concrete op s).1).exec concrete (concrete op s).2).trace =
          ⟨op, (abstract op t).1⟩ :: ((next (abstract op t).1).exec abstract (abstract op t).2).trace
        rw [hanswer, htrace]
      · show ((next (concrete op s).1).exec concrete (concrete op s).2).outcome = _
        rw [hanswer]
        exact houtcome
      · show simulation.related ((next (concrete op s).1).exec concrete (concrete op s).2).final _
        rw [hanswer]
        exact hfinal

end Simulation

-- What every step keeps of the trace and the state, a whole execution keeps.
theorem Prog.exec_invariant (handler : Handler Ans σ) (inv : List (Event Ans) → σ → Prop)
    (hstep : ∀ past state op, inv past state →
      inv (past ++ [⟨op, (handler op state).1⟩]) (handler op state).2)
    (program : Prog Ans ε α) (past : List (Event Ans)) (state : σ) (hinv : inv past state) :
    inv (past ++ (program.exec handler state).trace) (program.exec handler state).final := by
  induction program generalizing past state with
  | done value => rwa [show (exec handler (done value : Prog Ans ε α) state).trace = [] from rfl,
      List.append_nil]
  | stop error => rwa [show (exec handler (stop error : Prog Ans ε α) state).trace = [] from rfl,
      List.append_nil]
  | call op next ih =>
      have hnext := ih (handler op state).1 _ _ (hstep past state op hinv)
      rwa [List.append_assoc] at hnext

end TransferClient.Interaction
