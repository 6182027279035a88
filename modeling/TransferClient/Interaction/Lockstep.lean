import TransferClient.Interaction.Theorems

namespace TransferClient.Interaction

variable {Op : Type} {Ans : Op → Type} {ε α β γ δ σ : Type}

def Execution.ops (execution : Execution Ans ε α σ) : List Op :=
  execution.steps.map fun step => step.event.op

namespace Prog

theorem exec_bind_ok (handler : Handler Ans σ) (program : Prog Ans ε α) (next : α → Prog Ans ε β)
    (state : σ) (value : α) (hok : (program.exec handler state).outcome = .ok value) :
    (program >>= next).exec handler state =
      let first := program.exec handler state
      let rest := (next value).exec handler first.final
      ⟨first.steps ++ rest.steps, rest.outcome, rest.final⟩ := by
  change (program.bind next).exec handler state = _
  induction program generalizing state with
  | done result =>
      cases hok
      rfl
  | stop error => cases hok
  | call op following ih =>
      simp only [bind, exec, List.cons_append]
      rw [ih _ _ hok]

theorem exec_bind_error (handler : Handler Ans σ) (program : Prog Ans ε α) (next : α → Prog Ans ε β)
    (state : σ) (error : ε) (herror : (program.exec handler state).outcome = .error error) :
    (program >>= next).exec handler state =
      let first := program.exec handler state
      ⟨first.steps, .error error, first.final⟩ := by
  change (program.bind next).exec handler state = _
  induction program generalizing state with
  | done result => cases herror
  | stop other =>
      cases herror
      rfl
  | call op following ih =>
      simp only [bind, exec]
      rw [ih _ _ herror]

end Prog

-- Two executions end alike: with related values, or with one and the same error.
inductive Ends (V : α → β → Prop) (E : ε → Prop) : Except ε α → Except ε β → Prop where
  | ok (value : α) (other : β) (hvalue : V value other) : Ends V E (.ok value) (.ok other)
  | error (error : ε) (herror : E error) : Ends V E (.error error) (.error error)

theorem Ends.eq {E : ε → Prop} {outcome outcome' : Except ε α}
    (hends : Ends Eq E outcome outcome') :
    outcome = outcome' := by
  cases hends with
  | ok value other hvalue => rw [hvalue]
  | error error herror => rfl

theorem Ends.permitted {V : α → β → Prop} {E : ε → Prop} {error : ε} {outcome : Except ε β}
    (hends : Ends V E (.error error) outcome) : E error := by
  cases hends with
  | error _ herror => exact herror

-- Two executions that ask the same questions, end alike and leave related states.
structure Lockstep (R : σ → σ → Prop) (E : ε → Prop) (V : α → β → Prop)
    (first : Execution Ans ε α σ) (second : Execution Ans ε β σ) : Prop where
  ops : first.ops = second.ops
  ends : Ends V E first.outcome second.outcome
  final : R first.final second.final

theorem Lockstep.call {R : σ → σ → Prop} {E : ε → Prop} {V : α → β → Prop} (handler : Handler Ans σ)
    (op : Op) (next : Ans op → Prog Ans ε α) (next' : Ans op → Prog Ans ε β) (s t : σ)
    (hnext : Lockstep R E V ((next (handler op s).1).exec handler (handler op s).2)
      ((next' (handler op t).1).exec handler (handler op t).2)) :
    Lockstep R E V ((Prog.call op next).exec handler s) ((Prog.call op next').exec handler t) := by
  obtain ⟨hops, hends, hfinal⟩ := hnext
  refine ⟨?_, hends, hfinal⟩
  show op :: _ = op :: _
  exact congrArg (op :: ·) hops

-- What two executions are compared by, and what is assumed of the steps of the first.
structure Pairing (Ans : Op → Type) (ε σ : Type) where
  handler : Handler Ans σ
  related : σ → σ → Prop
  stops : ε → Prop
  assumed : List (Step Ans σ) → Prop
  of_append : ∀ first second, assumed (first ++ second) → assumed first ∧ assumed second

namespace Pairing

variable (pairing : Pairing Ans ε σ)

-- From related states the two programs run in lockstep.
def Coupled (V : α → β → Prop) (p : Prog Ans ε α) (q : Prog Ans ε β) : Prop :=
  ∀ s t, pairing.related s t → pairing.assumed (p.exec pairing.handler s).steps →
    Lockstep pairing.related pairing.stops V (p.exec pairing.handler s) (q.exec pairing.handler t)

variable {pairing} {V : α → β → Prop} {W : γ → δ → Prop}

theorem coupled_pure {value : α} {other : β} (hvalue : V value other) :
    pairing.Coupled V (pure value) (pure other) := by
  intro s t hst _
  exact ⟨rfl, .ok value other hvalue, hst⟩

theorem coupled_throw {error : ε} (herror : pairing.stops error) :
    pairing.Coupled V (throw error) (throw error) := by
  intro s t hst _
  exact ⟨rfl, .error error herror, hst⟩

theorem coupled_ask {op : Op} {A : Ans op → Ans op → Prop}
    (hop : ∀ s t, pairing.related s t → A (pairing.handler op s).1 (pairing.handler op t).1 ∧
      pairing.related (pairing.handler op s).2 (pairing.handler op t).2) :
    pairing.Coupled A (Prog.ask op) (Prog.ask op) := by
  intro s t hst _
  obtain ⟨hanswer, hnext⟩ := hop s t hst
  exact ⟨rfl, .ok _ _ hanswer, hnext⟩

theorem coupled_bind {p : Prog Ans ε α} {q : Prog Ans ε β} {f : α → Prog Ans ε γ}
    {g : β → Prog Ans ε δ} (hfirst : pairing.Coupled V p q)
    (hnext : ∀ value other, V value other → pairing.Coupled W (f value) (g other)) :
    pairing.Coupled W (p >>= f) (q >>= g) := by
  intro s t hst hassumed
  cases hp : (p.exec pairing.handler s).outcome with
  | ok value =>
      rw [Prog.exec_bind_ok _ _ _ _ value hp] at hassumed ⊢
      obtain ⟨hassumed, hrest⟩ := pairing.of_append _ _ hassumed
      obtain ⟨hops, hends, hfinal⟩ := hfirst s t hst hassumed
      rw [hp] at hends
      generalize hq : (q.exec pairing.handler t).outcome = outcome at hends
      cases hends with
      | ok _ other hvalue =>
          obtain ⟨hops', hends', hfinal'⟩ := hnext value other hvalue _ _ hfinal hrest
          rw [Prog.exec_bind_ok _ _ _ _ other hq]
          refine ⟨?_, hends', hfinal'⟩
          simp only [Execution.ops, List.map_append] at hops hops' ⊢
          rw [hops, hops']
  | error error =>
      rw [Prog.exec_bind_error _ _ _ _ error hp] at hassumed ⊢
      obtain ⟨hops, hends, hfinal⟩ := hfirst s t hst hassumed
      rw [hp] at hends
      generalize hq : (q.exec pairing.handler t).outcome = outcome at hends
      cases hends with
      | error _ herror =>
          rw [Prog.exec_bind_error _ _ _ _ error hq]
          exact ⟨hops, .error error herror, hfinal⟩

end Pairing

end TransferClient.Interaction
