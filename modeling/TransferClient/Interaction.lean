import Mathlib.Data.List.Basic

namespace TransferClient.Interaction

variable {Op : Type} {Ans : Op → Type} {ε α β σ : Type}

-- A program that asks its environment for answers. The answer to `op` has type
-- `Ans op`; `ε` names the ways in which a program ends without a value.
inductive Prog (Ans : Op → Type) (ε α : Type) where
  | done (value : α)
  | stop (error : ε)
  | call (op : Op) (next : Ans op → Prog Ans ε α)

namespace Prog

def bind : Prog Ans ε α → (α → Prog Ans ε β) → Prog Ans ε β
  | done value, f => f value
  | stop error, _ => stop error
  | call op next, f => call op fun answer => (next answer).bind f

def catching : Prog Ans ε α → (ε → Prog Ans ε α) → Prog Ans ε α
  | done value, _ => done value
  | stop error, handler => handler error
  | call op next, handler => call op fun answer => (next answer).catching handler

instance : Monad (Prog Ans ε) where
  pure := done
  bind := bind

instance : MonadExceptOf ε (Prog Ans ε) where
  throw := stop
  tryCatch := catching

-- Ask for the answer to one operation.
def ask (op : Op) : Prog Ans ε (Ans op) :=
  call op done

end Prog

structure Event (Ans : Op → Type) where
  op : Op
  answer : Ans op

-- The environment may give any answer of the right type. A run of a program is
-- its list of questions and answers, with the outcome it ends in.
def Prog.Runs : Prog Ans ε α → List (Event Ans) → Except ε α → Prop
  | done value, trace, outcome => trace = [] ∧ outcome = .ok value
  | stop error, trace, outcome => trace = [] ∧ outcome = .error error
  | call op next, trace, outcome =>
      ∃ answer rest, trace = ⟨op, answer⟩ :: rest ∧ (next answer).Runs rest outcome

-- An environment with a state answers every operation in one way.
abbrev Handler (Ans : Op → Type) (σ : Type) :=
  (op : Op) → σ → Ans op × σ

structure Step (Ans : Op → Type) (σ : Type) where
  before : σ
  event : Event Ans

structure Execution (Ans : Op → Type) (ε α σ : Type) where
  steps : List (Step Ans σ)
  outcome : Except ε α
  final : σ

def Execution.trace (execution : Execution Ans ε α σ) : List (Event Ans) :=
  execution.steps.map Step.event

def Prog.exec (handler : Handler Ans σ) : Prog Ans ε α → σ → Execution Ans ε α σ
  | done value, state => ⟨[], .ok value, state⟩
  | stop error, state => ⟨[], .error error, state⟩
  | call op next, state =>
      let (answer, state') := handler op state
      let rest := (next answer).exec handler state'
      ⟨⟨state, ⟨op, answer⟩⟩ :: rest.steps, rest.outcome, rest.final⟩

end TransferClient.Interaction
