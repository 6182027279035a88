import Mathlib.Data.List.Forall2
import TransferClient.Interaction.Theorems

namespace TransferClient.Interaction

variable {Op : Type} {Ans : Op → Type} {ε α β γ δ : Type}

namespace Prog

-- Whatever it is answered, the program asks only questions of this kind.
def Asks (N : Op → Prop) : Prog Ans ε α → Prop
  | done _ => True
  | stop _ => True
  | call op next => N op ∧ ∀ answer, (next answer).Asks N

section Asks

variable {N : Op → Prop}

theorem asks_ask (op : Op) (hop : N op) : (ask op : Prog Ans ε (Ans op)).Asks N :=
  ⟨hop, fun _ => trivial⟩

theorem Asks.bind {program : Prog Ans ε α} {next : α → Prog Ans ε β} (hprogram : program.Asks N)
    (hnext : ∀ value, (next value).Asks N) : (program >>= next).Asks N := by
  change (program.bind next).Asks N
  induction program with
  | done value => exact hnext value
  | stop error => trivial
  | call op following ih => exact ⟨hprogram.1, fun answer => ih answer (hprogram.2 answer)⟩

end Asks

-- The second program goes along with the first: they ask questions that `R` relates, and
-- for each answer to the first that may be assumed there is one to the second, behind
-- which it still goes along. They end with values that `V` relates, or with one error.
def Matched (A : Event Ans → Prop) (R : Event Ans → Event Ans → Prop) (V : α → β → Prop) :
    Prog Ans ε α → Prog Ans ε β → Prop
  | done value, done other => V value other
  | stop error, stop other => error = other
  | call op next, call op' next' => ∀ answer, A ⟨op, answer⟩ →
      ∃ answer', R ⟨op, answer⟩ ⟨op', answer'⟩ ∧ Matched A R V (next answer) (next' answer')
  | _, _ => False

section Matched

variable {A : Event Ans → Prop} {R : Event Ans → Event Ans → Prop} {V : α → β → Prop}
  {W : γ → δ → Prop}

theorem matched_pure {value : α} {other : β} (hvalue : V value other) :
    Matched A R V (pure value : Prog Ans ε α) (pure other) :=
  hvalue

theorem matched_throw (error : ε) : Matched A R V (throw error : Prog Ans ε α) (throw error) := by
  simp only [throw, throwThe, MonadExceptOf.throw, Matched]

theorem matched_ask_bind {op op' : Op} {next : Ans op → Prog Ans ε α}
    {next' : Ans op' → Prog Ans ε β} (hnext : ∀ answer, A ⟨op, answer⟩ →
      ∃ answer', R ⟨op, answer⟩ ⟨op', answer'⟩ ∧ Matched A R V (next answer) (next' answer')) :
    Matched A R V (ask op >>= next) (ask op' >>= next') :=
  hnext

theorem Matched.bind {p : Prog Ans ε α} {q : Prog Ans ε β} {f : α → Prog Ans ε γ}
    {g : β → Prog Ans ε δ}
    (hfirst : Matched A R V p q)
    (hnext : ∀ value other, V value other → Matched A R W (f value) (g other)) :
    Matched A R W (p >>= f) (q >>= g) := by
  change Matched A R W (p.bind f) (q.bind g)
  induction p generalizing q with
  | done value =>
      cases q with
      | done other => exact hnext value other hfirst
      | stop error => exact hfirst.elim
      | call op next => exact hfirst.elim
  | stop error =>
      cases q with
      | done other => exact hfirst.elim
      | stop other => exact hfirst
      | call op next => exact hfirst.elim
  | call op following ih =>
      cases q with
      | done other => exact hfirst.elim
      | stop other => exact hfirst.elim
      | call op' following' =>
          intro answer hanswer
          obtain ⟨answer', hrelated, hrest⟩ := hfirst answer hanswer
          exact ⟨answer', hrelated, ih answer hrest⟩

theorem Matched.tryCatch {p : Prog Ans ε α} {q : Prog Ans ε β} {f : ε → Prog Ans ε α}
    {g : ε → Prog Ans ε β}
    (hfirst : Matched A R V p q) (hcaught : ∀ error, Matched A R V (f error) (g error)) :
    Matched A R V (tryCatch p f) (tryCatch q g) := by
  change Matched A R V (p.catching f) (q.catching g)
  induction p generalizing q with
  | done value =>
      cases q with
      | done other => exact hfirst
      | stop error => exact hfirst.elim
      | call op next => exact hfirst.elim
  | stop error =>
      cases q with
      | done other => exact hfirst.elim
      | stop other =>
          have hsame : error = other := hfirst
          subst hsame
          exact hcaught error
      | call op next => exact hfirst.elim
  | call op following ih =>
      cases q with
      | done other => exact hfirst.elim
      | stop other => exact hfirst.elim
      | call op' following' =>
          intro answer hanswer
          obtain ⟨answer', hrelated, hrest⟩ := hfirst answer hanswer
          exact ⟨answer', hrelated, ih answer hrest⟩

-- A program goes along with itself, if `R` relates what it asks to itself.
theorem Asks.matched {N : Op → Prop} (hsame : ∀ event : Event Ans, N event.op → R event event)
    {program : Prog Ans ε α} (hasks : program.Asks N) : Matched A R Eq program program := by
  induction program with
  | done value => rfl
  | stop error => rfl
  | call op next ih =>
      intro answer _
      exact ⟨answer, hsame ⟨op, answer⟩ hasks.1, ih answer (hasks.2 answer)⟩

-- Each run of the first, on answers that may be assumed, comes with a run of the second.
theorem Matched.runs {p q : Prog Ans ε α} (hmatched : Matched A R Eq p q) {trace : List (Event Ans)}
    {outcome : Except ε α} (hruns : p.Runs trace outcome) (hassumed : ∀ event ∈ trace, A event) :
    ∃ trace', q.Runs trace' outcome ∧ List.Forall₂ R trace trace' := by
  induction p generalizing q trace with
  | done value =>
      cases q with
      | done other =>
          obtain ⟨rfl, rfl⟩ := hruns
          have hsame : value = other := hmatched
          exact ⟨[], ⟨rfl, by rw [hsame]⟩, .nil⟩
      | stop error => exact hmatched.elim
      | call op next => exact hmatched.elim
  | stop error =>
      cases q with
      | done other => exact hmatched.elim
      | stop other =>
          obtain ⟨rfl, rfl⟩ := hruns
          have hsame : error = other := hmatched
          exact ⟨[], ⟨rfl, by rw [hsame]⟩, .nil⟩
      | call op next => exact hmatched.elim
  | call op next ih =>
      cases q with
      | done other => exact hmatched.elim
      | stop other => exact hmatched.elim
      | call op' next' =>
          obtain ⟨answer, rest, rfl, hrest⟩ := hruns
          obtain ⟨hanswer, hassumed⟩ := List.forall_mem_cons.mp hassumed
          obtain ⟨answer', hrelated, hnext⟩ := hmatched answer hanswer
          obtain ⟨rest', hruns', hrelates⟩ := ih answer hnext hrest hassumed
          exact ⟨⟨op', answer'⟩ :: rest', ⟨answer', rest', rfl, hruns'⟩, .cons hrelated hrelates⟩

end Matched

end Prog

end TransferClient.Interaction
