import Mathlib.Data.List.Induction

namespace TransferClient.Interaction

variable {α σ : Type}

-- `P` holds of every element of a list, with the elements that stand before it.
def AtEach (P : List α → α → Prop) (list : List α) : Prop :=
  ∀ past event future, list = past ++ event :: future → P past event

namespace AtEach

variable {P Q : List α → α → Prop} {first second list : List α}

theorem nil : AtEach P [] := by
  intro past event future hsplit
  cases past <;> cases hsplit

theorem mono (hlist : AtEach P list) (himp : ∀ past event, P past event → Q past event) :
    AtEach Q list :=
  fun past event future hsplit => himp past event (hlist past event future hsplit)

theorem of_append_left (hlist : AtEach P (first ++ second)) : AtEach P first := by
  intro past event future hsplit
  apply hlist past event (future ++ second)
  rw [hsplit, List.append_assoc, List.cons_append]

-- The elements of the second part have all of the first part before them.
theorem append (hfirst : AtEach P first) (hsecond : AtEach (fun past => P (first ++ past)) second) :
    AtEach P (first ++ second) := by
  intro past event future hsplit
  rcases List.append_eq_append_iff.mp hsplit with ⟨middle, rfl, hs⟩ | ⟨middle, hf, hs⟩
  · exact hsecond middle event future hs
  · match middle with
    | [] =>
        rw [List.append_nil] at hf
        have hhead : P (first ++ []) event := hsecond [] event future hs.symm
        rwa [List.append_nil, hf] at hhead
    | head :: middle =>
        cases hs
        exact hfirst past event middle hf

theorem singleton {event : α} (hevent : P [] event) : AtEach P [event] := by
  intro past other future hsplit
  match past with
  | [] =>
      cases hsplit
      exact hevent
  | head :: past => cases past <;> cases hsplit

theorem cons {event : α} (hlist : AtEach (fun past => P (event :: past)) list)
    (hevent : P [] event) :
    AtEach P (event :: list) :=
  (singleton hevent).append hlist

theorem cons_iff {event : α} :
    AtEach P (event :: list) ↔ P [] event ∧ AtEach (fun past => P (event :: past)) list := by
  constructor
  · intro hlist
    refine ⟨hlist [] event list rfl, ?_⟩
    intro past other future hsplit
    exact hlist (event :: past) other future (by rw [hsplit, List.cons_append])
  · rintro ⟨hevent, hlist⟩
    exact hlist.cons hevent

instance decidable (P : List α → α → Prop) [∀ past event, Decidable (P past event)] :
    (list : List α) → Decidable (AtEach P list)
  | [] => .isTrue nil
  | event :: list =>
      have := decidable (fun past => P (event :: past)) list
      decidable_of_iff _ cons_iff.symm

theorem concat {event : α} (hlist : AtEach P list) (hevent : P list event) :
    AtEach P (list ++ [event]) := by
  refine hlist.append (singleton ?_)
  rwa [List.append_nil]

theorem of_forall (hlist : ∀ event ∈ list, ∀ past, P past event) : AtEach P list := by
  intro past event future hsplit
  exact hlist event (by simp [hsplit]) past

-- What each step keeps of the past and the state, under the property of the step, holds at
-- the end.
theorem foldl_invariant (hlist : AtEach P list) (step : σ → α → σ) (start : σ)
    (inv : List α → σ → Prop) (hstart : inv [] start)
    (hstep : ∀ past event state, P past event → inv past state → inv (past ++ [event]) (step state event)) :
    inv list (list.foldl step start) := by
  induction list using List.reverseRecOn with
  | nil => exact hstart
  | append_singleton list event ih =>
      rw [List.foldl_append]
      exact hstep list event _ (hlist list event [] rfl) (ih hlist.of_append_left)

end AtEach

-- `P` holds of every element of a list, wherever the list stands in a longer one.
def Anywhere (P : List α → α → Prop) (list : List α) : Prop :=
  ∀ first, AtEach (fun past => P (first ++ past)) list

namespace Anywhere

variable {P : List α → α → Prop} {first second list : List α}

theorem atEach (hlist : Anywhere P list) : AtEach P list :=
  hlist []

theorem nil : Anywhere P [] :=
  fun _ => AtEach.nil

theorem of_forall (hlist : ∀ event ∈ list, ∀ past, P past event) : Anywhere P list :=
  fun first => .of_forall fun event hevent past => hlist event hevent (first ++ past)

-- For the second part it may be used that the first stands before it.
theorem append_of (hfirst : Anywhere P first)
    (hsecond : ∀ before, AtEach (fun past => P (before ++ first ++ past)) second) :
    Anywhere P (first ++ second) := by
  intro before
  refine (hfirst before).append ((hsecond before).mono fun past event h => ?_)
  rwa [List.append_assoc] at h

theorem flatten {lists : List (List α)} (hlists : ∀ list ∈ lists, Anywhere P list) :
    Anywhere P lists.flatten := by
  induction lists with
  | nil => exact nil
  | cons list lists ih =>
      rw [List.flatten_cons]
      refine (hlists list (by simp)).append_of fun before => ?_
      exact ih (fun other hother => hlists other (by simp [hother])) (before ++ list)

theorem append (hfirst : Anywhere P first) (hsecond : Anywhere P second) :
    Anywhere P (first ++ second) :=
  hfirst.append_of fun before => hsecond (before ++ first)

end Anywhere

end TransferClient.Interaction
