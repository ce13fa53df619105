import Mathlib.Data.List.Infix

/-!
Runs of a total step function, and conditions on their steps.

A server component is a state and a step function that every request, timer or environment event
goes through; a run is a list of inputs. `Throughout` says that a property holds in every state a
run passes through, `EachStep` that every step of it meets a condition on the state before the step
and the input. The rules below derive the one from the other.

Nothing here mentions the game server.
-/

namespace Sky548.Machine

variable {σ ι : Type*} (step : σ → ι → σ)

def run (s : σ) (inputs : List ι) : σ :=
  inputs.foldl step s

@[simp] theorem run_nil (s : σ) : run step s [] = s := rfl

@[simp] theorem run_cons (s : σ) (i : ι) (rest : List ι) :
    run step s (i :: rest) = run step (step s i) rest := rfl

variable {s : σ}

/-- **The loop rule.** What one turn takes from `i` to `i + 1`, the loop takes from
`0` to `n`. -/
theorem run_range {turn : σ → Nat → σ} {P : Nat → σ → Prop} (start : P 0 s) (n : Nat)
    (keep : ∀ i s, i < n → P i s → P (i + 1) (turn s i)) : P n (run turn s (List.range n)) := by
  induction n with
  | zero => exact start
  | succ n ih =>
    rw [List.range_succ, run, List.foldl_append]
    exact keep n _ (Nat.lt_succ_self n) (ih fun i s below => keep i s (Nat.lt_succ_of_lt below))

theorem run_list {P : List ι → List ι → σ → Prop}
    (keep : ∀ done i rest s, P done (i :: rest) s → P (done ++ [i]) rest (step s i))
    (inputs : List ι) : ∀ (done : List ι) (s : σ), P done inputs s →
      P (done ++ inputs) [] (run step s inputs) := by
  induction inputs with
  | nil =>
    intro done s holds
    rw [List.append_nil]
    exact holds
  | cons i rest ih =>
    intro done s holds
    have later := ih (done ++ [i]) (step s i) (keep done i rest s holds)
    rw [List.append_assoc] at later
    exact later

/-- `P` holds in every state of the run, the first and the last included. -/
def Throughout (P : σ → Prop) : σ → List ι → Prop
  | s, [] => P s
  | s, i :: rest => P s ∧ Throughout P (step s i) rest

/-- Every step of the run meets `C`, which reads the state before the step
and its input. -/
def EachStep (C : σ → ι → Prop) : σ → List ι → Prop
  | _, [] => True
  | s, i :: rest => C s i ∧ EachStep C (step s i) rest

instance decidableThroughout (P : σ → Prop) [DecidablePred P] :
    ∀ (s : σ) (inputs : List ι), Decidable (Throughout step P s inputs)
  | s, [] => inferInstanceAs (Decidable (P s))
  | s, i :: rest =>
    have := decidableThroughout P (step s i) rest
    inferInstanceAs (Decidable (P s ∧ Throughout step P (step s i) rest))

instance decidableEachStep (C : σ → ι → Prop) [∀ s i, Decidable (C s i)] :
    ∀ (s : σ) (inputs : List ι), Decidable (EachStep step C s inputs)
  | _, [] => inferInstanceAs (Decidable True)
  | s, i :: rest =>
    have := decidableEachStep C (step s i) rest
    inferInstanceAs (Decidable (C s i ∧ EachStep step C (step s i) rest))

variable {step}

@[simp] theorem throughout_nil {P : σ → Prop} :
    Throughout step P s [] ↔ P s := Iff.rfl

@[simp] theorem throughout_cons {P : σ → Prop} {i : ι} {rest : List ι} :
    Throughout step P s (i :: rest) ↔ P s ∧ Throughout step P (step s i) rest := Iff.rfl

@[simp] theorem eachStep_nil {C : σ → ι → Prop} : EachStep step C s [] :=
  True.intro

@[simp] theorem eachStep_cons {C : σ → ι → Prop} {i : ι} {rest : List ι} :
    EachStep step C s (i :: rest) ↔ C s i ∧ EachStep step C (step s i) rest := Iff.rfl

theorem Throughout.head {P : σ → Prop} {inputs : List ι} (holds : Throughout step P s inputs) :
    P s := by
  cases inputs with
  | nil => exact holds
  | cons i rest => exact holds.1

theorem throughout_iff_run {P : σ → Prop} {inputs : List ι} :
    Throughout step P s inputs ↔ ∀ pre, pre <+: inputs → P (run step s pre) := by
  induction inputs generalizing s with
  | nil => simp
  | cons i rest ih =>
    rw [throughout_cons, ih]
    constructor
    · rintro ⟨now, later⟩ pre isPrefix
      rcases List.prefix_cons_iff.mp isPrefix with rfl | ⟨tail, rfl, tailPrefix⟩
      · exact now
      · exact later tail tailPrefix
    · intro all
      refine ⟨all [] List.nil_prefix, fun pre isPrefix => ?_⟩
      exact all (i :: pre) (List.cons_prefix_cons.mpr ⟨rfl, isPrefix⟩)

theorem Throughout.last {P : σ → Prop} {inputs : List ι} (holds : Throughout step P s inputs) :
    P (run step s inputs) :=
  throughout_iff_run.mp holds inputs (List.prefix_refl _)

theorem Throughout.mono {P Q : σ → Prop} (imp : ∀ s, P s → Q s) {inputs : List ι}
    (holds : Throughout step P s inputs) : Throughout step Q s inputs := by
  rw [throughout_iff_run] at holds ⊢
  exact fun pre isPrefix => imp _ (holds pre isPrefix)

theorem EachStep.mono {C D : σ → ι → Prop} (imp : ∀ s i, C s i → D s i)
    {inputs : List ι} (met : EachStep step C s inputs) : EachStep step D s inputs := by
  induction inputs generalizing s with
  | nil => exact True.intro
  | cons i rest ih => exact ⟨imp s i met.1, ih met.2⟩

theorem EachStep.of_forall {C : σ → ι → Prop} (all : ∀ s i, C s i) (s : σ) (inputs : List ι) :
    EachStep step C s inputs := by
  induction inputs generalizing s with
  | nil => exact True.intro
  | cons i rest ih => exact ⟨all s i, ih (step s i)⟩

section Rules

variable {I P : σ → Prop} {C Q : σ → ι → Prop} {s : σ} {inputs : List ι}

/-- **The invariant rule.** An invariant that every step meeting `C` keeps
holds throughout a run whose steps all meet `C`. -/
theorem Throughout.of_eachStep (start : I s)
    (keep : ∀ s i, I s → C s i → I (step s i)) (met : EachStep step C s inputs) :
    Throughout step I s inputs := by
  induction inputs generalizing s with
  | nil => exact start
  | cons i rest ih => exact ⟨start, ih (keep s i start met.1) met.2⟩

theorem Throughout.of_step (start : I s) (keep : ∀ s i, I s → I (step s i)) :
    Throughout step I s inputs := by
  induction inputs generalizing s with
  | nil => exact start
  | cons i rest ih => exact ⟨start, ih (keep s i start)⟩

theorem EachStep.of_eachStep (start : I s)
    (keep : ∀ s i, I s → C s i → I (step s i)) (each : ∀ s i, I s → C s i → Q s i)
    (met : EachStep step C s inputs) : EachStep step Q s inputs := by
  induction inputs generalizing s with
  | nil => exact True.intro
  | cons i rest ih =>
    exact ⟨each s i start met.1, ih (keep s i start met.1) met.2⟩

theorem eachStep_iff (start : I s) (keep : ∀ s i, I s → C s i → I (step s i))
    (each : ∀ s i, I s → (Q s i ↔ C s i)) :
    EachStep step Q s inputs ↔ EachStep step C s inputs := by
  induction inputs generalizing s with
  | nil => exact Iff.rfl
  | cons i rest ih =>
    rw [eachStep_cons, eachStep_cons, each s i start]
    exact and_congr_right fun met => ih (keep s i start met)

theorem eachStep_congr {R : σ → ι → Prop} (start : I s)
    (keep : ∀ s i, I s → C s i → I (step s i)) (each : ∀ s i, I s → C s i → (Q s i ↔ R s i))
    (met : EachStep step C s inputs) : EachStep step Q s inputs ↔ EachStep step R s inputs := by
  induction inputs generalizing s with
  | nil => exact Iff.rfl
  | cons i rest ih =>
    rw [eachStep_cons, eachStep_cons, each s i start met.1]
    exact and_congr_right fun _ => ih (keep s i start met.1) met.2

/-- **The exact guard rule.** When the guard keeps the invariant, and a step that fails it ends in a
state without `P`, then `P` holds throughout a run exactly when every step meets the guard. -/
theorem throughout_iff_eachStep (start : I s) (imp : ∀ s, I s → P s)
    (keep : ∀ s i, I s → C s i → I (step s i)) (fail : ∀ s i, I s → ¬ C s i → ¬ P (step s i)) :
    Throughout step P s inputs ↔ EachStep step C s inputs := by
  constructor
  · intro holds
    induction inputs generalizing s with
    | nil => exact True.intro
    | cons i rest ih =>
      have met : C s i := by
        by_contra unmet
        exact fail s i start unmet holds.2.head
      exact ⟨met, ih (keep s i start met) holds.2⟩
  · intro met
    exact (Throughout.of_eachStep start keep met).mono imp

end Rules

end Sky548.Machine
