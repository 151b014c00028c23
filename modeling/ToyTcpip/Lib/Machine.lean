import Mathlib.Tactic

/-! Deterministic machines: runs over a list of inputs, each of which may have to meet a condition
in the state it comes to. -/
namespace Machine

variable {σ ι : Type*} (step : σ → ι → σ)

def run (s : σ) (inputs : List ι) : σ := inputs.foldl step s

/-- Every input meets `ok` in the state it comes to. -/
def Along (ok : σ → ι → Prop) (s : σ) : List ι → Prop
  | [] => True
  | i :: rest => ok s i ∧ Along ok (step s i) rest

variable {step} {ok ok' : σ → ι → Prop} {I : σ → Prop} {s : σ} {inputs : List ι}

theorem run_cons (s : σ) (i : ι) (rest : List ι) :
    run step s (i :: rest) = run step (step s i) rest := rfl

theorem run_append (s : σ) (first rest : List ι) :
    run step s (first ++ rest) = run step (run step s first) rest := List.foldl_append

theorem Along.mono (h : ∀ s i, ok s i → ok' s i) (hrun : Along step ok s inputs) :
    Along step ok' s inputs := by
  induction inputs generalizing s with
  | nil => trivial
  | cons i rest ih => exact ⟨h s i hrun.1, ih hrun.2⟩

theorem along_append {first rest : List ι} :
    Along step ok s (first ++ rest) ↔ Along step ok s first ∧
    Along step ok (run step s first) rest := by
  induction first generalizing s with
  | nil => simp [Along, run]
  | cons i first ih => simp [Along, run, ih, and_assoc]

/-- The condition may name the inputs of the run. -/
theorem Along.and_mem (hrun : Along step ok s inputs) :
    Along step (fun s i => ok s i ∧ i ∈ inputs) s inputs := by
  induction inputs generalizing s with
  | nil => trivial
  | cons i rest ih =>
    refine ⟨⟨hrun.1, List.mem_cons_self⟩, (ih hrun.2).mono ?_⟩
    rintro s j ⟨hok, hj⟩
    exact ⟨hok, List.mem_cons_of_mem i hj⟩

/-- What every step keeps while its condition is met, a run keeps. -/
theorem Along.keeps (h : ∀ s i, I s → ok s i → I (step s i)) (hrun : Along step ok s inputs)
    (hs : I s) : I (run step s inputs) := by
  induction inputs generalizing s with
  | nil => exact hs
  | cons i rest ih => exact ih hrun.2 (h s i hs hrun.1)

/-- The rule for what every step keeps. -/
theorem run_keeps (h : ∀ s i, I s → I (step s i)) (inputs : List ι) (hs : I s) :
    I (run step s inputs) := by
  induction inputs generalizing s with
  | nil => exact hs
  | cons i rest ih => exact ih (h s i hs)

/-- Where a step keeps the property exactly when its input suits a record that is kept of the
inputs, it holds all along a run exactly when all inputs suit. -/
theorem keeps_iff_along {γ : Type*} {note : γ → ι → γ} {suits : γ → ι → Prop} {R : γ → σ → Prop}
    {g : γ} (hnote : ∀ g s i, R g s → R (note g i) (step s i))
    (hkeeps : ∀ g s i, R g s → I s → (I (step s i) ↔ suits g i)) (hR : R g s) (hs : I s) :
    (∀ done, done <+: inputs → I (run step s done)) ↔ Along note suits g inputs := by
  induction inputs generalizing g s with
  | nil =>
    refine iff_of_true (fun done hdone => ?_) trivial
    rwa [List.prefix_nil.mp hdone]
  | cons i rest ih =>
    have hrest := fun hi => ih (hnote g s i hR) hi
    constructor
    · intro h
      have hi : I (step s i) := h [i] (List.prefix_append [i] rest)
      exact ⟨(hkeeps g s i hR hs).mp hi, (hrest hi).mp fun done hdone =>
        h (i :: done) (List.cons_prefix_cons.mpr ⟨rfl, hdone⟩)⟩
    · rintro ⟨hok, halong⟩ done hdone
      cases done with
      | nil => exact hs
      | cons j done =>
        obtain ⟨rfl, htail⟩ := List.cons_prefix_cons.mp hdone
        exact (hrest ((hkeeps g s j hR hs).mpr hok)).mpr halong done htail

end Machine

/-! ### Steps that leave a log, the latest entry first -/

/-- Finitely many steps, and what they leave in the log. -/
inductive LogRun {α β : Type*} (step : α → List β → α → Prop) : α → List β → α → Prop
  | refl (a : α) : LogRun step a [] a
  | tail {a b c : α} {l l' : List β} :
      LogRun step a l b → step b l' c → LogRun step a (l' ++ l) c

namespace LogRun

variable {α β : Type*} {step step' : α → List β → α → Prop} {a b c : α} {l l' log : List β}

theorem single (h : step a l b) : LogRun step a l b := by
  simpa using LogRun.tail (.refl a) h

theorem trans (h : LogRun step a l b) (h' : LogRun step b l' c) : LogRun step a (l' ++ l) c := by
  induction h' with
  | refl => exact h
  | tail _ hs ih =>
    rw [List.append_assoc]
    exact .tail ih hs

theorem mono (hmono : ∀ {a l b}, step a l b → step' a l b) (h : LogRun step a l b) :
    LogRun step' a l b := by
  induction h with
  | refl => exact .refl _
  | tail _ hs ih => exact .tail ih (hmono hs)

/-- What one step keeps, while its entries meet a condition, a run keeps. -/
theorem invariant {I : α → List β → Prop} {ok : β → Prop}
    (hstep : ∀ {a log l b}, step a l b → (∀ e ∈ l, ok e) → I a log → I b (l ++ log))
    (h : LogRun step a l b) (hok : ∀ e ∈ l, ok e) (ha : I a log) : I b (l ++ log) := by
  induction h with
  | refl => exact ha
  | tail _ hs ih =>
    rw [List.append_assoc]
    exact hstep hs (fun e he => hok e (List.mem_append_left _ he))
      (ih fun e he => hok e (List.mem_append_right _ he))

/-- The rule for a property that does not look at the log. -/
theorem keeps {P : α → Prop} (hstep : ∀ {a l b}, step a l b → P a → P b) (h : LogRun step a l b)
    (ha : P a) : P b := by
  induction h with
  | refl => exact ha
  | tail _ hs ih => exact hstep hs ih

end LogRun
