import Mathlib

/-! Scripts: steps on a state, one after the other until one of them reports an error or faults.
Each leaves a state behind, also when it stops the script. -/

namespace Script

variable {C X E : Type}

/-- What a step leaves, and its error or fault if it has one. -/
abbrev Outcome (C X E : Type) := C × Except X (Option E)

def run : List (C → Outcome C X E) → C → Outcome C X E
  | [], c => (c, .ok none)
  | s :: ss, c =>
    match s c with
    | (c, .ok none) => run ss c
    | (c, .ok (some e)) => (c, .ok (some e))
    | (c, .error x) => (c, .error x)

theorem run_pass {s : C → Outcome C X E} {c c' : C} (h : s c = (c', .ok none))
    (ss : List (C → Outcome C X E)) : run (s :: ss) c = run ss c' := by
  rw [run, h]

theorem run_stop {s : C → Outcome C X E} {c c' : C} {r : Except X (Option E)} (h : s c = (c', r))
    (hr : r ≠ .ok none) (ss : List (C → Outcome C X E)) : run (s :: ss) c = (c', r) := by
  rw [run, h]
  rcases r with x | (- | e)
  · rfl
  · exact absurd rfl hr
  · rfl

/-- A script that passes passes in each of its steps. -/
theorem run_cons_passed {s : C → Outcome C X E} {ss : List (C → Outcome C X E)} {c c' : C}
    (h : run (s :: ss) c = (c', .ok none)) : ∃ c₁, s c = (c₁, .ok none) ∧ run ss c₁ = (c', .ok none) := by
  rcases hs : s c with ⟨c₁, r⟩
  by_cases hr : r = .ok none
  · rw [hr] at hs
    rw [run_pass hs] at h
    exact ⟨c₁, by rw [hr], h⟩
  · rw [run_stop hs hr] at h
    exact absurd (congrArg Prod.snd h) hr

/-- A script goes on where its first part passed, and ends where that stopped. -/
theorem run_append (ss ts : List (C → Outcome C X E)) (c : C) :
    (∃ c', run ss c = (c', .ok none) ∧ run (ss ++ ts) c = run ts c') ∨
    ((run ss c).2 ≠ .ok none ∧ run (ss ++ ts) c = run ss c) := by
  induction ss generalizing c with
  | nil => exact .inl ⟨c, rfl, rfl⟩
  | cons s ss ih =>
    rcases hs : s c with ⟨c', r⟩
    by_cases hr : r = .ok none
    · rw [hr] at hs
      rw [List.cons_append, run_pass hs, run_pass hs]
      exact ih c'
    · rw [List.cons_append, run_stop hs hr, run_stop hs hr]
      exact .inr ⟨hr, rfl⟩

/-- `I` is kept by the steps that pass, and the step that stops the script, or the last one, leads
to `Q`. -/
theorem run_rule {I : C → Prop} {Q : Outcome C X E → Prop} {ss : List (C → Outcome C X E)}
    (hpass : ∀ s ∈ ss, ∀ c c', I c → s c = (c', .ok none) → I c')
    (hstop : ∀ s ∈ ss, ∀ c c' r, I c → s c = (c', r) → r ≠ .ok none → Q (c', r))
    (hend : ∀ c, I c → Q (c, .ok none)) {c : C} (hc : I c) : Q (run ss c) := by
  induction ss generalizing c with
  | nil => exact hend c hc
  | cons s ss ih =>
    rcases hs : s c with ⟨c', r⟩
    by_cases hr : r = .ok none
    · rw [hr] at hs
      rw [run_pass hs]
      exact ih (fun t ht => hpass t (List.mem_cons_of_mem _ ht))
        (fun t ht => hstop t (List.mem_cons_of_mem _ ht)) (hpass s List.mem_cons_self c c' hc hs)
    · rw [run_stop hs hr]
      exact hstop s List.mem_cons_self c c' r hc hs hr

end Script
