import XlReg.Lib.Parties

/-! Refinement of one system of parties by another. Two computations agree if they stop for the
same reason or come to related results. Where the single actions of two systems agree, and a
relation between the parties survives what others do to the shared state, the runs agree: the
second system stops exactly when the first does. -/

namespace Run

variable {X α β γ δ : Type}

/-- Both stop for the same reason, or both come to an end, with related results. -/
inductive Agree (R : α → β → Prop) : Except X α → Except X β → Prop
  | stop (x : X) : Agree R (.error x) (.error x)
  | ok {a : α} {b : β} (related : R a b) : Agree R (.ok a) (.ok b)

variable {R : α → β → Prop} {x : Except X α} {y : Except X β}

theorem Agree.bind {S : γ → δ → Prop} {f : α → Except X γ} {g : β → Except X δ} (h : Agree R x y)
    (hfg : ∀ a b, R a b → Agree S (f a) (g b)) : Agree S (x.bind f) (y.bind g) := by
  cases h with
  | stop e => exact .stop e
  | ok hr => exact hfg _ _ hr

theorem Agree.ok_left {a : α} (h : Agree R x y) (hx : x = .ok a) : ∃ b, y = .ok b ∧ R a b := by
  cases h with
  | stop e => cases hx
  | ok hr =>
    cases hx
    exact ⟨_, rfl, hr⟩

theorem Agree.map_left {S : γ → β → Prop} {f : α → γ} (h : Agree R x y)
    (hf : ∀ a b, R a b → S (f a) b) : Agree S (x.map f) y := by
  cases h with
  | stop e => exact .stop e
  | ok hr => exact .ok (hf _ _ hr)

/-- Steps that agree from related states make runs that do. -/
theorem agree_run {S S' E : Type} {next : S → E → Except X S} {next' : S' → E → Except X S'}
    {R : S → S' → Prop} (hstep : ∀ s s' e, R s s' → Agree R (next s e) (next' s' e)) {s : S} {s' : S'}
    (h : R s s') (evs : List E) : Agree R (run next s evs) (run next' s' evs) := by
  induction evs generalizing s s' with
  | nil => exact .ok h
  | cons e evs ih =>
    rw [run_cons, run_cons]
    exact (hstep s s' e h).bind fun _ _ hr => ih hr

end Run

namespace Parties

open Run

variable {σ σ' ι lam lam' act X : Type}

/-- The actions of `M` agree with those of `M'`, for shared states related by `R` and parties
related by `Q`, which may look at the shared state of `M`. What an action of `M` does to that
state is within `G`, and `Q` survives it. -/
structure Refines (M : Parties σ ι lam act X) (M' : Parties σ' ι lam' act X) (R : σ → σ' → Prop)
    (G : σ → σ → Prop) (Q : σ → lam → lam' → Prop) : Prop where
  start : ∀ s s' x, R s s' → Q s (M.start x) (M'.start x)
  step : ∀ s s' l l' a, R s s' → Q s l l' →
    Agree (fun r r' => R r.1 r'.1 ∧ Q r.1 r.2 r'.2) (M.step s l a) (M'.step s' l' a)
  guarantee : ∀ s l a t m, M.step s l a = .ok (t, m) → G s t
  stable : ∀ s t l l', Q s l l' → G s t → Q t l l'

/-- The shared states are related, and so are the parties, one by one. -/
structure Related (R : σ → σ' → Prop) (Q : σ → lam → lam' → Prop) (s : State σ lam)
    (s' : State σ' lam') : Prop where
  shared : R s.shared s'.shared
  parties : List.Forall₂ (Q s.shared) s.parties s'.parties

variable {M : Parties σ ι lam act X} {M' : Parties σ' ι lam' act X} {R : σ → σ' → Prop}
  {G : σ → σ → Prop} {Q : σ → lam → lam' → Prop}

theorem forall₂_set {P : lam → lam' → Prop} {l : List lam} {l' : List lam'} (h : List.Forall₂ P l l')
    {a : lam} {a' : lam'} (ha : P a a') (i : ℕ) : List.Forall₂ P (l.set i a) (l'.set i a') := by
  induction h generalizing i with
  | nil => exact .nil
  | cons hab hrest ih =>
    cases i with
    | zero => exact .cons ha hrest
    | succ i => exact .cons hab (ih i)

/-- What stands at a place of a list that has grown by one entry. -/
theorem concat_getElem? {α : Type} {xs : List α} {a x : α} {i : ℕ} (h : (xs ++ [a])[i]? = some x) :
    (i < xs.length ∧ xs[i]? = some x) ∨ (i = xs.length ∧ x = a) := by
  rcases lt_or_ge i xs.length with hlt | hge
  · rw [List.getElem?_append_left hlt] at h
    exact .inl ⟨hlt, h⟩
  · obtain ⟨hlt, -⟩ := List.getElem?_eq_some_iff.1 h
    rw [List.length_append, List.length_singleton] at hlt
    obtain rfl : i = xs.length := by omega
    rw [List.getElem?_concat_length] at h
    cases h
    exact .inr ⟨rfl, rfl⟩

theorem forall₂_getElem? {P : lam → lam' → Prop} {l : List lam} {l' : List lam'}
    (h : List.Forall₂ P l l') {i : ℕ} {a : lam} (hi : l[i]? = some a) : ∃ b, l'[i]? = some b ∧ P a b := by
  obtain ⟨hlt, rfl⟩ := List.getElem?_eq_some_iff.1 hi
  have hlt' : i < l'.length := h.length_eq ▸ hlt
  exact ⟨_, List.getElem?_eq_getElem hlt', h.get hlt hlt'⟩

/-- Searches for what related entries have in common find related entries, or none. -/
theorem forall₂_find {P : lam → lam' → Prop} {l : List lam} {l' : List lam'} (h : List.Forall₂ P l l')
    {f : lam → Bool} {g : lam' → Bool} (hfg : ∀ a b, P a b → f a = g b) :
    (l.find? f = none ∧ l'.find? g = none) ∨
      ∃ a b, l.find? f = some a ∧ l'.find? g = some b ∧ P a b := by
  induction h with
  | nil => exact .inl ⟨rfl, rfl⟩
  | cons hab hrest ih =>
    rename_i a b as bs
    have heq := hfg a b hab
    cases hf : f a with
    | true =>
      refine .inr ⟨a, b, ?_, ?_, hab⟩
      · rw [List.find?_cons_of_pos hf]
      · rw [List.find?_cons_of_pos (heq ▸ hf)]
    | false =>
      rw [List.find?_cons_of_neg (by simp [hf]), List.find?_cons_of_neg (by simp [← heq, hf])]
      exact ih

theorem Refines.next (h : Refines M M' R G Q) {s : State σ lam} {s' : State σ' lam'}
    (hs : Related R Q s s') (e : Event ι act) : Agree (Related R Q) (M.next s e) (M'.next s' e) := by
  cases e with
  | enter x =>
    refine .ok ⟨hs.shared, List.rel_append hs.parties ?_⟩
    exact .cons (h.start _ _ x hs.shared) .nil
  | act i a =>
    have hlen := hs.parties.length_eq
    simp only [Parties.next]
    rcases hl : s.parties[i]? with - | l
    · have hl' : s'.parties[i]? = none := by
        rw [List.getElem?_eq_none_iff] at hl ⊢
        omega
      rw [hl']
      exact .ok hs
    · obtain ⟨l', hl', hq⟩ := forall₂_getElem? hs.parties hl
      rw [hl']
      have hstep := h.step _ _ _ _ a hs.shared hq
      have hG := h.guarantee s.shared l a
      simp only
      generalize M.step s.shared l a = x, M'.step s'.shared l' a = x' at hstep hG ⊢
      cases hstep with
      | stop e => exact .stop e
      | ok hr =>
        refine .ok ⟨hr.1, forall₂_set (hs.parties.imp ?_) hr.2 i⟩
        exact fun m m' hm => h.stable _ _ m m' hm (hG _ _ rfl)

theorem Refines.run (h : Refines M M' R G Q) {s : State σ lam} {s' : State σ' lam'}
    (hs : Related R Q s s') (evs : List (Event ι act)) :
    Agree (Related R Q) (Run.run M.next s evs) (Run.run M'.next s' evs) :=
  agree_run (fun _ _ e hst => h.next hst e) hs evs

end Parties
