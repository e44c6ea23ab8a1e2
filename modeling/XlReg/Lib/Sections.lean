import XlReg.Lib.Run

/-! Programs that work on a shared state in sections. A section is atomic; between two sections
others may act. A program that is left alone is the function `run`; `Meets` is what it relies on and
what it guarantees when it is not, with a rule for each way of putting programs together. -/

/-- A program: it has ended, it has stopped for a reason, or its next section changes the state and
goes on in a way that depends on what it has met. -/
inductive Code (σ X α : Type)
  | done (a : α)
  | stop (x : X)
  | sect (op : σ → Except X σ) (next : σ → Code σ X α)

namespace Code

variable {σ X α β : Type}

def bind : Code σ X α → (α → Code σ X β) → Code σ X β
  | .done a, f => f a
  | .stop x, _ => .stop x
  | .sect op next, f => .sect op fun s => (next s).bind f

def atomically (f : σ → Except X (σ × α)) : Code σ X α :=
  .sect (fun s => (f s).map Prod.fst) fun s =>
    match f s with
    | .error x => .stop x
    | .ok r => .done r.2

def run : Code σ X α → σ → Except X (σ × α)
  | .done a, s => .ok (s, a)
  | .stop x, _ => .error x
  | .sect op next, s =>
    match op s with
    | .error x => .error x
    | .ok s' => (next s).run s'

def step : Code σ X α → σ → Except X (σ × Code σ X α)
  | .done a, s => .ok (s, .done a)
  | .stop x, _ => .error x
  | .sect op next, s =>
    match op s with
    | .error x => .error x
    | .ok s' => .ok (s', next s)

@[simp] theorem run_done (a : α) (s : σ) : (Code.done a : Code σ X α).run s = .ok (s, a) := rfl

@[simp] theorem run_atomically (f : σ → Except X (σ × α)) (s : σ) : (atomically f).run s = f s := by
  simp only [atomically, run]
  rcases f s with x | r
  · rfl
  · rfl

theorem run_bind (p : Code σ X α) (f : α → Code σ X β) (s : σ) :
    (p.bind f).run s = (p.run s).bind fun r => (f r.2).run r.1 := by
  induction p generalizing s with
  | done a => rfl
  | stop x => rfl
  | sect op next ih =>
    simp only [bind, run]
    rcases op s with x | s'
    · rfl
    · exact ih s s'

theorem run_atomically_bind (f : σ → Except X (σ × α)) (g : α → Code σ X β) (s : σ) :
    ((atomically f).bind g).run s = (f s).bind fun r => (g r.2).run r.1 := by
  rw [run_bind, run_atomically]

/-! Interference. -/

/-- Others may act between the sections of the program, within `R`. Whatever they do, each section
changes the state within `G`, the program stops only as `E` allows and it ends only as `Q` says. All
but `R` may speak of the states that the program's sections have met; `Q` speaks also of the state
that the last of them left, and of the result. -/
def Meets (R : σ → σ → Prop) (G : List σ → σ → σ → Prop) (E : List σ → X → Prop)
    (Q : List σ → σ → α → Prop) : Code σ X α → List σ → σ → Prop
  | .done a, met, s => Q met s a
  | .stop x, met, _ => E met x
  | .sect op next, met, s => ∀ w, R s w → (∀ x, op w = .error x → E (met ++ [w]) x) ∧
      ∀ t, op w = .ok t → G met w t ∧ (next w).Meets R G E Q (met ++ [w]) t

variable {R : σ → σ → Prop} {G : List σ → σ → σ → Prop} {E : List σ → X → Prop}

theorem Meets.bind {p : Code σ X α} {f : α → Code σ X β} {Q : List σ → σ → β → Prop} {met : List σ}
    {s : σ} (h : p.Meets R G E (fun met t a => (f a).Meets R G E Q met t) met s) :
    (p.bind f).Meets R G E Q met s := by
  induction p generalizing met s with
  | done a => exact h
  | stop x => exact h
  | sect op next ih =>
    intro w hw
    obtain ⟨herr, hok⟩ := h w hw
    exact ⟨herr, fun t ht => ⟨(hok t ht).1, ih w (hok t ht).2⟩⟩

theorem meets_atomically {f : σ → Except X (σ × α)} {Q : List σ → σ → α → Prop} {met : List σ} {s : σ}
    (herr : ∀ w x, R s w → f w = .error x → E (met ++ [w]) x)
    (hok : ∀ w t a, R s w → f w = .ok (t, a) → G met w t ∧ Q (met ++ [w]) t a) :
    (atomically f).Meets R G E Q met s := by
  refine fun w hw => ⟨fun x hx => ?_, fun t ht => ?_⟩
  · change (f w).map Prod.fst = .error x at hx
    cases hf : f w with
    | error y =>
      rw [hf] at hx
      cases hx
      exact herr w _ hw hf
    | ok r =>
      rw [hf] at hx
      cases hx
  · obtain ⟨r, hr, rfl⟩ := Run.map_ok ht
    simp only [hr]
    exact hok w r.1 r.2 hw hr

theorem meets_section {f : σ → Except X (σ × α)} {g : α → Code σ X β} {Q : List σ → σ → β → Prop}
    {met : List σ} {s : σ} (herr : ∀ w x, R s w → f w = .error x → E (met ++ [w]) x)
    (hok : ∀ w t a, R s w → f w = .ok (t, a) → G met w t ∧ (g a).Meets R G E Q (met ++ [w]) t) :
    ((atomically f).bind g).Meets R G E Q met s :=
  .bind (meets_atomically herr hok)

theorem Meets.step {p p' : Code σ X α} {Q : List σ → σ → α → Prop} {met : List σ} {s w t : σ}
    (h : p.Meets R G E Q met s) (hw : R s w) (hp : ∀ a, p ≠ .done a) (hs : p.step w = .ok (t, p')) :
    G met w t ∧ p'.Meets R G E Q (met ++ [w]) t := by
  cases p with
  | done a => exact absurd rfl (hp a)
  | stop x => cases hs
  | sect op next =>
    simp only [Code.step] at hs
    cases ho : op w with
    | error x => simp only [ho] at hs; cases hs
    | ok t' =>
      simp only [ho] at hs
      cases hs
      exact (h w hw).2 _ ho

theorem Meets.stopped {p : Code σ X α} {Q : List σ → σ → α → Prop} {met : List σ} {s w : σ} {x : X}
    (h : p.Meets R G E Q met s) (hw : R s w) (hs : p.step w = .error x) :
    E met x ∨ E (met ++ [w]) x := by
  cases p with
  | done a => cases hs
  | stop y =>
    cases hs
    exact .inl h
  | sect op next =>
    simp only [Code.step] at hs
    cases ho : op w with
    | error y =>
      simp only [ho] at hs
      cases hs
      exact .inr ((h w hw).1 _ ho)
    | ok t =>
      simp only [ho] at hs
      cases hs

end Code
