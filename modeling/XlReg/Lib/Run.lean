import Mathlib

/-! Runs of a step function that may stop. An invariant is proved from what one step
preserves; a condition on the steps of a run, or a property of each of them, is `Along`. -/

namespace Run

variable {S E X : Type} (next : S → E → Except X S)

/-- The state after all of `evs`, or the first stop met on the way. -/
def run (s : S) (evs : List E) : Except X S := evs.foldlM next s

theorem run_cons (s : S) (e : E) (evs : List E) :
    run next s (e :: evs) = (next s e).bind fun s' => run next s' evs := by
  simp only [run, List.foldlM_cons]; rfl

variable {next}

theorem bind_ok {α β : Type} {x : Except X α} {f : α → Except X β} {b : β}
    (h : x.bind f = .ok b) : ∃ a, x = .ok a ∧ f a = .ok b := by
  cases x with
  | error e => cases h
  | ok a => exact ⟨a, rfl, h⟩

theorem map_ok {α β : Type} {x : Except X α} {f : α → β} {b : β} (h : x.map f = .ok b) :
    ∃ a, x = .ok a ∧ f a = b := by
  cases x with
  | error e => cases h
  | ok a => exact ⟨a, rfl, Except.ok.inj h⟩

theorem run_cons_ok {s s' : S} {e : E} {evs : List E} (h : run next s (e :: evs) = .ok s') :
    ∃ s1, next s e = .ok s1 ∧ run next s1 evs = .ok s' := by
  rw [run_cons] at h
  exact bind_ok h

theorem run_cons_of_ok {s s' : S} {e : E} (h : next s e = .ok s') (evs : List E) :
    run next s (e :: evs) = run next s' evs := by
  rw [run_cons, h]
  rfl

theorem run_append (s : S) (evs evs' : List E) :
    run next s (evs ++ evs') = (run next s evs).bind fun s' => run next s' evs' := by
  simp only [run, List.foldlM_append]; rfl

theorem run_snoc_ok {s s' : S} {evs : List E} {e : E} (h : run next s (evs ++ [e]) = .ok s') :
    ∃ s1, run next s evs = .ok s1 ∧ next s1 e = .ok s' := by
  rw [run_append] at h
  obtain ⟨s1, h1, h2⟩ := bind_ok h
  obtain ⟨s2, h2, h3⟩ := run_cons_ok h2
  cases h3
  exact ⟨s1, h1, h2⟩

variable (next)

/-- `P` holds of every step a run takes: of the state before it and of its event. -/
def Along (P : S → E → Prop) : S → List E → Prop
  | _, [] => True
  | s, e :: evs => P s e ∧ ∀ s', next s e = .ok s' → Along P s' evs

variable {next}

theorem along_of {P : S → E → Prop} (h : ∀ s e, P s e) (s : S) (evs : List E) : Along next P s evs := by
  induction evs generalizing s with
  | nil => trivial
  | cons e evs ih => exact ⟨h s e, fun s' _ => ih s'⟩

/-- The condition, read off the places where a run can be cut. -/
theorem along_iff {P : S → E → Prop} {s : S} {evs : List E} :
    Along next P s evs ↔
      ∀ pre e post s1, evs = pre ++ e :: post → run next s pre = .ok s1 → P s1 e := by
  induction evs generalizing s with
  | nil =>
    refine ⟨fun _ pre e post s1 heq => ?_, fun _ => trivial⟩
    cases pre <;> cases heq
  | cons a evs ih =>
    constructor
    · rintro ⟨hP, hrest⟩ pre e post s1 heq hr
      rcases pre with - | ⟨b, pre⟩
      · obtain ⟨rfl, -⟩ := List.cons.inj heq
        cases hr
        exact hP
      · obtain ⟨rfl, htail⟩ := List.cons.inj heq
        obtain ⟨s2, h1, h2⟩ := run_cons_ok hr
        exact ih.1 (hrest s2 h1) pre e post s1 htail h2
    · intro h
      refine ⟨h [] a evs s rfl rfl, fun s' hs => ih.2 fun pre e post s1 heq hr => ?_⟩
      apply h (a :: pre) e post s1 (by rw [heq]; rfl)
      rw [run_cons, hs]
      exact hr

/-- What the condition along a run lets each step preserve holds at the end of it. -/
theorem along_inv {P : S → E → Prop} {I : S → Prop}
    (hstep : ∀ s e s', I s → P s e → next s e = .ok s' → I s') :
    ∀ {evs : List E} {s s' : S}, I s → Along next P s evs → run next s evs = .ok s' → I s' := by
  intro evs
  induction evs with
  | nil => intro s s' hi _ hr; cases hr; exact hi
  | cons e evs ih =>
    intro s s' hi ha hr
    obtain ⟨s1, h1, h2⟩ := run_cons_ok hr
    exact ih (hstep s e s1 hi ha.1 h1) (ha.2 s1 h1) h2

theorem run_inv {I : S → Prop} (hstep : ∀ s e s', I s → next s e = .ok s' → I s')
    {evs : List E} {s s' : S} (hi : I s) (hr : run next s evs = .ok s') : I s' := by
  induction evs generalizing s with
  | nil => cases hr; exact hi
  | cons e evs ih =>
    obtain ⟨s1, h1, h2⟩ := run_cons_ok hr
    exact ih (hstep s e s1 hi h1) h2

/-- An invariant that speaks of the events so far as well. -/
theorem run_history {I : List E → S → Prop} {s : S} (h0 : I [] s)
    (hstep : ∀ pre s1 e s2, run next s pre = .ok s1 → I pre s1 → next s1 e = .ok s2 →
      I (pre ++ [e]) s2) {evs : List E} {s' : S} (hr : run next s evs = .ok s') : I evs s' := by
  induction evs using List.reverseRecOn generalizing s' with
  | nil => cases hr; exact h0
  | append_singleton pre e ih =>
    obtain ⟨s1, h1, h2⟩ := run_snoc_ok hr
    exact hstep pre s1 e s' h1 (ih h1) h2

/-- Some step of a run had `P`, in the state it was taken in. -/
def Once (next : S → E → Except X S) (P : S → E → Prop) (s : S) (evs : List E) : Prop :=
  ∃ pre e post s1, evs = pre ++ e :: post ∧ run next s pre = .ok s1 ∧ P s1 e

theorem once_nil {P : S → E → Prop} {s : S} : ¬ Once next P s [] := by
  rintro ⟨pre, e, post, s1, heq, -⟩
  cases pre <;> cases heq

theorem once_snoc {P : S → E → Prop} {s s1 : S} {evs : List E} {e : E} (hr : run next s evs = .ok s1) :
    Once next P s (evs ++ [e]) ↔ Once next P s evs ∨ P s1 e := by
  constructor
  · rintro ⟨pre, a, post, s2, heq, hr2, hP⟩
    induction post using List.reverseRecOn with
    | nil =>
      obtain ⟨rfl, rfl⟩ := List.append_singleton_inj.1 heq
      rw [hr] at hr2
      cases hr2
      exact .inr hP
    | append_singleton post b _ =>
      rw [← List.cons_append, ← List.append_assoc] at heq
      obtain ⟨rfl, -⟩ := List.append_singleton_inj.1 heq
      exact .inl ⟨pre, a, post, s2, rfl, hr2, hP⟩
  · rintro (⟨pre, a, post, s2, rfl, hr2, hP⟩ | hP)
    · exact ⟨pre, a, post ++ [e], s2, by simp, hr2, hP⟩
    · exact ⟨evs, e, [], s1, rfl, hr, hP⟩

/-- A relation between the ends of a run, from one between the ends of each step. -/
theorem run_rel {R : S → S → Prop} (hrefl : ∀ s, R s s) (htrans : ∀ a b c, R a b → R b c → R a c)
    (hstep : ∀ s e s', next s e = .ok s' → R s s') {evs : List E} {s s' : S}
    (hr : run next s evs = .ok s') : R s s' :=
  run_inv (I := R s) (fun a e b hi h => htrans s a b hi (hstep a e b h)) (hrefl s) hr

/-- Two step properties that an invariant makes equivalent hold along the same runs. -/
theorem along_congr {P Q : S → E → Prop} {I : S → Prop}
    (hstep : ∀ s e s', I s → next s e = .ok s' → I s') (hiff : ∀ s e, I s → (P s e ↔ Q s e))
    {evs : List E} {s : S} (hi : I s) : Along next P s evs ↔ Along next Q s evs := by
  induction evs generalizing s with
  | nil => exact Iff.rfl
  | cons e evs ih =>
    simp only [Along]
    rw [hiff s e hi]
    exact and_congr_right fun _ => forall_congr' fun s' =>
      imp_congr_right fun h => ih (hstep s e s' hi h)

/-- Where an invariant makes `P` the condition for a step not to stop, a run gets to its end exactly
if `P` holds along it. -/
theorem run_ok_iff_along {P : S → E → Prop} {I : S → Prop}
    (hstep : ∀ s e s', I s → next s e = .ok s' → I s')
    (hiff : ∀ s e, I s → ((∃ s', next s e = .ok s') ↔ P s e)) {evs : List E} {s : S} (hi : I s) :
    (∃ s', run next s evs = .ok s') ↔ Along next P s evs := by
  induction evs generalizing s with
  | nil => exact ⟨fun _ => trivial, fun _ => ⟨s, rfl⟩⟩
  | cons e evs ih =>
    constructor
    · rintro ⟨s', hr⟩
      obtain ⟨s1, h1, h2⟩ := run_cons_ok hr
      refine ⟨(hiff s e hi).1 ⟨s1, h1⟩, fun s2 hs2 => ?_⟩
      rw [h1] at hs2
      cases hs2
      exact (ih (hstep s e s1 hi h1)).1 ⟨s', h2⟩
    · rintro ⟨hP, hrest⟩
      obtain ⟨s1, h1⟩ := (hiff s e hi).2 hP
      rw [run_cons_of_ok h1]
      exact (ih (hstep s e s1 hi h1)).2 (hrest s1 h1)

/-- On a concrete run, a decidable condition along it can be evaluated. -/
def decidableAlong {P : S → E → Prop} [∀ s e, Decidable (P s e)] :
    ∀ (s : S) (evs : List E), Decidable (Along next P s evs)
  | _, [] => isTrue trivial
  | s, e :: evs =>
    match h : next s e with
    | .error x => decidable_of_iff (P s e) (by simp [Along, h])
    | .ok s' =>
      have : Decidable (Along next P s' evs) := decidableAlong s' evs
      decidable_of_iff (P s e ∧ Along next P s' evs) (by simp [Along, h])

instance {P : S → E → Prop} [∀ s e, Decidable (P s e)] (s : S) (evs : List E) :
    Decidable (Along next P s evs) :=
  decidableAlong s evs

/-- `Q` holds of every state a run gets to, the first one included. -/
def Always (next : S → E → Except X S) (Q : S → Prop) (s : S) (evs : List E) : Prop :=
  ∀ pre post s', evs = pre ++ post → run next s pre = .ok s' → Q s'

theorem always_nil {Q : S → Prop} {s : S} : Always next Q s [] ↔ Q s := by
  refine ⟨fun h => h [] [] s rfl rfl, fun h pre post s' heq hr => ?_⟩
  obtain ⟨rfl, -⟩ := List.append_eq_nil_iff.1 heq.symm
  cases hr
  exact h

theorem always_cons {Q : S → Prop} {s : S} {e : E} {evs : List E} :
    Always next Q s (e :: evs) ↔ Q s ∧ ∀ s', next s e = .ok s' → Always next Q s' evs := by
  constructor
  · intro h
    refine ⟨h [] _ s rfl rfl, ?_⟩
    intro s1 hs pre post s' heq hr
    apply h (e :: pre) post s' (by rw [heq]; rfl)
    rw [run_cons, hs]
    exact hr
  · rintro ⟨hq, h⟩ pre post s' heq hr
    cases pre with
    | nil => cases hr; exact hq
    | cons a pre =>
      obtain ⟨rfl, htail⟩ := List.cons.inj heq
      obtain ⟨s1, h1, h2⟩ := run_cons_ok hr
      exact h s1 h1 pre post s' htail h2

/-- Steps that meet `P` keep the invariant `I`, and one that does not leads out of `Q`: then `Q`
holds throughout exactly the runs along which `P` holds. -/
theorem always_iff_along {P : S → E → Prop} {I Q : S → Prop} (hQ : ∀ s, I s → Q s)
    (hstep : ∀ s e s', I s → P s e → next s e = .ok s' → I s')
    (hbreak : ∀ s e, I s → ¬ P s e → ∃ s', next s e = .ok s' ∧ ¬ Q s')
    {evs : List E} {s : S} (hi : I s) : Always next Q s evs ↔ Along next P s evs := by
  induction evs generalizing s with
  | nil => exact ⟨fun _ => trivial, fun _ => always_nil.2 (hQ s hi)⟩
  | cons e evs ih =>
    rw [always_cons]
    constructor
    · rintro ⟨-, h⟩
      have hP : P s e := by
        by_contra hno
        obtain ⟨s', hs, hout⟩ := hbreak s e hi hno
        exact hout (h s' hs [] evs s' rfl rfl)
      exact ⟨hP, fun s' hs => (ih (hstep s e s' hi hP hs)).1 (h s' hs)⟩
    · rintro ⟨hP, h⟩
      exact ⟨hQ s hi, fun s' hs => (ih (hstep s e s' hi hP hs)).2 (h s' hs)⟩

/-- A run that can be computed: it gets to its end, and `p` is true there. -/
def ends (next : S → E → Except X S) (s : S) (evs : List E) (p : S → Bool) : Bool :=
  match run next s evs with
  | .ok s' => p s'
  | .error _ => false

theorem exists_of_ends (next : S → E → Except X S) (s : S) (evs : List E) (p : S → Bool)
    (h : ends next s evs p = true) : ∃ s', run next s evs = .ok s' ∧ p s' = true := by
  unfold ends at h
  cases hr : run next s evs with
  | error x => rw [hr] at h; cases h
  | ok s' => rw [hr] at h; exact ⟨s', rfl, h⟩

/-- Why a computation stopped, if it did. -/
def stop {α : Type} : Except X α → Option X
  | .error x => some x
  | .ok _ => none

theorem stop_eq_some {α : Type} {r : Except X α} {x : X} (h : stop r = some x) : r = .error x := by
  cases r with
  | error y => cases h; rfl
  | ok a => cases h

/-- A loop that goes on after a stop: the steps that stop are skipped, and each step overwrites what
is known of the one before. -/
def attempts (next : S → E → Except X S) (r : S × Option X) (evs : List E) : S × Option X :=
  evs.foldl (fun r e =>
    match next r.1 e with
    | .error x => (r.1, some x)
    | .ok s => (s, none)) r

theorem attempts_cons (r : S × Option X) (e : E) (evs : List E) :
    attempts next r (e :: evs) = attempts next (match next r.1 e with
      | .error x => (r.1, some x)
      | .ok s => (s, none)) evs := rfl

/-- Where there is a step, nothing is left of what was known before. -/
theorem attempts_start (s : S) (x y : Option X) {evs : List E} (hne : evs ≠ []) :
    attempts next (s, x) evs = attempts next (s, y) evs := by
  cases evs with
  | nil => exact absurd rfl hne
  | cons e evs => rfl

/-- If no step stops, it ends as a run does, and without a stop if there was a step. -/
theorem attempts_of_run {s s' : S} {evs : List E} (h : run next s evs = .ok s') (x : Option X)
    (hne : evs ≠ []) : attempts next (s, x) evs = (s', none) := by
  induction evs generalizing s x with
  | nil => exact absurd rfl hne
  | cons e evs ih =>
    obtain ⟨s1, h1, h2⟩ := run_cons_ok h
    rw [attempts_cons]
    simp only [h1]
    by_cases hev : evs = []
    · subst hev
      cases h2
      rfl
    · exact ih h2 none hev

end Run
