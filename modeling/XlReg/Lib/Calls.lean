import XlReg.Lib.Parties

/-! Calls as parties: each enters with an argument and has a result once it has returned. A run
is linearizable if the calls that have returned, made one after the other in an order that keeps
apart calls which did not overlap, have the same results and lead to a state that agrees with the
one reached. Where each call takes effect in the step in which it returns, the order of the
returns is such an order (`ReturnSimulation.linearizable`). -/

namespace Parties

variable {σ ι lam act X ρ α : Type}

/-- The calls of a system of parties. One that has returned takes no further action. -/
structure Calls (M : Parties σ ι lam act X) (ρ : Type) where
  arg : lam → ι
  result : lam → Option ρ
  start_arg : ∀ x, arg (M.start x) = x
  start_result : ∀ x, result (M.start x) = none
  step_arg : ∀ s l a s' l', M.step s l a = .ok (s', l') → arg l' = arg l
  step_result : ∀ s l a s' l' r, M.step s l a = .ok (s', l') → result l = some r → s' = s ∧ l' = l

namespace Calls

variable {M : Parties σ ι lam act X} (C : M.Calls ρ)

/-- Argument and result of the call `i`, if it has returned. -/
def returned (s : State σ lam) (i : ℕ) : Option (ι × ρ) :=
  s.parties[i]?.bind fun l => (C.result l).map fun r => (C.arg l, r)

variable {C}

theorem lt_of_returned {s : State σ lam} {i : ℕ} (h : C.returned s i ≠ none) : i < s.parties.length := by
  by_contra hge
  apply h
  rw [returned, List.getElem?_eq_none (Nat.not_lt.1 hge)]
  rfl

theorem returned_enter (s : State σ lam) (x : ι) :
    C.returned { s with parties := s.parties ++ [M.start x] } = C.returned s := by
  funext i
  unfold returned
  rcases Nat.lt_trichotomy i s.parties.length with hlt | rfl | hgt
  · rw [List.getElem?_append_left hlt]
  · simp [C.start_result]
  · rw [List.getElem?_eq_none (by simpa using hgt), List.getElem?_eq_none (Nat.le_of_lt hgt)]

theorem returned_set {s : State σ lam} {i : ℕ} {l l' : lam} (hl : s.parties[i]? = some l) (sh : σ) (j : ℕ) :
    C.returned ⟨sh, s.parties.set i l'⟩ j =
      if j = i then (C.result l').map fun r => (C.arg l', r) else C.returned s j := by
  have hlt : i < s.parties.length := (List.getElem?_eq_some_iff.1 hl).1
  unfold returned
  split_ifs with hj
  · rw [hj, List.getElem?_set_self hlt]
    rfl
  · rw [List.getElem?_set_ne (Ne.symm hj)]

theorem returned_of {s : State σ lam} {i : ℕ} {l : lam} (hl : s.parties[i]? = some l) :
    C.returned s i = (C.result l).map fun r => (C.arg l, r) := by
  rw [returned, hl]
  rfl

theorem returned_next {s s' : State σ lam} {e : Event ι act} (h : M.next s e = .ok s') {j : ℕ}
    {v : ι × ρ} (hv : C.returned s j = some v) : C.returned s' j = some v := by
  rcases next_cases h with ⟨x, rfl, rfl⟩ | ⟨i, a, rfl, -, rfl⟩ | ⟨i, a, l, sh, l', rfl, hp, hs, rfl⟩
  · rw [returned_enter]
    exact hv
  · exact hv
  · rw [returned_set hp]
    split_ifs with hj
    · rw [hj, returned_of hp] at hv
      obtain ⟨r, hr, rfl⟩ := Option.map_eq_some_iff.1 hv
      obtain ⟨-, rfl⟩ := C.step_result _ _ _ _ _ r hs hr
      rw [hr]
      rfl
    · exact hv

theorem returned_run {s s' : State σ lam} {evs : List (Event ι act)}
    (h : Run.run M.next s evs = .ok s') {i : ℕ} {v : ι × ρ} (hv : C.returned s i = some v) :
    C.returned s' i = some v :=
  Run.run_inv (I := fun s => C.returned s i = some v) (fun _ _ _ hs hn => returned_next hn hs) hv h

end Calls

/-- The calls with the given arguments and results, whole and one after the other, lead from one
state of a sequential specification to another. -/
inductive Replays (spec : α → ι → ρ → α → Prop) (call : ℕ → Option (ι × ρ)) (a₀ : α) : List ℕ → α → Prop
  | nil : Replays spec call a₀ [] a₀
  | snoc {is : List ℕ} {a a' : α} {i : ℕ} {x : ι} {r : ρ} (before : Replays spec call a₀ is a)
      (called : call i = some (x, r)) (whole : spec a x r a') : Replays spec call a₀ (is ++ [i]) a'

variable {spec : α → ι → ρ → α → Prop}

theorem Replays.mono {call call' : ℕ → Option (ι × ρ)} {a₀ a : α} {is : List ℕ}
    (hcall : ∀ i v, call i = some v → call' i = some v) (h : Replays spec call a₀ is a) :
    Replays spec call' a₀ is a := by
  induction h with
  | nil => exact .nil
  | snoc _ called whole ih => exact .snoc ih (hcall _ _ called) whole

/-- What each whole call ensures holds of all of them. -/
theorem Replays.ensures {call : ℕ → Option (ι × ρ)} {a₀ a : α} {is : List ℕ} {I : α → Prop}
    {Q : ι → ρ → Prop} (hspec : ∀ a x r a', I a → spec a x r a' → I a' ∧ Q x r) (h₀ : I a₀)
    (h : Replays spec call a₀ is a) : I a ∧ ∀ i ∈ is, ∀ x r, call i = some (x, r) → Q x r := by
  induction h with
  | nil => exact ⟨h₀, fun i hi => absurd hi List.not_mem_nil⟩
  | @snoc is a a' i x r _ called whole ih =>
    obtain ⟨hI, hQ⟩ := hspec a x r a' ih.1 whole
    refine ⟨hI, fun j hj y q hcall => ?_⟩
    rcases List.mem_append.1 hj with hj | hj
    · exact ih.2 j hj y q hcall
    · rw [List.mem_singleton.1 hj, called] at hcall
      cases hcall
      exact hQ

/-- After the events `evs` from `s₀`, the order is a linearization of the state `s`: it has the
calls that have returned, each once; made one after the other they lead from `a₀` to a state that
agrees with `s`; and a call that had returned before another entered comes before it. -/
structure Linearizes {M : Parties σ ι lam act X} (C : M.Calls ρ) (spec : α → ι → ρ → α → Prop)
    (agrees : σ → α → Prop) (s₀ : State σ lam) (a₀ : α) (evs : List (Event ι act)) (s : State σ lam)
    (order : List ℕ) (a : α) : Prop where
  nodup : order.Nodup
  complete : ∀ i, i ∈ order ↔ C.returned s i ≠ none
  replay : Replays spec (C.returned s) a₀ order a
  agrees : agrees s.shared a
  realtime : ∀ pre post s₁ i j, evs = pre ++ post → Run.run M.next s₀ pre = .ok s₁ →
    C.returned s₁ i ≠ none → s₁.parties.length ≤ j → j ∈ order → [i, j].Sublist order

def Linearizable {M : Parties σ ι lam act X} (C : M.Calls ρ) (spec : α → ι → ρ → α → Prop)
    (agrees : σ → α → Prop) (s₀ : State σ lam) (a₀ : α) (evs : List (Event ι act)) (s : State σ lam) :
    Prop :=
  ∃ order a, Linearizes C spec agrees s₀ a₀ evs s order a

/-- A relation between the states of the system and of the specification that every action keeps
if it meets `P`, where the action in which a call returns is the whole call of the specification
and the others are nothing. -/
structure ReturnSimulation {M : Parties σ ι lam act X} (C : M.Calls ρ) (P : σ → lam → act → Prop)
    (spec : α → ι → ρ → α → Prop) (R : State σ lam → α → Prop) : Prop where
  enter : ∀ s a x, R s a → R { s with parties := s.parties ++ [M.start x] } a
  act : ∀ s a i l c sh l', R s a → s.parties[i]? = some l → C.result l = none → P s.shared l c →
    M.step s.shared l c = .ok (sh, l') →
    ∃ a', R ⟨sh, s.parties.set i l'⟩ a' ∧
      match C.result l' with
      | none => a' = a
      | some r => spec a (C.arg l) r a'

section Simulation

variable {M : Parties σ ι lam act X} {C : M.Calls ρ} {P : σ → lam → act → Prop}
  {R : State σ lam → α → Prop} {agrees : σ → α → Prop}

theorem ReturnSimulation.next (hS : ReturnSimulation C P spec R) {s s' : State σ lam} {a : α}
    {e : Event ι act} (hR : R s a) (hP : On P s e) (h : M.next s e = .ok s') :
    (C.returned s' = C.returned s ∧ R s' a) ∨
    ∃ i x r a', C.returned s i = none ∧ C.returned s' i = some (x, r) ∧
      (∀ j, j ≠ i → C.returned s' j = C.returned s j) ∧ spec a x r a' ∧ R s' a' := by
  rcases next_cases h with ⟨x, rfl, rfl⟩ | ⟨i, c, rfl, -, rfl⟩ | ⟨i, c, l, sh, l', rfl, hp, hs, rfl⟩
  · exact .inl ⟨Calls.returned_enter s x, hS.enter s a x hR⟩
  · exact .inl ⟨rfl, hR⟩
  · rcases hr : C.result l with - | r
    · obtain ⟨a', hR', hres⟩ := hS.act s a i l c sh l' hR hp hr (hP l hp) hs
      have hother : ∀ j, j ≠ i → C.returned ⟨sh, s.parties.set i l'⟩ j = C.returned s j := by
        intro j hj
        rw [Calls.returned_set hp, if_neg hj]
      have hself : C.returned ⟨sh, s.parties.set i l'⟩ i = (C.result l').map fun r => (C.arg l', r) := by
        rw [Calls.returned_set hp, if_pos rfl]
      have hnone : C.returned s i = none := by
        rw [Calls.returned_of hp, hr]
        rfl
      rcases hr' : C.result l' with - | r'
      · rw [hr'] at hres hself
        subst hres
        refine .inl ⟨funext fun j => ?_, hR'⟩
        by_cases hj : j = i
        · rw [hj, hself, hnone]
          rfl
        · exact hother j hj
      · rw [hr'] at hres hself
        rw [C.step_arg _ _ _ _ _ hs] at hself
        exact .inr ⟨i, C.arg l, r', a', hnone, hself, hother, hres, hR'⟩
    · -- a call that has returned leaves everything as it is
      obtain ⟨rfl, rfl⟩ := C.step_result _ _ _ _ _ r hs hr
      have hsame : s.parties.set i l' = s.parties := by
        obtain ⟨hlt, rfl⟩ := List.getElem?_eq_some_iff.1 hp
        exact List.set_getElem_self hlt
      left
      rw [hsame]
      exact ⟨rfl, hR⟩

/-- One more event, in which the calls of `new` have returned. -/
theorem Linearizes.snoc {s₀ s s' : State σ lam} {a₀ a a' : α} {evs : List (Event ι act)} {e : Event ι act}
    {order : List ℕ} (new : List ℕ) (hL : Linearizes C spec agrees s₀ a₀ evs s order a)
    (hr : Run.run M.next s₀ evs = .ok s) (hn : M.next s e = .ok s') (hnodup : (order ++ new).Nodup)
    (hcomplete : ∀ i, i ∈ order ++ new ↔ C.returned s' i ≠ none)
    (hreplay : Replays spec (C.returned s') a₀ (order ++ new) a') (hagrees : agrees s'.shared a') :
    Linearizes C spec agrees s₀ a₀ (evs ++ [e]) s' (order ++ new) a' := by
  refine ⟨hnodup, hcomplete, hreplay, hagrees, ?_⟩
  intro pre post s₁ i j heq hpre hi hj hmem
  rcases List.eq_nil_or_concat post with rfl | ⟨post, b, rfl⟩
  · -- the run so far has nobody who has not entered
    rw [List.append_nil] at heq
    subst heq
    have hs : s₁ = s' := by
      rw [Run.run_append, hr] at hpre
      obtain ⟨s₂, h₂, h₃⟩ := Run.run_cons_ok hpre
      rw [hn] at h₂
      cases h₂
      cases h₃
      rfl
    have hlt := Calls.lt_of_returned ((hcomplete j).1 hmem)
    rw [← hs] at hlt
    exact absurd hj (Nat.not_le.2 hlt)
  · rw [List.concat_eq_append, ← List.append_assoc] at heq
    obtain ⟨rfl, -⟩ := List.append_singleton_inj.1 heq
    rcases List.mem_append.1 hmem with hold | hnew
    · exact (hL.realtime pre post s₁ i j rfl hpre hi hj hold).trans (List.sublist_append_left _ _)
    · have hrest : Run.run M.next s₁ post = .ok s := by
        rw [Run.run_append, hpre] at hr
        exact hr
      obtain ⟨v, hv⟩ := Option.ne_none_iff_exists'.1 hi
      have hiorder : i ∈ order := by
        apply (hL.complete i).2
        rw [Calls.returned_run hrest hv]
        exact Option.some_ne_none v
      exact (List.singleton_sublist.2 hiorder).append (List.singleton_sublist.2 hnew)

/-- The order of the returns is a linearization. -/
theorem ReturnSimulation.linearizable (hS : ReturnSimulation C P spec R)
    (hagrees : ∀ s a, R s a → agrees s.shared a) {s₀ s : State σ lam} {a₀ : α}
    {evs : List (Event ι act)} (h₀ : R s₀ a₀) (hnone : ∀ i, C.returned s₀ i = none)
    (hP : Run.Along M.next (On P) s₀ evs) (hr : Run.run M.next s₀ evs = .ok s) :
    Linearizable C spec agrees s₀ a₀ evs s := by
  suffices h : Run.Along M.next (On P) s₀ evs →
      ∃ order a, Linearizes C spec agrees s₀ a₀ evs s order a ∧ R s a by
    obtain ⟨order, a, hL, -⟩ := h hP
    exact ⟨order, a, hL⟩
  refine Run.run_history (I := fun evs s => Run.Along M.next (On P) s₀ evs →
    ∃ order a, Linearizes C spec agrees s₀ a₀ evs s order a ∧ R s a) ?_ ?_ hr
  · refine fun _ => ⟨[], a₀, ⟨List.nodup_nil, ?_, .nil, hagrees s₀ a₀ h₀, ?_⟩, h₀⟩
    · intro i
      simp [hnone i]
    · intro pre post s₁ i j _ _ _ _ hj
      exact absurd hj List.not_mem_nil
  · intro pre s₁ e s₂ hpre hI hn hP
    have hcut := Run.along_iff.1 hP
    have hPe : On P s₁ e := hcut pre e [] s₁ rfl hpre
    have hPpre : Run.Along M.next (On P) s₀ pre := by
      apply Run.along_iff.2
      intro pre' e' post s' heq
      exact hcut pre' e' (post ++ [e]) s' (by rw [heq]; simp)
    obtain ⟨order, a, hL, hR⟩ := hI hPpre
    rcases hS.next hR hPe hn with ⟨hsame, hR'⟩ | ⟨i, x, r, a', hnone, hself, hother, hspec, hR'⟩
    · refine ⟨order, a, ?_, hR'⟩
      have hreplay : Replays spec (C.returned s₂) a₀ (order ++ []) a := by
        rw [hsame, List.append_nil]
        exact hL.replay
      have h := Linearizes.snoc [] hL hpre hn (by simpa using hL.nodup)
        (by simpa [hsame] using hL.complete) hreplay (hagrees _ _ hR')
      rwa [List.append_nil] at h
    · refine ⟨order ++ [i], a', Linearizes.snoc [i] hL hpre hn ?_ ?_ ?_ (hagrees _ _ hR'), hR'⟩
      · apply List.nodup_append.2 ⟨hL.nodup, List.nodup_singleton _, ?_⟩
        rintro b hb c hc rfl
        rw [List.mem_singleton.1 hc] at hb
        exact (hL.complete i).1 hb hnone
      · intro j
        rw [List.mem_append, List.mem_singleton, hL.complete]
        by_cases hj : j = i
        · simp [hj, hself]
        · simp [hj, hother j hj]
      · refine .snoc (hL.replay.mono fun j v hv => ?_) hself hspec
        exact Calls.returned_next hn hv

end Simulation

end Parties
