import XlReg.Lib.Run

/-! Any number of parties over one shared state. A party enters with an argument and then
takes actions, each atomic, in any order with the actions of the others. What a party
relies on is what every action guarantees, so an invariant that mentions both the shared
state and one party's own state is proved from single actions (`Contract`). -/

/-- `start` makes the own state of an entering party, `step` is one action of a party. -/
structure Parties (σ ι lam act X : Type) where
  start : ι → lam
  step : σ → lam → act → Except X (σ × lam)

namespace Parties

variable {σ ι lam act X : Type}

structure State (σ lam : Type) where
  shared : σ
  parties : List lam

inductive Event (ι act : Type)
  | enter (x : ι)
  | act (i : ℕ) (a : act)

/-- An event of the system; an action of a party that has not entered is no event at all. -/
def next (M : Parties σ ι lam act X) (s : State σ lam) : Event ι act → Except X (State σ lam)
  | .enter x => .ok { s with parties := s.parties ++ [M.start x] }
  | .act i a =>
    match s.parties[i]? with
    | none => .ok s
    | some l =>
      match M.step s.shared l a with
      | .error e => .error e
      | .ok (sh, l') => .ok ⟨sh, s.parties.set i l'⟩

variable {M : Parties σ ι lam act X}

/-- Everything an event can do. -/
theorem next_cases {s s' : State σ lam} {e : Event ι act} (h : M.next s e = .ok s') :
    (∃ x, e = .enter x ∧ s' = { s with parties := s.parties ++ [M.start x] }) ∨
    (∃ i a, e = .act i a ∧ s.parties[i]? = none ∧ s' = s) ∨
    (∃ i a l sh l', e = .act i a ∧ s.parties[i]? = some l ∧
      M.step s.shared l a = .ok (sh, l') ∧ s' = ⟨sh, s.parties.set i l'⟩) := by
  cases e with
  | enter x => exact .inl ⟨x, rfl, by cases h; rfl⟩
  | act i a =>
    right
    simp only [next] at h
    cases hp : s.parties[i]? with
    | none => simp only [hp] at h; cases h; exact .inl ⟨i, a, rfl, hp, rfl⟩
    | some l =>
      simp only [hp] at h
      cases hs : M.step s.shared l a with
      | error x => simp only [hs] at h; cases h
      | ok p =>
        simp only [hs] at h
        cases h
        exact .inr ⟨i, a, l, p.1, p.2, rfl, hp, hs, rfl⟩

theorem next_act {s : State σ lam} {i : ℕ} {a : act} {l l' : lam} {sh : σ}
    (hl : s.parties[i]? = some l) (hs : M.step s.shared l a = .ok (sh, l')) :
    M.next s (.act i a) = .ok ⟨sh, s.parties.set i l'⟩ := by
  simp only [next, hl, hs]

/-- What the others do leaves a party's own state alone. -/
theorem run_untouched {k : ℕ} {l : lam} {evs : List (Event ι act)} (hk : ∀ a, Event.act k a ∉ evs)
    {s s' : State σ lam} (h : Run.run M.next s evs = .ok s') (hl : s.parties[k]? = some l) :
    s'.parties[k]? = some l := by
  induction evs generalizing s with
  | nil => cases h; exact hl
  | cons e evs ih =>
    obtain ⟨s1, h1, h2⟩ := Run.run_cons_ok h
    refine ih (fun a ha => hk a (List.mem_cons_of_mem _ ha)) h2 ?_
    rcases next_cases h1 with ⟨x, rfl, rfl⟩ | ⟨i, a, rfl, -, rfl⟩ | ⟨i, a, l', sh, l'', rfl, -, -, rfl⟩
    · rw [List.getElem?_append_left (List.getElem?_eq_some_iff.1 hl).1]
      exact hl
    · exact hl
    · have hik : i ≠ k := by
        rintro rfl
        exact hk a List.mem_cons_self
      rw [List.getElem?_set_ne hik]
      exact hl

/-- Replacing one entry of a list moves a sum over it by that entry's part. -/
theorem sum_set {α A : Type} [AddCommMonoid A] {l : List α} {i : ℕ} {a : α} (h : l[i]? = some a)
    (f : α → A) (b : α) : ((l.set i b).map f).sum + f a = (l.map f).sum + f b := by
  obtain ⟨hlt, rfl⟩ := List.getElem?_eq_some_iff.1 h
  have hset := ((List.set_perm_cons_eraseIdx hlt b).map f).sum_eq
  have hold := ((List.getElem_cons_eraseIdx_perm hlt).map f).sum_eq
  rw [hset, ← hold]
  simp only [List.map_cons, List.sum_cons]
  abel

/-- The parts that some entries have, as a sum and as a list. -/
theorem sum_toList {α β : Type} (f : α → Option β) (l : List α) :
    (l.map fun a => (↑(f a).toList : Multiset β)).sum = (l.filterMap f : List β) := by
  rw [List.filterMap_eq_flatMap_toList, ← Multiset.coe_bind]
  rfl

theorem sum_single {α A : Type} [AddMonoid A] {l : List α} {i : ℕ} {a : α} (h : l[i]? = some a) (f : α → A)
    (hzero : ∀ j b, l[j]? = some b → j ≠ i → f b = 0) : (l.map f).sum = f a := by
  induction l generalizing i with
  | nil => cases h
  | cons c l ih =>
    rw [List.map_cons, List.sum_cons]
    cases i with
    | zero =>
      have hrest : (l.map f).sum = 0 := by
        apply List.sum_eq_zero
        intro y hy
        obtain ⟨b, hb, rfl⟩ := List.mem_map.1 hy
        obtain ⟨j, hj⟩ := List.mem_iff_getElem?.1 hb
        exact hzero (j + 1) b hj (by omega)
      cases h
      rw [hrest, add_zero]
    | succ i =>
      rw [hzero 0 c rfl (by omega), zero_add]
      exact ih h fun j b hj hne => hzero (j + 1) b hj (by omega)

/-- The state as another system sees it that knows less of each party. -/
def State.map {lam' : Type} (f : lam → lam') (s : State σ lam) : State σ lam' :=
  ⟨s.shared, s.parties.map f⟩

/-- A system whose actions are those of another one, or do nothing that it sees, has its runs. -/
theorem run_projects {ι' lam' act' : Type} {M' : Parties σ ι' lam' act' X} {f : lam → lam'} {g : ι → ι'}
    (hstart : ∀ x, f (M.start x) = M'.start (g x))
    (hstep : ∀ s l a s' l', M.step s l a = .ok (s', l') →
      (s' = s ∧ f l' = f l) ∨ ∃ a', M'.step s (f l) a' = .ok (s', f l'))
    {evs : List (Event ι act)} {s s' : State σ lam} (h : Run.run M.next s evs = .ok s') :
    ∃ evs', Run.run M'.next (s.map f) evs' = .ok (s'.map f) := by
  induction evs generalizing s with
  | nil => cases h; exact ⟨[], rfl⟩
  | cons e evs ih =>
    obtain ⟨s1, h1, h2⟩ := Run.run_cons_ok h
    obtain ⟨evs', hrest⟩ := ih h2
    rcases next_cases h1 with ⟨x, rfl, rfl⟩ | ⟨i, a, rfl, -, rfl⟩ | ⟨i, a, l, sh, l', rfl, hl, hs, rfl⟩
    · refine ⟨.enter (g x) :: evs', ?_⟩
      have henter : M'.next (s.map f) (.enter (g x)) =
          .ok (State.map f ⟨s.shared, s.parties ++ [M.start x]⟩) := by
        simp [next, State.map, hstart]
      rw [Run.run_cons_of_ok henter]
      exact hrest
    · exact ⟨evs', hrest⟩
    · have hset : (State.map f ⟨sh, s.parties.set i l'⟩) = ⟨sh, (s.parties.map f).set i (f l')⟩ := by
        rw [State.map, List.map_set]
      have hf : (s.parties.map f)[i]? = some (f l) := by rw [List.getElem?_map, hl]; rfl
      rw [hset] at hrest
      rcases hstep _ _ _ _ _ hs with ⟨rfl, hsame⟩ | ⟨a', ha'⟩
      · obtain ⟨hlt, heq⟩ := List.getElem?_eq_some_iff.1 hf
        rw [hsame, ← heq, List.set_getElem_self] at hrest
        exact ⟨evs', hrest⟩
      · refine ⟨.act i a' :: evs', ?_⟩
        rw [Run.run_cons_of_ok (next_act (M := M') hf ha')]
        exact hrest

/-- A condition on actions, as a condition on events. -/
def On (C : σ → lam → act → Prop) (s : State σ lam) : Event ι act → Prop
  | .enter _ => True
  | .act i a => ∀ l, s.parties[i]? = some l → C s.shared l a

theorem on_true (s : State σ lam) (e : Event ι act) : On (fun _ _ _ => True) s e := by
  cases e with
  | enter x => trivial
  | act i a => intro _ _; trivial

/-- The event is an action of which `C` holds. -/
def Does (C : σ → lam → act → Prop) (s : State σ lam) : Event ι act → Prop
  | .enter _ => False
  | .act i a => ∃ l, s.parties[i]? = some l ∧ C s.shared l a

instance {C : σ → lam → act → Prop} [∀ s l a, Decidable (C s l a)] (s : State σ lam) :
    ∀ e : Event ι act, Decidable (On C s e)
  | .enter _ => isTrue trivial
  | .act i a =>
    match h : s.parties[i]? with
    | none => isTrue (by simp [On, h])
    | some l => decidable_of_iff (C s.shared l a) (by simp [On, h])

/-- Equivalent conditions on actions hold along the same runs. -/
theorem along_on_congr {C C' : σ → lam → act → Prop} (h : ∀ s l a, C s l a ↔ C' s l a)
    {evs : List (Event ι act)} {s : State σ lam} :
    Run.Along M.next (On C) s evs ↔ Run.Along M.next (On C') s evs := by
  refine Run.along_congr (I := fun _ => True) (fun _ _ _ _ _ => trivial) (fun s e _ => ?_) trivial
  cases e with
  | enter _ => exact Iff.rfl
  | act i a => exact forall_congr' fun l => imp_congr_right fun _ => h s.shared l a

/-- `I` is kept by the shared state and `J` by each party, as long as the actions meet `C`.
An action changes the shared state only as `G` allows, and `J` survives such changes. -/
structure Contract (M : Parties σ ι lam act X) (C : σ → lam → act → Prop)
    (I : σ → Prop) (G : σ → σ → Prop) (J : σ → lam → Prop) : Prop where
  start : ∀ s x, I s → J s (M.start x)
  step : ∀ s l a s' l', I s → J s l → C s l a → M.step s l a = .ok (s', l') →
    I s' ∧ G s s' ∧ J s' l'
  stable : ∀ s s' l, I s → J s l → G s s' → J s' l

variable {C : σ → lam → act → Prop} {I : σ → Prop} {G : σ → σ → Prop} {J : σ → lam → Prop}

def Holds (I : σ → Prop) (J : σ → lam → Prop) (s : State σ lam) : Prop :=
  I s.shared ∧ ∀ l ∈ s.parties, J s.shared l

theorem Contract.holds_next (c : Contract M C I G J) {s s' : State σ lam} {e : Event ι act}
    (hi : Holds I J s) (hc : On C s e) (h : M.next s e = .ok s') : Holds I J s' := by
  obtain ⟨hI, hJ⟩ := hi
  rcases next_cases h with ⟨x, rfl, rfl⟩ | ⟨i, a, rfl, -, rfl⟩ | ⟨i, a, l, sh, l', rfl, hp, hs, rfl⟩
  · refine ⟨hI, ?_⟩
    intro l hl
    rcases List.mem_append.1 hl with hl | hl
    · exact hJ l hl
    · rw [List.mem_singleton.1 hl]
      exact c.start _ x hI
  · exact ⟨hI, hJ⟩
  · obtain ⟨h1, h2, h3⟩ := c.step _ l a sh l' hI (hJ l (List.mem_of_getElem? hp)) (hc l hp) hs
    refine ⟨h1, ?_⟩
    intro m hm
    rcases List.mem_or_eq_of_mem_set hm with hm | rfl
    · exact c.stable _ _ m hI (hJ m hm) h2
    · exact h3

theorem Contract.holds_of_run (c : Contract M (fun _ _ _ => True) I G J) {s s' : State σ lam}
    {evs : List (Event ι act)} (hi : Holds I J s) (h : Run.run M.next s evs = .ok s') :
    Holds I J s' :=
  Run.run_inv (fun s e _ hs hn => c.holds_next hs (on_true s e) hn) hi h

section Runs

variable (c : Contract M (fun _ _ _ => True) I G J) {s s' : State σ lam}
  {evs : List (Event ι act)} (hi : Holds I J s)
include c hi

/-- Where no action stops, no run does. -/
theorem Contract.run_total (hgo : ∀ s l a, I s → J s l → ∃ r, M.step s l a = .ok r)
    (evs : List (Event ι act)) : ∃ s', Run.run M.next s evs = .ok s' := by
  induction evs generalizing s with
  | nil => exact ⟨s, rfl⟩
  | cons e evs ih =>
    obtain ⟨s1, h1⟩ : ∃ s1, M.next s e = .ok s1 := by
      cases e with
      | enter x => exact ⟨_, rfl⟩
      | act i a =>
        cases hl : s.parties[i]? with
        | none => exact ⟨s, by simp only [next, hl]⟩
        | some l =>
          obtain ⟨r, hr⟩ := hgo _ l a hi.1 (hi.2 l (List.mem_of_getElem? hl))
          exact ⟨_, next_act hl hr⟩
    obtain ⟨s2, h2⟩ := ih (c.holds_next hi (on_true s e) h1)
    exact ⟨s2, by rw [Run.run_cons, h1]; exact h2⟩

/-- Where `C` is the condition for an action not to stop, a run gets to its end exactly if all its
actions meet it. -/
theorem Contract.run_ok_iff
    (hiff : ∀ s l a, I s → J s l → ((∃ r, M.step s l a = .ok r) ↔ C s l a)) :
    (∃ s', Run.run M.next s evs = .ok s') ↔ Run.Along M.next (On C) s evs := by
  refine Run.run_ok_iff_along (I := Holds I J) (fun s e _ hs hn => c.holds_next hs (on_true s e) hn)
    (fun s e hs => ?_) hi
  cases e with
  | enter x => exact ⟨fun _ => trivial, fun _ => ⟨_, rfl⟩⟩
  | act i a =>
    cases hl : s.parties[i]? with
    | none => simp [next, On, hl]
    | some l =>
      have hl' := hiff _ l a hs.1 (hs.2 l (List.mem_of_getElem? hl))
      constructor
      · rintro ⟨s1, h1⟩ m hm
        rw [hl] at hm
        cases hm
        rcases next_cases h1 with ⟨x, he, -⟩ | ⟨j, b, he, hj, -⟩ | ⟨j, b, m, sh, m', he, hj, hst, -⟩
        · cases he
        · cases he
          rw [hl] at hj
          cases hj
        · cases he
          rw [hl] at hj
          cases hj
          exact hl'.1 ⟨_, hst⟩
      · intro hC
        obtain ⟨r, hr⟩ := hl'.2 (hC l hl)
        exact ⟨_, next_act hl hr⟩

theorem Contract.run_guarantee (hrefl : ∀ s, G s s) (htrans : ∀ a b c, G a b → G b c → G a c)
    (h : Run.run M.next s evs = .ok s') : G s.shared s'.shared := by
  have hinv := Run.run_inv (I := fun s1 => Holds I J s1 ∧ G s.shared s1.shared)
    (fun s1 e s2 hs hn => ?_) ⟨hi, hrefl _⟩ h
  · exact hinv.2
  · refine ⟨c.holds_next hs.1 (on_true s1 e) hn, htrans _ _ _ hs.2 ?_⟩
    rcases next_cases hn with ⟨x, rfl, rfl⟩ | ⟨i, a, rfl, -, rfl⟩ | ⟨i, a, l, sh, l', rfl, hp, hst, rfl⟩
    · exact hrefl _
    · exact hrefl _
    · exact (c.step _ l a sh l' hs.1.1 (hs.1.2 l (List.mem_of_getElem? hp)) trivial hst).2.1

/-- An account that every action keeps balanced between the shared state and its party stays so:
the shared state has what the parties have put into it. -/
theorem Contract.run_census {A : Type} [AddCancelCommMonoid A] (total : σ → A) (tally : lam → A)
    (hstart : ∀ x, tally (M.start x) = 0)
    (hstep : ∀ s l a s' l', I s → J s l → M.step s l a = .ok (s', l') →
      total s' + tally l = total s + tally l')
    (h0 : total s.shared = (s.parties.map tally).sum) (h : Run.run M.next s evs = .ok s') :
    total s'.shared = (s'.parties.map tally).sum := by
  have hinv := Run.run_inv
    (I := fun s1 => Holds I J s1 ∧ total s1.shared = (s1.parties.map tally).sum)
    (fun s1 e s2 hs hn => ?_) ⟨hi, h0⟩ h
  · exact hinv.2
  · refine ⟨c.holds_next hs.1 (on_true s1 e) hn, ?_⟩
    obtain ⟨hh, hbal⟩ := hs
    rcases next_cases hn with ⟨x, rfl, rfl⟩ | ⟨i, a, rfl, -, rfl⟩ | ⟨i, a, l, sh, l', rfl, hp, hst, rfl⟩
    · simp [hbal, hstart]
    · exact hbal
    · have hmove := hstep _ l a sh l' hh.1 (hh.2 l (List.mem_of_getElem? hp)) hst
      have hset := sum_set hp tally l'
      apply add_right_cancel (b := tally l)
      simp only
      rw [hset, hmove, hbal]

theorem Contract.run_keeps {K : lam → lam → Prop} (hrefl : ∀ l, K l l)
    (htrans : ∀ a b c, K a b → K b c → K a c)
    (hkeep : ∀ s l a s' l', I s → J s l → M.step s l a = .ok (s', l') → K l l')
    (h : Run.run M.next s evs = .ok s') {k : ℕ} {l : lam} (hl : s.parties[k]? = some l) :
    ∃ l', s'.parties[k]? = some l' ∧ K l l' := by
  have hinv := Run.run_inv (I := fun s1 => Holds I J s1 ∧ ∃ l', s1.parties[k]? = some l' ∧ K l l')
    (fun s1 e s2 hs hn => ?_) ⟨hi, l, hl, hrefl l⟩ h
  · exact hinv.2
  · obtain ⟨hh, l1, hl1, hK⟩ := hs
    refine ⟨c.holds_next hh (on_true s1 e) hn, ?_⟩
    have hlt : k < s1.parties.length := (List.getElem?_eq_some_iff.1 hl1).1
    rcases next_cases hn with ⟨x, rfl, rfl⟩ | ⟨i, a, rfl, -, rfl⟩ | ⟨i, a, l2, sh, l', rfl, hp, hst, rfl⟩
    · exact ⟨l1, by rw [List.getElem?_append_left hlt]; exact hl1, hK⟩
    · exact ⟨l1, hl1, hK⟩
    · by_cases hik : i = k
      · subst hik
        rw [hl1] at hp
        cases hp
        refine ⟨l', List.getElem?_set_self hlt, htrans _ _ _ hK ?_⟩
        exact hkeep _ l1 a sh l' hh.1 (hh.2 l1 (List.mem_of_getElem? hl1)) hst
      · exact ⟨l1, by rw [List.getElem?_set_ne hik]; exact hl1, hK⟩

end Runs

/-- If moreover an action that does not meet `C` leads out of `Q`, then `Q` holds throughout
exactly the runs whose actions all meet `C`. -/
theorem Contract.always_iff (c : Contract M C I G J) {Q : State σ lam → Prop}
    (hQ : ∀ s, Holds I J s → Q s)
    (hbreak : ∀ s i l a, Holds I J s → s.parties[i]? = some l → ¬ C s.shared l a →
      ∃ s' l', M.step s.shared l a = .ok (s', l') ∧ ¬ Q ⟨s', s.parties.set i l'⟩)
    {s : State σ lam} {evs : List (Event ι act)} (hi : Holds I J s) :
    Run.Always M.next Q s evs ↔ Run.Along M.next (On C) s evs := by
  refine Run.always_iff_along hQ (fun _ _ _ hs hP hn => c.holds_next hs hP hn) (fun s e hs hno => ?_) hi
  cases e with
  | enter x => exact absurd trivial hno
  | act i a =>
    obtain ⟨l, hl⟩ := not_forall.1 hno
    obtain ⟨hl, hC⟩ := Classical.not_imp.1 hl
    obtain ⟨s', l', hst, hout⟩ := hbreak s i l a hs hl hC
    exact ⟨_, next_act hl hst, hout⟩

/-- The same for a property of the shared state. -/
theorem Contract.always_iff_along (c : Contract M C I G J) {Q : σ → Prop} (hQ : ∀ s, I s → Q s)
    (hbreak : ∀ s l a, I s → J s l → ¬ C s l a → ∃ s' l', M.step s l a = .ok (s', l') ∧ ¬ Q s')
    {s : State σ lam} {evs : List (Event ι act)} (hi : Holds I J s) :
    Run.Always M.next (fun s => Q s.shared) s evs ↔ Run.Along M.next (On C) s evs :=
  c.always_iff (fun _ hs => hQ _ hs.1)
    (fun _ _ l a hs hl hC => hbreak _ l a hs.1 (hs.2 l (List.mem_of_getElem? hl)) hC) hi

/-- And for a property of each party. -/
theorem Contract.always_all_iff_along (c : Contract M C I G J) {Q : lam → Prop} (hQ : ∀ s l, J s l → Q l)
    (hbreak : ∀ s l a, I s → J s l → ¬ C s l a → ∃ s' l', M.step s l a = .ok (s', l') ∧ ¬ Q l')
    {s : State σ lam} {evs : List (Event ι act)} (hi : Holds I J s) :
    Run.Always M.next (fun s => ∀ l ∈ s.parties, Q l) s evs ↔ Run.Along M.next (On C) s evs := by
  refine c.always_iff (fun s hs l hl => hQ _ l (hs.2 l hl)) (fun s i l a hs hl hC => ?_) hi
  obtain ⟨s', l', hst, hout⟩ := hbreak _ l a hs.1 (hs.2 l (List.mem_of_getElem? hl)) hC
  have hlt : i < s.parties.length := (List.getElem?_eq_some_iff.1 hl).1
  exact ⟨s', l', hst, fun hall => hout (hall l' (List.mem_set hlt l'))⟩

end Parties
