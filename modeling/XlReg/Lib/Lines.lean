import XlReg.Lib.Text

/-! Parsers that take lines off a list. One succeeds with a value and the lines it left, or reports
an error, or faults. The loops of such parsers peek at the next line for a closing one before each
round, and it is a fault to peek when no line is left. -/

namespace Lines

open Text

variable {ε φ α β σ : Type}

inductive Result (ε φ α : Type)
  | ok (a : α) (rest : List String)
  | error (e : ε)
  | fault (x : φ)

def Parser (ε φ α : Type) := List String → Result ε φ α

namespace Parser

def bind (p : Parser ε φ α) (f : α → Parser ε φ β) : Parser ε φ β := fun ls =>
  match p ls with
  | .ok a rest => f a rest
  | .error e => .error e
  | .fault x => .fault x

instance : Monad (Parser ε φ) where
  pure a ls := .ok a ls
  bind := bind

def fail (e : ε) : Parser ε φ α := fun _ => .error e

/-- A computation that reads no lines. -/
def ofExcept (r : Except ε α) : Parser ε φ α := fun ls =>
  match r with
  | .ok a => .ok a ls
  | .error e => .error e

/-- A function that takes lines and gives back those it left. -/
def lift (f : List String → Except ε (α × List String)) : Parser ε φ α := fun ls =>
  match f ls with
  | .ok (a, rest) => .ok a rest
  | .error e => .error e

/-- The next line that is not blank, trimmed; `e` is reported when there is none. -/
def next (e : ε) : Parser ε φ String
  | [] => .error e
  | l :: ls => if trimSpace l = "" then next e ls else .ok (trimSpace l) ls

/-- The next line must be `t`. -/
def expect (e wrong : ε) (t : String) : Parser ε φ Unit := do
  let line ← next e
  if line = t then pure () else fail wrong

/-- At most `n` rounds of `loop`. -/
def rounds (x : φ) (closing : String) (body : σ → Parser ε φ σ) : ℕ → σ → Parser ε φ σ
  | 0, _, _ => .fault x
  | _ + 1, _, [] => .fault x
  | n + 1, s, l :: ls =>
    if trimSpace l = closing then .ok s (l :: ls)
    else match body s (l :: ls) with
      | .ok s rest => rounds x closing body n s rest
      | .error e => .error e
      | .fault x => .fault x

/-- Rounds of `body` until the next line is the closing one, which is left where it is. Each
round takes a line at least, so when their number is used up there is none to peek at. -/
def loop (x : φ) (closing : String) (body : σ → Parser ε φ σ) (s : σ) : Parser ε φ σ := fun ls =>
  rounds x closing body ls.length s ls

/-! The results of a composed parser. -/

theorem bind_of_ok {p : Parser ε φ α} {f : α → Parser ε φ β} {ls mid : List String} {a : α}
    (h : p ls = .ok a mid) : (p >>= f) ls = f a mid := by
  change bind p f ls = _
  rw [bind, h]

theorem bind_ok_iff {p : Parser ε φ α} {f : α → Parser ε φ β} {ls rest : List String} {b : β} :
    (p >>= f) ls = .ok b rest ↔ ∃ a mid, p ls = .ok a mid ∧ f a mid = .ok b rest := by
  change bind p f ls = _ ↔ _
  unfold bind
  cases p ls <;> simp

theorem bind_fault_iff {p : Parser ε φ α} {f : α → Parser ε φ β} {ls : List String} {x : φ} :
    (p >>= f) ls = .fault x ↔ p ls = .fault x ∨ ∃ a mid, p ls = .ok a mid ∧ f a mid = .fault x := by
  change bind p f ls = _ ↔ _
  unfold bind
  cases p ls <;> simp

/-- A parser that never faults. -/
def Safe (p : Parser ε φ α) : Prop := ∀ ls x, p ls ≠ .fault x

theorem bind_fault_iff_of_safe {p : Parser ε φ α} (hp : Safe p) {f : α → Parser ε φ β}
    {ls : List String} {x : φ} :
    (p >>= f) ls = .fault x ↔ ∃ a mid, p ls = .ok a mid ∧ f a mid = .fault x := by
  rw [bind_fault_iff]
  simp [hp ls x]

theorem Safe.bind {p : Parser ε φ α} {f : α → Parser ε φ β} (hp : Safe p) (hf : ∀ a, Safe (f a)) :
    Safe (p >>= f) := by
  intro ls x h
  obtain ⟨a, mid, -, h⟩ := (bind_fault_iff_of_safe hp).1 h
  exact hf a mid x h

theorem safe_pure (a : α) : Safe (pure a : Parser ε φ α) := by
  intro ls x h
  cases h

theorem safe_fail (e : ε) : Safe (fail e : Parser ε φ α) := by
  intro ls x h
  cases h

theorem safe_ofExcept (r : Except ε α) : Safe (ofExcept r : Parser ε φ α) := by
  intro ls x h
  cases r <;> cases h

theorem safe_lift (f : List String → Except ε (α × List String)) : Safe (lift f : Parser ε φ α) := by
  intro ls x h
  unfold lift at h
  split at h <;> cases h

theorem lift_ok_iff {f : List String → Except ε (α × List String)} {ls rest : List String} {a : α} :
    (lift f : Parser ε φ α) ls = .ok a rest ↔ f ls = .ok (a, rest) := by
  unfold lift
  split <;> simp_all

theorem ofExcept_ok_iff {r : Except ε α} {ls rest : List String} {a : α} :
    (ofExcept r : Parser ε φ α) ls = .ok a rest ↔ r = .ok a ∧ rest = ls := by
  cases r with
  | error e => simp [ofExcept]
  | ok b => simp [ofExcept, eq_comm]

/-! The next line. -/

/-- The lines that are not blank, trimmed. -/
def nonBlank (ls : List String) : List String := (ls.map trimSpace).filter fun l => decide (l ≠ "")

@[simp] theorem nonBlank_append (ls ls' : List String) :
    nonBlank (ls ++ ls') = nonBlank ls ++ nonBlank ls' := by
  simp [nonBlank]

theorem nonBlank_cons (l : String) (ls : List String) :
    nonBlank (l :: ls) = if trimSpace l = "" then nonBlank ls else trimSpace l :: nonBlank ls := by
  by_cases h : trimSpace l = "" <;> simp [nonBlank, h]

theorem nonBlank_eq_nil_iff {ls : List String} : nonBlank ls = [] ↔ ∀ l ∈ ls, trimSpace l = "" := by
  simp [nonBlank]

/-- `next` skips blank lines and takes the line after them. -/
theorem next_ok_iff {e : ε} {ls rest : List String} {t : String} :
    (next e : Parser ε φ String) ls = .ok t rest ↔
      ∃ bs l, ls = bs ++ l :: rest ∧ (∀ b ∈ bs, trimSpace b = "") ∧ trimSpace l = t ∧ t ≠ "" := by
  induction ls with
  | nil => simp [next]
  | cons l ls ih =>
    by_cases h : trimSpace l = ""
    · rw [next, if_pos h, ih]
      constructor
      · rintro ⟨bs, k, rfl, hbs, hk, ht⟩
        exact ⟨l :: bs, k, rfl, by simpa [h] using hbs, hk, ht⟩
      · rintro ⟨bs, k, heq, hbs, hk, ht⟩
        cases bs with
        | nil =>
          obtain ⟨rfl, rfl⟩ := List.cons.inj heq
          exact absurd (hk.symm.trans h) ht
        | cons b bs =>
          obtain ⟨rfl, rfl⟩ := List.cons.inj heq
          exact ⟨bs, k, rfl, fun c hc => hbs c (List.mem_cons_of_mem _ hc), hk, ht⟩
    · rw [next, if_neg h]
      constructor
      · intro heq
        cases heq
        exact ⟨[], l, rfl, by simp, rfl, h⟩
      · rintro ⟨bs, k, heq, hbs, hk, ht⟩
        cases bs with
        | nil =>
          obtain ⟨rfl, rfl⟩ := List.cons.inj heq
          rw [hk]
        | cons b bs =>
          obtain ⟨rfl, -⟩ := List.cons.inj heq
          exact absurd (hbs _ List.mem_cons_self) h

theorem safe_next (e : ε) : Safe (next e : Parser ε φ String) := by
  intro ls x
  induction ls with
  | nil => simp [next]
  | cons l ls ih =>
    rw [next]
    split_ifs
    · exact ih
    · simp

theorem nonBlank_of_next {e : ε} {ls rest : List String} {t : String}
    (h : (next e : Parser ε φ String) ls = .ok t rest) : nonBlank ls = t :: nonBlank rest := by
  obtain ⟨bs, l, rfl, hbs, rfl, ht⟩ := next_ok_iff.1 h
  rw [nonBlank_append, nonBlank_eq_nil_iff.2 hbs, nonBlank_cons, if_neg ht, List.nil_append]

/-- There is a next line as long as some line is not blank. -/
theorem next_of_nonBlank {e : ε} {ls : List String} {t : String} {ts : List String}
    (h : nonBlank ls = t :: ts) : ∃ rest, (next e : Parser ε φ String) ls = .ok t rest ∧
      nonBlank rest = ts := by
  induction ls with
  | nil => cases h
  | cons l ls ih =>
    rw [nonBlank_cons] at h
    rw [next]
    split_ifs at h ⊢ with hl
    · exact ih h
    · obtain ⟨rfl, rfl⟩ := List.cons.inj h
      exact ⟨ls, rfl, rfl⟩

theorem next_of_blank {e : ε} {ls : List String} (h : nonBlank ls = []) :
    (next e : Parser ε φ String) ls = .error e := by
  induction ls with
  | nil => rfl
  | cons l ls ih =>
    rw [nonBlank_cons] at h
    split_ifs at h with hl
    rw [next, if_pos hl]
    exact ih h

theorem expect_ok_iff {e wrong : ε} {t : String} {ls rest : List String} :
    (expect e wrong t : Parser ε φ Unit) ls = .ok () rest ↔
      (next e : Parser ε φ String) ls = .ok t rest := by
  rw [expect, bind_ok_iff]
  constructor
  · rintro ⟨line, mid, hl, h⟩
    split_ifs at h with hline
    · cases h
      rw [← hline]
      exact hl
    · cases h
  · intro h
    exact ⟨t, rest, h, by rw [if_pos rfl]; rfl⟩

theorem safe_expect (e wrong : ε) (t : String) : Safe (expect e wrong t : Parser ε φ Unit) := by
  refine (safe_next e).bind fun line => ?_
  split_ifs
  · exact safe_pure ()
  · exact safe_fail wrong

/-! Parsers leave a rest that is no longer than what they were given. -/

def Keeps (p : Parser ε φ α) : Prop := ∀ ls a rest, p ls = .ok a rest → rest.length ≤ ls.length

/-- Given a line at least, it takes one. -/
def Shrinks (p : Parser ε φ α) : Prop :=
  ∀ l ls a rest, p (l :: ls) = .ok a rest → rest.length ≤ ls.length

theorem keeps_pure (a : α) : Keeps (pure a : Parser ε φ α) := by
  intro ls b rest h
  cases h
  exact le_refl _

theorem keeps_fail (e : ε) : Keeps (fail e : Parser ε φ α) := by
  intro ls b rest h
  cases h

theorem keeps_ofExcept (r : Except ε α) : Keeps (ofExcept r : Parser ε φ α) := by
  intro ls b rest h
  obtain ⟨-, rfl⟩ := ofExcept_ok_iff.1 h
  exact le_refl _

theorem next_length {e : ε} {ls rest : List String} {t : String}
    (h : (next e : Parser ε φ String) ls = .ok t rest) : rest.length < ls.length := by
  obtain ⟨bs, l, rfl, -, -, -⟩ := next_ok_iff.1 h
  simp only [List.length_append, List.length_cons]
  omega

theorem keeps_next (e : ε) : Keeps (next e : Parser ε φ String) :=
  fun _ _ _ h => (next_length h).le

theorem Keeps.bind {p : Parser ε φ α} {f : α → Parser ε φ β} (hp : Keeps p) (hf : ∀ a, Keeps (f a)) :
    Keeps (p >>= f) := by
  intro ls b rest h
  obtain ⟨a, mid, ha, hb⟩ := bind_ok_iff.1 h
  exact (hf a mid b rest hb).trans (hp ls a mid ha)

/-- Whatever it is given, the parser takes a line of it. -/
def Takes (p : Parser ε φ α) : Prop := ∀ ls a rest, p ls = .ok a rest → rest.length < ls.length

theorem takes_next (e : ε) : Takes (next e : Parser ε φ String) := fun _ _ _ h => next_length h

theorem Takes.bind {p : Parser ε φ α} {f : α → Parser ε φ β} (hp : Takes p) (hf : ∀ a, Keeps (f a)) :
    Takes (p >>= f) := by
  intro ls b rest h
  obtain ⟨a, mid, ha, hb⟩ := bind_ok_iff.1 h
  exact lt_of_le_of_lt (hf a mid b rest hb) (hp ls a mid ha)

theorem Takes.keeps {p : Parser ε φ α} (hp : Takes p) : Keeps p := fun ls a rest h => (hp ls a rest h).le

theorem Takes.shrinks {p : Parser ε φ α} (hp : Takes p) : Shrinks p := by
  intro l ls a rest h
  have hlt := hp (l :: ls) a rest h
  rw [List.length_cons] at hlt
  omega

/-- Enough that a later part takes a line. -/
theorem Keeps.bind_takes {p : Parser ε φ α} {f : α → Parser ε φ β} (hp : Keeps p)
    (hf : ∀ a, Takes (f a)) : Takes (p >>= f) := by
  intro ls b rest h
  obtain ⟨a, mid, ha, hb⟩ := bind_ok_iff.1 h
  exact lt_of_lt_of_le (hf a mid b rest hb) (hp ls a mid ha)

theorem takes_expect (e wrong : ε) (t : String) : Takes (expect e wrong t : Parser ε φ Unit) :=
  fun ls _ rest h => takes_next e ls t rest (expect_ok_iff.1 h)

/-! The loop, round by round. -/

section Loop

variable {x : φ} {closing : String} {body : σ → Parser ε φ σ}

/-- As many rounds as lines are enough. -/
theorem rounds_eq (hb : ∀ s, Shrinks (body s)) {n m : ℕ} {ls : List String} (s : σ)
    (hn : ls.length ≤ n) (hm : ls.length ≤ m) :
    rounds x closing body n s ls = rounds x closing body m s ls := by
  induction n generalizing m s ls with
  | zero =>
    have hnil : ls = [] := List.length_eq_zero_iff.1 (by omega)
    subst hnil
    cases m <;> rfl
  | succ n ih =>
    cases ls with
    | nil => cases m <;> rfl
    | cons l ls =>
      rw [List.length_cons] at hn hm
      obtain ⟨m, rfl⟩ : ∃ k, m = k + 1 := ⟨m - 1, by omega⟩
      simp only [rounds]
      split_ifs
      · rfl
      · cases hr : body s (l :: ls) with
        | ok s' rest =>
          have hrest := hb s l ls s' rest hr
          exact ih s' (by omega) (by omega)
        | error e => rfl
        | fault y => rfl

theorem loop_nil (s : σ) : loop x closing body s [] = .fault x := rfl

theorem loop_closed {l : String} (h : trimSpace l = closing) (s : σ) (ls : List String) :
    loop x closing body s (l :: ls) = .ok s (l :: ls) := by
  simp [loop, rounds, h]

theorem loop_cons (hb : ∀ s, Shrinks (body s)) {l : String} (h : trimSpace l ≠ closing) (s : σ)
    (ls : List String) :
    loop x closing body s (l :: ls) = (body s >>= loop x closing body) (l :: ls) := by
  change _ = bind (body s) (loop x closing body) (l :: ls)
  rw [loop, List.length_cons, rounds, if_neg h, bind]
  cases hr : body s (l :: ls) with
  | ok s' rest => exact rounds_eq hb s' (hb s l ls s' rest hr) (le_refl _)
  | error e => rfl
  | fault y => rfl

theorem keeps_loop (hb : ∀ s, Shrinks (body s)) (s : σ) : Keeps (loop x closing body s) := by
  have hrounds : ∀ n s ls s' rest, rounds x closing body n s ls = .ok s' rest →
      rest.length ≤ ls.length := by
    intro n
    induction n with
    | zero => intro s ls s' rest h; cases h
    | succ n ih =>
      intro s ls s' rest h
      cases ls with
      | nil => cases h
      | cons l ls =>
        simp only [rounds] at h
        split_ifs at h
        · cases h
          exact le_refl _
        · cases hr : body s (l :: ls) with
          | ok s₁ mid =>
            rw [hr] at h
            have h₁ := ih s₁ mid s' rest h
            have h₂ := hb s l ls s₁ mid hr
            rw [List.length_cons]
            omega
          | error e => rw [hr] at h; cases h
          | fault y => rw [hr] at h; cases h
  exact fun ls s' rest h => hrounds ls.length s ls s' rest h

theorem loop_inv {I : σ → Prop} (hI : ∀ s ls s' rest, I s → body s ls = .ok s' rest → I s')
    {s s' : σ} {ls rest : List String} (hs : I s) (h : loop x closing body s ls = .ok s' rest) :
    I s' := by
  have hrounds : ∀ n s ls, I s → rounds x closing body n s ls = .ok s' rest → I s' := by
    intro n
    induction n with
    | zero => intro s ls _ h; cases h
    | succ n ih =>
      intro s ls hs h
      cases ls with
      | nil => cases h
      | cons l ls =>
        simp only [rounds] at h
        split_ifs at h
        · cases h
          exact hs
        · cases hr : body s (l :: ls) with
          | ok s₁ mid =>
            rw [hr] at h
            exact ih s₁ mid (hI s (l :: ls) s₁ mid hs hr) h
          | error e => rw [hr] at h; cases h
          | fault y => rw [hr] at h; cases h
  exact hrounds ls.length s ls hs h

end Loop

/-! What is left of the lines once some have been taken. -/

/-- The last line, if there is one, is not blank. -/
def EndsInLine (ls : List String) : Prop := ∀ l ∈ ls.getLast?, trimSpace l ≠ ""

theorem endsInLine_append {ls ls' : List String} (h : EndsInLine ls) (h' : EndsInLine ls') :
    EndsInLine (ls ++ ls') := by
  cases ls' with
  | nil => rwa [List.append_nil]
  | cons l ls' =>
    unfold EndsInLine
    rw [List.getLast?_append_of_ne_nil _ (by simp)]
    exact h'

theorem endsInLine_right {ls ls' : List String} (h : EndsInLine (ls ++ ls')) : EndsInLine ls' := by
  cases ls' with
  | nil => simp [EndsInLine]
  | cons l ls' =>
    unfold EndsInLine at h
    rw [List.getLast?_append_of_ne_nil _ (by simp)] at h
    exact h

/-- Blank lines only do not end in a line. -/
theorem eq_nil_of_blank {ls : List String} (hb : ∀ l ∈ ls, trimSpace l = "") (h : EndsInLine ls) :
    ls = [] := by
  rcases List.eq_nil_or_concat ls with hnil | ⟨init, l, rfl⟩
  · exact hnil
  · exact absurd (hb l (by simp)) (h l (by simp))

/-- Once the non-blank lines `ts` have been taken off `ls`, `rest` is left. -/
def Cut (ls ts rest : List String) : Prop :=
  ∃ front, ls = front ++ rest ∧ nonBlank front = ts ∧ EndsInLine front

theorem Cut.nonBlank_eq {ls ts rest : List String} (h : Cut ls ts rest) :
    nonBlank ls = ts ++ nonBlank rest := by
  obtain ⟨front, rfl, rfl, -⟩ := h
  exact nonBlank_append front rest

theorem Cut.trans {ls mid rest ts us : List String} (h : Cut ls ts mid) (h' : Cut mid us rest) :
    Cut ls (ts ++ us) rest := by
  obtain ⟨front, rfl, rfl, hf⟩ := h
  obtain ⟨front', rfl, rfl, hf'⟩ := h'
  exact ⟨front ++ front', by simp, by simp, endsInLine_append hf hf'⟩

theorem Cut.blank {b : String} {ls ts rest : List String} (h : Cut ls ts rest) (hb : trimSpace b = "")
    (hne : ts ≠ []) : Cut (b :: ls) ts rest := by
  obtain ⟨front, rfl, rfl, hend⟩ := h
  refine ⟨b :: front, rfl, by rw [nonBlank_cons, if_pos hb], ?_⟩
  rcases front with - | ⟨l, front⟩
  · exact absurd rfl hne
  · unfold EndsInLine at hend ⊢
    rwa [List.getLast?_cons_cons]

theorem next_iff_cut {e : ε} {ls rest : List String} {t : String} :
    (next e : Parser ε φ String) ls = .ok t rest ↔ Cut ls [t] rest := by
  rw [next_ok_iff]
  constructor
  · rintro ⟨bs, l, rfl, hbs, rfl, ht⟩
    refine ⟨bs ++ [l], by simp, ?_, by simpa [EndsInLine] using ht⟩
    rw [nonBlank_append, nonBlank_eq_nil_iff.2 hbs, nonBlank_cons, if_neg ht]
    rfl
  · rintro ⟨front, rfl, hone, hend⟩
    rcases List.eq_nil_or_concat front with rfl | ⟨bs, l, rfl⟩
    · cases hone
    · have hl : trimSpace l ≠ "" := hend l (by simp)
      rw [List.concat_eq_append, nonBlank_append, nonBlank_cons, if_neg hl] at hone
      obtain ⟨hbs, hlt⟩ := List.append_inj' (hone.trans (List.nil_append [t]).symm) rfl
      obtain ⟨rfl, -⟩ := List.cons.inj hlt
      exact ⟨bs, l, by simp, nonBlank_eq_nil_iff.1 hbs, rfl, hl⟩

/-- There is such a rest for any first ones of the non-blank lines. -/
theorem exists_cut {ls ts us : List String} (h : nonBlank ls = ts ++ us) :
    ∃ rest, Cut ls ts rest ∧ nonBlank rest = us := by
  induction ts generalizing ls with
  | nil => exact ⟨ls, ⟨[], rfl, rfl, by simp [EndsInLine]⟩, h⟩
  | cons t ts ih =>
    obtain ⟨mid, hn, hmid⟩ := next_of_nonBlank (e := ()) (φ := Unit) h
    obtain ⟨rest, hcut, hrest⟩ := ih hmid
    exact ⟨rest, (next_iff_cut.1 hn).trans hcut, hrest⟩

theorem cut_nil_iff {ls rest : List String} : Cut ls [] rest ↔ ls = rest := by
  constructor
  · rintro ⟨front, rfl, hb, hend⟩
    rw [eq_nil_of_blank (nonBlank_eq_nil_iff.1 hb) hend]
    rfl
  · rintro rfl
    exact ⟨[], rfl, rfl, by simp [EndsInLine]⟩

theorem cut_cons_iff {ls rest ts : List String} {t : String} :
    Cut ls (t :: ts) rest ↔ ∃ mid, Cut ls [t] mid ∧ Cut mid ts rest := by
  constructor
  · rintro ⟨front, rfl, hts, hend⟩
    obtain ⟨front', ⟨f, rfl, hf, hfe⟩, hts'⟩ := exists_cut (show nonBlank front = [t] ++ ts from hts)
    exact ⟨front' ++ rest, ⟨f, by simp, hf, hfe⟩, front', rfl, hts', endsInLine_right hend⟩
  · rintro ⟨mid, h, h'⟩
    exact h.trans h'

theorem cut_append_iff {ls rest ts us : List String} :
    Cut ls (ts ++ us) rest ↔ ∃ mid, Cut ls ts mid ∧ Cut mid us rest := by
  induction ts generalizing ls with
  | nil => simp [cut_nil_iff]
  | cons t ts ih =>
    rw [List.cons_append, cut_cons_iff]
    constructor
    · rintro ⟨mid, h, h'⟩
      obtain ⟨mid', h₁, h₂⟩ := ih.1 h'
      exact ⟨mid', h.trans h₁, h₂⟩
    · rintro ⟨mid, h, h'⟩
      obtain ⟨mid', h₁, h₂⟩ := cut_cons_iff.1 h
      exact ⟨mid', h₁, ih.2 ⟨mid, h₂, h'⟩⟩

theorem cut_all_iff {ls ts : List String} : Cut ls ts [] ↔ nonBlank ls = ts ∧ EndsInLine ls := by
  constructor
  · rintro ⟨front, rfl, h, hend⟩
    simpa using ⟨h, hend⟩
  · rintro ⟨h, hend⟩
    exact ⟨ls, by simp, h, hend⟩

/-! A loop that takes one line in a round. -/

section LineLoop

variable (e : ε) (x : φ) {closing : String} (step : σ → String → Except ε σ)

def lineBody (s : σ) : Parser ε φ σ := do
  let line ← next e
  ofExcept (step s line)

theorem shrinks_lineBody (s : σ) : Shrinks (lineBody e step s : Parser ε φ σ) :=
  ((takes_next e).bind fun _ => keeps_ofExcept _).shrinks

/-- A round, unless it begins at the closing line. -/
theorem loop_line (hc : closing ≠ "") {bs : List String} {l : String}
    (hbs : ∀ b ∈ bs, trimSpace b = "") (hl : trimSpace l ≠ "") (hopen : bs = [] → trimSpace l ≠ closing)
    (s : σ) (ls : List String) : loop x closing (lineBody e step) s (bs ++ l :: ls) =
      (ofExcept (step s (trimSpace l)) >>= loop x closing (lineBody e step)) ls := by
  have hn : (next e : Parser ε φ String) (bs ++ l :: ls) = .ok (trimSpace l) ls :=
    next_ok_iff.2 ⟨bs, l, rfl, hbs, rfl, hl⟩
  have hround : (lineBody e step s : Parser ε φ σ) (bs ++ l :: ls) = ofExcept (step s (trimSpace l)) ls :=
    bind_of_ok hn
  have hcons : loop x closing (lineBody e step) s (bs ++ l :: ls) =
      (lineBody e step s >>= loop x closing (lineBody e step)) (bs ++ l :: ls) := by
    cases bs with
    | nil => exact loop_cons (shrinks_lineBody e step) (hopen rfl) s ls
    | cons b bs =>
      have hb : trimSpace b ≠ closing := by
        rw [hbs b List.mem_cons_self]
        exact hc.symm
      exact loop_cons (shrinks_lineBody e step) hb s (bs ++ l :: ls)
  rw [hcons]
  change bind _ _ _ = bind _ _ _
  rw [bind, bind, hround]

/-- Rounds over the lines `ts`, if none of them is the closing one. -/
theorem loop_cut (hc : closing ≠ "") (hrefused : ∀ s, ∃ e, step s closing = .error e)
    {ls ts rest : List String} {s s' : σ} (hcut : Cut ls ts rest) (hfold : ts.foldlM step s = .ok s') :
    loop x closing (lineBody e step) s ls = loop x closing (lineBody e step) s' rest := by
  induction ts generalizing ls s with
  | nil =>
    cases hfold
    rw [cut_nil_iff.1 hcut]
  | cons t ts ih =>
    obtain ⟨mid, hfirst, hmore⟩ := cut_cons_iff.1 hcut
    obtain ⟨bs, l, rfl, hbs, rfl, hl⟩ := next_ok_iff.1 (next_iff_cut (e := e) (φ := φ) |>.2 hfirst)
    rw [List.foldlM_cons] at hfold
    cases hstep : step s (trimSpace l) with
    | error e' =>
      rw [hstep] at hfold
      cases hfold
    | ok s₁ =>
      rw [hstep] at hfold
      have hopen : bs = [] → trimSpace l ≠ closing := by
        intro _ heq
        obtain ⟨e', he⟩ := hrefused s
        rw [heq, he] at hstep
        cases hstep
      rw [loop_line e x step hc hbs hl hopen, hstep]
      exact ih hmore hfold

/-- A loop comes to the closing line, or to the end of the lines, or to an error. -/
theorem loop_ends (hc : closing ≠ "") (ls : List String) (s : σ) :
    (∃ ts s' c post, Cut ls ts (c :: post) ∧ ts.foldlM step s = .ok s' ∧ trimSpace c = closing ∧
      loop x closing (lineBody e step) s ls = .ok s' (c :: post)) ∨
    (∃ ts s', Cut ls ts [] ∧ ts.foldlM step s = .ok s' ∧
      loop x closing (lineBody e step) s ls = .fault x) ∨
    ∃ e', loop x closing (lineBody e step) s ls = .error e' := by
  induction hn : ls.length using Nat.strong_induction_on generalizing ls s with
  | _ n ih =>
    cases ls with
    | nil => exact .inr (.inl ⟨[], s, cut_nil_iff.2 rfl, rfl, loop_nil s⟩)
    | cons l ls =>
      by_cases hl : trimSpace l = closing
      · exact .inl ⟨[], s, l, ls, cut_nil_iff.2 rfl, rfl, hl, loop_closed hl s ls⟩
      cases hnext : (next e : Parser ε φ String) (l :: ls) with
      | fault y => exact absurd hnext (safe_next e _ y)
      | error e' =>
        refine .inr (.inr ⟨e', ?_⟩)
        rw [loop_cons (shrinks_lineBody e step) hl]
        change bind (bind _ _) _ _ = _
        simp only [bind, hnext]
      | ok t mid =>
        have hcut := next_iff_cut.1 hnext
        obtain ⟨bs, k, heq, hbs, rfl, hk⟩ := next_ok_iff.1 hnext
        have hopen : bs = [] → trimSpace k ≠ closing := by
          rintro rfl
          obtain ⟨rfl, -⟩ := List.cons.inj heq
          exact hl
        have hlen : mid.length < n := by
          rw [← hn]
          exact next_length hnext
        have hround := loop_line e x step hc hbs hk hopen s mid
        rw [heq] at hcut ⊢
        rw [hround]
        cases hstep : step s (trimSpace k) with
        | error e' => exact .inr (.inr ⟨e', rfl⟩)
        | ok s₁ =>
          have hfold : ∀ ts : List String, (trimSpace k :: ts).foldlM step s = ts.foldlM step s₁ := by
            intro ts
            rw [List.foldlM_cons, hstep]
            rfl
          rcases ih mid.length hlen mid s₁ rfl with
            ⟨ts, s', c, post, hc', hf, hcl, hloop⟩ | ⟨ts, s', hc', hf, hloop⟩ | ⟨e', hloop⟩
          · exact .inl ⟨_ :: ts, s', c, post, hcut.trans hc', (hfold ts).trans hf, hcl, hloop⟩
          · exact .inr (.inl ⟨_ :: ts, s', hcut.trans hc', (hfold ts).trans hf, hloop⟩)
          · exact .inr (.inr ⟨e', hloop⟩)

variable {e x step}

theorem loop_ok_iff (hc : closing ≠ "") (hrefused : ∀ s, ∃ e, step s closing = .error e)
    {ls rest : List String} {s s' : σ} :
    loop x closing (lineBody e step) s ls = .ok s' rest ↔
      ∃ ts c post, rest = c :: post ∧ trimSpace c = closing ∧ Cut ls ts rest ∧
        ts.foldlM step s = .ok s' := by
  constructor
  · intro h
    rcases loop_ends e x step hc ls s with
      ⟨ts, s₁, c, post, hcut, hf, hcl, hloop⟩ | ⟨ts, s₁, -, -, hloop⟩ | ⟨e', hloop⟩
    · rw [hloop] at h
      cases h
      exact ⟨ts, c, post, rfl, hcl, hcut, hf⟩
    · rw [hloop] at h
      cases h
    · rw [hloop] at h
      cases h
  · rintro ⟨ts, c, post, rfl, hcl, hcut, hf⟩
    rw [loop_cut e x step hc hrefused hcut hf]
    exact loop_closed hcl s' post

theorem loop_fault_iff (hc : closing ≠ "") (hrefused : ∀ s, ∃ e, step s closing = .error e)
    {ls : List String} {s : σ} {y : φ} :
    loop x closing (lineBody e step) s ls = .fault y ↔
      y = x ∧ ∃ ts s', Cut ls ts [] ∧ ts.foldlM step s = .ok s' := by
  constructor
  · intro h
    rcases loop_ends e x step hc ls s with
      ⟨ts, s₁, c, post, -, -, -, hloop⟩ | ⟨ts, s₁, hcut, hf, hloop⟩ | ⟨e', hloop⟩
    · rw [hloop] at h
      cases h
    · rw [hloop] at h
      cases h
      exact ⟨rfl, ts, s₁, hcut, hf⟩
    · rw [hloop] at h
      cases h
  · rintro ⟨rfl, ts, s', hcut, hf⟩
    rw [loop_cut e y step hc hrefused hcut hf]
    exact loop_nil s'

end LineLoop

/-! What a parser makes of certain lines, whatever follows them. -/

/-- Off `ls` the parser reads `r`, and it leaves what follows them. -/
def Reads (p : Parser ε φ α) (ls : List String) (r : Except ε α) : Prop :=
  ∀ tail, p (ls ++ tail) = ofExcept r tail

theorem Reads.bind {p : Parser ε φ α} {f : α → Parser ε φ β} {ls ls' : List String} {a : α}
    {r : Except ε β} (hp : Reads p ls (.ok a)) (hf : Reads (f a) ls' r) :
    Reads (p >>= f) (ls ++ ls') r := by
  intro tail
  rw [List.append_assoc, bind_of_ok (hp (ls' ++ tail))]
  exact hf tail

theorem Reads.bind_error {p : Parser ε φ α} {f : α → Parser ε φ β} {ls : List String} {e : ε}
    (hp : Reads p ls (.error e)) (tail : List String) : (p >>= f) (ls ++ tail) = .error e := by
  change Parser.bind p f _ = _
  rw [Parser.bind, hp tail]
  rfl

theorem reads_pure (a : α) : Reads (pure a : Parser ε φ α) [] (.ok a) := fun _ => rfl

theorem reads_ofExcept (r : Except ε α) : Reads (ofExcept r : Parser ε φ α) [] r := fun _ => rfl

/-- The last part of a parser reads no lines. -/
theorem Reads.bind_nil {p : Parser ε φ α} {f : α → Parser ε φ β} {ls : List String} {a : α}
    {r : Except ε β} (hp : Reads p ls (.ok a)) (hf : Reads (f a) [] r) : Reads (p >>= f) ls r := by
  have h := hp.bind hf
  rwa [List.append_nil] at h

theorem reads_next (e : ε) (bs : List String) {l t : String} (hbs : ∀ b ∈ bs, trimSpace b = "")
    (hl : trimSpace l = t) (ht : t ≠ "") : Reads (next e : Parser ε φ String) (bs ++ [l]) (.ok t) := by
  intro tail
  change _ = Result.ok t tail
  rw [next_ok_iff]
  exact ⟨bs, l, by simp, hbs, hl, ht⟩

theorem reads_expect (e wrong : ε) (bs : List String) {l t : String} (hbs : ∀ b ∈ bs, trimSpace b = "")
    (hl : trimSpace l = t) (ht : t ≠ "") :
    Reads (expect e wrong t : Parser ε φ Unit) (bs ++ [l]) (.ok ()) := by
  intro tail
  change _ = Result.ok () tail
  rw [expect_ok_iff]
  exact reads_next e bs hbs hl ht tail

/-- A loop over the texts of some items, up to the closing line or to the first error. -/
theorem loop_items {ι : Type} {x : φ} {closing c : String} {body : σ → Parser ε φ σ}
    (hb : ∀ s, Shrinks (body s)) (hc : trimSpace c = closing) (text : ι → List String)
    (step : σ → ι → Except ε σ) (items : List ι)
    (hopen : ∀ i ∈ items, ∃ l ls, text i = l :: ls ∧ trimSpace l ≠ closing)
    (hread : ∀ s, ∀ i ∈ items, Reads (body s) (text i) (step s i)) (s : σ) (tail : List String) :
    loop x closing body s (items.flatMap text ++ c :: tail) =
      ofExcept (items.foldlM step s) (c :: tail) := by
  induction items generalizing s with
  | nil => exact loop_closed hc s tail
  | cons i items ih =>
    obtain ⟨l, ls, htext, hl⟩ := hopen i List.mem_cons_self
    have hi := hread s i List.mem_cons_self (items.flatMap text ++ c :: tail)
    rw [List.flatMap_cons, List.append_assoc, List.foldlM_cons]
    rw [htext, List.cons_append] at hi ⊢
    rw [loop_cons hb hl]
    cases hs : step s i with
    | ok s' =>
      rw [hs] at hi
      rw [bind_of_ok hi]
      exact ih (fun j hj => hopen j (List.mem_cons_of_mem _ hj))
        (fun s j hj => hread s j (List.mem_cons_of_mem _ hj)) s'
    | error e =>
      rw [hs] at hi
      change Parser.bind (body s) (loop x closing body) _ = _
      rw [Parser.bind, hi]
      rfl

end Parser

end Lines
