import Mathlib

/-! Values packed by a bit map: one value for each bit that is set, in the order of the bits. The
value of a bit is found at the number of set bits below it, which is how both ends of a
transfer keep their place. -/

namespace Pack

variable {α : Type}

/-- `vals` has a value, related to its bit by `R`, for each bit of `b` below `n`. -/
structure Packed (b : ℕ → Bool) (n : ℕ) (vals : List α) (R : ℕ → α → Prop) : Prop where
  length : vals.length = Nat.count (b · = true) n
  get : ∀ j < n, b j = true → ∃ v, vals[Nat.count (b · = true) j]? = some v ∧ R j v

theorem count_congr {b b' : ℕ → Bool} {n : ℕ} (h : ∀ j < n, b' j = b j) :
    Nat.count (b' · = true) n = Nat.count (b · = true) n := by
  induction n with
  | zero => simp
  | succ n ih =>
    rw [Nat.count_succ, Nat.count_succ, ih fun j hj => h j (by omega), h n (by omega)]

theorem Packed.empty (b : ℕ → Bool) (R : ℕ → α → Prop) : Packed b 0 [] R :=
  ⟨by simp, fun j hj => absurd hj (Nat.not_lt_zero j)⟩

/-- Only the bits below `n` matter. -/
theorem Packed.congr {b b' : ℕ → Bool} {n : ℕ} {vals : List α} {R : ℕ → α → Prop}
    (h : Packed b n vals R) (hb : ∀ j < n, b' j = b j) : Packed b' n vals R := by
  refine ⟨by rw [count_congr hb]; exact h.length, ?_⟩
  intro j hj hbj
  rw [count_congr fun i hi => hb i (by omega)]
  exact h.get j hj (by rw [← hb j hj]; exact hbj)

theorem Packed.mono {b : ℕ → Bool} {n : ℕ} {vals : List α} {R R' : ℕ → α → Prop}
    (h : Packed b n vals R) (hR : ∀ j v, R j v → R' j v) : Packed b n vals R' := by
  refine ⟨h.length, ?_⟩
  intro j hj hbj
  obtain ⟨v, hv, hr⟩ := h.get j hj hbj
  exact ⟨v, hv, hR j v hr⟩

theorem Packed.skip {b : ℕ → Bool} {n : ℕ} {vals : List α} {R : ℕ → α → Prop}
    (h : Packed b n vals R) (hn : b n = false) : Packed b (n + 1) vals R := by
  refine ⟨by rw [Nat.count_succ, h.length]; simp [hn], ?_⟩
  intro j hj hbj
  have hne : j ≠ n := by rintro rfl; rw [hn] at hbj; cases hbj
  exact h.get j (by omega) hbj

theorem Packed.push {b : ℕ → Bool} {n : ℕ} {vals : List α} {R : ℕ → α → Prop} {v : α}
    (h : Packed b n vals R) (hn : b n = true) (hv : R n v) : Packed b (n + 1) (vals ++ [v]) R := by
  refine ⟨by rw [Nat.count_succ, List.length_append, h.length]; simp [hn], ?_⟩
  intro j hj hbj
  by_cases hj' : j = n
  · subst hj'
    exact ⟨v, by rw [← h.length]; simp, hv⟩
  · obtain ⟨u, hu, hr⟩ := h.get j (by omega) hbj
    exact ⟨u, by rw [List.getElem?_append_left (List.getElem?_eq_some_iff.1 hu).1]; exact hu, hr⟩

/-- No bit from `n` on is set. -/
theorem Packed.widen {b : ℕ → Bool} {n m : ℕ} {vals : List α} {R : ℕ → α → Prop}
    (h : Packed b n vals R) (hnm : n ≤ m) (hz : ∀ j, n ≤ j → j < m → b j = false) :
    Packed b m vals R := by
  induction m, hnm using Nat.le_induction with
  | base => exact h
  | succ m hm ih => exact (ih fun j h1 h2 => hz j h1 (by omega)).skip (hz m hm (by omega))

theorem exists_count_eq {b : ℕ → Bool} {n k : ℕ} (h : k < Nat.count (b · = true) n) :
    ∃ j < n, b j = true ∧ Nat.count (b · = true) j = k := by
  induction n with
  | zero => simp at h
  | succ n ih =>
    by_cases hk : k < Nat.count (b · = true) n
    · obtain ⟨j, hj, hb, hc⟩ := ih hk
      exact ⟨j, by omega, hb, hc⟩
    · rw [Nat.count_succ] at h
      split_ifs at h with hn
      · exact ⟨n, by omega, hn, by omega⟩
      · omega

/-- The `k`-th value is that of the `k`-th lowest bit. -/
theorem Packed.nth {b : ℕ → Bool} {n : ℕ} {vals : List α} {R : ℕ → α → Prop}
    (h : Packed b n vals R) {k : ℕ} (hk : k < vals.length) :
    ∃ v, vals[k]? = some v ∧ R (Nat.nth (b · = true) k) v := by
  rw [h.length] at hk
  obtain ⟨j, hj, hb, rfl⟩ := exists_count_eq hk
  rw [Nat.nth_count hb]
  exact h.get j hj hb

/-- The set bits in order, each at the number of those below it. -/
theorem filter_range_getElem? {b : ℕ → Bool} {n k i : ℕ} (h : ((List.range n).filter b)[k]? = some i) :
    i < n ∧ b i = true ∧ Nat.count (b · = true) i = k := by
  have hlen : ∀ m, ((List.range m).filter b).length = Nat.count (b · = true) m := by
    intro m
    induction m with
    | zero => rfl
    | succ m ih =>
      rw [List.range_succ, List.filter_append, List.length_append, ih, Nat.count_succ]
      by_cases hb : b m = true
      · simp [hb]
      · simp [hb]
  induction n with
  | zero => simp at h
  | succ n ih =>
    rw [List.range_succ, List.filter_append] at h
    rcases lt_or_ge k ((List.range n).filter b).length with hlt | hge
    · rw [List.getElem?_append_left hlt] at h
      obtain ⟨hi, hb, hk⟩ := ih h
      exact ⟨by omega, hb, hk⟩
    · rw [List.getElem?_append_right hge] at h
      by_cases hb : b n = true
      · rw [List.filter_cons_of_pos hb, List.filter_nil, List.getElem?_singleton] at h
        split_ifs at h with hk
        cases h
        exact ⟨by omega, hb, by rw [← hlen]; omega⟩
      · rw [List.filter_cons_of_neg hb] at h
        cases h

/-- Values taken off in the order of the bits are those of their bits. -/
theorem Packed.of_mem_zip {b : ℕ → Bool} {n m : ℕ} {vals : List α} {R : ℕ → α → Prop}
    (h : Packed b n vals R) (hmn : m ≤ n) {i : ℕ} {v : α}
    (hv : (i, v) ∈ ((List.range m).filter b).zip vals) : R i v := by
  obtain ⟨k, hk⟩ := List.mem_iff_getElem?.1 hv
  obtain ⟨hi, hval⟩ := List.getElem?_zip_eq_some.1 hk
  obtain ⟨him, hb, hcount⟩ := filter_range_getElem? hi
  obtain ⟨u, hu, hr⟩ := h.get i (by omega) hb
  rw [hcount, hval] at hu
  cases hu
  exact hr

end Pack
