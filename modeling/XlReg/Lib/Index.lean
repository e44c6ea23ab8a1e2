import Mathlib

/-! Maps kept beside an append-only list. `Indexes` is a unique index: its keys are the
list's keys, each leads to its own entry and no key occurs twice. `Covers` only says that
the map has the list's keys. -/

namespace Index

variable {α κ : Type}

/-- `m` is a unique index of `l` by `key`. -/
structure Indexes [DecidableEq κ] (key : α → κ) (l : List α) (m : AList fun _ : κ => α) : Prop where
  nodup : (l.map key).Nodup
  lookup : ∀ k x, m.lookup k = some x ↔ x ∈ l ∧ key x = k

/-- `m` has exactly the keys of `l`. -/
def Covers (key : α → κ) (l : List α) (m : AList fun _ : κ => α) : Prop :=
  ∀ k, k ∈ m ↔ ∃ x ∈ l, key x = k

theorem Covers.empty (key : α → κ) : Covers key [] (∅ : AList fun _ : κ => α) := by
  intro k; simp

variable [DecidableEq κ]

theorem Indexes.empty (key : α → κ) : Indexes key [] (∅ : AList fun _ : κ => α) :=
  ⟨List.nodup_nil, by simp⟩

theorem Indexes.lookup_none {key : α → κ} {l : List α} {m : AList fun _ : κ => α}
    (h : Indexes key l m) (k : κ) : m.lookup k = none ↔ ∀ x ∈ l, key x ≠ k := by
  constructor
  · intro hk x hx he
    rw [(h.lookup k x).2 ⟨hx, he⟩] at hk
    cases hk
  · intro hk
    cases hm : m.lookup k with
    | none => rfl
    | some x => exact absurd ((h.lookup k x).1 hm).2 (hk x ((h.lookup k x).1 hm).1)

theorem Indexes.lookup_self {key : α → κ} {l : List α} {m : AList fun _ : κ => α}
    (h : Indexes key l m) {x : α} (hx : x ∈ l) : m.lookup (key x) = some x :=
  (h.lookup _ x).2 ⟨hx, rfl⟩

/-- The lookup is the search of the list. -/
theorem Indexes.lookup_eq_find {key : α → κ} {l : List α} {m : AList fun _ : κ => α}
    (h : Indexes key l m) (k : κ) : m.lookup k = l.find? fun x => key x = k := by
  cases hf : l.find? fun x => key x = k with
  | none =>
    rw [h.lookup_none]
    simpa using hf
  | some x => exact (h.lookup k x).2 ⟨List.mem_of_find?_eq_some hf, by simpa using List.find?_some hf⟩

theorem Indexes.append {key : α → κ} {l : List α} {m : AList fun _ : κ => α}
    (h : Indexes key l m) {x : α} (hx : m.lookup (key x) = none) :
    Indexes key (l ++ [x]) (m.insert (key x) x) := by
  have hfresh := (h.lookup_none (key x)).1 hx
  refine ⟨?_, ?_⟩
  · rw [List.map_append, List.map_singleton, List.nodup_append]
    refine ⟨h.nodup, List.nodup_singleton _, ?_⟩
    intro a ha b hb
    obtain ⟨y, hy, rfl⟩ := List.mem_map.1 ha
    rw [List.mem_singleton.1 hb]
    exact hfresh y hy
  · intro k y
    by_cases hk : k = key x
    · subst hk
      rw [AList.lookup_insert]
      constructor
      · intro he
        cases he
        simp
      · rintro ⟨hy, he⟩
        rcases List.mem_append.1 hy with hy | hy
        · exact absurd he (hfresh y hy)
        · rw [List.mem_singleton.1 hy]
    · rw [AList.lookup_insert_ne hk, h.lookup, List.mem_append, List.mem_singleton]
      constructor
      · rintro ⟨hy, he⟩
        exact ⟨Or.inl hy, he⟩
      · rintro ⟨hy | rfl, he⟩
        · exact ⟨hy, he⟩
        · exact absurd he.symm hk

theorem Indexes.congr {key key' : α → κ} {l : List α} {m : AList fun _ : κ => α}
    (h : Indexes key l m) (hkey : ∀ x ∈ l, key' x = key x) : Indexes key' l m := by
  refine ⟨by rw [List.map_congr_left hkey]; exact h.nodup, fun k x => ?_⟩
  rw [h.lookup]
  exact and_congr_right fun hx => by rw [hkey x hx]

theorem Covers.append {key : α → κ} {l : List α} {m : AList fun _ : κ => α}
    (h : Covers key l m) (x : α) : Covers key (l ++ [x]) (m.insert (key x) x) := by
  intro k
  rw [AList.mem_insert, h k]
  constructor
  · rintro (rfl | ⟨y, hy, he⟩)
    · exact ⟨x, by simp, rfl⟩
    · exact ⟨y, by simp [hy], he⟩
  · rintro ⟨y, hy, rfl⟩
    rcases List.mem_append.1 hy with hy | hy
    · exact Or.inr ⟨y, hy, rfl⟩
    · exact Or.inl (by rw [List.mem_singleton.1 hy])

theorem Covers.lookup_none {key : α → κ} {l : List α} {m : AList fun _ : κ => α}
    (h : Covers key l m) (k : κ) : m.lookup k = none ↔ ∀ x ∈ l, key x ≠ k := by
  rw [AList.lookup_eq_none, h k]
  simp

end Index
