import XlReg.Lib.Run

/-! A reliable ordered stream. What is written arrives, in order, but not as it was written: a read
takes any non-empty part of what is there, up to the length of its buffer. -/

namespace Stream

variable {α : Type}

/-- What was written, what of it has not been read yet, and what the reads gave. -/
structure State (α : Type) where
  written : List (List α) := []
  pending : List α := []
  pieces : List (List α) := []

inductive Event (α : Type)
  | write (data : List α)
  | read (n : ℕ)

/-- A read of `n` elements stops the run if it is not one that can happen. -/
def next (buf : ℕ) (s : State α) : Event α → Except Unit (State α)
  | .write data => .ok { s with written := s.written ++ [data], pending := s.pending ++ data }
  | .read n =>
    if 0 < n ∧ n ≤ buf ∧ n ≤ s.pending.length then
      .ok { s with pending := s.pending.drop n, pieces := s.pieces ++ [s.pending.take n] }
    else .error ()

/-- The data written in the course of the events, and the lengths of what is read. -/
def writes (evs : List (Event α)) : List (List α) :=
  evs.filterMap fun
    | .write data => some data
    | .read _ => none

def reads (evs : List (Event α)) : List ℕ :=
  evs.filterMap fun
    | .write _ => none
    | .read n => some n

/-- Nothing is lost, added or reordered. -/
structure Conveyed (buf : ℕ) (evs : List (Event α)) (s : State α) : Prop where
  written : s.written = writes evs
  lengths : s.pieces.map List.length = reads evs
  conserved : s.pieces.flatten ++ s.pending = s.written.flatten
  pieces : ∀ p ∈ s.pieces, 0 < p.length ∧ p.length ≤ buf

theorem next_conveyed {buf : ℕ} {evs : List (Event α)} {s s' : State α} {e : Event α}
    (hs : Conveyed buf evs s) (h : next buf s e = .ok s') : Conveyed buf (evs ++ [e]) s' := by
  cases e with
  | write data =>
    cases h
    refine ⟨?_, ?_, ?_, hs.pieces⟩
    · simp [writes, hs.written]
    · simp [reads, hs.lengths]
    · rw [List.flatten_append, ← hs.conserved]
      simp
  | read n =>
    simp only [next] at h
    split_ifs at h with hn
    cases h
    have hlen : (s.pending.take n).length = n := List.length_take_of_le hn.2.2
    refine ⟨?_, ?_, ?_, ?_⟩
    · simp [writes, hs.written]
    · rw [List.map_append, hs.lengths]
      simp [reads, hn.2.2]
    · rw [← hs.conserved]
      simp
    · intro p hp
      rcases List.mem_append.1 hp with hp | hp
      · exact hs.pieces p hp
      · rw [List.mem_singleton.1 hp, hlen]
        exact ⟨hn.1, hn.2.1⟩

theorem run_conveyed {buf : ℕ} {evs : List (Event α)} {s : State α}
    (h : Run.run (next buf) {} evs = .ok s) : Conveyed buf evs s :=
  Run.run_history (I := Conveyed buf) ⟨rfl, rfl, rfl, fun _ hp => by cases hp⟩
    (fun _ _ _ _ _ hs hn => next_conveyed hs hn) h

/-- When everything has been read, the reads gave what was written exactly if they had its lengths. -/
theorem Conveyed.pieces_eq_iff {buf : ℕ} {evs : List (Event α)} {s : State α} (h : Conveyed buf evs s)
    (hdone : s.pending = []) : s.pieces = s.written ↔ reads evs = (writes evs).map List.length := by
  rw [← h.lengths, ← h.written, List.eq_iff_flatten_eq]
  have hflat := h.conserved
  rw [hdone, List.append_nil] at hflat
  exact and_iff_right hflat

end Stream
