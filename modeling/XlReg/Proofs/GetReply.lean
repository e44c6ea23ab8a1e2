import XlReg.Proofs.Views

/-! The reply to GetCluster. The server's loop runs over the members that a bit map can name,
takes the token of each one asked for, and stops at the first that it cannot make. The reply has
no indices: the bits of its map say which members the tokens belong to. -/

namespace XlReg

open Pack

variable {D : Deps} {rc : RegCluster} {which : UInt64}

def TokenFails (D : Deps) (rc : RegCluster) (which : UInt64) (i : ℕ) : Prop :=
  D.bits.test which i = true ∧ ∃ m e, rc.members[i]? = some m ∧ m.token D = .error e

/-- `f` is the least index below `m` that is asked for and whose token fails, or `m`. -/
structure FirstFailure (D : Deps) (rc : RegCluster) (which : UInt64) (m f : ℕ) : Prop where
  le : f ≤ m
  made : ∀ i < f, ¬ TokenFails D rc which i
  fails : f < m → TokenFails D rc which f

structure Collected (D : Deps) (rc : RegCluster) (which : UInt64) (i : ℕ) (acc : Sending) :
    Prop where
  bits : ∀ j, D.bits.test acc.which j = (D.bits.test which j && decide (j < i))
  tokens : Tokens D rc acc.which i acc.tokens
  made : ∀ j < i, ¬ TokenFails D rc which j

theorem collected_start : Collected D rc which 0 ⟨[], 0⟩ := by
  refine ⟨fun j => ?_, Packed.empty _ _, fun j hj => absurd hj (Nat.not_lt_zero j)⟩
  simp [D.bits.test_zero]

theorem Collected.skip {i : ℕ} {acc : Sending} (h : Collected D rc which i acc)
    (hi : D.bits.test which i = false) : Collected D rc which (i + 1) acc := by
  have hacc : D.bits.test acc.which i = false := by rw [h.bits, hi, Bool.false_and]
  refine ⟨fun j => ?_, h.tokens.skip hacc, fun j hj hf => ?_⟩
  · rw [h.bits]
    by_cases hj : j = i
    · subst hj
      simp [hi]
    · have hiff : j < i ↔ j < i + 1 := by omega
      simp [hiff]
  · by_cases hji : j = i
    · rw [hji, TokenFails, hi] at hf
      exact absurd hf.1 Bool.false_ne_true
    · exact h.made j (by omega) hf

theorem Collected.push {i : ℕ} {acc : Sending} {member : ClientInfo} {t : Token}
    (h : Collected D rc which i acc) (h64 : i < 64) (hi : D.bits.test which i = true)
    (hm : rc.members[i]? = some member) (ht : member.token D = .ok t) :
    Collected D rc which (i + 1) ⟨acc.tokens ++ [t], D.bits.set acc.which i⟩ := by
  have hset : ∀ j, D.bits.test (D.bits.set acc.which i) j =
      (decide (i = j) || D.bits.test acc.which j) := fun j => D.bits.test_set _ _ _ h64
  refine ⟨fun j => ?_, ?_, fun j hj hf => ?_⟩
  · change D.bits.test (D.bits.set acc.which i) j = _
    rw [hset, h.bits]
    by_cases hij : i = j
    · subst hij
      simp [hi]
    · have hiff : j < i ↔ j < i + 1 := by omega
      simp [hij, hiff]
  · have hold : Tokens D rc (D.bits.set acc.which i) i acc.tokens := by
      apply h.tokens.congr
      intro j hj
      rw [hset]
      have hne : i ≠ j := by omega
      simp [hne]
    exact hold.push (by rw [hset]; simp) ⟨member, hm, ht⟩
  · by_cases hji : j = i
    · obtain ⟨-, m, e, hm', he⟩ := hf
      rw [hji, hm] at hm'
      cases hm'
      rw [ht] at he
      cases he
    · exact h.made j (by omega) hf

/-- The loop comes back, with what is asked for below the first failure. -/
theorem getLoop_collected (n : ℕ) {i : ℕ} {acc : Sending} (h : Collected D rc which i acc)
    (h64 : i + n ≤ 64) (hlen : i + n ≤ rc.members.length) :
    ∃ s f, getLoop D rc.members which n i acc = .ok s ∧ FirstFailure D rc which (i + n) f ∧
      Collected D rc which f s := by
  induction n generalizing i acc with
  | zero => exact ⟨acc, i, rfl, ⟨le_refl i, h.made, fun hlt => absurd hlt (lt_irrefl i)⟩, h⟩
  | succ n ih =>
    have hsum : i + 1 + n = i + (n + 1) := by omega
    unfold getLoop getIter
    cases hi : D.bits.test which i with
    | false =>
      simp only [Bool.false_eq_true, if_false]
      rw [← hsum]
      exact ih (h.skip hi) (by omega) (by omega)
    | true =>
      obtain ⟨member, hm⟩ : ∃ member, rc.members[i]? = some member :=
        ⟨_, List.getElem?_eq_getElem (by omega)⟩
      simp only [if_true, hm]
      cases ht : member.token D with
      | error e =>
        exact ⟨acc, i, rfl, ⟨by omega, h.made, fun _ => ⟨hi, member, e, hm, ht⟩⟩, h⟩
      | ok t =>
        simp only
        rw [← hsum]
        exact ih (h.push (by omega) hi hm ht) (by omega) (by omega)

theorem getSize_eq (hn : rc.members.length < 2 ^ 32) : getSize rc = min rc.members.length 64 := by
  rw [getSize_eq_min, Nat.mod_eq_of_lt hn]

theorem tokenFails_toSend {m i : ℕ} (h64 : m ≤ 64) (hi : i < m) :
    TokenFails D rc (D.bits.intersection which (D.bits.lowNMap m)) i ↔ TokenFails D rc which i := by
  simp [TokenFails, D.bits.test_intersection, D.bits.test_lowNMap _ _ h64, hi]

theorem FirstFailure.of_toSend {m f : ℕ} (h64 : m ≤ 64)
    (h : FirstFailure D rc (D.bits.intersection which (D.bits.lowNMap m)) m f) :
    FirstFailure D rc which m f := by
  refine ⟨h.le, fun i hi hf => ?_, fun hlt => (tokenFails_toSend h64 hlt).1 (h.fails hlt)⟩
  exact h.made i hi ((tokenFails_toSend h64 (lt_of_lt_of_le hi h.le)).2 hf)

/-- The reply holds the tokens of the members requested below the first failure, in the order of
their bits, and nothing else is changed. -/
theorem doGetMsg_reply (D : Deps) (w : World) (h : InHandler) (draws : List NodeID) (bKey : Bytes)
    (p : Ptr) (rc : RegCluster) (hkey : newBytesKey D h.msgIn.clusterID = .ok bKey)
    (hfind : w.reg.clustersByID.find D bKey = .ok (some p)) (hp : w.deref p = .ok rc)
    (hn : rc.members.length < 2 ^ 32) :
    ∃ (s : Sending) (f : ℕ),
      doGetMsg D w h draws = .ok (w, h.reply (getReply h.msgIn.clusterID s) .joinRcvd) ∧
      FirstFailure D rc h.msgIn.getWhich (min rc.members.length 64) f ∧
      (∀ j, D.bits.test s.which j = true ↔ D.bits.test h.msgIn.getWhich j = true ∧ j < f) ∧
      s.tokens.length = Nat.count (fun j => D.bits.test s.which j = true) 64 ∧
      ∀ k < s.tokens.length, ∃ t, s.tokens[k]? = some t ∧
        ∃ member, rc.members[Nat.nth (fun j => D.bits.test s.which j = true) k]? = some member ∧
          member.token D = .ok t := by
  obtain ⟨h64, hlen⟩ := getSize_le rc
  have hstart : Collected D rc
      (D.bits.intersection h.msgIn.getWhich (D.bits.lowNMap (getSize rc))) 0 ⟨[], 0⟩ :=
    collected_start
  obtain ⟨s, f, hs, hff, hc⟩ := getLoop_collected (getSize rc) hstart (by omega) (by omega)
  rw [Nat.zero_add] at hff
  have hbits : ∀ j, D.bits.test s.which j = true ↔ D.bits.test h.msgIn.getWhich j = true ∧ j < f := by
    intro j
    have hle := hff.le
    simp only [hc.bits, D.bits.test_intersection, D.bits.test_lowNMap _ _ h64, Bool.and_eq_true,
      decide_eq_true_eq]
    constructor
    · rintro ⟨⟨hj, -⟩, hjf⟩
      exact ⟨hj, hjf⟩
    · rintro ⟨hj, hjf⟩
      exact ⟨⟨hj, by omega⟩, hjf⟩
  refine ⟨s, f, ?_, ?_, hbits, ?_, fun k hk => hc.tokens.nth hk⟩
  · simp only [doGetMsg, hkey, hfind, hp, hs]
  · rw [← getSize_eq hn]
    exact hff.of_toSend h64
  · have hle := hff.le
    refine (hc.tokens.widen (m := 64) (by omega) ?_).length
    intro j hj _
    by_contra hb
    have := ((hbits j).1 (by simpa using hb)).2
    omega

def Sample.joined : World :=
  ⟨{ (World.init (.rep 9)).reg with
      clusters := [0], clustersByID := ⟨AList.insert (NodeID.rep 0).value 0 ∅⟩ },
    [{ cluster with members := [client 0 "a" 1, client 1 "b" 2] }], 2⟩

/-- Three members asked for, of the two there are. -/
theorem doGetMsg_reply_sample :
    let h : InHandler := { msgIn := Sample.get (.rep 0) 7 }
    ∃ s, doGetMsg .plain Sample.joined h [] =
        .ok (Sample.joined, h.reply (getReply (some (NodeID.rep 0).value) s) .joinRcvd) ∧
      s.tokens.length = Nat.count (fun j => Deps.plain.bits.test s.which j = true) 64 := by
  obtain ⟨s, f, hs, -, -, hlen, -⟩ := doGetMsg_reply .plain Sample.joined
    { msgIn := Sample.get (.rep 0) 7 } [] (NodeID.rep 0).value 0
    { Sample.cluster with members := [Sample.client 0 "a" 1, Sample.client 1 "b" 2] }
    rfl rfl rfl (by decide)
  exact ⟨s, hs, hlen⟩

end XlReg
