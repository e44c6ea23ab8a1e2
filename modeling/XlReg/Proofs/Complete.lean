import XlReg.Proofs.Limits
import XlReg.Proofs.Views
import XlReg.Sanity.Polls
import XlReg.Spec.Joining

/-! What a client has when its Join was answered and `GetAndMembers` has returned without an error.
The loop ends after 32 rounds, complete or not; a token that does not decode leaves an error that the
next one takes away; and the registry admits more members than the maximum size, so that a client
may not be among those it collects. -/

namespace XlReg

variable {D : Deps} {maxSize : UInt32} {rc : RegCluster} {mm mm' : MemberMaker} {served : ℕ}

/-! Members whose tokens are made and decode. -/

def Decodes (D : Deps) (rc : RegCluster) (i : ℕ) : Prop := ∃ mi, Describes D rc i mi

/-- While the cluster grows, nothing changes about the members that it has. -/
theorem TokenOf.of_grows_back {rc' : RegCluster} (hg : rc.Grows rc') {i : ℕ} {t : Token}
    (hi : i < rc.members.length) (h : TokenOf D rc' i t) : TokenOf D rc i t := by
  obtain ⟨m, hm, ht⟩ := h
  obtain ⟨rest, hrest⟩ := hg.members
  refine ⟨m, ?_, ht⟩
  rw [← hrest, List.getElem?_append_left hi] at hm
  exact hm

theorem Decodes.of_grows_back {rc' : RegCluster} (hg : rc.Grows rc') {i : ℕ}
    (hi : i < rc.members.length) (h : Decodes D rc' i) : Decodes D rc i := by
  obtain ⟨mi, t, ht, hmi⟩ := h
  exact ⟨mi, t, ht.of_grows_back hg hi, hmi⟩

theorem TokenOf.unique {i : ℕ} {t t' : Token} (h : TokenOf D rc i t) (h' : TokenOf D rc i t') : t = t' := by
  obtain ⟨m, hm, ht⟩ := h
  obtain ⟨m', hm', ht'⟩ := h'
  rw [hm] at hm'
  cases hm'
  rw [ht] at ht'
  exact Except.ok.inj ht'

theorem Decodes.of_token {i : ℕ} {t : Token} (h : Decodes D rc i) (ht : TokenOf D rc i t)
    (draw : NodeID) : ∃ mi, newMemberInfoFromToken D draw (some t) = .ok mi := by
  obtain ⟨mi, t', ht', hmi⟩ := h
  rw [ht.unique ht']
  exact ⟨mi, hmi draw⟩

theorem Describes.nodeID {i : ℕ} {mi : MemberInfo} (h : Describes D rc i mi) :
    ∃ m, rc.members[i]? = some m ∧ mi.nodeID = m.nodeID := by
  obtain ⟨t, ⟨m, hm, ht⟩, hmi⟩ := h
  refine ⟨m, hm, ?_⟩
  have hid := ClientInfo.token_id ht
  have hdec := hmi m.nodeID
  unfold newMemberInfoFromToken at hdec
  simp only [hid, xiNew, nodeIDOf_value] at hdec
  repeat' split at hdec
  all_goals cases hdec
  rfl

/-! The table while the client polls. -/

theorem filled_take {members : List (Option MemberInfo)} {n i : ℕ} (hi : i < n) :
    Filled (members.take n) i ↔ Filled members i := by
  unfold Filled
  rw [List.getElem?_take_of_lt hi]

/-- The slot is on its way to be filled: its token is about to be sent, has been sent, or waits to be
unpacked; or the client has given up with an error. -/
def OnItsWay (D : Deps) (mm : MemberMaker) (i : ℕ) : Prop :=
  match mm.pc with
  | .serving _ whichToSend size k sent =>
    if i < k then D.bits.test sent.which i = true
    else i < size ∧ D.bits.test whichToSend i = true
  | .response _ msg => D.bits.test msg.getWhich i = true
  | .unpacking _ which _ k _ => k ≤ i ∧ D.bits.test which i = true
  | .returned => mm.err ≠ none
  | .head _ | .clearing _ _ | .request _ | .requested _ => False

/-- What is on its way lies below the size that the server has seen. -/
def Within (D : Deps) (served : ℕ) : Progress → Prop
  | .serving _ _ size _ _ => size ≤ served
  | .response _ msg => ∀ i < 64, D.bits.test msg.getWhich i = true → i < served
  | .unpacking _ which _ _ _ => ∀ i < 64, D.bits.test which i = true → i < served
  | _ => True

/-- A client of a cluster of maximum size `maxSize`, of which the server has seen `served` members
when it took a request. Those slots are filled or on their way, up to the first whose token is not
made or does not decode; and no others are filled. -/
structure Tracked (D : Deps) (maxSize : UInt32) (rc : RegCluster) (mm : MemberMaker) (served : ℕ) :
    Prop where
  right : mm.cut.Right D maxSize rc
  seen : served ≤ rc.members.length
  due : ∀ i < maxSize.toNat, i < served → (∀ j ≤ i, Decodes D rc j) →
    Filled mm.members i ∨ OnItsWay D mm i
  past : ∀ i < maxSize.toNat, Filled mm.members i → i < served
  within : Within D served mm.pc

theorem Tracked.of_grows {rc' : RegCluster} (h : Tracked D maxSize rc mm served) (hg : rc.Grows rc') :
    Tracked D maxSize rc' mm served := by
  refine ⟨⟨h.right.max, h.right.slots.of_grows hg, h.right.track.of_grows hg⟩,
    h.seen.trans hg.members.length_le, fun i hi hs hdec => h.due i hi hs fun j hj => ?_, h.past, h.within⟩
  have hlen := h.seen
  exact (hdec j hj).of_grows_back hg (by omega)

/-! A step of the client. -/

theorem finish_members (mm : MemberMaker) : mm.finish.members = mm.members := by
  unfold MemberMaker.finish
  split <;> rfl

theorem finish_pc (mm : MemberMaker) : mm.finish.pc = .returned := by
  unfold MemberMaker.finish
  split <;> rfl

theorem finish_err (mm : MemberMaker) : mm.finish.err = mm.err := by
  unfold MemberMaker.finish
  split <;> rfl

theorem endLoop_members (mm : MemberMaker) (count : ℕ) : (mm.endLoop D count).members = mm.members := by
  unfold MemberMaker.endLoop
  split_ifs
  · rfl
  · exact finish_members mm

theorem within_endLoop (mm : MemberMaker) (count : ℕ) : Within D served (mm.endLoop D count).pc := by
  unfold MemberMaker.endLoop
  split_ifs
  · trivial
  · rw [finish_pc]
    trivial

theorem served_le (rc : RegCluster) (mm : MemberMaker) (x : Chance) (served : ℕ) :
    served ≤ mm.servedAt rc x served := by
  unfold MemberMaker.servedAt
  split
  · exact le_max_left _ _
  · exact le_rfl

theorem servedAt_of_untaken {x : Chance} (h : ∀ count, mm.pc = .requested count → x.failure ≠ none) :
    mm.servedAt rc x served = served := by
  unfold MemberMaker.servedAt
  split
  · rename_i hpc hx
    exact absurd hx (h _ hpc)
  · rfl

/-! The loop of the server at `k`: what is below has been sent, the rest is to come. -/

section Serving

variable {w which : UInt64} {size k i : ℕ}
  (h : if i < k then D.bits.test which i = true else i < size ∧ D.bits.test w i = true)
include h

theorem to_come_token (hk : k < 64) :
    if i < k + 1 then D.bits.test (D.bits.set which k) i = true else i < size ∧ D.bits.test w i = true := by
  rw [D.bits.test_set _ _ _ hk]
  by_cases hik : i < k
  · rw [if_pos hik] at h
    rw [if_pos (by omega), h, Bool.or_true]
  · rw [if_neg hik] at h
    by_cases heq : k = i
    · rw [if_pos (by omega), heq]
      simp
    · rw [if_neg (by omega)]
      exact h

theorem to_come_skipped (hb : ¬ D.bits.test w k = true) :
    if i < k + 1 then D.bits.test which i = true else i < size ∧ D.bits.test w i = true := by
  by_cases hik : i < k
  · rw [if_pos hik] at h
    rw [if_pos (by omega)]
    exact h
  · rw [if_neg hik] at h
    have hne : i ≠ k := by
      rintro rfl
      exact hb h.2
    rw [if_neg (by omega)]
    exact h

theorem to_come_all (hk : ¬ k < size) : D.bits.test which i = true := by
  by_cases hik : i < k
  · rwa [if_pos hik] at h
  · rw [if_neg hik] at h
    omega

/-- The server does not stop before a member whose token is made, if those of the others are too. -/
theorem to_come_stopped {m : ClientInfo} {e : Err} (hdec : ∀ j ≤ i, Decodes D rc j)
    (hmem : rc.members[k]? = some m) (htok : m.token D = .error e) : D.bits.test which i = true := by
  by_cases hik : i < k
  · rwa [if_pos hik] at h
  · obtain ⟨mi, t, ⟨m', hm', ht'⟩, -⟩ := hdec k (by omega)
    cases hmem.symm.trans hm'
    cases htok.symm.trans ht'

end Serving

/-- The client's loop over the tokens has not come to the slot. -/
theorem to_unpack_past {which : UInt64} {k i : ℕ} (h : k ≤ i ∧ D.bits.test which i = true) (hne : k ≠ i) :
    k + 1 ≤ i ∧ D.bits.test which i = true :=
  ⟨by omega, h.2⟩

section Step

variable {x : Chance} (h : Tracked D maxSize rc mm served) (h64 : maxSize.toNat ≤ 64)
  (hm : mm.Moves D rc x mm') (hret : mm.pc ≠ .returned)
include h

theorem Tracked.tokenOf {count k offset : ℕ} {which : UInt64} {tokens : List Token} {t : Token}
    (hpc : mm.pc = .unpacking count which tokens k offset) (hk : k < 64)
    (hb : D.bits.test which k = true) (ht : tokens[offset]? = some t) : TokenOf D rc k t := by
  have htrack := h.right.track
  rw [show mm.cut.pc = _ from hpc] at htrack
  obtain ⟨htok, hoff, -⟩ := htrack
  obtain ⟨t', ht', hof⟩ := htok.get k hk hb
  rw [← hoff, ht] at ht'
  cases ht'
  exact hof

/-! A slot that is due, at the places where something happens to it. -/

theorem Tracked.due_untaken {i : ℕ} (hi : i < maxSize.toNat)
    (hno : ∀ count, mm.pc = .requested count → x.failure ≠ none) (hs : i < mm.servedAt rc x served)
    (hdec : ∀ j ≤ i, Decodes D rc j) : Filled mm.members i ∨ OnItsWay D mm i := by
  rw [servedAt_of_untaken hno] at hs
  exact h.due i hi hs hdec

/-- A slot that is neither filled nor asked for does not exist. -/
theorem Tracked.asked_for {i : ℕ} (hi : i < maxSize.toNat) (hf : ¬ Filled mm.members i) :
    D.bits.test mm.stillToGet i = true := by
  by_contra hb
  have hcut := h.right.slots.bits i hi (show D.bits.test mm.stillToGet i = false by simpa using hb)
  change Filled (mm.members.take mm.clusterMaxSize.toNat) i at hcut
  rw [show mm.clusterMaxSize = maxSize from h.right.max] at hcut
  exact hf ((filled_take hi).1 hcut)

theorem Tracked.due_taken {i count : ℕ} (hpc : mm.pc = .requested count) (hi : i < maxSize.toNat)
    (hs : i < max served (getSize rc)) (hdec : ∀ j ≤ i, Decodes D rc j) :
    Filled mm.members i ∨ i < getSize rc ∧
      D.bits.test (D.bits.intersection mm.stillToGet (D.bits.lowNMap (getSize rc))) i = true := by
  by_cases hf : Filled mm.members i
  · exact .inl hf
  · have hsize : i < getSize rc := by
      rcases lt_max_iff.1 hs with hs | hs
      · exact absurd (by simpa [OnItsWay, hpc] using h.due i hi hs hdec) hf
      · exact hs
    refine .inr ⟨hsize, ?_⟩
    rw [D.bits.test_intersection, h.asked_for hi hf, D.bits.test_lowNMap _ _ (getSize_le rc).1]
    simp [hsize]

section Unpacking

variable {i count k offset : ℕ} {which : UInt64} {tokens : List Token}
  (hpc : mm.pc = .unpacking count which tokens k offset) (hi : i < maxSize.toNat)
  (hdue : Filled mm.members i ∨ OnItsWay D mm i)
include hpc hi hdue

theorem Tracked.due_bad (h64 : maxSize.toNat ≤ 64) (hdec : ∀ j ≤ i, Decodes D rc j) {t : Token} {e : Err}
    (hb : D.bits.test which k = true) (ht : tokens[offset]? = some t)
    (hd : newMemberInfoFromToken D x.draw (some t) = .error e) :
    Filled (mm.members.set k none) i ∨ k + 1 ≤ i ∧ D.bits.test which i = true := by
  have hne : k ≠ i := by
    rintro rfl
    obtain ⟨mi, hmi⟩ := (hdec k le_rfl).of_token (h.tokenOf hpc (by omega) hb ht) x.draw
    rw [hd] at hmi
    cases hmi
  simp only [OnItsWay, hpc] at hdue
  exact hdue.imp (filled_set_ne hne _).2 fun hway => to_unpack_past hway hne

theorem Tracked.due_good (mi : MemberInfo) :
    Filled (mm.members.set k (some mi)) i ∨ k + 1 ≤ i ∧ D.bits.test which i = true := by
  by_cases hne : k = i
  · subst hne
    have hlen := h.right.slots.length
    change (mm.members.take _).length = _ at hlen
    rw [List.length_take] at hlen
    exact .inl ⟨mi, List.getElem?_set_self (by omega)⟩
  · simp only [OnItsWay, hpc] at hdue
    exact hdue.imp (filled_set_ne hne _).2 fun hway => to_unpack_past hway hne

end Unpacking

include hm hret

theorem Tracked.within_step : Within D (mm.servedAt rc x served) mm'.pc := by
  have hw := h.within
  have htrack : OnTrack D rc maxSize.toNat mm.cut.members mm.stillToGet mm.pc := h.right.track
  have hle := served_le rc mm x served
  -- what has been sent is asked for by the response
  have hanswer : ∀ {count size k : ℕ} {w : UInt64} {sent : Sending},
      mm.pc = .serving count w size k sent →
      Within D (mm.servedAt rc x served) (mm.answered count sent).pc := by
    intro count size k w sent hpc i hi hb
    rw [hpc] at hw htrack
    obtain ⟨-, -, -, hbelow, -, hk, -⟩ := htrack
    have hlt := hbelow i hi hb
    change size ≤ served at hw
    omega
  cases hm with
  | enter | empty | filled | cleared | written => trivial
  | leave => rw [finish_pc]; trivial
  | unwritten => rw [finish_pc]; trivial
  | unread => rw [finish_pc]; trivial
  | refused hpc hx =>
    intro i _ hb
    rw [show (errorMsg _).getWhich = 0 from rfl, D.bits.test_zero] at hb
    cases hb
  | taken hpc hx =>
    change getSize rc ≤ _
    simp only [MemberMaker.servedAt, hpc, hx]
    exact le_max_right _ _
  | noToken hpc => exact hanswer hpc
  | sentAll hpc => exact hanswer hpc
  | token hpc =>
    rw [hpc] at hw
    exact hw.trans hle
  | skipped hpc =>
    rw [hpc] at hw
    exact hw.trans hle
  | read hpc =>
    rw [hpc] at hw
    exact fun i hi hb => (hw i hi hb).trans_le hle
  | readNone => exact within_endLoop _ _
  | unpacked => exact within_endLoop _ _
  | bad hpc | good hpc | unasked hpc =>
    rw [hpc] at hw
    exact fun i hi hb => (hw i hi hb).trans_le hle
  | again hpc => exact absurd hpc hret

include h64

/-- Only a slot whose token has come is filled. -/
theorem Tracked.past_step {i : ℕ} (hi : i < maxSize.toNat) (hf : Filled mm'.members i) :
    i < mm.servedAt rc x served := by
  have hle := served_le rc mm x served
  have hold : Filled mm.members i → i < mm.servedAt rc x served :=
    fun hf => (h.past i hi hf).trans_le hle
  cases hm with
  | enter | empty | filled | cleared | written | refused | taken | noToken | token | skipped | sentAll
  | read | unasked => exact hold hf
  | leave => exact hold (by rwa [finish_members] at hf)
  | unwritten => exact hold (by rwa [finish_members] at hf)
  | unread => exact hold (by rwa [finish_members] at hf)
  | readNone => exact hold (by rwa [endLoop_members] at hf)
  | unpacked => exact hold (by rwa [endLoop_members] at hf)
  | @bad count k =>
    by_cases hik : k = i
    · subst hik
      obtain ⟨mi, hmi⟩ := hf
      simp [List.getElem?_set] at hmi
    · exact hold ((filled_set_ne hik _).1 hf)
  | @good count k offset which tokens t mi hpc _ hb =>
    by_cases hik : k = i
    · subst hik
      have hw := h.within
      rw [hpc] at hw
      exact (hw k (by omega) hb).trans_le hle
    · exact hold ((filled_set_ne hik _).1 hf)
  | again hpc => exact absurd hpc hret

/-- A slot that is due stays so until it is filled. -/
theorem Tracked.due_step {i : ℕ} (hi : i < maxSize.toNat) (hs : i < mm.servedAt rc x served)
    (hdec : ∀ j ≤ i, Decodes D rc j) : Filled mm'.members i ∨ OnItsWay D mm' i := by
  have hbefore := h.due_untaken (x := x) hi
  cases hm with
  | enter hpc | empty hpc | filled hpc | cleared hpc | written hpc | read hpc =>
    simpa [OnItsWay, hpc] using hbefore (by simp [hpc]) hs hdec
  | leave hpc =>
    rw [finish_members]
    exact .inl (by simpa [OnItsWay, hpc] using hbefore (by simp [hpc]) hs hdec)
  | unwritten => exact .inr (by simp [OnItsWay, finish_pc, finish_err])
  | unread => exact .inr (by simp [OnItsWay, finish_pc, finish_err])
  | refused hpc hx => exact .inl (by simpa [OnItsWay, hpc] using hbefore (by simp [hx]) hs hdec)
  | taken hpc hx =>
    simp only [MemberMaker.servedAt, hpc, hx] at hs
    simpa [OnItsWay] using h.due_taken hpc hi hs hdec
  | noToken hpc _ _ hmem htok =>
    have hdue := hbefore (by simp [hpc]) hs hdec
    simp only [OnItsWay, hpc] at hdue
    exact hdue.imp id fun hway => to_come_stopped hway hdec hmem htok
  | token hpc hk =>
    have hdue := hbefore (by simp [hpc]) hs hdec
    have htrack : OnTrack D rc maxSize.toNat mm.cut.members mm.stillToGet mm.pc := h.right.track
    rw [hpc] at htrack
    obtain ⟨-, -, -, -, -, -, hsize, -⟩ := htrack
    simp only [OnItsWay, hpc] at hdue
    exact hdue.imp id fun hway => to_come_token hway (by omega)
  | skipped hpc _ hb =>
    have hdue := hbefore (by simp [hpc]) hs hdec
    simp only [OnItsWay, hpc] at hdue
    exact hdue.imp id fun hway => to_come_skipped hway (by simp [hb])
  | sentAll hpc hk =>
    have hdue := hbefore (by simp [hpc]) hs hdec
    simp only [OnItsWay, hpc] at hdue
    exact hdue.imp id fun hway => to_come_all hway hk
  | readNone hpc _ hany =>
    have hdue := hbefore (by simp [hpc]) hs hdec
    rw [endLoop_members]
    simp only [OnItsWay, hpc] at hdue
    exact .inl (hdue.resolve_right fun hway => hany ((D.bits.any_iff _).2 ⟨i, hway⟩))
  | bad hpc _ hb ht hd => exact h.due_bad hpc hi (hbefore (by simp [hpc]) hs hdec) h64 hdec hb ht hd
  | good hpc => exact h.due_good hpc hi (hbefore (by simp [hpc]) hs hdec) _
  | unasked hpc _ hb =>
    have hdue := hbefore (by simp [hpc]) hs hdec
    simp only [OnItsWay, hpc] at hdue ⊢
    exact hdue.imp id fun hway => to_unpack_past hway (by rintro rfl; simp [hway.2] at hb)
  | unpacked hpc hk =>
    have hdue := hbefore (by simp [hpc]) hs hdec
    rw [endLoop_members]
    simp only [OnItsWay, hpc] at hdue
    rw [show mm.clusterMaxSize = maxSize from h.right.max] at hk
    exact .inl (hdue.resolve_right fun hway => by omega)
  | again hpc => exact absurd hpc hret

theorem Tracked.step (hst : mm.step D rc x = .ok mm') :
    Tracked D maxSize rc mm' (mm.servedAt rc x served) := by
  obtain ⟨mm₁, hst₁, hright, -⟩ := step_right h64 h.right x
  rw [MemberMaker.step_cut hst] at hst₁
  cases hst₁
  refine ⟨hright, ?_, fun i hi hs hdec => h.due_step h64 hm hret hi hs hdec,
    fun i hi hf => h.past_step h64 hm hret hi hf, h.within_step hm hret⟩
  unfold MemberMaker.servedAt
  split
  · exact max_le h.seen (getSize_le rc).2
  · exact h.seen

end Step

/-! The client's own index. -/

/-- The client's index is 0 until the search at the end. -/
def SelfKept (mm : MemberMaker) : Prop :=
  if mm.pc = .returned then
    mm.err = none → mm.selfIndex = selfIndexIn mm.nodeID (mm.members.take mm.clusterMaxSize.toNat) 0
  else mm.selfIndex = 0

theorem selfKept_of_ne {mm : MemberMaker} (hpc : mm.pc ≠ .returned) (h : mm.selfIndex = 0) :
    SelfKept mm := by
  rw [SelfKept, if_neg hpc]
  exact h

theorem selfKept_finish {mm : MemberMaker} (h : mm.selfIndex = 0) : SelfKept mm.finish := by
  rw [SelfKept, if_pos (finish_pc mm)]
  intro herr
  rw [finish_err] at herr
  simp only [MemberMaker.finish, herr, h]

theorem selfKept_endLoop (mm : MemberMaker) (h : mm.selfIndex = 0) (count : ℕ) :
    SelfKept (mm.endLoop D count) := by
  unfold MemberMaker.endLoop
  split_ifs
  · exact selfKept_of_ne (by simp) h
  · exact selfKept_finish h

theorem selfKept_step {x : Chance} (h : SelfKept mm) (hm : mm.Moves D rc x mm')
    (hret : mm.pc ≠ .returned) : SelfKept mm' := by
  rw [SelfKept, if_neg hret] at h
  cases hm with
  | enter | empty | filled | cleared | written | refused | taken | noToken | token | skipped | sentAll
  | read | bad | good | unasked => exact selfKept_of_ne (by simp [MemberMaker.answered]) h
  | leave => exact selfKept_finish h
  | unwritten => exact selfKept_finish h
  | unread => exact selfKept_finish h
  | readNone => exact selfKept_endLoop { mm with err := none } h _
  | unpacked => exact selfKept_endLoop mm h _
  | again hpc => exact absurd hpc hret

/-! A table with too few slots. -/

/-- The client does not get through the loop that clears bits. -/
structure Short (D : Deps) (mm : MemberMaker) : Prop where
  short : mm.members.length < mm.clusterMaxSize.toNat
  place : (mm.pc = .head 0 ∧ D.bits.any mm.stillToGet = true) ∨
    ∃ i ≤ mm.members.length, mm.pc = .clearing 0 i

theorem Short.not_returned (h : Short D mm) : mm.pc ≠ .returned := by
  rcases h.place with ⟨hpc, -⟩ | ⟨i, -, hpc⟩
  · rw [hpc]
    simp
  · rw [hpc]
    simp

theorem Short.step {x : Chance} (h : Short D mm) (hst : mm.step D rc x = .ok mm') : Short D mm' := by
  have hshort := h.short
  rcases h.place with ⟨hpc, hany⟩ | ⟨i, hi, hpc⟩
  · simp only [MemberMaker.step, hpc, hany, MAX_GET, Nat.zero_lt_succ, and_self, if_true] at hst
    cases hst
    exact ⟨hshort, .inr ⟨0, Nat.zero_le _, rfl⟩⟩
  · have hlt : i < mm.clusterMaxSize.toNat := by omega
    simp only [MemberMaker.step, hpc, if_pos hlt] at hst
    cases hv : mm.members[i]? with
    | none =>
      simp only [hv] at hst
      cases hst
    | some v =>
      have hnext : i + 1 ≤ mm.members.length := (List.getElem?_eq_some_iff.1 hv).1
      cases v with
      | none =>
        simp only [hv] at hst
        cases hst
        exact ⟨hshort, .inr ⟨i + 1, hnext, rfl⟩⟩
      | some mi =>
        simp only [hv] at hst
        cases hst
        exact ⟨hshort, .inr ⟨i + 1, hnext, rfl⟩⟩

/-! The system. -/

def JoinerKnown (D : Deps) (maxSize : UInt32) (rc : RegCluster) : Joiner → Prop
  | .adding _ _ => True
  | .getting mm served => (Tracked D maxSize rc mm served ∧ SelfKept mm) ∨ Short D mm

theorem joined_known (e : Entrant) (hmax : rc.maxSize = maxSize) (hpos : 0 < maxSize.toNat)
    (h64 : maxSize.toNat ≤ 64) : JoinerKnown D maxSize rc (.getting (e.joined D rc) 0) := by
  have hsize : (e.joined D rc).clusterMaxSize = maxSize := hmax
  have hnil : ∀ (i : ℕ) mi, (e.joined D rc).members[i]? ≠ some (some mi) := by
    intro i mi
    simp only [Entrant.joined, MemberMaker.getAndMembers, resized]
    split_ifs <;> simp [List.getElem?_replicate]
  by_cases hlen : maxSize.toNat ≤ (e.joined D rc).members.length
  · -- the call has just been made, with no slot filled
    have hcut : (e.joined D rc).cut = MemberMaker.getAndMembers D (e.joined D rc).cut := rfl
    have hright : (e.joined D rc).cut.Right D maxSize rc := by
      rw [hcut]
      refine getAndMembers_right _ hmax h64 ?_ fun i mi hi => ?_
      · change ((e.joined D rc).members.take (e.joined D rc).clusterMaxSize.toNat).length = _
        rw [List.length_take, hsize]
        exact min_eq_left hlen
      · change ((e.joined D rc).members.take _)[i]? = _ at hi
        rw [List.getElem?_take] at hi
        split_ifs at hi
        exact absurd hi (hnil i mi)
    refine .inl ⟨⟨hright, Nat.zero_le _, fun i _ hs => ?_, fun i _ hf => ?_, trivial⟩, ?_⟩
    · exact absurd hs (Nat.not_lt_zero i)
    · obtain ⟨mi, hmi⟩ := hf
      exact absurd hmi (hnil i mi)
    · exact selfKept_of_ne (by simp [Entrant.joined, MemberMaker.getAndMembers]) rfl
  · refine .inr ⟨by rw [hsize]; omega, .inl ⟨rfl, (D.bits.any_iff _).2 ⟨0, ?_⟩⟩⟩
    change D.bits.test (D.bits.lowNMap rc.maxSize.toNat) 0 = true
    rw [D.bits.test_lowNMap _ _ (by rw [hmax]; exact h64), hmax]
    simpa using hpos

theorem joining_contract (D : Deps) (hpos : 0 < maxSize.toNat) (h64 : maxSize.toNat ≤ 64) :
    Parties.Contract (joining D) (fun _ _ _ => True) (fun rc => rc.maxSize = maxSize)
      RegCluster.Grows (JoinerKnown D maxSize) where
  start rc e _ := trivial
  step rc p x rc' p' hI hJ _ hr := by
    cases p with
    | adding c e =>
      by_cases hphase : c.phase = .returned none
      · simp only [joining, hphase] at hr
        cases hr
        exact ⟨hI, .refl rc, joined_known e hI hpos h64⟩
      · have hstep : (joining D).step rc (.adding c e) x =
            .ok ((callStep D rc c).1, .adding (callStep D rc c).2 e) := by
          simp only [joining]
        rw [hstep] at hr
        cases hr
        have hg := grows_callStep D rc c
        exact ⟨hg.maxSize.trans hI, hg, trivial⟩
    | getting mm served =>
      by_cases hret : mm.pc = .returned
      · simp only [joining, if_pos hret] at hr
        cases hr
        exact ⟨hI, .refl rc, hJ⟩
      · simp only [joining, if_neg hret] at hr
        cases hst : mm.step D rc x with
        | error a => rw [hst] at hr; cases hr
        | ok mm' =>
          rw [hst] at hr
          cases hr
          have hm := MemberMaker.step_moves hst
          refine ⟨hI, .refl rc, ?_⟩
          rcases hJ with ⟨htr, hself⟩ | hshort
          · exact .inl ⟨htr.step h64 hm hret hst, selfKept_step hself hm hret⟩
          · exact .inr (hshort.step hst)
  stable rc rc' p _ hJ hg := by
    cases p with
    | adding c e => trivial
    | getting mm served => exact hJ.imp_left fun ⟨htr, hself⟩ => ⟨htr.of_grows hg, hself⟩

/-! A call that has returned without an error. -/

def Complete (mm : MemberMaker) : Prop := ∀ i < mm.clusterMaxSize.toNat, Filled mm.members i

def FindsSelf (mm : MemberMaker) : Prop :=
  ∃ mi, mm.members[mm.selfIndex]? = some (some mi) ∧ mi.nodeID = mm.nodeID

instance (members : List (Option MemberInfo)) (i : ℕ) : Decidable (Filled members i) :=
  decidable_of_iff (members[i]?.join.isSome = true) (by
    rw [Option.isSome_iff_exists]
    exact exists_congr fun mi => Option.join_eq_some_iff)

instance (mm : MemberMaker) : Decidable (Complete mm) :=
  inferInstanceAs (Decidable (∀ i < mm.clusterMaxSize.toNat, Filled mm.members i))

instance (mm : MemberMaker) : Decidable (FindsSelf mm) :=
  decidable_of_iff ((mm.members[mm.selfIndex]?.join.any fun mi => mi.nodeID = mm.nodeID) = true) (by
    rw [Option.any_eq_true]
    exact exists_congr fun mi => and_congr Option.join_eq_some_iff decide_eq_true_iff)

theorem Tracked.describes (h : Tracked D maxSize rc mm served) {i : ℕ} {mi : MemberInfo}
    (hi : i < maxSize.toNat) (hmi : mm.members[i]? = some (some mi)) : Describes D rc i mi := by
  apply h.right.slots.slots i mi
  change (mm.members.take mm.clusterMaxSize.toNat)[i]? = _
  rw [show mm.clusterMaxSize = maxSize from h.right.max, List.getElem?_take_of_lt hi]
  exact hmi

theorem Tracked.complete_iff (h : Tracked D maxSize rc mm served) (hret : mm.pc = .returned)
    (herr : mm.err = none) :
    Complete mm ↔ maxSize.toNat ≤ served ∧ ∀ i < maxSize.toNat, Decodes D rc i := by
  have hmax : mm.clusterMaxSize = maxSize := h.right.max
  unfold Complete
  rw [hmax]
  constructor
  · intro hall
    refine ⟨?_, fun i hi => ?_⟩
    · by_contra hlt
      have hlast := h.past (maxSize.toNat - 1) (by omega) (hall _ (by omega))
      omega
    · obtain ⟨mi, hmi⟩ := hall i hi
      exact ⟨mi, h.describes hi hmi⟩
  · rintro ⟨hserved, hdec⟩ i hi
    rcases h.due i hi (by omega) (fun j hj => hdec j (by omega)) with hf | hway
    · exact hf
    · simp only [OnItsWay, hret] at hway
      exact absurd herr hway

theorem selfIndexIn_finds {nodeID : NodeID} {slots : List (Option MemberInfo)} {i : ℕ} {mi : MemberInfo}
    (hi : slots[i]? = some (some mi)) (hid : mi.nodeID = nodeID) (old : ℕ) :
    ∃ mi', slots[selfIndexIn nodeID slots old]? = some (some mi') ∧ mi'.nodeID = nodeID := by
  unfold selfIndexIn
  cases hf : slots.findIdx? fun mi => mi.any fun mi => mi.nodeID.value == nodeID.value with
  | none =>
    have hno := List.findIdx?_eq_none_iff.1 hf _ (List.mem_of_getElem? hi)
    simp [hid] at hno
  | some k =>
    obtain ⟨hlt, hk, -⟩ := List.findIdx?_eq_some_iff_getElem.1 hf
    obtain ⟨mi', hmi', hown⟩ := (Option.any_eq_true _ _).1 hk
    exact ⟨mi', by rw [Option.getD_some, List.getElem?_eq_getElem hlt, hmi'],
      NodeID.value_inj.1 (by simpa using hown)⟩

theorem selfIndexIn_lt (nodeID : NodeID) {slots : List (Option MemberInfo)} {n : ℕ} (hpos : 0 < n)
    (hlen : slots.length ≤ n) : selfIndexIn nodeID slots 0 < n := by
  unfold selfIndexIn
  cases hf : slots.findIdx? fun mi => mi.any fun mi => mi.nodeID.value == nodeID.value with
  | none => exact hpos
  | some k =>
    obtain ⟨hlt, -⟩ := List.findIdx?_eq_some_iff_getElem.1 hf
    exact hlt.trans_le hlen

/-- In a complete table the client finds itself exactly if it is one of the members there. -/
theorem Tracked.findsSelf_iff (h : Tracked D maxSize rc mm served) (hself : SelfKept mm)
    (hret : mm.pc = .returned) (herr : mm.err = none) (hpos : 0 < maxSize.toNat) (hall : Complete mm) :
    FindsSelf mm ↔ ∃ i < maxSize.toNat, ∃ m, rc.members[i]? = some m ∧ m.nodeID = mm.nodeID := by
  have hmax : mm.clusterMaxSize = maxSize := h.right.max
  rw [SelfKept, if_pos hret, hmax] at hself
  have hindex := hself herr
  constructor
  · rintro ⟨mi, hmi, hown⟩
    have hlt : mm.selfIndex < maxSize.toNat := by
      rw [hindex]
      exact selfIndexIn_lt _ hpos (List.length_take_le _ _)
    obtain ⟨m, hm, hid⟩ := (h.describes hlt hmi).nodeID
    exact ⟨mm.selfIndex, hlt, m, hm, hid.symm.trans hown⟩
  · rintro ⟨i, hi, m, hm, hown⟩
    obtain ⟨mi, hmi⟩ := hall i (by rw [hmax]; exact hi)
    obtain ⟨m', hm', hid⟩ := (h.describes hi hmi).nodeID
    rw [hm] at hm'
    cases hm'
    have htake : (mm.members.take maxSize.toNat)[i]? = some (some mi) := by
      rw [List.getElem?_take_of_lt hi]
      exact hmi
    obtain ⟨mi', hmi', hown'⟩ := selfIndexIn_finds htake (hid.trans hown) 0
    rw [← hindex, List.getElem?_take] at hmi'
    split_ifs at hmi'
    exact ⟨mi', hmi', hown'⟩

/-- Any number of clients join a cluster, as a Create makes it, and collect its members, in any
interleaving. When the call of one of them has returned without an error, its table is complete and
it finds itself in it, exactly if the server took a request of it when the cluster had at least
`ClusterMaxSize` members, the tokens of the first `ClusterMaxSize` members are made and decode, and
the client is one of these members. -/
theorem joined_complete_iff {name : String} {id : NodeID} {attrs : UInt64} {size epCount : UInt32}
    {rc₀ : RegCluster} (hrc : newRegCluster D name id attrs (clampSize size) epCount = .ok rc₀)
    {evs : List (Parties.Event Entrant Chance)} {s : Parties.State RegCluster Joiner}
    (hr : Run.run (joining D).next ⟨rc₀, []⟩ evs = .ok s) {k : ℕ} {mm : MemberMaker} {served : ℕ}
    (hk : s.parties[k]? = some (.getting mm served)) (hret : mm.pc = .returned)
    (herr : mm.err = none) :
    (Complete mm ∧ FindsSelf mm) ↔
      mm.clusterMaxSize.toNat ≤ served ∧ (∀ i < mm.clusterMaxSize.toNat, Decodes D s.shared i) ∧
      ∃ i < mm.clusterMaxSize.toNat, ∃ m, s.shared.members[i]? = some m ∧ m.nodeID = mm.nodeID := by
  obtain ⟨-, -, -, -, hmaxSize, -⟩ := newRegCluster_ok hrc
  obtain ⟨hlow, hhigh⟩ := clampSize_inRange size
  have hpos : 0 < (clampSize size).toNat := lt_of_lt_of_le (by decide) (UInt32.le_iff_toNat_le.1 hlow)
  have h64 : (clampSize size).toNat ≤ 64 := UInt32.le_iff_toNat_le.1 hhigh
  have hstart : Parties.Holds (fun rc : RegCluster => rc.maxSize = clampSize size)
      (JoinerKnown D (clampSize size)) ⟨rc₀, []⟩ :=
    ⟨hmaxSize, fun p hp => absurd hp List.not_mem_nil⟩
  have hs := (joining_contract D hpos h64).holds_of_run hstart hr
  rcases hs.2 _ (List.mem_of_getElem? hk) with ⟨htr, hself⟩ | hshort
  · have hmax : mm.clusterMaxSize = clampSize size := htr.right.max
    rw [hmax]
    have hcomplete := htr.complete_iff hret herr
    constructor
    · rintro ⟨hall, hfinds⟩
      obtain ⟨hserved, hdec⟩ := hcomplete.1 hall
      exact ⟨hserved, hdec, (htr.findsSelf_iff hself hret herr hpos hall).1 hfinds⟩
    · rintro ⟨hserved, hdec, hin⟩
      have hall := hcomplete.2 ⟨hserved, hdec⟩
      exact ⟨hall, (htr.findsSelf_iff hself hret herr hpos hall).2 hin⟩
  · exact absurd hret hshort.not_returned

namespace Sample

/-- Clients made for a size of 2, with their tables. -/
def entrant (addr : ℕ) (name : String) (b : UInt8) : Entrant := ⟨client addr name b, 2, 2⟩

def joinsAlone (k : ℕ) (name : String) (b : UInt8) : List (Parties.Event Entrant Chance) :=
  .enter (entrant k name b) :: List.replicate 4 (.act k ⟨.rep 8, none⟩)

/-- Two clients join, and the second collects the members. -/
def couple : List (Parties.Event Entrant Chance) :=
  joinsAlone 0 "a" 1 ++ joinsAlone 1 "b" 2 ++ List.replicate 13 (.act 1 ⟨.rep 8, none⟩)

/-- Three join, and the third collects the members. -/
def oneTooMany : List (Parties.Event Entrant Chance) :=
  joinsAlone 0 "a" 1 ++ joinsAlone 1 "b" 2 ++ joinsAlone 2 "c" 3 ++
    List.replicate 14 (.act 2 ⟨.rep 8, none⟩)

/-- One joins and polls until it gives up. -/
def alone : List (Parties.Event Entrant Chance) :=
  joinsAlone 0 "a" 1 ++ List.replicate 388 (.act 0 ⟨.rep 8, none⟩)

def pair : RegCluster := ⟨"c", .rep 7, 0, 2, 1, [], ∅, .empty⟩

def returns (k : ℕ) (p : MemberMaker → Bool) (s : Parties.State RegCluster Joiner) : Bool :=
  match s.parties[k]? with
  | some (Joiner.getting mm _) => decide (mm.pc = .returned ∧ mm.err = none) && p mm
  | _ => false

end Sample

theorem pair_made : newRegCluster .plain "c" (.rep 7) 0 (clampSize 2) 1 = .ok Sample.pair := rfl

theorem exists_of_returns (k : ℕ) (p : MemberMaker → Bool) (evs : List (Parties.Event Entrant Chance))
    (h : Run.ends (joining .plain).next ⟨Sample.pair, []⟩ evs (Sample.returns k p) = true) :
    ∃ s mm served, Run.run (joining .plain).next ⟨Sample.pair, []⟩ evs = .ok s ∧
      s.parties[k]? = some (.getting mm served) ∧ mm.pc = .returned ∧ mm.err = none ∧ p mm = true := by
  obtain ⟨s, hr, hp⟩ := Run.exists_of_ends _ _ _ _ h
  unfold Sample.returns at hp
  split at hp
  · rename_i mm served hk
    rw [Bool.and_eq_true, decide_eq_true_iff] at hp
    exact ⟨s, mm, served, hr, hk, hp.1.1, hp.1.2, hp.2⟩
  · cases hp

/-- The second of two clients has both members, and itself among them. -/
theorem joined_complete_sample :
    ∃ s mm served, Run.run (joining .plain).next ⟨Sample.pair, []⟩ Sample.couple = .ok s ∧
      s.parties[1]? = some (.getting mm served) ∧ mm.pc = .returned ∧ mm.err = none ∧
      (Complete mm ∧ FindsSelf mm) ∧ mm.clusterMaxSize.toNat ≤ served := by
  obtain ⟨s, mm, served, hr, hk, hret, herr, hp⟩ := exists_of_returns 1
    (fun mm => decide (Complete mm ∧ FindsSelf mm)) Sample.couple (by decide +kernel)
  have hall := of_decide_eq_true hp
  exact ⟨s, mm, served, hr, hk, hret, herr, hall,
    ((joined_complete_iff pair_made hr hk hret herr).1 hall).1⟩

/-- The third client of a cluster of size 2 has a complete table, and its own index is that of
another. One that stays alone gives up after 32 rounds, without an error, and has a slot empty. -/
theorem joined_incomplete :
    (∃ s mm served, Run.run (joining .plain).next ⟨Sample.pair, []⟩ Sample.oneTooMany = .ok s ∧
      s.parties[2]? = some (.getting mm served) ∧ mm.pc = .returned ∧ mm.err = none ∧
      Complete mm ∧ ¬ FindsSelf mm) ∧
    (∃ s mm served, Run.run (joining .plain).next ⟨Sample.pair, []⟩ Sample.alone = .ok s ∧
      s.parties[0]? = some (.getting mm served) ∧ mm.pc = .returned ∧ mm.err = none ∧
      ¬ Complete mm) := by
  constructor
  · obtain ⟨s, mm, served, hr, hk, hret, herr, hp⟩ := exists_of_returns 2
      (fun mm => decide (Complete mm ∧ ¬ FindsSelf mm)) Sample.oneTooMany (by decide +kernel)
    exact ⟨s, mm, served, hr, hk, hret, herr, of_decide_eq_true hp⟩
  · obtain ⟨s, mm, served, hr, hk, hret, herr, hp⟩ := exists_of_returns 0
      (fun mm => decide (¬ Complete mm)) Sample.alone (by decide +kernel)
    exact ⟨s, mm, served, hr, hk, hret, herr, of_decide_eq_true hp⟩

end XlReg
