import XlReg.Lib.Pack
import XlReg.Sanity.Growth
import XlReg.Sanity.Plain
import XlReg.Spec.Client

/-! What clients know about a cluster. Each polls it with `GetAndMembers` while it grows. A client
asks only for slots that it has not filled, the server sends only what was asked for and what it
has, and both count the bits of the same map to find a member's token. So a filled slot is the
decoding of the member at its index, and nothing resets it. -/

namespace XlReg

open Pack

def TokenOf (D : Deps) (rc : RegCluster) (i : ℕ) (t : Token) : Prop :=
  ∃ m, rc.members[i]? = some m ∧ m.token D = .ok t

def Describes (D : Deps) (rc : RegCluster) (i : ℕ) (mi : MemberInfo) : Prop :=
  ∃ t, TokenOf D rc i t ∧ ∀ draw, newMemberInfoFromToken D draw (some t) = .ok mi

theorem TokenOf.of_grows {D : Deps} {rc rc' : RegCluster} (hg : rc.Grows rc') {i : ℕ} {t : Token}
    (h : TokenOf D rc i t) : TokenOf D rc' i t := by
  obtain ⟨m, hm, ht⟩ := h
  obtain ⟨rest, hrest⟩ := hg.members
  refine ⟨m, ?_, ht⟩
  rw [← hrest, List.getElem?_append_left (List.getElem?_eq_some_iff.1 hm).1, hm]

theorem Describes.of_grows {D : Deps} {rc rc' : RegCluster} (hg : rc.Grows rc') {i : ℕ}
    {mi : MemberInfo} (h : Describes D rc i mi) : Describes D rc' i mi := by
  obtain ⟨t, ht, hmi⟩ := h
  exact ⟨t, ht.of_grows hg, hmi⟩

theorem Describes.unique {D : Deps} {rc : RegCluster} {i : ℕ} {mi mi' : MemberInfo}
    (h : Describes D rc i mi) (h' : Describes D rc i mi') : mi = mi' := by
  obtain ⟨t, ⟨m, hm, ht⟩, hmi⟩ := h
  obtain ⟨t', ⟨m', hm', ht'⟩, hmi'⟩ := h'
  rw [hm] at hm'
  cases hm'
  rw [ht] at ht'
  cases ht'
  have hsame := hmi m.nodeID
  rw [hmi' m.nodeID] at hsame
  exact (Except.ok.inj hsame).symm

theorem ClientInfo.token_id {D : Deps} {m : ClientInfo} {t : Token} (h : m.token D = .ok t) :
    t.id = some m.nodeID.value := by
  unfold ClientInfo.token at h
  split at h
  · cases h
  · split at h <;> cases h
    rfl

theorem TokenOf.describes {D : Deps} {rc : RegCluster} {i : ℕ} {t : Token} {draw : NodeID}
    {mi : MemberInfo} (h : TokenOf D rc i t)
    (hmi : newMemberInfoFromToken D draw (some t) = .ok mi) : Describes D rc i mi := by
  refine ⟨t, h, ?_⟩
  intro draw'
  obtain ⟨m, -, ht⟩ := h
  have hid := ClientInfo.token_id ht
  unfold newMemberInfoFromToken at hmi ⊢
  simp only [hid, xiNew] at hmi ⊢
  exact hmi

/-! A client's slots and bits. -/

def Filled (members : List (Option MemberInfo)) (i : ℕ) : Prop := ∃ mi, members[i]? = some (some mi)

theorem filled_set_ne {members : List (Option MemberInfo)} {i j : ℕ} (hij : i ≠ j)
    (v : Option MemberInfo) : Filled (members.set i v) j ↔ Filled members j := by
  unfold Filled
  rw [List.getElem?_set_ne hij]

/-- Filled slots describe the members at their index, and a bit is clear only for a filled slot. -/
structure Slots (D : Deps) (rc : RegCluster) (max : ℕ) (members : List (Option MemberInfo))
    (still : UInt64) : Prop where
  length : members.length = max
  slots : ∀ i mi, members[i]? = some (some mi) → Describes D rc i mi
  bits : ∀ i < max, D.bits.test still i = false → Filled members i

section Slots

variable {D : Deps} {rc : RegCluster} {max : ℕ} {members : List (Option MemberInfo)} {still : UInt64}

theorem Slots.of_grows {rc' : RegCluster} (h : Slots D rc max members still) (hg : rc.Grows rc') :
    Slots D rc' max members still :=
  ⟨h.length, fun i mi hi => (h.slots i mi hi).of_grows hg, h.bits⟩

theorem Slots.clear (h : Slots D rc max members still) (hmax : max ≤ 64) {i : ℕ} (hi : i < max)
    (hf : Filled members i) : Slots D rc max members (D.bits.clear still i) := by
  refine ⟨h.length, h.slots, ?_⟩
  intro j hj hb
  rw [D.bits.test_clear still i j (by omega)] at hb
  by_cases hij : i = j
  · exact hij ▸ hf
  · exact h.bits j hj (by simpa [hij] using hb)

theorem Slots.fill (h : Slots D rc max members still) (hmax : max ≤ 64) {i : ℕ} (hi : i < max)
    {mi : MemberInfo} (hmi : Describes D rc i mi) :
    Slots D rc max (members.set i (some mi)) (D.bits.clear still i) := by
  have hlt : i < members.length := by rw [h.length]; exact hi
  refine ⟨by rw [List.length_set]; exact h.length, fun j mj hj => ?_, fun j hj hb => ?_⟩
  · by_cases hij : i = j
    · subst hij
      rw [List.getElem?_set_self hlt] at hj
      cases hj
      exact hmi
    · rw [List.getElem?_set_ne hij] at hj
      exact h.slots j mj hj
  · rw [D.bits.test_clear still i j (by omega)] at hb
    by_cases hij : i = j
    · subst hij
      exact ⟨mi, List.getElem?_set_self hlt⟩
    · exact (filled_set_ne hij _).2 (h.bits j hj (by simpa [hij] using hb))

/-- A slot that was not filled is nil again. -/
theorem Slots.reset (h : Slots D rc max members still) {i : ℕ} (hi : ¬ Filled members i) :
    Slots D rc max (members.set i none) still := by
  refine ⟨by rw [List.length_set]; exact h.length, fun j mj hj => ?_, fun j hj hb => ?_⟩
  · by_cases hij : i = j
    · subst hij
      simp [List.getElem?_set] at hj
    · rw [List.getElem?_set_ne hij] at hj
      exact h.slots j mj hj
  · have hf := h.bits j hj hb
    have hij : i ≠ j := by rintro rfl; exact hi hf
    exact (filled_set_ne hij none).2 hf

end Slots

/-- Only slots that are not filled are asked for. -/
def Asks (D : Deps) (max : ℕ) (members : List (Option MemberInfo)) (still : UInt64) : Prop :=
  ∀ j < max, Filled members j → D.bits.test still j = false

def SubMap (D : Deps) (a b : UInt64) : Prop :=
  ∀ j < 64, D.bits.test a j = true → D.bits.test b j = true

/-- The tokens are those of the members whose bits are in `which`. -/
def Tokens (D : Deps) (rc : RegCluster) (which : UInt64) (n : ℕ) (tokens : List Token) : Prop :=
  Packed (D.bits.test which) n tokens (TokenOf D rc)

/-- What is true of a client at each point of its poll. -/
def OnTrack (D : Deps) (rc : RegCluster) (max : ℕ) (members : List (Option MemberInfo))
    (still : UInt64) : Progress → Prop
  | .head _ => True
  | .clearing _ i => ∀ j < i, j < max → Filled members j → D.bits.test still j = false
  | .request _ => Asks D max members still
  | .requested _ => Asks D max members still
  | .serving _ whichToSend size i sent =>
    Asks D max members still ∧ SubMap D whichToSend still ∧ SubMap D sent.which whichToSend ∧
      (∀ j < 64, D.bits.test sent.which j = true → j < i) ∧ Tokens D rc sent.which i sent.tokens ∧
      i ≤ size ∧ size ≤ 64 ∧ size ≤ rc.members.length
  | .response _ msg =>
    Asks D max members still ∧ SubMap D msg.getWhich still ∧ Tokens D rc msg.getWhich 64 msg.tokens
  | .unpacking _ which tokens i offset =>
    Tokens D rc which 64 tokens ∧ offset = Nat.count (D.bits.test which · = true) i ∧
      ∀ j, i ≤ j → j < max → D.bits.test which j = true → ¬ Filled members j
  | .returned => True

theorem OnTrack.of_grows {D : Deps} {rc rc' : RegCluster} {max : ℕ}
    {members : List (Option MemberInfo)} {still : UInt64} {pc : Progress}
    (h : OnTrack D rc max members still pc) (hg : rc.Grows rc') :
    OnTrack D rc' max members still pc := by
  have htok : ∀ j t, TokenOf D rc j t → TokenOf D rc' j t := fun j t ht => ht.of_grows hg
  cases pc with
  | serving count whichToSend size i sent =>
    obtain ⟨h1, h2, h3, h4, h5, h6, h7, h8⟩ := h
    exact ⟨h1, h2, h3, h4, h5.mono htok, h6, h7, h8.trans hg.members.length_le⟩
  | response count msg => exact ⟨h.1, h.2.1, h.2.2.mono htok⟩
  | unpacking count which tokens i offset => exact ⟨h.1.mono htok, h.2.1, h.2.2⟩
  | head | clearing | request | requested | returned => exact h

/-- A client of a cluster with maximum size `maxSize`. -/
structure MemberMaker.Right (D : Deps) (maxSize : UInt32) (rc : RegCluster) (mm : MemberMaker) :
    Prop where
  max : mm.clusterMaxSize = maxSize
  slots : Slots D rc maxSize.toNat mm.members mm.stillToGet
  track : OnTrack D rc maxSize.toNat mm.members mm.stillToGet mm.pc

def MemberMaker.Keeps (mm mm' : MemberMaker) : Prop :=
  ∀ (i : ℕ) mi, mm.members[i]? = some (some mi) → mm'.members[i]? = some (some mi)

section Step

variable {D : Deps} {maxSize : UInt32} {rc : RegCluster} {mm : MemberMaker}

theorem finish_right (hmax : mm.clusterMaxSize = maxSize)
    (hs : Slots D rc maxSize.toNat mm.members mm.stillToGet) :
    mm.finish.Right D maxSize rc ∧ mm.Keeps mm.finish := by
  unfold MemberMaker.finish
  split
  · exact ⟨⟨hmax, hs, trivial⟩, fun _ _ h => h⟩
  · exact ⟨⟨hmax, hs, trivial⟩, fun _ _ h => h⟩

theorem endLoop_right (mm : MemberMaker) (hmax : mm.clusterMaxSize = maxSize)
    (hs : Slots D rc maxSize.toNat mm.members mm.stillToGet) (count : ℕ) :
    (mm.endLoop D count).Right D maxSize rc ∧ mm.Keeps (mm.endLoop D count) := by
  unfold MemberMaker.endLoop
  split_ifs
  · exact ⟨⟨hmax, hs, trivial⟩, fun _ _ h => h⟩
  · exact finish_right hmax hs

theorem getAndMembers_right (mm : MemberMaker) (hmax : mm.clusterMaxSize = maxSize)
    (h64 : maxSize.toNat ≤ 64) (hlen : mm.members.length = maxSize.toNat)
    (hslots : ∀ i mi, mm.members[i]? = some (some mi) → Describes D rc i mi) :
    (mm.getAndMembers D).Right D maxSize rc := by
  refine ⟨hmax, ⟨hlen, hslots, ?_⟩, trivial⟩
  intro i hi hb
  simp only [MemberMaker.getAndMembers, hmax] at hb
  rw [D.bits.test_lowNMap _ _ h64, decide_eq_false_iff_not] at hb
  exact absurd hi hb

theorem new_right (h64 : maxSize.toNat ≤ 64) (nodeID clusterID : NodeID) :
    (MemberMaker.new D nodeID clusterID maxSize).Right D maxSize rc := by
  refine getAndMembers_right _ rfl h64 (by simp) ?_
  intro i mi hi
  simp [List.getElem?_replicate] at hi

theorem getSize_eq_min (rc : RegCluster) : getSize rc = min (rc.members.length % 2 ^ 32) 64 := by
  have hsize : rc.size.toNat = rc.members.length % 2 ^ 32 := by
    simp only [RegCluster.size, UInt32.toNat_ofNat']
  have hmax : MAX_CLUSTER_SIZE.toNat = 64 := rfl
  unfold getSize
  split_ifs with h
  · have hlt : MAX_CLUSTER_SIZE.toNat < rc.size.toNat := UInt32.lt_iff_toNat_lt.1 h
    omega
  · rw [gt_iff_lt, UInt32.lt_iff_toNat_lt] at h
    omega

theorem getSize_le (rc : RegCluster) : getSize rc ≤ 64 ∧ getSize rc ≤ rc.members.length := by
  have hmod := Nat.mod_le rc.members.length (2 ^ 32)
  rw [getSize_eq_min]
  exact ⟨min_le_right _ _, (min_le_left _ _).trans hmod⟩

def StepsRight (D : Deps) (maxSize : UInt32) (rc : RegCluster) (mm : MemberMaker) (x : Chance) : Prop :=
  ∃ mm', mm.step D rc x = .ok mm' ∧ mm'.Right D maxSize rc ∧ mm.Keeps mm'

theorem step_clearing {count i : ℕ} (hpc : mm.pc = .clearing count i) (h64 : maxSize.toNat ≤ 64)
    (h : mm.Right D maxSize rc) (x : Chance) : StepsRight D maxSize rc mm x := by
  obtain ⟨hmax, hs, ht⟩ := h
  rw [hpc] at ht
  have hnat : mm.clusterMaxSize.toNat = maxSize.toNat := by rw [hmax]
  unfold StepsRight
  simp only [MemberMaker.step, hpc, hnat]
  by_cases hi : i < maxSize.toNat
  · rw [if_pos hi]
    obtain ⟨v, hv⟩ : ∃ v, mm.members[i]? = some v :=
      ⟨_, List.getElem?_eq_getElem (by rw [hs.length]; exact hi)⟩
    cases v with
    | none =>
      simp only [hv]
      refine ⟨_, rfl, ⟨hmax, hs, fun j hj hjm hf => ?_⟩, fun _ _ h => h⟩
      have hne : j ≠ i := by
        rintro rfl
        obtain ⟨mi, hmi⟩ := hf
        rw [hv] at hmi
        cases hmi
      exact ht j (by omega) hjm hf
    | some mi =>
      simp only [hv]
      refine ⟨_, rfl, ⟨hmax, hs.clear h64 hi ⟨mi, hv⟩, fun j hj hjm hf => ?_⟩, fun _ _ h => h⟩
      change D.bits.test (D.bits.clear mm.stillToGet i) j = false
      rw [D.bits.test_clear _ _ _ (by omega)]
      by_cases hij : i = j
      · simp [hij]
      · simp [ht j (by omega) hjm hf]
  · rw [if_neg hi]
    exact ⟨_, rfl, ⟨hmax, hs, fun j hj hf => ht j (by omega) hj hf⟩, fun _ _ h => h⟩

theorem answered_right {count size i : ℕ} {whichToSend : UInt64} {sent : Sending}
    (hpc : mm.pc = .serving count whichToSend size i sent) (h : mm.Right D maxSize rc) :
    (mm.answered count sent).Right D maxSize rc := by
  obtain ⟨hmax, hs, ht⟩ := h
  rw [hpc] at ht
  obtain ⟨hask, hsub, hsent, hbelow, htok, hi, h64, -⟩ := ht
  refine ⟨hmax, hs, hask, fun j hj hb => hsub j hj (hsent j hj hb), ?_⟩
  apply htok.widen (by omega)
  intro j hij hj
  by_contra hb
  have := hbelow j hj (by simpa using hb)
  omega

theorem step_serving {count size i : ℕ} {whichToSend : UInt64} {sent : Sending}
    (hpc : mm.pc = .serving count whichToSend size i sent) (h : mm.Right D maxSize rc) (x : Chance) :
    StepsRight D maxSize rc mm x := by
  have hans := answered_right hpc h
  obtain ⟨hmax, hs, ht⟩ := h
  rw [hpc] at ht
  obtain ⟨hask, hsub, hsent, hbelow, htok, hi, h64, hlen⟩ := ht
  unfold StepsRight
  simp only [MemberMaker.step, hpc, getIter]
  by_cases his : i < size
  · rw [if_pos his]
    by_cases hb : D.bits.test whichToSend i = true
    · obtain ⟨member, hm⟩ : ∃ member, rc.members[i]? = some member :=
        ⟨_, List.getElem?_eq_getElem (by omega)⟩
      simp only [hb, if_true, hm]
      cases htk : member.token D with
      | error e => exact ⟨_, rfl, hans, fun _ _ h => h⟩
      | ok t =>
        have hset : ∀ j, D.bits.test (D.bits.set sent.which i) j =
            (decide (i = j) || D.bits.test sent.which j) :=
          fun j => D.bits.test_set sent.which i j (by omega)
        refine ⟨_, rfl, ⟨hmax, hs, hask, hsub, ?_, ?_, ?_,
          by omega, h64, hlen⟩, fun _ _ h => h⟩
        · intro j hj hbj
          rw [hset] at hbj
          by_cases hij : i = j
          · exact hij ▸ hb
          · exact hsent j hj (by simpa [hij] using hbj)
        · intro j hj hbj
          rw [hset] at hbj
          by_cases hij : i = j
          · omega
          · have := hbelow j hj (by simpa [hij] using hbj)
            omega
        · have hold : Tokens D rc (D.bits.set sent.which i) i sent.tokens := by
            apply htok.congr
            intro j hj
            rw [hset]
            have hne : i ≠ j := by omega
            simp [hne]
          exact hold.push (by rw [hset]; simp) ⟨member, hm, htk⟩
    · simp only [hb, if_false, Bool.false_eq_true]
      have hnot : D.bits.test sent.which i = false := by
        by_contra hw
        exact hb (hsent i (by omega) (by simpa using hw))
      refine ⟨_, rfl, ⟨hmax, hs, hask, hsub, hsent, fun j hj hbj => ?_, htok.skip hnot, by omega, h64,
        hlen⟩, fun _ _ h => h⟩
      have := hbelow j hj hbj
      omega
  · rw [if_neg his]
    exact ⟨_, rfl, hans, fun _ _ h => h⟩

theorem step_unpacking {count i offset : ℕ} {which : UInt64} {tokens : List Token}
    (hpc : mm.pc = .unpacking count which tokens i offset) (h64 : maxSize.toNat ≤ 64)
    (h : mm.Right D maxSize rc) (x : Chance) : StepsRight D maxSize rc mm x := by
  obtain ⟨hmax, hs, ht⟩ := h
  rw [hpc] at ht
  obtain ⟨htok, hoff, hnil⟩ := ht
  have hnat : mm.clusterMaxSize.toNat = maxSize.toNat := by rw [hmax]
  unfold StepsRight
  simp only [MemberMaker.step, hpc, hnat]
  by_cases hi : i < maxSize.toNat
  · rw [if_pos hi]
    by_cases hb : D.bits.test which i = true
    · obtain ⟨t, hget, htok_i⟩ := htok.get i (by omega) hb
      have hempty := hnil i le_rfl hi hb
      -- whatever goes into slot i, the other slots stay as they are
      have hother : ∀ (v : Option MemberInfo) (j : ℕ) mj, mm.members[j]? = some (some mj) →
          (mm.members.set i v)[j]? = some (some mj) := by
        intro v j mj hj
        have hne : i ≠ j := by rintro rfl; exact hempty ⟨mj, hj⟩
        rw [List.getElem?_set_ne hne]
        exact hj
      have hrest : ∀ (v : Option MemberInfo) (j : ℕ), i + 1 ≤ j → j < maxSize.toNat →
          D.bits.test which j = true → ¬ Filled (mm.members.set i v) j := by
        intro v j hij hj hbj hf
        exact hnil j (by omega) hj hbj ((filled_set_ne (by omega) v).1 hf)
      have hcount : offset + 1 = Nat.count (D.bits.test which · = true) (i + 1) := by
        rw [Nat.count_succ, if_pos hb, hoff]
      simp only [hb, if_true, hoff, hget, MemberMaker.unpack]
      cases hdec : newMemberInfoFromToken D x.draw (some t) with
      | error e => exact ⟨_, rfl, ⟨hmax, hs.reset hempty, htok, hoff ▸ hcount, hrest none⟩, hother none⟩
      | ok mi =>
        exact ⟨_, rfl, ⟨hmax, hs.fill h64 hi (htok_i.describes hdec), htok, hoff ▸ hcount,
          hrest (some mi)⟩, hother (some mi)⟩
    · simp only [hb, if_false, Bool.false_eq_true]
      have hcount : offset = Nat.count (D.bits.test which · = true) (i + 1) := by
        rw [Nat.count_succ, if_neg hb, hoff, Nat.add_zero]
      exact ⟨_, rfl, ⟨hmax, hs, htok, hcount, fun j hij => hnil j (by omega)⟩, fun _ _ h => h⟩
  · rw [if_neg hi]
    exact ⟨_, rfl, endLoop_right mm hmax hs count⟩

theorem step_requested {count : ℕ} (hpc : mm.pc = .requested count) (h : mm.Right D maxSize rc)
    (x : Chance) : StepsRight D maxSize rc mm x := by
  obtain ⟨hmax, hs, ht⟩ := h
  rw [hpc] at ht
  unfold StepsRight
  simp only [MemberMaker.step, hpc]
  cases x.failure with
  | some e =>
    have hzero : ∀ j, D.bits.test (errorMsg e).getWhich j = false := fun j => D.bits.test_zero j
    refine ⟨_, rfl, ⟨hmax, hs, ht, ?_, ?_⟩, fun _ _ h => h⟩
    · intro j _ hb
      rw [hzero] at hb
      cases hb
    · exact (Packed.empty _ _).widen (Nat.zero_le 64) fun j _ _ => hzero j
  | none =>
    obtain ⟨hsz, hlen⟩ := getSize_le rc
    have hzero : ∀ j, D.bits.test 0 j = false := D.bits.test_zero
    refine ⟨_, rfl, ⟨hmax, hs, ht, ?_, ?_, ?_,
      Packed.empty _ _, Nat.zero_le _, hsz, hlen⟩, fun _ _ h => h⟩
    · intro j _ hb
      rw [D.bits.test_intersection, Bool.and_eq_true] at hb
      exact hb.1
    · intro j _ hb
      rw [hzero] at hb
      cases hb
    · intro j _ hb
      rw [hzero] at hb
      cases hb

theorem step_response {count : ℕ} {msg : XLRegMsg} (hpc : mm.pc = .response count msg)
    (h64 : maxSize.toNat ≤ 64) (h : mm.Right D maxSize rc) (x : Chance) : StepsRight D maxSize rc mm x := by
  obtain ⟨hmax, hs, ht⟩ := h
  rw [hpc] at ht
  obtain ⟨hask, hsub, htok⟩ := ht
  unfold StepsRight
  simp only [MemberMaker.step, hpc]
  cases x.failure with
  | some e => exact ⟨_, rfl, finish_right hmax hs⟩
  | none =>
    simp only
    split_ifs
    · refine ⟨_, rfl, ⟨hmax, hs, htok, by simp, fun j _ hj hb hf => ?_⟩, fun _ _ h => h⟩
      have hclear := hask j hj hf
      rw [hsub j (by omega) hb] at hclear
      cases hclear
    · exact ⟨_, rfl, endLoop_right { mm with err := none } hmax hs count⟩

/-- Every step of a client comes back, and keeps what is known about it. -/
theorem step_right (h64 : maxSize.toNat ≤ 64) (h : mm.Right D maxSize rc) (x : Chance) :
    StepsRight D maxSize rc mm x := by
  cases hpc : mm.pc with
  | clearing count i => exact step_clearing hpc h64 h x
  | serving count whichToSend size i sent => exact step_serving hpc h x
  | unpacking count which tokens i offset => exact step_unpacking hpc h64 h x
  | head count =>
    obtain ⟨hmax, hs, -⟩ := h
    unfold StepsRight
    simp only [MemberMaker.step, hpc]
    split_ifs
    · exact ⟨_, rfl, ⟨hmax, hs, fun j hj => absurd hj (Nat.not_lt_zero j)⟩, fun _ _ h => h⟩
    · exact ⟨_, rfl, finish_right hmax hs⟩
  | request count =>
    obtain ⟨hmax, hs, ht⟩ := h
    rw [hpc] at ht
    unfold StepsRight
    simp only [MemberMaker.step, hpc]
    cases x.failure with
    | some e => exact ⟨_, rfl, finish_right hmax hs⟩
    | none => exact ⟨_, rfl, ⟨hmax, hs, ht⟩, fun _ _ h => h⟩
  | requested count => exact step_requested hpc h x
  | response count msg => exact step_response hpc h64 h x
  | returned =>
    obtain ⟨hmax, hs, -⟩ := h
    unfold StepsRight
    simp only [MemberMaker.step, hpc]
    exact ⟨_, rfl, getAndMembers_right mm hmax h64 hs.length hs.slots, fun _ _ h => h⟩

end Step

def KnownOf (D : Deps) (maxSize : UInt32) (rc : RegCluster) : Call ⊕ MemberMaker → Prop
  | .inl _ => True
  | .inr mm => mm.Right D maxSize rc

def KeptBy : Call ⊕ MemberMaker → Call ⊕ MemberMaker → Prop
  | .inr mm, .inr mm' => mm.Keeps mm'
  | .inl _, .inl _ => True
  | _, _ => False

theorem grows_callStep (D : Deps) (rc : RegCluster) (c : Call) : rc.Grows (callStep D rc c).1 := by
  rcases callStep_cluster D rc c with ⟨-, he⟩ | ⟨-, he⟩
  · rw [he]
    exact .refl rc
  · rw [he]
    exact rc.grows_append D c.member

section Polling

variable {D : Deps} {clusterID : NodeID} {maxSize : UInt32}

theorem polling_step (clusterID : NodeID) (h64 : maxSize.toNat ≤ 64) {rc : RegCluster} {p : Call ⊕ MemberMaker}
    (hp : KnownOf D maxSize rc p) (x : Chance) :
    ∃ rc' p', (polling D clusterID maxSize).step rc p x = .ok (rc', p') ∧ rc.Grows rc' ∧
      KnownOf D maxSize rc' p' ∧ KeptBy p p' := by
  cases p with
  | inl c => exact ⟨_, _, rfl, grows_callStep D rc c, trivial, trivial⟩
  | inr mm =>
    obtain ⟨mm', hs, hr, hk⟩ := step_right h64 hp x
    exact ⟨rc, .inr mm', by simp only [polling, hs], .refl rc, hr, hk⟩

theorem polling_contract (D : Deps) (clusterID : NodeID) (h64 : maxSize.toNat ≤ 64) :
    Parties.Contract (polling D clusterID maxSize) (fun _ _ _ => True) (fun _ => True)
      RegCluster.Grows (KnownOf D maxSize) where
  start rc x _ := by
    cases x with
    | inl m => trivial
    | inr nodeID => exact new_right h64 nodeID clusterID
  step rc p x rc' p' _ hJ _ hr := by
    obtain ⟨rc1, p1, h1, hg, hk, -⟩ := polling_step clusterID h64 hJ x
    rw [h1] at hr
    cases hr
    exact ⟨trivial, hg, hk⟩
  stable rc rc' p _ hJ hg := by
    cases p with
    | inl c => trivial
    | inr mm => exact ⟨hJ.max, hJ.slots.of_grows hg, hJ.track.of_grows hg⟩

theorem polling_keeps (h64 : maxSize.toNat ≤ 64) {s s' : Parties.State RegCluster (Call ⊕ MemberMaker)}
    (hs : Parties.Holds (fun _ => True) (KnownOf D maxSize) s)
    {evs : List (Parties.Event (ClientInfo ⊕ NodeID) Chance)}
    (hr : Run.run (polling D clusterID maxSize).next s evs = .ok s') {k : ℕ} {mm : MemberMaker}
    (hk : s.parties[k]? = some (.inr mm)) :
    ∃ mm', s'.parties[k]? = some (.inr mm') ∧ mm.Keeps mm' := by
  obtain ⟨p', hp', hkept⟩ := (polling_contract D clusterID h64).run_keeps hs (K := KeptBy)
    (fun p => by cases p <;> simp [KeptBy, MemberMaker.Keeps])
    (fun a b c hab hbc => by
      cases a <;> cases b <;> cases c <;> try trivial
      exact fun i mi hi => hbc i mi (hab i mi hi))
    (fun rc p x rc' p' _ hJ hst => by
      obtain ⟨rc1, p1, h1, -, -, hk⟩ := polling_step clusterID h64 hJ x
      rw [h1] at hst
      cases hst
      exact hk) hr hk
  cases p' with
  | inl c => exact absurd hkept id
  | inr mm' => exact ⟨mm', hp', hkept⟩

end Polling

/-- One cluster of maximum size at most 64, any number of Joins and of clients that poll it, in
any interleaving. No step is a fault. In every state, each slot of each client is nil or the
decoding of the token of the member at its index, and a bit is clear only for a filled slot; in
every later state the slot is the same and so is the member; and two clients that have filled a
slot have the same in it. -/
theorem polling_views_agree {D : Deps} {rc₀ : RegCluster} (h64 : rc₀.maxSize.toNat ≤ 64)
    (evs : List (Parties.Event (ClientInfo ⊕ NodeID) Chance)) :
    ∃ s, Run.run (polling D rc₀.id rc₀.maxSize).next ⟨rc₀, []⟩ evs = .ok s ∧
      (∀ (k : ℕ) mm, s.parties[k]? = some (.inr mm) → ∀ i < rc₀.maxSize.toNat,
        (mm.members[i]? = some none ∨
          ∃ mi, mm.members[i]? = some (some mi) ∧ Describes D s.shared i mi) ∧
        (D.bits.test mm.stillToGet i = false → Filled mm.members i)) ∧
      (∀ evs' s', Run.run (polling D rc₀.id rc₀.maxSize).next s evs' = .ok s' →
        s.shared.members <+: s'.shared.members ∧
        ∀ (k i : ℕ) mm mi, s.parties[k]? = some (.inr mm) → mm.members[i]? = some (some mi) →
          ∃ mm', s'.parties[k]? = some (.inr mm') ∧ mm'.members[i]? = some (some mi)) ∧
      (∀ (k k' i : ℕ) mm mm' mi mi', s.parties[k]? = some (.inr mm) →
        s.parties[k']? = some (.inr mm') → mm.members[i]? = some (some mi) →
        mm'.members[i]? = some (some mi') → mi = mi') := by
  have hc := polling_contract D rc₀.id h64
  have hstart : Parties.Holds (fun _ => True) (KnownOf D rc₀.maxSize) ⟨rc₀, []⟩ :=
    ⟨trivial, fun _ hl => by cases hl⟩
  have hgo : ∀ rc p x, True → KnownOf D rc₀.maxSize rc p →
      ∃ r, (polling D rc₀.id rc₀.maxSize).step rc p x = .ok r := by
    intro rc p x _ hJ
    obtain ⟨rc', p', h, -⟩ := polling_step rc₀.id h64 hJ x
    exact ⟨_, h⟩
  obtain ⟨s, hr⟩ := hc.run_total hstart hgo evs
  have hs := hc.holds_of_run hstart hr
  have hright : ∀ (k : ℕ) mm, s.parties[k]? = some (.inr mm) → mm.Right D rc₀.maxSize s.shared :=
    fun k mm hk => hs.2 _ (List.mem_of_getElem? hk)
  refine ⟨s, hr, fun k mm hk i hi => ⟨?_, (hright k mm hk).slots.bits i hi⟩, fun evs' s' hr' => ⟨?_, ?_⟩,
    fun k k' i mm mm' mi mi' hk hk' hmi hmi' => ?_⟩
  · obtain ⟨v, hv⟩ : ∃ v, mm.members[i]? = some v :=
      ⟨_, List.getElem?_eq_getElem (by rw [(hright k mm hk).slots.length]; exact hi)⟩
    cases v with
    | none => exact .inl hv
    | some mi => exact .inr ⟨mi, hv, (hright k mm hk).slots.slots i mi hv⟩
  · exact (hc.run_guarantee hs RegCluster.Grows.refl (fun _ _ _ h1 h2 => h1.trans h2) hr').members
  · intro k i mm mi hk hmi
    obtain ⟨mm', hk', hkept⟩ := polling_keeps h64 hs hr' hk
    exact ⟨mm', hk', hkept i mi hmi⟩
  · exact ((hright k mm hk).slots.slots i mi hmi).unique ((hright k' mm' hk').slots.slots i mi' hmi')

/-- A client joins, and then another polls once. -/
def Sample.watch : List (Parties.Event (ClientInfo ⊕ NodeID) Chance) :=
  [.enter (.inl (client 0 "a" 1)), .act 0 ⟨.rep 8, none⟩, .act 0 ⟨.rep 8, none⟩,
   .act 0 ⟨.rep 8, none⟩, .enter (.inr (.rep 2))] ++ List.replicate 12 (.act 1 ⟨.rep 8, none⟩)

/-- The one that polls has the other in its first slot. -/
theorem polling_views_agree_sample :
    ∃ s mm mi, Run.run (polling .plain Sample.cluster.id Sample.cluster.maxSize).next
        ⟨Sample.cluster, []⟩ Sample.watch = .ok s ∧
      s.parties[1]? = some (.inr mm) ∧ mm.members[0]? = some (some mi) ∧
      Describes .plain s.shared 0 mi := by
  obtain ⟨s, hr, hslots, -⟩ := polling_views_agree (D := .plain)
    (show Sample.cluster.maxSize.toNat ≤ 64 by decide) Sample.watch
  obtain ⟨s', hr', hp⟩ := Run.exists_of_ends
    (polling .plain Sample.cluster.id Sample.cluster.maxSize).next ⟨Sample.cluster, []⟩ Sample.watch
    (fun s => (s.parties[1]?.bind Sum.getRight?).any fun mm : MemberMaker => mm.members[0]? != some none)
    (by decide)
  rw [hr] at hr'
  cases hr'
  obtain ⟨mm, hmm, hne⟩ := (Option.any_eq_true _ _).1 hp
  obtain ⟨p, hp, hright⟩ := Option.bind_eq_some_iff.1 hmm
  obtain rfl := Sum.getRight?_eq_some_iff.1 hright
  rcases (hslots 1 mm hp 0 (by decide)).1 with hnil | ⟨mi, hmi, hdesc⟩
  · rw [hnil] at hne
    exact absurd hne (by decide)
  · exact ⟨s, mm, mi, hr, hp, hmi, hdesc⟩

end XlReg
