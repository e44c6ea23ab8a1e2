import XlReg.Proofs.Dispatch
import XlReg.Sanity.Exchanges

/-! The table of members that a client fills (memberNode.go). `GetAndMembers` indexes it up to
`ClusterMaxSize`. Two steps before it set that size: `JoinAndReply` makes a new table when the size
seems to change, `CreateAndReply` does not. And it takes the tokens of an answer by the bits below
`ClusterMaxSize` only, so that it does not see the others. -/

namespace XlReg

open Run

variable {D : Deps} {K : ClientDeps} {env : Surroundings}

/-! The orders of steps that the server's table permits. -/

/-- The state that the request of a step leads to, if the table permits it. -/
def tableStep (s : InState) (st : ClientStep) : Option InState := do
  let op ← st.handler.bind HandlerName.requestOp
  let f ← dispatch s (op2tag op)
  if f = .badCombo then none else some f.exit

/-- Member, Create and Join requests in an order that the table permits. -/
structure Permitted (steps : List ClientStep) : Prop where
  kinds : ∀ st ∈ steps, st = .memberAndOK ∨ st = .createAndReply ∨ st = .joinAndReply
  table : steps.foldlM tableStep .helloRcvd ≠ none

theorem tableStep_cases {s s' : InState} {st : ClientStep}
    (hst : st = .memberAndOK ∨ st = .createAndReply ∨ st = .joinAndReply)
    (h : tableStep s st = some s') :
    (s = .helloRcvd ∧ st = .memberAndOK ∧ s' = .clientDetailsRcvd) ∨
    (s = .clientDetailsRcvd ∧ st = .createAndReply ∧ s' = .createRequestRcvd) ∨
    ((s = .clientDetailsRcvd ∨ s = .createRequestRcvd) ∧ st = .joinAndReply ∧ s' = .joinRcvd) := by
  rcases hst with rfl | rfl | rfl <;> revert h <;> cases s <;> cases s' <;> decide

theorem tableStep_joinRcvd {st : ClientStep}
    (hst : st = .memberAndOK ∨ st = .createAndReply ∨ st = .joinAndReply) :
    tableStep .joinRcvd st = none := by
  rcases hst with rfl | rfl | rfl <;> decide

theorem foldlM_tableStep_cons {s : InState} {st : ClientStep} {steps : List ClientStep}
    (h : (st :: steps).foldlM tableStep s ≠ none) :
    ∃ s', tableStep s st = some s' ∧ steps.foldlM tableStep s' ≠ none := by
  rw [List.foldlM_cons] at h
  cases hs : tableStep s st with
  | none => rw [hs] at h; exact absurd rfl h
  | some s' => rw [hs] at h; exact ⟨s', rfl, h⟩

theorem orders_joinRcvd {steps : List ClientStep}
    (hk : ∀ st ∈ steps, st = .memberAndOK ∨ st = .createAndReply ∨ st = .joinAndReply)
    (h : steps.foldlM tableStep .joinRcvd ≠ none) : steps = [] := by
  cases steps with
  | nil => rfl
  | cons st steps =>
    obtain ⟨s', hs, -⟩ := foldlM_tableStep_cons h
    rw [tableStep_joinRcvd (hk st List.mem_cons_self)] at hs
    cases hs

theorem Permitted.orders {steps : List ClientStep} (h : Permitted steps) :
    steps = [] ∨ steps = [.memberAndOK] ∨ steps = [.memberAndOK, .createAndReply] ∨
    steps = [.memberAndOK, .joinAndReply] ∨ steps = [.memberAndOK, .createAndReply, .joinAndReply] := by
  obtain ⟨hk, ht⟩ := h
  rcases steps with - | ⟨st₁, steps⟩
  · exact .inl rfl
  obtain ⟨hst₁, hk₁⟩ := List.forall_mem_cons.1 hk
  obtain ⟨s₁, hs₁, ht₁⟩ := foldlM_tableStep_cons ht
  obtain ⟨-, rfl, rfl⟩ | ⟨h, -⟩ | ⟨h | h, -⟩ := tableStep_cases hst₁ hs₁ <;> try cases h
  rcases steps with - | ⟨st₂, steps⟩
  · exact .inr (.inl rfl)
  obtain ⟨hst₂, hk₂⟩ := List.forall_mem_cons.1 hk₁
  obtain ⟨s₂, hs₂, ht₂⟩ := foldlM_tableStep_cons ht₁
  obtain ⟨h, -⟩ | ⟨-, rfl, rfl⟩ | ⟨-, rfl, rfl⟩ := tableStep_cases hst₂ hs₂
  · cases h
  · rcases steps with - | ⟨st₃, steps⟩
    · exact .inr (.inr (.inl rfl))
    obtain ⟨hst₃, hk₃⟩ := List.forall_mem_cons.1 hk₂
    obtain ⟨s₃, hs₃, ht₃⟩ := foldlM_tableStep_cons ht₂
    obtain ⟨h, -⟩ | ⟨h, -⟩ | ⟨-, rfl, rfl⟩ := tableStep_cases hst₃ hs₃ <;> try cases h
    rw [orders_joinRcvd hk₃ ht₃]
    exact .inr (.inr (.inr (.inr rfl)))
  · rw [orders_joinRcvd hk₂ ht₂]
    exact .inr (.inr (.inr (.inl rfl)))

/-! What the steps do to the table. -/

def Turn.size (t : Turn) : UInt32 := (t.read.toOption.join.getD {}).getClusterMaxSize

theorem created_size {t : Turn} {id : NodeID} {m : XLRegMsg} (h : t.created D = .ok (id, m)) :
    m.getClusterMaxSize = t.size := by
  unfold Turn.created Turn.readCreate at h
  unfold Turn.size
  cases hw : t.write with
  | some e => rw [hw] at h; cases h
  | none =>
    rw [hw] at h
    cases hr : t.read with
    | error e =>
      simp only [hr] at h
      split_ifs at h
      obtain ⟨id', -, heq⟩ := map_ok h
      cases heq
      rfl
    | ok mo =>
      simp only [hr] at h
      obtain ⟨id', -, heq⟩ := map_ok h
      cases heq
      cases mo <;> rfl

theorem answer_size {t : Turn} {m : XLRegMsg} (h : t.answer = .ok m) : m.getClusterMaxSize = t.size := by
  obtain ⟨-, mo, hmo, rfl⟩ := Turn.answer_ok_iff.1 h
  unfold Turn.size
  rw [hmo]
  cases mo <;> rfl

structure Sized (length : ℕ) (size : UInt32) (asked : ℕ) (c : Client) : Prop where
  length : c.cm.members.length = length
  size : c.cm.clusterMaxSize = size
  asked : c.log.length = asked

theorem newMemberMaker_sized {node : Option Node} {attrs : UInt64} {regName : String}
    {regID : Option NodeID} {regEnd : Option EndPoint} {regCK regSK : Option RSAPublicKey}
    {clusterName : String} {clusterAttrs : UInt64} {clusterID : Option NodeID} {size epCount : UInt32}
    {endPoints : List EndPoint} {cm : ClusterMember}
    (h : newMemberMaker D K node attrs regName regID regEnd regCK regSK clusterName clusterAttrs
      clusterID size epCount endPoints = .ok (.ok cm)) :
    Sized size.toNat size 0 ⟨cm, []⟩ := by
  obtain ⟨-, -, hsize, hmembers⟩ := newMemberMaker_ok h
  exact ⟨by rw [hmembers, List.length_replicate], hsize, rfl⟩

theorem memberAndOK_sized {length asked : ℕ} {size : UInt32} {c c' : Client} {net : ℕ → Turn}
    (hc : Sized length size asked c) (h : memberAndOK D K net c = (c', .ok none)) :
    Sized length size (asked + 1) c' := by
  obtain ⟨a, -, -, -, ⟨e, -, he⟩ | ⟨m, attrs, -, he⟩⟩ := memberAndOK_cases (D := D) K net c
  · rw [h] at he; cases he
  · rw [h] at he
    cases he
    exact ⟨hc.length, hc.size, by rw [List.length_append, hc.asked]; rfl⟩

theorem createAndReply_sized {length asked : ℕ} {size : UInt32} {c c' : Client} {net : ℕ → Turn}
    (hc : Sized length size asked c) (h : createAndReply D net c = (c', .ok none)) :
    Sized length (net asked).size (asked + 1) c' := by
  obtain ⟨a, -, hturn, ⟨e, id, -, -, he⟩ | ⟨id, m, hm, he⟩⟩ := createAndReply_cases (D := D) net c
  · rw [h] at he; cases he
  · rw [h] at he
    cases he
    refine ⟨hc.length, ?_, by rw [List.length_append, hc.asked]; rfl⟩
    rw [← hc.asked, ← hturn]
    exact created_size hm

theorem joinAndReply_sized {length asked : ℕ} {size : UInt32} {c c' : Client} {net : ℕ → Turn}
    (hc : Sized length size asked c) (h : joinAndReply net c = (c', .ok none)) :
    Sized (if size = (net asked).size then length else (net asked).size.toNat) (net asked).size
      (asked + 1) c' := by
  obtain ⟨-, he⟩ | ⟨a, -, hturn, ⟨e, -, he⟩ | ⟨m, hm, he⟩⟩ := joinAndReply_cases net c
  · rw [h] at he; cases he
  · rw [h] at he; cases he
  · rw [h] at he
    cases he
    have hnow : m.getClusterMaxSize = (net asked).size := by
      rw [← hc.asked, ← hturn]
      exact answer_size hm
    refine ⟨?_, hnow, by rw [List.length_append, hc.asked]; rfl⟩
    simp only [resized, hnow, hc.size]
    by_cases hsize : size = (net asked).size
    · rw [if_neg (not_not.2 hsize), if_pos hsize]
      exact hc.length
    · rw [if_pos hsize, if_neg hsize]
      exact List.length_replicate

/-- If a Create was made, and no Join after it changed the size again, then it was answered with
the size that the client was made for. -/
def SizeKept (net : ℕ → Turn) (size : UInt32) (steps : List ClientStep) : Prop :=
  .createAndReply ∈ steps → (.joinAndReply ∈ steps → (net 2).size = (net 1).size) → (net 1).size = size

theorem runSteps_cons {st : ClientStep} {steps : List ClientStep} {c c' : Client}
    (h : runSteps D K env (st :: steps) c = (c', .ok none)) :
    ∃ c₁, st.run D K env c = (c₁, .ok none) ∧ runSteps D K env steps c₁ = (c', .ok none) := by
  rcases hs : st.run D K env c with ⟨c₁, r⟩
  by_cases hr : r = .ok none
  · rw [hr] at hs
    rw [runSteps, List.map_cons, Script.run_pass hs] at h
    exact ⟨c₁, by rw [hr], h⟩
  · rw [runSteps, List.map_cons, Script.run_stop hs hr] at h
    exact absurd (Prod.ext_iff.1 h).2 hr

theorem runSteps_nil {c c' : Client} (h : runSteps D K env [] c = (c', .ok none)) : c' = c := by
  cases h
  rfl

/-- After permitted steps the table has the client's size exactly if that is kept. -/
theorem table_iff_sizeKept {size : UInt32} {cm : ClusterMember} {steps : List ClientStep} {c : Client}
    (hcm : Sized size.toNat size 0 ⟨cm, []⟩) (hperm : Permitted steps)
    (hrun : runSteps D K env steps ⟨cm, []⟩ = (c, .ok none)) :
    c.cm.members.length = c.cm.clusterMaxSize.toNat ↔ SizeKept env.net size steps := by
  unfold SizeKept
  rcases hperm.orders with rfl | rfl | rfl | rfl | rfl
  · obtain rfl := runSteps_nil hrun
    rw [hcm.length, hcm.size]
    simp
  · obtain ⟨c₁, h₁, hrun⟩ := runSteps_cons hrun
    have hc := memberAndOK_sized hcm h₁
    obtain rfl := runSteps_nil hrun
    simp [hc.length, hc.size]
  · obtain ⟨c₁, h₁, hrun⟩ := runSteps_cons hrun
    obtain ⟨c₂, h₂, hrun⟩ := runSteps_cons hrun
    have hc := createAndReply_sized (memberAndOK_sized hcm h₁) h₂
    obtain rfl := runSteps_nil hrun
    rw [hc.length, hc.size, UInt32.toNat_inj]
    simp [eq_comm]
  · obtain ⟨c₁, h₁, hrun⟩ := runSteps_cons hrun
    obtain ⟨c₂, h₂, hrun⟩ := runSteps_cons hrun
    have hc := joinAndReply_sized (memberAndOK_sized hcm h₁) h₂
    obtain rfl := runSteps_nil hrun
    rw [hc.length, hc.size]
    split_ifs with hsize
    · simp [← hsize]
    · simp
  · obtain ⟨c₁, h₁, hrun⟩ := runSteps_cons hrun
    obtain ⟨c₂, h₂, hrun⟩ := runSteps_cons hrun
    obtain ⟨c₃, h₃, hrun⟩ := runSteps_cons hrun
    have hc := joinAndReply_sized (createAndReply_sized (memberAndOK_sized hcm h₁) h₂) h₃
    obtain rfl := runSteps_nil hrun
    rw [hc.length, hc.size]
    by_cases hsize : (env.net 1).size = (env.net 2).size
    · rw [if_pos hsize, UInt32.toNat_inj]
      simp [← hsize, eq_comm]
    · rw [if_neg hsize]
      simp [Ne.symm hsize]

/-! The call. -/

def getAsks (D : Deps) (net : ℕ → Turn) (c : Client) : List Ask :=
  (getAndMembers D net c).1.log.drop c.log.length

/-- A reply that has fewer tokens than bits is the answer. -/
def TooFew (D : Deps) (t : Turn) : Prop :=
  ∃ m, t.answer = .ok m ∧ m.tokens.length < (slotsIn D m.getWhich 64).length

instance (t : Turn) : Decidable (TooFew D t) :=
  match h : t.answer with
  | .error e => isFalse (by simp [TooFew, h])
  | .ok m => decidable_of_iff (m.tokens.length < (slotsIn D m.getWhich 64).length) (by simp [TooFew, h])

/-- The table has the client's size, no index is out of range, and a reply with fewer tokens than
bits is reported. -/
structure GetSafe (D : Deps) (net : ℕ → Turn) (c : Client) : Prop where
  table : c.cm.members.length = c.cm.clusterMaxSize.toNat
  indexes : (getAndMembers D net c).2 ≠ .error .indexOutOfRange
  reported : (∃ a ∈ getAsks D net c, TooFew D a.turn) → ∃ e, (getAndMembers D net c).2 = .ok (some e)

theorem getAsks_decided (net : ℕ → Turn) (c : Client) :
    Decided D c.cm.clusterMaxSize c.cm.members.length (getAsks D net c) (getAndMembers D net c).2 := by
  obtain ⟨asks, hlog, hdec, -⟩ := getAndMembers_decided (D := D) net c
  rw [getAsks, hlog, List.drop_left]
  exact hdec

/-- A client as `NewMemberMaker` makes it, for any size, and Member, Create and Join requests in any
order that the server's table permits, with any answers that let it pass. A call of `GetAndMembers`
is safe exactly if the size was kept, every reply that it reads has a token for each of its bits
below `ClusterMaxSize`, and after a reply with fewer tokens than bits its last request leaves an
error. -/
theorem getAndMembers_safe_iff {node : Option Node} {attrs : UInt64} {regName : String}
    {regID : Option NodeID} {regEnd : Option EndPoint} {regCK regSK : Option RSAPublicKey}
    {clusterName : String} {clusterAttrs : UInt64} {clusterID : Option NodeID} {size epCount : UInt32}
    {endPoints : List EndPoint} {cm : ClusterMember} {steps : List ClientStep} {c : Client}
    (hmm : newMemberMaker D K node attrs regName regID regEnd regCK regSK clusterName clusterAttrs
      clusterID size epCount endPoints = .ok (.ok cm))
    (hperm : Permitted steps) (hrun : runSteps D K env steps ⟨cm, []⟩ = (c, .ok none)) :
    GetSafe D env.net c ↔
      SizeKept env.net size steps ∧
      (∀ a ∈ getAsks D env.net c, a.turn.Unpacks D c.cm.clusterMaxSize.toNat) ∧
      ((∃ a ∈ getAsks D env.net c, TooFew D a.turn) →
        ∃ a, (getAsks D env.net c).getLast? = some a ∧
          a.turn.getErr D c.cm.clusterMaxSize.toNat ≠ none) := by
  have htable := table_iff_sizeKept (newMemberMaker_sized hmm) hperm hrun
  have hdec := getAsks_decided (D := D) env.net c
  constructor
  · rintro ⟨hlen, hindex, hrep⟩
    exact ⟨htable.1 hlen, (hdec.indexes_iff hlen.ge).1 hindex, fun h => hdec.reports_iff.1 (hrep h)⟩
  · rintro ⟨hkept, hun, hlast⟩
    have hlen := htable.2 hkept
    exact ⟨hlen, (hdec.indexes_iff hlen.ge).2 hun, fun h => hdec.reports_iff.2 (hlast h)⟩

namespace Sample

def createReply (size : UInt32) : XLRegMsg :=
  { op := some Tag.createReply, clusterID := some (NodeID.rep 7).value, clusterMaxSize := some size }

def joinReply (size : UInt32) : XLRegMsg :=
  { op := some Tag.joinReply, clusterMaxSize := some size, endPointCount := some 1 }

def bothMembers : XLRegMsg :=
  let token (name : String) (b : UInt8) : Token :=
    { name := some name, id := some (NodeID.rep b).value, commsKey := some [1, 3], sigKey := some [2, 3],
      myEnds := ["127.0.0.1:80"] }
  { op := some Tag.clusterMembers, which := some 3, tokens := [token "a" 1, token "b" 2] }

/-- A client made for a size of 3 that joins a cluster of 2. -/
def joins2 : List ClientStep := [.memberAndOK, .joinAndReply]

def joins2Env : Surroundings :=
  { net := answers [{ op := some Tag.memberOK }, joinReply 2, bothMembers] }

/-- A client made for a size of 1. The answer to its Create has the size adjusted to 2, and that to
its Join says the same. -/
def adjusted : List ClientStep := [.memberAndOK, .createAndReply, .joinAndReply]

def adjustedEnv : Surroundings :=
  { net := answers [{ op := some Tag.memberOK }, createReply 2, joinReply 2] }

end Sample

/-- The one that joins gets both members, into a table of size 2. -/
theorem getAndMembers_safe_sample :
    Sample.newMember (some (.rep 7)) 3 = .ok (.ok (Sample.madeMember (some (.rep 7)) 3)) ∧
    Permitted Sample.joins2 ∧
    ∃ c, runSteps .plain .plain Sample.joins2Env Sample.joins2 ⟨Sample.madeMember (some (.rep 7)) 3, []⟩ =
        (c, .ok none) ∧
      c.cm.clusterMaxSize = 2 ∧ GetSafe .plain Sample.joins2Env.net c := by
  have hmm := Sample.newMember_eq (some (.rep 7)) 3
  have hperm : Permitted Sample.joins2 := ⟨by decide, by decide⟩
  have hrun : runSteps .plain .plain Sample.joins2Env Sample.joins2
      ⟨Sample.madeMember (some (.rep 7)) 3, []⟩ = (_, .ok none) := rfl
  refine ⟨hmm, hperm, _, hrun, rfl, (getAndMembers_safe_iff hmm hperm hrun).2 ⟨?_, ?_, ?_⟩⟩
  · exact fun h => absurd h (by decide)
  · decide
  · exact fun h => absurd h (by decide)

/-- The table is made for a size of 1 and is indexed up to the size of 2. -/
theorem getAndMembers_faults :
    Sample.newMember none 1 = .ok (.ok (Sample.madeMember none 1)) ∧ Permitted Sample.adjusted ∧
    ∃ c, runSteps .plain .plain Sample.adjustedEnv Sample.adjusted ⟨Sample.madeMember none 1, []⟩ =
        (c, .ok none) ∧
      ¬ SizeKept Sample.adjustedEnv.net 1 Sample.adjusted ∧
      (getAndMembers .plain Sample.adjustedEnv.net c).2 = .error .indexOutOfRange ∧
      ¬ GetSafe .plain Sample.adjustedEnv.net c := by
  refine ⟨rfl, ⟨by decide, by decide⟩, _, rfl, ?_, rfl, fun h => h.indexes rfl⟩
  exact fun h => absurd (h (by decide) fun _ => by decide) (by decide)

end XlReg
