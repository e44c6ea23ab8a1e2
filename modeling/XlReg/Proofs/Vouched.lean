import XlReg.Proofs.ClosedLoop
import XlReg.Proofs.GetReply
import XlReg.Proofs.Membership

/-! What the replies on a session say is so, and stays so while other sessions go on: the client was
introduced, the cluster has the name or the ID asked for, the client is in its list, and the tokens
are those of its members. -/

namespace XlReg

open Pack

variable {D : Deps}

/-- The client was introduced by the session's Member message. -/
def Exchange.MemberHolds (D : Deps) (c : Session) (ex : Exchange) : Prop :=
  ∃ m, c.h.thisClient = some m ∧ ex.Introduces D m

/-- The reply is about the cluster of the name given. -/
def Exchange.CreateHolds (w : World) (ex : Exchange) : Prop :=
  ∃ p rc attrs, p ∈ w.reg.clusters ∧ w.heap[p]? = some rc ∧
    ex.reply = some (createReply rc.id rc.maxSize attrs rc.epCount) ∧
    (ex.msg.getClusterName ≠ "" → rc.name = ex.msg.getClusterName)

/-- The session's client is in the cluster that the reply is about, which has the ID given. -/
def Exchange.JoinHolds (w : World) (c : Session) (ex : Exchange) : Prop :=
  ∃ m p rc, c.h.thisClient = some m ∧ p ∈ w.reg.clusters ∧ w.heap[p]? = some rc ∧ m ∈ rc.members ∧
    ex.reply = some (joinReply rc) ∧ ∀ id : NodeID, ex.msg.clusterID = some id.value → rc.id = id

/-- The tokens are those of the members of the cluster asked for. -/
def Exchange.GetHolds (D : Deps) (w : World) (ex : Exchange) : Prop :=
  ∃ p rc sent, p ∈ w.reg.clusters ∧ w.heap[p]? = some rc ∧ ex.msg.clusterID = some rc.id.value ∧
    ex.reply = some (getReply ex.msg.clusterID sent) ∧ ∀ n ≥ 64, Tokens D rc sent.which n sent.tokens

/-- What holds of an exchange without an error, by its handler. -/
structure Exchange.Vouched (D : Deps) (w : World) (c : Session) (ex : Exchange) : Prop where
  member : ex.handler = .doClientMsg → ex.MemberHolds D c
  create : ex.handler = .doCreateMsg → ex.CreateHolds w
  join : ex.handler = .doJoinMsg → ex.JoinHolds w c
  get : ex.handler = .doGetMsg → ex.GetHolds D w

theorem joinReply_of_grows {rc rc' : RegCluster} (h : rc.Grows rc') : joinReply rc' = joinReply rc := by
  simp only [joinReply, h.id, h.attrs, h.maxSize, h.epCount]

theorem Exchange.Vouched.of_grows {w w' : World} {c c' : Session} {ex : Exchange} (h : ex.Vouched D w c)
    (hg : w.Grows w') (hcl : c'.h.thisClient = c.h.thisClient) : ex.Vouched D w' c' := by
  refine ⟨fun hf => ?_, fun hf => ?_, fun hf => ?_, fun hf => ?_⟩
  · obtain ⟨m, hm, hi⟩ := h.member hf
    exact ⟨m, hcl.trans hm, hi⟩
  · obtain ⟨p, rc, attrs, hp, hrc, hrep, hname⟩ := h.create hf
    obtain ⟨rc', hrc', hgr⟩ := hg.heap p rc hrc
    refine ⟨p, rc', attrs, hg.clusters.subset hp, hrc', ?_, fun hne => hgr.name.trans (hname hne)⟩
    rw [hgr.id, hgr.maxSize, hgr.epCount]
    exact hrep
  · obtain ⟨m, p, rc, hm, hp, hrc, hmem, hrep, hid⟩ := h.join hf
    obtain ⟨rc', hrc', hgr⟩ := hg.heap p rc hrc
    refine ⟨m, p, rc', hcl.trans hm, hg.clusters.subset hp, hrc', hgr.members.subset hmem, ?_, ?_⟩
    · rw [joinReply_of_grows hgr]
      exact hrep
    · intro id hmsg
      rw [hgr.id]
      exact hid id hmsg
  · obtain ⟨p, rc, sent, hp, hrc, hmsg, hrep, htok⟩ := h.get hf
    obtain ⟨rc', hrc', hgr⟩ := hg.heap p rc hrc
    refine ⟨p, rc', sent, hg.clusters.subset hp, hrc', ?_, hrep, fun n hn => ?_⟩
    · rw [hgr.id]
      exact hmsg
    · exact (htok n hn).mono fun _ _ ht => ht.of_grows hgr

theorem joinLookup_id {w : World} {h : InHandler} {p : Ptr} {rc : RegCluster} (hw : w.Registered)
    (hl : joinLookup D w h = (some p, none)) (hrc : w.heap[p]? = some rc) {id : NodeID}
    (hid : h.msgIn.clusterID = some id.value) : rc.id = id := by
  have hsame : joinLookup D w { h with msgIn := joinRequest id } = (some p, none) := by
    simp only [joinLookup, hid] at hl
    simpa only [joinLookup, joinRequest] using hl
  obtain ⟨rc', hrc', hid'⟩ := (joinLookup_byID.1 hsame).cluster hw
  rw [hrc] at hrc'
  cases hrc'
  exact hid'

theorem newBytesKey_id {b : Option Bytes} {id : NodeID} (h : newBytesKey D b = .ok id.value) :
    b = some id.value := by
  cases b with
  | some b => rw [(newBytesKey_ok h).2]
  | none =>
    have hv := id.valid
    unfold newBytesKey at h
    split at h
    · cases h
    · rw [← Except.ok.inj h] at hv
      simp at hv

theorem doGetMsg_lists {w w' : World} {h h' : InHandler} {draws : List NodeID} (hw : w.Registered)
    (hr : doGetMsg D w h draws = .ok (w', h')) (hok : h'.errOut = none) :
    ∃ p rc sent, p ∈ w.reg.clusters ∧ w.heap[p]? = some rc ∧ h.msgIn.clusterID = some rc.id.value ∧
      h'.msgOut = some (getReply h.msgIn.clusterID sent) ∧
      ∀ n ≥ 64, Tokens D rc sent.which n sent.tokens := by
  simp only [doGetMsg] at hr
  rcases hk : newBytesKey D h.msgIn.clusterID with e | bKey
  · simp only [hk] at hr
    cases hr
    cases hok
  · simp only [hk] at hr
    rcases hf : w.reg.clustersByID.find D bKey with e | (- | p)
    · simp only [hf] at hr
      cases hr
      cases hok
    · simp only [hf] at hr
      cases hr
      cases hok
    · simp only [hf] at hr
      have hlook : w.reg.clustersByID.map.lookup bKey = some p := by
        unfold Hamt.find at hf
        split at hf
        · cases hf
        · exact Except.ok.inj hf
      obtain ⟨hp, hat⟩ := hw.byID bKey p hlook
      obtain ⟨rc, hrc⟩ : ∃ rc, w.heap[p]? = some rc := ⟨_, List.getElem?_eq_getElem (hw.valid p hp)⟩
      rw [World.idAt_eq hrc] at hat
      obtain ⟨h64, hlen⟩ := getSize_le rc
      have hstart : Collected D rc (D.bits.intersection h.msgIn.getWhich (D.bits.lowNMap (getSize rc)))
          0 ⟨[], 0⟩ := collected_start
      obtain ⟨sent, f, hloop, hff, hcol⟩ := getLoop_collected (getSize rc) hstart (by omega) (by omega)
      simp only [deref_ok.2 hrc, hloop] at hr
      cases hr
      refine ⟨p, _, sent, hp, hrc, ?_, rfl, fun n hn => ?_⟩
      · rw [← hat] at hk
        exact newBytesKey_id hk
      · have hle := hff.le
        refine hcol.tokens.widen (by omega) fun j hj _ => ?_
        rw [hcol.bits, decide_eq_false (by omega), Bool.and_false]

theorem startIter_client {w w' : World} {h h' : InHandler} {x : Input} {ex : Exchange}
    (hr : startIter D w h x = .ok (w', h', ex)) :
    h'.thisClient = h.thisClient ∨ h.entryState = .helloRcvd := by
  obtain ⟨f, h₁, hd, hh, rfl, -⟩ := startIter_ok hr
  have hf := dispatch_permitted hd
  cases handler_effect hh with
  | refused e | noNode ha | noCluster hl hn hnew | notAdded hm ha | created hm ha | found hl hp
  | notJoined hj ha | joined hj ha | listed s | bye => exact .inl rfl
  | accepted ha =>
    right
    revert hf
    cases h.entryState <;> decide

theorem Session.Chained.first {c : Session} (hc : c.Chained) (hst : c.h.entryState = .helloRcvd) :
    c.exchanges = [] := by
  rcases List.eq_nil_or_concat c.exchanges with hnil | ⟨exs, ex, hexs⟩
  · exact hnil
  · rw [hc.now, hexs, List.concat_eq_append, stateAfter_concat] at hst
    split_ifs at hst
    cases hf : ex.handler <;> rw [hf] at hst <;> cases hst

theorem startIter_vouched {w w' : World} {h h' : InHandler} {x : Input} {ex : Exchange}
    (hw : w.Registered) (hh : h.Hung w) (hr : startIter D w h x = .ok (w', h', ex))
    (exs : List Exchange) (hok : ex.err = none) : ex.Vouched D w' ⟨h', exs⟩ := by
  obtain ⟨f, h₁, hd, hrun, rfl, rfl⟩ := startIter_ok hr
  simp only at hok
  refine ⟨?_, ?_, ?_, ?_⟩
  · rintro rfl
    rcases doClientMsg_ok hrun with ⟨fl, e, -, -, rfl⟩ | ⟨ck, sk, fl, n, ha, -, rfl⟩
    · cases hok
    · exact ⟨_, rfl, ha.verified, rfl, rfl, rfl, fun b hb => clientID_proposed (hb ▸ ha.id), rfl⟩
  · rintro rfl
    rcases doCreateMsg_ok hrun with ⟨-, hnew⟩ | ⟨p, rc, hl, hp, rfl, rfl⟩
    · obtain ⟨n, rc, -, hmade, -, hrc, hmem, -, rfl⟩ := createNew_replied hnew hok
      obtain ⟨-, hname, hid, -, hmax, hep⟩ := newRegCluster_ok hmade
      refine ⟨_, rc, x.msg.getClusterAttrs, hmem, hrc, ?_, fun hne => by rw [hname, if_neg hne]⟩
      rw [hid, hmax, hep]
      rfl
    · obtain ⟨hmem, hname⟩ := (hw.byName.lookup _ _).1 hl
      exact ⟨p, rc, rc.attrs, hmem, hp, rfl, fun _ => (World.nameAt_eq hp).symm.trans hname⟩
  · rintro rfl
    change doJoinMsg D w _ x.draws = _ at hrun
    obtain ⟨client, p, rc, hcl, hl, hrc, rfl, ⟨e, -, rfl⟩ | ⟨hadd, rfl⟩⟩ := doJoinMsg_ok hrun
    · cases hok
    · have hlt : p < w.heap.length := (List.getElem?_eq_some_iff.1 hrc).1
      have hmem := joinLookup_listed (h := { h with msgIn := x.msg }) hw hh (open_of_dispatch hd) hl
      refine ⟨client, p, (rc.addMember D client).1, hcl, hmem, by simp [World.store, hlt],
        rc.mem_addMember hadd, rfl, fun id hid => ?_⟩
      rw [(rc.grows_addMember D client).id]
      exact joinLookup_id hw hl hrc hid
  · rintro rfl
    change doGetMsg D w _ x.draws = _ at hrun
    obtain ⟨rfl, -⟩ := doGetMsg_ok hrun
    obtain ⟨p, rc, sent, hp, hrc, hid, hout, htok⟩ := doGetMsg_lists hw hrun hok
    refine ⟨p, rc, sent, hp, hrc, hid, ?_, htok⟩
    simp only [respond, hok]
    exact hout

theorem vouched_contract (D : Deps) :
    Parties.Contract (server D) (fun _ _ _ => True) (fun s => s.world.Registered)
      (fun s s' => s.world.Grows s'.world) (fun s c => c.h.Hung s.world ∧ c.Chained ∧
        ∀ ex ∈ c.exchanges, ex.err = none → ex.Vouched D s.world c) where
  start _ _ _ := ⟨fun _ p hp => (by cases hp), Session.chained_init, fun ex hex => (by cases hex)⟩
  step s c x s' c' hI hJ _ hr := by
    obtain ⟨hh, hch, hv⟩ := hJ
    rcases sessionStep_ok hr with ⟨-, rfl, rfl⟩ | ⟨-, w, g, ex, hi, rfl, rfl⟩
    · exact ⟨hI, .refl _, hh, hch, hv⟩
    · have hg := startIter_grows hi
      obtain ⟨f, h₁, -, hrun, -, -⟩ := startIter_ok hi
      refine ⟨handler_registered hI hrun, hg, startIter_hung hI hh hi, hch.round hi, ?_⟩
      intro ex' hex' hok
      rcases List.mem_append.1 hex' with hold | hlast
      · rcases startIter_client hi with hsame | hst
        · exact (hv ex' hold hok).of_grows hg hsame
        · -- the first exchange of a session has none before it
          rw [hch.first hst] at hold
          cases hold
      · rw [List.mem_singleton.1 hlast] at hok ⊢
        exact startIter_vouched hI hh hi _ hok
  stable s s' c _ hJ hg := ⟨hJ.1.of_grows hg, hJ.2.1, fun ex hex hok => (hJ.2.2 ex hex hok).of_grows hg rfl⟩

theorem serve_vouched {regID : NodeID} {evs : List ServerEvent} {s : ServerState}
    (h : serve D regID evs = .ok s) {c : Session} (hc : c ∈ s.parties) :
    ∀ ex ∈ c.exchanges, ex.err = none → ex.Vouched D s.shared.world c :=
  (((vouched_contract D).holds_of_run ⟨World.init_registered regID, fun _ hc => by cases hc⟩ h).2 c hc).2.2

end XlReg
