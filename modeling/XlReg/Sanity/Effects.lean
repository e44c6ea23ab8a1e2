import XlReg.Sanity.Growth
import XlReg.Spec.Server

/-! What each handler can do when it comes back, once for each of them. It fails and leaves
the session as it was but for `errOut` (and, after Create, `cluster`), or it replies. Results
about the server use these lemmas and never unfold a handler. -/

namespace XlReg

theorem insertUniqueNodeID_ok {D : Deps} {f f' : IdFilter} {draws : List NodeID}
    {r : Except Err NodeID} (h : insertUniqueNodeID D f draws = .ok (f', r)) :
    (f' = f ∧ ∃ e, r = .error e) ∨
    ∃ n, r = .ok n ∧ f.isMember D n.value = .ok false ∧ f' = ⟨f.ids ++ [n.value]⟩ := by
  induction draws with
  | nil => cases h
  | cons n draws ih =>
    simp only [insertUniqueNodeID, containsID] at h
    cases hc : f.isMember D n.value with
    | error e => simp only [hc] at h; cases h; exact .inl ⟨rfl, _, rfl⟩
    | ok found =>
      cases found with
      | true => simp only [hc] at h; exact ih h
      | false =>
        simp only [hc, IdFilter.insert] at h
        cases hi : D.filterInsertErr f.ids n.value with
        | some e => simp only [hi] at h; cases h; exact .inl ⟨rfl, _, rfl⟩
        | none => simp only [hi] at h; cases h; exact .inr ⟨n, rfl, hc, rfl⟩

/-- The draws lead to the new ID `n`. -/
def Draws (D : Deps) (f : IdFilter) (draws : List NodeID) (n : NodeID) : Prop :=
  insertUniqueNodeID D f draws = .ok (⟨f.ids ++ [n.value]⟩, .ok n)

theorem Draws.fresh {D : Deps} {f : IdFilter} {draws : List NodeID} {n : NodeID}
    (h : Draws D f draws n) : f.isMember D n.value = .ok false := by
  rcases insertUniqueNodeID_ok h with ⟨-, e, he⟩ | ⟨n', hn, hfresh, -⟩
  · cases he
  · cases hn
    exact hfresh

/-- With an exact filter, drawing ends with a new ID if it ends. -/
theorem insertUniqueNodeID_exact {D : Deps} (hf : D.ExactFilter) {f f' : IdFilter}
    {draws : List NodeID} {r : Except Err NodeID} (h : insertUniqueNodeID D f draws = .ok (f', r)) :
    ∃ n, Draws D f draws n ∧ r = .ok n ∧ f' = ⟨f.ids ++ [n.value]⟩ := by
  rcases hr : r with e | n
  · rw [hr] at h
    exfalso
    induction draws with
    | nil => cases h
    | cons n draws ih =>
      simp only [insertUniqueNodeID, containsID, IdFilter.isMember_exact hf, IdFilter.insert_exact hf] at h
      split at h
      · rename_i heq
        cases heq
      · exact ih h
      · cases h
  · rcases insertUniqueNodeID_ok h with ⟨-, e, he⟩ | ⟨n', hn', -, rfl⟩
    · rw [hr] at he
      cases he
    · rw [hr] at hn' h
      cases hn'
      exact ⟨n, h, rfl, rfl⟩

/-- The ID of a client that is not refused is new, or it is one the client proposed and the
filter keeps as it is. -/
theorem clientID_ok {D : Deps} {f f' : IdFilter} {id : Option Bytes} {draws : List NodeID}
    {r : Except Err NodeID} (h : clientID D f id draws = .ok (f', r)) :
    (f' = f ∧ ∃ e, r = .error e) ∨
    (∃ n, r = .ok n ∧ f.isMember D n.value = .ok false ∧ f' = ⟨f.ids ++ [n.value]⟩) ∨
    (∃ n, r = .ok n ∧ id = some n.value ∧ f' = f ∧
      (f.isMember D n.value = .ok true ∨ D.filterInsertErr f.ids n.value = some .idAlreadyInUse)) := by
  cases id with
  | none => exact (insertUniqueNodeID_ok h).imp_right .inl
  | some b =>
    simp only [clientID] at h
    cases hn : nodeIDOf D b with
    | error e => simp only [hn] at h; cases h; exact .inl ⟨rfl, _, rfl⟩
    | ok n =>
      have hb : n.value = b := nodeIDOf_ok hn
      simp only [hn, containsID] at h
      cases hc : f.isMember D n.value with
      | error e => simp only [hc] at h; cases h; exact .inl ⟨rfl, _, rfl⟩
      | ok found =>
        cases found with
        | true =>
          simp only [hc] at h
          cases h
          exact .inr (.inr ⟨n, rfl, by rw [hb], rfl, .inl hc⟩)
        | false =>
          simp only [hc, insertID, IdFilter.insert] at h
          cases hi : D.filterInsertErr f.ids n.value with
          | none => simp only [hi] at h; cases h; exact .inr (.inl ⟨n, rfl, hc, rfl⟩)
          | some e =>
            simp only [hi] at h
            split at h <;> rename_i heq <;> cases heq <;> cases h
            · exact .inr (.inr ⟨n, rfl, by rw [hb], rfl, .inr hi⟩)
            · exact .inl ⟨rfl, _, rfl⟩

theorem World.grows_setFilter {w : World} {f : IdFilter} (h : w.reg.idFilter.ids <+: f.ids) :
    w.Grows (w.setFilter f) :=
  grows_reg rfl h (List.prefix_refl _)

theorem clientID_grows {D : Deps} {f f' : IdFilter} {id : Option Bytes} {draws : List NodeID}
    {r : Except Err NodeID} (h : clientID D f id draws = .ok (f', r)) : f.ids <+: f'.ids := by
  rcases clientID_ok h with ⟨rfl, -⟩ | ⟨n, -, -, rfl⟩ | ⟨n, -, -, rfl, -⟩
  · exact List.prefix_refl _
  · exact List.prefix_append _ _
  · exact List.prefix_refl _

theorem clientID_error {D : Deps} {f f' : IdFilter} {id : Option Bytes} {draws : List NodeID}
    {e : Err} (h : clientID D f id draws = .ok (f', .error e)) : f' = f := by
  rcases clientID_ok h with ⟨rfl, -⟩ | ⟨n, hn, -⟩ | ⟨n, hn, -⟩
  · rfl
  · cases hn
  · cases hn

/-- A filter that does not fail lets every client have the ID it proposes. -/
theorem clientID_total {D : Deps} (hf : D.FilterTotal) (f : IdFilter) (n : NodeID)
    (draws : List NodeID) : ∃ f', clientID D f (some n.value) draws = .ok (f', .ok n) := by
  simp only [clientID, nodeIDOf_value, containsID, insertID, IdFilter.isMember, hf.isMember,
    IdFilter.insert, hf.insert]
  cases decide (n.value ∈ f.ids) || D.falsePositive f.ids n.value with
  | true => exact ⟨f, rfl⟩
  | false => exact ⟨_, rfl⟩

/-- With a sound filter, the ID of a client is known from then on: it is new, or it is one the
client proposed and the filter knew. -/
theorem clientID_knows {D : Deps} (hf : D.SoundFilter) {f f' : IdFilter} {id : Option Bytes}
    {draws : List NodeID} {n : NodeID} (h : clientID D f id draws = .ok (f', .ok n)) :
    f'.isMember D n.value = .ok true ∧
      ((f.isMember D n.value = .ok false ∧ f' = ⟨f.ids ++ [n.value]⟩) ∨ (id = some n.value ∧ f' = f)) := by
  rcases clientID_ok h with ⟨-, e, he⟩ | ⟨m, hm, hnew, rfl⟩ | ⟨m, hm, hid, rfl, hyes⟩
  · cases he
  · cases hm
    exact ⟨(IdFilter.knows_iff hf).2 (.inl (by simp)), .inl ⟨hnew, rfl⟩⟩
  · cases hm
    exact ⟨hyes.resolve_right (hf.insert _ _), .inr ⟨hid, rfl⟩⟩

def clientOf (w : World) (t : Token) (ck sk : RSAPublicKey) (n : NodeID) : ClientInfo :=
  ⟨w.clients, t.getName, n, ck, sk, t.getAttrs, t.myEnds⟩

/-- The keys, the filter and the ID with which a Member message is accepted. -/
structure AcceptsMember (D : Deps) (w : World) (t : Token) (draws : List NodeID)
    (ck sk : RSAPublicKey) (f : IdFilter) (n : NodeID) : Prop where
  verified : verifySpecs D t = .ok (ck, sk)
  id : clientID D w.reg.idFilter t.id draws = .ok (f, .ok n)
  node : D.newBaseNode t.getName n ck sk = none

/-- A Member message whose ID is recorded before its node is refused. -/
structure RefusesMember (D : Deps) (w : World) (t : Token) (draws : List NodeID)
    (ck sk : RSAPublicKey) (f : IdFilter) (n : NodeID) (e : Err) : Prop where
  verified : verifySpecs D t = .ok (ck, sk)
  id : clientID D w.reg.idFilter t.id draws = .ok (f, .ok n)
  node : D.newBaseNode t.getName n ck sk = some e

theorem doClientMsg_accepts {D : Deps} {w : World} {h : InHandler} {draws : List NodeID}
    {ck sk : RSAPublicKey} {f : IdFilter} {n : NodeID}
    (ha : AcceptsMember D w h.msgIn.getMemberSpecs draws ck sk f n) :
    doClientMsg D w h draws = .ok ({ w.setFilter f with clients := w.clients + 1 },
      { h with thisClient := some (clientOf w h.msgIn.getMemberSpecs ck sk n) }.reply
        (memberOK n h.msgIn.getMemberSpecs.getAttrs) .clientDetailsRcvd) := by
  simp only [doClientMsg, ha.verified, ha.id, newClientInfo, ha.node]
  rfl

theorem doClientMsg_ok {D : Deps} {w w' : World} {h h' : InHandler} {draws : List NodeID}
    (hr : doClientMsg D w h draws = .ok (w', h')) :
    (∃ f e, (f = w.reg.idFilter ∨
        ∃ ck sk n, RefusesMember D w h.msgIn.getMemberSpecs draws ck sk f n e) ∧
      w' = w.setFilter f ∧ h' = h.fail e) ∨
    (∃ ck sk f n, AcceptsMember D w h.msgIn.getMemberSpecs draws ck sk f n ∧
      w' = { w.setFilter f with clients := w.clients + 1 } ∧
      h' = { h with thisClient := some (clientOf w h.msgIn.getMemberSpecs ck sk n) }.reply
        (memberOK n h.msgIn.getMemberSpecs.getAttrs) .clientDetailsRcvd) := by
  simp only [doClientMsg] at hr
  cases hv : verifySpecs D h.msgIn.getMemberSpecs with
  | error e =>
    simp only [hv] at hr
    cases hr
    exact .inl ⟨w.reg.idFilter, e, .inl rfl, rfl, rfl⟩
  | ok keys =>
    obtain ⟨ck, sk⟩ := keys
    simp only [hv] at hr
    cases hc : clientID D w.reg.idFilter h.msgIn.getMemberSpecs.id draws with
    | error a => simp only [hc] at hr; cases hr
    | ok fr =>
      obtain ⟨f, r⟩ := fr
      cases r with
      | error e =>
        simp only [hc] at hr
        cases hr
        exact .inl ⟨f, e, .inl (clientID_error hc), rfl, rfl⟩
      | ok n =>
        cases hb : D.newBaseNode h.msgIn.getMemberSpecs.getName n ck sk with
        | some e =>
          simp only [hc, newClientInfo, hb] at hr
          cases hr
          exact .inl ⟨f, e, .inr ⟨ck, sk, n, hv, hc, hb⟩, rfl, rfl⟩
        | none =>
          simp only [hc, newClientInfo, hb] at hr
          cases hr
          exact .inr ⟨ck, sk, f, n, ⟨hv, hc, hb⟩, rfl, rfl⟩

/-- A Create that gets as far as the registry: `w1` is the world after the ID was drawn and
the cluster made. -/
theorem createNew_ok {D : Deps} {w w' : World} {h h' : InHandler} {draws : List NodeID}
    (hr : createNew D w h draws = .ok (w', h')) :
    (∃ f e, (f = w.reg.idFilter ∨ ∃ n, Draws D w.reg.idFilter draws n ∧
        newRegCluster D h.msgIn.getClusterName n 0 (clampSize h.msgIn.getClusterMaxSize)
          h.msgIn.getEndPointCount = .error e ∧ f = ⟨w.reg.idFilter.ids ++ [n.value]⟩) ∧
      w' = w.setFilter f ∧ h' = h.fail e) ∨
    (∃ n rc i err, Draws D w.reg.idFilter draws n ∧
      newRegCluster D h.msgIn.getClusterName n 0 (clampSize h.msgIn.getClusterMaxSize)
        h.msgIn.getEndPointCount = .ok rc ∧
      addCluster D ((w.setFilter ⟨w.reg.idFilter.ids ++ [n.value]⟩).alloc rc) (some w.heap.length) =
        .ok (w', i, err) ∧
      ((∃ e, err = some e ∧ h' = { h with cluster := some w.heap.length }.fail e) ∨
       (err = none ∧ h' = { h with cluster := some w.heap.length }.reply
          (createReply n (clampSize h.msgIn.getClusterMaxSize) h.msgIn.getClusterAttrs
            h.msgIn.getEndPointCount) .createRequestRcvd))) := by
  simp only [createNew] at hr
  cases hu : insertUniqueNodeID D w.reg.idFilter draws with
  | error a => simp only [hu] at hr; cases hr
  | ok fr =>
    obtain ⟨f, r⟩ := fr
    rcases insertUniqueNodeID_ok hu with ⟨rfl, e, rfl⟩ | ⟨n, rfl, -, rfl⟩
    · simp only [hu] at hr
      cases hr
      exact .inl ⟨_, e, .inl rfl, rfl, rfl⟩
    · simp only [hu] at hr
      cases hc : newRegCluster D h.msgIn.getClusterName n 0 (clampSize h.msgIn.getClusterMaxSize)
          h.msgIn.getEndPointCount with
      | error e =>
        simp only [hc] at hr
        cases hr
        exact .inl ⟨_, e, .inr ⟨n, hu, hc, rfl⟩, rfl, rfl⟩
      | ok rc =>
        simp only [hc] at hr
        cases ha : addCluster D ((w.setFilter ⟨w.reg.idFilter.ids ++ [n.value]⟩).alloc rc)
            (some w.heap.length) with
        | error a => simp only [ha] at hr; cases hr
        | ok res =>
          obtain ⟨w1, i, err⟩ := res
          refine .inr ⟨n, rc, i, err, hu, hc, ?_⟩
          cases err with
          | some e => simp only [ha] at hr; cases hr; exact ⟨ha, .inl ⟨e, rfl, rfl⟩⟩
          | none => simp only [ha] at hr; cases hr; exact ⟨ha, .inr ⟨rfl, rfl⟩⟩

theorem clampSize_pos (n : UInt32) : ¬ clampSize n < 1 := by
  unfold clampSize
  split_ifs with hlow hhigh
  · decide
  · decide
  · exact UInt32.not_lt.2 (UInt32.le_trans (by decide) (UInt32.not_lt.1 hlow))

section Clamped

variable {D : Deps} {name : String} {id : NodeID} {attrs : UInt64} {size epCount : UInt32}

/-- For a size in range `NewRegCluster` fails with `NewHAMT` only, be the end point count 0 or not. -/
theorem newRegCluster_clamped (h : D.newHAMT D.maxW (D.nextExp2_32 (clampSize size)) = none) :
    newRegCluster D name id attrs (clampSize size) epCount =
      .ok ⟨if name = "" then "xlCluster" else name, id, attrs, clampSize size, epCount, [], ∅, .empty⟩ := by
  simp only [newRegCluster, clampSize_pos, and_false, if_false, h]

theorem newRegCluster_table {rc : RegCluster}
    (h : newRegCluster D name id attrs (clampSize size) epCount = .ok rc) :
    D.newHAMT D.maxW (D.nextExp2_32 (clampSize size)) = none := by
  simp only [newRegCluster, clampSize_pos, and_false, if_false] at h
  cases ht : D.newHAMT D.maxW (D.nextExp2_32 (clampSize size)) with
  | none => rfl
  | some e =>
    rw [ht] at h
    cases h

end Clamped

theorem createNew_drawn {D : Deps} {w : World} {h : InHandler} {draws : List NodeID} {n : NodeID}
    {rc : RegCluster} (hn : Draws D w.reg.idFilter draws n)
    (hnew : newRegCluster D h.msgIn.getClusterName n 0 (clampSize h.msgIn.getClusterMaxSize)
      h.msgIn.getEndPointCount = .ok rc) :
    createNew D w h draws =
      (addCluster D ((w.setFilter ⟨w.reg.idFilter.ids ++ [n.value]⟩).alloc rc) (some w.heap.length)).map
        fun r => (r.1, match r.2.2 with
          | some e => { h with cluster := some w.heap.length }.fail e
          | none => { h with cluster := some w.heap.length }.reply
              (createReply n (clampSize h.msgIn.getClusterMaxSize) h.msgIn.getClusterAttrs
                h.msgIn.getEndPointCount) .createRequestRcvd) := by
  unfold Draws at hn
  simp only [createNew, hn, hnew]
  rcases addCluster D _ _ with a | ⟨w', i, e | -⟩ <;> rfl

theorem addCluster_setFilter (D : Deps) (w : World) (f : IdFilter) (c : Option Ptr) :
    addCluster D (w.setFilter f) c = (addCluster D w c).map fun r => (r.1.setFilter f, r.2) := by
  rcases c with - | p
  · rfl
  · have hd : (w.setFilter f).deref p = w.deref p := rfl
    simp only [addCluster, hd]
    rcases w.deref p with a | rc
    · rfl
    · simp only [addClusterLocked, World.setFilter, RegCluster.getNodeID_eq]
      rcases newBytesKey D (some rc.id.value) with e | k
      · rfl
      · simp only
        by_cases hn : (w.reg.clustersByName.lookup rc.name).isSome
        · simp only [hn, if_true]
          rfl
        · simp only [hn, Bool.false_eq_true, if_false]
          rcases w.reg.clustersByID.find D k with e | - | q
          · rfl
          · simp only
            rcases w.reg.clustersByID.insert D k p with e | m <;> rfl
          · rfl

theorem doCreateMsg_ok {D : Deps} {w w' : World} {h h' : InHandler} {draws : List NodeID}
    (hr : doCreateMsg D w h draws = .ok (w', h')) :
    (w.reg.clustersByName.lookup h.msgIn.getClusterName = none ∧
      createNew D w h draws = .ok (w', h')) ∨
    (∃ p rc, w.reg.clustersByName.lookup h.msgIn.getClusterName = some p ∧
      w.heap[p]? = some rc ∧ w' = w ∧
      h' = h.reply (createReply rc.id rc.maxSize rc.attrs rc.epCount) .createRequestRcvd) := by
  simp only [doCreateMsg] at hr
  cases hl : w.reg.clustersByName.lookup h.msgIn.getClusterName with
  | none => simp only [hl] at hr; exact .inl ⟨rfl, hr⟩
  | some p =>
    simp only [hl] at hr
    cases hd : w.deref p with
    | error a => simp only [hd] at hr; cases hr
    | ok rc => simp only [hd] at hr; cases hr; exact .inr ⟨p, rc, rfl, deref_ok.1 hd, rfl, rfl⟩

section Recorded

variable {D : Deps} {w w' : World} {h h' : InHandler} {draws : List NodeID} {n : NodeID}

/-- Whatever else happens to it, a Member message with an ID of its own has recorded it. -/
theorem doClientMsg_recorded {keys : RSAPublicKey × RSAPublicKey} {f : IdFilter}
    (hv : verifySpecs D h.msgIn.getMemberSpecs = .ok keys)
    (hid : clientID D w.reg.idFilter h.msgIn.getMemberSpecs.id draws = .ok (f, .ok n))
    (hr : doClientMsg D w h draws = .ok (w', h')) : w'.reg.idFilter = f := by
  simp only [doClientMsg, hv, hid] at hr
  split at hr
  · cases hr
    rfl
  · cases hr
    rfl

theorem doCreateMsg_recorded
    (hl : w.reg.clustersByName.lookup h.msgIn.getClusterName = none)
    (hn : Draws D w.reg.idFilter draws n) (hr : doCreateMsg D w h draws = .ok (w', h')) :
    w'.reg.idFilter = ⟨w.reg.idFilter.ids ++ [n.value]⟩ := by
  unfold Draws at hn
  simp only [doCreateMsg, hl, createNew, hn] at hr
  split at hr
  · cases hr
    rfl
  · split at hr
    · cases hr
    · rename_i ha
      cases hr
      exact addCluster_filter ha
    · rename_i ha
      cases hr
      exact addCluster_filter ha

end Recorded

theorem doJoinMsg_found {D : Deps} {w : World} {h : InHandler} {p : Ptr} {rc : RegCluster}
    {client : ClientInfo} (draws : List NodeID) (hl : joinLookup D w h = (some p, none))
    (hrc : w.heap[p]? = some rc) (hc : h.thisClient = some client) :
    doJoinMsg D w h draws = .ok (w.store p (rc.addMember D client).1,
      match (rc.addMember D client).2 with
      | some e => h.fail e
      | none => { h with cluster := some p }.reply (joinReply (rc.addMember D client).1) .joinRcvd) := by
  have hd := deref_ok.2 hrc
  simp only [doJoinMsg, hc, hl, hd]
  rcases rc.addMember D client with ⟨rc', err⟩
  cases err <;> rfl

/-- A Join comes back only with a cluster to add the client to. -/
theorem doJoinMsg_ok {D : Deps} {w w' : World} {h h' : InHandler} {draws : List NodeID}
    (hr : doJoinMsg D w h draws = .ok (w', h')) :
    ∃ client p rc, h.thisClient = some client ∧ joinLookup D w h = (some p, none) ∧
      w.heap[p]? = some rc ∧ w' = w.store p (rc.addMember D client).1 ∧
      ((∃ e, (rc.addMember D client).2 = some e ∧ h' = h.fail e) ∨
       ((rc.addMember D client).2 = none ∧ h' = { h with cluster := some p }.reply
          (joinReply (rc.addMember D client).1) .joinRcvd)) := by
  simp only [doJoinMsg] at hr
  cases hc : h.thisClient with
  | none => simp only [hc] at hr; cases hr
  | some client =>
    simp only [hc] at hr
    have herr : ∀ p e, joinLookup D w h ≠ (some p, some e) := by
      intro p e he
      unfold joinLookup at he
      repeat' split at he
      all_goals simp at he
    cases hl : joinLookup D w h with
    | mk c e =>
      cases c with
      | none => cases e <;> simp only [hl] at hr <;> cases hr
      | some p =>
        cases e with
        | some e => exact absurd hl (herr p e)
        | none =>
          simp only [hl] at hr
          cases hd : w.deref p with
          | error a => simp only [hd] at hr; cases hr
          | ok rc =>
            simp only [hd] at hr
            refine ⟨client, p, rc, rfl, rfl, deref_ok.1 hd, ?_⟩
            cases ha : rc.addMember D client with
            | mk rc' err =>
              cases err with
              | some e => simp only [ha] at hr; cases hr; exact ⟨rfl, .inl ⟨e, rfl, rfl⟩⟩
              | none => simp only [ha] at hr; cases hr; exact ⟨rfl, .inr ⟨rfl, rfl⟩⟩

theorem doGetMsg_ok {D : Deps} {w w' : World} {h h' : InHandler} {draws : List NodeID}
    (hr : doGetMsg D w h draws = .ok (w', h')) :
    w' = w ∧ ((∃ e, h' = h.fail e) ∨ ∃ s, h' = h.reply (getReply h.msgIn.clusterID s) .joinRcvd) := by
  simp only [doGetMsg] at hr
  split at hr
  · cases hr; exact ⟨rfl, .inl ⟨_, rfl⟩⟩
  · split at hr
    · cases hr; exact ⟨rfl, .inl ⟨_, rfl⟩⟩
    · cases hr; exact ⟨rfl, .inl ⟨_, rfl⟩⟩
    · split at hr
      · cases hr
      · split at hr
        · cases hr
        · cases hr; exact ⟨rfl, .inr ⟨_, rfl⟩⟩

end XlReg
