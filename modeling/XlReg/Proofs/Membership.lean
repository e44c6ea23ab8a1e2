import XlReg.Proofs.Members
import XlReg.Proofs.Replies

/-! Who is in a cluster. A client is put into a list of members only by a Join of its own session,
and the session is told so in the same round. Over whole runs the two accounts balance: the members
of a cluster are, one for one, the clients of the sessions that were sent a JoinReply with its ID.
And each client was introduced on its session by a Member message whose signature verified. -/

namespace XlReg

/-- The exchange was answered with a JoinReply. -/
def Exchange.joins (ex : Exchange) : Bool := ex.reply.any fun r => r.op = some Tag.joinReply

def Exchange.joined (ex : Exchange) (b : Bytes) : Bool :=
  ex.reply.any fun r => r.op = some Tag.joinReply ∧ r.clusterID = some b

def Session.joinedTo (c : Session) (b : Bytes) : Bool := c.exchanges.any (·.joined b)

def Session.joinedAs (b : Bytes) (c : Session) : Option ClientInfo :=
  if c.joinedTo b then c.h.thisClient else none

/-- The client was introduced in this exchange: the signature of the message verified under the key
the client is known by, and the reply has its ID. -/
structure Exchange.Introduces (D : Deps) (ex : Exchange) (m : ClientInfo) : Prop where
  verified : verifySpecs D ex.msg.getMemberSpecs = .ok (m.commsPubKey, m.sigPubKey)
  name : m.name = ex.msg.getMemberSpecs.getName
  attrs : m.attrs = ex.msg.getMemberSpecs.getAttrs
  myEnds : m.myEnds = ex.msg.getMemberSpecs.myEnds
  proposed : ∀ b, ex.msg.getMemberSpecs.id = some b → m.nodeID.value = b
  reply : ex.reply = some (memberOK m.nodeID m.attrs)

def InState.Early (s : InState) : Prop :=
  s = .helloRcvd ∨ s = .clientDetailsRcvd ∨ s = .createRequestRcvd

/-- What a session's exchanges say about its client and its cluster. -/
structure Session.Told (D : Deps) (c : Session) : Prop where
  early : c.h.entryState.Early → c.exchanges.countP Exchange.joins = 0
  once : c.exchanges.countP Exchange.joins ≤ 1
  introduced : ∀ m, c.h.thisClient = some m → ∃ ex ∈ c.exchanges, ex.Introduces D m

theorem joins_of_reply {ex : Exchange} {r : XLRegMsg} (h : ex.reply = some r)
    (hop : r.op ≠ some Tag.joinReply) : ex.joins = false := by
  simp [Exchange.joins, h, hop]

theorem Exchange.joins_of_joined {ex : Exchange} {b : Bytes} (h : ex.joined b = true) : ex.joins = true := by
  obtain ⟨r, hr, hop⟩ := (Option.any_eq_true _ _).1 h
  exact (Option.any_eq_true _ _).2 ⟨r, hr, decide_eq_true (of_decide_eq_true hop).1⟩

theorem Exchange.joined_of_joins {ex : Exchange} (h : ex.joins = false) (b : Bytes) : ex.joined b = false :=
  Bool.eq_false_iff.2 fun hb => by simp [joins_of_joined hb] at h

theorem joined_of_reply {ex : Exchange} {r : XLRegMsg} (h : ex.reply = some r)
    (hop : r.op ≠ some Tag.joinReply) (b : Bytes) : ex.joined b = false :=
  Exchange.joined_of_joins (joins_of_reply h hop) b

theorem Session.Told.unjoined {D : Deps} {c : Session} (hc : c.Told D) (he : c.h.entryState.Early)
    (b : Bytes) : c.joinedTo b = false := by
  refine List.any_eq_false.2 fun ex hex hb => ?_
  exact List.countP_eq_zero.1 (hc.early he) ex hex (Exchange.joins_of_joined hb)

theorem joinedTo_snoc (h : InHandler) (exs : List Exchange) (ex : Exchange) (b : Bytes) :
    Session.joinedTo ⟨h, exs ++ [ex]⟩ b = (exs.any (·.joined b) || ex.joined b) := by
  simp [Session.joinedTo]

/-- The clients in clusters with the ID `b`. -/
def World.roster (b : Bytes) (w : World) : Multiset ClientInfo :=
  (w.heap.map fun rc => if rc.id.value = b then (rc.members : Multiset ClientInfo) else 0).sum

def Session.tally (b : Bytes) (c : Session) : Multiset ClientInfo := ↑(c.joinedAs b).toList

theorem World.roster_store {w : World} {p : Ptr} {rc rc' : RegCluster} {m : ClientInfo}
    (hp : w.heap[p]? = some rc) (hid : rc'.id = rc.id) (hmem : rc'.members = rc.members ++ [m])
    (b : Bytes) :
    (w.store p rc').roster b = w.roster b + if rc.id.value = b then {m} else 0 := by
  have hset := Parties.sum_set hp
    (fun rc => if rc.id.value = b then (rc.members : Multiset ClientInfo) else 0) rc'
  simp only [hid, hmem] at hset
  apply add_right_cancel (b := if rc.id.value = b then (rc.members : Multiset ClientInfo) else 0)
  rw [World.roster, World.store, hset, World.roster]
  split_ifs
  · rw [add_assoc, ← Multiset.coe_add, add_comm (rc.members : Multiset ClientInfo)]
    rfl
  · simp

theorem World.roster_alloc (w : World) {rc : RegCluster} (h : rc.members = []) (b : Bytes) :
    (w.alloc rc).roster b = w.roster b := by
  simp [World.roster, World.alloc, h]

/-- What a round can do to the clusters and to what its session knows: nothing, or its client is
introduced, or its client joins a cluster and is told so. -/
inductive RoundTold (D : Deps) (w : World) (h : InHandler) (w' : World) (h' : InHandler) (ex : Exchange) :
    Prop
  | quiet (roster : ∀ b, w'.roster b = w.roster b) (told : ex.joins = false)
      (client : h'.thisClient = h.thisClient) (early : h'.entryState.Early → h.entryState.Early)
  | introduced {m : ClientInfo} (roster : ∀ b, w'.roster b = w.roster b)
      (told : ex.joins = false) (state : h.entryState = .helloRcvd)
      (client : h'.thisClient = some m) (by_ : ex.Introduces D m)
  | joined {m : ClientInfo} {id : NodeID}
      (roster : ∀ b, w'.roster b = w.roster b + if id.value = b then {m} else 0)
      (told : ∀ b, ex.joined b = decide (id.value = b))
      (state : h.entryState = .clientDetailsRcvd ∨ h.entryState = .createRequestRcvd)
      (before : h.thisClient = some m) (client : h'.thisClient = some m)
      (late : h'.entryState = .joinRcvd)

theorem told_refused {D : Deps} {w w' : World} {h : InHandler} {m : XLRegMsg} {f : HandlerName}
    (h₁ : InHandler) (e : Err) (hcl : h₁.thisClient = h.thisClient)
    (hroster : ∀ b, w'.roster b = w.roster b) :
    RoundTold D w h w' (afterRound (h₁.fail e)) (exchangeOf h m f (h₁.fail e)) :=
  .quiet hroster (joins_of_reply rfl (by simp [errorMsg, Tag.error, Tag.joinReply])) hcl
    (by simp [afterRound_fail, InState.Early])

theorem told_reply {D : Deps} {w w' : World} {h : InHandler} {m : XLRegMsg} {f : HandlerName}
    (h₁ : InHandler) (r : XLRegMsg) (s : InState) (hcl : h₁.thisClient = h.thisClient)
    (hop : r.op ≠ some Tag.joinReply) (hroster : ∀ b, w'.roster b = w.roster b)
    (hearly : s.Early → h.entryState.Early) :
    RoundTold D w h w' (afterRound (h₁.reply r s)) (exchangeOf h m f (h₁.reply r s)) :=
  .quiet hroster (joins_of_reply rfl hop) hcl hearly

theorem roster_made {D : Deps} {w w' : World} {m : XLRegMsg} {draws : List NodeID} {n : NodeID}
    {rc : RegCluster} {i : ℤ} {err : Option Err} (hm : MakesCluster D w m draws n rc)
    (ha : addCluster D ((w.setFilter ⟨w.reg.idFilter.ids ++ [n.value]⟩).alloc rc)
      (some w.heap.length) = .ok (w', i, err)) (b : Bytes) : w'.roster b = w.roster b := by
  rw [World.roster, addCluster_heap ha]
  exact World.roster_alloc _ (newRegCluster_ok hm.made).1.members b

theorem clientID_proposed {D : Deps} {f f' : IdFilter} {b : Bytes} {draws : List NodeID} {n : NodeID}
    (h : clientID D f (some b) draws = .ok (f', .ok n)) : n.value = b := by
  simp only [clientID] at h
  cases hb : nodeIDOf D b with
  | error e => simp [hb] at h
  | ok n' =>
    have hn : n = n' := by
      simp only [hb] at h
      repeat' split at h
      all_goals first | cases h; rfl | cases h
    rw [hn, nodeIDOf_ok hb]

theorem startIter_told {D : Deps} (hins : ∀ keys k, D.insertErr keys k = none) (hkey : D.KeysNodeIDs)
    {w w' : World} {h h' : InHandler} {x : Input} {ex : Exchange}
    (hr : startIter D w h x = .ok (w', h', ex)) : RoundTold D w h w' h' ex := by
  obtain ⟨f, h₁, hd, hh, rfl, rfl⟩ := startIter_ok hr
  have hf := dispatch_permitted hd
  have hcreate : f = .doCreateMsg → h.entryState.Early := by
    rintro rfl
    unfold InState.Early
    revert hf
    cases h.entryState <;> decide
  cases handler_effect hh with
  | refused e => exact told_refused _ e rfl fun _ => rfl
  | noNode ha => exact told_refused _ _ rfl fun _ => rfl
  | accepted ha =>
    have hst : h.entryState = .helloRcvd := by
      revert hf
      cases h.entryState <;> decide
    refine .introduced (fun _ => rfl) (joins_of_reply rfl (by simp [memberOK, Tag.memberOK, Tag.joinReply]))
      hst rfl ⟨ha.verified, rfl, rfl, rfl, fun b hb => ?_, rfl⟩
    exact clientID_proposed (hb ▸ ha.id)
  | noCluster hl hn hnew => exact told_refused _ _ rfl fun _ => rfl
  | notAdded hm ha => exact told_refused _ _ rfl (roster_made hm ha)
  | created hm ha =>
    exact told_reply _ _ _ rfl (by simp [createReply, Tag.createReply, Tag.joinReply]) (roster_made hm ha)
      fun _ => hcreate rfl
  | found hl hp =>
    exact told_reply _ _ _ rfl (by simp [createReply, Tag.createReply, Tag.joinReply]) (fun _ => rfl)
      fun _ => hcreate rfl
  | notJoined hj ha =>
    rename_i client p rc e
    rcases addMember_spec hins hkey rc client with ⟨-, he⟩ | ⟨-, e', he⟩
    · rw [he] at ha
      cases ha
    · refine told_refused _ _ rfl fun b => ?_
      rw [he, World.store_self hj.cluster]
  | joined hj ha =>
    rename_i client p rc
    have hst : h.entryState = .clientDetailsRcvd ∨ h.entryState = .createRequestRcvd := by
      revert hf
      cases h.entryState <;> decide
    have hg := rc.grows_addMember D client
    rcases addMember_spec hins hkey rc client with ⟨-, he⟩ | ⟨-, e, he⟩
    · refine .joined (World.roster_store hj.cluster hg.id (by rw [he])) (fun b => ?_) hst hj.client
        hj.client rfl
      simp [Exchange.joined, respond, InHandler.reply, joinReply, hg.id]
    · rw [he] at ha
      cases ha
  | listed s =>
    exact told_reply _ _ _ rfl (by simp [getReply, Tag.clusterMembers, Tag.joinReply]) (fun _ => rfl)
      (by simp [InState.Early])
  | bye =>
    exact told_reply _ _ _ rfl (by simp [Tag.ack, Tag.joinReply]) (fun _ => rfl) (by simp [InState.Early])

theorem Session.Told.step {D : Deps} {w w' : World} {c : Session} {h' : InHandler} {ex : Exchange}
    (hc : c.Told D) (hr : RoundTold D w c.h w' h' ex) : Session.Told D ⟨h', c.exchanges ++ [ex]⟩ := by
  have hold : ∀ m, c.h.thisClient = some m → ∃ ex' ∈ c.exchanges ++ [ex], ex'.Introduces D m := by
    intro m hm
    obtain ⟨ex', hex', hi⟩ := hc.introduced m hm
    exact ⟨ex', List.mem_append_left _ hex', hi⟩
  have hcount : (c.exchanges ++ [ex]).countP Exchange.joins =
      c.exchanges.countP Exchange.joins + if ex.joins then 1 else 0 := by
    rw [List.countP_append, List.countP_singleton]
  cases hr with
  | quiet _ htold hcl hearly =>
    rw [htold] at hcount
    exact ⟨fun he => hcount.trans (hc.early (hearly he)), hcount.trans_le hc.once,
      fun m hm => hold m (hcl ▸ hm)⟩
  | introduced _ htold hst hcl hby =>
    rw [htold] at hcount
    refine ⟨fun _ => hcount.trans (hc.early (.inl hst)), hcount.trans_le hc.once, fun m hm => ?_⟩
    cases hcl.symm.trans hm
    exact ⟨ex, by simp, hby⟩
  | joined _ _ hst hbefore hcl hlate =>
    -- a session that is about to join has not been sent a JoinReply yet
    have hnone := hc.early (hst.elim (fun h => .inr (.inl h)) fun h => .inr (.inr h))
    refine ⟨fun he => ?_, ?_, fun m hm => hold m (hbefore.trans (hcl.symm.trans hm))⟩
    · rw [hlate] at he
      simp [InState.Early] at he
    · rw [hcount, hnone]
      split_ifs <;> simp

/-- The round puts into the clusters what it adds to its session's part. -/
theorem RoundTold.balanced {D : Deps} {w w' : World} {c : Session} {h' : InHandler} {ex : Exchange}
    (hc : c.Told D) (hr : RoundTold D w c.h w' h' ex) (b : Bytes) :
    w'.roster b + c.tally b = w.roster b + Session.tally b ⟨h', c.exchanges ++ [ex]⟩ := by
  unfold Session.tally Session.joinedAs
  rw [joinedTo_snoc, show c.exchanges.any (·.joined b) = c.joinedTo b from rfl]
  cases hr with
  | quiet hroster htold hcl _ => rw [hroster, ex.joined_of_joins htold, Bool.or_false, hcl]
  | introduced hroster htold hst _ _ =>
    rw [hroster, ex.joined_of_joins htold, hc.unjoined (.inl hst) b]
    rfl
  | joined hroster htold hst hbefore hcl _ =>
    rw [hroster, htold, hc.unjoined (hst.elim (fun h => .inr (.inl h)) fun h => .inr (.inr h)) b, hcl]
    split_ifs <;> simp_all

theorem told_contract {D : Deps} (hins : ∀ keys k, D.insertErr keys k = none) (hkey : D.KeysNodeIDs) :
    Parties.Contract (server D) (fun _ _ _ => True) (fun s => s.world.Registered)
      (fun _ _ => True) (fun _ c => c.Told D) where
  start _ _ _ := ⟨fun _ => rfl, Nat.zero_le 1, fun _ hm => (by cases hm)⟩
  step s c x s' c' hw hc _ hr := by
    rcases sessionStep_ok hr with ⟨-, rfl, rfl⟩ | ⟨-, w, h, ex, hi, rfl, rfl⟩
    · exact ⟨hw, trivial, hc⟩
    · obtain ⟨f, h₁, -, hh, -⟩ := startIter_ok hi
      exact ⟨handler_registered hw hh, trivial, hc.step (startIter_told hins hkey hi)⟩
  stable _ _ _ _ hc _ := hc

theorem World.Registered.roster_eq {w : World} (hw : w.Registered) {rc : RegCluster} (hrc : rc ∈ w.heap) :
    w.roster rc.id.value = rc.members := by
  obtain ⟨p, hp⟩ := List.mem_iff_getElem?.1 hrc
  unfold World.roster
  rw [Parties.sum_single hp, if_pos rfl]
  intro q rc' hq hne
  refine if_neg fun hid => hne ?_
  have hids : (w.heap.map (·.id))[q]? = (w.heap.map (·.id))[p]? := by
    rw [List.getElem?_map, List.getElem?_map, hp, hq, Option.map_some, Option.map_some,
      NodeID.value_inj.1 hid]
  have hlt : q < (w.heap.map (·.id)).length := by
    rw [List.length_map]
    exact (List.getElem?_eq_some_iff.1 hq).1
  exact (List.getElem?_inj hlt hw.distinct.of_cons).1 hids

end XlReg
