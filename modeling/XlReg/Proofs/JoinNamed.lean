import XlReg.Proofs.Signing
import XlReg.Proofs.Table
import XlReg.Sanity.Registered

/-! A client that joins the cluster it was made for, at this server. Its Join request carries the
cluster's ID and never its name. So without an ID it has nothing to send, and with the ID of another
cluster it joins that one. -/

namespace XlReg

/-- The request was sent, and what was read after it is the reply of the exchange. -/
structure Ask.AnsweredBy (a : Ask) (ex : Exchange) : Prop where
  request : a.request = some ex.msg
  write : a.turn.write = none
  read : a.turn.read = .ok ex.reply

/-- Session `k` answers the request: `t` is what the client meets and `s'` the server after it. -/
def Answers (D : Deps) (s : ServerState) (k : ℕ) (m : XLRegMsg) (t : Turn) (s' : ServerState) : Prop :=
  ∃ c c' ex draws, s.parties[k]? = some c ∧ (server D).next s (.act k ⟨m, draws⟩) = .ok s' ∧
    s'.parties[k]? = some c' ∧ c'.exchanges = c.exchanges ++ [ex] ∧ t.write = none ∧ t.read = .ok ex.reply

/-- A request fails on the way there or back, or it is answered. -/
def Talks (D : Deps) (s : ServerState) (k : ℕ) (m : XLRegMsg) (t : Turn) (s' : ServerState) : Prop :=
  t.write ≠ none ∨ (∃ e, t.read = .error e) ∨ Answers D s k m t s'

/-- What the client knows of the cluster that it names, and that it is a member. -/
structure KnowsCluster (cm : ClusterMember) (w : World) : Prop where
  cluster : ∃ p rc, w.reg.clustersByName.lookup cm.clusterName = some p ∧ w.heap[p]? = some rc ∧
    cm.clusterID = some rc.id ∧ cm.clusterMaxSize = rc.maxSize ∧ cm.epCount = rc.epCount ∧
    ∃ m ∈ rc.members, m.nodeID = cm.node.nodeID ∧ m.name = cm.node.name
  table : cm.members.length = cm.clusterMaxSize.toNat

/-- The Join of the client `c` does not fault, and if it reports no error then it was a Join of the
cluster that the client names. -/
def JoinsNamed (D : Deps) (s : ServerState) (k : ℕ) (c : Client) : Prop :=
  ∀ t s', (∀ id, c.cm.clusterID = some id → Talks D s k (joinRequest id) t s') →
    (∀ x, (joinAndReply (fun _ => t) c).2 ≠ .error x) ∧
    ((joinAndReply (fun _ => t) c).2 = .ok none →
      KnowsCluster (joinAndReply (fun _ => t) c).1.cm s'.shared.world)

def World.FindsID (D : Deps) (w : World) (id : NodeID) (q : Ptr) : Prop :=
  newBytesKey D (some id.value) = .ok id.value ∧ w.reg.clustersByID.find D id.value = .ok (some q)

theorem joinLookup_byID {D : Deps} {w : World} {h : InHandler} {id : NodeID} {q : Ptr} :
    joinLookup D w { h with msgIn := joinRequest id } = (some q, none) ↔ w.FindsID D id q := by
  simp only [joinLookup, joinRequest, World.FindsID]
  cases hk : newBytesKey D (some id.value) with
  | error e => simp
  | ok k =>
    obtain ⟨-, rfl⟩ := newBytesKey_ok hk
    simp only [true_and]
    cases w.reg.clustersByID.find D id.value with
    | error e => simp
    | ok r => cases r <;> simp

theorem World.FindsID.cluster {D : Deps} {w : World} {id : NodeID} {q : Ptr} (hw : w.Registered)
    (h : w.FindsID D id q) : ∃ rc, w.heap[q]? = some rc ∧ rc.id = id := by
  obtain ⟨-, hfind⟩ := h
  unfold Hamt.find at hfind
  split at hfind
  · cases hfind
  · obtain ⟨hmem, hid⟩ := hw.byID _ _ (Except.ok.inj hfind)
    have hq := List.getElem?_eq_getElem (hw.valid q hmem)
    rw [World.idAt_eq hq] at hid
    exact ⟨_, hq, NodeID.value_inj.1 hid⟩

theorem World.Registered.ptr_of_id {w : World} (h : w.Registered) {p q : Ptr} {rc rc' : RegCluster}
    (hp : w.heap[p]? = some rc) (hq : w.heap[q]? = some rc') (hid : rc.id = rc'.id) : p = q := by
  have hlt : p < (w.heap.map (·.id)).length := by
    rw [List.length_map]
    exact (List.getElem?_eq_some_iff.1 hp).1
  apply (List.getElem?_inj hlt h.distinct.of_cons).1
  rw [List.getElem?_map, List.getElem?_map, hp, hq, Option.map_some, Option.map_some, hid]

/-! The client that a session speaks for is the one that has sent its Member message. -/

/-- After the Member message, the session's client has the name in it, and the ID if there is one. -/
def Session.Introduced (c : Session) : Prop :=
  c.h.entryState = .clientDetailsRcvd → ∃ ex client, c.exchanges.getLast? = some ex ∧
    c.h.thisClient = some client ∧ client.name = ex.msg.getMemberSpecs.getName ∧
    ∀ n : NodeID, ex.msg.getMemberSpecs.id = some n.value → client.nodeID = n

theorem clientID_some {D : Deps} {f f' : IdFilter} {n m : NodeID} {draws : List NodeID}
    (h : clientID D f (some n.value) draws = .ok (f', .ok m)) : m = n := by
  simp only [clientID, nodeIDOf_value] at h
  split at h
  · cases h
  · cases h; rfl
  · split at h <;> cases h <;> rfl

theorem startIter_introduced {D : Deps} {w w' : World} {h h' : InHandler} {x : Input} {ex : Exchange}
    (hr : startIter D w h x = .ok (w', h', ex)) (exs : List Exchange) :
    Session.Introduced ⟨h', exs ++ [ex]⟩ := by
  intro hst
  rcases startIter_outcome hr with ⟨e, -, -, -, hcl⟩ | ⟨herr, -, hexit, -, -⟩
  · rw [hst] at hcl
    cases hcl
  · obtain ⟨f, h₁, hd, hh, rfl, rfl⟩ := startIter_ok hr
    -- only a Member message leads to this state
    obtain rfl : f = .doClientMsg := by
      have hf := hst.symm.trans hexit
      revert hf
      cases f <;> simp [HandlerName.exit]
    rcases doClientMsg_ok hh with ⟨f, e, -, -, rfl⟩ | ⟨ck, sk, f, n, ha, -, rfl⟩
    · cases herr
    · refine ⟨_, _, List.getLast?_concat, rfl, rfl, ?_⟩
      intro m hm
      have hid := ha.id
      simp only at hm
      rw [hm] at hid
      exact clientID_some hid

theorem introduced_contract (D : Deps) :
    Parties.Contract (server D) (fun _ _ _ => True) (fun s => s.world.Registered) (fun _ _ => True)
      (fun _ c => c.Introduced) where
  start _ _ _ := fun h => by cases h
  step s c x s' c' hI hJ _ hr := by
    rcases sessionStep_ok hr with ⟨-, rfl, rfl⟩ | ⟨-, w, h, ex, hi, rfl, rfl⟩
    · exact ⟨hI, trivial, hJ⟩
    · obtain ⟨f, h₁, -, hh, -, -⟩ := startIter_ok hi
      exact ⟨handler_registered hI hh, trivial, startIter_introduced hi _⟩
  stable _ _ _ _ hJ _ := hJ

theorem memberAndOK_passed {D : Deps} {K : ClientDeps} {net : ℕ → Turn} {cm : ClusterMember} {cl : Client}
    (h : memberAndOK D K net ⟨cm, []⟩ = (cl, .ok none)) :
    ∃ a attrs, a.request = memberRequest D K cm ∧ cl = ⟨{ cm with attrs }, [a]⟩ := by
  obtain ⟨a, -, hreq, -, ⟨e, -, he⟩ | ⟨m, attrs, -, he⟩⟩ := memberAndOK_cases (D := D) K net ⟨cm, []⟩
  · rw [h] at he
    cases he
  · rw [h] at he
    exact ⟨a, attrs, hreq, (Prod.ext_iff.1 he).1⟩

/-- A session that has had one exchange, with the client's Member request, speaks for its node. -/
theorem speaks_for_node {D : Deps} {K : ClientDeps} {cm : ClusterMember} {a : Ask}
    (hreq : a.request = memberRequest D K cm) {c : Session} (hint : c.Introduced)
    (hst : c.h.entryState = .clientDetailsRcvd) (hlog : List.Forall₂ Ask.AnsweredBy [a] c.exchanges)
    {client : ClientInfo} (hclient : c.h.thisClient = some client) :
    client.nodeID = cm.node.nodeID ∧ client.name = cm.node.name := by
  obtain ⟨ex, client', hlast, hclient', hname, hid⟩ := hint hst
  rw [hclient] at hclient'
  cases hclient'
  obtain ⟨ex', exs, hans, hnil, hexs⟩ := List.forall₂_cons_left_iff.1 hlog
  obtain rfl := List.forall₂_nil_left_iff.1 hnil
  rw [hexs, List.getLast?_singleton] at hlast
  cases hlast
  obtain ⟨token, htoken, hmsg⟩ := memberRequest_ok (hreq.symm.trans hans.request)
  obtain ⟨ckBytes, skBytes, digSig, -, -, -, rfl⟩ := memberToken_ok htoken
  rw [hmsg] at hname hid
  exact ⟨hid cm.node.nodeID rfl, hname⟩

/-! The Join. -/

theorem length_resized {size now : UInt32} {members : List (Option MemberInfo)}
    (h : members.length = size.toNat) : (resized size now members).length = now.toNat := by
  unfold resized
  split_ifs with hne
  · exact List.length_replicate
  · rw [h, not_not.1 hne]

section Join

variable {D : Deps} {s : ServerState} {k : ℕ} {c : Session} (hc : s.parties[k]? = some c)
  (hst : c.h.entryState = .clientDetailsRcvd) {client : ClientInfo}
  (hclient : c.h.thisClient = some client)
include hc hst hclient

theorem answers_join {id : NodeID} {t : Turn} {s' : ServerState}
    (h : Answers D s k (joinRequest id) t s') :
    ∃ q rc, s.shared.world.FindsID D id q ∧ s.shared.world.heap[q]? = some rc ∧
      s'.shared.world = s.shared.world.store q (rc.addMember D client).1 ∧
      ((rc.addMember D client).2 = none → t.answer = .ok (joinReply (rc.addMember D client).1)) := by
  obtain ⟨c₀, c', ex, draws, hc₀, hnext, hc', hex, hw, hr⟩ := h
  rw [hc] at hc₀
  cases hc₀
  obtain ⟨w, g, ex', hi, hs', hg⟩ := server_act hc (by rw [hst]; decide) hnext
  rw [hc'] at hg
  cases hg
  obtain rfl : ex' = ex := (List.append_inj' hex rfl).2 |> List.singleton_inj.1
  obtain ⟨f, h₁, hd, hh, rfl, rfl⟩ := startIter_ok hi
  cases (dispatch_join (m := joinRequest id) (.inl hst) rfl).symm.trans hd
  change doJoinMsg D _ _ draws = _ at hh
  obtain ⟨client', q, rc, hcl, hl, hrc, rfl, hout⟩ := doJoinMsg_ok hh
  rw [hclient] at hcl
  cases hcl
  refine ⟨q, rc, joinLookup_byID.1 hl, hrc, by rw [hs'], ?_⟩
  intro hok
  rcases hout with ⟨e, he, -⟩ | ⟨-, rfl⟩
  · rw [hok] at he
    cases he
  · exact Turn.answer_ok_iff.2 ⟨hw, _, hr, rfl⟩

theorem exists_answers_join {id : NodeID} {q : Ptr} {rc : RegCluster}
    (hq : s.shared.world.FindsID D id q) (hrc : s.shared.world.heap[q]? = some rc) :
    ∃ t s' m, Answers D s k (joinRequest id) t s' ∧ t.answer = .ok m := by
  have hd := dispatch_join (m := joinRequest id) (.inl hst) rfl
  have hrun := doJoinMsg_found [] (joinLookup_byID (h := c.h).2 hq) hrc hclient
  obtain ⟨s', hnext, hc'⟩ := server_handled (x := ⟨joinRequest id, []⟩) hc hd hrun
  exact ⟨{ read := .ok _, draws := fun _ => id }, s', _, ⟨c, _, _, [], hc, hnext, hc', rfl, rfl, rfl⟩,
    Turn.answer_ok_iff.2 ⟨rfl, _, rfl, rfl⟩⟩

/-! The client names the cluster at `p` and has the ID `id`, however it came by it. -/

variable (hw : s.shared.world.Registered) {cl : Client} {p : Ptr} {rc : RegCluster}
  (hp : s.shared.world.reg.clustersByName.lookup cl.cm.clusterName = some p)
  (hrc : s.shared.world.heap[p]? = some rc) {id : NodeID} (hid : cl.cm.clusterID = some id)
include hw hp hrc hid

/-- A client that joins the cluster it names has no other cluster's ID. -/
theorem ptr_of_joinsNamed (hjoins : JoinsNamed D s k cl) {q : Ptr} (hq : s.shared.world.FindsID D id q) :
    q = p := by
  obtain ⟨rcq, hrcq, hidq⟩ := hq.cluster hw
  obtain ⟨t, s', m, hans, hm⟩ := exists_answers_join hc hst hclient hq hrcq
  have hres := hjoins t s' fun id' hid' => by
    cases hid.symm.trans hid'
    exact .inr (.inr hans)
  obtain ⟨hnone, -⟩ | ⟨a, -, hturn, ⟨e, he, -⟩ | ⟨m', -, hj⟩⟩ := joinAndReply_cases (fun _ => t) cl
  · rw [hid] at hnone
    cases hnone
  · rw [hturn, hm] at he
    cases he
  · rw [hj] at hres
    obtain ⟨p', rc', hp', hrc', hid', -⟩ := (hres.2 rfl).cluster
    obtain ⟨q', rcq', -, hrcq', hworld, -⟩ := answers_join hc hst hclient hans
    rw [hworld] at hp' hrc'
    cases hp.symm.trans hp'
    obtain ⟨rc₁, hrc₁, hgr⟩ := (World.grows_store hrcq' (rcq'.grows_addMember D client)).heap p rc hrc
    rw [hrc'] at hrc₁
    cases hrc₁
    apply hw.ptr_of_id hrcq hrc
    rw [hidq, ← hgr.id]
    exact Option.some.inj (hid.symm.trans hid')

/-- A client without another cluster's ID joins the cluster it names, if that admits it. -/
theorem joinsNamed_of_ptr (hadmits : (rc.addMember D client).2 = none)
    (hnode : client.nodeID = cl.cm.node.nodeID) (hname : client.name = cl.cm.node.name)
    (htable : cl.cm.members.length = cl.cm.clusterMaxSize.toNat)
    (hother : ∀ q, s.shared.world.FindsID D id q → q = p) : JoinsNamed D s k cl := by
  intro t s' htalks
  obtain ⟨hnone, -⟩ | ⟨a, -, hturn, ⟨e, -, hj⟩ | ⟨m, hm, hj⟩⟩ := joinAndReply_cases (fun _ => t) cl
  · rw [hid] at hnone
    cases hnone
  · rw [hj]
    exact ⟨fun x hx => (by cases hx), fun hx => (by cases hx)⟩
  · rw [hj]
    refine ⟨fun x hx => (by cases hx), fun _ => ?_⟩
    rw [hturn] at hm
    obtain ⟨hwrite, mo, hread, -⟩ := Turn.answer_ok_iff.1 hm
    rcases htalks id hid with hwrite' | ⟨e, he⟩ | hans
    · exact absurd hwrite hwrite'
    · rw [hread] at he
      cases he
    · obtain ⟨q, rcq, hfinds, hrcq, hworld, hreply⟩ := answers_join hc hst hclient hans
      obtain rfl := hother q hfinds
      rw [hrc] at hrcq
      cases hrcq
      rw [hreply hadmits] at hm
      cases hm
      have hlt := (List.getElem?_eq_some_iff.1 hrc).1
      obtain ⟨rcid, hrcid, hidq⟩ := hfinds.cluster hw
      rw [hrc] at hrcid
      cases hrcid
      refine ⟨⟨q, (rc.addMember D client).1, ?_, ?_, ?_, rfl, rfl, client, ?_, hnode, hname⟩, ?_⟩
      · rw [hworld]
        exact hp
      · rw [hworld]
        exact List.getElem?_set_self hlt
      · rw [(rc.grows_addMember D client).id, hidq]
        exact hid
      · exact rc.mem_addMember hadmits
      · exact length_resized htable

end Join

/-- A client made by `NewMemberMaker` has sent its Member message in a session of the server, the
cluster that it names is registered and admits it. Its Join is a Join of that cluster exactly if it
was made with an ID, and this is not the ID of another cluster. -/
theorem joinsNamed_iff {D : Deps} {K : ClientDeps} {node : Option Node} {attrs : UInt64}
    {regName : String} {regID : Option NodeID} {regEnd : Option EndPoint}
    {regCK regSK : Option RSAPublicKey} {clusterName : String} {clusterAttrs : UInt64}
    {clusterID : Option NodeID} {size epCount : UInt32} {endPoints : List EndPoint} {cm : ClusterMember}
    (hmake : newMemberMaker D K node attrs regName regID regEnd regCK regSK clusterName clusterAttrs
      clusterID size epCount endPoints = .ok (.ok cm)) {net : ℕ → Turn} {cl : Client}
    (hmember : memberAndOK D K net ⟨cm, []⟩ = (cl, .ok none)) {serverID : NodeID}
    {evs : List ServerEvent} {s : ServerState} (h : serve D serverID evs = .ok s) {k : ℕ} {c : Session}
    (hc : s.parties[k]? = some c) (hst : c.h.entryState = .clientDetailsRcvd)
    (hlog : List.Forall₂ Ask.AnsweredBy cl.log c.exchanges) {p : Ptr} {rc : RegCluster}
    (hp : s.shared.world.reg.clustersByName.lookup clusterName = some p)
    (hrc : s.shared.world.heap[p]? = some rc) {client : ClientInfo}
    (hclient : c.h.thisClient = some client) (hadmits : (rc.addMember D client).2 = none) :
    JoinsNamed D s k cl ↔
      ∃ id, clusterID = some id ∧ ∀ q, s.shared.world.FindsID D id q → q = p := by
  have hsess := (introduced_contract D).holds_of_run
    ⟨World.init_registered serverID, fun _ hc => by cases hc⟩ h
  have hw : s.shared.world.Registered := hsess.1
  obtain ⟨hnamed, hid, hsize, hmembers⟩ := newMemberMaker_ok hmake
  obtain ⟨a, attrs, hreq, rfl⟩ := memberAndOK_passed hmember
  obtain ⟨hnode, hname⟩ := speaks_for_node hreq (hsess.2 c (List.mem_of_getElem? hc)) hst hlog hclient
  rw [← hnamed] at hp
  constructor
  · intro hjoins
    cases clusterID with
    | none =>
      have hfault := (hjoins { read := .error EOF, draws := fun _ => serverID } s
        fun _ _ => .inr (.inl ⟨EOF, rfl⟩)).1 .nilDeref
      simp [joinAndReply, hid] at hfault
    | some id =>
      exact ⟨id, rfl, fun q hq => ptr_of_joinsNamed hc hst hclient hw hp hrc hid hjoins hq⟩
  · rintro ⟨id, rfl, hother⟩
    refine joinsNamed_of_ptr hc hst hclient hw hp hrc hid hadmits hnode hname ?_ hother
    change cm.members.length = cm.clusterMaxSize.toNat
    rw [hmembers, hsize, List.length_replicate]

namespace Sample

/-- A client's node is known to a session, and another session has made the clusters "c" and "d". -/
def clientAmong : List ServerEvent :=
  [.enter (), .act 0 ⟨(memberRequest .plain .plain (madeMember none 2)).getD {}, []⟩,
   .enter (), .act 1 ⟨member "bob" none 2, [.rep 2]⟩, .act 1 ⟨create "c" 3, [.rep 5]⟩,
   .enter (), .act 2 ⟨member "carol" none 2, [.rep 3]⟩, .act 2 ⟨create "d" 4, [.rep 6]⟩]

def memberTurn (_ : ℕ) : Turn := answer (memberOK (.rep 1) 0)

end Sample

/-- A client with the ID of its cluster, made for another size than the cluster has. -/
theorem joinsNamed_sample :
    ∃ s c cl, serve .plain (.rep 9) Sample.clientAmong = .ok s ∧ s.parties[0]? = some c ∧
      memberAndOK .plain .plain Sample.memberTurn ⟨Sample.madeMember (some (.rep 5)) 2, []⟩ =
        (cl, .ok none) ∧ List.Forall₂ Ask.AnsweredBy cl.log c.exchanges ∧ JoinsNamed .plain s 0 cl := by
  have hmember : memberAndOK .plain .plain Sample.memberTurn ⟨Sample.madeMember (some (.rep 5)) 2, []⟩ =
      (_, .ok none) := rfl
  have hserve : serve .plain (.rep 9) Sample.clientAmong = .ok _ := rfl
  refine ⟨_, _, _, hserve, rfl, hmember, .cons ⟨rfl, rfl, rfl⟩ .nil, ?_⟩
  refine (joinsNamed_iff (Sample.newMember_eq (some (.rep 5)) 2) hmember hserve rfl rfl
    (.cons ⟨rfl, rfl, rfl⟩ .nil) (p := 0) (by rfl) rfl rfl (by rfl)).2 ⟨.rep 5, rfl, ?_⟩
  rintro q ⟨-, hfind⟩
  cases hfind
  rfl

/-- Without an ID the client faults; with the ID of "d" it reports no error, and is not in "c". -/
theorem joinsNamed_fails :
    ∃ s c cl₁ cl₂, serve .plain (.rep 9) Sample.clientAmong = .ok s ∧ s.parties[0]? = some c ∧
      c.h.entryState = .clientDetailsRcvd ∧
      Sample.newMember none 2 = .ok (.ok (Sample.madeMember none 2)) ∧
      memberAndOK .plain .plain Sample.memberTurn ⟨Sample.madeMember none 2, []⟩ = (cl₁, .ok none) ∧
      List.Forall₂ Ask.AnsweredBy cl₁.log c.exchanges ∧
      (joinAndReply Sample.memberTurn cl₁).2 = .error .nilDeref ∧ ¬ JoinsNamed .plain s 0 cl₁ ∧
      Sample.newMember (some (.rep 6)) 2 = .ok (.ok (Sample.madeMember (some (.rep 6)) 2)) ∧
      memberAndOK .plain .plain Sample.memberTurn ⟨Sample.madeMember (some (.rep 6)) 2, []⟩ =
        (cl₂, .ok none) ∧ List.Forall₂ Ask.AnsweredBy cl₂.log c.exchanges ∧
      ¬ JoinsNamed .plain s 0 cl₂ := by
  refine ⟨_, _, _, _, rfl, rfl, rfl, rfl, rfl, .cons ⟨rfl, rfl, rfl⟩ .nil, rfl, ?_, rfl, rfl,
    .cons ⟨rfl, rfl, rfl⟩ .nil, ?_⟩
  · intro h
    exact (h Sample.hangUp (ServerState.init (.rep 9)) fun _ _ => .inr (.inl ⟨EOF, rfl⟩)).1 .nilDeref rfl
  · intro h
    have hres := h (Sample.answer (joinReply _)) _ fun id hid => by
      cases hid
      exact .inr (.inr ⟨_, _, _, [], rfl, rfl, rfl, rfl, rfl, rfl⟩)
    obtain ⟨p, rc, hp, hrc, hid, -⟩ := (hres.2 rfl).cluster
    cases hp
    cases hrc
    exact absurd hid (by decide)

end XlReg
