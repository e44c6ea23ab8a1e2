import XlReg.Sanity.Plain
import XlReg.Spec.Tokens

/-! What survives a token. A client's own token carries the addresses of its end points as they
are, so client and member come back from it. A member's token carries the texts of its connectors,
tags included, and these no end point is made from. -/

namespace XlReg

def DialsTo (D : Deps) (myEnd : String) (ctor : Connector) : Prop :=
  ∃ farEnd, D.newTcpEndPoint myEnd = .ok farEnd ∧ D.newTcpConnector farEnd = .ok ctor

/-- A valid host:port. -/
def ValidEnd (D : Deps) (myEnd : String) : Prop := ∃ ctor, DialsTo D myEnd ctor

variable {D : Deps}

theorem newConnectors_cons {myEnd : String} {ctor : Connector} (h : DialsTo D myEnd ctor)
    (myEnds : List String) :
    newConnectors D (myEnd :: myEnds) = (newConnectors D myEnds).map (ctor :: ·) := by
  obtain ⟨farEnd, hend, hctor⟩ := h
  simp only [newConnectors, hend, hctor]

theorem newConnectors_cons_invalid {myEnd : String} (h : ¬ ValidEnd D myEnd) (myEnds : List String) :
    ∃ e, newConnectors D (myEnd :: myEnds) = .error e := by
  simp only [newConnectors]
  cases hend : D.newTcpEndPoint myEnd with
  | error e => exact ⟨e, rfl⟩
  | ok farEnd =>
    cases hctor : D.newTcpConnector farEnd with
    | error e => exact ⟨e, by simp only [hctor]⟩
    | ok ctor => exact absurd ⟨ctor, farEnd, hend, hctor⟩ h

theorem newConnectors_valid {myEnds : List String} (h : ∀ e ∈ myEnds, ValidEnd D e) :
    ∃ ctors, newConnectors D myEnds = .ok ctors ∧ List.Forall₂ (DialsTo D) myEnds ctors := by
  induction myEnds with
  | nil => exact ⟨[], rfl, .nil⟩
  | cons myEnd myEnds ih =>
    obtain ⟨ctor, hctor⟩ := h myEnd List.mem_cons_self
    obtain ⟨ctors, hok, hall⟩ := ih fun e he => h e (List.mem_cons_of_mem _ he)
    exact ⟨ctor :: ctors, by rw [newConnectors_cons hctor, hok]; rfl, .cons hctor hall⟩

theorem newConnectors_invalid {myEnds : List String} (h : ∃ e ∈ myEnds, ¬ ValidEnd D e) :
    ∃ e, newConnectors D myEnds = .error e := by
  induction myEnds with
  | nil => obtain ⟨e, he, -⟩ := h; cases he
  | cons myEnd myEnds ih =>
    by_cases hv : ValidEnd D myEnd
    · obtain ⟨e, he, hno⟩ := h
      have htail : e ∈ myEnds := by
        rcases List.mem_cons.1 he with rfl | he
        · exact absurd hv hno
        · exact he
      obtain ⟨err, herr⟩ := ih ⟨e, htail, hno⟩
      obtain ⟨ctor, hctor⟩ := hv
      exact ⟨err, by rw [newConnectors_cons hctor, herr]; rfl⟩
    · exact newConnectors_cons_invalid hv myEnds

def Token.describing (name : String) (attrs : UInt64) (id : NodeID) (ckBytes skBytes : Bytes)
    (myEnds : List String) : Token where
  name := some name
  attrs := some attrs
  id := some id.value
  commsKey := some ckBytes
  sigKey := some skBytes
  myEnds := myEnds

/-- Such a token is decoded up to its end points. -/
theorem newMemberInfoFromToken_describing {name : String} {attrs : UInt64} {id : NodeID}
    {ckBytes skBytes : Bytes} {ck sk : RSAPublicKey}
    (hck : D.rsaPubKeyFromWire (some ckBytes) = .ok ck)
    (hsk : D.rsaPubKeyFromWire (some skBytes) = .ok sk) (myEnds : List String) (draw : NodeID) :
    newMemberInfoFromToken D draw (some (.describing name attrs id ckBytes skBytes myEnds)) =
      match newConnectors D myEnds with
      | .error e => .error e
      | .ok ctors =>
        match D.newPeer name id ck sk ctors with
        | some e => .error e
        | none => .ok ⟨attrs, name, id, ck, sk, ctors⟩ := by
  simp only [newMemberInfoFromToken, Token.describing, xiNew, nodeIDOf_value, hck, hsk]
  rfl

/-! Clients. -/

theorem ClientInfo.token_ok {ci : ClientInfo} {t : Token} (h : ci.token D = .ok t) :
    ∃ ckBytes skBytes, D.rsaPubKeyToWire ci.commsPubKey = .ok ckBytes ∧
      D.rsaPubKeyToWire ci.sigPubKey = .ok skBytes ∧
      t = .describing ci.name ci.attrs ci.nodeID ckBytes skBytes ci.myEnds := by
  unfold ClientInfo.token at h
  split at h
  · cases h
  · rename_i ckBytes hck
    split at h
    · cases h
    · rename_i skBytes hsk
      exact ⟨ckBytes, skBytes, hck, hsk, (Except.ok.inj h).symm⟩

theorem newClientInfo_ok {addr : ℕ} {name : String} {id : NodeID} {ck sk : RSAPublicKey}
    {attrs : UInt64} {myEnds : List String} {ci : ClientInfo}
    (h : newClientInfo D addr name id ck sk attrs myEnds = .ok ci) :
    D.newBaseNode ci.name ci.nodeID ci.commsPubKey ci.sigPubKey = none := by
  unfold newClientInfo at h
  split at h
  · cases h
  · rename_i hnode
    cases h
    exact hnode

theorem newClientInfoFromToken_token (hkeys : D.KeysDecode) {ci : ClientInfo}
    (hnode : D.newBaseNode ci.name ci.nodeID ci.commsPubKey ci.sigPubKey = none) {t : Token}
    (ht : ci.token D = .ok t) (addr : ℕ) (draw : Except Err NodeID) :
    newClientInfoFromToken D addr draw (some t) = (some { ci with addr := addr }, none) := by
  obtain ⟨ckBytes, skBytes, hck, hsk, rfl⟩ := ClientInfo.token_ok ht
  simp only [newClientInfoFromToken, Token.describing, xiNewOf, nodeIDOf_value, hkeys _ _ hck,
    hkeys _ _ hsk, Token.getName, Token.getAttrs, Option.getD_some, newClientInfo, hnode]

/-- A client's token makes an equal client, and it makes a member with the same description and a
connector to each end point in order; but an end point that is no host:port makes it an error. -/
theorem clientInfo_survives_token (hkeys : D.KeysDecode) (hpeers : D.PeersOfNodes) (hends : D.FarEnds)
    {addr : ℕ} {name : String} {id : NodeID} {ck sk : RSAPublicKey} {attrs : UInt64}
    {myEnds : List String} {ci : ClientInfo}
    (hci : newClientInfo D addr name id ck sk attrs myEnds = .ok ci) {t : Token}
    (ht : ci.token D = .ok t) :
    (∀ addr' draw, ∃ ci', newClientInfoFromToken D addr' draw (some t) = (some ci', none) ∧
      ci'.equal ci = true) ∧
    ((∀ e ∈ ci.myEnds, ValidEnd D e) → ∀ draw, ∃ mi,
      newMemberInfoFromToken D draw (some t) = .ok mi ∧ mi.name = ci.name ∧ mi.nodeID = ci.nodeID ∧
      mi.commsPubKey = ci.commsPubKey ∧ mi.sigPubKey = ci.sigPubKey ∧ mi.attrs = ci.attrs ∧
      List.Forall₂ (fun e ctor => D.newTcpEndPoint e = .ok ctor.farEnd) ci.myEnds mi.connectors) ∧
    ((∃ e ∈ ci.myEnds, ¬ ValidEnd D e) → ∀ draw, ∃ err,
      newMemberInfoFromToken D draw (some t) = .error err) := by
  have hnode := newClientInfo_ok hci
  refine ⟨?_, ?_, ?_⟩
  · intro addr' draw
    refine ⟨_, newClientInfoFromToken_token hkeys hnode ht addr' draw, ?_⟩
    simp [ClientInfo.equal, ClientInfo.baseNode]
  · intro hvalid draw
    obtain ⟨ctors, hctors, hall⟩ := newConnectors_valid hvalid
    obtain ⟨ckBytes, skBytes, hck, hsk, rfl⟩ := ClientInfo.token_ok ht
    have hpeer := hpeers _ _ _ _ ctors hnode
    rw [newMemberInfoFromToken_describing (hkeys _ _ hck) (hkeys _ _ hsk)]
    simp only [hctors, hpeer]
    refine ⟨_, rfl, rfl, rfl, rfl, rfl, rfl, hall.imp ?_⟩
    rintro e ctor ⟨farEnd, hend, hctor⟩
    rw [hends _ _ hctor]
    exact hend
  · intro hinvalid draw
    obtain ⟨e, he⟩ := newConnectors_invalid hinvalid
    obtain ⟨ckBytes, skBytes, hck, hsk, rfl⟩ := ClientInfo.token_ok ht
    rw [newMemberInfoFromToken_describing (hkeys _ _ hck) (hkeys _ _ hsk)]
    exact ⟨e, by simp only [he]⟩

/-- A client with one end point. -/
theorem clientInfo_survives_token_sample :
    newClientInfo .exact 0 "a" (.rep 1) ⟨1, 3⟩ ⟨2, 3⟩ 0 ["127.0.0.1:80"] = .ok (Sample.client 0 "a" 1) ∧
      ∃ t, (Sample.client 0 "a" 1).token .exact = .ok t ∧
        ∃ mi, newMemberInfoFromToken .exact (.rep 8) (some t) = .ok mi ∧ mi.name = "a" := by
  have hci : newClientInfo .exact 0 "a" (.rep 1) ⟨1, 3⟩ ⟨2, 3⟩ 0 ["127.0.0.1:80"] =
      .ok (Sample.client 0 "a" 1) := rfl
  have hvalid : ∀ e ∈ (Sample.client 0 "a" 1).myEnds, ValidEnd .exact e := by
    intro e he
    rw [List.mem_singleton.1 he]
    exact ⟨⟨⟨"127.0.0.1:80"⟩⟩, ⟨"127.0.0.1:80"⟩, rfl, rfl⟩
  refine ⟨hci, _, rfl, ?_⟩
  obtain ⟨mi, hmi, hname, -⟩ :=
    (clientInfo_survives_token exact_keysDecode exact_peersOfNodes exact_farEnds hci rfl).2.1 hvalid
      (.rep 8)
  exact ⟨mi, hmi, hname⟩

/-! Members. -/

theorem tokenFromMemberInfo_ok {tag : String} {mi : MemberInfo} {t : Token}
    (h : tokenFromMemberInfo D tag mi = .ok t) :
    ∃ ckBytes skBytes, D.rsaPubKeyToWire mi.commsPubKey = .ok ckBytes ∧
      D.rsaPubKeyToWire mi.sigPubKey = .ok skBytes ∧
      t = .describing mi.name mi.attrs mi.nodeID ckBytes skBytes
        (mi.connectors.map (Connector.string tag)) := by
  unfold tokenFromMemberInfo at h
  split at h
  · cases h
  · rename_i ckBytes hck
    split at h
    · cases h
    · rename_i skBytes hsk
      exact ⟨ckBytes, skBytes, hck, hsk, (Except.ok.inj h).symm⟩

/-- A member comes back from its token exactly if it has no connectors: no end point is made from
a text that begins with the tag of a connector. -/
theorem memberInfo_survives_token_iff (hkeys : D.KeysDecode) {tag : String}
    (htag : ∀ addr, ∃ e, D.newTcpEndPoint (tag ++ addr) = .error e) {mi : MemberInfo}
    (hpeer : D.newPeer mi.name mi.nodeID mi.commsPubKey mi.sigPubKey mi.connectors = none) {t : Token}
    (ht : tokenFromMemberInfo D tag mi = .ok t) :
    (∀ draw, newMemberInfoFromToken D draw (some t) = .ok mi) ↔ mi.connectors = [] := by
  obtain ⟨ckBytes, skBytes, hck, hsk, rfl⟩ := tokenFromMemberInfo_ok ht
  simp only [newMemberInfoFromToken_describing (hkeys _ _ hck) (hkeys _ _ hsk)]
  constructor
  · intro h
    have hok := h mi.nodeID
    cases hctors : mi.connectors with
    | nil => rfl
    | cons ctor ctors =>
      obtain ⟨e, he⟩ := htag ctor.farEnd.addr
      have hinvalid : ¬ ValidEnd D (ctor.string tag) := by
        rintro ⟨ctor', farEnd, hend, -⟩
        rw [Connector.string, he] at hend
        cases hend
      obtain ⟨e', he'⟩ := newConnectors_cons_invalid hinvalid (ctors.map (Connector.string tag))
      simp only [hctors, List.map_cons, he'] at hok
      cases hok
  · intro h draw
    rw [h] at hpeer
    simp only [h, List.map_nil, newConnectors, hpeer]
    rw [← h]

namespace Sample

def peer (ctors : List Connector) : MemberInfo := ⟨0, "a", .rep 1, ⟨1, 3⟩, ⟨2, 3⟩, ctors⟩

end Sample

theorem exact_tagged (addr : String) : ∃ e, Deps.exact.newTcpEndPoint ("TcpConnector: " ++ addr) = .error e := by
  refine ⟨.other "not an endPoint", ?_⟩
  have hblank : ' ' ∈ ("TcpConnector: " ++ addr).toList := by
    rw [String.toList_append]
    exact List.mem_append_left _ (by decide)
  simp only [Deps.exact, hblank, or_true, if_true]

theorem memberInfo_survives_token_sample :
    ∃ t, tokenFromMemberInfo .exact "TcpConnector: " (Sample.peer []) = .ok t ∧
      newMemberInfoFromToken .exact (.rep 8) (some t) = .ok (Sample.peer []) :=
  ⟨_, rfl, (memberInfo_survives_token_iff (D := .exact) exact_keysDecode exact_tagged rfl rfl).2 rfl _⟩

/-- One connector is enough. -/
theorem memberInfo_lost_in_token :
    ∃ t, tokenFromMemberInfo .exact "TcpConnector: " (Sample.peer [⟨⟨"127.0.0.1:80"⟩⟩]) = .ok t ∧
      t.myEnds = ["TcpConnector: 127.0.0.1:80"] ∧
      newMemberInfoFromToken .exact (.rep 8) (some t) = .error (.other "not an endPoint") :=
  ⟨_, rfl, by decide, by rfl⟩

end XlReg
