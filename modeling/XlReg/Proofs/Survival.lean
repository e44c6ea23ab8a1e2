import XlReg.Proofs.Dispatch
import XlReg.Proofs.GetReply
import XlReg.Proofs.Join
import XlReg.Proofs.Replies

/-! All the ways in which a message ends the server. It is outside the dispatch table, it is a Join
that designates no cluster, or IDs are drawn for it of which the filter claims to have every one.
Nothing else that a client can send, in whatever order with the messages of others, is a fault. -/

namespace XlReg

/-- One of the IDs drawn ends the search for a new one. -/
def Supplied (D : Deps) (f : IdFilter) (draws : List NodeID) : Prop :=
  ∃ n ∈ draws, f.isMember D n.value ≠ .ok true

theorem insertUnique_returns_iff (D : Deps) (f : IdFilter) (draws : List NodeID) :
    (∃ r, insertUniqueNodeID D f draws = .ok r) ↔ Supplied D f draws := by
  induction draws with
  | nil => simp [insertUniqueNodeID, Supplied]
  | cons n draws ih =>
    have hcons : Supplied D f (n :: draws) ↔ f.isMember D n.value ≠ .ok true ∨ Supplied D f draws := by
      simp [Supplied]
    rw [hcons, ← ih, insertUniqueNodeID, containsID]
    rcases f.isMember D n.value with e | found
    · simp
    · cases found with
      | true => simp
      | false =>
        simp only
        rcases f.insert D n.value with e | f' <;> simp

/-- What a handler needs in order to come back. -/
def HandlerName.Returns (D : Deps) (w : World) (h : InHandler) (draws : List NodeID) :
    HandlerName → Prop
  | .doClientMsg => (∃ keys, verifySpecs D h.msgIn.getMemberSpecs = .ok keys) →
      h.msgIn.getMemberSpecs.id = none → Supplied D w.reg.idFilter draws
  | .doCreateMsg => w.reg.clustersByName.lookup h.msgIn.getClusterName = none →
      Supplied D w.reg.idFilter draws
  | .doJoinMsg => ∃ p, Designates w h p
  | .badCombo | .doGetMsg | .doByeMsg => True

section Handlers

variable {D : Deps} {w : World} {h : InHandler} (draws : List NodeID)

theorem clientID_returns_iff (f : IdFilter) (id : Option Bytes) :
    (∃ r, clientID D f id draws = .ok r) ↔ (id = none → Supplied D f draws) := by
  cases id with
  | none => simpa [clientID] using insertUnique_returns_iff D f draws
  | some b =>
    refine iff_of_true ?_ (fun hid => by cases hid)
    simp only [clientID]
    rcases nodeIDOf D b with e | n
    · exact ⟨_, rfl⟩
    · simp only
      rcases containsID D f n with e | found
      · exact ⟨_, rfl⟩
      · cases found with
        | true => exact ⟨_, rfl⟩
        | false =>
          simp only
          split <;> exact ⟨_, rfl⟩

theorem doClientMsg_returns_iff :
    (∃ r, doClientMsg D w h draws = .ok r) ↔ HandlerName.Returns D w h draws .doClientMsg := by
  simp only [HandlerName.Returns, doClientMsg]
  rw [← clientID_returns_iff]
  rcases verifySpecs D h.msgIn.getMemberSpecs with e | ⟨ck, sk⟩
  · simp
  · simp only [Except.ok.injEq, exists_eq', forall_const]
    rcases clientID D w.reg.idFilter h.msgIn.getMemberSpecs.id draws with a | ⟨f, e | n⟩
    · simp
    · simp
    · simp only
      rcases newClientInfo D w.clients h.msgIn.getMemberSpecs.getName n ck sk
        h.msgIn.getMemberSpecs.getAttrs h.msgIn.getMemberSpecs.myEnds with e | m <;> simp

theorem addCluster_returns {p : Ptr} {rc : RegCluster} (hp : w.heap[p]? = some rc) :
    ∃ r, addCluster D w (some p) = .ok r := by
  by_cases ha : w.Admits D rc
  · exact ⟨_, addCluster_of_admits hp ha⟩
  · obtain ⟨e, he⟩ := addCluster_of_not_admits hp ha
    exact ⟨_, he⟩

theorem createNew_returns_iff :
    (∃ r, createNew D w h draws = .ok r) ↔ Supplied D w.reg.idFilter draws := by
  rw [← insertUnique_returns_iff]
  simp only [createNew]
  rcases insertUniqueNodeID D w.reg.idFilter draws with a | ⟨f, e | n⟩
  · simp
  · simp
  · simp only
    refine iff_of_true ?_ ⟨_, rfl⟩
    rcases newRegCluster D h.msgIn.getClusterName n 0 (clampSize h.msgIn.getClusterMaxSize)
      h.msgIn.getEndPointCount with e | rc
    · exact ⟨_, rfl⟩
    · simp only
      obtain ⟨⟨w', i, err⟩, hr⟩ := addCluster_returns (D := D) (w.make_last f rc)
      rw [hr]
      rcases err with - | e
      · exact ⟨_, rfl⟩
      · exact ⟨_, rfl⟩

theorem doCreateMsg_returns_iff (hw : w.Consistent D) :
    (∃ r, doCreateMsg D w h draws = .ok r) ↔ HandlerName.Returns D w h draws .doCreateMsg := by
  simp only [HandlerName.Returns, doCreateMsg]
  cases hl : w.reg.clustersByName.lookup h.msgIn.getClusterName with
  | none => simpa using createNew_returns_iff draws
  | some p =>
    obtain ⟨rc, hrc⟩ := hw.exists_deref ((hw.byName.lookup _ _).1 hl).1
    simp [deref_ok.2 hrc]

theorem doJoinMsg_returns_iff (hmap : D.HamtTotal) (hw : w.Consistent D) (he : h.Established w)
    {m : ClientInfo} (hm : h.thisClient = some m) :
    (∃ r, doJoinMsg D w h draws = .ok r) ↔ HandlerName.Returns D w h draws .doJoinMsg := by
  constructor
  · rintro ⟨⟨w', h'⟩, hr⟩
    obtain ⟨client, p, rc, -, hl, -⟩ := doJoinMsg_ok hr
    exact ⟨p, (joinLookup_iff hmap hw h p).1 hl⟩
  · rintro ⟨p, hp⟩
    obtain ⟨rc, hrc⟩ := hp.exists_deref hw he
    exact ⟨_, doJoinMsg_found draws ((joinLookup_iff hmap hw h p).2 hp) hrc hm⟩

theorem doGetMsg_returns (hw : w.Consistent D) : ∃ r, doGetMsg D w h draws = .ok r := by
  simp only [doGetMsg]
  rcases newBytesKey D h.msgIn.clusterID with e | bKey
  · exact ⟨_, rfl⟩
  · simp only [Hamt.find]
    rcases D.findErr w.reg.clustersByID.map.keys bKey with - | e
    · cases hl : w.reg.clustersByID.map.lookup bKey with
      | none => exact ⟨_, rfl⟩
      | some p =>
        obtain ⟨rc, hrc⟩ := hw.exists_deref ((hw.byID.lookup _ _).1 hl).1
        simp only [deref_ok.2 hrc]
        have hstart : Collected D rc (D.bits.intersection h.msgIn.getWhich (D.bits.lowNMap (getSize rc)))
            0 ⟨[], 0⟩ := collected_start
        obtain ⟨h64, hlen⟩ := getSize_le rc
        obtain ⟨s, f, hloop, -⟩ := getLoop_collected (getSize rc) hstart (by omega) (by omega)
        rw [hloop]
        exact ⟨_, rfl⟩
    · exact ⟨_, rfl⟩

end Handlers

/-- Once the session is closed nothing is read. Before that, the message comes before a Bye, its op
is one from 2 to 12 and the handler in the table comes back. -/
def Tolerated (D : Deps) (s : Service) (c : Session) (x : Input) : Prop :=
  Expected s c x ∧ ∀ f, dispatch c.h.entryState (op2tag x.msg.getOp) = some f →
    f.Returns D s.world { c.h with msgIn := x.msg } x.draws

theorem handler_returns_iff {D : Deps} (hmap : D.HamtTotal) {w : World} (hw : w.Consistent D)
    {h : InHandler} (he : h.Established w) {f : HandlerName}
    (hf : f = .badCombo ∨ (h.entryState, f) ∈ permitted) (draws : List NodeID) :
    (∃ r, f.handler D w h draws = .ok r) ↔ f.Returns D w h draws := by
  cases f with
  | badCombo => exact iff_of_true ⟨_, rfl⟩ trivial
  | doClientMsg => exact doClientMsg_returns_iff draws
  | doCreateMsg => exact doCreateMsg_returns_iff draws hw
  | doJoinMsg =>
    obtain ⟨m, hm⟩ := he.client (by revert hf; cases h.entryState <;> decide)
    exact doJoinMsg_returns_iff draws hmap hw he hm
  | doGetMsg => exact iff_of_true (doGetMsg_returns draws hw) trivial
  | doByeMsg => exact iff_of_true ⟨_, rfl⟩ trivial

theorem sessionStep_returns_iff {D : Deps} (hmap : D.HamtTotal) {s : Service} {c : Session}
    (hw : s.world.Consistent D) (he : c.h.Established s.world) (x : Input) :
    (∃ r, sessionStep D s c x = .ok r) ↔ Tolerated D s c x := by
  unfold Tolerated
  rw [← inTable_iff, InTable]
  by_cases hopen : c.h.entryState = .inClosed
  · refine iff_of_true ⟨_, by rw [sessionStep, if_pos hopen]⟩ ⟨fun hno => absurd hopen hno, fun f hf => ?_⟩
    exact absurd hopen (open_of_dispatch hf)
  · simp only [ne_eq, hopen, not_false_eq_true, forall_const]
    cases hd : dispatch c.h.entryState (op2tag x.msg.getOp) with
    | none =>
      refine iff_of_false ?_ (by simp)
      rintro ⟨r, hr⟩
      rw [sessionStep, if_neg hopen, startIter_outside hd] at hr
      cases hr
    | some f =>
      have hiff := handler_returns_iff hmap hw (he.receive x.msg) (dispatch_permitted hd) x.draws
      simp only [reduceCtorEq, not_false_eq_true, true_and, Option.some.injEq, forall_eq']
      rw [← hiff]
      constructor
      · rintro ⟨⟨s', c'⟩, hr⟩
        rcases sessionStep_ok hr with ⟨hcl, -⟩ | ⟨-, w, g, ex, hi, -⟩
        · exact absurd hcl hopen
        · obtain ⟨f', h₁, hd', hh, -⟩ := startIter_ok hi
          rw [hd] at hd'
          cases hd'
          exact ⟨_, hh⟩
      · rintro ⟨⟨w, h₁⟩, hh⟩
        exact ⟨_, sessionStep_handled hd hh⟩

/-- A run of the server gets to its end if and only if every message in it is tolerated in the
state it meets: its op is from 2 to 12 and no Bye came before it, what is handled as a Join designates a
cluster, and where an ID is to be drawn one is found. -/
theorem serve_survives_iff {D : Deps} (hmap : D.HamtTotal) (regID : NodeID) (evs : List ServerEvent) :
    (∃ s, serve D regID evs = .ok s) ↔
      Run.Along (server D).next (Parties.On (Tolerated D)) (ServerState.init regID) evs := by
  have hc := server_contract D (I := World.Consistent D) fun _ _ _ _ _ _ hw hh =>
    handler_consistent (fun _ _ _ => hmap.insert _ _) hw hh
  exact hc.run_ok_iff ⟨World.init_consistent D regID, fun _ hc => by cases hc⟩
    fun s c x hw he => sessionStep_returns_iff hmap hw he x

/-- A run in which everything is tolerated, and one that ends with a Join of an unknown name. -/
theorem serve_survives_iff_sample :
    Run.Along (server .plain).next (Parties.On (Tolerated .plain)) (ServerState.init (.rep 9))
      Sample.createAndJoin ∧
    ¬ Run.Along (server .plain).next (Parties.On (Tolerated .plain)) (ServerState.init (.rep 9))
      (Sample.createAndJoin ++ [.act 0 ⟨Sample.joinByName "z", []⟩]) := by
  constructor
  · obtain ⟨s, hr, -⟩ := Run.exists_of_ends (server .plain).next (ServerState.init (.rep 9))
      Sample.createAndJoin (fun _ => true) (by decide)
    exact (serve_survives_iff plain_hamtTotal (.rep 9) Sample.createAndJoin).1 ⟨s, hr⟩
  · intro hal
    obtain ⟨s, hr⟩ := (serve_survives_iff plain_hamtTotal (.rep 9) _).2 hal
    have hstop : serve .plain (.rep 9) (Sample.createAndJoin ++ [.act 0 ⟨Sample.joinByName "z", []⟩]) =
        .error .nilDeref := Run.stop_eq_some (by decide)
    rw [hstop] at hr
    cases hr

end XlReg
