import XlReg.Sanity.Plain
import XlReg.Sanity.Registered

/-! A Join that names no cluster, after a Create. The Join takes the cluster that hangs on the
session, and a Create hangs one there only if it has made it: about a cluster that was there before
it replies, and leaves the session without one. -/

namespace XlReg

/-- Before a session has sent a Create or a Join, no cluster hangs on it. -/
def InHandler.Unhung (h : InHandler) : Prop :=
  h.entryState = .helloRcvd ∨ h.entryState = .clientDetailsRcvd → h.cluster = none

theorem handler_unhung {D : Deps} {f : HandlerName} {w w' : World} {h h' : InHandler}
    {draws : List NodeID} (hu : h.Unhung) (hf : f = .badCombo ∨ (h.entryState, f) ∈ permitted)
    (hr : f.handler D w h draws = .ok (w', h')) : (afterRound h').Unhung := by
  cases handler_effect hr with
  | refused e => simp [InHandler.Unhung, afterRound_fail]
  | noNode ha => simp [InHandler.Unhung, afterRound_fail]
  | accepted ha =>
    -- a client is accepted only in HELLO_RCVD
    have hst : h.entryState = .helloRcvd := by
      revert hf
      cases h.entryState <;> decide
    rw [afterRound_reply]
    exact fun _ => hu (.inl hst)
  | noCluster hl hn hnew => simp [InHandler.Unhung, afterRound_fail]
  | notAdded hm ha => simp [InHandler.Unhung, afterRound_fail]
  | created hm ha => simp [InHandler.Unhung, afterRound_reply]
  | found hl hp => simp [InHandler.Unhung, afterRound_reply]
  | notJoined hj ha => simp [InHandler.Unhung, afterRound_fail]
  | joined hj ha => simp [InHandler.Unhung, afterRound_reply]
  | listed s => simp [InHandler.Unhung, afterRound_reply]
  | bye => simp [InHandler.Unhung, afterRound_reply]

theorem startIter_unhung {D : Deps} {w w' : World} {h h' : InHandler} {x : Input} {ex : Exchange}
    (hu : h.Unhung) (hr : startIter D w h x = .ok (w', h', ex)) : h'.Unhung := by
  obtain ⟨f, h1, hd, hh, rfl, -⟩ := startIter_ok hr
  exact handler_unhung (h := { h with msgIn := x.msg }) hu (dispatch_permitted hd) hh

theorem unhung_contract (D : Deps) :
    Parties.Contract (server D) (fun _ _ _ => True) (fun _ => True)
      (fun s s' => s.world.Grows s'.world) (fun s c => c.h.Unhung ∧ c.h.Established s.world) where
  start s _ _ := ⟨fun _ => rfl, InHandler.established_init s.world⟩
  step s c x s' c' _ hJ _ hr := by
    rcases sessionStep_ok hr with ⟨-, rfl, rfl⟩ | ⟨-, w, h, ex, hi, rfl, rfl⟩
    · exact ⟨trivial, .refl _, hJ⟩
    · exact ⟨trivial, startIter_grows hi, startIter_unhung hJ.1 hi, startIter_established hJ.2 hi⟩
  stable s s' c _ hJ hg := ⟨hJ.1, hJ.2.of_grows hg⟩

/-- The next message of session `k` is directed at the cluster that the reply `r` was about: it is
answered with a JoinReply about that cluster, or with the error of its `AddMember`. -/
def Directed (D : Deps) (s : ServerState) (k : ℕ) (c : Session) (r : XLRegMsg) (x : Input) : Prop :=
  ∃ s' c' ex p rc client, (server D).next s (.act k x) = .ok s' ∧ s'.parties[k]? = some c' ∧
    c'.exchanges = c.exchanges ++ [ex] ∧ p ∈ s.shared.world.reg.clusters ∧
    s.shared.world.heap[p]? = some rc ∧ r.clusterID = some rc.id.value ∧
    c.h.thisClient = some client ∧
    (((rc.addMember D client).2 = none ∧ ex.reply = some (joinReply (rc.addMember D client).1)) ∨
      ∃ e, (rc.addMember D client).2 = some e ∧ ex.reply = some (errorMsg e))

section Join

variable {D : Deps} {s : ServerState} {k : ℕ} {c : Session} (hc : s.parties[k]? = some c)
  (hst : c.h.entryState = .createRequestRcvd) {m : XLRegMsg} (hop : m.op = some Tag.join)
  (hid : m.clusterID = none) (hname : m.getClusterName = "") {client : ClientInfo}
  (hclient : c.h.thisClient = some client)
include hc hst hop hid hname hclient

theorem directed_of_hung {p : Ptr} {rc : RegCluster} (hp : c.h.cluster = some p)
    (hmem : p ∈ s.shared.world.reg.clusters) (hrc : s.shared.world.heap[p]? = some rc) {r : XLRegMsg}
    (hr : r.clusterID = some rc.id.value) (draws : List NodeID) : Directed D s k c r ⟨m, draws⟩ := by
  have hd := dispatch_join (.inr hst) hop
  have hlookup : joinLookup D s.shared.world { c.h with msgIn := m } = (some p, none) := by
    simp only [joinLookup, hid, hname, hp, if_true]
  have hrun := doJoinMsg_found draws hlookup hrc hclient
  obtain ⟨s', hnext, hc'⟩ := server_handled (x := ⟨m, draws⟩) hc hd hrun
  refine ⟨s', _, _, p, rc, client, hnext, hc', rfl, hmem, hrc, hr, hclient, ?_⟩
  cases hadd : (rc.addMember D client).2 with
  | none => exact .inl ⟨rfl, by simp only [exchangeOf]; rfl⟩
  | some e => exact .inr ⟨e, rfl, by simp only [exchangeOf]; rfl⟩

theorem not_directed_of_unhung (hp : c.h.cluster = none) (r : XLRegMsg) (draws : List NodeID) :
    ¬ Directed D s k c r ⟨m, draws⟩ := by
  have hd := dispatch_join (.inr hst) hop
  have hrun : doJoinMsg D s.shared.world { c.h with msgIn := m } draws = .error .nilDeref := by
    simp only [doJoinMsg, hclient, joinLookup, hid, hname, hp, if_true]
  rintro ⟨s', c', ex, p, rc, client', hnext, -⟩
  simp only [Parties.next, hc] at hnext
  rw [show (server D).step s.shared c ⟨m, draws⟩ = .error .nilDeref from
    sessionStep_aborted hd hrun] at hnext
  cases hnext

end Join

/-- In a session that has sent its Member message, a Create is answered with a CreateReply, the
other sessions go on, and the next message is a Join without name and ID. It is directed at the
cluster that the reply was about exactly if no cluster had the name when the Create came. -/
theorem serve_create_join_iff {D : Deps} {regID : NodeID} {evs : List ServerEvent} {s : ServerState}
    (h : serve D regID evs = .ok s) {k : ℕ} {c : Session} (hc : s.parties[k]? = some c)
    (hst : c.h.entryState = .clientDetailsRcvd) {x : Input} {s₁ : ServerState}
    (hcreate : (server D).next s (.act k x) = .ok s₁) {c₁ : Session} (hc₁ : s₁.parties[k]? = some c₁)
    {ex : Exchange} (hex : c₁.exchanges = c.exchanges ++ [ex]) {r : XLRegMsg} (hr : ex.reply = some r)
    (hrop : r.op = some Tag.createReply) {mid : List ServerEvent}
    (hmid : ∀ y, Parties.Event.act k y ∉ mid) {s₂ : ServerState}
    (hrun : Run.run (server D).next s₁ mid = .ok s₂) {m : XLRegMsg} (hop : m.op = some Tag.join)
    (hid : m.clusterID = none) (hname : m.getClusterName = "") (draws : List NodeID) :
    Directed D s₂ k c₁ r ⟨m, draws⟩ ↔
      s.shared.world.reg.clustersByName.lookup x.msg.getClusterName = none := by
  have hsess := (unhung_contract D).holds_of_run ⟨trivial, fun _ hc => by cases hc⟩ h
  obtain ⟨hu, he⟩ := hsess.2 c (List.mem_of_getElem? hc)
  obtain ⟨client, hclient⟩ := he.client (by rw [hst]; decide)
  obtain ⟨w, g, ex', hi, hs₁, hg⟩ := server_act hc (by rw [hst]; decide) hcreate
  rw [hc₁] at hg
  cases hg
  obtain rfl : ex' = ex := (List.append_inj' hex rfl).2 |> List.singleton_inj.1
  obtain ⟨h₁, hd, hh, herr, hmsg, -, -⟩ :=
    startIter_replied (g := .doCreateMsg) hi hr (by decide) hrop
  obtain ⟨f, h₂, hd₂, hh₂, rfl, -⟩ := startIter_ok hi
  rw [hd] at hd₂
  cases hd₂
  rw [hh] at hh₂
  cases hh₂
  have hc₂ := Parties.run_untouched hmid hrun hc₁
  have hgrows := (server_run_grows hrun).1
  rw [hs₁] at hgrows
  rcases doCreateMsg_ok hh with ⟨hunused, hnew⟩ | ⟨p, rc, hused, hp, rfl, rfl⟩
  · refine iff_of_true ?_ hunused
    obtain ⟨n, rc, -, hmade, -, hlast, hmem, -, rfl⟩ := createNew_replied hnew herr
    obtain ⟨-, -, hrcid, -, -, -⟩ := newRegCluster_ok hmade
    obtain ⟨rc₂, hrc₂, hgr⟩ := hgrows.heap _ rc hlast
    cases hmsg
    refine directed_of_hung hc₂ rfl hop hid hname hclient rfl (hgrows.clusters.subset hmem) hrc₂ ?_ draws
    rw [hgr.id, hrcid]
    rfl
  · refine iff_of_false ?_ (by rw [hused]; exact Option.some_ne_none p)
    exact not_directed_of_unhung hc₂ rfl hop hid hname hclient (hu (.inr hst)) r draws

namespace Sample

def introduced : List ServerEvent := [.enter (), .act 0 ⟨member "alice" none 2, [.rep 1]⟩]

/-- Another session has made the cluster "c" before. -/
def afterAnother : List ServerEvent :=
  introduced ++ [.enter (), .act 1 ⟨member "bob" none 2, [.rep 2]⟩, .act 1 ⟨create "c" 2, [.rep 5]⟩]

def joinAny : XLRegMsg := { op := some Tag.join }

end Sample

/-- The cluster is new. -/
theorem serve_create_join_sample :
    ∃ s c s₁ c₁ ex r, serve .plain (.rep 9) Sample.introduced = .ok s ∧ s.parties[0]? = some c ∧
      (server .plain).next s (.act 0 ⟨Sample.create "c" 2, [.rep 5]⟩) = .ok s₁ ∧
      s₁.parties[0]? = some c₁ ∧ c₁.exchanges = c.exchanges ++ [ex] ∧ ex.reply = some r ∧
      r.op = some Tag.createReply ∧ Directed .plain s₁ 0 c₁ r ⟨Sample.joinAny, []⟩ := by
  refine ⟨_, _, _, _, _, _, rfl, rfl, rfl, rfl, rfl, rfl, rfl, ?_⟩
  exact (@serve_create_join_iff .plain (.rep 9) Sample.introduced _ rfl 0 _ rfl rfl
    ⟨Sample.create "c" 2, [.rep 5]⟩ _ rfl _ rfl _ rfl _ rfl rfl [] (fun _ => List.not_mem_nil) _ rfl
    Sample.joinAny rfl rfl rfl []).2 (by decide)

/-- The cluster was made by another session: the Create is answered, and the Join ends the server. -/
theorem serve_create_join_faults :
    ∃ s c s₁ c₁ ex r, serve .plain (.rep 9) Sample.afterAnother = .ok s ∧ s.parties[0]? = some c ∧
      c.h.entryState = .clientDetailsRcvd ∧
      (server .plain).next s (.act 0 ⟨Sample.create "c" 2, []⟩) = .ok s₁ ∧
      s₁.parties[0]? = some c₁ ∧ c₁.exchanges = c.exchanges ++ [ex] ∧ ex.reply = some r ∧
      r.op = some Tag.createReply ∧ r.clusterID = some (NodeID.rep 5).value ∧
      (server .plain).next s₁ (.act 0 ⟨Sample.joinAny, []⟩) = .error .nilDeref ∧
      ¬ Directed .plain s₁ 0 c₁ r ⟨Sample.joinAny, []⟩ := by
  refine ⟨_, _, _, _, _, _, rfl, rfl, rfl, rfl, rfl, rfl, rfl, rfl, rfl, rfl, ?_⟩
  rintro ⟨s', c', ex, p, rc, client, hnext, -⟩
  cases hnext

end XlReg
