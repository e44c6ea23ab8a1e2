import XlReg.Sanity.Plain
import XlReg.Sanity.Sessions

/-! Join. Each of the three lookups may fail, and each failure leads to a nil cluster: on the ID
path the error is lost in a shadowed variable and `AddMember` is called on nil, on the others
the error is logged together with `cluster.ID`. A member whose ID makes no key is appended and
then reported as an error. Join answers as it should exactly where neither can happen. -/

namespace XlReg

/-- The cluster a Join is about: by ID if an ID is given, else by name, else the session's. -/
def Designates (w : World) (h : InHandler) (p : Ptr) : Prop :=
  match h.msgIn.clusterID with
  | some id => p ∈ w.reg.clusters ∧ w.idAt p = id
  | none =>
    if h.msgIn.getClusterName = "" then h.cluster = some p
    else p ∈ w.reg.clusters ∧ w.nameAt p = h.msgIn.getClusterName

/-- A cluster is designated and `AddMember` of it accepts the session's client. -/
def Accepted (D : Deps) (w : World) (h : InHandler) : Prop :=
  ∃ p rc client, Designates w h p ∧ w.heap[p]? = some rc ∧ h.thisClient = some client ∧
    (rc.addMember D client).2 = none

/-- What Join should do: come back, with a JoinReply about the designated cluster exactly when
the client is accepted, and otherwise with an error and every membership as it was. -/
def JoinRight (D : Deps) (w : World) (h : InHandler) (draws : List NodeID) : Prop :=
  ∃ w' h', doJoinMsg D w h draws = .ok (w', h') ∧
    (h'.errOut = none ↔ Accepted D w h) ∧
    (h'.errOut = none → ∃ p rc, Designates w h p ∧ w'.heap[p]? = some rc ∧
      h'.msgOut = some (joinReply rc)) ∧
    (h'.errOut ≠ none → ∀ p, w'.membersAt p = w.membersAt p)

/-- A cluster is designated, and `NewBytesKey` accepts the client's ID unless `AddMember` does
not get that far. -/
def Joinable (D : Deps) (w : World) (h : InHandler) : Prop :=
  ∃ p, Designates w h p ∧ ∀ rc client, w.heap[p]? = some rc → h.thisClient = some client →
    D.newBytesKey (some client.nodeID.value) = none ∨ ¬ rc.Admits D client

section Lookup

variable {D : Deps} (hmap : D.HamtTotal) {w : World} (hw : w.Consistent D)
include hmap hw

theorem joinLookup_iff (h : InHandler) (p : Ptr) :
    joinLookup D w h = (some p, none) ↔ Designates w h p := by
  unfold joinLookup Designates
  cases h.msgIn.clusterID with
  | some id =>
    simp only
    rw [← hw.byID.lookup id p]
    cases hk : newBytesKey D (some id) with
    | error e =>
      -- a registered ID would have made a key
      refine iff_of_false (by simp) fun hl => ?_
      obtain ⟨hp, hid⟩ := (hw.byID.lookup id p).1 hl
      have hkey := hw.keyed p hp
      rw [hid] at hkey
      rw [newBytesKey, hkey] at hk
      cases hk
    | ok k =>
      obtain ⟨-, rfl⟩ := newBytesKey_ok hk
      simp only [Hamt.find_total hmap]
      cases w.reg.clustersByID.map.lookup k <;> simp
  | none =>
    simp only
    split_ifs with hname
    · cases h.cluster <;> simp
    · rw [← hw.byName.lookup _ p]
      cases w.reg.clustersByName.lookup h.msgIn.getClusterName <;> simp

theorem Designates.unique {h : InHandler} {p q : Ptr} (hp : Designates w h p)
    (hq : Designates w h q) : p = q := by
  have h1 := (joinLookup_iff hmap hw h p).2 hp
  rw [(joinLookup_iff hmap hw h q).2 hq] at h1
  cases h1
  rfl

end Lookup

theorem Designates.exists_deref {D : Deps} {w : World} (hw : w.Consistent D) {h : InHandler}
    (he : h.Established w) {p : Ptr} (hp : Designates w h p) : ∃ rc, w.heap[p]? = some rc := by
  unfold Designates at hp
  split at hp
  · exact hw.exists_deref hp.1
  · split_ifs at hp
    · exact he.hung p hp
    · exact hw.exists_deref hp.1

theorem append_no_key {D : Deps} (rc : RegCluster) {m : ClientInfo}
    (hkey : D.newBytesKey (some m.nodeID.value) ≠ none) : ∃ e, (rc.append D m).2 = some e := by
  obtain ⟨e, he⟩ := Option.ne_none_iff_exists'.1 hkey
  simp [RegCluster.append, newBytesKey, he]

section Exact

variable {D : Deps} (hmap : D.HamtTotal) {w : World} (hw : w.Consistent D)
include hmap hw

theorem Joinable.right {h : InHandler} (he : h.Established w)
    (hst : h.entryState = .clientDetailsRcvd ∨ h.entryState = .createRequestRcvd)
    (hj : Joinable D w h) (draws : List NodeID) : JoinRight D w h draws := by
  obtain ⟨p, hp, hcond⟩ := hj
  obtain ⟨rc, hrc⟩ := hp.exists_deref hw he
  obtain ⟨client, hc⟩ := he.client (by rcases hst with hst | hst <;> rw [hst] <;> decide)
  have hcase := hcond rc client hrc hc
  have hrun := doJoinMsg_found draws ((joinLookup_iff hmap hw h p).2 hp) hrc hc
  have hacc : Accepted D w h ↔ (rc.addMember D client).2 = none := by
    refine ⟨fun ⟨q, rc1, client1, hq, hrc1, hc1, hok⟩ => ?_, fun hok => ⟨p, rc, client, hp, hrc, hc, hok⟩⟩
    obtain rfl := hp.unique hmap hw hq
    rw [hrc] at hrc1
    rw [hc] at hc1
    cases hrc1
    cases hc1
    exact hok
  have hlt : p < w.heap.length := (List.getElem?_eq_some_iff.1 hrc).1
  refine ⟨_, _, hrun, ?_⟩
  rw [hacc]
  rcases rc.addMember_eq D client with ⟨ha, he⟩ | ⟨-, e, he⟩
  · have hkey := hcase.resolve_right (not_not.2 ha)
    have hok : (rc.addMember D client).2 = none := by rw [he, rc.append_ok client hkey hmap.insert]
    simp only [hok]
    refine ⟨iff_of_true rfl trivial, fun _ => ⟨p, _, hp, ?_, rfl⟩, fun hne => absurd rfl hne⟩
    simp [World.store, hlt]
  · have herr : (rc.addMember D client).2 = some e := by rw [he]
    simp only [herr]
    refine ⟨by simp [InHandler.fail], fun hnone => by simp [InHandler.fail] at hnone, fun _ q => ?_⟩
    rw [he]
    exact World.membersAt_store_self hrc q

theorem JoinRight.joinable {h : InHandler} {draws : List NodeID} (hj : JoinRight D w h draws) :
    Joinable D w h := by
  obtain ⟨w', h', hrun, -, -, hsame⟩ := hj
  obtain ⟨client, p, rc, hc, hl, hrc, rfl, hout⟩ := doJoinMsg_ok hrun
  refine ⟨p, (joinLookup_iff hmap hw h p).1 hl, ?_⟩
  intro rc1 client1 hrc1 hc1
  rw [hrc] at hrc1
  rw [hc] at hc1
  cases hrc1
  cases hc1
  by_contra hnot
  obtain ⟨hkey, hadm⟩ := not_or.1 hnot
  obtain ⟨e, he⟩ := append_no_key rc hkey
  rw [RegCluster.addMember_of_admits (not_not.1 hadm)] at hout hsame
  -- the error is reported and the member is there
  rcases hout with ⟨e', -, rfl⟩ | ⟨hnone, -⟩
  · have hp := hsame (by simp [InHandler.fail]) p
    exact World.membersAt_store_append hrc client hp
  · rw [he] at hnone
    cases hnone

end Exact

/-- In every state the server reaches and for every session that may send one, a Join message
is answered rightly if and only if it designates a cluster and `NewBytesKey` accepts the
client's ID or is not asked for it. -/
theorem serve_join_right_iff {D : Deps} (hmap : D.HamtTotal) {regID : NodeID}
    {evs : List ServerEvent} {s : ServerState} (h : serve D regID evs = .ok s) {c : Session}
    (hc : c ∈ s.parties)
    (hst : c.h.entryState = .clientDetailsRcvd ∨ c.h.entryState = .createRequestRcvd)
    (m : XLRegMsg) (draws : List NodeID) :
    JoinRight D s.shared.world { c.h with msgIn := m } draws ↔
      Joinable D s.shared.world { c.h with msgIn := m } := by
  obtain ⟨hw, hsess⟩ := serve_established hmap h
  have he := (hsess c hc).receive m
  exact ⟨fun hj => hj.joinable hmap hw, fun hj => Joinable.right hmap hw he hst hj draws⟩

/-- After Member, a Join by a name nobody has, by an ID nobody has, or by neither: each ends
the server. -/
theorem serve_join_faults :
    (∃ s c, serve .plain (.rep 9) [.enter (), .act 0 ⟨Sample.member "alice" none 2, [.rep 1]⟩] = .ok s ∧
      c ∈ s.parties ∧ c.h.entryState = .clientDetailsRcvd ∧
      ¬ JoinRight .plain s.shared.world { c.h with msgIn := Sample.joinByName "c" } []) ∧
    serve .plain (.rep 9) [.enter (), .act 0 ⟨Sample.member "alice" none 2, [.rep 1]⟩,
      .act 0 ⟨Sample.joinByName "c", []⟩] = .error .nilDeref ∧
    serve .plain (.rep 9) [.enter (), .act 0 ⟨Sample.member "alice" none 2, [.rep 1]⟩,
      .act 0 ⟨Sample.joinByID (.rep 5), []⟩] = .error .nilDeref ∧
    serve .plain (.rep 9) [.enter (), .act 0 ⟨Sample.member "alice" none 2, [.rep 1]⟩,
      .act 0 ⟨{ op := some Tag.join }, []⟩] = .error .nilDeref := by
  refine ⟨?_, Run.stop_eq_some (by decide), Run.stop_eq_some (by decide), Run.stop_eq_some (by decide)⟩
  obtain ⟨s, hr, hp⟩ := Run.exists_of_ends (server .plain).next (ServerState.init (.rep 9))
    [.enter (), .act 0 ⟨Sample.member "alice" none 2, [.rep 1]⟩]
    (fun s => s.parties.any fun c => decide (c.h.entryState = .clientDetailsRcvd ∧
      Run.stop (doJoinMsg .plain s.shared.world { c.h with msgIn := Sample.joinByName "c" } []) =
        some .nilDeref)) (by decide)
  obtain ⟨c, hc, hd⟩ := List.any_eq_true.1 hp
  obtain ⟨hst, hstop⟩ := of_decide_eq_true hd
  refine ⟨s, c, hr, hc, hst, fun ⟨w', h', hrun, _⟩ => ?_⟩
  rw [Run.stop_eq_some hstop] at hrun
  cases hrun

/-- A Join by name of a cluster that the session has just made. -/
theorem serve_join_right_iff_sample :
    ∃ s c, serve .plain (.rep 9) [.enter (), .act 0 ⟨Sample.member "alice" none 2, [.rep 1]⟩,
        .act 0 ⟨Sample.create "c" 2, [.rep 5]⟩] = .ok s ∧ c ∈ s.parties ∧
      c.h.entryState = .createRequestRcvd ∧
      JoinRight .plain s.shared.world { c.h with msgIn := Sample.joinByName "c" } [] := by
  obtain ⟨s, hr, hp⟩ := Run.exists_of_ends (server .plain).next (ServerState.init (.rep 9))
    [.enter (), .act 0 ⟨Sample.member "alice" none 2, [.rep 1]⟩, .act 0 ⟨Sample.create "c" 2, [.rep 5]⟩]
    (fun s => s.parties.any fun c => decide (c.h.entryState = .createRequestRcvd ∧
      0 ∈ s.shared.world.reg.clusters ∧ s.shared.world.nameAt 0 = "c")) (by decide)
  obtain ⟨c, hc, hd⟩ := List.any_eq_true.1 hp
  obtain ⟨hst, hreg, hname⟩ := of_decide_eq_true hd
  refine ⟨s, c, hr, hc, hst, (serve_join_right_iff plain_hamtTotal hr hc (.inr hst) _ _).2 ?_⟩
  refine ⟨0, ?_, fun rc client _ _ => .inl (plain_keysNodeIDs client.nodeID)⟩
  exact ⟨hreg, hname⟩

end XlReg
