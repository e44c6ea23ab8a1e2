import XlReg.Sanity.Plain
import XlReg.Sanity.Registered

/-! What clients are told about clusters. The size and the number of end points in a reply come
from the request on one path and from the stored cluster on the others; all of them are what the
registry has stored for that cluster, which never changes. Attributes are not stored: the reply
to the request that makes a cluster repeats the attributes asked for, later ones say 0. -/

namespace XlReg

/-- The exchange was answered with `r`, a CreateReply or a JoinReply. -/
def Exchange.Tells (ex : Exchange) (r : XLRegMsg) : Prop :=
  ex.reply = some r ∧ (r.op = some Tag.createReply ∨ r.op = some Tag.joinReply)

/-- The name by which the request found its cluster: that of a Create, and that of a Join which
gives no ID. -/
def Exchange.through (ex : Exchange) : Option String :=
  match ex.handler with
  | .doCreateMsg => some ex.msg.getClusterName
  | .doJoinMsg => if ex.msg.clusterID = none then some ex.msg.getClusterName else none
  | _ => none

/-- The registry lists the cluster `rc`, and `r` has its ID, size and end point count. The attributes
are left out: a CreateReply for a new cluster repeats those asked for, while 0 is stored. -/
structure World.Stores (w : World) (r : XLRegMsg) (rc : RegCluster) : Prop where
  listed : ∃ p ∈ w.reg.clusters, w.heap[p]? = some rc
  id : r.clusterID = some rc.id.value
  maxSize : r.clusterMaxSize = some rc.maxSize
  epCount : r.endPointCount = some rc.epCount

theorem World.Stores.of_grows {w w' : World} {r : XLRegMsg} {rc : RegCluster} (h : w.Stores r rc)
    (hg : w.Grows w') : ∃ rc', w'.Stores r rc' ∧ rc'.name = rc.name := by
  obtain ⟨p, hp, hrc⟩ := h.listed
  obtain ⟨rc', hrc', hgr⟩ := hg.heap p rc hrc
  refine ⟨rc', ⟨⟨p, hg.clusters.subset hp, hrc'⟩, ?_, ?_, ?_⟩, hgr.name⟩
  · rw [hgr.id]
    exact h.id
  · rw [hgr.maxSize]
    exact h.maxSize
  · rw [hgr.epCount]
    exact h.epCount

/-- A reply about a cluster says what is stored, of the cluster with the name asked for. -/
def Exchange.Agrees (w : World) (ex : Exchange) : Prop :=
  ∀ r, ex.Tells r → ∃ rc, w.Stores r rc ∧ ∀ k, k ≠ "" → ex.through = some k → rc.name = k

theorem Exchange.Agrees.of_grows {w w' : World} {ex : Exchange} (h : ex.Agrees w)
    (hg : w.Grows w') : ex.Agrees w' := by
  intro r hr
  obtain ⟨rc, hs, hname⟩ := h r hr
  obtain ⟨rc', hs', hsame⟩ := hs.of_grows hg
  exact ⟨rc', hs', fun k hk ht => hsame.trans (hname k hk ht)⟩

theorem createNew_stores {D : Deps} {w w' : World} {h h' : InHandler} {draws : List NodeID}
    {r : XLRegMsg} (hr : createNew D w h draws = .ok (w', h')) (hok : h'.errOut = none)
    (hm : h'.msgOut = some r) :
    ∃ rc, w'.Stores r rc ∧ (h.msgIn.getClusterName ≠ "" → rc.name = h.msgIn.getClusterName) := by
  obtain ⟨n, rc, -, hnew, -, hrc, hmem, -, rfl⟩ := createNew_replied hr hok
  obtain ⟨-, hname, hid, -, hmax, hep⟩ := newRegCluster_ok hnew
  cases hm
  refine ⟨rc, ⟨⟨_, hmem, hrc⟩, ?_, ?_, ?_⟩, fun hne => ?_⟩
  · rw [hid]
    rfl
  · rw [hmax]
    rfl
  · rw [hep]
    rfl
  · rw [hname, if_neg hne]

theorem joinLookup_name {D : Deps} {w : World} {h : InHandler} {p : Ptr} {rc : RegCluster}
    (hw : w.Registered) (hl : joinLookup D w h = (some p, none)) (hrc : w.heap[p]? = some rc)
    (hid : h.msgIn.clusterID = none) (hne : h.msgIn.getClusterName ≠ "") :
    rc.name = h.msgIn.getClusterName := by
  simp only [joinLookup, hid, if_neg hne] at hl
  rcases hn : w.reg.clustersByName.lookup h.msgIn.getClusterName with - | q
  · simp [hn] at hl
  · simp only [hn] at hl
    cases hl
    rw [← ((hw.byName.lookup _ _).1 hn).2, World.nameAt_eq hrc]

theorem startIter_agrees {D : Deps} {w w' : World} {h h' : InHandler} {x : Input} {ex : Exchange}
    (hw : w.Registered) (hh : h.Hung w) (hr : startIter D w h x = .ok (w', h', ex)) :
    ex.Agrees w' := by
  rintro r ⟨hrep, hop | hop⟩
  · obtain ⟨h₁, -, hrun, hok, hm, hhandler, hmsg⟩ :=
      startIter_replied (g := .doCreateMsg) hr hrep (by decide) hop
    unfold Exchange.through
    rw [hhandler, hmsg]
    rcases doCreateMsg_ok hrun with ⟨-, hrun⟩ | ⟨p, rc, hl, hp, rfl, rfl⟩
    · obtain ⟨rc, hs, hname⟩ := createNew_stores hrun hok hm
      refine ⟨rc, hs, fun k hk ht => ?_⟩
      cases ht
      exact hname hk
    · cases hm
      obtain ⟨hmem, hname⟩ := (hw.byName.lookup _ _).1 hl
      refine ⟨rc, ⟨⟨p, hmem, hp⟩, rfl, rfl, rfl⟩, fun k _ ht => ?_⟩
      cases ht
      rw [← World.nameAt_eq hp]
      exact hname
  · obtain ⟨h₁, hd, hrun, hok, hm, hhandler, hmsg⟩ :=
      startIter_replied (g := .doJoinMsg) hr hrep (by decide) hop
    unfold Exchange.through
    rw [hhandler, hmsg]
    change doJoinMsg D w _ x.draws = _ at hrun
    obtain ⟨client, p, rc, -, hl, hp, rfl, ⟨e, -, rfl⟩ | ⟨-, rfl⟩⟩ := doJoinMsg_ok hrun
    · cases hok
    · cases hm
      have hlt : p < w.heap.length := (List.getElem?_eq_some_iff.1 hp).1
      have hmem := joinLookup_listed (h := { h with msgIn := x.msg }) hw hh (open_of_dispatch hd) hl
      refine ⟨(rc.addMember D client).1, ⟨⟨p, hmem, by simp [World.store, hlt]⟩, rfl, rfl, rfl⟩,
        fun k hk ht => ?_⟩
      simp only at ht
      split_ifs at ht with hid
      cases ht
      rw [(rc.grows_addMember D client).name]
      exact joinLookup_name hw hl hp hid hk

theorem replies_contract (D : Deps) :
    Parties.Contract (server D) (fun _ _ _ => True)
      (fun s => s.world.Registered ∧ ∀ ex ∈ s.log, ex.Agrees s.world)
      (fun s s' => s.world.Grows s'.world) (fun s c => c.h.Hung s.world) where
  start _ _ _ := by
    intro _ p hp
    cases hp
  step s c x s' c' hI hJ _ hr := by
    rcases sessionStep_ok hr with ⟨-, rfl, rfl⟩ | ⟨-, w, h, ex, hi, rfl, rfl⟩
    · exact ⟨hI, .refl _, hJ⟩
    · have hg := startIter_grows hi
      obtain ⟨f, h1, -, hh, -, -⟩ := startIter_ok hi
      refine ⟨⟨handler_registered hI.1 hh, ?_⟩, hg, startIter_hung hI.1 hJ hi⟩
      intro ex' hex'
      rcases List.mem_append.1 hex' with hold | hlast
      · exact (hI.2 ex' hold).of_grows hg
      · rw [List.mem_singleton.1 hlast]
        exact startIter_agrees hI.1 hJ hi
  stable _ _ _ _ hJ hg := hJ.of_grows hg

theorem serve_agrees {D : Deps} {regID : NodeID} {evs : List ServerEvent} {s : ServerState}
    (h : serve D regID evs = .ok s) :
    s.shared.world.Registered ∧ ∀ ex ∈ s.shared.log, ex.Agrees s.shared.world := by
  refine ((replies_contract D).holds_of_run ⟨⟨World.init_registered regID, ?_⟩, ?_⟩ h).1
  · intro ex hex
    cases hex
  · intro c hc
    cases hc

/-- A reply carries the ID of one stored cluster only. -/
theorem World.Stores.eq_of_id {w : World} {r : XLRegMsg} {rc rc' : RegCluster} (h : w.Stores r rc)
    (hw : w.Registered) (hmem : rc' ∈ w.heap) (hid : r.clusterID = some rc'.id.value) : rc = rc' := by
  obtain ⟨p, -, hp⟩ := h.listed
  apply hw.eq_of_id (List.mem_of_getElem? hp) hmem
  rw [h.id] at hid
  exact NodeID.value_inj.1 (Option.some.inj hid)

/-- The replies about clusters that were sent in a run agree. Each says, for the rest of the run,
what is stored for a listed cluster, and no other listed cluster has the ID it carries. Those
obtained through one name carry one ID, and those that carry one ID the same values. -/
theorem serve_replies_agree {D : Deps} {regID : NodeID} {evs evs' : List ServerEvent}
    {s s' : ServerState} (h : serve D regID evs = .ok s)
    (h' : Run.run (server D).next s evs' = .ok s') :
    (∀ ex ∈ s.shared.log, ∀ r, ex.Tells r → (∃ rc, s'.shared.world.Stores r rc) ∧
      ∀ p ∈ s'.shared.world.reg.clusters, ∀ rc, s'.shared.world.heap[p]? = some rc →
        r.clusterID = some rc.id.value →
        r.clusterMaxSize = some rc.maxSize ∧ r.endPointCount = some rc.epCount) ∧
    (∀ ex₁ ∈ s.shared.log, ∀ ex₂ ∈ s.shared.log, ∀ r₁ r₂, ex₁.Tells r₁ → ex₂.Tells r₂ →
      (∀ k, k ≠ "" → ex₁.through = some k → ex₂.through = some k → r₁.clusterID = r₂.clusterID) ∧
      (r₁.clusterID = r₂.clusterID → r₁.clusterMaxSize = r₂.clusterMaxSize ∧
        r₁.endPointCount = r₂.endPointCount)) := by
  have hwhole : serve D regID (evs ++ evs') = .ok s' := by
    unfold serve at h ⊢
    rw [Run.run_append, h]
    exact h'
  obtain ⟨hw, hlog⟩ := serve_agrees h
  obtain ⟨hw', hlog'⟩ := serve_agrees hwhole
  obtain ⟨-, hkept⟩ := server_run_grows h'
  refine ⟨fun ex hex r ht => ?_, fun ex₁ hex₁ ex₂ hex₂ r₁ r₂ ht₁ ht₂ => ?_⟩
  · obtain ⟨rc, hs, -⟩ := hlog' ex (hkept.subset hex) r ht
    refine ⟨⟨rc, hs⟩, fun p _ rc' hp hid => ?_⟩
    obtain rfl := hs.eq_of_id hw' (List.mem_of_getElem? hp) hid
    exact ⟨hs.maxSize, hs.epCount⟩
  · obtain ⟨rc₁, hs₁, hn₁⟩ := hlog ex₁ hex₁ r₁ ht₁
    obtain ⟨rc₂, hs₂, hn₂⟩ := hlog ex₂ hex₂ r₂ ht₂
    obtain ⟨p, hp, hrc₁⟩ := hs₁.listed
    obtain ⟨q, hq, hrc₂⟩ := hs₂.listed
    refine ⟨fun k hk hk₁ hk₂ => ?_, fun hid => ?_⟩
    · have hname : rc₁.name = rc₂.name := (hn₁ k hk hk₁).trans (hn₂ k hk hk₂).symm
      rw [hs₁.id, hs₂.id, hw.eq_of_name hp hq hrc₁ hrc₂ hname]
    · obtain rfl := hs₁.eq_of_id hw (List.mem_of_getElem? hrc₂) (hid.trans hs₂.id)
      exact ⟨hs₁.maxSize.trans hs₂.maxSize.symm, hs₁.epCount.trans hs₂.epCount.symm⟩

def Sample.twoClients : List ServerEvent :=
  [.enter (), .enter (), .act 0 ⟨member "a" none 2, [.rep 1]⟩, .act 1 ⟨member "b" none 3, [.rep 2]⟩]

def Sample.createAndJoin : List ServerEvent :=
  twoClients ++ [.act 0 ⟨create "xy" 2, [.rep 5]⟩, .act 1 ⟨joinByName "xy", []⟩]

theorem serve_replies_agree_sample :
    ∃ s s' ex₁ ex₂ r₁ r₂, serve .plain (.rep 9) Sample.createAndJoin = .ok s ∧
      Run.run (server .plain).next s [.act 0 ⟨Sample.joinByName "xy", []⟩] = .ok s' ∧
      ex₁ ∈ s.shared.log ∧ ex₂ ∈ s.shared.log ∧ ex₁.Tells r₁ ∧ ex₂.Tells r₂ ∧
      r₁.op = some Tag.createReply ∧ r₂.op = some Tag.joinReply ∧ r₁.clusterID = r₂.clusterID ∧
      r₁.clusterMaxSize = r₂.clusterMaxSize ∧ ∃ rc, s'.shared.world.Stores r₁ rc := by
  obtain ⟨s, hr, hp⟩ := Run.exists_of_ends (server .plain).next (ServerState.init (.rep 9))
    Sample.createAndJoin
    (fun s => s.shared.log[2]?.any fun ex₁ => s.shared.log[3]?.any fun ex₂ =>
      ex₁.reply.any fun r₁ => ex₂.reply.any fun r₂ =>
        decide (r₁.op = some Tag.createReply ∧ r₂.op = some Tag.joinReply ∧
          ex₁.through = some "xy" ∧ ex₂.through = some "xy") &&
        Run.ends (server .plain).next s [.act 0 ⟨Sample.joinByName "xy", []⟩] fun _ => true)
    (by decide)
  obtain ⟨ex₁, hex₁, hp⟩ := (Option.any_eq_true _ _).1 hp
  obtain ⟨ex₂, hex₂, hp⟩ := (Option.any_eq_true _ _).1 hp
  obtain ⟨r₁, hr₁, hp⟩ := (Option.any_eq_true _ _).1 hp
  obtain ⟨r₂, hr₂, hp⟩ := (Option.any_eq_true _ _).1 hp
  obtain ⟨hp, hends⟩ := Bool.and_eq_true_iff.1 hp
  obtain ⟨hop₁, hop₂, hk₁, hk₂⟩ := of_decide_eq_true hp
  obtain ⟨s', hr', -⟩ := Run.exists_of_ends _ _ _ _ hends
  have hmem₁ := List.mem_of_getElem? hex₁
  have hmem₂ := List.mem_of_getElem? hex₂
  have ht₁ : ex₁.Tells r₁ := ⟨hr₁, .inl hop₁⟩
  have ht₂ : ex₂.Tells r₂ := ⟨hr₂, .inr hop₂⟩
  obtain ⟨hstored, hagree⟩ := serve_replies_agree hr hr'
  obtain ⟨hname, hvalues⟩ := hagree ex₁ hmem₁ ex₂ hmem₂ r₁ r₂ ht₁ ht₂
  have hid := hname "xy" (by decide) hk₁ hk₂
  exact ⟨s, s', ex₁, ex₂, r₁, r₂, hr, hr', hmem₁, hmem₂, ht₁, ht₂, hop₁, hop₂, hid, (hvalues hid).1,
    (hstored ex₁ hmem₁ r₁ ht₁).1⟩

/-! The same Create twice. -/

/-- A Create message, in the state in which it may be sent, is handled by `doCreateMsg`. -/
theorem next_create {D : Deps} {s : ServerState} {i : ℕ} {c : Session} {x : Input}
    (hc : s.parties[i]? = some c) (hst : c.h.entryState = .clientDetailsRcvd)
    (hop : x.msg.getOp = Tag.create) :
    (server D).next s (.act i x) =
      (doCreateMsg D s.shared.world { c.h with msgIn := x.msg } x.draws).map fun p =>
        let ex : Exchange := ⟨c.h.entryState, x.msg, .doCreateMsg, p.2.errOut, (respond p.2).msgOut⟩
        ⟨⟨p.1, s.shared.log ++ [ex]⟩, s.parties.set i ⟨afterRound p.2, c.exchanges ++ [ex]⟩⟩ := by
  have hd : dispatch c.h.entryState (op2tag x.msg.getOp) = some .doCreateMsg := by
    rw [hst, hop]
    decide
  have hopen : c.h.entryState ≠ .inClosed := by rw [hst]; decide
  simp only [Parties.next, hc, server, sessionStep, if_neg hopen, startIter_inside hd,
    HandlerName.handler, closing]
  rcases doCreateMsg D s.shared.world { c.h with msgIn := x.msg } x.draws with a | p <;> rfl

section NextCreate

variable {D : Deps} {s : ServerState} {i : ℕ} {c : Session} {x : Input}
  (hc : s.parties[i]? = some c) (hst : c.h.entryState = .clientDetailsRcvd)
  (hop : x.msg.getOp = Tag.create)
include hc hst hop

theorem next_create_ok {s' : ServerState} (h : (server D).next s (.act i x) = .ok s') :
    ∃ g c', doCreateMsg D s.shared.world { c.h with msgIn := x.msg } x.draws =
        .ok (s'.shared.world, g) ∧ s'.parties[i]? = some c' ∧ c'.h = afterRound g ∧
      ∀ j, i ≠ j → s'.parties[j]? = s.parties[j]? := by
  have hlt : i < s.parties.length := (List.getElem?_eq_some_iff.1 hc).1
  rw [next_create hc hst hop] at h
  rcases hr : doCreateMsg D s.shared.world { c.h with msgIn := x.msg } x.draws with a | ⟨w, g⟩
  · rw [hr] at h
    cases h
  · rw [hr] at h
    cases h
    exact ⟨g, _, rfl, List.getElem?_set_self hlt, rfl, fun j hij => List.getElem?_set_ne hij⟩

theorem next_create_of {w : World} {g : InHandler}
    (hr : doCreateMsg D s.shared.world { c.h with msgIn := x.msg } x.draws = .ok (w, g)) :
    ∃ s' c', (server D).next s (.act i x) = .ok s' ∧ s'.shared.world = w ∧
      s'.parties[i]? = some c' ∧ c'.h = afterRound g := by
  have hlt : i < s.parties.length := (List.getElem?_eq_some_iff.1 hc).1
  rw [next_create hc hst hop, hr]
  exact ⟨_, _, rfl, rfl, List.getElem?_set_self hlt, rfl⟩

end NextCreate

theorem doCreateMsg_found {D : Deps} {w : World} {h : InHandler} {p : Ptr} {rc : RegCluster}
    (draws : List NodeID) (hl : w.reg.clustersByName.lookup h.msgIn.getClusterName = some p)
    (hrc : w.heap[p]? = some rc) :
    doCreateMsg D w h draws =
      .ok (w, h.reply (createReply rc.id rc.maxSize rc.attrs rc.epCount) .createRequestRcvd) := by
  simp only [doCreateMsg, hl, deref_ok.2 hrc]

/-- The reply to the second of two Creates with one message, if the first replied `r`. -/
structure CreatedTwice (D : Deps) (w w' : World) (m : XLRegMsg) (r : XLRegMsg) : Prop where
  /-- Of a cluster that was there before the first, both report the same. -/
  old : w.reg.clustersByName.lookup m.getClusterName ≠ none → ∀ h draws, h.msgIn = m →
    doCreateMsg D w' h draws = .ok (w', h.reply r .createRequestRcvd)
  /-- Of the cluster that the first made, the second reports the stored attributes, which are 0. -/
  new : w.reg.clustersByName.lookup m.getClusterName = none → m.getClusterName ≠ "" →
    r.clusterAttrs = some m.getClusterAttrs ∧ ∀ h draws, h.msgIn = m →
    doCreateMsg D w' h draws = .ok (w', h.reply { r with clusterAttrs := some 0 } .createRequestRcvd)
  /-- The second does not find a cluster made without a name, and its ID would be another one. -/
  nameless : m.getClusterName = "" → ∀ h draws w'' h', h.msgIn = m →
    doCreateMsg D w' h draws = .ok (w'', h') → h'.errOut = none → h'.msgOut ≠ some r

theorem doCreateMsg_twice {D : Deps} {w w' : World} {h h' : InHandler} {draws : List NodeID}
    {r : XLRegMsg} (hw : w.Registered) (hr : doCreateMsg D w h draws = .ok (w', h'))
    (hok : h'.errOut = none) (hm : h'.msgOut = some r) : CreatedTwice D w w' h.msgIn r := by
  have hw' : w'.Registered := handler_registered (f := .doCreateMsg) hw hr
  rcases doCreateMsg_ok hr with ⟨hl, hnew⟩ | ⟨p, rc, hl, hp, rfl, rfl⟩
  · obtain ⟨n, rc, -, hmake, hids, hrc, -, hlisted, rfl⟩ := createNew_replied hnew hok
    obtain ⟨-, hname, hid, hattrs, hmax, hep⟩ := newRegCluster_ok hmake
    cases hm
    refine ⟨fun hne => absurd hl hne, fun _ hne => ⟨rfl, fun h₂ draws₂ hsame => ?_⟩, ?_⟩
    · rw [hname, if_neg hne, ← hsame] at hlisted
      rw [doCreateMsg_found draws₂ hlisted hrc, hid, hattrs, hmax, hep]
      rfl
    · intro hempty h₂ draws₂ w'' h₂' hsame hr₂ hok₂ hm₂
      rcases doCreateMsg_ok hr₂ with ⟨-, hnew₂⟩ | ⟨q, rc₂, hl₂, -⟩
      · obtain ⟨n₂, -, hn₂, -, -, -, -, -, rfl⟩ := createNew_replied hnew₂ hok₂
        have hsameID : n₂.value = n.value := by
          have := congrArg (fun m => m.bind (·.clusterID)) hm₂
          exact Option.some.inj this
        apply IdFilter.not_mem hn₂.fresh
        rw [hids, hsameID]
        simp
      · rw [hsame, hempty, hw'.no_empty_name] at hl₂
        cases hl₂
  · cases hm
    refine ⟨fun _ h₂ draws₂ hsame => ?_, fun hnone => ?_, fun hempty => ?_⟩
    · rw [← hsame] at hl
      exact doCreateMsg_found draws₂ hl hp
    · rw [hl] at hnone
      cases hnone
    · rw [hempty, hw.no_empty_name] at hl
      cases hl

theorem CreatedTwice.same_iff {D : Deps} {w w' : World} {m r : XLRegMsg} (ht : CreatedTwice D w w' m r)
    {h : InHandler} (hm : h.msgIn = m) (draws : List NodeID) :
    (∃ w'' g, doCreateMsg D w' h draws = .ok (w'', g) ∧ g.errOut = none ∧ g.msgOut = some r ∧ w'' = w') ↔
      m.getClusterName ≠ "" ∧
      (w.reg.clustersByName.lookup m.getClusterName ≠ none ∨ m.getClusterAttrs = 0) := by
  constructor
  · rintro ⟨w'', g, hr, hok, hmsg, -⟩
    have hnamed : m.getClusterName ≠ "" := fun hempty => ht.nameless hempty h draws w'' g hm hr hok hmsg
    refine ⟨hnamed, or_iff_not_imp_left.2 fun hl => ?_⟩
    obtain ⟨hattrs, hnew⟩ := ht.new (not_not.1 hl) hnamed
    rw [hnew h draws hm] at hr
    cases hr
    have hzero : some 0 = r.clusterAttrs :=
      congrArg (fun o : Option XLRegMsg => o.bind (·.clusterAttrs)) hmsg
    rw [hattrs] at hzero
    exact (Option.some.inj hzero).symm
  · rintro ⟨hnamed, hcase⟩
    refine ⟨w', h.reply r .createRequestRcvd, ?_, rfl, rfl, rfl⟩
    by_cases hl : w.reg.clustersByName.lookup m.getClusterName = none
    · obtain ⟨hattrs, hnew⟩ := ht.new hl hnamed
      rw [hcase.resolve_left fun hno => hno hl] at hattrs
      rw [hnew h draws hm, ← hattrs]
    · exact ht.old hl h draws hm

/-- A session `i` is answered with the CreateReply `r`, and then another session `j` sends the
same message: it gets the same reply, and the registry stays as it is, if and only if the message
has a name, and the cluster was there before or the message asks for no attributes. -/
theorem create_again_iff {D : Deps} {regID : NodeID} {evs : List ServerEvent} {s s₁ : ServerState}
    {i j : ℕ} {c c₁ d : Session} {m r : XLRegMsg} {draws₁ : List NodeID} (draws₂ : List NodeID)
    (h : serve D regID evs = .ok s) (hij : i ≠ j)
    (hc : s.parties[i]? = some c) (hcs : c.h.entryState = .clientDetailsRcvd)
    (hd : s.parties[j]? = some d) (hds : d.h.entryState = .clientDetailsRcvd)
    (hop : m.getOp = Tag.create) (h₁ : (server D).next s (.act i ⟨m, draws₁⟩) = .ok s₁)
    (hc₁ : s₁.parties[i]? = some c₁) (hr : c₁.h.msgOut = some r) (hrop : r.op = some Tag.createReply) :
    (∃ s₂ d₂, (server D).next s₁ (.act j ⟨m, draws₂⟩) = .ok s₂ ∧ s₂.parties[j]? = some d₂ ∧
        d₂.h.msgOut = some r ∧ s₂.shared.world = s₁.shared.world) ↔
      m.getClusterName ≠ "" ∧
      (s.shared.world.reg.clustersByName.lookup m.getClusterName ≠ none ∨ m.getClusterAttrs = 0) := by
  have hne : r.op ≠ some Tag.error := by rw [hrop]; decide
  obtain ⟨hw, -⟩ := serve_agrees h
  obtain ⟨g, c', hrun, hc', hg, hothers⟩ := next_create_ok hc hcs hop h₁
  rw [hc₁] at hc'
  cases hc'
  rw [hg] at hr
  obtain ⟨hok, hm⟩ := respond_reply hr hne
  rw [← (doCreateMsg_twice hw hrun hok hm).same_iff (h := { d.h with msgIn := m }) rfl draws₂]
  -- the second request is a call of `doCreateMsg` in the world that the first left
  have hd₁ : s₁.parties[j]? = some d := (hothers j hij).trans hd
  constructor
  · rintro ⟨s₂, d₂, h₂, hd₂, hm₂, hw₂⟩
    obtain ⟨g₂, d', hrun₂, hd', hg₂, -⟩ := next_create_ok hd₁ hds hop h₂
    rw [hd₂] at hd'
    cases hd'
    rw [hg₂] at hm₂
    obtain ⟨hok₂, hm₂⟩ := respond_reply hm₂ hne
    exact ⟨_, g₂, hrun₂, hok₂, hm₂, hw₂⟩
  · rintro ⟨w₂, g₂, hrun₂, hok₂, hm₂, hw₂⟩
    obtain ⟨s₂, d₂, h₂, hworld, hd₂, hg₂⟩ := next_create_of (x := ⟨m, draws₂⟩) hd₁ hds hop hrun₂
    refine ⟨s₂, d₂, h₂, hd₂, ?_, hworld.trans hw₂⟩
    rw [hg₂]
    simp [afterRound, respond, hok₂, hm₂]

theorem create_again_iff_sample :
    ∃ (s s₁ s₂ : ServerState) (c d₂ : Session), serve .plain (.rep 9) Sample.twoClients = .ok s ∧
      (server .plain).next s (.act 0 ⟨Sample.create "xy" 2, [.rep 5]⟩) = .ok s₁ ∧
      s₁.parties[0]? = some c ∧ c.h.msgOut = some (createReply (.rep 5) 2 0 1) ∧
      (server .plain).next s₁ (.act 1 ⟨Sample.create "xy" 2, []⟩) = .ok s₂ ∧
      s₂.parties[1]? = some d₂ ∧ d₂.h.msgOut = some (createReply (.rep 5) 2 0 1) ∧
      s₂.shared.world = s₁.shared.world := by
  obtain ⟨s, hr, hp⟩ := Run.exists_of_ends (server .plain).next (ServerState.init (.rep 9))
    Sample.twoClients (fun s => s.parties[0]?.any fun (c : Session) => s.parties[1]?.any fun (d : Session) =>
      decide (c.h.entryState = .clientDetailsRcvd ∧ d.h.entryState = .clientDetailsRcvd) &&
      Run.ends (server .plain).next s [.act 0 ⟨Sample.create "xy" 2, [.rep 5]⟩] fun s₁ =>
        s₁.parties[0]?.any fun (c₁ : Session) => decide (c₁.h.msgOut = some (createReply (.rep 5) 2 0 1)))
    (by decide)
  obtain ⟨c, hc, hp⟩ := (Option.any_eq_true _ _).1 hp
  obtain ⟨d, hd, hp⟩ := (Option.any_eq_true _ _).1 hp
  obtain ⟨hst, hends⟩ := Bool.and_eq_true_iff.1 hp
  obtain ⟨hcs, hds⟩ := of_decide_eq_true hst
  obtain ⟨s', hrun, hp⟩ := Run.exists_of_ends _ _ _ _ hends
  obtain ⟨s₁, h₁, hnil⟩ := Run.run_cons_ok hrun
  cases hnil
  obtain ⟨c₁, hc₁, hp⟩ := (Option.any_eq_true _ _).1 hp
  have hm := of_decide_eq_true hp
  obtain ⟨s₂, d₂, h₂, hd₂, hm₂, hw⟩ := (create_again_iff [] hr Nat.zero_ne_one hc hcs hd hds
    rfl h₁ hc₁ hm rfl).2 ⟨by decide, .inr rfl⟩
  exact ⟨s, s', s₂, c₁, d₂, hr, h₁, hc₁, hm, h₂, hd₂, hm₂, hw⟩

def Sample.createTwice (m : XLRegMsg) : List ServerEvent :=
  twoClients ++ [.act 0 ⟨m, [.rep 5]⟩, .act 1 ⟨m, [.rep 6]⟩]

/-- With attributes, the second is told that there are none; without a name, the second gets an
Error, since both are called xlCluster. -/
theorem create_again_differs :
    (∃ (s : ServerState) (c d : Session), serve .plain (.rep 9)
        (Sample.createTwice { Sample.create "xy" 2 with clusterAttrs := some 1 }) = .ok s ∧
      s.parties[0]? = some c ∧ c.h.msgOut = some (createReply (.rep 5) 2 1 1) ∧
      s.parties[1]? = some d ∧ d.h.msgOut = some (createReply (.rep 5) 2 0 1)) ∧
    (∃ (s : ServerState) (c d : Session),
      serve .plain (.rep 9) (Sample.createTwice (Sample.create "" 2)) = .ok s ∧
      s.parties[0]? = some c ∧ c.h.msgOut = some (createReply (.rep 5) 2 0 1) ∧
      s.parties[1]? = some d ∧ d.h.msgOut = some (errorMsg .nameAlreadyInUse)) := by
  have hends : ∀ (m r₁ r₂ : XLRegMsg), Run.ends (server .plain).next (ServerState.init (.rep 9))
      (Sample.createTwice m) (fun s => s.parties[0]?.any fun (c : Session) => s.parties[1]?.any fun (d : Session) =>
        decide (c.h.msgOut = some r₁ ∧ d.h.msgOut = some r₂)) = true →
      ∃ (s : ServerState) (c d : Session), serve .plain (.rep 9) (Sample.createTwice m) = .ok s ∧
        s.parties[0]? = some c ∧ c.h.msgOut = some r₁ ∧ s.parties[1]? = some d ∧ d.h.msgOut = some r₂ := by
    intro m r₁ r₂ hp
    obtain ⟨s, hr, hp⟩ := Run.exists_of_ends _ _ _ _ hp
    obtain ⟨c, hc, hp⟩ := (Option.any_eq_true _ _).1 hp
    obtain ⟨d, hd, hp⟩ := (Option.any_eq_true _ _).1 hp
    obtain ⟨hm₁, hm₂⟩ := of_decide_eq_true hp
    exact ⟨s, c, d, hr, hc, hm₁, hd, hm₂⟩
  exact ⟨hends _ _ _ (by decide), hends _ _ _ (by decide)⟩

end XlReg
