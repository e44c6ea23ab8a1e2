import XlReg.Sanity.Effects

/-! What one round of a session's loop can do: to the shared registry, whatever the handler,
and to the session. The dispatch table is read here once. -/

namespace XlReg

/-- A Create for a name that is not in use draws the ID `n` and makes the cluster `rc`. -/
structure MakesCluster (D : Deps) (w : World) (m : XLRegMsg) (draws : List NodeID) (n : NodeID)
    (rc : RegCluster) : Prop where
  unused : w.reg.clustersByName.lookup m.getClusterName = none
  drawn : Draws D w.reg.idFilter draws n
  made : newRegCluster D m.getClusterName n 0 (clampSize m.getClusterMaxSize) m.getEndPointCount =
    .ok rc

structure FindsCluster (D : Deps) (w : World) (h : InHandler) (client : ClientInfo) (p : Ptr)
    (rc : RegCluster) : Prop where
  client : h.thisClient = some client
  found : joinLookup D w h = (some p, none)
  cluster : w.heap[p]? = some rc

/-- All that the handlers can do, to the registry and to the session. -/
inductive HandlerName.Effect (D : Deps) (w : World) (h : InHandler) (draws : List NodeID) :
    HandlerName → World → InHandler → Prop
  | refused {f : HandlerName} (e : Err) : Effect D w h draws f w (h.fail e)
  | noNode {ck sk : RSAPublicKey} {fl : IdFilter} {n : NodeID} {e : Err}
      (refuses : RefusesMember D w h.msgIn.getMemberSpecs draws ck sk fl n e) :
      Effect D w h draws .doClientMsg (w.setFilter fl) (h.fail e)
  | accepted {ck sk : RSAPublicKey} {fl : IdFilter} {n : NodeID}
      (accepts : AcceptsMember D w h.msgIn.getMemberSpecs draws ck sk fl n) :
      Effect D w h draws .doClientMsg { w.setFilter fl with clients := w.clients + 1 }
        ({ h with thisClient := some (clientOf w h.msgIn.getMemberSpecs ck sk n) }.reply
          (memberOK n h.msgIn.getMemberSpecs.getAttrs) .clientDetailsRcvd)
  | noCluster {n : NodeID} {e : Err}
      (unused : w.reg.clustersByName.lookup h.msgIn.getClusterName = none)
      (drawn : Draws D w.reg.idFilter draws n)
      (refuses : newRegCluster D h.msgIn.getClusterName n 0 (clampSize h.msgIn.getClusterMaxSize)
        h.msgIn.getEndPointCount = .error e) :
      Effect D w h draws .doCreateMsg (w.setFilter ⟨w.reg.idFilter.ids ++ [n.value]⟩) (h.fail e)
  | notAdded {n : NodeID} {rc : RegCluster} {w' : World} {i : ℤ} {e : Err}
      (makes : MakesCluster D w h.msgIn draws n rc)
      (refuses : addCluster D ((w.setFilter ⟨w.reg.idFilter.ids ++ [n.value]⟩).alloc rc)
        (some w.heap.length) = .ok (w', i, some e)) :
      Effect D w h draws .doCreateMsg w' ({ h with cluster := some w.heap.length }.fail e)
  | created {n : NodeID} {rc : RegCluster} {w' : World} {i : ℤ}
      (makes : MakesCluster D w h.msgIn draws n rc)
      (adds : addCluster D ((w.setFilter ⟨w.reg.idFilter.ids ++ [n.value]⟩).alloc rc)
        (some w.heap.length) = .ok (w', i, none)) :
      Effect D w h draws .doCreateMsg w' ({ h with cluster := some w.heap.length }.reply
        (createReply n (clampSize h.msgIn.getClusterMaxSize) h.msgIn.getClusterAttrs
          h.msgIn.getEndPointCount) .createRequestRcvd)
  | found {p : Ptr} {rc : RegCluster}
      (named : w.reg.clustersByName.lookup h.msgIn.getClusterName = some p)
      (cluster : w.heap[p]? = some rc) :
      Effect D w h draws .doCreateMsg w
        (h.reply (createReply rc.id rc.maxSize rc.attrs rc.epCount) .createRequestRcvd)
  | notJoined {client : ClientInfo} {p : Ptr} {rc : RegCluster} {e : Err}
      (finds : FindsCluster D w h client p rc) (refuses : (rc.addMember D client).2 = some e) :
      Effect D w h draws .doJoinMsg (w.store p (rc.addMember D client).1) (h.fail e)
  | joined {client : ClientInfo} {p : Ptr} {rc : RegCluster}
      (finds : FindsCluster D w h client p rc) (admits : (rc.addMember D client).2 = none) :
      Effect D w h draws .doJoinMsg (w.store p (rc.addMember D client).1)
        ({ h with cluster := some p }.reply (joinReply (rc.addMember D client).1) .joinRcvd)
  | listed (s : Sending) :
      Effect D w h draws .doGetMsg w (h.reply (getReply h.msgIn.clusterID s) .joinRcvd)
  | bye : Effect D w h draws .doByeMsg w (h.reply { op := some Tag.ack } .byeRcvd)

theorem handler_effect {D : Deps} {f : HandlerName} {w w' : World} {h h' : InHandler}
    {draws : List NodeID} (hr : f.handler D w h draws = .ok (w', h')) :
    f.Effect D w h draws w' h' := by
  cases f with
  | badCombo => cases hr; exact .refused _
  | doClientMsg =>
    rcases doClientMsg_ok hr with ⟨fl, e, rfl | ⟨ck, sk, n, ha⟩, rfl, rfl⟩ | ⟨ck, sk, fl, n, ha, rfl, rfl⟩
    · exact .refused e
    · exact .noNode ha
    · exact .accepted ha
  | doCreateMsg =>
    rcases doCreateMsg_ok hr with ⟨hl, hr⟩ | ⟨p, rc, hl, hp, rfl, rfl⟩
    · rcases createNew_ok hr with ⟨fl, e, rfl | ⟨n, hn, hnew, rfl⟩, rfl, rfl⟩ |
        ⟨n, rc, i, err, hn, hnew, ha, ⟨e, rfl, rfl⟩ | ⟨rfl, rfl⟩⟩
      · exact .refused e
      · exact .noCluster hl hn hnew
      · exact .notAdded ⟨hl, hn, hnew⟩ ha
      · exact .created ⟨hl, hn, hnew⟩ ha
    · exact .found hl hp
  | doJoinMsg =>
    change doJoinMsg D w h draws = _ at hr
    obtain ⟨client, p, rc, hc, hl, hp, rfl, ⟨e, ha, rfl⟩ | ⟨ha, rfl⟩⟩ := doJoinMsg_ok hr
    · exact .notJoined ⟨hc, hl, hp⟩ ha
    · exact .joined ⟨hc, hl, hp⟩ ha
  | doGetMsg =>
    change doGetMsg D w h draws = _ at hr
    obtain ⟨rfl, ⟨e, rfl⟩ | ⟨s, rfl⟩⟩ := doGetMsg_ok hr
    · exact .refused e
    · exact .listed s
  | doByeMsg => cases hr; exact .bye

/-- To the registry alone: at most the filter and the count of clients change, or a cluster is
made and handed to `AddCluster`, or a client is added to a cluster. -/
theorem handler_world {D : Deps} {f : HandlerName} {w w' : World} {h h' : InHandler}
    {draws : List NodeID} (hr : f.handler D w h draws = .ok (w', h')) :
    (∃ fl n, w.reg.idFilter.ids <+: fl.ids ∧ w' = { w.setFilter fl with clients := n }) ∨
    (∃ n rc i err, f = .doCreateMsg ∧ MakesCluster D w h.msgIn draws n rc ∧
      addCluster D ((w.setFilter ⟨w.reg.idFilter.ids ++ [n.value]⟩).alloc rc) (some w.heap.length) =
        .ok (w', i, err)) ∨
    (∃ client p rc, f = .doJoinMsg ∧ FindsCluster D w h client p rc ∧
      w' = w.store p (rc.addMember D client).1) := by
  have hsame : ∃ fl n, w.reg.idFilter.ids <+: fl.ids ∧ w = { w.setFilter fl with clients := n } :=
    ⟨w.reg.idFilter, w.clients, List.prefix_refl _, rfl⟩
  cases handler_effect hr with
  | refused e => exact .inl hsame
  | noNode ha => exact .inl ⟨_, w.clients, clientID_grows ha.id, rfl⟩
  | accepted ha => exact .inl ⟨_, w.clients + 1, clientID_grows ha.id, rfl⟩
  | noCluster hl hn hnew => exact .inl ⟨_, w.clients, List.prefix_append _ _, rfl⟩
  | notAdded hm ha => exact .inr (.inl ⟨_, _, _, _, rfl, hm, ha⟩)
  | created hm ha => exact .inr (.inl ⟨_, _, _, _, rfl, hm, ha⟩)
  | found hl hp => exact .inl hsame
  | notJoined hj ha => exact .inr (.inr ⟨_, _, _, rfl, hj, rfl⟩)
  | joined hj ha => exact .inr (.inr ⟨_, _, _, rfl, hj, rfl⟩)
  | listed s => exact .inl hsame
  | bye => exact .inl hsame

/-- A cluster made under a new ID, before the registry has it. -/
theorem World.grows_make (w : World) (n : NodeID) (rc : RegCluster) :
    w.Grows ((w.setFilter ⟨w.reg.idFilter.ids ++ [n.value]⟩).alloc rc) :=
  (World.grows_setFilter (List.prefix_append _ _)).trans (World.grows_alloc _ rc)

theorem World.make_last (w : World) (f : IdFilter) (rc : RegCluster) :
    ((w.setFilter f).alloc rc).heap[w.heap.length]? = some rc :=
  (w.setFilter f).alloc_last rc

/-- No handler takes anything back. -/
theorem handler_grows {D : Deps} {f : HandlerName} {w w' : World} {h h' : InHandler}
    {draws : List NodeID} (hr : f.handler D w h draws = .ok (w', h')) : w.Grows w' := by
  rcases handler_world hr with ⟨fl, n, hfl, rfl⟩ | ⟨n, rc, i, err, -, -, ha⟩ |
    ⟨client, p, rc, -, hj, rfl⟩
  · have hg := World.grows_setFilter hfl
    exact ⟨hg.regID, hg.ids, hg.clusters, hg.heap⟩
  · exact (w.grows_make n rc).trans (World.grows_addCluster ha)
  · exact World.grows_store hj.cluster (rc.grows_addMember D client)

/-- Every handler keeps the registry's list and indexes in step. -/
theorem handler_consistent {D : Deps}
    (hins : ∀ keys (n : NodeID), n.value ∉ keys → D.insertErr keys n.value = none)
    {f : HandlerName} {w w' : World} {h h' : InHandler} {draws : List NodeID}
    (hw : w.Consistent D) (hr : f.handler D w h draws = .ok (w', h')) : w'.Consistent D := by
  have hg := handler_grows hr
  rcases handler_world hr with ⟨fl, n, -, rfl⟩ | ⟨n, rc, i, err, -, -, ha⟩ |
    ⟨client, p, rc, -, -, rfl⟩
  · exact hw.of_grows hg rfl rfl rfl
  · exact (hw.of_grows (w.grows_make n rc) rfl rfl rfl).addCluster hins ha
  · exact hw.of_grows hg rfl rfl rfl

/-- The state a handler leaves the session in, and the op of its reply, when it has no error. -/
def HandlerName.exit : HandlerName → InState
  | .badCombo => .inClosed
  | .doClientMsg => .clientDetailsRcvd
  | .doCreateMsg => .createRequestRcvd
  | .doJoinMsg => .joinRcvd
  | .doGetMsg => .joinRcvd
  | .doByeMsg => .byeRcvd

def HandlerName.replyOp : HandlerName → Int32
  | .badCombo => Tag.error
  | .doClientMsg => Tag.memberOK
  | .doCreateMsg => Tag.createReply
  | .doJoinMsg => Tag.joinReply
  | .doGetMsg => Tag.clusterMembers
  | .doByeMsg => Tag.ack

/-- A handler comes back with an error, or with its own kind of reply and its own next state. -/
theorem handler_outcome {D : Deps} {f : HandlerName} {w w' : World} {h h' : InHandler}
    {draws : List NodeID} (hr : f.handler D w h draws = .ok (w', h')) :
    (∃ e, h'.errOut = some e) ∨
    (f ≠ .badCombo ∧ h'.errOut = none ∧ h'.exitState = f.exit ∧
      ∃ r, h'.msgOut = some r ∧ r.op = some f.replyOp) := by
  cases handler_effect hr with
  | refused e => exact .inl ⟨e, rfl⟩
  | noNode ha => exact .inl ⟨_, rfl⟩
  | accepted ha => exact .inr ⟨by decide, rfl, rfl, _, rfl, rfl⟩
  | noCluster hl hn hnew => exact .inl ⟨_, rfl⟩
  | notAdded hm ha => exact .inl ⟨_, rfl⟩
  | created hm ha => exact .inr ⟨by decide, rfl, rfl, _, rfl, rfl⟩
  | found hl hp => exact .inr ⟨by decide, rfl, rfl, _, rfl, rfl⟩
  | notJoined hj ha => exact .inl ⟨_, rfl⟩
  | joined hj ha => exact .inr ⟨by decide, rfl, rfl, _, rfl, rfl⟩
  | listed s => exact .inr ⟨by decide, rfl, rfl, _, rfl, rfl⟩
  | bye => exact .inr ⟨by decide, rfl, rfl, _, rfl, rfl⟩

/-! The dispatch table. -/

theorem dispatch_isSome_iff (s : InState) (tag : ℤ) :
    dispatch s tag ≠ none ↔ s.toNat < 4 ∧ MIN_TAG ≤ tag ∧ tag ≤ MAX_TAG := by
  unfold dispatch MIN_TAG MAX_TAG
  by_cases hneg : tag < 0
  · simp only [hneg, if_true]
    refine ⟨fun h => absurd rfl h, fun h => by omega⟩
  · obtain ⟨n, rfl⟩ := Int.eq_ofNat_of_zero_le (by omega : 0 ≤ tag)
    simp only [hneg, if_false, Int.toNat_natCast]
    -- the table has four rows of five entries
    by_cases hn : n < 5
    · interval_cases n <;> cases s <;> simp [msgHandlers, InState.toNat]
    · have hrow : ∀ row ∈ msgHandlers, row[n]? = none := by
        intro row hrow
        have hlen : row.length = 5 := by revert row; decide
        exact List.getElem?_eq_none (by omega)
      cases hr : msgHandlers[s.toNat]? with
      | none => simp; omega
      | some row => simp [hrow row (List.mem_of_getElem? hr)]; omega

theorem open_of_dispatch {s : InState} {tag : ℤ} {f : HandlerName} (h : dispatch s tag = some f) :
    s ≠ .inClosed := by
  intro hcl
  have hin := (dispatch_isSome_iff s tag).1 (by rw [h]; exact Option.some_ne_none f)
  rw [hcl] at hin
  exact absurd hin.1 (by decide)

/-- The pairs of a state and a handler other than `badCombo` in the table. -/
def permitted : List (InState × HandlerName) :=
  [(.helloRcvd, .doClientMsg), (.helloRcvd, .doByeMsg),
   (.clientDetailsRcvd, .doCreateMsg), (.clientDetailsRcvd, .doJoinMsg), (.clientDetailsRcvd, .doByeMsg),
   (.createRequestRcvd, .doJoinMsg), (.createRequestRcvd, .doByeMsg),
   (.joinRcvd, .doGetMsg), (.joinRcvd, .doByeMsg)]

theorem dispatch_permitted {s : InState} {tag : ℤ} {f : HandlerName} (h : dispatch s tag = some f) :
    f = .badCombo ∨ (s, f) ∈ permitted := by
  have hr := (dispatch_isSome_iff s tag).1 (by rw [h]; exact Option.some_ne_none f)
  obtain ⟨hs, h0, h4⟩ := hr
  unfold MIN_TAG at h0
  unfold MAX_TAG at h4
  revert h
  interval_cases tag <;> cases s <;>
    first
    | (simp [InState.toNat] at hs; done)
    | (intro h; cases h; decide)

theorem dispatch_join {s : InState} (h : s = .clientDetailsRcvd ∨ s = .createRequestRcvd) {m : XLRegMsg}
    (hop : m.op = some Tag.join) : dispatch s (op2tag m.getOp) = some .doJoinMsg := by
  rw [XLRegMsg.getOp, hop]
  rcases h with rfl | rfl
  · decide
  · decide

/-! A round. -/

/-- The session after the response part of a round. -/
def afterRound (h : InHandler) : InHandler :=
  { respond h with entryState := (respond h).exitState }

/-- What the loop makes of a handler's result. -/
def closing (r : Except Abort (World × InHandler)) :
    Except Abort (World × InHandler × Option Err × Option XLRegMsg) :=
  r.map fun p => (p.1, afterRound p.2, p.2.errOut, (respond p.2).msgOut)

theorem startIter_outside {D : Deps} {w : World} {h : InHandler} {x : Input}
    (hd : dispatch h.entryState (op2tag x.msg.getOp) = none) :
    startIter D w h x = .error .indexOutOfRange := by
  simp only [startIter]
  split_ifs <;> simp [hd]

/-- Inside the table the tag is in range, so `TagOutOfRange` has not been set. -/
theorem startIter_inside {D : Deps} {w : World} {h : InHandler} {x : Input} {f : HandlerName}
    (hd : dispatch h.entryState (op2tag x.msg.getOp) = some f) :
    startIter D w h x = (closing (f.handler D w { h with msgIn := x.msg } x.draws)).map fun r =>
      (r.1, r.2.1, ⟨h.entryState, x.msg, f, r.2.2.1, r.2.2.2⟩) := by
  have hin : ¬ (op2tag x.msg.getOp < MIN_TAG ∨ op2tag x.msg.getOp > MAX_TAG) := by
    have hr := (dispatch_isSome_iff _ _).1 (by rw [hd]; exact Option.some_ne_none f)
    omega
  simp only [startIter, hin, if_false, hd]
  cases f.handler D w { h with msgIn := x.msg } x.draws <;> rfl

theorem startIter_ok {D : Deps} {w w' : World} {h h' : InHandler} {x : Input} {ex : Exchange}
    (hr : startIter D w h x = .ok (w', h', ex)) :
    ∃ f h₁, dispatch h.entryState (op2tag x.msg.getOp) = some f ∧
      f.handler D w { h with msgIn := x.msg } x.draws = .ok (w', h₁) ∧ h' = afterRound h₁ ∧
      ex = ⟨h.entryState, x.msg, f, h₁.errOut, (respond h₁).msgOut⟩ := by
  cases hd : dispatch h.entryState (op2tag x.msg.getOp) with
  | none => rw [startIter_outside hd] at hr; cases hr
  | some f =>
    rw [startIter_inside hd] at hr
    cases hh : f.handler D w { h with msgIn := x.msg } x.draws with
    | error a => rw [hh] at hr; cases hr
    | ok r =>
      obtain ⟨w1, h1⟩ := r
      rw [hh] at hr
      cases hr
      exact ⟨f, h1, rfl, hh, rfl, rfl⟩

/-- A round that comes back handled the message without an error and moved to the handler's
next state, or answered with an Error message and closed the session. -/
theorem startIter_outcome {D : Deps} {w w' : World} {h h' : InHandler} {x : Input} {ex : Exchange}
    (hr : startIter D w h x = .ok (w', h', ex)) :
    (∃ e, ex.err = some e ∧ ex.reply = some (errorMsg e) ∧ h'.msgOut = ex.reply ∧
      h'.entryState = .inClosed) ∨
    (ex.err = none ∧ (h.entryState, ex.handler) ∈ permitted ∧ h'.entryState = ex.handler.exit ∧
      h'.msgOut = ex.reply ∧ ∃ r, ex.reply = some r ∧ r.op = some ex.handler.replyOp) := by
  obtain ⟨f, h1, hd, hh, rfl, rfl⟩ := startIter_ok hr
  rcases handler_outcome hh with ⟨e, he⟩ | ⟨hf, he, hx, r, hm, hop⟩
  · exact .inl ⟨e, he, by simp [respond, he], rfl, by simp [afterRound, respond, he]⟩
  · refine .inr ⟨he, ?_, by simp [afterRound, respond, he, hx], rfl, r, by simp [respond, he, hm], hop⟩
    exact (dispatch_permitted hd).resolve_left hf

/-- Replies tell which handler they come from. -/
theorem HandlerName.replyOp_inj {f g : HandlerName} (h : f.replyOp = g.replyOp) : f = g := by
  revert h
  cases f <;> cases g <;> decide

theorem respond_reply {h : InHandler} {r : XLRegMsg} (hr : (respond h).msgOut = some r)
    (hop : r.op ≠ some Tag.error) : h.errOut = none ∧ h.msgOut = some r := by
  unfold respond at hr
  rcases he : h.errOut with - | e
  · simp only [he] at hr
    exact ⟨rfl, hr⟩
  · simp only [he] at hr
    cases hr
    exact absurd rfl hop

/-- A round answered with the kind of reply that `g` sends has run `g` without an error. -/
theorem startIter_replied {D : Deps} {w w' : World} {h h' : InHandler} {x : Input} {ex : Exchange}
    {r : XLRegMsg} {g : HandlerName} (hr : startIter D w h x = .ok (w', h', ex))
    (hrep : ex.reply = some r) (hg : g ≠ .badCombo) (hop : r.op = some g.replyOp) :
    ∃ h₁, dispatch h.entryState (op2tag x.msg.getOp) = some g ∧
      g.handler D w { h with msgIn := x.msg } x.draws = .ok (w', h₁) ∧ h₁.errOut = none ∧
      h₁.msgOut = some r ∧ ex.handler = g ∧ ex.msg = x.msg := by
  obtain ⟨f, h₁, hd, hh, -, rfl⟩ := startIter_ok hr
  have hne : r.op ≠ some Tag.error := by
    rw [hop]
    exact fun he => hg (HandlerName.replyOp_inj (g := .badCombo) (Option.some.inj he))
  obtain ⟨he, hm⟩ := respond_reply hrep hne
  rcases handler_outcome hh with ⟨e, he'⟩ | ⟨-, -, -, r', hm', hop'⟩
  · rw [he] at he'
    cases he'
  · rw [hm] at hm'
    cases hm'
    rw [hop] at hop'
    cases HandlerName.replyOp_inj (Option.some.inj hop')
    exact ⟨h₁, hd, hh, he, hm, rfl, rfl⟩

theorem startIter_grows {D : Deps} {w w' : World} {h h' : InHandler} {x : Input} {ex : Exchange}
    (hr : startIter D w h x = .ok (w', h', ex)) : w.Grows w' := by
  obtain ⟨f, h1, -, hh, -, -⟩ := startIter_ok hr
  exact handler_grows hh

/-- Every action of a session is a round of its loop, or nothing once the loop is left. -/
theorem sessionStep_ok {D : Deps} {s s' : Service} {c c' : Session} {x : Input}
    (hr : sessionStep D s c x = .ok (s', c')) :
    (c.h.entryState = .inClosed ∧ s' = s ∧ c' = c) ∨
    (c.h.entryState ≠ .inClosed ∧ ∃ w h ex, startIter D s.world c.h x = .ok (w, h, ex) ∧
      s' = ⟨w, s.log ++ [ex]⟩ ∧ c' = ⟨h, c.exchanges ++ [ex]⟩) := by
  unfold sessionStep at hr
  by_cases hc : c.h.entryState = .inClosed
  · simp only [hc, if_true] at hr
    cases hr
    exact .inl ⟨hc, rfl, rfl⟩
  · simp only [hc, if_false] at hr
    cases hi : startIter D s.world c.h x with
    | error a => simp only [hi] at hr; cases hr
    | ok r =>
      obtain ⟨w, h, ex⟩ := r
      simp only [hi] at hr
      cases hr
      exact .inr ⟨hc, w, h, ex, rfl, rfl, rfl⟩

/-- The exchange a round makes of what its handler came back with. -/
def exchangeOf (h : InHandler) (m : XLRegMsg) (f : HandlerName) (h₁ : InHandler) : Exchange :=
  ⟨h.entryState, m, f, h₁.errOut, (respond h₁).msgOut⟩

theorem sessionStep_handled {D : Deps} {s : Service} {c : Session} {x : Input} {f : HandlerName}
    {w : World} {h₁ : InHandler} (hd : dispatch c.h.entryState (op2tag x.msg.getOp) = some f)
    (hh : f.handler D s.world { c.h with msgIn := x.msg } x.draws = .ok (w, h₁)) :
    sessionStep D s c x = .ok (⟨w, s.log ++ [exchangeOf c.h x.msg f h₁]⟩,
      ⟨afterRound h₁, c.exchanges ++ [exchangeOf c.h x.msg f h₁]⟩) := by
  unfold sessionStep
  rw [if_neg (open_of_dispatch hd), startIter_inside hd, hh]
  rfl

theorem sessionStep_aborted {D : Deps} {s : Service} {c : Session} {x : Input} {f : HandlerName}
    {a : Abort} (hd : dispatch c.h.entryState (op2tag x.msg.getOp) = some f)
    (hh : f.handler D s.world { c.h with msgIn := x.msg } x.draws = .error a) :
    sessionStep D s c x = .error a := by
  unfold sessionStep
  rw [if_neg (open_of_dispatch hd), startIter_inside hd, hh]
  rfl

end XlReg
