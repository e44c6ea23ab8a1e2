import XlReg.Proofs.Replies

/-! The ID filter over a run. An ID is recorded before the request it is for can still fail, and
the filter cannot drop one. So it has every ID that was ever reported, a new ID differs from all
of them, and beside the reported ones it has those of requests that came to nothing. -/

namespace XlReg

def Exchange.Accepts (ex : Exchange) (b : Bytes) : Prop :=
  ∃ r, ex.reply = some r ∧ r.op = some Tag.memberOK ∧ r.memberID = some b

def Exchange.Confirms (ex : Exchange) (b : Bytes) : Prop :=
  ∃ r, ex.reply = some r ∧ r.op = some Tag.createReply ∧ r.clusterID = some b

def Exchange.Reports (ex : Exchange) (b : Bytes) : Prop := ex.Accepts b ∨ ex.Confirms b

/-- The server draws a new ID: for a client that proposes none, or for a new cluster. -/
inductive Generates (D : Deps) (n : NodeID) (w : World) (x : Input) : HandlerName → Prop
  | client {keys : RSAPublicKey × RSAPublicKey}
      (verified : verifySpecs D x.msg.getMemberSpecs = .ok keys)
      (noID : x.msg.getMemberSpecs.id = none) (drawn : Draws D w.reg.idFilter x.draws n) :
      Generates D n w x .doClientMsg
  | cluster (unused : w.reg.clustersByName.lookup x.msg.getClusterName = none)
      (drawn : Draws D w.reg.idFilter x.draws n) : Generates D n w x .doCreateMsg

/-- A new ID is recorded for a request that is then refused: by `NewBaseNode`, by `NewRegCluster`
or by `AddCluster`. -/
inductive Loses (D : Deps) (n : NodeID) (w : World) (x : Input) : HandlerName → Prop
  | client {ck sk : RSAPublicKey} {f : IdFilter} {e : Err}
      (refused : RefusesMember D w x.msg.getMemberSpecs x.draws ck sk f n e)
      (new : w.reg.idFilter.isMember D n.value = .ok false) : Loses D n w x .doClientMsg
  | cluster (unused : w.reg.clustersByName.lookup x.msg.getClusterName = none)
      (drawn : Draws D w.reg.idFilter x.draws n)
      (refused : ∀ rc, newRegCluster D x.msg.getClusterName n 0 (clampSize x.msg.getClusterMaxSize)
        x.msg.getEndPointCount = .ok rc →
        ¬ (w.Admits D rc ∧ D.insertErr w.reg.clustersByID.map.keys rc.id.value = none)) :
      Loses D n w x .doCreateMsg

theorem Generates.drawn {D : Deps} {n : NodeID} {w : World} {x : Input} {f : HandlerName}
    (h : Generates D n w x f) : Draws D w.reg.idFilter x.draws n := by
  rcases h with ⟨-, -, hn⟩ | ⟨-, hn⟩
  · exact hn
  · exact hn

theorem Generates.recorded {D : Deps} {n : NodeID} {w w' : World} {x : Input} {f : HandlerName}
    {h h' : InHandler} (hg : Generates D n w x f) (hm : h.msgIn = x.msg)
    (hr : f.handler D w h x.draws = .ok (w', h')) : n.value ∈ w'.reg.idFilter.ids := by
  rcases hg with ⟨hv, hid, hn⟩ | ⟨hl, hn⟩
  · rw [← hm] at hv hid
    have hc : clientID D w.reg.idFilter h.msgIn.getMemberSpecs.id x.draws =
        .ok (⟨w.reg.idFilter.ids ++ [n.value]⟩, .ok n) := by
      rw [hid]
      exact hn
    rw [doClientMsg_recorded hv hc hr]
    simp
  · rw [← hm] at hl
    rw [doCreateMsg_recorded hl hn hr]
    simp

theorem Loses.recorded {D : Deps} (hf : D.SoundFilter) {n : NodeID} {w w' : World} {x : Input}
    {f : HandlerName} {h h' : InHandler} (hg : Loses D n w x f) (hm : h.msgIn = x.msg)
    (hr : f.handler D w h x.draws = .ok (w', h')) : n.value ∈ w'.reg.idFilter.ids := by
  rcases hg with ⟨ha, hnew⟩ | ⟨hl, hn, -⟩
  · obtain ⟨hv, hid, -⟩ := ha
    rw [← hm] at hv hid
    rw [doClientMsg_recorded hv hid hr]
    obtain ⟨hknown, ⟨-, rfl⟩ | ⟨-, rfl⟩⟩ := clientID_knows hf hid
    · simp
    · rw [hnew] at hknown
      cases hknown
  · rw [← hm] at hl
    rw [doCreateMsg_recorded hl hn hr]
    simp

theorem startIter_reports {D : Deps} (hf : D.SoundFilter) {w w' : World} {h h' : InHandler} {x : Input}
    {ex : Exchange} {b : Bytes} (hw : w.Registered) (hr : startIter D w h x = .ok (w', h', ex))
    (hb : ex.Reports b) :
    (∃ n : NodeID, n.value = b) ∧ w'.reg.idFilter.isMember D b = .ok true := by
  rcases hb with ⟨r, hrep, hop, hid⟩ | ⟨r, hrep, hop, hid⟩
  · obtain ⟨h₁, -, hrun, hok, hm, -, -⟩ :=
      startIter_replied (g := .doClientMsg) hr hrep (by decide) hop
    rcases doClientMsg_ok hrun with ⟨f, e, -, -, rfl⟩ | ⟨ck, sk, f, n, ha, rfl, rfl⟩
    · cases hok
    · cases hm
      cases hid
      exact ⟨⟨n, rfl⟩, (clientID_knows hf ha.id).1⟩
  · obtain ⟨h₁, -, hrun, hok, hm, -, -⟩ :=
      startIter_replied (g := .doCreateMsg) hr hrep (by decide) hop
    rcases doCreateMsg_ok hrun with ⟨-, hrun⟩ | ⟨p, rc, -, hp, rfl, rfl⟩
    · obtain ⟨n, rc, -, -, hids, -, -, -, rfl⟩ := createNew_replied hrun hok
      cases hm
      cases hid
      refine ⟨⟨n, rfl⟩, (IdFilter.knows_iff hf).2 (.inl ?_)⟩
      rw [hids]
      simp
    · cases hm
      cases hid
      exact ⟨⟨rc.id, rfl⟩, (IdFilter.knows_iff hf).2 (.inl (hw.known rc (List.mem_of_getElem? hp)))⟩

/-- What holds of the filter after the events `evs`: it has the registry's ID, the IDs reported
and those generated. -/
structure Recorded (D : Deps) (regID : NodeID) (evs : List ServerEvent) (s : Service) : Prop where
  registered : s.world.Registered
  own : s.world.reg.regID = regID
  reported : ∀ ex ∈ s.log, ∀ b, ex.Reports b →
    (∃ n : NodeID, n.value = b) ∧ s.world.reg.idFilter.isMember D b = .ok true
  generated : ∀ n, Run.Once (server D).next (Handles (Generates D n)) (ServerState.init regID) evs →
    n.value ∈ s.world.reg.idFilter.ids

theorem serve_recorded {D : Deps} (hf : D.SoundFilter) {regID : NodeID} {evs : List ServerEvent}
    {s : ServerState} (h : serve D regID evs = .ok s) : Recorded D regID evs s.shared := by
  refine Run.run_history (I := fun evs s => Recorded D regID evs s.shared) ?_ (fun pre s₁ e s₂ hr hI hn => ?_) h
  · refine ⟨World.init_registered regID, rfl, ?_, fun n hn => absurd hn Run.once_nil⟩
    intro ex hex
    cases hex
  · rcases server_next_cases hn with ⟨hsame, hnone⟩ | ⟨c, x, w, g, ex, hi, hs, hiff⟩
    · rw [hsame]
      refine ⟨hI.registered, hI.own, hI.reported, fun n hn => ?_⟩
      exact hI.generated n (((Run.once_snoc hr).1 hn).resolve_right (hnone _))
    · have hg := startIter_grows hi
      obtain ⟨f, g₁, hd, hh, -, -⟩ := startIter_ok hi
      rw [hs]
      refine ⟨handler_registered hI.registered hh, hg.regID.trans hI.own, ?_, ?_⟩
      · intro ex' hex' b hb
        rcases List.mem_append.1 hex' with hold | hlast
        · obtain ⟨hnode, hknown⟩ := hI.reported ex' hold b hb
          exact ⟨hnode, IdFilter.knows_of_prefix hf hg.ids hknown⟩
        · rw [List.mem_singleton.1 hlast] at hb
          exact startIter_reports hf hI.registered hi hb
      · intro n hn
        rcases (Run.once_snoc hr).1 hn with hold | hnow
        · exact hg.ids.subset (hI.generated n hold)
        · obtain ⟨f', hd', hgen⟩ := (hiff _).1 hnow
          rw [hd] at hd'
          cases hd'
          exact hgen.recorded (h := { c.h with msgIn := x.msg }) rfl hh

/-- The registry's ID and every ID reported are known for the rest of the run; and an ID that is
generated next is none of them, nor one that was generated before. -/
theorem serve_ids_fresh {D : Deps} (hf : D.SoundFilter) {regID : NodeID} {evs evs' : List ServerEvent}
    {s s' : ServerState} (h : serve D regID evs = .ok s) (h' : Run.run (server D).next s evs' = .ok s') :
    containsID D s'.shared.world.reg.idFilter regID = .ok true ∧
    (∀ ex ∈ s.shared.log, ∀ b, ex.Reports b →
      ∃ n : NodeID, n.value = b ∧ containsID D s'.shared.world.reg.idFilter n = .ok true) ∧
    (∀ e n, Handles (Generates D n) s e → n ≠ regID ∧ (∀ ex ∈ s.shared.log, ¬ ex.Reports n.value) ∧
      ¬ Run.Once (server D).next (Handles (Generates D n)) (ServerState.init regID) evs) := by
  have hI := serve_recorded hf h
  have hgrows := (server_run_grows h').1.ids
  have hown : s.shared.world.reg.idFilter.isMember D regID.value = .ok true := by
    rw [← hI.own]
    exact (IdFilter.knows_iff hf).2 (.inl hI.registered.own)
  refine ⟨IdFilter.knows_of_prefix hf hgrows hown, fun ex hex b hb => ?_, fun e n hgen => ?_⟩
  · obtain ⟨⟨n, rfl⟩, hknown⟩ := hI.reported ex hex b hb
    exact ⟨n, rfl, IdFilter.knows_of_prefix hf hgrows hknown⟩
  · -- the ID was drawn while the filter did not claim to have it
    have hnew : s.shared.world.reg.idFilter.isMember D n.value = .ok false := by
      rcases e with u | ⟨i, x⟩
      · exact absurd hgen id
      · obtain ⟨c, -, f, -, hg⟩ := hgen
        exact hg.drawn.fresh
    refine ⟨?_, fun ex hex hb => ?_, fun honce => ?_⟩
    · rintro rfl
      rw [hnew] at hown
      cases hown
    · have hknown := (hI.reported ex hex n.value hb).2
      rw [hnew] at hknown
      cases hknown
    · exact IdFilter.not_mem hnew (hI.generated n honce)

theorem serve_ids_fresh_sample :
    ∃ (s : ServerState) (ex : Exchange), serve .plain (.rep 9) Sample.twoClients = .ok s ∧
      ex ∈ s.shared.log ∧ ex.Reports (NodeID.rep 1).value ∧
      Handles (Generates .plain (.rep 5)) s (.act 0 ⟨Sample.create "xy" 2, [.rep 1, .rep 5]⟩) ∧
      containsID .plain s.shared.world.reg.idFilter (.rep 1) = .ok true ∧ NodeID.rep 5 ≠ .rep 9 ∧
      ¬ ex.Reports (NodeID.rep 5).value := by
  obtain ⟨s, hr, hp⟩ := Run.exists_of_ends (server .plain).next (ServerState.init (.rep 9))
    Sample.twoClients (fun s => s.parties[0]?.any fun (c : Session) => s.shared.log[0]?.any fun (ex : Exchange) =>
      decide (c.h.entryState = .clientDetailsRcvd ∧ ex.reply = some (memberOK (.rep 1) 0) ∧
        s.shared.world.reg.clustersByName.lookup "xy" = none ∧
        s.shared.world.reg.idFilter = ⟨[(NodeID.rep 9).value, (NodeID.rep 1).value, (NodeID.rep 2).value]⟩))
    (by decide)
  obtain ⟨c, hc, hp⟩ := (Option.any_eq_true _ _).1 hp
  obtain ⟨ex, hex, hp⟩ := (Option.any_eq_true _ _).1 hp
  obtain ⟨hst, hrep, hname, hfilter⟩ := of_decide_eq_true hp
  have hmem := List.mem_of_getElem? hex
  have hreports : ex.Reports (NodeID.rep 1).value := .inl ⟨_, hrep, rfl, rfl⟩
  have hgen : Handles (Generates .plain (.rep 5)) s (.act 0 ⟨Sample.create "xy" 2, [.rep 1, .rep 5]⟩) := by
    refine ⟨c, hc, .doCreateMsg, by rw [hst]; decide, .cluster hname ?_⟩
    unfold Draws
    rw [hfilter]
    rfl
  have hnil : Run.run (server .plain).next s [] = .ok s := rfl
  obtain ⟨-, hknown, hfresh⟩ := serve_ids_fresh plain_exactFilter.sound hr hnil
  obtain ⟨n, hn, hcontains⟩ := hknown ex hmem _ hreports
  rw [NodeID.value_inj.1 hn] at hcontains
  obtain ⟨hne, hnot, -⟩ := hfresh _ _ hgen
  exact ⟨s, ex, hr, hmem, hreports, hgen, hcontains, hne, hnot ex hmem⟩

/-! What the filter has beside the IDs reported. -/

/-- A message that makes the filter record `b` and is then answered with an Error. -/
def LosesID (D : Deps) (b : Bytes) : ServerState → ServerEvent → Prop :=
  Handles fun w x f => ∃ n : NodeID, n.value = b ∧ Loses D n w x f

theorem addCluster_refused {D : Deps} {w w' : World} {rc : RegCluster} {i : ℤ} {e : Err}
    {p : Ptr} (hp : w.heap[p]? = some rc) (ha : addCluster D w (some p) = .ok (w', i, some e)) :
    ¬ (w.Admits D rc ∧ D.insertErr w.reg.clustersByID.map.keys rc.id.value = none) := by
  rintro ⟨hadm, hins⟩
  rw [addCluster_of_admits hp hadm, hins] at ha
  cases ha

/-- A handler that changes the filter records one new ID in it, which it reports or loses. -/
theorem handler_filter {D : Deps} {f : HandlerName} {w w' : World} {h h' : InHandler}
    {x : Input} (hm : h.msgIn = x.msg) (hr : f.handler D w h x.draws = .ok (w', h')) :
    w'.reg.idFilter = w.reg.idFilter ∨
    ∃ n : NodeID, w.reg.idFilter.isMember D n.value = .ok false ∧
      w'.reg.idFilter = ⟨w.reg.idFilter.ids ++ [n.value]⟩ ∧
      ((h'.errOut = none ∧ ∃ r, h'.msgOut = some r ∧
          ((r.op = some Tag.memberOK ∧ r.memberID = some n.value) ∨
           (r.op = some Tag.createReply ∧ r.clusterID = some n.value))) ∨
       (h'.errOut ≠ none ∧ Loses D n w x f)) := by
  cases handler_effect hr with
  | refused e => exact .inl rfl
  | noNode ha =>
    rw [hm] at ha
    rcases clientID_ok ha.id with ⟨-, e, he⟩ | ⟨n, hn, hnew, rfl⟩ | ⟨n, -, -, rfl, -⟩
    · cases he
    · cases hn
      exact .inr ⟨_, hnew, rfl, .inr ⟨Option.some_ne_none _, .client ha hnew⟩⟩
    · exact .inl rfl
  | accepted ha =>
    rcases clientID_ok ha.id with ⟨-, e, he⟩ | ⟨n, hn, hnew, rfl⟩ | ⟨n, -, -, rfl, -⟩
    · cases he
    · cases hn
      exact .inr ⟨_, hnew, rfl, .inl ⟨rfl, _, rfl, .inl ⟨rfl, rfl⟩⟩⟩
    · exact .inl rfl
  | noCluster hl hn hnew =>
    rw [hm] at hl hnew
    refine .inr ⟨_, hn.fresh, rfl, .inr ⟨Option.some_ne_none _, .cluster hl hn fun rc hrc => ?_⟩⟩
    rw [hnew] at hrc
    cases hrc
  | notAdded hmk ha =>
    rw [hm] at hmk
    refine .inr ⟨_, hmk.drawn.fresh, addCluster_filter ha, .inr ⟨Option.some_ne_none _,
      .cluster hmk.unused hmk.drawn fun rc' hrc' hadm => ?_⟩⟩
    rw [hmk.made] at hrc'
    cases hrc'
    exact addCluster_refused (w.make_last _ _) ha
      ⟨⟨hadm.1.key, hadm.1.name, hadm.1.id⟩, hadm.2⟩
  | created hmk ha =>
    exact .inr ⟨_, hmk.drawn.fresh, addCluster_filter ha, .inl ⟨rfl, _, rfl, .inr ⟨rfl, rfl⟩⟩⟩
  | found hl hp => exact .inl rfl
  | notJoined hj ha => exact .inl rfl
  | joined hj ha => exact .inl rfl
  | listed s => exact .inl rfl
  | bye => exact .inl rfl

theorem startIter_filter {D : Deps} {w w' : World} {h h' : InHandler} {x : Input} {ex : Exchange}
    (hr : startIter D w h x = .ok (w', h', ex)) :
    w'.reg.idFilter = w.reg.idFilter ∨
    ∃ n : NodeID, w.reg.idFilter.isMember D n.value = .ok false ∧
      w'.reg.idFilter = ⟨w.reg.idFilter.ids ++ [n.value]⟩ ∧
      ((ex.err = none ∧ ex.Reports n.value) ∨
       (ex.err ≠ none ∧ ∃ f, dispatch h.entryState (op2tag x.msg.getOp) = some f ∧ Loses D n w x f)) := by
  obtain ⟨f, h₁, hd, hh, -, rfl⟩ := startIter_ok hr
  rcases handler_filter (h := { h with msgIn := x.msg }) rfl hh with hsame | ⟨n, hnew, hids, hout⟩
  · exact .inl hsame
  · refine .inr ⟨n, hnew, hids, ?_⟩
    rcases hout with ⟨hok, r, hm, hrep⟩ | ⟨herr, hl⟩
    · have hreply : (respond h₁).msgOut = some r := by simp [respond, hok, hm]
      refine .inl ⟨hok, ?_⟩
      rcases hrep with ⟨hop, hid⟩ | ⟨hop, hid⟩
      · exact .inl ⟨r, hreply, hop, hid⟩
      · exact .inr ⟨r, hreply, hop, hid⟩
    · exact .inr ⟨herr, f, hd, hl⟩

/-- Why an ID is in the filter: it is the registry's, it was reported, or it was lost. -/
def Explained (D : Deps) (regID : NodeID) (evs : List ServerEvent) (log : List Exchange) (b : Bytes) : Prop :=
  b = regID.value ∨ (∃ ex ∈ log, ex.Reports b) ∨
    Run.Once (server D).next (LosesID D b) (ServerState.init regID) evs

/-- The filter has nothing without such a reason, nothing twice, and the IDs lost. -/
structure Accounted (D : Deps) (regID : NodeID) (evs : List ServerEvent) (s : Service) : Prop where
  nodup : s.world.reg.idFilter.ids.Nodup
  explained : ∀ b ∈ s.world.reg.idFilter.ids, Explained D regID evs s.log b
  lost : ∀ b, Run.Once (server D).next (LosesID D b) (ServerState.init regID) evs →
    b ∈ s.world.reg.idFilter.ids

section Next

variable {D : Deps} {regID : NodeID} {pre : List ServerEvent} {e : ServerEvent} {s₁ : ServerState}
  (hr : Run.run (server D).next (ServerState.init regID) pre = .ok s₁)
include hr

theorem Explained.mono {log log' : List Exchange} {b : Bytes} (h : Explained D regID pre log b)
    (hlog : log <+: log') : Explained D regID (pre ++ [e]) log' b := by
  rcases h with hown | ⟨ex, hex, hrep⟩ | hlost
  · exact .inl hown
  · exact .inr (.inl ⟨ex, hlog.subset hex, hrep⟩)
  · exact .inr (.inr ((Run.once_snoc hr).2 (.inl hlost)))

theorem Accounted.quiet (h : Accounted D regID pre s₁.shared) (hnone : ∀ Q, ¬ Handles Q s₁ e) :
    Accounted D regID (pre ++ [e]) s₁.shared := by
  refine ⟨h.nodup, fun b hb => (h.explained b hb).mono hr (List.prefix_refl _), fun b hb => ?_⟩
  rcases (Run.once_snoc hr).1 hb with hbefore | hnow
  · exact h.lost b hbefore
  · exact absurd hnow (hnone _)

/-- After a round: the ID it may have recorded has a reason, and an ID it lost is recorded. -/
theorem Accounted.round (hf : D.SoundFilter) (h : Accounted D regID pre s₁.shared) {c : Session}
    {x : Input} {w : World} {g : InHandler} {ex : Exchange}
    (hi : startIter D s₁.shared.world c.h x = .ok (w, g, ex))
    (hiff : ∀ Q, Handles Q s₁ e ↔
      ∃ f, dispatch c.h.entryState (op2tag x.msg.getOp) = some f ∧ Q s₁.shared.world x f) :
    Accounted D regID (pre ++ [e]) ⟨w, s₁.shared.log ++ [ex]⟩ := by
  have hold : ∀ b ∈ s₁.shared.world.reg.idFilter.ids,
      Explained D regID (pre ++ [e]) (s₁.shared.log ++ [ex]) b :=
    fun b hb => (h.explained b hb).mono hr (List.prefix_append _ _)
  have hlost : ∀ b, Run.Once (server D).next (LosesID D b) (ServerState.init regID) (pre ++ [e]) →
      b ∈ w.reg.idFilter.ids := by
    intro b hb
    rcases (Run.once_snoc hr).1 hb with hbefore | hnow
    · exact (startIter_grows hi).ids.subset (h.lost b hbefore)
    · obtain ⟨f, hd, n, rfl, hl⟩ := (hiff _).1 hnow
      obtain ⟨f', g₁, hd', hh, -, -⟩ := startIter_ok hi
      rw [hd] at hd'
      cases hd'
      exact hl.recorded hf (h := { c.h with msgIn := x.msg }) rfl hh
  rcases startIter_filter hi with hsame | ⟨n, hnew, hids, hout⟩
  · refine ⟨?_, ?_, hlost⟩
    · rw [hsame]
      exact h.nodup
    · rw [hsame]
      exact hold
  · refine ⟨?_, ?_, hlost⟩
    · rw [hids]
      apply List.nodup_append.2 ⟨h.nodup, List.nodup_singleton _, ?_⟩
      intro a ha b hb hab
      rw [hab, List.mem_singleton.1 hb] at ha
      exact IdFilter.not_mem hnew ha
    · intro b hb
      rw [hids] at hb
      rcases List.mem_append.1 hb with hb | hb
      · exact hold b hb
      · rw [List.mem_singleton.1 hb]
        rcases hout with ⟨-, hrep⟩ | ⟨-, f, hd, hl⟩
        · exact .inr (.inl ⟨ex, by simp, hrep⟩)
        · exact .inr (.inr ((Run.once_snoc hr).2 (.inr ((hiff _).2 ⟨f, hd, n, rfl, hl⟩))))

end Next

theorem serve_accounted {D : Deps} (hf : D.SoundFilter) {regID : NodeID} {evs : List ServerEvent}
    {s : ServerState} (h : serve D regID evs = .ok s) : Accounted D regID evs s.shared := by
  refine Run.run_history (I := fun evs s => Accounted D regID evs s.shared) ?_
    (fun pre s₁ e s₂ hr hI hn => ?_) h
  · refine ⟨List.nodup_singleton _, fun b hb => .inl (List.mem_singleton.1 hb), ?_⟩
    exact fun b hb => absurd hb Run.once_nil
  · rcases server_next_cases hn with ⟨hsame, hnone⟩ | ⟨c, x, w, g, ex, hi, hs, hiff⟩
    · rw [hsame]
      exact hI.quiet hr hnone
    · rw [hs]
      exact hI.round hr hf hi hiff

theorem mem_ids_iff_explained {D : Deps} (hf : D.ExactFilter) {regID : NodeID} {evs : List ServerEvent}
    {s : ServerState} (h : serve D regID evs = .ok s) (b : Bytes) :
    b ∈ s.shared.world.reg.idFilter.ids ↔ Explained D regID evs s.shared.log b := by
  have hacc := serve_accounted hf.sound h
  have hrec := serve_recorded hf.sound h
  refine ⟨hacc.explained b, ?_⟩
  rintro (rfl | ⟨ex, hex, hrep⟩ | hlost)
  · rw [← hrec.own]
    exact hrec.registered.own
  · have hknown := (hrec.reported ex hex b hrep).2
    rw [IdFilter.isMember_exact hf] at hknown
    simpa using hknown
  · exact hacc.lost b hlost

theorem World.Registered.nodup_clusterIDs {w : World} (hw : w.Registered) :
    (w.reg.clusters.map w.idAt).Nodup := by
  apply List.Nodup.map_on ?_ hw.byName.nodup.of_map
  intro p hp q hq hid
  have hplt := hw.valid p hp
  have hqlt := hw.valid q hq
  rw [World.idAt_eq (List.getElem?_eq_getElem hplt), World.idAt_eq (List.getElem?_eq_getElem hqlt)] at hid
  have hinj := List.nodup_iff_injective_get.1 hw.distinct.of_cons
  have hfin := @hinj ⟨p, by simpa using hplt⟩ ⟨q, by simpa using hqlt⟩
    (by simpa using NodeID.value_inj.1 hid)
  exact congrArg Fin.val hfin

theorem ncard_mem {α : Type} [DecidableEq α] {l : List α} (h : l.Nodup) : {b | b ∈ l}.ncard = l.length := by
  rw [← List.toFinset_card_of_nodup h, ← Set.ncard_coe_finset]
  congr 1
  ext b
  simp

section Count

variable {D : Deps} {regID : NodeID} {evs : List ServerEvent} {s : ServerState}
  (hf : D.ExactFilter) (h : serve D regID evs = .ok s)
  (hnone : ∀ b, ¬ Run.Once (server D).next (LosesID D b) (ServerState.init regID) evs)
include hf h hnone

/-- Without lost IDs, the filter has the registry's, the accepted clients' and the clusters'. -/
theorem mem_ids_iff_of_none_lost (b : Bytes) :
    b ∈ s.shared.world.reg.idFilter.ids ↔ b = regID.value ∨ (∃ ex ∈ s.shared.log, ex.Accepts b) ∨
      b ∈ s.shared.world.reg.clusters.map s.shared.world.idAt := by
  obtain ⟨hw, hagree⟩ := serve_agrees h
  constructor
  · intro hb
    rcases (mem_ids_iff_explained hf h b).1 hb with hreg | ⟨ex, hex, hacc | hconf⟩ | hlost
    · exact .inl hreg
    · exact .inr (.inl ⟨ex, hex, hacc⟩)
    · obtain ⟨r, hrep, hop, hid⟩ := hconf
      obtain ⟨rc, hs, -⟩ := hagree ex hex r ⟨hrep, .inl hop⟩
      obtain ⟨p, hp, hrc⟩ := hs.listed
      rw [hs.id] at hid
      exact .inr (.inr (List.mem_map.2 ⟨p, hp, (World.idAt_eq hrc).trans (Option.some.inj hid)⟩))
    · exact absurd hlost (hnone b)
  · rintro (rfl | ⟨ex, hex, hacc⟩ | hb)
    · exact (mem_ids_iff_explained hf h _).2 (.inl rfl)
    · exact (mem_ids_iff_explained hf h b).2 (.inr (.inl ⟨ex, hex, .inl hacc⟩))
    · obtain ⟨p, hp, rfl⟩ := List.mem_map.1 hb
      have hlt := hw.valid p hp
      rw [World.idAt_eq (List.getElem?_eq_getElem hlt)]
      exact hw.known _ (List.getElem_mem hlt)

/-- If moreover no client was accepted under the ID of the registry or of a cluster, the three
kinds of IDs are counted apart. -/
theorem idCount_eq
    (hown : ∀ ex ∈ s.shared.log, ∀ b, ex.Accepts b → b ≠ regID.value ∧
      b ∉ s.shared.world.reg.clusters.map s.shared.world.idAt) :
    s.shared.world.reg.idCount =
      1 + {b | ∃ ex ∈ s.shared.log, ex.Accepts b}.ncard + s.shared.world.reg.clusters.length := by
  obtain ⟨hw, -⟩ := serve_agrees h
  set ids := s.shared.world.reg.idFilter.ids with hids
  set clients : Set Bytes := {b | ∃ ex ∈ s.shared.log, ex.Accepts b} with hclients
  set clusters := s.shared.world.reg.clusters.map s.shared.world.idAt with hclusters
  have hmem := mem_ids_iff_of_none_lost hf h hnone
  have hsplit : {b | b ∈ ids} = {regID.value} ∪ (clients ∪ {b | b ∈ clusters}) := by
    ext b
    exact hmem b
  have hfinite : {b | b ∈ ids}.Finite := List.finite_toSet ids
  have hclientsFinite : clients.Finite := hfinite.subset fun b hb => (hmem b).2 (.inr (.inl hb))
  have hreg : Disjoint {regID.value} (clients ∪ {b | b ∈ clusters}) := by
    rw [Set.disjoint_singleton_left]
    rintro (⟨ex, hex, hacc⟩ | hb)
    · exact (hown ex hex _ hacc).1 rfl
    · obtain ⟨p, hp, hid⟩ := List.mem_map.1 hb
      have hlt := hw.valid p hp
      rw [World.idAt_eq (List.getElem?_eq_getElem hlt), ← (serve_recorded hf.sound h).own] at hid
      exact hw.id_ne (List.getElem_mem hlt) (NodeID.value_inj.1 hid)
  have hapart : Disjoint clients {b | b ∈ clusters} := by
    rw [Set.disjoint_left]
    rintro b ⟨ex, hex, hacc⟩ hb
    exact (hown ex hex b hacc).2 hb
  calc s.shared.world.reg.idCount
      = {b | b ∈ ids}.ncard := (ncard_mem (serve_accounted hf.sound h).nodup).symm
    _ = 1 + (clients ∪ {b | b ∈ clusters}).ncard := by
        rw [hsplit, Set.ncard_union_eq hreg (Set.finite_singleton _)
          (hclientsFinite.union (List.finite_toSet clusters)), Set.ncard_singleton]
    _ = 1 + clients.ncard + s.shared.world.reg.clusters.length := by
        rw [Set.ncard_union_eq hapart hclientsFinite (List.finite_toSet clusters),
          ncard_mem hw.nodup_clusterIDs, List.length_map, Nat.add_assoc]

end Count

/-- With an exact filter, in every state of every run: the IDs in it are the registry's, those
reported by MemberOK and CreateReply, and those lost to requests that were refused after their ID
was recorded; the count is their number. Without lost IDs, and with no client under the ID of the
registry or of a cluster, it is 1 and the accepted client IDs and the clusters. A round records at
most one ID, and if it is answered with an Error then only by losing it. -/
theorem serve_ids_accounted {D : Deps} (hf : D.ExactFilter) {regID : NodeID}
    {evs : List ServerEvent} {s : ServerState} (h : serve D regID evs = .ok s) :
    (∀ b, b ∈ s.shared.world.reg.idFilter.ids ↔ b = regID.value ∨
      (∃ ex ∈ s.shared.log, ex.Reports b) ∨
      Run.Once (server D).next (LosesID D b) (ServerState.init regID) evs) ∧
    s.shared.world.reg.idCount = {b | b ∈ s.shared.world.reg.idFilter.ids}.ncard ∧
    ((∀ b, ¬ Run.Once (server D).next (LosesID D b) (ServerState.init regID) evs) →
      (∀ ex ∈ s.shared.log, ∀ b, ex.Accepts b → b ≠ regID.value ∧
        b ∉ s.shared.world.reg.clusters.map s.shared.world.idAt) →
      s.shared.world.reg.idCount =
        1 + {b | ∃ ex ∈ s.shared.log, ex.Accepts b}.ncard + s.shared.world.reg.clusters.length) ∧
    (∀ e s', (server D).next s e = .ok s' →
      s'.shared.world.reg.idFilter = s.shared.world.reg.idFilter ∨
      ∃ b ex, s'.shared.world.reg.idFilter.ids = s.shared.world.reg.idFilter.ids ++ [b] ∧
        s'.shared.log = s.shared.log ++ [ex] ∧
        ((ex.err = none ∧ ex.Reports b) ∨ (ex.err ≠ none ∧ LosesID D b s e))) := by
  refine ⟨mem_ids_iff_explained hf h, (ncard_mem (serve_accounted hf.sound h).nodup).symm,
    idCount_eq hf h, fun e s' hn => ?_⟩
  rcases server_next_cases hn with ⟨hsame, -⟩ | ⟨c, x, w, g, ex, hi, hs, hiff⟩
  · exact .inl (by rw [hsame])
  · rw [hs]
    rcases startIter_filter hi with hsame | ⟨n, -, hids, hout⟩
    · exact .inl hsame
    · refine .inr ⟨n.value, ex, by rw [hids], rfl, ?_⟩
      rcases hout with hrep | ⟨herr, f, hd, hl⟩
      · exact .inl hrep
      · exact .inr ⟨herr, (hiff _).2 ⟨f, hd, n, rfl, hl⟩⟩

theorem serve_ids_accounted_sample :
    ∃ s : ServerState, serve .plain (.rep 9) Sample.createAndJoin = .ok s ∧
      (NodeID.rep 5).value ∈ s.shared.world.reg.idFilter.ids ∧
      (NodeID.rep 6).value ∉ s.shared.world.reg.idFilter.ids ∧
      ¬ Run.Once (server .plain).next (LosesID .plain (NodeID.rep 6).value)
        (ServerState.init (.rep 9)) Sample.createAndJoin := by
  obtain ⟨s, hr, hp⟩ := Run.exists_of_ends (server .plain).next (ServerState.init (.rep 9))
    Sample.createAndJoin (fun s => decide ((NodeID.rep 5).value ∈ s.shared.world.reg.idFilter.ids ∧
      (NodeID.rep 6).value ∉ s.shared.world.reg.idFilter.ids)) (by decide)
  obtain ⟨hin, hout⟩ := of_decide_eq_true hp
  refine ⟨s, hr, hin, hout, fun hlost => hout ?_⟩
  exact ((serve_ids_accounted plain_exactFilter hr).1 _).2 (.inr (.inr hlost))

/-- Two Creates without a name: the second is refused, and the filter has the ID drawn for it. -/
theorem serve_ids_lost :
    ∃ s : ServerState, serve .plain (.rep 9) (Sample.createTwice (Sample.create "" 2)) = .ok s ∧
      s.shared.log.map (·.reply) = [some (memberOK (.rep 1) 0), some (memberOK (.rep 2) 0),
        some (createReply (.rep 5) 2 0 1), some (errorMsg .nameAlreadyInUse)] ∧
      s.shared.world.reg.clusters.length = 1 ∧ s.shared.world.reg.idCount = 5 ∧
      (NodeID.rep 6).value ∈ s.shared.world.reg.idFilter.ids ∧
      ∀ ex ∈ s.shared.log, ¬ ex.Reports (NodeID.rep 6).value := by
  obtain ⟨s, hr, hp⟩ := Run.exists_of_ends (server .plain).next (ServerState.init (.rep 9))
    (Sample.createTwice (Sample.create "" 2)) (fun s => decide (
      s.shared.log.map (·.reply) = [some (memberOK (.rep 1) 0), some (memberOK (.rep 2) 0),
        some (createReply (.rep 5) 2 0 1), some (errorMsg .nameAlreadyInUse)] ∧
      s.shared.world.reg.clusters.length = 1 ∧ s.shared.world.reg.idCount = 5 ∧
      (NodeID.rep 6).value ∈ s.shared.world.reg.idFilter.ids)) (by decide)
  obtain ⟨hlog, hlen, hcount, hmem⟩ := of_decide_eq_true hp
  refine ⟨s, hr, hlog, hlen, hcount, hmem, fun ex hex hrep => ?_⟩
  have hin : ex.reply ∈ s.shared.log.map (·.reply) := List.mem_map_of_mem hex
  have hno : ∀ r ∈ s.shared.log.map (·.reply), ∀ m ∈ r,
      m.memberID ≠ some (NodeID.rep 6).value ∧ m.clusterID ≠ some (NodeID.rep 6).value := by
    rw [hlog]
    decide
  rcases hrep with ⟨r, hr, -, hid⟩ | ⟨r, hr, -, hid⟩
  · exact (hno _ hin r hr).1 hid
  · exact (hno _ hin r hr).2 hid

end XlReg
