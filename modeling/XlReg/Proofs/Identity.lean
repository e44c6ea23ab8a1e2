import XlReg.Sanity.Plain
import XlReg.Sanity.Sessions

/-! Node IDs as identities. IDs that the registry draws are new to its filter, so nobody else
holds them. An ID that a client proposes is accepted whether the filter knows it or not, and the
filter does not say whose it is: IDs identify their holders exactly as long as no client proposes
the registry's ID, a cluster's, or that of a client with another signature key. -/

namespace XlReg

/-- The exchange answered a Member message signed with `sk` with MemberOK for the ID `n`. -/
structure Exchange.Admits (D : Deps) (ex : Exchange) (n : NodeID) (sk : RSAPublicKey) : Prop where
  signed : ∃ ck, verifySpecs D ex.msg.getMemberSpecs = .ok (ck, sk)
  answered : ∃ r, ex.reply = some r ∧ r.op = some Tag.memberOK ∧ r.memberID = some n.value

/-- Clients accepted under one ID signed with one key, and none was accepted under the
registry's ID or a cluster's. -/
structure Service.IDsIdentify (D : Deps) (s : Service) : Prop where
  holder : ∀ ex₁ ∈ s.log, ∀ ex₂ ∈ s.log, ∀ n sk₁ sk₂, ex₁.Admits D n sk₁ → ex₂.Admits D n sk₂ →
    sk₁ = sk₂
  registry : ∀ ex ∈ s.log, ∀ n sk, ex.Admits D n sk → n ≠ s.world.reg.regID
  clusters : ∀ ex ∈ s.log, ∀ n sk, ex.Admits D n sk → ∀ rc ∈ s.world.heap, rc.id ≠ n

structure Service.IDsKnown (D : Deps) (s : Service) : Prop where
  registry : s.world.reg.regID.value ∈ s.world.reg.idFilter.ids
  clusters : ∀ rc ∈ s.world.heap, rc.id.value ∈ s.world.reg.idFilter.ids
  clients : ∀ ex ∈ s.log, ∀ n sk, ex.Admits D n sk → n.value ∈ s.world.reg.idFilter.ids

/-- A Member message signed with `sk` proposes the ID `n`, and is otherwise in order. -/
structure Proposes (D : Deps) (c : Session) (x : Input) (n : NodeID) (sk : RSAPublicKey) : Prop where
  handler : dispatch c.h.entryState (op2tag x.msg.getOp) = some .doClientMsg
  id : x.msg.getMemberSpecs.id = some n.value
  keys : ∃ ck, verifySpecs D x.msg.getMemberSpecs = .ok (ck, sk) ∧
    D.newBaseNode x.msg.getMemberSpecs.getName n ck sk = none

/-- A proposed ID is not the registry's, no cluster's, and no client's with another key. -/
def OwnOrUnused (D : Deps) (s : Service) (c : Session) (x : Input) : Prop :=
  ∀ n sk, Proposes D c x n sk → n ≠ s.world.reg.regID ∧ (∀ rc ∈ s.world.heap, rc.id ≠ n) ∧
    ∀ ex ∈ s.log, ∀ sk', ex.Admits D n sk' → sk' = sk

theorem startIter_admits {D : Deps} {w w' : World} {h h' : InHandler} {x : Input} {ex : Exchange}
    {n : NodeID} {sk : RSAPublicKey} (hr : startIter D w h x = .ok (w', h', ex))
    (ha : ex.Admits D n sk) :
    ∃ ck f, dispatch h.entryState (op2tag x.msg.getOp) = some .doClientMsg ∧
      AcceptsMember D w x.msg.getMemberSpecs x.draws ck sk f n ∧
      w' = { w.setFilter f with clients := w.clients + 1 } := by
  obtain ⟨r, hrep, hop, hid⟩ := ha.answered
  obtain ⟨ck, hv⟩ := ha.signed
  obtain ⟨h1, hd, hh, he, hm, -, hmsg⟩ := startIter_replied (g := .doClientMsg) hr hrep (by decide) hop
  rw [hmsg] at hv
  rcases doClientMsg_ok hh with ⟨f, e, -, -, rfl⟩ | ⟨ck', sk', f, n', hacc, rfl, rfl⟩
  · cases he
  · cases hm
    have hn : n' = n := NodeID.value_inj.1 (Option.some.inj hid)
    have hkeys := hacc.verified
    rw [hv] at hkeys
    cases hkeys
    subst hn
    exact ⟨ck, f, hd, hacc, rfl⟩

theorem handler_clusterIDs {D : Deps} {f : HandlerName} {w w' : World}
    {h h' : InHandler} {draws : List NodeID} (hr : f.handler D w h draws = .ok (w', h'))
    {rc' : RegCluster} (hrc' : rc' ∈ w'.heap) :
    (∃ rc ∈ w.heap, rc'.id = rc.id) ∨
    (rc'.id.value ∉ w.reg.idFilter.ids ∧ rc'.id.value ∈ w'.reg.idFilter.ids) := by
  rcases handler_world hr with ⟨fl, n, -, rfl⟩ | ⟨n, rc, i, err, -, hm, ha⟩ |
    ⟨client, p, rc, -, hj, rfl⟩
  · exact .inl ⟨rc', hrc', rfl⟩
  · rw [addCluster_heap ha] at hrc'
    rcases List.mem_append.1 hrc' with hold | hlast
    · exact .inl ⟨rc', hold, rfl⟩
    · obtain ⟨-, -, hid, -⟩ := newRegCluster_ok hm.made
      rw [List.mem_singleton.1 hlast, hid]
      refine .inr ⟨IdFilter.not_mem hm.drawn.fresh, ?_⟩
      apply (World.grows_addCluster ha).ids.subset
      simp [World.alloc, World.setFilter]
  · rcases List.mem_or_eq_of_mem_set hrc' with hold | rfl
    · exact .inl ⟨rc', hold, rfl⟩
    · exact .inl ⟨rc, List.mem_of_getElem? hj.cluster, (rc.grows_addMember D client).id⟩

section ExactFilter

variable {D : Deps} (hf : D.ExactFilter)
include hf

/-- With an exact filter, an accepted ID was unknown, or it was proposed. -/
theorem clientID_exact {f f' : IdFilter} {id : Option Bytes} {draws : List NodeID} {n : NodeID}
    (h : clientID D f id draws = .ok (f', .ok n)) :
    n.value ∈ f'.ids ∧ (n.value ∉ f.ids ∨ id = some n.value) := by
  obtain ⟨hknown, hout⟩ := clientID_knows hf.sound h
  refine ⟨?_, hout.imp (fun hnew => IdFilter.not_mem hnew.1) And.left⟩
  simpa [IdFilter.isMember_exact hf] using hknown

/-- A proposal is accepted, whoever holds the ID. -/
theorem Proposes.step {s : Service} {c : Session} {x : Input} {n : NodeID} {sk : RSAPublicKey}
    (hp : Proposes D c x n sk) :
    ∃ w' h' ex, sessionStep D s c x = .ok (⟨w', s.log ++ [ex]⟩, ⟨h', c.exchanges ++ [ex]⟩) ∧
      w'.heap = s.world.heap ∧ w'.reg.regID = s.world.reg.regID ∧ ex.Admits D n sk := by
  obtain ⟨ck, hv, hb⟩ := hp.keys
  obtain ⟨f, hid⟩ := clientID_total hf.total s.world.reg.idFilter n x.draws
  rw [← hp.id] at hid
  have hrun := doClientMsg_accepts (h := { c.h with msgIn := x.msg }) ⟨hv, hid, hb⟩
  exact ⟨_, _, _, sessionStep_handled hp.handler hrun, rfl, rfl, ⟨ck, hv⟩, _, rfl, rfl, rfl⟩

/-- Under the condition, an ID just accepted is nobody else's. -/
theorem admits_unused {s : Service} {c : Session} {x : Input} {w' : World} {h' : InHandler}
    {ex : Exchange} (hk : s.IDsKnown D) (hown : OwnOrUnused D s c x)
    (hr : startIter D s.world c.h x = .ok (w', h', ex)) {n : NodeID} {sk : RSAPublicKey}
    (ha : ex.Admits D n sk) :
    n ≠ s.world.reg.regID ∧ (∀ rc ∈ s.world.heap, rc.id ≠ n) ∧
      ∀ ex' ∈ s.log, ∀ sk', ex'.Admits D n sk' → sk' = sk := by
  obtain ⟨ck, f, hd, hacc, -⟩ := startIter_admits hr ha
  rcases (clientID_exact hf hacc.id).2 with hnew | hprop
  · refine ⟨?_, ?_, ?_⟩
    · rintro rfl
      exact hnew hk.registry
    · intro rc hrc heq
      exact hnew (heq ▸ hk.clusters rc hrc)
    · intro ex' hex' sk' ha'
      exact absurd (hk.clients ex' hex' n sk' ha') hnew
  · exact hown n sk ⟨hd, hprop, ck, hacc.verified, hacc.node⟩

theorem round_known {s : Service} {h h' : InHandler} {x : Input} {w' : World} {ex : Exchange}
    (hk : s.IDsKnown D) (hr : startIter D s.world h x = .ok (w', h', ex)) :
    Service.IDsKnown D ⟨w', s.log ++ [ex]⟩ := by
  have hg := startIter_grows hr
  obtain ⟨f, h1, -, hh, -, -⟩ := startIter_ok hr
  refine ⟨?_, ?_, ?_⟩
  · change w'.reg.regID.value ∈ _
    rw [hg.regID]
    exact hg.ids.subset hk.registry
  · intro rc' hrc'
    rcases handler_clusterIDs hh hrc' with ⟨rc, hrc, hid⟩ | ⟨-, hin⟩
    · rw [hid]
      exact hg.ids.subset (hk.clusters rc hrc)
    · exact hin
  · intro ex' hex' n sk ha
    rcases List.mem_append.1 hex' with hold | hlast
    · exact hg.ids.subset (hk.clients ex' hold n sk ha)
    · rw [List.mem_singleton.1 hlast] at ha
      obtain ⟨ck, f, -, hacc, rfl⟩ := startIter_admits hr ha
      exact (clientID_exact hf hacc.id).1

theorem round_identify {s : Service} {c : Session} {x : Input} {w' : World} {h' : InHandler}
    {ex : Exchange} (hk : s.IDsKnown D) (hi : s.IDsIdentify D) (hown : OwnOrUnused D s c x)
    (hr : startIter D s.world c.h x = .ok (w', h', ex)) :
    Service.IDsIdentify D ⟨w', s.log ++ [ex]⟩ := by
  have hg := startIter_grows hr
  have hnew := fun n sk (ha : ex.Admits D n sk) => admits_unused hf hk hown hr ha
  refine ⟨?_, ?_, ?_⟩
  · intro ex₁ h₁ ex₂ h₂ n sk₁ sk₂ ha₁ ha₂
    rcases List.mem_append.1 h₁ with h₁ | h₁ <;> rcases List.mem_append.1 h₂ with h₂ | h₂
    · exact hi.holder ex₁ h₁ ex₂ h₂ n sk₁ sk₂ ha₁ ha₂
    · rw [List.mem_singleton.1 h₂] at ha₂
      exact (hnew n sk₂ ha₂).2.2 ex₁ h₁ sk₁ ha₁
    · rw [List.mem_singleton.1 h₁] at ha₁
      exact ((hnew n sk₁ ha₁).2.2 ex₂ h₂ sk₂ ha₂).symm
    · rw [List.mem_singleton.1 h₁] at ha₁
      rw [List.mem_singleton.1 h₂] at ha₂
      obtain ⟨ck₁, hv₁⟩ := ha₁.signed
      obtain ⟨ck₂, hv₂⟩ := ha₂.signed
      rw [hv₁] at hv₂
      cases hv₂
      rfl
  · intro ex' hex' n sk ha
    change n ≠ w'.reg.regID
    rw [hg.regID]
    rcases List.mem_append.1 hex' with hold | hlast
    · exact hi.registry ex' hold n sk ha
    · rw [List.mem_singleton.1 hlast] at ha
      exact (hnew n sk ha).1
  · intro ex' hex' n sk ha rc' hrc'
    rcases List.mem_append.1 hex' with hold | hlast
    · obtain ⟨f, h1, -, hh, -, -⟩ := startIter_ok hr
      rcases handler_clusterIDs hh hrc' with ⟨rc, hrc, hid⟩ | ⟨hout, -⟩
      · rw [hid]
        exact hi.clusters ex' hold n sk ha rc hrc
      · rintro rfl
        exact hout (hk.clients ex' hold _ sk ha)
    · rw [List.mem_singleton.1 hlast] at ha
      obtain ⟨ck, f, -, -, rfl⟩ := startIter_admits hr ha
      exact (hnew n sk ha).2.1 rc' hrc'

theorem identity_contract :
    Parties.Contract (server D) (OwnOrUnused D) (fun s => s.IDsKnown D ∧ s.IDsIdentify D)
      (fun _ _ => True) (fun _ _ => True) := by
  apply shared_contract
  intro s c x w g ex hI hC hi
  exact ⟨round_known hf hI.1 hi, round_identify hf hI.1 hI.2 hC hi⟩

/-- In every run, node IDs identify their holders in all the states reached if and only if every
proposed ID is the client's own or unused. -/
theorem serve_ids_identify_iff (regID : NodeID) (evs : List ServerEvent) :
    Run.Always (server D).next (fun s => s.shared.IDsIdentify D) (ServerState.init regID) evs ↔
      Run.Along (server D).next (Parties.On (OwnOrUnused D)) (ServerState.init regID) evs := by
  refine (identity_contract hf).always_iff_along (fun _ hs => hs.2) (fun s c x _ _ hno => ?_) ⟨?_, ?_⟩
  · obtain ⟨n, hno⟩ := not_forall.1 hno
    obtain ⟨sk, hno⟩ := not_forall.1 hno
    obtain ⟨hp, hused⟩ := Classical.not_imp.1 hno
    obtain ⟨w', h', ex, hs, hheap, hreg, ha⟩ := hp.step hf (s := s)
    have hex : ex ∈ s.log ++ [ex] := by simp
    refine ⟨_, _, hs, fun hi => hused ⟨?_, fun rc hrc => ?_, fun ex' hex' sk' ha' => ?_⟩⟩
    · rw [← hreg]
      exact hi.registry ex hex n sk ha
    · exact hi.clusters ex hex n sk ha rc (hheap ▸ hrc)
    · exact hi.holder ex' (by simp [hex']) ex hex n sk' sk ha' ha
  · refine ⟨⟨?_, ?_, ?_⟩, ⟨?_, ?_, ?_⟩⟩ <;> simp [ServerState.init, World.init]
  · exact fun _ _ => trivial

end ExactFilter

/-- Clients that propose nothing. -/
theorem serve_ids_identify_iff_sample :
    Run.Always (server .plain).next (fun s => s.shared.IDsIdentify .plain) (ServerState.init (.rep 9))
      [.enter (), .enter (), .act 0 ⟨Sample.member "a" none 2, [.rep 1]⟩,
       .act 1 ⟨Sample.member "b" none 7, [.rep 1, .rep 2]⟩] := by
  have hnone : ∀ name key draws s c, OwnOrUnused .plain s c ⟨Sample.member name none key, draws⟩ :=
    fun name key draws s c n sk hp => absurd hp.id (by simp [Sample.member, XLRegMsg.getMemberSpecs])
  refine (serve_ids_identify_iff plain_exactFilter (.rep 9) _).2 ⟨trivial, fun _ _ => ⟨trivial, ?_⟩⟩
  exact fun _ _ => ⟨fun c _ => hnone _ _ _ _ c, fun _ _ => ⟨fun c _ => hnone _ _ _ _ c, fun _ _ => trivial⟩⟩

/-- The second client proposes the ID of the first and is accepted under it with another key;
the third is accepted under the registry's own ID. -/
theorem serve_ids_shared :
    ∃ s ex₁ ex₂ ex₃, serve .plain (.rep 9)
        [.enter (), .enter (), .enter (), .act 0 ⟨Sample.member "a" none 2, [.rep 1]⟩,
         .act 1 ⟨Sample.member "b" (some (.rep 1)) 7, []⟩,
         .act 2 ⟨Sample.member "c" (some (.rep 9)) 8, []⟩] = .ok s ∧
      s.shared.log = [ex₁, ex₂, ex₃] ∧ ex₁.Admits .plain (.rep 1) ⟨2, 3⟩ ∧
      ex₂.Admits .plain (.rep 1) ⟨7, 3⟩ ∧ ex₃.Admits .plain (.rep 9) ⟨8, 3⟩ ∧
      ¬ s.shared.IDsIdentify .plain := by
  obtain ⟨s, hr, hp⟩ := Run.exists_of_ends (server .plain).next (ServerState.init (.rep 9))
    [.enter (), .enter (), .enter (), .act 0 ⟨Sample.member "a" none 2, [.rep 1]⟩,
      .act 1 ⟨Sample.member "b" (some (.rep 1)) 7, []⟩, .act 2 ⟨Sample.member "c" (some (.rep 9)) 8, []⟩]
    (fun s => decide (s.shared.log.map (fun ex => (ex.msg, ex.reply)) =
      [(Sample.member "a" none 2, some (memberOK (.rep 1) 0)),
       (Sample.member "b" (some (.rep 1)) 7, some (memberOK (.rep 1) 0)),
       (Sample.member "c" (some (.rep 9)) 8, some (memberOK (.rep 9) 0))])) (by decide)
  obtain ⟨ex₁, l, hl₁, h₁, hp⟩ := List.map_eq_cons_iff.1 (of_decide_eq_true hp)
  obtain ⟨ex₂, l, rfl, h₂, hp⟩ := List.map_eq_cons_iff.1 hp
  obtain ⟨ex₃, l, rfl, h₃, hp⟩ := List.map_eq_cons_iff.1 hp
  obtain rfl := List.map_eq_nil_iff.1 hp
  obtain ⟨hm₁, hr₁⟩ := Prod.mk.inj h₁
  obtain ⟨hm₂, hr₂⟩ := Prod.mk.inj h₂
  obtain ⟨hm₃, hr₃⟩ := Prod.mk.inj h₃
  have ha₁ : ex₁.Admits .plain (.rep 1) ⟨2, 3⟩ := ⟨⟨⟨1, 3⟩, by rw [hm₁]; rfl⟩, _, hr₁, rfl, rfl⟩
  have ha₂ : ex₂.Admits .plain (.rep 1) ⟨7, 3⟩ := ⟨⟨⟨1, 3⟩, by rw [hm₂]; rfl⟩, _, hr₂, rfl, rfl⟩
  have ha₃ : ex₃.Admits .plain (.rep 9) ⟨8, 3⟩ := ⟨⟨⟨1, 3⟩, by rw [hm₃]; rfl⟩, _, hr₃, rfl, rfl⟩
  refine ⟨s, ex₁, ex₂, ex₃, hr, hl₁, ha₁, ha₂, ha₃, fun hi => ?_⟩
  have hsame := hi.holder ex₁ (by simp [hl₁]) ex₂ (by simp [hl₁]) _ _ _ ha₁ ha₂
  exact absurd hsame (by decide)

end XlReg
