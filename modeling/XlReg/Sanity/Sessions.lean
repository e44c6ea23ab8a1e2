import XlReg.Sanity.Rounds

/-! What a session holds on to between rounds: the client it speaks for and the cluster hung on
it. Each round establishes this for its exit state, and what other sessions do in between only
makes the registry grow, which leaves it true. -/

namespace XlReg

/-- A session's cluster exists; after Member the session has a client, and after Join that
client is a member of the session's cluster. -/
structure InHandler.Established (w : World) (h : InHandler) : Prop where
  hung : ∀ p, h.cluster = some p → ∃ rc, w.heap[p]? = some rc
  client : h.entryState ∈ [.clientDetailsRcvd, .createRequestRcvd, .joinRcvd] →
    ∃ m, h.thisClient = some m
  joined : h.entryState = .joinRcvd → ∃ m p rc, h.thisClient = some m ∧ h.cluster = some p ∧
    w.heap[p]? = some rc ∧ m ∈ rc.members

theorem World.Grows.exists_deref {w w' : World} (hg : w.Grows w') {p : Ptr}
    (h : ∃ rc, w.heap[p]? = some rc) : ∃ rc, w'.heap[p]? = some rc := by
  obtain ⟨rc, hp⟩ := h
  obtain ⟨rc', hp', -⟩ := hg.heap p rc hp
  exact ⟨rc', hp'⟩

theorem InHandler.Established.of_grows {w w' : World} {h : InHandler} (he : h.Established w)
    (hg : w.Grows w') : h.Established w' := by
  refine ⟨fun p hp => hg.exists_deref (he.hung p hp), he.client, fun hs => ?_⟩
  obtain ⟨m, p, rc, hm, hp, hrc, hmem⟩ := he.joined hs
  obtain ⟨rc', hrc', hgr⟩ := hg.heap p rc hrc
  exact ⟨m, p, rc', hm, hp, hrc', hgr.members.subset hmem⟩

theorem InHandler.Established.receive {w : World} {h : InHandler} (he : h.Established w) (m : XLRegMsg) :
    InHandler.Established w { h with msgIn := m } :=
  ⟨he.hung, he.client, he.joined⟩

theorem InHandler.established_init (w : World) : InHandler.Established w {} :=
  ⟨by simp, by simp, by simp⟩

theorem afterRound_fail (h : InHandler) (e : Err) :
    afterRound (h.fail e) = { h with msgOut := some (errorMsg e), errOut := none,
                                     exitState := .inClosed, entryState := .inClosed } := rfl

theorem afterRound_reply (h : InHandler) (m : XLRegMsg) (s : InState) :
    afterRound (h.reply m s) =
      { h with msgOut := some m, errOut := none, exitState := s, entryState := s } := rfl

/-- A session closed by an error keeps at most its cluster. -/
theorem established_fail {w : World} {h : InHandler} (e : Err)
    (hung : ∀ p, h.cluster = some p → ∃ rc, w.heap[p]? = some rc) :
    (afterRound (h.fail e)).Established w := by
  rw [afterRound_fail]
  exact ⟨hung, by simp, by simp⟩

/-- The cluster made by a Create is the last of the heap, whatever `AddCluster` does with it. -/
theorem hung_made {D : Deps} {w w' : World} {f : IdFilter} {rc : RegCluster} {i : ℤ} {err : Option Err}
    (ha : addCluster D ((w.setFilter f).alloc rc) (some w.heap.length) = .ok (w', i, err)) :
    ∀ p, some w.heap.length = some p → ∃ rc, w'.heap[p]? = some rc := by
  intro p hp
  cases hp
  exact (World.grows_addCluster ha).exists_deref ⟨rc, w.make_last f rc⟩

theorem handler_established {D : Deps} {f : HandlerName} {w w' : World} {h h' : InHandler}
    {draws : List NodeID} (he : h.Established w)
    (hf : f = .badCombo ∨ (h.entryState, f) ∈ permitted)
    (hr : f.handler D w h draws = .ok (w', h')) : (afterRound h').Established w' := by
  have hg := handler_grows hr
  have hung : ∀ p, h.cluster = some p → ∃ rc, w'.heap[p]? = some rc :=
    fun p hp => hg.exists_deref (he.hung p hp)
  -- the state in which a handler other than `badCombo` was entered tells whether there is a client
  have hclient : f ∈ [.doCreateMsg, .doJoinMsg, .doGetMsg] → ∃ m, h.thisClient = some m := by
    intro hmem
    apply he.client
    revert hf hmem
    cases h.entryState <;> cases f <;> decide
  cases handler_effect hr with
  | refused e => exact established_fail e hung
  | noNode ha => exact established_fail _ hung
  | accepted ha =>
    rw [afterRound_reply]
    exact ⟨hung, fun _ => ⟨_, rfl⟩, by simp⟩
  | noCluster hl hn hnew => exact established_fail _ hung
  | notAdded hm ha => exact established_fail _ (hung_made ha)
  | created hm ha =>
    rw [afterRound_reply]
    exact ⟨hung_made ha, fun _ => hclient (by decide), by simp⟩
  | found hl hp =>
    rw [afterRound_reply]
    exact ⟨hung, fun _ => hclient (by decide), by simp⟩
  | notJoined hj ha => exact established_fail _ hung
  | joined hj ha =>
    rename_i client p rc
    have hlt : p < w.heap.length := (List.getElem?_eq_some_iff.1 hj.cluster).1
    have hat : (w.store p (rc.addMember D client).1).heap[p]? = some (rc.addMember D client).1 := by
      simp [World.store, hlt]
    rw [afterRound_reply]
    refine ⟨?_, fun _ => ⟨client, hj.client⟩, fun _ => ?_⟩
    · intro q hq
      cases hq
      exact ⟨_, hat⟩
    · exact ⟨client, p, _, hj.client, rfl, hat, rc.mem_addMember ha⟩
  | listed s =>
    have hst : h.entryState = .joinRcvd := by
      revert hf
      cases h.entryState <;> decide
    rw [afterRound_reply]
    exact ⟨hung, fun _ => hclient (by decide), fun _ => he.joined hst⟩
  | bye =>
    rw [afterRound_reply]
    exact ⟨hung, by simp, by simp⟩

theorem startIter_established {D : Deps} {w w' : World} {h h' : InHandler} {x : Input} {ex : Exchange}
    (he : h.Established w) (hr : startIter D w h x = .ok (w', h', ex)) : h'.Established w' := by
  obtain ⟨f, h1, hd, hh, rfl, -⟩ := startIter_ok hr
  exact handler_established (he.receive x.msg) (dispatch_permitted hd) hh

/-- An invariant of the registry that every handler keeps, with what the sessions hold. -/
theorem server_contract (D : Deps) {I : World → Prop}
    (hkeep : ∀ (f : HandlerName) w h draws w' h', I w → f.handler D w h draws = .ok (w', h') → I w') :
    Parties.Contract (server D) (fun _ _ _ => True) (fun s => I s.world)
      (fun s s' => s.world.Grows s'.world) (fun s c => c.h.Established s.world) where
  start s _ _ := InHandler.established_init s.world
  step s c x s' c' hI hJ _ hr := by
    rcases sessionStep_ok hr with ⟨-, rfl, rfl⟩ | ⟨-, w, h, ex, hi, rfl, rfl⟩
    · exact ⟨hI, .refl _, hJ⟩
    · obtain ⟨f, h1, -, hh, -, -⟩ := startIter_ok hi
      exact ⟨hkeep f _ _ _ _ _ hI hh, startIter_grows hi, startIter_established hJ hi⟩
  stable s s' c _ hJ hg := hJ.of_grows hg

/-- An invariant of what the sessions share, kept by every round that meets the condition. -/
theorem shared_contract {D : Deps} {C : Service → Session → Input → Prop} {I : Service → Prop}
    (hkeep : ∀ s c x w g ex, I s → C s c x → startIter D s.world c.h x = .ok (w, g, ex) →
      I ⟨w, s.log ++ [ex]⟩) :
    Parties.Contract (server D) C I (fun _ _ => True) (fun _ _ => True) where
  start _ _ _ := trivial
  step s c x s' c' hI _ hC hr := by
    refine ⟨?_, trivial, trivial⟩
    rcases sessionStep_ok hr with ⟨-, rfl, -⟩ | ⟨-, w, g, ex, hi, rfl, -⟩
    · exact hI
    · exact hkeep s c x w g ex hI hC hi
  stable _ _ _ _ _ _ := trivial

theorem server_act {D : Deps} {s s' : ServerState} {k : ℕ} {c : Session} {x : Input}
    (hc : s.parties[k]? = some c) (hopen : c.h.entryState ≠ .inClosed)
    (h : (server D).next s (.act k x) = .ok s') :
    ∃ w g ex, startIter D s.shared.world c.h x = .ok (w, g, ex) ∧
      s'.shared = ⟨w, s.shared.log ++ [ex]⟩ ∧ s'.parties[k]? = some ⟨g, c.exchanges ++ [ex]⟩ := by
  have hlt : k < s.parties.length := (List.getElem?_eq_some_iff.1 hc).1
  simp only [Parties.next, hc] at h
  cases hs : (server D).step s.shared c x with
  | error a => simp only [hs] at h; cases h
  | ok r =>
    obtain ⟨sh, c'⟩ := r
    simp only [hs] at h
    cases h
    rcases sessionStep_ok hs with ⟨hcl, -, -⟩ | ⟨-, w, g, ex, hi, rfl, rfl⟩
    · exact absurd hcl hopen
    · exact ⟨w, g, ex, hi, rfl, List.getElem?_set_self hlt⟩

theorem server_handled {D : Deps} {s : ServerState} {k : ℕ} {c : Session} {x : Input} {f : HandlerName}
    {w : World} {h₁ : InHandler} (hc : s.parties[k]? = some c)
    (hd : dispatch c.h.entryState (op2tag x.msg.getOp) = some f)
    (hh : f.handler D s.shared.world { c.h with msgIn := x.msg } x.draws = .ok (w, h₁)) :
    ∃ s', (server D).next s (.act k x) = .ok s' ∧
      s'.parties[k]? = some ⟨afterRound h₁, c.exchanges ++ [exchangeOf c.h x.msg f h₁]⟩ := by
  have hlt : k < s.parties.length := (List.getElem?_eq_some_iff.1 hc).1
  exact ⟨_, Parties.next_act hc (sessionStep_handled hd hh), List.getElem?_set_self hlt⟩

/-- The event is a message that is handled by a handler, and `Q` holds of the world it meets,
of the message and of the handler. -/
def Handles (Q : World → Input → HandlerName → Prop) : ServerState → ServerEvent → Prop :=
  Parties.Does fun s c x => ∃ f, dispatch c.h.entryState (op2tag x.msg.getOp) = some f ∧ Q s.world x f

/-- An event of the server is a round of an open session, or nothing happens. -/
theorem server_next_cases {D : Deps} {s s' : ServerState} {e : ServerEvent}
    (h : (server D).next s e = .ok s') :
    (s'.shared = s.shared ∧ ∀ Q, ¬ Handles Q s e) ∨
    ∃ (c : Session) (x : Input) (w : World) (g : InHandler) (ex : Exchange),
      startIter D s.shared.world c.h x = .ok (w, g, ex) ∧
      s'.shared = ⟨w, s.shared.log ++ [ex]⟩ ∧
      ∀ Q, Handles Q s e ↔
        ∃ f, dispatch c.h.entryState (op2tag x.msg.getOp) = some f ∧ Q s.shared.world x f := by
  rcases Parties.next_cases h with ⟨y, rfl, rfl⟩ | ⟨i, x, rfl, hp, rfl⟩ |
    ⟨i, x, c, sh, c', rfl, hp, hs, rfl⟩
  · exact .inl ⟨rfl, fun Q hd => hd⟩
  · refine .inl ⟨rfl, fun Q hd => ?_⟩
    obtain ⟨c, hc, -⟩ := hd
    rw [hp] at hc
    cases hc
  · have hiff : ∀ Q, Handles Q s (.act i x) ↔
        ∃ f, dispatch c.h.entryState (op2tag x.msg.getOp) = some f ∧ Q s.shared.world x f := by
      intro Q
      simp [Handles, Parties.Does, hp]
    rcases sessionStep_ok hs with ⟨hcl, rfl, -⟩ | ⟨-, w, g, ex, hi, rfl, -⟩
    · refine .inl ⟨rfl, fun Q hd => ?_⟩
      obtain ⟨f, hf, -⟩ := (hiff Q).1 hd
      exact open_of_dispatch hf hcl
    · exact .inr ⟨c, x, w, g, ex, hi, rfl, hiff⟩

/-- Along a run the registry grows, and no exchange is taken back. -/
theorem server_run_grows {D : Deps} {evs : List ServerEvent} {s s' : ServerState}
    (h : Run.run (server D).next s evs = .ok s') :
    s.shared.world.Grows s'.shared.world ∧ s.shared.log <+: s'.shared.log := by
  refine Run.run_rel (R := fun s s' : ServerState => s.shared.world.Grows s'.shared.world ∧
    s.shared.log <+: s'.shared.log) (fun s => ⟨.refl _, List.prefix_refl _⟩)
    (fun a b c h1 h2 => ⟨h1.1.trans h2.1, h1.2.trans h2.2⟩) (fun s e s' hn => ?_) h
  rcases server_next_cases hn with ⟨hsame, -⟩ | ⟨c, x, w, g, ex, hi, hs, -⟩
  · rw [hsame]
    exact ⟨.refl _, List.prefix_refl _⟩
  · rw [hs]
    exact ⟨startIter_grows hi, List.prefix_append _ _⟩

/-- In every state the server reaches, the registry is consistent and the sessions hold what
they should. -/
theorem serve_established {D : Deps} (hmap : D.HamtTotal) {regID : NodeID} {evs : List ServerEvent}
    {s : ServerState} (h : serve D regID evs = .ok s) :
    s.shared.world.Consistent D ∧ ∀ c ∈ s.parties, c.h.Established s.shared.world :=
  (server_contract D (I := World.Consistent D) fun _ _ _ _ _ _ hw hh =>
    handler_consistent (fun _ _ _ => hmap.insert _ _) hw hh).holds_of_run
    ⟨World.init_consistent D regID, fun _ hc => by cases hc⟩ h

end XlReg
