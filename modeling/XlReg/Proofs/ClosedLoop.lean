import XlReg.Lib.Refine
import XlReg.Proofs.JoinNamed
import XlReg.Proofs.Refusals
import XlReg.Proofs.Survival

/-! Clients of the four kinds at this server, with any number of other sessions. The connection
carries a client's requests to its session in order and brings the replies back, until it is closed
or breaks. The steps of a client are in the order of the dispatch table, so each request meets the
handler that it is meant for; and as the server closes the session after an Error message, a client
that has its Bye acknowledged has had no refusal, although it looks at none of its answers. -/

namespace XlReg

open Run

variable {D : Deps} {K : ClientDeps} {env : Surroundings}

/-- A client's requests and the exchanges of its session. The session has handled requests in the
order in which they were made. The first `n` replies reach the client, and after that there is
nothing to be read. -/
structure Linked (log : List Ask) (exs : List Exchange) : Prop where
  sent : ∀ (i : ℕ) ex, exs[i]? = some ex → ∃ a, log[i]? = some a ∧ a.request = some ex.msg
  heard : ∃ n : ℕ, (∀ i < n, ∀ a : Ask, log[i]? = some a → ∃ ex, exs[i]? = some ex ∧ a.AnsweredBy ex) ∧
    ∀ i ≥ n, ∀ a : Ask, log[i]? = some a → ∃ e, a.turn.read = .error e

theorem Linked.of_answered {log : List Ask} {exs : List Exchange}
    (h : List.Forall₂ Ask.AnsweredBy log exs) : Linked log exs := by
  refine ⟨fun i ex hi => ?_, log.length, fun i _ a ha => Parties.forall₂_getElem? h ha, fun i hi a ha => ?_⟩
  · obtain ⟨a, ha, hans⟩ := Parties.forall₂_getElem? h.flip hi
    exact ⟨a, ha, hans.request⟩
  · rw [List.getElem?_eq_none hi] at ha
    cases ha

/-! The session's side. -/

def stateAfter (exs : List Exchange) : InState :=
  exs.getLast?.elim .helloRcvd fun ex => if ex.err = none then ex.handler.exit else .inClosed

theorem stateAfter_concat (exs : List Exchange) (ex : Exchange) :
    stateAfter (exs ++ [ex]) = if ex.err = none then ex.handler.exit else .inClosed := by
  rw [stateAfter, List.getLast?_concat, Option.elim_some]

/-- Each exchange was made in the state that the ones before it led to. A Bye is never refused. -/
structure Session.Chained (c : Session) : Prop where
  now : c.h.entryState = stateAfter c.exchanges
  dispatched : ∀ (i : ℕ) ex, c.exchanges[i]? = some ex →
    dispatch (stateAfter (c.exchanges.take i)) (op2tag ex.msg.getOp) = some ex.handler
  bye : ∀ ex ∈ c.exchanges, ex.handler = .doByeMsg → ex.err = none

theorem Session.chained_init : Session.Chained {} :=
  ⟨rfl, fun i ex h => (by cases h), fun ex h => (by cases h)⟩

theorem Session.Chained.round {w w' : World} {c : Session} {x : Input} {h' : InHandler} {ex : Exchange}
    (hc : c.Chained) (hr : startIter D w c.h x = .ok (w', h', ex)) :
    Session.Chained ⟨h', c.exchanges ++ [ex]⟩ := by
  refine ⟨?_, fun i ex' hi => ?_, fun ex' hex' hbye => ?_⟩
  · rw [stateAfter_concat]
    rcases startIter_outcome hr with ⟨e, he, -, -, hcl⟩ | ⟨he, -, hexit, -⟩
    · rw [hcl, he, if_neg (Option.some_ne_none e)]
    · rw [hexit, if_pos he]
  · obtain ⟨f, h₁, hd, -, -, hex⟩ := startIter_ok hr
    rcases Parties.concat_getElem? hi with ⟨hlt, hi⟩ | ⟨rfl, rfl⟩
    · rw [List.take_append_of_le_length hlt.le]
      exact hc.dispatched i ex' hi
    · rw [List.take_left, ← hc.now, hex]
      exact hd
  · rcases List.mem_append.1 hex' with hold | hlast
    · exact hc.bye ex' hold hbye
    · rw [List.mem_singleton.1 hlast] at hbye ⊢
      obtain ⟨f, h₁, -, hh, -, rfl⟩ := startIter_ok hr
      obtain rfl : f = .doByeMsg := hbye
      cases hh
      rfl

theorem chained_contract (D : Deps) :
    Parties.Contract (server D) (fun _ _ _ => True) (fun _ => True) (fun _ _ => True)
      (fun _ c => c.Chained) where
  start _ _ _ := Session.chained_init
  step s c x s' c' _ hJ _ hr := by
    rcases sessionStep_ok hr with ⟨-, rfl, rfl⟩ | ⟨-, w, h, ex, hi, rfl, rfl⟩
    · exact ⟨trivial, trivial, hJ⟩
    · exact ⟨trivial, trivial, hJ.round hi⟩
  stable _ _ _ _ hJ _ := hJ

theorem serve_chained {regID : NodeID} {evs : List ServerEvent} {s : ServerState}
    (h : serve D regID evs = .ok s) {c : Session} (hc : c ∈ s.parties) : c.Chained :=
  ((chained_contract D).holds_of_run ⟨trivial, fun _ hc => by cases hc⟩ h).2 c hc

theorem Session.Chained.accepted {c : Session} (hc : c.Chained) {i : ℕ} {ex ex' : Exchange}
    (hi : c.exchanges[i]? = some ex) (hnext : c.exchanges[i + 1]? = some ex') :
    ex.err = none ∧ stateAfter (c.exchanges.take (i + 1)) = ex.handler.exit := by
  have hopen := open_of_dispatch (hc.dispatched (i + 1) ex' hnext)
  have htake : c.exchanges.take (i + 1) = c.exchanges.take i ++ [ex] := by
    rw [List.take_add_one, hi, Option.toList_some]
  rw [htake, stateAfter_concat] at hopen ⊢
  split_ifs at hopen ⊢ with he
  · exact ⟨he, rfl⟩
  · exact absurd rfl hopen

/-! The client's side. -/

/-- What a step of the client requests. -/
def ClientStep.Requests (D : Deps) (K : ClientDeps) (cm : ClusterMember) :
    ClientStep → Option XLRegMsg → Prop
  | .memberAndOK, r => r = memberRequest D K cm
  | .createAndReply, r => r = some (createRequest cm)
  | .joinAndReply, r => ∃ id, cm.clusterID = some id ∧ r = some (joinRequest id)
  | .getAndMembers, r => ∃ id which, cm.clusterID = some id ∧
      r = some { op := some Tag.getCluster, clusterID := some id.value, which := some which }
  | .byeAndAck, r => r = some byeRequest
  | .openAcc, _ | .sessionSetup, _ | .persistNode, _ => False

/-- A round of `GetAndMembers` is about the cluster that the others are about. -/
theorem exchange_clusterID {mm mm' : MemberMaker} {t : Turn} {again : Bool}
    (h : mm.exchange D t = .ok (mm', again)) : mm'.clusterID = mm.clusterID := by
  have hunpacks : ∀ (mm : MemberMaker) ts, (mm.unpacks D t.draws ts).clusterID = mm.clusterID := by
    intro mm ts
    induction ts generalizing mm with
    | nil => rfl
    | cons p ts ih =>
      refine (ih (mm.unpack D (t.draws p.1) p.1 p.2)).trans ?_
      unfold MemberMaker.unpack
      split <;> rfl
  rw [MemberMaker.exchange_eq] at h
  rcases ha : t.answer with e | m
  · simp only [ha] at h
    cases h
    rfl
  · simp only [ha] at h
    split_ifs at h
    cases h
    exact hunpacks _ _

def Ask.Gets (id : NodeID) (a : Ask) : Prop :=
  a.step = .getAndMembers ∧ ∃ which, a.request =
    some { op := some Tag.getCluster, clusterID := some id.value, which := some which }

theorem getRounds_requests (net : ℕ → Turn) (n : ℕ) (log : List Ask) (mm : MemberMaker) :
    ∃ asks, (getRounds D net n log mm).1 = log ++ asks ∧ ∀ a ∈ asks, a.Gets mm.clusterID := by
  have hnone : ∀ (log : List Ask) (id : NodeID), ∃ asks, log = log ++ asks ∧ ∀ a ∈ asks, a.Gets id :=
    fun log id => ⟨[], (List.append_nil _).symm, fun a ha => absurd ha List.not_mem_nil⟩
  induction n generalizing log mm with
  | zero => exact hnone log mm.clusterID
  | succ n ih =>
    unfold getRounds
    split_ifs
    · rcases clearFilled D mm.members mm.clusterMaxSize.toNat 0 mm.stillToGet with x | still
      · exact hnone log mm.clusterID
      · simp only
        set a : Ask := ⟨.getAndMembers, mm.clusterMaxSize,
          some { mm with stillToGet := still }.getRequest, net log.length⟩
        have ha : a.Gets mm.clusterID := ⟨rfl, still, rfl⟩
        rcases hex : MemberMaker.exchange D { mm with stillToGet := still } (net log.length) with
          x | ⟨mm', again⟩
        · exact ⟨[a], rfl, List.forall_mem_singleton.2 ha⟩
        · cases again with
          | false => exact ⟨[a], rfl, List.forall_mem_singleton.2 ha⟩
          | true =>
            obtain ⟨asks, hlog, hasks⟩ := ih (log ++ [a]) mm'
            rw [exchange_clusterID hex] at hasks
            refine ⟨a :: asks, ?_, List.forall_mem_cons.2 ⟨ha, hasks⟩⟩
            simp only [hlog, List.append_assoc, List.singleton_append]
    · exact hnone log mm.clusterID

/-- A call of `GetAndMembers` asks for the members of the client's cluster. -/
theorem getAndMembers_requests (net : ℕ → Turn) (c : Client) :
    ∃ asks, (getAndMembers D net c).1.log = c.log ++ asks ∧
      ∀ a ∈ asks, ∃ id, c.cm.clusterID = some id ∧ a.Gets id := by
  have hself : ∀ c : Client, c.lookForSelf.1.log = c.log := fun c => (lookForSelf_cases c).1
  unfold getAndMembers
  cases hid : c.cm.clusterID with
  | none =>
    refine ⟨[], ?_, fun a ha => absurd ha List.not_mem_nil⟩
    rw [List.append_nil]
    simp only
    split_ifs
    · split <;> rfl
    · exact hself c
  | some id =>
    obtain ⟨asks, hlog, hasks⟩ := getRounds_requests (D := D) net MAX_GET c.log (c.cm.maker D id)
    refine ⟨asks, ?_, fun a ha => ⟨id, rfl, hasks a ha⟩⟩
    simp only
    rcases hg : getRounds D net MAX_GET c.log (c.cm.maker D id) with ⟨log, x | mm⟩
    · rw [hg] at hlog
      exact hlog
    · rw [hg] at hlog
      simp only
      split
      · exact hlog
      · exact (hself _).trans hlog

/-- A step makes its own requests: none, any number of GetClusters, or one unless it faults. -/
theorem run_requests (K : ClientDeps) (env : Surroundings) (st : ClientStep) (c : Client) :
    ∃ asks, (st.run D K env c).1.log = c.log ++ asks ∧
      (∀ a ∈ asks, a.step = st ∧ st.Requests D K c.cm a.request) ∧
      (st = .getAndMembers ∨ (st.handler = none ∧ asks = []) ∨ (∃ a, asks = [a]) ∨
        (asks = [] ∧ (st.run D K env c).2 ≠ .ok none)) := by
  have hone : ∀ a : Ask, a.step = st → st.Requests D K c.cm a.request →
      (st.run D K env c).1.log = c.log ++ [a] → ∃ asks, (st.run D K env c).1.log = c.log ++ asks ∧
      (∀ a ∈ asks, a.step = st ∧ st.Requests D K c.cm a.request) ∧
      (st = .getAndMembers ∨ (st.handler = none ∧ asks = []) ∨ (∃ a, asks = [a]) ∨
        (asks = [] ∧ (st.run D K env c).2 ≠ .ok none)) :=
    fun a ha hreq hlog =>
      ⟨[a], hlog, List.forall_mem_singleton.2 ⟨ha, hreq⟩, .inr (.inr (.inl ⟨a, rfl⟩))⟩
  have hquiet : ∀ a ∈ ([] : List Ask), a.step = st ∧ st.Requests D K c.cm a.request :=
    fun a ha => absurd ha List.not_mem_nil
  cases st with
  | openAcc | sessionSetup | persistNode =>
    exact ⟨[], (List.append_nil _).symm, hquiet, .inr (.inl ⟨rfl, rfl⟩)⟩
  | memberAndOK =>
    obtain ⟨a, ha, hreq, -, ⟨e, -, h⟩ | ⟨m, attrs, -, h⟩⟩ := memberAndOK_cases (D := D) K env.net c
    · exact hone a ha hreq (by rw [ClientStep.run, h])
    · exact hone a ha hreq (by rw [ClientStep.run, h])
  | createAndReply =>
    refine hone ⟨_, c.cm.clusterMaxSize, some (createRequest c.cm), env.net c.log.length⟩ rfl rfl ?_
    simp only [ClientStep.run, createAndReply, Client.ask]
    repeat' split
    all_goals rfl
  | joinAndReply =>
    cases hid : c.cm.clusterID with
    | none =>
      have hfault : joinAndReply env.net c = (c, .error .nilDeref) := by simp only [joinAndReply, hid]
      refine ⟨[], ?_, hquiet, .inr (.inr (.inr ⟨rfl, ?_⟩))⟩
      · rw [ClientStep.run, hfault, List.append_nil]
      · rw [ClientStep.run, hfault]
        exact fun hpass => by cases hpass
    | some id =>
      refine hone ⟨_, c.cm.clusterMaxSize, some (joinRequest id), env.net c.log.length⟩ rfl
        ⟨id, hid, rfl⟩ ?_
      simp only [ClientStep.run, joinAndReply, Client.ask, hid]
      repeat' split
      all_goals rfl
  | getAndMembers =>
    obtain ⟨asks, hlog, hasks⟩ := getAndMembers_requests (D := D) env.net c
    refine ⟨asks, hlog, fun a ha => ?_, .inl rfl⟩
    obtain ⟨id, hid, hstep, which, hreq⟩ := hasks a ha
    exact ⟨hstep, id, which, hid, hreq⟩
  | byeAndAck =>
    refine hone ⟨_, c.cm.clusterMaxSize, some byeRequest, env.net c.log.length⟩ rfl rfl ?_
    simp only [ClientStep.run, byeAndAck, Client.ask]
    repeat' split
    all_goals rfl

def HandlerName.tag : HandlerName → ℤ
  | .doClientMsg => 0
  | .doCreateMsg => 1
  | .doJoinMsg => 2
  | .doGetMsg => 3
  | .doByeMsg => 4
  | .badCombo => 0

theorem dispatch_tag {s : InState} {f : HandlerName} (h : (s, f) ∈ permitted) : dispatch s f.tag = some f := by
  revert h
  cases s <;> cases f <;> decide

theorem ClientStep.Requests.tag {cm : ClusterMember} {st : ClientStep} {m : XLRegMsg}
    (h : st.Requests D K cm (some m)) : ∃ f, st.handler = some f ∧ op2tag m.getOp = f.tag := by
  cases st with
  | openAcc | sessionSetup | persistNode => exact h.elim
  | memberAndOK =>
    obtain ⟨token, -, rfl⟩ := memberRequest_ok (Eq.symm h)
    exact ⟨_, rfl, show op2tag Tag.member = 0 by decide⟩
  | createAndReply =>
    cases h
    exact ⟨_, rfl, show op2tag Tag.create = 1 by decide⟩
  | joinAndReply =>
    obtain ⟨id, -, h⟩ := h
    cases h
    exact ⟨_, rfl, show op2tag Tag.join = 2 by decide⟩
  | getAndMembers =>
    obtain ⟨id, which, -, h⟩ := h
    cases h
    exact ⟨_, rfl, show op2tag Tag.getCluster = 3 by decide⟩
  | byeAndAck =>
    cases h
    exact ⟨_, rfl, by decide⟩

/-- The state that a session should be in after requests of these steps. -/
def stateReached (log : List Ask) : InState :=
  log.getLast?.elim .helloRcvd fun a => a.step.handler.elim .helloRcvd HandlerName.exit

theorem stateReached_concat {log : List Ask} {a : Ask} {f : HandlerName} (h : a.step.handler = some f) :
    stateReached (log ++ [a]) = f.exit := by
  rw [stateReached, List.getLast?_concat, Option.elim_some, h, Option.elim_some]

/-- Each request is one that the state reached by those before it permits. -/
def InTurn (log : List Ask) : Prop :=
  ∀ (i : ℕ) (a : Ask), log[i]? = some a → ∃ f, a.step.handler = some f ∧
    (stateReached (log.take i), f) ∈ permitted ∧ ∀ m, a.request = some m → op2tag m.getOp = f.tag

theorem InTurn.concat {log : List Ask} (h : InTurn log) {a : Ask} {f : HandlerName}
    (hf : a.step.handler = some f) (hp : (stateReached log, f) ∈ permitted)
    (htag : ∀ m, a.request = some m → op2tag m.getOp = f.tag) : InTurn (log ++ [a]) := by
  intro i b hi
  rcases Parties.concat_getElem? hi with ⟨hlt, hi⟩ | ⟨rfl, rfl⟩
  · rw [List.take_append_of_le_length hlt.le]
    exact h i b hi
  · rw [List.take_left]
    exact ⟨f, hf, hp, htag⟩

/-- Requests of one step: a single one, or any number where the state permits more of them. -/
theorem InTurn.append {log asks : List Ask} (h : InTurn log) {f : HandlerName}
    (hasks : ∀ a ∈ asks, a.step.handler = some f ∧ ∀ m, a.request = some m → op2tag m.getOp = f.tag)
    (hp : (stateReached log, f) ∈ permitted) (hmore : asks.length ≤ 1 ∨ (f.exit, f) ∈ permitted) :
    InTurn (log ++ asks) ∧ (asks ≠ [] → stateReached (log ++ asks) = f.exit) := by
  induction asks generalizing log with
  | nil =>
    rw [List.append_nil]
    exact ⟨h, fun hne => absurd rfl hne⟩
  | cons a asks ih =>
    obtain ⟨⟨hf, htag⟩, hrest⟩ := List.forall_mem_cons.1 hasks
    have hone := h.concat hf hp htag
    have hst : stateReached (log ++ [a]) = f.exit := stateReached_concat hf
    rw [← List.singleton_append, ← List.append_assoc]
    rcases hmore with hlen | hmore
    · obtain rfl : asks = [] := List.length_eq_zero_iff.1 (by simpa using hlen)
      rw [List.append_nil]
      exact ⟨hone, fun _ => hst⟩
    · obtain ⟨hin, hend⟩ := ih hone hrest (by rw [hst]; exact hmore) (.inr hmore)
      refine ⟨hin, fun _ => ?_⟩
      by_cases hnil : asks = []
      · rw [hnil, List.append_nil, hst]
      · exact hend hnil

/-- The steps can be taken one after the other from a state on. -/
def fits : InState → List ClientStep → Bool
  | _, [] => true
  | s, st :: sts =>
    match st.handler with
    | none => fits s sts
    | some f => decide ((s, f) ∈ permitted) && fits f.exit sts

/-- Every kind of client keeps to the order of the dispatch table. -/
theorem steps_fit (kind : ClientKind) : fits .helloRcvd kind.steps = true := by
  cases kind <;> decide

theorem step_inTurn (K : ClientDeps) (env : Surroundings) {st : ClientStep} {f : HandlerName}
    (hf : st.handler = some f) {c : Client} (hc : InTurn c.log) (hp : (stateReached c.log, f) ∈ permitted) :
    InTurn (st.run D K env c).1.log ∧
      ((st.run D K env c).2 = .ok none → stateReached (st.run D K env c).1.log = f.exit) := by
  obtain ⟨asks, hlog, hasks, hnum⟩ := run_requests (D := D) K env st c
  have hown : ∀ a ∈ asks, a.step.handler = some f ∧ ∀ m, a.request = some m → op2tag m.getOp = f.tag := by
    intro a ha
    obtain ⟨rfl, hreq⟩ := hasks a ha
    refine ⟨hf, fun m hm => ?_⟩
    rw [hm] at hreq
    obtain ⟨g, hg, htag⟩ := hreq.tag
    cases hf.symm.trans hg
    exact htag
  rw [hlog]
  rcases hnum with rfl | ⟨hnone, -⟩ | ⟨a, rfl⟩ | ⟨rfl, hstop⟩
  · cases hf
    obtain ⟨hin, hend⟩ := hc.append hown hp (.inr (by decide))
    refine ⟨hin, fun _ => ?_⟩
    by_cases hnil : asks = []
    · -- without a request the client is where it was, after its Join
      rw [hnil, List.append_nil]
      revert hp
      cases stateReached c.log <;> decide
    · exact hend hnil
  · rw [hf] at hnone
    cases hnone
  · obtain ⟨hin, hend⟩ := hc.append hown hp (.inl le_rfl)
    exact ⟨hin, fun _ => hend (List.cons_ne_nil _ _)⟩
  · rw [List.append_nil]
    exact ⟨hc, fun hpass => absurd hpass hstop⟩

theorem step_quiet (K : ClientDeps) (env : Surroundings) {st : ClientStep} (hst : st.handler = none)
    (c : Client) : (st.run D K env c).1 = c := by
  cases st with
  | openAcc | sessionSetup | persistNode => rfl
  | memberAndOK | createAndReply | joinAndReply | getAndMembers | byeAndAck => cases hst

theorem runSteps_inTurn (K : ClientDeps) (env : Surroundings) {steps : List ClientStep} {c : Client}
    (hfit : fits (stateReached c.log) steps = true) (hc : InTurn c.log) :
    InTurn (runSteps D K env steps c).1.log := by
  induction steps generalizing c with
  | nil => exact hc
  | cons st sts ih =>
    rcases hr : st.run D K env c with ⟨c', r⟩
    -- the client after the step, and the state for what follows it
    obtain ⟨hin, hrest⟩ : InTurn c'.log ∧ (r = .ok none → fits (stateReached c'.log) sts = true) := by
      cases hf : st.handler with
      | none =>
        have hsame := step_quiet (D := D) K env hf c
        rw [hr] at hsame
        simp only [fits, hf] at hfit
        rw [show c' = c from hsame]
        exact ⟨hc, fun _ => hfit⟩
      | some f =>
        simp only [fits, hf, Bool.and_eq_true, decide_eq_true_eq] at hfit
        have hstep := step_inTurn (D := D) K env hf hc hfit.1
        rw [hr] at hstep
        refine ⟨hstep.1, fun hpass => ?_⟩
        rw [hstep.2 hpass]
        exact hfit.2
    rw [runSteps, List.map_cons]
    by_cases hpass : r = .ok none
    · rw [Script.run_pass (hpass ▸ hr)]
      exact ih (hrest hpass) hin
    · rw [Script.run_stop hr hpass]
      exact hin

theorem start_inTurn (D : Deps) (K : ClientDeps) (env : Surroundings) (kind : ClientKind)
    (cm : ClusterMember) : InTurn (kind.start D K env cm).1.log :=
  runSteps_inTurn K env (steps_fit kind) fun i a hi => by cases hi

/-! The two together. -/

/-- In the state that the client expects, its request meets the handler it is meant for. -/
theorem Linked.handled_by {log : List Ask} {c : Session} (hl : Linked log c.exchanges) (hin : InTurn log)
    (hc : c.Chained) {i : ℕ} {ex : Exchange} (hi : c.exchanges[i]? = some ex)
    (hst : stateAfter (c.exchanges.take i) = stateReached (log.take i)) :
    ∃ a, log[i]? = some a ∧ a.request = some ex.msg ∧ a.step.handler = some ex.handler := by
  obtain ⟨a, ha, hreq⟩ := hl.sent i ex hi
  obtain ⟨f, hf, hp, htag⟩ := hin i a ha
  have hd := hc.dispatched i ex hi
  rw [hst, htag ex.msg hreq, dispatch_tag hp] at hd
  cases hd
  exact ⟨a, ha, hreq, hf⟩

/-- As long as the session handles a client's requests it is where the client takes it to be. -/
theorem Linked.in_step {log : List Ask} {c : Session} (hl : Linked log c.exchanges) (hin : InTurn log)
    (hc : c.Chained) {i : ℕ} {ex : Exchange} (hi : c.exchanges[i]? = some ex) :
    stateAfter (c.exchanges.take i) = stateReached (log.take i) ∧
      ∃ a, log[i]? = some a ∧ a.request = some ex.msg ∧ a.step.handler = some ex.handler := by
  induction i generalizing ex with
  | zero => exact ⟨rfl, hl.handled_by hin hc hi rfl⟩
  | succ i ih =>
    obtain ⟨hlt, -⟩ := List.getElem?_eq_some_iff.1 hi
    obtain ⟨ex', hi'⟩ : ∃ ex', c.exchanges[i]? = some ex' := ⟨_, List.getElem?_eq_getElem (by omega)⟩
    obtain ⟨-, a, ha, -, hf⟩ := ih hi'
    have hst : stateAfter (c.exchanges.take (i + 1)) = stateReached (log.take (i + 1)) := by
      rw [(hc.accepted hi' hi).2, List.take_add_one, ha, Option.toList_some, stateReached_concat hf]
    exact ⟨hst, hl.handled_by hin hc hi hst⟩

namespace Sample

/-- A cluster of two with one member, and a client of it on session 1 that goes through all its steps. -/
def visit : List ServerEvent :=
  [.enter (), .act 0 ⟨member "bob" none 2, [.rep 2]⟩, .act 0 ⟨create "c" 2, [.rep 5]⟩,
   .act 0 ⟨joinByName "c", []⟩,
   .enter (), .act 1 ⟨(memberRequest .plain .plain (madeMember (some (.rep 5)) 2)).getD {}, []⟩,
   .act 1 ⟨joinRequest (.rep 5), []⟩, .act 1 ⟨get (.rep 5) 3, []⟩, .act 1 ⟨byeRequest, []⟩]

def replies (evs : List ServerEvent) (k : ℕ) (i : ℕ) : Turn :=
  (((serve .plain (.rep 9) evs).toOption.bind fun s => s.parties[k]?).bind
    fun c => c.exchanges[i]?).elim hangUp fun ex => { read := .ok ex.reply, draws := fun _ => .rep 8 }

def visitor : Client × Except Abort (Option Err) :=
  ClientKind.start .plain .plain { net := replies visit 1 } .userMember (madeMember (some (.rep 5)) 2)

end Sample

theorem visitor_answered {s : ServerState} {c : Session} (h : serve .plain (.rep 9) Sample.visit = .ok s)
    (hc : s.parties[1]? = some c) :
    List.Forall₂ Ask.AnsweredBy Sample.visitor.1.log c.exchanges := by
  cases h
  cases hc
  exact .cons ⟨rfl, rfl, rfl⟩ (.cons ⟨rfl, rfl, rfl⟩ (.cons ⟨rfl, rfl, rfl⟩ (.cons ⟨rfl, rfl, rfl⟩ .nil)))

/-- Every request of a client that its session handles, whatever the other sessions do, is handled
by the handler of the step that made it. None is refused for being out of order. -/
theorem client_requests_in_step {regID : NodeID} {evs : List ServerEvent} {s : ServerState}
    (h : serve D regID evs = .ok s) {c : Session} (hc : c ∈ s.parties) {kind : ClientKind}
    {cm : ClusterMember} (hl : Linked (kind.start D K env cm).1.log c.exchanges) :
    ∀ (i : ℕ) ex, c.exchanges[i]? = some ex → ∃ a, (kind.start D K env cm).1.log[i]? = some a ∧
      a.request = some ex.msg ∧ a.step.handler = some ex.handler :=
  fun _ _ hi => (hl.in_step (start_inTurn D K env kind cm) (serve_chained h hc) hi).2

theorem client_requests_in_step_sample :
    ∃ s c ex, serve .plain (.rep 9) Sample.visit = .ok s ∧ s.parties[1]? = some c ∧
      c.exchanges[2]? = some ex ∧ ex.handler = .doGetMsg := by
  have hserve : serve .plain (.rep 9) Sample.visit = .ok _ := rfl
  obtain ⟨a, ha, -, hf⟩ := client_requests_in_step hserve (List.mem_of_getElem? (i := 1) rfl)
    (Linked.of_answered (visitor_answered hserve rfl)) 2 _ rfl
  refine ⟨_, _, _, hserve, rfl, rfl, ?_⟩
  cases ha
  exact (Option.some.inj hf).symm

/-! What a client can do to the server. -/

/-- The session has handled all requests so far: unless it is closed, it is where they lead. -/
theorem Linked.now {log : List Ask} {c : Session} (hl : Linked log c.exchanges) (hin : InTurn log)
    (hc : c.Chained) (hlen : log.length = c.exchanges.length) (hopen : c.h.entryState ≠ .inClosed) :
    c.h.entryState = stateReached log := by
  rw [hc.now] at hopen ⊢
  rcases List.eq_nil_or_concat c.exchanges with hnil | ⟨exs, ex, hexs⟩
  · rw [hnil, List.length_nil, List.length_eq_zero_iff] at hlen
    rw [hnil, hlen]
    rfl
  · rw [List.concat_eq_append] at hexs
    have hi : c.exchanges[exs.length]? = some ex := by rw [hexs, List.getElem?_concat_length]
    obtain ⟨-, a, ha, -, hf⟩ := hl.in_step hin hc hi
    have hsplit : log = log.take exs.length ++ [a] := by
      rw [hexs, List.length_append, List.length_singleton] at hlen
      conv_lhs => rw [← List.take_length (l := log), hlen, List.take_add_one, ha, Option.toList_some]
    rw [hexs, stateAfter_concat] at hopen ⊢
    rw [hsplit, stateReached_concat hf]
    split_ifs at hopen ⊢ with herr
    · rfl
    · exact absurd rfl hopen

theorem InTurn.split {pre post : List Ask} {a : Ask} (h : InTurn (pre ++ a :: post)) :
    InTurn pre ∧ ∃ f, a.step.handler = some f ∧ (stateReached pre, f) ∈ permitted ∧
      ∀ m, a.request = some m → op2tag m.getOp = f.tag := by
  constructor
  · intro i b hi
    obtain ⟨hlt, -⟩ := List.getElem?_eq_some_iff.1 hi
    have hb := h i b (by rw [List.getElem?_append_left hlt, hi])
    rwa [List.take_append_of_le_length hlt.le] at hb
  · have ha := h pre.length a (by simp)
    rwa [List.take_left] at ha

theorem start_requests (D : Deps) (K : ClientDeps) (env : Surroundings) (kind : ClientKind)
    (cm : ClusterMember) :
    ∀ a ∈ (kind.start D K env cm).1.log, ∃ cm', a.step.Requests D K cm' a.request := by
  have hstep : ∀ st : ClientStep, ∀ c : Client, (∀ a ∈ c.log, ∃ cm', a.step.Requests D K cm' a.request) →
      ∀ a ∈ (st.run D K env c).1.log, ∃ cm', a.step.Requests D K cm' a.request := by
    intro st c hc a ha
    obtain ⟨asks, hlog, hasks, -⟩ := run_requests (D := D) K env st c
    rw [hlog] at ha
    rcases List.mem_append.1 ha with hold | hnew
    · exact hc a hold
    · obtain ⟨rfl, hreq⟩ := hasks a hnew
      exact ⟨c.cm, hreq⟩
  refine Script.run_rule (I := fun c : Client => ∀ a ∈ c.log, ∃ cm', a.step.Requests D K cm' a.request)
    (Q := fun r : Stepped => ∀ a ∈ r.1.log, ∃ cm', a.step.Requests D K cm' a.request)
    ?_ ?_ (fun c hc => hc) (fun a ha => absurd ha List.not_mem_nil)
  · intro s hs c c' hc hpass
    obtain ⟨st, -, rfl⟩ := List.mem_map.1 hs
    have hc' := hstep st c hc
    rwa [hpass] at hc'
  · intro s hs c c' r hc hstop _
    obtain ⟨st, -, rfl⟩ := List.mem_map.1 hs
    have hc' := hstep st c hc
    rwa [hstop] at hc'

theorem returns_of_request {w : World} {h : InHandler} {st : ClientStep} {f : HandlerName}
    (hf : st.handler = some f) {cm : ClusterMember} (hreq : st.Requests D K cm (some h.msgIn))
    (draws : List NodeID) :
    f.Returns D w h draws ↔
      (st = .joinAndReply → ∃ p ∈ w.reg.clusters, h.msgIn.clusterID = some (w.idAt p)) ∧
      (st = .createAndReply → w.reg.clustersByName.lookup h.msgIn.getClusterName = none →
        Supplied D w.reg.idFilter draws) := by
  cases st with
  | openAcc | sessionSetup | persistNode => exact hreq.elim
  | memberAndOK =>
    cases hf
    obtain ⟨token, htoken, hmsg⟩ := memberRequest_ok (Eq.symm hreq)
    obtain ⟨ckBytes, skBytes, digSig, -, -, -, rfl⟩ := memberToken_ok htoken
    refine iff_of_true (fun _ hid => ?_) ⟨fun hst => (by cases hst), fun hst => (by cases hst)⟩
    rw [hmsg] at hid
    cases hid
  | createAndReply =>
    cases hf
    exact ⟨fun hr => ⟨fun hst => (by cases hst), fun _ => hr⟩, fun hr => hr.2 rfl⟩
  | joinAndReply =>
    cases hf
    obtain ⟨id, -, hmsg⟩ := hreq
    have hid : h.msgIn.clusterID = some id.value := by
      rw [Option.some.inj hmsg]
      rfl
    have hd : ∀ p, Designates w h p ↔ p ∈ w.reg.clusters ∧ h.msgIn.clusterID = some (w.idAt p) := by
      intro p
      simp only [Designates, hid, Option.some.injEq, eq_comm]
    simp only [HandlerName.Returns, hd, forall_const, reduceCtorEq, false_implies, and_true]
  | getAndMembers =>
    cases hf
    exact iff_of_true trivial ⟨fun hst => (by cases hst), fun hst => (by cases hst)⟩
  | byeAndAck =>
    cases hf
    exact iff_of_true trivial ⟨fun hst => (by cases hst), fun hst => (by cases hst)⟩

/-- The next request of a client, all of whose requests so far its session has handled, brings the
server down in two cases only: it is a Join with an ID that no cluster of the registry has, or a
Create of a new cluster for which no unused ID is drawn. -/
theorem client_request_survives_iff (hmap : D.HamtTotal) {regID : NodeID} {evs : List ServerEvent}
    {s : ServerState} (h : serve D regID evs = .ok s) {k : ℕ} {c : Session} (hc : s.parties[k]? = some c)
    {kind : ClientKind} {cm : ClusterMember} {pre post : List Ask} {a : Ask}
    (hlog : (kind.start D K env cm).1.log = pre ++ a :: post) (hl : Linked pre c.exchanges)
    (hlen : pre.length = c.exchanges.length) {m : XLRegMsg} (hm : a.request = some m)
    (draws : List NodeID) :
    (∃ s', (server D).next s (.act k ⟨m, draws⟩) = .ok s') ↔ (c.h.entryState ≠ .inClosed →
      (a.step = .joinAndReply →
        ∃ p ∈ s.shared.world.reg.clusters, m.clusterID = some (s.shared.world.idAt p)) ∧
      (a.step = .createAndReply →
        s.shared.world.reg.clustersByName.lookup m.getClusterName = none →
        Supplied D s.shared.world.reg.idFilter draws)) := by
  have hmem := List.mem_of_getElem? hc
  obtain ⟨hw, hest⟩ := serve_established hmap h
  have hnext : (∃ s', (server D).next s (.act k ⟨m, draws⟩) = .ok s') ↔
      ∃ r, sessionStep D s.shared c ⟨m, draws⟩ = .ok r := by
    simp only [Parties.next, hc, server]
    rcases sessionStep D s.shared c ⟨m, draws⟩ with x | r <;> simp
  rw [hnext, sessionStep_returns_iff hmap hw (hest c hmem), Tolerated, ← inTable_iff, InTable]
  by_cases hopen : c.h.entryState = .inClosed
  · refine iff_of_true ⟨fun hno => absurd hopen hno, fun f hf => ?_⟩ fun hno => absurd hopen hno
    exact absurd hopen (open_of_dispatch hf)
  · have hin := start_inTurn D K env kind cm
    obtain ⟨cm', hreq⟩ := start_requests D K env kind cm a (by rw [hlog]; simp)
    rw [hlog] at hin
    obtain ⟨hpre, f, hf, hp, htag⟩ := hin.split
    have hd : dispatch c.h.entryState (op2tag m.getOp) = some f := by
      rw [hl.now hpre (serve_chained h hmem) hlen hopen, htag m hm]
      exact dispatch_tag hp
    rw [hm] at hreq
    have hret := returns_of_request (w := s.shared.world) (h := { c.h with msgIn := m }) hf hreq draws
    simp only [hd, ne_eq, hopen, not_false_eq_true, reduceCtorEq, forall_const, true_and,
      Option.some.injEq, forall_eq']
    exact hret

/-- The Join of the same client, for which its session is ready. -/
theorem client_request_survives_iff_sample :
    ∃ s s', serve .plain (.rep 9) (Sample.visit.take 6) = .ok s ∧
      (server .plain).next s (.act 1 ⟨joinRequest (.rep 5), []⟩) = .ok s' := by
  have hserve : serve .plain (.rep 9) (Sample.visit.take 6) = .ok _ := rfl
  have hlog : Sample.visitor.1.log = Sample.visitor.1.log.take 1 ++ _ :: _ := rfl
  obtain ⟨s', hs'⟩ := (client_request_survives_iff plain_hamtTotal hserve (k := 1) rfl hlog
    (.of_answered (.cons ⟨rfl, rfl, rfl⟩ .nil)) rfl rfl []).2 fun _ => ⟨fun _ => ⟨0, by decide, rfl⟩, nofun⟩
  exact ⟨_, s', hserve, hs'⟩

end XlReg
