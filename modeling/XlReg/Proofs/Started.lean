import XlReg.Proofs.Vouched

/-! What a client has when its `Start` reports no error. A client that ends with a Bye has then had
all its requests accepted; a UserMember is in the list of the cluster whose ID it was made with, and
its table holds members of that cluster, each in its own slot. An AdminClient knows the ID of the
cluster of its name, so that a UserMember made with this ID ends up in it. -/

namespace XlReg

open Run Pack

variable {D : Deps} {K : ClientDeps} {env : Surroundings}

/-! The Bye. -/

theorem runSteps_quiet {steps : List ClientStep} (hq : ∀ st ∈ steps, st.handler = none) {c cl : Client}
    (h : runSteps D K env steps c = (cl, .ok none)) : cl = c := by
  induction steps generalizing c with
  | nil =>
    cases h
    rfl
  | cons st sts ih =>
    obtain ⟨hst, hsts⟩ := List.forall_mem_cons.1 hq
    obtain ⟨c₁, hrun, hrest⟩ := Script.run_cons_passed h
    have hsame := step_quiet (D := D) K env hst c
    rw [hrun] at hsame
    rw [← show c₁ = c from hsame]
    exact ih hsts hrest

/-- A client that passes its last request, a Bye, has had it answered. -/
theorem runSteps_bye {pre post : List ClientStep} (hq : ∀ st ∈ post, st.handler = none) {c cl : Client}
    (h : runSteps D K env (pre ++ .byeAndAck :: post) c = (cl, .ok none)) :
    ∃ log a m, cl.log = log ++ [a] ∧ a.step = .byeAndAck ∧ a.turn.answer = .ok m := by
  rw [runSteps, List.map_append] at h
  rcases Script.run_append (pre.map (ClientStep.run D K env))
    ((ClientStep.byeAndAck :: post).map (ClientStep.run D K env)) c with ⟨c₁, -, hrest⟩ | ⟨hstop, hsame⟩
  · rw [hrest] at h
    obtain ⟨c₂, hbye, hpost⟩ := Script.run_cons_passed h
    obtain ⟨a, hstep, -, hrun⟩ := byeAndAck_cases env.net c₁
    change byeAndAck env.net c₁ = (c₂, .ok none) at hbye
    rw [hrun] at hbye
    obtain ⟨hc₂, hans⟩ := Prod.ext_iff.1 hbye
    obtain rfl := runSteps_quiet hq hpost
    rcases ha : a.turn.answer with e | m
    · rw [ha] at hans
      cases hans
    · exact ⟨c₁.log, a, m, congrArg Client.log hc₂.symm, hstep, ha⟩
  · rw [hsame] at h
    rw [h] at hstop
    exact absurd rfl hstop

theorem steps_bye {kind : ClientKind} (h : .byeAndAck ∈ kind.steps) :
    ∃ pre post, kind.steps = pre ++ .byeAndAck :: post ∧ ∀ st ∈ post, st.handler = none := by
  cases kind with
  | userMember => exact ⟨[.openAcc, .sessionSetup, .memberAndOK, .joinAndReply, .getAndMembers], [], rfl, nofun⟩
  | adminClient => exact ⟨[.sessionSetup, .memberAndOK, .createAndReply], [], rfl, nofun⟩
  | soloMember => exact ⟨[.sessionSetup, .memberAndOK], [.persistNode], rfl, by decide⟩
  | bootstrapper => exact absurd h (by decide)

theorem Linked.answered {log : List Ask} {exs : List Exchange} (hl : Linked log exs) {pre : List Ask}
    {a : Ask} (hlog : log = pre ++ [a]) {m : XLRegMsg} (ha : a.turn.answer = .ok m) :
    List.Forall₂ Ask.AnsweredBy log exs := by
  obtain ⟨n, hheard, hcut⟩ := hl.heard
  have hlast : log[pre.length]? = some a := by rw [hlog, List.getElem?_concat_length]
  have hn : pre.length < n := by
    by_contra hge
    obtain ⟨e, he⟩ := hcut pre.length (by omega) a hlast
    obtain ⟨-, mo, hread, -⟩ := Turn.answer_ok_iff.1 ha
    rw [he] at hread
    cases hread
  have hall : ∀ (i : ℕ) (b : Ask), log[i]? = some b → ∃ ex, exs[i]? = some ex ∧ b.AnsweredBy ex := by
    intro i b hi
    have hlt := (List.getElem?_eq_some_iff.1 hi).1
    rw [hlog, List.length_append, List.length_singleton] at hlt
    exact hheard i (by omega) b hi
  have hlen : log.length = exs.length := by
    obtain ⟨ex, hex, -⟩ := hall pre.length a hlast
    have hle := (List.getElem?_eq_some_iff.1 hex).1
    have hge : ∀ i < exs.length, i < log.length := by
      intro i hi
      obtain ⟨b, hb, -⟩ := hl.sent i _ (List.getElem?_eq_getElem hi)
      exact (List.getElem?_eq_some_iff.1 hb).1
    have hlog' : log.length = pre.length + 1 := by rw [hlog, List.length_append, List.length_singleton]
    have hne := hge (exs.length - 1) (by omega)
    omega
  refine List.forall₂_iff_get.2 ⟨hlen, fun i h₁ h₂ => ?_⟩
  obtain ⟨ex, hex, hans⟩ := hall i _ (List.getElem?_eq_getElem h₁)
  rw [List.getElem?_eq_getElem h₂] at hex
  cases hex
  exact hans

/-- A session all of whose requests are answered, the last of them by the handler of Bye, has had
no error. -/
theorem Session.Chained.no_error {c : Session} (hc : c.Chained) {exs : List Exchange} {ex : Exchange}
    (hexs : c.exchanges = exs ++ [ex]) (hbye : ex.handler = .doByeMsg) :
    (∀ ex' ∈ c.exchanges, ex'.err = none) ∧ c.h.entryState = .byeRcvd := by
  have hlast : ex.err = none := hc.bye ex (by rw [hexs]; simp) hbye
  constructor
  · intro ex' hex'
    obtain ⟨i, hi⟩ := List.mem_iff_getElem?.1 hex'
    rcases hnext : c.exchanges[i + 1]? with - | ex''
    · have hi' := (List.getElem?_eq_some_iff.1 hi).1
      have hend := List.getElem?_eq_none_iff.1 hnext
      rw [hexs, List.length_append, List.length_singleton] at hi' hend
      obtain rfl : i = exs.length := by omega
      rw [hexs, List.getElem?_concat_length] at hi
      cases hi
      exact hlast
    · exact (hc.accepted hi hnext).1
  · rw [hc.now, hexs, stateAfter_concat, if_pos hlast, hbye]
    rfl

/-- A client that ends its session with a Bye and reports no error has had every request answered,
the Bye by its handler. -/
theorem started_answered {regID : NodeID} {evs : List ServerEvent} {s : ServerState}
    (h : serve D regID evs = .ok s) {c : Session} (hc : c ∈ s.parties) {kind : ClientKind}
    (hbye : .byeAndAck ∈ kind.steps) {cm : ClusterMember} {cl : Client}
    (hstart : kind.start D K env cm = (cl, .ok none)) (hl : Linked cl.log c.exchanges) :
    List.Forall₂ Ask.AnsweredBy cl.log c.exchanges ∧
      ∃ exs ex, c.exchanges = exs ++ [ex] ∧ ex.handler = .doByeMsg := by
  obtain ⟨steps, post, hsteps, hquiet⟩ := steps_bye hbye
  have hin := start_inTurn D K env kind cm
  rw [hstart] at hin
  rw [ClientKind.start, hsteps] at hstart
  obtain ⟨pre, a, m, hlog, hstep, ha⟩ := runSteps_bye hquiet hstart
  have hans := hl.answered hlog ha
  obtain ⟨ex, hex, -⟩ := Parties.forall₂_getElem? hans (i := pre.length)
    (by rw [hlog, List.getElem?_concat_length])
  obtain ⟨-, a', ha', -, hf⟩ := hl.in_step hin (serve_chained h hc) hex
  rw [hlog, List.getElem?_concat_length] at ha'
  cases ha'
  rw [hstep] at hf
  refine ⟨hans, c.exchanges.take pre.length, ex, ?_, (Option.some.inj hf).symm⟩
  have hlen := hans.length_eq
  rw [hlog, List.length_append, List.length_singleton] at hlen
  conv_lhs => rw [← List.take_length (l := c.exchanges), ← hlen, List.take_add_one, hex, Option.toList_some]

/-- A client that ends its session with a Bye and reports no error has had every request answered,
and none of them was refused. -/
theorem client_started_accepted {regID : NodeID} {evs : List ServerEvent} {s : ServerState}
    (h : serve D regID evs = .ok s) {c : Session} (hc : c ∈ s.parties) {kind : ClientKind}
    (hbye : .byeAndAck ∈ kind.steps) {cm : ClusterMember} {cl : Client}
    (hstart : kind.start D K env cm = (cl, .ok none)) (hl : Linked cl.log c.exchanges) :
    List.Forall₂ Ask.AnsweredBy cl.log c.exchanges ∧ (∀ ex ∈ c.exchanges, ex.err = none) ∧
      c.h.entryState = .byeRcvd := by
  obtain ⟨hans, exs, ex, hexs, hlast⟩ := started_answered h hc hbye hstart hl
  exact ⟨hans, (serve_chained h hc).no_error hexs hlast⟩

/-- The client of the concrete run reports no error. -/
theorem client_started_accepted_sample :
    ∃ s c, serve .plain (.rep 9) Sample.visit = .ok s ∧ s.parties[1]? = some c ∧
      Sample.visitor.2 = .ok none ∧ c.exchanges.length = 4 ∧ ∀ ex ∈ c.exchanges, ex.err = none := by
  have hserve : serve .plain (.rep 9) Sample.visit = .ok _ := rfl
  have hstart : Sample.visitor = (_, .ok none) := rfl
  refine ⟨_, _, hserve, rfl, rfl, rfl, ?_⟩
  exact (client_started_accepted hserve (List.mem_of_getElem? (i := 1) rfl) (by decide) hstart
    (.of_answered (visitor_answered hserve rfl))).2.1

/-! The client's table. -/

/-- The answer to the request has a token for slot `i` that decodes to `mi`. -/
def Ask.Fills (D : Deps) (i : ℕ) (mi : MemberInfo) (a : Ask) : Prop :=
  ∃ m t, a.turn.answer = .ok m ∧ (i, t) ∈ received D a.size.toNat m ∧
    newMemberInfoFromToken D (a.turn.draws i) (some t) = .ok mi

theorem unpacks_slots (draws : ℕ → NodeID) (mm : MemberMaker) (ts : List (ℕ × Token)) {i : ℕ}
    {mi : MemberInfo} (h : (mm.unpacks D draws ts).members[i]? = some (some mi)) :
    mm.members[i]? = some (some mi) ∨
      ∃ t, (i, t) ∈ ts ∧ newMemberInfoFromToken D (draws i) (some t) = .ok mi := by
  induction ts generalizing mm with
  | nil => exact .inl h
  | cons p ts ih =>
    rcases ih (mm.unpack D (draws p.1) p.1 p.2) h with hold | ⟨t, ht, hmi⟩
    · unfold MemberMaker.unpack at hold
      by_cases hp : p.1 = i
      · subst hp
        rcases hn : newMemberInfoFromToken D (draws p.1) (some p.2) with e | mi'
        · simp only [hn, List.getElem?_set, if_true] at hold
          split_ifs at hold
          cases hold
        · simp only [hn, List.getElem?_set, if_true] at hold
          split_ifs at hold
          cases hold
          exact .inr ⟨p.2, List.mem_cons_self, hn⟩
      · split at hold
        all_goals
          rw [List.getElem?_set_ne hp] at hold
          exact .inl hold
    · exact .inr ⟨t, List.mem_cons_of_mem _ ht, hmi⟩

theorem exchange_slots {mm mm' : MemberMaker} {t : Turn} {again : Bool}
    (h : mm.exchange D t = .ok (mm', again)) {i : ℕ} {mi : MemberInfo}
    (hi : mm'.members[i]? = some (some mi)) (step : ClientStep) (request : Option XLRegMsg) :
    mm.members[i]? = some (some mi) ∨ Ask.Fills D i mi ⟨step, mm.clusterMaxSize, request, t⟩ := by
  rw [MemberMaker.exchange_eq] at h
  rcases ha : t.answer with e | m
  · simp only [ha] at h
    cases h
    exact .inl hi
  · simp only [ha] at h
    split_ifs at h
    cases h
    rcases unpacks_slots _ _ _ hi with hold | ⟨tok, htok, hmi⟩
    · exact .inl hold
    · exact .inr ⟨m, tok, ha, htok, hmi⟩

theorem getRounds_slots (net : ℕ → Turn) (n : ℕ) (log : List Ask) (mm : MemberMaker) :
    ∃ asks, (getRounds D net n log mm).1 = log ++ asks ∧
      ∀ mm', (getRounds D net n log mm).2 = .ok mm' → ∀ (i : ℕ) (mi : MemberInfo),
        mm'.members[i]? = some (some mi) →
        mm.members[i]? = some (some mi) ∨ ∃ a ∈ asks, a.Fills D i mi := by
  have hsame : ∀ (log : List Ask) (mm : MemberMaker), ∃ asks, log = log ++ asks ∧
      ∀ mm', (.ok mm : Except Abort MemberMaker) = .ok mm' → ∀ (i : ℕ) (mi : MemberInfo),
        mm'.members[i]? = some (some mi) →
        mm.members[i]? = some (some mi) ∨ ∃ a ∈ asks, a.Fills D i mi := by
    refine fun log mm => ⟨[], (List.append_nil _).symm, fun mm' h i mi hi => ?_⟩
    cases h
    exact .inl hi
  induction n generalizing log mm with
  | zero => exact hsame log mm
  | succ n ih =>
    unfold getRounds
    split_ifs
    · rcases clearFilled D mm.members mm.clusterMaxSize.toNat 0 mm.stillToGet with x | still
      · exact ⟨[], (List.append_nil _).symm, fun mm' h => (by cases h)⟩
      · simp only
        set a : Ask := ⟨.getAndMembers, mm.clusterMaxSize,
          some { mm with stillToGet := still }.getRequest, net log.length⟩
        rcases hex : MemberMaker.exchange D { mm with stillToGet := still } (net log.length) with
          x | ⟨mm₁, again⟩
        · exact ⟨[a], rfl, fun mm' h => (by cases h)⟩
        · have hround : ∀ (i : ℕ) (mi : MemberInfo), mm₁.members[i]? = some (some mi) →
              mm.members[i]? = some (some mi) ∨ a.Fills D i mi :=
            fun i mi hi => exchange_slots hex hi _ _
          cases again with
          | false =>
            refine ⟨[a], rfl, fun mm' h i mi hi => ?_⟩
            cases h
            exact (hround i mi hi).imp_right fun hf => ⟨a, List.mem_cons_self, hf⟩
          | true =>
            obtain ⟨asks, hlog, hslots⟩ := ih (log ++ [a]) mm₁
            refine ⟨a :: asks, by simp only [hlog, List.append_assoc, List.singleton_append], ?_⟩
            intro mm' h i mi hi
            rcases hslots mm' h i mi hi with hold | ⟨b, hb, hf⟩
            · exact (hround i mi hold).imp_right fun hf => ⟨a, List.mem_cons_self, hf⟩
            · exact .inr ⟨b, List.mem_cons_of_mem _ hb, hf⟩
    · exact hsame log mm

theorem getRounds_length (net : ℕ → Turn) (n : ℕ) (log : List Ask) (mm : MemberMaker) :
    ∀ mm', (getRounds D net n log mm).2 = .ok mm' → mm'.members.length = mm.members.length := by
  obtain ⟨asks, -, ⟨-, hr | ⟨-, hr⟩⟩ | ⟨-, -, hlen⟩⟩ := getRounds_decided (D := D) net n log mm
  · intro mm' h
    rw [hr] at h
    cases h
    rfl
  · intro mm' h
    rw [hr] at h
    cases h
  · exact hlen

/-- What a call of `GetAndMembers` that reports no error changes: slots that were filled before it
or by an answer, and the client's own index. -/
theorem getAndMembers_slots {net : ℕ → Turn} {c c' : Client}
    (h : getAndMembers D net c = (c', .ok none)) :
    ∃ asks members selfIndex, c' = ⟨{ c.cm with members, selfIndex }, c.log ++ asks⟩ ∧
      members.length = c.cm.members.length ∧
      ∀ (i : ℕ) (mi : MemberInfo), members[i]? = some (some mi) →
        c.cm.members[i]? = some (some mi) ∨ ∃ a ∈ asks, a.Fills D i mi := by
  -- the search for oneself changes the index alone
  have hself : ∀ {c c' : Client}, c.lookForSelf = (c', .ok none) →
      ∃ selfIndex, c' = ⟨{ c.cm with selfIndex }, c.log⟩ := by
    intro c c' hl
    unfold Client.lookForSelf at hl
    split at hl
    · cases hl
    · cases hl
      exact ⟨_, rfl⟩
  unfold getAndMembers at h
  cases hid : c.cm.clusterID with
  | none =>
    simp only [hid] at h
    split_ifs at h
    · split at h <;> cases h
    · obtain ⟨selfIndex, rfl⟩ := hself h
      exact ⟨[], c.cm.members, selfIndex, by rw [List.append_nil], rfl, fun i mi hi => .inl hi⟩
  | some id =>
    simp only [hid] at h
    obtain ⟨asks, hlog, hslots⟩ := getRounds_slots (D := D) net MAX_GET c.log (c.cm.maker D id)
    have hlen := getRounds_length (D := D) net MAX_GET c.log (c.cm.maker D id)
    rcases hg : getRounds D net MAX_GET c.log (c.cm.maker D id) with ⟨log, x | mm⟩
    · simp only [hg] at h
      cases h
    · rw [hg] at hlog hslots hlen
      obtain rfl : log = c.log ++ asks := hlog
      simp only [hg] at h
      split at h
      · cases h
      · obtain ⟨selfIndex, rfl⟩ := hself h
        exact ⟨asks, mm.members, selfIndex, by simp only [hid], hlen mm rfl, hslots mm rfl⟩

/-! A UserMember that has started. -/

/-- Each request of a started client has been answered, by its own handler and without an error, and
what the reply says is so. -/
theorem started_exchange {regID : NodeID} {evs : List ServerEvent} {s : ServerState}
    (h : serve D regID evs = .ok s) {c : Session} (hc : c ∈ s.parties) {kind : ClientKind}
    (hbye : .byeAndAck ∈ kind.steps) {cm : ClusterMember} {cl : Client}
    (hstart : kind.start D K env cm = (cl, .ok none)) (hl : Linked cl.log c.exchanges) {a : Ask}
    (ha : a ∈ cl.log) {f : HandlerName} (hf : a.step.handler = some f) :
    ∃ ex ∈ c.exchanges, a.AnsweredBy ex ∧ ex.handler = f ∧ ex.err = none ∧ ex.Vouched D s.shared.world c := by
  obtain ⟨hans, exs, ex, hexs, hlast⟩ := started_answered h hc hbye hstart hl
  have hchain := serve_chained h hc
  have hin := start_inTurn D K env kind cm
  rw [hstart] at hin
  obtain ⟨i, hi⟩ := List.mem_iff_getElem?.1 ha
  obtain ⟨ex', hex', hans'⟩ := Parties.forall₂_getElem? hans hi
  have hmem := List.mem_of_getElem? hex'
  have hok := (hchain.no_error hexs hlast).1 ex' hmem
  obtain ⟨-, b, hb, -, hfb⟩ := hl.in_step hin hchain hex'
  rw [hi] at hb
  cases hb
  rw [hf] at hfb
  exact ⟨ex', hmem, hans', (Option.some.inj hfb).symm, hok, serve_vouched h hc ex' hmem hok⟩

theorem passed_request {st : ClientStep} {c c' : Client} {r : Except Abort (Option Err)} {a : Ask}
    (h : st.run D K env c = (c', r)) (hlog : c'.log = c.log ++ [a]) :
    a.step = st ∧ st.Requests D K c.cm a.request := by
  obtain ⟨asks, hasks, hreq, -⟩ := run_requests (D := D) K env st c
  rw [h] at hasks
  obtain rfl : asks = [a] := List.append_cancel_left (hasks.symm.trans hlog)
  exact hreq a List.mem_cons_self

/-- The session of a UserMember: its requests, and what it has at the end. -/
structure UserRun (D : Deps) (K : ClientDeps) (cm : ClusterMember) (cl : Client) (a₀ a₁ : Ask)
    (asks : List Ask) (id : NodeID) (m : XLRegMsg) : Prop where
  log : ∃ bye, cl.log = a₀ :: a₁ :: (asks ++ [bye])
  member : a₀.step = .memberAndOK ∧ a₀.request = memberRequest D K cm
  clusterID : cm.clusterID = some id
  join : a₁.step = .joinAndReply ∧ a₁.request = some (joinRequest id)
  joined : a₁.turn.answer = .ok m
  gets : ∀ a ∈ asks, a.Gets id
  clusterMaxSize : cl.cm.clusterMaxSize = m.getClusterMaxSize
  epCount : cl.cm.epCount = m.getEndPointCount
  length : cl.cm.members.length = m.getClusterMaxSize.toNat
  slots : ∀ (i : ℕ) (mi : MemberInfo), cl.cm.members[i]? = some (some mi) → ∃ a ∈ asks, a.Fills D i mi

theorem userMember_run {cm : ClusterMember} (hnew : cm.members = List.replicate cm.clusterMaxSize.toNat none)
    {cl : Client} (h : ClientKind.start D K env .userMember cm = (cl, .ok none)) :
    ∃ a₀ a₁ asks id m, UserRun D K cm cl a₀ a₁ asks id m := by
  obtain ⟨c₁, h₁, h⟩ := Script.run_cons_passed h
  obtain rfl : c₁ = ⟨cm, []⟩ := (congrArg Prod.fst h₁).symm
  obtain ⟨c₂, h₂, h⟩ := Script.run_cons_passed h
  obtain rfl : c₂ = ⟨cm, []⟩ := (congrArg Prod.fst h₂).symm
  obtain ⟨c₃, h₃, h⟩ := Script.run_cons_passed h
  obtain ⟨a₀, attrs, -, rfl⟩ := memberAndOK_passed h₃
  have hmember := passed_request h₃ rfl
  obtain ⟨c₄, h₄, h⟩ := Script.run_cons_passed h
  obtain ⟨a₁, m, hm, rfl⟩ : ∃ a m, a.turn.answer = .ok m ∧ c₄ =
      ⟨{ cm with attrs, clusterMaxSize := m.getClusterMaxSize,
                 members := resized cm.clusterMaxSize m.getClusterMaxSize cm.members,
                 epCount := m.getEndPointCount }, [a₀, a]⟩ := by
    change joinAndReply env.net _ = _ at h₄
    obtain ⟨-, hj⟩ | ⟨a, -, -, ⟨e, -, hj⟩ | ⟨m, hm, hj⟩⟩ := joinAndReply_cases env.net ⟨{ cm with attrs }, [a₀]⟩
    · rw [hj] at h₄
      cases h₄
    · rw [hj] at h₄
      cases h₄
    · rw [hj] at h₄
      exact ⟨a, m, hm, (congrArg Prod.fst h₄).symm⟩
  obtain ⟨hstep₁, id, hid, hjoin⟩ := passed_request h₄ rfl
  obtain ⟨c₅, h₅, h⟩ := Script.run_cons_passed h
  obtain ⟨asks, members, selfIndex, hc₅, hlen, hslots⟩ := getAndMembers_slots h₅
  have hgets : ∀ a ∈ asks, a.Gets id := by
    obtain ⟨asks', hlog, hgets⟩ := getAndMembers_requests (D := D) env.net
      ⟨{ cm with attrs, clusterMaxSize := m.getClusterMaxSize,
                 members := resized cm.clusterMaxSize m.getClusterMaxSize cm.members,
                 epCount := m.getEndPointCount }, [a₀, a₁]⟩
    rw [show getAndMembers D env.net _ = (c₅, .ok none) from h₅, hc₅] at hlog
    obtain rfl : asks = asks' := List.append_cancel_left hlog
    intro a ha
    obtain ⟨id', hid', hget⟩ := hgets a ha
    cases hid.symm.trans hid'
    exact hget
  obtain ⟨c₆, h₆, h⟩ := Script.run_cons_passed h
  obtain ⟨bye, -, -, hbye⟩ := byeAndAck_cases env.net c₅
  rw [show byeAndAck env.net c₅ = (c₆, .ok none) from h₆] at hbye
  obtain rfl : c₆ = ⟨c₅.cm, c₅.log ++ [bye]⟩ := congrArg Prod.fst hbye
  obtain rfl : cl = ⟨c₅.cm, c₅.log ++ [bye]⟩ := (congrArg Prod.fst h).symm
  subst hc₅
  -- before the first answer the table is empty
  have hempty : ∀ (i : ℕ) (mi : MemberInfo),
      (resized cm.clusterMaxSize m.getClusterMaxSize cm.members)[i]? ≠ some (some mi) := by
    intro i mi hi
    rw [hnew, resized] at hi
    split_ifs at hi
    all_goals cases (List.eq_of_mem_replicate (List.mem_of_getElem? hi))
  refine ⟨a₀, a₁, asks, id, m, ⟨bye, by simp⟩, hmember, hid, ⟨hstep₁, hjoin⟩, hm, hgets, rfl, rfl,
    ?_, ?_⟩
  · rw [hlen]
    exact length_resized (by rw [hnew, List.length_replicate])
  · exact fun i mi hi => (hslots i mi hi).resolve_left (hempty i mi)

/-- What a UserMember that was made as `made` and is now `cm` has of its cluster: the parameters, a
table of its size, and a place in its list. -/
structure ClusterMember.Joined (made : ClusterMember) (rc : RegCluster) (cm : ClusterMember) : Prop where
  clusterID : made.clusterID = some rc.id
  clusterMaxSize : cm.clusterMaxSize = rc.maxSize
  epCount : cm.epCount = rc.epCount
  table : cm.members.length = rc.maxSize.toNat
  self : ∃ m ∈ rc.members, m.nodeID = made.node.nodeID ∧ m.name = made.node.name ∧
    m.attrs = made.proposedAttrs ∧ m.myEnds = made.node.endPoints.map (·.addr)

theorem Ask.AnsweredBy.answer {a : Ask} {ex : Exchange} (h : a.AnsweredBy ex) {r : XLRegMsg}
    (hr : ex.reply = some r) : a.turn.answer = .ok r :=
  Turn.answer_ok_iff.2 ⟨h.write, some r, by rw [h.read, hr], rfl⟩

section Started

variable {regID : NodeID} {evs : List ServerEvent} {s : ServerState} (h : serve D regID evs = .ok s)
  {c : Session} (hc : c ∈ s.parties) {cm : ClusterMember} {cl : Client}
include h hc

section User

variable (hstart : ClientKind.start D K env .userMember cm = (cl, .ok none))
  (hl : Linked cl.log c.exchanges) {a₀ a₁ : Ask} {asks : List Ask} {id : NodeID} {m : XLRegMsg}
  (hrun : UserRun D K cm cl a₀ a₁ asks id m)
include hstart hl hrun

theorem user_joined : ∃ p ∈ s.shared.world.reg.clusters, ∃ rc, s.shared.world.heap[p]? = some rc ∧
    cm.Joined rc cl.cm := by
  obtain ⟨bye, hlog⟩ := hrun.log
  obtain ⟨ex₀, -, hans₀, hf₀, -, hv₀⟩ := started_exchange h hc (by decide) hstart hl (a := a₀)
    (by rw [hlog]; simp) (f := .doClientMsg) (by rw [hrun.member.1]; rfl)
  obtain ⟨client, hclient, hintro⟩ := hv₀.member hf₀
  obtain ⟨ex₁, -, hans₁, hf₁, -, hv₁⟩ := started_exchange h hc (by decide) hstart hl (a := a₁)
    (by rw [hlog]; simp) (f := .doJoinMsg) (by rw [hrun.join.1]; rfl)
  obtain ⟨client', p, rc, hclient', hp, hrc, hmem, hreply, hid⟩ := hv₁.join hf₁
  cases hclient.symm.trans hclient'
  obtain rfl : m = joinReply rc := Except.ok.inj (hrun.joined.symm.trans (hans₁.answer hreply))
  have hjoin : ex₁.msg = joinRequest id := Option.some.inj (hans₁.request.symm.trans hrun.join.2)
  obtain rfl : rc.id = id := hid id (by rw [hjoin]; rfl)
  -- the client that the session speaks for is the one that has signed the Member request
  obtain ⟨token, htoken, hmsg⟩ := memberRequest_ok (hrun.member.2.symm.trans hans₀.request)
  obtain ⟨ckBytes, skBytes, digSig, -, -, -, rfl⟩ := memberToken_ok htoken
  have hname := hintro.name
  have hattrs := hintro.attrs
  have hends := hintro.myEnds
  have hprop := hintro.proposed cm.node.nodeID.value
  rw [hmsg] at hname hattrs hends hprop
  exact ⟨p, hp, rc, hrc, hrun.clusterID, hrun.clusterMaxSize, hrun.epCount, hrun.length,
    client, hmem, NodeID.value_inj.1 (hprop rfl), hname, hattrs, hends⟩

/-- A filled slot comes from the reply to a GetCluster for the same cluster. -/
theorem user_slots {p : Ptr} {rc : RegCluster} (hrc : s.shared.world.heap[p]? = some rc)
    (hid : cm.clusterID = some rc.id) (i : ℕ) (mi : MemberInfo)
    (hi : cl.cm.members[i]? = some (some mi)) : Describes D rc i mi := by
  have hw : s.shared.world.Registered :=
    ((vouched_contract D).holds_of_run ⟨World.init_registered regID, fun _ hc => by cases hc⟩ h).1
  obtain ⟨bye, hlog⟩ := hrun.log
  obtain ⟨a, ha, m, t, hm, ht, hmi⟩ := hrun.slots i mi hi
  obtain ⟨hstep, which, hreq⟩ := hrun.gets a ha
  obtain ⟨ex, -, hans, hf, -, hv⟩ := started_exchange h hc (by decide) hstart hl (a := a)
    (by rw [hlog]; simp [ha]) (f := .doGetMsg) (by rw [hstep]; rfl)
  obtain ⟨q, rc', sent, hq, hrc', hid', hreply, htok⟩ := hv.get hf
  obtain rfl : m = getReply ex.msg.clusterID sent := Except.ok.inj (hm.symm.trans (hans.answer hreply))
  have hget := Option.some.inj (hans.request.symm.trans hreq)
  rw [hget] at hid'
  cases hrun.clusterID.symm.trans hid
  obtain rfl : q = p := hw.ptr_of_id hrc' hrc (NodeID.value_inj.1 (Option.some.inj hid').symm)
  rw [hrc] at hrc'
  cases hrc'
  have hpacked := htok (max 64 a.size.toNat) (le_max_left _ _)
  exact (hpacked.of_mem_zip (le_max_right _ _) ht).describes hmi

end User

/-- A UserMember whose `Start` reports no error, whatever other sessions did meanwhile, is in the
cluster whose ID it was made with, knows its size and end point count as the registry has them, and
has in each filled slot of its table the member with that place in the registry's list. -/
theorem user_started_knows (hnew : cm.members = List.replicate cm.clusterMaxSize.toNat none)
    (hstart : ClientKind.start D K env .userMember cm = (cl, .ok none))
    (hl : Linked cl.log c.exchanges) :
    ∃ p ∈ s.shared.world.reg.clusters, ∃ rc, s.shared.world.heap[p]? = some rc ∧ cm.Joined rc cl.cm ∧
      ∀ (i : ℕ) mi, cl.cm.members[i]? = some (some mi) → Describes D rc i mi := by
  obtain ⟨a₀, a₁, asks, id, m, hrun⟩ := userMember_run hnew hstart
  obtain ⟨p, hp, rc, hrc, hjoined⟩ := user_joined h hc hstart hl hrun
  exact ⟨p, hp, rc, hrc, hjoined, user_slots h hc hstart hl hrun hrc hjoined.clusterID⟩

end Started

/-- The client of the concrete run and the member before it. -/
theorem user_started_knows_sample :
    ∃ (s : ServerState) (p : Ptr) (rc : RegCluster), serve .plain (.rep 9) Sample.visit = .ok s ∧
      s.shared.world.heap[p]? = some rc ∧ (Sample.madeMember (some (.rep 5)) 2).Joined rc Sample.visitor.1.cm := by
  have hserve : serve .plain (.rep 9) Sample.visit = .ok _ := rfl
  have hstart : Sample.visitor = (_, .ok none) := rfl
  obtain ⟨p, -, rc, hrc, hjoined, -⟩ := user_started_knows hserve (List.mem_of_getElem? (i := 1) rfl) rfl
    hstart (.of_answered (visitor_answered hserve rfl))
  exact ⟨_, p, rc, hserve, hrc, hjoined⟩

/-! An AdminClient, and a UserMember that is given its ID. -/

/-- The Create of an AdminClient that reports no error, and what it keeps of the answer. -/
theorem adminClient_run {cm : ClusterMember} {cl : Client}
    (h : ClientKind.start D K env .adminClient cm = (cl, .ok none)) :
    ∃ a ∈ cl.log, a.step = .createAndReply ∧ a.request = some (createRequest cm) ∧
      ∃ id m, a.turn.created D = .ok (id, m) ∧ cl.cm.clusterID = some id ∧
        cl.cm.clusterMaxSize = m.getClusterMaxSize := by
  obtain ⟨c₁, h₁, h⟩ := Script.run_cons_passed h
  obtain rfl : c₁ = ⟨cm, []⟩ := (congrArg Prod.fst h₁).symm
  obtain ⟨c₂, h₂, h⟩ := Script.run_cons_passed h
  obtain ⟨a₀, attrs, -, rfl⟩ := memberAndOK_passed h₂
  obtain ⟨c₃, h₃, h⟩ := Script.run_cons_passed h
  obtain ⟨c₄, h₄, h⟩ := Script.run_cons_passed h
  obtain ⟨bye, -, -, hbye⟩ := byeAndAck_cases env.net c₃
  rw [show byeAndAck env.net c₃ = (c₄, .ok none) from h₄] at hbye
  obtain rfl : c₄ = ⟨c₃.cm, c₃.log ++ [bye]⟩ := congrArg Prod.fst hbye
  obtain rfl : cl = ⟨c₃.cm, c₃.log ++ [bye]⟩ := (congrArg Prod.fst h).symm
  obtain ⟨a, -, -, ⟨e, id, -, -, hcr⟩ | ⟨id, m, hm, hcr⟩⟩ :=
    createAndReply_cases (D := D) env.net ⟨{ cm with attrs }, [a₀]⟩
  · rw [show createAndReply D env.net _ = (c₃, .ok none) from h₃] at hcr
    cases hcr
  · rw [show createAndReply D env.net _ = (c₃, .ok none) from h₃] at hcr
    obtain rfl := congrArg Prod.fst hcr
    obtain ⟨hstep, hreq⟩ := passed_request h₃ rfl
    exact ⟨a, by simp, hstep, hreq, id, m, hm, rfl, rfl⟩

theorem admin_created {regID : NodeID} {evs : List ServerEvent} {s : ServerState}
    (h : serve D regID evs = .ok s) {c : Session} (hc : c ∈ s.parties) {cm : ClusterMember}
    (hname : cm.clusterName ≠ "") {cl : Client}
    (hstart : ClientKind.start D K env .adminClient cm = (cl, .ok none))
    (hl : Linked cl.log c.exchanges) :
    ∃ (p : Ptr) (rc : RegCluster), s.shared.world.heap[p]? = some rc ∧ rc.name = cm.clusterName ∧
      cl.cm.clusterID = some rc.id ∧ cl.cm.clusterMaxSize = rc.maxSize := by
  obtain ⟨a, ha, hstep, hreq, id, m, hm, hid, hsize⟩ := adminClient_run hstart
  obtain ⟨ex, -, hans, hf, -, hv⟩ := started_exchange h hc (by decide) hstart hl ha
    (f := .doCreateMsg) (by rw [hstep]; rfl)
  obtain ⟨p, rc, attrs, -, hrc, hreply, hrcname⟩ := hv.create hf
  have hmsg : ex.msg = createRequest cm := Option.some.inj (hans.request.symm.trans hreq)
  rw [hmsg] at hrcname
  -- the answer has the ID, so none is drawn
  have hcreated : a.turn.created D = .ok (rc.id, createReply rc.id rc.maxSize attrs rc.epCount) := by
    have hread : a.turn.readCreate = .ok ex.reply := by simp only [Turn.readCreate, hans.read]
    simp only [Turn.created, hans.write, hread, hreply, Option.getD_some, createReply, xiNew, nodeIDOf_value]
    rfl
  rw [hcreated] at hm
  cases hm
  exact ⟨p, rc, hrc, hrcname hname, hid, hsize⟩

/-- An AdminClient creates a cluster and a UserMember is made with the ID that it reports. If both
report no error then, in any run with any other sessions, the UserMember is in the cluster that has
the name the AdminClient was made with, and both know its size. -/
theorem admin_then_user {regID : NodeID} {evs : List ServerEvent} {s : ServerState}
    (h : serve D regID evs = .ok s) {c₁ c₂ : Session} (hc₁ : c₁ ∈ s.parties) (hc₂ : c₂ ∈ s.parties)
    {env₁ env₂ : Surroundings} {cm₁ cm₂ : ClusterMember} {cl₁ cl₂ : Client} (hname : cm₁.clusterName ≠ "")
    (hadmin : ClientKind.start D K env₁ .adminClient cm₁ = (cl₁, .ok none))
    (hl₁ : Linked cl₁.log c₁.exchanges) (hgiven : cm₂.clusterID = cl₁.cm.clusterID)
    (hnew : cm₂.members = List.replicate cm₂.clusterMaxSize.toNat none)
    (huser : ClientKind.start D K env₂ .userMember cm₂ = (cl₂, .ok none))
    (hl₂ : Linked cl₂.log c₂.exchanges) :
    ∃ p ∈ s.shared.world.reg.clusters, ∃ rc, s.shared.world.heap[p]? = some rc ∧
      rc.name = cm₁.clusterName ∧ cl₁.cm.clusterMaxSize = rc.maxSize ∧ cm₂.Joined rc cl₂.cm := by
  have hw : s.shared.world.Registered :=
    ((vouched_contract D).holds_of_run ⟨World.init_registered regID, fun _ hc => by cases hc⟩ h).1
  obtain ⟨q, rc', hrc', hrcname, hid, hsize⟩ := admin_created h hc₁ hname hadmin hl₁
  obtain ⟨a₀, a₁, asks, id, m, hrun⟩ := userMember_run hnew huser
  obtain ⟨p, hp, rc, hrc, hjoined⟩ := user_joined h hc₂ huser hl₂ hrun
  have hids : rc'.id = rc.id := by
    have hsame := hjoined.clusterID
    rw [hgiven, hid] at hsame
    exact Option.some.inj hsame
  obtain rfl : q = p := hw.ptr_of_id hrc' hrc hids
  rw [hrc] at hrc'
  cases hrc'
  exact ⟨q, hp, _, hrc, hrcname, hsize, hjoined⟩

namespace Sample

/-- An AdminClient on session 0, a first member on session 1 and a UserMember on session 2. -/
def handOver : List ServerEvent :=
  [.enter (), .act 0 ⟨(memberRequest .plain .plain (madeMember none 2)).getD {}, []⟩,
   .act 0 ⟨createRequest (madeMember none 2), [.rep 5]⟩, .act 0 ⟨byeRequest, []⟩,
   .enter (), .act 1 ⟨member "bob" none 2, [.rep 2]⟩, .act 1 ⟨joinByName "c", []⟩,
   .enter (), .act 2 ⟨(memberRequest .plain .plain (madeMember (some (.rep 5)) 2)).getD {}, []⟩,
   .act 2 ⟨joinRequest (.rep 5), []⟩, .act 2 ⟨get (.rep 5) 3, []⟩, .act 2 ⟨byeRequest, []⟩]

end Sample

theorem admin_then_user_sample :
    ∃ (s : ServerState) (p : Ptr) (rc : RegCluster) (cl : Client),
      serve .plain (.rep 9) Sample.handOver = .ok s ∧ s.shared.world.heap[p]? = some rc ∧ rc.name = "c" ∧
      (Sample.madeMember (some (.rep 5)) 2).Joined rc cl.cm := by
  have hserve : serve .plain (.rep 9) Sample.handOver = .ok _ := rfl
  have hadmin : ClientKind.start .plain .plain { net := Sample.replies Sample.handOver 0 } .adminClient
      (Sample.madeMember none 2) = (_, .ok none) := rfl
  have huser : ClientKind.start .plain .plain { net := Sample.replies Sample.handOver 2 } .userMember
      (Sample.madeMember (some (.rep 5)) 2) = (_, .ok none) := rfl
  obtain ⟨p, -, rc, hrc, hname, -, hjoined⟩ := admin_then_user hserve (List.mem_of_getElem? (i := 0) rfl)
    (List.mem_of_getElem? (i := 2) rfl) (by decide) hadmin
    (.of_answered (.cons ⟨rfl, rfl, rfl⟩ (.cons ⟨rfl, rfl, rfl⟩ (.cons ⟨rfl, rfl, rfl⟩ .nil)))) rfl rfl huser
    (.of_answered (.cons ⟨rfl, rfl, rfl⟩ (.cons ⟨rfl, rfl, rfl⟩ (.cons ⟨rfl, rfl, rfl⟩
      (.cons ⟨rfl, rfl, rfl⟩ .nil)))))
  exact ⟨_, p, rc, _, hserve, hrc, hname, hjoined⟩

end XlReg
