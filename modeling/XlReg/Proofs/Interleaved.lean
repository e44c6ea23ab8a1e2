import XlReg.Lib.Refine
import XlReg.Sanity.Interference

/-! The server section by section. However the sections of any number of sessions interleave, the
registry stays consistent, what clients are told about clusters agrees with what is stored, a reply
to a Get is one that a Get all at once could have had, and no new fault appears. -/

namespace XlReg

open Code

/-! What a session knows when its handler comes back. -/

section Outcome

variable {D : Deps} {h h' : InHandler} {draws : List NodeID} {f : HandlerName} {met : List World} {w : World}

theorem Outcome.established (he : h.Established w) (hf : f = .badCombo ∨ (h.entryState, f) ∈ permitted)
    (ho : f.Outcome D h draws met w h') : (afterRound h').Established w := by
  have hclient : f ∈ [.doCreateMsg, .doJoinMsg, .doGetMsg] → ∃ m, h.thisClient = some m := by
    intro hmem
    apply he.client
    revert hf hmem
    cases h.entryState <;> cases f <;> decide
  cases ho with
  | refused e _ _ => exact established_fail e he.hung
  | accepted hi =>
    rw [afterRound_reply]
    exact ⟨he.hung, fun _ => ⟨_, rfl⟩, by simp⟩
  | notAdded e hp =>
    refine established_fail e fun q hq => ?_
    cases hq
    exact ⟨_, hp⟩
  | created hnew hmem hp hg =>
    rw [afterRound_reply]
    refine ⟨fun q hq => ?_, fun _ => hclient (by decide), by simp⟩
    cases hq
    exact ⟨_, hp⟩
  | found hmem hp hname =>
    rw [afterRound_reply]
    exact ⟨he.hung, fun _ => hclient (by decide), by simp⟩
  | joined _ _ _ hm hmem hp hin _ hname =>
    rw [afterRound_reply]
    refine ⟨fun q hq => ?_, fun _ => ⟨_, hm⟩, fun _ => ⟨_, _, _, hm, rfl, hp, hin⟩⟩
    cases hq
    exact ⟨_, hp⟩
  | answered hseen hwhole =>
    obtain ⟨-, ⟨e, rfl⟩ | ⟨s, rfl⟩⟩ := doGetMsg_ok hwhole
    · exact established_fail e he.hung
    · have hst : h.entryState = .joinRcvd := by
        revert hf
        cases h.entryState <;> decide
      rw [afterRound_reply]
      exact ⟨he.hung, fun _ => hclient (by decide), fun _ => he.joined hst⟩
  | bye =>
    rw [afterRound_reply]
    exact ⟨he.hung, by simp, by simp⟩

theorem hung_fail (h : InHandler) (e : Err) : (afterRound (h.fail e)).Hung w :=
  fun hopen => absurd rfl hopen

theorem Outcome.hung (hh : h.Hung w) (hopen : h.entryState ≠ .inClosed)
    (ho : f.Outcome D h draws met w h') : (afterRound h').Hung w := by
  cases ho with
  | refused e _ _ => exact hung_fail h e
  | accepted hi => exact fun _ => hh hopen
  | notAdded e hp => exact hung_fail _ e
  | created hnew hmem hp hg =>
    intro _ q hq
    cases hq
    exact hmem
  | found hmem hp hname => exact fun _ => hh hopen
  | joined _ _ _ hm hmem hp hin _ hname =>
    intro _ q hq
    cases hq
    exact hmem
  | answered hseen hwhole =>
    obtain ⟨-, ⟨e, rfl⟩ | ⟨s, rfl⟩⟩ := doGetMsg_ok hwhole
    · exact hung_fail h e
    · exact fun _ => hh hopen
  | bye => exact fun _ => hh hopen

theorem agrees_of_op {ex : Exchange} {r : XLRegMsg} {op : Int32} (hr : ex.reply = some r)
    (hop : r.op = some op) (hother : op ≠ Tag.createReply ∧ op ≠ Tag.joinReply) : ex.Agrees w := by
  rintro r' ⟨hr', hop'⟩
  rw [hr] at hr'
  cases hr'
  rw [hop] at hop'
  exact absurd hop' (by simp [hother])

theorem Outcome.agrees (h₀ : InHandler) (ho : f.Outcome D h draws met w h') :
    (exchangeOf h₀ h.msgIn f h').Agrees w := by
  cases ho with
  | refused e _ _ => exact agrees_of_op rfl rfl (by decide)
  | accepted hi => exact agrees_of_op rfl rfl (by decide)
  | notAdded e hp => exact agrees_of_op rfl rfl (by decide)
  | created hnew hmem hp hg =>
    obtain ⟨-, hname, hid, -, hmax, hep⟩ := newRegCluster_ok hnew
    rintro r ⟨hr, -⟩
    cases hr
    refine ⟨_, ⟨⟨_, hmem, hp⟩, ?_, ?_, ?_⟩, fun k hk ht => ?_⟩
    · rw [hg.id, hid]
      rfl
    · rw [hg.maxSize, hmax]
      rfl
    · rw [hg.epCount, hep]
      rfl
    · obtain rfl : h.msgIn.getClusterName = k := Option.some.inj ht
      rw [hg.name, hname, if_neg hk]
  | found hmem hp hname =>
    rintro r ⟨hr, -⟩
    cases hr
    refine ⟨_, ⟨⟨_, hmem, hp⟩, rfl, rfl, rfl⟩, fun k _ ht => ?_⟩
    cases ht
    exact hname
  | joined _ _ _ hm hmem hp hin _ hname =>
    rintro r ⟨hr, -⟩
    cases hr
    refine ⟨_, ⟨⟨_, hmem, hp⟩, rfl, rfl, rfl⟩, fun k hk ht => ?_⟩
    change (if h.msgIn.clusterID = none then some h.msgIn.getClusterName else none) = some k at ht
    split_ifs at ht with hid
    cases ht
    exact hname hid hk
  | answered hseen hwhole =>
    obtain ⟨-, ⟨e, rfl⟩ | ⟨s, rfl⟩⟩ := doGetMsg_ok hwhole
    · exact agrees_of_op rfl rfl (by decide)
    · exact agrees_of_op rfl rfl (by decide)
  | bye => exact agrees_of_op rfl rfl (by decide)

end Outcome

/-! The invariant. -/

/-- A round that has begun: its handler copes with whatever is still to come. -/
structure Round.Running (D : Deps) (w : World) (h : InHandler) (r : Round) : Prop where
  dispatched : dispatch h.entryState (op2tag r.msg.getOp) = some r.handler
  unfinished : ∀ h', r.task ≠ .done h'
  copes : ∃ t, Others D t w ∧ Copes D { h with msgIn := r.msg } r.draws r.handler r.task r.met t

/-- A round that has ended: its handler came back as it can, and what it said is stored. -/
structure Finished.Sound (D : Deps) (w : World) (f : Finished) : Prop where
  agrees : f.exchange.Agrees w
  ran : ∃ h t h', h.msgIn = f.exchange.msg ∧ f.exchange.handler.Outcome D h f.draws f.met t h' ∧
    f.exchange.err = h'.errOut ∧ f.exchange.reply = (respond h').msgOut

structure Routine.Sound (D : Deps) (w : World) (c : Routine) : Prop where
  established : c.h.Established w
  hung : c.h.Hung w
  running : ∀ r, c.round = some r → r.Running D w c.h
  finished : ∀ f ∈ c.finished, f.Sound D w

section Invariant

variable {D : Deps} {w w' : World} {c : Routine} {r : Round}

theorem Others.trans {a b c : World} (h1 : Others D a b) (h2 : Others D b c) : Others D a c :=
  ⟨h1.1.trans h2.1, h2.2⟩

theorem Finished.Sound.of_grows {f : Finished} (h : f.Sound D w) (hg : w.Grows w') : f.Sound D w' :=
  ⟨h.agrees.of_grows hg, h.ran⟩

theorem Routine.Sound.of_others (h : c.Sound D w) (hw : Others D w w') : c.Sound D w' := by
  refine ⟨h.established.of_grows hw.1, h.hung.of_grows hw.1, fun r hr => ?_, fun f hf =>
    (h.finished f hf).of_grows hw.1⟩
  obtain ⟨hd, hun, t, ht, hm⟩ := h.running r hr
  exact ⟨hd, hun, t, ht.trans hw, hm⟩

/-- When a handler has come back the round is closed; otherwise it goes on. -/
theorem settle_sound (hw : w.Consistent D) (he : c.h.Established w) (hh : c.h.Hung w)
    (hfin : ∀ f ∈ c.finished, f.Sound D w)
    (hd : dispatch c.h.entryState (op2tag r.msg.getOp) = some r.handler)
    (hm : Copes D { c.h with msgIn := r.msg } r.draws r.handler r.task r.met w) :
    (c.settle r).Sound D w := by
  obtain ⟨msg, draws, f, task, met⟩ := r
  have hon : (∀ h', task ≠ .done h') →
      Routine.Sound D w { c with round := some ⟨msg, draws, f, task, met⟩ } := by
    refine fun hun => ⟨he, hh, fun r' hr' => ?_, hfin⟩
    cases hr'
    exact ⟨hd, hun, w, ⟨.refl w, hw⟩, hm⟩
  cases task with
  | done h' =>
    have hout : f.Outcome D { c.h with msgIn := msg } draws met w h' := hm
    refine ⟨Outcome.established (he.receive msg) (dispatch_permitted hd) hout,
      Outcome.hung (h := { c.h with msgIn := msg }) hh (open_of_dispatch hd) hout,
      fun r' hr' => (by cases hr'), fun g hg => ?_⟩
    rcases List.mem_append.1 hg with hold | hlast
    · exact hfin g hold
    · rw [List.mem_singleton.1 hlast]
      exact ⟨Outcome.agrees c.h hout, _, w, h', rfl, hout, rfl, rfl⟩
  | stop x => exact hon (by simp)
  | sect op next => exact hon (by simp)

theorem receive_cases {x : Input} {c' : Routine} (h : c.receive D x = .ok c') :
    c' = c ∨ ∃ f, dispatch c.h.entryState (op2tag x.msg.getOp) = some f ∧ c.round = none ∧
      c' = c.settle ⟨x.msg, x.draws, f, f.task D { c.h with msgIn := x.msg } x.draws, []⟩ := by
  unfold Routine.receive at h
  split_ifs at h with hbusy
  · cases h
    exact .inl rfl
  · rcases hd : dispatch c.h.entryState (op2tag x.msg.getOp) with - | f
    · simp [hd] at h
    · simp only [hd] at h
      cases h
      refine .inr ⟨f, rfl, ?_, rfl⟩
      simpa using (not_or.1 hbusy).2

theorem proceed_cases {c' : Routine} (h : c.proceed w = .ok (w', c')) :
    (c.round = none ∧ w' = w ∧ c' = c) ∨ ∃ r t, c.round = some r ∧ r.task.step w = .ok (w', t) ∧
      c' = c.settle { r with task := t, met := r.met ++ [w] } := by
  unfold Routine.proceed at h
  rcases hr : c.round with - | r
  · simp only [hr] at h
    cases h
    exact .inl ⟨rfl, rfl, rfl⟩
  · simp only [hr] at h
    rcases hs : r.task.step w with a | ⟨w₁, t⟩
    · simp [hs] at h
    · simp only [hs] at h
      cases h
      exact .inr ⟨r, t, rfl, hs, rfl⟩

theorem receive_begins (hmap : D.HamtTotal) (hs : c.Sound D w) {x : Input} {c' : Routine}
    (h : c.receive D x = .ok c') : c' = c ∨ ∃ r, c.round = none ∧ r.met = [] ∧ c' = c.settle r ∧
      dispatch c.h.entryState (op2tag r.msg.getOp) = some r.handler ∧
      Copes D { c.h with msgIn := r.msg } r.draws r.handler r.task r.met w := by
  rcases receive_cases h with rfl | ⟨f, hd, hidle, rfl⟩
  · exact .inl rfl
  · exact .inr ⟨_, hidle, rfl, rfl, hd, task_copes hmap (hs.established.receive x.msg) hs.hung
      (open_of_dispatch hd) (dispatch_permitted hd)⟩

/-- An action guarantees that what the others rely on goes on holding. -/
theorem interleaved_contract (hmap : D.HamtTotal) :
    Parties.Contract (concurrent D) (fun _ _ _ => True) (World.Consistent D)
      (fun w w' => w.Consistent D → Others D w w') (fun w c => c.Sound D w) where
  start w _ _ := ⟨InHandler.established_init w, fun _ _ hp => (by cases hp), fun _ hr => (by cases hr),
    fun _ hf => (by cases hf)⟩
  step w c a w' c' hw hc _ hs := by
    cases a with
    | some x =>
      obtain ⟨c₁, hr, heq⟩ := Run.map_ok hs
      cases heq
      refine ⟨hw, fun _ => ⟨.refl w, hw⟩, ?_⟩
      rcases receive_begins hmap hc hr with rfl | ⟨r, -, -, rfl, hd, hm⟩
      · exact hc
      · exact settle_sound hw hc.established hc.hung hc.finished hd hm
    | none =>
      rcases proceed_cases hs with ⟨-, rfl, rfl⟩ | ⟨r, t, hr, hst, rfl⟩
      · exact ⟨hw, fun _ => ⟨.refl _, hw⟩, hc⟩
      · obtain ⟨hd, hun, u, hu, hm⟩ := hc.running r hr
        obtain ⟨hsec, hm'⟩ := hm.step hu hun hst
        have hg := Section.grows hsec
        have hw' := Section.consistent hmap hw hsec
        refine ⟨hw', fun _ => ⟨hg, hw'⟩, ?_⟩
        exact settle_sound hw' (hc.established.of_grows hg) (hc.hung.of_grows hg)
          (fun f hf => (hc.finished f hf).of_grows hg) hd hm'
  stable _ _ _ hw hc hg := hc.of_others (hg hw)

variable {regID : NodeID} {evs : List ConcurrentEvent} {s : ConcurrentState}

theorem serveConcurrent_holds (hmap : D.HamtTotal) (h : serveConcurrent D regID evs = .ok s) :
    Parties.Holds (World.Consistent D) (fun w c => c.Sound D w) s :=
  (interleaved_contract hmap).holds_of_run
    ⟨World.init_consistent D regID, fun _ hc => by cases hc⟩ h

theorem serveConcurrent_others (hmap : D.HamtTotal) (h : serveConcurrent D regID evs = .ok s)
    {evs' : List ConcurrentEvent} {s' : ConcurrentState} (h' : Run.run (concurrent D).next s evs' = .ok s') :
    Others D s.shared s'.shared :=
  (interleaved_contract hmap).run_guarantee (serveConcurrent_holds hmap h)
    (fun _ hw => ⟨.refl _, hw⟩) (fun _ _ _ h1 h2 hw => (h1 hw).trans (h2 (h1 hw).2)) h'
    (serveConcurrent_holds hmap h).1

end Invariant

/-! The results. -/

section Results

variable {D : Deps} (hmap : D.HamtTotal) {regID : NodeID} {evs : List ConcurrentEvent}
  {s : ConcurrentState} (h : serveConcurrent D regID evs = .ok s)
include hmap h

/-- In every interleaving the list of clusters and the two indexes say the same; a session that has
joined has its client among the members of its cluster; and the ID, size and end point count in every
CreateReply or JoinReply ever sent are, from then on, those of a listed cluster of the name asked for. -/
theorem interleaved_replies_agree {evs' : List ConcurrentEvent} {s' : ConcurrentState}
    (h' : Run.run (concurrent D).next s evs' = .ok s') :
    s'.shared.Consistent D ∧ ∀ c ∈ s.parties, c.h.Established s'.shared ∧
      ∀ f ∈ c.finished, f.exchange.Agrees s'.shared := by
  have hw := serveConcurrent_others hmap h h'
  refine ⟨hw.2, fun c hc => ?_⟩
  have hs := ((serveConcurrent_holds hmap h).2 c hc).of_others hw
  exact ⟨hs.established, fun f hf => (hs.finished f hf).agrees⟩

/-- A Get reads the size and then one member after the other, without a lock. Its reply is that of a
Get all at once, in one of the worlds that it met. -/
theorem interleaved_get_whole :
    ∀ c ∈ s.parties, ∀ f ∈ c.finished, f.exchange.handler = .doGetMsg →
      ∃ w h h', (w ∈ f.met ∨ f.met = []) ∧ h.msgIn = f.exchange.msg ∧
        doGetMsg D w h f.draws = .ok (w, h') ∧ f.exchange.err = h'.errOut ∧
        f.exchange.reply = (respond h').msgOut := by
  intro c hc f hf hget
  obtain ⟨g, t, g', hmsg, hout, herr, hrep⟩ := (((serveConcurrent_holds hmap h).2 c hc).finished f hf).ran
  rw [hget] at hout
  cases hout with
  | refused e hother _ => exact absurd rfl hother
  | answered hseen hwhole => exact ⟨_, g, g', hseen, hmsg, hwhole, herr, hrep⟩

/-- No interleaving adds a fault. What stops the server is a message outside the dispatch table; a
Join whose lookup met a registry in which it designates no cluster; or a search for a new ID in
which the filter, when it was asked, claimed to have every one that was drawn. -/
theorem interleaved_faults {e : ConcurrentEvent} {a : Abort} (hstop : (concurrent D).next s e = .error a) :
    ∃ i c, s.parties[i]? = some c ∧
      ((∃ x, e = .act i (some x) ∧ a = .indexOutOfRange ∧
          dispatch c.h.entryState (op2tag x.msg.getOp) = none) ∨
        ∃ r met, e = .act i none ∧ c.round = some r ∧ (met = r.met ∨ met = r.met ++ [s.shared]) ∧
          r.handler.Faults D { c.h with msgIn := r.msg } r.draws met a) := by
  cases e with
  | enter x => cases hstop
  | act i a' =>
    rcases hc : s.parties[i]? with - | c
    · simp [Parties.next, hc] at hstop
    · refine ⟨i, c, hc, ?_⟩
      have hstep : (concurrent D).step s.shared c a' = .error a := by
        simp only [Parties.next, hc] at hstop
        rcases hs : (concurrent D).step s.shared c a' with b | r
        · simp only [hs] at hstop
          cases hstop
          rfl
        · simp only [hs] at hstop
          cases hstop
      cases a' with
      | some x =>
        left
        change (c.receive D x).map _ = _ at hstep
        unfold Routine.receive at hstep
        split_ifs at hstep
        · cases hstep
        · rcases hd : dispatch c.h.entryState (op2tag x.msg.getOp) with - | f
          · simp only [hd] at hstep
            cases hstep
            exact ⟨x, rfl, rfl, hd⟩
          · simp only [hd] at hstep
            cases hstep
      | none =>
        right
        change c.proceed s.shared = _ at hstep
        unfold Routine.proceed at hstep
        rcases hr : c.round with - | r
        · simp [hr] at hstep
        · simp only [hr] at hstep
          rcases hs : r.task.step s.shared with b | p
          · simp only [hs] at hstep
            cases hstep
            have hrun := ((serveConcurrent_holds hmap h).2 c (List.mem_of_getElem? hc)).running r hr
            obtain ⟨t, ht, hm⟩ := hrun.copes
            rcases hm.stopped ht hs with hf | hf
            · exact ⟨r, _, rfl, rfl, .inl rfl, hf⟩
            · exact ⟨r, _, rfl, rfl, .inr rfl, hf⟩
          · simp only [hs] at hstep
            cases hstep

end Results

/-! Rounds one at a time are a special case. -/

/-- Between two rounds: the session, and the exchanges that it has had. -/
structure Routine.Plays (c : Session) (c' : Routine) : Prop where
  h : c'.h = c.h
  idle : c'.round = none
  finished : c'.finished.map (·.exchange) = c.exchanges

def Plays (s : ServerState) (t : ConcurrentState) : Prop :=
  t.shared = s.shared.world ∧ List.Forall₂ Routine.Plays s.parties t.parties

section Alone

variable {D : Deps}

theorem settle_round (c : Routine) (x : Option Round) (r : Round) :
    Routine.settle { c with round := x } r = c.settle r := by
  unfold Routine.settle
  cases r.task <;> rfl

theorem proceed_alone (c : Routine) (r : Round) {w w' : World} {h' : InHandler}
    (hrun : r.task.run w = .ok (w', h')) {i : ℕ} {cs : List Routine} (hi : cs[i]? = some (c.settle r)) :
    ∃ n met, Run.run (concurrent D).next ⟨w, cs⟩ (List.replicate n (.act i none)) =
      .ok ⟨w', cs.set i (c.settle { r with task := .done h', met := met })⟩ := by
  obtain ⟨msg, draws, f, task, met⟩ := r
  induction task generalizing w met cs with
  | done a =>
    cases hrun
    obtain ⟨hlt, heq⟩ := List.getElem?_eq_some_iff.1 hi
    refine ⟨0, met, ?_⟩
    rw [← heq, List.set_getElem_self]
    rfl
  | stop x => cases hrun
  | sect op next ih =>
    simp only [Code.run] at hrun
    rcases ho : op w with x | w₁
    · simp [ho] at hrun
    · simp only [ho] at hrun
      have hlt := (List.getElem?_eq_some_iff.1 hi).1
      have hstep : (concurrent D).step w (c.settle ⟨msg, draws, f, .sect op next, met⟩) none =
          .ok (w₁, c.settle ⟨msg, draws, f, next w, met ++ [w]⟩) := by
        change Routine.proceed w { c with round := some ⟨msg, draws, f, .sect op next, met⟩ } = _
        simp only [Routine.proceed, Code.step, ho, settle_round]
      obtain ⟨n, met', hn⟩ := ih w (met ++ [w]) hrun (List.getElem?_set_self hlt)
      refine ⟨n + 1, met', ?_⟩
      rw [List.replicate_succ, Run.run_cons_of_ok (Parties.next_act hi hstep), hn, List.set_set]

theorem next_interleaves {s s' : ServerState} {e : ServerEvent} (hn : (server D).next s e = .ok s')
    {t : ConcurrentState} (ht : Plays s t) :
    ∃ evs t', Run.run (concurrent D).next t evs = .ok t' ∧ Plays s' t' := by
  obtain ⟨hw, hall⟩ := ht
  rcases Parties.next_cases hn with ⟨u, rfl, rfl⟩ | ⟨i, x, rfl, hi, rfl⟩ |
    ⟨i, x, c, sh, c', rfl, hi, hs, rfl⟩
  · refine ⟨[.enter ()], ⟨t.shared, t.parties ++ [({} : Routine)]⟩, rfl, hw, ?_⟩
    exact List.rel_append hall (.cons ⟨rfl, rfl, rfl⟩ .nil)
  · exact ⟨[], t, rfl, hw, hall⟩
  · obtain ⟨d, hd, hplay⟩ := Parties.forall₂_getElem? hall hi
    have hlt := (List.getElem?_eq_some_iff.1 hd).1
    rcases sessionStep_ok hs with ⟨-, rfl, rfl⟩ | ⟨hopen, w, g, ex, hit, rfl, rfl⟩
    · refine ⟨[], t, rfl, hw, ?_⟩
      obtain ⟨hlt', heq⟩ := List.getElem?_eq_some_iff.1 hi
      rw [← heq, List.set_getElem_self]
      exact hall
    · obtain ⟨f, h₁, hdis, hh, rfl, rfl⟩ := startIter_ok hit
      rw [← hplay.h, ← hw, ← task_run] at hh
      rw [← hplay.h] at hdis hopen
      have hrec : (concurrent D).step t.shared d (some x) = .ok (t.shared,
          d.settle ⟨x.msg, x.draws, f, f.task D { d.h with msgIn := x.msg } x.draws, []⟩) := by
        change (d.receive D x).map _ = _
        simp [Routine.receive, hopen, hplay.idle, hdis, Except.map]
      obtain ⟨n, met, hrest⟩ := proceed_alone (D := D) d
        ⟨x.msg, x.draws, f, f.task D { d.h with msgIn := x.msg } x.draws, []⟩ hh (List.getElem?_set_self hlt)
      rw [List.set_set] at hrest
      refine ⟨.act i (some x) :: List.replicate n (.act i none), ⟨w, _⟩,
        by rw [Run.run_cons_of_ok (Parties.next_act hd hrec)]; exact hrest, rfl, ?_⟩
      refine Parties.forall₂_set hall ⟨rfl, rfl, ?_⟩ i
      simp [Routine.settle, hplay.finished, hplay.h]

end Alone

/-- Every run of the server in which each message is handled at once is one of those in which the
sections interleave. -/
theorem serve_interleaves {D : Deps} {regID : NodeID} {evs : List ServerEvent} {s : ServerState}
    (h : serve D regID evs = .ok s) :
    ∃ evs' t, serveConcurrent D regID evs' = .ok t ∧ Plays s t := by
  refine Run.run_history (I := fun _ s => ∃ evs' t, serveConcurrent D regID evs' = .ok t ∧ Plays s t)
    ⟨[], _, rfl, rfl, .nil⟩ (fun _ s₁ e s₂ _ hI hn => ?_) h
  obtain ⟨evs₁, t₁, h₁, hp₁⟩ := hI
  obtain ⟨evs₂, t₂, h₂, hp₂⟩ := next_interleaves hn hp₁
  refine ⟨evs₁ ++ evs₂, t₂, ?_, hp₂⟩
  unfold serveConcurrent at h₁ ⊢
  rw [Run.run_append, h₁]
  exact h₂

theorem serve_interleaves_sample :
    ∃ s evs' t, serve .plain (.rep 9) Sample.createAndJoin = .ok s ∧
      serveConcurrent .plain (.rep 9) evs' = .ok t ∧ t.shared.reg.clusters = [0] ∧ Plays s t := by
  obtain ⟨s, hs, hp⟩ := Run.exists_of_ends (server .plain).next (ServerState.init (.rep 9))
    Sample.createAndJoin (fun s => decide (s.shared.world.reg.clusters = [0])) (by decide)
  obtain ⟨evs', t, ht, hplays⟩ := serve_interleaves hs
  exact ⟨s, evs', t, hs, ht, by rw [hplays.1]; exact of_decide_eq_true hp, hplays⟩

/-- Two clients; one creates a cluster and joins it, and asks for its members while the other is
about to be appended. -/
def Sample.overlapping : List ConcurrentEvent :=
  let go (i : ℕ) (n : ℕ) : List ConcurrentEvent := List.replicate n (.act i none)
  [.enter (), .enter (), .act 0 (some ⟨member "a" none 2, [.rep 1]⟩),
    .act 1 (some ⟨member "b" none 3, [.rep 2]⟩)] ++ go 0 2 ++ go 1 3 ++ go 0 1 ++
  [.act 0 (some ⟨create "xy" 2, [.rep 5]⟩)] ++ go 0 5 ++
  [.act 0 (some ⟨joinByName "xy", []⟩)] ++ go 0 5 ++
  [.act 1 (some ⟨joinByName "xy", []⟩)] ++ go 1 3 ++
  [.act 0 (some ⟨get (.rep 5) 3, []⟩)] ++ go 0 2 ++ go 1 1 ++ go 0 1

def Sample.unknown : List ConcurrentEvent :=
  [.enter (), .act 0 (some ⟨member "a" none 2, [.rep 1]⟩), .act 0 none, .act 0 none, .act 0 none,
    .act 0 (some ⟨joinByName "z", []⟩), .act 0 none]

theorem overlapping_ends (p : ConcurrentState → Bool)
    (h : Run.ends (concurrent .plain).next ⟨World.init (.rep 9), []⟩ Sample.overlapping p = true) :
    ∃ s, serveConcurrent .plain (.rep 9) Sample.overlapping = .ok s ∧ p s = true :=
  Run.exists_of_ends _ _ _ _ h

theorem interleaved_faults_sample :
    ∃ s h draws met, serveConcurrent .plain (.rep 9) Sample.unknown = .ok s ∧
      (concurrent .plain).next s (.act 0 none) = .error .nilDeref ∧
      HandlerName.Faults .plain h draws .doJoinMsg met .nilDeref := by
  obtain ⟨s, hs, hp⟩ := Run.exists_of_ends (concurrent .plain).next ⟨World.init (.rep 9), []⟩ Sample.unknown
    (fun s => decide (Run.stop ((concurrent .plain).next s (.act 0 none)) = some .nilDeref)) (by decide)
  have hstop := Run.stop_eq_some (of_decide_eq_true hp)
  obtain ⟨i, c, -, ⟨x, -, ha, -⟩ | ⟨r, met, -, -, -, hf⟩⟩ := interleaved_faults plain_hamtTotal hs hstop
  · cases ha
  · refine ⟨s, { c.h with msgIn := r.msg }, r.draws, met, hs, hstop, ?_⟩
    generalize r.handler = g at hf
    cases hf with
    | nothing hseen hno => exact .nothing hseen hno

/-- The creator was answered while the other client's Join was going on. -/
theorem interleaved_replies_agree_sample :
    ∃ s s' c f, serveConcurrent .plain (.rep 9) Sample.overlapping = .ok s ∧
      Run.run (concurrent .plain).next s [.act 1 none] = .ok s' ∧ c ∈ s.parties ∧ f ∈ c.finished ∧
      f.exchange.handler = .doCreateMsg ∧ f.exchange.Agrees s'.shared := by
  obtain ⟨s, hs, hp⟩ := overlapping_ends
    (fun s => (s.parties[0]?.any fun (c : Routine) => c.finished[1]?.any fun (f : Finished) =>
      decide (f.exchange.handler = .doCreateMsg)) &&
      Run.ends (concurrent .plain).next s [.act 1 none] fun _ => true) (by decide)
  obtain ⟨hp, hends⟩ := Bool.and_eq_true_iff.1 hp
  obtain ⟨c, hc, hp⟩ := (Option.any_eq_true _ _).1 hp
  obtain ⟨f, hf, hp⟩ := (Option.any_eq_true _ _).1 hp
  obtain ⟨s', hs', -⟩ := Run.exists_of_ends _ _ _ _ hends
  have hmem := List.mem_of_getElem? hc
  have hfin := List.mem_of_getElem? hf
  exact ⟨s, s', c, f, hs, hs', hmem, hfin, of_decide_eq_true hp,
    ((interleaved_replies_agree plain_hamtTotal hs hs').2 c hmem).2 f hfin⟩

/-- Its Get saw one member, though there are two when it reads. -/
theorem interleaved_get_whole_sample :
    ∃ s c f, serveConcurrent .plain (.rep 9) Sample.overlapping = .ok s ∧ c ∈ s.parties ∧
      f ∈ c.finished ∧ (f.exchange.reply.map (·.tokens.length)) = some 1 ∧
      s.shared.membersAt 0 ≠ none ∧ (s.shared.membersAt 0).map (·.length) = some 2 ∧
      ∃ w h h', (w ∈ f.met ∨ f.met = []) ∧ h.msgIn = f.exchange.msg ∧
        doGetMsg .plain w h f.draws = .ok (w, h') ∧ f.exchange.reply = (respond h').msgOut := by
  obtain ⟨s, hs, hp⟩ := overlapping_ends
    (fun s => s.parties[0]?.any fun (c : Routine) => c.finished[3]?.any fun (f : Finished) =>
      decide (f.exchange.handler = .doGetMsg ∧ f.exchange.reply.map (·.tokens.length) = some 1 ∧
        s.shared.membersAt 0 ≠ none ∧ (s.shared.membersAt 0).map (·.length) = some 2)) (by decide)
  obtain ⟨c, hc, hp⟩ := (Option.any_eq_true _ _).1 hp
  obtain ⟨f, hf, hp⟩ := (Option.any_eq_true _ _).1 hp
  obtain ⟨hget, htok, hat, hlen⟩ := of_decide_eq_true hp
  have hmem := List.mem_of_getElem? hc
  have hfin := List.mem_of_getElem? hf
  obtain ⟨w, h, h', hseen, hmsg, hwhole, -, hrep⟩ :=
    interleaved_get_whole plain_hamtTotal hs c hmem f hfin hget
  exact ⟨s, c, f, hs, hmem, hfin, htok, hat, hlen, w, h, h', hseen, hmsg, hwhole, hrep⟩

end XlReg
