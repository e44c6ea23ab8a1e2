import XlReg.Sanity.Exchanges
import XlReg.Sanity.Rounds

/-! Refusals (memberNode.go and the kinds of clients). No step looks at the op of the answer that it
reads. So a session ends with an error exactly if its last request is left with one, or a step that
makes no request is; any other refusal passes for success, with the fields that it does not have at
their defaults. A Create that is answered without an ID gives the client a random one. -/

namespace XlReg

open Run

variable {D : Deps} {K : ClientDeps} {env : Surroundings}

def Ask.err (D : Deps) (a : Ask) : Option Err :=
  match a.step with
  | .memberAndOK => stop a.turn.read
  | .createAndReply => stop (a.turn.created D)
  | .joinAndReply | .byeAndAck => stop a.turn.answer
  | .getAndMembers => a.turn.getErr D a.size.toNat
  | .openAcc | .sessionSetup | .persistNode => none

def lastErr (D : Deps) (log : List Ask) : Option Err := log.getLast?.bind (Ask.err D)

def Surroundings.err (env : Surroundings) : ClientStep → Option Err
  | .openAcc => env.openAcc
  | .sessionSetup => env.sessionSetup
  | .persistNode => env.persistNode
  | _ => none

theorem lastErr_concat (log : List Ask) (a : Ask) : lastErr D (log ++ [a]) = a.err D := by
  rw [lastErr, List.getLast?_concat, Option.bind_some]

/-- A step reports an error exactly if its last request leaves one, or it makes none and fails. -/
theorem step_reports (K : ClientDeps) (env : Surroundings) (st : ClientStep) {c : Client}
    (hc : lastErr D c.log = none) :
    (∃ e, (st.run D K env c).2 = .ok (some e)) ↔
      lastErr D (st.run D K env c).1.log ≠ none ∨ env.err st ≠ none := by
  -- a step without a request
  have henv : ∀ o : Option Err, (∃ e, (.ok o : Except Abort (Option Err)) = .ok (some e)) ↔
      lastErr D c.log ≠ none ∨ o ≠ none := by
    intro o
    cases o <;> simp [hc]
  -- a step with one request
  have hone : ∀ (cm : ClusterMember) (a : Ask) (r : Except Abort (Option Err)), r = .ok (a.err D) →
      ((∃ e, r = .ok (some e)) ↔
        lastErr D (⟨cm, c.log ++ [a]⟩ : Client).log ≠ none ∨ (none : Option Err) ≠ none) := by
    rintro cm a r rfl
    rw [lastErr_concat]
    cases a.err D <;> simp
  cases st with
  | openAcc => exact henv env.openAcc
  | sessionSetup => exact henv env.sessionSetup
  | persistNode => exact henv env.persistNode
  | memberAndOK =>
    obtain ⟨a, ha, -, -, ⟨e, hr, h⟩ | ⟨m, attrs, hr, h⟩⟩ := memberAndOK_cases (D := D) K env.net c
    · rw [ClientStep.run, h]
      exact hone _ a _ (by rw [Ask.err, ha]; simp only [hr, stop])
    · rw [ClientStep.run, h]
      exact hone _ a _ (by rw [Ask.err, ha]; simp only [hr, stop])
  | createAndReply =>
    obtain ⟨a, ha, -, ⟨e, id, hr, -, h⟩ | ⟨id, m, hr, h⟩⟩ := createAndReply_cases (D := D) env.net c
    · rw [ClientStep.run, h]
      exact hone _ a _ (by rw [Ask.err, ha]; simp only [hr, stop])
    · rw [ClientStep.run, h]
      exact hone _ a _ (by rw [Ask.err, ha]; simp only [hr, stop])
  | joinAndReply =>
    obtain ⟨-, h⟩ | ⟨a, ha, -, ⟨e, hr, h⟩ | ⟨m, hr, h⟩⟩ := joinAndReply_cases env.net c
    · rw [ClientStep.run, h]
      simp [hc, Surroundings.err]
    · rw [ClientStep.run, h]
      exact hone _ a _ (by rw [Ask.err, ha]; simp only [hr, stop])
    · rw [ClientStep.run, h]
      exact hone _ a _ (by rw [Ask.err, ha]; simp only [hr, stop])
  | byeAndAck =>
    obtain ⟨a, ha, -, h⟩ := byeAndAck_cases env.net c
    rw [ClientStep.run, h]
    exact hone _ a _ (by rw [Ask.err, ha])
  | getAndMembers =>
    obtain ⟨asks, hlog, hdec, -⟩ := getAndMembers_decided (D := D) env.net c
    rw [ClientStep.run, hdec.reports_iff, hlog]
    rcases List.eq_nil_or_concat asks with rfl | ⟨pre, a, rfl⟩
    · simp [hc, Surroundings.err]
    · rw [List.concat_eq_append] at hdec ⊢
      obtain ⟨hstep, hsize⟩ := hdec.1 a (List.mem_append_right _ List.mem_cons_self)
      rw [← List.append_assoc, lastErr_concat, List.getLast?_concat, Ask.err, hstep, hsize]
      simp [Surroundings.err]

/-- An error that a session reports is that of its last request, or of a step that makes none; and
that of its last request is reported. -/
theorem runSteps_reports (K : ClientDeps) (env : Surroundings) (steps : List ClientStep) {c : Client}
    (hc : lastErr D c.log = none) :
    ((∃ e, (runSteps D K env steps c).2 = .ok (some e)) →
      lastErr D (runSteps D K env steps c).1.log ≠ none ∨ ∃ st ∈ steps, env.err st ≠ none) ∧
    (lastErr D (runSteps D K env steps c).1.log ≠ none →
      ∃ e, (runSteps D K env steps c).2 = .ok (some e)) := by
  refine Script.run_rule (I := fun c : Client => lastErr D c.log = none)
    (Q := fun r : Stepped => ((∃ e, r.2 = .ok (some e)) →
      lastErr D r.1.log ≠ none ∨ ∃ st ∈ steps, env.err st ≠ none) ∧
      (lastErr D r.1.log ≠ none → ∃ e, r.2 = .ok (some e))) ?_ ?_ ?_ hc
  · intro s hs c c' hc hpass
    obtain ⟨st, -, rfl⟩ := List.mem_map.1 hs
    have hrep := step_reports K env st hc
    rw [hpass] at hrep
    by_contra hlast
    obtain ⟨e, he⟩ := hrep.2 (.inl hlast)
    cases he
  · intro s hs c c' r hc hstop hr
    obtain ⟨st, hst, rfl⟩ := List.mem_map.1 hs
    have hrep := step_reports K env st hc
    rw [hstop] at hrep
    refine ⟨fun h => ?_, fun h => hrep.2 (.inl h)⟩
    exact (hrep.1 h).imp_right fun henv => ⟨st, hst, henv⟩
  · intro c hc
    exact ⟨fun ⟨e, he⟩ => (by cases he), fun h => absurd hc h⟩

theorem step_faults {st : ClientStep} {c : Client} {x : Abort}
    (h : (st.run D K env c).2 = .error x) : st = .joinAndReply ∨ st = .getAndMembers := by
  cases st with
  | joinAndReply => exact .inl rfl
  | getAndMembers => exact .inr rfl
  | openAcc | sessionSetup | persistNode => cases h
  | memberAndOK =>
    obtain ⟨a, -, -, -, ⟨e, -, he⟩ | ⟨m, attrs, -, he⟩⟩ := memberAndOK_cases (D := D) K env.net c
    · rw [ClientStep.run, he] at h; cases h
    · rw [ClientStep.run, he] at h; cases h
  | createAndReply =>
    obtain ⟨a, -, -, ⟨e, id, -, -, he⟩ | ⟨id, m, -, he⟩⟩ := createAndReply_cases (D := D) env.net c
    · rw [ClientStep.run, he] at h; cases h
    · rw [ClientStep.run, he] at h; cases h
  | byeAndAck =>
    obtain ⟨a, -, -, he⟩ := byeAndAck_cases env.net c
    rw [ClientStep.run, he] at h
    cases h

theorem step_env {st : ClientStep} (henv : env.err st ≠ none) (c : Client) :
    ∃ e, st.run D K env c = (c, .ok (some e)) := by
  obtain ⟨e, he⟩ := Option.ne_none_iff_exists'.1 henv
  cases st with
  | openAcc => exact ⟨e, by rw [ClientStep.run]; exact Prod.ext rfl (congrArg Except.ok he)⟩
  | sessionSetup => exact ⟨e, by rw [ClientStep.run]; exact Prod.ext rfl (congrArg Except.ok he)⟩
  | persistNode => exact ⟨e, by rw [ClientStep.run]; exact Prod.ext rfl (congrArg Except.ok he)⟩
  | memberAndOK | createAndReply | joinAndReply | getAndMembers | byeAndAck => cases he

/-- After steps that cannot fault it is reached, unless one of them reports an error. -/
theorem runSteps_env (K : ClientDeps) {pre : List ClientStep} {st : ClientStep}
    (post : List ClientStep) (hpre : ∀ s ∈ pre, s ≠ .joinAndReply ∧ s ≠ .getAndMembers)
    (henv : env.err st ≠ none) (c : Client) :
    ∃ e, (runSteps D K env (pre ++ st :: post) c).2 = .ok (some e) := by
  induction pre generalizing c with
  | nil =>
    obtain ⟨e, he⟩ := step_env (D := D) (K := K) henv c
    refine ⟨e, ?_⟩
    rw [runSteps, List.nil_append, List.map_cons, Script.run_stop he (by simp)]
  | cons s pre ih =>
    obtain ⟨hs, hpre⟩ := List.forall_mem_cons.1 hpre
    rcases hr : s.run D K env c with ⟨c', r⟩
    rcases r with x | (- | e)
    · rcases step_faults (congrArg Prod.snd hr) with h | h
      · exact absurd h hs.1
      · exact absurd h hs.2
    · rw [runSteps, List.cons_append, List.map_cons, Script.run_pass hr]
      exact ih hpre c'
    · rw [runSteps, List.cons_append, List.map_cons, Script.run_stop hr (by simp)]
      exact ⟨e, rfl⟩

theorem start_env (K : ClientDeps) {kind : ClientKind} {st : ClientStep} (hst : st ∈ kind.steps)
    (henv : env.err st ≠ none) (cm : ClusterMember) :
    ∃ e, (kind.start D K env cm).2 = .ok (some e) := by
  obtain ⟨pre, post, hsplit, hpre⟩ : ∃ pre post, kind.steps = pre ++ st :: post ∧
      ∀ s ∈ pre, s ≠ ClientStep.joinAndReply ∧ s ≠ .getAndMembers := by
    cases st with
    | openAcc => cases kind <;> first | exact absurd hst (by decide) | exact ⟨[], _, rfl, by decide⟩
    | sessionSetup =>
      cases kind with
      | userMember => exact ⟨[.openAcc], _, rfl, by decide⟩
      | adminClient => exact ⟨[], _, rfl, by decide⟩
      | soloMember => exact ⟨[], _, rfl, by decide⟩
      | bootstrapper => exact ⟨[], _, rfl, by decide⟩
    | persistNode =>
      cases kind with
      | soloMember => exact ⟨[.sessionSetup, .memberAndOK, .byeAndAck], [], rfl, by decide⟩
      | userMember | adminClient | bootstrapper => exact absurd hst (by decide)
    | memberAndOK | createAndReply | joinAndReply | getAndMembers | byeAndAck => exact absurd rfl henv
  rw [ClientKind.start, hsplit]
  exact runSteps_env K post hpre henv _

/-- A session of any kind of client reports an error exactly if its last request is left with one,
or a step of it that makes no request fails. -/
theorem start_reports (D : Deps) (K : ClientDeps) (env : Surroundings) (kind : ClientKind)
    (cm : ClusterMember) :
    (∃ e, (kind.start D K env cm).2 = .ok (some e)) ↔
      lastErr D (kind.start D K env cm).1.log ≠ none ∨ ∃ st ∈ kind.steps, env.err st ≠ none := by
  obtain ⟨honly, hlast⟩ := runSteps_reports (D := D) K env kind.steps (c := ⟨cm, []⟩) rfl
  refine ⟨honly, ?_⟩
  rintro (h | ⟨st, hst, henv⟩)
  · exact hlast h
  · exact start_env K hst henv cm

/-! Where the cluster ID comes from. -/

def Ask.Created (D : Deps) (a : Ask) (id : NodeID) : Prop :=
  a.step = .createAndReply ∧ ∃ m, a.turn.created D = .ok (id, m)

theorem step_clusterID_of_ne {st : ClientStep} (hst : st ≠ .createAndReply) (c : Client) :
    (st.run D K env c).1.cm.clusterID = c.cm.clusterID := by
  cases st with
  | createAndReply => exact absurd rfl hst
  | openAcc | sessionSetup | persistNode => rfl
  | memberAndOK =>
    obtain ⟨a, -, -, -, ⟨e, -, he⟩ | ⟨m, attrs, -, he⟩⟩ := memberAndOK_cases (D := D) K env.net c
    · rw [ClientStep.run, he]
    · rw [ClientStep.run, he]
  | joinAndReply =>
    obtain ⟨-, h⟩ | ⟨a, -, -, ⟨e, -, h⟩ | ⟨m, -, h⟩⟩ := joinAndReply_cases env.net c
    · rw [ClientStep.run, h]
    · rw [ClientStep.run, h]
    · rw [ClientStep.run, h]
  | getAndMembers =>
    obtain ⟨asks, -, -, hid, -⟩ := getAndMembers_decided (D := D) env.net c
    exact hid
  | byeAndAck =>
    obtain ⟨a, -, -, h⟩ := byeAndAck_cases env.net c
    rw [ClientStep.run, h]

/-- The client has the ID it was made with, or one that it took from the answer to a Create. -/
def IDKnown (D : Deps) (cm : ClusterMember) (c : Client) : Prop :=
  ∀ id, c.cm.clusterID = some id → cm.clusterID = some id ∨ ∃ a ∈ c.log, a.Created D id

theorem IDKnown.later {cm : ClusterMember} {c : Client} (hc : IDKnown D cm c) {id : NodeID}
    (hid : c.cm.clusterID = some id) (asks : List Ask) :
    cm.clusterID = some id ∨ ∃ a ∈ c.log ++ asks, a.Created D id := by
  rcases hc id hid with h | ⟨b, hb, hcr⟩
  · exact .inl h
  · exact .inr ⟨b, List.mem_append_left _ hb, hcr⟩

theorem step_idKnown {cm : ClusterMember} (K : ClientDeps) (env : Surroundings) (st : ClientStep)
    {c : Client} (hc : IDKnown D cm c) : IDKnown D cm (st.run D K env c).1 := by
  intro id hid
  by_cases hst : st = .createAndReply
  · subst hst
    obtain ⟨a, ha, -, ⟨e, id', -, hid', h⟩ | ⟨id', m, hm, h⟩⟩ := createAndReply_cases (D := D) env.net c
    · rw [ClientStep.run, h] at hid ⊢
      rcases hid' with rfl | rfl
      · exact hc.later hid [a]
      · cases hid
    · rw [ClientStep.run, h] at hid ⊢
      cases hid
      exact .inr ⟨a, List.mem_append_right _ List.mem_cons_self, ha, m, hm⟩
  · rw [step_clusterID_of_ne hst] at hid
    obtain ⟨asks, hlog, -⟩ := run_log (D := D) K env st c
    rw [hlog]
    exact hc.later hid asks

theorem runSteps_idKnown {cm : ClusterMember} (K : ClientDeps) (env : Surroundings)
    (steps : List ClientStep) {c : Client} (hc : IDKnown D cm c) :
    IDKnown D cm (runSteps D K env steps c).1 := by
  have hstep : ∀ s ∈ steps.map (ClientStep.run D K env), ∀ c c' r, IDKnown D cm c → s c = (c', r) →
      IDKnown D cm c' := by
    intro s hs c c' r hc h
    obtain ⟨st, -, rfl⟩ := List.mem_map.1 hs
    have hk := step_idKnown K env st hc
    rwa [h] at hk
  exact Script.run_rule (I := IDKnown D cm) (Q := fun r => IDKnown D cm r.1)
    (fun s hs c c' hc h => hstep s hs c c' _ hc h) (fun s hs c c' r hc h _ => hstep s hs c c' r hc h)
    (fun _ hc => hc) hc

/-- A rule for scripts that take each step once: a step may use that it was not taken before. -/
theorem runSteps_once (K : ClientDeps) (env : Surroundings) {P : Client → Prop}
    {steps : List ClientStep} (hnodup : steps.Nodup)
    (hstep : ∀ st c, (∀ a ∈ c.log, a.step ≠ st) → P c → P (st.run D K env c).1) {c : Client}
    (hno : ∀ a ∈ c.log, a.step ∉ steps) (hc : P c) : P (runSteps D K env steps c).1 := by
  induction steps generalizing c with
  | nil => exact hc
  | cons st steps ih =>
    obtain ⟨hnot, hnodup⟩ := List.nodup_cons.1 hnodup
    obtain ⟨asks, hlog, hasks⟩ := run_log (D := D) K env st c
    have hst : P (st.run D K env c).1 :=
      hstep st c (fun a ha heq => hno a ha (by rw [heq]; exact List.mem_cons_self)) hc
    rcases hr : st.run D K env c with ⟨c', r⟩
    rw [hr] at hst hlog
    by_cases hpass : r = .ok none
    · rw [hpass] at hr
      rw [runSteps, List.map_cons, Script.run_pass hr]
      refine ih hnodup (fun a ha => ?_) hst
      rw [hlog] at ha
      rcases List.mem_append.1 ha with ha | ha
      · exact fun h => hno a ha (List.mem_cons_of_mem _ h)
      · rw [hasks a ha]
        exact hnot
    · rw [runSteps, List.map_cons, Script.run_stop hr hpass]
      exact hst

/-- At most one Create has been made, and the client has the ID that it took from the answer. -/
def CreatedOnce (D : Deps) (c : Client) : Prop :=
  ∀ a ∈ c.log, a.step = .createAndReply → (∀ b ∈ c.log, b.step = .createAndReply → b = a) ∧
    ∀ id, a.Created D id → c.cm.clusterID = some id

theorem step_createdOnce (K : ClientDeps) (env : Surroundings) (st : ClientStep) (c : Client)
    (hno : ∀ a ∈ c.log, a.step ≠ st) (hc : CreatedOnce D c) :
    CreatedOnce D (st.run D K env c).1 := by
  by_cases hst : st = .createAndReply
  · subst hst
    -- the only Create is the one made now
    have hlast : ∀ a b : Ask, a ∈ c.log ++ [b] → a.step = .createAndReply → a = b := by
      intro a b ha hstep
      rcases List.mem_append.1 ha with ha | ha
      · exact absurd hstep (hno a ha)
      · exact List.mem_singleton.1 ha
    obtain ⟨b, -, -, ⟨e, id', hbad, -, h⟩ | ⟨id', m, hm, h⟩⟩ := createAndReply_cases (D := D) env.net c
    · rw [ClientStep.run, h]
      intro a ha hstep
      obtain rfl := hlast a b ha hstep
      refine ⟨fun b' hb' => hlast b' a hb', ?_⟩
      rintro id ⟨-, m', hm'⟩
      rw [hbad] at hm'
      cases hm'
    · rw [ClientStep.run, h]
      intro a ha hstep
      obtain rfl := hlast a b ha hstep
      refine ⟨fun b' hb' => hlast b' a hb', ?_⟩
      rintro id ⟨-, m', hm'⟩
      rw [hm] at hm'
      cases hm'
      rfl
  · obtain ⟨asks, hlog, hasks⟩ := run_log (D := D) K env st c
    have hold : ∀ a ∈ (st.run D K env c).1.log, a.step = .createAndReply → a ∈ c.log := by
      intro a ha hstep
      rw [hlog] at ha
      rcases List.mem_append.1 ha with ha | ha
      · exact ha
      · exact absurd ((hasks a ha).symm.trans hstep) hst
    intro a ha hstep
    obtain ⟨hone, hid⟩ := hc a (hold a ha hstep) hstep
    rw [step_clusterID_of_ne hst]
    exact ⟨fun b hb hb' => hone b (hold b hb hb') hb', hid⟩

theorem start_createdOnce (D : Deps) (K : ClientDeps) (env : Surroundings) (kind : ClientKind)
    (cm : ClusterMember) : CreatedOnce D (kind.start D K env cm).1 := by
  refine runSteps_once K env ?_ (step_createdOnce K env) ?_ ?_
  · cases kind <;> decide
  · exact fun a ha => absurd ha List.not_mem_nil
  · exact fun a ha => absurd ha List.not_mem_nil

theorem runSteps_log (K : ClientDeps) (env : Surroundings) (steps : List ClientStep) (c : Client) :
    c.log <+: (runSteps D K env steps c).1.log := by
  have hstep : ∀ s ∈ steps.map (ClientStep.run D K env), ∀ c₁ c' r, c.log <+: c₁.log →
      s c₁ = (c', r) → c.log <+: c'.log := by
    intro s hs c₁ c' r hc h
    obtain ⟨st, -, rfl⟩ := List.mem_map.1 hs
    obtain ⟨asks, hlog, -⟩ := run_log (D := D) K env st c₁
    rw [h] at hlog
    exact hc.trans ⟨asks, hlog.symm⟩
  exact Script.run_rule (I := fun c₁ : Client => c.log <+: c₁.log)
    (Q := fun r : Stepped => c.log <+: r.1.log) (fun s hs c c' hc h => hstep s hs c c' _ hc h)
    (fun s hs c c' r hc h _ => hstep s hs c c' r hc h) (fun _ hc => hc) (List.prefix_refl _)

theorem runSteps_log_part (K : ClientDeps) (env : Surroundings) {pre steps : List ClientStep}
    (hpre : pre <+: steps) (c : Client) :
    (runSteps D K env pre c).1.log <+: (runSteps D K env steps c).1.log := by
  obtain ⟨post, rfl⟩ := hpre
  unfold runSteps
  rw [List.map_append]
  rcases Script.run_append (pre.map (ClientStep.run D K env)) (post.map (ClientStep.run D K env)) c with
    ⟨c', hr, h⟩ | ⟨-, h⟩
  · rw [h, hr]
    exact runSteps_log K env post c'
  · rw [h]

/-! The clients. -/

def Ask.Answered (a : Ask) : Prop :=
  ∃ m f, a.turn.read = .ok (some m) ∧ a.step.handler = some f ∧ m.getOp = f.replyOp

def Ask.Granted (a : Ask) (id : NodeID) : Prop :=
  a.step = .createAndReply ∧
    ∃ m, a.turn.read = .ok (some m) ∧ m.getOp = Tag.createReply ∧ m.clusterID = some id.value

/-- If some request is not answered by its reply, then a session comes to an error; and throughout,
the client has the cluster ID that it was made with, or that of a CreateReply. -/
structure Undeceived (D : Deps) (K : ClientDeps) (env : Surroundings) (kind : ClientKind)
    (cm : ClusterMember) : Prop where
  refusals : (∃ a ∈ (kind.start D K env cm).1.log, ¬ a.Answered) →
    ∃ e, (kind.start D K env cm).2 = .ok (some e)
  clusterID : ∀ pre, pre <+: kind.steps →
    ∀ id, (runSteps D K env pre ⟨cm, []⟩).1.cm.clusterID = some id →
      cm.clusterID = some id ∨ ∃ a ∈ (runSteps D K env pre ⟨cm, []⟩).1.log, a.Granted id

/-- A client of any kind, whatever it meets, is not deceived exactly if all its requests are answered
by their replies, or its last one is left with an error, or a step that makes no request fails; and
each ID that it takes from the answer to a Create is that of a CreateReply, or the one it was made
with. -/
theorem start_undeceived_iff (D : Deps) (K : ClientDeps) (env : Surroundings) (kind : ClientKind)
    (cm : ClusterMember) :
    Undeceived D K env kind cm ↔
      ((∀ a ∈ (kind.start D K env cm).1.log, a.Answered) ∨
        lastErr D (kind.start D K env cm).1.log ≠ none ∨ ∃ st ∈ kind.steps, env.err st ≠ none) ∧
      ∀ a ∈ (kind.start D K env cm).1.log, ∀ id, a.Created D id →
        a.Granted id ∨ cm.clusterID = some id := by
  have hrep := start_reports D K env kind cm
  constructor
  · rintro ⟨href, hid⟩
    refine ⟨?_, fun a ha id hcr => ?_⟩
    · by_cases hall : ∀ a ∈ (kind.start D K env cm).1.log, a.Answered
      · exact .inl hall
      · push Not at hall
        exact .inr (hrep.1 (href hall))
    · obtain ⟨hone, hthis⟩ := start_createdOnce D K env kind cm a ha hcr.1
      rcases hid kind.steps (List.prefix_refl _) id (hthis id hcr) with h | ⟨b, hb, hgr⟩
      · exact .inr h
      · rw [hone b hb hgr.1] at hgr
        exact .inl hgr
  · rintro ⟨href, hid⟩
    refine ⟨?_, fun pre hpre id hcid => ?_⟩
    · rintro ⟨a, ha, hno⟩
      rcases href with hall | h
      · exact absurd (hall a ha) hno
      · exact hrep.2 h
    · have hknown : IDKnown D cm ⟨cm, []⟩ := fun _ h => .inl h
      rcases runSteps_idKnown K env pre hknown id hcid with h | ⟨a, ha, hcr⟩
      · exact .inl h
      · rcases hid a ((runSteps_log_part K env hpre _).subset ha) id hcr with hgr | h
        · exact .inr ⟨a, ha, hgr⟩
        · exact .inl h

/-- A refusal in a session that delivers no error. -/
theorem deceived_of_passes {kind : ClientKind} {cm : ClusterMember} {k : ℕ} {a : Ask}
    (hpass : (kind.start D K env cm).2 = .ok none) (ha : (kind.start D K env cm).1.log[k]? = some a)
    (hno : ¬ a.Answered) : ¬ Undeceived D K env kind cm := by
  intro h
  obtain ⟨e, he⟩ := h.refusals ⟨a, List.mem_of_getElem? ha, hno⟩
  rw [hpass] at he
  cases he

namespace Sample

def refused : Surroundings :=
  { net := answers [{ op := some Tag.memberOK }, errorMsg .nilCluster, { op := some Tag.ack }] }

def refusedAdmin : Stepped := ClientKind.adminClient.start .plain .plain refused (madeMember none 2)

def refusedUser : Stepped :=
  ClientKind.userMember.start .plain .plain refused (madeMember (some (.rep 7)) 2)

end Sample

/-- An admin whose Create is refused, and a user whose Join is. Neither delivers an error; the admin
has a random cluster ID, and the user a cluster of size 0. -/
theorem refusals_unnoticed :
    (Sample.refusedAdmin.1.log.map (·.step) = [.memberAndOK, .createAndReply, .byeAndAck] ∧
      Sample.refusedAdmin.2 = .ok none ∧ Sample.refusedAdmin.1.cm.clusterID = some (.rep 8) ∧
      ¬ Undeceived .plain .plain Sample.refused .adminClient (Sample.madeMember none 2)) ∧
    (Sample.refusedUser.1.log.map (·.step) = [.memberAndOK, .joinAndReply, .byeAndAck] ∧
      Sample.refusedUser.2 = .ok none ∧ Sample.refusedUser.1.cm.clusterMaxSize = 0 ∧
      ¬ Undeceived .plain .plain Sample.refused .userMember (Sample.madeMember (some (.rep 7)) 2)) := by
  have hno : ∀ (st : ClientStep) (size : UInt32) (request : Option XLRegMsg),
      ¬ (⟨st, size, request, Sample.refused.net 1⟩ : Ask).Answered := by
    rintro st size request ⟨m, f, hread, hf, hop⟩
    cases hread
    cases st <;> cases hf <;> exact absurd hop (by decide)
  refine ⟨⟨rfl, rfl, rfl, deceived_of_passes (k := 1) rfl rfl (hno _ _ _)⟩, rfl, rfl, rfl, ?_⟩
  exact deceived_of_passes (k := 1) rfl rfl (hno _ _ _)

end XlReg
