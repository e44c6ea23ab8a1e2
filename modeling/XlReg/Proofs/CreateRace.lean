import XlReg.Proofs.Replies
import XlReg.Spec.Creates

/-! Creates that run concurrently. A Create whose name is not in use looks again in `AddCluster`,
under the lock, and if the name has been taken meanwhile it is answered with an Error, where a
Create alone would have been told about the cluster that has the name. So the replies are those
of some order of the requests exactly in the runs in which a name that was free stays free. -/

namespace XlReg

def CreatesAlone (D : Deps) (w : World) (x : Input) (r : XLRegMsg) (w' : World) : Prop :=
  ∃ draws, createWhole D w ⟨x.msg, draws⟩ = .ok (w', some r)

/-- The same clusters and indexes: at most the filters differ. -/
def World.SameClusters (w a : World) : Prop := w = a.setFilter w.reg.idFilter

/-- A Create about to call `AddCluster` still finds the name it asks for free. -/
def CreateStillFree (w : World) (c : CreateCall) (_ : Unit) : Prop :=
  ∀ n, c.phase = .adding n → c.input.msg.getClusterName ≠ "" →
    w.reg.clustersByName.lookup c.input.msg.getClusterName = none

instance (w : World) (c : CreateCall) (u : Unit) : Decidable (CreateStillFree w c u) :=
  match hp : c.phase with
  | .nameLookup => isTrue (by simp [CreateStillFree, hp])
  | .idDraw => isTrue (by simp [CreateStillFree, hp])
  | .adding _ => decidable_of_iff (c.input.msg.getClusterName ≠ "" →
      w.reg.clustersByName.lookup c.input.msg.getClusterName = none) (by simp [CreateStillFree, hp])
  | .replied _ => isTrue (by simp [CreateStillFree, hp])

/-! What each section does. -/

theorem createStep_nameLookup {D : Deps} {w w' : World} {c c' : CreateCall}
    (hp : c.phase = .nameLookup) (h : createStep D w c = .ok (w', c')) :
    w' = w ∧ ((w.reg.clustersByName.lookup c.input.msg.getClusterName = none ∧ c' = c.to .idDraw) ∨
      ∃ p rc, w.reg.clustersByName.lookup c.input.msg.getClusterName = some p ∧
        w.heap[p]? = some rc ∧
        c' = c.to (.replied (createReply rc.id rc.maxSize rc.attrs rc.epCount))) := by
  simp only [createStep, hp] at h
  rcases hl : w.reg.clustersByName.lookup c.input.msg.getClusterName with - | p
  · simp only [hl] at h
    cases h
    exact ⟨rfl, .inl ⟨rfl, rfl⟩⟩
  · simp only [hl] at h
    rcases hd : w.deref p with a | rc
    · simp only [hd] at h
      cases h
    · simp only [hd] at h
      cases h
      exact ⟨rfl, .inr ⟨p, rc, rfl, deref_ok.1 hd, rfl⟩⟩

theorem createStep_idDraw {D : Deps} (hf : D.ExactFilter) {w w' : World} {c c' : CreateCall}
    (hp : c.phase = .idDraw) (h : createStep D w c = .ok (w', c')) :
    ∃ n, w.reg.idFilter.isMember D n.value = .ok false ∧
      w' = w.setFilter ⟨w.reg.idFilter.ids ++ [n.value]⟩ ∧ c' = c.to (.adding n) := by
  simp only [createStep, hp] at h
  rcases hu : insertUniqueNodeID D w.reg.idFilter c.input.draws with a | ⟨f, r⟩
  · simp only [hu] at h
    cases h
  · obtain ⟨n, hn, rfl, rfl⟩ := insertUniqueNodeID_exact hf hu
    simp only [hu] at h
    cases h
    exact ⟨n, hn.fresh, rfl, rfl⟩

/-- The last section is a whole Create that draws the ID recorded, by itself and in a world that
differs in the filter only, provided the name is not in use there. -/
theorem createStep_adding {D : Deps} {a w w' : World} {c c' : CreateCall} {n : NodeID} {f : IdFilter}
    (hp : c.phase = .adding n) (hw : w = a.setFilter f)
    (hl : a.reg.clustersByName.lookup c.input.msg.getClusterName = none)
    (hn : Draws D a.reg.idFilter [n] n) (h : createStep D w c = .ok (w', c')) :
    ∃ a' r, createWhole D a ⟨c.input.msg, [n]⟩ = .ok (a', some r) ∧ w' = a'.setFilter f ∧
      c' = c.to (.replied r) := by
  subst hw
  simp only [createStep, hp] at h
  simp only [createWhole, doCreateMsg, hl]
  rcases hrc : newRegCluster D c.input.msg.getClusterName n 0 (clampSize c.input.msg.getClusterMaxSize)
      c.input.msg.getEndPointCount with e | rc
  · simp only [hrc] at h
    cases h
    unfold Draws at hn
    simp only [createNew, hn, hrc]
    exact ⟨_, _, rfl, rfl, rfl⟩
  · simp only [hrc] at h
    rw [createNew_drawn (h := { msgIn := c.input.msg }) hn hrc]
    -- the two calls of `AddCluster` differ in the filter only
    have hsame : (a.setFilter f).alloc rc =
        ((a.setFilter ⟨a.reg.idFilter.ids ++ [n.value]⟩).alloc rc).setFilter f := rfl
    have hlen : (a.setFilter f).heap.length = a.heap.length := rfl
    rw [hsame, hlen, addCluster_setFilter] at h
    rcases ha : addCluster D ((a.setFilter ⟨a.reg.idFilter.ids ++ [n.value]⟩).alloc rc)
      (some a.heap.length) with b | ⟨w₁, i, - | e⟩
    · simp only [ha, Except.map] at h
      cases h
    · simp only [ha, Except.map] at h
      cases h
      exact ⟨_, _, rfl, rfl, rfl⟩
    · simp only [ha, Except.map] at h
      cases h
      exact ⟨_, _, rfl, rfl, rfl⟩

theorem createStep_to {D : Deps} {w w' : World} {c c' : CreateCall}
    (h : createStep D w c = .ok (w', c')) : ∃ p, c' = c.to p := by
  simp only [createStep] at h
  repeat' split at h
  all_goals first
    | (cases h; done)
    | (cases h; exact ⟨_, rfl⟩)

def createCalls (D : Deps) : (creates D).Calls XLRegMsg where
  arg := CreateCall.input
  result := CreateCall.reply
  start_arg _ := rfl
  start_result _ := rfl
  step_arg w c _ w' c' h := by
    obtain ⟨p, rfl⟩ := createStep_to h
    rfl
  step_result w c _ w' c' r h hr := by
    rcases hp : c.phase with - | - | n | r'
    · simp [CreateCall.reply, hp] at hr
    · simp [CreateCall.reply, hp] at hr
    · simp [CreateCall.reply, hp] at hr
    · change createStep D w c = _ at h
      simp only [createStep, hp] at h
      cases h
      exact ⟨rfl, rfl⟩

theorem createWhole_ok {D : Deps} {w w' : World} {x : Input} {r : Option XLRegMsg}
    (h : createWhole D w x = .ok (w', r)) :
    ∃ g, doCreateMsg D w { msgIn := x.msg } x.draws = .ok (w', g) ∧ (respond g).msgOut = r := by
  unfold createWhole at h
  rcases hr : doCreateMsg D w { msgIn := x.msg } x.draws with a | ⟨w₁, g⟩
  · rw [hr] at h
    cases h
  · rw [hr] at h
    cases h
    exact ⟨g, rfl, rfl⟩

theorem draws_one {D : Deps} (hf : D.ExactFilter) {f : IdFilter} {n : NodeID} (hn : n.value ∉ f.ids) :
    Draws D f [n] n := by
  simp [Draws, insertUniqueNodeID, containsID, IdFilter.isMember_exact hf, IdFilter.insert_exact hf, hn]

def Pending (s : Parties.State World CreateCall) (i : ℕ) (n : NodeID) : Prop :=
  ∃ c, s.parties[i]? = some c ∧ c.phase = .adding n

theorem pending_set {s : Parties.State World CreateCall} {i j : ℕ} {w : World} {c' : CreateCall}
    {n : NodeID} (h : Pending ⟨w, s.parties.set i c'⟩ j n) :
    (j = i ∧ c'.phase = .adding n) ∨ (j ≠ i ∧ Pending s j n) := by
  obtain ⟨c, hc, hp⟩ := h
  by_cases hj : j = i
  · subst hj
    have hlt : j < s.parties.length := by
      have := (List.getElem?_eq_some_iff.1 hc).1
      simpa using this
    simp only [List.getElem?_set_self hlt] at hc
    cases hc
    exact .inl ⟨rfl, hp⟩
  · simp only [List.getElem?_set_ne (Ne.symm hj)] at hc
    exact .inr ⟨hj, c, hc, hp⟩

theorem pending_enter {D : Deps} {s : Parties.State World CreateCall} {x : Input} {i : ℕ} {n : NodeID}
    (h : Pending { s with parties := s.parties ++ [(creates D).start x] } i n) : Pending s i n := by
  obtain ⟨c, hc, hp⟩ := h
  rcases Nat.lt_or_ge i s.parties.length with hlt | hge
  · simp only [List.getElem?_append_left hlt] at hc
    exact ⟨c, hc, hp⟩
  · simp only [List.getElem?_append_right hge] at hc
    have hlast := List.mem_singleton.1 (List.mem_of_getElem? hc)
    rw [hlast] at hp
    cases hp

/-- Concurrent Creates beside the same Creates one by one, as far as they have been answered. The
IDs that only the concurrent ones have recorded are those of Creates still under way. -/
structure CreateSim (s : Parties.State World CreateCall) (a : World) : Prop where
  same : s.shared.SameClusters a
  registered : a.Registered
  ids : a.reg.idFilter.ids ⊆ s.shared.reg.idFilter.ids
  pending : ∀ i n, Pending s i n →
    n.value ∈ s.shared.reg.idFilter.ids ∧ n.value ∉ a.reg.idFilter.ids
  apart : ∀ i j n, Pending s i n → Pending s j n → i = j

/-- The simulation survives an action whose Create is not left with a recorded ID. -/
theorem CreateSim.quiet {s : Parties.State World CreateCall} {a : World} (h : CreateSim s a) {i : ℕ}
    {c' : CreateCall} (hno : ∀ n, c'.phase ≠ .adding n) :
    CreateSim ⟨s.shared, s.parties.set i c'⟩ a := by
  have hold : ∀ j n, Pending ⟨s.shared, s.parties.set i c'⟩ j n → Pending s j n := by
    intro j n hp
    rcases pending_set hp with ⟨-, hp⟩ | ⟨-, hp⟩
    · exact absurd hp (hno n)
    · exact hp
  exact ⟨h.same, h.registered, h.ids, fun j n hp => h.pending j n (hold j n hp),
    fun j k n hj hk => h.apart j k n (hold j n hj) (hold k n hk)⟩

theorem CreateSim.draw {s : Parties.State World CreateCall} {a : World} (h : CreateSim s a) {i : ℕ}
    {c' : CreateCall} {n : NodeID} (hnew : n.value ∉ s.shared.reg.idFilter.ids)
    (hp : c'.phase = .adding n) :
    CreateSim ⟨s.shared.setFilter ⟨s.shared.reg.idFilter.ids ++ [n.value]⟩, s.parties.set i c'⟩ a := by
  have hone : ∀ j m, Pending ⟨s.shared.setFilter ⟨s.shared.reg.idFilter.ids ++ [n.value]⟩,
      s.parties.set i c'⟩ j m → (j = i ∧ m = n) ∨ (j ≠ i ∧ Pending s j m ∧ m ≠ n) := by
    intro j m hm
    rcases pending_set hm with ⟨rfl, hp'⟩ | ⟨hj, hold⟩
    · rw [hp] at hp'
      cases hp'
      exact .inl ⟨rfl, rfl⟩
    · refine .inr ⟨hj, hold, ?_⟩
      rintro rfl
      exact hnew (h.pending j m hold).1
  refine ⟨?_, h.registered, fun b hb => List.mem_append_left _ (h.ids hb), fun j m hm => ?_,
    fun j k m hj hk => ?_⟩
  · unfold World.SameClusters
    rw [h.same]
    rfl
  · rcases hone j m hm with ⟨-, rfl⟩ | ⟨-, hm, -⟩
    · exact ⟨List.mem_append_right _ (List.mem_singleton_self _), fun hin => hnew (h.ids hin)⟩
    · exact ⟨List.mem_append_left _ (h.pending j m hm).1, (h.pending j m hm).2⟩
  · rcases hone j m hj with ⟨rfl, rfl⟩ | ⟨-, hj, hne⟩ <;> rcases hone k m hk with ⟨rfl, hm⟩ | ⟨-, hk, hne'⟩
    · rfl
    · exact absurd rfl hne'
    · exact absurd hm hne
    · exact h.apart j k m hj hk

theorem CreateSim.answer {D : Deps} {s : Parties.State World CreateCall} {a a' w' : World}
    (h : CreateSim s a) {i : ℕ} {c c' : CreateCall} {n : NodeID} {f : IdFilter}
    (hc : s.parties[i]? = some c) (hp : c.phase = .adding n) (hno : ∀ m, c'.phase ≠ .adding m)
    (hl : a.reg.clustersByName.lookup c.input.msg.getClusterName = none)
    (hn : Draws D a.reg.idFilter [n] n) {r : Option XLRegMsg}
    (hw : createWhole D a ⟨c.input.msg, [n]⟩ = .ok (a', r)) (hs : w' = a'.setFilter f)
    (hfilter : w'.reg.idFilter = s.shared.reg.idFilter) : CreateSim ⟨w', s.parties.set i c'⟩ a' := by
  obtain ⟨g, hrun, -⟩ := createWhole_ok hw
  have hids : a'.reg.idFilter = ⟨a.reg.idFilter.ids ++ [n.value]⟩ := doCreateMsg_recorded hl hn hrun
  have hold : ∀ j m, Pending ⟨w', s.parties.set i c'⟩ j m → j ≠ i ∧ Pending s j m := by
    intro j m hm
    rcases pending_set hm with ⟨-, hp'⟩ | hm
    · exact absurd hp' (hno m)
    · exact hm
  have hmine := h.pending i n ⟨c, hc, hp⟩
  refine ⟨?_, handler_registered (f := .doCreateMsg) h.registered hrun, ?_, fun j m hm => ?_,
    fun j k m hj hk => h.apart j k m (hold j m hj).2 (hold k m hk).2⟩
  · unfold World.SameClusters
    rw [hs]
    rfl
  · intro b hb
    rw [hfilter]
    rw [hids] at hb
    rcases List.mem_append.1 hb with hb | hb
    · exact h.ids hb
    · rw [List.mem_singleton.1 hb]
      exact hmine.1
  · obtain ⟨hj, hm⟩ := hold j m hm
    rw [hfilter, hids]
    refine ⟨(h.pending j m hm).1, fun hin => ?_⟩
    rcases List.mem_append.1 hin with hin | hin
    · exact (h.pending j m hm).2 hin
    · rw [NodeID.value_inj.1 (List.mem_singleton.1 hin)] at hm
      exact hj (h.apart j i n hm ⟨c, hc, hp⟩)

theorem create_simulation {D : Deps} (hf : D.ExactFilter) :
    Parties.ReturnSimulation (createCalls D) CreateStillFree (CreatesAlone D) CreateSim where
  enter s a x h := ⟨h.same, h.registered, h.ids, fun i n hp => h.pending i n (pending_enter hp),
    fun i j n hi hj => h.apart i j n (pending_enter hi) (pending_enter hj)⟩
  act s a i c u w' c' h hc hnone hfree hs := by
    change createStep D s.shared c = .ok (w', c') at hs
    have hsame : s.shared = a.setFilter s.shared.reg.idFilter := h.same
    rcases hp : c.phase with - | - | n | r
    · -- the name is looked up; if it is in use the Create is answered here
      obtain ⟨rfl, ⟨-, rfl⟩ | ⟨p, rc, hl, hrc, rfl⟩⟩ := createStep_nameLookup hp hs
      · exact ⟨a, h.quiet (by intro n hn; cases hn), rfl⟩
      · refine ⟨a, h.quiet (by intro n hn; cases hn), [], ?_⟩
        rw [hsame] at hl hrc
        have hfound := doCreateMsg_found (D := D) (w := a) (h := { msgIn := c.input.msg }) [] hl hrc
        change (doCreateMsg D a { msgIn := c.input.msg } []).map _ = _
        rw [hfound]
        rfl
    · obtain ⟨n, hnew, rfl, rfl⟩ := createStep_idDraw hf hp hs
      exact ⟨a, h.draw (IdFilter.not_mem hnew) rfl, rfl⟩
    · have hl : a.reg.clustersByName.lookup c.input.msg.getClusterName = none := by
        by_cases hname : c.input.msg.getClusterName = ""
        · rw [hname]
          exact h.registered.no_empty_name
        · have hfree := hfree n hp hname
          rw [hsame] at hfree
          exact hfree
      have hn := draws_one hf (h.pending i n ⟨c, hc, hp⟩).2
      obtain ⟨a', r, hw, hw', rfl⟩ := createStep_adding hp hsame hl hn hs
      refine ⟨a', h.answer hc hp (fun m hm => by cases hm) hl hn hw hw' ?_, [n], hw⟩
      rw [hw']
      rfl
    · simp [createCalls, CreateCall.reply, hp] at hnone

section Total

variable {D : Deps} (hf : D.ExactFilter) (hmap : D.HamtTotal) (hkeys : D.KeysNodeIDs)
  (hnew : ∀ w t, D.newHAMT w t = none)

include hmap hkeys in
theorem World.Registered.admits {w : World} (hw : w.Registered) {rc : RegCluster}
    (hid : rc.id.value ∉ w.reg.idFilter.ids) (hname : w.reg.clustersByName.lookup rc.name = none) :
    w.Admits D rc := by
  refine ⟨hkeys rc.id, hname, ?_⟩
  rw [Hamt.find_total hmap]
  rcases hl : w.reg.clustersByID.map.lookup rc.id.value with - | p
  · rfl
  · obtain ⟨hp, hidAt⟩ := hw.byID _ _ hl
    have hlt := hw.valid p hp
    rw [World.idAt_eq (List.getElem?_eq_getElem hlt)] at hidAt
    exact absurd (hidAt ▸ hw.known _ (List.getElem_mem hlt)) hid

include hf hmap hkeys hnew in
/-- Where nothing fails by itself, a Create with a name, by itself, is never refused. -/
theorem createsAlone_named {a a' : World} {x : Input} {r : XLRegMsg} (ha : a.Registered)
    (h : CreatesAlone D a x r a') :
    a'.Registered ∧ (x.msg.getClusterName ≠ "" → r.op = some Tag.createReply) := by
  obtain ⟨draws, hw⟩ := h
  obtain ⟨g, hrun, hmsg⟩ := createWhole_ok hw
  refine ⟨handler_registered (f := .doCreateMsg) ha hrun, fun hname => ?_⟩
  rcases doCreateMsg_ok hrun with ⟨hl, hrun⟩ | ⟨p, rc, -, -, -, rfl⟩
  · rcases hu : insertUniqueNodeID D a.reg.idFilter draws with b | ⟨f, res⟩
    · simp only [createNew, hu] at hrun
      cases hrun
    · obtain ⟨n, hn, -, -⟩ := insertUniqueNodeID_exact hf hu
      obtain ⟨rc, hrc⟩ : ∃ rc, newRegCluster D x.msg.getClusterName n 0
          (clampSize x.msg.getClusterMaxSize) x.msg.getEndPointCount = .ok rc :=
        ⟨_, newRegCluster_clamped (hnew _ _)⟩
      obtain ⟨-, hrcname, hid, -⟩ := newRegCluster_ok hrc
      have hadm : a.Admits D rc := by
        apply ha.admits hmap hkeys
        · rw [hid]
          exact IdFilter.not_mem hn.fresh
        · rw [hrcname, if_neg hname]
          exact hl
      have hlast := a.make_last ⟨a.reg.idFilter.ids ++ [n.value]⟩ rc
      rw [createNew_drawn (h := { msgIn := x.msg }) hn hrc,
        addCluster_of_admits hlast ⟨hadm.key, hadm.name, hadm.id⟩, hmap.insert] at hrun
      cases hrun
      cases hmsg
      rfl
  · cases hmsg
    rfl

include hf hmap hkeys hnew in
theorem linearizable_named {w₀ : World} (hw : w₀.Registered)
    {s₀ s : Parties.State World CreateCall} {evs : List (Parties.Event Input Unit)}
    (hL : Parties.Linearizable (createCalls D) (CreatesAlone D) World.SameClusters s₀ w₀ evs s)
    {i : ℕ} {x : Input} {r : XLRegMsg} (hret : (createCalls D).returned s i = some (x, r))
    (hname : x.msg.getClusterName ≠ "") : r.op = some Tag.createReply := by
  obtain ⟨order, a, hL⟩ := hL
  have hmem : i ∈ order := by
    apply (hL.complete i).2
    rw [hret]
    exact Option.some_ne_none _
  obtain ⟨-, hall⟩ := hL.replay.ensures (I := World.Registered)
    (Q := fun (x : Input) (r : XLRegMsg) => x.msg.getClusterName ≠ "" → r.op = some Tag.createReply)
    (fun a x r a' ha hx => createsAlone_named hf hmap hkeys hnew ha hx) hw
  exact hall i hmem x r hret hname

theorem createStep_taken {w : World} {c : CreateCall} {n : NodeID} (hp : c.phase = .adding n)
    (hname : c.input.msg.getClusterName ≠ "")
    (hl : w.reg.clustersByName.lookup c.input.msg.getClusterName ≠ none) :
    ∃ w' e, createStep D w c = .ok (w', c.to (.replied (errorMsg e))) := by
  simp only [createStep, hp]
  rcases hrc : newRegCluster D c.input.msg.getClusterName n 0 (clampSize c.input.msg.getClusterMaxSize)
      c.input.msg.getEndPointCount with e | rc
  · exact ⟨w, e, rfl⟩
  · obtain ⟨-, hrcname, -⟩ := newRegCluster_ok hrc
    have hlast := w.alloc_last rc
    have hrefused : ¬ (w.alloc rc).Admits D rc := by
      intro hadm
      apply hl
      rw [← hadm.name, hrcname, if_neg hname]
      rfl
    obtain ⟨e, he⟩ := addCluster_of_not_admits hlast hrefused
    simp only [he]
    exact ⟨_, e, rfl⟩

end Total

/-- From any state the server can be in, any number of concurrent Creates: the replies and the
clusters at every point of the run are those of the answered Creates one after the other, in an
order that respects which of them did not overlap, if and only if no Create finds its name taken
between its two looks at it. -/
theorem creates_linearizable_iff {D : Deps} (hf : D.ExactFilter) (hmap : D.HamtTotal)
    (hkeys : D.KeysNodeIDs) (hnew : ∀ w t, D.newHAMT w t = none) {regID : NodeID}
    {evs₀ : List ServerEvent} {s₀ : ServerState} (h₀ : serve D regID evs₀ = .ok s₀)
    (evs : List (Parties.Event Input Unit)) :
    (∀ pre post s, evs = pre ++ post →
      Run.run (creates D).next ⟨s₀.shared.world, []⟩ pre = .ok s →
      Parties.Linearizable (createCalls D) (CreatesAlone D) World.SameClusters
        ⟨s₀.shared.world, []⟩ s₀.shared.world pre s) ↔
    Run.Along (creates D).next (Parties.On CreateStillFree) ⟨s₀.shared.world, []⟩ evs := by
  obtain ⟨hw, -⟩ := serve_agrees h₀
  rw [Run.along_iff]
  constructor
  · intro hall pre e post s heq hr
    rcases e with x | ⟨i, u⟩
    · trivial
    · intro c hc n hp hname
      by_contra hl
      -- the Create would be answered with an Error, which no Create by itself is
      obtain ⟨w', e, hs⟩ := createStep_taken (D := D) hp hname hl
      have hnext := Parties.next_act (M := creates D) (a := u) hc hs
      have hrun : Run.run (creates D).next ⟨s₀.shared.world, []⟩ (pre ++ [.act i u]) =
          .ok ⟨w', s.parties.set i (c.to (.replied (errorMsg e)))⟩ := by
        rw [Run.run_append, hr]
        simp only [Except.bind]
        rw [Run.run_cons, hnext]
        rfl
      have hret : (createCalls D).returned ⟨w', s.parties.set i (c.to (.replied (errorMsg e)))⟩ i =
          some (c.input, errorMsg e) := by
        rw [Parties.Calls.returned_set hc, if_pos rfl]
        rfl
      have hop := linearizable_named hf hmap hkeys hnew hw
        (hall (pre ++ [.act i u]) post _ (by rw [heq]; simp) hrun) hret hname
      revert hop
      simp [errorMsg, Tag.error, Tag.createReply]
  · intro hfree pre post s heq hr
    refine (create_simulation hf).linearizable (fun s a h => h.same) ?_ (fun i => rfl) ?_ hr
    · refine ⟨rfl, hw, List.Subset.refl _, ?_, ?_⟩
      · rintro i n ⟨c, hc, -⟩
        cases hc
      · rintro i j n ⟨c, hc, -⟩
        cases hc
    · apply Run.along_iff.2
      intro pre' e post' s' heq' hr'
      exact hfree pre' e (post' ++ post) s' (by rw [heq, heq']; simp) hr'

/-- Two Creates, with names of their own, whose sections alternate. -/
def Sample.twoNames : List (Parties.Event Input Unit) :=
  [.enter ⟨create "xy" 2, [.rep 5]⟩, .enter ⟨create "zw" 2, [.rep 6]⟩,
   .act 0 (), .act 1 (), .act 1 (), .act 0 (), .act 1 (), .act 0 ()]

theorem creates_linearizable_iff_sample :
    ∃ s, Run.run (creates .plain).next ⟨World.init (.rep 9), []⟩ Sample.twoNames = .ok s ∧
      s.parties.map (·.phase) = [.replied (createReply (.rep 5) 2 0 1),
        .replied (createReply (.rep 6) 2 0 1)] ∧
      Parties.Linearizable (createCalls .plain) (CreatesAlone .plain) World.SameClusters
        ⟨World.init (.rep 9), []⟩ (World.init (.rep 9)) Sample.twoNames s := by
  obtain ⟨s, hr, hp⟩ := Run.exists_of_ends (creates .plain).next ⟨World.init (.rep 9), []⟩
    Sample.twoNames (fun s => decide (s.parties.map (·.phase) =
      [.replied (createReply (.rep 5) 2 0 1), .replied (createReply (.rep 6) 2 0 1)])) (by decide)
  have h₀ : serve .plain (.rep 9) [] = .ok (ServerState.init (.rep 9)) := rfl
  have hfree : Run.Along (creates .plain).next (Parties.On CreateStillFree)
      ⟨(ServerState.init (.rep 9)).shared.world, []⟩ Sample.twoNames := by decide
  exact ⟨s, hr, of_decide_eq_true hp, (creates_linearizable_iff plain_exactFilter plain_hamtTotal
    plain_keysNodeIDs (fun _ _ => rfl) h₀ Sample.twoNames).2 hfree Sample.twoNames [] s
    (List.append_nil _).symm hr⟩

def Sample.oneName : List (Parties.Event Input Unit) :=
  [.enter ⟨create "xy" 2, [.rep 5]⟩, .enter ⟨create "xy" 2, [.rep 6]⟩,
   .act 0 (), .act 1 (), .act 0 (), .act 1 (), .act 0 (), .act 1 ()]

/-- The second is answered with an Error, which is the case in no order of the two. -/
theorem creates_name_race :
    ∃ s, Run.run (creates .plain).next ⟨World.init (.rep 9), []⟩ Sample.oneName = .ok s ∧
      s.parties.map (·.phase) = [.replied (createReply (.rep 5) 2 0 1),
        .replied (errorMsg .nameAlreadyInUse)] ∧
      ¬ Parties.Linearizable (createCalls .plain) (CreatesAlone .plain) World.SameClusters
        ⟨World.init (.rep 9), []⟩ (World.init (.rep 9)) Sample.oneName s := by
  obtain ⟨s, hr, hp⟩ := Run.exists_of_ends (creates .plain).next ⟨World.init (.rep 9), []⟩
    Sample.oneName (fun s => s.parties[1]?.any fun (c : CreateCall) => decide (
      s.parties.map (·.phase) = [.replied (createReply (.rep 5) 2 0 1),
        .replied (errorMsg .nameAlreadyInUse)] ∧
      c.input.msg.getClusterName ≠ "" ∧ c.phase = .replied (errorMsg .nameAlreadyInUse))) (by decide)
  obtain ⟨c, hc, hp⟩ := (Option.any_eq_true _ _).1 hp
  obtain ⟨hphases, hname, hphase⟩ := of_decide_eq_true hp
  refine ⟨s, hr, hphases, fun hL => ?_⟩
  have hret : (createCalls .plain).returned s 1 = some (c.input, errorMsg .nameAlreadyInUse) := by
    rw [Parties.Calls.returned_of hc]
    simp [createCalls, CreateCall.reply, hphase]
  have hop := linearizable_named plain_exactFilter plain_hamtTotal plain_keysNodeIDs (fun _ _ => rfl)
    (World.init_registered (.rep 9)) hL hret hname
  exact absurd hop (by decide)

end XlReg
