import XlReg.Sanity.Sessions

/-! Requirements on the members of a cluster that `AddMember` does not look at. A newcomer who
does not meet one is refused only if another check happens to refuse it, so that clusters meet
the requirement exactly in the runs in which one always does. -/

namespace XlReg

/-- The message is a Join by `client` that finds the cluster `rc` at `p`. -/
structure Joining (D : Deps) (s : Service) (c : Session) (x : Input) (client : ClientInfo)
    (p : Ptr) (rc : RegCluster) : Prop where
  handler : dispatch c.h.entryState (op2tag x.msg.getOp) = some .doJoinMsg
  client : c.h.thisClient = some client
  found : joinLookup D s.world { c.h with msgIn := x.msg } = (some p, none)
  cluster : s.world.heap[p]? = some rc

theorem Joining.step {D : Deps} {s : Service} {c : Session} {x : Input} {client : ClientInfo}
    {p : Ptr} {rc : RegCluster} (hj : Joining D s c x client p rc) :
    ∃ h' ex, sessionStep D s c x =
        .ok (⟨s.world.store p (rc.addMember D client).1, s.log ++ [ex]⟩, ⟨h', c.exchanges ++ [ex]⟩) ∧
      (∀ e, (rc.addMember D client).2 = some e → h'.msgOut = some (errorMsg e)) := by
  have hopen := open_of_dispatch hj.handler
  have hrun := doJoinMsg_found x.draws hj.found hj.cluster hj.client
  unfold sessionStep
  rw [if_neg hopen, startIter_inside hj.handler]
  simp only [HandlerName.handler, hrun]
  rcases rc.addMember D client with ⟨rc', err⟩
  cases err with
  | none => exact ⟨_, _, rfl, fun e he => by cases he⟩
  | some e => exact ⟨_, _, rfl, fun e' he => by cases he; rfl⟩

/-- What clusters should be like: a new one is, a newcomer leaves it so unless it is unfit, and
an unfit one does not. -/
structure Requirement where
  met : RegCluster → Prop
  unfit : RegCluster → ClientInfo → Prop
  fresh : ∀ rc, rc.Fresh → met rc
  keeps : ∀ D rc m, met rc → ¬ unfit rc m → met (rc.append D m).1
  breaks : ∀ D rc m, unfit rc m → ¬ met (rc.append D m).1

namespace Requirement

variable (R : Requirement)

def Met (w : World) : Prop := ∀ rc ∈ w.heap, R.met rc

/-- A Join by an unfit client is answered with an Error and adds nobody. -/
def Refused (D : Deps) (s : Service) (c : Session) (x : Input) : Prop :=
  ∀ client p rc, Joining D s c x client p rc → R.unfit rc client →
    ∃ s' c', sessionStep D s c x = .ok (s', c') ∧ (∃ e, c'.h.msgOut = some (errorMsg e)) ∧
      ∀ q, s'.world.membersAt q = s.world.membersAt q

/-- A Join by an unfit client meets a name or an ID that is in use. -/
def InUse (D : Deps) (s : Service) (c : Session) (x : Input) : Prop :=
  ∀ client p rc, Joining D s c x client p rc → R.unfit rc client → ¬ rc.Admits D client

theorem refused_iff (D : Deps) (s : Service) (c : Session) (x : Input) :
    R.Refused D s c x ↔ R.InUse D s c x := by
  constructor
  · intro h client p rc hj hunfit ha
    obtain ⟨s', c', hs, -, hsame⟩ := h client p rc hj hunfit
    obtain ⟨h', ex, hs', -⟩ := hj.step
    rw [hs] at hs'
    cases hs'
    have hp := hsame p
    rw [RegCluster.addMember_of_admits ha] at hp
    exact World.membersAt_store_append hj.cluster client hp
  · intro h client p rc hj hunfit
    obtain ⟨h', ex, hs, hm⟩ := hj.step
    obtain ⟨e, he⟩ := RegCluster.addMember_of_not_admits (h client p rc hj hunfit)
    refine ⟨_, _, hs, ⟨e, hm e (by rw [he])⟩, fun q => ?_⟩
    rw [he]
    exact World.membersAt_store_self hj.cluster q

variable {R}

theorem Met.store {w : World} (hw : R.Met w) (p : Ptr) {rc : RegCluster} (hrc : R.met rc) :
    R.Met (w.store p rc) := by
  intro rc' hmem
  rcases List.mem_or_eq_of_mem_set hmem with hmem | rfl
  · exact hw rc' hmem
  · exact hrc

theorem Met.alloc {w : World} (hw : R.Met w) {rc : RegCluster} (hrc : rc.Fresh) :
    R.Met (w.alloc rc) := by
  intro rc' hmem
  rcases List.mem_append.1 hmem with hmem | hmem
  · exact hw rc' hmem
  · rw [List.mem_singleton.1 hmem]
    exact R.fresh rc hrc

/-- Only a Join adds to a cluster. -/
theorem Met.handler {D : Deps} {f : HandlerName} {w w' : World} {h h' : InHandler}
    {draws : List NodeID} (hw : R.Met w)
    (hjoin : f = .doJoinMsg → ∀ client p rc, h.thisClient = some client →
      joinLookup D w h = (some p, none) → w.heap[p]? = some rc → R.unfit rc client →
      ¬ rc.Admits D client)
    (hr : f.handler D w h draws = .ok (w', h')) : R.Met w' := by
  rcases handler_world hr with ⟨fl, n, -, rfl⟩ | ⟨n, rc, i, err, -, hm, ha⟩ |
    ⟨client, p, rc, rfl, hj, rfl⟩
  · exact hw
  · have halloc : R.Met ((w.setFilter ⟨w.reg.idFilter.ids ++ [n.value]⟩).alloc rc) :=
      Met.alloc (w := w.setFilter _) hw (newRegCluster_ok hm.made).1
    unfold Met
    rw [addCluster_heap ha]
    exact halloc
  · apply hw.store
    have hrc := hw rc (List.mem_of_getElem? hj.cluster)
    rcases rc.addMember_eq D client with ⟨hadm, he⟩ | ⟨-, e, he⟩
    · rw [he]
      exact R.keeps D rc client hrc fun hunfit =>
        hjoin rfl client p rc hj.client hj.found hj.cluster hunfit hadm
    · rw [he]
      exact hrc

variable (R)

theorem contract (D : Deps) :
    Parties.Contract (server D) (R.InUse D) (fun s => R.Met s.world) (fun _ _ => True)
      (fun _ _ => True) := by
  apply shared_contract
  intro s c x w g ex hI hC hi
  obtain ⟨f, h1, hd, hh, -, -⟩ := startIter_ok hi
  apply Met.handler hI ?_ hh
  rintro rfl client p rc hc hl hp
  exact hC client p rc ⟨hd, hc, hl, hp⟩

theorem broken {D : Deps} {s : Service} {c : Session} {x : Input} {client : ClientInfo}
    {p : Ptr} {rc : RegCluster} (hj : Joining D s c x client p rc) (hunfit : R.unfit rc client)
    (ha : rc.Admits D client) :
    ∃ s' c', sessionStep D s c x = .ok (s', c') ∧ ¬ R.Met s'.world := by
  obtain ⟨h', ex, hs, -⟩ := hj.step
  refine ⟨_, _, hs, fun hmet => ?_⟩
  have hlt : p < s.world.heap.length := (List.getElem?_eq_some_iff.1 hj.cluster).1
  have hrc := hmet (rc.addMember D client).1 (List.mem_set hlt _)
  rw [RegCluster.addMember_of_admits ha] at hrc
  exact R.breaks D rc client hunfit hrc

/-- In every run, all the states reached meet the requirement if and only if every Join by an
unfit client met a name or an ID in use. -/
theorem always_iff (D : Deps) (regID : NodeID) (evs : List ServerEvent) :
    Run.Always (server D).next (fun s => R.Met s.shared.world) (ServerState.init regID) evs ↔
      Run.Along (server D).next (Parties.On (R.InUse D)) (ServerState.init regID) evs := by
  apply (R.contract D).always_iff_along (Q := fun s => R.Met s.world)
  · exact fun _ hs => hs
  · intro s c x _ _ hno
    obtain ⟨client, p, rc, hj, hunfit, ha⟩ : ∃ client p rc, Joining D s c x client p rc ∧
        R.unfit rc client ∧ rc.Admits D client := by
      simpa [InUse] using hno
    exact R.broken hj hunfit ha
  · exact ⟨by simp [Met, ServerState.init, World.init], fun _ _ => trivial⟩

end Requirement

end XlReg
