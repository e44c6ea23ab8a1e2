import XlReg.Sanity.Plain
import XlReg.Sanity.Requirements

/-! The number of end points that each member of a cluster must have. It is fixed by the Create
message and reported to whoever joins; the end points of a client are those of its Member
message, and `AddMember` does not count them. -/

namespace XlReg

def endPointsRequired : Requirement where
  met rc := ∀ m ∈ rc.members, rc.epCount.toNat ≤ m.myEnds.length
  unfit rc m := m.myEnds.length < rc.epCount.toNat
  fresh rc hrc := by
    rw [hrc.members]
    intro m hm
    cases hm
  keeps D rc m hmet henough := by
    rw [RegCluster.append_members, (rc.grows_append D m).epCount]
    intro a ha
    rcases List.mem_append.1 ha with ha | ha
    · exact hmet a ha
    · rw [List.mem_singleton.1 ha]
      omega
  breaks D rc m hshort hmet := by
    rw [RegCluster.append_members, (rc.grows_append D m).epCount] at hmet
    have hlast := hmet m (by simp)
    omega

/-- In every run, all members have the end points asked for in all the states reached if and
only if every Join by a client with too few of them met a name or an ID in use; and exactly then
each such Join was answered with an Error and added nobody. -/
theorem serve_endPoints_iff (D : Deps) (regID : NodeID) (evs : List ServerEvent) :
    (Run.Always (server D).next (fun s => ∀ rc ∈ s.shared.world.heap, ∀ m ∈ rc.members,
        rc.epCount.toNat ≤ m.myEnds.length) (ServerState.init regID) evs ↔
      Run.Along (server D).next (Parties.On (endPointsRequired.InUse D)) (ServerState.init regID) evs) ∧
    (Run.Along (server D).next (Parties.On (endPointsRequired.Refused D)) (ServerState.init regID) evs ↔
      Run.Along (server D).next (Parties.On (endPointsRequired.InUse D)) (ServerState.init regID) evs) :=
  ⟨endPointsRequired.always_iff D regID evs,
    Parties.along_on_congr (endPointsRequired.refused_iff D)⟩

/-- A client with one end point joins a cluster whose members must have two. -/
def Sample.oneEnd : List ServerEvent :=
  [.enter (), .act 0 ⟨member "a" none 2, [.rep 1]⟩,
   .act 0 ⟨{ create "xy" 2 with endPointCount := some 2 }, [.rep 5]⟩, .act 0 ⟨joinByName "xy", []⟩]

/-- It is told that it has joined. -/
theorem serve_endPoints_missing :
    ∃ s c rc m, serve .plain (.rep 9) Sample.oneEnd = .ok s ∧ s.shared.world.heap[0]? = some rc ∧
      rc.epCount = 2 ∧ m ∈ rc.members ∧ m.myEnds.length = 1 ∧ s.parties[0]? = some c ∧
      c.h.msgOut = some (joinReply rc) ∧
      ¬ ∀ rc ∈ s.shared.world.heap, ∀ m ∈ rc.members, rc.epCount.toNat ≤ m.myEnds.length := by
  obtain ⟨s, hr, hp⟩ := Run.exists_of_ends (server .plain).next (ServerState.init (.rep 9)) Sample.oneEnd
    (fun s => s.shared.world.heap[0]?.any fun (rc : RegCluster) => rc.members.any fun m =>
      s.parties[0]?.any fun (c : Session) =>
        decide (rc.epCount = 2 ∧ m.myEnds.length = 1 ∧ c.h.msgOut = some (joinReply rc))) (by decide)
  obtain ⟨rc, hrc, hp⟩ := (Option.any_eq_true _ _).1 hp
  obtain ⟨m, hm, hp⟩ := List.any_eq_true.1 hp
  obtain ⟨c, hc, hp⟩ := (Option.any_eq_true _ _).1 hp
  obtain ⟨hep, hlen, hmsg⟩ := of_decide_eq_true hp
  refine ⟨s, c, rc, m, hr, hrc, hep, hm, hlen, hc, hmsg, fun hall => ?_⟩
  have hle := hall rc (List.mem_of_getElem? hrc) m hm
  rw [hep, hlen] at hle
  exact absurd hle (by decide)

end XlReg
