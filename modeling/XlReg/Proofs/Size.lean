import XlReg.Sanity.Plain
import XlReg.Sanity.Requirements

/-! The maximum size of a cluster. It is stored and reported, but `AddMember` does not look at
it: a Join to a full cluster is refused only if one of the other checks refuses it. -/

namespace XlReg

def World.Bounded (w : World) : Prop := ∀ rc ∈ w.heap, rc.members.length ≤ rc.maxSize.toNat

/-- The maximum size, as a requirement: no newcomer fits into a full cluster. -/
def sizeRequired : Requirement where
  met rc := rc.members.length ≤ rc.maxSize.toNat
  unfit rc _ := rc.maxSize.toNat ≤ rc.members.length
  fresh rc hrc := by
    rw [hrc.members]
    exact Nat.zero_le _
  keeps D rc m hmet hroom := by
    rw [RegCluster.append_members, (rc.grows_append D m).maxSize, List.length_append,
      List.length_singleton]
    omega
  breaks D rc m hfull := by
    rw [RegCluster.append_members, (rc.grows_append D m).maxSize, List.length_append,
      List.length_singleton]
    omega

/-- In every run, all the states reached keep to the maximum sizes if and only if every Join to
a full cluster met a name or an ID in use; and exactly then each such Join was answered with
an Error and added nobody. -/
theorem serve_size_iff (D : Deps) (regID : NodeID) (evs : List ServerEvent) :
    (Run.Always (server D).next (fun s => s.shared.world.Bounded) (ServerState.init regID) evs ↔
      Run.Along (server D).next (Parties.On (sizeRequired.InUse D)) (ServerState.init regID) evs) ∧
    (Run.Along (server D).next (Parties.On (sizeRequired.Refused D)) (ServerState.init regID) evs ↔
      Run.Along (server D).next (Parties.On (sizeRequired.InUse D)) (ServerState.init regID) evs) :=
  ⟨sizeRequired.always_iff D regID evs, Parties.along_on_congr (sizeRequired.refused_iff D)⟩

def Sample.crowd : List ServerEvent :=
  [.enter (), .enter (), .enter (), .act 0 ⟨member "a" none 2, [.rep 1]⟩,
   .act 1 ⟨member "b" none 2, [.rep 2]⟩, .act 2 ⟨member "c" none 2, [.rep 3]⟩,
   .act 0 ⟨create "xy" 2, [.rep 5]⟩, .act 0 ⟨joinByName "xy", []⟩,
   .act 1 ⟨joinByName "xy", []⟩, .act 2 ⟨joinByName "xy", []⟩]

/-- The third of them is told that it has joined. -/
theorem serve_size_exceeded :
    ∃ s c rc, serve .plain (.rep 9) Sample.crowd = .ok s ∧ s.shared.world.heap[0]? = some rc ∧
      rc.maxSize = 2 ∧ rc.members.length = 3 ∧ s.parties[2]? = some c ∧
      c.h.msgOut = some (joinReply rc) ∧ ¬ s.shared.world.Bounded := by
  obtain ⟨s, hr, hp⟩ := Run.exists_of_ends (server .plain).next (ServerState.init (.rep 9)) Sample.crowd
    (fun s => s.shared.world.heap[0]?.any fun (rc : RegCluster) => s.parties[2]?.any fun (c : Session) =>
      decide (rc.maxSize = 2 ∧ rc.members.length = 3 ∧ c.h.msgOut = some (joinReply rc))) (by decide)
  obtain ⟨rc, hrc, hp⟩ := (Option.any_eq_true _ _).1 hp
  obtain ⟨c, hc, hp⟩ := (Option.any_eq_true _ _).1 hp
  obtain ⟨hmax, hlen, hm⟩ := of_decide_eq_true hp
  refine ⟨s, c, rc, hr, hrc, hmax, hlen, hc, hm, fun hb => ?_⟩
  have hle := hb rc (List.mem_of_getElem? hrc)
  rw [hlen, hmax] at hle
  exact absurd hle (by decide)

end XlReg
