import XlReg.Lib.Index
import XlReg.Sanity.Plain
import XlReg.Spec.Joins

/-! Names under concurrent Joins. The name is looked up in one section and indexed in another,
so two calls with one name can both find it free. Names stay unique exactly in the runs in which
every append still finds its name free. -/

namespace XlReg

open Index

/-- No two members have the same name, and the map leads from each member's name to it. -/
def RegCluster.NamesUnique (rc : RegCluster) : Prop :=
  (rc.members.map (·.name)).Nodup ∧ ∀ m ∈ rc.members, rc.membersByName.lookup m.name = some m

/-- A call about to append still finds its name free. -/
def NameStillFree (rc : RegCluster) (c : Call) (_ : Unit) : Prop :=
  c.phase = .append → rc.membersByName.lookup c.member.name = none

instance (rc : RegCluster) (c : Call) (u : Unit) : Decidable (NameStillFree rc c u) :=
  inferInstanceAs (Decidable (_ → _))

theorem append_byName (D : Deps) {rc : RegCluster} {m : ClientInfo}
    (h : Indexes (·.name) rc.members rc.membersByName)
    (hfree : rc.membersByName.lookup m.name = none) :
    Indexes (·.name) (rc.append D m).1.members (rc.append D m).1.membersByName := by
  obtain ⟨x, err, he⟩ := rc.append_eq D m
  rw [he]
  exact h.append hfree

theorem names_contract (D : Deps) :
    Parties.Contract (joins D) NameStillFree
      (fun rc => Indexes (·.name) rc.members rc.membersByName) (fun _ _ => True)
      (fun _ _ => True) where
  start _ _ _ := trivial
  step rc c u rc' c' hI _ hC hr := by
    refine ⟨?_, trivial, trivial⟩
    obtain rfl : (callStep D rc c).1 = rc' := congrArg Prod.fst (Except.ok.inj hr)
    rcases callStep_cluster D rc c with ⟨-, he⟩ | ⟨hp, he⟩
    · rw [he]
      exact hI
    · rw [he]
      exact append_byName D hI (hC hp)
  stable _ _ _ _ _ _ := trivial

theorem append_name_twice (D : Deps) {rc : RegCluster} {m : ClientInfo}
    (h : Indexes (·.name) rc.members rc.membersByName)
    (hused : rc.membersByName.lookup m.name ≠ none) : ¬ (rc.append D m).1.NamesUnique := by
  obtain ⟨y, hy⟩ := Option.ne_none_iff_exists'.1 hused
  obtain ⟨hmem, hname⟩ := (h.lookup _ y).1 hy
  obtain ⟨x, err, he⟩ := rc.append_eq D m
  rintro ⟨hnd, -⟩
  rw [he] at hnd
  simp only [List.map_append, List.map_cons, List.map_nil] at hnd
  have hdis := (List.nodup_append.1 hnd).2.2
  exact hdis y.name (List.mem_map_of_mem hmem) m.name (by simp) hname

/-- For any number of calls on a new cluster and any interleaving of their sections, names are
unique and rightly indexed in all the states reached if and only if every append still found
its name free. -/
theorem joins_names_unique_iff {D : Deps} {name : String} {id : NodeID} {attrs : UInt64}
    {maxSize epCount : UInt32} {rc₀ : RegCluster}
    (hnew : newRegCluster D name id attrs maxSize epCount = .ok rc₀)
    (evs : List (Parties.Event ClientInfo Unit)) :
    Run.Always (joins D).next (fun s => s.shared.NamesUnique) ⟨rc₀, []⟩ evs ↔
      Run.Along (joins D).next (Parties.On NameStillFree) ⟨rc₀, []⟩ evs := by
  have hfresh := (newRegCluster_ok hnew).1
  refine (names_contract D).always_iff_along (fun rc hI => ⟨hI.nodup, fun m hm => hI.lookup_self hm⟩)
    (fun rc c u hI _ hno => ?_) ⟨?_, fun _ hl => by cases hl⟩
  · obtain ⟨hp, hused⟩ := Classical.not_imp.1 hno
    refine ⟨(callStep D rc c).1, (callStep D rc c).2, rfl, ?_⟩
    obtain ⟨-, he⟩ := (callStep_cluster D rc c).resolve_left fun hno => hno.1 hp
    rw [he]
    exact append_name_twice D hI hused
  · change Indexes (·.name) rc₀.members rc₀.membersByName
    rw [hfresh.members, hfresh.membersByName]
    exact Indexes.empty _

/-- A second call with the same name that starts when the first has returned is refused. -/
theorem joins_names_unique_iff_sample :
    Run.Always (joins .plain).next (fun s => s.shared.NamesUnique) ⟨Sample.cluster, []⟩
      [.enter (Sample.client 0 "a" 1), .act 0 (), .act 0 (), .act 0 (),
       .enter (Sample.client 1 "a" 2), .act 1 (), .act 1 (), .act 1 ()] :=
  (joins_names_unique_iff (show newRegCluster .plain "c" (.rep 0) 0 2 1 = .ok Sample.cluster from rfl)
    _).2 (by decide)

/-- Both calls look the name up before either has appended. -/
theorem joins_name_race :
    ∃ s, Run.run (joins .plain).next ⟨Sample.cluster, []⟩
        [.enter (Sample.client 0 "a" 1), .enter (Sample.client 1 "a" 2),
         .act 0 (), .act 1 (), .act 0 (), .act 1 (), .act 0 (), .act 1 ()] = .ok s ∧
      s.shared.members = [Sample.client 0 "a" 1, Sample.client 1 "a" 2] ∧
      s.shared.membersByName.lookup "a" = some (Sample.client 1 "a" 2) ∧
      s.parties.map (·.phase) = [.returned none, .returned none] ∧ ¬ s.shared.NamesUnique := by
  obtain ⟨s, hr, hp⟩ := Run.exists_of_ends (joins .plain).next ⟨Sample.cluster, []⟩
    [.enter (Sample.client 0 "a" 1), .enter (Sample.client 1 "a" 2),
      .act 0 (), .act 1 (), .act 0 (), .act 1 (), .act 0 (), .act 1 ()]
    (fun s => decide (s.shared.members = [Sample.client 0 "a" 1, Sample.client 1 "a" 2] ∧
      s.shared.membersByName.lookup "a" = some (Sample.client 1 "a" 2) ∧
      s.parties.map (·.phase) = [.returned none, .returned none])) (by decide)
  obtain ⟨hmem, hlook, hret⟩ := of_decide_eq_true hp
  refine ⟨s, hr, hmem, hlook, hret, fun hu => ?_⟩
  have hnd := hu.1
  rw [hmem] at hnd
  revert hnd
  decide

end XlReg
