import XlReg.Lib.Run
import XlReg.Sanity.Growth
import XlReg.Sanity.Plain

/-! The registry under any sequence of `AddCluster` calls, each atomic under the registry's
lock, by any number of sessions. Between the calls sessions make clusters and add members. -/

namespace XlReg

open Index

/-- What sessions do to the registry: make a cluster, hand a pointer to `AddCluster`, or
add a member to the cluster a pointer leads to. -/
inductive RegOp
  | make (name : String) (id : NodeID) (attrs : UInt64) (maxSize epCount : UInt32)
  | add (cluster : Option Ptr)
  | join (cluster : Ptr) (member : ClientInfo)

def regNext (D : Deps) (w : World) : RegOp → Except Abort World
  | .make name id attrs maxSize epCount =>
    match newRegCluster D name id attrs maxSize epCount with
    | .error _ => .ok w
    | .ok rc => .ok (w.alloc rc)
  | .add c => (addCluster D w c).map (·.1)
  | .join p member => (w.deref p).map fun rc => w.store p (rc.addMember D member).1

theorem regNext_add_ok {D : Deps} {w w' : World} {c : Option Ptr}
    (h : regNext D w (.add c) = .ok w') : ∃ i err, addCluster D w c = .ok (w', i, err) := by
  simp only [regNext] at h
  cases ha : addCluster D w c with
  | error a => rw [ha] at h; cases h
  | ok r =>
    rw [ha] at h
    cases h
    exact ⟨r.2.1, r.2.2, rfl⟩

theorem regNext_join_ok {D : Deps} {w w' : World} {p : Ptr} {m : ClientInfo}
    (h : regNext D w (.join p m) = .ok w') :
    ∃ rc, w.heap[p]? = some rc ∧ w' = w.store p (rc.addMember D m).1 := by
  simp only [regNext] at h
  cases hd : w.deref p with
  | error a => rw [hd] at h; cases h
  | ok rc =>
    rw [hd] at h
    cases h
    exact ⟨rc, deref_ok.1 hd, rfl⟩

theorem regNext_grows {D : Deps} {w w' : World} {op : RegOp} (h : regNext D w op = .ok w') :
    w.Grows w' := by
  cases op with
  | make name id attrs maxSize epCount =>
    simp only [regNext] at h
    split at h <;> cases h
    · exact .refl w
    · exact w.grows_alloc _
  | add c =>
    obtain ⟨i, err, ha⟩ := regNext_add_ok h
    exact World.grows_addCluster ha
  | join p m =>
    obtain ⟨rc, hp, rfl⟩ := regNext_join_ok h
    exact World.grows_store hp (rc.grows_addMember D m)

theorem regNext_consistent {D : Deps}
    (hins : ∀ keys (n : NodeID), n.value ∉ keys → D.insertErr keys n.value = none)
    {w w' : World} {op : RegOp} (hw : w.Consistent D) (h : regNext D w op = .ok w') :
    w'.Consistent D := by
  have hg := regNext_grows h
  cases op with
  | make name id attrs maxSize epCount =>
    simp only [regNext] at h
    split at h <;> cases h
    · exact hw
    · exact hw.of_grows hg rfl rfl rfl
  | add c =>
    obtain ⟨i, err, ha⟩ := regNext_add_ok h
    exact hw.addCluster hins ha
  | join p m =>
    obtain ⟨rc, -, rfl⟩ := regNext_join_ok h
    exact hw.of_grows hg rfl rfl rfl

theorem regRun_grows {D : Deps} {w w' : World} {ops : List RegOp}
    (h : Run.run (regNext D) w ops = .ok w') : w.Grows w' :=
  Run.run_rel World.Grows.refl (fun _ _ _ h1 h2 => h1.trans h2) (fun _ _ _ hs => regNext_grows hs) h

/-- In every state reached the list and the two indexes hold the same clusters, under names
and IDs that are pairwise distinct; the list only grows at its end, so the index a successful
call returned is its cluster's for ever. -/
theorem addCluster_calls_consistent {D : Deps}
    (hins : ∀ keys (n : NodeID), n.value ∉ keys → D.insertErr keys n.value = none)
    {regID : NodeID} {ops : List RegOp} {w : World}
    (h : Run.run (regNext D) (World.init regID) ops = .ok w) :
    (w.reg.clusters.map w.nameAt).Nodup ∧ (w.reg.clusters.map w.idAt).Nodup ∧
    (∀ p ∈ w.reg.clusters, ∃ rc, w.heap[p]? = some rc) ∧
    (∀ k p, w.reg.clustersByName.lookup k = some p ↔ p ∈ w.reg.clusters ∧ w.nameAt p = k) ∧
    (∀ k p, w.reg.clustersByID.map.lookup k = some p ↔ p ∈ w.reg.clusters ∧ w.idAt p = k) ∧
    (∀ ops' w', Run.run (regNext D) w ops' = .ok w' → w.reg.clusters <+: w'.reg.clusters) ∧
    (∀ c w₁ i, addCluster D w c = .ok (w₁, i, none) → ∃ p, c = some p ∧ 0 ≤ i ∧
      ∀ ops' w', Run.run (regNext D) w₁ ops' = .ok w' → w'.reg.clusters[i.toNat]? = some p) := by
  have hw := Run.run_inv (fun _ _ _ hi hs => regNext_consistent hins hi hs)
    (World.init_consistent D regID) h
  refine ⟨hw.byName.nodup, hw.byID.nodup, fun p hp => hw.exists_deref hp, hw.byName.lookup,
    hw.byID.lookup, fun ops' w' h' => (regRun_grows h').clusters, fun c w₁ i ha => ?_⟩
  rcases addCluster_cases ha with ⟨-, -, e, he⟩ | ⟨p, rc, rfl, -, -, -, -, ⟨rfl, rfl, -⟩ | ⟨-, -, e, he, -⟩⟩
  · cases he
  · refine ⟨p, rfl, by omega, ?_⟩
    intro ops' w' h'
    obtain ⟨t, ht⟩ := (regRun_grows h').clusters
    rw [← ht]
    simp
  · cases he

/-- Two names, and a second cluster under the first name that is refused. -/
theorem addCluster_calls_consistent_sample :
    ∃ w, Run.run (regNext .plain) (World.init (.rep 9))
        [.make "a" (.rep 0) 0 2 1, .make "b" (.rep 1) 0 2 1, .make "a" (.rep 2) 0 2 1,
         .add (some 0), .add (some 1), .add (some 2)] = .ok w ∧
      w.reg.clusters = [0, 1] ∧ (w.reg.clusters.map w.nameAt).Nodup := by
  obtain ⟨w, hr, hp⟩ := Run.exists_of_ends (regNext .plain) (World.init (.rep 9))
    [.make "a" (.rep 0) 0 2 1, .make "b" (.rep 1) 0 2 1, .make "a" (.rep 2) 0 2 1,
      .add (some 0), .add (some 1), .add (some 2)]
    (fun w => w.reg.clusters == [0, 1]) (by decide)
  exact ⟨w, hr, by simpa using hp, (addCluster_calls_consistent (fun _ _ _ => rfl) hr).1⟩

end XlReg
