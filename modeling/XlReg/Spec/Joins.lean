import XlReg.Lib.Parties
import XlReg.Spec.Cluster

/-! Concurrent calls of `AddMember` on one cluster (reg_cluster.go). The lock is given up between
the name lookup, the ID lookup and the append, so the sections of different calls interleave. -/

namespace XlReg

inductive Phase
  | nameLookup
  | idLookup
  | append
  | returned (err : Option Err)
deriving DecidableEq

structure Call where
  member : ClientInfo
  phase : Phase
deriving DecidableEq

def Call.to (c : Call) (p : Phase) : Call := { c with phase := p }

def callStep (D : Deps) (rc : RegCluster) (c : Call) : RegCluster × Call :=
  match c.phase with
  | .nameLookup =>
    if rc.nameInUse c.member then (rc, c.to (.returned (some .clusterMemberNameInUse)))
    else (rc, c.to .idLookup)
  | .idLookup =>
    match rc.idEntry D with
    | .error e => (rc, c.to (.returned (some e)))
    | .ok (some _) => (rc, c.to (.returned (some .clusterMemberIDInUse)))
    | .ok none => (rc, c.to .append)
  | .append => ((rc.append D c.member).1, c.to (.returned (rc.append D c.member).2))
  | .returned _ => (rc, c)

def joins (D : Deps) : Parties RegCluster ClientInfo Call Unit Abort where
  start m := ⟨m, .nameLookup⟩
  step rc c _ := .ok (callStep D rc c)

/-- A call that is not interrupted is `addMember`. -/
theorem callStep_uninterrupted (D : Deps) (rc : RegCluster) (m : ClientInfo) :
    (fun s : RegCluster × Call => callStep D s.1 s.2)^[3] (rc, ⟨m, .nameLookup⟩) =
      ((rc.addMember D m).1, ⟨m, .returned (rc.addMember D m).2⟩) := by
  simp only [Function.iterate_succ, Function.iterate_zero, Function.comp_apply, id_eq]
  by_cases hn : rc.nameInUse m
  · simp [callStep, RegCluster.addMember, hn, Call.to]
  · cases hid : rc.idEntry D with
    | error e => simp [callStep, RegCluster.addMember, hn, hid, Call.to]
    | ok x =>
      cases x with
      | some y => simp [callStep, RegCluster.addMember, hn, hid, Call.to]
      | none => simp [callStep, RegCluster.addMember, hn, hid, Call.to]

/-- A section leaves the cluster alone, or it is the append. -/
theorem callStep_cluster (D : Deps) (rc : RegCluster) (c : Call) :
    (c.phase ≠ .append ∧ (callStep D rc c).1 = rc) ∨
    (c.phase = .append ∧ (callStep D rc c).1 = (rc.append D c.member).1) := by
  unfold callStep
  cases hp : c.phase with
  | nameLookup => split_ifs <;> exact .inl ⟨by simp, rfl⟩
  | idLookup =>
    simp only
    split <;> exact .inl ⟨by simp, rfl⟩
  | append => exact .inr ⟨rfl, rfl⟩
  | returned e => exact .inl ⟨by simp, rfl⟩

end XlReg
