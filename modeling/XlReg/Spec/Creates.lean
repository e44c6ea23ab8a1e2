import XlReg.Lib.Calls
import XlReg.Spec.Server

/-! Concurrent Creates (msg_handlers.go, `doCreateMsg`). The registry's lock is taken for the
lookup of the name and once more in `AddCluster`; it is free in between, where an ID is drawn and
recorded and the cluster is made. So these three sections of different sessions interleave. -/

namespace XlReg

/-- The section a Create takes next, or the reply it was answered with. -/
inductive CreatePhase
  | nameLookup
  | idDraw
  | adding (clusterID : NodeID)
  | replied (reply : XLRegMsg)
deriving DecidableEq

structure CreateCall where
  input : Input
  phase : CreatePhase

def CreateCall.to (c : CreateCall) (p : CreatePhase) : CreateCall := { c with phase := p }

def CreateCall.reply (c : CreateCall) : Option XLRegMsg :=
  match c.phase with
  | .replied r => some r
  | _ => none

def createStep (D : Deps) (w : World) (c : CreateCall) : Except Abort (World × CreateCall) :=
  let m := c.input.msg
  let maxSize := clampSize m.getClusterMaxSize
  match c.phase with
  | .nameLookup =>
    match w.reg.clustersByName.lookup m.getClusterName with
    | none => .ok (w, c.to .idDraw)
    | some p =>
      -- what is read of the cluster after the lock is given up never changes
      match w.deref p with
      | .error a => .error a
      | .ok rc => .ok (w, c.to (.replied (createReply rc.id rc.maxSize rc.attrs rc.epCount)))
  | .idDraw =>
    match insertUniqueNodeID D w.reg.idFilter c.input.draws with
    | .error a => .error a
    | .ok (f, .error e) => .ok (w.setFilter f, c.to (.replied (errorMsg e)))
    | .ok (f, .ok clusterID) => .ok (w.setFilter f, c.to (.adding clusterID))
  | .adding clusterID =>
    match newRegCluster D m.getClusterName clusterID 0 maxSize m.getEndPointCount with
    | .error e => .ok (w, c.to (.replied (errorMsg e)))
    | .ok rc =>
      match addCluster D (w.alloc rc) (some w.heap.length) with
      | .error a => .error a
      | .ok (w, _, some e) => .ok (w, c.to (.replied (errorMsg e)))
      | .ok (w, _, none) =>
        .ok (w, c.to (.replied (createReply clusterID maxSize m.getClusterAttrs m.getEndPointCount)))
  | .replied _ => .ok (w, c)

def creates (D : Deps) : Parties World Input CreateCall Unit Abort where
  start x := ⟨x, .nameLookup⟩
  step w c _ := createStep D w c

/-- A Create that is not interrupted: the world after it and the reply. -/
def createWhole (D : Deps) (w : World) (x : Input) : Except Abort (World × Option XLRegMsg) :=
  (doCreateMsg D w { msgIn := x.msg } x.draws).map fun p => (p.1, (respond p.2).msgOut)

/-- Three sections in a row are a whole Create. -/
theorem createStep_uninterrupted (D : Deps) (w : World) (x : Input) :
    ((createStep D w ⟨x, .nameLookup⟩).bind fun s => (createStep D s.1 s.2).bind fun s =>
        createStep D s.1 s.2).map (fun s => (s.1, s.2.reply)) = createWhole D w x := by
  unfold createWhole doCreateMsg
  rcases hl : w.reg.clustersByName.lookup x.msg.getClusterName with - | p
  · have h₁ : createStep D w ⟨x, .nameLookup⟩ = .ok (w, ⟨x, .idDraw⟩) := by
      simp only [createStep, hl]
      rfl
    rw [h₁]
    unfold createNew
    rcases hu : insertUniqueNodeID D w.reg.idFilter x.draws with a | ⟨f, e | n⟩
    · have h₂ : createStep D w ⟨x, .idDraw⟩ = .error a := by simp only [createStep, hu]
      simp only [Except.bind, h₂]
      rfl
    · have h₂ : createStep D w ⟨x, .idDraw⟩ = .ok (w.setFilter f, ⟨x, .replied (errorMsg e)⟩) := by
        simp only [createStep, hu]
        rfl
      simp only [Except.bind, h₂]
      rfl
    · have h₂ : createStep D w ⟨x, .idDraw⟩ = .ok (w.setFilter f, ⟨x, .adding n⟩) := by
        simp only [createStep, hu]
        rfl
      simp only [Except.bind, h₂]
      simp only [createStep]
      rcases newRegCluster D x.msg.getClusterName n 0 _ _ with e | rc
      · rfl
      · simp only [World.setFilter]
        rcases addCluster D _ _ with a | ⟨w', i, - | e⟩ <;> rfl
  · have h₁ : createStep D w ⟨x, .nameLookup⟩ = (w.deref p).map fun rc =>
        (w, ⟨x, .replied (createReply rc.id rc.maxSize rc.attrs rc.epCount)⟩) := by
      simp only [createStep, hl]
      rcases w.deref p with a | rc <;> rfl
    rw [h₁]
    simp only
    rcases w.deref p with a | rc <;> rfl

end XlReg
