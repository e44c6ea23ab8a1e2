import XlReg.Sanity.Exchanges

/-! `NewMemberMaker` and its end points. The loop that adds them runs also when there are none, and
each addition overwrites the error of the one before, so a failure shows only if it is the last. -/

namespace XlReg

structure MakerArgs where
  node : Option Node
  attrs : UInt64
  regName : String
  regID : Option NodeID
  regEnd : Option EndPoint
  regCK : Option RSAPublicKey
  regSK : Option RSAPublicKey
  clusterName : String
  clusterAttrs : UInt64
  clusterID : Option NodeID
  size : UInt32
  epCount : UInt32
  endPoints : List EndPoint

namespace MakerArgs

def make (D : Deps) (K : ClientDeps) (a : MakerArgs) : Except Abort (Except Err ClusterMember) :=
  newMemberMaker D K a.node a.attrs a.regName a.regID a.regEnd a.regCK a.regSK a.clusterName
    a.clusterAttrs a.clusterID a.size a.epCount a.endPoints

def count (a : MakerArgs) : UInt32 :=
  let epCount := if a.epCount < 1 then 1 else a.epCount
  let actualEPCount := UInt32.ofNat a.endPoints.length
  if actualEPCount ≠ 0 ∧ epCount > actualEPCount then actualEPCount else epCount

def toAdd (a : MakerArgs) : List EndPoint := a.endPoints.take a.count.toNat

/-- A client that is neither solo nor admin gets as far as its end points: its node, the server's
data and the name of its cluster are there. -/
structure Reaches (K : ClientDeps) (a : MakerArgs) (node : Node) (regID : NodeID) (regEnd : EndPoint)
    (regCK : RSAPublicKey) : Prop where
  node : a.node = some node
  regID : a.regID = some regID
  regEnd : a.regEnd = some regEnd
  regCK : a.regCK = some regCK
  regName : a.regName ≠ ""
  clusterName : a.clusterName ≠ ""
  solo : a.attrs &&& K.attrSolo = 0
  admin : a.attrs &&& K.attrAdmin = 0

/-- After its end points, the node gets the server as a peer. -/
def Registers (D : Deps) (K : ClientDeps) (a : MakerArgs) (node : Node) (regID : NodeID)
    (regEnd : EndPoint) (regCK : RSAPublicKey) : Prop :=
  ∃ ctor, D.newTcpConnector regEnd = .ok ctor ∧ K.newRegPeer a.regName regID regCK a.regSK ctor = none ∧
    K.addPeer node a.regName regID = none

/-- What `NewMemberMaker` should do about end points. -/
structure Right (D : Deps) (K : ClientDeps) (a : MakerArgs) : Prop where
  returns : ∀ x, a.make D K ≠ .error x
  noEnds : ∀ node regID regEnd regCK, a.Reaches K node regID regEnd regCK → a.endPoints = [] →
    a.make D K = .ok (.error .memberMustHaveEndPoint)
  reports : ∀ node, a.node = some node → a.attrs &&& K.attrSolo = 0 → a.attrs &&& K.attrAdmin = 0 →
    ∀ e, Run.run K.addEndPoint node a.toAdd = .error e → ∃ e', a.make D K = .ok (.error e')
  added : a.attrs &&& K.attrSolo = 0 → a.attrs &&& K.attrAdmin = 0 → ∀ cm, a.make D K = .ok (.ok cm) →
    1 ≤ cm.epCount.toNat ∧ cm.epCount.toNat ≤ a.endPoints.length ∧
    ∃ node, a.node = some node ∧
      Run.run K.addEndPoint node (a.endPoints.take cm.epCount.toNat) = .ok cm.node

/-- There are end points; and if adding one of them fails, so does adding the last one, or after it
the server cannot be made a peer. -/
def Shows (D : Deps) (K : ClientDeps) (a : MakerArgs) : Prop :=
  ∀ node regID regEnd regCK, a.Reaches K node regID regEnd regCK → a.endPoints ≠ [] ∧
    ((∃ e, Run.run K.addEndPoint node a.toAdd = .error e) →
      (Run.attempts K.addEndPoint (node, none) a.toAdd).2 ≠ none ∨
      ¬ a.Registers D K (Run.attempts K.addEndPoint (node, none) a.toAdd).1 regID regEnd regCK)

variable {D : Deps} {K : ClientDeps} {a : MakerArgs} {node : Node} {regID : NodeID} {regEnd : EndPoint}
  {regCK : RSAPublicKey}

theorem count_pos (a : MakerArgs) : 1 ≤ a.count.toNat := by
  unfold count
  have h1 : ∀ x : UInt32, x ≠ 0 → 1 ≤ x.toNat := by
    intro x hx
    have := UInt32.toNat_inj.not.2 hx
    simp at this
    omega
  simp only
  split_ifs with hlt hclamp hclamp
  · exact h1 _ hclamp.1
  · decide
  · exact h1 _ hclamp.1
  · apply h1
    rintro h0
    exact hlt (by rw [h0]; decide)

theorem count_le (h : a.endPoints ≠ []) : a.count.toNat ≤ a.endPoints.length := by
  have hpos : 0 < a.endPoints.length := List.length_pos_iff.2 h
  have hmod : (UInt32.ofNat a.endPoints.length).toNat = a.endPoints.length % 2 ^ 32 := by simp
  unfold count
  generalize (if a.epCount < 1 then 1 else a.epCount) = n
  simp only
  split_ifs with hclamp
  · rw [hmod]
    exact Nat.mod_le _ _
  · have hn := n.toNat_lt
    by_cases h0 : UInt32.ofNat a.endPoints.length = 0
    · -- the count of the end points has wrapped around to 0
      rw [h0] at hmod
      simp at hmod
      omega
    · have hle : n.toNat ≤ (UInt32.ofNat a.endPoints.length).toNat := by
        have := fun hgt => hclamp ⟨h0, hgt⟩
        exact UInt32.le_iff_toNat_le.1 (UInt32.not_lt.1 this)
      rw [hmod] at hle
      exact hle.trans (Nat.mod_le _ _)

theorem toAdd_ne_nil (h : a.endPoints ≠ []) : a.toAdd ≠ [] := by
  intro hnil
  have hlen := congrArg List.length hnil
  have hpos := a.count_pos
  have hepos := List.length_pos_iff.2 h
  rw [toAdd, List.length_take, List.length_nil] at hlen
  omega

theorem addEndPoints_eq (K : ClientDeps) (endPoints : List EndPoint) {n i : ℕ} (r : Node × Option Err)
    (h : i + n ≤ endPoints.length) : addEndPoints K endPoints n i r =
      .ok (Run.attempts K.addEndPoint r ((endPoints.drop i).take n)) := by
  induction n generalizing i r with
  | zero => rfl
  | succ n ih =>
    have hi : i < endPoints.length := by omega
    rw [List.drop_eq_getElem_cons hi, List.take_succ_cons, Run.attempts_cons]
    simp only [addEndPoints, List.getElem?_eq_getElem hi]
    cases K.addEndPoint r.1 endPoints[i] with
    | error e => exact ih (r.1, some e) (by omega)
    | ok node => exact ih (node, none) (by omega)

def checked (K : ClientDeps) (a : MakerArgs) (node : Node) : Except Abort (Except Err (Node × UInt32)) :=
  checkEndPoints K node a.attrs a.clusterName a.epCount a.endPoints

section Checked

variable (hnode : a.node = some node) (hid : a.regID = some regID) (hend : a.regEnd = some regEnd)
  (hck : a.regCK = some regCK) (hname : a.regName ≠ "")
include hnode hid hend hck hname

theorem make_of_abort {x : Abort} (h : a.checked K node = .error x) : a.make D K = .error x := by
  unfold checked at h
  simp only [make, newMemberMaker, hnode, hid, hend, hck, if_neg hname, h]

theorem make_of_error {e : Err} (h : a.checked K node = .ok (.error e)) :
    a.make D K = .ok (.error e) := by
  unfold checked at h
  simp only [make, newMemberMaker, hnode, hid, hend, hck, if_neg hname, h]

theorem make_of_ok {node' : Node} {n : UInt32} (h : a.checked K node = .ok (.ok (node', n))) :
    (a.Registers D K node' regID regEnd regCK ∧
      ∃ cm, a.make D K = .ok (.ok cm) ∧ cm.node = node' ∧ cm.epCount = n) ∨
    (¬ a.Registers D K node' regID regEnd regCK ∧ ∃ e, a.make D K = .ok (.error e)) := by
  unfold checked at h
  simp only [make, newMemberMaker, hnode, hid, hend, hck, if_neg hname, h, Registers]
  cases hctor : D.newTcpConnector regEnd with
  | error e => exact .inr ⟨(by rintro ⟨ctor, hc, -⟩; cases hc), e, rfl⟩
  | ok ctor =>
    cases hpeer : K.newRegPeer a.regName regID regCK a.regSK ctor with
    | some e =>
      refine .inr ⟨?_, e, by simp only [hpeer]⟩
      rintro ⟨ctor', hc, hp, -⟩
      cases hc
      rw [hpeer] at hp
      cases hp
    | none =>
      cases hadd : K.addPeer node' a.regName regID with
      | some e => exact .inr ⟨(by rintro ⟨ctor', -, -, ha⟩; cases ha), e, by simp only [hpeer]⟩
      | none => exact .inl ⟨⟨ctor, rfl, hpeer, rfl⟩, _, by simp only [hpeer]; rfl, rfl, rfl⟩

end Checked

section Reaches

variable (h : a.Reaches K node regID regEnd regCK)
include h

theorem Reaches.checked_eq : ∃ err, a.checked K node =
    match addEndPoints K a.endPoints a.count.toNat 0 (node, err) with
    | .error x => .error x
    | .ok (_, some e) => .ok (.error e)
    | .ok (node, none) => .ok (.ok (node, a.count)) := by
  have hsolo : ¬ (a.attrs &&& K.attrSolo ≠ 0) := not_not.2 h.solo
  have hadmin : ¬ (a.attrs &&& K.attrAdmin ≠ 0) := not_not.2 h.admin
  refine ⟨if UInt32.ofNat a.endPoints.length = 0 then some .memberMustHaveEndPoint else none, ?_⟩
  simp only [checked, checkEndPoints, if_neg hsolo, if_neg h.clusterName, if_neg hadmin]
  rfl

theorem Reaches.make_no_ends (hnil : a.endPoints = []) : a.make D K = .error .indexOutOfRange := by
  obtain ⟨err, hc⟩ := h.checked_eq
  apply make_of_abort h.node h.regID h.regEnd h.regCK h.regName
  obtain ⟨n, hn⟩ : ∃ n, a.count.toNat = n + 1 := Nat.exists_eq_add_of_le' a.count_pos
  rw [hc, hn, hnil]
  rfl

/-- With end points, what the loop leaves is what the additions leave one after the other. -/
theorem Reaches.checked_ends (hne : a.endPoints ≠ []) : a.checked K node =
    match Run.attempts K.addEndPoint (node, none) a.toAdd with
    | (_, some e) => .ok (.error e)
    | (node, none) => .ok (.ok (node, a.count)) := by
  obtain ⟨err, hc⟩ := h.checked_eq
  have hloop := addEndPoints_eq K a.endPoints (node, err) (i := 0) (by simpa using count_le hne)
  rw [List.drop_zero] at hloop
  rw [hc, hloop, Run.attempts_start node none err (toAdd_ne_nil hne), toAdd]
  rcases Run.attempts K.addEndPoint (node, err) _ with ⟨node', - | e⟩
  · rfl
  · rfl

theorem Reaches.make_ends (hne : a.endPoints ≠ []) :
    (((Run.attempts K.addEndPoint (node, none) a.toAdd).2 ≠ none ∨
        ¬ a.Registers D K (Run.attempts K.addEndPoint (node, none) a.toAdd).1 regID regEnd regCK) ∧
      ∃ e, a.make D K = .ok (.error e)) ∨
    ((Run.attempts K.addEndPoint (node, none) a.toAdd).2 = none ∧
      a.Registers D K (Run.attempts K.addEndPoint (node, none) a.toAdd).1 regID regEnd regCK ∧
      ∃ cm, a.make D K = .ok (.ok cm) ∧
        cm.node = (Run.attempts K.addEndPoint (node, none) a.toAdd).1 ∧ cm.epCount = a.count) := by
  have hchecked := h.checked_ends hne
  rcases hatt : Run.attempts K.addEndPoint (node, none) a.toAdd with ⟨node', - | e⟩
  · rw [hatt] at hchecked
    rcases make_of_ok h.node h.regID h.regEnd h.regCK h.regName hchecked (D := D) with
      ⟨hreg, hmade⟩ | ⟨hreg, herror⟩
    · exact .inr ⟨rfl, hreg, hmade⟩
    · exact .inl ⟨.inr hreg, herror⟩
  · rw [hatt] at hchecked
    exact .inl ⟨.inl (Option.some_ne_none e), e,
      make_of_error h.node h.regID h.regEnd h.regCK h.regName hchecked⟩

end Reaches

theorem make_returns (hno : ∀ node regID regEnd regCK, ¬ a.Reaches K node regID regEnd regCK) :
    (∀ x, a.make D K ≠ .error x) ∧
    (a.attrs &&& K.attrSolo = 0 → a.attrs &&& K.attrAdmin = 0 → ∃ e, a.make D K = .ok (.error e)) := by
  have herror : ∀ e, a.make D K = .ok (.error e) → (∀ x, a.make D K ≠ .error x) ∧
      (a.attrs &&& K.attrSolo = 0 → a.attrs &&& K.attrAdmin = 0 → ∃ e, a.make D K = .ok (.error e)) := by
    intro e he
    rw [he]
    exact ⟨fun x hx => (by cases hx), fun _ _ => ⟨e, rfl⟩⟩
  cases hnode : a.node with
  | none => exact herror .missingNode (by simp only [make, newMemberMaker, hnode])
  | some node =>
    by_cases hinfo : (∃ regID, a.regID = some regID) ∧ (∃ regEnd, a.regEnd = some regEnd) ∧
        (∃ regCK, a.regCK = some regCK) ∧ a.regName ≠ ""
    · obtain ⟨⟨regID, hid⟩, ⟨regEnd, hend⟩, ⟨regCK, hck⟩, hname⟩ := hinfo
      have hskip : ∀ n, a.checked K node = .ok (.ok (node, n)) → ∀ x, a.make D K ≠ .error x := by
        intro n hn x hx
        rcases make_of_ok hnode hid hend hck hname hn (D := D) with ⟨-, cm, hm, -⟩ | ⟨-, e, hm⟩
        · rw [hm] at hx
          cases hx
        · rw [hm] at hx
          cases hx
      by_cases hsolo : a.attrs &&& K.attrSolo = 0
      · by_cases hcluster : a.clusterName = ""
        · apply herror .missingClusterNameOrID
          apply make_of_error hnode hid hend hck hname
          simp only [checked, checkEndPoints, if_neg (not_not.2 hsolo), if_pos hcluster]
        · by_cases hadmin : a.attrs &&& K.attrAdmin = 0
          · exact absurd ⟨hnode, hid, hend, hck, hname, hcluster, hsolo, hadmin⟩
              (hno node regID regEnd regCK)
          · refine ⟨hskip (if a.epCount < 1 then 1 else a.epCount) ?_, fun _ h => absurd h hadmin⟩
            simp only [checked, checkEndPoints, if_neg (not_not.2 hsolo), if_neg hcluster, ne_eq, hadmin,
              not_false_eq_true, if_true]
      · refine ⟨hskip a.epCount ?_, fun h => absurd h hsolo⟩
        simp only [checked, checkEndPoints, ne_eq, hsolo, not_false_eq_true, if_true]
    · apply herror .missingServerInfo
      simp only [make, newMemberMaker, hnode]
      rcases hid : a.regID with - | regID
      · rfl
      rcases hend : a.regEnd with - | regEnd
      · rfl
      rcases hck : a.regCK with - | regCK
      · rfl
      have hname : a.regName = "" := by
        by_contra hne
        exact hinfo ⟨⟨_, hid⟩, ⟨_, hend⟩, ⟨_, hck⟩, hne⟩
      simp only [hname, if_true]

/-- An error meets every demand but one: that about an empty list. -/
theorem right_of_error {e : Err} (he : a.make D K = .ok (.error e))
    (hends : ∀ node regID regEnd regCK, a.Reaches K node regID regEnd regCK → a.endPoints ≠ []) :
    a.Right D K where
  returns x hx := by rw [he] at hx; cases hx
  noEnds node regID regEnd regCK h hnil := absurd hnil (hends node regID regEnd regCK h)
  reports _ _ _ _ _ _ := ⟨e, he⟩
  added _ _ cm hcm := by rw [he] at hcm; cases hcm

theorem Reaches.right_of_made (h : a.Reaches K node regID regEnd regCK) (hne : a.endPoints ≠ [])
    {cm : ClusterMember} (hcm : a.make D K = .ok (.ok cm)) (hcount : cm.epCount = a.count)
    (hrun : Run.run K.addEndPoint node a.toAdd = .ok cm.node) : a.Right D K where
  returns x hx := by rw [hcm] at hx; cases hx
  noEnds _ _ _ _ _ hnil := absurd hnil hne
  reports node' hnode' _ _ e he := by
    rw [h.node] at hnode'
    cases hnode'
    rw [hrun] at he
    cases he
  added _ _ cm' hcm' := by
    rw [hcm] at hcm'
    cases hcm'
    rw [hcount]
    exact ⟨a.count_pos, count_le hne, node, h.node, hrun⟩

/-- `NewMemberMaker` does what it should about end points exactly if there are some and a failure to
add one of them is not overwritten. -/
theorem make_right_iff (D : Deps) (K : ClientDeps) (a : MakerArgs) : a.Right D K ↔ a.Shows D K := by
  constructor
  · intro hright node regID regEnd regCK h
    have hne : a.endPoints ≠ [] := fun hnil => hright.returns _ (h.make_no_ends hnil)
    refine ⟨hne, ?_⟩
    rintro ⟨e, he⟩
    obtain ⟨e', he'⟩ := hright.reports node h.node h.solo h.admin e he
    rcases h.make_ends hne (D := D) with ⟨hshow, -⟩ | ⟨-, -, cm, hcm, -⟩
    · exact hshow
    · rw [he'] at hcm
      cases hcm
  · intro hshows
    by_cases hreach : ∃ node regID regEnd regCK, a.Reaches K node regID regEnd regCK
    · obtain ⟨node, regID, regEnd, regCK, h⟩ := hreach
      obtain ⟨hne, hshow⟩ := hshows node regID regEnd regCK h
      rcases h.make_ends hne (D := D) with ⟨-, e, he⟩ | ⟨hlast, hreg, cm, hcm, hnode, hcount⟩
      · exact right_of_error he fun _ _ _ _ _ => hne
      · cases hrun : Run.run K.addEndPoint node a.toAdd with
        | error e =>
          rcases hshow ⟨e, hrun⟩ with hlast' | hreg'
          · exact absurd hlast hlast'
          · exact absurd hreg hreg'
        | ok node' =>
          rw [Run.attempts_of_run hrun none (toAdd_ne_nil hne)] at hnode
          exact h.right_of_made hne hcm hcount (hnode.symm ▸ hrun)
    · have hno : ∀ node regID regEnd regCK, ¬ a.Reaches K node regID regEnd regCK :=
        fun node regID regEnd regCK h => hreach ⟨node, regID, regEnd, regCK, h⟩
      obtain ⟨hreturns, herr⟩ := make_returns (D := D) hno
      refine ⟨hreturns, fun _ _ _ _ h => absurd h (hno _ _ _ _), fun _ _ hs ha _ _ => herr hs ha, ?_⟩
      intro hs ha cm hcm
      obtain ⟨e, he⟩ := herr hs ha
      rw [he] at hcm
      cases hcm

end MakerArgs

namespace Sample

def choosy : ClientDeps :=
  { ClientDeps.plain with
    addEndPoint := fun node ep =>
      if ep.addr = "" then .error (.other "no address")
      else .ok { node with endPoints := node.endPoints ++ [ep] } }

def makerArgs (endPoints : List EndPoint) : MakerArgs where
  node := some clientNode
  attrs := 0
  regName := "r"
  regID := some (.rep 9)
  regEnd := some ⟨"127.0.0.1:8080"⟩
  regCK := some ⟨1, 3⟩
  regSK := some ⟨2, 3⟩
  clusterName := "c"
  clusterAttrs := 0
  clusterID := none
  size := 2
  epCount := 2
  endPoints := endPoints

end Sample

/-- No end points: the call panics. Two of them, of which only the first cannot be added: there is no
error, and the node has the second one only. -/
theorem makerArgs_wrong :
    (Sample.makerArgs []).make .plain .plain = .error .indexOutOfRange ∧
    ¬ (Sample.makerArgs []).Right .plain .plain ∧
    (∃ cm, (Sample.makerArgs [⟨""⟩, ⟨"127.0.0.1:80"⟩]).make .plain Sample.choosy = .ok (.ok cm) ∧
      cm.epCount = 2 ∧ cm.node.endPoints = [⟨"127.0.0.1:80"⟩]) ∧
    ¬ (Sample.makerArgs [⟨""⟩, ⟨"127.0.0.1:80"⟩]).Right .plain Sample.choosy := by
  refine ⟨rfl, fun h => h.returns _ rfl, ⟨_, rfl, rfl, rfl⟩, fun h => ?_⟩
  obtain ⟨e, he⟩ := h.reports Sample.clientNode rfl rfl rfl (.other "no address") rfl
  cases he

end XlReg
