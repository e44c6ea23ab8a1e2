import XlReg.Sanity.Exchanges

/-! Two models of `GetAndMembers`. Spec/MemberNode has it as a function of the answers it gets, and
Spec/Client in small steps with those of the server in between. What the function comes to, if each of
its answers is one that a server gives, the small steps come to as well. -/

namespace XlReg

open Relation

variable {D : Deps}

namespace MemberMaker

/-- A step, whatever the cluster is at the time and whatever the step meets. -/
def Proceeds (D : Deps) (mm mm' : MemberMaker) : Prop := ∃ rc x, mm.step D rc x = .ok mm'

/-- A step of the client, which does not see the cluster. -/
theorem Proceeds.of_client {mm mm' : MemberMaker} {x : Chance} (h : ∀ rc, mm.step D rc x = .ok mm') :
    Proceeds D mm mm' :=
  ⟨⟨"", mm.clusterID, 0, 0, 0, [], ∅, .empty⟩, x, h _⟩

theorem finish_at (mm : MemberMaker) (p : Progress) : { mm with pc := p }.finish = mm.finish := by
  unfold finish
  cases mm.err <;> rfl

theorem unpack_at (mm : MemberMaker) (draw : NodeID) (i : ℕ) (t : Token) (p q : Progress) :
    { ({ mm with pc := p } : MemberMaker).unpack D draw i t with pc := q } =
      { mm.unpack D draw i t with pc := q } := by
  unfold unpack
  cases newMemberInfoFromToken D draw (some t) <;> rfl

/-! The loops. -/

theorem clearing_proceeds (count : ℕ) {n i : ℕ} (mm : MemberMaker) {still : UInt64}
    (h : clearFilled D mm.members n i mm.stillToGet = .ok still) (hn : i + n = mm.clusterMaxSize.toNat) :
    ReflTransGen (Proceeds D) { mm with pc := .clearing count i }
      { mm with stillToGet := still, pc := .request count } := by
  induction n generalizing i mm with
  | zero =>
    cases h
    have hi : ¬ i < mm.clusterMaxSize.toNat := by omega
    exact .single (.of_client (x := ⟨mm.nodeID, none⟩) fun rc => by simp only [step, hi, if_false])
  | succ n ih =>
    have hi : i < mm.clusterMaxSize.toNat := by omega
    have hrest : i + 1 + n = mm.clusterMaxSize.toNat := by omega
    unfold clearFilled at h
    cases hv : mm.members[i]? with
    | none => rw [hv] at h; cases h
    | some v =>
      rw [hv] at h
      cases v with
      | none =>
        refine .head (.of_client (x := ⟨mm.nodeID, none⟩) fun rc => ?_) (ih mm h hrest)
        simp only [step, hi, if_true, hv]
      | some mi =>
        refine .head (.of_client (x := ⟨mm.nodeID, none⟩) fun rc => ?_)
          (ih { mm with stillToGet := D.bits.clear mm.stillToGet i } h hrest)
        simp only [step, hi, if_true, hv]

/-- The server's loop, if nobody joins meanwhile. -/
theorem serving_proceeds (count : ℕ) (mm : MemberMaker) (rc : RegCluster) (whichToSend : UInt64) {n i : ℕ}
    {sent sent' : Sending} (h : getLoop D rc.members whichToSend n i sent = .ok sent') :
    ReflTransGen (Proceeds D) { mm with pc := .serving count whichToSend (i + n) i sent }
      (mm.answered count sent') := by
  induction n generalizing i sent with
  | zero =>
    cases h
    exact .single ⟨rc, ⟨mm.nodeID, none⟩, by simp [step, answered]⟩
  | succ n ih =>
    have hi : i < i + (n + 1) := by omega
    unfold getLoop at h
    cases hg : getIter D rc.members whichToSend i sent with
    | error a => rw [hg] at h; cases h
    | ok r =>
      rw [hg] at h
      cases r with
      | none =>
        cases h
        refine .single ⟨rc, ⟨mm.nodeID, none⟩, ?_⟩
        simp only [step, hi, if_true, hg]
        rfl
      | some sent₁ =>
        have hrest := ih h
        rw [show i + 1 + n = i + (n + 1) by omega] at hrest
        refine .head ⟨rc, ⟨mm.nodeID, none⟩, ?_⟩ hrest
        simp only [step, hi, if_true, hg]

theorem unpacking_proceeds (count : ℕ) {n i offset : ℕ} (mm : MemberMaker) {mm' : MemberMaker} {which : UInt64}
    {tokens : List Token} {draws : ℕ → NodeID}
    (h : mm.unpackAll D which tokens draws n i offset = .ok mm') (hn : i + n = mm.clusterMaxSize.toNat) :
    ReflTransGen (Proceeds D) { mm with pc := .unpacking count which tokens i offset }
      (mm'.endLoop D count) := by
  induction n generalizing i offset mm with
  | zero =>
    cases h
    have hi : ¬ i < mm'.clusterMaxSize.toNat := by omega
    refine .single (.of_client (x := ⟨mm'.nodeID, none⟩) fun rc => ?_)
    simp only [step, hi, if_false, endLoop, finish_at]
  | succ n ih =>
    have hi : i < mm.clusterMaxSize.toNat := by omega
    unfold unpackAll at h
    by_cases hb : D.bits.test which i = true
    · rw [if_pos hb] at h
      cases ht : tokens[offset]? with
      | none => rw [ht] at h; cases h
      | some token =>
        rw [ht] at h
        refine .head (.of_client (x := ⟨draws i, none⟩) fun rc => ?_)
          (ih _ h (by rw [(unpack_kept ..).1]; omega))
        simp only [step, hi, hb, if_true, ht]
        rw [unpack_at]
    · rw [if_neg hb] at h
      refine .head (.of_client (x := ⟨mm.nodeID, none⟩) fun rc => ?_) (ih _ h (by omega))
      simp only [step, hi, hb, if_true, if_false, Bool.false_eq_true]

end MemberMaker

/-! A round. -/

/-- What a server may answer to a GetCluster request: an error, or what it reads from the members of a
cluster that nobody joins meanwhile. -/
inductive AnswersGet (D : Deps) (request : XLRegMsg) : XLRegMsg → Prop
  | refused (e : Err) : AnswersGet D request (errorMsg e)
  | sent (rc : RegCluster) {s : Sending}
      (loop : getLoop D rc.members (D.bits.intersection request.getWhich (D.bits.lowNMap (getSize rc)))
        (getSize rc) 0 ⟨[], 0⟩ = .ok s) : AnswersGet D request (getReply request.clusterID s)

/-- What is read after the request, if anything is, is such an answer. -/
def Ask.Served (D : Deps) (a : Ask) : Prop :=
  ∀ m r, a.request = some m → a.turn.write = none → a.turn.read = .ok r → ∃ r', r = some r' ∧ AnswersGet D m r'

namespace MemberMaker

theorem response_proceeds (count : ℕ) (mm : MemberMaker) {mm' : MemberMaker} {msg : XLRegMsg}
    {draws : ℕ → NodeID} {again : Bool}
    (h : mm.exchange D ⟨none, .ok (some msg), draws⟩ = .ok (mm', again)) :
    ReflTransGen (Proceeds D) { mm with pc := .response count msg }
      (if again then { mm' with pc := .head (count + 1) } else mm'.finish) := by
  unfold exchange at h
  simp only [Option.getD_some] at h
  by_cases hany : D.bits.any msg.getWhich = true
  · rw [if_pos hany] at h
    cases hu : unpackAll D msg.getWhich msg.tokens draws mm.clusterMaxSize.toNat 0 0
        { mm with err := none } with
    | error a => rw [hu] at h; cases h
    | ok mm₁ =>
      rw [hu] at h
      cases h
      refine .head (.of_client (x := ⟨mm.nodeID, none⟩) fun rc => ?_)
        (unpacking_proceeds count _ hu (Nat.zero_add _))
      simp only [step, hany, if_true]
  · rw [if_neg hany] at h
    cases h
    refine .single (.of_client (x := ⟨mm.nodeID, none⟩) fun rc => ?_)
    simp only [step, hany, if_false, Bool.false_eq_true, endLoop, finish]

theorem requested_proceeds (count : ℕ) (mm : MemberMaker) {r : XLRegMsg} (h : AnswersGet D mm.getRequest r) :
    ReflTransGen (Proceeds D) { mm with pc := .requested count } { mm with pc := .response count r } := by
  cases h with
  | refused e => exact .single (.of_client (x := ⟨mm.nodeID, some e⟩) fun rc => by simp only [step])
  | sent rc hloop =>
    have hserve := serving_proceeds count mm rc _ hloop
    rw [Nat.zero_add] at hserve
    refine .head ⟨rc, ⟨mm.nodeID, none⟩, ?_⟩ hserve
    simp only [step]
    rfl

theorem exchange_proceeds (count : ℕ) (mm : MemberMaker) {mm' : MemberMaker} {t : Turn} {again : Bool}
    (h : mm.exchange D t = .ok (mm', again))
    (hserved : ∀ r, t.write = none → t.read = .ok r → ∃ r', r = some r' ∧ AnswersGet D mm.getRequest r') :
    ReflTransGen (Proceeds D) { mm with pc := .request count }
      (if again then { mm' with pc := .head (count + 1) } else mm'.finish) := by
  obtain ⟨write, read, draws⟩ := t
  cases write with
  | some e =>
    cases h
    exact .single (.of_client (x := ⟨mm.nodeID, some e⟩) fun rc => by simp only [step, finish]; rfl)
  | none =>
    have hwritten : Proceeds D { mm with pc := .request count } { mm with err := none, pc := .requested count } :=
      .of_client (x := ⟨mm.nodeID, none⟩) fun rc => by simp only [step]
    cases read with
    | error e =>
      cases h
      -- what was to be read does not matter
      refine .head hwritten (.trans (requested_proceeds count { mm with err := none } (.refused e)) ?_)
      exact .single (.of_client (x := ⟨mm.nodeID, some e⟩) fun rc => by simp only [step, finish]; rfl)
    | ok r =>
      obtain ⟨msg, rfl, hanswer⟩ := hserved r rfl rfl
      exact .head hwritten (.trans (requested_proceeds count { mm with err := none } hanswer)
        (response_proceeds count { mm with err := none } h))

/-! The outer loop. -/

/-- What the rounds leave alone. -/
structure SameSelf (mm mm' : MemberMaker) : Prop where
  nodeID : mm'.nodeID = mm.nodeID
  selfIndex : mm'.selfIndex = mm.selfIndex
  size : mm'.clusterMaxSize = mm.clusterMaxSize

theorem SameSelf.refl (mm : MemberMaker) : SameSelf mm mm := ⟨rfl, rfl, rfl⟩

theorem SameSelf.trans {mm₁ mm₂ mm₃ : MemberMaker} (h : SameSelf mm₁ mm₂) (h' : SameSelf mm₂ mm₃) :
    SameSelf mm₁ mm₃ :=
  ⟨h'.nodeID.trans h.nodeID, h'.selfIndex.trans h.selfIndex, h'.size.trans h.size⟩

theorem unpack_self (mm : MemberMaker) (draw : NodeID) (i : ℕ) (t : Token) :
    SameSelf mm (mm.unpack D draw i t) := by
  unfold unpack
  cases newMemberInfoFromToken D draw (some t) <;> exact ⟨rfl, rfl, rfl⟩

theorem unpackAll_self {which : UInt64} {tokens : List Token} {draws : ℕ → NodeID} {n i offset : ℕ}
    {mm mm' : MemberMaker} (h : mm.unpackAll D which tokens draws n i offset = .ok mm') : SameSelf mm mm' := by
  induction n generalizing i offset mm with
  | zero =>
    cases h
    exact .refl _
  | succ n ih =>
    unfold unpackAll at h
    split_ifs at h
    · cases ht : tokens[offset]? with
      | none => rw [ht] at h; cases h
      | some token =>
        rw [ht] at h
        exact (mm.unpack_self _ _ _).trans (ih h)
    · exact ih h

theorem exchange_self {mm mm' : MemberMaker} {t : Turn} {again : Bool}
    (h : mm.exchange D t = .ok (mm', again)) : SameSelf mm mm' := by
  obtain ⟨write, read, draws⟩ := t
  unfold exchange at h
  cases write with
  | some e =>
    cases h
    exact ⟨rfl, rfl, rfl⟩
  | none =>
    cases read with
    | error e =>
      cases h
      exact ⟨rfl, rfl, rfl⟩
    | ok m =>
      simp only at h
      split_ifs at h
      · cases hu : unpackAll D (m.getD {}).getWhich (m.getD {}).tokens draws mm.clusterMaxSize.toNat 0 0
            { mm with err := none } with
        | error a => rw [hu] at h; cases h
        | ok mm₁ =>
          rw [hu] at h
          cases h
          have hsame := unpackAll_self hu
          exact ⟨hsame.nodeID, hsame.selfIndex, hsame.size⟩
      · cases h
        exact ⟨rfl, rfl, rfl⟩

end MemberMaker

/-- A round of the outer loop: the slots are looked through, the first request asked is that of this
round, and the others are those of the rounds after it. -/
theorem getRounds_round {net : ℕ → Turn} {n : ℕ} {log asks : List Ask} {mm mm' : MemberMaker}
    (hany : D.bits.any mm.stillToGet = true)
    (h : getRounds D net (n + 1) log mm = (log ++ asks, .ok mm')) :
    ∃ still mm₁ again a rest,
      clearFilled D mm.members mm.clusterMaxSize.toNat 0 mm.stillToGet = .ok still ∧
      a.request = some { mm with stillToGet := still }.getRequest ∧
      MemberMaker.exchange D { mm with stillToGet := still } a.turn = .ok (mm₁, again) ∧
      asks = a :: rest ∧
      if again then getRounds D net n (log ++ [a]) mm₁ = (log ++ [a] ++ rest, .ok mm') else mm₁ = mm' := by
  unfold getRounds at h
  rw [if_pos hany] at h
  cases hclear : clearFilled D mm.members mm.clusterMaxSize.toNat 0 mm.stillToGet with
  | error b =>
    rw [hclear] at h
    cases (Prod.mk.inj h).2
  | ok still =>
    rw [hclear] at h
    simp only at h
    set a : Ask := ⟨.getAndMembers, mm.clusterMaxSize,
      some { mm with stillToGet := still }.getRequest, net log.length⟩
    rcases hex : MemberMaker.exchange D { mm with stillToGet := still } (net log.length) with b | ⟨mm₁, _ | _⟩
    · rw [hex] at h
      cases (Prod.mk.inj h).2
    · rw [hex] at h
      refine ⟨still, mm₁, false, a, [], rfl, rfl, hex, ?_, Except.ok.inj (Prod.mk.inj h).2⟩
      exact (List.append_cancel_left (Prod.mk.inj h).1).symm
    · rw [hex] at h
      obtain ⟨rest, hrest, -⟩ := getRounds_decided (D := D) net n (log ++ [a]) mm₁
      have hlogs : (getRounds D net n (log ++ [a]) mm₁).1 = log ++ asks := (Prod.ext_iff.1 h).1
      rw [hlogs, List.append_assoc] at hrest
      obtain rfl : asks = a :: rest := List.append_cancel_left hrest
      refine ⟨still, mm₁, true, a, rest, rfl, rfl, hex, rfl, ?_⟩
      rw [if_pos rfl, List.append_assoc]
      exact h

theorem getRounds_proceeds {net : ℕ → Turn} {n count : ℕ} (hn : count + n = MAX_GET) {log asks : List Ask}
    {mm mm' : MemberMaker} (h : getRounds D net n log mm = (log ++ asks, .ok mm'))
    (hserved : ∀ a ∈ asks, a.Served D) :
    ReflTransGen (MemberMaker.Proceeds D) { mm with pc := .head count } mm'.finish ∧ mm.SameSelf mm' := by
  induction n generalizing count log asks mm with
  | zero =>
    obtain rfl : mm = mm' := Except.ok.inj (Prod.mk.inj h).2
    have hcount : ¬ count < MAX_GET := by omega
    refine ⟨.single (.of_client (x := ⟨mm.nodeID, none⟩) fun rc => ?_), .refl mm⟩
    simp only [MemberMaker.step, hcount, false_and, if_false, MemberMaker.finish_at]
  | succ n ih =>
    have hcount : count < MAX_GET := by omega
    by_cases hany : D.bits.any mm.stillToGet = true
    · obtain ⟨still, mm₁, again, a, rest, hclear, hreq, hex, rfl, hrest⟩ := getRounds_round hany h
      have hhead : MemberMaker.Proceeds D { mm with pc := .head count } { mm with pc := .clearing count 0 } :=
        .of_client (x := ⟨mm.nodeID, none⟩) fun rc => by
          simp only [MemberMaker.step, hcount, hany, true_and, if_true]
      have hasked := MemberMaker.clearing_proceeds count mm hclear (Nat.zero_add _)
      have hround := MemberMaker.exchange_proceeds count { mm with stillToGet := still } hex
        fun r hw hr => hserved a List.mem_cons_self _ r hreq hw hr
      have hupto := (ReflTransGen.head hhead hasked).trans hround
      have hsame := MemberMaker.exchange_self hex
      have hself : mm.SameSelf mm₁ := ⟨hsame.nodeID, hsame.selfIndex, hsame.size⟩
      cases again with
      | false =>
        obtain rfl : mm₁ = mm' := hrest
        exact ⟨hupto, hself⟩
      | true =>
        obtain ⟨hgoes, hafter⟩ := ih (show count + 1 + n = MAX_GET by omega) hrest
          fun b hb => hserved b (List.mem_cons_of_mem _ hb)
        exact ⟨hupto.trans hgoes, hself.trans hafter⟩
    · unfold getRounds at h
      rw [if_neg hany] at h
      obtain rfl : mm = mm' := Except.ok.inj (Prod.mk.inj h).2
      refine ⟨.single (.of_client (x := ⟨mm.nodeID, none⟩) fun rc => ?_), .refl mm⟩
      simp only [MemberMaker.step, hany, and_false, if_false, MemberMaker.finish_at, Bool.false_eq_true]

theorem findSelf_ok {nodeID : NodeID} {members : List (Option MemberInfo)} {old n i k : ℕ}
    (h : findSelf nodeID members old n i = .ok k) :
    k = (((members.drop i).take n).findIdx? fun mi =>
      mi.any fun mi => mi.nodeID.value == nodeID.value).elim old (i + ·) := by
  induction n generalizing i with
  | zero =>
    cases h
    simp
  | succ n ih =>
    unfold findSelf at h
    cases hi : members[i]? with
    | none => rw [hi] at h; cases h
    | some v =>
      obtain ⟨hlt, hv⟩ := List.getElem?_eq_some_iff.1 hi
      rw [hi] at h
      rw [List.drop_eq_getElem_cons hlt, hv, List.take_succ_cons, List.findIdx?_cons]
      have hshift : ∀ o : Option ℕ, o.elim old (i + 1 + ·) = (o.map (· + 1)).elim old (i + ·) := by
        rintro (- | k)
        · rfl
        · simp only [Option.map_some, Option.elim_some]
          omega
      cases v with
      | none =>
        simp only [Option.any_none, if_false, Bool.false_eq_true]
        rw [← hshift]
        exact ih h
      | some mi =>
        simp only at h
        by_cases hself : (mi.nodeID.value == nodeID.value) = true
        · rw [if_pos hself] at h
          cases h
          simp [hself]
        · rw [if_neg hself] at h
          simp only [hself, Option.any_some, if_false, Bool.false_eq_true]
          rw [← hshift]
          exact ih h

theorem findSelf_selfIndexIn {nodeID : NodeID} {members : List (Option MemberInfo)} {old n k : ℕ}
    (h : findSelf nodeID members old n 0 = .ok k) : k = selfIndexIn nodeID (members.take n) old := by
  rw [findSelf_ok h, List.drop_zero, selfIndexIn]
  cases (members.take n).findIdx? _ with
  | none => rfl
  | some k => exact Nat.zero_add k

/-- A call of `GetAndMembers` whose answers come from a server: in small steps it returns as well, with
the same error, the same members and the same place of the client among them. -/
theorem getAndMembers_proceeds {net : ℕ → Turn} {c c' : Client} {id : NodeID} {r : Option Err}
    (hid : c.cm.clusterID = some id) (h : getAndMembers D net c = (c', .ok r)) {asks : List Ask}
    (hlog : c'.log = c.log ++ asks) (hserved : ∀ a ∈ asks, a.Served D) :
    ∃ mm, ReflTransGen (MemberMaker.Proceeds D) (c.cm.maker D id) mm ∧ mm.pc = .returned ∧ mm.err = r ∧
      mm.members = c'.cm.members ∧ mm.selfIndex = c'.cm.selfIndex := by
  unfold getAndMembers at h
  simp only [hid] at h
  rcases hg : getRounds D net MAX_GET c.log (c.cm.maker D id) with ⟨log, a | mm⟩
  · rw [hg] at h
    cases h
  · rw [hg] at h
    simp only at h
    refine ⟨mm.finish, ?_⟩
    cases herr : mm.err with
    | some e =>
      simp only [herr] at h
      cases h
      obtain rfl : log = c.log ++ asks := hlog
      obtain ⟨hgoes, hsame⟩ := getRounds_proceeds (Nat.zero_add _) hg hserved
      refine ⟨hgoes, ?_⟩
      simp only [MemberMaker.finish, herr]
      exact ⟨trivial, trivial, trivial, hsame.selfIndex⟩
    | none =>
      simp only [herr, Client.lookForSelf] at h
      cases hf : findSelf c.cm.node.nodeID mm.members c.cm.selfIndex c.cm.clusterMaxSize.toNat 0 with
      | error a => rw [hf] at h; cases h
      | ok k =>
        rw [hf] at h
        cases h
        obtain rfl : log = c.log ++ asks := hlog
        obtain ⟨hgoes, hsame⟩ := getRounds_proceeds (Nat.zero_add _) hg hserved
        refine ⟨hgoes, ?_⟩
        simp only [MemberMaker.finish, herr]
        refine ⟨trivial, trivial, trivial, ?_⟩
        rw [findSelf_selfIndexIn hf, hsame.nodeID, hsame.selfIndex, hsame.size]
        rfl

end XlReg
