import XlReg.Spec.Client

/-! All that a step of `GetAndMembers` can do, and that a client whose table has more slots than
`ClusterMaxSize` does what it would do without the others. -/

namespace XlReg.MemberMaker

variable {D : Deps} {rc : RegCluster} {mm mm' : MemberMaker} {x : Chance}

/-- The steps of a client, and of the server for it. -/
inductive Moves (D : Deps) (rc : RegCluster) (mm : MemberMaker) (x : Chance) : MemberMaker → Prop
  /-- The outer loop goes on, or it is left. -/
  | enter {count : ℕ} (hpc : mm.pc = .head count)
    (hgo : count < MAX_GET ∧ D.bits.any mm.stillToGet = true) :
    Moves D rc mm x { mm with pc := .clearing count 0 }
  | leave {count : ℕ} (hpc : mm.pc = .head count)
    (hno : ¬ (count < MAX_GET ∧ D.bits.any mm.stillToGet = true)) : Moves D rc mm x mm.finish
  /-- The bits of filled slots are cleared. -/
  | empty {count i : ℕ} (hpc : mm.pc = .clearing count i) (hi : i < mm.clusterMaxSize.toNat)
    (hv : mm.members[i]? = some none) : Moves D rc mm x { mm with pc := .clearing count (i + 1) }
  | filled {count i : ℕ} {mi : MemberInfo} (hpc : mm.pc = .clearing count i)
    (hi : i < mm.clusterMaxSize.toNat) (hv : mm.members[i]? = some (some mi)) :
    Moves D rc mm x
      { mm with stillToGet := D.bits.clear mm.stillToGet i, pc := .clearing count (i + 1) }
  | cleared {count i : ℕ} (hpc : mm.pc = .clearing count i) (hi : ¬ i < mm.clusterMaxSize.toNat) :
    Moves D rc mm x { mm with pc := .request count }
  /-- The request is written, or not. -/
  | unwritten {count : ℕ} {e : Err} (hpc : mm.pc = .request count) (hx : x.failure = some e) :
    Moves D rc mm x { mm with err := some e }.finish
  | written {count : ℕ} (hpc : mm.pc = .request count) (hx : x.failure = none) :
    Moves D rc mm x { mm with err := none, pc := .requested count }
  /-- The server refuses it, or takes it. -/
  | refused {count : ℕ} {e : Err} (hpc : mm.pc = .requested count) (hx : x.failure = some e) :
    Moves D rc mm x { mm with pc := .response count (errorMsg e) }
  | taken {count : ℕ} (hpc : mm.pc = .requested count) (hx : x.failure = none) :
    Moves D rc mm x { mm with
      pc := .serving count (D.bits.intersection mm.stillToGet (D.bits.lowNMap (getSize rc)))
        (getSize rc) 0 ⟨[], 0⟩ }
  /-- The server's loop: a token cannot be made, it is sent, it is not asked for, or all are done. -/
  | noToken {count size i : ℕ} {w : UInt64} {sent : Sending} {m : ClientInfo} {e : Err}
    (hpc : mm.pc = .serving count w size i sent) (hi : i < size) (hb : D.bits.test w i = true)
    (hm : rc.members[i]? = some m) (ht : m.token D = .error e) : Moves D rc mm x (mm.answered count sent)
  | token {count size i : ℕ} {w : UInt64} {sent : Sending} {m : ClientInfo} {t : Token}
    (hpc : mm.pc = .serving count w size i sent) (hi : i < size) (hb : D.bits.test w i = true)
    (hm : rc.members[i]? = some m) (ht : m.token D = .ok t) :
    Moves D rc mm x { mm with
      pc := .serving count w size (i + 1) ⟨sent.tokens ++ [t], D.bits.set sent.which i⟩ }
  | skipped {count size i : ℕ} {w : UInt64} {sent : Sending}
    (hpc : mm.pc = .serving count w size i sent) (hi : i < size) (hb : D.bits.test w i = false) :
    Moves D rc mm x { mm with pc := .serving count w size (i + 1) sent }
  | sentAll {count size i : ℕ} {w : UInt64} {sent : Sending}
    (hpc : mm.pc = .serving count w size i sent) (hi : ¬ i < size) : Moves D rc mm x (mm.answered count sent)
  /-- The response is read, or not. -/
  | unread {count : ℕ} {msg : XLRegMsg} {e : Err} (hpc : mm.pc = .response count msg)
    (hx : x.failure = some e) : Moves D rc mm x { mm with err := some e }.finish
  | read {count : ℕ} {msg : XLRegMsg} (hpc : mm.pc = .response count msg) (hx : x.failure = none)
    (hany : D.bits.any msg.getWhich = true) :
    Moves D rc mm x { mm with err := none, pc := .unpacking count msg.getWhich msg.tokens 0 0 }
  | readNone {count : ℕ} {msg : XLRegMsg} (hpc : mm.pc = .response count msg) (hx : x.failure = none)
    (hany : ¬ D.bits.any msg.getWhich = true) :
    Moves D rc mm x (endLoop D { mm with err := none } count)
  /-- The client's loop over the tokens. -/
  | bad {count i offset : ℕ} {which : UInt64} {tokens : List Token} {t : Token} {e : Err}
    (hpc : mm.pc = .unpacking count which tokens i offset) (hi : i < mm.clusterMaxSize.toNat)
    (hb : D.bits.test which i = true) (ht : tokens[offset]? = some t)
    (hd : newMemberInfoFromToken D x.draw (some t) = .error e) :
    Moves D rc mm x { mm with
      members := mm.members.set i none, err := some e,
      pc := .unpacking count which tokens (i + 1) (offset + 1) }
  | good {count i offset : ℕ} {which : UInt64} {tokens : List Token} {t : Token} {mi : MemberInfo}
    (hpc : mm.pc = .unpacking count which tokens i offset) (hi : i < mm.clusterMaxSize.toNat)
    (hb : D.bits.test which i = true) (ht : tokens[offset]? = some t)
    (hd : newMemberInfoFromToken D x.draw (some t) = .ok mi) :
    Moves D rc mm x { mm with
      members := mm.members.set i (some mi), err := none,
      stillToGet := D.bits.clear mm.stillToGet i,
      pc := .unpacking count which tokens (i + 1) (offset + 1) }
  | unasked {count i offset : ℕ} {which : UInt64} {tokens : List Token}
    (hpc : mm.pc = .unpacking count which tokens i offset) (hi : i < mm.clusterMaxSize.toNat)
    (hb : D.bits.test which i = false) :
    Moves D rc mm x { mm with pc := .unpacking count which tokens (i + 1) offset }
  | unpacked {count i offset : ℕ} {which : UInt64} {tokens : List Token}
    (hpc : mm.pc = .unpacking count which tokens i offset) (hi : ¬ i < mm.clusterMaxSize.toNat) :
    Moves D rc mm x (endLoop D mm count)
  /-- The call is made again. -/
  | again (hpc : mm.pc = .returned) : Moves D rc mm x (getAndMembers D mm)

theorem step_moves (h : mm.step D rc x = .ok mm') : Moves D rc mm x mm' := by
  unfold step at h
  cases hpc : mm.pc with
  | head count =>
    simp only [hpc] at h
    split_ifs at h with hgo
    · cases h; exact .enter hpc hgo
    · cases h; exact .leave hpc hgo
  | clearing count i =>
    simp only [hpc] at h
    split_ifs at h with hi
    · cases hv : mm.members[i]? with
      | none => simp only [hv] at h; cases h
      | some v =>
        cases v with
        | none => simp only [hv] at h; cases h; exact .empty hpc hi hv
        | some mi => simp only [hv] at h; cases h; exact .filled hpc hi hv
    · cases h; exact .cleared hpc hi
  | request count =>
    cases hx : x.failure with
    | some e => simp only [hpc, hx] at h; cases h; exact .unwritten hpc hx
    | none => simp only [hpc, hx] at h; cases h; exact .written hpc hx
  | requested count =>
    cases hx : x.failure with
    | some e => simp only [hpc, hx] at h; cases h; exact .refused hpc hx
    | none => simp only [hpc, hx] at h; cases h; exact .taken hpc hx
  | serving count w size i sent =>
    simp only [hpc, getIter] at h
    split_ifs at h with hi hb
    · cases hm : rc.members[i]? with
      | none => simp only [hm] at h; cases h
      | some m =>
        cases ht : m.token D with
        | error e => simp only [hm, ht] at h; cases h; exact .noToken hpc hi hb hm ht
        | ok t => simp only [hm, ht] at h; cases h; exact .token hpc hi hb hm ht
    · cases h; exact .skipped hpc hi (by simpa using hb)
    · cases h; exact .sentAll hpc hi
  | response count msg =>
    cases hx : x.failure with
    | some e => simp only [hpc, hx] at h; cases h; exact .unread hpc hx
    | none =>
      simp only [hpc, hx] at h
      split_ifs at h with hany
      · cases h; exact .read hpc hx hany
      · cases h; exact .readNone hpc hx hany
  | unpacking count which tokens i offset =>
    simp only [hpc] at h
    split_ifs at h with hi hb
    · cases ht : tokens[offset]? with
      | none => simp only [ht] at h; cases h
      | some t =>
        cases hd : newMemberInfoFromToken D x.draw (some t) with
        | error e => simp only [ht, unpack, hd] at h; cases h; exact .bad hpc hi hb ht hd
        | ok mi => simp only [ht, unpack, hd] at h; cases h; exact .good hpc hi hb ht hd
    · cases h; exact .unasked hpc hi (by simpa using hb)
    · cases h; exact .unpacked hpc hi
  | returned => simp only [hpc] at h; cases h; exact .again hpc

/-! The slots that count. -/

/-- The client without the slots from `ClusterMaxSize` on. -/
def cut (mm : MemberMaker) : MemberMaker :=
  { mm with members := mm.members.take mm.clusterMaxSize.toNat }

theorem finish_cut (mm : MemberMaker) : mm.finish.cut = mm.cut.finish := by
  unfold finish cut
  cases mm.err with
  | some e => rfl
  | none => simp only [List.take_take, min_self]

theorem endLoop_cut (mm : MemberMaker) (count : ℕ) : (mm.endLoop D count).cut = mm.cut.endLoop D count := by
  unfold endLoop
  by_cases hany : D.bits.any mm.stillToGet = true
  · rw [if_pos hany, if_pos (show D.bits.any mm.cut.stillToGet = true from hany)]
    rfl
  · rw [if_neg hany, if_neg (show ¬ D.bits.any mm.cut.stillToGet = true from hany)]
    exact mm.finish_cut

/-- A poll does not need the slots past the client's size. -/
theorem step_cut (h : mm.step D rc x = .ok mm') : mm.cut.step D rc x = .ok mm'.cut := by
  have hget : ∀ i < mm.clusterMaxSize.toNat,
      (mm.members.take mm.clusterMaxSize.toNat)[i]? = mm.members[i]? :=
    fun i hi => List.getElem?_take_of_lt hi
  cases step_moves h with
  | enter hpc hgo => simp only [step, cut, hpc, hgo, and_self, if_true]
  | leave hpc hno =>
    have hpc' : mm.cut.pc = _ := hpc
    rw [finish_cut]
    simp only [step, hpc']
    exact if_neg hno
  | empty hpc hi hv => simp only [step, cut, hpc, hi, if_true, hget _ hi, hv]
  | filled hpc hi hv => simp only [step, cut, hpc, hi, if_true, hget _ hi, hv]
  | cleared hpc hi => simp only [step, cut, hpc, hi, if_false]
  | unwritten hpc hx =>
    simp only [step, cut, hpc, hx]
    rfl
  | written hpc hx => simp only [step, cut, hpc, hx]
  | refused hpc hx => simp only [step, cut, hpc, hx]
  | taken hpc hx => simp only [step, cut, hpc, hx]
  | noToken hpc hi hb hm ht => simp only [step, cut, hpc, hi, if_true, getIter, hb, hm, ht, answered]
  | token hpc hi hb hm ht => simp only [step, cut, hpc, hi, if_true, getIter, hb, hm, ht]
  | skipped hpc hi hb => simp only [step, cut, hpc, hi, if_true, getIter, hb, if_false, Bool.false_eq_true]
  | sentAll hpc hi => simp only [step, cut, hpc, hi, if_false, answered]
  | unread hpc hx =>
    simp only [step, cut, hpc, hx]
    rfl
  | read hpc hx hany => simp only [step, cut, hpc, hx, hany, if_true]
  | readNone hpc hx hany =>
    have hpc' : mm.cut.pc = _ := hpc
    rw [endLoop_cut]
    simp only [step, hpc', hx, if_neg hany]
    rfl
  | bad hpc hi hb ht hd => simp only [step, cut, hpc, hi, hb, if_true, ht, unpack, hd, List.take_set]
  | good hpc hi hb ht hd => simp only [step, cut, hpc, hi, hb, if_true, ht, unpack, hd, List.take_set]
  | unasked hpc hi hb => simp only [step, cut, hpc, hi, hb, if_true, if_false, Bool.false_eq_true]
  | unpacked hpc hi =>
    have hpc' : mm.cut.pc = _ := hpc
    rw [endLoop_cut]
    simp only [step, hpc']
    exact if_neg hi
  | again hpc => simp only [step, cut, hpc, getAndMembers]

end XlReg.MemberMaker
