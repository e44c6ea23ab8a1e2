import XlReg.Proofs.CredText

/-! Which texts make a parser fault. Every fault is an index out of range: a loop peeks at the next
line when there is none, or the second part of a line is looked at when it has only one. All other
steps report an error instead, so that a fault is a matter of where the text breaks off. -/

namespace XlReg

open Text Lines Lines.Parser

variable {D : Deps} {H : Host} {T : Texts} {addr : ℕ}

theorem safe_nextNBLine : Safe T.nextNBLine := safe_next T.exhausted

/-! Clients. -/

/-- A closing brace stands where it is peeked at: first, or right after a line that is not blank. -/
def BracePeeked (ls : List String) : Prop :=
  ∃ pre c post, ls = pre ++ c :: post ∧ trimSpace c = "\x7d" ∧ EndsInLine pre

theorem bracePeeked_closing {l : String} (h : trimSpace l = "\x7d") (ls : List String) :
    BracePeeked (l :: ls) :=
  ⟨[], l, ls, rfl, h, by simp [EndsInLine]⟩

theorem bracePeeked_round {bs mid : List String} {k : String} (hbs : ∀ b ∈ bs, trimSpace b = "")
    (hk : trimSpace k ≠ "") (hopen : bs = [] → trimSpace k ≠ "\x7d") :
    BracePeeked (bs ++ k :: mid) ↔ BracePeeked mid := by
  have hnot : ∀ c ∈ bs, trimSpace c ≠ "\x7d" := by
    intro c hc
    rw [hbs c hc]
    decide
  constructor
  · rintro ⟨pre, c, post, heq, hc, hend⟩
    -- a brace right after blank lines only is no other than `k`
    have hfirst : pre = bs → c ≠ k := by
      rintro rfl rfl
      exact hopen (eq_nil_of_blank hbs hend) hc
    rcases List.append_eq_append_iff.1 heq with ⟨as, hpre, hrest⟩ | ⟨as, hpre, hrest⟩
    · rcases as with - | ⟨a, as⟩
      · obtain ⟨rfl, -⟩ := List.cons.inj hrest
        exact absurd rfl (hfirst (by simpa using hpre))
      · obtain ⟨rfl, rfl⟩ := List.cons.inj hrest
        have hpre' : pre = (bs ++ [k]) ++ as := by simpa using hpre
        rw [hpre'] at hend
        exact ⟨as, c, post, rfl, hc, endsInLine_right hend⟩
    · rcases as with - | ⟨a, as⟩
      · obtain ⟨rfl, -⟩ := List.cons.inj hrest
        exact absurd rfl (hfirst (by simpa using hpre.symm))
      · obtain ⟨rfl, -⟩ := List.cons.inj hrest
        exact absurd hc (hnot _ (by rw [hpre]; simp))
  · rintro ⟨pre, c, post, rfl, hc, hend⟩
    refine ⟨(bs ++ [k]) ++ pre, c, post, by simp, hc, endsInLine_append ?_ hend⟩
    simpa [EndsInLine] using hk

theorem bracePeeked_blank {ls : List String} (h : nonBlank ls = []) : ¬ BracePeeked ls := by
  rintro ⟨pre, c, post, rfl, hc, -⟩
  have hblank := nonBlank_eq_nil_iff.1 h c (by simp)
  rw [hc] at hblank
  exact absurd hblank (by decide)

/-- The loop over the end points leaves at a closing brace and in no other way. -/
theorem collectEnds_cases (ls : List String) (s : List String × Option Err) :
    (BracePeeked ls ∧ ∃ s' rest, loop .indexOutOfRange "\x7d" (collectEnd T) s ls = .ok s' rest) ∨
    (¬ BracePeeked ls ∧ loop .indexOutOfRange "\x7d" (collectEnd T) s ls = .fault .indexOutOfRange) := by
  induction hn : ls.length using Nat.strong_induction_on generalizing ls s with
  | _ n ih =>
    cases ls with
    | nil => exact .inr ⟨bracePeeked_blank rfl, loop_nil s⟩
    | cons l ls =>
      by_cases hl : trimSpace l = "\x7d"
      · exact .inl ⟨bracePeeked_closing hl ls, s, _, loop_closed hl s ls⟩
      rw [loop_cons (shrinks_collectEnd T) hl]
      cases hnext : (next T.exhausted : Parse String) (l :: ls) with
      | fault x => exact absurd hnext (safe_next _ _ x)
      | error e =>
        -- the error is kept, and the next round peeks at nothing
        have hround : collectEnd T s (l :: ls) = .ok (s.1, some e) [] := by
          unfold collectEnd Texts.nextNBLine
          rw [hnext]
        have hblank : nonBlank (l :: ls) = [] := by
          rcases hnb : nonBlank (l :: ls) with - | ⟨t, ts⟩
          · rfl
          · obtain ⟨rest, h, -⟩ := next_of_nonBlank (e := T.exhausted) (φ := Abort) hnb
            rw [h] at hnext
            cases hnext
        rw [bind_of_ok hround]
        exact .inr ⟨bracePeeked_blank hblank, loop_nil _⟩
      | ok t mid =>
        have hround : collectEnd T s (l :: ls) = .ok (s.1 ++ [t], none) mid := by
          unfold collectEnd Texts.nextNBLine
          rw [hnext]
        have hlen : mid.length < n := by
          rw [← hn]
          exact next_length hnext
        obtain ⟨bs, k, heq, hbs, rfl, hk⟩ := next_ok_iff.1 hnext
        have hopen : bs = [] → trimSpace k ≠ "\x7d" := by
          rintro rfl
          obtain ⟨rfl, -⟩ := List.cons.inj heq
          exact hl
        rw [bind_of_ok hround, heq, bracePeeked_round hbs hk hopen]
        exact ih mid.length hlen mid _ rfl

/-- A client's text breaks off in the section of its end points. -/
def ClientBreaksOff (T : Texts) (ls : List String) : Prop :=
  ∃ bn mid attrs rest ends, T.parseBNFromStrings "clientInfo" ls = .ok (bn, mid) ∧
    collectClientAttrs T mid = .ok attrs rest ∧ Cut rest ["endPoints \x7b"] ends ∧ ¬ BracePeeked ends

theorem safe_collectClientAttrs : Safe (collectClientAttrs T) := by
  refine (safe_next _).bind fun line => ?_
  split
  · exact safe_fail _
  · refine (safe_ofExcept _).bind fun val => ?_
    split_ifs
    · exact safe_fail _
    · exact safe_pure _

theorem collectMyEnds_fault_iff {ls : List String} {x : Abort} :
    collectMyEnds T ls = .fault x ↔
      x = .indexOutOfRange ∧ ∃ ends, Cut ls ["endPoints \x7b"] ends ∧ ¬ BracePeeked ends := by
  unfold collectMyEnds
  rw [bind_fault_iff_of_safe safe_nextNBLine]
  constructor
  · rintro ⟨line, mid, hline, h⟩
    split_ifs at h with heq
    · subst heq
      rcases collectEnds_cases (T := T) mid ([], none) with ⟨-, ⟨ends, err⟩, rest, hok⟩ | ⟨hno, hf⟩
      · rw [bind_of_ok hok] at h
        cases err with
        | some e => exact absurd h (safe_fail e rest x)
        | none => exact absurd h ((safe_expect _ _ _).bind (fun _ => safe_pure _) rest x)
      · rcases bind_fault_iff.1 h with h' | ⟨a, rest, h', -⟩
        · rw [hf] at h'
          cases h'
          exact ⟨rfl, mid, next_iff_cut.1 hline, hno⟩
        · rw [hf] at h'
          cases h'
    · cases h
  · rintro ⟨rfl, mid, hcut, hno⟩
    refine ⟨_, mid, next_iff_cut.2 hcut, ?_⟩
    rw [if_pos rfl]
    rcases collectEnds_cases (T := T) mid ([], none) with ⟨hyes, -⟩ | ⟨-, hf⟩
    · exact absurd hyes hno
    · exact bind_fault_iff.2 (.inl hf)

theorem clientInfo_fault_iff {ls : List String} {x : Abort} :
    parseClientInfoFromStrings T addr ls = .fault x ↔ x = .indexOutOfRange ∧ ClientBreaksOff T ls := by
  unfold parseClientInfoFromStrings
  rw [bind_fault_iff_of_safe (safe_lift _)]
  constructor
  · rintro ⟨bn, mid, hbn, h⟩
    obtain ⟨attrs, rest, hattrs, h⟩ := (bind_fault_iff_of_safe safe_collectClientAttrs).1 h
    rcases bind_fault_iff.1 h with hends | ⟨ends, l, -, h⟩
    · obtain ⟨rfl, ends, hcut, hno⟩ := collectMyEnds_fault_iff.1 hends
      exact ⟨rfl, bn, mid, attrs, rest, ends, lift_ok_iff.1 hbn, hattrs, hcut, hno⟩
    · have hsafe : Safe (T.closingBrace >>= fun _ =>
          (pure ⟨addr, bn.name, bn.nodeID, bn.commsPubKey, bn.sigPubKey, attrs, ends⟩ : Parse ClientInfo)) :=
        (safe_expect _ _ _).bind fun _ => safe_pure _
      exact absurd h (hsafe l x)
  · rintro ⟨rfl, bn, mid, attrs, rest, ends, hbn, hattrs, hcut, hno⟩
    refine ⟨bn, mid, lift_ok_iff.2 hbn, ?_⟩
    rw [bind_of_ok hattrs]
    exact bind_fault_iff.2 (.inl (collectMyEnds_fault_iff.2 ⟨rfl, ends, hcut, hno⟩))

/-! Clusters. -/

/-- After members that are added to `rc` one by one no line is left, or the text of the next one
breaks off. -/
inductive MembersBreakOff (D : Deps) (T : Texts) (addr : ℕ) : RegCluster → List String → Prop
  | ends (rc : RegCluster) : MembersBreakOff D T addr rc []
  | client {rc : RegCluster} {l : String} {ls : List String} (hl : trimSpace l ≠ "\x7d")
      (hc : ClientBreaksOff T (l :: ls)) : MembersBreakOff D T addr rc (l :: ls)
  | member {rc rc' : RegCluster} {l : String} {ls rest : List String} {mi : ClientInfo}
      (hl : trimSpace l ≠ "\x7d")
      (hc : parseClientInfoFromStrings T (addr + rc.members.length) (l :: ls) = .ok mi rest)
      (ha : rc.addMember D mi = (rc', none)) (hrest : MembersBreakOff D T addr rc' rest) :
      MembersBreakOff D T addr rc (l :: ls)

/-- A cluster's text breaks off in the section of its members. -/
def ClusterBreaksOff (D : Deps) (T : Texts) (addr : ℕ) (ls : List String) : Prop :=
  ∃ rc mid rest, clusterHead D T ls = .ok rc mid ∧ Cut mid ["Members \x7b"] rest ∧
    MembersBreakOff D T addr rc rest

theorem collectMember_ok_iff {rc rc' : RegCluster} {ls rest : List String} :
    collectMember D T addr rc ls = .ok rc' rest ↔
      ∃ mi, parseClientInfoFromStrings T (addr + rc.members.length) ls = .ok mi rest ∧
        rc.addMember D mi = (rc', none) := by
  unfold collectMember
  rw [bind_ok_iff]
  constructor
  · rintro ⟨mi, mid, hmi, h⟩
    rcases ha : rc.addMember D mi with ⟨rc₁, - | e⟩
    · rw [ha] at h
      cases h
      exact ⟨mi, hmi, ha⟩
    · rw [ha] at h
      cases h
  · rintro ⟨mi, hmi, ha⟩
    refine ⟨mi, rest, hmi, ?_⟩
    rw [ha]
    rfl

theorem collectMember_fault_iff {rc : RegCluster} {ls : List String} {x : Abort} :
    collectMember D T addr rc ls = .fault x ↔ x = .indexOutOfRange ∧ ClientBreaksOff T ls := by
  have hclient : parseClientInfoFromStrings T (addr + rc.members.length) ls = .fault x ↔ _ :=
    clientInfo_fault_iff
  unfold collectMember
  rw [bind_fault_iff, ← hclient]
  constructor
  · rintro (h | ⟨mi, rest, -, h⟩)
    · exact h
    · rcases ha : rc.addMember D mi with ⟨rc₁, - | e⟩
      · rw [ha] at h
        cases h
      · rw [ha] at h
        cases h
  · exact .inl

theorem collectMembers_fault_iff (rc : RegCluster) (ls : List String) (x : Abort) :
    loop .indexOutOfRange "\x7d" (collectMember D T addr) rc ls = .fault x ↔
      x = .indexOutOfRange ∧ MembersBreakOff D T addr rc ls := by
  have hshrinks := fun rc => (takes_collectMember D T addr rc).shrinks
  constructor
  · -- on the number of lines, of which every member takes one
    intro h
    induction hn : ls.length using Nat.strong_induction_on generalizing rc ls with
    | _ n ih =>
      cases ls with
      | nil =>
        cases h
        exact ⟨rfl, .ends rc⟩
      | cons l ls =>
        by_cases hl : trimSpace l = "\x7d"
        · rw [loop_closed hl] at h
          cases h
        rw [loop_cons hshrinks hl] at h
        rcases bind_fault_iff.1 h with hf | ⟨rc', rest, hok, h'⟩
        · obtain ⟨rfl, hc⟩ := collectMember_fault_iff.1 hf
          exact ⟨rfl, .client hl hc⟩
        · have hlt := takes_collectMember D T addr rc _ _ _ hok
          obtain ⟨mi, hmi, ha⟩ := collectMember_ok_iff.1 hok
          obtain ⟨rfl, hrest⟩ := ih rest.length (hn ▸ hlt) rc' rest h' rfl
          exact ⟨rfl, .member hl hmi ha hrest⟩
  · rintro ⟨rfl, h⟩
    induction h with
    | ends rc => exact loop_nil rc
    | client hl hc =>
      rw [loop_cons hshrinks hl]
      exact bind_fault_iff.2 (.inl (collectMember_fault_iff.2 ⟨rfl, hc⟩))
    | member hl hc ha _ ih =>
      rw [loop_cons hshrinks hl, bind_of_ok (collectMember_ok_iff.2 ⟨_, hc, ha⟩)]
      exact ih

theorem safe_clusterLine {α : Type} (tag : String) (read : String → Except Err α) :
    Safe (clusterLine T tag read) := by
  refine (safe_next _).bind fun line => ?_
  split
  · exact safe_fail _
  · exact safe_ofExcept _

theorem safe_clusterHead : Safe (clusterHead D T) :=
  (safe_expect _ _ _).bind fun _ => (safe_clusterLine _ _).bind fun _ => (safe_clusterLine _ _).bind fun _ =>
    (safe_clusterLine _ _).bind fun _ => (safe_clusterLine _ _).bind fun _ =>
      (safe_clusterLine _ _).bind fun _ => safe_ofExcept _

theorem regCluster_fault_iff {ls : List String} {x : Abort} :
    parseRegClusterFromStrings D T addr ls = .fault x ↔
      x = .indexOutOfRange ∧ ClusterBreaksOff D T addr ls := by
  unfold parseRegClusterFromStrings
  rw [bind_fault_iff_of_safe safe_clusterHead]
  constructor
  · rintro ⟨rc, mid, hhead, h⟩
    obtain ⟨⟨⟩, rest, hopen, h⟩ := (bind_fault_iff_of_safe (safe_expect _ _ _)).1 h
    rcases bind_fault_iff.1 h with hloop | ⟨rc', l, -, h⟩
    · obtain ⟨rfl, hm⟩ := (collectMembers_fault_iff rc rest x).1 hloop
      exact ⟨rfl, rc, mid, rest, hhead, nextNBLine_expect.1 hopen, hm⟩
    · have hsafe : Safe (T.closingBrace >>= fun _ => T.closingBrace >>= fun _ =>
          (pure rc' : Parse RegCluster)) :=
        (safe_expect _ _ _).bind fun _ => (safe_expect _ _ _).bind fun _ => safe_pure _
      exact absurd h (hsafe l x)
  · rintro ⟨rfl, rc, mid, rest, hhead, hcut, hm⟩
    refine ⟨rc, mid, hhead, ?_⟩
    rw [bind_of_ok (nextNBLine_expect.2 hcut)]
    exact bind_fault_iff.2 (.inl ((collectMembers_fault_iff rc rest _).2 ⟨rfl, hm⟩))

/-! The registry's node. -/

/-- Where a private key is expected there is a line with its tag alone. -/
def NodeBreaksOff (T : Texts) (ls : List String) : Prop :=
  ∃ body node mid rest, (Cut ls ["regNode \x7b"] body ∨ nonBlank ls = [] ∧ body = []) ∧
    T.parseNodeFromStrings body = .ok (node, mid) ∧
    (Cut mid ["ckPriv"] rest ∨
      ∃ key keys, privateKey T "ckPriv" mid = .ok key keys ∧ Cut keys ["skPriv"] rest)

theorem parts_of_noSep {v : String} (h : NoSep v) : parts v = [v] := by
  rcases splitPair_cases ':' ' ' v.toList with ⟨-, heq⟩ | ⟨x, y, -, heq, -⟩
  · rw [parts, heq]
    simp
  · exact absurd ⟨x, y, by simpa using heq.symm⟩ h

theorem parts_single {line v : String} (h : (parts line)[0]? = some v) (h' : (parts line)[1]? = none) :
    line = v := by
  rcases hp : splitPair ':' ' ' line.toList with - | ⟨x, - | ⟨y, zs⟩⟩
  · exact absurd hp (splitPair_ne_nil _ _ _)
  · obtain ⟨rfl, -⟩ := splitPair_eq_single hp
    rw [parts, hp] at h
    simpa using h
  · rw [parts, hp] at h'
    simp at h'

theorem privateKey_fault_iff {tag : String} (htag : NoSep tag) {ls : List String} {x : Abort} :
    privateKey T tag ls = .fault x ↔ x = .indexOutOfRange ∧ ∃ rest, Cut ls [tag] rest := by
  unfold privateKey
  rw [bind_fault_iff_of_safe safe_nextNBLine]
  constructor
  · rintro ⟨line, mid, hline, h⟩
    split_ifs at h with ht
    · cases hv : (parts line)[1]? with
      | none =>
        rw [hv] at h
        cases h
        obtain rfl := parts_single ht hv
        exact ⟨rfl, mid, next_iff_cut.1 hline⟩
      | some v =>
        rw [hv] at h
        dsimp only at h
        split_ifs at h
        · exact absurd h (safe_lift _ mid x)
        · cases h
    · cases h
  · rintro ⟨rfl, rest, hcut⟩
    refine ⟨tag, rest, next_iff_cut.2 hcut, ?_⟩
    rw [parts_of_noSep htag, if_pos (by simp)]
    rfl

theorem regNodeBody_fault_iff {ls : List String} {x : Abort} :
    regNodeBody T ls = .fault x ↔ x = .indexOutOfRange ∧
      ∃ node mid rest, T.parseNodeFromStrings ls = .ok (node, mid) ∧ (Cut mid ["ckPriv"] rest ∨
        ∃ key keys, privateKey T "ckPriv" mid = .ok key keys ∧ Cut keys ["skPriv"] rest) := by
  unfold regNodeBody
  rw [bind_fault_iff_of_safe (safe_lift _)]
  constructor
  · rintro ⟨node, mid, hnode, h⟩
    rcases bind_fault_iff.1 h with hck | ⟨key, keys, hck, h⟩
    · obtain ⟨rfl, rest, hcut⟩ := (privateKey_fault_iff (by decide)).1 hck
      exact ⟨rfl, node, mid, rest, lift_ok_iff.1 hnode, .inl hcut⟩
    rcases bind_fault_iff.1 h with hsk | ⟨key', l, -, h⟩
    · obtain ⟨rfl, rest, hcut⟩ := (privateKey_fault_iff (by decide)).1 hsk
      exact ⟨rfl, node, mid, rest, lift_ok_iff.1 hnode, .inr ⟨key, keys, hck, hcut⟩⟩
    · obtain ⟨⟨⟩, l', -, h⟩ := (bind_fault_iff_of_safe (safe_expect _ _ _)).1 h
      cases ho : T.openAcc node with
      | some e =>
        rw [ho] at h
        cases h
      | none =>
        rw [ho] at h
        exact absurd h (safe_ofExcept _ l' x)
  · rintro ⟨rfl, node, mid, rest, hnode, hcut | ⟨key, keys, hck, hcut⟩⟩
    · exact ⟨node, mid, lift_ok_iff.2 hnode,
        bind_fault_iff.2 (.inl ((privateKey_fault_iff (by decide)).2 ⟨rfl, rest, hcut⟩))⟩
    · refine ⟨node, mid, lift_ok_iff.2 hnode, ?_⟩
      rw [bind_of_ok hck]
      exact bind_fault_iff.2 (.inl ((privateKey_fault_iff (by decide)).2 ⟨rfl, rest, hcut⟩))

theorem regNode_fault_iff {ls : List String} {x : Abort} :
    parseRegNodeFromStrings T ls = .fault x ↔ x = .indexOutOfRange ∧ NodeBreaksOff T ls := by
  have hbody : parseRegNodeFromStrings T ls = .fault x ↔
      ∃ body, (Cut ls ["regNode \x7b"] body ∨ nonBlank ls = [] ∧ body = []) ∧
        regNodeBody T body = .fault x := by
    unfold parseRegNodeFromStrings Texts.nextNBLine
    rcases hnb : nonBlank ls with - | ⟨t, ts⟩
    · have hnext : (next T.exhausted : Parse String) ls = .error T.exhausted := next_of_blank hnb
      rw [hnext]
      constructor
      · intro h
        exact ⟨[], .inr ⟨rfl, rfl⟩, h⟩
      · rintro ⟨body, hcut | ⟨-, rfl⟩, h⟩
        · have hnil := hcut.nonBlank_eq
          rw [hnb] at hnil
          cases hnil
        · exact h
    · obtain ⟨rest, hnext, -⟩ := next_of_nonBlank (e := T.exhausted) (φ := Abort) hnb
      rw [hnext]
      dsimp only
      constructor
      · intro h
        split_ifs at h with ht
        · obtain rfl : t = "regNode \x7b" := not_not.1 ht
          exact ⟨rest, .inl (next_iff_cut.1 hnext), h⟩
      · rintro ⟨body, hcut | ⟨hnil, -⟩, h⟩
        · have hnext' := next_iff_cut (e := T.exhausted) (φ := Abort) |>.2 hcut
          rw [hnext] at hnext'
          cases hnext'
          rw [if_neg (by simp)]
          exact h
        · cases hnil
  rw [hbody]
  simp only [regNodeBody_fault_iff]
  constructor
  · rintro ⟨body, hb, hx, node, mid, rest, hnode, hcut⟩
    exact ⟨hx, body, node, mid, rest, hb, hnode, hcut⟩
  · rintro ⟨hx, body, node, mid, rest, hb, hnode, hcut⟩
    exact ⟨body, hb, hx, node, mid, rest, hnode, hcut⟩

/-- The four parsers return a value or an error unless the text breaks off at such a place. -/
theorem parsers_fault_iff (D : Deps) (H : Host) (T : Texts) (addr : ℕ) (ls : List String) (s : String) :
    ((∀ x, parseRegClusterFromStrings D T addr ls ≠ .fault x) ↔ ¬ ClusterBreaksOff D T addr ls) ∧
    ((∀ x, parseClientInfoFromStrings T addr ls ≠ .fault x) ↔ ¬ ClientBreaksOff T ls) ∧
    ((∀ x, parseRegCred D H T s ≠ .error x) ↔ ¬ CredBreaksOff D T s) ∧
    ((∀ x, parseRegNodeFromStrings T ls ≠ .fault x) ↔ ¬ NodeBreaksOff T ls) := by
  refine ⟨?_, ?_, ?_, ?_⟩
  · simp [regCluster_fault_iff]
  · simp [clientInfo_fault_iff]
  · rw [← faults_iff (H := H), not_exists]
  · simp [regNode_fault_iff]

set_option maxRecDepth 8000 in
/-- Texts that end right after a section was opened, and a line with a tag alone. -/
theorem parsers_fault :
    parseRegClusterFromStrings .plain .plain 0 ((Sample.cluster.strings .plain).take 7) =
        .fault .indexOutOfRange ∧
      parseClientInfoFromStrings .plain 0 (((Sample.client 0 "a" 1).strings .plain).take 7) =
        .fault .indexOutOfRange ∧
      parseRegCred .plain .plain .plain ("regCred \x7b\nName: a\nID: " ++ hexEncode (NodeID.rep 9).value ++
        "\nCommsPubKey: 1-3\nSigPubKey: 2-3\nEndPoints \x7b") = .error .indexOutOfRange ∧
      parseRegNodeFromStrings .plain ["regNode \x7b", "node", "ckPriv"] = .fault .indexOutOfRange :=
  ⟨rfl, rfl, by decide +kernel, rfl⟩

end XlReg
