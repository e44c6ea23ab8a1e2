import XlReg.Proofs.ClusterText
import XlReg.Proofs.Restart

/-! The text of a credential. What the parser makes of any text is said line by line: the lines it
has taken, the values on them, and where it stops. It stops after the version, so that a text may
lack its last brace or go on after it; and it takes a closing brace for one only where it peeks,
right after an end point. -/

namespace XlReg

open Text Lines Lines.Parser

variable {D : Deps} {H : Host} {T : Texts}

/-- The separator of a tag and its value does not occur. -/
def NoSep (s : String) : Prop := ¬ [':', ' '] <:+: s.toList

instance (s : String) : Decidable (NoSep s) := inferInstanceAs (Decidable (¬ _))

theorem parts_eq_two_iff {line t v : String} :
    parts line = [t, v] ↔ line = t ++ ": " ++ v ∧ NoSep t ∧ NoSep v := by
  have htwo : [t, v] = [t.toList, v.toList].map String.ofList := by simp
  have hinj : Function.Injective (List.map String.ofList) :=
    List.map_injective_iff.2 fun a b h => by simpa using congrArg String.toList h
  rw [parts, htwo, hinj.eq_iff, splitPair_eq_two_iff (by decide), ← String.toList_inj]
  simp [NoSep]

theorem credValue_ok_iff {tag line v : String} (htag : NoSep tag) :
    credValue tag line = .ok v ↔ line = tag ++ ": " ++ v ∧ NoSep v := by
  have htwo : credValue tag line = .ok v ↔ parts line = [tag, v] := by
    unfold credValue
    split
    · rename_i t v' hp
      rw [hp]
      split_ifs with ht
      · simp [ht]
      · simp [ht]
    · rename_i hp
      constructor
      · intro h
        cases h
      · intro h
        exact absurd h (hp tag v)
  rw [htwo, parts_eq_two_iff]
  simp [htag]

theorem credLine_ok_iff {α : Type} {tag : String} {read : String → Except Err α} {ls rest : List String}
    {a : α} (htag : NoSep tag) :
    credLine T tag read ls = .ok a rest ↔
      ∃ v, Cut ls [tag ++ ": " ++ v] rest ∧ NoSep v ∧ read v = .ok a := by
  rw [credLine, bind_ok_iff]
  constructor
  · rintro ⟨line, mid, hn, h⟩
    obtain ⟨v, mid', hv, ha⟩ := bind_ok_iff.1 h
    obtain ⟨hval, rfl⟩ := ofExcept_ok_iff.1 hv
    obtain ⟨hr, rfl⟩ := ofExcept_ok_iff.1 ha
    obtain ⟨rfl, hno⟩ := (credValue_ok_iff htag).1 hval
    exact ⟨v, next_iff_cut.1 hn, hno, hr⟩
  · rintro ⟨v, hcut, hno, hr⟩
    refine ⟨_, rest, next_iff_cut.2 hcut, ?_⟩
    rw [bind_of_ok (ofExcept_ok_iff.2 ⟨(credValue_ok_iff htag).2 ⟨rfl, hno⟩, rfl⟩)]
    exact ofExcept_ok_iff.2 ⟨hr, rfl⟩

/-- The values on the lines of a credential. -/
structure CredText where
  name : String
  id : String
  commsPubKey : String
  sigPubKey : String
  endPoints : List String
  version : String

namespace CredText

def opening (t : CredText) : List String :=
  ["regCred \x7b", "Name: " ++ t.name, "ID: " ++ t.id, "CommsPubKey: " ++ t.commsPubKey,
    "SigPubKey: " ++ t.sigPubKey, "EndPoints \x7b"]

def ends (t : CredText) : List String := t.endPoints.map ("TcpEndPoint: " ++ ·)

def lines (t : CredText) : List String :=
  t.opening ++ t.ends ++ ["\x7d", "Version: " ++ t.version, "\x7d"]

/-- The values up to the end points are valid, those of `rc`. -/
structure Opens (D : Deps) (T : Texts) (t : CredText) (rc : RegCred) : Prop where
  noSep : ∀ v ∈ [t.name, t.id, t.commsPubKey, t.sigPubKey], NoSep v
  name : trimLeftBlanks t.name = rc.name
  id : T.nodeID D t.id = .ok rc.id
  commsPubKey : T.rsaPubKeyFromDisk t.commsPubKey = .ok rc.commsPubKey
  sigPubKey : T.rsaPubKeyFromDisk t.sigPubKey = .ok rc.sigPubKey
  noSepEnds : ∀ v ∈ t.endPoints, NoSep v
  endPoints : t.endPoints.mapM D.newTcpEndPoint = .ok rc.endPoints

/-- All values are valid. -/
structure Denotes (D : Deps) (H : Host) (T : Texts) (t : CredText) (rc : RegCred) : Prop
    extends t.Opens D T rc where
  noSepVersion : NoSep t.version
  version : H.parseDecimalVersion t.version = .ok rc.version

end CredText

def endPointStep (D : Deps) (e : List EndPoint) (line : String) : Except Err (List EndPoint) := do
  let v ← credValue "TcpEndPoint" (trimSpace line)
  let ep ← D.newTcpEndPoint v
  pure (e ++ [ep])

theorem collectEndPoint_eq (e : List EndPoint) :
    collectEndPoint D T e = lineBody T.exhausted (endPointStep D) e := by
  funext ls
  change Parser.bind _ _ ls = Parser.bind _ _ ls
  unfold Parser.bind
  cases hn : T.nextNBLine ls with
  | error e' =>
    have hn' : (next T.exhausted : Parse String) ls = .error e' := hn
    rw [hn']
  | fault x =>
    have hn' : (next T.exhausted : Parse String) ls = .fault x := hn
    rw [hn']
  | ok line rest =>
    have hn' : (next T.exhausted : Parse String) ls = .ok line rest := hn
    rw [hn']
    simp only [endPointStep]
    cases credValue "TcpEndPoint" (trimSpace line) with
    | error e' => rfl
    | ok v =>
      change Parser.bind (ofExcept (D.newTcpEndPoint v)) _ rest =
        ofExcept (D.newTcpEndPoint v >>= fun ep => pure (e ++ [ep])) rest
      cases D.newTcpEndPoint v <;> rfl

theorem bind_eq_ok_iff {α β : Type} {x : Except Err α} {f : α → Except Err β} {b : β} :
    x >>= f = .ok b ↔ ∃ a, x = .ok a ∧ f a = .ok b := by
  cases x with
  | error e => simp [Bind.bind, Except.bind]
  | ok a => simp [Bind.bind, Except.bind]

theorem endPointStep_ok_iff {e e' : List EndPoint} {line : String} :
    endPointStep D e line = .ok e' ↔ ∃ v ep, trimSpace line = "TcpEndPoint: " ++ v ∧ NoSep v ∧
      D.newTcpEndPoint v = .ok ep ∧ e' = e ++ [ep] := by
  have hval : ∀ v, credValue "TcpEndPoint" (trimSpace line) = .ok v ↔
      trimSpace line = "TcpEndPoint: " ++ v ∧ NoSep v := fun v => credValue_ok_iff (by decide)
  unfold endPointStep
  constructor
  · intro h
    obtain ⟨v, hv, h'⟩ := bind_eq_ok_iff.1 h
    obtain ⟨ep, hep, heq⟩ := bind_eq_ok_iff.1 h'
    cases heq
    exact ⟨v, ep, ((hval v).1 hv).1, ((hval v).1 hv).2, hep, rfl⟩
  · rintro ⟨v, ep, hline, hno, hep, rfl⟩
    exact bind_eq_ok_iff.2 ⟨v, (hval v).2 ⟨hline, hno⟩, bind_eq_ok_iff.2 ⟨ep, hep, rfl⟩⟩

theorem foldlM_endPointStep {ts : List String} {e e' : List EndPoint}
    (htrim : ∀ t ∈ ts, trimSpace t = t) :
    ts.foldlM (endPointStep D) e = .ok e' ↔ ∃ (addrs : List String) (eps : List EndPoint),
      ts = addrs.map ("TcpEndPoint: " ++ ·) ∧ (∀ v ∈ addrs, NoSep v) ∧
        addrs.mapM D.newTcpEndPoint = .ok eps ∧ e' = e ++ eps := by
  induction ts generalizing e with
  | nil =>
    constructor
    · intro h
      cases h
      exact ⟨[], [], rfl, by simp, rfl, by simp⟩
    · rintro ⟨addrs, eps, hts, -, heps, rfl⟩
      obtain rfl : addrs = [] := by simpa using hts.symm
      cases heps
      simp
      rfl
  | cons t ts ih =>
    have hts : ∀ u ∈ ts, trimSpace u = u := fun u hu => htrim u (List.mem_cons_of_mem _ hu)
    rw [List.foldlM_cons, bind_eq_ok_iff]
    constructor
    · rintro ⟨e₁, hstep, hmore⟩
      obtain ⟨v, ep, ht, hno, hep, rfl⟩ := endPointStep_ok_iff.1 hstep
      obtain ⟨addrs, eps, rfl, hnos, heps, rfl⟩ := (ih hts).1 hmore
      refine ⟨v :: addrs, ep :: eps, ?_, by simpa [hno] using hnos, ?_, by simp⟩
      · rw [List.map_cons, ← ht, htrim t List.mem_cons_self]
      · rw [List.mapM_cons]
        exact bind_eq_ok_iff.2 ⟨ep, hep, bind_eq_ok_iff.2 ⟨eps, heps, rfl⟩⟩
    · rintro ⟨addrs, eps, htt, hnos, heps, rfl⟩
      cases addrs with
      | nil => cases htt
      | cons v addrs =>
        obtain ⟨rfl, rfl⟩ := List.cons.inj htt
        rw [List.mapM_cons] at heps
        obtain ⟨ep, hep, hmore⟩ := bind_eq_ok_iff.1 heps
        obtain ⟨eps', heps', heq⟩ := bind_eq_ok_iff.1 hmore
        cases heq
        refine ⟨e ++ [ep], endPointStep_ok_iff.2 ⟨v, ep, htrim _ List.mem_cons_self,
          hnos v List.mem_cons_self, hep, rfl⟩, (ih hts).2 ⟨addrs, eps', rfl, ?_, heps', by simp⟩⟩
        exact fun u hu => hnos u (List.mem_cons_of_mem _ hu)

theorem endPointStep_brace (e : List EndPoint) : ∃ err, endPointStep D e "\x7d" = .error err :=
  ⟨.illFormedRegCred, rfl⟩

theorem nextNBLine_expect {ls rest : List String} {wrong : Err} {t : String} :
    (expect T.exhausted wrong t : Parse Unit) ls = .ok () rest ↔ Cut ls [t] rest := by
  rw [expect_ok_iff, next_iff_cut]

theorem cut_trimmed {ls ts rest : List String} (h : Cut ls ts rest) : ∀ t ∈ ts, trimSpace t = t := by
  obtain ⟨front, -, rfl, -⟩ := h
  intro t ht
  simp only [nonBlank, List.mem_filter, List.mem_map] at ht
  obtain ⟨⟨l, -, rfl⟩, -⟩ := ht
  exact trimSpace_trimSpace l

section Lines

variable {ls rest : List String}

theorem credName_ok_iff {name : String} : credName T ls = .ok name rest ↔
    ∃ v, Cut ls ["Name: " ++ v] rest ∧ NoSep v ∧ Except.ok (ε := Err) (trimLeftBlanks v) = .ok name :=
  credLine_ok_iff (by decide)

theorem credID_ok_iff {id : NodeID} : credID D T ls = .ok id rest ↔
    ∃ v, Cut ls ["ID: " ++ v] rest ∧ NoSep v ∧ T.nodeID D v = .ok id :=
  credLine_ok_iff (by decide)

theorem credCommsPubKey_ok_iff {k : RSAPublicKey} : credCommsPubKey T ls = .ok k rest ↔
    ∃ v, Cut ls ["CommsPubKey: " ++ v] rest ∧ NoSep v ∧ T.rsaPubKeyFromDisk v = .ok k :=
  credLine_ok_iff (by decide)

theorem credSigPubKey_ok_iff {k : RSAPublicKey} : credSigPubKey T ls = .ok k rest ↔
    ∃ v, Cut ls ["SigPubKey: " ++ v] rest ∧ NoSep v ∧ T.rsaPubKeyFromDisk v = .ok k :=
  credLine_ok_iff (by decide)

theorem credVersion_ok_iff {x : DecimalVersion} : credVersion H T ls = .ok x rest ↔
    ∃ v, Cut ls ["Version: " ++ v] rest ∧ NoSep v ∧ H.parseDecimalVersion v = .ok x :=
  credLine_ok_iff (by decide)

end Lines

theorem credHead_ok_iff {ls rest : List String} {name : String} {id : NodeID} {ck sk : RSAPublicKey} :
    credHead D T ls = .ok (name, id, ck, sk) rest ↔
      ∃ n i c s, Cut ls ["regCred \x7b", "Name: " ++ n, "ID: " ++ i, "CommsPubKey: " ++ c,
          "SigPubKey: " ++ s, "EndPoints \x7b"] rest ∧ (∀ v ∈ [n, i, c, s], NoSep v) ∧
        trimLeftBlanks n = name ∧ T.nodeID D i = .ok id ∧ T.rsaPubKeyFromDisk c = .ok ck ∧
        T.rsaPubKeyFromDisk s = .ok sk := by
  unfold credHead
  constructor
  · intro h
    obtain ⟨⟨⟩, l₁, h₁, h⟩ := bind_ok_iff.1 h
    obtain ⟨name', l₂, h₂, h⟩ := bind_ok_iff.1 h
    obtain ⟨id', l₃, h₃, h⟩ := bind_ok_iff.1 h
    obtain ⟨ck', l₄, h₄, h⟩ := bind_ok_iff.1 h
    obtain ⟨sk', l₅, h₅, h⟩ := bind_ok_iff.1 h
    obtain ⟨⟨⟩, l₆, h₆, h⟩ := bind_ok_iff.1 h
    cases h
    obtain ⟨n, cn, hn, rn⟩ := credName_ok_iff.1 h₂
    obtain ⟨i, ci, hi, ri⟩ := credID_ok_iff.1 h₃
    obtain ⟨c, cc, hc, rc⟩ := credCommsPubKey_ok_iff.1 h₄
    obtain ⟨s, cs, hs, rs⟩ := credSigPubKey_ok_iff.1 h₅
    cases rn
    refine ⟨n, i, c, s, ?_, by simp [hn, hi, hc, hs], rfl, ri, rc, rs⟩
    exact (nextNBLine_expect.1 h₁).trans (cn.trans (ci.trans (cc.trans (cs.trans
      (nextNBLine_expect.1 h₆)))))
  · rintro ⟨n, i, c, s, hcut, hno, rfl, hid, hck, hsk⟩
    simp only [List.mem_cons, List.not_mem_nil, or_false, forall_eq_or_imp, forall_eq] at hno
    obtain ⟨hn, hi, hc, hs⟩ := hno
    obtain ⟨l₁, h₁, hcut⟩ := cut_cons_iff.1 hcut
    obtain ⟨l₂, h₂, hcut⟩ := cut_cons_iff.1 hcut
    obtain ⟨l₃, h₃, hcut⟩ := cut_cons_iff.1 hcut
    obtain ⟨l₄, h₄, hcut⟩ := cut_cons_iff.1 hcut
    obtain ⟨l₅, h₅, hcut⟩ := cut_cons_iff.1 hcut
    rw [bind_of_ok (nextNBLine_expect.2 h₁),
      bind_of_ok (credName_ok_iff.2 ⟨n, h₂, hn, rfl⟩),
      bind_of_ok (credID_ok_iff.2 ⟨i, h₃, hi, hid⟩),
      bind_of_ok (credCommsPubKey_ok_iff.2 ⟨c, h₄, hc, hck⟩),
      bind_of_ok (credSigPubKey_ok_iff.2 ⟨s, h₅, hs, hsk⟩),
      bind_of_ok (nextNBLine_expect.2 hcut)]
    rfl

theorem closingBrace_iff {c : String} {post rest : List String} (hc : trimSpace c = "\x7d") :
    T.closingBrace (c :: post) = .ok () rest ↔ rest = post := by
  have hne : trimSpace c ≠ "" := by
    rw [hc]
    decide
  rw [Texts.closingBrace, expect_ok_iff, next, if_neg hne]
  simp [hc, eq_comm]

theorem collectEndPoints_eq :
    loop .indexOutOfRange "\x7d" (collectEndPoint D T) =
      loop .indexOutOfRange "\x7d" (lineBody T.exhausted (endPointStep D)) := by
  rw [show collectEndPoint D T = lineBody T.exhausted (endPointStep D) from funext collectEndPoint_eq]

theorem parseRegCredLines_ok_iff {ls rest : List String} {rc : RegCred} :
    parseRegCredLines D H T ls = .ok rc rest ↔
      ∃ (t : CredText) (c : String) (post : List String), Cut ls (t.opening ++ t.ends) (c :: post) ∧
        trimSpace c = "\x7d" ∧ Cut post ["Version: " ++ t.version] rest ∧ t.Denotes D H T rc := by
  unfold parseRegCredLines
  rw [collectEndPoints_eq]
  constructor
  · intro h
    obtain ⟨⟨name, id, ck, sk⟩, l₁, h₁, h⟩ := bind_ok_iff.1 h
    obtain ⟨e, l₂, h₂, h⟩ := bind_ok_iff.1 h
    obtain ⟨⟨⟩, l₃, h₃, h⟩ := bind_ok_iff.1 h
    obtain ⟨v, l₄, h₄, h⟩ := bind_ok_iff.1 h
    cases h
    obtain ⟨n, i, c, s, hopen, hno, hn, hi, hc, hs⟩ := credHead_ok_iff.1 h₁
    obtain ⟨ts, b, post, rfl, hb, hends, hfold⟩ := (loop_ok_iff (by decide) endPointStep_brace).1 h₂
    obtain ⟨addrs, eps, rfl, hnos, heps, rfl⟩ := (foldlM_endPointStep (cut_trimmed hends)).1 hfold
    obtain ⟨w, hw, hnow, hv⟩ := credVersion_ok_iff.1 h₄
    -- the brace that ended the loop is the line read next
    obtain rfl := (closingBrace_iff hb).1 h₃
    exact ⟨⟨n, i, c, s, addrs, w⟩, b, l₃, hopen.trans hends, hb, hw, ⟨hno, hn, hi, hc, hs, hnos,
      by simpa using heps⟩, hnow, hv⟩
  · rintro ⟨t, c, post, hcut, hc, hver, hd⟩
    obtain ⟨mid, hopen, hends⟩ := cut_append_iff.1 hcut
    have hhead := credHead_ok_iff.2 ⟨t.name, t.id, t.commsPubKey, t.sigPubKey, hopen, hd.noSep, hd.name,
      hd.id, hd.commsPubKey, hd.sigPubKey⟩
    have hfold := (foldlM_endPointStep (e := []) (cut_trimmed hends)).2
      ⟨t.endPoints, rc.endPoints, rfl, hd.noSepEnds, hd.endPoints, rfl⟩
    have hloop := (loop_ok_iff (x := Abort.indexOutOfRange) (e := T.exhausted) (by decide)
      endPointStep_brace).2 ⟨t.ends, c, post, rfl, hc, hends, hfold⟩
    rw [bind_of_ok hhead]
    dsimp only
    rw [bind_of_ok hloop, bind_of_ok ((closingBrace_iff hc).2 rfl),
      bind_of_ok (credVersion_ok_iff.2 ⟨t.version, hver, hd.noSepVersion, hd.version⟩)]
    rfl

theorem safe_credLine {α : Type} (tag : String) (read : String → Except Err α) :
    Safe (credLine T tag read) :=
  (safe_next _).bind fun _ => (safe_ofExcept _).bind fun _ => safe_ofExcept _

theorem safe_credHead : Safe (credHead D T) :=
  (safe_expect _ _ _).bind fun _ => (safe_credLine _ _).bind fun _ => (safe_credLine _ _).bind fun _ =>
    (safe_credLine _ _).bind fun _ => (safe_credLine _ _).bind fun _ => (safe_expect _ _ _).bind fun _ =>
      safe_pure _

/-- The lines end with the opening or with an end point: there is none to peek at. -/
theorem parseRegCredLines_fault_iff {ls : List String} {x : Abort} :
    parseRegCredLines D H T ls = .fault x ↔ x = .indexOutOfRange ∧
      ∃ (t : CredText) (rc : RegCred), Cut ls (t.opening ++ t.ends) [] ∧ t.Opens D T rc := by
  unfold parseRegCredLines
  rw [collectEndPoints_eq, bind_fault_iff_of_safe safe_credHead]
  constructor
  · rintro ⟨⟨name, id, ck, sk⟩, mid, hhead, h⟩
    rcases bind_fault_iff.1 h with hloop | ⟨e, l₂, -, h⟩
    · obtain ⟨n, i, c, s, hopen, hno, hn, hi, hc, hs⟩ := credHead_ok_iff.1 hhead
      obtain ⟨rfl, ts, e, hends, hfold⟩ := (loop_fault_iff (by decide) endPointStep_brace).1 hloop
      obtain ⟨addrs, eps, rfl, hnos, heps, -⟩ := (foldlM_endPointStep (cut_trimmed hends)).1 hfold
      exact ⟨rfl, ⟨n, i, c, s, addrs, ""⟩, ⟨name, id, ck, sk, eps, 0⟩, hopen.trans hends, hno, hn, hi, hc,
        hs, hnos, heps⟩
    · -- nothing after the loop peeks
      have hsafe : Safe (T.closingBrace >>= fun _ => credVersion H T >>= fun version =>
          (pure ⟨name, id, ck, sk, e, version⟩ : Parse RegCred)) :=
        (safe_expect _ _ _).bind fun _ => (safe_credLine _ _).bind fun _ => safe_pure _
      exact absurd h (hsafe l₂ x)
  · rintro ⟨rfl, t, rc, hcut, ho⟩
    obtain ⟨mid, hopen, hends⟩ := cut_append_iff.1 hcut
    refine ⟨_, mid, credHead_ok_iff.2 ⟨t.name, t.id, t.commsPubKey, t.sigPubKey, hopen, ho.noSep, ho.name,
      ho.id, ho.commsPubKey, ho.sigPubKey⟩, ?_⟩
    have hfold := (foldlM_endPointStep (e := []) (cut_trimmed hends)).2
      ⟨t.endPoints, rc.endPoints, rfl, ho.noSepEnds, ho.endPoints, rfl⟩
    exact bind_fault_iff.2 (.inl ((loop_fault_iff (by decide) endPointStep_brace).2
      ⟨rfl, t.ends, _, hends, hfold⟩))

/-! The grammar. -/

section Grammar

variable (D H T) (s : String)

/-- The text is one of the grammar, each value valid. -/
def CredGrammar : Prop :=
  ∃ (t : CredText) (rc : RegCred), nonBlank (linesOf s) = t.lines ∧ t.Denotes D H T rc

/-- The text is one of the grammar up to the version. -/
def CredBegins : Prop :=
  ∃ (t : CredText) (rc : RegCred) (more : List String),
    nonBlank (linesOf s) = t.opening ++ t.ends ++ "\x7d" :: ("Version: " ++ t.version) :: more ∧
      t.Denotes D H T rc

/-- The text is one of the grammar up to some end point, and breaks off there without a newline. -/
def CredBreaksOff : Prop :=
  ∃ (t : CredText) (rc : RegCred), nonBlank (linesOf s) = t.opening ++ t.ends ∧
    EndsInLine (linesOf s) ∧ t.Opens D T rc

/-- There is no blank line right before the first closing brace. -/
def BraceAtOnce : Prop := EndsInLine ((linesOf s).takeWhile fun l => decide (trimSpace l ≠ "\x7d"))

/-- What is missing of a text of the grammar has its last brace. -/
def CredCutOff : Prop := ∃ more, CredGrammar D H T (s ++ more) ∧ ¬ AllSpace more

/-- Accepted if and only if it is one of the grammar, and reported if it is cut off. -/
structure CredRight : Prop where
  accepts : (∃ rc, parseRegCred D H T s = .ok (.ok rc)) ↔ CredGrammar D H T s
  rejects : CredCutOff D H T s → ∃ e, parseRegCred D H T s = .ok (.error e)

end Grammar

theorem append_ne_brace {tag : String} (h : tag.toList.head?.any (· != '\x7d') = true) (v : String) :
    tag ++ v ≠ "\x7d" := by
  intro heq
  have hl := congrArg (fun s => s.toList.head?) heq
  rcases ht : tag.toList with - | ⟨c, cs⟩
  · rw [ht] at h
    cases h
  · simp only [String.toList_append, ht, List.cons_append, List.head?_cons] at hl h
    have hc : c = '\x7d' := Option.some.inj hl
    rw [hc] at h
    cases h

theorem CredText.brace_notMem (t : CredText) : "\x7d" ∉ t.opening ++ t.ends := by
  intro hmem
  simp only [opening, ends, List.mem_append, List.mem_cons, List.not_mem_nil, or_false,
    List.mem_map] at hmem
  rcases hmem with (h | h | h | h | h | h) | ⟨a, -, h⟩
  · exact absurd h (by decide)
  · exact append_ne_brace (by decide) t.name h.symm
  · exact append_ne_brace (by decide) t.id h.symm
  · exact append_ne_brace (by decide) t.commsPubKey h.symm
  · exact append_ne_brace (by decide) t.sigPubKey h.symm
  · exact absurd h (by decide)
  · exact append_ne_brace (by decide) a h

theorem takeWhile_front {front post : List String} {c : String} (hfront : "\x7d" ∉ nonBlank front)
    (hc : trimSpace c = "\x7d") :
    (front ++ c :: post).takeWhile (fun l => decide (trimSpace l ≠ "\x7d")) = front := by
  rw [List.takeWhile_append_of_pos, List.takeWhile_cons_of_neg (by simp [hc]), List.append_nil]
  intro l hl
  rw [decide_eq_true_iff]
  intro heq
  apply hfront
  simp only [nonBlank, List.mem_filter, List.mem_map]
  exact ⟨⟨l, hl, heq⟩, by decide⟩

theorem accepted_iff {s : String} :
    (∃ rc, parseRegCred D H T s = .ok (.ok rc)) ↔ CredBegins D H T s ∧ BraceAtOnce s := by
  have hlines : (∃ rc, parseRegCred D H T s = .ok (.ok rc)) ↔
      ∃ rc rest, parseRegCredLines D H T (linesOf s) = .ok rc rest := by
    unfold parseRegCred
    cases parseRegCredLines D H T (linesOf s) <;> simp
  rw [hlines]
  constructor
  · rintro ⟨rc, rest, h⟩
    obtain ⟨t, c, post, hcut, hc, hver, hd⟩ := parseRegCredLines_ok_iff.1 h
    obtain ⟨front, hfront, hts, hend⟩ := hcut
    refine ⟨⟨t, rc, nonBlank rest, ?_, hd⟩, ?_⟩
    · rw [hfront, nonBlank_append, hts, nonBlank_cons, if_neg (by rw [hc]; decide), hc, hver.nonBlank_eq]
      rfl
    · have hno : "\x7d" ∉ nonBlank front := by
        rw [hts]
        exact t.brace_notMem
      rw [BraceAtOnce, hfront, takeWhile_front hno hc]
      exact hend
  · rintro ⟨⟨t, rc, more, hnb, hd⟩, hbrace⟩
    obtain ⟨mid, ⟨front, hfront, hts, hend⟩, hmid⟩ := exists_cut hnb
    obtain ⟨post, hn, hpost⟩ := next_of_nonBlank (e := ()) (φ := Unit) hmid
    obtain ⟨bs, c, rfl, hbs, hc, -⟩ := next_ok_iff.1 hn
    have hno : "\x7d" ∉ nonBlank (front ++ bs) := by
      rw [nonBlank_append, hts, nonBlank_eq_nil_iff.2 hbs, List.append_nil]
      exact t.brace_notMem
    -- the blank lines before the brace, if any, are right before it
    have hbs' : bs = [] := by
      rw [BraceAtOnce, hfront, ← List.append_assoc, takeWhile_front hno hc] at hbrace
      exact eq_nil_of_blank hbs (endsInLine_right hbrace)
    subst hbs'
    obtain ⟨rest, hver, -⟩ := exists_cut (show nonBlank post = ["Version: " ++ t.version] ++ more from hpost)
    exact ⟨rc, rest, parseRegCredLines_ok_iff.2 ⟨t, c, post, ⟨front, hfront, hts, hend⟩, hc, hver, hd⟩⟩

theorem faults_iff {s : String} :
    (∃ x, parseRegCred D H T s = .error x) ↔ CredBreaksOff D T s := by
  have hlines : (∃ x, parseRegCred D H T s = .error x) ↔
      ∃ x, parseRegCredLines D H T (linesOf s) = .fault x := by
    unfold parseRegCred
    cases parseRegCredLines D H T (linesOf s) <;> simp
  rw [hlines]
  constructor
  · rintro ⟨x, h⟩
    obtain ⟨-, t, rc, hcut, ho⟩ := parseRegCredLines_fault_iff.1 h
    obtain ⟨hnb, hend⟩ := cut_all_iff.1 hcut
    exact ⟨t, rc, hnb, hend, ho⟩
  · rintro ⟨t, rc, hnb, hend, ho⟩
    exact ⟨_, parseRegCredLines_fault_iff.2 ⟨rfl, t, rc, cut_all_iff.2 ⟨hnb, hend⟩, ho⟩⟩

theorem CredGrammar.begins {s : String} (h : CredGrammar D H T s) : CredBegins D H T s := by
  obtain ⟨t, rc, hnb, hd⟩ := h
  exact ⟨t, rc, ["\x7d"], hnb, hd⟩

theorem regCred_grammar_iff (D : Deps) (H : Host) (T : Texts) (s : String) :
    CredRight D H T s ↔ (CredBegins D H T s → (CredGrammar D H T s ↔ BraceAtOnce s)) ∧
      (CredCutOff D H T s → ¬ (CredBegins D H T s ∧ BraceAtOnce s) ∧ ¬ CredBreaksOff D T s) := by
  have herr : (∃ e, parseRegCred D H T s = .ok (.error e)) ↔
      ¬ (CredBegins D H T s ∧ BraceAtOnce s) ∧ ¬ CredBreaksOff D T s := by
    rw [← accepted_iff, ← faults_iff]
    rcases parseRegCred D H T s with x | (e | rc) <;> simp
  constructor
  · rintro ⟨haccept, hreject⟩
    rw [accepted_iff] at haccept
    refine ⟨fun hb => ?_, fun hcut => herr.1 (hreject hcut)⟩
    rw [← haccept]
    exact ⟨fun h => h.2, fun h => ⟨hb, h⟩⟩
  · rintro ⟨hbegins, hcut⟩
    refine ⟨?_, fun h => herr.2 (hcut h)⟩
    rw [accepted_iff]
    constructor
    · rintro ⟨hb, hat⟩
      exact (hbegins hb).2 hat
    · intro hg
      exact ⟨hg.begins, (hbegins hg.begins).1 hg⟩

/-! Whether a text is accepted, and whether it makes the parser fault, can be computed. -/

instance (r : Except Abort (Except Err RegCred)) : Decidable (∃ rc, r = .ok (.ok rc)) :=
  match r with
  | .ok (.ok rc) => .isTrue ⟨rc, rfl⟩
  | .ok (.error _) => .isFalse (by simp)
  | .error _ => .isFalse (by simp)

instance (r : Except Abort (Except Err RegCred)) (x : Abort) : Decidable (r = .error x) :=
  match r with
  | .ok _ => .isFalse (by simp)
  | .error y => decidable_of_iff (y = x) (by simp)

/-- A text with everything but its last brace. -/
def Sample.credText : String :=
  "regCred \x7b\nName: a\nID: " ++ hexEncode (NodeID.rep 9).value ++ "\nCommsPubKey: 1-3\n" ++
    "SigPubKey: 2-3\nEndPoints \x7b\nTcpEndPoint: h:1\n\x7d\nVersion: 1"

/-- It is accepted although it is cut off. -/
theorem regCred_cut_off_accepted :
    CredCutOff .plain .plain .plain Sample.credText ∧
      ∃ rc, parseRegCred .plain .plain .plain Sample.credText = .ok (.ok rc) := by
  refine ⟨⟨"\n\x7d", ⟨⟨"a", hexEncode (NodeID.rep 9).value, "1-3", "2-3", ["h:1"], "1"⟩,
    ⟨"a", .rep 9, ⟨1, 3⟩, ⟨2, 3⟩, [⟨"h:1"⟩], 0⟩, by decide +kernel, ?_⟩, by decide⟩, by decide +kernel⟩
  exact ⟨⟨by decide +kernel, rfl, nodeID_hexEncode _, rfl, rfl, by decide, rfl⟩, by decide, rfl⟩

/-! Parsing back what was written. -/

/-- A value that keeps to its line. -/
structure FitsLine (v : String) : Prop where
  trimmed : Trimmed v
  noSep : NoSep v
  oneLine : '\n' ∉ v.toList

/-- A key is written on one line, perhaps with a newline after it. -/
def KeyLine (H : Host) (k : RSAPublicKey) (line : String) : Prop :=
  '\n' ∉ line.toList ∧ ¬ AllSpace line ∧
    (H.rsaPubKeyToDisk k = .ok line ∨ H.rsaPubKeyToDisk k = .ok (line ++ "\n"))

/-- It is read back from its line once the white space at the end is gone. -/
def KeyText (H : Host) (T : Texts) (k : RSAPublicKey) : Prop :=
  ∃ line, KeyLine H k line ∧ NoSep line ∧ T.rsaPubKeyFromDisk (trimRight line) = .ok k

theorem noSep_of_notMem {v : String} (h : ':' ∉ v.toList) : NoSep v :=
  fun hin => h (hin.subset List.mem_cons_self)

theorem IsName.noSep {v : String} (h : IsName v) : NoSep v := by
  apply noSep_of_notMem
  intro hc
  rcases h.chars ':' hc with ha | ha
  · exact absurd ha (by decide)
  · exact absurd ha (by decide)

theorem IsName.fitsLine {v : String} (h : IsName v) : FitsLine v := by
  refine ⟨h.trimmed, h.noSep, fun hc => ?_⟩
  have hv := (h.visible hc).1
  exact absurd hv (by decide)

theorem IsName.trimLeftBlanks_eq {v : String} (h : IsName v) : trimLeftBlanks v = v := by
  have hdrop : v.toList.dropWhile (fun c => c == ' ' || c == '\t') = v.toList := by
    rw [dropWhile_eq_self_iff_head]
    intro c hc
    have hv := (h.visible (List.mem_of_mem_head? hc)).1
    simp only [Bool.or_eq_false_iff, beq_eq_false_iff_ne]
    constructor
    · rintro rfl
      exact absurd hv (by decide)
    · rintro rfl
      exact absurd hv (by decide)
  rw [trimLeftBlanks, hdrop, String.ofList_toList]

theorem fitsLine_hexEncode (id : NodeID) : FitsLine (hexEncode id.value) := by
  refine ⟨trimmed_hexEncode _ id.value_ne_nil, noSep_of_notMem fun hc => ?_, fun hc => ?_⟩
  · obtain ⟨d, hd, heq⟩ := mem_hexEncode hc
    interval_cases d <;> exact absurd heq (by decide)
  · obtain ⟨d, hd, heq⟩ := mem_hexEncode hc
    interval_cases d <;> exact absurd heq (by decide)

theorem mapM_addrs {eps : List EndPoint} (h : ∀ ep ∈ eps, D.newTcpEndPoint ep.addr = .ok ep) :
    (eps.map (·.addr)).mapM D.newTcpEndPoint = .ok eps := by
  induction eps with
  | nil => rfl
  | cons ep eps ih =>
    rw [List.map_cons, List.mapM_cons]
    exact bind_eq_ok_iff.2 ⟨ep, h ep List.mem_cons_self, bind_eq_ok_iff.2
      ⟨eps, ih fun e he => h e (List.mem_cons_of_mem _ he), rfl⟩⟩

section Parts

variable {ls ts rest : List String}

theorem cut_part {x t : String} (h : '\n' ∉ x.toList) (hx : trimSpace x = t) (ht : t ≠ "")
    (hcut : Cut ls ts rest) : Cut (linesOf (x ++ "\r") ++ ls) (t :: ts) rest := by
  have hline : linesOf (x ++ "\r") = [x ++ "\r"] := linesOf_line (by simpa using h)
  have htrim : trimSpace (x ++ "\r") = t := by
    rw [trimSpace_append_right (by decide), hx]
  have hone : Cut ((x ++ "\r") :: ls) [t] ls :=
    next_iff_cut (e := ()) (φ := Unit) |>.1 (next_ok_iff.2 ⟨[], _, rfl, by simp, htrim, ht⟩)
  rw [hline]
  exact hone.trans hcut

variable {pre tag : String} (ind : String) (hpre : pre = ind ++ tag) (hind : AllSpace ind) (hne : tag ≠ "")
  (htag : tag.toList.head?.any isSpace = false) (hnl : '\n' ∉ pre.toList)

include hpre hind hne htag hnl

theorem cut_tagged {v : String} (hv : FitsLine v) (hcut : Cut ls ts rest) :
    Cut (linesOf (pre ++ v ++ "\r") ++ ls) ((tag ++ v) :: ts) rest := by
  refine cut_part ?_ (hv.trimmed.tagged hpre hind hne htag) (by simp [hne]) hcut
  simp [hnl, hv.oneLine]

theorem cut_key {k : RSAPublicKey} {line : String} (hk : KeyLine H k line) (hts : ts ≠ [])
    (hcut : Cut ls ts rest) :
    Cut (linesOf (pre ++ (H.rsaPubKeyToDisk k).toOption.getD "" ++ "\r") ++ ls)
      ((tag ++ trimRight line) :: ts) rest := by
  obtain ⟨hline, hns, hdisk⟩ := hk
  have hno : '\n' ∉ (pre ++ line).toList := by simp [hnl, hline]
  have htrim : trimSpace (pre ++ line) = tag ++ trimRight line := by
    rw [hpre, String.append_assoc]
    exact trimSpace_tagged hind hne htag hns
  have htne : tag ++ trimRight line ≠ "" := by simp [hne]
  rcases hdisk with hdisk | hdisk
  · rw [hdisk]
    exact cut_part hno htrim htne hcut
  · have hlines : linesOf (pre ++ (line ++ "\n") ++ "\r") = [pre ++ line, "\r"] := by
      rw [← String.append_assoc, linesOf_append, linesOf_line hno]
      rfl
    have hone : Cut ((pre ++ line) :: "\r" :: ls) [tag ++ trimRight line] ("\r" :: ls) :=
      next_iff_cut (e := ()) (φ := Unit) |>.1 (next_ok_iff.2 ⟨[], _, rfl, by simp, htrim, htne⟩)
    rw [hdisk]
    change Cut (linesOf (pre ++ (line ++ "\n") ++ "\r") ++ ls) _ _
    rw [hlines]
    exact hone.trans (hcut.blank (by decide) hts)

end Parts

theorem cut_ends {eps : List EndPoint} (hends : ∀ ep ∈ eps, FitsLine ep.addr) (rest : List String) :
    Cut ((eps.map fun ep => "         " ++ ep.string).flatMap (fun x => linesOf (x ++ "\r")) ++ rest)
      (eps.map fun ep => "TcpEndPoint: " ++ ep.addr) rest := by
  induction eps with
  | nil => exact cut_nil_iff.2 rfl
  | cons ep eps ih =>
    have hmore := ih fun e he => hends e (List.mem_cons_of_mem _ he)
    have hpart : "         " ++ ep.string = "         TcpEndPoint: " ++ ep.addr := by
      rw [EndPoint.string, ← String.append_assoc]
      rfl
    simp only [List.map_cons, List.flatMap_cons, List.append_assoc, hpart]
    exact cut_tagged "         " (by rfl) (by decide) (by decide) (by decide) (by decide)
      (hends ep List.mem_cons_self) hmore

/-- The values that stand in the text of `rc`, when its keys are written on the lines given. -/
def RegCred.text (H : Host) (rc : RegCred) (ck sk : String) : CredText :=
  ⟨rc.name, hexEncode rc.id.value, trimRight ck, trimRight sk, rc.endPoints.map (·.addr),
    H.versionString rc.version⟩

theorem trimRight_noSep {v : String} (h : NoSep v) : NoSep (trimRight v) := by
  intro hin
  rw [trimRight, String.toList_ofList] at hin
  exact h (hin.trans (List.rdropWhile_prefix isSpace _).isInfix)

theorem cut_opening {rc : RegCred} {ck sk : String} (hname : IsName rc.name)
    (hck : KeyLine H rc.commsPubKey ck) (hsk : KeyLine H rc.sigPubKey sk)
    (hends : ∀ ep ∈ rc.endPoints, FitsLine ep.addr) (rest : List String) :
    Cut ((["regCred \x7b", "    Name: " ++ rc.name, "    ID: " ++ hexEncode rc.id.value,
        "    CommsPubKey: " ++ (H.rsaPubKeyToDisk rc.commsPubKey).toOption.getD "",
        "    SigPubKey: " ++ (H.rsaPubKeyToDisk rc.sigPubKey).toOption.getD "", "    EndPoints \x7b"] ++
        rc.endPoints.map (fun ep => "         " ++ ep.string)).flatMap (fun x => linesOf (x ++ "\r")) ++ rest)
      ((rc.text H ck sk).opening ++ (rc.text H ck sk).ends) rest := by
  have hcut := cut_ends hends rest
  have hmap : (rc.text H ck sk).ends = rc.endPoints.map fun ep => "TcpEndPoint: " ++ ep.addr := by
    simp [CredText.ends, RegCred.text]
  rw [hmap]
  simp only [List.flatMap_cons, List.append_assoc, CredText.opening, RegCred.text, List.cons_append,
    List.nil_append]
  refine cut_part (by decide) (by decide) (by decide) ?_
  refine cut_tagged "    " (by rfl) (by decide) (by decide) (by decide) (by decide) hname.fitsLine ?_
  refine cut_tagged "    " (by rfl) (by decide) (by decide) (by decide) (by decide) (fitsLine_hexEncode rc.id) ?_
  refine cut_key "    " (by rfl) (by decide) (by decide) (by decide) (by decide) hck (by simp) ?_
  refine cut_key "    " (by rfl) (by decide) (by decide) (by decide) (by decide) hsk (by simp) ?_
  exact cut_part (by decide) (by decide) (by decide) hcut

/-- A credential is parsed back from its text. -/
theorem regCred_string_parse (D : Deps) (H : Host) (T : Texts) (rc : RegCred) (hname : IsName rc.name)
    (hck : KeyText H T rc.commsPubKey) (hsk : KeyText H T rc.sigPubKey)
    (hends : ∀ ep ∈ rc.endPoints, FitsLine ep.addr ∧ D.newTcpEndPoint ep.addr = .ok ep)
    (hver : FitsLine (H.versionString rc.version))
    (hparse : H.parseDecimalVersion (H.versionString rc.version) = .ok rc.version) :
    ∃ rc', parseRegCred D H T (rc.string H) = .ok (.ok rc') ∧ rc' = rc ∧ rc'.string H = rc.string H := by
  obtain ⟨ck, hckl, hcks, hckr⟩ := hck
  obtain ⟨sk, hskl, hsks, hskr⟩ := hsk
  refine ⟨rc, ?_, rfl, rfl⟩
  have hcut := cut_opening hname hckl hskl (fun ep he => (hends ep he).1)
    ("    \x7d\r" :: (linesOf ("    Version: " ++ H.versionString rc.version ++ "\r") ++ ["\x7d\r", ""]))
  have hversion : Cut (linesOf ("    Version: " ++ H.versionString rc.version ++ "\r") ++ ["\x7d\r", ""])
      ["Version: " ++ H.versionString rc.version] ["\x7d\r", ""] :=
    cut_tagged "    " (by rfl) (by decide) (by decide) (by decide) (by decide) hver (cut_nil_iff.2 rfl)
  have hdenotes : (rc.text H ck sk).Denotes D H T rc := by
    refine ⟨⟨?_, hname.trimLeftBlanks_eq, nodeID_hexEncode rc.id, hckr, hskr, ?_,
      mapM_addrs fun ep he => (hends ep he).2⟩, hver.noSep, hparse⟩
    · simp [RegCred.text, hname.noSep, (fitsLine_hexEncode rc.id).noSep, trimRight_noSep hcks,
        trimRight_noSep hsks]
    · intro v hv
      obtain ⟨ep, he, rfl⟩ := List.mem_map.1 hv
      exact (hends ep he).1.noSep
  have hbrace : linesOf "    \x7d\r" = ["    \x7d\r"] := rfl
  have hlast : linesOf "\x7d\r" = ["\x7d\r"] := rfl
  have hlines : parseRegCredLines D H T (linesOf (rc.string H)) = .ok rc ["\x7d\r", ""] := by
    refine parseRegCredLines_ok_iff.2 ⟨rc.text H ck sk, "    \x7d\r", _, ?_, by decide, hversion, hdenotes⟩
    rw [RegCred.string, linesOf_crlf _ (by simp), List.flatMap_append]
    simpa [hbrace, hlast] using hcut
  rw [parseRegCred, hlines]

/-- Packages that write what the parsers read. -/
def Host.written : Host :=
  { Host.plain with
    parseDecimalVersion := fun s => match magnitude 10 s.toList with
      | some n => .ok (UInt32.ofNat n)
      | none => .error (.other "not a version")
    versionString := fun v => toString v.toNat
    rsaPubKeyToDisk := fun k => .ok (k.text ++ "\n") }

/-- Two end points, and keys that end in a newline. -/
theorem regCred_string_parse_sample :
    let rc : RegCred := ⟨"xlReg_1", .rep 9, ⟨1, 3⟩, ⟨2, 3⟩, [⟨"127.0.0.1:80"⟩, ⟨"h:1"⟩], 7⟩
    ∃ rc', parseRegCred .plain .written .plain (rc.string .written) = .ok (.ok rc') ∧ rc' = rc ∧
      rc'.string .written = rc.string .written := by
  have hkey : ∀ k ∈ [RSAPublicKey.mk 1 3, RSAPublicKey.mk 2 3], KeyText .written .plain k := by
    intro k hk
    simp only [List.mem_cons, List.not_mem_nil, or_false] at hk
    rcases hk with rfl | rfl
    · exact ⟨"1-3", ⟨by decide, by decide, .inr rfl⟩, by decide, rfl⟩
    · exact ⟨"2-3", ⟨by decide, by decide, .inr rfl⟩, by decide, rfl⟩
  have hends : ∀ ep ∈ [EndPoint.mk "127.0.0.1:80", EndPoint.mk "h:1"],
      FitsLine ep.addr ∧ Deps.plain.newTcpEndPoint ep.addr = .ok ep := by
    intro ep he
    simp only [List.mem_cons, List.not_mem_nil, or_false] at he
    rcases he with rfl | rfl
    · exact ⟨⟨⟨by decide, by decide⟩, by decide, by decide⟩, rfl⟩
    · exact ⟨⟨⟨by decide, by decide⟩, by decide, by decide⟩, rfl⟩
  exact regCred_string_parse .plain .written .plain _ (by decide) (hkey _ (by simp)) (hkey _ (by simp)) hends
    ⟨⟨by decide, by decide⟩, by decide, by decide⟩ rfl

end XlReg
