import XlReg.Proofs.ClientText
import XlReg.Proofs.Members
import XlReg.Sanity.Growth

/-! A cluster and its text. The parser adds the members it reads to a new cluster one after the
other, as they were added to the cluster that was written. The attributes are written as 64 bits
and read as a signed number; the sizes are read as 64-bit numbers and cut down to 32 bits. -/

namespace XlReg

open Text Lines Lines.Parser

variable {D : Deps} {T : Texts}

structure IsName (s : String) : Prop where
  ne : s ≠ ""
  chars : ∀ c ∈ s.toList, c.isAlphanum = true ∨ c = '_'

instance (s : String) : Decidable (IsName s) :=
  decidable_of_iff (s ≠ "" ∧ s.toList.all (fun c => c.isAlphanum || c == '_') = true)
    ⟨fun h => ⟨h.1, by simpa using h.2⟩, fun h => ⟨h.ne, by simpa using h.chars⟩⟩

theorem IsName.visible {s : String} (h : IsName s) {c : Char} (hc : c ∈ s.toList) :
    0x2F < c.toNat ∧ c.toNat < 0x7F := by
  rcases h.chars c hc with ha | rfl
  · exact visible_of_isAlphanum ha
  · decide

theorem IsName.trimmed {s : String} (h : IsName s) : Trimmed s := by
  apply trimmed_of_no_space h.ne
  intro c hc
  have hv := h.visible hc
  exact isSpace_of_visible (by omega) hv.2

/-! Numbers. -/

theorem toNat_ofInt64 (i : ℤ) : ((UInt64.ofInt i).toNat : ℤ) = i % 2 ^ 64 := by
  rw [UInt64.ofInt, UInt64.toNat_ofNat']
  omega

theorem toNat_ofInt32 (i : ℤ) : ((UInt32.ofInt i).toNat : ℤ) = i % 2 ^ 32 := by
  rw [UInt32.ofInt, UInt32.toNat_ofNat']
  omega

theorem int64_ok_iff {s : String} {v : Option ℤ} {i : ℤ} :
    T.int64 s v = .ok i ↔ v = some i ∧ -2 ^ 63 ≤ i ∧ i < 2 ^ 63 := by
  unfold Texts.int64
  cases v with
  | none => simp
  | some j =>
    simp only
    split_ifs with h
    · constructor
      · rintro ⟨⟩
        exact ⟨rfl, h⟩
      · rintro ⟨⟨⟩, -⟩
        rfl
    · constructor
      · intro hc
        cases hc
      · rintro ⟨⟨⟩, hr⟩
        exact absurd hr h

/-- What is read of attributes that were written. -/
theorem parseInt_hex16 (a : UInt64) (i : ℤ) :
    T.parseInt ("0x" ++ hex16 a) = .ok i ↔ i = a.toNat ∧ a.toNat < 2 ^ 63 := by
  have hval : signed basedMagnitude ("0x" ++ hex16 a).toList = some (a.toNat : ℤ) := by
    have hl : ("0x" ++ hex16 a).toList = '0' :: 'x' :: hexDigits 16 a.toNat := by simp [hex16]
    rw [hl, signed_hexDigits 15, Nat.mod_eq_of_lt (by have := a.toNat_lt; omega)]
  rw [Texts.parseInt, int64_ok_iff, hval]
  constructor
  · rintro ⟨⟨⟩, -, hlt⟩
    exact ⟨rfl, by omega⟩
  · rintro ⟨rfl, hlt⟩
    exact ⟨rfl, by omega, by omega⟩

theorem atoi_toString (n : UInt32) : T.atoi (toString n.toNat) = .ok n.toNat := by
  have hlt := n.toNat_lt
  rw [Texts.atoi, int64_ok_iff]
  refine ⟨?_, by omega, by omega⟩
  have hl : (toString n.toNat).toList = Nat.toDigits 10 n.toNat := by simp
  rw [hl, signed_toDigits]

/-! The lines before the members. -/

theorem clusterLine_ok_iff {α : Type} {tag : String} {read : String → Except Err α} {a : α}
    {ls rest : List String} :
    clusterLine T tag read ls = .ok a rest ↔
      ∃ s, T.nextNBLine ls = .ok (tag ++ s) rest ∧ read s = .ok a := by
  rw [clusterLine, bind_ok_iff]
  constructor
  · rintro ⟨line, mid, hn, h⟩
    cases ha : after tag line with
    | none => rw [ha] at h; cases h
    | some s =>
      rw [ha] at h
      obtain ⟨hr, rfl⟩ := ofExcept_ok_iff.1 h
      exact ⟨s, by rw [hn, after_eq_some_iff.1 ha], hr⟩
  · rintro ⟨s, hn, hr⟩
    refine ⟨tag ++ s, rest, hn, ?_⟩
    rw [after_append]
    exact ofExcept_ok_iff.2 ⟨hr, rfl⟩

theorem reads_clusterLine {α : Type} {tag s l : String} (read : String → Except Err α)
    (hl : trimSpace l = tag ++ s) (htag : tag ≠ "") : Reads (clusterLine T tag read) [l] (read s) := by
  refine (reads_next T.exhausted [] (by simp) hl (by simp [htag])).bind_nil ?_
  rw [after_append]
  exact reads_ofExcept _

def RegCluster.headStrings (rc : RegCluster) : List String :=
  ["regCluster \x7b",
    "    Attrs: 0x" ++ hex16 rc.attrs,
    "    Name: " ++ rc.name,
    "    ID: " ++ hexEncode rc.id.value,
    "    epCount: " ++ toString rc.epCount.toNat,
    "    maxSize: " ++ toString rc.maxSize.toNat]

theorem trimmed_toString (n : ℕ) : Trimmed (toString n) := by
  apply trimmed_of_no_space
  · simp
  · intro c hc
    have hl : (toString n).toList = Nat.toDigits 10 n := by simp
    rw [hl] at hc
    obtain ⟨d, hd, rfl⟩ := mem_toDigits hc
    exact isSpace_digitChar (by omega)

theorem nodeID_hexEncode (id : NodeID) : T.nodeID D (hexEncode id.value) = .ok id := by
  have hdec : T.hexDecodeString (hexEncode id.value) = .ok id.value := by
    rw [Texts.hexDecodeString, hexEncode_toList, decodeHex_bytes]
  simp only [Texts.nodeID, hdec]
  exact nodeIDOf_value D id

theorem NodeID.value_ne_nil (id : NodeID) : id.value ≠ [] := by
  intro h
  have hv := id.valid
  rw [h] at hv
  simp at hv

/-- What the head of a cluster's text is read as. -/
def RegCluster.headAgain (D : Deps) (T : Texts) (rc : RegCluster) : Except Err RegCluster := do
  let i ← T.parseInt ("0x" ++ hex16 rc.attrs)
  newRegCluster D rc.name rc.id (UInt64.ofInt i) rc.maxSize rc.epCount

theorem reads_clusterHead (rc : RegCluster) (hname : Trimmed rc.name) :
    Reads (clusterHead D T) rc.headStrings (rc.headAgain D T) := by
  have hhead : trimSpace "regCluster \x7b" = "regCluster \x7b" := by decide
  have ht : Trimmed ("0x" ++ hex16 rc.attrs) := (trimmed_hex16 rc.attrs).append (by decide) (by decide)
  have hattrs : trimSpace ("    Attrs: 0x" ++ hex16 rc.attrs) = "Attrs: " ++ ("0x" ++ hex16 rc.attrs) := by
    have h0x : "    Attrs: 0x" = "    Attrs: " ++ "0x" := rfl
    rw [h0x, String.append_assoc]
    exact ht.tagged rfl allSpace_four (by decide) (by decide)
  have hn : trimSpace ("    Name: " ++ rc.name) = "Name: " ++ rc.name :=
    hname.tagged rfl allSpace_four (by decide) (by decide)
  have hid : trimSpace ("    ID: " ++ hexEncode rc.id.value) = "ID: " ++ hexEncode rc.id.value :=
    (trimmed_hexEncode _ rc.id.value_ne_nil).tagged rfl allSpace_four (by decide) (by decide)
  have hep : trimSpace ("    epCount: " ++ toString rc.epCount.toNat) =
      "epCount: " ++ toString rc.epCount.toNat :=
    (trimmed_toString _).tagged rfl allSpace_four (by decide) (by decide)
  have hmax : trimSpace ("    maxSize: " ++ toString rc.maxSize.toNat) =
      "maxSize: " ++ toString rc.maxSize.toNat :=
    (trimmed_toString _).tagged rfl allSpace_four (by decide) (by decide)
  have hfirst : Reads (expect T.exhausted .illFormedCluster "regCluster \x7b" : Parse Unit)
      ["regCluster \x7b"] (.ok ()) := reads_expect _ _ [] (by simp) hhead (by decide)
  have hread := reads_clusterLine (T := T) (fun s => (T.parseInt s).map UInt64.ofInt) hattrs (by decide)
  have hepr := reads_clusterLine (T := T) (fun s => (T.atoi s).map UInt32.ofInt) hep (by decide)
  have hmaxr := reads_clusterLine (T := T) (fun s => (T.atoi s).map UInt32.ofInt) hmax (by decide)
  have hidr := reads_clusterLine (T := T) (T.nodeID D) hid (by decide)
  have hof : ∀ n : UInt32, UInt32.ofInt (n.toNat : ℤ) = n := by
    intro n
    have h := toNat_ofInt32 n.toNat
    have hlt := n.toNat_lt
    exact UInt32.toNat_inj.1 (by omega)
  rw [atoi_toString] at hepr hmaxr
  simp only [Except.map, hof] at hepr hmaxr
  rw [nodeID_hexEncode] at hidr
  unfold RegCluster.headAgain
  cases hi : T.parseInt ("0x" ++ hex16 rc.attrs) with
  | error e =>
    rw [hi] at hread
    intro tail
    change clusterHead D T (["regCluster \x7b"] ++ _) = _
    rw [clusterHead, bind_of_ok (hfirst _)]
    exact hread.bind_error _
  | ok i =>
    rw [hi] at hread
    refine hfirst.bind (hread.bind ((reads_clusterLine .ok hn (by decide)).bind (hidr.bind
      (hepr.bind (hmaxr.bind_nil ?_)))))
    exact reads_ofExcept _

/-! The members. -/

theorem takes_collectClientAttrs (T : Texts) : Takes (collectClientAttrs T) := by
  refine (takes_next T.exhausted).bind fun line => ?_
  split
  · exact keeps_fail _
  · refine (keeps_ofExcept _).bind fun val => ?_
    split_ifs
    · exact keeps_fail _
    · exact keeps_pure _

theorem keeps_collectMyEnds (T : Texts) : Keeps (collectMyEnds T) := by
  refine (keeps_next T.exhausted).bind fun line => ?_
  split_ifs
  · refine (keeps_loop (shrinks_collectEnd T) _).bind fun ends => ?_
    obtain ⟨ends, err⟩ := ends
    cases err with
    | some e => exact keeps_fail e
    | none => exact (takes_expect _ _ _).keeps.bind fun _ => keeps_pure _
  · exact keeps_fail _

theorem takes_clientInfo (T : Texts) (addr : ℕ) : Takes (parseClientInfoFromStrings T addr) := by
  have hbn : Keeps (lift (T.parseBNFromStrings "clientInfo") : Parse BaseNode) :=
    fun ls bn rest h => T.parseBN_le _ ls bn rest (lift_ok_iff.1 h)
  exact hbn.bind_takes fun _ => (takes_collectClientAttrs T).bind fun _ =>
    (keeps_collectMyEnds T).bind fun _ => (takes_expect _ _ _).keeps.bind fun _ => keeps_pure _

theorem takes_collectMember (D : Deps) (T : Texts) (addr : ℕ) (rc : RegCluster) :
    Takes (collectMember D T addr rc) := by
  refine (takes_clientInfo T _).bind fun member => ?_
  split
  · exact keeps_pure _
  · exact keeps_fail _

def ClientInfo.anywhere (mi : ClientInfo) : ClientInfo := { mi with addr := 0 }

/-- Clusters that differ at most in the addresses of their members. -/
structure RegCluster.Same (rc rc' : RegCluster) : Prop where
  name : rc'.name = rc.name
  id : rc'.id = rc.id
  attrs : rc'.attrs = rc.attrs
  maxSize : rc'.maxSize = rc.maxSize
  epCount : rc'.epCount = rc.epCount
  members : rc'.members.map ClientInfo.anywhere = rc.members.map ClientInfo.anywhere
  names : rc'.membersByName.keys = rc.membersByName.keys
  ids : rc'.membersByID.map.keys = rc.membersByID.map.keys

theorem RegCluster.Same.refl (rc : RegCluster) : rc.Same rc := ⟨rfl, rfl, rfl, rfl, rfl, rfl, rfl, rfl⟩

theorem isSome_lookup_congr {α : Type} [DecidableEq α] {β γ : Type} {s : AList fun _ : α => β}
    {t : AList fun _ : α => γ} (h : t.keys = s.keys) (a : α) : (t.lookup a).isSome = (s.lookup a).isSome := by
  have hiff : (t.lookup a).isSome = true ↔ (s.lookup a).isSome = true := by
    rw [AList.lookup_isSome, AList.lookup_isSome, AList.mem_keys, AList.mem_keys, h]
  exact Bool.eq_iff_iff.2 hiff

theorem RegCluster.Same.append {rc rc' : RegCluster} (h : rc.Same rc') (m : ClientInfo) (addr : ℕ) :
    (rc.append D m).1.Same (rc'.append D { m with addr := addr }).1 ∧
      (rc'.append D { m with addr := addr }).2 = (rc.append D m).2 := by
  have hmem : (rc'.members ++ [{ m with addr := addr }]).map ClientInfo.anywhere =
      (rc.members ++ [m]).map ClientInfo.anywhere := by
    rw [List.map_append, List.map_append, h.members]
    rfl
  have hnames : (rc'.membersByName.insert m.name { m with addr := addr }).keys =
      (rc.membersByName.insert m.name m).keys := by
    rw [AList.keys_insert, AList.keys_insert, h.names]
  unfold RegCluster.append
  simp only
  cases hk : newBytesKey D (some m.nodeID.value) with
  | error e => exact ⟨⟨h.name, h.id, h.attrs, h.maxSize, h.epCount, hmem, hnames, h.ids⟩, rfl⟩
  | ok bKey =>
    simp only [Hamt.insert, h.ids]
    cases D.insertErr rc.membersByID.map.keys bKey with
    | some e => exact ⟨⟨h.name, h.id, h.attrs, h.maxSize, h.epCount, hmem, hnames, h.ids⟩, rfl⟩
    | none =>
      refine ⟨⟨h.name, h.id, h.attrs, h.maxSize, h.epCount, hmem, hnames, ?_⟩, rfl⟩
      simp only [AList.keys_insert, h.ids]

theorem RegCluster.Same.idEntry {rc rc' : RegCluster} (h : rc.Same rc') :
    (∃ e, rc.idEntry D = .error e ∧ rc'.idEntry D = .error e) ∨
    (∃ x y, rc.idEntry D = .ok (some x) ∧ rc'.idEntry D = .ok (some y)) ∨
    (rc.idEntry D = .ok none ∧ rc'.idEntry D = .ok none) := by
  obtain ⟨k, hk, hk'⟩ : ∃ k, rc.idEntry D = rc.membersByID.find D k ∧
      rc'.idEntry D = rc'.membersByID.find D k := by
    refine ⟨_, rfl, ?_⟩
    unfold RegCluster.idEntry
    rw [h.id]
  have hsome := isSome_lookup_congr h.ids k
  rw [hk, hk', Hamt.find, Hamt.find, h.ids]
  cases D.findErr rc.membersByID.map.keys k with
  | some e => exact .inl ⟨e, rfl, rfl⟩
  | none =>
    cases hl : rc.membersByID.map.lookup k with
    | none =>
      rw [hl, Option.isSome_none, Option.isSome_eq_false_iff, Option.isNone_iff_eq_none] at hsome
      exact .inr (.inr ⟨rfl, by rw [hsome]⟩)
    | some x =>
      rw [hl, Option.isSome_some, Option.isSome_iff_exists] at hsome
      obtain ⟨y, hy⟩ := hsome
      exact .inr (.inl ⟨x, y, rfl, by rw [hy]⟩)

/-- The checks and the errors of `AddMember` depend on keys only. -/
theorem RegCluster.Same.addMember {rc rc' : RegCluster} (h : rc.Same rc') (m : ClientInfo) (addr : ℕ) :
    (rc.addMember D m).1.Same (rc'.addMember D { m with addr := addr }).1 ∧
      (rc'.addMember D { m with addr := addr }).2 = (rc.addMember D m).2 := by
  have hin : rc'.nameInUse { m with addr := addr } = rc.nameInUse m := isSome_lookup_congr h.names m.name
  unfold RegCluster.addMember
  rw [hin]
  cases rc.nameInUse m with
  | true => exact ⟨h, rfl⟩
  | false =>
    simp only [Bool.false_eq_true, if_false]
    rcases h.idEntry (D := D) with ⟨e, he, he'⟩ | ⟨x, y, hx, hy⟩ | ⟨hn, hn'⟩
    · rw [he, he']
      exact ⟨h, rfl⟩
    · rw [hx, hy]
      exact ⟨h, rfl⟩
    · rw [hn, hn']
      exact h.append m addr

theorem ClientInfo.equal_of_anywhere {a b : ClientInfo} (h : b.anywhere = a.anywhere) :
    a.equal b = true := by
  cases a
  cases b
  simp only [ClientInfo.anywhere, ClientInfo.mk.injEq] at h
  obtain ⟨-, rfl, rfl, rfl, rfl, rfl, rfl⟩ := h
  simp [ClientInfo.equal, ClientInfo.baseNode]

theorem RegCluster.Same.equal {rc rc' : RegCluster} (h : rc.Same rc') : rc.equal rc' = true := by
  have hlen : rc'.members.length = rc.members.length := by
    simpa using congrArg List.length h.members
  have hsize : rc'.size = rc.size := by rw [RegCluster.size, RegCluster.size, hlen]
  simp only [RegCluster.equal, h.attrs, h.name, h.id, h.epCount, h.maxSize, hsize, beq_self_eq_true,
    Bool.true_and, List.all_eq_true, List.mem_range]
  intro i hi
  have hi' : i < rc.members.length := by
    rw [RegCluster.size, UInt32.toNat_ofNat'] at hi
    exact lt_of_lt_of_le hi (Nat.mod_le _ _)
  have hget := congrArg (fun l => l[i]?) h.members
  simp only [List.getElem?_map, List.getElem?_eq_getElem hi', List.getElem?_eq_getElem (hlen ▸ hi'),
    Option.map_some, Option.some.injEq] at hget ⊢
  exact ClientInfo.equal_of_anywhere hget

/-! Members added again. -/

/-- The members of `ms` that the calls put into the list. -/
def appended (D : Deps) : RegCluster → List ClientInfo → List ClientInfo
  | _, [] => []
  | rc, m :: ms => (if rc.Admits D m then [m] else []) ++ appended D (rc.addMember D m).1 ms

theorem addAll_appended (rc : RegCluster) (ms : List ClientInfo) :
    (addAll D rc ms).members = rc.members ++ appended D rc ms := by
  induction ms generalizing rc with
  | nil => simp [addAll, appended]
  | cons m ms ih =>
    have hcons : addAll D rc (m :: ms) = addAll D (rc.addMember D m).1 ms := rfl
    rw [hcons, ih, appended]
    split_ifs with ha
    · rw [RegCluster.addMember_of_admits ha]
      simp
    · obtain ⟨e, he⟩ := RegCluster.addMember_of_not_admits ha
      simp [he]

theorem appended_subset (rc : RegCluster) (ms : List ClientInfo) : appended D rc ms ⊆ ms := by
  induction ms generalizing rc with
  | nil => simp [appended]
  | cons m ms ih =>
    rw [appended]
    apply List.append_subset.2
    constructor
    · split_ifs <;> simp
    · exact List.Subset.trans (ih _) (List.subset_cons_self m ms)

/-- No call leaves its member in the list and reports an error all the same. -/
def WholeCalls (D : Deps) (rc : RegCluster) (ms : List ClientInfo) : Prop :=
  Run.Along (addCall D) (fun rc m => rc.Admits D m → (rc.addMember D m).2 = none) rc ms

instance (D : Deps) (rc : RegCluster) (ms : List ClientInfo) : Decidable (WholeCalls D rc ms) :=
  inferInstanceAs (Decidable (Run.Along (addCall D)
    (fun rc m => rc.Admits D m → (rc.addMember D m).2 = none) rc ms))

def addAgain (D : Deps) (addr : ℕ) (rc : RegCluster) (m : ClientInfo) : Except Err RegCluster :=
  match rc.addMember D { m with addr := addr + rc.members.length } with
  | (rc, none) => .ok rc
  | (_, some e) => .error e

/-- Adding the members of a cluster again gives the same cluster, or the first error that a
call reported for a member it left in the list. -/
theorem addAgain_appended (addr : ℕ) {rc rc' : RegCluster} (h : rc.Same rc') (ms : List ClientInfo) :
    (WholeCalls D rc ms → ∃ rc'', (appended D rc ms).foldlM (addAgain D addr) rc' = .ok rc'' ∧
      (addAll D rc ms).Same rc'') ∧
    (¬ WholeCalls D rc ms → ∃ e, (appended D rc ms).foldlM (addAgain D addr) rc' = .error e) := by
  induction ms generalizing rc rc' with
  | nil => exact ⟨fun _ => ⟨rc', rfl, h⟩, fun hno => absurd trivial hno⟩
  | cons m ms ih =>
    have hcons : addAll D rc (m :: ms) = addAll D (rc.addMember D m).1 ms := rfl
    have hwhole : WholeCalls D rc (m :: ms) ↔
        (rc.Admits D m → (rc.addMember D m).2 = none) ∧ WholeCalls D (rc.addMember D m).1 ms := by
      simp [WholeCalls, Run.Along, addCall]
    obtain ⟨hsame, herr⟩ := h.addMember (D := D) m (addr + rc'.members.length)
    rw [hcons, hwhole, appended]
    by_cases ha : rc.Admits D m
    · rw [if_pos ha, List.singleton_append, List.foldlM_cons]
      cases hm : (rc.addMember D m).2 with
      | none =>
        have hagain : addAgain D addr rc' m =
            .ok (rc'.addMember D { m with addr := addr + rc'.members.length }).1 := by
          rw [addAgain]
          rw [hm] at herr
          generalize rc'.addMember D { m with addr := addr + rc'.members.length } = r at herr
          obtain ⟨r, err⟩ := r
          cases herr
          rfl
        rw [hagain]
        have hrest := ih hsame
        exact ⟨fun hw => hrest.1 hw.2, fun hno => hrest.2 fun hw => hno ⟨fun _ => rfl, hw⟩⟩
      | some e =>
        have hagain : addAgain D addr rc' m = .error e := by
          rw [addAgain]
          rw [hm] at herr
          generalize rc'.addMember D { m with addr := addr + rc'.members.length } = r at herr
          obtain ⟨r, err⟩ := r
          cases herr
          rfl
        rw [hagain]
        exact ⟨fun hw => absurd (hw.1 ha) (by simp), fun _ => ⟨e, rfl⟩⟩
    · rw [if_neg ha, List.nil_append]
      obtain ⟨e, he⟩ := RegCluster.addMember_of_not_admits ha
      rw [he]
      have hrest := ih h
      exact ⟨fun hw => hrest.1 hw.2, fun hno => hrest.2 fun hw => hno ⟨fun h => absurd h ha, hw⟩⟩

/-! The whole text. -/

theorem reads_collectMember (addr : ℕ) (rc : RegCluster) {m : ClientInfo} (hbn : T.ParsesBack m.baseNode)
    (hends : ∀ e ∈ m.myEnds, WritableEnd e) :
    Reads (collectMember D T addr rc) ((m.strings T).map ("        " ++ ·)) (addAgain D addr rc m) := by
  refine (reads_clientInfo T _ allSpace_eight m hbn hends).bind_nil ?_
  unfold addAgain
  generalize rc.addMember D { m with addr := addr + rc.members.length } = r
  obtain ⟨r, _ | e⟩ := r
  · exact reads_pure r
  · exact fun _ => rfl

theorem parse_cluster_strings (addr : ℕ) (rc : RegCluster) (tail : List String) (hname : Trimmed rc.name)
    (hbn : ∀ m ∈ rc.members, T.ParsesBack m.baseNode)
    (hends : ∀ m ∈ rc.members, ∀ e ∈ m.myEnds, WritableEnd e) :
    parseRegClusterFromStrings D T addr (rc.strings T ++ tail) =
      ofExcept (rc.headAgain D T >>= rc.members.foldlM (addAgain D addr)) tail := by
  have hlines : rc.strings T ++ tail = rc.headStrings ++ (["    Members \x7b"] ++
      (rc.members.flatMap (fun mi => (mi.strings T).map ("        " ++ ·)) ++
        "    \x7d" :: ("\x7d" :: tail))) := by
    simp [RegCluster.strings, RegCluster.headStrings]
  have hhead := reads_clusterHead (D := D) (T := T) rc hname
  rw [hlines, parseRegClusterFromStrings]
  cases hr : rc.headAgain D T with
  | error e =>
    rw [hr] at hhead
    exact hhead.bind_error _
  | ok rc₀ =>
    rw [hr] at hhead
    have hopen : Reads (expect T.exhausted .missingMembersList "Members \x7b" : Parse Unit)
        ["    Members \x7b"] (.ok ()) := reads_expect _ _ [] (by simp) (by decide) (by decide)
    have hclose : trimSpace "    \x7d" = "\x7d" := by decide
    have hloop := loop_items (x := Abort.indexOutOfRange)
      (fun rc => (takes_collectMember D T addr rc).shrinks) hclose
      (fun mi => (mi.strings T).map ("        " ++ ·)) (addAgain D addr) rc.members
      (fun m _ => ⟨_, _, rfl, by decide⟩)
      (fun s m hm => reads_collectMember addr s (hbn m hm) (hends m hm)) rc₀ ("\x7d" :: tail)
    rw [bind_of_ok (hhead _), bind_of_ok (hopen _)]
    change _ = ofExcept (rc.members.foldlM (addAgain D addr) rc₀) tail
    cases hf : rc.members.foldlM (addAgain D addr) rc₀ with
    | error e =>
      rw [hf] at hloop
      change Parser.bind _ _ _ = _
      rw [Parser.bind, hloop]
      rfl
    | ok rc' =>
      rw [hf] at hloop
      have hempty : AllSpace "" := by decide
      have hb : T.closingBrace ("    \x7d" :: "\x7d" :: tail) = .ok () ("\x7d" :: tail) :=
        reads_closingBrace T allSpace_four ("\x7d" :: tail)
      have hb' : T.closingBrace ("\x7d" :: tail) = .ok () tail := reads_closingBrace T hempty tail
      rw [bind_of_ok hloop, bind_of_ok hb, bind_of_ok hb']
      rfl

/-- The head of a cluster that `newRegCluster` made, once more. -/
theorem headAgain_ok_iff {name : String} {id : NodeID} {attrs : UInt64} {maxSize epCount : UInt32}
    {rc₀ rc : RegCluster} (hnew : newRegCluster D name id attrs maxSize epCount = .ok rc₀)
    (hg : rc₀.Grows rc) (rc₁ : RegCluster) :
    rc.headAgain D T = .ok rc₁ ↔ attrs.toNat < 2 ^ 63 ∧ rc₁ = rc₀ := by
  obtain ⟨-, hn, hid, ha, hmax, hep⟩ := newRegCluster_ok hnew
  have hsame : newRegCluster D rc₀.name id attrs maxSize epCount = .ok rc₀ := by
    rw [← hnew]
    have hne : rc₀.name ≠ "" := by
      rw [hn]
      split_ifs with h
      · decide
      · exact h
    rw [hn] at hne
    simp only [newRegCluster, hn, if_neg hne]
  unfold RegCluster.headAgain
  rw [hg.name, hg.id, hg.attrs, hg.maxSize, hg.epCount, hid, ha, hmax, hep]
  cases hi : T.parseInt ("0x" ++ hex16 attrs) with
  | error e =>
    have hno : ¬ attrs.toNat < 2 ^ 63 := by
      intro hlt
      have := (parseInt_hex16 (T := T) attrs attrs.toNat).2 ⟨rfl, hlt⟩
      rw [hi] at this
      cases this
    simp only [hno, false_and, iff_false]
    intro h
    cases h
  | ok i =>
    obtain ⟨rfl, hlt⟩ := (parseInt_hex16 attrs i).1 hi
    have hback : UInt64.ofInt (attrs.toNat : ℤ) = attrs := by
      have h := toNat_ofInt64 attrs.toNat
      exact UInt64.toNat_inj.1 (by omega)
    change newRegCluster D rc₀.name id (UInt64.ofInt (attrs.toNat : ℤ)) maxSize epCount = .ok rc₁ ↔ _
    rw [hback, hsame]
    constructor
    · rintro ⟨⟩
      exact ⟨hlt, rfl⟩
    · rintro ⟨-, rfl⟩
      rfl

theorem grows_addAll (D : Deps) (rc : RegCluster) (ms : List ClientInfo) : rc.Grows (addAll D rc ms) := by
  induction ms generalizing rc with
  | nil => exact .refl rc
  | cons m ms ih => exact (rc.grows_addMember D m).trans (ih _)

/-- A cluster is parsed back from its text exactly when its attributes fit into 63 bits and no
call left a member in its list with an error. -/
theorem regCluster_strings_parse_iff (D : Deps) (T : Texts) (addr : ℕ) (name : String) (id : NodeID)
    (attrs : UInt64) (maxSize epCount : UInt32) (rc₀ : RegCluster) (ms : List ClientInfo)
    (tail : List String) (hnew : newRegCluster D name id attrs maxSize epCount = .ok rc₀)
    (hname : IsName name) (hbn : ∀ m ∈ ms, T.ParsesBack m.baseNode)
    (hends : ∀ m ∈ ms, ∀ e ∈ m.myEnds, WritableEnd e) :
    (∃ rc', parseRegClusterFromStrings D T addr ((addAll D rc₀ ms).strings T ++ tail) = .ok rc' tail ∧
      (addAll D rc₀ ms).equal rc' = true) ↔ attrs.toNat < 2 ^ 63 ∧ WholeCalls D rc₀ ms := by
  have hfresh := (newRegCluster_ok hnew).1
  have hmem : (addAll D rc₀ ms).members = appended D rc₀ ms := by
    rw [addAll_appended, hfresh.members, List.nil_append]
  have hin : ∀ m ∈ (addAll D rc₀ ms).members, m ∈ ms := by
    rw [hmem]
    exact appended_subset rc₀ ms
  have hnm : Trimmed (addAll D rc₀ ms).name := by
    rw [(grows_addAll D rc₀ ms).name, (newRegCluster_ok hnew).2.1, if_neg hname.ne]
    exact hname.trimmed
  rw [parse_cluster_strings addr _ tail hnm (fun m hm => hbn m (hin m hm))
    (fun m hm => hends m (hin m hm)), hmem]
  have hhead := headAgain_ok_iff (T := T) hnew (grows_addAll D rc₀ ms)
  obtain ⟨hwhole, hpart⟩ := addAgain_appended (D := D) addr (RegCluster.Same.refl rc₀) ms
  constructor
  · rintro ⟨rc', hp, -⟩
    obtain ⟨hrun, -⟩ := ofExcept_ok_iff.1 hp
    cases hr : (addAll D rc₀ ms).headAgain D T with
    | error e => rw [hr] at hrun; cases hrun
    | ok rc₁ =>
      obtain ⟨hlt, rfl⟩ := (hhead rc₁).1 hr
      refine ⟨hlt, ?_⟩
      by_contra hno
      obtain ⟨e, he⟩ := hpart hno
      rw [hr] at hrun
      change (appended D rc₁ ms).foldlM (addAgain D addr) rc₁ = _ at hrun
      rw [he] at hrun
      cases hrun
  · rintro ⟨hlt, hw⟩
    obtain ⟨rc', hrun, hsame⟩ := hwhole hw
    refine ⟨rc', ?_, hsame.equal⟩
    rw [(hhead rc₀).2 ⟨hlt, rfl⟩]
    change ofExcept ((appended D rc₀ ms).foldlM (addAgain D addr) rc₀) tail = _
    rw [hrun]
    rfl

/-- Two members, and lines after the cluster. -/
theorem regCluster_strings_parse_iff_sample :
    let rc := addAll .plain Sample.cluster [Sample.client 0 "a" 1, Sample.client 1 "b" 2]
    ∃ rc', parseRegClusterFromStrings .plain .plain 0 (rc.strings .plain ++ ["x"]) = .ok rc' ["x"] ∧
      rc.equal rc' = true := by
  have hends : ∀ m ∈ [Sample.client 0 "a" 1, Sample.client 1 "b" 2], ∀ e ∈ m.myEnds, WritableEnd e := by
    intro m hm e he
    have h : e = "127.0.0.1:80" := by
      simp only [List.mem_cons, List.not_mem_nil, or_false] at hm
      rcases hm with rfl | rfl <;> exact List.mem_singleton.1 he
    rw [h]
    exact ⟨⟨by decide, by decide⟩, by decide⟩
  have hbn : ∀ m ∈ [Sample.client 0 "a" 1, Sample.client 1 "b" 2], Texts.plain.ParsesBack m.baseNode := by
    intro m hm
    simp only [List.mem_cons, List.not_mem_nil, or_false] at hm
    rcases hm with rfl | rfl
    · exact plain_parsesBack _ ⟨by decide, by decide⟩
    · exact plain_parsesBack _ ⟨by decide, by decide⟩
  exact (regCluster_strings_parse_iff .plain .plain 0 "c" (.rep 0) 0 2 1 Sample.cluster _ ["x"] rfl
    (by decide) hbn hends).2 ⟨by decide, by decide⟩

/-- The highest bit of the attributes alone. -/
theorem regCluster_strings_parse_fails :
    ∃ rc, newRegCluster .plain "c" (.rep 0) 0x8000000000000000 2 1 = .ok rc ∧
      parseRegClusterFromStrings .plain .plain 0 (rc.strings .plain) =
        .error (.other "strconv: invalid numeral") :=
  ⟨_, rfl, rfl⟩

/-! The numbers of a text. -/

/-- The numbers that stand in the text of a cluster, as integers. -/
structure Writes (ls : List String) (a e m : ℤ) : Prop where
  attrs : ∃ s, (nonBlank ls)[1]? = some ("Attrs: " ++ s) ∧ signed basedMagnitude s.toList = some a
  epCount : ∃ s, (nonBlank ls)[4]? = some ("epCount: " ++ s) ∧ signed (magnitude 10) s.toList = some e
  maxSize : ∃ s, (nonBlank ls)[5]? = some ("maxSize: " ++ s) ∧ signed (magnitude 10) s.toList = some m

/-- The cluster has the numbers of the text, and they are in range. -/
structure SameNumbers (rc : RegCluster) (a e m : ℤ) : Prop where
  attrs : (rc.attrs.toNat : ℤ) = a
  epCount : (rc.epCount.toNat : ℤ) = e
  maxSize : (rc.maxSize.toNat : ℤ) = m
  hasEnds : 1 ≤ e
  hasMembers : 1 ≤ m

theorem clusterHead_ok {ls rest : List String} {rc : RegCluster} (h : clusterHead D T ls = .ok rc rest) :
    ∃ a e m, Writes ls a e m ∧ a < 2 ^ 63 ∧ -2 ^ 63 ≤ a ∧ rc.attrs = UInt64.ofInt a ∧
      rc.epCount = UInt32.ofInt e ∧ rc.maxSize = UInt32.ofInt m := by
  obtain ⟨⟨⟩, l₁, h₁, h⟩ := bind_ok_iff.1 h
  obtain ⟨attrs, l₂, h₂, h⟩ := bind_ok_iff.1 h
  obtain ⟨name, l₃, h₃, h⟩ := bind_ok_iff.1 h
  obtain ⟨id, l₄, h₄, h⟩ := bind_ok_iff.1 h
  obtain ⟨epCount, l₅, h₅, h⟩ := bind_ok_iff.1 h
  obtain ⟨maxSize, l₆, h₆, h⟩ := bind_ok_iff.1 h
  obtain ⟨sa, n₂, ra⟩ := clusterLine_ok_iff.1 h₂
  obtain ⟨sn, n₃, -⟩ := clusterLine_ok_iff.1 h₃
  obtain ⟨si, n₄, -⟩ := clusterLine_ok_iff.1 h₄
  obtain ⟨se, n₅, re⟩ := clusterLine_ok_iff.1 h₅
  obtain ⟨sm, n₆, rm⟩ := clusterLine_ok_iff.1 h₆
  obtain ⟨a, ha, rfl⟩ := Run.map_ok ra
  obtain ⟨e, he, rfl⟩ := Run.map_ok re
  obtain ⟨m, hm, rfl⟩ := Run.map_ok rm
  obtain ⟨va, hlo, hhi⟩ := int64_ok_iff.1 ha
  obtain ⟨ve, -, -⟩ := int64_ok_iff.1 he
  obtain ⟨vm, -, -⟩ := int64_ok_iff.1 hm
  obtain ⟨hnew, -⟩ := ofExcept_ok_iff.1 h
  obtain ⟨-, -, -, hattrs, hmax, hep⟩ := newRegCluster_ok hnew
  have hlines := nonBlank_of_next (expect_ok_iff.1 h₁)
  rw [nonBlank_of_next n₂, nonBlank_of_next n₃, nonBlank_of_next n₄, nonBlank_of_next n₅,
    nonBlank_of_next n₆] at hlines
  exact ⟨a, e, m, ⟨⟨sa, by rw [hlines]; rfl, va⟩, ⟨se, by rw [hlines]; rfl, ve⟩,
    ⟨sm, by rw [hlines]; rfl, vm⟩⟩, hhi, hlo, hattrs, hep, hmax⟩

theorem parse_cluster_head {addr : ℕ} {ls rest : List String} {rc : RegCluster}
    (h : parseRegClusterFromStrings D T addr ls = .ok rc rest) :
    ∃ rc₀ mid, clusterHead D T ls = .ok rc₀ mid ∧ rc₀.Grows rc := by
  obtain ⟨rc₀, l₁, h₁, h⟩ := bind_ok_iff.1 h
  obtain ⟨⟨⟩, l₂, h₂, h⟩ := bind_ok_iff.1 h
  obtain ⟨rc', l₃, h₃, h⟩ := bind_ok_iff.1 h
  obtain ⟨⟨⟩, l₄, h₄, h⟩ := bind_ok_iff.1 h
  obtain ⟨⟨⟩, l₅, h₅, h⟩ := bind_ok_iff.1 h
  cases h
  refine ⟨rc₀, l₁, h₁, ?_⟩
  refine loop_inv (I := rc₀.Grows) ?_ (.refl rc₀) h₃
  intro s ls s' rest hs hb
  obtain ⟨member, mid, -, hb⟩ := bind_ok_iff.1 hb
  have hg := s.grows_addMember D member
  generalize s.addMember D member = r at hb hg
  obtain ⟨r, _ | e⟩ := r
  · cases hb
    exact hs.trans hg
  · cases hb

/-- The cluster made from an accepted text has the numbers written there exactly when those are
in the ranges of their fields. -/
theorem parsed_numbers_iff (D : Deps) (T : Texts) (addr : ℕ) (ls rest : List String) (rc : RegCluster)
    (h : parseRegClusterFromStrings D T addr ls = .ok rc rest) :
    ∃ attrs epCount maxSize, Writes ls attrs epCount maxSize ∧
      (SameNumbers rc attrs epCount maxSize ↔
        0 ≤ attrs ∧ 1 ≤ epCount ∧ epCount < 2 ^ 32 ∧ 1 ≤ maxSize ∧ maxSize < 2 ^ 32) := by
  obtain ⟨rc₀, mid, hhead, hg⟩ := parse_cluster_head h
  obtain ⟨a, e, m, hw, hhi, hlo, ha, he, hm⟩ := clusterHead_ok hhead
  have hattrs := toNat_ofInt64 a
  have hep := toNat_ofInt32 e
  have hmax := toNat_ofInt32 m
  rw [← ha, ← hg.attrs] at hattrs
  rw [← he, ← hg.epCount] at hep
  rw [← hm, ← hg.maxSize] at hmax
  refine ⟨a, e, m, hw, ?_⟩
  constructor
  · rintro ⟨h₁, h₂, h₃, h₄, h₅⟩
    omega
  · rintro ⟨h₁, h₂, h₃, h₄, h₅⟩
    exact ⟨by omega, by omega, by omega, h₂, h₄⟩

/-- Negative attributes, an `epCount` of 2^32 + 1 and a negative size. -/
theorem parsed_numbers_wrap :
    ∃ rc, parseRegClusterFromStrings .plain .plain 0
        ["regCluster \x7b", "Attrs: -1", "Name: c", "ID: " ++ hexEncode (NodeID.rep 0).value,
          "epCount: 4294967297", "maxSize: -1", "Members \x7b", "\x7d", "\x7d"] = .ok rc [] ∧
      rc.attrs = 18446744073709551615 ∧ rc.epCount = 1 ∧ rc.maxSize = 4294967295 :=
  ⟨_, rfl, rfl, rfl, rfl⟩

/-- A text with numbers in range. -/
theorem parsed_numbers_iff_sample :
    let ls := ["regCluster \x7b", "Attrs: 0x1f", "Name: c", "ID: " ++ hexEncode (NodeID.rep 0).value,
      "epCount: 2", "maxSize: 3", "Members \x7b", "\x7d", "\x7d"]
    ∃ rc attrs epCount maxSize, parseRegClusterFromStrings .plain .plain 0 ls = .ok rc [] ∧
      Writes ls attrs epCount maxSize ∧ (SameNumbers rc attrs epCount maxSize ↔
        0 ≤ attrs ∧ 1 ≤ epCount ∧ epCount < 2 ^ 32 ∧ 1 ≤ maxSize ∧ maxSize < 2 ^ 32) := by
  intro ls
  obtain ⟨rc, h⟩ : ∃ rc, parseRegClusterFromStrings .plain .plain 0 ls = .ok rc [] := ⟨_, rfl⟩
  obtain ⟨a, e, m, hw, hiff⟩ := parsed_numbers_iff .plain .plain 0 ls [] rc h
  exact ⟨rc, a, e, m, h, hw, hiff⟩

end XlReg
