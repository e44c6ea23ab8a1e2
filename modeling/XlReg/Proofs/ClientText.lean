import XlReg.Sanity.PlainTexts

/-! A client's record survives its text. The lines of the record may be indented further, as they
are in the text of a cluster, and other lines may follow. -/

namespace XlReg

open Text Lines Lines.Parser

variable {T : Texts}

/-- An end point that keeps its place in the text. -/
def WritableEnd (e : String) : Prop := Trimmed e ∧ e ≠ "\x7d"

/-- Shifting bytes into the free end of a word adds their number to it. -/
theorem orBytes_toNat (val : List UInt8) (attrs : UInt64) (hlen : val.length ≤ 8)
    (hdvd : 256 ^ val.length ∣ attrs.toNat) :
    (orBytes val attrs).toNat = attrs.toNat + ofBytes val := by
  induction val generalizing attrs with
  | nil => simp [orBytes, ofBytes]
  | cons v val ih =>
    rw [List.length_cons] at hlen hdvd
    have hpow : (256 : ℕ) ^ val.length = 2 ^ (8 * val.length) := by rw [Nat.pow_mul]
    have hpow' : (256 : ℕ) ^ (val.length + 1) = 2 ^ (8 * val.length + 8) := by
      rw [Nat.pow_succ, hpow, Nat.pow_add]
    have hv : v.toNat < 2 ^ 8 := v.toNat_lt
    have hlt : v.toNat * 2 ^ (8 * val.length) < 2 ^ (8 * val.length + 8) := by
      rw [Nat.pow_add, Nat.mul_comm]
      exact Nat.mul_lt_mul_of_pos_left hv (by positivity)
    have hword : (2 : ℕ) ^ (8 * val.length + 8) ≤ 2 ^ 64 := Nat.pow_le_pow_right (by omega) (by omega)
    have hshift : (v.toUInt64 <<< UInt64.ofNat (8 * val.length)).toNat =
        v.toNat * 2 ^ (8 * val.length) := by
      rw [UInt64.toNat_shiftLeft, UInt8.toNat_toUInt64, UInt64.toNat_ofNat', Nat.shiftLeft_eq]
      have hmod : 8 * val.length % 2 ^ 64 % 64 = 8 * val.length := by omega
      rw [hmod]
      exact Nat.mod_eq_of_lt (by omega)
    obtain ⟨q, hq⟩ := hdvd
    have hor : (attrs ||| v.toUInt64 <<< UInt64.ofNat (8 * val.length)).toNat =
        attrs.toNat + v.toNat * 2 ^ (8 * val.length) := by
      rw [UInt64.toNat_or, hshift, hq, hpow', ← Nat.two_pow_add_eq_or_of_lt hlt]
    rw [orBytes, ih _ (by omega), hor, ofBytes_cons, hpow]
    · omega
    · rw [hor, hq, hpow', ← hpow, Nat.pow_add, ← hpow]
      exact ⟨2 ^ 8 * q + v.toNat, by ring⟩

theorem orBytes_bytesOf (a : UInt64) : orBytes (bytesOf 8 a.toNat) 0 = a := by
  have hsum := orBytes_toNat (bytesOf 8 a.toNat) 0 (by simp) (by simp)
  rw [ofBytes_bytesOf, UInt64.toNat_zero, Nat.zero_add, Nat.mod_eq_of_lt (by have := a.toNat_lt; omega)] at hsum
  exact UInt64.toNat_inj.1 hsum

theorem reads_attrs (T : Texts) {ind : String} (hind : AllSpace ind) (a : UInt64) :
    Reads (collectClientAttrs T) [ind ++ ("    attrs: 0x" ++ hex16 a)] (.ok a) := by
  have hline : trimSpace (ind ++ ("    attrs: 0x" ++ hex16 a)) = "attrs: 0x" ++ hex16 a := by
    have ht : Trimmed ("attrs: 0x" ++ hex16 a) :=
      (trimmed_hex16 a).append (by decide) (by decide)
    rw [show "    attrs: 0x" = "    " ++ "attrs: 0x" from rfl, String.append_assoc]
    exact trimSpace_indented hind allSpace_four ht
  have hdec : T.hexDecodeString (hex16 a) = .ok (bytesOf 8 a.toNat) := by
    have hdigits : hexDigits 16 a.toNat = (bytesOf 8 a.toNat).flatMap hexByte := hexDigits_bytes 8 a.toNat
    rw [Texts.hexDecodeString, hex16, String.toList_ofList, hdigits, decodeHex_bytes]
  refine (reads_next T.exhausted [] (by simp) hline (by simp)).bind_nil ?_
  simp only [after_append, hdec]
  refine (reads_ofExcept (.ok (bytesOf 8 a.toNat))).bind_nil ?_
  rw [if_neg (by simp), orBytes_bytesOf]
  exact reads_pure a

theorem shrinks_collectEnd (T : Texts) (ends : List String × Option Err) : Shrinks (collectEnd T ends) := by
  intro l ls a rest h
  unfold collectEnd at h
  cases hn : T.nextNBLine (l :: ls) with
  | ok line mid =>
    rw [hn] at h
    cases h
    exact (takes_next T.exhausted).shrinks l ls line _ hn
  | error e =>
    rw [hn] at h
    cases h
    exact Nat.zero_le _
  | fault x =>
    rw [hn] at h
    cases h

theorem reads_end (T : Texts) {ind e : String} (hind : AllSpace ind) (he : Trimmed e)
    (ends : List String × Option Err) :
    Reads (collectEnd T ends) [ind ++ ("        " ++ e)] (.ok (ends.1 ++ [e], none)) := by
  intro tail
  have hn := reads_next (φ := Abort) T.exhausted [] (by simp)
    (trimSpace_indented hind allSpace_eight he) he.ne tail
  rw [List.nil_append] at hn
  unfold collectEnd Texts.nextNBLine
  rw [hn]
  rfl

theorem foldlM_ends (items : List String) (s : List String × Option Err) (hs : s.2 = none) :
    items.foldlM (fun s e => (Except.ok (s.1 ++ [e], none) : Except Err _)) s =
      .ok (s.1 ++ items, none) := by
  induction items generalizing s with
  | nil =>
    obtain ⟨l, err⟩ := s
    cases hs
    simp [pure, Except.pure]
  | cons e items ih =>
    have h := ih (s.1 ++ [e], none) rfl
    rw [List.append_assoc, List.singleton_append] at h
    rw [List.foldlM_cons]
    exact h

theorem reads_closingBrace (T : Texts) {ind : String} (hind : AllSpace ind) :
    Reads T.closingBrace [ind ++ "\x7d"] (.ok ()) := by
  have hbrace : Trimmed "\x7d" := ⟨by decide, by decide⟩
  exact reads_expect T.exhausted _ [] (by simp) (hbrace.indent hind) hbrace.ne

theorem reads_myEnds (T : Texts) {ind : String} (hind : AllSpace ind) (ends : List String)
    (hends : ∀ e ∈ ends, WritableEnd e) :
    Reads (collectMyEnds T)
      ([ind ++ "    endPoints \x7b"] ++ (ends.map (fun e => ind ++ ("        " ++ e)) ++ [ind ++ "    \x7d"]))
      (.ok ends) := by
  have hopen : trimSpace (ind ++ "    endPoints \x7b") = "endPoints \x7b" := by
    rw [trimSpace_append_left hind]
    decide
  have hclose : trimSpace (ind ++ "    \x7d") = "\x7d" := by
    rw [trimSpace_append_left hind]
    decide
  refine (reads_next T.exhausted [] (by simp) hopen (by decide)).bind ?_
  rw [if_pos rfl]
  intro tail
  have hloop := loop_items (x := Abort.indexOutOfRange) (shrinks_collectEnd T) hclose
    (fun e => [ind ++ ("        " ++ e)]) (fun s e => .ok (s.1 ++ [e], none)) ends
    (fun e he => ⟨_, _, rfl, by
      rw [trimSpace_indented hind allSpace_eight (hends e he).1]
      exact (hends e he).2⟩)
    (fun s e he => reads_end T hind (hends e he).1 s) ([], none) tail
  have hmap : ends.flatMap (fun e => [ind ++ ("        " ++ e)]) =
      ends.map (fun e => ind ++ ("        " ++ e)) := List.map_eq_flatMap.symm
  rw [foldlM_ends ends _ rfl, List.nil_append, hmap] at hloop
  rw [List.append_assoc, List.singleton_append, bind_of_ok hloop]
  have hb := reads_closingBrace T (hind.append allSpace_four) tail
  rw [String.append_assoc] at hb
  exact bind_of_ok hb

theorem reads_clientInfo (T : Texts) (addr : ℕ) {ind : String} (hind : AllSpace ind) (mi : ClientInfo)
    (hbn : T.ParsesBack mi.baseNode) (hends : ∀ e ∈ mi.myEnds, WritableEnd e) :
    Reads (parseClientInfoFromStrings T addr) ((mi.strings T).map (ind ++ ·))
      (.ok { mi with addr := addr }) := by
  have hlines : (mi.strings T).map (ind ++ ·) =
      ((ind ++ "clientInfo \x7b") :: (T.baseNodeStrings mi.baseNode).map (fun l => ind ++ ("    " ++ l))) ++
      ([ind ++ ("    attrs: 0x" ++ hex16 mi.attrs)] ++
      (([ind ++ "    endPoints \x7b"] ++
        (mi.myEnds.map (fun e => ind ++ ("        " ++ e)) ++ [ind ++ "    \x7d"])) ++
      [ind ++ "\x7d"])) := by
    simp [ClientInfo.strings, List.map_map, Function.comp_def]
  have hnode : Reads (lift (T.parseBNFromStrings "clientInfo") : Parse BaseNode)
      ((ind ++ "clientInfo \x7b") :: (T.baseNodeStrings mi.baseNode).map (fun l => ind ++ ("    " ++ l)))
      (.ok mi.baseNode) := by
    intro tail
    exact lift_ok_iff.2 (hbn ind hind tail)
  rw [hlines]
  refine hnode.bind ((reads_attrs T hind mi.attrs).bind ((reads_myEnds T hind mi.myEnds hends).bind ?_))
  exact (reads_closingBrace T hind).bind_nil (reads_pure _)

/-- A client is parsed back from its text, however far that is indented and whatever follows. -/
theorem clientInfo_strings_parse (T : Texts) (mi : ClientInfo) (addr : ℕ) (ind : String)
    (tail : List String) (hind : AllSpace ind) (hbn : T.ParsesBack mi.baseNode)
    (hends : ∀ e ∈ mi.myEnds, WritableEnd e) :
    ∃ ci, parseClientInfoFromStrings T addr ((mi.strings T).map (ind ++ ·) ++ tail) = .ok ci tail ∧
      mi.equal ci = true := by
  refine ⟨{ mi with addr := addr }, reads_clientInfo T addr hind mi hbn hends tail, ?_⟩
  simp [ClientInfo.equal, ClientInfo.baseNode]

/-- A client of three end points, indented by a tab, before other lines. -/
theorem clientInfo_strings_parse_sample :
    let mi := { Sample.client 0 "a" 1 with myEnds := ["127.0.0.1:80", "[::1]:80", "h:1"] }
    ∃ ci, parseClientInfoFromStrings .plain 5 ((mi.strings .plain).map ("\t" ++ ·) ++ ["x", "\x7d"]) =
      .ok ci ["x", "\x7d"] ∧ mi.equal ci = true :=
  clientInfo_strings_parse .plain _ 5 "\t" ["x", "\x7d"] (by decide)
    (plain_parsesBack _ ⟨by decide, by decide⟩) (by
      intro e he
      simp only [List.mem_cons, List.not_mem_nil, or_false] at he
      rcases he with rfl | rfl | rfl <;> exact ⟨⟨by decide, by decide⟩, by decide⟩)

end XlReg
