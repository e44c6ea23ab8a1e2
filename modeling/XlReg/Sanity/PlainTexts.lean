import XlReg.Sanity.Plain
import XlReg.Spec.Strings

/-! The assumptions about texts can be met: a node is written on four tagged lines, a key as two
numbers. The concrete texts of this development use these packages. -/

namespace XlReg

open Text Lines Lines.Parser

def RSAPublicKey.text (k : RSAPublicKey) : String := toString k.n ++ "-" ++ toString k.e

def RSAPublicKey.ofText (s : String) : Option RSAPublicKey :=
  match s.toList.splitOn '-' with
  | [n, e] => (magnitude 10 n).bind fun n => (magnitude 10 e).map fun e => ⟨n, e⟩
  | _ => none

/-- A value after a tag. -/
def Sample.tagged {α : Type} (tag : String) (read : String → Option α) : Parse α := do
  let line ← next (.other "exhausted")
  match (after tag line).bind read with
  | some a => pure a
  | none => fail (.other "ill-formed node")

def Sample.baseNode (whichType : String) : Parse BaseNode := do
  expect (.other "exhausted") (.other "ill-formed node") (whichType ++ " \x7b")
  let name ← tagged "name: " some
  let id ← tagged "nodeID: " fun s => (decodeHex s.toList).bind fun b => (nodeIDOf .plain b).toOption
  let ck ← tagged "commsPubKey: " RSAPublicKey.ofText
  let sk ← tagged "sigPubKey: " RSAPublicKey.ofText
  pure ⟨name, id, ck, sk⟩

theorem Sample.keeps_tagged {α : Type} (tag : String) (read : String → Option α) :
    Keeps (Sample.tagged tag read) := by
  refine (keeps_next _).bind fun line => ?_
  split
  · exact keeps_pure _
  · exact keeps_fail _

theorem Sample.keeps_baseNode (whichType : String) : Keeps (Sample.baseNode whichType) :=
  (takes_expect _ _ _).keeps.bind fun _ => (keeps_tagged _ _).bind fun _ => (keeps_tagged _ _).bind fun _ =>
    (keeps_tagged _ _).bind fun _ => (keeps_tagged _ _).bind fun _ => keeps_pure _

def Texts.plain : Texts where
  exhausted := .other "exhausted string array"
  hexError _ := .other "encoding/hex: invalid byte"
  numError _ := .other "strconv: invalid numeral"
  baseNodeStrings bn :=
    ["name: " ++ bn.name, "nodeID: " ++ hexEncode bn.nodeID.value,
      "commsPubKey: " ++ bn.commsPubKey.text, "sigPubKey: " ++ bn.sigPubKey.text]
  parseBNFromStrings whichType ss :=
    match Sample.baseNode whichType ss with
    | .ok bn rest => .ok (bn, rest)
    | .error e => .error e
    | .fault _ => .error (.other "fault")
  parseBN_le whichType ss bn rest h := by
    split at h
    · rename_i hr
      cases h
      exact Sample.keeps_baseNode whichType ss bn rest hr
    · cases h
    · cases h
  rsaPubKeyFromDisk s :=
    match RSAPublicKey.ofText s with
    | some k => .ok k
    | none => .error (.other "not an RSA public key")
  parseNodeFromStrings ss :=
    match ss with
    | "node" :: rest => .ok (⟨"xlReg", .rep 9, "", ⟨1, 3⟩, ⟨2, 3⟩⟩, rest)
    | _ => .error (.other "ill-formed node")
  expectRSAPrivateKey ss :=
    match ss with
    | "key" :: rest => .ok (⟨⟨1, 3⟩, 5⟩, rest)
    | _ => .error (.other "not an RSA private key")
  openAcc _ := none
  getAcceptor _ := some ()
  acceptorNotLive := .other "acceptor not live"

theorem RSAPublicKey.ofText_text (k : RSAPublicKey) : RSAPublicKey.ofText k.text = some k := by
  have hno : ∀ n, '-' ∉ Nat.toDigits 10 n := by
    intro n h
    have := Nat.isDigit_of_mem_toDigits (by omega) (by omega) h
    simp at this
  have hl : k.text.toList = Nat.toDigits 10 k.n ++ '-' :: Nat.toDigits 10 k.e := by
    simp [RSAPublicKey.text]
  rw [RSAPublicKey.ofText, hl, List.splitOn_append_cons_self_of_not_mem (hno _),
    List.splitOn_eq_singleton (hno _)]
  simp [magnitude_toDigits]

theorem RSAPublicKey.trimmed_text (k : RSAPublicKey) : Trimmed k.text := by
  have hdigit : ∀ n, ∀ c ∈ Nat.toDigits 10 n, isSpace c = false := by
    intro n c hc
    obtain ⟨d, hd, rfl⟩ := mem_toDigits hc
    exact isSpace_digitChar (by omega)
  apply trimmed_of_no_space
  · simp [RSAPublicKey.text]
  · intro c hc
    have hl : k.text.toList = Nat.toDigits 10 k.n ++ '-' :: Nat.toDigits 10 k.e := by
      simp [RSAPublicKey.text]
    rw [hl, List.mem_append, List.mem_cons] at hc
    rcases hc with hc | rfl | hc
    · exact hdigit _ c hc
    · decide
    · exact hdigit _ c hc

theorem Sample.reads_tagged {α : Type} {tag s l : String} {read : String → Option α} {a : α}
    (hl : trimSpace l = tag ++ s) (htag : tag ≠ "") (hread : read s = some a) :
    Reads (Sample.tagged tag read) [l] (.ok a) := by
  refine (reads_next _ [] (by simp) hl (by simp [htag])).bind_nil ?_
  rw [after_append, Option.bind_some, hread]
  exact reads_pure a

theorem plain_parsesBack (bn : BaseNode) (hname : Trimmed bn.name) : Texts.plain.ParsesBack bn := by
  intro ind hind tail
  have hid : Trimmed (hexEncode bn.nodeID.value) := by
    apply trimmed_hexEncode
    intro h
    have hv := bn.nodeID.valid
    rw [h] at hv
    simp at hv
  have hline : ∀ {tag s : String}, Trimmed s → tag ≠ "" → tag.toList.head?.any isSpace = false →
      trimSpace (ind ++ ("    " ++ (tag ++ s))) = tag ++ s := by
    intro tag s hs hne htag
    exact trimSpace_indented hind allSpace_four (hs.append hne htag)
  have hhead : trimSpace (ind ++ "clientInfo \x7b") = "clientInfo \x7b" := by
    rw [trimSpace_append_left hind]
    decide
  have hread : Reads (Sample.baseNode "clientInfo")
      ([ind ++ "clientInfo \x7b"] ++ ([ind ++ ("    " ++ ("name: " ++ bn.name))] ++
      ([ind ++ ("    " ++ ("nodeID: " ++ hexEncode bn.nodeID.value))] ++
      ([ind ++ ("    " ++ ("commsPubKey: " ++ bn.commsPubKey.text))] ++
      [ind ++ ("    " ++ ("sigPubKey: " ++ bn.sigPubKey.text))])))) (.ok bn) := by
    refine (reads_expect _ _ [] (by simp) hhead (by decide)).bind ?_
    refine (Sample.reads_tagged (hline hname (by decide) (by decide)) (by decide) rfl).bind ?_
    refine (Sample.reads_tagged (hline hid (by decide) (by decide)) (by decide)
      (a := bn.nodeID) (by rw [hexEncode_toList, decodeHex_bytes]; simp [Except.toOption])).bind ?_
    refine (Sample.reads_tagged (hline bn.commsPubKey.trimmed_text (by decide) (by decide)) (by decide)
      bn.commsPubKey.ofText_text).bind ?_
    exact (Sample.reads_tagged (hline bn.sigPubKey.trimmed_text (by decide) (by decide)) (by decide)
      bn.sigPubKey.ofText_text).bind_nil (reads_pure _)
  have h := hread tail
  simp only [List.cons_append, List.nil_append] at h
  simp only [Texts.plain, List.map_cons, List.map_nil, List.cons_append, List.nil_append]
  rw [h]
  rfl

end XlReg
