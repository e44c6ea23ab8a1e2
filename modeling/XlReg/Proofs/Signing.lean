import XlReg.Proofs.Tokens
import XlReg.Sanity.Exchanges
import XlReg.Sanity.Sessions

/-! The signature on a Member message. Client and server hash the same bytes, so what a client
signs is accepted. The bytes are the fields one after the other, without their lengths: other
fields with the same bytes have the same signature. -/

namespace XlReg

open Text

def utf8 (s : String) : Bytes := s.toUTF8.data.toList

theorem utf8_injective : Function.Injective utf8 := by
  intro s s' h
  have hdata : s.toUTF8.data = s'.toUTF8.data := Array.toList_inj.1 h
  exact String.toByteArray_inj.1 (ByteArray.ext hdata)

theorem testBit_byte (x : UInt64) {i j : ℕ} (hi : i < 8) (hj : j < 8) :
    (x >>> (8 * UInt64.ofNat i)).toUInt8.toNat.testBit j = x.toNat.testBit (8 * i + j) := by
  have hshift : (8 * UInt64.ofNat i).toNat % 64 = 8 * i := by
    interval_cases i <;> rfl
  rw [UInt64.toNat_toUInt8, UInt64.toNat_shiftRight, hshift, Nat.testBit_mod_two_pow,
    Nat.testBit_shiftRight]
  simp [hj]

theorem putUint64_injective : Function.Injective putUint64 := by
  intro x y h
  have hbyte : ∀ i < 8, (x >>> (8 * UInt64.ofNat i)).toUInt8 = (y >>> (8 * UInt64.ofNat i)).toUInt8 :=
    fun i hi => List.map_inj_left.1 h i (List.mem_range.2 hi)
  apply UInt64.toNat_inj.1
  apply Nat.eq_of_testBit_eq
  intro k
  by_cases hk : k < 64
  · have hi : k / 8 < 8 := by omega
    have hj : k % 8 < 8 := Nat.mod_lt _ (by decide)
    rw [← Nat.div_add_mod k 8, ← testBit_byte x hi hj, ← testBit_byte y hi hj, hbyte _ hi]
  · have hle : 2 ^ 64 ≤ 2 ^ k := Nat.pow_le_pow_right (by decide) (by omega)
    rw [Nat.testBit_lt_two_pow (x.toNat_lt.trans_le hle),
      Nat.testBit_lt_two_pow (y.toNat_lt.trans_le hle)]

/-! Client and server agree. -/

/-- `VerifyPKCS1v15` accepts what `SignPKCS1v15` has made with the matching key. -/
def VerifiesSigned (D : Deps) (K : ClientDeps) : Prop :=
  ∀ sk hash sig, K.signPKCS1v15 sk hash = .ok sig → D.verifyPKCS1v15 sk.pub hash (some sig) = none

variable {D : Deps} {K : ClientDeps}

theorem myEnd_eq (ep : EndPoint) : myEnd ep = ep.addr := by
  rw [myEnd, EndPoint.string, after_append, Option.getD_some]

/-- What a client signs is what the server hashes. -/
theorem memberToken_ok {cm : ClusterMember} {t : Token} (h : memberToken D K cm = .ok t) :
    ∃ ckBytes skBytes digSig, D.rsaPubKeyToWire cm.node.ckPriv.pub = .ok ckBytes ∧
      D.rsaPubKeyToWire cm.node.skPriv.pub = .ok skBytes ∧
      K.signPKCS1v15 cm.node.skPriv (D.sha1 (signedBytes t)) = .ok digSig ∧
      t = { Token.describing cm.node.name cm.proposedAttrs cm.node.nodeID ckBytes skBytes
              (cm.node.endPoints.map (·.addr)) with digSig := some digSig } := by
  unfold memberToken at h
  obtain ⟨ckBytes, hck, h⟩ := Run.bind_ok h
  obtain ⟨skBytes, hsk, h⟩ := Run.bind_ok h
  obtain ⟨digSig, hsig, h⟩ := Run.bind_ok h
  cases h
  have hends : cm.node.endPoints.map myEnd = cm.node.endPoints.map (·.addr) :=
    List.map_congr_left fun ep _ => myEnd_eq ep
  exact ⟨ckBytes, skBytes, digSig, hck, hsk, hsig, by rw [hends]; rfl⟩

theorem memberRequest_ok {cm : ClusterMember} {m : XLRegMsg} (h : memberRequest D K cm = some m) :
    ∃ t, memberToken D K cm = .ok t ∧ m = { op := some Tag.member, memberSpecs := some t } := by
  unfold memberRequest at h
  cases htoken : memberToken D K cm with
  | error e => rw [htoken] at h; cases h
  | ok t => rw [htoken] at h; cases h; exact ⟨t, rfl, rfl⟩

theorem verifySpecs_memberToken (hkeys : D.KeysDecode) (hsign : VerifiesSigned D K) {cm : ClusterMember}
    {t : Token} (h : memberToken D K cm = .ok t) :
    verifySpecs D t = .ok (cm.node.ckPriv.pub, cm.node.skPriv.pub) := by
  obtain ⟨ckBytes, skBytes, digSig, hck, hsk, hsig, ht⟩ := memberToken_ok h
  have hverify := hsign _ _ _ hsig
  have hck' : D.rsaPubKeyFromWire t.commsKey = .ok cm.node.ckPriv.pub := by
    rw [ht]
    exact hkeys _ _ hck
  have hsk' : D.rsaPubKeyFromWire t.sigKey = .ok cm.node.skPriv.pub := by
    rw [ht]
    exact hkeys _ _ hsk
  have hdig : t.digSig = some digSig := by rw [ht]
  simp only [verifySpecs, hck', hsk', hdig, hverify]

/-- Whatever the server has done so far, a client's Member request in a session that waits for it is
verified and answered with the client's own ID and attrs, and the session has the client's
description. -/
theorem memberRequest_answered (hkeys : D.KeysDecode) (hsign : VerifiesSigned D K) (hf : D.FilterTotal)
    {cm : ClusterMember}
    (hnode : D.newBaseNode cm.node.name cm.node.nodeID cm.node.ckPriv.pub cm.node.skPriv.pub = none)
    {m : XLRegMsg} (hm : memberRequest D K cm = some m) {s : ServerState} {k : ℕ} {c : Session}
    (hc : s.parties[k]? = some c) (hst : c.h.entryState = .helloRcvd) (draws : List NodeID) :
    verifySpecs D m.getMemberSpecs = .ok (cm.node.ckPriv.pub, cm.node.skPriv.pub) ∧
    ∃ s' c' ex ci, (server D).next s (.act k ⟨m, draws⟩) = .ok s' ∧ s'.parties[k]? = some c' ∧
      c'.exchanges = c.exchanges ++ [ex] ∧ ex.err = none ∧
      ex.reply = some (memberOK cm.node.nodeID cm.proposedAttrs) ∧ c'.h.thisClient = some ci ∧
      ci.name = cm.node.name ∧ ci.nodeID = cm.node.nodeID ∧ ci.attrs = cm.proposedAttrs ∧
      ci.commsPubKey = cm.node.ckPriv.pub ∧ ci.sigPubKey = cm.node.skPriv.pub ∧
      ci.myEnds = cm.node.endPoints.map (·.addr) := by
  obtain ⟨t, htoken, rfl⟩ := memberRequest_ok hm
  have hv := verifySpecs_memberToken hkeys hsign htoken
  refine ⟨hv, ?_⟩
  obtain ⟨f, hid⟩ := clientID_total hf s.shared.world.reg.idFilter cm.node.nodeID draws
  obtain ⟨ckBytes, skBytes, digSig, -, -, -, rfl⟩ := memberToken_ok htoken
  have hd : dispatch c.h.entryState (op2tag Tag.member) = some .doClientMsg := by rw [hst]; decide
  have hrun := doClientMsg_accepts (D := D) (w := s.shared.world)
    (h := { c.h with msgIn := { op := some Tag.member, memberSpecs := some _ } }) ⟨hv, hid, hnode⟩
  obtain ⟨s', hnext, hc'⟩ :=
    server_handled (x := ⟨{ op := some Tag.member, memberSpecs := some _ }, draws⟩) hc hd hrun
  exact ⟨s', _, _, _, hnext, hc', rfl, rfl, rfl, rfl, rfl, rfl, rfl, rfl, rfl, rfl⟩

namespace Sample

def signer : ClusterMember :=
  { madeMember none 2 with
    node := { clientNode with endPoints := [⟨"127.0.0.1:80"⟩, ⟨"127.0.0.1:81"⟩] }, proposedAttrs := 6 }

end Sample

theorem exact_verifiesSigned : VerifiesSigned .exact .plain := by
  intro sk hash sig h
  cases h
  simp [Deps.exact, Deps.plain]

theorem memberRequest_answered_sample :
    ∃ m s', memberRequest .exact .plain Sample.signer = some m ∧
      (server .exact).next ⟨⟨World.init (.rep 9), []⟩, [{}]⟩ (.act 0 ⟨m, []⟩) = .ok s' ∧
      ∃ c' ci, s'.parties[0]? = some c' ∧ c'.h.thisClient = some ci ∧
        ci.myEnds = ["127.0.0.1:80", "127.0.0.1:81"] := by
  obtain ⟨m, hm⟩ : ∃ m, memberRequest .exact .plain Sample.signer = some m := ⟨_, rfl⟩
  obtain ⟨-, s', c', ex, ci, hnext, hc', -, -, -, hci, -, -, -, -, -, hends⟩ :=
    memberRequest_answered exact_keysDecode exact_verifiesSigned ⟨fun _ _ => rfl, fun _ _ => rfl⟩
      (by rfl) hm (s := ⟨⟨World.init (.rep 9), []⟩, [{}]⟩) (k := 0) rfl rfl []
  exact ⟨m, s', hm, hnext, c', ci, hc', hci, hends⟩

/-! The signature and the fields. -/

def signedFields (t : Token) : List Bytes :=
  utf8 t.getName :: putUint64 t.getAttrs :: t.commsKey.getD [] :: t.sigKey.getD [] :: t.myEnds.map utf8

theorem signedBytes_eq (t : Token) : signedBytes t = (signedFields t).flatten := by
  simp only [signedBytes, signedFields, List.flatten_cons, List.append_assoc]
  rfl

/-- The signed fields other than the signature key. -/
structure SameFields (t t' : Token) : Prop where
  name : t.getName = t'.getName
  attrs : t.getAttrs = t'.getAttrs
  commsKey : t.commsKey.getD [] = t'.commsKey.getD []
  myEnds : t.myEnds = t'.myEnds

/-- The fields are cut from the bytes at the same places. -/
def SameLengths (t t' : Token) : Prop :=
  (signedFields t).map List.length = (signedFields t').map List.length

theorem sameFields_iff_lengths {t t' : Token} (h : signedBytes t = signedBytes t') :
    SameFields t t' ↔ SameLengths t t' := by
  rw [signedBytes_eq, signedBytes_eq] at h
  constructor
  · rintro ⟨hname, hattrs, hck, hends⟩
    have hsk : t.sigKey.getD [] = t'.sigKey.getD [] := by
      simpa [signedFields, hname, hattrs, hck, hends] using h
    simp only [SameLengths, signedFields, hname, hattrs, hck, hsk, hends]
  · intro hlen
    have hall := List.eq_iff_flatten_eq.2 ⟨h, hlen⟩
    simp only [signedFields, List.cons.injEq] at hall
    obtain ⟨hname, hattrs, hck, -, hends⟩ := hall
    exact ⟨utf8_injective hname, putUint64_injective hattrs, hck,
      List.map_injective_iff.2 utf8_injective hends⟩

theorem verifySpecs_ok {t : Token} {ck sk : RSAPublicKey} (h : verifySpecs D t = .ok (ck, sk)) :
    D.verifyPKCS1v15 sk (D.sha1 (signedBytes t)) t.digSig = none := by
  unfold verifySpecs at h
  split at h
  · cases h
  · split at h
    · cases h
    · split at h
      · cases h
      · rename_i hv
        cases h
        exact hv

/-- Two tokens that verify with one key and one signature have the same fields exactly if these
have the same lengths, one by one. -/
theorem signature_binds_iff (hsha : Function.Injective D.sha1)
    (hone : ∀ sk hash hash' sig, D.verifyPKCS1v15 sk hash sig = none →
      D.verifyPKCS1v15 sk hash' sig = none → hash = hash')
    {t t' : Token} {ck ck' sk : RSAPublicKey} (ht : verifySpecs D t = .ok (ck, sk))
    (ht' : verifySpecs D t' = .ok (ck', sk)) (hsig : t.digSig = t'.digSig) :
    SameFields t t' ↔ SameLengths t t' := by
  have hv := verifySpecs_ok ht
  have hv' := verifySpecs_ok ht'
  rw [← hsig] at hv'
  exact sameFields_iff_lengths (hsha (hone _ _ _ _ hv hv'))

namespace Sample

/-- A token that is signed with the key `⟨2, 3⟩`. -/
def signed (myEnds : List String) : Token :=
  let t : Token := { name := some "a", attrs := some 0, commsKey := some [1, 3], sigKey := some [2, 3],
                     myEnds }
  { t with digSig := some (2 :: signedBytes t) }

def unnumbered : Token := signed ["10.0.0.1:80"]

/-- The same token with an ID, which is not among what is signed. -/
def numbered : Token := { unnumbered with id := some (NodeID.rep 7).value }

end Sample

theorem exact_one_hash (sk : RSAPublicKey) (hash hash' : Bytes) (sig : Option Bytes)
    (h : Deps.exact.verifyPKCS1v15 sk hash sig = none)
    (h' : Deps.exact.verifyPKCS1v15 sk hash' sig = none) : hash = hash' := by
  simp only [Deps.exact, Deps.plain] at h h'
  split_ifs at h with hs
  split_ifs at h' with hs'
  rw [hs] at hs'
  exact (List.cons.inj (Option.some.inj hs')).2

theorem signature_binds_sample :
    Sample.unnumbered ≠ Sample.numbered ∧
    verifySpecs .exact Sample.unnumbered = .ok (⟨1, 3⟩, ⟨2, 3⟩) ∧
    verifySpecs .exact Sample.numbered = .ok (⟨1, 3⟩, ⟨2, 3⟩) ∧
    (SameFields Sample.unnumbered Sample.numbered ↔ SameLengths Sample.unnumbered Sample.numbered) ∧
    SameFields Sample.unnumbered Sample.numbered := by
  have hne : Sample.unnumbered ≠ Sample.numbered := fun h => by cases congrArg Token.id h
  have ht : verifySpecs .exact Sample.unnumbered = .ok (⟨1, 3⟩, ⟨2, 3⟩) := by rfl
  have ht' : verifySpecs .exact Sample.numbered = .ok (⟨1, 3⟩, ⟨2, 3⟩) := by rfl
  have hiff := signature_binds_iff (D := .exact) (fun _ _ h => h) exact_one_hash ht ht' rfl
  exact ⟨hne, ht, ht', hiff, hiff.2 rfl⟩

/-- A byte moved from one end point to the one before it: the signature stays valid. -/
theorem signature_moved :
    (Sample.signed ["10.0.0.1:1", "20.0.0.1:80"]).digSig =
      (Sample.signed ["10.0.0.1:12", "0.0.0.1:80"]).digSig ∧
    verifySpecs .exact (Sample.signed ["10.0.0.1:1", "20.0.0.1:80"]) = .ok (⟨1, 3⟩, ⟨2, 3⟩) ∧
    verifySpecs .exact (Sample.signed ["10.0.0.1:12", "0.0.0.1:80"]) = .ok (⟨1, 3⟩, ⟨2, 3⟩) ∧
    ¬ SameFields (Sample.signed ["10.0.0.1:1", "20.0.0.1:80"])
      (Sample.signed ["10.0.0.1:12", "0.0.0.1:80"]) := by
  refine ⟨by decide +kernel, by rfl, by rfl, ?_⟩
  rintro ⟨-, -, -, hends⟩
  revert hends
  decide

end XlReg
