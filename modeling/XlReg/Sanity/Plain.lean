import XlReg.Spec.Server

/-! The assumptions about the packages can be met: bit maps as the bits of a word, a HAMT
and a filter that never fail, and a toy cryptography in which a signature is the signer's
key followed by what was signed. The concrete runs of this development use it. -/

namespace XlReg

/-- The bit operations on a 64-bit word. -/
def BitMap64.word : BitMap64 where
  lowNMap n := ⟨BitVec.allOnes 64 >>> (64 - n)⟩
  test b i := b.toBitVec.getLsbD i
  set b i := ⟨b.toBitVec ||| BitVec.twoPow 64 i⟩
  clear b i := ⟨b.toBitVec &&& ~~~ BitVec.twoPow 64 i⟩
  intersection a b := ⟨a.toBitVec &&& b.toBitVec⟩
  any b := b != 0
  test_zero i := by simp
  test_lowNMap n i hn := by
    simp only [BitVec.getLsbD_ushiftRight, BitVec.getLsbD_allOnes]
    exact decide_eq_decide.2 (by omega)
  test_set b i j hi := by
    simp only [BitVec.getLsbD_or, BitVec.getLsbD_twoPow, hi, decide_true, Bool.true_and]
    rw [Bool.or_comm]
  test_clear b i j hi := by
    simp only [BitVec.getLsbD_and, BitVec.getLsbD_not, BitVec.getLsbD_twoPow, hi, decide_true,
      Bool.true_and]
    by_cases hj : j < 64
    · simp [hj, Bool.and_comm]
    · have hb : b.toBitVec.getLsbD j = false := BitVec.getLsbD_of_ge _ _ (by omega)
      simp [hb]
  test_intersection a b i := by simp
  any_iff b := by
    have hz : b = 0 ↔ ∀ i, b.toBitVec.getLsbD i = false := by
      rw [← UInt64.toBitVec_inj]
      refine ⟨fun h i => by rw [h]; simp, fun h => ?_⟩
      apply BitVec.eq_of_getLsbD_eq
      intro i _
      rw [h i]
      simp
    rw [bne_iff_ne, ne_eq, hz, not_forall]
    exact exists_congr fun i => by simp

/-- Packages in which no map or filter operation fails. -/
def Deps.plain : Deps where
  rsaPubKeyFromWire
    | some [n, e] => .ok ⟨n.toNat, e.toNat⟩
    | _ => .error (.other "not an RSA public key")
  rsaPubKeyToWire k := .ok [UInt8.ofNat k.n, UInt8.ofNat k.e]
  sha1 b := [b.foldl (· + ·) 0]
  verifyPKCS1v15 sk hash sig :=
    if sig = some (UInt8.ofNat sk.n :: hash) then none
    else some (.other "crypto/rsa: verification error")
  badNodeID := .other "not a valid nodeID"
  newBaseNode name _ _ _ := if name = "" then some (.other "missing name") else none
  newPeer name _ _ _ _ := if name = "" then some (.other "missing name") else none
  newTcpEndPoint a := if a = "" then .error (.other "not an endPoint") else .ok ⟨a⟩
  newTcpConnector ep := .ok ⟨ep⟩
  maxW := 6
  nextExp2_32 n := Nat.clog 2 n.toNat
  newHAMT _ _ := none
  newBytesKey
    | some (_ :: _) => none
    | _ => some (.other "nil or empty key")
  findErr _ _ := none
  insertErr _ _ := none
  isMemberErr _ _ := none
  filterInsertErr _ _ := none
  falsePositive _ _ := false
  bits := .word

/-- The same, with a hash that has no collisions, keys that are encoded only if they fit, and end
points that are addresses without a blank. -/
def Deps.exact : Deps :=
  { Deps.plain with
    sha1 := fun b => b
    rsaPubKeyToWire := fun k =>
      if k.n < 256 ∧ k.e < 256 then .ok [UInt8.ofNat k.n, UInt8.ofNat k.e]
      else .error (.other "key too long")
    newTcpEndPoint := fun a =>
      if a = "" ∨ ' ' ∈ a.toList then .error (.other "not an endPoint") else .ok ⟨a⟩ }

theorem plain_hamtTotal : Deps.plain.HamtTotal := ⟨fun _ _ => rfl, fun _ _ => rfl⟩

theorem plain_exactFilter : Deps.plain.ExactFilter :=
  ⟨fun _ _ => rfl, fun _ _ => rfl, fun _ _ => rfl⟩

theorem plain_keysNodeIDs : Deps.plain.KeysNodeIDs := by
  intro n
  have hv := n.valid
  cases h : n.value with
  | nil => rw [h] at hv; simp at hv
  | cons a t => rfl

theorem exact_keysDecode : Deps.exact.KeysDecode := by
  intro k b h
  simp only [Deps.exact] at h
  split_ifs at h with hfit
  cases h
  obtain ⟨hn, he⟩ := hfit
  simp [Deps.exact, Deps.plain, Nat.mod_eq_of_lt hn, Nat.mod_eq_of_lt he]

theorem exact_peersOfNodes : Deps.exact.PeersOfNodes := fun _ _ _ _ _ h => h

theorem exact_farEnds : Deps.exact.FarEnds := by
  intro ep ctor h
  cases h
  rfl

/-- The node ID of 32 bytes `b`, for concrete runs. -/
def NodeID.rep (b : UInt8) : NodeID := ⟨List.replicate 32 b, by simp⟩

/-! A cluster, clients and requests for concrete runs. -/

namespace Sample

def cluster : RegCluster := ⟨"c", .rep 0, 0, 2, 1, [], ∅, .empty⟩

def client (addr : ℕ) (name : String) (b : UInt8) : ClientInfo :=
  ⟨addr, name, .rep b, ⟨1, 3⟩, ⟨2, 3⟩, 0, ["127.0.0.1:80"]⟩

/-- A Member message signed with the key `⟨key, 3⟩`. -/
def member (name : String) (id : Option NodeID) (key : UInt8) : XLRegMsg :=
  let t : Token := { name := some name, attrs := some 0, id := id.map (·.value),
                     commsKey := some [1, 3], sigKey := some [key, 3], myEnds := ["127.0.0.1:80"] }
  { op := some Tag.member,
    memberSpecs := some { t with digSig := some (key :: Deps.plain.sha1 (signedBytes t)) } }

def create (name : String) (maxSize : UInt32) : XLRegMsg :=
  { op := some Tag.create, clusterName := some name, clusterMaxSize := some maxSize,
    endPointCount := some 1 }

def joinByName (name : String) : XLRegMsg := { op := some Tag.join, clusterName := some name }

def joinByID (id : NodeID) : XLRegMsg := { op := some Tag.join, clusterID := some id.value }

def get (id : NodeID) (which : UInt64) : XLRegMsg :=
  { op := some Tag.getCluster, clusterID := some id.value, which := some which }

def bye : XLRegMsg := { op := some Tag.bye }

end Sample

end XlReg
