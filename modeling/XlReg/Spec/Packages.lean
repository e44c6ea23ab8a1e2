import XlReg.Spec.Basic

/-! What the registry uses of packages outside the repository, as parameters. Maps and
filters are the finite map and the set they are documented to be; when one of their
operations reports an error is a parameter, and in that case nothing has changed. -/

namespace XlReg

/-- The bit maps of `xlUtil_go`, by what their operations do to single bits. -/
structure BitMap64 where
  lowNMap : ℕ → UInt64
  test : UInt64 → ℕ → Bool
  set : UInt64 → ℕ → UInt64
  clear : UInt64 → ℕ → UInt64
  intersection : UInt64 → UInt64 → UInt64
  any : UInt64 → Bool
  test_zero : ∀ i, test 0 i = false
  test_lowNMap : ∀ n i, n ≤ 64 → test (lowNMap n) i = decide (i < n)
  test_set : ∀ b i j, i < 64 → test (set b i) j = (decide (i = j) || test b j)
  test_clear : ∀ b i j, i < 64 → test (clear b i) j = (!decide (i = j) && test b j)
  test_intersection : ∀ a b i, test (intersection a b) i = (test a i && test b i)
  any_iff : ∀ b, any b = true ↔ ∃ i, test b i = true

/-- An address and what it is dialled through. -/
structure EndPoint where
  addr : String
deriving DecidableEq

structure Connector where
  farEnd : EndPoint
deriving DecidableEq

structure Deps where
  rsaPubKeyFromWire : Option Bytes → Except Err RSAPublicKey
  rsaPubKeyToWire : RSAPublicKey → Except Err Bytes
  sha1 : Bytes → Bytes
  verifyPKCS1v15 : RSAPublicKey → Bytes → Option Bytes → Option Err
  /-- What `xi.New` reports for a value that is neither 20 nor 32 bytes long. -/
  badNodeID : Err
  newBaseNode : String → NodeID → RSAPublicKey → RSAPublicKey → Option Err
  newPeer : String → NodeID → RSAPublicKey → RSAPublicKey → List Connector → Option Err
  newTcpEndPoint : String → Except Err EndPoint
  newTcpConnector : EndPoint → Except Err Connector
  maxW : ℕ
  nextExp2_32 : UInt32 → ℕ
  newHAMT : ℕ → ℕ → Option Err
  newBytesKey : Option Bytes → Option Err
  /-- When `Find` and `Insert` report an error, by the keys present and the key given. -/
  findErr : List Bytes → Bytes → Option Err
  insertErr : List Bytes → Bytes → Option Err
  /-- When the Bloom filter reports an error, and which IDs never inserted it claims to
  have, by the IDs inserted and the ID given. -/
  isMemberErr : List Bytes → Bytes → Option Err
  filterInsertErr : List Bytes → Bytes → Option Err
  falsePositive : List Bytes → Bytes → Bool
  bits : BitMap64

/-- `xi.New` on a value that is there. -/
def nodeIDOf (D : Deps) (b : Bytes) : Except Err NodeID :=
  if h : b.length = 20 ∨ b.length = 32 then .ok ⟨b, h⟩ else .error D.badNodeID

/-- `xi.New`: on nil it draws a random ID. -/
def xiNew (D : Deps) (draw : NodeID) : Option Bytes → Except Err NodeID
  | none => .ok draw
  | some b => nodeIDOf D b

@[simp] theorem nodeIDOf_value (D : Deps) (n : NodeID) : nodeIDOf D n.value = .ok n := by
  simp [nodeIDOf, n.valid]

theorem nodeIDOf_ok {D : Deps} {n : NodeID} {b : Bytes} (h : nodeIDOf D b = .ok n) :
    n.value = b := by
  unfold nodeIDOf at h
  split_ifs at h
  cases h
  rfl

/-- `ha.NewBytesKey`: the key made from a slice is the slice, nil counting as empty. -/
def newBytesKey (D : Deps) (b : Option Bytes) : Except Err Bytes :=
  match D.newBytesKey b with
  | some e => .error e
  | none => .ok (b.getD [])

/-- `ha.HAMT`, a finite map from byte keys. -/
structure Hamt (α : Type) where
  map : AList fun _ : Bytes => α

def Hamt.empty {α : Type} : Hamt α := ⟨∅⟩

/-- A key that is not there gives nil and no error. -/
def Hamt.find {α : Type} (D : Deps) (m : Hamt α) (k : Bytes) : Except Err (Option α) :=
  match D.findErr m.map.keys k with
  | some e => .error e
  | none => .ok (m.map.lookup k)

def Hamt.insert {α : Type} (D : Deps) (m : Hamt α) (k : Bytes) (x : α) : Except Err (Hamt α) :=
  match D.insertErr m.map.keys k with
  | some e => .error e
  | none => .ok ⟨m.map.insert k x⟩

/-- The ID filter: it knows what was inserted, and possibly more. -/
structure IdFilter where
  ids : List Bytes
deriving DecidableEq

def IdFilter.isMember (D : Deps) (f : IdFilter) (b : Bytes) : Except Err Bool :=
  match D.isMemberErr f.ids b with
  | some e => .error e
  | none => .ok (decide (b ∈ f.ids) || D.falsePositive f.ids b)

def IdFilter.size (f : IdFilter) : ℕ := f.ids.length

def IdFilter.insert (D : Deps) (f : IdFilter) (b : Bytes) : Except Err IdFilter :=
  match D.filterInsertErr f.ids b with
  | some e => .error e
  | none => .ok ⟨f.ids ++ [b]⟩

/-! Assumptions that results make about these packages. -/

/-- The HAMT is a total finite map: neither `Find` nor `Insert` fails. -/
structure Deps.HamtTotal (D : Deps) : Prop where
  find : ∀ keys k, D.findErr keys k = none
  insert : ∀ keys k, D.insertErr keys k = none

/-- `NewBytesKey` accepts every node ID. -/
def Deps.KeysNodeIDs (D : Deps) : Prop := ∀ n : NodeID, D.newBytesKey (some n.value) = none

/-- The ID filter is an exact set whose operations do not fail. -/
structure Deps.ExactFilter (D : Deps) : Prop where
  isMember : ∀ ids b, D.isMemberErr ids b = none
  insert : ∀ ids b, D.filterInsertErr ids b = none
  exact : ∀ ids b, D.falsePositive ids b = false

/-- No operation of the ID filter fails. It may claim to have more than was inserted. -/
structure Deps.FilterTotal (D : Deps) : Prop where
  isMember : ∀ ids b, D.isMemberErr ids b = none
  insert : ∀ ids b, D.filterInsertErr ids b = none

/-- The ID filter answers when asked, and what it once claimed to have it goes on claiming. An
error of its `Insert` is not the registry's own `IDAlreadyInUse`. -/
structure Deps.SoundFilter (D : Deps) : Prop where
  isMember : ∀ ids b, D.isMemberErr ids b = none
  keeps : ∀ ids ids' b, ids <+: ids' → D.falsePositive ids b = true →
    b ∈ ids' ∨ D.falsePositive ids' b = true
  insert : ∀ ids b, D.filterInsertErr ids b ≠ some .idAlreadyInUse

/-- `RSAPubKeyFromWire` inverts `RSAPubKeyToWire`. -/
def Deps.KeysDecode (D : Deps) : Prop :=
  ∀ k b, D.rsaPubKeyToWire k = .ok b → D.rsaPubKeyFromWire (some b) = .ok k

/-- What makes a node makes a peer, with any connectors. -/
def Deps.PeersOfNodes (D : Deps) : Prop :=
  ∀ name id ck sk ctors, D.newBaseNode name id ck sk = none → D.newPeer name id ck sk ctors = none

/-- A connector leads to the end point it was made for. -/
def Deps.FarEnds (D : Deps) : Prop := ∀ ep ctor, D.newTcpConnector ep = .ok ctor → ctor.farEnd = ep

theorem Deps.ExactFilter.total {D : Deps} (h : D.ExactFilter) : D.FilterTotal := ⟨h.isMember, h.insert⟩

theorem Deps.ExactFilter.sound {D : Deps} (h : D.ExactFilter) : D.SoundFilter := by
  refine ⟨h.isMember, fun ids ids' b _ hfp => ?_, fun ids b hins => ?_⟩
  · rw [h.exact] at hfp
    cases hfp
  · rw [h.insert] at hins
    cases hins

theorem newBytesKey_value {D : Deps} (h : D.KeysNodeIDs) (n : NodeID) :
    newBytesKey D (some n.value) = .ok n.value := by
  simp [newBytesKey, h n]

theorem newBytesKey_ok {D : Deps} {b k : Bytes} (h : newBytesKey D (some b) = .ok k) :
    D.newBytesKey (some b) = none ∧ k = b := by
  unfold newBytesKey at h
  split at h
  · cases h
  · rename_i hnone
    exact ⟨hnone, (Except.ok.inj h).symm⟩

theorem Hamt.find_total {α : Type} {D : Deps} (h : D.HamtTotal) (m : Hamt α) (k : Bytes) :
    m.find D k = .ok (m.map.lookup k) := by
  simp [Hamt.find, h.find]

theorem Hamt.find_none {α : Type} {D : Deps} {m : Hamt α} {k : Bytes} (h : m.find D k = .ok none) :
    m.map.lookup k = none := by
  unfold Hamt.find at h
  split at h
  · cases h
  · exact Except.ok.inj h

theorem IdFilter.not_mem {D : Deps} {f : IdFilter} {b : Bytes} (h : f.isMember D b = .ok false) :
    b ∉ f.ids := by
  unfold IdFilter.isMember at h
  split at h
  · cases h
  · have hor := Except.ok.inj h
    rw [Bool.or_eq_false_iff] at hor
    exact of_decide_eq_false hor.1

theorem IdFilter.knows_iff {D : Deps} (h : D.SoundFilter) {f : IdFilter} {b : Bytes} :
    f.isMember D b = .ok true ↔ b ∈ f.ids ∨ D.falsePositive f.ids b = true := by
  simp [IdFilter.isMember, h.isMember]

/-- A sound filter has no false negatives and never forgets. -/
theorem IdFilter.knows_of_prefix {D : Deps} (h : D.SoundFilter) {f f' : IdFilter} {b : Bytes}
    (hf : f.ids <+: f'.ids) (hb : f.isMember D b = .ok true) : f'.isMember D b = .ok true := by
  apply (IdFilter.knows_iff h).2
  rcases (IdFilter.knows_iff h).1 hb with hmem | hfp
  · exact .inl (hf.subset hmem)
  · exact h.keeps _ _ b hf hfp

theorem IdFilter.isMember_exact {D : Deps} (h : D.ExactFilter) (f : IdFilter) (b : Bytes) :
    f.isMember D b = .ok (decide (b ∈ f.ids)) := by
  simp [IdFilter.isMember, h.isMember, h.exact]

theorem IdFilter.insert_exact {D : Deps} (h : D.ExactFilter) (f : IdFilter) (b : Bytes) :
    f.insert D b = .ok ⟨f.ids ++ [b]⟩ := by
  simp [IdFilter.insert, h.insert]

end XlReg
