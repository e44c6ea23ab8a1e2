import Mathlib

/-! The wire format of protocol buffers, version 2. A message on the wire is a sequence of fields, each
a number with a value of one of a few kinds. What the numbers mean is a `Schema`: for each of them a slot
of a record type, to which values are added as they come. Fields whose numbers have no slot are passed
over. Groups are not read, and strings have to be UTF-8. -/

namespace Proto

abbrev Octets := List UInt8

/-! Numbers: seven bits a byte, the lowest first, and the top bit where there are more. -/

/-- In at most `k` bytes. -/
def putVarint : ℕ → ℕ → Octets
  | 0, _ => []
  | k + 1, n => if n < 128 then [UInt8.ofNat n] else UInt8.ofNat (n % 128 + 128) :: putVarint k (n / 128)

def takeVarint : ℕ → Octets → Option (ℕ × Octets)
  | 0, _ => none
  | _ + 1, [] => none
  | k + 1, b :: bs =>
    if b.toNat < 128 then some (b.toNat, bs)
    else (takeVarint k bs).map fun r => (b.toNat - 128 + 128 * r.1, r.2)

def encodeVarint (n : ℕ) : Octets := putVarint 10 n

/-- Ten bytes have room for more than 64 bits; the rest is cut off. -/
def decodeVarint (bs : Octets) : Option (ℕ × Octets) :=
  (takeVarint 10 bs).map fun r => (r.1 % 2 ^ 64, r.2)

theorem toNat_octet {n : ℕ} (h : n < 256) : (UInt8.ofNat n).toNat = n :=
  UInt8.toNat_ofNat_of_lt' h

theorem takeVarint_put (k n : ℕ) (h : n < 128 ^ (k + 1)) (rest : Octets) :
    takeVarint (k + 1) (putVarint (k + 1) n ++ rest) = some (n, rest) := by
  induction k generalizing n with
  | zero =>
    have hn : n < 128 := by simpa using h
    simp [putVarint, takeVarint, hn, toNat_octet (hn.trans (by norm_num))]
  | succ k ih =>
    unfold putVarint
    split_ifs with hn
    · simp [takeVarint, hn, toNat_octet (hn.trans (by norm_num))]
    · have hbyte : (UInt8.ofNat (n % 128 + 128)).toNat = n % 128 + 128 := toNat_octet (by omega)
      have hrest := ih (n / 128) (Nat.div_lt_of_lt_mul (by rw [← pow_succ']; exact h))
      rw [List.cons_append, takeVarint, hbyte, if_neg (by omega), hrest]
      simp only [Option.map_some, Option.some.injEq, Prod.mk.injEq, and_true]
      omega

theorem decodeVarint_encode {n : ℕ} (h : n < 2 ^ 64) (rest : Octets) :
    decodeVarint (encodeVarint n ++ rest) = some (n, rest) := by
  rw [decodeVarint, encodeVarint, takeVarint_put 9 n (h.trans (by norm_num))]
  simp only [Option.map_some, Nat.mod_eq_of_lt h]

theorem encodeVarint_ne_nil (n : ℕ) : encodeVarint n ≠ [] := by
  unfold encodeVarint putVarint
  split_ifs
  · exact List.cons_ne_nil _ _
  · exact List.cons_ne_nil _ _

/-! Fields. -/

inductive Value
  | varint (n : ℕ)
  | fixed64 (b : Octets)
  | bytes (b : Octets)
  | fixed32 (b : Octets)

namespace Value

def wireType : Value → ℕ
  | varint _ => 0
  | fixed64 _ => 1
  | bytes _ => 2
  | fixed32 _ => 5

def encode : Value → Octets
  | varint n => encodeVarint n
  | fixed64 b => b
  | bytes b => encodeVarint b.length ++ b
  | fixed32 b => b

/-- The value can be told from its encoding. -/
def Fits : Value → Prop
  | varint n => n < 2 ^ 64
  | fixed64 b => b.length = 8
  | bytes b => b.length < 2 ^ 64
  | fixed32 b => b.length = 4

end Value

def takeBytes (n : ℕ) (bs : Octets) : Option (Octets × Octets) :=
  if n ≤ bs.length then some (bs.take n, bs.drop n) else none

theorem takeBytes_append (b rest : Octets) : takeBytes b.length (b ++ rest) = some (b, rest) := by
  simp [takeBytes]

def Value.decode (wireType : ℕ) (bs : Octets) : Option (Value × Octets) :=
  match wireType with
  | 0 => (decodeVarint bs).map fun r => (.varint r.1, r.2)
  | 1 => (takeBytes 8 bs).map fun r => (.fixed64 r.1, r.2)
  | 2 => (decodeVarint bs).bind fun r => (takeBytes r.1 r.2).map fun r => (.bytes r.1, r.2)
  | 5 => (takeBytes 4 bs).map fun r => (.fixed32 r.1, r.2)
  | _ => none

theorem Value.decode_encode {v : Value} (h : v.Fits) (rest : Octets) :
    Value.decode v.wireType (v.encode ++ rest) = some (v, rest) := by
  cases v with
  | varint n => simp [wireType, encode, decode, decodeVarint_encode h]
  | fixed64 b =>
    have hb := takeBytes_append b rest
    rw [show b.length = 8 from h] at hb
    simp [wireType, encode, decode, hb]
  | bytes b =>
    simp only [wireType, encode, decode]
    rw [List.append_assoc, decodeVarint_encode h]
    simp [takeBytes_append]
  | fixed32 b =>
    have hb := takeBytes_append b rest
    rw [show b.length = 4 from h] at hb
    simp [wireType, encode, decode, hb]

structure Field where
  number : ℕ
  value : Value

namespace Field

def encode (f : Field) : Octets := encodeVarint (8 * f.number + f.value.wireType) ++ f.value.encode

def decode (bs : Octets) : Option (Field × Octets) :=
  (decodeVarint bs).bind fun r =>
    if r.1 / 8 = 0 then none
    else (Value.decode (r.1 % 8) r.2).map fun r' => (⟨r.1 / 8, r'.1⟩, r'.2)

structure Fits (f : Field) : Prop where
  pos : 0 < f.number
  number : f.number < 2 ^ 61
  value : f.value.Fits

theorem decode_encode {f : Field} (h : f.Fits) (rest : Octets) :
    decode (f.encode ++ rest) = some (f, rest) := by
  have hkind : f.value.wireType < 8 := by cases f.value <;> simp [Value.wireType]
  have hnum := h.number
  have hkey : 8 * f.number + f.value.wireType < 2 ^ 64 := by omega
  have hdiv : (8 * f.number + f.value.wireType) / 8 = f.number := by omega
  have hmod : (8 * f.number + f.value.wireType) % 8 = f.value.wireType := by omega
  rw [decode, encode, List.append_assoc, decodeVarint_encode hkey]
  simp only [Option.bind_some, hdiv, hmod, if_neg h.pos.ne', Value.decode_encode h.value,
    Option.map_some]

theorem encode_ne_nil (f : Field) : f.encode ≠ [] :=
  List.append_ne_nil_of_left_ne_nil (encodeVarint_ne_nil _) _

end Field

def encodeFields (fs : List Field) : Octets := fs.flatMap Field.encode

/-- The fields of a message, of at most `k`. -/
def takeFields : ℕ → Octets → Option (List Field)
  | _, [] => some []
  | 0, _ :: _ => none
  | k + 1, b :: bs => (Field.decode (b :: bs)).bind fun r => (takeFields k r.2).map (r.1 :: ·)

/-- Each field has a byte at least. -/
def decodeFields (bs : Octets) : Option (List Field) := takeFields bs.length bs

theorem takeFields_encode {fs : List Field} (h : ∀ f ∈ fs, f.Fits) {k : ℕ}
    (hk : (encodeFields fs).length ≤ k) : takeFields k (encodeFields fs) = some fs := by
  induction fs generalizing k with
  | nil => cases k <;> rfl
  | cons f fs ih =>
    have hsplit : encodeFields (f :: fs) = f.encode ++ encodeFields fs := List.flatMap_cons
    rw [hsplit, List.length_append] at hk
    have hpos := List.length_pos_iff.2 f.encode_ne_nil
    obtain ⟨k, rfl⟩ : ∃ k', k = k' + 1 := ⟨k - 1, by omega⟩
    have hdec := Field.decode_encode (h f List.mem_cons_self) (encodeFields fs)
    rw [hsplit]
    obtain ⟨b, bs, hb⟩ := List.exists_cons_of_ne_nil f.encode_ne_nil
    rw [hb, List.cons_append] at hdec ⊢
    rw [takeFields, hdec]
    simp only [Option.bind_some]
    rw [ih (fun f hf => h f (List.mem_cons_of_mem _ hf)) (by omega)]
    rfl

theorem decodeFields_encode {fs : List Field} (h : ∀ f ∈ fs, f.Fits) :
    decodeFields (encodeFields fs) = some fs :=
  takeFields_encode h le_rfl

/-! Records. -/

structure Lens (M A : Type) where
  get : M → A
  set : M → A → M
  get_set : ∀ m a, get (set m a) = a := by intros; rfl
  set_get : ∀ m, set m (get m) = m := by intros; rfl
  set_set : ∀ m a b, set (set m a) b = set m b := by intros; rfl

/-- A value that fits unless it is too long. -/
def Value.Sized : Value → Prop
  | .varint n => n < 2 ^ 64
  | .fixed64 b => b.length = 8
  | .bytes _ => True
  | .fixed32 b => b.length = 4

theorem Value.Sized.fits {v : Value} (h : v.Sized) (hlen : v.encode.length < 2 ^ 64) : v.Fits := by
  cases v with
  | varint n => exact h
  | fixed64 b => exact h
  | bytes b =>
    rw [encode, List.length_append] at hlen
    exact (Nat.le_add_left _ _).trans_lt hlen
  | fixed32 b => exact h

/-- A type of values and how they stand on the wire. -/
structure Coding (A : Type) where
  enc : A → Value
  dec : Value → Option A
  sized : ∀ a, (enc a).Sized
  dec_enc : ∀ a, (enc a).Fits → dec (enc a) = some a

/-! The types of scalar values. Numbers that are too large for theirs are cut off. -/

namespace Coding

def uint64 : Coding UInt64 where
  enc x := .varint x.toNat
  dec
    | .varint n => some (UInt64.ofNat n)
    | _ => none
  sized x := x.toNat_lt
  dec_enc x _ := by simp

def uint32 : Coding UInt32 where
  enc x := .varint x.toNat
  dec
    | .varint n => some (UInt32.ofNat n)
    | _ => none
  sized x := x.toNat_lt.trans (by norm_num)
  dec_enc x _ := by simp

theorem toInt32_extended (x : Int32) : x.toInt64.toUInt64.toUInt32.toInt32 = x := by
  have hlow : BitVec.setWidth 32 (BitVec.signExtend 64 x.toBitVec) = x.toBitVec := by
    apply BitVec.eq_of_getLsbD_eq
    intro i hi
    rw [BitVec.getLsbD_setWidth, BitVec.getLsbD_signExtend]
    simp [hi, hi.trans]
  exact Int32.toBitVec_inj.1 hlow

/-- The sign is extended to 64 bits. -/
def enum : Coding Int32 where
  enc x := .varint x.toInt64.toUInt64.toNat
  dec
    | .varint n => some (UInt32.ofNat n).toInt32
    | _ => none
  sized x := x.toInt64.toUInt64.toNat_lt
  dec_enc x _ := by simp [toInt32_extended]

def bytes : Coding Octets where
  enc b := .bytes b
  dec
    | .bytes b => some b
    | _ => none
  sized _ := trivial
  dec_enc _ _ := rfl

def string : Coding String where
  enc s := .bytes s.toUTF8.data.toList
  dec
    | .bytes b => String.fromUTF8? ⟨b.toArray⟩
    | _ => none
  sized _ := trivial
  dec_enc s _ := dif_pos s.isValidUTF8

end Coding

/-- What a number of a field stands for: the values that a record has for it, in order, and what a
value does to a record. Added to a record that has none, the values of `m` give it what `m` has. -/
structure Slot (M : Type) where
  number : ℕ
  emit : M → List Value
  accept : M → Value → Option M
  /-- The second record, with what the first has in the slot. -/
  copy : M → M → M
  valid : 0 < number ∧ number < 2 ^ 61
  sized : ∀ m, ∀ v ∈ emit m, v.Sized
  fills : ∀ m acc, (∀ v ∈ emit m, v.Fits) → emit acc = [] →
    (emit m).foldlM accept acc = some (copy m acc)

section Slots

variable {M A : Type}

/-- A component that may be missing. If there are more values the last one counts. -/
def Slot.optional (number : ℕ) (L : Lens M (Option A)) (c : Coding A)
    (valid : 0 < number ∧ number < 2 ^ 61 := by norm_num) : Slot M where
  number := number
  emit m := (L.get m).toList.map c.enc
  accept m v := (c.dec v).map fun a => L.set m (some a)
  copy m acc := L.set acc (L.get m)
  valid := valid
  sized m v hv := by
    obtain ⟨a, -, rfl⟩ := List.mem_map.1 hv
    exact c.sized a
  fills m acc hfits hnone := by
    have hget : L.get acc = none := by simpa using hnone
    cases hm : L.get m with
    | none =>
      have hsame : L.set acc none = acc := by rw [← hget, L.set_get]
      simp [hsame]
    | some a =>
      have hdec := c.dec_enc a (hfits _ (by simp [hm]))
      simp [hdec]

/-- A component that is a list, to which each value adds an entry. -/
def Slot.repeated (number : ℕ) (L : Lens M (List A)) (c : Coding A)
    (valid : 0 < number ∧ number < 2 ^ 61 := by norm_num) : Slot M where
  number := number
  emit m := (L.get m).map c.enc
  accept m v := (c.dec v).map fun a => L.set m (L.get m ++ [a])
  copy m acc := L.set acc (L.get m)
  valid := valid
  sized m v hv := by
    obtain ⟨a, -, rfl⟩ := List.mem_map.1 hv
    exact c.sized a
  fills m acc hfits hnone := by
    have hget : L.get acc = [] := by simpa using hnone
    -- the entries that have been added so far are in front of the others
    have hfold : ∀ (as : List A) (acc : M), (∀ a ∈ as, (c.enc a).Fits) →
        (as.map c.enc).foldlM (fun m v => (c.dec v).map fun a => L.set m (L.get m ++ [a])) acc =
          some (L.set acc (L.get acc ++ as)) := by
      intro as
      induction as with
      | nil =>
        intro acc _
        simp [L.set_get]
      | cons a as ih =>
        intro acc has
        have hdec := c.dec_enc a (has a List.mem_cons_self)
        have hrest := ih (L.set acc (L.get acc ++ [a])) fun b hb => has b (List.mem_cons_of_mem _ hb)
        rw [L.get_set, L.set_set] at hrest
        simp only [List.map_cons, List.foldlM_cons, hdec, Option.map_some]
        simpa using hrest
    rw [hfold _ acc fun a ha => hfits _ (List.mem_map_of_mem ha), hget, List.nil_append]

end Slots

/-- The slots of a record type. They are independent of each other, and a record is what they have. -/
structure Schema (M : Type) where
  empty : M
  slots : List (Slot M)
  nodup : (slots.map Slot.number).Nodup
  fresh : ∀ sl ∈ slots, sl.emit empty = []
  apart : slots.Pairwise fun a b => ∀ m acc, b.emit (a.copy m acc) = b.emit acc
  whole : ∀ m, slots.foldl (fun acc sl => sl.copy m acc) empty = m

namespace Schema

variable {M : Type}

def fields (S : Schema M) (m : M) : List Field :=
  S.slots.flatMap fun sl => (sl.emit m).map (Field.mk sl.number)

def encode (S : Schema M) (m : M) : Octets := encodeFields (S.fields m)

def put (S : Schema M) (m : M) (f : Field) : Option M :=
  match S.slots.find? (·.number == f.number) with
  | none => some m
  | some sl => sl.accept m f.value

/-- The fields are added to a record that is there. -/
def decodeInto (S : Schema M) (m : M) (bs : Octets) : Option M :=
  (decodeFields bs).bind (·.foldlM S.put m)

def decode (S : Schema M) (bs : Octets) : Option M := S.decodeInto S.empty bs

variable (S : Schema M)

theorem find_slot {sl : Slot M} (h : sl ∈ S.slots) : S.slots.find? (·.number == sl.number) = some sl := by
  have hnodup := S.nodup
  generalize S.slots = slots at h hnodup
  induction slots with
  | nil => cases h
  | cons a slots ih =>
    rw [List.map_cons, List.nodup_cons] at hnodup
    rcases List.mem_cons.1 h with rfl | h
    · simp
    · have hne : a.number ≠ sl.number := fun heq => hnodup.1 (heq ▸ List.mem_map_of_mem h)
      rw [List.find?_cons_of_neg (by simpa using hne)]
      exact ih h hnodup.2

/-- The values of one slot go where they came from. -/
theorem put_slot {sl : Slot M} (h : sl ∈ S.slots) (vs : List Value) (acc : M) :
    (vs.map (Field.mk sl.number)).foldlM S.put acc = vs.foldlM sl.accept acc := by
  rw [List.foldlM_map]
  simp only [put, S.find_slot h]

/-- All slots from some place on: each is filled as the record has it. -/
theorem put_slots {m : M} {slots : List (Slot M)} (hsub : slots ⊆ S.slots)
    (hfits : ∀ sl ∈ slots, ∀ v ∈ sl.emit m, v.Fits)
    (hapart : slots.Pairwise fun a b => ∀ m acc, b.emit (a.copy m acc) = b.emit acc) {acc : M}
    (hnone : ∀ sl ∈ slots, sl.emit acc = []) :
    (slots.flatMap fun sl => (sl.emit m).map (Field.mk sl.number)).foldlM S.put acc =
      some (slots.foldl (fun acc sl => sl.copy m acc) acc) := by
  induction slots generalizing acc with
  | nil => rfl
  | cons sl slots ih =>
    obtain ⟨hfirst, hrest⟩ := List.pairwise_cons.1 hapart
    rw [List.flatMap_cons, List.foldlM_append, S.put_slot (hsub List.mem_cons_self),
      sl.fills m acc (hfits sl List.mem_cons_self) (hnone sl List.mem_cons_self)]
    refine ih (fun _ h => hsub (List.mem_cons_of_mem _ h)) (fun b hb => hfits b (List.mem_cons_of_mem _ hb))
      hrest fun b hb => ?_
    rw [hfirst b hb]
    exact hnone b (List.mem_cons_of_mem _ hb)

theorem value_length_le {S : Schema M} {m : M} {sl : Slot M} (h : sl ∈ S.slots) {v : Value}
    (hv : v ∈ sl.emit m) : v.encode.length ≤ (S.encode m).length := by
  have hmem : Field.mk sl.number v ∈ S.fields m :=
    List.mem_flatMap.2 ⟨sl, h, List.mem_map_of_mem hv⟩
  have hle := (List.sublist_flatten_of_mem (List.mem_map_of_mem (f := Field.encode) hmem)).length_le
  refine le_trans ?_ (hle.trans_eq (by rw [encode, encodeFields, List.flatMap_def]))
  rw [Field.encode, List.length_append]
  exact Nat.le_add_left _ _

/-- A record comes back from its encoding, unless that is too long. -/
theorem decode_encode (m : M) (hlen : (S.encode m).length < 2 ^ 64) : S.decode (S.encode m) = some m := by
  have hvalues : ∀ sl ∈ S.slots, ∀ v ∈ sl.emit m, v.Fits := fun sl h v hv =>
    (sl.sized m v hv).fits ((value_length_le h hv).trans_lt hlen)
  have hfields : ∀ f ∈ S.fields m, f.Fits := by
    intro f hf
    obtain ⟨sl, hsl, hf⟩ := List.mem_flatMap.1 hf
    obtain ⟨v, hv, rfl⟩ := List.mem_map.1 hf
    exact ⟨sl.valid.1, sl.valid.2, hvalues sl hsl v hv⟩
  rw [decode, decodeInto, encode, decodeFields_encode hfields, Option.bind_some, fields,
    S.put_slots (List.Subset.refl _) hvalues S.apart S.fresh, S.whole]

end Schema

section Messages

variable {M A : Type}

def Coding.message (S : Schema A) : Coding A where
  enc a := .bytes (S.encode a)
  dec
    | .bytes b => S.decode b
    | _ => none
  sized _ := trivial
  dec_enc a h := S.decode_encode a h

/-- A component that is a record itself. If it comes in several parts they are put together. -/
def Slot.message (number : ℕ) (L : Lens M (Option A)) (S : Schema A)
    (valid : 0 < number ∧ number < 2 ^ 61 := by norm_num) : Slot M where
  number := number
  emit m := (L.get m).toList.map fun a => .bytes (S.encode a)
  accept m v :=
    match v with
    | .bytes b => (S.decodeInto ((L.get m).getD S.empty) b).map fun a => L.set m (some a)
    | _ => none
  copy m acc := L.set acc (L.get m)
  valid := valid
  sized m v hv := by
    obtain ⟨a, -, rfl⟩ := List.mem_map.1 hv
    trivial
  fills m acc hfits hnone := by
    have hget : L.get acc = none := by simpa using hnone
    cases hm : L.get m with
    | none =>
      have hsame : L.set acc none = acc := by rw [← hget, L.set_get]
      simp [hsame]
    | some a =>
      have hdec : S.decodeInto S.empty (S.encode a) = some a :=
        S.decode_encode a (hfits (.bytes (S.encode a)) (by simp [hm]))
      simp [hget, hdec]

end Messages

end Proto
