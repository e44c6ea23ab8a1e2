import XlReg.Lib.Proto
import XlReg.Spec.Link

/-! Messages as bytes, for concrete runs over a wire. The numbers and types of the fields are those of
p.proto. Fields that a message does not keep here are passed over when they are read. -/

namespace XlReg

open Proto

def Token.schema : Schema Token where
  empty := {}
  slots := [
    .optional 1 { get := Token.name, set := fun t a => { t with name := a } } .string,
    .optional 2 { get := Token.attrs, set := fun t a => { t with attrs := a } } .uint64,
    .optional 3 { get := Token.id, set := fun t a => { t with id := a } } .bytes,
    .optional 4 { get := Token.commsKey, set := fun t a => { t with commsKey := a } } .bytes,
    .optional 5 { get := Token.sigKey, set := fun t a => { t with sigKey := a } } .bytes,
    .repeated 6 { get := Token.myEnds, set := fun t a => { t with myEnds := a } } .string,
    .optional 7 { get := Token.digSig, set := fun t a => { t with digSig := a } } .bytes]
  nodup := by decide
  fresh := by simp [Slot.optional, Slot.repeated]
  apart := by
    simp only [List.pairwise_cons, List.forall_mem_cons]
    and_intros <;> first | exact fun _ _ => rfl | exact fun _ h => (by cases h) | exact .nil
  whole _ := rfl

def XLRegMsg.schema : Schema XLRegMsg where
  empty := {}
  slots := [
    .optional 1 { get := XLRegMsg.op, set := fun m a => { m with op := a } } .enum,
    .optional 9 { get := XLRegMsg.memberID, set := fun m a => { m with memberID := a } } .bytes,
    .optional 10 { get := XLRegMsg.memberAttrs, set := fun m a => { m with memberAttrs := a } } .uint64,
    .message 11 { get := XLRegMsg.memberSpecs, set := fun m a => { m with memberSpecs := a } } Token.schema,
    .optional 13 { get := XLRegMsg.clusterID, set := fun m a => { m with clusterID := a } } .bytes,
    .optional 14 { get := XLRegMsg.clusterName, set := fun m a => { m with clusterName := a } } .string,
    .optional 15 { get := XLRegMsg.clusterMaxSize, set := fun m a => { m with clusterMaxSize := a } } .uint32,
    .optional 16 { get := XLRegMsg.clusterAttrs, set := fun m a => { m with clusterAttrs := a } } .uint64,
    .optional 17 { get := XLRegMsg.endPointCount, set := fun m a => { m with endPointCount := a } } .uint32,
    .optional 20 { get := XLRegMsg.which, set := fun m a => { m with which := a } } .uint64,
    .repeated 21 { get := XLRegMsg.tokens, set := fun m a => { m with tokens := a } } (.message Token.schema),
    .optional 23 { get := XLRegMsg.errDesc, set := fun m a => { m with errDesc := a } } .string]
  nodup := by decide
  fresh := by simp [Slot.optional, Slot.repeated, Slot.message]
  apart := by
    simp only [List.pairwise_cons, List.forall_mem_cons]
    and_intros <;> first | exact fun _ _ => rfl | exact fun _ h => (by cases h) | exact .nil
  whole m := by
    simp only [List.foldl_cons, List.foldl_nil, Slot.optional, Slot.message, Slot.repeated]

def maxMarshalSize : ℕ := 2 ^ 31 - 1

def Codec.plain : Codec where
  marshal m :=
    if (XLRegMsg.schema.encode m).length > maxMarshalSize then
      .error (.other "proto: message encodes to over 2 GB")
    else .ok (XLRegMsg.schema.encode m)
  unmarshal data := (XLRegMsg.schema.decode data).elim (.error (.other "unexpected EOF")) .ok

theorem plain_codec_lawful : Codec.plain.Lawful := by
  refine ⟨fun m b h => ?_⟩
  simp only [Codec.plain] at h
  split_ifs at h with hlong
  cases h
  have hlen : (XLRegMsg.schema.encode m).length < 2 ^ 64 :=
    (Nat.le_of_not_gt hlong).trans_lt (by norm_num [maxMarshalSize])
  simp [Codec.plain, XLRegMsg.schema.decode_encode m hlen]

end XlReg
