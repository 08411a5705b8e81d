import MidnightNode.Committee.CandidateDatums
import MidnightNode.Lib.Codec

/-!
# SCALE encoding of candidate keys

`impl Encode for CandidateKeys` (`sidechain/domain`). An AURA and a GRANDPA key are written as the two
vectors that earlier versions wrote. Any other list is written after `Compact(u32::MAX)`, which a decoder
meets where it expects the length of the AURA key.
-/

namespace MidnightNode.Committee.CandidateKeys

open Codec (decodeItems decodeItems_flatMap)

variable {α : Type} (compact : Codec UInt32)

/-! ## Vectors -/

def decodeU8 : List UInt8 → Option (UInt8 × List UInt8)
  | [] => none
  | b :: input => some (b, input)

def encodeVec (encode : α → List UInt8) (items : List α) : List UInt8 :=
  compact.encode (.ofNat items.length) ++ items.flatMap encode

def decodeVec (decode : List UInt8 → Option (α × List UInt8)) (input : List UInt8) :
    Option (List α × List UInt8) := do
  let (len, input) ← compact.decode input
  decodeItems decode len.toNat input

/-- The encoding of `AuraPublicKey` and of `GrandpaPublicKey`. -/
def encodeBytes (bytes : List UInt8) : List UInt8 := encodeVec compact ([·]) bytes

def decodeBytes (input : List UInt8) : Option (List UInt8 × List UInt8) :=
  decodeVec compact decodeU8 input

theorem decodeItems_decodeU8 (bytes rest : List UInt8) :
    decodeItems decodeU8 bytes.length (bytes ++ rest) = some (bytes, rest) := by
  have h := @decodeItems_flatMap _ ([·]) decodeU8 bytes (fun _ _ _ => rfl) rest
  rwa [List.flatMap_singleton'] at h

variable {compact}

theorem toNat_length {items : List α} (h : items.length < 2 ^ 32 - 1) :
    (UInt32.ofNat items.length).toNat = items.length :=
  UInt32.toNat_ofNat_of_lt' (h.trans (by decide))

theorem decodeVec_encodeVec (hlen : items.length < 2 ^ 32 - 1)
    (h : ∀ a ∈ items, ∀ rest, decode (encode a ++ rest) = some (a, rest)) (rest : List UInt8) :
    decodeVec compact decode (encodeVec compact encode items ++ rest) = some (items, rest) := by
  have hn := toNat_length hlen
  simp [decodeVec, encodeVec, List.append_assoc, hn, decodeItems_flatMap h]

/-! ## Keys -/

variable (compact)

def encodeKey (key : CandidateKey) : List UInt8 := key.id.data ++ encodeBytes compact key.bytes

def decodeKey (input : List UInt8) : Option (CandidateKey × List UInt8) := do
  let (id, input) ← decodeItems decodeU8 4 input
  let id ← Bytes.ofList? 4 id
  let (bytes, input) ← decodeBytes compact input
  return (⟨id, bytes⟩, input)

def u32Max : UInt32 := .ofNat (2 ^ 32 - 1)

def encode (keys : CandidateKeys) : List UInt8 :=
  if hasOnlyAuraAndGrandpaKeys keys then
    encodeBytes compact (findOrEmpty keys aura) ++ encodeBytes compact (findOrEmpty keys grandpa)
  else
    compact.encode u32Max ++ encodeVec compact (encodeKey compact) keys

def decode (input : List UInt8) : Option (CandidateKeys × List UInt8) := do
  let (markerOrAuraSize, input) ← compact.decode input
  if markerOrAuraSize = u32Max then
    decodeVec compact (decodeKey compact) input
  else
    let (auraBytes, input) ← decodeItems decodeU8 markerOrAuraSize.toNat input
    let (grandpaBytes, input) ← decodeBytes compact input
    return ([⟨aura, auraBytes⟩, ⟨grandpa, grandpaBytes⟩], input)

/-- Lists that SCALE can write and whose lengths cannot be taken for the marker. -/
structure Short (keys : CandidateKeys) : Prop where
  count : keys.length < 2 ^ 32 - 1
  bytes : ∀ key ∈ keys, key.bytes.length < 2 ^ 32 - 1

variable {compact} {keys keys' : CandidateKeys}

theorem decodeKey_encodeKey (h : key.bytes.length < 2 ^ 32 - 1) (rest : List UInt8) :
    decodeKey compact (encodeKey compact key ++ rest) = some (key, rest) := by
  have hid := decodeItems_decodeU8 key.id.data (encodeBytes compact key.bytes ++ rest)
  rw [key.id.length_eq] at hid
  have hbytes : decodeBytes compact (encodeBytes compact key.bytes ++ rest) = some (key.bytes, rest) :=
    decodeVec_encodeVec h (fun _ _ _ => rfl) rest
  simp [decodeKey, encodeKey, List.append_assoc, hid, Bytes.ofList?_data, hbytes]

theorem decode_legacy (ha : a.length < 2 ^ 32 - 1) (hg : g.length < 2 ^ 32 - 1) (rest : List UInt8) :
    decode compact (encodeBytes compact a ++ encodeBytes compact g ++ rest) =
      some ([⟨aura, a⟩, ⟨grandpa, g⟩], rest) := by
  have hn := toNat_length ha
  have hmarker : UInt32.ofNat a.length ≠ u32Max := by
    intro h
    have := congrArg UInt32.toNat h
    rw [hn] at this
    exact absurd this ha.ne
  have hbytes : decodeBytes compact (encodeBytes compact g ++ rest) = some (g, rest) :=
    decodeVec_encodeVec hg (fun _ _ _ => rfl) rest
  have hinput : encodeBytes compact a ++ encodeBytes compact g ++ rest =
      compact.encode (.ofNat a.length) ++ (a ++ (encodeBytes compact g ++ rest)) := by
    simp [encodeBytes, encodeVec]
  rw [hinput, decode]
  simp [hmarker, hn, decodeItems_decodeU8, hbytes]

/-- The two keys of the old format are read in its order, other lists as they are. -/
theorem decode_encode (compact : Codec UInt32) (h : Short keys) (rest : List UInt8) :
    ∃ decoded, decode compact (encode compact keys ++ rest) = some (decoded, rest) ∧
      ∀ id, find decoded id = find keys id := by
  by_cases honly : hasOnlyAuraAndGrandpaKeys keys = true
  · rw [encode, if_pos honly]
    obtain ⟨a, g, rfl | rfl⟩ := hasOnlyAuraAndGrandpaKeys_iff.mp honly
    · refine ⟨_, decode_legacy (h.bytes ⟨aura, a⟩ (by simp)) (h.bytes ⟨grandpa, g⟩ (by simp)) rest, ?_⟩
      exact fun _ => rfl
    · refine ⟨_, decode_legacy (h.bytes ⟨aura, a⟩ (by simp)) (h.bytes ⟨grandpa, g⟩ (by simp)) rest, ?_⟩
      intro id
      simp only [find_cons, find_nil]
      by_cases ha : aura = id
      · subst ha
        rw [if_pos rfl, if_neg aura_ne_grandpa.symm, if_pos rfl]
      · rw [if_neg ha, if_neg ha]
  · refine ⟨keys, ?_, fun _ => rfl⟩
    have hvec : decodeVec compact (decodeKey compact)
        (encodeVec compact (encodeKey compact) keys ++ rest) = some (keys, rest) :=
      decodeVec_encodeVec h.count (fun key hkey => decodeKey_encodeKey (h.bytes key hkey)) rest
    simp [encode, decode, honly, List.append_assoc, hvec]

/-- Two lists of which one encoding starts with the other have the same keys. -/
theorem find_eq_of_isPrefix (h : Short keys) (h' : Short keys')
    (hpre : encode compact keys <+: encode compact keys') (id : Bytes 4) :
    find keys id = find keys' id := by
  obtain ⟨rest, hrest⟩ := hpre
  obtain ⟨decoded, hdecode, hfind⟩ := decode_encode compact h rest
  obtain ⟨decoded', hdecode', hfind'⟩ := decode_encode compact h' []
  rw [List.append_nil, ← hrest, hdecode] at hdecode'
  obtain ⟨rfl, -⟩ := Prod.mk.inj (Option.some.inj hdecode')
  rw [← hfind, hfind']

/-- **The encoding of candidate keys is unambiguous**: it is read back with the same keys and nothing of what
follows, it is the old encoding for an AURA and a GRANDPA key in either order, and of two lists with different
keys neither encoding starts with the other. -/
theorem keys_encoding_unambiguous (compact : Codec UInt32) :
    (∀ keys, Short keys → ∀ rest,
      ∃ decoded, decode compact (encode compact keys ++ rest) = some (decoded, rest) ∧
        ∀ id, find decoded id = find keys id) ∧
    (∀ a g, ∀ keys ∈ [[⟨aura, a⟩, ⟨grandpa, g⟩], [⟨grandpa, g⟩, ⟨aura, a⟩]],
      encode compact keys = encodeBytes compact a ++ encodeBytes compact g) ∧
    ∀ keys keys', Short keys → Short keys' → (∃ id, find keys id ≠ find keys' id) →
      ¬ encode compact keys <+: encode compact keys' := by
  refine ⟨fun keys h rest => decode_encode compact h rest, ?_, ?_⟩
  · intro a g keys hkeys
    obtain rfl | rfl := List.mem_pair.mp hkeys <;> rfl
  · rintro keys keys' h h' ⟨id, hid⟩ hpre
    exact hid (find_eq_of_isPrefix h h' hpre id)

/-- A GRANDPA key in front of an AURA key, and one key of another type. -/
theorem keys_encoding_unambiguous_compact :
    ∃ keys other : CandidateKeys, Short keys ∧ Short other ∧ find keys aura ≠ find other aura ∧
      encode Codec.compactU32 keys = [4, 7, 8, 8, 9] ∧
      encode Codec.compactU32 other = [3, 255, 255, 255, 255, 4, 99, 114, 99, 104, 4, 7] ∧
      decode Codec.compactU32 (encode Codec.compactU32 other ++ [5]) = some (other, [5]) ∧
      ¬ encode Codec.compactU32 keys <+: encode Codec.compactU32 other := by
  have hkeys : Short [⟨grandpa, [8, 9]⟩, ⟨aura, [7]⟩] := ⟨by decide, by decide⟩
  have hother : Short [⟨⟨[99, 114, 99, 104], rfl⟩, [7]⟩] := ⟨by decide, by decide⟩
  have hne : find [⟨grandpa, [8, 9]⟩, ⟨aura, [7]⟩] aura ≠
      find [⟨⟨[99, 114, 99, 104], rfl⟩, [7]⟩] aura := by
    decide
  exact ⟨_, _, hkeys, hother, hne, by decide, by decide, by decide,
    (keys_encoding_unambiguous Codec.compactU32).2.2 _ _ hkeys hother ⟨aura, hne⟩⟩

end MidnightNode.Committee.CandidateKeys
