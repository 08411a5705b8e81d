import Mathlib

/-!
# The keystore of the AURA-to-BABE migration

`AuraToBabeMigrationKeystore` wraps a keystore and answers questions about BABE keys from the AURA keys
when there are no BABE keys. The wrapped keystore is any one that gives one answer about each key; what
it signs, and the other signature schemes, which the wrapper passes on, play no part.
-/

namespace MidnightNode.Consensus.Keystores

/-- The four bytes that name the use of a key. -/
structure KeyTypeId where
  (b₀ b₁ b₂ b₃ : UInt8)
deriving DecidableEq

def aura : KeyTypeId := ⟨97, 117, 114, 97⟩

def babe : KeyTypeId := ⟨98, 97, 98, 101⟩

structure Sr25519 where
  (Public Message Signature VrfSignData VrfSignature VrfInput VrfPreOutput Error : Type)
  toRaw : Public → List UInt8

variable {τ : Sr25519}

/-- What the wrapper has an own rule for. -/
structure Keystore (τ : Sr25519) where
  sr25519PublicKeys : KeyTypeId → List τ.Public
  sr25519Sign : KeyTypeId → τ.Public → τ.Message → Except τ.Error (Option τ.Signature)
  sr25519VrfSign : KeyTypeId → τ.Public → τ.VrfSignData → Except τ.Error (Option τ.VrfSignature)
  sr25519VrfPreOutput : KeyTypeId → τ.Public → τ.VrfInput → Except τ.Error (Option τ.VrfPreOutput)
  keys : KeyTypeId → Except τ.Error (List (List UInt8))
  hasKeys : List (List UInt8 × KeyTypeId) → Bool

namespace AuraToBabeMigrationKeystore

variable (keystore : Keystore τ)

def sr25519PublicKeys (keyType : KeyTypeId) : List τ.Public :=
  let loaded := keystore.sr25519PublicKeys keyType
  if loaded.isEmpty ∧ keyType = babe then keystore.sr25519PublicKeys aura else loaded

/-- The rule of the three functions that use a secret key. -/
def withFallback {α β : Type} (f : KeyTypeId → τ.Public → α → β) (keyType : KeyTypeId)
    (pub : τ.Public) (a : α) : β :=
  if keyType = babe ∧ (keystore.sr25519PublicKeys babe).isEmpty then f aura pub a else f keyType pub a

def sr25519Sign : KeyTypeId → τ.Public → τ.Message → Except τ.Error (Option τ.Signature) :=
  withFallback keystore keystore.sr25519Sign

def sr25519VrfSign : KeyTypeId → τ.Public → τ.VrfSignData → Except τ.Error (Option τ.VrfSignature) :=
  withFallback keystore keystore.sr25519VrfSign

def sr25519VrfPreOutput : KeyTypeId → τ.Public → τ.VrfInput → Except τ.Error (Option τ.VrfPreOutput) :=
  withFallback keystore keystore.sr25519VrfPreOutput

def keys (keyType : KeyTypeId) : Except τ.Error (List (List UInt8)) :=
  match keystore.keys keyType with
  | .ok ks => if ks.isEmpty ∧ keyType = babe then keystore.keys aura else .ok ks
  | .error e => .error e

def hasKeys : List (List UInt8 × KeyTypeId) → Bool
  | [] => true
  | (key, keyType) :: publicKeys =>
    if keystore.hasKeys [(key, keyType)] then hasKeys publicKeys
    else if keyType = babe ∧ keystore.hasKeys [(key, aura)] then hasKeys publicKeys
    else false

end AuraToBabeMigrationKeystore

open AuraToBabeMigrationKeystore in
/-- The wrapper as a keystore. -/
def auraToBabeMigrationKeystore (keystore : Keystore τ) : Keystore τ where
  sr25519PublicKeys := sr25519PublicKeys keystore
  sr25519Sign := sr25519Sign keystore
  sr25519VrfSign := sr25519VrfSign keystore
  sr25519VrfPreOutput := sr25519VrfPreOutput keystore
  keys := keys keystore
  hasKeys := hasKeys keystore

/-! ## Answers about a key -/

namespace Keystore

variable (keystore : Keystore τ) (t : KeyTypeId) (k : τ.Public)

def Has : Prop := keystore.hasKeys [(τ.toRaw k, t)] = true

def Lists : Prop := k ∈ keystore.sr25519PublicKeys t

def ListsRaw : Prop := ∃ ks, keystore.keys t = .ok ks ∧ τ.toRaw k ∈ ks

/-- The key is had, listed by both lists, and used, or none of this. -/
structure OneAnswer : Prop where
  has_iff : keystore.Has t k ↔ keystore.Lists t k
  listsRaw_iff : keystore.ListsRaw t k ↔ keystore.Lists t k
  sign_iff : ∀ m, (∃ s, keystore.sr25519Sign t k m = .ok (some s)) ↔ keystore.Lists t k
  vrfSign_iff : ∀ m, (∃ s, keystore.sr25519VrfSign t k m = .ok (some s)) ↔ keystore.Lists t k
  vrfPreOutput_iff : ∀ m, (∃ s, keystore.sr25519VrfPreOutput t k m = .ok (some s)) ↔ keystore.Lists t k

variable {keystore t} in
theorem not_lists_of_nil (h : keystore.sr25519PublicKeys t = []) : ¬ keystore.Lists t k := by
  rw [Lists, h]
  exact List.not_mem_nil

end Keystore

/-! ## What the wrapper answers -/

section
variable (keystore : Keystore τ) (k : τ.Public)

theorem migration_has_babe :
    (auraToBabeMigrationKeystore keystore).Has babe k ↔ keystore.Has babe k ∨ keystore.Has aura k := by
  simp only [Keystore.Has, auraToBabeMigrationKeystore, AuraToBabeMigrationKeystore.hasKeys, true_and]
  split_ifs with hbabe haura <;> simp [*]

theorem migration_lists_babe : (auraToBabeMigrationKeystore keystore).Lists babe k ↔
    keystore.Lists babe k ∨ keystore.sr25519PublicKeys babe = [] ∧ keystore.Lists aura k := by
  simp only [Keystore.Lists, auraToBabeMigrationKeystore, AuraToBabeMigrationKeystore.sr25519PublicKeys]
  cases keystore.sr25519PublicKeys babe with
  | nil => simp
  | cons key ks => simp

theorem migration_listsRaw_babe : (auraToBabeMigrationKeystore keystore).ListsRaw babe k ↔
    keystore.ListsRaw babe k ∨ keystore.keys babe = .ok [] ∧ keystore.ListsRaw aura k := by
  simp only [Keystore.ListsRaw, auraToBabeMigrationKeystore, AuraToBabeMigrationKeystore.keys]
  cases keystore.keys babe with
  | error e => simp
  | ok ks =>
    cases ks with
    | nil => simp
    | cons key ks => simp

theorem withFallback_babe {α β : Type} (f : KeyTypeId → τ.Public → α → β) (a : α) :
    AuraToBabeMigrationKeystore.withFallback keystore f babe k a =
      if keystore.sr25519PublicKeys babe = [] then f aura k a else f babe k a := by
  simp only [AuraToBabeMigrationKeystore.withFallback, List.isEmpty_iff, true_and]

theorem migration_withFallback_babe {α β : Type}
    (f : KeyTypeId → τ.Public → α → Except τ.Error (Option β))
    (hf : ∀ t k a, (∃ s, f t k a = .ok (some s)) ↔ keystore.Lists t k) (a : α) :
    (∃ s, AuraToBabeMigrationKeystore.withFallback keystore f babe k a = .ok (some s)) ↔
      (auraToBabeMigrationKeystore keystore).Lists babe k := by
  rw [withFallback_babe, migration_lists_babe]
  split
  case isTrue hnil =>
    have hnot := Keystore.not_lists_of_nil k hnil
    rw [hf]
    tauto
  case isFalse hne =>
    rw [hf]
    tauto

end

theorem Keystore.publicKeys_eq_nil {keystore : Keystore τ} (hone : ∀ t k, keystore.OneAnswer t k)
    (h : keystore.keys t = .ok []) : keystore.sr25519PublicKeys t = [] := by
  refine List.eq_nil_iff_forall_not_mem.mpr fun k hk => ?_
  obtain ⟨ks, hks, hmem⟩ := (hone t k).listsRaw_iff.mpr hk
  rw [h] at hks
  cases hks
  cases hmem

/-- A scheme whose public keys are single bytes and that signs with the key. -/
def byteScheme : Sr25519 := ⟨UInt8, Unit, UInt8, Unit, UInt8, Unit, UInt8, Unit, fun k => [k]⟩

def useKey (content : List (KeyTypeId × UInt8)) (t : KeyTypeId) (k : UInt8) (_ : Unit) :
    Except Unit (Option UInt8) :=
  .ok (if (t, k) ∈ content then some k else none)

/-- The keystore that holds the given keys. -/
def storedKeys (content : List (KeyTypeId × UInt8)) : Keystore byteScheme where
  sr25519PublicKeys t := (content.filter (·.1 = t)).map (·.2)
  sr25519Sign := useKey content
  sr25519VrfSign := useKey content
  sr25519VrfPreOutput := useKey content
  keys t := .ok ((content.filter (·.1 = t)).map fun entry => [entry.2])
  hasKeys publicKeys :=
    publicKeys.all fun (key, t) => content.any fun entry => entry.1 = t ∧ [entry.2] = key

theorem storedKeys_oneAnswer (content : List (KeyTypeId × UInt8)) (t : KeyTypeId) (k : UInt8) :
    (storedKeys content).OneAnswer t k := by
  have hlists : (storedKeys content).Lists t k ↔ (t, k) ∈ content := by
    show k ∈ (content.filter (·.1 = t)).map (·.2) ↔ _
    simp
  have huse : ∀ m, (∃ s, useKey content t k m = .ok (some s)) ↔ (storedKeys content).Lists t k := by
    intro m
    rw [hlists, useKey]
    simp
  refine ⟨?_, ?_, huse, huse, huse⟩
  · rw [hlists]
    simp [Keystore.Has, storedKeys, byteScheme]
  · rw [hlists]
    simp [Keystore.ListsRaw, storedKeys, byteScheme]

end MidnightNode.Consensus.Keystores
