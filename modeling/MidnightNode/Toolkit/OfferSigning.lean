import Mathlib
import MidnightNode.Lib.Bytes
import MidnightNode.Lib.KeyedList

/-!
# Signing unshielded offers

`IntentInfo::build` builds the inputs of an unshielded offer, sorts them, and signs the offer with the keys
of its inputs; `apply_dust` signs it again when the dust has been added. Both take the keys in the order of
the request.

The order of inputs and signing are the ledger's. `sign` pairs the inputs and the keys by their positions.
-/

namespace MidnightNode.OfferSigning
open KeyedList

/-- What the ledger's types are; `Rest` is the rest of an intent. -/
structure Types where
  VerifyingKey : Type
  SigningKey : Type
  Signature : Type
  Rng : Type
  Out : Type
  Registration : Type
  Rest : Type

variable {T : Types} {Seed : Type}

structure Utxo where
  value : Nat
  type : Bytes 32
  intentHash : Bytes 32
  outputNo : Nat

structure UtxoSpend (T : Types) extends Utxo where
  owner : T.VerifyingKey

structure UnshieldedOffer (T : Types) where
  inputs : List (UtxoSpend T)
  outputs : List T.Out
  signatures : List T.Signature

/-- The registrations with their signatures; `rest` is what spends and time are. -/
structure DustActions (T : Types) where
  registrations : List (T.Registration × Option T.Signature)
  rest : T.Rest

structure Intent (T : Types) where
  guaranteedUnshieldedOffer : Option (UnshieldedOffer T)
  fallibleUnshieldedOffer : Option (UnshieldedOffer T)
  dustActions : Option (DustActions T)
  rest : T.Rest

/-- The ledger. A signature shows whose key made it. -/
structure Ledger (T : Types) where
  le : UtxoSpend T → UtxoSpend T → Bool
  leOut : T.Out → T.Out → Bool
  verifyingKey : T.SigningKey → T.VerifyingKey
  sign : T.SigningKey → T.Rng → List UInt8 → T.Signature × T.Rng
  dataToSign : Intent T → UInt16 → List UInt8
  /-- Whether the checks of `Intent::sign` pass. -/
  signable : Intent T → UInt16 → Bool
  verifyingKey_eq : ∀ {k k' r r' d d'}, (sign k r d).1 = (sign k' r' d').1 → verifyingKey k = verifyingKey k'

/-- The wallets by their seeds. -/
structure Context (lib : Ledger T) (Seed : Type) where
  unshieldedUtxos : Seed → List Utxo
  signingKey : Seed → T.SigningKey

variable {lib : Ledger T}

def Context.verifyingKey (ctx : Context lib Seed) (seed : Seed) : T.VerifyingKey :=
  lib.verifyingKey (ctx.signingKey seed)

structure UtxoSpendInfo (Seed : Type) where
  value : Nat
  owner : Seed
  tokenType : Bytes 32
  intentHash : Option (Bytes 32)
  outputNumber : Option Nat

namespace UtxoSpendInfo

def minMatchUtxo (ctx : Context lib Seed) (info : UtxoSpendInfo Seed) : Option Utxo :=
  ((ctx.unshieldedUtxos info.owner).filter fun utxo => utxo.type = info.tokenType &&
    utxo.value ≥ info.value && info.intentHash.all (utxo.intentHash = ·) &&
    info.outputNumber.all (utxo.outputNo = ·)).insertionSort (fun a b => a.value ≤ b.value) |>.head?

/-- Without a match it panics. -/
def build (ctx : Context lib Seed) (info : UtxoSpendInfo Seed) : Option (UtxoSpend T) :=
  match info.intentHash, info.outputNumber with
  | some intentHash, some outputNo =>
    some ⟨⟨info.value, info.tokenType, intentHash, outputNo⟩, ctx.verifyingKey info.owner⟩
  | _, _ => (info.minMatchUtxo ctx).map fun utxo => ⟨utxo, ctx.verifyingKey info.owner⟩

end UtxoSpendInfo

/-- The outputs are built already. -/
structure UnshieldedOfferInfo (T : Types) (Seed : Type) where
  inputs : List (UtxoSpendInfo Seed)
  outputs : List T.Out

namespace UnshieldedOfferInfo

def buildInputs (ctx : Context lib Seed) (info : UnshieldedOfferInfo T Seed) :
    Option (List (UtxoSpend T)) :=
  (info.inputs.mapM (UtxoSpendInfo.build ctx)).map (·.insertionSort (lib.le · ·))

def build (ctx : Context lib Seed) (info : UnshieldedOfferInfo T Seed) :
    Option (UnshieldedOffer T) :=
  (info.buildInputs ctx).map fun inputs => ⟨inputs, info.outputs.insertionSort (lib.leOut · ·), []⟩

def signingKeys (ctx : Context lib Seed) (info : UnshieldedOfferInfo T Seed) : List T.SigningKey :=
  info.inputs.map fun input => ctx.signingKey input.owner

end UnshieldedOfferInfo

variable (lib) in
/-- The randomness goes from one signature to the next. -/
def signEach (data : List UInt8) : T.Rng → List T.SigningKey → List T.Signature × T.Rng
  | rng, [] => ([], rng)
  | rng, key :: keys =>
    let (signature, rng) := lib.sign key rng data
    let (signatures, rng) := signEach data rng keys
    (signature :: signatures, rng)

variable (lib) in
/-- One signature for each pair of an input and a key. -/
def signOffer (data : List UInt8) (rng : T.Rng) (keys : List T.SigningKey)
    (offer : UnshieldedOffer T) : UnshieldedOffer T × T.Rng :=
  let (signatures, rng) := signEach lib data rng ((offer.inputs.zip keys).map Prod.snd)
  ({ offer with signatures := signatures }, rng)

variable (lib) in
def signOffer? (data : List UInt8) (rng : T.Rng) (keys : List T.SigningKey) :
    Option (UnshieldedOffer T) →
      Option (UnshieldedOffer T) × T.Rng
  | some offer => ((some (signOffer lib data rng keys offer).1), (signOffer lib data rng keys offer).2)
  | none => (none, rng)

variable (lib) in
/-- Both offers are signed over the same data. -/
def Intent.signOffers (intent : Intent T) (data : List UInt8)
    (rng : T.Rng) (guaranteedKeys fallibleKeys : List T.SigningKey) :
    Intent T × T.Rng :=
  let (guaranteed, rng) := signOffer? lib data rng guaranteedKeys intent.guaranteedUnshieldedOffer
  let (fallible, rng) := signOffer? lib data rng fallibleKeys intent.fallibleUnshieldedOffer
  ({ intent with guaranteedUnshieldedOffer := guaranteed, fallibleUnshieldedOffer := fallible }, rng)

structure IntentInfo (T : Types) (Seed : Type) where
  guaranteedUnshieldedOffer : Option (UnshieldedOfferInfo T Seed)
  fallibleUnshieldedOffer : Option (UnshieldedOfferInfo T Seed)

namespace IntentInfo

def unshieldedSigningKeys (ctx : Context lib Seed) (info : IntentInfo T Seed) :
    List T.SigningKey × List T.SigningKey :=
  let signingKeys (offer : Option (UnshieldedOfferInfo T Seed)) := (offer.map (·.signingKeys ctx)).getD []
  (signingKeys info.guaranteedUnshieldedOffer, signingKeys info.fallibleUnshieldedOffer)

/-- An offer of the request replaces the one of the intent. -/
def attachOffer (ctx : Context lib Seed) (info : Option (UnshieldedOfferInfo T Seed))
    (offer : Option (UnshieldedOffer T)) :
    Option (Option (UnshieldedOffer T)) :=
  match info with
  | some info => (info.build ctx).map some
  | none => some offer

/-- `intent` is what the actions leave. A failed signing panics. -/
def build (ctx : Context lib Seed) (info : IntentInfo T Seed)
    (intent : Intent T) (rng : T.Rng) (segmentId : UInt16) :
    Option (Intent T × T.Rng) := do
  let guaranteed ← attachOffer ctx info.guaranteedUnshieldedOffer intent.guaranteedUnshieldedOffer
  let fallible ← attachOffer ctx info.fallibleUnshieldedOffer intent.fallibleUnshieldedOffer
  let intent := { intent with
    guaranteedUnshieldedOffer := guaranteed, fallibleUnshieldedOffer := fallible }
  let keys := info.unshieldedSigningKeys ctx
  if lib.signable intent segmentId then
    some (intent.signOffers lib (lib.dataToSign intent segmentId) rng keys.1 keys.2)
  else none

end IntentInfo

/-- The registrations of a transaction with their wallets; `emptyIntent` is a new one. -/
structure StandardTransactionInfo (lib : Ledger T) (Seed : Type) where
  ctx : Context lib Seed
  intents : List (UInt16 × IntentInfo T Seed)
  dustRegistrations : List (T.Registration × Seed)
  emptyIntent : T.Rng → Intent T × T.Rng

def fallibleSegment : UInt16 := 1

/-- The intents of the transaction, with the dust in the fallible segment; `dust` is what spends and time
are, of which there are none if `noSpends`. -/
def StandardTransactionInfo.applyDust (self : StandardTransactionInfo lib Seed)
    (intents : List (UInt16 × Intent T)) (dust : T.Rest)
    (noSpends : Bool) (rng : T.Rng) : List (UInt16 × Intent T) :=
  if noSpends && self.dustRegistrations.isEmpty then intents
  else
    let (intent, rng) := match intents.lookup fallibleSegment with
      | some intent => (intent, rng)
      | none => self.emptyIntent rng
    let intent := { intent with
      dustActions := some ⟨self.dustRegistrations.map fun r => (r.1, none), dust⟩ }
    let data := lib.dataToSign intent fallibleSegment
    let keys := ((self.intents.lookup fallibleSegment).map (·.unshieldedSigningKeys self.ctx)).getD ([], [])
    let (intent, rng) := intent.signOffers lib data rng keys.1 keys.2
    let signatures := (signEach lib data rng (self.dustRegistrations.map fun r => self.ctx.signingKey r.2)).1
    insertKey fallibleSegment { intent with
      dustActions := some
        ⟨(self.dustRegistrations.map Prod.fst).zip (signatures.map some), dust⟩ } intents

/-! ## Owners -/

variable (lib) in
def SignedBy (owner : T.VerifyingKey) (signature : T.Signature) : Prop :=
  ∃ key rng data, lib.verifyingKey key = owner ∧ (lib.sign key rng data).1 = signature

variable (lib) in
/-- One signature for each input, by its owner. -/
def SignedByOwners (offer : UnshieldedOffer T) : Prop :=
  List.Forall₂ (fun input signature => SignedBy lib input.owner signature) offer.inputs offer.signatures

/-- Sorting the spends that are built one by one leaves their owners in order. -/
def OwnersInOrder (ctx : Context lib Seed) (info : UnshieldedOfferInfo T Seed) : Prop :=
  ∀ spends, info.inputs.mapM (UtxoSpendInfo.build ctx) = some spends →
    (spends.insertionSort (lib.le · ·)).map UtxoSpend.owner = spends.map UtxoSpend.owner

theorem signedBy_sign_iff :
    SignedBy lib owner (lib.sign key rng data).1 ↔ owner = lib.verifyingKey key := by
  constructor
  · rintro ⟨key', rng', data', rfl, heq⟩
    exact lib.verifyingKey_eq heq
  · rintro rfl
    exact ⟨key, rng, data, rfl, rfl⟩

theorem signEach_iff (data : List UInt8) (rng : T.Rng) (keys : List T.SigningKey)
    (inputs : List (UtxoSpend T)) :
    List.Forall₂ (fun input signature => SignedBy lib input.owner signature) inputs
      (signEach lib data rng keys).1 ↔ inputs.map UtxoSpend.owner = keys.map lib.verifyingKey := by
  induction keys generalizing rng inputs with
  | nil => cases inputs <;> simp [signEach]
  | cons key keys ih =>
    cases inputs with
    | nil => simp [signEach]
    | cons input inputs =>
      rw [signEach, List.forall₂_cons, signedBy_sign_iff, ih, List.map_cons, List.map_cons, List.cons.injEq]

theorem UtxoSpendInfo.build_owner {ctx : Context lib Seed} {info : UtxoSpendInfo Seed}
    (h : info.build ctx = some spend) : spend.owner = ctx.verifyingKey info.owner := by
  unfold build at h
  split at h
  · cases h
    rfl
  · obtain ⟨utxo, -, rfl⟩ := Option.map_eq_some_iff.mp h
    rfl

/-- The spends have the owners of the request, in its order. -/
theorem mapM_build_owner {ctx : Context lib Seed} {infos : List (UtxoSpendInfo Seed)}
    {spends : List (UtxoSpend T)} (h : infos.mapM (UtxoSpendInfo.build ctx) = some spends) :
    spends.map UtxoSpend.owner = infos.map fun input => ctx.verifyingKey input.owner := by
  induction infos generalizing spends with
  | nil =>
    cases h
    rfl
  | cons input infos ih =>
    rw [List.mapM_cons] at h
    obtain ⟨spend, hspend, h⟩ := Option.bind_eq_some_iff.mp h
    obtain ⟨rest, hrest, h⟩ := Option.bind_eq_some_iff.mp h
    cases h
    rw [List.map_cons, List.map_cons, ih hrest, UtxoSpendInfo.build_owner hspend]

theorem ownersInOrder_of_one_owner {ctx : Context lib Seed} {info : UnshieldedOfferInfo T Seed}
    (h : ∀ input ∈ info.inputs, input.owner = seed) : OwnersInOrder ctx info := by
  intro spends hspends
  have howner : ∀ spend ∈ spends, spend.owner = ctx.verifyingKey seed := by
    intro spend hspend
    have hmem := List.mem_map_of_mem (f := UtxoSpend.owner) hspend
    rw [mapM_build_owner hspends] at hmem
    obtain ⟨input, hinput, heq⟩ := List.mem_map.mp hmem
    rw [← heq, h input hinput]
  have hsorted : ∀ spend ∈ spends.insertionSort (lib.le · ·), spend.owner = ctx.verifyingKey seed :=
    fun spend hspend => howner spend ((List.mem_insertionSort _).mp hspend)
  rw [List.map_congr_left hsorted, List.map_congr_left howner, List.map_const', List.map_const',
    List.length_insertionSort]

/-- The offer has the inputs that are built for a request. -/
def Built (ctx : Context lib Seed) (info : UnshieldedOfferInfo T Seed)
    (offer : UnshieldedOffer T) : Prop := info.buildInputs ctx = some offer.inputs

theorem Built.signed_iff {ctx : Context lib Seed} (h : Built ctx info offer) (data : List UInt8)
    (rng : T.Rng) :
    SignedByOwners lib (signOffer lib data rng (info.signingKeys ctx) offer).1 ↔ OwnersInOrder ctx info := by
  obtain ⟨spends, hspends, hinputs⟩ := Option.map_eq_some_iff.mp h
  have howners := mapM_build_owner hspends
  have hlength : (info.signingKeys ctx).length ≤ offer.inputs.length := by
    have heq := congrArg List.length howners
    rw [List.length_map, List.length_map] at heq
    rw [← hinputs, List.length_insertionSort, heq, UnshieldedOfferInfo.signingKeys, List.length_map]
  have hkeys : (info.signingKeys ctx).map lib.verifyingKey = spends.map UtxoSpend.owner :=
    List.map_map.trans howners.symm
  refine (signEach_iff data rng _ offer.inputs).trans ?_
  rw [List.map_snd_zip hlength, hkeys, ← hinputs]
  refine ⟨fun heq spends' hspends' => ?_, fun horder => horder _ hspends⟩
  cases hspends.symm.trans hspends'
  exact heq

/-- The offer of a request is there, with its inputs. -/
def OfferBuilt (ctx : Context lib Seed) (info : Option (UnshieldedOfferInfo T Seed))
    (offer : Option (UnshieldedOffer T)) : Prop :=
  ∀ offerInfo, info = some offerInfo → ∃ built, offer = some built ∧ Built ctx offerInfo built

/-- And it is signed by the owners of its inputs exactly when the request has them in order, as it has if
they are one. -/
def OfferSigned (ctx : Context lib Seed) (info : Option (UnshieldedOfferInfo T Seed))
    (offer : Option (UnshieldedOffer T)) : Prop :=
  ∀ offerInfo, info = some offerInfo → ∃ built, offer = some built ∧ Built ctx offerInfo built ∧
    (SignedByOwners lib built ↔ OwnersInOrder ctx offerInfo) ∧
    ∀ seed, (∀ input ∈ offerInfo.inputs, input.owner = seed) → SignedByOwners lib built

structure OffersSigned (ctx : Context lib Seed) (info : IntentInfo T Seed)
    (intent : Intent T) : Prop where
  guaranteed : OfferSigned ctx info.guaranteedUnshieldedOffer intent.guaranteedUnshieldedOffer
  fallible : OfferSigned ctx info.fallibleUnshieldedOffer intent.fallibleUnshieldedOffer

section
variable {ctx : Context lib Seed} {info : IntentInfo T Seed}
  {intent intent' : Intent T}

theorem OfferSigned.built {info : Option (UnshieldedOfferInfo T Seed)} (h : OfferSigned ctx info offer) :
    OfferBuilt ctx info offer := by
  intro offerInfo hinfo
  obtain ⟨built, hoffer, hbuilt, -⟩ := h offerInfo hinfo
  exact ⟨built, hoffer, hbuilt⟩

theorem OfferBuilt.signed {info : Option (UnshieldedOfferInfo T Seed)} (h : OfferBuilt ctx info offer)
    (data : List UInt8) (rng : T.Rng) :
    OfferSigned ctx info (signOffer? lib data rng ((info.map (·.signingKeys ctx)).getD []) offer).1 := by
  rintro offerInfo rfl
  obtain ⟨built, rfl, hbuilt⟩ := h offerInfo rfl
  have hiff := hbuilt.signed_iff data rng
  exact ⟨_, rfl, hbuilt, hiff, fun _ howner => hiff.mpr (ownersInOrder_of_one_owner howner)⟩

theorem offersSigned_signOffers (data : List UInt8) (rng : T.Rng)
    (hguaranteed : OfferBuilt ctx info.guaranteedUnshieldedOffer intent.guaranteedUnshieldedOffer)
    (hfallible : OfferBuilt ctx info.fallibleUnshieldedOffer intent.fallibleUnshieldedOffer) :
    OffersSigned ctx info (intent.signOffers lib data rng (info.unshieldedSigningKeys ctx).1
      (info.unshieldedSigningKeys ctx).2).1 :=
  ⟨hguaranteed.signed _ _, hfallible.signed _ _⟩

theorem of_attachOffer {info : Option (UnshieldedOfferInfo T Seed)}
    (h : IntentInfo.attachOffer ctx info offer = some offer') : OfferBuilt ctx info offer' := by
  rintro offerInfo rfl
  obtain ⟨built, hbuilt, rfl⟩ := Option.map_eq_some_iff.mp h
  obtain ⟨inputs, hinputs, rfl⟩ := Option.map_eq_some_iff.mp hbuilt
  exact ⟨_, rfl, hinputs⟩

theorem offersSigned_build (h : info.build ctx intent rng segmentId = some (intent', rng')) :
    OffersSigned ctx info intent' := by
  obtain ⟨guaranteed, hguaranteed, h⟩ := Option.bind_eq_some_iff.mp h
  obtain ⟨fallible, hfallible, h⟩ := Option.bind_eq_some_iff.mp h
  obtain ⟨-, h⟩ := Option.ite_none_right_eq_some.mp h
  obtain rfl : _ = intent' := congrArg Prod.fst (Option.some.inj h)
  exact offersSigned_signOffers _ _ (of_attachOffer hguaranteed) (of_attachOffer hfallible)

theorem offersSigned_applyDust {self : StandardTransactionInfo lib Seed}
    (hinfo : self.intents.lookup fallibleSegment = some info)
    (hintent : OffersSigned self.ctx info intent)
    (hlookup : intents.lookup fallibleSegment = some intent) (dust : T.Rest) (noSpends : Bool)
    (rng : T.Rng) :
    ∃ intent', (self.applyDust intents dust noSpends rng).lookup fallibleSegment = some intent' ∧
      OffersSigned self.ctx info intent' := by
  rw [StandardTransactionInfo.applyDust]
  split
  case isTrue => exact ⟨intent, hlookup, hintent⟩
  case isFalse =>
    simp only [hlookup, hinfo, Option.map_some, Option.getD_some, lookup_insertKey_self]
    refine ⟨_, rfl, ?_⟩
    obtain ⟨hguaranteed, hfallible⟩ := hintent
    exact ⟨hguaranteed.built.signed _ _, hfallible.built.signed _ _⟩

end

/-- **Every input is signed by its owner** exactly when sorting leaves the owners in the order of the request:
in the intent that is built, and when it is signed again with the dust. For inputs of one owner it does. -/
theorem unshielded_inputs_signed_iff (self : StandardTransactionInfo lib Seed) (info : IntentInfo T Seed)
    (hinfo : self.intents.lookup fallibleSegment = some info)
    (start intent : Intent T) (rng rng' : T.Rng) (segmentId : UInt16)
    (hbuild : info.build self.ctx start rng segmentId = some (intent, rng')) :
    OffersSigned self.ctx info intent ∧
      ∀ intents dust noSpends rng, intents.lookup fallibleSegment = some intent →
        ∃ intent', (self.applyDust intents dust noSpends rng).lookup fallibleSegment = some intent' ∧
          OffersSigned self.ctx info intent' := by
  have hsigned := offersSigned_build hbuild
  exact ⟨hsigned, fun intents dust noSpends rng hlookup =>
    offersSigned_applyDust hinfo hsigned hlookup dust noSpends rng⟩

namespace TwoOwners

def types : Types := ⟨Nat, Nat, Nat, Unit, Unit, Unit, Unit⟩

def ledger : Ledger types where
  le a b := a.value ≤ b.value
  leOut _ _ := true
  verifyingKey key := key
  sign key rng _ := (key, rng)
  dataToSign _ _ := []
  signable _ _ := true
  verifyingKey_eq h := h

def ctx : Context ledger Nat := ⟨fun _ => [], fun seed => seed⟩

def spend (value owner : Nat) : UtxoSpendInfo Nat := ⟨value, owner, .fill 32 0, some (.fill 32 0), some 0⟩

/-- One offer, as the guaranteed and as the fallible one. -/
def info (inputs : List (UtxoSpendInfo Nat)) : IntentInfo types Nat :=
  ⟨some ⟨inputs, []⟩, some ⟨inputs, []⟩⟩

def self (inputs : List (UtxoSpendInfo Nat)) : StandardTransactionInfo ledger Nat :=
  ⟨ctx, [(fallibleSegment, info inputs)], [], fun rng => (⟨none, none, none, ()⟩, rng)⟩

def start : Intent types := ⟨none, none, none, ()⟩

end TwoOwners

open TwoOwners in
theorem unshielded_inputs_signed_one_owner :
    ∃ intent rng offer, (info [spend 2 1, spend 1 1]).build ctx start () fallibleSegment = some (intent, rng) ∧
      intent.guaranteedUnshieldedOffer = some offer ∧ SignedByOwners ledger offer := by
  obtain ⟨hsigned, -⟩ := unshielded_inputs_signed_iff (self [spend 2 1, spend 1 1]) _ rfl start _ () _
    fallibleSegment rfl
  obtain ⟨offer, hoffer, -, -, hone⟩ := hsigned.guaranteed _ rfl
  exact ⟨_, _, offer, rfl, hoffer, hone 1 (by decide)⟩

open TwoOwners in
/-- The input with the smaller value comes first, with the signature of the other owner. -/
theorem unshielded_inputs_swapped :
    ∃ intent rng offer, (info [spend 2 1, spend 1 2]).build ctx start () fallibleSegment = some (intent, rng) ∧
      intent.guaranteedUnshieldedOffer = some offer ∧ ¬ SignedByOwners ledger offer := by
  refine ⟨_, _, _, rfl, rfl, fun h => ?_⟩
  obtain ⟨⟨_, _, _, hkey, hsignature⟩, -⟩ := List.forall₂_cons.mp h
  have heq : (2 : Nat) = 1 := hkey.symm.trans hsignature
  exact absurd heq (by decide)

end MidnightNode.OfferSigning
