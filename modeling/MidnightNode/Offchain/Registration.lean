import Mathlib
import MidnightNode.Committee.UpsertCandidates
import MidnightNode.Offchain.Inputs

/-!
# Registering a candidate

`run_register` spends the registrations that a candidate already has at the validator, and the UTXO that
the new registration names, and leaves one output with the new registration. It does nothing if one of
the registrations has the keys that are requested. `run_deregister` only spends them.
-/

namespace MidnightNode.Committee.McUtxoId

/-- Inputs are ordered by transaction, and then by position. -/
def position (id : McUtxoId) : List Nat ×ₗ Nat := toLex (byteValues id.txHash.data, id.index.toNat)

theorem position_injective : Function.Injective position := by
  rintro ⟨hash, index⟩ ⟨hash', index'⟩ h
  obtain ⟨hhash, hindex⟩ := Prod.mk.inj (toLex.injective h)
  have hdata : hash.data = hash'.data := List.map_injective_iff.mpr (fun _ _ => UInt8.toNat.inj) hhash
  obtain ⟨data, _⟩ := hash
  obtain ⟨data', _⟩ := hash'
  cases hdata
  cases UInt16.toNat.inj hindex
  rfl

instance partialOrder : PartialOrder McUtxoId := PartialOrder.lift position position_injective

instance linearOrder : LinearOrder McUtxoId where
  le_total a b := le_total a.position b.position
  toDecidableLE a b := inferInstanceAs (Decidable (a.position ≤ b.position))
  toDecidableEq := instDecidableEqMcUtxoId

end MidnightNode.Committee.McUtxoId

/-- The keys of a request are compared one way only. -/
def MidnightNode.Committee.CandidateRegistration.matchesKeys (self other : CandidateRegistration) : Bool :=
  self.stakeOwnership == other.stakeOwnership &&
    self.partnerChainPubKey == other.partnerChainPubKey &&
    self.partnerChainSignature == other.partnerChainSignature &&
    self.keys.all fun key => other.keys.contains key

namespace MidnightNode.Offchain
open CNight (PlutusData)
open Committee Fallible KeyedList

variable {Raw H Address TxId : Type}

structure Output (Address : Type) where
  address : Address
  datum : Option PlutusData
  coin : Nat

/-- A payment key with its UTXOs, the address of the validator, and the CSL. Change has no datum. -/
structure RegistrationContext (Raw H Address : Type) where
  codec : PlutusCodec Raw
  paymentKeyUtxos : List (OgmiosUtxo Raw)
  validatorAddress : Address
  minimumAda : Output Address → Except String Nat
  addOutput : Output Address → Except String Unit
  csl : TransactionContext (OgmiosUtxo Raw) McUtxoId H (Output Address)
  toCslTxInput_eq : csl.toCslTxInput = OgmiosUtxo.id
  payment_eq : csl.balancing.paymentKeyUtxos = paymentKeyUtxos.map OgmiosUtxo.id
  change_datum : ∀ o, csl.balancing.IsChange o → o.datum = none

/-! ## Own registrations -/

inductive RegistrationDatumError
  | missingDatum
  | invalidBytes (e : String)
  | invalidDatum (e : DataDecodingError)

def getCandidateRegistration (codec : PlutusCodec Raw) (validatorUtxo : OgmiosUtxo Raw) :
    Except RegistrationDatumError CandidateRegistration := do
  let bytes ← okOr .missingDatum validatorUtxo.datum
  let data ← (codec.fromBytes bytes).mapError .invalidBytes
  let registerValidatorDatum ← (RegisterValidatorDatum.tryFrom data).mapError .invalidDatum
  .ok registerValidatorDatum.toRegistration

def getOwnRegistrations (codec : PlutusCodec Raw) (ownPkh : Bytes 28) (spoPubKey : Bytes 32)
    (validatorUtxos : List (OgmiosUtxo Raw)) : List (OgmiosUtxo Raw × CandidateRegistration) :=
  validatorUtxos.filterMap fun validatorUtxo =>
    match getCandidateRegistration codec validatorUtxo with
    | .ok r =>
      if r.stakeOwnership.pubKey = spoPubKey ∧ r.ownPkh = ownPkh then some (validatorUtxo, r) else none
    | .error _ => none

/-- The datum of a UTXO is a registration of the candidate. -/
def OwnRegistration (codec : PlutusCodec Raw) (ownPkh : Bytes 28) (spoPubKey : Bytes 32)
    (utxo : OgmiosUtxo Raw) (r : CandidateRegistration) : Prop :=
  getCandidateRegistration codec utxo = .ok r ∧ r.stakeOwnership.pubKey = spoPubKey ∧ r.ownPkh = ownPkh

/-! ## Transactions -/

def registerRedeemerData : PlutusData := .constr 0 []

def registrationOutput (ctx : RegistrationContext Raw H Address) (request : CandidateRegistration) :
    Except String (Output Address) := do
  let output : Output Address := ⟨ctx.validatorAddress, some (candidateRegistrationToPlutusData request), 0⟩
  let coin ← ctx.minimumAda output
  let _ ← ctx.addOutput { output with coin := coin }
  .ok { output with coin := coin }

def registerTx (ctx : RegistrationContext Raw H Address) (request : CandidateRegistration)
    (registrationUtxo : OgmiosUtxo Raw) (ownRegistrationUtxos : List (OgmiosUtxo Raw)) (costs : Costs H) :
    Except Failure (Transaction McUtxoId H (Output Address)) := do
  let _ ← ctx.csl.builderConfig.mapError .error
  let inputs ← ctx.csl.addScriptUtxoInputs registerRedeemerData (fun _ => costs.getOneSpend) 0
    ownRegistrationUtxos []
  let inputs ← ctx.csl.addRegularInput inputs registrationUtxo
  let output ← (registrationOutput ctx request).mapError .error
  (ctx.csl.balancing.build ⟨inputs, [], [output]⟩).mapError .error

def deregisterTx (ctx : RegistrationContext Raw H Address) (ownRegistrationUtxos : List (OgmiosUtxo Raw))
    (costs : Costs H) : Except Failure (Transaction McUtxoId H (Output Address)) := do
  let _ ← ctx.csl.builderConfig.mapError .error
  let inputs ← ctx.csl.addScriptUtxoInputs registerRedeemerData (fun _ => costs.getOneSpend) 0
    ownRegistrationUtxos []
  (ctx.csl.balancing.build ⟨inputs, [], []⟩).mapError .error

/-! ## The registrations that are spent -/

section
variable {codec : PlutusCodec Raw} {ownPkh : Bytes 28} {spoPubKey : Bytes 32}

theorem mem_getOwnRegistrations :
    (utxo, r) ∈ getOwnRegistrations codec ownPkh spoPubKey validatorUtxos ↔
      utxo ∈ validatorUtxos ∧ OwnRegistration codec ownPkh spoPubKey utxo r := by
  rw [getOwnRegistrations, List.mem_filterMap]
  constructor
  · rintro ⟨u, hu, h⟩
    cases hr : getCandidateRegistration codec u with
    | error e =>
      rw [hr] at h
      cases h
    | ok r' =>
      rw [hr] at h
      dsimp only at h
      split at h
      case isTrue hown =>
        cases h
        exact ⟨hu, hr, hown⟩
      case isFalse => cases h
  · rintro ⟨hu, hr, hown⟩
    refine ⟨utxo, hu, ?_⟩
    rw [hr]
    exact if_pos hown

theorem getOwnRegistrations_sublist (validatorUtxos : List (OgmiosUtxo Raw)) :
    ((getOwnRegistrations codec ownPkh spoPubKey validatorUtxos).map Prod.fst).Sublist validatorUtxos := by
  induction validatorUtxos with
  | nil => exact .slnil
  | cons utxo utxos ih =>
    rw [getOwnRegistrations, List.filterMap_cons, ← getOwnRegistrations]
    split
    case h_1 => exact ih.cons _
    case h_2 x hx =>
      have hfst : x.1 = utxo := by
        split at hx
        · split at hx
          · cases hx
            rfl
          · cases hx
        · cases hx
      rw [List.map_cons, hfst]
      exact ih.cons_cons _

end

/-! ## What the transactions spend -/

section
variable {ctx : RegistrationContext Raw H Address} {request : CandidateRegistration}
  {registrationUtxo : OgmiosUtxo Raw} {own : List (OgmiosUtxo Raw)} {costs : Costs H}
  {tx : Transaction McUtxoId H (Output Address)}

theorem of_registrationOutput (h : registrationOutput ctx request = .ok output) :
    output.address = ctx.validatorAddress ∧
      output.datum = some (candidateRegistrationToPlutusData request) := by
  obtain ⟨coin, -, h⟩ := of_bind h
  obtain ⟨-, -, h⟩ := of_bind h
  cases h
  exact ⟨rfl, rfl⟩

theorem panics_ownInputs_iff
    {rest : List (McUtxoId × Option Redeemer) → Except Failure (Transaction McUtxoId H (Output Address))}
    (hrest : ∀ inputs, ¬ Panics (rest inputs)) :
    Panics (do
      let _ ← ctx.csl.builderConfig.mapError .error
      let inputs ← ctx.csl.addScriptUtxoInputs registerRedeemerData (fun _ => costs.getOneSpend) 0 own []
      rest inputs) ↔
      (∃ u, ctx.csl.builderConfig.mapError Failure.error = .ok u) ∧ own ≠ [] ∧ Panics costs.getOneSpend := by
  simp only [panics_bind_iff, TransactionContext.panics_addScriptUtxoInputs_iff, hrest, and_false, exists_false,
    or_false, not_panics_mapError, false_or, exists_and_right]

theorem lookup_own
    (h : ctx.csl.addScriptUtxoInputs registerRedeemerData (fun _ => costs.getOneSpend) 0 own [] = .ok inputs)
    (hnodup : (own.map OgmiosUtxo.id).Nodup) :
    (∀ i ∈ own.map OgmiosUtxo.id, ∃ redeemer, inputs.lookup i = some (some redeemer)) ∧
      ∀ i ∉ own.map OgmiosUtxo.id, inputs.lookup i = none := by
  rw [← ctx.toCslTxInput_eq] at hnodup ⊢
  constructor
  · intro i hi
    obtain ⟨utxo, hutxo, rfl⟩ := List.mem_map.mp hi
    obtain ⟨n, hn⟩ := List.mem_iff_getElem?.mp hutxo
    obtain ⟨exUnits, -, hlookup⟩ := TransactionContext.lookup_addScriptUtxoInputs h hnodup hn
    exact ⟨_, hlookup⟩
  · intro i hi
    exact TransactionContext.lookup_addScriptUtxoInputs_of_notMem h hi

theorem of_registerTx (hnodup : (own.map OgmiosUtxo.id).Nodup)
    (hregistration : registrationUtxo.id ∉ own.map OgmiosUtxo.id)
    (h : registerTx ctx request registrationUtxo own costs = .ok tx) :
    SpendsExactly (ctx.paymentKeyUtxos.map OgmiosUtxo.id) (own.map OgmiosUtxo.id) [registrationUtxo.id] tx ∧
      ∃ output change, tx.outputs = output :: change ∧ output.address = ctx.validatorAddress ∧
        output.datum = some (candidateRegistrationToPlutusData request) ∧ ∀ o ∈ change, o.datum = none := by
  obtain ⟨-, -, h⟩ := of_bind h
  obtain ⟨inputs, hinputs, h⟩ := of_bind h
  obtain ⟨inputs', hinputs', h⟩ := of_bind h
  obtain ⟨output, houtput, h⟩ := of_bind h
  have hbuild := of_mapError h
  obtain ⟨hown, hother⟩ := lookup_own hinputs hnodup
  obtain rfl := TransactionContext.of_addRegularInput hinputs'
  rw [ctx.toCslTxInput_eq] at hbuild
  constructor
  · rw [← ctx.payment_eq]
    refine Balancing.spendsExactly hbuild ?_ ?_ ?_
    · intro i hi
      have hne : i ≠ registrationUtxo.id := fun heq => hregistration (heq ▸ hi)
      obtain ⟨redeemer, hlookup⟩ := hown i hi
      exact ⟨redeemer, (lookup_insertKey_ne hne _ _).trans hlookup⟩
    · intro i hi
      rw [List.mem_singleton.mp hi]
      exact lookup_insertKey_self _ _ _
    · intro i hi hne
      exact (lookup_insertKey_ne (fun heq => hne (List.mem_singleton.mpr heq)) _ _).trans (hother i hi)
  · obtain ⟨change, hchange, hisChange⟩ := ctx.csl.balancing.outputs_eq hbuild
    obtain ⟨haddress, hdatum⟩ := of_registrationOutput (of_mapError houtput)
    exact ⟨output, change, hchange, haddress, hdatum, fun o ho => ctx.change_datum o (hisChange o ho)⟩

theorem of_deregisterTx (hnodup : (own.map OgmiosUtxo.id).Nodup) (h : deregisterTx ctx own costs = .ok tx) :
    SpendsExactly (ctx.paymentKeyUtxos.map OgmiosUtxo.id) (own.map OgmiosUtxo.id) [] tx := by
  obtain ⟨-, -, h⟩ := of_bind h
  obtain ⟨inputs, hinputs, h⟩ := of_bind h
  obtain ⟨hown, hother⟩ := lookup_own hinputs hnodup
  rw [← ctx.payment_eq]
  exact Balancing.spendsExactly (of_mapError h) hown (fun i hi => nomatch hi) fun i hi _ => hother i hi

theorem panics_registerTx_iff :
    Panics (registerTx ctx request registrationUtxo own costs) ↔
      (∃ u, ctx.csl.builderConfig.mapError Failure.error = .ok u) ∧ own ≠ [] ∧ Panics costs.getOneSpend := by
  refine panics_ownInputs_iff fun inputs => ?_
  simp only [panics_bind_iff]
  rintro (hpanics | ⟨_, -, hpanics | ⟨_, -, hpanics⟩⟩)
  · exact TransactionContext.not_panics_addRegularInput hpanics
  · exact not_panics_mapError _ hpanics
  · exact not_panics_mapError _ hpanics

theorem panics_deregisterTx_iff :
    Panics (deregisterTx ctx own costs) ↔
      (∃ u, ctx.csl.builderConfig.mapError Failure.error = .ok u) ∧ own ≠ [] ∧ Panics costs.getOneSpend :=
  panics_ownInputs_iff fun _ => not_panics_mapError _

theorem spendsWithOneCost_registerTx (hnodup : (own.map OgmiosUtxo.id).Nodup)
    (hregistration : registrationUtxo.id ∉ own.map OgmiosUtxo.id) :
    SpendsWithOneCost (registerTx ctx request registrationUtxo own) (own.map OgmiosUtxo.id) where
  isScriptInput_iff h := (of_registerTx hnodup hregistration h).1.isScriptInput_iff
  panics_iff hzero costs := by
    obtain ⟨u, hconfig, -⟩ := of_bind hzero
    rw [panics_registerTx_iff, and_iff_right ⟨u, hconfig⟩, ne_eq, ne_eq, List.map_eq_nil_iff]
  not_panics_zeroCosts hpanics := not_panics_ok _ (panics_registerTx_iff.mp hpanics).2.2

theorem spendsWithOneCost_deregisterTx (hnodup : (own.map OgmiosUtxo.id).Nodup) :
    SpendsWithOneCost (deregisterTx ctx own) (own.map OgmiosUtxo.id) where
  isScriptInput_iff h := (of_deregisterTx hnodup h).isScriptInput_iff
  panics_iff hzero costs := by
    obtain ⟨u, hconfig, -⟩ := of_bind hzero
    rw [panics_deregisterTx_iff, and_iff_right ⟨u, hconfig⟩, ne_eq, ne_eq, List.map_eq_nil_iff]
  not_panics_zeroCosts hpanics := not_panics_ok _ (panics_deregisterTx_iff.mp hpanics).2.2

end

/-! ## Any number of registrations -/

section
variable (ctx : RegistrationContext Raw H Address)
  (client : Ogmios McUtxoId H (Output Address)) (validatorUtxos : List (OgmiosUtxo Raw))

def ownRegistrationUtxos (ownPkh : Bytes 28) (spoPubKey : Bytes 32) : List (OgmiosUtxo Raw) :=
  (getOwnRegistrations ctx.codec ownPkh spoPubKey validatorUtxos).map Prod.fst

/-- The transactions for the registrations that are found at the validator. -/
def ownRegisterTx (request : CandidateRegistration) (registrationUtxo : OgmiosUtxo Raw) :
    Costs H → Except Failure (Transaction McUtxoId H (Output Address)) :=
  registerTx ctx request registrationUtxo
    (ownRegistrationUtxos ctx validatorUtxos request.ownPkh request.stakeOwnership.pubKey)

def ownDeregisterTx (ownPkh : Bytes 28) (spoPubKey : Bytes 32) :
    Costs H → Except Failure (Transaction McUtxoId H (Output Address)) :=
  deregisterTx ctx (ownRegistrationUtxos ctx validatorUtxos ownPkh spoPubKey)

structure SpendsOwnRegistrations (ownPkh : Bytes 28) (spoPubKey : Bytes 32) (regular : List McUtxoId)
    (tx : Transaction McUtxoId H (Output Address)) : Prop where
  isScriptInput_iff : ∀ i, IsScriptInput tx i ↔
    ∃ utxo ∈ validatorUtxos, utxo.id = i ∧ ∃ r, OwnRegistration ctx.codec ownPkh spoPubKey utxo r
  regular_mem : ∀ i ∈ regular, (i, none) ∈ tx.inputs.entries
  mem_payment : ∀ i redeemer, (i, redeemer) ∈ tx.inputs.entries →
    IsScriptInput tx i ∨ i ∈ regular ∨ i ∈ ctx.paymentKeyUtxos.map OgmiosUtxo.id

/-- One output has the new registration, and the others have no datum. -/
def HasOneRegistration (request : CandidateRegistration) (tx : Transaction McUtxoId H (Output Address)) : Prop :=
  ∃ output change, tx.outputs = output :: change ∧ output.address = ctx.validatorAddress ∧
    output.datum = some (candidateRegistrationToPlutusData request) ∧ ∀ o ∈ change, o.datum = none

/-- Registering does not panic, and spends and leaves what it should. -/
def RegisterCorrect [DecidableEq H] (request : CandidateRegistration) (registrationUtxo : OgmiosUtxo Raw) : Prop :=
  ¬ Panics (Costs.calculateCosts (ownRegisterTx ctx validatorUtxos request registrationUtxo) client) ∧
    ∀ tx, Costs.calculateCosts (ownRegisterTx ctx validatorUtxos request registrationUtxo) client = .ok tx →
      SpendsOwnRegistrations ctx validatorUtxos request.ownPkh request.stakeOwnership.pubKey
        [registrationUtxo.id] tx ∧ HasOneRegistration ctx request tx

def DeregisterCorrect [DecidableEq H] (ownPkh : Bytes 28) (spoPubKey : Bytes 32) : Prop :=
  ¬ Panics (Costs.calculateCosts (ownDeregisterTx ctx validatorUtxos ownPkh spoPubKey) client) ∧
    ∀ tx, Costs.calculateCosts (ownDeregisterTx ctx validatorUtxos ownPkh spoPubKey) client = .ok tx →
      SpendsOwnRegistrations ctx validatorUtxos ownPkh spoPubKey [] tx

/-- The transaction without costs is built, and evaluated. -/
def FirstEvaluated (makeTx : Costs H → Except Failure (Transaction McUtxoId H (Output Address))) : Prop :=
  ∃ tx response, makeTx .zeroCosts = .ok tx ∧ client.evaluateTransaction tx = .ok response

variable {ctx client validatorUtxos}

theorem mem_map_id_ownRegistrationUtxos :
    i ∈ (ownRegistrationUtxos ctx validatorUtxos ownPkh spoPubKey).map OgmiosUtxo.id ↔
      ∃ utxo ∈ validatorUtxos, utxo.id = i ∧ ∃ r, OwnRegistration ctx.codec ownPkh spoPubKey utxo r := by
  simp only [ownRegistrationUtxos, List.mem_map, Prod.exists, exists_and_right, exists_eq_right,
    mem_getOwnRegistrations, exists_and_left]
  exact exists_congr fun utxo => by tauto

theorem SpendsExactly.spendsOwnRegistrations
    (h : SpendsExactly (ctx.paymentKeyUtxos.map OgmiosUtxo.id)
      ((ownRegistrationUtxos ctx validatorUtxos ownPkh spoPubKey).map OgmiosUtxo.id) regular tx) :
    SpendsOwnRegistrations ctx validatorUtxos ownPkh spoPubKey regular tx where
  isScriptInput_iff i := (h.isScriptInput_iff i).trans mem_map_id_ownRegistrationUtxos
  regular_mem := h.regular_mem
  mem_payment i redeemer hmem := (h.mem_payment i redeemer hmem).imp_left (h.isScriptInput_iff i).mpr

/-- Without a panic, it is correct; there is one for two registrations. -/
theorem not_panics_calculateCosts_iff [DecidableEq H] {own : List (OgmiosUtxo Raw)}
    (h : SpendsWithOneCost makeTx (own.map OgmiosUtxo.id)) (hnodup : (own.map OgmiosUtxo.id).Nodup)
    (hclient : ∀ tx response, client.evaluateTransaction tx = .ok response →
      OneSpendPerScriptInput tx response) :
    ¬ Panics (Costs.calculateCosts makeTx client) ↔ own.length ≤ 1 ∨ ¬ FirstEvaluated client makeTx := by
  rw [h.panics_calculateCosts_iff hnodup hclient, List.length_map, not_and_or, not_le, Nat.lt_succ_iff]
  rfl

variable (ctx client validatorUtxos) in
/-- With one spend cost for each script input, registering and deregistering work exactly when the
candidate has at most one registration, or the transaction cannot be evaluated at all. -/
theorem registration_txs_correct_iff [DecidableEq H]
    (hclient : ∀ tx response, client.evaluateTransaction tx = .ok response →
      OneSpendPerScriptInput tx response)
    (hutxos : (validatorUtxos.map OgmiosUtxo.id).Nodup) (request : CandidateRegistration)
    (registrationUtxo : OgmiosUtxo Raw) (hregistration : registrationUtxo.id ∉ validatorUtxos.map OgmiosUtxo.id)
    (ownPkh : Bytes 28) (spoPubKey : Bytes 32) :
    (RegisterCorrect ctx client validatorUtxos request registrationUtxo ↔
      (ownRegistrationUtxos ctx validatorUtxos request.ownPkh request.stakeOwnership.pubKey).length ≤ 1 ∨
        ¬ FirstEvaluated client (ownRegisterTx ctx validatorUtxos request registrationUtxo)) ∧
    (DeregisterCorrect ctx client validatorUtxos ownPkh spoPubKey ↔
      (ownRegistrationUtxos ctx validatorUtxos ownPkh spoPubKey).length ≤ 1 ∨
        ¬ FirstEvaluated client (ownDeregisterTx ctx validatorUtxos ownPkh spoPubKey)) := by
  have hsublist : ∀ pkh key, ((ownRegistrationUtxos ctx validatorUtxos pkh key).map OgmiosUtxo.id).Sublist
      (validatorUtxos.map OgmiosUtxo.id) := fun pkh key => (getOwnRegistrations_sublist validatorUtxos).map _
  have hnodup := fun pkh key => hutxos.sublist (hsublist pkh key)
  constructor
  · have hnot := fun hmem => hregistration ((hsublist request.ownPkh request.stakeOwnership.pubKey).mem hmem)
    refine (and_iff_left fun tx htx => ?_).trans
      (not_panics_calculateCosts_iff (spendsWithOneCost_registerTx (hnodup _ _) hnot) (hnodup _ _) hclient)
    obtain ⟨_, _, _, _, -, -, hlast⟩ := Costs.of_calculateCosts htx
    obtain ⟨hspends, houtput⟩ := of_registerTx (hnodup _ _) hnot hlast
    exact ⟨hspends.spendsOwnRegistrations, houtput⟩
  · refine (and_iff_left fun tx htx => ?_).trans
      (not_panics_calculateCosts_iff (spendsWithOneCost_deregisterTx (hnodup _ _)) (hnodup _ _) hclient)
    obtain ⟨_, _, _, _, -, -, hlast⟩ := Costs.of_calculateCosts htx
    exact (of_deregisterTx (hnodup _ _) hlast).spendsOwnRegistrations

end

/-! ## Two registrations -/

namespace TwoRegistrations

theorem ok_id (data : PlutusData) : (.ok (id data) : Except String PlutusData) = .ok data := rfl

def codec : PlutusCodec PlutusData := ⟨id, .ok, ok_id⟩

def utxoId (n : UInt8) : McUtxoId := ⟨.fill 32 n, 0⟩

def request : CandidateRegistration :=
  ⟨⟨.fill 32 1, .fill 64 2⟩, [3], [4], .fill 28 5, utxoId 9, [⟨aura, [6]⟩, ⟨grandpa, [7]⟩]⟩

def registered (n : UInt8) : OgmiosUtxo PlutusData :=
  ⟨utxoId n, [], some (candidateRegistrationToPlutusData { request with registrationUtxo := utxoId (n + 10) })⟩

def paymentUtxo : OgmiosUtxo PlutusData := ⟨utxoId 9, [], none⟩

def ctx : RegistrationContext PlutusData Unit Unit where
  codec := codec
  paymentKeyUtxos := [paymentUtxo]
  validatorAddress := ()
  minimumAda _ := .ok 1000000
  addOutput _ := .ok ()
  csl := ⟨OgmiosUtxo.id, .ok (), fun _ => .ok (), fun _ => .ok (), .unchanged [paymentUtxo.id]⟩
  toCslTxInput_eq := rfl
  payment_eq := rfl
  change_datum _ h := h.elim

def client : Ogmios McUtxoId Unit (Output Unit) := .ofCost fun _ => ⟨10, 20⟩

end TwoRegistrations

open TwoRegistrations in
theorem registration_txs_correct_one :
    RegisterCorrect ctx client [registered 1] request paymentUtxo ∧
      DeregisterCorrect ctx client [registered 1] request.ownPkh request.stakeOwnership.pubKey :=
  have h := registration_txs_correct_iff ctx client [registered 1] (Ogmios.ofCost_oneSpendPerScriptInput _)
    (by decide) request paymentUtxo (by decide) request.ownPkh request.stakeOwnership.pubKey
  ⟨h.1.mpr (.inl (by decide)), h.2.mpr (.inl (by decide))⟩

open TwoRegistrations in
/-- The one cost is asked for after the first evaluation has reported two. -/
theorem two_registrations_panic :
    (∀ tx response, client.evaluateTransaction tx = .ok response → OneSpendPerScriptInput tx response) ∧
      ¬ RegisterCorrect ctx client [registered 1, registered 2] request paymentUtxo ∧
      ¬ DeregisterCorrect ctx client [registered 1, registered 2] request.ownPkh
        request.stakeOwnership.pubKey :=
  ⟨Ogmios.ofCost_oneSpendPerScriptInput _, fun h => h.1 ⟨_, rfl⟩, fun h => h.1 ⟨_, rfl⟩⟩

/-! ## Skipping a registration -/

section

structure RegistrationClient (Raw H Address TxId : Type) where
  transactionContext : Except String (RegistrationContext Raw H Address)
  queryUtxos : Address → Except String (List (OgmiosUtxo Raw))
  ogmios : Ogmios McUtxoId H (Output Address)
  submitTransaction : Transaction McUtxoId H (Output Address) → Except String TxId
  hex : Transaction McUtxoId H (Output Address) → String
  awaitTxOutput : TxId → Except String Unit

/-- The text of the error has the bytes of the transaction. -/
def submit (client : RegistrationClient Raw H Address TxId) (name : String)
    (tx : Transaction McUtxoId H (Output Address)) : Except Failure (Option TxId) := do
  let txId ← (client.submitTransaction tx).mapError fun e => Failure.error
    ("Submit candidate " ++ name ++ " transaction request failed: " ++ e ++ ", bytes: " ++ client.hex tx)
  let _ ← (client.awaitTxOutput txId).mapError .error
  .ok (some txId)

def runRegister [DecidableEq H] (client : RegistrationClient Raw H Address TxId)
    (request : CandidateRegistration) : Except Failure (Option TxId) := do
  let ctx ← client.transactionContext.mapError .error
  let registrationUtxo ← okOr (.error "registration utxo not found at payment address")
    (ctx.paymentKeyUtxos.find? fun u => u.id = request.registrationUtxo)
  let allRegistrationUtxos ← (client.queryUtxos ctx.validatorAddress).mapError .error
  let ownRegistrations := getOwnRegistrations ctx.codec request.ownPkh request.stakeOwnership.pubKey
    allRegistrationUtxos
  if ownRegistrations.any fun own => request.matchesKeys own.2 then .ok none
  else do
    let tx ← Costs.calculateCosts
      (registerTx ctx request registrationUtxo (ownRegistrations.map Prod.fst)) client.ogmios
    submit client "registration" tx

def runDeregister [DecidableEq H] (client : RegistrationClient Raw H Address TxId) (ownPkh : Bytes 28)
    (stakeOwnershipPubKey : Bytes 32) : Except Failure (Option TxId) := do
  let ctx ← client.transactionContext.mapError .error
  let allRegistrationUtxos ← (client.queryUtxos ctx.validatorAddress).mapError .error
  let ownRegistrations := getOwnRegistrations ctx.codec ownPkh stakeOwnershipPubKey allRegistrationUtxos
  if ownRegistrations.isEmpty then .ok none
  else do
    let tx ← Costs.calculateCosts (deregisterTx ctx (ownRegistrations.map Prod.fst)) client.ogmios
    submit client "deregistration" tx

/-- The same stake ownership, partner chain key and signature. -/
def SameIdentity (r r' : CandidateRegistration) : Prop :=
  r.stakeOwnership = r'.stakeOwnership ∧ r.partnerChainPubKey = r'.partnerChainPubKey ∧
    r.partnerChainSignature = r'.partnerChainSignature

theorem matchesKeys_iff : r.matchesKeys r' ↔ SameIdentity r r' ∧ ∀ key ∈ r.keys, key ∈ r'.keys := by
  simp only [CandidateRegistration.matchesKeys, SameIdentity, Bool.and_eq_true, beq_iff_eq, List.all_eq_true,
    List.contains_iff_mem, and_assoc]

variable {client : RegistrationClient Raw H Address TxId} {ctx : RegistrationContext Raw H Address}
  {validatorUtxos : List (OgmiosUtxo Raw)}

theorem submit_ne_none : submit client name tx ≠ .ok none := by
  intro h
  obtain ⟨txId, -, h⟩ := of_bind h
  obtain ⟨-, -, h⟩ := of_bind h
  cases h

/-- What is left of a run after a decision: nothing is submitted exactly when it is skipped. -/
theorem skip_iff {skip : Bool} :
    (if skip then .ok none else build >>= submit client name) = .ok none ↔ skip := by
  refine ⟨fun h => ?_, fun h => if_pos h⟩
  by_contra hskip
  rw [if_neg hskip] at h
  obtain ⟨tx, -, h⟩ := of_bind h
  exact submit_ne_none h

theorem runRegister_none_iff [DecidableEq H] (hctx : client.transactionContext = .ok ctx)
    (hutxo : ctx.paymentKeyUtxos.find? (fun u => u.id = request.registrationUtxo) = some registrationUtxo)
    (hquery : client.queryUtxos ctx.validatorAddress = .ok validatorUtxos) :
    runRegister client request = .ok none ↔ ∃ utxo ∈ validatorUtxos, ∃ r,
      OwnRegistration ctx.codec request.ownPkh request.stakeOwnership.pubKey utxo r ∧
        SameIdentity request r ∧ ∀ key ∈ request.keys, key ∈ r.keys := by
  rw [runRegister, hctx]
  show (okOr _ (ctx.paymentKeyUtxos.find? _) >>= _) = _ ↔ _
  rw [hutxo]
  show ((client.queryUtxos _).mapError _ >>= _) = _ ↔ _
  rw [hquery]
  refine skip_iff.trans ?_
  rw [List.any_eq_true]
  simp only [Prod.exists, mem_getOwnRegistrations, matchesKeys_iff]
  tauto

/-- A registration is skipped exactly when the candidate has it already, unless the candidate only has
one with more keys. -/
theorem register_skipped_iff [DecidableEq H] (client : RegistrationClient Raw H Address TxId)
    (ctx : RegistrationContext Raw H Address) (hctx : client.transactionContext = .ok ctx)
    (request : CandidateRegistration) (registrationUtxo : OgmiosUtxo Raw)
    (hutxo : ctx.paymentKeyUtxos.find? (fun u => u.id = request.registrationUtxo) = some registrationUtxo)
    (validatorUtxos : List (OgmiosUtxo Raw))
    (hquery : client.queryUtxos ctx.validatorAddress = .ok validatorUtxos) :
    (runRegister client request = .ok none ↔ ∃ utxo ∈ validatorUtxos, ∃ r,
      OwnRegistration ctx.codec request.ownPkh request.stakeOwnership.pubKey utxo r ∧
        SameIdentity request r ∧ ∀ key, key ∈ request.keys ↔ key ∈ r.keys) ↔
    ((∃ utxo ∈ validatorUtxos, ∃ r,
      OwnRegistration ctx.codec request.ownPkh request.stakeOwnership.pubKey utxo r ∧
        SameIdentity request r ∧ ∀ key ∈ request.keys, key ∈ r.keys) →
      ∃ utxo ∈ validatorUtxos, ∃ r,
        OwnRegistration ctx.codec request.ownPkh request.stakeOwnership.pubKey utxo r ∧
          SameIdentity request r ∧ ∀ key, key ∈ request.keys ↔ key ∈ r.keys) := by
  rw [runRegister_none_iff hctx hutxo hquery]
  refine ⟨fun h => h.mp, fun h => ⟨h, ?_⟩⟩
  rintro ⟨utxo, hmem, r, hown, hsame, hkeys⟩
  exact ⟨utxo, hmem, r, hown, hsame, fun key => (hkeys key).mp⟩

end

namespace TwoRegistrations

/-- The candidate is registered with a key that a new request does not have. -/
def registeredWithMore : OgmiosUtxo PlutusData :=
  ⟨utxoId 1, [], some (candidateRegistrationToPlutusData
    { request with keys := request.keys ++ [⟨⟨[98, 97, 98, 101], rfl⟩, [8]⟩] })⟩

def registrationClient (validatorUtxos : List (OgmiosUtxo PlutusData)) :
    RegistrationClient PlutusData Unit Unit Nat :=
  ⟨.ok ctx, fun _ => .ok validatorUtxos, client, fun _ => .ok 0, fun _ => "", fun _ => .ok ()⟩

end TwoRegistrations

open TwoRegistrations in
theorem register_skipped_same_keys :
    runRegister (registrationClient [registered 1]) request = .ok none ↔ ∃ utxo ∈ [registered 1], ∃ r,
      OwnRegistration ctx.codec request.ownPkh request.stakeOwnership.pubKey utxo r ∧
        SameIdentity request r ∧ ∀ key, key ∈ request.keys ↔ key ∈ r.keys :=
  (register_skipped_iff (registrationClient [registered 1]) ctx rfl request paymentUtxo rfl [registered 1]
    rfl).mpr fun _ => ⟨registered 1, List.mem_singleton_self _, _, ⟨rfl, rfl, rfl⟩, ⟨rfl, rfl, rfl⟩,
      fun _ => Iff.rfl⟩

open TwoRegistrations in
/-- A key that should go stays registered. -/
theorem register_skipped_with_more_keys :
    runRegister (registrationClient [registeredWithMore]) request = .ok none ∧
      ¬ ∃ utxo ∈ [registeredWithMore], ∃ r,
        OwnRegistration ctx.codec request.ownPkh request.stakeOwnership.pubKey utxo r ∧
          SameIdentity request r ∧ ∀ key, key ∈ request.keys ↔ key ∈ r.keys := by
  refine ⟨rfl, ?_⟩
  rintro ⟨utxo, hutxo, r, ⟨hr, -⟩, -, hkeys⟩
  rw [List.mem_singleton.mp hutxo] at hr
  cases hr
  have hmem := (hkeys ⟨⟨[98, 97, 98, 101], rfl⟩, [8]⟩).mpr (by decide)
  exact absurd hmem (by decide)

end MidnightNode.Offchain
