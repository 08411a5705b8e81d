import MidnightNode.Genesis.Generator
import MidnightNode.Lib.GreedyCover
import MidnightNode.Lib.KeyedList

/-!
# Shielded offers

`build_shielded_offer` adds up the requested outputs by token, selects coins of the source wallet for
each token and returns what they exceed the total by as change. A memo goes to the first input.
-/

namespace MidnightNode.ShieldedOffer

open Fallible GreedyCover KeyedList
open Genesis (checkedAdd checkedSub of_checkedAdd of_checkedSub)

variable {Seed Token Nullifier Wallet : Type}

inductive CoinSelectionStrategy
  | largestFirst
  | smallestFirst
deriving DecidableEq

inductive ShieldedCoinSelectionError (Seed Token : Type)
  | insufficientBalance (required : Nat) (tokenType : Token) (seed : Seed)
  | arithmeticOverflow
  | memoNotAttached
  | sourceWalletNotFound

structure QualifiedInfo (Token : Type) where
  type : Token
  value : Nat
deriving DecidableEq

/-- The coins of a wallet by their nullifiers, in the order of the map. -/
structure Coins (Nullifier Token : Type) where
  entries : List (Nullifier × QualifiedInfo Token)
  nodup : (entries.map Prod.fst).Nodup

structure InputInfo (Seed Token Nullifier : Type) where
  origin : Seed
  tokenType : Token
  value : Nat
  nullifier : Option Nullifier
  memo : Option (List UInt8)

inductive Destination (Seed Wallet : Type)
  | wallet (wallet : Wallet)
  | seed (seed : Seed)

structure OutputInfo (Seed Token Wallet : Type) where
  destination : Destination Seed Wallet
  tokenType : Token
  value : Nat

structure ShieldedOutputSpec (Token Wallet : Type) where
  wallet : Wallet
  amount : Nat
  tokenType : Token

/-- An offer; it has no transients. -/
structure OfferInfo (Seed Token Nullifier Wallet : Type) where
  inputs : List (InputInfo Seed Token Nullifier)
  outputs : List (OutputInfo Seed Token Wallet)

def selectLoop (required : Nat) : Nat → List (InputInfo Seed Token Nullifier) →
    List (InputInfo Seed Token Nullifier) → Option (List (InputInfo Seed Token Nullifier) × Nat)
  | _, _, [] => none
  | total, selected, input :: inputs =>
    match checkedAdd total input.value with
    | none => none
    | some total =>
      match checkedSub total required with
      | some change => some (selected ++ [input], change)
      | none => selectLoop required total (selected ++ [input]) inputs

/-- The sort is stable. -/
def ordered (inputs : List (InputInfo Seed Token Nullifier)) (strategy : CoinSelectionStrategy) :
    List (InputInfo Seed Token Nullifier) :=
  let inputs := inputs.insertionSort fun a b => a.value ≤ b.value
  match strategy with
  | .largestFirst => inputs.reverse
  | .smallestFirst => inputs

def selectInputs (inputs : List (InputInfo Seed Token Nullifier)) (required : Nat)
    (strategy : CoinSelectionStrategy) : Option (List (InputInfo Seed Token Nullifier) × Nat) :=
  selectLoop required 0 [] (ordered inputs strategy)

def InputInfo.ofCoin (seed : Seed) (coin : Nullifier × QualifiedInfo Token) :
    InputInfo Seed Token Nullifier :=
  ⟨seed, coin.2.type, coin.2.value, some coin.1, none⟩

/-- A requested memo goes to the first input, unless it has been attached. -/
def attachMemoToFirstSelected (selected : List (InputInfo Seed Token Nullifier))
    (memo : Option (List UInt8)) (memoAttached : Bool) : List (InputInfo Seed Token Nullifier) × Bool :=
  match memoAttached, memo, selected with
  | false, some memo, first :: rest => ({ first with memo := some memo } :: rest, true)
  | _, _, _ => (selected, memoAttached)

section

variable [DecidableEq Token]

def Coins.ofToken (coins : Coins Nullifier Token) (token : Token) :
    List (Nullifier × QualifiedInfo Token) :=
  coins.entries.filter (·.2.type = token)

/-- The context has the coins of the registered wallets. -/
def coinsToCoverValue (context : Seed → Option (Coins Nullifier Token)) (seed : Seed) (required : Nat)
    (token : Token) (strategy : CoinSelectionStrategy) :
    Except (ShieldedCoinSelectionError Seed Token) (List (InputInfo Seed Token Nullifier) × Nat) :=
  match context seed with
  | none => .error .sourceWalletNotFound
  | some coins => okOr (.insufficientBalance required token seed)
      (selectInputs ((coins.ofToken token).map (.ofCoin seed)) required strategy)

def addTotal : List (Token × Nat) → ShieldedOutputSpec Token Wallet → Option (List (Token × Nat))
  | [], spec => some [(spec.tokenType, spec.amount)]
  | (token, sum) :: totals, spec =>
    if token = spec.tokenType then (checkedAdd sum spec.amount).map fun sum => (token, sum) :: totals
    else (addTotal totals spec).map ((token, sum) :: ·)

def refund (seed : Seed) (token : Token) (change : Nat) : List (OutputInfo Seed Token Wallet) :=
  if change > 0 then [⟨.seed seed, token, change⟩] else []

def selectGroups (context : Seed → Option (Coins Nullifier Token)) (seed : Seed)
    (strategy : CoinSelectionStrategy) (memo : Option (List UInt8)) :
    List (Token × Nat) → List (InputInfo Seed Token Nullifier) → List (OutputInfo Seed Token Wallet) →
      Bool → Except (ShieldedCoinSelectionError Seed Token) (OfferInfo Seed Token Nullifier Wallet × Bool)
  | [], inputs, outputs, memoAttached => .ok (⟨inputs, outputs⟩, memoAttached)
  | (token, required) :: totals, inputs, outputs, memoAttached => do
    let (selected, change) ← coinsToCoverValue context seed required token strategy
    let (selected, memoAttached) := attachMemoToFirstSelected selected memo memoAttached
    selectGroups context seed strategy memo totals (inputs ++ selected)
      (outputs ++ refund seed token change) memoAttached

def buildShieldedOffer (context : Seed → Option (Coins Nullifier Token)) (fundingSeed : Seed)
    (outputs : List (ShieldedOutputSpec Token Wallet)) (coinSelection : CoinSelectionStrategy)
    (memo : Option (List UInt8)) :
    Except (ShieldedCoinSelectionError Seed Token) (OfferInfo Seed Token Nullifier Wallet) := do
  let totals ← okOr .arithmeticOverflow (outputs.foldlM addTotal [])
  let (offer, memoAttached) ← selectGroups context fundingSeed coinSelection memo totals []
    (outputs.map fun spec => ⟨.wallet spec.wallet, spec.tokenType, spec.amount⟩) false
  if memo.isSome && !memoAttached then .error .memoNotAttached
  else .ok offer

end

/-! ## Selection -/

section

variable {inputs picked selected : List (InputInfo Seed Token Nullifier)} {total required change : Nat}
  {strategy : CoinSelectionStrategy}

theorem of_selectLoop (h : selectLoop required total picked inputs = some (selected, change)) :
    ∃ n, Covering (·.value) total required inputs n ∧ selected = picked ++ inputs.take n ∧
      total + sumTo (·.value) inputs n = required + change := by
  induction inputs generalizing total picked with
  | nil => cases h
  | cons input inputs ih =>
    rw [selectLoop] at h
    split at h
    case h_1 => cases h
    case h_2 hadd =>
      obtain rfl := of_checkedAdd hadd
      split at h
      case h_1 hsub =>
        cases h
        have hchange := of_checkedSub hsub
        refine ⟨1, ⟨one_pos, ?_, ?_, fun m hm hlt => absurd hlt (Nat.not_lt.mpr hm)⟩, ?_, ?_⟩
        · simp
        · simp only [sumTo_cons_succ, sumTo_zero]
          omega
        · simp
        · simp only [sumTo_cons_succ, sumTo_zero]
          omega
      case h_2 hsub =>
        obtain ⟨n, hcovering, rfl, hsum⟩ := ih h
        refine ⟨n + 1, hcovering.cons ?_, ?_, ?_⟩
        · simpa [checkedSub] using hsub
        · simp
        · rw [sumTo_cons_succ, ← Nat.add_assoc, hsum]

theorem exists_selectLoop_iff (hfit : total + (inputs.map (·.value)).sum < 2 ^ 128) :
    (∃ r, selectLoop required total picked inputs = some r) ↔
      inputs ≠ [] ∧ required ≤ total + (inputs.map (·.value)).sum := by
  induction inputs generalizing total picked with
  | nil => simp [selectLoop]
  | cons input inputs ih =>
    rw [List.map_cons, List.sum_cons, ← Nat.add_assoc] at hfit ⊢
    have hadd : checkedAdd total input.value = some (total + input.value) :=
      if_pos ((Nat.le_add_right _ _).trans_lt hfit)
    simp only [selectLoop, hadd]
    split
    case h_1 hsub =>
      have := of_checkedSub hsub
      exact iff_of_true ⟨_, rfl⟩ ⟨List.cons_ne_nil _ _, by omega⟩
    case h_2 hsub =>
      have hshort : total + input.value < required := by simpa [checkedSub] using hsub
      rw [ih hfit]
      refine ⟨fun h => ⟨List.cons_ne_nil _ _, h.2⟩, fun h => ⟨?_, h.2⟩⟩
      -- the last input alone does not suffice
      rintro rfl
      exact Nat.not_le.mpr hshort h.2

theorem ordered_perm : (ordered inputs strategy).Perm inputs := by
  cases strategy with
  | largestFirst => exact (List.reverse_perm _).trans (List.perm_insertionSort _ _)
  | smallestFirst => exact List.perm_insertionSort _ _

theorem ordered_largestFirst : (ordered inputs .largestFirst).Pairwise fun a b => b.value ≤ a.value := by
  have : Std.Total fun a b : InputInfo Seed Token Nullifier => a.value ≤ b.value :=
    ⟨fun _ _ => Nat.le_total _ _⟩
  have : IsTrans (InputInfo Seed Token Nullifier) fun a b => a.value ≤ b.value :=
    ⟨fun _ _ _ => Nat.le_trans⟩
  exact List.pairwise_reverse.mpr (List.pairwise_insertionSort _ _)

theorem exists_selectInputs_iff (hfit : (inputs.map (·.value)).sum < 2 ^ 128) :
    (∃ r, selectInputs inputs required strategy = some r) ↔
      inputs ≠ [] ∧ required ≤ (inputs.map (·.value)).sum := by
  have hsum : ((ordered inputs strategy).map (·.value)).sum = (inputs.map (·.value)).sum :=
    (ordered_perm.map _).sum_eq
  have hnil : ordered inputs strategy = [] ↔ inputs = [] := by
    rw [← List.length_eq_zero_iff, ordered_perm.length_eq, List.length_eq_zero_iff]
  rw [selectInputs, exists_selectLoop_iff (by rwa [Nat.zero_add, hsum]), Nat.zero_add, hsum, Ne, hnil]

end

theorem sum_value_ofCoin (seed : Seed) (l : List (Nullifier × QualifiedInfo Token)) :
    ((l.map (InputInfo.ofCoin seed)).map (·.value)).sum = (l.map (·.2.value)).sum := by
  rw [List.map_map]
  rfl

section

variable [DecidableEq Token] {context : Seed → Option (Coins Nullifier Token)} {seed : Seed}
  {coins : Coins Nullifier Token} {strategy : CoinSelectionStrategy} {memo : Option (List UInt8)}

def Coins.value (coins : Coins Nullifier Token) (token : Token) : Nat :=
  ((coins.ofToken token).map (·.2.value)).sum

/-- The inputs cover the total of a token, and are coins of this token. The largest coins are as few as
any that do. -/
structure Covers (coins : Coins Nullifier Token) (seed : Seed) (strategy : CoinSelectionStrategy)
    (token : Token) (required : Nat) (selected : List (InputInfo Seed Token Nullifier)) (change : Nat) : Prop where
  ne_nil : selected ≠ []
  subperm : selected.Subperm ((coins.ofToken token).map (.ofCoin seed))
  sum_eq : (selected.map (·.value)).sum = required + change
  least : strategy = .largestFirst → ∀ chosen, chosen.Subperm (coins.ofToken token) → chosen ≠ [] →
    required ≤ (chosen.map (·.2.value)).sum → selected.length ≤ chosen.length

variable {required change : Nat} {token : Token} {selected : List (InputInfo Seed Token Nullifier)}

theorem of_coinsToCoverValue (hcontext : context seed = some coins)
    (h : coinsToCoverValue context seed required token strategy = .ok (selected, change)) :
    Covers coins seed strategy token required selected change := by
  rw [coinsToCoverValue, hcontext] at h
  obtain ⟨n, hcovering, rfl, hsum⟩ := of_selectLoop (of_okOr h)
  have hlength := List.length_take_of_le hcovering.le
  rw [List.nil_append]
  refine ⟨?_, ?_, ?_, ?_⟩
  · exact List.ne_nil_of_length_pos (hcovering.pos.trans_eq hlength.symm)
  · exact (List.take_sublist n _).subperm.trans ordered_perm.subperm
  · exact (Nat.zero_add _).symm.trans hsum
  · rintro rfl chosen hsub hne hcovers
    obtain ⟨l, hperm, hl⟩ := hsub
    have hsub : (chosen.map (InputInfo.ofCoin seed)).Subperm ((coins.ofToken token).map (.ofCoin seed)) :=
      ⟨l.map _, hperm.map _, hl.map _⟩
    have hle := hcovering.le_length ordered_largestFirst (hsub.trans ordered_perm.symm.subperm)
      (mt List.map_eq_nil_iff.mp hne) (hcovers.trans_eq (sum_value_ofCoin seed chosen).symm)
    rw [List.length_map] at hle
    exact hlength.le.trans hle

theorem exists_coinsToCoverValue_iff (hcontext : context seed = some coins)
    (hfit : coins.value token < 2 ^ 128) :
    (∃ r, coinsToCoverValue context seed required token strategy = .ok r) ↔
      coins.ofToken token ≠ [] ∧ required ≤ coins.value token := by
  have hsum : (((coins.ofToken token).map (InputInfo.ofCoin seed)).map (·.value)).sum =
      coins.value token := sum_value_ofCoin seed _
  simp only [coinsToCoverValue, hcontext]
  rw [exists_okOr_iff, exists_selectInputs_iff (hsum.trans_lt hfit), hsum, Ne, List.map_eq_nil_iff]

end

/-! ## The totals -/

section

variable [DecidableEq Token] {specs : List (ShieldedOutputSpec Token Wallet)}
  {spec : ShieldedOutputSpec Token Wallet} {tokens : List Token} {token : Token}

/-- What the outputs ask for of a token. -/
def requested (specs : List (ShieldedOutputSpec Token Wallet)) (token : Token) : Nat :=
  ((specs.filter (·.tokenType = token)).map (·.amount)).sum

theorem requested_concat : requested (specs ++ [spec]) token =
    requested specs token + if spec.tokenType = token then spec.amount else 0 := by
  by_cases h : spec.tokenType = token <;> simp [requested, h]

theorem requested_eq_zero (h : token ∉ specs.map (·.tokenType)) : requested specs token = 0 := by
  have hnil : specs.filter (·.tokenType = token) = [] :=
    List.filter_eq_nil_iff.mpr fun spec hspec hdec =>
      h (List.mem_map.mpr ⟨spec, hspec, of_decide_eq_true hdec⟩)
  rw [requested, hnil]
  rfl

theorem addTotal_map (f : Token → Nat) (hnodup : tokens.Nodup) :
    addTotal (tokens.map fun t => (t, f t)) spec =
      if spec.tokenType ∈ tokens then (checkedAdd (f spec.tokenType) spec.amount).map fun sum =>
        tokens.map fun t => (t, if t = spec.tokenType then sum else f t)
      else some (tokens.map (fun t => (t, f t)) ++ [(spec.tokenType, spec.amount)]) := by
  induction tokens with
  | nil => rfl
  | cons t tokens ih =>
    obtain ⟨ht, hnodup⟩ := List.nodup_cons.mp hnodup
    rw [List.map_cons, addTotal]
    by_cases htoken : t = spec.tokenType
    · subst htoken
      have hrest (sum : Nat) : (tokens.map fun t => (t, if t = spec.tokenType then sum else f t)) =
          tokens.map fun t => (t, f t) :=
        List.map_congr_left fun t hmem => by rw [if_neg (ne_of_mem_of_not_mem hmem ht)]
      simp [hrest]
    · rw [if_neg htoken, ih hnodup]
      by_cases hmem : spec.tokenType ∈ tokens
      · simp [hmem, htoken, Function.comp_def]
      · simp [hmem, Ne.symm htoken]

/-- The totals are the sums of the request, unless one has more than 128 bits. -/
theorem totals_spec (specs : List (ShieldedOutputSpec Token Wallet)) :
    (∃ tokens : List Token, specs.foldlM addTotal [] = some (tokens.map fun t => (t, requested specs t)) ∧
      tokens.Nodup ∧ ∀ t, t ∈ tokens ↔ t ∈ specs.map (·.tokenType)) ∨
    specs.foldlM addTotal [] = none ∧ ∃ t ∈ specs.map (·.tokenType), 2 ^ 128 ≤ requested specs t := by
  induction specs using List.reverseRecOn with
  | nil => exact .inl ⟨[], rfl, .nil, fun _ => Iff.rfl⟩
  | append_singleton specs spec ih =>
    rw [List.foldlM_append]
    rcases ih with ⟨tokens, hfold, hnodup, hmem⟩ | ⟨hfold, t, ht, hlarge⟩
    · have hself : requested (specs ++ [spec]) spec.tokenType =
          requested specs spec.tokenType + spec.amount := by rw [requested_concat, if_pos rfl]
      have hother (t : Token) (ht : t ≠ spec.tokenType) :
          requested (specs ++ [spec]) t = requested specs t := by
        rw [requested_concat, if_neg (Ne.symm ht), Nat.add_zero]
      have hmem' (t : Token) :
          t ∈ (specs ++ [spec]).map (·.tokenType) ↔ t ∈ tokens ∨ t = spec.tokenType := by
        rw [List.map_append, List.mem_append, hmem, List.map_singleton, List.mem_singleton]
      simp only [hfold, Option.bind_eq_bind, Option.bind_some, List.foldlM_cons, List.foldlM_nil,
        addTotal_map _ hnodup, checkedAdd]
      split
      case isTrue hold =>
        split
        case isTrue =>
          refine .inl ⟨tokens, congrArg some (List.map_congr_left fun t _ => congrArg (Prod.mk t) ?_),
            hnodup, fun t => ?_⟩
          · by_cases ht : t = spec.tokenType
            · rw [if_pos ht, ht, hself]
            · rw [if_neg ht, hother t ht]
          · rw [hmem', or_iff_left_of_imp fun ht => ht ▸ hold]
        case isFalse hlarge =>
          exact .inr ⟨rfl, spec.tokenType, (hmem' _).mpr (.inr rfl), hself ▸ Nat.not_lt.mp hlarge⟩
      case isFalse hnew =>
        refine .inl ⟨tokens ++ [spec.tokenType], congrArg some ?_, ?_, fun t => ?_⟩
        · rw [List.map_append, List.map_singleton, hself, requested_eq_zero (mt (hmem _).mpr hnew),
            Nat.zero_add]
          exact congrArg (· ++ _) (List.map_congr_left fun t ht =>
            congrArg (Prod.mk t) (hother t (ne_of_mem_of_not_mem ht hnew)).symm)
        · exact List.nodup_append_comm.mp (List.nodup_cons.mpr ⟨hnew, hnodup⟩)
        · rw [hmem', List.mem_append, List.mem_singleton]
    · rw [hfold]
      refine .inr ⟨rfl, t, ?_, ?_⟩
      · rw [List.map_append]
        exact List.mem_append_left _ ht
      · rw [requested_concat]
        exact hlarge.trans (Nat.le_add_right _ _)

end

/-! ## The offer -/

section

variable {memo : Option (List UInt8)} {seed : Seed}

theorem mem_refund {t : Token} {c : Nat} {output : OutputInfo Seed Token Wallet}
    (h : output ∈ refund seed t c) :
    output.destination = .seed seed ∧ output.tokenType = t ∧ 0 < output.value := by
  unfold refund at h
  split at h
  case isTrue hpos =>
    cases List.mem_singleton.mp h
    exact ⟨rfl, rfl, hpos⟩
  case isFalse => cases h

theorem sum_refund (t : Token) (c : Nat) :
    ((refund seed t c : List (OutputInfo Seed Token Wallet)).map (·.value)).sum = c := by
  unfold refund
  split
  case isTrue => exact Nat.add_zero c
  case isFalse hzero => exact (Nat.eq_zero_of_not_pos hzero).symm

theorem refunds_sublist (change : Token → Nat) (tokens : List Token) :
    ((tokens.flatMap fun t => (refund seed t (change t) : List (OutputInfo Seed Token Wallet))).map
      (·.tokenType)).Sublist tokens := by
  induction tokens with
  | nil => exact .slnil
  | cons t tokens ih =>
    rw [List.flatMap_cons, List.map_append, refund]
    split
    case isTrue => exact ih.cons_cons t
    case isFalse => exact ih.cons t

theorem attachMemoToFirstSelected_append (l l' : List (InputInfo Seed Token Nullifier))
    (attached : Bool) : attachMemoToFirstSelected (l ++ l') memo attached =
      let first := attachMemoToFirstSelected l memo attached
      let rest := attachMemoToFirstSelected l' memo first.2
      (first.1 ++ rest.1, rest.2) := by
  cases attached <;> cases memo <;> cases l <;> rfl

theorem attachMemoToFirstSelected_cons (h : input.memo = none)
    (l : List (InputInfo Seed Token Nullifier)) :
    attachMemoToFirstSelected (input :: l) memo false = ({ input with memo } :: l, memo.isSome) := by
  cases memo with
  | none =>
    obtain ⟨origin, tokenType, value, nullifier, memo⟩ := input
    cases h
    rfl
  | some memo => rfl

variable [DecidableEq Token] {context : Seed → Option (Coins Nullifier Token)}
  {strategy : CoinSelectionStrategy} {tokens : List Token} {f : Token → Nat}
  {inputs : List (InputInfo Seed Token Nullifier)} {outputs : List (OutputInfo Seed Token Wallet)}
  {attached : Bool}

theorem of_selectGroups
    (h : selectGroups context seed
      strategy memo (tokens.map fun t => (t, f t)) inputs outputs attached = .ok r) :
    ∀ t ∈ tokens, ∃ r, coinsToCoverValue context seed (f t) t strategy = .ok r := by
  induction tokens generalizing inputs outputs attached with
  | nil => exact fun t ht => nomatch ht
  | cons t tokens ih =>
    obtain ⟨selection, hselection, h⟩ := of_bind h
    intro t' ht'
    rcases List.mem_cons.mp ht' with rfl | ht'
    · exact ⟨selection, hselection⟩
    · exact ih h t' ht'

theorem selectGroups_eq {change : Token → Nat}
    (h : ∀ t ∈ tokens, coinsToCoverValue context seed (f t) t strategy = .ok (selected t, change t)) :
    selectGroups context seed strategy memo (tokens.map fun t => (t, f t)) inputs outputs attached =
      let all := attachMemoToFirstSelected (tokens.flatMap selected) memo attached
      .ok (⟨inputs ++ all.1, outputs ++ tokens.flatMap fun t => refund seed t (change t)⟩, all.2) := by
  induction tokens generalizing inputs outputs attached with
  | nil => simp [selectGroups, attachMemoToFirstSelected]
  | cons t tokens ih =>
    obtain ⟨ht, h⟩ := List.forall_mem_cons.mp h
    rw [List.map_cons, selectGroups, ht, List.flatMap_cons, attachMemoToFirstSelected_append]
    refine (ih h).trans ?_
    simp only [List.append_assoc, List.flatMap_cons]
    rfl

variable {coins : Coins Nullifier Token} {specs : List (ShieldedOutputSpec Token Wallet)}

def OutputInfo.ofSpec (spec : ShieldedOutputSpec Token Wallet) : OutputInfo Seed Token Wallet :=
  ⟨.wallet spec.wallet, spec.tokenType, spec.amount⟩

namespace OfferInfo

variable (offer : OfferInfo Seed Token Nullifier Wallet) (token : Token)

def inputsOf : List (InputInfo Seed Token Nullifier) := offer.inputs.filter (·.tokenType = token)

def outputsOf : List (OutputInfo Seed Token Wallet) := offer.outputs.filter (·.tokenType = token)

/-- The inputs are different coins of the wallet and have the value of the outputs. These are the
requested ones and at most one refund of a token. With the largest coins there are as few as any that
cover a total. The first input has the memo. -/
structure Correct (coins : Coins Nullifier Token) (seed : Seed)
    (specs : List (ShieldedOutputSpec Token Wallet)) (strategy : CoinSelectionStrategy) (memo : Option (List UInt8)) : Prop where
  nodup : (offer.inputs.map (·.nullifier)).Nodup
  own : ∀ input ∈ offer.inputs, ∃ coin ∈ coins.entries,
    input = { InputInfo.ofCoin seed coin with memo := input.memo }
  balanced : ∀ token,
    ((offer.inputsOf token).map (·.value)).sum = ((offer.outputsOf token).map (·.value)).sum
  outputs : ∃ refunds, offer.outputs = specs.map .ofSpec ++ refunds ∧ (refunds.map (·.tokenType)).Nodup ∧
    ∀ output ∈ refunds, output.destination = .seed seed ∧ 0 < output.value
  least : strategy = .largestFirst → ∀ token ∈ specs.map (·.tokenType),
    ∀ chosen : List (Nullifier × QualifiedInfo Token), chosen.Nodup → chosen ⊆ coins.ofToken token →
      chosen ≠ [] → requested specs token ≤ (chosen.map (·.2.value)).sum →
      (offer.inputsOf token).length ≤ chosen.length
  memo : ∃ first rest, offer.inputs = first :: rest ∧ first.memo = memo ∧
    ∀ input ∈ rest, input.memo = none

end OfferInfo

section

variable {selected : Token → List (InputInfo Seed Token Nullifier)} {change : Token → Nat}
  (h : ∀ t ∈ tokens, Covers coins seed strategy t (f t) (selected t) (change t))
include h

theorem exists_coin_of_covers (ht : t ∈ tokens) (hinput : input ∈ selected t) :
    ∃ coin ∈ coins.entries, coin.2.type = t ∧ input = .ofCoin seed coin := by
  obtain ⟨coin, hcoin, rfl⟩ := List.mem_map.mp ((h t ht).subperm.subset hinput)
  obtain ⟨hmem, htype⟩ := List.mem_filter.mp hcoin
  exact ⟨coin, hmem, of_decide_eq_true htype, rfl⟩

theorem nodup_nullifiers (hnodup : tokens.Nodup) :
    ((tokens.flatMap selected).map (·.nullifier)).Nodup := by
  rw [List.map_flatMap, List.nodup_flatMap]
  refine ⟨fun t ht => ?_, hnodup.imp_of_mem fun {t t'} ht ht' hne n hn hn' => ?_⟩
  · have hcoins : (((coins.ofToken t).map (InputInfo.ofCoin seed)).map (·.nullifier)).Nodup := by
      rw [List.map_map]
      change ((coins.ofToken t).map (some ∘ Prod.fst)).Nodup
      rw [← List.map_map]
      exact (coins.nodup.sublist (List.filter_sublist.map _)).map (Option.some_injective _)
    obtain ⟨l, hperm, hl⟩ := (h t ht).subperm
    exact (hperm.map _).nodup_iff.mp (hcoins.sublist (hl.map _))
  · obtain ⟨input, hinput, rfl⟩ := List.mem_map.mp hn
    obtain ⟨input', hinput', heq⟩ := List.mem_map.mp hn'
    obtain ⟨coin, hcoin, htype, rfl⟩ := exists_coin_of_covers h ht hinput
    obtain ⟨coin', hcoin', htype', rfl⟩ := exists_coin_of_covers h ht' hinput'
    have hcoins : coin' = coin := List.inj_on_of_nodup_map coins.nodup hcoin' hcoin (Option.some.inj heq)
    exact hne (htype.symm.trans (hcoins ▸ htype'))

theorem filter_selected (hnodup : tokens.Nodup) (token : Token) :
    (tokens.flatMap selected).filter (·.tokenType = token) =
      if token ∈ tokens then selected token else [] := by
  refine filter_flatMap_key hnodup (fun t ht input hinput => ?_) token
  obtain ⟨coin, -, htype, rfl⟩ := exists_coin_of_covers h ht hinput
  exact htype

end

theorem sum_ofSpec (token : Token) :
    (((specs.map (OutputInfo.ofSpec : _ → OutputInfo Seed Token Wallet)).filter
      (·.tokenType = token)).map (·.value)).sum = requested specs token := by
  rw [List.filter_map, List.map_map]
  rfl

/-- Coins that cover each token make an offer that covers the request. -/
theorem correct_of_covers {change : Token → Nat} (hnodup : tokens.Nodup)
    (hmem : ∀ t, t ∈ tokens ↔ t ∈ specs.map (·.tokenType))
    (h : ∀ t ∈ tokens, Covers coins seed strategy t (requested specs t) (selected t) (change t))
    (hall : tokens.flatMap selected = first :: rest) :
    OfferInfo.Correct ⟨{ first with memo } :: rest,
      specs.map .ofSpec ++ tokens.flatMap fun t => refund seed t (change t)⟩ coins seed specs strategy
        memo := by
  have hown : ∀ input ∈ first :: rest, ∃ coin ∈ coins.entries, input = .ofCoin seed coin := by
    rw [← hall]
    intro input hinput
    obtain ⟨t, ht, hinput⟩ := List.mem_flatMap.mp hinput
    obtain ⟨coin, hcoin, -, rfl⟩ := exists_coin_of_covers h ht hinput
    exact ⟨coin, hcoin, rfl⟩
  have hof (token : Token) {γ : Type} (g : InputInfo Seed Token Nullifier → γ)
      (hg : g { first with memo } = g first) :
      (({ first with memo } :: rest).filter (·.tokenType = token)).map g =
        (if token ∈ tokens then selected token else []).map g := by
    rw [← filter_selected h hnodup, hall, List.filter_cons, List.filter_cons]
    split <;> simp [hg]
  refine ⟨?_, ?_, fun token => ?_, ⟨_, rfl, ?_, fun output houtput => ?_⟩, ?_, _, _, rfl, rfl,
    fun input hinput => ?_⟩
  · have hdistinct := nodup_nullifiers h hnodup
    rw [hall] at hdistinct
    exact hdistinct
  · intro input hinput
    rcases List.mem_cons.mp hinput with rfl | hinput
    · obtain ⟨coin, hcoin, hfirst⟩ := hown first List.mem_cons_self
      exact ⟨coin, hcoin, by rw [hfirst]⟩
    · obtain ⟨coin, hcoin, rfl⟩ := hown input (List.mem_cons_of_mem _ hinput)
      exact ⟨coin, hcoin, rfl⟩
  · rw [OfferInfo.inputsOf, OfferInfo.outputsOf, hof token _ rfl, List.filter_append, List.map_append,
      List.sum_append, sum_ofSpec, filter_flatMap_key hnodup fun t _ output h => (mem_refund h).2.1]
    by_cases ht : token ∈ tokens
    · rw [if_pos ht, if_pos ht, sum_refund]
      exact (h token ht).sum_eq
    · rw [if_neg ht, if_neg ht, requested_eq_zero (mt (hmem token).mpr ht)]
      rfl
  · exact hnodup.sublist (refunds_sublist change tokens)
  · obtain ⟨t, -, houtput⟩ := List.mem_flatMap.mp houtput
    obtain ⟨hdestination, -, hpos⟩ := mem_refund houtput
    exact ⟨hdestination, hpos⟩
  · intro hstrategy token htoken chosen hchosen hsub hne hcovers
    have ht := (hmem token).mpr htoken
    have hlength := congrArg List.length (hof token (fun _ => ()) rfl)
    rw [List.length_map, List.length_map, if_pos ht] at hlength
    rw [OfferInfo.inputsOf, hlength]
    exact (h token ht).least hstrategy chosen (List.subperm_of_subset hchosen hsub) hne hcovers
  · obtain ⟨coin, -, rfl⟩ := hown input (List.mem_cons_of_mem _ hinput)
    rfl

section

variable (hne : specs ≠ [])
  (htotals : specs.foldlM addTotal [] = some (tokens.map fun t => (t, requested specs t)))

include htotals in
theorem selections_of_build (h : buildShieldedOffer context seed specs strategy memo = .ok offer) :
    ∀ t ∈ tokens, ∃ r, coinsToCoverValue context seed (requested specs t) t strategy = .ok r := by
  rw [buildShieldedOffer, htotals] at h
  obtain ⟨_, ⟨⟩, h⟩ := of_bind h
  obtain ⟨r, hgroups, -⟩ := of_bind h
  exact of_selectGroups hgroups

include hne htotals in
theorem exists_build (strategy : CoinSelectionStrategy) (memo : Option (List UInt8))
    (hcontext : context seed = some coins) (hnodup : tokens.Nodup)
    (hmem : ∀ t, t ∈ tokens ↔ t ∈ specs.map (·.tokenType))
    (h : ∀ t ∈ tokens, ∃ r, coinsToCoverValue context seed (requested specs t) t strategy = .ok r) :
    ∃ offer, buildShieldedOffer context seed specs strategy memo = .ok offer ∧
      offer.Correct coins seed specs strategy memo := by
  choose! r hr using h
  have hcovers := fun t ht => of_coinsToCoverValue hcontext (hr t ht)
  obtain ⟨spec, rest, rfl⟩ := List.exists_cons_of_ne_nil hne
  have hspec : spec.tokenType ∈ tokens := (hmem _).mpr List.mem_cons_self
  obtain ⟨first, inputs, hall⟩ : ∃ first inputs, tokens.flatMap (fun t => (r t).1) = first :: inputs := by
    obtain ⟨input, hinput⟩ := List.exists_mem_of_ne_nil _ (hcovers _ hspec).ne_nil
    exact List.exists_cons_of_ne_nil (List.ne_nil_of_mem (List.mem_flatMap.mpr ⟨_, hspec, hinput⟩))
  have hfirst : first.memo = none := by
    obtain ⟨t, ht, hfirst⟩ := List.mem_flatMap.mp (hall ▸ List.mem_cons_self)
    obtain ⟨coin, -, -, rfl⟩ := exists_coin_of_covers hcovers ht hfirst
    rfl
  refine ⟨_, ?_, correct_of_covers hnodup hmem hcovers hall⟩
  rw [buildShieldedOffer, htotals]
  show (selectGroups _ _ _ _ _ _ _ _ >>= _) = _
  rw [selectGroups_eq hr, hall, attachMemoToFirstSelected_cons hfirst]
  show (if (memo.isSome && !memo.isSome) = true then _ else _) = _
  rw [Bool.and_not_self]
  rfl

end

/-- **Shielded offers are balanced.** An offer is built exactly if the wallet has a coin of each requested
token and enough of it, and is then correct. -/
theorem shielded_offer_balanced (context : Seed → Option (Coins Nullifier Token)) (seed : Seed)
    (coins : Coins Nullifier Token) (hcontext : context seed = some coins)
    (hfit : ∀ token, coins.value token < 2 ^ 128) (specs : List (ShieldedOutputSpec Token Wallet))
    (hne : specs ≠ []) (strategy : CoinSelectionStrategy) (memo : Option (List UInt8)) :
    ((∃ offer, buildShieldedOffer context seed specs strategy memo = .ok offer) ↔
      ∀ token ∈ specs.map (·.tokenType),
        coins.ofToken token ≠ [] ∧ requested specs token ≤ coins.value token) ∧
    ∀ offer, buildShieldedOffer context seed specs strategy memo = .ok offer →
      offer.Correct coins seed specs strategy memo := by
  rcases totals_spec specs with ⟨tokens, htotals, hnodup, hmem⟩ | ⟨htotals, token, htoken, hlarge⟩
  · have hbuild := exists_build hne htotals strategy memo hcontext hnodup hmem
    have hselect (t : Token) :
        (∃ r, coinsToCoverValue context seed (requested specs t) t strategy = .ok r) ↔
          coins.ofToken t ≠ [] ∧ requested specs t ≤ coins.value t :=
      exists_coinsToCoverValue_iff hcontext (hfit t)
    refine ⟨?_, fun offer h => ?_⟩
    · simp only [← hmem, ← hselect]
      exact ⟨fun ⟨offer, h⟩ => selections_of_build htotals h, fun h => (hbuild h).imp fun _ => And.left⟩
    · obtain ⟨offer', h', hcorrect⟩ := hbuild (selections_of_build htotals h)
      cases h'.symm.trans h
      exact hcorrect
  · -- more is requested than a wallet can have
    have hfails (offer) : buildShieldedOffer context seed specs strategy memo ≠ .ok offer := by
      rw [buildShieldedOffer, htotals]
      exact fun h => nomatch h
    refine ⟨iff_of_false (fun ⟨offer, h⟩ => hfails offer h) fun h => ?_,
      fun offer h => absurd h (hfails offer)⟩
    exact absurd ((h token htoken).2.trans_lt (hfit token)) (Nat.not_lt.mpr hlarge)

end

/-- Two coins of one token, and one of another. -/
def sampleCoins : Coins Nat Nat := ⟨[(1, ⟨0, 5⟩), (2, ⟨0, 7⟩), (3, ⟨1, 4⟩)], by decide⟩

theorem sampleCoins_value (token : Nat) : sampleCoins.value token < 2 ^ 128 := by
  have hle : sampleCoins.value token ≤ 16 :=
    (List.filter_sublist.map _).sum_le_sum fun _ _ => Nat.zero_le _
  exact hle.trans_lt (by decide)

theorem shielded_offer_balanced_two_tokens :
    (∃ offer, buildShieldedOffer (fun _ : Unit => some sampleCoins) () [⟨"a", 6, 0⟩, ⟨"b", 4, 1⟩]
      .largestFirst (some [1]) = .ok offer) ∧
    ∀ offer, buildShieldedOffer (fun _ : Unit => some sampleCoins) () [⟨"a", 6, 0⟩, ⟨"b", 4, 1⟩]
      .largestFirst (some [1]) = .ok offer →
      offer.Correct sampleCoins () [⟨"a", 6, 0⟩, ⟨"b", 4, 1⟩] .largestFirst (some [1]) := by
  obtain ⟨hiff, hcorrect⟩ := shielded_offer_balanced (fun _ : Unit => some sampleCoins) () sampleCoins rfl
    sampleCoins_value [⟨"a", 6, 0⟩, ⟨"b", 4, 1⟩] (by simp) .largestFirst (some [1])
  exact ⟨hiff.mpr (by decide), hcorrect⟩

/-- For an output without value a coin is spent that nothing needs. -/
theorem zero_output_takes_coin :
    buildShieldedOffer (fun _ : Unit => some sampleCoins) () [⟨"a", 0, 0⟩] .largestFirst none =
      .ok ⟨[⟨(), 0, 7, some 2, none⟩], [⟨.wallet "a", 0, 0⟩, ⟨.seed (), 0, 7⟩]⟩ ∧
    requested [(⟨"a", 0, 0⟩ : ShieldedOutputSpec Nat String)] 0 ≤
      (([] : List (Nat × QualifiedInfo Nat)).map (·.2.value)).sum :=
  ⟨rfl, Nat.le_refl 0⟩

end MidnightNode.ShieldedOffer
