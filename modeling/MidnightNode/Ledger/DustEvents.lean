import MidnightNode.Ledger.Errors
import MidnightNode.Lib.Bytes

/-!
# DUST generation events

How the ledger bridge (`ledger/versions/common`) builds the events that tell the ledger of created
and destroyed cNIGHT, and the system transaction that carries a batch of them. The serialization
library is a parameter (`Api`); `Api.RoundTrips` is what is asked of it.
-/

namespace MidnightNode.Ledger

inductive CNightGeneratesDustActionType
  | create
  | destroy
deriving DecidableEq, Repr

def CNightGeneratesDustActionType.ofCode? : UInt8 → Option CNightGeneratesDustActionType
  | 0 => some .create
  | 1 => some .destroy
  | _ => none

structure CNightGeneratesDustEvent (Owner : Type) where
  value : Nat
  owner : Owner
  time : Nat
  action : CNightGeneratesDustActionType
  nonce : Bytes 32
deriving DecidableEq, Repr

structure Codec (α : Type) where
  serialize : α → Option (List UInt8)
  deserialize : List UInt8 → Option α

/-- Every value can be written, and what is written is read back. -/
def Codec.RoundTrips (c : Codec α) : Prop :=
  ∀ a, ∃ bytes, c.serialize a = some bytes ∧ c.deserialize bytes = some a

/-- What the bridge takes from the serialization library. A system transaction is given by the
events of a `CNightGeneratesDustUpdate`, the only kind that is built here. -/
structure Api (Owner : Type) where
  dustPublicKey : List UInt8 → Option Owner
  dustEvent : Codec (CNightGeneratesDustEvent Owner)
  dustUpdate : Codec (List (CNightGeneratesDustEvent Owner))

namespace Api

variable {Owner : Type} {api : Api Owner}

structure RoundTrips (api : Api Owner) : Prop where
  dustEvent : api.dustEvent.RoundTrips
  dustUpdate : api.dustUpdate.RoundTrips

def deserializeDustPublicKey (api : Api Owner) (bytes : List UInt8) : Except LedgerApiError Owner :=
  match api.dustPublicKey bytes with
  | some owner => .ok owner
  | none => .error (.deserialization .dustPublicKey)

def deserializeDustEvent (api : Api Owner) (bytes : List UInt8) :
    Except LedgerApiError (CNightGeneratesDustEvent Owner) :=
  match api.dustEvent.deserialize bytes with
  | some event => .ok event
  | none => .error (.deserialization .cNightGeneratesDustEvent)

def constructCnightGeneratesDustEvent (api : Api Owner) (value : Nat) (owner : List UInt8)
    (time : Nat) (action : UInt8) (nonce : Bytes 32) : Except LedgerApiError (List UInt8) := do
  let owner ← api.deserializeDustPublicKey owner
  let action ← match CNightGeneratesDustActionType.ofCode? action with
    | some action => pure action
    | none => throw (.deserialization .cNightGeneratesDustActionType)
  match api.dustEvent.serialize { value, owner, time, action, nonce } with
  | some bytes => pure bytes
  | none => throw (.serialization .cNightGeneratesDustEvent)

def constructCnightGeneratesDustSystemTx (api : Api Owner) (events : List (List UInt8)) :
    Except LedgerApiError (List UInt8) := do
  let events ← events.mapM api.deserializeDustEvent
  match api.dustUpdate.serialize events with
  | some bytes => pure bytes
  | none => throw (.serialization .systemTransaction)

theorem constructCnightGeneratesDustEvent_spec (h : api.RoundTrips) (value : Nat)
    (owner : List UInt8) (time : Nat) (nonce : Bytes 32)
    (hcode : CNightGeneratesDustActionType.ofCode? code = some action) :
    (api.dustPublicKey owner = none ∧
      ∃ e, api.constructCnightGeneratesDustEvent value owner time code nonce = .error e) ∨
    ∃ o bytes, api.dustPublicKey owner = some o ∧
      api.constructCnightGeneratesDustEvent value owner time code nonce = .ok bytes ∧
      api.dustEvent.deserialize bytes = some { value, owner := o, time, action, nonce } := by
  simp only [constructCnightGeneratesDustEvent, deserializeDustPublicKey, hcode]
  cases hk : api.dustPublicKey owner with
  | none => exact .inl ⟨rfl, .deserialization .dustPublicKey, rfl⟩
  | some o =>
    obtain ⟨bytes, hser, hde⟩ := h.dustEvent { value, owner := o, time, action, nonce }
    refine .inr ⟨o, bytes, rfl, ?_, hde⟩
    simp only [bind, Except.bind, pure, Except.pure, hser]

theorem mapM_deserializeDustEvent {events : List (List UInt8)}
    (hread : events.mapM api.dustEvent.deserialize = some decoded) :
    events.mapM api.deserializeDustEvent = .ok decoded := by
  induction events generalizing decoded with
  | nil =>
    cases hread
    rfl
  | cons e events ih =>
    simp only [List.mapM_cons, Option.bind_eq_bind, Option.bind_eq_some_iff, Option.pure_def,
      Option.some.injEq] at hread
    obtain ⟨d, hd, ds, hds, rfl⟩ := hread
    rw [List.mapM_cons, ih hds, deserializeDustEvent, hd]
    rfl

theorem constructCnightGeneratesDustSystemTx_spec (h : api.RoundTrips)
    (hread : events.mapM api.dustEvent.deserialize = some decoded) :
    ∃ tx, api.constructCnightGeneratesDustSystemTx events = .ok tx ∧
      api.dustUpdate.deserialize tx = some decoded := by
  obtain ⟨tx, hser, hde⟩ := h.dustUpdate decoded
  refine ⟨tx, ?_, hde⟩
  unfold constructCnightGeneratesDustSystemTx
  rw [mapM_deserializeDustEvent hread]
  simp only [bind, Except.bind, hser, pure, Except.pure]

end Api
end MidnightNode.Ledger
