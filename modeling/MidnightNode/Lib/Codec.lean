import Mathlib

/-!
# Codecs

A codec writes a value in front of what follows, and reads it back from there without touching what
follows. Reading may succeed with bytes left over (`decode`); `decodeAll` asks that there are none. Numbers
are written with their low bytes first.
-/

namespace MidnightNode

structure Codec (α : Type) where
  encode : α → List UInt8
  decode : List UInt8 → Option (α × List UInt8)
  decode_encode : ∀ a rest, decode (encode a ++ rest) = some (a, rest)

namespace Codec

variable {α β : Type}

attribute [simp] decode_encode

def decodeAll (c : Codec α) (bytes : List UInt8) : Option α :=
  match c.decode bytes with
  | some (a, []) => some a
  | _ => none

theorem decodeAll_eq_some {c : Codec α} {bytes : List UInt8} {a : α} :
    c.decodeAll bytes = some a ↔ c.decode bytes = some (a, []) := by
  unfold decodeAll
  split
  next b hb => simp [hb]
  next hne =>
    refine iff_of_false nofun ?_
    intro h
    exact hne a h

@[simp]
theorem decodeAll_encode (c : Codec α) (a : α) : c.decodeAll (c.encode a) = some a := by
  have h := c.decode_encode a []
  rw [List.append_nil] at h
  exact decodeAll_eq_some.mpr h

def pair (c : Codec α) (d : Codec β) : Codec (α × β) where
  encode p := c.encode p.1 ++ d.encode p.2
  decode bytes := do
    let (a, bytes) ← c.decode bytes
    let (b, bytes) ← d.decode bytes
    return ((a, b), bytes)
  decode_encode p rest := by simp [List.append_assoc]

/-! ## Numbers -/

def leEncode : Nat → Nat → List UInt8
  | 0, _ => []
  | width + 1, n => UInt8.ofNat (n % 256) :: leEncode width (n / 256)

def leDecode : Nat → List UInt8 → Option (Nat × List UInt8)
  | 0, bytes => some (0, bytes)
  | _ + 1, [] => none
  | width + 1, b :: bytes => (leDecode width bytes).map fun (n, rest) => (b.toNat + 256 * n, rest)

theorem leDecode_leEncode (width : Nat) {n : Nat} (h : n < 256 ^ width) (rest : List UInt8) :
    leDecode width (leEncode width n ++ rest) = some (n, rest) := by
  induction width generalizing n with
  | zero =>
    obtain rfl : n = 0 := Nat.lt_one_iff.mp h
    rfl
  | succ width ih =>
    have hdiv : n / 256 < 256 ^ width := Nat.div_lt_of_lt_mul (Nat.pow_succ' ▸ h)
    have hlow : (UInt8.ofNat (n % 256)).toNat = n % 256 := by simp
    rw [leEncode, List.cons_append, leDecode, ih hdiv, hlow]
    simp only [Option.map_some, Nat.mod_add_div]

def u32 : Codec UInt32 where
  encode n := leEncode 4 n.toNat
  decode bytes := (leDecode 4 bytes).map fun (n, rest) => (UInt32.ofNat n, rest)
  decode_encode n rest := by simp [leDecode_leEncode 4 n.toNat_lt]

def u64 : Codec UInt64 where
  encode n := leEncode 8 n.toNat
  decode bytes := (leDecode 8 bytes).map fun (n, rest) => (UInt64.ofNat n, rest)
  decode_encode n rest := by simp [leDecode_leEncode 8 n.toNat_lt]

/-! ## Compact numbers of SCALE -/

/-- The two low bits of the first byte give the number of bytes. -/
def compactEncode (n : Nat) : List UInt8 :=
  if n < 2 ^ 6 then leEncode 1 (4 * n)
  else if n < 2 ^ 14 then leEncode 2 (4 * n + 1)
  else if n < 2 ^ 30 then leEncode 4 (4 * n + 2)
  else 3 :: leEncode 4 n

/-- A number that has a shorter encoding is refused. -/
def compactDecode (bytes : List UInt8) : Option (Nat × List UInt8) :=
  bytes.head?.bind fun b =>
    if b.toNat % 4 = 0 then (leDecode 1 bytes).map (Prod.map (· / 4) id)
    else if b.toNat % 4 = 1 then ((leDecode 2 bytes).map (Prod.map (· / 4) id)).filter (2 ^ 6 ≤ ·.1)
    else if b.toNat % 4 = 2 then ((leDecode 4 bytes).map (Prod.map (· / 4) id)).filter (2 ^ 14 ≤ ·.1)
    else if b = 3 then (leDecode 4 bytes.tail).filter (2 ^ 30 ≤ ·.1)
    else none

theorem head?_leEncode (width n : Nat) (rest : List UInt8) :
    (leEncode (width + 1) n ++ rest).head? = some (UInt8.ofNat (n % 256)) := rfl

theorem compactDecode_compactEncode {n : Nat} (h : n < 2 ^ 32) (rest : List UInt8) :
    compactDecode (compactEncode n ++ rest) = some (n, rest) := by
  have hdiv (k : Nat) (hk : k < 4) : (4 * n + k) / 4 = n := by omega
  unfold compactEncode compactDecode
  split_ifs with h1 h2 h3
  · rw [head?_leEncode, leDecode_leEncode 1 (by omega)]
    simp
  · rw [head?_leEncode, leDecode_leEncode 2 (by omega)]
    simp [hdiv 1 (by decide)]
    omega
  · rw [head?_leEncode, leDecode_leEncode 4 (by omega)]
    simp [hdiv 2 (by decide)]
    omega
  · rw [List.cons_append, List.head?_cons, List.tail_cons, leDecode_leEncode 4 h]
    simp
    omega

def compactU32 : Codec UInt32 where
  encode n := compactEncode n.toNat
  decode bytes := (compactDecode bytes).map fun (n, rest) => (UInt32.ofNat n, rest)
  decode_encode n rest := by simp [compactDecode_compactEncode n.toNat_lt]
/-! ## Lists -/

def decodeItems (decode : List UInt8 → Option (α × List UInt8)) :
    Nat → List UInt8 → Option (List α × List UInt8)
  | 0, bytes => some ([], bytes)
  | n + 1, bytes => do
    let (a, bytes) ← decode bytes
    let (as, bytes) ← decodeItems decode n bytes
    return (a :: as, bytes)

theorem decodeItems_flatMap {encode : α → List UInt8} {decode : List UInt8 → Option (α × List UInt8)}
    {as : List α} (h : ∀ a ∈ as, ∀ rest, decode (encode a ++ rest) = some (a, rest)) (rest : List UInt8) :
    decodeItems decode as.length (as.flatMap encode ++ rest) = some (as, rest) := by
  induction as with
  | nil => rfl
  | cons a as ih =>
    have hrest := ih fun b hb => h b (List.mem_cons_of_mem _ hb)
    simp [decodeItems, h a List.mem_cons_self, hrest]

end Codec

end MidnightNode
