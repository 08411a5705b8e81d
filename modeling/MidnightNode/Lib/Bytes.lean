import Mathlib

/-!
# Byte strings of a fixed length

`Bytes n` is the array type `[u8; n]`: a list of bytes that carries its length. Comparison is
lexicographic, as it is for arrays; `beBytes` is the big-endian encoding of a 16-bit index, `leBytes`
the little-endian one of a 32-bit number.
-/

namespace MidnightNode

structure Bytes (n : Nat) where
  data : List UInt8
  length_eq : data.length = n
deriving DecidableEq, Repr

namespace Bytes

/-- The array that repeats one byte. -/
def fill (n : Nat) (b : UInt8) : Bytes n := ⟨List.replicate n b, List.length_replicate⟩

instance : Inhabited (Bytes n) := ⟨fill n 0⟩

instance : Ord (Bytes n) := ⟨compareOn Bytes.data⟩

theorem ext {a b : Bytes n} (h : a.data = b.data) : a = b := by
  cases a; cases b; cases h; rfl

instance : Std.TransOrd (Bytes n) := inferInstanceAs (Std.TransCmp (compareOn Bytes.data))

instance : Std.LawfulEqOrd (Bytes n) where
  compare_self := Std.ReflOrd.compare_self (α := List UInt8)
  eq_of_compare h := ext (Std.LawfulEqOrd.eq_of_compare (α := List UInt8) h)

/-- Reading a slice as an array of length `n` (`try_into`). -/
def ofList? (n : Nat) (l : List UInt8) : Option (Bytes n) :=
  if h : l.length = n then some ⟨l, h⟩ else none

theorem ofList?_data (b : Bytes n) : ofList? n b.data = some b := dif_pos b.length_eq

theorem data_append_inj {a a' : Bytes n} {l l' : List UInt8}
    (h : a.data ++ l = a'.data ++ l') : a = a' ∧ l = l' := by
  obtain ⟨h1, h2⟩ := List.append_inj h (by rw [a.length_eq, a'.length_eq])
  exact ⟨ext h1, h2⟩

end Bytes

/-- The big-endian bytes of a 16-bit number (`u16::to_be_bytes`). -/
def beBytes (i : UInt16) : List UInt8 := [UInt8.ofNat (i.toNat / 256), UInt8.ofNat (i.toNat % 256)]

theorem beBytes_injective : Function.Injective beBytes := by
  intro i j h
  simp only [beBytes, List.cons.injEq, and_true] at h
  have hi := i.toNat_lt
  have hj := j.toNat_lt
  have h1 := congrArg UInt8.toNat h.1
  have h2 := congrArg UInt8.toNat h.2
  simp only [UInt8.toNat_ofNat'] at h1 h2
  apply UInt16.toNat_inj.mp
  omega

/-- The little-endian bytes of a 32-bit number (`u32::to_le_bytes`). -/
def leBytes (n : UInt32) : List UInt8 :=
  [UInt8.ofNat n.toNat, UInt8.ofNat (n.toNat / 2 ^ 8), UInt8.ofNat (n.toNat / 2 ^ 16),
    UInt8.ofNat (n.toNat / 2 ^ 24)]

theorem leBytes_injective : Function.Injective leBytes := by
  intro m n h
  simp only [leBytes, List.cons.injEq, and_true] at h
  have hm := m.toNat_lt
  have hn := n.toNat_lt
  have h0 := congrArg UInt8.toNat h.1
  have h1 := congrArg UInt8.toNat h.2.1
  have h2 := congrArg UInt8.toNat h.2.2.1
  have h3 := congrArg UInt8.toNat h.2.2.2
  simp only [UInt8.toNat_ofNat'] at h0 h1 h2 h3
  apply UInt32.toNat_inj.mp
  omega

end MidnightNode
