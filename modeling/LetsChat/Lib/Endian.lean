import Mathlib.Data.BitVec
import Mathlib.Data.List.Basic

/-! Machine words in memory. A host stores a word with its own byte order; the
network order is the big one, whatever the host. -/

namespace Lib

abbrev Byte := BitVec 8
abbrev Bytes := List Byte

inductive ByteOrder
  | little
  | big
  deriving DecidableEq

namespace Endian

def toLE : Nat → Nat → Bytes
  | 0, _ => []
  | n + 1, x => BitVec.ofNat 8 x :: toLE n (x / 256)

def ofLE : Bytes → Nat
  | [] => 0
  | b :: bs => b.toNat + 256 * ofLE bs

@[simp] theorem length_toLE (n x : Nat) : (toLE n x).length = n := by
  induction n generalizing x with
  | zero => rfl
  | succ n ih => rw [toLE, List.length_cons, ih]

theorem ofLE_lt (bs : Bytes) : ofLE bs < 256 ^ bs.length := by
  induction bs with
  | nil => exact Nat.one_pos
  | cons b bs ih =>
    have hb : b.toNat < 256 := b.isLt
    rw [ofLE, List.length_cons, Nat.pow_succ]
    omega

theorem ofLE_toLE (n x : Nat) : ofLE (toLE n x) = x % 256 ^ n := by
  induction n generalizing x with
  | zero => rw [Nat.pow_zero, Nat.mod_one, toLE, ofLE]
  | succ n ih =>
    have hlow : (BitVec.ofNat 8 x).toNat = x % 256 := BitVec.toNat_ofNat x 8
    rw [toLE, ofLE, ih, hlow, Nat.pow_succ, Nat.mul_comm (256 ^ n), Nat.mod_mul]

theorem toLE_ofLE (bs : Bytes) : toLE bs.length (ofLE bs) = bs := by
  induction bs with
  | nil => rfl
  | cons b bs ih =>
    have hb : b.toNat < 256 := b.isLt
    have hlow : BitVec.ofNat 8 (b.toNat + 256 * ofLE bs) = b := by
      apply BitVec.eq_of_toNat_eq
      rw [BitVec.toNat_ofNat]
      omega
    have hhigh : (b.toNat + 256 * ofLE bs) / 256 = ofLE bs := by omega
    rw [List.length_cons, ofLE, toLE, hlow, hhigh, ih]

def store {w : Nat} (n : Nat) : ByteOrder → BitVec w → Bytes
  | .little, x => toLE n x.toNat
  | .big, x => (toLE n x.toNat).reverse

def load (w : Nat) : ByteOrder → Bytes → BitVec w
  | .little, bs => BitVec.ofNat w (ofLE bs)
  | .big, bs => BitVec.ofNat w (ofLE bs.reverse)

/-- `hton` and `ntoh` for a word of `n` bytes: the bytes change places on a little host. -/
def hton {w : Nat} (n : Nat) : ByteOrder → BitVec w → BitVec w
  | .little, x => load w .big (store n .little x)
  | .big, x => x

@[simp] theorem length_store {w : Nat} (n : Nat) (o : ByteOrder) (x : BitVec w) :
    (store n o x).length = n := by
  cases o with
  | little => exact length_toLE n _
  | big => rw [store, List.length_reverse, length_toLE]

theorem load_store {w n : Nat} (hw : w = 8 * n) (o : ByteOrder) (x : BitVec w) :
    load w o (store n o x) = x := by
  have hsize : 256 ^ n = 2 ^ w := by rw [hw, Nat.pow_mul]
  have hx : BitVec.ofNat w (ofLE (toLE n x.toNat)) = x := by
    rw [ofLE_toLE, hsize, Nat.mod_eq_of_lt x.isLt, BitVec.ofNat_toNat, BitVec.setWidth_eq]
  cases o with
  | little => exact hx
  | big => rw [load, store, List.reverse_reverse, hx]

theorem store_load {w n : Nat} (hw : w = 8 * n) (o : ByteOrder) {bs : Bytes}
    (hlen : bs.length = n) : store n o (load w o bs) = bs := by
  have hback : ∀ cs : Bytes, cs.length = n → toLE n (BitVec.ofNat w (ofLE cs)).toNat = cs := by
    intro cs hcs
    have hlt : ofLE cs < 2 ^ w := by
      have hsize : 256 ^ cs.length = 2 ^ w := by rw [hcs, hw, Nat.pow_mul]
      exact hsize ▸ ofLE_lt cs
    rw [BitVec.toNat_ofNat, Nat.mod_eq_of_lt hlt, ← hcs, toLE_ofLE]
  cases o with
  | little => exact hback bs hlen
  | big =>
    have hrev : bs.reverse.length = n := by rw [List.length_reverse, hlen]
    rw [load, store, hback bs.reverse hrev, List.reverse_reverse]

theorem store_hton {w n : Nat} (hw : w = 8 * n) (o : ByteOrder) (x : BitVec w) :
    store n o (hton n o x) = store n .big x := by
  cases o with
  | big => rfl
  | little =>
    have hrev : load w .big (store n .little x) = load w .little (store n .big x) := by
      simp only [load, store]
    rw [hton, hrev, store_load hw .little (length_store n .big x)]

theorem hton_load {w n : Nat} (hw : w = 8 * n) (o : ByteOrder) {bs : Bytes}
    (hlen : bs.length = n) : hton n o (load w o bs) = load w .big bs := by
  cases o with
  | big => rfl
  | little => rw [hton, store_load hw .little hlen]

end Endian
end Lib
