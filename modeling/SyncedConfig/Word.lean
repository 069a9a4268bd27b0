/-!
# Machine integers

A machine integer type is described by its name and the interval of integers that it
holds. Between the interval and the type nothing is lost either way.
-/
namespace SyncedConfig

structure Word (α : Type) where
  name : String
  least : Int
  greatest : Int
  toInt : α → Int
  ofInt : Int → α
  le_toInt : ∀ x, least ≤ toInt x
  toInt_le : ∀ x, toInt x ≤ greatest
  ofInt_toInt : ∀ x, ofInt (toInt x) = x
  toInt_ofInt : ∀ n, least ≤ n → n ≤ greatest → toInt (ofInt n) = n

namespace Word

def int32 : Word Int32 where
  name := "i32"
  least := -0x80000000
  greatest := 0x7fffffff
  toInt := Int32.toInt
  ofInt := Int32.ofInt
  le_toInt := Int32.le_toInt
  toInt_le x := Int.le_sub_one_of_lt (Int32.toInt_lt x)
  ofInt_toInt := Int32.ofInt_toInt
  toInt_ofInt n h₁ h₂ := Int32.toInt_ofInt_of_le h₁ (by omega)

def int64 : Word Int64 where
  name := "i64"
  least := -0x8000000000000000
  greatest := 0x7fffffffffffffff
  toInt := Int64.toInt
  ofInt := Int64.ofInt
  le_toInt := Int64.le_toInt
  toInt_le x := Int.le_sub_one_of_lt (Int64.toInt_lt x)
  ofInt_toInt := Int64.ofInt_toInt
  toInt_ofInt n h₁ h₂ := Int64.toInt_ofInt_of_le h₁ (by omega)

def uint8 : Word UInt8 where
  name := "u8"
  least := 0
  greatest := 0xff
  toInt x := x.toNat
  ofInt n := UInt8.ofNat n.toNat
  le_toInt x := by omega
  toInt_le x := by have := x.toNat_lt; omega
  ofInt_toInt x := by simp
  toInt_ofInt n h₁ h₂ := by simp only [UInt8.toNat_ofNat']; omega

def uint32 : Word UInt32 where
  name := "u32"
  least := 0
  greatest := 0xffffffff
  toInt x := x.toNat
  ofInt n := UInt32.ofNat n.toNat
  le_toInt x := by omega
  toInt_le x := by have := x.toNat_lt; omega
  ofInt_toInt x := by simp
  toInt_ofInt n h₁ h₂ := by simp only [UInt32.toNat_ofNat']; omega

def uint64 : Word UInt64 where
  name := "u64"
  least := 0
  greatest := 0xffffffffffffffff
  toInt x := x.toNat
  ofInt n := UInt64.ofNat n.toNat
  le_toInt x := by omega
  toInt_le x := by have := x.toNat_lt; omega
  ofInt_toInt x := by simp
  toInt_ofInt n h₁ h₂ := by simp only [UInt64.toNat_ofNat']; omega

end Word
end SyncedConfig
