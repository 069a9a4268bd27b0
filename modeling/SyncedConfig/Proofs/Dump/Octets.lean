import SyncedConfig.Bytes.Base64
import SyncedConfig.Bytes.Hex

/-!
# Octets in texts

Octets are got back from their Base64 text and from their hexadecimal text. So octets with the
same text are the same.
-/
namespace SyncedConfig

namespace Base64

def digitValue (c : Char) : Nat :=
  if 'A' ≤ c && c ≤ 'Z' then c.toNat - 0x41
  else if 'a' ≤ c && c ≤ 'z' then c.toNat - 0x47
  else if c.isDigit then c.toNat + 4
  else if c = '+' then 62
  else 63

theorem digitValue_digitChar : ∀ n < 64, digitValue (digitChar n) = n := by decide

theorem digitChar_ne_pad : ∀ n < 64, digitChar n ≠ '=' := by decide

def decode : List Char → Bytes
  | p :: q :: r :: s :: rest =>
    let first := UInt8.ofNat (digitValue p * 4 + digitValue q / 16)
    let second := UInt8.ofNat (digitValue q % 16 * 16 + digitValue r / 4)
    let third := UInt8.ofNat (digitValue r % 4 * 64 + digitValue s)
    if r = '=' then [first]
    else if s = '=' then [first, second]
    else first :: second :: third :: decode rest
  | _ => []

/-- Each octet of a group is made of the bits of two neighbouring digits. -/
theorem group_eq {a b c : UInt8} {p q r s : Char} (h : group a b c = (p, q, r, s)) :
    ∃ x y z w, (p = digitChar x ∧ q = digitChar y ∧ r = digitChar z ∧ s = digitChar w) ∧
      (x < 64 ∧ y < 64 ∧ z < 64 ∧ w < 64) ∧
      x * 4 + y / 16 = a.toNat ∧ y % 16 * 16 + z / 4 = b.toNat ∧ z % 4 * 64 + w = c.toNat := by
  have ha := a.toNat_lt
  have hb := b.toNat_lt
  have hc := c.toNat_lt
  simp only [group, Prod.mk.injEq] at h
  obtain ⟨rfl, rfl, rfl, rfl⟩ := h
  refine ⟨_, _, _, _, ⟨rfl, rfl, rfl, rfl⟩, ?_, ?_, ?_, ?_⟩ <;> omega

theorem decode_encode (data : Bytes) : decode (encode data) = data := by
  fun_induction encode data with
  | case1 => rfl
  | case2 a p q r s h =>
    obtain ⟨x, y, z, w, ⟨rfl, rfl, rfl, rfl⟩, ⟨hx, hy, -, -⟩, ha, -, -⟩ := group_eq h
    simp [decode, digitValue_digitChar, hx, hy, ha]
  | case3 a b p q r s h =>
    obtain ⟨x, y, z, w, ⟨rfl, rfl, rfl, rfl⟩, ⟨hx, hy, hz, -⟩, ha, hb, -⟩ := group_eq h
    simp [decode, digitValue_digitChar, digitChar_ne_pad, hx, hy, hz, ha, hb]
  | case4 a b c rest p q r s h ih =>
    obtain ⟨x, y, z, w, ⟨rfl, rfl, rfl, rfl⟩, ⟨hx, hy, hz, hw⟩, ha, hb, hc⟩ := group_eq h
    simp [decode, digitValue_digitChar, digitChar_ne_pad, hx, hy, hz, hw, ha, hb, hc, ih]

theorem encode_inj {a b : Bytes} : encode a = encode b ↔ a = b := by
  refine ⟨fun h => ?_, congrArg encode⟩
  rw [← decode_encode a, h, decode_encode]

end Base64

namespace Hex

theorem digitValue?_digitChar : ∀ n < 16, digitValue? (digitChar n) = some n := by decide

theorem digitChar_lt : ∀ n < 16, (digitChar n).toNat < 0x80 := by decide

theorem decode?_encode (data : Bytes) : decode? (encode data) = some data := by
  induction data with
  | nil => rfl
  | cons b data ih =>
    have hb := b.toNat_lt
    have high := digitValue?_digitChar (b.toNat / 16) (by omega)
    have low := digitValue?_digitChar (b.toNat % 16) (by omega)
    have octet : UInt8.ofNat (b.toNat / 16 * 16 + b.toNat % 16) = b := by
      rw [Nat.div_add_mod', UInt8.ofNat_toNat]
    simp only [encode, decode?, high, low, ih, octet, Option.bind_eq_bind, Option.bind_some,
      Option.pure_def]

theorem encode_inj {a b : Bytes} : encode a = encode b ↔ a = b := by
  refine ⟨fun h => ?_, congrArg encode⟩
  have hdecode := decode?_encode a
  rw [h, decode?_encode] at hdecode
  exact (Option.some.inj hdecode).symm

end Hex
end SyncedConfig
