import SyncedConfig.Proofs.Reading.Utf8

/-!
# The order of texts is the order of their octets

The octets of a character hold its code point from the highest bits down, and a longer encoding has
the greater first octet. So of two characters the lesser one has the lesser octets, and two texts
are in the order of the octets in which they are encoded.
-/
namespace SyncedConfig.Utf8

section Octets

variable {m n : Nat} {x y : Bytes}

theorem ofNat_cons_lt (h : m < n) (hn : n < 0x100) : UInt8.ofNat m :: x < UInt8.ofNat n :: y := by
  apply List.cons_lt_cons_iff.2
  left
  rw [UInt8.lt_iff_toNat_lt, toNat_ofNat (Nat.lt_trans h hn), toNat_ofNat hn]
  exact h

/-- Behind a first octet that is not greater, the rest decides if the first octets are equal. -/
theorem ofNat_cons_lt_of_le (h : m ≤ n) (hn : n < 0x100) (hrest : m = n → x < y) :
    UInt8.ofNat m :: x < UInt8.ofNat n :: y := by
  rcases Nat.lt_or_eq_of_le h with hlt | rfl
  · exact ofNat_cons_lt hlt hn
  · exact List.cons_lt_cons_iff.2 (.inr ⟨rfl, hrest rfl⟩)

end Octets

/-- The octets of a lesser character are less, whatever comes behind. -/
theorem utf8EncodeChar_append_lt {c d : Char} (h : c < d) (x y : Bytes) :
    String.utf8EncodeChar c ++ x < String.utf8EncodeChar d ++ y := by
  have hlt : c.toNat < d.toNat := h
  have hd := codePoint_cases d
  have hv (c : Char) : c.val.toNat = c.toNat := rfl
  simp only [String.utf8EncodeChar, hv]
  generalize c.toNat = m at hlt
  generalize d.toNat = n at hlt hd
  -- in the order of the lengths of the first encoding, and for each of them of the second one
  split
  · repeat' split
    all_goals exact ofNat_cons_lt (by omega) (by omega)
  split
  · repeat' split
    · omega
    · exact ofNat_cons_lt_of_le (by omega) (by omega) fun _ => ofNat_cons_lt (by omega) (by omega)
    all_goals exact ofNat_cons_lt (by omega) (by omega)
  split
  · repeat' split
    · omega
    · omega
    · exact ofNat_cons_lt_of_le (by omega) (by omega) fun _ =>
        ofNat_cons_lt_of_le (by omega) (by omega) fun _ => ofNat_cons_lt (by omega) (by omega)
    · exact ofNat_cons_lt (by omega) (by omega)
  · repeat' split
    · omega
    · omega
    · omega
    · exact ofNat_cons_lt_of_le (by omega) (by omega) fun _ =>
        ofNat_cons_lt_of_le (by omega) (by omega) fun _ =>
          ofNat_cons_lt_of_le (by omega) (by omega) fun _ => ofNat_cons_lt (by omega) (by omega)

theorem encode_lt {text more : List Char} (h : text < more) : encode text < encode more := by
  induction h with
  | @nil d more =>
    cases hd : String.utf8EncodeChar d with
    | nil => exact absurd hd String.utf8EncodeChar_ne_nil
    | cons b octets =>
      rw [encode_cons, hd]
      exact List.Lex.nil
  | rel hlt => exact utf8EncodeChar_append_lt hlt _ _
  | cons _ ih => exact List.append_left_lt ih

/-- The order of texts is the order of the octets in which they are encoded. -/
theorem ofString_lt {s t : String} (h : s < t) : ofString s < ofString t :=
  encode_lt (String.lt_iff.1 h)

end SyncedConfig.Utf8
