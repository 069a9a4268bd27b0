import SyncedConfig.Proofs.Reading.Utf8
import SyncedConfig.Text.Cut

/-!
# A cut text is the longest beginning that fits

The boundaries of a text are the sizes of its beginnings. So the last boundary within some room is
the size of the longest beginning that fits the room, and there a text is cut.
-/
namespace SyncedConfig.Text

variable {text shown other : List Char} {n : Nat}

theorem size_eq_length (text : List Char) : size text = (Utf8.encode text).length := by
  induction text with
  | nil => rfl
  | cons c rest ih =>
    rw [size, Utf8.encode_cons, List.length_append, String.length_utf8EncodeChar, ih]

theorem size_append (text more : List Char) : size (text ++ more) = size text + size more := by
  simp only [size_eq_length, Utf8.encode_append, List.length_append]

theorem size_of_ascii (h : ∀ c ∈ text, c.toNat < 0x80) : size text = text.length := by
  induction text with
  | nil => rfl
  | cons c rest ih =>
    obtain ⟨hc, hrest⟩ := List.forall_mem_cons.1 h
    have hsize : c.utf8Size = 1 := by
      rw [← String.length_utf8EncodeChar, Utf8.utf8EncodeChar_ascii hc, List.length_singleton]
    rw [size, List.length_cons, ih hrest, hsize, Nat.add_comm]

theorem dropOctets?_append (text more : List Char) :
    dropOctets? (text ++ more) (size text) = some more := by
  induction text with
  | nil => rw [List.nil_append, size, dropOctets?]
  | cons c rest ih =>
    have hpos := c.utf8Size_pos
    obtain ⟨n, hn⟩ : ∃ n, c.utf8Size + size rest = n + 1 := ⟨c.utf8Size + size rest - 1, by omega⟩
    have hrest : n + 1 - c.utf8Size = size rest := by omega
    rw [List.cons_append, size, hn, dropOctets?, if_pos (by omega), hrest, ih]

theorem takeOctets_isPrefix (text : List Char) (n : Nat) : takeOctets text n <+: text := by
  induction text generalizing n with
  | nil => exact List.nil_prefix
  | cons c rest ih =>
    rw [takeOctets]
    split
    · exact List.cons_prefix_cons.2 ⟨rfl, ih (n - c.utf8Size)⟩
    · exact List.nil_prefix

theorem size_takeOctets_le (text : List Char) (n : Nat) : size (takeOctets text n) ≤ n := by
  induction text generalizing n with
  | nil => exact Nat.zero_le n
  | cons c rest ih =>
    rw [takeOctets]
    split
    next hfits =>
      have hrest := ih (n - c.utf8Size)
      rw [size]
      omega
    next => exact Nat.zero_le n

theorem isPrefix_takeOctets (h : shown <+: text) (hfits : size shown ≤ n) :
    shown <+: takeOctets text n := by
  induction shown generalizing text n with
  | nil => exact List.nil_prefix
  | cons c shown ih =>
    obtain ⟨rest, rfl⟩ := h
    rw [size] at hfits
    rw [List.cons_append, takeOctets, if_pos (by omega)]
    exact List.cons_prefix_cons.2 ⟨rfl, ih (List.prefix_append ..) (by omega)⟩

theorem takeOctets_size (h : shown <+: text) : takeOctets text (size shown) = shown := by
  induction shown generalizing text with
  | nil =>
    cases text with
    | nil => rfl
    | cons c rest =>
      have hpos := c.utf8Size_pos
      rw [size, takeOctets, if_neg (by omega)]
  | cons c shown ih =>
    obtain ⟨rest, rfl⟩ := h
    rw [List.cons_append, size, takeOctets, if_pos (Nat.le_add_right ..), Nat.add_sub_cancel_left,
      ih (List.prefix_append ..)]

theorem takeOctets_isPrefix_of_le {m : Nat} (text : List Char) (h : m ≤ n) :
    takeOctets text m <+: takeOctets text n :=
  isPrefix_takeOctets (takeOctets_isPrefix text m) (Nat.le_trans (size_takeOctets_le text m) h)

/-- The boundaries of a text are the sizes of its beginnings. -/
theorem isBoundary_iff : isBoundary text n ↔ ∃ shown, shown <+: text ∧ size shown = n := by
  induction text generalizing n with
  | nil => cases n <;> simp [isBoundary, size]
  | cons c rest ih =>
    have hpos := c.utf8Size_pos
    cases n with
    | zero => exact ⟨fun _ => ⟨[], List.nil_prefix, rfl⟩, fun _ => rfl⟩
    | succ n =>
      simp only [isBoundary, Bool.and_eq_true, decide_eq_true_eq, ih]
      constructor
      · rintro ⟨hfits, shown, hshown, hsize⟩
        refine ⟨c :: shown, List.cons_prefix_cons.2 ⟨rfl, hshown⟩, ?_⟩
        rw [size]
        omega
      · rintro ⟨shown, hshown, hsize⟩
        cases shown with
        | nil => cases hsize
        | cons d shown =>
          obtain ⟨rfl, htail⟩ := List.cons_prefix_cons.1 hshown
          rw [size] at hsize
          exact ⟨by omega, shown, htail, by omega⟩

/-- The last boundary within some room is where the characters end that end within the room. -/
theorem lastBoundary_eq (text : List Char) (n : Nat) :
    lastBoundary text n = size (takeOctets text n) := by
  induction n with
  | zero => exact (Nat.le_zero.1 (size_takeOctets_le text 0)).symm
  | succ n ih =>
    rw [lastBoundary]
    split
    next hboundary =>
      obtain ⟨shown, hshown, hsize⟩ := isBoundary_iff.1 hboundary
      rw [← hsize, takeOctets_size hshown]
    next hboundary =>
      have hne : size (takeOctets text (n + 1)) ≠ n + 1 := fun hsize =>
        hboundary (isBoundary_iff.2 ⟨_, takeOctets_isPrefix text (n + 1), hsize⟩)
      have hle := size_takeOctets_le text (n + 1)
      have hmore : takeOctets text (n + 1) <+: takeOctets text n :=
        isPrefix_takeOctets (takeOctets_isPrefix text (n + 1)) (by omega)
      have hless := takeOctets_isPrefix_of_le text (Nat.le_add_right n 1)
      rw [ih, hless.eq_of_length_le hmore.length_le]

theorem cut_eq_takeOctets (text : List Char) (n : Nat) : cut text n = takeOctets text n := by
  rw [cut]
  split
  next hfits =>
    have hall : text <+: takeOctets text n := isPrefix_takeOctets List.prefix_rfl hfits
    exact hall.eq_of_length_le (takeOctets_isPrefix text n).length_le
  next => rw [lastBoundary_eq, takeOctets_size (takeOctets_isPrefix text n)]

/-- What is shown of a text where there is room for `n` octets: its longest beginning that fits. -/
structure IsCut (text : List Char) (n : Nat) (shown : List Char) : Prop where
  beginning : shown <+: text
  fits : (Utf8.encode shown).length ≤ n
  longest : ∀ other, other <+: text → (Utf8.encode other).length ≤ n → other <+: shown

theorem isCut_cut (text : List Char) (n : Nat) : IsCut text n (cut text n) := by
  rw [cut_eq_takeOctets]
  exact {
    beginning := takeOctets_isPrefix text n
    fits := size_eq_length _ ▸ size_takeOctets_le text n
    longest := fun other h hfits => isPrefix_takeOctets h (size_eq_length _ ▸ hfits) }

theorem cut_eq_self_iff : cut text n = text ↔ size text ≤ n := by
  constructor
  · intro h
    rw [← h, cut_eq_takeOctets]
    exact size_takeOctets_le text n
  · intro hfits
    rw [cut, if_pos hfits]

/-- Of two cuts the one that leaves less room counts. -/
theorem cut_cut (text : List Char) (a b : Nat) : cut (cut text a) b = cut text (min a b) := by
  simp only [cut_eq_takeOctets]
  have hbeginning : takeOctets (takeOctets text a) b <+: text :=
    (takeOctets_isPrefix _ b).trans (takeOctets_isPrefix text a)
  have ha : size (takeOctets (takeOctets text a) b) ≤ a := by
    obtain ⟨rest, hrest⟩ := takeOctets_isPrefix (takeOctets text a) b
    have hall := size_takeOctets_le text a
    rw [← hrest, size_append] at hall
    omega
  have hb := size_takeOctets_le (takeOctets text a) b
  have hless : takeOctets (takeOctets text a) b <+: takeOctets text (min a b) :=
    isPrefix_takeOctets hbeginning (Nat.le_min.2 ⟨ha, hb⟩)
  -- what fits the smaller room is also a beginning of the first cut, and fits the second
  have hinner : takeOctets text (min a b) <+: takeOctets text a :=
    takeOctets_isPrefix_of_le text (Nat.min_le_left a b)
  have hmore : takeOctets text (min a b) <+: takeOctets (takeOctets text a) b :=
    isPrefix_takeOctets hinner
      (Nat.le_trans (size_takeOctets_le text (min a b)) (Nat.min_le_right a b))
  exact hless.eq_of_length_le hmore.length_le

/-- The search goes back octet by octet to a boundary. It has nowhere to go from the start of the
text, and would be stuck there. -/
inductive Searches (text : List Char) : Nat → Nat → Prop
  | stop {n : Nat} (h : isBoundary text n = true) : Searches text n n
  | back {n stop : Nat} (h : isBoundary text (n + 1) = false) (next : Searches text n stop) :
      Searches text (n + 1) stop

theorem searches_lastBoundary (text : List Char) (n : Nat) :
    Searches text n (lastBoundary text n) := by
  induction n with
  | zero => exact .stop (by simp [isBoundary])
  | succ n ih =>
    rw [lastBoundary]
    split
    next hboundary => exact .stop hboundary
    next hboundary => exact .back (eq_false_of_ne_true hboundary) ih

theorem Searches.eq_lastBoundary {stop : Nat} (h : Searches text n stop) :
    stop = lastBoundary text n := by
  induction h with
  | @stop n hboundary =>
    cases n with
    | zero => rfl
    | succ n => rw [lastBoundary, if_pos hboundary]
  | back hboundary _ ih => rw [lastBoundary, hboundary, if_neg Bool.false_ne_true, ih]

theorem lastBoundary_le (text : List Char) (n : Nat) : lastBoundary text n ≤ n := by
  rw [lastBoundary_eq]
  exact size_takeOctets_le text n

/-- What is left of a cut text are its octets in front of the boundary. -/
theorem encode_cut (text : List Char) (n : Nat) :
    Utf8.encode (cut text n) = (Utf8.encode text).take (lastBoundary text n) := by
  obtain ⟨rest, hrest⟩ := takeOctets_isPrefix text n
  have hencode := congrArg Utf8.encode hrest
  rw [Utf8.encode_append] at hencode
  rw [cut_eq_takeOctets, lastBoundary_eq, size_eq_length, ← hencode, List.take_left]

end SyncedConfig.Text
