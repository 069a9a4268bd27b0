import SyncedConfig.Host.Buffer
import SyncedConfig.Proofs.Text.Cut

/-!
# What a host finds in its buffer

Behind a call the buffer of a host starts with as much of the text of an error as fits, or with
nothing, and a zero. The rest of it is as it was. All texts of errors start with a character that
takes one octet other than zero, so that two octets are enough to see whether a call failed.
-/
namespace SyncedConfig

def Telling (text : String) : Prop :=
  ∃ c rest, text.toList = c :: rest ∧ 0 < c.toNat ∧ c.toNat < 0x80

theorem Telling.append {text : String} (h : Telling text) (more : String) :
    Telling (text ++ more) := by
  obtain ⟨c, rest, htext, hc⟩ := h
  exact ⟨c, rest ++ more.toList, by rw [String.toList_append, htext, List.cons_append], hc⟩

theorem SyncError.telling_message (e : SyncError) : Telling e.message := by
  cases e with
  | decode e => exact Telling.append ⟨'d', _, rfl, by decide⟩ _
  | encode e => exact Telling.append ⟨'d', _, rfl, by decide⟩ _
  | emptyHash => exact ⟨'d', _, rfl, by decide⟩
  | invalidId id => exact Telling.append ⟨'i', _, rfl, by decide⟩ _
  | invalidKey key => exact Telling.append ⟨'i', _, rfl, by decide⟩ _
  | blinding reason => exact Telling.append ⟨'b', _, rfl, by decide⟩ _

theorem HostError.telling_text (e : HostError) : Telling e.text := by
  cases e with
  | merge cause => exact cause.telling_message
  | blinding cause => exact cause.telling_message
  | serialize cause => exact Telling.append ⟨'j', _, rfl, by decide⟩ _
  | interiorNul => exact ⟨'t', _, rfl, by decide⟩

/-- What a buffer is behind a call that failed with a text, or did not fail, given what it was
before. -/
structure Reported (failure? : Option String) (before after : Bytes) : Prop where
  length_eq : after.length = before.length
  quiet : failure? = none → before ≠ [] → after = 0 :: before.tail
  failed : ∀ text, failure? = some text → before ≠ [] →
    ∃ shown, Text.IsCut text.toList (before.length - 1) shown ∧
      after = Utf8.encode shown ++ 0 :: before.drop ((Utf8.encode shown).length + 1)
  told : 2 ≤ before.length → (after.head? = some 0 ↔ failure? = none)

theorem writeTerminated_cons (b : UInt8) (rest : Bytes) (text : String) :
    let octets := Utf8.encode (Text.cut text.toList rest.length)
    writeTerminated (b :: rest) text =
      (octets.length, octets ++ 0 :: rest.drop octets.length) := rfl

/-- Where there is room for it, the first octet of a telling text is written, and is not zero. -/
theorem Telling.head?_cut {text : String} (h : Telling text) {n : Nat} (hn : 0 < n) (more : Bytes) :
    (Utf8.encode (Text.cut text.toList n) ++ more).head? ≠ some 0 := by
  obtain ⟨c, rest, htext, hpos, hascii⟩ := h
  have hoctets := Utf8.utf8EncodeChar_ascii hascii
  have hsize : c.utf8Size = 1 := by
    rw [← String.length_utf8EncodeChar, hoctets, List.length_singleton]
  rw [htext, Text.cut_eq_takeOctets, Text.takeOctets, if_pos (by omega), Utf8.encode_cons, hoctets]
  intro hzero
  have hc : UInt8.ofNat c.toNat = 0 := Option.some.inj hzero
  rw [← UInt8.toNat_inj, Utf8.toNat_ofNat (by omega)] at hc
  exact absurd hc (Nat.ne_of_gt hpos)

theorem reported_writeTerminated {failure? : Option String} (h : ∀ text ∈ failure?, Telling text)
    (buffer : Bytes) : Reported failure? buffer (writeTerminated buffer (failure?.getD "")).2 := by
  cases buffer with
  | nil => exact ⟨rfl, by simp, by simp, by simp⟩
  | cons b rest =>
    cases failure? with
    | none => exact ⟨rfl, fun _ _ => rfl, by simp, fun _ => iff_of_true rfl rfl⟩
    | some text =>
      have hcut := Text.isCut_cut text.toList rest.length
      have hfits := hcut.fits
      rw [Option.getD_some, writeTerminated_cons]
      constructor
      · simp only [List.length_append, List.length_cons, List.length_drop]
        omega
      · simp
      · rintro _ ⟨⟩ -
        exact ⟨_, hcut, rfl⟩
      · intro hroom
        have hpos : 0 < rest.length := Nat.lt_of_succ_lt_succ hroom
        exact iff_of_false ((h text rfl).head?_cut hpos _) (by simp)

theorem reported_map {failure? : Option String} (h : ∀ text ∈ failure?, Telling text)
    (buffer? : Option Bytes) : Option.Rel (Reported failure?) buffer?
      (buffer?.map fun buffer => (writeTerminated buffer (failure?.getD "")).2) := by
  cases buffer? with
  | none => exact .none
  | some buffer => exact .some (reported_writeTerminated h buffer)

end SyncedConfig
