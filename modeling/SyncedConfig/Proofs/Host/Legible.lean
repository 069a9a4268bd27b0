import SyncedConfig.Host.Abi
import SyncedConfig.Proofs.Batch
import SyncedConfig.Proofs.Host.Report
import SyncedConfig.Proofs.Wording

/-!
# How much of an error a host can read

A host reads the text in its buffer up to the first zero. Since the texts of errors have no zeros
but those of names that they repeat, it finds all that was written, unless a message was refused
because of a name with a zero in it.
-/
namespace SyncedConfig

namespace Utf8

theorem zero_mem_utf8EncodeChar_iff {c : Char} : 0 ∈ String.utf8EncodeChar c ↔ c = '\x00' := by
  constructor
  · intro hzero
    have hascii : c.toNat < 0x80 := Nat.lt_of_not_le fun hle =>
      absurd (le_of_mem_utf8EncodeChar hle hzero) (by decide)
    rw [utf8EncodeChar_ascii hascii, List.mem_singleton] at hzero
    have hcode : c.toNat = 0 := by
      rw [← toNat_ofNat (by omega : c.toNat < 0x100), ← hzero]
      rfl
    exact Char.toNat_inj.1 hcode
  · rintro rfl
    decide

theorem zero_mem_encode_iff {text : List Char} : 0 ∈ encode text ↔ '\x00' ∈ text := by
  simp [encode, List.mem_flatMap, zero_mem_utf8EncodeChar_iff]

/-- A host sees all of a text in front of a zero exactly if there is none in the text. -/
theorem takeWhile_encode_eq_iff {text : List Char} (rest : Bytes) :
    (encode text ++ 0 :: rest).takeWhile (· ≠ 0) = encode text ↔ '\x00' ∉ text := by
  rw [← zero_mem_encode_iff]
  constructor
  · intro heq hzero
    have hall : (encode text).all (· ≠ 0) = true := heq ▸ List.all_takeWhile
    exact absurd (List.all_eq_true.1 hall 0 hzero) (by decide)
  · intro hzero
    have hall : ∀ b ∈ encode text, decide (b ≠ 0) = true := fun b hb =>
      decide_eq_true fun heq => hzero (heq ▸ hb)
    rw [List.takeWhile_append_of_pos hall]
    simp

end Utf8

namespace Abi

/-- A delta is refused, with this text, because of a name in it that contains a zero. -/
def EchoesZero (handle? : Option Handle) (data : Bytes) (text : String) : Prop :=
  ∃ k c e name, handle? = some (.config k c) ∧ k.changeSchema.decode data = .error e ∧
    text = (SyncError.decode e).message ∧ e.cause.echo? = some name ∧ '\x00' ∈ name.toList

theorem EchoesZero.mem_text {handle? : Option Handle} {data : Bytes} {text : String}
    (h : EchoesZero handle? data text) : '\x00' ∈ text.toList := by
  obtain ⟨k, -, e, name, -, hdecode, rfl, hecho, hzero⟩ := h
  exact (k.mem_message_decode_iff hdecode).2 ⟨name, hecho, hzero⟩

/-- A config refuses a message without a hash, or because its data cannot be decoded. -/
theorem eq_of_merge_error {k : Kind} {c : Config k} {m : Message} {e : SyncError}
    (h : (c.merge [m]).1 = .error e) :
    e = .emptyHash ∨ ∃ fault, k.changeSchema.decode m.data = .error fault ∧ e = .decode fault := by
  cases hread : Message.readBatch k.changeSchema c.ledger.hashes [m] with
  | ok deltas =>
    rw [Config.merge_of_ok hread] at h
    cases h
  | error e' =>
    rw [Config.merge_of_error hread] at h
    cases h
    obtain ⟨i, ⟨m', hm, -, hrefuses⟩, -⟩ := Message.refusesFirst_of_readBatch hread
    obtain rfl : m' = m := List.mem_singleton.1 (List.mem_of_getElem? hm)
    rcases hrefuses with ⟨-, he⟩ | ⟨-, -, hdecode⟩
    · exact .inl he
    · exact .inr hdecode

/-- The description of a hash that is no text is plain. -/
theorem plain_of_toText_error {hash : Bytes} {defect : String}
    (h : Utf8.toText hash = .error defect) : Plain defect.toList := by
  have hnumber (n : Nat) : Plain (toString n).toList := by
    rw [Nat.toString_eq_ofList_toDigits]
    exact Json.plain_ofList (Json.plain_ofNat n)
  rw [Utf8.toText] at h
  split at h
  next => cases h
  next d _ =>
    obtain rfl := Except.error.inj h
    cases d with
    | broken n =>
      have hstart : Plain "invalid utf-8 sequence of ".toList := Json.plain_ofList (by decide)
      have hbetween : Plain " bytes from index ".toList := Json.plain_ofList (by decide)
      exact Json.plain_append
        (Json.plain_append (Json.plain_append hstart (hnumber n)) hbetween) (hnumber _)
    | incomplete =>
      have hstart : Plain "incomplete utf-8 byte sequence from index ".toList :=
        Json.plain_ofList (by decide)
      exact Json.plain_append hstart (hnumber _)

/-- The text for which a message is refused has a zero only if it repeats a name with one. -/
theorem mem_text_iff {handle? : Option Handle} {hash data : Bytes} {text : String}
    (h : (mergeMessage handle? hash data).1 = .error text) :
    '\x00' ∈ text.toList ↔ EchoesZero handle? data text := by
  refine ⟨fun hzero => ?_, EchoesZero.mem_text⟩
  have hnot {plain : String} (hplain : Plain plain.toList) : text ≠ plain := by
    rintro rfl
    exact hplain.not_mem (by decide) hzero
  cases handle? with
  | none =>
    cases h
    exact absurd rfl (hnot (Json.plain_ofList (by decide)))
  | some handle =>
    cases hhash : Utf8.toText hash with
    | error defect =>
      simp only [mergeMessage, hhash, Except.error.injEq] at h
      have hstart : Plain "hash is not valid utf-8: ".toList := Json.plain_ofList (by decide)
      exact absurd h.symm (hnot (Json.plain_append hstart (plain_of_toText_error hhash)))
    | ok hash =>
      simp only [mergeMessage, hhash] at h
      cases handle with
      | foreign name => cases h
      | config k c =>
        rcases hmerge : c.merge [⟨hash, data⟩] with ⟨result, c'⟩
        simp only [Handle.merge, Handle.mergeBatch, hmerge] at h
        cases result with
        | ok accepted => cases h
        | error e =>
          obtain rfl : e.message = text := Except.error.inj h
          have he : (c.merge [⟨hash, data⟩]).1 = .error e := congrArg Prod.fst hmerge
          rcases eq_of_merge_error he with rfl | ⟨fault, hdecode, rfl⟩
          · exact absurd rfl (hnot (Json.plain_ofList (by decide)))
          · obtain ⟨name, hecho, hname⟩ := (k.mem_message_decode_iff hdecode).1 hzero
            exact ⟨k, c, fault, name, rfl, hdecode, rfl, hecho, hname⟩

/-- Behind a failed call the octets of a buffer in front of its first zero are as much of the text
as fits, unless what fits has a zero. A text has a zero only if it repeats the name of an unknown
tag or member with a zero in it. -/
theorem failed_merge_legible {handle? : Option Handle} {hash data : Bytes} {text : String}
    (h : (mergeMessage handle? hash data).1 = .error text) {buffer : Bytes}
    (hbuffer : buffer ≠ []) :
    ∃ shown after, Text.IsCut text.toList (buffer.length - 1) shown ∧
      (merge handle? hash data (some buffer)).buffer? = some after ∧
      (after.takeWhile (· ≠ 0) = Utf8.encode shown ↔ '\x00' ∉ shown) ∧
      ('\x00' ∈ text.toList ↔ EchoesZero handle? data text) := by
  obtain ⟨b, rest, rfl⟩ := List.exists_cons_of_ne_nil hbuffer
  have hreport : (merge handle? hash data (some (b :: rest))).buffer? =
      some (writeTerminated (b :: rest) text).2 := by
    simp only [merge, h, Option.map_some]
  refine ⟨_, _, Text.isCut_cut text.toList rest.length, hreport, ?_, mem_text_iff h⟩
  exact Utf8.takeWhile_encode_eq_iff _

theorem eq_error_of_match {ε α : Type} {result : Except ε α} {e : ε}
    (h : (match result with | .error e => some e | .ok _ => none) = some e) :
    result = .error e := by
  cases result <;> cases h
  rfl

/-- A delta with a contact whose mode for notifications has this name. -/
def deltaWithMode (name : String) : Bytes :=
  Utf8.ofString (Json.object [("set", .list [.object [("notifications", .text name)]])]).compact

theorem unknown_mode_legible :
    let handle : Handle := .config .contacts { content := {} }
    let text := "delta decode failed: unknown variant `a`, expected one of `defaulted`, " ++
      "`all`, `disabled`, `mentions_only` at line 1 column 28"
    (mergeMessage (some handle) [0x68] (deltaWithMode "a")).1 = .error text ∧
      ∃ shown after, Text.IsCut text.toList 39 shown ∧
        (merge (some handle) [0x68] (deltaWithMode "a") (some (.replicate 40 0xaa))).buffer? =
          some after ∧
        after.takeWhile (· ≠ 0) = Utf8.encode shown := by
  intro handle text
  have h : (mergeMessage (some handle) [0x68] (deltaWithMode "a")).1 = .error text :=
    eq_error_of_match (by decide +kernel)
  have hplain : '\x00' ∉ text.toList := Plain.not_mem (by decide +kernel) (by decide)
  have hbuffer : (List.replicate 40 0xaa : Bytes) ≠ [] := by decide
  obtain ⟨shown, after, hcut, hafter, hseen, -⟩ := failed_merge_legible h hbuffer
  refine ⟨h, shown, after, hcut, hafter, hseen.2 fun hzero => ?_⟩
  exact hplain (hcut.beginning.subset hzero)

/-- Of the text in the buffer a host does not see what stands behind a zero in such a name. -/
theorem zero_hides_text :
    let handle : Handle := .config .contacts { content := {} }
    let text := "delta decode failed: unknown variant `\x00`, expected one of `defaulted`, " ++
      "`all`, `disabled`, `mentions_only` at line 1 column 33"
    let shown := "delta decode failed: unknown variant `\x00".toList
    ∃ after, (mergeMessage (some handle) [0x68] (deltaWithMode "\x00")).1 = .error text ∧
      (merge (some handle) [0x68] (deltaWithMode "\x00") (some (.replicate 40 0xaa))).buffer? =
        some after ∧
      Text.IsCut text.toList 39 shown ∧
      after.takeWhile (· ≠ 0) = Utf8.ofString "delta decode failed: unknown variant `" ∧
      after.takeWhile (· ≠ 0) ≠ Utf8.encode shown := by
  intro handle text shown
  have hshown : shown <+: text.toList := by
    rw [String.toList_append]
    refine List.IsPrefix.trans ?_ (List.prefix_append _ _)
    exact ⟨"`, expected one of `defaulted`, ".toList, by decide +kernel⟩
  have hsize : Text.size shown = 39 := by decide +kernel
  have hcut : Text.cut text.toList 39 = shown := by
    rw [Text.cut_eq_takeOctets, ← hsize, Text.takeOctets_size hshown]
  refine ⟨Utf8.encode shown ++ [0], eq_error_of_match (by decide +kernel), by decide +kernel,
    hcut ▸ Text.isCut_cut _ _, by decide +kernel, by decide +kernel⟩

end Abi
end SyncedConfig
