import SyncedConfig.Proofs.Host.Legible
import SyncedConfig.Proofs.Run
import SyncedConfig.Proofs.Text.Valid

/-!
# Dumps reach a host as they are

A host reads the dump that it is handed up to the first zero. Whatever texts a config holds, there
is no zero in its dump, so the host reads all of it, and it never finds the document that stands
for a dump that cannot be handed over.
-/
namespace SyncedConfig

/-- No kind of config is dumped as an object without members. -/
theorem Kind.document_ne_empty : (k : Kind) → (content : k.Content) →
    k.document content ≠ .object []
  | profile, _ => nofun
  | collection _, _ => nofun
  | info, _ => nofun

namespace Handle

variable (h : Handle)

/-- Only a config of an unknown kind is dumped as the empty document. -/
theorem dump_eq_emptyDocument_iff : h.dump = emptyDocument ↔ h.kind? = none := by
  have hempty : (Json.object []).Readable Json.Reader.nestingLimit :=
    (Json.readable_object 126 []).2 (by simp)
  have hcompact : emptyDocument = (Json.object []).compact := by decide
  rw [hcompact, dump, Json.compact_inj h.readable_document hempty]
  cases h with
  | config k c => exact iff_of_false (k.document_ne_empty c.content) (Option.some_ne_none k)
  | foreign name => exact iff_of_true rfl rfl

theorem zero_not_mem_dump : '\x00' ∉ h.dump.toList := by
  intro hzero
  have hoctet : 0 ∈ Utf8.ofString h.dump := Utf8.zero_mem_encode_iff.2 hzero
  exact absurd (h.le_of_mem_dump hoctet) (by decide)

/-- A host reads a dump up to the zero behind it. -/
theorem takeWhile_dump : (Abi.dump (some h)).takeWhile (· ≠ 0) = Utf8.ofString h.dump := by
  have hdump : Abi.dump (some h) = Utf8.ofString h.dump ++ 0 :: [] := h.terminatedDumpOrEmpty_eq
  rw [hdump]
  exact (Utf8.takeWhile_encode_eq_iff []).2 h.zero_not_mem_dump

/-- The compact dump of any config, whatever is in its records, has no octet below that of a space.
So it is never refused for a zero in it and never replaced by the empty document, and what a host
reads up to the first zero are the octets of the dump, from which it gets the same text. -/
theorem dump_crosses_intact :
    (∀ b ∈ Utf8.ofString h.dump, 0x20 ≤ b.toNat) ∧
    h.terminatedDump = .ok (Utf8.ofString h.dump ++ [0]) ∧
    h.terminatedDumpOrEmpty = Utf8.ofString h.dump ++ [0] ∧
    (h.dump = emptyDocument ↔ h.kind? = none) ∧
    (Abi.dump (some h)).takeWhile (· ≠ 0) = Utf8.ofString h.dump ∧
    Utf8.toText ((Abi.dump (some h)).takeWhile (· ≠ 0)) = .ok h.dump := by
  refine ⟨fun b => h.le_of_mem_dump, h.terminatedDump_eq, h.terminatedDumpOrEmpty_eq,
    h.dump_eq_emptyDocument_iff, h.takeWhile_dump, ?_⟩
  rw [takeWhile_dump]
  exact Utf8.toText_eq_ok_iff.2 rfl

theorem zero_in_name_crosses_intact :
    let start : Config .contacts := { content := {} }
    let c := start.run [.edit (.set { sessionId := "\x00\"", name := "\x1f" }), .markDumped]
    let h := Handle.config _ c
    (0x30 ∈ Utf8.ofString h.dump ∧ 0x20 ≤ (0x30 : UInt8).toNat) ∧
      (Abi.dump (some h)).takeWhile (· ≠ 0) = Utf8.ofString h.dump := by
  intro start c h
  obtain ⟨hplain, -, -, -, hread, -⟩ := h.dump_crosses_intact
  have hdigit : 0x30 ∈ Utf8.ofString h.dump := by
    rw [dump, Json.compact, Utf8.ofString, String.toList_ofList]
    decide +kernel
  exact ⟨⟨hdigit, hplain _ hdigit⟩, hread⟩

end Handle
end SyncedConfig
