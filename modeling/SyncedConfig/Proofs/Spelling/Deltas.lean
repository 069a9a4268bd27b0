import SyncedConfig.Proofs.DeltaFormat

/-!
# Deltas are read however they are written

Other hosts may write a delta in another way than this one. In whatever order they write the
members of a record, whichever of them they leave out or add, and however they write texts and
blanks, the delta is the same.
-/
namespace SyncedConfig

open Json (IsCode IsDigits IsHexDigit IsList IsNumber IsObject IsRow IsValue SpellsChar SpellsText
  isList_singleton spellsText_quote)
open Json.Reader

namespace Kind

/-- A change of any kind, and any part of one, is decoded from whatever it is written as, with
blanks around it. -/
theorem decode_spelled_part (k : Kind) : ∀ p ∈ k.changeSchema.parts, ∀ a octets,
    p.2.Spells a octets → ∀ before behind, Blank before → Blank behind →
      p.2.decode (before ++ (octets ++ behind)) = .ok a := by
  intro p hp a octets hspells before behind hbefore hbehind
  have h : p.2.WellFormed := Schema.wellFormed_of_mem_parts k.changeSchema_wellFormed p hp
  exact Schema.decode_of_spells h hspells hbefore hbehind

end Kind

theorem spellsText_face : SpellsText "😀" (Utf8.ofString "\"\\ud83d\\uDE00\"") := by
  have digit (n : Nat) (hn : n < 16) : IsHexDigit n (Ascii.octet (Hex.digitChar n)) :=
    ⟨hn, .inl rfl⟩
  have upper (n : Nat) (hn : n < 16) : IsHexDigit n (Ascii.octet (Hex.digitChar n).toUpper) :=
    ⟨hn, .inr rfl⟩
  have hhigh : IsCode 0xd83d (Utf8.ofString "\\ud83d") :=
    .mk (digit 13 (by decide)) (digit 8 (by decide)) (digit 3 (by decide)) (digit 13 (by decide))
  have hlow : IsCode 0xde00 (Utf8.ofString "\\uDE00") :=
    .mk (upper 13 (by decide)) (upper 14 (by decide)) (digit 0 (by decide)) (digit 0 (by decide))
  have hface : SpellsChar '😀' (Utf8.ofString "\\ud83d" ++ Utf8.ofString "\\uDE00") :=
    .pair (by decide) hhigh hlow
  exact ⟨[_], .cons hface .nil, by decide +kernel⟩

theorem isValue_exponent : IsValue (Utf8.ofString "[1e9]") := by
  have hdigit (b : UInt8) (h : Ascii.isDigit b = true) : IsDigits [b] :=
    ⟨List.cons_ne_nil b [], List.forall_mem_singleton.2 h⟩
  have hnumber : IsNumber (Utf8.ofString "1e9") :=
    ⟨[], [0x31], [], [0x65, 0x39], .inl rfl, .inr ⟨0x31, [], rfl, by decide, hdigit 0x31 rfl⟩,
      .inl rfl, .inr ⟨0x65, [], [0x39], .inl rfl, .inl rfl, hdigit 0x39 rfl, rfl⟩,
      by decide +kernel⟩
  exact .list (List.forall_mem_singleton.2 (.number hnumber)) (isList_singleton _)

theorem members_decode_spelled :
    let member : Member := { sessionId := "😀" }
    let delta : Delta String Member := { set := [member] }
    let octets := Utf8.ofString "[[\x7b\"?\":[1e9] , \"session_id\":\"\\ud83d\\uDE00\"\x7d]]"
    ⟨_, Kind.members.changeSchema⟩ ∈ Kind.members.changeSchema.parts ∧
      Kind.members.changeSchema.Spells delta octets ∧
      Kind.members.changeSchema.decode ([0x20] ++ (octets ++ [0x0a])) = .ok delta := by
  intro member delta octets
  have hp : (⟨_, Kind.members.changeSchema⟩ : (β : Type) × Schema β) ∈
      Kind.members.changeSchema.parts := List.mem_cons_self ..
  have hspace : Blank [0x20] := by simp [Blank, isBlank]
  have hbreak : Blank [0x0a] := by simp [Blank, isBlank]
  let record := Utf8.ofString "\x7b\"?\":[1e9] , \"session_id\":\"\\ud83d\\uDE00\"\x7d"
  have hobject : IsObject [("?", Utf8.ofString "[1e9]"),
      ("session_id", Utf8.ofString "\"\\ud83d\\uDE00\"")] record :=
    ⟨_, _, .cons ⟨_, spellsText_quote "?", [], [], blank_nil, blank_nil, rfl⟩
        (.cons ⟨_, spellsText_quote "session_id", [], [], blank_nil, blank_nil, rfl⟩ .nil),
      .cons blank_nil blank_nil (.cons hspace hspace (.nil blank_nil)), by decide +kernel⟩
  have hmember : Member.schema.Spells member record := by
    rw [Member.schema, Schema.plain, Schema.Spells]
    refine ⟨("😀", "", {}, false, false, 0, 0, 0, ()), rfl, .inr ⟨_, ⟨?_, ?_, ?_, ?_⟩, hobject⟩⟩
    · refine List.forall_mem_cons.2 ⟨fun h => absurd h (by decide), ?_⟩
      refine List.forall_mem_singleton.2 fun _ => ?_
      rw [Fields.Spells, if_pos rfl, Schema.Spells]
      exact spellsText_face
    · refine List.forall_mem_cons.2 ⟨fun _ => ⟨rfl, isValue_exponent⟩, ?_⟩
      exact List.forall_mem_singleton.2 fun h => absurd (by decide) h
    · decide
    · simp [Fields.Given]
  have hspells : Kind.members.changeSchema.Spells delta octets := by
    have hset : (Schema.sequence Member.schema).Spells [member]
        (Ascii.openList :: (record ++ [Ascii.closeList])) := by
      rw [Schema.Spells]
      exact ⟨[record], .cons hmember .nil, isList_singleton record⟩
    have hoctets : octets = Ascii.openList ::
        (Ascii.openList :: (record ++ [Ascii.closeList]) ++ [Ascii.closeList]) := by
      decide +kernel
    rw [hoctets, Kind.changeSchema, Delta.schema, Schema.plain, Schema.Spells]
    refine ⟨([member], [], ()), rfl, .inl ⟨_, ?_, isList_singleton _⟩⟩
    rw [Fields.InOrder, Fields.InOrder, Fields.InOrder]
    exact ⟨hset, rfl, rfl⟩
  exact ⟨hp, hspells, Kind.members.decode_spelled_part _ hp delta octets hspells [0x20] [0x0a]
    hspace hbreak⟩

end SyncedConfig
