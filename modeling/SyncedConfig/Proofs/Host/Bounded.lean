import SyncedConfig.Proofs.Host.Session

/-!
# Error texts in bounded room

A text is cut where the search for a boundary stops, and the octets in front of it go to the start
of the buffer of a host, with a zero behind them. Whether a merge is reported in a text of its own
or in a buffer with that much room, the text and the config behind the merge are the same.
-/
namespace SyncedConfig

/-- What a buffer of at least one octet is when a text is written over its start, and which count
is returned. -/
structure Terminated (before : Bytes) (shown : List Char) (count : Nat) (after : Bytes) :
    Prop where
  count_eq : count = (Utf8.encode shown).length
  room : count < before.length
  length_eq : after.length = before.length
  text : after.take count = Utf8.encode shown
  zero : after[count]? = some 0
  behind : ∀ i, count < i → after[i]? = before[i]?

theorem terminated_writeTerminated (b : UInt8) (rest : Bytes) (text : String) :
    let written := writeTerminated (b :: rest) text
    Terminated (b :: rest) (Text.cut text.toList rest.length) written.1 written.2 := by
  have hfits := (Text.isCut_cut text.toList rest.length).fits
  simp only [writeTerminated_cons]
  exact {
    count_eq := rfl
    room := Nat.lt_succ_of_le hfits
    length_eq := by
      simp only [List.length_append, List.length_cons, List.length_drop]
      omega
    text := List.take_left
    zero := by simp
    behind := fun i hi => by
      obtain ⟨k, rfl⟩ := Nat.exists_eq_add_of_lt hi
      rw [List.getElem?_append_right (by omega), Nat.add_assoc, Nat.add_sub_cancel_left,
        List.getElem?_cons_succ, List.getElem?_drop, ← Nat.add_assoc, List.getElem?_cons_succ] }

namespace Text

/-- From any place the search for a boundary goes back to one stop, which is where the octets of the
cut text end. A cut text is the longest beginning that fits, it is the whole text exactly if that
fits, and of two cuts the one that leaves less room counts. An empty buffer stays as it is; any
other then holds what fits of the text in front of a zero, a zero, and what was there behind it. -/
theorem cut_is_longest_and_terminated (text : String) :
    (∀ n, ∃ stop ≤ n, (∀ other, Searches text.toList n other ↔ other = stop) ∧
      Utf8.encode (cut text.toList n) = (Utf8.ofString text).take stop ∧
      IsCut text.toList n (cut text.toList n) ∧
      (cut text.toList n = text.toList ↔ (Utf8.ofString text).length ≤ n)) ∧
    (∀ a b, cut (cut text.toList a) b = cut text.toList (min a b)) ∧
    writeTerminated [] text = (0, []) ∧
    ∀ (b : UInt8) (rest : Bytes),
      Terminated (b :: rest) (cut text.toList rest.length) (writeTerminated (b :: rest) text).1
        (writeTerminated (b :: rest) text).2 := by
  refine ⟨fun n => ?_, cut_cut text.toList, rfl, fun b rest =>
    terminated_writeTerminated b rest text⟩
  refine ⟨lastBoundary text.toList n, lastBoundary_le text.toList n, fun other => ?_,
    encode_cut text.toList n, isCut_cut text.toList n, ?_⟩
  · constructor
    · exact Searches.eq_lastBoundary
    · rintro rfl
      exact searches_lastBoundary text.toList n
  · rw [cut_eq_self_iff, size_eq_length, Utf8.ofString]

end Text

namespace Handle

theorem merge_eq (h : Handle) (m : Message) : h.merge m =
    (((h.mergeBatch [m]).1.mapError HostError.merge).map (!·.isEmpty), (h.mergeBatch [m]).2) := by
  rw [merge]
  rcases h.mergeBatch [m] with ⟨_ | _, h'⟩ <;> rfl

end Handle

namespace Abi

/-- How a failed merge is told in a text, and in what was a buffer before. -/
structure ToldAlike (e : SyncError) (text : String) (before : Bytes) (after? : Option Bytes) :
    Prop where
  cut : Text.IsCut e.message.toList (before.length - 1) text.toList
  fits : (Utf8.ofString text).length ≤ before.length - 1
  empty : before = [] → text = "" ∧ after? = some []
  written : before ≠ [] → ∃ after, after? = some after ∧
    Terminated before text.toList (Utf8.ofString text).length after

theorem mergeMessage_ofString (h : Handle) (hash : String) (data : Bytes) :
    mergeMessage (some h) (Utf8.ofString hash) data =
      ((h.merge ⟨hash, data⟩).1.mapError HostError.text, some (h.merge ⟨hash, data⟩).2) := by
  have hhash : Utf8.toText (Utf8.ofString hash) = .ok hash := Utf8.toText_eq_ok_iff.2 rfl
  simp only [mergeMessage, hhash]

theorem toldAlike_cut (e : SyncError) (buffer : Bytes) :
    ToldAlike e (String.ofList (Text.cut e.message.toList (buffer.length - 1))) buffer
      (some (writeTerminated buffer e.message).2) := by
  have hcut := Text.isCut_cut e.message.toList (buffer.length - 1)
  constructor
  · rwa [String.toList_ofList]
  · rw [Utf8.ofString, String.toList_ofList]
    exact hcut.fits
  · rintro rfl
    have hnone : Text.cut e.message.toList 0 = [] :=
      (Text.cut_eq_takeOctets _ 0).trans (Text.takeOctets_size List.nil_prefix)
    exact ⟨congrArg String.ofList hnone, rfl⟩
  · intro hne
    obtain ⟨b, rest, rfl⟩ := List.exists_cons_of_ne_nil hne
    have hwritten := terminated_writeTerminated b rest e.message
    rw [String.toList_ofList, Utf8.ofString, String.toList_ofList]
    exact ⟨_, rfl, hwritten.count_eq ▸ hwritten⟩

/-- A merge that is reported in a text, and the same merge called for with a buffer of that much
room, accept the same and leave the same config behind. The report has no text exactly if the call
does not fail, which can be seen in a buffer of two octets or more. Otherwise its text is what the
call writes in front of the zero, cut from the text of the error itself. -/
theorem reports_agree (h : Handle) (hash : String) (data buffer : Bytes) :
    let reported := h.mergeReporting ⟨hash, data⟩ buffer.length
    let called := merge (some h) (Utf8.ofString hash) data (some buffer)
    reported.1.accepted = called.accepted ∧ some reported.2 = called.handle? ∧
    (reported.1.error? = none ↔
      ∃ accepted, (mergeMessage (some h) (Utf8.ofString hash) data).1 = .ok accepted) ∧
    (2 ≤ buffer.length → (reported.1.error? = none ↔ called.buffer?.bind List.head? = some 0)) ∧
    ∀ text, reported.1.error? = some text → ∃ e, (h.mergeBatch [⟨hash, data⟩]).1 = .error e ∧
      ToldAlike e text buffer called.buffer? := by
  simp only [Handle.mergeReporting, merge, mergeMessage_ofString, h.merge_eq]
  rcases h.mergeBatch [⟨hash, data⟩] with ⟨e | accepted, h'⟩
  · have htelling : ∀ text ∈ some e.message, Telling text := by
      rintro _ ⟨⟩
      exact e.telling_message
    have hreport := reported_writeTerminated htelling buffer
    refine ⟨rfl, rfl, ?_, fun hroom => ?_, ?_⟩
    · exact iff_of_false (Option.some_ne_none _) (by rintro ⟨_, ⟨⟩⟩)
    · have htold := mt (hreport.told hroom).1 (Option.some_ne_none _)
      exact iff_of_false (Option.some_ne_none _) htold
    · rintro _ ⟨⟩
      exact ⟨e, rfl, toldAlike_cut e buffer⟩
  · have hnone : ∀ text ∈ (none : Option String), Telling text := by simp
    have hreport := reported_writeTerminated hnone buffer
    refine ⟨rfl, rfl, iff_of_true rfl ⟨_, rfl⟩, fun hroom => ?_, ?_⟩
    · exact iff_of_true rfl ((hreport.told hroom).2 rfl)
    · rintro _ ⟨⟩

/-- There is room for one octet of the name of the unknown variant, which takes two. -/
theorem unknown_variant_told_alike :
    let h : Handle := .config .conversations { content := KeyMap.empty }
    let data : Bytes := [0x7b, 0x22, 0x73, 0x65, 0x74, 0x22, 0x3a, 0x5b, 0x7b, 0x22, 0xc3, 0xa9,
      0x22, 0x3a, 0x30, 0x7d, 0x5d, 0x7d]
    let buffer : Bytes := List.replicate 40 0x2a
    let reported := h.mergeReporting ⟨"h", data⟩ buffer.length
    let text := "delta decode failed: unknown variant `"
    reported.1.error? = some text ∧ ∃ e, (h.mergeBatch [⟨"h", data⟩]).1 = .error e ∧
      ToldAlike e text buffer (merge (some h) (Utf8.ofString "h") data (some buffer)).buffer? := by
  intro h data buffer reported text
  have hfails : (h.mergeReporting ⟨"h", data⟩ 40).1.error? = some text := by decide +kernel
  obtain ⟨-, -, -, -, htold⟩ := reports_agree h "h" data buffer
  exact ⟨hfails, htold text hfails⟩

end Abi
end SyncedConfig
