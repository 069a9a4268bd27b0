import SyncedConfig.Error
import SyncedConfig.Kind
import SyncedConfig.Proofs.Dump.Plain
import SyncedConfig.Proofs.Vocabulary

/-!
# The wording of errors

What is wrong with some data is described without control characters: numbers are digits, foreign
text is quoted, and all other words are those of a schema. Only the name of an unknown tag or
member is repeated as it is, and so a control character in the description comes from there.
-/
namespace SyncedConfig

/-- The first of the ranges of characters that leave no mark are the control characters. -/
theorem Unicode.le_of_isPrintable {c : Char} (h : isPrintable c = true) : 0x20 ≤ c.toNat := by
  refine Nat.le_of_not_lt fun hcontrol => ?_
  have hcontains : unprintables.contains c = true :=
    List.any_eq_true.2 ⟨(0x0, 0x1f), List.mem_cons_self, by simp; omega⟩
  simp [isPrintable, hcontains] at h

namespace Text

theorem plain_quotedChar (c : Char) : Plain (quotedChar c) := by
  unfold quotedChar
  split
  case h_7 =>
    split
    next =>
      have hdigits : Plain (hexDigits c.toNat) :=
        Json.plain_toDigits (by decide) (by decide) c.toNat
      simp [hdigits]
    next hshown =>
      have hprintable : Unicode.isPrintable c = true := by simp_all
      simpa using Unicode.le_of_isPrintable hprintable
  all_goals simp

theorem plain_quoted (s : String) : Plain (quoted s).toList := by
  have hbody : Plain (s.toList.flatMap quotedChar) := fun c hc => by
    obtain ⟨d, -, hc⟩ := List.mem_flatMap.1 hc
    exact plain_quotedChar d c hc
  simp [quoted, hbody]

end Text

namespace Decimal

theorem plain_zeros (n : Nat) : Plain (zeros n) := by
  intro c hc
  obtain rfl := List.eq_of_mem_replicate hc
  decide

theorem plain_withPoint {digits : List Char} (h : Plain digits) (first : Int) :
    Plain (withPoint digits first) := by
  have htake : ∀ n, Plain (digits.take n) := fun n => h.of_subset (List.take_subset n digits)
  have hdrop : ∀ n, Plain (digits.drop n) := fun n => h.of_subset (List.drop_subset n digits)
  rw [withPoint]
  split
  · simp [plain_zeros, h]
  · dsimp only
    split <;> simp [plain_zeros, h, htake, hdrop]

theorem plain_withExponent {digits : List Char} (h : Plain digits) (first : Int) :
    Plain (withExponent digits first) := by
  have htake : Plain (digits.take 1) := h.of_subset (List.take_subset 1 digits)
  have htail : Plain digits.tail := h.of_subset (List.tail_sublist digits).subset
  have hexponent := Json.plain_ofNat first.natAbs
  rw [withExponent]
  split <;> split <;> simp [htake, htail, hexponent]

theorem plain_ofFloat (x : Float) : Plain (ofFloat x) := by
  have htext (x : Scaled) : Plain x.text := by
    rw [Scaled.text]
    split
    · exact plain_withPoint (Json.plain_ofNat _) _
    · exact plain_withExponent (Json.plain_ofNat _) _
  rw [ofFloat]
  split <;> split <;> simp [htext]

end Decimal

namespace Json

theorem plain_append {start behind : String} (hstart : Plain start.toList)
    (hbehind : Plain behind.toList) : Plain (start ++ behind).toList := by
  simp [hstart, hbehind]

theorem plain_ofList {text : List Char} (h : Plain text) : Plain (String.ofList text).toList := by
  rwa [String.toList_ofList]

theorem Found.plain_describe (found : Found) : Plain found.describe.toList := by
  have hquote : Plain "`".toList := plain_ofList (by decide)
  cases found with
  | bool b => cases b <;> exact plain_ofList (by decide)
  | integer n =>
    have hstart : Plain "integer `".toList := plain_ofList (by decide)
    exact plain_append (plain_append hstart (plain_ofList (plain_ofInt n))) hquote
  | float x =>
    have hstart : Plain "floating point `".toList := plain_ofList (by decide)
    exact plain_append (plain_append hstart (plain_ofList (Decimal.plain_ofFloat x))) hquote
  | text s =>
    have hstart : Plain "string ".toList := plain_ofList (by decide)
    exact plain_append hstart (Text.plain_quoted s)
  | _ => exact plain_ofList (by decide)

theorem plain_intercalate {separator : String} (hseparator : Plain separator.toList)
    {names : List String} (h : ∀ name ∈ names, Plain name.toList) :
    Plain (separator.intercalate names).toList := by
  rw [String.toList_intercalate]
  induction names with
  | nil => exact Plain.nil
  | cons name names ih =>
    obtain ⟨hname, hnames⟩ := List.forall_mem_cons.1 h
    cases names with
    | nil => simpa using hname
    | cons next names =>
      have hrest := ih hnames
      rw [List.map_cons] at hrest
      rw [List.map_cons, List.map_cons, List.intercalate_cons_cons]
      simp [hname, hseparator, hrest]

theorem plain_alternatives {names : List String} (h : ∀ name ∈ names, Plain name.toList) :
    Plain (alternatives names).toList := by
  unfold alternatives
  split
  next a => simp_all [toString]
  next a b => simp_all [toString]
  next =>
    have hquoted : ∀ name ∈ names.map fun a => s!"`{a}`", Plain name.toList := by
      simpa [toString] using h
    have hseparator : Plain ", ".toList := plain_ofList (by decide)
    have hlist := plain_intercalate hseparator hquoted
    rw [String.toList_append, Plain.append]
    exact ⟨plain_ofList (by decide), hlist⟩

theorem mem_around_iff {start name middle behind : String} (hstart : Plain start.toList)
    (hmiddle : Plain middle.toList) (hbehind : Plain behind.toList) {c : Char}
    (hc : c.toNat < 0x20) :
    c ∈ (start ++ name ++ middle ++ behind).toList ↔ c ∈ name.toList := by
  simp [hstart.not_mem hc, hmiddle.not_mem hc, hbehind.not_mem hc]

/-- A cause that repeats no name from the data is described without control characters. -/
theorem Cause.plain_describe {cause : Cause} (h : ∀ word ∈ cause.words, Plain word.toList)
    (hecho : cause.echo? = none) : Plain cause.describe.toList := by
  have hquote : Plain "`".toList := plain_ofList (by decide)
  have hexpected : Plain ", expected ".toList := plain_ofList (by decide)
  cases cause with
  | mistyped found expected =>
    have hstart : Plain "invalid type: ".toList := plain_ofList (by decide)
    exact plain_append (plain_append (plain_append hstart found.plain_describe) hexpected)
      (h expected (List.mem_singleton_self _))
  | outOfRange n expected =>
    have hstart : Plain "invalid value: integer `".toList := plain_ofList (by decide)
    have hbehind : Plain "`, expected ".toList := plain_ofList (by decide)
    exact plain_append
      (plain_append (plain_append hstart (plain_ofList (plain_ofInt n))) hbehind)
      (h expected (List.mem_singleton_self _))
  | badLength n expected =>
    have hstart : Plain "invalid length ".toList := plain_ofList (by decide)
    exact plain_append
      (plain_append (plain_append hstart (plain_ofList (plain_ofNat n))) hexpected)
      (h expected (List.mem_singleton_self _))
  | missing field =>
    have hstart : Plain "missing field `".toList := plain_ofList (by decide)
    exact plain_append (plain_append hstart (h field (List.mem_singleton_self _))) hquote
  | repeated field =>
    have hstart : Plain "duplicate field `".toList := plain_ofList (by decide)
    exact plain_append (plain_append hstart (h field (List.mem_singleton_self _))) hquote
  | overflow type =>
    have hstart : Plain "overflow deserializing ".toList := plain_ofList (by decide)
    exact plain_append hstart (h type (List.mem_singleton_self _))
  | unknownField | unknownTag => cases hecho
  | _ => exact plain_ofList (by decide)

/-- A control character in the description of a cause comes from a name in the data. -/
theorem Cause.mem_describe_iff {cause : Cause} (h : ∀ word ∈ cause.words, Plain word.toList)
    {c : Char} (hc : c.toNat < 0x20) :
    c ∈ cause.describe.toList ↔ ∃ name, cause.echo? = some name ∧ c ∈ name.toList := by
  cases hecho : cause.echo? with
  | none => exact iff_of_false ((plain_describe h hecho).not_mem hc) (by simp)
  | some name =>
    have hmiddle : Plain "`, expected ".toList := plain_ofList (by decide)
    simp only [Option.some.injEq, exists_eq_left']
    cases cause with
    | unknownField field known =>
      cases hecho
      have hstart : Plain "unknown field `".toList := plain_ofList (by decide)
      have hknown : Plain (alternatives known).toList := plain_alternatives h
      exact mem_around_iff hstart hmiddle hknown hc
    | unknownTag tag known =>
      cases hecho
      have hstart : Plain "unknown variant `".toList := plain_ofList (by decide)
      have hknown : Plain (alternatives known).toList := plain_alternatives h
      exact mem_around_iff hstart hmiddle hknown hc
    | _ => cases hecho

theorem Error.mem_message_iff {e : Error} (h : ∀ word ∈ e.cause.words, Plain word.toList)
    {c : Char} (hc : c.toNat < 0x20) :
    c ∈ e.message.toList ↔ ∃ name, e.cause.echo? = some name ∧ c ∈ name.toList := by
  rw [← Cause.mem_describe_iff h hc, message]
  split
  next p _ =>
    have hline := (plain_ofNat p.line).not_mem hc
    have hcolumn := (plain_ofNat p.column).not_mem hc
    have hat : c ∉ " at line ".toList := (plain_ofList (by decide)).not_mem hc
    have hbetween : c ∉ " column ".toList := (plain_ofList (by decide)).not_mem hc
    simp only [String.toList_append, List.mem_append, toString, String.toList_ofList, hline,
      hcolumn, hat, hbetween, or_false]
  next => rfl

end Json

theorem Kind.plain_vocabulary (k : Kind) :
    ∀ word ∈ k.changeSchema.vocabulary, Plain word.toList := by
  cases k with
  | profile => decide +kernel
  | collection c => cases c <;> decide +kernel
  | info => decide +kernel

/-- A zero is in the text of a refused delta exactly if the delta has an unknown name with one. -/
theorem Kind.mem_message_decode_iff (k : Kind) {data : Bytes} {e : Json.Error}
    (h : k.changeSchema.decode data = .error e) :
    '\x00' ∈ (SyncError.decode e).message.toList ↔
      ∃ name, e.cause.echo? = some name ∧ '\x00' ∈ name.toList := by
  have hwords : ∀ word ∈ e.cause.words, Plain word.toList :=
    fun word hword => k.plain_vocabulary word (Schema.words_decode h hword)
  have hstart : '\x00' ∉ "delta decode failed: ".toList :=
    (Json.plain_ofList (by decide)).not_mem (by decide)
  have hmessage : (SyncError.decode e).message = "delta decode failed: " ++ e.message := rfl
  rw [← Json.Error.mem_message_iff hwords (by decide), hmessage, String.toList_append,
    List.mem_append, or_iff_right hstart]

end SyncedConfig
