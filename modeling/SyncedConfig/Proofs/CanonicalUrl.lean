import Mathlib.Data.List.DropRight
import SyncedConfig.Record.Community

/-!
# When the canonical address is final

The addresses that stay as they are when they are made canonical are those in canonical form. Making
an address canonical does not always bring it into this form: what one step takes away may bare what
an earlier step, or the same one, would have taken away. It is said exactly when this happens, and
that otherwise a second time changes nothing.
-/
namespace SyncedConfig.ServerUrl

/-- The schemes that imply an ending. -/
def schemes : List Scheme := [http, https]

/-- Nothing is left to do for an address: it has no blanks around it, no slash at its end, no
capital letters below U+0080 and no ending that its scheme implies. -/
structure IsCanonical (url : List Char) : Prop where
  start : ∀ c ∈ url.head?, ¬ Unicode.isBlank c
  ending : ∀ c ∈ url.getLast?, ¬ Unicode.isBlank c ∧ c ≠ '/'
  small : ∀ c ∈ url, ¬ c.isUpper
  implied : ∀ scheme ∈ schemes, ∀ host, url ≠ scheme.start ++ host ++ scheme.ending

/-- An address before its implied ending is looked at. -/
def bare (url : List Char) : List Char := dropSlashes ((Unicode.trim url).map Char.toLower)

/-- Without the implied ending the end of an address is not canonical: before it stands nothing, a
blank, a slash or the same ending once more. -/
def Scheme.BaresEnd (scheme : Scheme) (host : List Char) : Prop :=
  host = [] ∨ (∃ c ∈ host.getLast?, Unicode.isBlank c ∨ c = '/') ∨ scheme.ending <:+ host

/-- What is taken away from an address bares an end that is not canonical: a blank that stood before
slashes, or what stood before the implied ending. -/
def BaresEnd (url : List Char) : Prop :=
  (∃ c ∈ (bare url).getLast?, Unicode.isBlank c) ∨
  ∃ scheme ∈ schemes, ∃ host, bare url = scheme.start ++ host ++ scheme.ending ∧
    scheme.BaresEnd host

variable {url rest host : List Char} {scheme : Scheme}

theorem isUpper_iff {c : Char} : c.isUpper ↔ 0x41 ≤ c.toNat ∧ c.toNat ≤ 0x5a :=
  decide_eq_true_iff.trans (and_congr UInt32.le_iff_toNat_le UInt32.le_iff_toNat_le)

theorem toLower_of_not_isUpper {c : Char} (h : ¬ c.isUpper) : c.toLower = c :=
  dif_neg fun hrange => h (decide_eq_true hrange)

theorem toNat_toLower {c : Char} (h : c.isUpper) : c.toLower.toNat = c.toNat + 0x20 := by
  have hle := (isUpper_iff.1 h).2
  have hval : c.toLower.val = c.val + 0x20 :=
    congrArg Char.val (dif_pos (of_decide_eq_true h))
  have hnat : c.toLower.val.toNat = c.val.toNat + 0x20 := by
    rw [hval, UInt32.toNat_add]
    simp
    omega
  simpa using hnat

theorem not_isUpper_toLower (c : Char) : ¬ c.toLower.isUpper := by
  by_cases h : c.isUpper
  · have hrange := isUpper_iff.1 h
    rw [isUpper_iff, toNat_toLower h]
    omega
  · rwa [toLower_of_not_isUpper h]

theorem toLower_eq_self_iff {c : Char} : c.toLower = c ↔ ¬ c.isUpper :=
  ⟨fun h => h ▸ not_isUpper_toLower c, toLower_of_not_isUpper⟩

theorem map_toLower_eq_self_iff : url.map Char.toLower = url ↔ ∀ c ∈ url, ¬ c.isUpper := by
  simp only [← toLower_eq_self_iff]
  induction url with
  | nil => simp
  | cons c url ih => simp [ih]

theorem not_isBlank {c : Char} (h : 0x20 < c.toNat) (h' : c.toNat < 0x80) :
    ¬ Unicode.isBlank c := by
  simp [Unicode.isBlank, Unicode.blanks, Unicode.Ranges.contains]
  omega

theorem isBlank_toLower (c : Char) : Unicode.isBlank c.toLower = Unicode.isBlank c := by
  by_cases h : c.isUpper
  · have hrange := isUpper_iff.1 h
    have hlower := toNat_toLower h
    have hsmall : ¬ Unicode.isBlank c.toLower := not_isBlank (by omega) (by omega)
    have hcapital : ¬ Unicode.isBlank c := not_isBlank (by omega) (by omega)
    rw [eq_false_of_ne_true hsmall, eq_false_of_ne_true hcapital]
  · rw [toLower_of_not_isUpper h]

theorem mem_schemes_iff : scheme ∈ schemes ↔ scheme = http ∨ scheme = https := by simp [schemes]

theorem Scheme.dropEnding?_eq_some_iff : scheme.dropEnding? url = some rest ↔
    ∃ host, url = scheme.start ++ host ++ scheme.ending ∧ rest = scheme.start ++ host := by
  simp only [dropEnding?, Bool.and_eq_true, List.isPrefixOf_iff_prefix, List.isSuffixOf_iff_suffix]
  constructor
  · intro h
    split at h
    next hends =>
      obtain ⟨⟨path, rfl⟩, hsuffix⟩ := hends
      rw [List.drop_left] at hsuffix h
      obtain ⟨host, rfl⟩ := hsuffix
      refine ⟨host, (List.append_assoc ..).symm, ?_⟩
      simpa using h.symm
    next => cases h
  · rintro ⟨host, rfl, rfl⟩
    simp

theorem dropImplied_cases (url : List Char) :
    (∃ scheme ∈ schemes, ∃ host, url = scheme.start ++ host ++ scheme.ending ∧
      dropImplied url = scheme.start ++ host) ∨
    (∀ scheme ∈ schemes, ∀ host, url ≠ scheme.start ++ host ++ scheme.ending) ∧
      dropImplied url = url := by
  cases hhttp : http.dropEnding? url with
  | some rest =>
    obtain ⟨host, hurl, rfl⟩ := Scheme.dropEnding?_eq_some_iff.1 hhttp
    exact .inl ⟨http, mem_schemes_iff.2 (.inl rfl), host, hurl, by simp [dropImplied, hhttp]⟩
  | none =>
    cases hhttps : https.dropEnding? url with
    | some rest =>
      obtain ⟨host, hurl, rfl⟩ := Scheme.dropEnding?_eq_some_iff.1 hhttps
      exact .inl ⟨https, mem_schemes_iff.2 (.inr rfl), host, hurl,
        by simp [dropImplied, hhttp, hhttps]⟩
    | none =>
      refine .inr ⟨?_, by simp [dropImplied, hhttp, hhttps]⟩
      intro scheme hscheme host hurl
      have hsome := Scheme.dropEnding?_eq_some_iff.2 ⟨host, hurl, rfl⟩
      rcases mem_schemes_iff.1 hscheme with rfl | rfl
      · simp [hhttp] at hsome
      · simp [hhttps] at hsome

theorem scheme_unique {other : Scheme} {path path' : List Char} (h : scheme ∈ schemes)
    (h' : other ∈ schemes) (heq : scheme.start ++ path = other.start ++ path') :
    scheme = other ∧ path = path' := by
  have hother : http.start ++ path ≠ https.start ++ path' ∧
      https.start ++ path ≠ http.start ++ path' := by simp [http, https]
  rcases mem_schemes_iff.1 h with rfl | rfl <;> rcases mem_schemes_iff.1 h' with rfl | rfl
  · exact ⟨rfl, List.append_cancel_left heq⟩
  · exact absurd heq hother.1
  · exact absurd heq hother.2
  · exact ⟨rfl, List.append_cancel_left heq⟩

theorem rdropWhile_eq_self_iff {p : Char → Bool} {text : List Char} :
    text.rdropWhile p = text ↔ ∀ c ∈ text.getLast?, ¬ p c := by
  rw [List.rdropWhile_eq_self_iff]
  constructor
  · intro h c hc
    obtain ⟨hne, rfl⟩ := List.mem_getLast?_eq_getLast hc
    exact h hne
  · intro h hne
    exact h _ (List.getLast_mem_getLast? hne)

theorem dropWhile_eq_self_iff {p : Char → Bool} {text : List Char} :
    text.dropWhile p = text ↔ ∀ c ∈ text.head?, ¬ p c := by
  rw [List.dropWhile_eq_self_iff]
  cases text <;> simp

theorem dropSlashes_isPrefix (url : List Char) : dropSlashes url <+: url :=
  List.rdropWhile_prefix ..

theorem dropSlashes_eq_self_iff : dropSlashes url = url ↔ ∀ c ∈ url.getLast?, c ≠ '/' :=
  rdropWhile_eq_self_iff.trans (by simp)

theorem dropSlashes_dropSlashes (url : List Char) :
    dropSlashes (dropSlashes url) = dropSlashes url := List.rdropWhile_idempotent ..

theorem trim_isPrefix (url : List Char) : Unicode.trim url <+: url.dropWhile Unicode.isBlank :=
  List.rdropWhile_prefix ..

theorem trim_isInfix (url : List Char) : Unicode.trim url <:+: url :=
  (trim_isPrefix url).isInfix.trans (List.dropWhile_suffix _).isInfix

theorem trim_eq_self_iff : Unicode.trim url = url ↔
    (∀ c ∈ url.head?, ¬ Unicode.isBlank c) ∧ ∀ c ∈ url.getLast?, ¬ Unicode.isBlank c := by
  rw [← dropWhile_eq_self_iff, ← rdropWhile_eq_self_iff]
  constructor
  · intro h
    have hlength := (trim_isPrefix url).length_le
    have hstart : url.dropWhile Unicode.isBlank = url :=
      (List.dropWhile_suffix _).eq_of_length_le (by rwa [h] at hlength)
    exact ⟨hstart, by rwa [Unicode.trim, hstart] at h⟩
  · rintro ⟨hstart, hend⟩
    rw [Unicode.trim, hstart]
    exact hend

theorem dropImplied_isPrefix (url : List Char) : dropImplied url <+: url := by
  rcases dropImplied_cases url with ⟨scheme, -, host, hurl, hdrop⟩ | ⟨-, hdrop⟩
  · rw [hdrop, hurl]
    exact List.prefix_append ..
  · exact hdrop.symm ▸ List.prefix_refl url

theorem dropImplied_eq_self_iff : dropImplied url = url ↔
    ∀ scheme ∈ schemes, ∀ host, url ≠ scheme.start ++ host ++ scheme.ending := by
  rcases dropImplied_cases url with ⟨scheme, hscheme, host, hurl, hdrop⟩ | ⟨hnone, hdrop⟩
  · refine iff_of_false ?_ fun hnone => hnone scheme hscheme host hurl
    rw [hdrop, hurl]
    intro heq
    have hending : scheme.ending = [] := by simpa using heq
    rcases mem_schemes_iff.1 hscheme with rfl | rfl <;> cases hending
  · exact iff_of_true hdrop hnone

theorem bare_isPrefix (url : List Char) : bare url <+: (Unicode.trim url).map Char.toLower :=
  dropSlashes_isPrefix _

theorem canonicalChars_isPrefix (url : List Char) : canonicalChars url <+: bare url :=
  dropImplied_isPrefix _

/-- No step makes an address longer, so one that is the same at the end is so behind each step. -/
theorem canonicalChars_eq_self_iff : canonicalChars url = url ↔ IsCanonical url := by
  constructor
  · intro h
    have hbare := canonicalChars_isPrefix url
    rw [h] at hbare
    have hlower := (bare_isPrefix url).length_le
    rw [List.length_map] at hlower
    have htrim : Unicode.trim url = url :=
      (trim_isInfix url).eq_of_length_le (hbare.length_le.trans hlower)
    rw [htrim] at hlower
    have hsame : url = bare url := hbare.eq_of_length_le hlower
    have hsmall : url.map Char.toLower = url := by
      have hstarts : url <+: url.map Char.toLower := by
        simpa [← hsame, htrim] using bare_isPrefix url
      exact (hstarts.eq_of_length (List.length_map ..).symm).symm
    have hslashes : dropSlashes url = url := by
      rw [bare, htrim, hsmall] at hsame
      exact hsame.symm
    have himplied : dropImplied url = url := by
      rwa [canonicalChars, htrim, hsmall, hslashes] at h
    obtain ⟨hstart, hending⟩ := trim_eq_self_iff.1 htrim
    exact ⟨hstart, fun c hc => ⟨hending c hc, dropSlashes_eq_self_iff.1 hslashes c hc⟩,
      map_toLower_eq_self_iff.1 hsmall, dropImplied_eq_self_iff.1 himplied⟩
  · rintro ⟨hstart, hending, hsmall, himplied⟩
    have htrim : Unicode.trim url = url :=
      trim_eq_self_iff.2 ⟨hstart, fun c hc => (hending c hc).1⟩
    have hslashes : dropSlashes url = url :=
      dropSlashes_eq_self_iff.2 fun c hc => (hending c hc).2
    rw [canonicalChars, htrim, map_toLower_eq_self_iff.2 hsmall, hslashes]
    exact dropImplied_eq_self_iff.2 himplied

theorem small_of_mem_bare {c : Char} (h : c ∈ bare url) : ¬ c.isUpper := by
  obtain ⟨d, -, rfl⟩ := List.mem_map.1 ((bare_isPrefix url).subset h)
  exact not_isUpper_toLower d

theorem head?_of_isPrefix {text more : List Char} {c : Char} (h : text <+: more)
    (hc : c ∈ text.head?) : c ∈ more.head? := by
  obtain ⟨rest, rfl⟩ := h
  cases text with
  | nil => cases hc
  | cons d text => exact hc

theorem not_isBlank_of_head?_bare {c : Char} (h : c ∈ (bare url).head?) :
    ¬ Unicode.isBlank c := by
  have hmap := head?_of_isPrefix (bare_isPrefix url) h
  rw [List.head?_map] at hmap
  obtain ⟨d, hd, rfl⟩ := Option.map_eq_some_iff.1 hmap
  have hdrop := head?_of_isPrefix (trim_isPrefix url) hd
  have hblank := List.head?_dropWhile_not Unicode.isBlank url
  rw [Option.mem_def.1 hdrop] at hblank
  rw [isBlank_toLower]
  exact ne_true_of_eq_false hblank

theorem ne_slash_of_getLast?_bare {c : Char} (h : c ∈ (bare url).getLast?) : c ≠ '/' :=
  dropSlashes_eq_self_iff.1 (dropSlashes_dropSlashes _) c h

theorem not_isBlank_of_head?_canonicalChars {c : Char} (h : c ∈ (canonicalChars url).head?) :
    ¬ Unicode.isBlank c :=
  not_isBlank_of_head?_bare (head?_of_isPrefix (canonicalChars_isPrefix url) h)

theorem small_of_mem_canonicalChars {c : Char} (h : c ∈ canonicalChars url) : ¬ c.isUpper :=
  small_of_mem_bare ((canonicalChars_isPrefix url).subset h)

/-- Only the end of what comes out may not be canonical. -/
theorem isCanonical_canonicalChars : IsCanonical (canonicalChars url) ↔
    (∀ c ∈ (canonicalChars url).getLast?, ¬ Unicode.isBlank c ∧ c ≠ '/') ∧
    ∀ scheme ∈ schemes, ∀ host, canonicalChars url ≠ scheme.start ++ host ++ scheme.ending := by
  constructor
  · rintro ⟨-, hending, -, himplied⟩
    exact ⟨hending, himplied⟩
  · rintro ⟨hending, himplied⟩
    exact ⟨fun _ hc => not_isBlank_of_head?_canonicalChars hc, hending,
      fun _ hc => small_of_mem_canonicalChars hc, himplied⟩

theorem not_baresEnd_iff (h : scheme ∈ schemes) : ¬ scheme.BaresEnd host ↔
    (∀ c ∈ (scheme.start ++ host).getLast?, ¬ Unicode.isBlank c ∧ c ≠ '/') ∧
    ∀ other ∈ schemes, ∀ path,
      scheme.start ++ host ≠ other.start ++ path ++ other.ending := by
  have hslash : scheme.start.getLast? = some '/' := by
    rcases mem_schemes_iff.1 h with rfl | rfl <;> rfl
  constructor
  · intro hbares
    obtain ⟨hne, hlast, hsuffix⟩ : host ≠ [] ∧
        (∀ c ∈ host.getLast?, ¬ Unicode.isBlank c ∧ c ≠ '/') ∧ ¬ scheme.ending <:+ host := by
      simpa [Scheme.BaresEnd, not_or] using hbares
    refine ⟨?_, ?_⟩
    · rwa [List.getLast?_append_of_ne_nil _ hne]
    · intro other hother path heq
      rw [List.append_assoc] at heq
      obtain ⟨rfl, rfl⟩ := scheme_unique h hother heq
      exact hsuffix (List.suffix_append ..)
  · rintro ⟨hlast, himplied⟩ (rfl | ⟨c, hc, hend⟩ | ⟨path, rfl⟩)
    · rw [List.append_nil, hslash] at hlast
      exact (hlast '/' rfl).2 rfl
    · have hne : host ≠ [] := fun hnil => by simp [hnil] at hc
      rw [List.getLast?_append_of_ne_nil _ hne] at hlast
      exact hend.elim (hlast c hc).1 (hlast c hc).2
    · exact himplied scheme h path (List.append_assoc ..).symm

/-- An implied ending is not blank, and it follows one host. -/
theorem baresEnd_iff_of_implied (h : scheme ∈ schemes)
    (hbare : bare url = scheme.start ++ host ++ scheme.ending) :
    BaresEnd url ↔ scheme.BaresEnd host := by
  constructor
  · rintro (⟨c, hc, hblank⟩ | ⟨other, hother, path, hpath, hbares⟩)
    · have hlast : ∃ d, scheme.ending.getLast? = some d ∧ ¬ Unicode.isBlank d := by
        rcases mem_schemes_iff.1 h with rfl | rfl
        · exact ⟨'0', rfl, by decide⟩
        · exact ⟨'3', rfl, by decide⟩
      obtain ⟨d, hd, hvisible⟩ := hlast
      rw [hbare, List.getLast?_append, hd] at hc
      cases hc
      exact absurd hblank hvisible
    · rw [hbare, List.append_assoc, List.append_assoc] at hpath
      obtain ⟨rfl, heq⟩ := scheme_unique h hother hpath
      rwa [List.append_cancel_right heq]
  · intro hbares
    exact .inr ⟨scheme, h, host, hbare, hbares⟩

theorem isCanonical_canonicalChars_iff : IsCanonical (canonicalChars url) ↔ ¬ BaresEnd url := by
  rw [isCanonical_canonicalChars, canonicalChars, ← bare]
  rcases dropImplied_cases (bare url) with ⟨scheme, hscheme, host, hbare, hdrop⟩ | ⟨hnone, hdrop⟩
  · rw [hdrop, baresEnd_iff_of_implied hscheme hbare, not_baresEnd_iff hscheme]
  · rw [hdrop]
    constructor
    · rintro ⟨hlast, -⟩ (⟨c, hc, hblank⟩ | ⟨scheme, hscheme, host, hbare, -⟩)
      · exact (hlast c hc).1 hblank
      · exact hnone scheme hscheme host hbare
    · intro hbares
      refine ⟨fun c hc => ⟨fun hblank => hbares (.inl ⟨c, hc, hblank⟩), ?_⟩, hnone⟩
      exact ne_slash_of_getLast?_bare hc

theorem canonical_eq_self_iff {url : String} : canonical url = url ↔ IsCanonical url.toList := by
  rw [← canonicalChars_eq_self_iff, canonical, ← String.toList_inj, String.toList_ofList]

/-- To make an address canonical again changes nothing exactly if no end was bared. -/
theorem canonical_canonical_iff {url : String} :
    canonical (canonical url) = canonical url ↔ ¬ BaresEnd url.toList := by
  rw [canonical_eq_self_iff, canonical, String.toList_ofList, isCanonical_canonicalChars_iff]

theorem address_canonical_iff {url : String} (room : String) (key : Vector UInt8 32) :
    (Community.mk (canonical url) room key).address = (Community.mk url room key).address ↔
      ¬ BaresEnd url.toList := by
  rw [← canonical_canonical_iff, ← String.toList_inj, ← String.toList_inj]
  simp [Community.address, Community.canonicalBaseUrl, Community.normalRoom]

/-- An address is in canonical form if it stays as it is when it is made canonical. What comes out
never starts with a blank and has no capital letters, but it is in canonical form, so that making it
canonical again changes nothing and a community keeps its address when its server is written in this
way, exactly if no end was bared. -/
theorem canonical_again (url : String) :
    (canonical url = url ↔ IsCanonical url.toList) ∧
    (∀ c ∈ (canonical url).toList.head?, ¬ Unicode.isBlank c) ∧
    (∀ c ∈ (canonical url).toList, ¬ c.isUpper) ∧
    (IsCanonical (canonical url).toList ↔ ¬ BaresEnd url.toList) ∧
    (canonical (canonical url) = canonical url ↔ ¬ BaresEnd url.toList) ∧
    ∀ room key, (Community.mk (canonical url) room key).address =
      (Community.mk url room key).address ↔ ¬ BaresEnd url.toList := by
  have hchars : (canonical url).toList = canonicalChars url.toList := String.toList_ofList
  refine ⟨canonical_eq_self_iff, ?_, ?_, ?_, canonical_canonical_iff, address_canonical_iff⟩
  · rw [hchars]
    exact fun c => not_isBlank_of_head?_canonicalChars
  · rw [hchars]
    exact fun c => small_of_mem_canonicalChars
  · rw [hchars, isCanonical_canonicalChars_iff]

example : canonical " HTTP://H:80:80/" = "http://h:80" := by decide

example : canonical "http://h /" = "http://h " := by decide

/-- A slash in front of the implied port is left, and goes only the second time. -/
theorem slash_before_port_stays :
    let lobby : Community := ⟨"http://host/:80", "lobby", .replicate 32 0x2a⟩
    let again : Community := ⟨canonical "http://host/:80", "lobby", .replicate 32 0x2a⟩
    canonical "http://host/:80" = "http://host/" ∧ canonical "http://host/" = "http://host" ∧
      again.address ≠ lobby.address :=
  ⟨by decide, by decide, by decide⟩

end SyncedConfig.ServerUrl
