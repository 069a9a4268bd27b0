import SyncedConfig.Proofs.CanonicalUrl
import SyncedConfig.Proofs.Collection.Communities
import SyncedConfig.Proofs.Dump.Octets

/-!
# Spellings of an address

The address of a server may be written with blanks around it, in letters of either case, with or
without the ending that its scheme implies, and with slashes at its end. These are all the texts
that have one canonical address, unless its end could be taken for more of the same. So a community
is one in every collection, however its server is written.
-/
namespace SyncedConfig.ServerUrl

/-- The ways to write the address of a host under a scheme. -/
inductive Scheme.Spells (scheme : Scheme) (host : List Char) : List Char → Prop
  | intro {before middle after ending : List Char} (slashes : Nat)
      (hbefore : ∀ c ∈ before, Unicode.isBlank c) (hafter : ∀ c ∈ after, Unicode.isBlank c)
      (hending : ending = [] ∨ ending = scheme.ending)
      (hcase : middle.map Char.toLower =
        (scheme.start ++ host ++ ending ++ List.replicate slashes '/').map Char.toLower) :
      scheme.Spells host (before ++ (middle ++ after))

variable {scheme : Scheme} {url host text before middle after ending : List Char}

theorem toLower_toLower (c : Char) : c.toLower.toLower = c.toLower :=
  toLower_of_not_isUpper (not_isUpper_toLower c)

theorem map_toLower_map_toLower (text : List Char) :
    (text.map Char.toLower).map Char.toLower = text.map Char.toLower := by
  rw [List.map_map]
  exact List.map_congr_left fun c _ => toLower_toLower c

theorem toLower_eq_iff {c d : Char} (hd : d.toNat < 0x41) : c.toLower = d ↔ c = d := by
  by_cases h : c.isUpper
  · have hrange := isUpper_iff.1 h
    have hlower := toNat_toLower h
    exact iff_of_false (by rintro rfl; omega) (by rintro rfl; omega)
  · rw [toLower_of_not_isUpper h]

theorem map_toLower_eq_iff (h : ∀ d ∈ text, d.toNat < 0x41) :
    url.map Char.toLower = text ↔ url = text := by
  induction text generalizing url with
  | nil => simp
  | cons d text ih =>
    obtain ⟨hd, htext⟩ := List.forall_mem_cons.1 h
    cases url with
    | nil => simp
    | cons c url =>
      rw [List.map_cons, List.cons.injEq, List.cons.injEq, toLower_eq_iff hd, ih htext]

theorem below_letters_of_mem_ending (h : scheme ∈ schemes) :
    ∀ c ∈ scheme.ending, c.toNat < 0x41 := by
  rcases mem_schemes_iff.1 h with rfl | rfl
  · simp [http]
  · simp [https]

theorem map_toLower_ending (h : scheme ∈ schemes) :
    scheme.ending.map Char.toLower = scheme.ending :=
  (map_toLower_eq_iff (below_letters_of_mem_ending h)).2 rfl

theorem map_toLower_start (h : scheme ∈ schemes) :
    scheme.start.map Char.toLower = scheme.start := by
  rcases mem_schemes_iff.1 h with rfl | rfl <;> decide

theorem map_toLower_replicate (n : Nat) :
    (List.replicate n '/').map Char.toLower = List.replicate n '/' := by
  rw [List.map_replicate]
  rfl

theorem isSuffix_map_toLower_iff (h : scheme ∈ schemes) :
    scheme.ending <:+ host.map Char.toLower ↔ scheme.ending <:+ host := by
  constructor
  · rintro ⟨path, hpath⟩
    obtain ⟨path, ending, rfl, -, hending⟩ := List.map_eq_append_iff.1 hpath.symm
    obtain rfl := (map_toLower_eq_iff (below_letters_of_mem_ending h)).1 hending
    exact List.suffix_append ..
  · rintro ⟨path, rfl⟩
    rw [List.map_append, map_toLower_ending h]
    exact List.suffix_append ..

/-- The case of its letters does not matter for what an end bares. -/
theorem baresEnd_map_toLower_iff (h : scheme ∈ schemes) :
    scheme.BaresEnd (host.map Char.toLower) ↔ scheme.BaresEnd host := by
  have hslash {c : Char} : c.toLower = '/' ↔ c = '/' := toLower_eq_iff (by decide)
  simp [Scheme.BaresEnd, isSuffix_map_toLower_iff h, List.getLast?_map, isBlank_toLower, hslash]

theorem rdropWhile_append {p : Char → Bool} (h : ∀ c ∈ after, p c) (text : List Char) :
    (text ++ after).rdropWhile p = text.rdropWhile p := by
  have hreverse : ∀ c ∈ after.reverse, p c := fun c hc => h c (List.mem_reverse.1 hc)
  rw [List.rdropWhile, List.reverse_append, List.dropWhile_append_of_pos hreverse,
    List.rdropWhile]

theorem dropSlashes_append_replicate (text : List Char) (n : Nat) :
    dropSlashes (text ++ List.replicate n '/') = dropSlashes text :=
  rdropWhile_append (fun _ hc => decide_eq_true (List.eq_of_mem_replicate hc)) text

theorem exists_eq_dropSlashes_append (text : List Char) :
    ∃ n, text = dropSlashes text ++ List.replicate n '/' := by
  have hslashes : ∀ c ∈ text.rtakeWhile (· = '/'), c = '/' :=
    fun c hc => by simpa using List.mem_rtakeWhile_imp hc
  refine ⟨(text.rtakeWhile (· = '/')).length, ?_⟩
  rw [← List.eq_replicate_of_mem hslashes]
  exact List.rdropWhile_append_rtakeWhile.symm

theorem trim_append (hbefore : ∀ c ∈ before, Unicode.isBlank c)
    (hafter : ∀ c ∈ after, Unicode.isBlank c) (hmiddle : Unicode.trim middle = middle) :
    Unicode.trim (before ++ (middle ++ after)) = middle := by
  obtain ⟨hstart, -⟩ := trim_eq_self_iff.1 hmiddle
  have hdrop := dropWhile_eq_self_iff.2 hstart
  rw [Unicode.trim, List.dropWhile_append_of_pos hbefore]
  cases middle with
  | nil =>
    rw [List.nil_append, List.dropWhile_eq_nil_iff.2 hafter]
    rfl
  | cons c middle =>
    have hc : ¬ Unicode.isBlank c := hstart c rfl
    rw [List.cons_append, List.dropWhile_cons_of_neg hc, ← List.cons_append]
    rw [Unicode.trim, hdrop] at hmiddle
    exact (rdropWhile_append hafter (c :: middle)).trans hmiddle

theorem exists_eq_append_trim (url : List Char) : ∃ before after,
    (∀ c ∈ before, Unicode.isBlank c) ∧ (∀ c ∈ after, Unicode.isBlank c) ∧
      url = before ++ (Unicode.trim url ++ after) := by
  refine ⟨url.takeWhile Unicode.isBlank, (url.dropWhile Unicode.isBlank).rtakeWhile Unicode.isBlank,
    fun c => List.mem_takeWhile_imp, fun c => List.mem_rtakeWhile_imp, ?_⟩
  calc url
      = url.takeWhile Unicode.isBlank ++ url.dropWhile Unicode.isBlank :=
        List.takeWhile_append_dropWhile.symm
    _ = _ := congrArg _ List.rdropWhile_append_rtakeWhile.symm

/-- Behind a host that bares no end neither an ending nor slashes are lost. -/
theorem getLast?_spelled (h : scheme ∈ schemes) (hhost : ¬ scheme.BaresEnd host)
    (hending : ending = [] ∨ ending = scheme.ending) :
    ∀ c ∈ (scheme.start ++ host ++ ending).getLast?, ¬ Unicode.isBlank c ∧ c ≠ '/' := by
  rcases hending with rfl | rfl
  · rw [List.append_nil]
    exact ((not_baresEnd_iff h).1 hhost).1
  · have hne : scheme.ending ≠ [] := by rcases mem_schemes_iff.1 h with rfl | rfl <;> decide
    rw [List.getLast?_append_of_ne_nil _ hne]
    rcases mem_schemes_iff.1 h with rfl | rfl
    · rintro c ⟨⟩
      decide
    · rintro c ⟨⟩
      decide

theorem dropImplied_spelled (h : scheme ∈ schemes) (hhost : ¬ scheme.BaresEnd host)
    (hending : ending = [] ∨ ending = scheme.ending) :
    dropImplied (scheme.start ++ host ++ ending) = scheme.start ++ host := by
  rcases hending with rfl | rfl
  · rw [List.append_nil]
    exact dropImplied_eq_self_iff.2 ((not_baresEnd_iff h).1 hhost).2
  · rcases dropImplied_cases (scheme.start ++ host ++ scheme.ending) with
      ⟨other, hother, path, hurl, hdrop⟩ | ⟨hnone, -⟩
    · rw [List.append_assoc, List.append_assoc] at hurl
      obtain ⟨rfl, hpath⟩ := scheme_unique h hother hurl
      rw [hdrop, List.append_cancel_right hpath]
    · exact absurd rfl (hnone scheme h host)

theorem trim_of_map_toLower (h : Unicode.trim (text.map Char.toLower) = text.map Char.toLower) :
    Unicode.trim text = text := by
  simpa [trim_eq_self_iff, isBlank_toLower] using h

/-- What is written of an address in small letters, between the blanks. -/
theorem trim_spelled (h : scheme ∈ schemes) (hhost : ¬ scheme.BaresEnd host)
    (hending : ending = [] ∨ ending = scheme.ending) (slashes : Nat) :
    Unicode.trim (scheme.start ++ host ++ ending ++ List.replicate slashes '/') =
      scheme.start ++ host ++ ending ++ List.replicate slashes '/' := by
  rw [trim_eq_self_iff]
  constructor
  · rcases mem_schemes_iff.1 h with rfl | rfl
    · rintro c ⟨⟩
      decide
    · rintro c ⟨⟩
      decide
  · cases slashes with
    | zero => simpa using fun c hc => (getLast?_spelled h hhost hending c hc).1
    | succ n =>
      rw [List.getLast?_append, List.getLast?_replicate]
      rintro c ⟨⟩
      decide

theorem Scheme.Spells.canonicalChars_eq (h : scheme ∈ schemes) (hhost : ¬ scheme.BaresEnd host)
    (hspells : scheme.Spells host url) :
    canonicalChars url = scheme.start ++ host.map Char.toLower := by
  obtain @⟨before, middle, after, ending, slashes, hbefore, hafter, hending, hcase⟩ := hspells
  have hhost' : ¬ scheme.BaresEnd (host.map Char.toLower) :=
    mt (baresEnd_map_toLower_iff h).1 hhost
  have hsmall : ending.map Char.toLower = ending := by
    rcases hending with rfl | rfl
    · rfl
    · exact map_toLower_ending h
  have hlower : middle.map Char.toLower = scheme.start ++ host.map Char.toLower ++ ending ++
      List.replicate slashes '/' := by
    rw [hcase]
    simp only [List.map_append, map_toLower_start h, hsmall, map_toLower_replicate]
  have htrim : Unicode.trim middle = middle := by
    refine trim_of_map_toLower ?_
    rw [hlower]
    exact trim_spelled h hhost' hending slashes
  have hslashes : dropSlashes (scheme.start ++ host.map Char.toLower ++ ending) =
      scheme.start ++ host.map Char.toLower ++ ending :=
    dropSlashes_eq_self_iff.2 fun c hc => (getLast?_spelled h hhost' hending c hc).2
  rw [canonicalChars, trim_append hbefore hafter htrim, hlower, dropSlashes_append_replicate,
    hslashes, dropImplied_spelled h hhost' hending]

theorem Scheme.spells_of_canonicalChars (h : scheme ∈ schemes)
    (hurl : canonicalChars url = scheme.start ++ host.map Char.toLower) :
    scheme.Spells host url := by
  obtain ⟨before, after, hbefore, hafter, htrim⟩ := exists_eq_append_trim url
  obtain ⟨slashes, hslashes⟩ := exists_eq_dropSlashes_append ((Unicode.trim url).map Char.toLower)
  obtain ⟨ending, hending, hbare⟩ : ∃ ending, (ending = [] ∨ ending = scheme.ending) ∧
      dropSlashes ((Unicode.trim url).map Char.toLower) =
        scheme.start ++ host.map Char.toLower ++ ending := by
    -- an ending that was dropped is that of this scheme, because no scheme starts like another
    rcases dropImplied_cases (dropSlashes ((Unicode.trim url).map Char.toLower)) with
      ⟨other, hother, path, hbare, hdrop⟩ | ⟨-, hdrop⟩
    · have hpath : other.start ++ path = scheme.start ++ host.map Char.toLower :=
        hdrop.symm.trans hurl
      obtain ⟨rfl, rfl⟩ := scheme_unique hother h hpath
      exact ⟨_, .inr rfl, hbare⟩
    · exact ⟨[], .inl rfl, by rw [List.append_nil, ← hurl, canonicalChars, hdrop]⟩
  rw [htrim]
  refine .intro slashes hbefore hafter hending ?_
  rw [hbare] at hslashes
  have hagain := congrArg (List.map Char.toLower) hslashes
  rw [map_toLower_map_toLower] at hagain
  rw [hagain]
  simp only [List.map_append, map_toLower_map_toLower]

/-- The spellings of an address are the texts with one canonical address. -/
theorem Scheme.spells_iff {url : String} (h : scheme ∈ schemes) (hhost : ¬ scheme.BaresEnd host) :
    scheme.Spells host url.toList ↔
      canonical url = String.ofList (scheme.start ++ host.map Char.toLower) := by
  rw [canonical, String.ofList_inj]
  exact ⟨Spells.canonicalChars_eq h hhost, spells_of_canonicalChars h⟩

end SyncedConfig.ServerUrl

namespace SyncedConfig

theorem Community.parse_of_decode? {a : Community} {text : String}
    (h : Hex.decode? text.toList = some a.key.toList) : parse a.baseUrl a.room text = .ok a := by
  simp only [parse, h, Vector.length_toList, dite_true]
  rcases a with ⟨baseUrl, room, ⟨⟨octets⟩, hsize⟩⟩
  rfl

theorem Community.parse_keyText (a : Community) : parse a.baseUrl a.room a.keyText = .ok a := by
  refine parse_of_decode? ?_
  rw [keyText, String.toList_ofList, Hex.decode?_encode]

variable {c : CollectionKind}

namespace Config

variable {config : Config (.collection c)} {record other : c.Record}

/-- Of two records about one place a collection keeps only the one that is set last. -/
structure KeepsLast (config : Config (.collection c)) (place : Community)
    (record other : c.Record) : Prop where
  keyOf_eq : c.keyOf record = c.keyOf other
  content_eq : ((config.set record).set other).content = (config.set other).content
  found : ((config.set record).set other).get? (c.keyOf record) = some other
  drafted : ∀ request key blank asked, request.target = .ok (key, blank) →
    c.community? blank = some asked → asked.SamePlace place →
      ((config.set record).set other).draft request = .ok other
  size_eq : ((config.set record).set other).size = (config.set record).size
  size_le : (config.set record).size ≤ config.size + 1

theorem content_set_set (h : c.keyOf record = c.keyOf other) :
    ((config.set record).set other).content = (config.set other).content := by
  refine KeyMap.ext_get? fun key => ?_
  change ((config.set record).set other).get? key = (config.set other).get? key
  simp only [get?_set, EntryChange.perform, h]
  split <;> rfl

theorem draft_of_keyOf_eq (h : EntryChange.OwnKeys config.get?) {request : Request c} {key : c.Key}
    {blank : c.Record} (htarget : request.target = .ok (key, blank))
    (hget : config.get? key = some record) : config.draft request = .ok record := by
  rw [draft_eq h, htarget]
  simp only [Except.map, hget, Option.getD_some]

theorem keepsLast (h : config.Reachable) {a b : Community} (hplace : a.SamePlace b)
    (ha : c.community? record = some a) (hb : c.community? other = some b) :
    config.KeepsLast a record other := by
  have hkey : c.keyOf record = c.keyOf other :=
    (CollectionKind.keyOf_eq_iff ha hb).2 (.inl hplace)
  have hown : EntryChange.OwnKeys ((config.set record).set other).get? := by
    rw [get?_set, get?_set]
    exact ((ownKeys_of_reachable h).perform _).perform _
  have hfound : ((config.set record).set other).get? (c.keyOf record) = some other := by
    rw [get?_set, EntryChange.perform, if_pos hkey]
  constructor
  case keyOf_eq => exact hkey
  case content_eq => exact content_set_set hkey
  case found => exact hfound
  case drafted =>
    intro request key blank asked htarget hasked hsame
    obtain rfl : c.keyOf blank = key := Request.keyOf_target htarget
    have hblank := (CollectionKind.keyOf_eq_iff hasked ha).2 (.inl hsame)
    exact draft_of_keyOf_eq hown htarget (hblank ▸ hfound)
  case size_eq =>
    rw [size_set (config.set record), get?_set, EntryChange.perform, if_pos hkey.symm]
    rfl
  case size_le =>
    rw [size_set]
    split <;> omega

/-- A host under a scheme that bares no end can be written in many ways, and these are the texts
that are made canonical to the start of the scheme and the host in small letters. Communities whose
servers are written in such ways, with one room but for the case of its letters, have one address,
and a collection keeps one record about them, the last. -/
theorem spellings_are_one_community {scheme : ServerUrl.Scheme} {host : List Char}
    (hscheme : scheme ∈ ServerUrl.schemes) (hhost : ¬ scheme.BaresEnd host) :
    (∀ url : String, scheme.Spells host url.toList ↔
      ServerUrl.canonical url = String.ofList (scheme.start ++ host.map Char.toLower)) ∧
    ∀ a b : Community, scheme.Spells host a.baseUrl.toList →
      scheme.Spells host b.baseUrl.toList → a.normalRoom = b.normalRoom →
        a.address = b.address ∧
        ∀ {c : CollectionKind} {config : Config (.collection c)}, config.Reachable →
          ∀ record other, c.community? record = some a → c.community? other = some b →
            config.KeepsLast a record other := by
  refine ⟨fun url => ServerUrl.Scheme.spells_iff hscheme hhost, fun a b ha hb hroom => ?_⟩
  have hplace : a.SamePlace b := by
    refine ⟨?_, hroom⟩
    rw [Community.canonicalBaseUrl, Community.canonicalBaseUrl,
      (ServerUrl.Scheme.spells_iff hscheme hhost).1 ha,
      (ServerUrl.Scheme.spells_iff hscheme hhost).1 hb]
  exact ⟨Community.address_eq_iff.2 (.inl hplace),
    fun hreach record other => keepsLast hreach hplace⟩

/-- Only letters below U+0080 are made small. -/
theorem lobby_is_one_community :
    let host := ['Ö', 'X']
    let a : Community := ⟨" HTTPS://Öx:443// ", "Lobby", .replicate 32 0x2a⟩
    let b : Community := ⟨"https://ÖX", "LOBBY", .replicate 32 0⟩
    let start : Config .conversations := { content := {} }
    let config := start.run [.edit (.set (.oneToOne { peer := "05" })), .markDumped]
    let record : Conversation := .community { peer := a, lastRead := 7 }
    let other : Conversation := .community { peer := b, unread := true }
    let request : Request .conversations := .communityChat a.baseUrl a.room a.keyText
    (ServerUrl.https ∈ ServerUrl.schemes ∧ ¬ ServerUrl.https.BaresEnd host ∧
      ServerUrl.https.Spells host a.baseUrl.toList ∧
      ServerUrl.https.Spells host b.baseUrl.toList ∧ a.normalRoom = b.normalRoom ∧
      config.Reachable) ∧
    ServerUrl.canonical a.baseUrl = "https://Öx" ∧ a.address = b.address ∧
      config.KeepsLast a record other ∧
      ((config.set record).set other).draft request = .ok other := by
  intro host a b start config record other request
  have hscheme : ServerUrl.https ∈ ServerUrl.schemes := ServerUrl.mem_schemes_iff.2 (.inr rfl)
  have hhost : ¬ ServerUrl.https.BaresEnd ['Ö', 'X'] := by
    rintro (hnil | ⟨c, ⟨⟩, hblank | hslash⟩ | hending)
    · cases hnil
    · exact absurd hblank (by decide)
    · exact absurd hslash (by decide)
    · exact absurd hending (by decide)
  have hroom : a.normalRoom = b.normalRoom := by decide
  have hreach : config.Reachable := ⟨"", start, _, rfl, rfl⟩
  have hspace : ∀ c ∈ [' '], Unicode.isBlank c := List.forall_mem_singleton.2 (by decide)
  have ha : ServerUrl.https.Spells host a.baseUrl.toList := by
    have hurl : a.baseUrl.toList = [' '] ++ ("HTTPS://Öx:443//".toList ++ [' ']) := by decide
    rw [hurl]
    exact .intro 2 hspace hspace (.inr rfl) (by decide)
  have hb : ServerUrl.https.Spells host b.baseUrl.toList := by
    have hurl : b.baseUrl.toList = [] ++ ("https://ÖX".toList ++ []) := by decide
    rw [hurl]
    exact .intro 0 (List.forall_mem_nil _) (List.forall_mem_nil _) (.inl rfl) (by decide)
  obtain ⟨hspells, hone⟩ := spellings_are_one_community hscheme hhost
  obtain ⟨haddress, hkeeps⟩ := hone a b ha hb hroom
  have hlast : config.KeepsLast a record other := hkeeps hreach record other rfl rfl
  have htarget : request.target = .ok (.community a.address, .community { peer := a }) := by
    rw [Request.target, Community.parse_keyText]
    rfl
  exact ⟨⟨hscheme, hhost, ha, hb, hroom, hreach⟩, (hspells _).1 ha, haddress, hlast,
    hlast.drafted request _ _ a htarget rfl ⟨rfl, rfl⟩⟩

end Config
end SyncedConfig
