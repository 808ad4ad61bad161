import AtriumVerified.Ingest.Proofs.SchemaProofs
import AtriumVerified.Core.Proofs.InstantProofs
import AtriumVerified.Lib.RegexLanguage

/-!
# What is taken out of texts

Times and attachments, and when the schema of a message takes them: a time with a year of four
digits, and an attachment whose URL is one. Inline links, autolinks and bare URLs that are uploads
always have such a URL.
-/

namespace Ingest

open Js Core Regex

/-! ## Times -/

def PlainYear (ms : Int) : Prop := Calendar.firstMs ≤ ms ∧ ms ≤ Calendar.lastMs

/-- The moment of a time that is written in a source. -/
def momentOf (platform : Platform) (value : String) : Option Int :=
  platform.parseDate (String.ofList (trim value.toList))

theorem normalizeTimestamp_ok {platform : Platform} {value ts : String}
    (h : normalizeTimestamp platform value = .ok ts) :
    ∃ ms, momentOf platform value = some ms ∧ ts = toISOString ms := by
  unfold normalizeTimestamp at h
  split at h
  · split at h
    · rename_i ms hms
      cases h
      exact ⟨ms, hms, rfl⟩
    · cases h
  · cases h

theorem isDigit_of_canonical {text : String} (h : canonicalTimestamp text = true) :
    ∃ c rest, text.toList = c :: rest ∧ isDigit c = true := by
  obtain ⟨d, hd, htext⟩ := exists_date h
  obtain ⟨y1, y2, y3, y4, m1, m2, d1, d2, h1, h2, n1, n2, s1, s2, f1, f2, f3, hchars, hdigits, -⟩ :=
    isoText_chars hd
  exact ⟨y1, _, htext.trans hchars, hdigits y1 List.mem_cons_self⟩

theorem canonicalTimestamp_toISOString_iff {ms : Int} :
    canonicalTimestamp (toISOString ms) = true ↔ PlainYear ms := by
  unfold toISOString
  split
  · rename_i hyear
    exact iff_of_true
      (canonicalTimestamp_isoText (Calendar.fromMillis_valid hyear.1 hyear.2) String.toList_ofList)
      hyear
  · rename_i hyear
    refine iff_of_false (fun hcanonical => ?_) hyear
    obtain ⟨c, rest, htext, hdigit⟩ := isDigit_of_canonical hcanonical
    rw [String.toList_ofList] at htext
    obtain ⟨rfl, -⟩ := List.cons.inj htext
    split at hdigit
    · exact absurd hdigit (by decide)
    · exact absurd hdigit (by decide)

/-! ## Names -/

section Attachments

variable {platform : Platform} {body : String}

theorem nameFor_ne_empty (alt url : String) : nameFor platform alt url ≠ "" := by
  unfold nameFor
  split
  · rename_i halt
    intro heq
    exact halt (String.ofList_injective heq)
  · cases hname : fileNameOf platform url with
    | none =>
      rw [Option.getD_none]
      decide
    | some name =>
      rw [Option.getD_some]
      obtain ⟨parsed, -, hname⟩ := Option.bind_eq_some_iff.mp hname
      obtain ⟨last, hlast, hname⟩ := Option.bind_eq_some_iff.mp hname
      obtain ⟨decoded, hdecoded, hname⟩ := Option.bind_eq_some_iff.mp hname
      cases hname
      have hne : last ≠ [] := by
        have hkept := List.of_mem_filter (List.mem_of_getLast? hlast)
        rintro rfl
        cases hkept
      intro heq
      exact decodeURIComponent_ne_nil hne hdecoded (String.ofList_injective heq)

/-! ## One attachment for each URL -/

/-- Where `found` comes to, from what it has. -/
theorem mem_firstOfEach {P : String → Prop} (found : List Candidate) (kept : List IngestAttachment)
    (hkept : ∀ attachment ∈ kept, attachment.name ≠ "" ∧ attachment.contentType = none) :
    let all := found.foldl (fun kept candidate =>
      if kept.any fun attachment => attachment.url == candidate.url then kept
      else kept ++ [{ name := nameFor platform candidate.alt candidate.url, url := candidate.url }])
      kept
    (∀ attachment ∈ all, attachment.name ≠ "" ∧ attachment.contentType = none) ∧
      ((∀ attachment ∈ all, P attachment.url) ↔
        (∀ attachment ∈ kept, P attachment.url) ∧ ∀ candidate ∈ found, P candidate.url) := by
  induction found generalizing kept with
  | nil => exact ⟨hkept, by simp⟩
  | cons candidate rest ih =>
    rw [List.foldl_cons]
    split
    · rename_i hheld
      obtain ⟨hnames, hurls⟩ := ih kept hkept
      refine ⟨hnames, hurls.trans ?_⟩
      rw [List.forall_mem_cons]
      refine and_congr_right fun hall => (and_iff_right ?_).symm
      obtain ⟨attachment, hmem, hurl⟩ := List.any_eq_true.mp hheld
      rw [← beq_iff_eq.mp hurl]
      exact hall attachment hmem
    · have hkept' : ∀ attachment ∈ kept ++ [(⟨nameFor platform candidate.alt candidate.url,
          candidate.url, none⟩ : IngestAttachment)],
          attachment.name ≠ "" ∧ attachment.contentType = none := by
        intro attachment hmem
        rcases List.mem_append.mp hmem with hmem | hmem
        · exact hkept attachment hmem
        · cases List.mem_singleton.mp hmem
          exact ⟨nameFor_ne_empty _ _, rfl⟩
      obtain ⟨hnames, hurls⟩ := ih _ hkept'
      refine ⟨hnames, hurls.trans ?_⟩
      rw [List.forall_mem_append, List.forall_mem_singleton, List.forall_mem_cons, and_assoc]

/-! ## URLs that are written out -/

/-- The text begins with small letters and `://`. -/
def StartsScheme (text : List Char) : Prop :=
  ∃ scheme rest, text = scheme ++ ("://".toList ++ rest) ∧ ∀ c ∈ scheme, inRange 'a' 'z' c = true

theorem language_httpUrl {ends : Char → Bool} {text : List Char}
    (h : Language (httpUrl ends) text) : StartsScheme text := by
  obtain ⟨http, _, rfl, hhttp, secure, _, rfl, hsecure, slashes, rest, rfl, hslashes, -⟩ := h
  rw [language_lit.mp hhttp, language_lit.mp hslashes]
  obtain ⟨parts, rfl, -, hparts⟩ := hsecure
  have hletters : (∀ c ∈ "http".toList, inRange 'a' 'z' c = true) ∧
      ∀ c ∈ "s".toList, inRange 'a' 'z' c = true := by decide
  refine ⟨"http".toList ++ parts.flatten, rest, by simp only [List.append_assoc], ?_⟩
  intro c hc
  rcases List.mem_append.mp hc with hc | hc
  · exact hletters.1 c hc
  · obtain ⟨part, hpart, hc⟩ := List.mem_flatten.mp hc
    rw [language_lit.mp (hparts part hpart)] at hc
    exact hletters.2 c hc

theorem not_captures_lit {word : String} {i : Nat} {text : List Char} :
    ¬ Captures (lit word) i text := by
  unfold lit
  induction word.toList with
  | nil => exact id
  | cons c rest ih => exact fun h => h.elim id ih

theorem not_captures_many_one {accepts : Char → Bool} {i : Nat} {text : List Char} :
    ¬ Captures (many (.one accepts)) i text := id

theorem not_captures_opt_lit {word : String} {i : Nat} {text : List Char} :
    ¬ Captures (opt (lit word)) i text := not_captures_lit

theorem not_captures_httpUrl {ends : Char → Bool} {i : Nat} {text : List Char} :
    ¬ Captures (httpUrl ends) i text := by
  rintro (h | h | h | h | h)
  · exact not_captures_lit h
  · exact not_captures_opt_lit h
  · exact not_captures_lit h
  · exact not_captures_many_one h
  · exact h

theorem captures_inlineTarget {index i : Nat} {text : List Char}
    (h : Captures (inlineTarget index) i text) : StartsScheme text := by
  rcases h with h | h | h | (⟨-, h⟩ | h) | h | h | h | h
  · exact absurd h not_captures_lit
  · exact absurd h not_captures_many_one
  · exact absurd h not_captures_opt_lit
  · exact language_httpUrl h
  · exact absurd h not_captures_httpUrl
  · exact absurd h not_captures_opt_lit
  · exact absurd h not_captures_many_one
  · exact absurd h not_captures_lit
  · exact h.elim

theorem captures_inlineLink {text : List Char} (h : Captures inlineLink 3 text) :
    StartsScheme text := by
  rcases h with (⟨h, -⟩ | h) | h | (⟨h, -⟩ | h) | h | h | h
  · exact absurd h (by decide)
  · exact (h.elim id id).elim
  · exact absurd h not_captures_lit
  · exact absurd h (by decide)
  · exact absurd h not_captures_many_one
  · exact absurd h not_captures_lit
  · exact captures_inlineTarget h
  · exact h.elim

theorem captures_autolink {i : Nat} {text : List Char} (h : Captures autolink i text) :
    StartsScheme text := by
  rcases h with h | (⟨-, h⟩ | h) | h | h
  · exact absurd h not_captures_lit
  · exact language_httpUrl h
  · exact absurd h not_captures_httpUrl
  · exact absurd h not_captures_lit
  · exact h.elim

/-- Without the punctuation behind it a URL still begins so. -/
theorem startsScheme_removeFirst {text : List Char} (h : StartsScheme text) :
    StartsScheme (removeFirst trailingPunctuation text) := by
  unfold removeFirst
  split
  case h_2 => exact h
  case h_1 first last heq =>
    obtain ⟨⟨passed, hbefore, hafter⟩, hlast, matched, hmatched, hread, -, -⟩ := search_matched heq
    have hend : last.after = [] := mem_results_finish hlast
    obtain ⟨punctuation, _, rfl, hpunctuation, _, _, rfl, rfl, rfl⟩ := hmatched
    obtain ⟨-, hpunctuation⟩ := language_rep_one.mp hpunctuation
    obtain ⟨scheme, rest, rfl, hscheme⟩ := h
    simp only [hread, hend, List.append_nil] at hafter hbefore
    rw [hbefore, List.reverse_reverse, hend, List.append_nil]
    rw [← List.append_assoc] at hafter
    obtain ⟨tail, hpassed, -⟩ | ⟨tail, hstart, hremoved⟩ := List.append_eq_append_iff.mp hafter
    · exact ⟨scheme, tail, by rw [hpassed, List.append_assoc], hscheme⟩
    · -- the last slash of `://` is not removed
      have hslash : tail = [] := by
        rcases List.eq_nil_or_concat tail with hnil | ⟨front, c, rfl⟩
        · exact hnil
        · have hlastChar : c = '/' := by
            have hlasts := congrArg List.getLast? hstart
            simp only [List.concat_eq_append, ← List.append_assoc, List.getLast?_append,
              List.getLast?_singleton, Option.some_or] at hlasts
            exact (Option.some.inj hlasts).symm
          have hmem : c ∈ punctuation := by rw [hremoved]; simp
          rw [hlastChar] at hmem
          exact absurd (hpunctuation '/' hmem) (by decide)
      rw [hslash, List.append_nil] at hstart
      exact ⟨scheme, [], by rw [← hstart, List.append_nil], hscheme⟩

theorem mem_placed {start place : Nat} {hits : List Hit} {hit : Hit}
    (h : (place, hit) ∈ placed start hits) : hit ∈ hits := by
  induction hits generalizing start with
  | nil => cases h
  | cons first rest ih =>
    rcases List.mem_cons.mp h with heq | h
    · cases heq
      exact List.mem_cons_self
    · exact List.mem_cons_of_mem _ (ih h)

theorem mem_candidatesOf {r : Pattern} {read : Nat → Hit → Option Candidate} {candidate : Candidate}
    (h : candidate ∈ candidatesOf r read body) :
    candidate.url ≠ "" ∧ ∃ place hit, read place hit = some candidate ∧
      Language r hit.matched ∧ ∀ g ∈ hit.groups, Captures r g.1 g.2 := by
  obtain ⟨hfound, hurl⟩ := List.mem_filter.mp h
  obtain ⟨⟨place, hit⟩, hmem, hread⟩ := List.mem_filterMap.mp hfound
  exact ⟨bne_iff_ne.mp hurl, place, hit, hread, scan_matched r body.toList hit (mem_placed hmem)⟩

theorem captured_startsScheme {r : Pattern} {hit : Hit} {index : Nat}
    (hgroups : ∀ g ∈ hit.groups, Captures r g.1 g.2) (hne : captured hit index ≠ "")
    (hr : ∀ text, Captures r index text → StartsScheme text) :
    StartsScheme (captured hit index).toList := by
  unfold captured at hne ⊢
  rw [String.toList_ofList]
  cases hgroup : hit.group? index with
  | none =>
    rw [hgroup] at hne
    exact absurd rfl hne
  | some text =>
    obtain ⟨g, hg, rfl⟩ := Option.map_eq_some_iff.mp hgroup
    have hindex : g.1 = index := by simpa using List.find?_some hg
    exact hr _ (hindex ▸ hgroups g (List.mem_of_find?_eq_some hg))

theorem inlineLinks_startScheme : ∀ candidate ∈ inlineLinks body,
    StartsScheme candidate.url.toList := by
  intro candidate h
  obtain ⟨hne, place, hit, hread, -, hgroups⟩ := mem_candidatesOf h
  cases hread
  exact captured_startsScheme hgroups hne fun _ => captures_inlineLink

theorem autolinks_startScheme : ∀ candidate ∈ autolinks body,
    StartsScheme candidate.url.toList := by
  intro candidate h
  obtain ⟨hne, place, hit, hread, -, hgroups⟩ := mem_candidatesOf h
  cases hread
  exact captured_startsScheme hgroups hne fun _ => captures_autolink

theorem bareUrls_startScheme : ∀ candidate ∈ bareUrls body,
    StartsScheme candidate.url.toList := by
  intro candidate h
  obtain ⟨hne, place, hit, hread, hmatched, -⟩ := mem_candidatesOf h
  cases hread
  dsimp only
  rw [String.toList_ofList]
  exact startsScheme_removeFirst (language_httpUrl hmatched)

/-- `z.url({ protocol: /^https?$/ })` takes what begins with letters and `://` and what `new URL`
reads with one of the two protocols. -/
def TakesHttp (platform : Platform) : Prop :=
  ∀ url parsed, StartsScheme url.toList → platform.parseUrl url = some parsed →
    parsed.protocol = "https:" ∨ parsed.protocol = "http:" → (platform.readUrl url).isSome

variable [Unicode]

theorem extractAttachments_fit_iff :
    (∀ attachment ∈ extractAttachments platform body, FitAttachment platform attachment) ↔
      ∀ candidate ∈ candidates platform body, (platform.readUrl candidate.url).isSome := by
  obtain ⟨hnames, hurls⟩ := @mem_firstOfEach platform (fun url => (platform.readUrl url).isSome)
    ((candidates platform body).mergeSort fun a b => decide (a.at_ ≤ b.at_)) [] (by simp)
  have hfit : (∀ attachment ∈ extractAttachments platform body, FitAttachment platform attachment) ↔
      ∀ attachment ∈ extractAttachments platform body,
        (platform.readUrl attachment.url).isSome := by
    refine forall₂_congr fun attachment hmem => ⟨FitAttachment.url, fun hurl => ?_⟩
    obtain ⟨hname, hcontentType⟩ := hnames attachment hmem
    refine ⟨hname, hurl, fun contentType heq => ?_⟩
    rw [hcontentType] at heq
    cases heq
  rw [hfit]
  refine hurls.trans ?_
  simp only [List.not_mem_nil, false_implies, implies_true, true_and, List.mem_mergeSort]

theorem isAttachmentUrl_protocol {url : String} (h : isAttachmentUrl platform url = true) :
    ∃ parsed, platform.parseUrl url = some parsed ∧
      (parsed.protocol = "https:" ∨ parsed.protocol = "http:") := by
  unfold isAttachmentUrl at h
  split at h
  · cases h
  · rename_i parsed hparsed
    refine ⟨parsed, hparsed, ?_⟩
    split at h
    · cases h
    · rename_i hprotocol
      tauto

theorem uploads_taken (hplatform : TakesHttp platform) {found : List Candidate}
    (hfound : ∀ candidate ∈ found, StartsScheme candidate.url.toList) :
    ∀ candidate ∈ uploads platform found, (platform.readUrl candidate.url).isSome := by
  intro candidate hmem
  obtain ⟨hmem, hupload⟩ := List.mem_filter.mp hmem
  obtain ⟨parsed, hparsed, hprotocol⟩ := isAttachmentUrl_protocol hupload
  exact hplatform _ parsed (hfound candidate hmem) hparsed hprotocol

/-- Every image of a text, whatever the syntax, and every upload that it refers to by a label has a
URL that is taken. -/
structure PicturesTaken (platform : Platform) (body : String) : Prop where
  inline : ∀ image ∈ inlineImages body, (platform.readUrl image.url).isSome
  reference : ∀ image ∈ referenceImages body, (platform.readUrl image.url).isSome
  html : ∀ image ∈ htmlImages body, (platform.readUrl image.url).isSome
  labelled : ∀ link ∈ referenceLinks body, isAttachmentUrl platform link.url = true →
    (platform.readUrl link.url).isSome

theorem attachments_fit_iff (hplatform : TakesHttp platform) :
    (∀ attachment ∈ extractAttachments platform body, FitAttachment platform attachment) ↔
      PicturesTaken platform body := by
  have hinline := uploads_taken hplatform (@inlineLinks_startScheme body)
  have hauto := uploads_taken hplatform (@autolinks_startScheme body)
  have hbare := uploads_taken hplatform (@bareUrls_startScheme body)
  rw [extractAttachments_fit_iff]
  simp only [candidates, List.forall_mem_append]
  constructor
  · rintro ⟨⟨⟨⟨⟨⟨hinlineImages, -⟩, hreference⟩, hlabelled⟩, hhtml⟩, -⟩, -⟩
    refine ⟨hinlineImages, hreference, hhtml, fun link hmem hupload => ?_⟩
    exact hlabelled link (List.mem_filter.mpr ⟨hmem, hupload⟩)
  · intro h
    refine ⟨⟨⟨⟨⟨⟨h.inline, hinline⟩, h.reference⟩, fun link hmem => ?_⟩, h.html⟩, hauto⟩, hbare⟩
    obtain ⟨hmem, hupload⟩ := List.mem_filter.mp hmem
    exact h.labelled link hmem hupload

end Attachments

end Ingest
