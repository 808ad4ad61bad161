import AtriumVerified.Lib.Split
import AtriumVerified.Core.Proofs.ReceiptProofs

/-!
# Proofs: which later messages the scan for a revision reads

The scan starts behind the first citation or behind an earlier message that bears the statement, and
is made only when something follows the last citation. Citing more moves the first of these up and the
second down, so it never hides a message that stopped the scan. Within one message the scan looks for
a retraction marker at its first occurrence only.
-/

namespace Core

variable {statement : Text} {ids more : List Id} {messages : List ProvenanceMessage}
  {policy : ReceiptPolicy}

/-! ## The messages behind the scan floor -/

def afterFloor (statement : Text) (ids : List Id) (messages : List ProvenanceMessage) :
    List ProvenanceMessage :=
  match messages.findIdx? (citedIn ids) with
  | none => []
  | some first => messages.drop (scanFloor statement messages first + 1)

theorem afterFloor_eq {first : Nat} (h : messages.findIdx? (citedIn ids) = some first) :
    afterFloor statement ids messages =
      messages.drop (scanFloor statement messages first + 1) := by
  unfold afterFloor
  rw [h]

/-! ## Citing more -/

theorem citedIn_mono (hmore : ids ⊆ more) {message : ProvenanceMessage}
    (h : citedIn ids message = true) : citedIn more message = true := by
  unfold citedIn at *
  rw [List.contains_iff_mem] at *
  exact hmore h

theorem first_le_first {p q : ProvenanceMessage → Bool} {first first' : Nat}
    (hpq : ∀ message, p message = true → q message = true)
    (hp : messages.findIdx? p = some first) (hq : messages.findIdx? q = some first') :
    first' ≤ first := by
  obtain ⟨before, c, rest, hsplit, hlen, hc, -⟩ := split_at_first hp
  obtain ⟨before', c', rest', hsplit', hlen', -, hbefore'⟩ := split_at_first hq
  by_contra hlt
  have hat : messages[first]? = some c := by
    rw [hsplit, ← hlen]
    simp
  have hmem : c ∈ before' := by
    rw [hsplit', List.getElem?_append_left (by omega)] at hat
    exact List.mem_of_getElem? hat
  have hnot := hbefore' c hmem
  rw [hpq c hc] at hnot
  cases hnot

theorem last_le_last {p q : ProvenanceMessage → Bool} {last last' : Nat}
    (hpq : ∀ message, p message = true → q message = true)
    (hp : lastIndex p messages = some last) (hq : lastIndex q messages = some last') :
    last ≤ last' := by
  obtain ⟨before, c, rest, hsplit, hlen, hc, -⟩ := split_at_last hp
  obtain ⟨before', c', rest', hsplit', hlen', -, hrest'⟩ := split_at_last hq
  by_contra hlt
  have hat : messages[last]? = some c := by
    rw [hsplit, ← hlen]
    simp
  have hmem : c ∈ rest' := by
    have hdrop : rest' = messages.drop (last' + 1) := by
      rw [hsplit', ← hlen']
      simp
    rw [hdrop]
    refine List.mem_of_getElem? (i := last - (last' + 1)) ?_
    rw [List.getElem?_drop, show last' + 1 + (last - (last' + 1)) = last by omega]
    exact hat
  have hnot := hrest' c hmem
  rw [hpq c hc] at hnot
  cases hnot

theorem scanFloor_mono {first first' : Nat} (h : first' ≤ first) :
    scanFloor statement messages first' ≤ scanFloor statement messages first := by
  unfold scanFloor
  split
  · exact h
  · omega

theorem exists_first_last (h : ∃ message ∈ messages, message.id ∈ ids) :
    ∃ first last, messages.findIdx? (citedIn ids) = some first ∧
      lastIndex (citedIn ids) messages = some last := by
  obtain ⟨message, hmem, hid⟩ := h
  have hcited : citedIn ids message = true := List.contains_iff_mem.mpr hid
  cases hfirst : messages.findIdx? (citedIn ids) with
  | none =>
    have hnot := List.findIdx?_eq_none_iff.mp hfirst message hmem
    rw [hcited] at hnot
    cases hnot
  | some first =>
    cases hlast : lastIndex (citedIn ids) messages with
    | none =>
      have hnot := lastIndex_eq_none hlast message hmem
      rw [hcited] at hnot
      cases hnot
    | some last => exact ⟨first, last, rfl, rfl⟩

theorem uncited_after {last : Nat} (hlast : lastIndex (citedIn ids) messages = some last)
    (h : messages.drop (last + 1) ≠ []) :
    ((messages.drop (last + 1)).any fun message => !citedIn ids message) = true := by
  obtain ⟨before, c, rest, hsplit, hlen, -, hrest⟩ := split_at_last hlast
  have hdrop : messages.drop (last + 1) = rest := by
    rw [hsplit, ← hlen]
    simp
  rw [hdrop] at h ⊢
  obtain ⟨next, others, rfl⟩ := List.exists_cons_of_ne_nil h
  rw [List.any_cons, hrest next List.mem_cons_self]
  rfl

section Scan

variable [Unicode]

theorem scanMessage_of_none {scanned : Nat}
    (h : laterRevision statement ids messages policy = .none scanned) {message : ProvenanceMessage}
    (hmem : message ∈ afterFloor statement ids messages) :
    scanMessage statement (routingTokens statement) policy message = none := by
  obtain ⟨-, -, -, first, -, hfirst, -, -, -, hclean⟩ := laterRevision_none h
  rw [afterFloor_eq hfirst] at hmem
  exact hclean message hmem

theorem scanLater_of_clean {wanted : List Text} {later : List ProvenanceMessage}
    (h : ∀ message ∈ later, scanMessage statement wanted policy message = none) :
    scanLater statement wanted policy later = .none later.length := by
  unfold scanLater
  rw [List.findSome?_eq_none_iff.mpr h]

/-- Where a scan made with more citations found nothing, so does the one with fewer: it is made too,
and reads no message that the other did not. -/
theorem none_of_more {scanned : Nat} (hcited : ∃ message ∈ messages, message.id ∈ ids)
    (hmore : ids ⊆ more)
    (h : laterRevision statement more messages receiptPolicy = .none scanned) :
    ∃ fewer, laterRevision statement ids messages receiptPolicy = .none fewer := by
  obtain ⟨hblank, hwanted, hlong, first', last', hfirst', hlast', hafter', hcount', hclean'⟩ :=
    laterRevision_none h
  obtain ⟨first, last, hfirst, hlast⟩ := exists_first_last hcited
  have hscanned : receiptPolicy.maxLaterMessagesScanned = 200 := rfl
  have hfloor : scanFloor statement messages first' ≤ scanFloor statement messages first :=
    scanFloor_mono (first_le_first (fun _ => citedIn_mono hmore) hfirst hfirst')
  have hends : last ≤ last' := last_le_last (fun _ => citedIn_mono hmore) hlast hlast'
  have hafter : messages.drop (last + 1) ≠ [] := by
    intro hnone
    have hlen := congrArg List.length hnone
    rw [List.length_drop, List.length_nil] at hlen
    rw [List.drop_eq_nil_of_le (by omega)] at hafter'
    cases hafter'
  have hcount : ¬ 200 < (messages.drop (scanFloor statement messages first + 1)).length := by
    rw [List.length_drop] at hcount' ⊢
    omega
  have hclean : ∀ message ∈ messages.drop (scanFloor statement messages first + 1),
      scanMessage statement (routingTokens statement) receiptPolicy message = none := by
    intro message hmessage
    refine hclean' message (List.drop_subset_drop_left messages ?_ hmessage)
    omega
  refine ⟨(messages.drop (scanFloor statement messages first + 1)).length, ?_⟩
  rw [laterRevision_made hblank hwanted hlong hfirst hlast (uncited_after hlast hafter),
    if_neg hcount]
  exact scanLater_of_clean hclean

/-- Citing more never hides a revision: where the scan finds one or is not made, it finds one or is
not made with any larger set of citations. -/
theorem citing_more_hides_nothing (hcited : ∃ message ∈ messages, message.id ∈ ids)
    (hmore : ids ⊆ more)
    (h : ∀ scanned, laterRevision statement ids messages receiptPolicy ≠ .none scanned) :
    ∀ scanned, laterRevision statement more messages receiptPolicy ≠ .none scanned := by
  intro scanned hnone
  obtain ⟨fewer, hfewer⟩ := none_of_more hcited hmore hnone
  exact h fewer hfewer

end Scan

/-- A decision, a message that takes it back, and what was said after. -/
def withdrawnWindow : List ProvenanceMessage :=
  [⟨"m1", "alice", "We ship the export on Friday."⟩, ⟨"m2", "alice", "Scratch that, it is not ready."⟩,
    ⟨"m3", "bob", "Lunch is at noon."⟩, ⟨"m4", "bob", "The build is green."⟩]

theorem citing_lunch_hides_nothing :
    @laterRevision Unicode.ascii "We ship the export on Friday.".toList ["m1"] withdrawnWindow
        receiptPolicy =
      .revision ⟨"m2", "alice", "Scratch that, it is not ready."⟩ ["scratch that".toList] ∧
    ∀ scanned, @laterRevision Unicode.ascii "We ship the export on Friday.".toList ["m1", "m3"]
      withdrawnWindow receiptPolicy ≠ .none scanned := by
  let _ : Unicode := Unicode.ascii
  have hcited : ∃ message ∈ withdrawnWindow, message.id ∈ ["m1"] :=
    ⟨_, List.mem_cons_self, by decide⟩
  have hfound : @laterRevision Unicode.ascii "We ship the export on Friday.".toList ["m1"]
      withdrawnWindow receiptPolicy =
        .revision ⟨"m2", "alice", "Scratch that, it is not ready."⟩ ["scratch that".toList] := by
    decide +kernel
  refine ⟨hfound, citing_more_hides_nothing hcited (by decide) ?_⟩
  intro scanned
  rw [hfound]
  rintro ⟨⟩

/-! ## Retraction markers -/

section Markers

variable {text phrase before after : Text}

/-- Neither side of an occurrence belongs to a word. -/
def Delimited (before after : Text) : Prop :=
  before.getLast?.any markerWordChar = false ∧ after.head?.any markerWordChar = false

def StandsIn (phrase text : Text) : Prop :=
  ∃ before after, text = before ++ (phrase ++ after) ∧ Delimited before after

/-- A phrase stands in a text, and what a search from the left comes to first is a part of a longer
word. -/
def Overlooked (phrase text : Text) : Prop :=
  StandsIn phrase text ∧ ∃ before after, text = before ++ (phrase ++ after) ∧
    ¬ phrase <:+: before ++ phrase.dropLast ∧ ¬ Delimited before after

theorem containsPhrase_first (hphrase : phrase ≠ [])
    (hfirst : ¬ phrase <:+: before ++ phrase.dropLast) :
    containsPhrase (before ++ (phrase ++ after)) phrase = true ↔ Delimited before after := by
  unfold containsPhrase Delimited
  rw [Js.splitAtFirst_append hphrase [] after hfirst, List.append_nil]
  dsimp only
  rw [List.head?_reverse, Bool.and_eq_true, Bool.not_eq_true', Bool.not_eq_true']

theorem containsPhrase_of_standsIn (hphrase : phrase ≠ []) (hstands : StandsIn phrase text)
    (h : ¬ Overlooked phrase text) : containsPhrase text phrase = true := by
  have hinfix : phrase <:+: text := by
    obtain ⟨before, after, rfl, -⟩ := hstands
    exact ⟨before, after, List.append_assoc _ _ _⟩
  obtain ⟨before, after, rfl, hfirst⟩ := Js.exists_first_occurrence hphrase hinfix
  rw [containsPhrase_first hphrase hfirst]
  by_contra hword
  exact h ⟨hstands, before, after, rfl, hfirst, hword⟩

theorem retractionMarker_ne_nil {marker : String} (h : marker ∈ retractionMarkers) :
    marker.toList ≠ [] := by
  have hall : retractionMarkers.all (fun marker => !marker.toList.isEmpty) = true := by decide
  have hone := List.all_eq_true.mp hall marker h
  simpa using hone

variable [Unicode]

theorem containsPhrase_of_clean {message : ProvenanceMessage} {wanted : List Text}
    (h : scanMessage statement wanted policy message = none) {marker : String}
    (hmarker : marker ∈ retractionMarkers) :
    containsPhrase (normalizeForRouting message.ownText) marker.toList = false := by
  unfold scanMessage at h
  dsimp only at h
  split at h
  · cases h
  · next hnone => simpa using List.find?_eq_none.mp hnone marker hmarker

/-- A scan that found nothing has missed no marker exactly when none of them stands in a message
behind one of its own occurrences inside a longer word. -/
theorem no_marker_missed_iff {scanned : Nat}
    (h : laterRevision statement ids messages policy = .none scanned) :
    (∀ message ∈ afterFloor statement ids messages, ∀ marker ∈ retractionMarkers,
      ¬ StandsIn marker.toList (normalizeForRouting message.ownText)) ↔
      ∀ message ∈ afterFloor statement ids messages, ∀ marker ∈ retractionMarkers,
        ¬ Overlooked marker.toList (normalizeForRouting message.ownText) := by
  constructor
  · intro hnone message hmessage marker hmarker hover
    exact hnone message hmessage marker hmarker hover.1
  · intro hsearched message hmessage marker hmarker hstands
    have hread := containsPhrase_of_clean (scanMessage_of_none h hmessage) hmarker
    have hfound := containsPhrase_of_standsIn (retractionMarker_ne_nil hmarker) hstands
      (hsearched message hmessage marker hmarker)
    rw [hread] at hfound
    cases hfound

end Markers

def correctedWindow : List ProvenanceMessage :=
  [⟨"m1", "alice", "We ship the export on Friday."⟩,
    ⟨"m2", "alice", "I read all corrections. Correction: the launch is off."⟩,
    ⟨"m3", "bob", "Lunch is at noon."⟩]

theorem correctedWindow_clean :
    @laterRevision Unicode.ascii "We ship the export on Friday.".toList ["m1"] correctedWindow
      receiptPolicy = .none 2 := by decide +kernel

theorem correction_standsIn :
    ∃ message ∈ afterFloor "We ship the export on Friday.".toList ["m1"] correctedWindow,
      ∃ marker ∈ retractionMarkers,
        StandsIn marker.toList (@normalizeForRouting Unicode.ascii message.ownText) := by
  have hfloor : afterFloor "We ship the export on Friday.".toList ["m1"] correctedWindow =
      correctedWindow.drop 1 := by decide +kernel
  have hrouted : @normalizeForRouting Unicode.ascii
      "I read all corrections. Correction: the launch is off.".toList =
        "i read all corrections. ".toList ++
          ("correction".toList ++ ": the launch is off.".toList) := by decide +kernel
  have hown : stripReplyBlockquotes "I read all corrections. Correction: the launch is off.".toList =
      "I read all corrections. Correction: the launch is off.".toList := by decide +kernel
  rw [hfloor]
  refine ⟨_, List.mem_cons_self, "correction", by decide, ?_⟩
  unfold ProvenanceMessage.ownText ProvenanceMessage.text
  rw [hown, hrouted]
  exact ⟨_, _, rfl, by decide, by decide⟩

/-- The scan finds nothing, and one of the messages it read says "Correction:". -/
theorem correction_after_corrections_missed :
    @laterRevision Unicode.ascii "We ship the export on Friday.".toList ["m1"] correctedWindow
        receiptPolicy = .none 2 ∧
      ¬ ∀ message ∈ afterFloor "We ship the export on Friday.".toList ["m1"] correctedWindow,
        ∀ marker ∈ retractionMarkers,
          ¬ StandsIn marker.toList (@normalizeForRouting Unicode.ascii message.ownText) := by
  refine ⟨correctedWindow_clean, ?_⟩
  intro hnone
  obtain ⟨message, hmessage, marker, hmarker, hstands⟩ := correction_standsIn
  exact hnone message hmessage marker hmarker hstands

theorem correction_overlooked :
    ¬ ∀ message ∈ afterFloor "We ship the export on Friday.".toList ["m1"] correctedWindow,
      ∀ marker ∈ retractionMarkers,
        ¬ Overlooked marker.toList (@normalizeForRouting Unicode.ascii message.ownText) := by
  let _ : Unicode := Unicode.ascii
  intro hsearched
  obtain ⟨message, hmessage, marker, hmarker, hstands⟩ := correction_standsIn
  exact (no_marker_missed_iff correctedWindow_clean).mpr hsearched message hmessage marker hmarker
    hstands

end Core
