import Mathlib.Data.List.Nodup
import AtriumVerified.Web.TypedReferences

/-!
# References survive from keystroke to screen

References that are valid for a body follow one another through it. An edit keeps those that stand
in the common prefix, shifts those in the common suffix, and drops the others, so what is left is
valid for the new body. The server accepts such references when they are numbered in their order,
and what it accepts the screen cuts the body at.
-/

namespace Web

open Server Diff

variable {body before after : Units} {reference other : MessageReference}
  {references : List MessageReference} {cursor : Nat}

/-! ## References that are valid for a body -/

/-- A span of the body that is not empty and reads as its surface, which starts with `@`. -/
structure ValidReference (body : Units) (reference : MessageReference) : Prop where
  nonempty : reference.start < reference.stop
  within : reference.stop ≤ body.length
  atSign : startsWithAt reference.surface = true
  surface : slice body reference.start reference.stop = reference.surface

/-- The spans are valid, ordered, and do not overlap. -/
structure ValidReferences (body : Units) (references : List MessageReference) : Prop where
  each : ∀ reference ∈ references, ValidReference body reference
  ordered : references.Pairwise fun left right => left.stop ≤ right.start

theorem ValidReferences.of_cons (h : ValidReferences body (reference :: references)) :
    ValidReference body reference ∧ ValidReferences body references ∧
      ∀ next ∈ references, reference.stop ≤ next.start := by
  have hordered := List.pairwise_cons.mp h.ordered
  exact ⟨h.each reference List.mem_cons_self,
    ⟨fun next hnext => h.each next (List.mem_cons_of_mem _ hnext), hordered.2⟩, hordered.1⟩

/-! ## One edit -/

theorem mem_carry (h : other ∈ carry before after reference) :
    reference.stop ≤ commonPrefix before after ∧ other = reference ∨
    before.length - commonRest before after ≤ reference.start ∧
      other = { reference with
        start := reference.start + after.length - before.length
        stop := reference.stop + after.length - before.length } := by
  unfold carry at h
  split at h
  · rename_i hfront
    exact .inl ⟨hfront, List.mem_singleton.mp h⟩
  · split at h
    · rename_i hback
      exact .inr ⟨hback, List.mem_singleton.mp h⟩
    · cases h

theorem ValidReference.carry (h : ValidReference before reference)
    (hcarry : other ∈ carry before after reference) : ValidReference after other := by
  have hnonempty := h.nonempty
  have hwithin := h.within
  have hright := commonRest_le_right before after
  rcases mem_carry hcarry with ⟨hfront, rfl⟩ | ⟨hback, rfl⟩
  · exact ⟨hnonempty, by omega, h.atSign, (slice_of_le hfront).trans h.surface⟩
  · refine ⟨?_, ?_, h.atSign, (slice_of_ge hback (Nat.le_of_lt hnonempty)).trans h.surface⟩
    · change reference.start + after.length - before.length
        < reference.stop + after.length - before.length
      omega
    · change reference.stop + after.length - before.length ≤ after.length
      omega

theorem stop_le_start_of_carry {first second left right : MessageReference}
    (hfirst : ValidReference before first) (hsecond : ValidReference before second)
    (h : first.stop ≤ second.start) (hleft : left ∈ carry before after first)
    (hright : right ∈ carry before after second) : left.stop ≤ right.start := by
  have hlen := commonRest_le_right before after
  have hlen' := commonRest_le_left before after
  have hone := hfirst.nonempty
  have htwo := hsecond.nonempty
  rcases mem_carry hleft with ⟨hfront, rfl⟩ | ⟨hback, rfl⟩
  · rcases mem_carry hright with ⟨-, rfl⟩ | ⟨hback', rfl⟩
    · exact h
    · change left.stop ≤ second.start + after.length - before.length
      omega
  · rcases mem_carry hright with ⟨hfront', rfl⟩ | ⟨-, rfl⟩
    · -- the second would stand before the first
      omega
    · change first.stop + after.length - before.length
        ≤ second.start + after.length - before.length
      omega

theorem ValidReferences.reconcile (h : ValidReferences before references) :
    ValidReferences after (reconcileMessageReferences before after references) := by
  unfold reconcileMessageReferences
  split
  · rename_i hsame
    exact hsame ▸ h
  · constructor
    · intro other hother
      obtain ⟨reference, hmem, hcarry⟩ := List.mem_flatMap.mp hother
      exact (h.each reference hmem).carry hcarry
    · rw [List.pairwise_flatMap]
      constructor
      · intro reference _
        unfold Web.carry
        split
        · exact List.pairwise_singleton _ _
        · split
          · exact List.pairwise_singleton _ _
          · exact List.Pairwise.nil
      · refine h.ordered.imp_of_mem ?_
        intro first second hfirst hsecond hle left hleft right hright
        exact stop_le_start_of_carry (h.each first hfirst) (h.each second hsecond) hle hleft hright

theorem mem_reconcile (h : ValidReference before reference) (hmem : reference ∈ references)
    (hcarry : other ∈ carry before after reference) :
    other ∈ reconcileMessageReferences before after references := by
  unfold reconcileMessageReferences
  split
  · rename_i hsame
    subst hsame
    rw [carry, if_pos (by rw [commonPrefix_self]; exact h.within)] at hcarry
    exact List.mem_singleton.mp hcarry ▸ hmem
  · exact List.mem_flatMap.mpr ⟨reference, hmem, hcarry⟩

/-! ## Many edits -/

/-- `reconcileMessageReferences` over the bodies that follow one another. -/
def reconcileEdits : Units → List Units → List MessageReference → List MessageReference
  | _, [], references => references
  | before, after :: edits, references =>
    reconcileEdits after edits (reconcileMessageReferences before after references)

def finalBody : Units → List Units → Units
  | body, [] => body
  | _, after :: edits => finalBody after edits

/-- At each edit the reference lies wholly within the longest common prefix of the two bodies, or
within the longest common suffix of what remains, and moves with it; the last is what becomes of
it. -/
inductive Untouched : Units → List Units → MessageReference → MessageReference → Prop where
  | done (body : Units) (reference : MessageReference) : Untouched body [] reference reference
  | front {before after : Units} {edits : List Units} {reference final : MessageReference}
      (within : reference.stop ≤ commonPrefix before after)
      (rest : Untouched after edits reference final) :
      Untouched before (after :: edits) reference final
  | back {before after : Units} {edits : List Units} {reference final : MessageReference}
      (within : before.length - commonRest before after ≤ reference.start)
      (rest : Untouched after edits { reference with
        start := reference.start + after.length - before.length
        stop := reference.stop + after.length - before.length } final) :
      Untouched before (after :: edits) reference final

theorem ValidReferences.edits {edits : List Units} (h : ValidReferences body references) :
    ValidReferences (finalBody body edits) (reconcileEdits body edits references) := by
  induction edits generalizing body references with
  | nil => exact h
  | cons after edits ih => exact ih h.reconcile

theorem mem_reconcileEdits {edits : List Units} (h : ValidReferences body references)
    (hmem : reference ∈ references) (huntouched : Untouched body edits reference other) :
    other ∈ reconcileEdits body edits references := by
  induction huntouched generalizing references with
  | done body reference => exact hmem
  | front hwithin _ ih =>
    have hvalid := h.each _ hmem
    refine ih h.reconcile (mem_reconcile hvalid hmem ?_)
    rw [carry, if_pos hwithin]
    exact List.mem_singleton_self _
  | @back before after edits reference final hwithin _ ih =>
    have hvalid := h.each _ hmem
    refine ih h.reconcile (mem_reconcile hvalid hmem ?_)
    have hnot : ¬ reference.stop ≤ commonPrefix before after := by
      have hnonempty := hvalid.nonempty
      have hleft := commonRest_le_left before after
      omega
    rw [carry, if_neg hnot, if_pos hwithin]
    exact List.mem_singleton_self _

/-! ## What is sent is accepted -/

/-- The spans are valid and follow one another from a place on. -/
def Chained (body : Units) : Nat → List MessageReference → Prop
  | _, [] => True
  | place, reference :: rest =>
    place ≤ reference.start ∧ ValidReference body reference ∧ Chained body reference.stop rest

theorem chained_of_valid (h : ValidReferences body references)
    (hplace : ∀ reference ∈ references, cursor ≤ reference.start) :
    Chained body cursor references := by
  induction references generalizing cursor with
  | nil => trivial
  | cons reference rest ih =>
    obtain ⟨hvalid, hrest, hnext⟩ := h.of_cons
    exact ⟨hplace reference List.mem_cons_self, hvalid, ih hrest hnext⟩

theorem ValidReferences.sorted (h : ValidReferences body references) :
    references.mergeSort spanLe = references := by
  refine List.mergeSort_of_pairwise (h.ordered.imp_of_mem ?_)
  intro left right hleft _ hle
  have hnonempty := (h.each left hleft).nonempty
  have hlt : left.start < right.start := by omega
  simp [spanLe, hlt]

def number (first : Nat) (references : List MessageReference) : List MessageReference :=
  references.mapIdx fun index reference => { reference with ordinal := first + index }

theorem number_cons (first : Nat) (reference : MessageReference)
    (references : List MessageReference) : number first (reference :: references)
      = { reference with ordinal := first } :: number (first + 1) references := by
  simp only [number, List.mapIdx_cons, Nat.add_zero, Nat.add_assoc, Nat.add_comm 1]

theorem valid_number {first : Nat} (h : ValidReferences body references) :
    ValidReferences body (number first references) := by
  induction references generalizing first with
  | nil => exact h
  | cons reference rest ih =>
    obtain ⟨hvalid, hrest, hnext⟩ := h.of_cons
    have hnumbered : ValidReferences body (number (first + 1) rest) := ih hrest
    rw [number_cons]
    constructor
    · intro other hother
      rcases List.mem_cons.mp hother with rfl | hother
      · exact ⟨hvalid.nonempty, hvalid.within, hvalid.atSign, hvalid.surface⟩
      · exact hnumbered.each other hother
    · refine List.pairwise_cons.mpr ⟨?_, hnumbered.ordered⟩
      intro other hother
      obtain ⟨index, hlt, rfl⟩ := List.mem_mapIdx.mp hother
      exact hnext rest[index] (List.getElem_mem hlt)

theorem normalizeMessageReferences_eq (h : ValidReferences body references) :
    normalizeMessageReferences body references = number 0 references := by
  have hfilter : (references.filter fun reference =>
      slice body reference.start reference.stop == reference.surface) = references := by
    refine List.filter_eq_self.mpr fun reference hmem => ?_
    rw [beq_iff_eq]
    exact (h.each reference hmem).surface
  simp only [normalizeMessageReferences, h.sorted, hfilter, number, Nat.zero_add]

theorem spanChecks_number {ordinals : List Nat} {priorEnd : Int} {index : Nat}
    (h : Chained body cursor references) (hprior : priorEnd ≤ cursor)
    (hordinals : ∀ ordinal ∈ ordinals, ordinal < index) :
    spanChecks body ordinals priorEnd index (number index references) = true := by
  induction references generalizing ordinals priorEnd index cursor with
  | nil => rfl
  | cons reference rest ih =>
    obtain ⟨hplace, hvalid, hrest⟩ := h
    have hfresh : index ∉ ordinals := fun hmem => Nat.lt_irrefl index (hordinals index hmem)
    have hnonempty := hvalid.nonempty
    have hwithin := hvalid.within
    have hlt : ¬ (reference.start : Int) < priorEnd := by omega
    rw [number_cons, spanChecks, if_neg]
    · refine ih hrest (Int.le_refl _) ?_
      intro ordinal hmem
      rcases List.mem_cons.mp hmem with rfl | hmem
      · exact Nat.lt_succ_self _
      · exact Nat.lt_succ_of_lt (hordinals ordinal hmem)
    · simp [hfresh, Nat.not_lt.mpr hwithin, Nat.not_le.mpr hnonempty, hlt, hvalid.atSign,
        hvalid.surface]

theorem spansAccepted_normalize (h : ValidReferences body references) :
    spansAccepted body (normalizeMessageReferences body references) = true := by
  have hnumbered : ValidReferences body (number 0 references) := valid_number h
  rw [normalizeMessageReferences_eq h, spansAccepted, hnumbered.sorted]
  refine spanChecks_number (chained_of_valid h fun _ _ => Nat.zero_le _) ?_ ?_
  · exact (by decide : (-1 : Int) ≤ (0 : Nat))
  · intro ordinal hmem
    cases hmem

/-! ## What is accepted is shown -/

theorem spanChecks_true {ordinals : List Nat} {priorEnd : Int} {index : Nat}
    (h : spanChecks body ordinals priorEnd index references = true) :
    Chained body priorEnd.toNat references ∧
      references.map MessageReference.ordinal = List.range' index references.length := by
  induction references generalizing ordinals priorEnd index with
  | nil => exact ⟨trivial, rfl⟩
  | cons reference rest ih =>
    rw [spanChecks] at h
    split at h
    · cases h
    · rename_i hgood
      simp only [Bool.or_eq_true, List.contains_iff_mem, bne_iff_ne, ne_eq, decide_eq_true_eq,
        Bool.not_eq_true', Bool.not_eq_false, not_or, Decidable.not_not, Nat.not_lt,
        Nat.not_le, Int.not_lt] at hgood
      obtain ⟨⟨⟨⟨⟨⟨-, hordinal⟩, hwithin⟩, hnonempty⟩, hplace⟩, hat⟩, hsurface⟩ := hgood
      obtain ⟨hrest, hordinals⟩ := ih h
      refine ⟨⟨by omega, ⟨hnonempty, hwithin, hat, hsurface⟩, hrest⟩, ?_⟩
      rw [List.map_cons, hordinals, hordinal, List.length_cons, List.range'_succ]

theorem mergeSort_ordinalLe (h : spansAccepted body references = true) :
    references.mergeSort ordinalLe = references.mergeSort spanLe := by
  obtain ⟨-, hordinals⟩ := spanChecks_true h
  have hspans := List.mergeSort_perm references spanLe
  have hperm := (List.mergeSort_perm references ordinalLe).trans hspans.symm
  have hnodup : ((references.mergeSort spanLe).map MessageReference.ordinal).Nodup := by
    rw [hordinals]
    exact List.nodup_range'
  have hsorted : (references.mergeSort spanLe).Pairwise fun left right =>
      ordinalLe left right = true := by
    have hmap : ((references.mergeSort spanLe).map MessageReference.ordinal).Pairwise (· ≤ ·) := by
      rw [hordinals]
      exact List.pairwise_le_range'
    refine (List.pairwise_map.mp hmap).imp ?_
    intro left right hle
    exact decide_eq_true hle
  have hother : (references.mergeSort ordinalLe).Pairwise fun left right =>
      ordinalLe left right = true := by
    refine List.pairwise_mergeSort ?_ ?_ references
    · intro a b c hab hbc
      exact decide_eq_true (Nat.le_trans (of_decide_eq_true hab) (of_decide_eq_true hbc))
    · intro a b
      simp only [ordinalLe, Bool.or_eq_true, decide_eq_true_eq]
      exact Nat.le_total a.ordinal b.ordinal
  refine hperm.eq_of_pairwise ?_ hother hsorted
  intro a b ha hb hab hba
  refine List.inj_on_of_nodup_map hnodup (hperm.mem_iff.mp ha) hb ?_
  exact Nat.le_antisymm (of_decide_eq_true hab) (of_decide_eq_true hba)

def isMention : BodySegment → Bool
  | .mention .. => true
  | _ => false

variable {resolve : MessageReferenceKind → String → Option ReferenceResolution}

theorem segmentText_mentionOf (h : ValidReference body reference) :
    segmentText (mentionOf resolve reference) = slice body reference.start reference.stop := by
  have hat := h.atSign
  rw [mentionOf, if_pos hat, h.surface]
  unfold startsWithAt at hat
  cases hsurface : reference.surface with
  | nil =>
    rw [hsurface] at hat
    cases hat
  | cons unit rest =>
    rw [hsurface, List.head?_cons, beq_iff_eq] at hat
    rw [segmentText, List.tail_cons, Option.some.inj hat]

/-- The loop of the screen cuts the text at the references, and leaves nothing out. -/
theorem segments_chained (resolve : MessageReferenceKind → String → Option ReferenceResolution)
    (h : Chained body cursor references) (hcursor : cursor ≤ body.length) :
    ∃ shown, segments resolve body cursor references = some shown ∧
      bodyText shown = body.drop cursor ∧
      shown.filter isMention = references.map (mentionOf resolve) := by
  induction references generalizing cursor with
  | nil =>
    refine ⟨_, rfl, ?_, ?_⟩
    · split
      · simp [bodyText, segmentText]
      · rename_i hend
        rw [List.drop_eq_nil_of_le (Nat.le_of_not_lt hend)]
        rfl
    · split <;> rfl
  | cons reference rest ih =>
    obtain ⟨hplace, hvalid, hrest⟩ := h
    obtain ⟨shown, hshown, htext, hmentions⟩ := ih hrest hvalid.within
    have hgood : ¬ (!startsWithAt reference.surface || decide (reference.start < cursor) ||
        decide (reference.stop ≤ reference.start) || decide (body.length < reference.stop) ||
        slice body reference.start reference.stop != reference.surface) = true := by
      simp [hvalid.atSign, Nat.not_lt.mpr hplace, Nat.not_le.mpr hvalid.nonempty,
        Nat.not_lt.mpr hvalid.within, hvalid.surface]
    refine ⟨_, by rw [segments, if_neg hgood, hshown, Option.map_some], ?_, ?_⟩
    · have hbefore : bodyText (if cursor < reference.start then
          [.text (slice body cursor reference.start)] else [])
          = slice body cursor reference.start := by
        split
        · simp [bodyText, segmentText]
        · rename_i hsame
          have hnone : reference.start - cursor = 0 := by omega
          rw [slice, hnone, List.take_zero]
          rfl
      have happend : ∀ left right : List BodySegment,
          bodyText (left ++ right) = bodyText left ++ bodyText right :=
        fun _ _ => List.flatMap_append
      have hcons : bodyText (mentionOf resolve reference :: shown)
          = slice body reference.start reference.stop ++ body.drop reference.stop := by
        rw [bodyText, List.flatMap_cons, segmentText_mentionOf hvalid]
        exact congrArg (_ ++ ·) htext
      rw [happend, hbefore, hcons, ← drop_eq_slice_append body (Nat.le_of_lt hvalid.nonempty),
        ← drop_eq_slice_append body hplace]
    · rw [List.filter_append, List.filter_cons_of_pos rfl, hmentions, List.map_cons]
      split <;> rfl

theorem typedReferenceBody_accepted
    (resolve : MessageReferenceKind → String → Option ReferenceResolution)
    (hne : references ≠ []) (h : spansAccepted body references = true) :
    ∃ shown, typedReferenceBody resolve body references = some shown ∧ bodyText shown = body ∧
      shown.filter isMention = (references.mergeSort spanLe).map (mentionOf resolve) := by
  obtain ⟨hchained, -⟩ := spanChecks_true h
  obtain ⟨shown, hshown, htext, hmentions⟩ :=
    segments_chained resolve hchained (Nat.zero_le body.length)
  refine ⟨shown, ?_, htext, hmentions⟩
  rw [typedReferenceBody, if_neg hne, mergeSort_ordinalLe h]
  exact hshown

/-- References survive from keystroke to screen: over any sequence of edits they stay valid for the
body, in order and without overlap, none is dropped that no edit touches, what is sent of them is
accepted, and what is accepted is shown in full, each mention in its place. -/
theorem references_survive :
    (∀ body edits references, ValidReferences body references →
      ValidReferences (finalBody body edits) (reconcileEdits body edits references) ∧
      (∀ reference ∈ references, ∀ final, Untouched body edits reference final →
        final ∈ reconcileEdits body edits references) ∧
      spansAccepted (finalBody body edits) (normalizeMessageReferences (finalBody body edits)
        (reconcileEdits body edits references)) = true) ∧
    ∀ (resolve : MessageReferenceKind → String → Option ReferenceResolution) body references,
      references ≠ [] → spansAccepted body references = true →
      ∃ shown, typedReferenceBody resolve body references = some shown ∧ bodyText shown = body ∧
        shown.filter isMention = (references.mergeSort spanLe).map (mentionOf resolve) := by
  constructor
  · intro body edits references h
    exact ⟨h.edits, fun reference hmem final huntouched => mem_reconcileEdits h hmem huntouched,
      spansAccepted_normalize h.edits⟩
  · intro resolve body references hne h
    exact typedReferenceBody_accepted resolve hne h

/-- A text of characters that are one code unit each. -/
def unitsOf (text : String) : Units := text.toList.map fun c => UInt16.ofNat c.toNat

/-- The mention of Sam in `ask @sam`. -/
def samReference : MessageReference :=
  { ordinal := 0, kind := .human, targetId := "sam", start := 4, stop := 8,
    surface := unitsOf "@sam" }

/-- The mention is accepted still when words are put before it and behind it. -/
theorem references_survive_sam :
    spansAccepted (unitsOf "please ask @sam today")
      (normalizeMessageReferences (unitsOf "please ask @sam today")
        (reconcileEdits (unitsOf "ask @sam")
          [unitsOf "please ask @sam", unitsOf "please ask @sam today"] [samReference])) = true := by
  have hvalid : ValidReferences (unitsOf "ask @sam") [samReference] := by
    refine ⟨?_, List.pairwise_singleton _ _⟩
    intro reference hmem
    rw [List.mem_singleton.mp hmem]
    exact ⟨by decide, by decide, by decide, by decide⟩
  exact (references_survive.1 _ [unitsOf "please ask @sam", unitsOf "please ask @sam today"] _
    hvalid).2.2

end Web
