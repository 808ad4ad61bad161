import AtriumVerified.Auth.ClientIp

/-!
# What the address parser reads

`ipToBytes` reads the texts of addresses, in brackets or not, as the bytes they denote, and nothing
else, apart from three kinds of text: those that make it raise, those with a `::` between eight
groups, and those that stand after the IPv4-mapped prefix and are no dotted quad themselves.
-/

namespace Auth

open IpAddress Js

variable {text address : List Char} {bytes : Bytes}

/-! ## Dotted quads -/

section Quads

theorem ipv4Pattern_joined {octets : List (List Char)} (hlen : octets.length = 4)
    (hall : ∀ o ∈ octets, 1 ≤ o.length ∧ o.length ≤ 3 ∧ ∀ c ∈ o, isDigit c = true) :
    ipv4Pattern (joined '.' octets) = some octets := by
  have hplain : ∀ o ∈ octets, '.' ∉ o := by
    intro o ho hmem
    have hdigit := (hall o ho).2.2 '.' hmem
    revert hdigit
    decide
  have hne : octets ≠ [] := by
    rintro rfl
    cases hlen
  have hsplit : (joined '.' octets).splitOn '.' = octets := List.splitOn_intercalate '.' hplain hne
  have hshape : octets.all
      (fun part => 1 ≤ part.length && part.length ≤ 3 && part.all isDigit) = true := by
    rw [List.all_eq_true]
    intro o ho
    obtain ⟨hpos, hmax, hdigits⟩ := hall o ho
    simpa [hpos, hmax] using hdigits
  simp only [ipv4Pattern, hsplit]
  exact if_pos ⟨hlen, hshape⟩

theorem ipv4Pattern_some {octets : List (List Char)} (h : ipv4Pattern address = some octets) :
    address = joined '.' octets ∧ octets.length = 4 ∧
      ∀ o ∈ octets, 1 ≤ o.length ∧ o.length ≤ 3 ∧ ∀ c ∈ o, isDigit c = true := by
  simp only [ipv4Pattern] at h
  split at h
  · rename_i hshape
    cases h
    obtain ⟨hlen, hall⟩ := hshape
    refine ⟨(List.intercalate_splitOn '.').symm, hlen, fun o ho => ?_⟩
    have ho := List.all_eq_true.mp hall o ho
    simpa [and_assoc] using ho
  · cases h

theorem bytesOfOctets_iff {octets : List (List Char)} (h : ipv4Pattern address = some octets) :
    bytesOfOctets octets = some bytes ↔ Quad address bytes := by
  obtain ⟨haddress, hlen, hall⟩ := ipv4Pattern_some h
  unfold bytesOfOctets
  constructor
  · intro hread
    split at hread
    · cases hread
    · rename_i hsmall
      cases hread
      rw [haddress]
      refine .octets hlen fun o ho => ⟨hall o ho, ?_⟩
      rw [Bool.not_eq_true, List.any_eq_false] at hsmall
      simpa using hsmall o ho
  · intro hquad
    cases hquad with
    | octets hlen' hall' =>
      rename_i octets'
      have hsame : octets' = octets := by
        have hread := ipv4Pattern_joined hlen' fun o ho => (hall' o ho).1
        rw [hread] at h
        exact Option.some.inj h
      subst hsame
      have hsmall : (octets'.any fun octet => decide (255 < numberOf octet)) = false := by
        rw [List.any_eq_false]
        intro o ho
        have := (hall' o ho).2
        simpa using this
      rw [hsmall]
      rfl

theorem quad_pattern (h : Quad address bytes) : ∃ octets, ipv4Pattern address = some octets := by
  cases h with
  | octets hlen hall => exact ⟨_, ipv4Pattern_joined hlen fun o ho => (hall o ho).1⟩

theorem colon_notMem_of_ipv4Pattern {octets : List (List Char)}
    (h : ipv4Pattern address = some octets) : ':' ∉ address := by
  obtain ⟨haddress, -, hall⟩ := ipv4Pattern_some h
  intro hmem
  rw [haddress] at hmem
  rcases mem_joined hmem with hdot | ⟨o, ho, hin⟩
  · cases hdot
  · have hdigit := (hall o ho).2.2 ':' hin
    revert hdigit
    decide

end Quads

/-! ## Groups -/

section Groups

theorem isGroup_iff {group : List Char} : isGroup group = true ↔ IsGroup group := by
  unfold isGroup IsGroup
  simp [and_assoc]

theorem storedBytes_eq (group : List Char) : storedBytes group = groupBytes group := by
  have hlow : ∀ n : Nat, BitVec.ofNat 8 (n &&& 255) = BitVec.ofNat 8 n := by
    intro n
    rw [Nat.and_two_pow_sub_one_eq_mod n 8]
    simp [BitVec.toNat_eq]
  simp only [storedBytes, groupBytes, hlow, Nat.shiftRight_eq_div_pow]

theorem bytesOfGroups_iff {groups : List (List Char)} :
    bytesOfGroups groups = some bytes ↔
      groups.length = 8 ∧ (∀ g ∈ groups, IsGroup g) ∧ bytes = groups.flatMap groupBytes := by
  have hstored : groups.flatMap storedBytes = groups.flatMap groupBytes := by
    rw [funext storedBytes_eq]
  unfold bytesOfGroups
  rw [hstored]
  constructor
  · intro h
    split at h
    · rename_i hshape
      cases h
      obtain ⟨hlen, hall⟩ := hshape
      exact ⟨hlen, fun g hg => isGroup_iff.mp (List.all_eq_true.mp hall g hg), rfl⟩
    · cases h
  · rintro ⟨hlen, hall, rfl⟩
    exact if_pos ⟨hlen, List.all_eq_true.mpr fun g hg => isGroup_iff.mpr (hall g hg)⟩

end Groups

/-! ## The sides of a `::` -/

section Sides

/-- A text that is cut at a `::`, of which there is no other. -/
def CutAt (left right address : List Char) : Prop :=
  address = left ++ (':' :: ':' :: right) ∧ ¬ [':', ':'] <:+: left ++ [':'] ∧
    ¬ [':', ':'] <:+: right

/-- How many groups stand on the two sides of a `::`. -/
def sides (left right : List Char) : Nat := (pieces ':' left).length + (pieces ':' right).length

/-- A text with more than eight groups on the two sides of its `::`. -/
def Overruns (address : List Char) : Prop :=
  ∃ left right, CutAt left right address ∧ 8 < sides left right

variable {left right : List Char}

theorem colons_ne_nil : ([':', ':'] : List Char) ≠ [] := List.cons_ne_nil _ _

theorem CutAt.split (h : CutAt left right address) :
    split [':', ':'] address = [left, right] := by
  obtain ⟨rfl, hleft, hright⟩ := h
  exact split_append colons_ne_nil hleft hright

theorem CutAt.colon_mem (h : CutAt left right address) : ':' ∈ address := by
  rw [h.1]
  simp

theorem cutAt_of_gap {count : Nat} (h : Gap count address bytes) :
    ∃ left right, CutAt left right address ∧ sides left right = count ∧
      (∀ g ∈ pieces ':' left ++ pieces ':' right, IsGroup g) ∧
      bytes = (pieces ':' left ++ List.replicate (8 - count) ['0'] ++
        pieces ':' right).flatMap groupBytes := by
  cases h with
  | groups hleft hright hcount =>
    have hleftPieces := pieces_joined (plain_of_groups hleft)
    have hrightPieces := pieces_joined (plain_of_groups hright)
    refine ⟨_, _, ⟨rfl, joined_not_within (plain_of_groups hleft),
      joined_not_within' (plain_of_groups hright)⟩, ?_, ?_, ?_⟩
    · rw [sides, hleftPieces, hrightPieces, hcount]
    · rw [hleftPieces, hrightPieces]
      intro g hg
      rcases List.mem_append.mp hg with hg | hg
      · exact hleft g hg
      · exact hright g hg
    · rw [hleftPieces, hrightPieces]

theorem gap_of_cutAt (h : CutAt left right address)
    (hall : ∀ g ∈ pieces ':' left ++ pieces ':' right, IsGroup g) :
    Gap (sides left right) address ((pieces ':' left ++
      List.replicate (8 - sides left right) ['0'] ++ pieces ':' right).flatMap groupBytes) := by
  have hgap : Gap (sides left right)
      (joined ':' (pieces ':' left) ++ (':' :: ':' :: joined ':' (pieces ':' right)))
      ((pieces ':' left ++ List.replicate (8 - sides left right) ['0'] ++
        pieces ':' right).flatMap groupBytes) :=
    .groups (fun g hg => hall g (List.mem_append_left _ hg))
      (fun g hg => hall g (List.mem_append_right _ hg)) rfl
  rw [joined_pieces, joined_pieces, ← h.1] at hgap
  exact hgap

theorem CutAt.unique {left' right' : List Char} (h : CutAt left right address)
    (h' : CutAt left' right' address) : left = left' ∧ right = right' := by
  have hsame := h.split.symm.trans h'.split
  simp only [List.cons.injEq, and_true] at hsame
  exact hsame

theorem groups_not_within {groups : List (List Char)} (hall : ∀ g ∈ groups, IsGroup g) :
    ¬ [':', ':'] <:+: joined ':' groups := joined_not_within' (plain_of_groups hall)

theorem ipv6ToBytes_of_not_within (h : ¬ [':', ':'] <:+: address) (hcolon : ':' ∈ address) :
    ipv6ToBytes address = .ok (bytesOfGroups (pieces ':' address)) := by
  simp only [ipv6ToBytes, if_neg (not_not_intro hcolon), split_of_not_within colons_ne_nil h]
  rfl

theorem ipv6ToBytes_of_cutAt (h : CutAt left right address) (hfit : sides left right ≤ 8) :
    ipv6ToBytes address = .ok (bytesOfGroups (pieces ':' left ++
      List.replicate (8 - sides left right) ['0'] ++ pieces ':' right)) := by
  unfold sides at hfit ⊢
  simp only [ipv6ToBytes, if_neg (not_not_intro h.colon_mem), h.split, groupsOf,
    if_neg (not_lt.mpr hfit), Nat.sub_sub]
  rfl

theorem ipv6ToBytes_of_overruns (h : Overruns address) :
    ipv6ToBytes address = .error .invalidArrayLength := by
  obtain ⟨left, right, hcut, hover⟩ := h
  unfold sides at hover
  simp only [ipv6ToBytes, if_neg (not_not_intro hcut.colon_mem), hcut.split, groupsOf,
    if_pos hover]
  rfl

theorem isGroup_zero : IsGroup ['0'] := ⟨by decide, by decide, by decide⟩

theorem full_colon {groups : List (List Char)} (hall : ∀ g ∈ groups, IsGroup g)
    (hlen : groups.length = 8) :
    ':' ∈ joined ':' groups ∧ ¬ [':', ':'] <:+: joined ':' groups := by
  refine ⟨?_, groups_not_within hall⟩
  match groups, hlen with
  | first :: second :: rest, _ =>
    rw [joined_cons_cons]
    simp

theorem gap_within {count : Nat} (h : Gap count address bytes) : [':', ':'] <:+: address := by
  obtain ⟨left, right, ⟨rfl, -, -⟩, -⟩ := cutAt_of_gap h
  exact ⟨left, right, by simp⟩

/-- What `ipv6ToBytes` reads: IPv6 texts, and those with a `::` between eight groups. -/
def ReadsV6 (address : List Char) (bytes : Bytes) : Prop := V6 address bytes ∨ Gap 8 address bytes

theorem readsV6_cases (h : ReadsV6 address bytes) :
    (∃ groups, address = joined ':' groups ∧ groups.length = 8 ∧ (∀ g ∈ groups, IsGroup g) ∧
      bytes = groups.flatMap groupBytes) ∨
    ∃ count ≤ 8, Gap count address bytes := by
  rcases h with h | h
  · cases h with
    | full hall hlen => exact .inl ⟨_, rfl, hlen, hall, rfl⟩
    | gap hcount h => exact .inr ⟨_, by omega, h⟩
  · exact .inr ⟨8, Nat.le_refl 8, h⟩

theorem readsV6_of_gap {count : Nat} (hcount : count ≤ 8) (h : Gap count address bytes) :
    ReadsV6 address bytes := by
  rcases Nat.lt_or_eq_of_le hcount with hlt | rfl
  · exact .inl (.gap (by omega) h)
  · exact .inr h

theorem readsV6_colon (h : ReadsV6 address bytes) : ':' ∈ address := by
  rcases readsV6_cases h with ⟨groups, rfl, hlen, hall, -⟩ | ⟨count, -, hgap⟩
  · exact (full_colon hall hlen).1
  · obtain ⟨left, right, hcut, -⟩ := cutAt_of_gap hgap
    exact hcut.colon_mem

theorem bytesOfGroups_plain (h : ¬ [':', ':'] <:+: address) :
    bytesOfGroups (pieces ':' address) = some bytes ↔ ReadsV6 address bytes := by
  rw [bytesOfGroups_iff]
  constructor
  · rintro ⟨hlen, hall, rfl⟩
    have hfull : V6 (joined ':' (pieces ':' address))
        ((pieces ':' address).flatMap groupBytes) := .full hall hlen
    rw [joined_pieces] at hfull
    exact .inl hfull
  · intro hreads
    rcases readsV6_cases hreads with ⟨groups, rfl, hlen, hall, rfl⟩ | ⟨count, -, hgap⟩
    · rw [pieces_joined (plain_of_groups hall)]
      exact ⟨hlen, hall, rfl⟩
    · exact absurd (gap_within hgap) h

/-- With one `::`, the groups beside it and the zero groups it stands for. -/
theorem bytesOfGroups_cut (h : CutAt left right address) (hfit : sides left right ≤ 8) :
    bytesOfGroups (pieces ':' left ++ List.replicate (8 - sides left right) ['0'] ++
      pieces ':' right) = some bytes ↔ ReadsV6 address bytes := by
  rw [bytesOfGroups_iff]
  constructor
  · rintro ⟨-, hall, rfl⟩
    refine readsV6_of_gap hfit (gap_of_cutAt h fun g hg => hall g ?_)
    rcases List.mem_append.mp hg with hg | hg
    · exact List.mem_append_left _ (List.mem_append_left _ hg)
    · exact List.mem_append_right _ hg
  · intro hreads
    rcases readsV6_cases hreads with ⟨groups, rfl, hlen, hall, rfl⟩ | ⟨count, -, hgap⟩
    · refine absurd ?_ (full_colon hall hlen).2
      rw [h.1]
      exact ⟨left, right, by simp⟩
    · obtain ⟨left', right', hcut, hcount, hall, hbytes⟩ := cutAt_of_gap hgap
      obtain ⟨rfl, rfl⟩ := h.unique hcut
      subst hcount
      refine ⟨?_, fun g hg => ?_, hbytes⟩
      · unfold sides at hfit ⊢
        simp only [List.length_append, List.length_replicate]
        omega
      · rcases List.mem_append.mp hg with hg | hg
        · rcases List.mem_append.mp hg with hg | hg
          · exact hall g (List.mem_append_left _ hg)
          · rw [List.eq_of_mem_replicate hg]
            exact isGroup_zero
        · exact hall g (List.mem_append_right _ hg)

theorem not_readsV6_of_second {front back : List Char}
    (htext : address = front ++ ([':', ':'] ++ back))
    (hfirst : ¬ [':', ':'] <:+: front ++ [':']) (hback : [':', ':'] <:+: back) :
    ¬ ReadsV6 address bytes := by
  have htwo := two_lt_length_split colons_ne_nil hfirst hback
  rw [← htext] at htwo
  intro hreads
  rcases readsV6_cases hreads with ⟨groups, rfl, hlen, hall, -⟩ | ⟨count, -, hgap⟩
  · refine (full_colon hall hlen).2 ?_
    rw [htext]
    exact ⟨front, back, by simp⟩
  · obtain ⟨left, right, hcut, -⟩ := cutAt_of_gap hgap
    rw [hcut.split] at htwo
    exact absurd htwo (Nat.lt_irrefl 2)

theorem ipv6ToBytes_ok (h : ¬ Overruns address) :
    ∃ read, ipv6ToBytes address = .ok read ∧
      ∀ bytes, read = some bytes ↔ ReadsV6 address bytes := by
  by_cases hcolon : ':' ∈ address
  · by_cases hgap : [':', ':'] <:+: address
    · obtain ⟨front, back, htext, hfirst⟩ := exists_first_occurrence colons_ne_nil hgap
      by_cases hback : [':', ':'] <:+: back
      · have htwo := two_lt_length_split colons_ne_nil hfirst hback
        rw [← htext] at htwo
        refine ⟨none, ?_, fun bytes => ⟨fun hnone => (by cases hnone), fun hreads => ?_⟩⟩
        · simp only [ipv6ToBytes, if_neg (not_not_intro hcolon), if_pos htwo]
        · exact absurd hreads (not_readsV6_of_second htext hfirst hback)
      · have hcut : CutAt front back address := ⟨htext, hfirst, hback⟩
        have hfit : sides front back ≤ 8 := by
          by_contra hover
          exact h ⟨front, back, hcut, by omega⟩
        exact ⟨_, ipv6ToBytes_of_cutAt hcut hfit, fun bytes => bytesOfGroups_cut hcut hfit⟩
    · exact ⟨_, ipv6ToBytes_of_not_within hgap hcolon, fun bytes => bytesOfGroups_plain hgap⟩
  · refine ⟨none, ?_, fun bytes => ⟨fun hnone => (by cases hnone), fun hreads => ?_⟩⟩
    · simp only [ipv6ToBytes, if_pos hcolon]
    · exact absurd (readsV6_colon hreads) hcolon

end Sides

/-! ## Brackets -/

section Brackets

theorem bracketed_some {inner : List Char} (h : bracketed address = some inner) :
    ∃ port, address = '[' :: (inner ++ ']' :: port) ∧ isPort port = true := by
  unfold bracketed at h
  split at h
  · split at h
    · rename_i port hcut
      split at h
      · rename_i hshape
        cases h
        obtain ⟨rfl, -⟩ := splitAtLast_some hcut
        exact ⟨port, rfl, hshape.2.2⟩
      · cases h
    · cases h
  · cases h

theorem unmapped_within (address : List Char) : unmapped address <:+: address := by
  unfold unmapped
  split
  · exact (List.drop_suffix _ _).isInfix
  · exact List.infix_rfl

theorem withoutPort_within (address : List Char) : withoutPort address <:+: address := by
  simp only [withoutPort]
  split
  · exact (List.takeWhile_prefix _).isInfix
  · exact List.infix_rfl

theorem normaliseTrimmed_within {trimmed : List Char}
    (h : normaliseTrimmed trimmed = some address) : address <:+: trimmed := by
  refine List.IsInfix.trans ?_ (unmapped_within trimmed)
  simp only [normaliseTrimmed] at h
  split at h
  · rename_i inner hbracketed
    cases h
    obtain ⟨port, hshape, -⟩ := bracketed_some hbracketed
    rw [hshape]
    exact ⟨['['], ']' :: port, by simp⟩
  · split at h
    · cases h
    · obtain rfl := Option.some.inj h
      exact withoutPort_within _

theorem normalise_within {value : List Char} (h : normalise value = some address) :
    address <:+: value := by
  have htrim : trim value <:+: value := by
    obtain ⟨front, back, hvalue, -⟩ := exists_trim value
    exact ⟨front, back, by rw [List.append_assoc, ← hvalue]⟩
  simp only [normalise] at h
  split at h
  · cases h
  · exact (normaliseTrimmed_within h).trans htrim

theorem opened_within (text : List Char) : opened text <:+: text := by
  unfold opened
  split
  · cases hread : normalise text with
    | none => exact List.infix_rfl
    | some address => exact normalise_within hread
  · exact List.infix_rfl

theorem opened_of_head (h : text.head? ≠ some '[') : opened text = text := if_neg h

theorem opened_cons (rest : List Char) :
    opened ('[' :: rest) = (normalise ('[' :: rest)).getD ('[' :: rest) := if_pos rfl

theorem isPort_iff {port : List Char} : isPort port = true ↔
    port = [] ∨
      ∃ digits, digits ≠ [] ∧ (∀ d ∈ digits, isDigit d = true) ∧ port = ':' :: digits := by
  cases port with
  | nil => simp [isPort]
  | cons c digits =>
    have hshape : isPort (c :: digits) = true ↔
        c = ':' ∧ digits ≠ [] ∧ ∀ d ∈ digits, isDigit d = true := by
      simp [isPort, and_assoc]
    rw [hshape]
    constructor
    · rintro ⟨rfl, hne, hall⟩
      exact .inr ⟨digits, hne, hall, rfl⟩
    · rintro (hnil | ⟨digits', hne, hall, heq⟩)
      · cases hnil
      · cases heq
        exact ⟨rfl, hne, hall⟩

theorem bracketed_shape (h : Bracketed text address) :
    ∃ port blanks, isPort port = true ∧ (∀ b ∈ blanks, isSpace b = true) ∧
      text = '[' :: (address ++ ']' :: port) ++ blanks := by
  cases h with
  | bare _ hblanks => exact ⟨[], _, rfl, hblanks, by simp⟩
  | port _ hne hdigits hblanks =>
    exact ⟨_, _, isPort_iff.mpr (.inr ⟨_, hne, hdigits, rfl⟩), hblanks, by simp⟩

theorem bracketed_of_shape {port blanks : List Char} (hport : isPort port = true)
    (hblanks : ∀ b ∈ blanks, isSpace b = true) :
    Bracketed ('[' :: (address ++ ']' :: (port ++ blanks))) address := by
  rcases isPort_iff.mp hport with rfl | ⟨digits, hne, hdigits, rfl⟩
  · exact .bare address hblanks
  · exact .port address hne hdigits hblanks

theorem isDigit_not_isSpace {c : Char} (h : isDigit c = true) : isSpace c = false := by
  simp only [isDigit, Bool.and_eq_true, decide_eq_true_eq, Char.le_def, UInt32.le_iff_toNat_le] at h
  obtain ⟨hlow, hhigh⟩ := h
  have hlow : 48 ≤ c.toNat := hlow
  have hhigh : c.toNat ≤ 57 := hhigh
  simp [isSpace]
  omega

theorem bracketed_last {port : List Char} (hport : isPort port = true) :
    ∃ front last, '[' :: (address ++ ']' :: port) = front ++ [last] ∧ isSpace last = false := by
  rcases isPort_iff.mp hport with rfl | ⟨digits, hne, hdigits, rfl⟩
  · exact ⟨'[' :: address, ']', rfl, by decide⟩
  · refine ⟨'[' :: (address ++ ']' :: ':' :: digits.dropLast), digits.getLast hne, ?_,
      isDigit_not_isSpace (hdigits _ (List.getLast_mem hne))⟩
    simp [List.dropLast_append_getLast]

theorem bracket_notMem_of_isPort {port : List Char} (h : isPort port = true) : ']' ∉ port := by
  intro hmem
  rcases isPort_iff.mp h with rfl | ⟨digits, -, hdigits, rfl⟩
  · cases hmem
  · rcases List.mem_cons.mp hmem with hcolon | hmem
    · cases hcolon
    · have hdigit := hdigits _ hmem
      revert hdigit
      decide

theorem bracketed_append {port : List Char} (hport : isPort port = true) (hne : address ≠ [])
    (hall : ∀ c ∈ address, isLineTerminator c = false) :
    bracketed ('[' :: (address ++ ']' :: port)) = some address := by
  simp only [bracketed, splitAtLast_append address (bracket_notMem_of_isPort hport)]
  refine if_pos ⟨hne, List.all_eq_true.mpr fun c hc => ?_, hport⟩
  rw [hall c hc]
  rfl

theorem opened_of_bracketed (h : Bracketed text address) (hne : address ≠ [])
    (hall : ∀ c ∈ address, isLineTerminator c = false) : opened text = address := by
  obtain ⟨port, blanks, hport, hblanks, rfl⟩ := bracketed_shape h
  obtain ⟨front, last, hlast, hspace⟩ :
      ∃ front last, '[' :: (address ++ ']' :: port) = front ++ [last] ∧ isSpace last = false :=
    bracketed_last hport
  have htrim := trim_append rfl (by decide) hlast hspace hblanks
  have hread := bracketed_append hport hne hall
  have hunmapped : unmapped ('[' :: (address ++ ']' :: port)) = '[' :: (address ++ ']' :: port) :=
    rfl
  have hnormalised : normalise ('[' :: (address ++ ']' :: port) ++ blanks) = some address := by
    simp only [normalise, htrim, normaliseTrimmed, hunmapped, hread]
    rfl
  rw [List.cons_append, opened_cons, ← List.cons_append, hnormalised]
  rfl

theorem bracketed_of_opened (hhead : text.head? = some '[')
    (h : (opened text).head? ≠ some '[') : Bracketed text (opened text) := by
  obtain ⟨rest, rfl⟩ : ∃ rest, text = '[' :: rest := by
    cases text with
    | nil => cases hhead
    | cons c rest =>
      cases hhead
      exact ⟨rest, rfl⟩
  obtain ⟨kept, back, htrim, rfl, hback⟩ := trim_cons rest (c := '[') (by decide)
  have hunmapped : unmapped ('[' :: kept) = '[' :: kept := rfl
  have hnormalised : normalise ('[' :: (kept ++ back)) = normaliseTrimmed ('[' :: kept) := by
    simp only [normalise, htrim]
    rfl
  have hopened : opened ('[' :: (kept ++ back))
      = (normaliseTrimmed ('[' :: kept)).getD ('[' :: (kept ++ back)) := by
    rw [opened_cons, hnormalised]
  cases hread : bracketed ('[' :: kept) with
  | some inner =>
    have hinner : opened ('[' :: (kept ++ back)) = inner := by
      rw [hopened]
      simp only [normaliseTrimmed, hunmapped, hread]
      rfl
    obtain ⟨port, hshape, hport⟩ := bracketed_some hread
    obtain ⟨-, rfl⟩ := List.cons.inj hshape
    rw [hinner, List.append_assoc, List.cons_append]
    exact bracketed_of_shape hport hback
  | none =>
    exfalso
    apply h
    have hbegin : ∃ more, withoutPort ('[' :: kept) = '[' :: more := by
      simp only [withoutPort]
      split
      · exact ⟨_, List.takeWhile_cons_of_pos (by decide)⟩
      · exact ⟨kept, rfl⟩
    obtain ⟨more, hmore⟩ := hbegin
    rw [hopened]
    simp only [normaliseTrimmed, hunmapped, hread, hmore]
    rfl

end Brackets

end Auth
