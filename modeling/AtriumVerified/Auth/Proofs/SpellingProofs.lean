import AtriumVerified.Auth.Proofs.NetworkProofs

/-!
# The bucket of an address

`clientIp` keys a caller by text. Of a way to write an address it takes away brackets, a port and
the IPv4-mapped prefix, the last only where it stands in lower case and outside brackets; the rest
of the text is the key. Two ways to write one address are one bucket when these rules leave the same
text.
-/

namespace Auth

open IpAddress Js

/-! ## What is kept of a spelling -/

/-- Bare hexadecimal text behind the IPv4-mapped prefix is taken for a host and a port when it has
two groups. -/
def stub (rest : List Char) : List Char :=
  if rest.count ':' = 1 then rest.takeWhile (· != ':') else rest

def keptBare (address port : List Char) : List Char :=
  if mappedPrefix <+: address then stub (address.drop mappedPrefix.length)
  else if ':' ∈ address then address ++ port
  else address

def kept (spelling : Spelling) : List Char :=
  if spelling.bracketed then spelling.address
  else keptBare spelling.address spelling.portText

section Kept

variable {address rest port : List Char} {bytes : Bytes} (spelling : Spelling)

theorem bracketed_none (h : address.head? ≠ some '[') : bracketed address = none := by
  cases address with
  | nil => rfl
  | cons c rest =>
    unfold bracketed
    split
    · rename_i heq
      rw [heq] at h
      exact absurd rfl h
    · rfl

theorem isPort_portText : isPort spelling.portText = true := by
  unfold Spelling.portText
  split
  · rename_i digits hport
    obtain ⟨hne, hall⟩ := spelling.digits digits hport
    exact isPort_iff.mpr (.inr ⟨digits, hne, hall, rfl⟩)
  · rfl

theorem portText_cases : spelling.portText = [] ∨
    ∃ digits, spelling.portText = ':' :: digits ∧ digits ≠ [] ∧ ∀ d ∈ digits, isDigit d = true := by
  rcases isPort_iff.mp (isPort_portText spelling) with hnone | ⟨digits, hne, hall, hport⟩
  · exact .inl hnone
  · exact .inr ⟨digits, hport, hne, hall⟩

theorem colon_notMem_of_digits {digits : List Char} (h : ∀ d ∈ digits, isDigit d = true) :
    ':' ∉ digits := by
  intro hmem
  have hdigit := h _ hmem
  revert hdigit
  decide

theorem address_ne_nil : spelling.address ≠ [] := by
  rcases spelling.denotes with h | h
  · exact List.ne_nil_of_mem h.dot_mem
  · exact List.ne_nil_of_mem (readsV6_colon (.inl h))

theorem address_chars {c : Char} (hc : c ∈ spelling.address) : IsAddressChar c := by
  rcases spelling.denotes with h | h
  · exact h.chars hc
  · exact .inr (h.chars hc)

theorem takeWhile_front (hplain : ':' ∉ address) (hport : port = [] ∨ ∃ digits, port = ':' :: digits) :
    (address ++ port).takeWhile (· != ':') = address := by
  rw [List.takeWhile_append_of_pos]
  · rcases hport with rfl | ⟨digits, rfl⟩ <;> simp
  · intro c hc
    rw [bne_iff_ne]
    rintro rfl
    exact hplain hc

theorem withoutPort_of_plain (hplain : ':' ∉ address) (hne : address ≠ [])
    (hport : port = [] ∨ ∃ digits, port = ':' :: digits ∧ ':' ∉ digits) :
    withoutPort (address ++ port) = address := by
  have hcount : address.count ':' = 0 := List.count_eq_zero.mpr hplain
  rcases hport with rfl | ⟨digits, rfl, hdigits⟩
  · rw [List.append_nil]
    simp only [withoutPort, hcount]
    exact if_neg fun h => absurd h.1 (by decide)
  · have hone : (address ++ ':' :: digits).count ':' = 1 := by
      rw [List.count_append, hcount, List.count_cons_self, List.count_eq_zero.mpr hdigits]
    have hhost := takeWhile_front hplain (.inr ⟨digits, rfl⟩)
    simp only [withoutPort, hone, hhost]
    exact if_pos ⟨trivial, hne⟩

theorem withoutPort_of_two (h : 2 ≤ address.count ':') : withoutPort address = address := by
  simp only [withoutPort]
  exact if_neg fun hone => by omega

theorem quad_plain (h : Quad address bytes) : ':' ∉ address := by
  obtain ⟨octets, hoctets⟩ := quad_pattern h
  exact colon_notMem_of_ipv4Pattern hoctets

theorem head_ne_bracket (h : ∀ c ∈ address, IsAddressChar c) : address.head? ≠ some '[' :=
  fun hhead => (addressChar_facts (h _ (List.mem_of_mem_head? hhead))).1 rfl

theorem two_le_count_of_v6 (h : V6 address bytes) : 2 ≤ address.count ':' := by
  cases h with
  | full hall hlen =>
    rename_i groups
    match groups, hlen with
    | first :: second :: third :: rest, _ =>
      rw [joined_cons_cons, joined_cons_cons]
      simp only [List.count_append, List.count_cons_self]
      omega
  | gap hcount h =>
    obtain ⟨left, right, ⟨rfl, -⟩, -⟩ := cutAt_of_gap h
    simp only [List.count_append, List.count_cons_self]
    omega

theorem two_le_count_of_mapped (h : IsMappedPrefix address) : 2 ≤ address.count ':' := by
  obtain ⟨rest, rfl⟩ := h.cons
  simp only [List.count_cons_self]
  omega

theorem cutAt_front {left right more : List Char} {c : Char}
    (h : CutAt left right (':' :: ':' :: c :: more)) (hc : c ≠ ':') :
    left = [] ∧ right = c :: more := by
  obtain ⟨htext, hleft, -⟩ := h
  match left, htext, hleft with
  | [], htext, _ =>
    rw [List.nil_append, List.cons.injEq, List.cons.injEq] at htext
    exact ⟨rfl, htext.2.2.symm⟩
  | [d], htext, _ =>
    simp only [List.cons_append, List.nil_append, List.cons.injEq] at htext
    exact absurd htext.2.2.1 hc
  | d :: e :: left, htext, hleft =>
    simp only [List.cons_append, List.cons.injEq] at htext
    obtain ⟨rfl, rfl, -⟩ := htext
    exact absurd ⟨[], left ++ [':'], by simp⟩ hleft

theorem rest_of_v6 (h : V6 (mappedPrefix ++ rest) bytes) :
    ∃ c more, rest = c :: more ∧ c ≠ ':' := by
  have htext : mappedPrefix ++ rest = ':' :: ':' :: 'f' :: ("fff:".toList ++ rest) := rfl
  generalize haddress : mappedPrefix ++ rest = address at h
  cases h with
  | full hall hlen =>
    refine absurd ?_ (full_colon hall hlen).2
    rw [← haddress, htext]
    exact ⟨[], 'f' :: ("fff:".toList ++ rest), rfl⟩
  | gap hcount h =>
    obtain ⟨left, right, hcut, -, hall, -⟩ := cutAt_of_gap h
    rw [← haddress, htext] at hcut
    obtain ⟨rfl, rfl⟩ := cutAt_front hcut (by decide)
    cases rest with
    | nil =>
      have hpieces : pieces ':' "ffff:".toList = ["ffff".toList, []] := by decide
      have hempty : IsGroup [] := hall [] (List.mem_append_right _ (hpieces ▸ by simp))
      exact absurd hempty.1 (by decide)
    | cons c more =>
      refine ⟨c, more, rfl, ?_⟩
      rintro rfl
      exact hcut.2.2 ⟨"ffff".toList, more, by simp⟩

/-! ## What `normalise` keeps -/

theorem unmapped_append (rest : List Char) : unmapped (mappedPrefix ++ rest) = rest := by
  unfold unmapped
  rw [if_pos (List.isPrefixOf_iff_prefix.mpr ⟨rest, rfl⟩), List.drop_left]

theorem unmapped_of_not_begins (h : ¬ mappedPrefix <+: address) : unmapped address = address := by
  unfold unmapped
  rw [if_neg fun hbegins => h (List.isPrefixOf_iff_prefix.mp hbegins)]

theorem normaliseTrimmed_of_bare (hhead : (unmapped address).head? ≠ some '[')
    (hne : withoutPort (unmapped address) ≠ []) :
    normaliseTrimmed address = some (withoutPort (unmapped address)) := by
  simp only [normaliseTrimmed, bracketed_none hhead]
  exact if_neg hne

theorem normaliseTrimmed_quad (h : Quad address bytes)
    (hport : port = [] ∨ ∃ digits, port = ':' :: digits ∧ ':' ∉ digits) :
    normaliseTrimmed (address ++ port) = some (keptBare address port) := by
  have hplain := quad_plain h
  have hbegins : ¬ mappedPrefix <+: address := fun hbegins =>
    hplain (hbegins.subset (List.mem_cons_self ..))
  have hkept : keptBare address port = address := by
    rw [keptBare, if_neg hbegins, if_neg hplain]
  obtain ⟨c, rest, rfl⟩ := List.exists_cons_of_ne_nil h.ne_nil
  have hunmapped : unmapped (c :: rest ++ port) = c :: rest ++ port := by
    refine unmapped_of_not_begins fun hbegins => hplain ?_
    obtain ⟨more, hmore⟩ := hbegins
    obtain ⟨rfl, -⟩ := List.cons.inj hmore
    exact List.mem_cons_self
  have hchar : c ≠ '[' := by
    rcases h.chars (c := c) List.mem_cons_self with rfl | hdigit
    · decide
    · rintro rfl
      revert hdigit
      decide
  have hwithout := withoutPort_of_plain hplain h.ne_nil hport
  rw [normaliseTrimmed_of_bare (by rw [hunmapped]; simpa using hchar)
    (by rw [hunmapped, hwithout]; exact List.cons_ne_nil c rest), hunmapped, hwithout, hkept]

theorem stub_quad (h : Quad address bytes) : stub address = address := by
  unfold stub
  rw [List.count_eq_zero.mpr (quad_plain h)]
  exact if_neg (by decide)

/-- What is kept of a bare text for an IPv4 address. -/
theorem normaliseTrimmed_v4 (h : V4 address bytes)
    (hport : port = [] ∨ ∃ digits, port = ':' :: digits ∧ ':' ∉ digits) :
    normaliseTrimmed (address ++ port) = some (keptBare address port) := by
  cases h with
  | quad h => exact normaliseTrimmed_quad h hport
  | mapped hfront h =>
    rename_i front quad
    have hhead : ∀ text : List Char, (quad ++ text).head? ≠ some '[' := by
      intro text
      obtain ⟨c, rest, rfl⟩ := List.exists_cons_of_ne_nil h.ne_nil
      intro hbracket
      obtain rfl : c = '[' := Option.some.inj hbracket
      have hchar := h.chars (c := '[') List.mem_cons_self
      revert hchar
      decide
    by_cases hlower : front = mappedPrefix
    · subst hlower
      have hwithout := withoutPort_of_plain (quad_plain h) h.ne_nil hport
      have hkept : keptBare (mappedPrefix ++ quad) port = quad := by
        rw [keptBare, if_pos (List.prefix_append _ _), List.drop_left, stub_quad h]
      rw [List.append_assoc, normaliseTrimmed_of_bare (by rw [unmapped_append]; exact hhead port)
        (by rw [unmapped_append, hwithout]; exact h.ne_nil), unmapped_append, hwithout, hkept]
    · have hbegins : ∀ text, ¬ mappedPrefix <+: front ++ text := by
        intro text hbegins
        have hlen : mappedPrefix.length = front.length := hfront.length_eq.symm
        have hwhole : mappedPrefix <+: front :=
          List.prefix_of_prefix_length_le hbegins (List.prefix_append _ _) (le_of_eq hlen)
        exact hlower (hwhole.eq_of_length hlen).symm
      have htwo : 2 ≤ (front ++ (quad ++ port)).count ':' := by
        rw [List.count_append]
        exact Nat.le_add_right_of_le (two_le_count_of_mapped hfront)
      obtain ⟨more, rfl⟩ := hfront.cons
      have hkept : keptBare (':' :: ':' :: more ++ quad) port
          = ':' :: ':' :: more ++ (quad ++ port) := by
        rw [keptBare, if_neg (hbegins quad), if_pos (by simp), List.append_assoc]
      have hunmapped := unmapped_of_not_begins (hbegins (quad ++ port))
      rw [List.append_assoc, normaliseTrimmed_of_bare (by rw [hunmapped]; simp)
        (by rw [hunmapped, withoutPort_of_two htwo]; simp), hunmapped, withoutPort_of_two htwo,
        hkept]

theorem withoutPort_eq_stub {c : Char} (hc : c ≠ ':') (more : List Char) :
    withoutPort (c :: more) = stub (c :: more) := by
  have hhost : (c :: more).takeWhile (· != ':') ≠ [] := by
    rw [List.takeWhile_cons_of_pos (by simpa using hc)]
    exact List.cons_ne_nil _ _
  simp only [withoutPort, stub]
  by_cases hone : (c :: more).count ':' = 1
  · rw [if_pos ⟨hone, hhost⟩, if_pos hone]
  · rw [if_neg fun h => hone h.1, if_neg hone]

example : withoutPort "10.0.0.1:80".toList = "10.0.0.1".toList := by decide +kernel

theorem stub_ne_nil {c : Char} (hc : c ≠ ':') (more : List Char) : stub (c :: more) ≠ [] := by
  unfold stub
  split
  · rw [List.takeWhile_cons_of_pos (by simpa using hc)]
    exact List.cons_ne_nil _ _
  · exact List.cons_ne_nil _ _

theorem normaliseTrimmed_v6 (h : V6 address bytes) :
    normaliseTrimmed address = some (keptBare address []) := by
  by_cases hbegins : mappedPrefix <+: address
  · obtain ⟨rest, rfl⟩ := hbegins
    obtain ⟨c, more, rfl, hc⟩ := rest_of_v6 h
    have hchar : c ≠ '[' := (addressChar_facts (.inr (h.chars (c := c) (by simp)))).1
    have hkept : keptBare (mappedPrefix ++ c :: more) [] = stub (c :: more) := by
      rw [keptBare, if_pos (List.prefix_append _ _), List.drop_left]
    rw [normaliseTrimmed_of_bare (by rw [unmapped_append]; simpa using hchar)
      (by rw [unmapped_append, withoutPort_eq_stub hc]; exact stub_ne_nil hc more), unmapped_append,
      withoutPort_eq_stub hc, hkept]
  · have hunmapped := unmapped_of_not_begins hbegins
    have htwo := withoutPort_of_two (two_le_count_of_v6 h)
    have hcolon := readsV6_colon (.inl h)
    have hkept : keptBare address [] = address := by
      rw [keptBare, if_neg hbegins, if_pos hcolon, List.append_nil]
    rw [normaliseTrimmed_of_bare
      (by rw [hunmapped]; exact head_ne_bracket fun c hc => .inr (h.chars hc))
      (by rw [hunmapped, htwo]; exact List.ne_nil_of_mem hcolon), hunmapped, htwo, hkept]

theorem bare_cases (hbare : spelling.bracketed = false) :
    V4 spelling.address spelling.bytes ∨
      (V6 spelling.address spelling.bytes ∧ spelling.portText = []) := by
  rcases spelling.denotes with h | h
  · exact .inl h
  · cases hport : spelling.port with
    | none => exact .inr ⟨h, by rw [Spelling.portText, hport]⟩
    | some digits => exact .inl (spelling.bare hbare (by rw [hport]; exact Option.some_ne_none _))

theorem normaliseTrimmed_text : normaliseTrimmed spelling.text = some (kept spelling) := by
  unfold Spelling.text kept
  by_cases hbracketed : spelling.bracketed = true
  · have hread := bracketed_append (isPort_portText spelling) (address_ne_nil spelling)
      fun c hc => (addressChar_facts (address_chars spelling hc)).2
    rw [if_pos hbracketed, if_pos hbracketed]
    have hunmapped : unmapped ('[' :: (spelling.address ++ ']' :: spelling.portText))
        = '[' :: (spelling.address ++ ']' :: spelling.portText) := rfl
    simp only [normaliseTrimmed, hunmapped, hread]
  · rw [if_neg hbracketed, if_neg hbracketed]
    rcases bare_cases spelling (Bool.not_eq_true _ ▸ hbracketed) with h | ⟨h, hport⟩
    · refine normaliseTrimmed_v4 h ?_
      rcases portText_cases spelling with hnone | ⟨digits, hdigits, -, hall⟩
      · exact .inl hnone
      · exact .inr ⟨digits, hdigits, colon_notMem_of_digits hall⟩
    · rw [hport, List.append_nil]
      exact normaliseTrimmed_v6 h

end Kept

/-! ## What is read of a spelling -/

section Read

variable {text address rest port front quad : List Char} {bytes : Bytes} (spelling : Spelling)

/-- A spelling that `ipToBytes` reads: a bare address with a port is none. -/
def Readable : Prop := spelling.bracketed = true ∨ spelling.portText = []

theorem raises_within (h : Raises text) : [':', ':'] <:+: text := by
  refine List.IsInfix.trans ?_ (opened_within text)
  cases h with
  | overruns h _ =>
    obtain ⟨left, right, hcut, -⟩ := h
    exact ⟨left, right, by rw [hcut.1]; simp⟩
  | mapped hrest _ =>
    obtain ⟨front, hopened, hfront⟩ := hrest
    obtain ⟨more, rfl⟩ := hfront.cons
    rw [hopened]
    exact ⟨[], _, rfl⟩

theorem two_le_count_of_raises (h : Raises text) : 2 ≤ text.count ':' :=
  (raises_within h).sublist.count_le ':'

theorem length_pieces_le (text : List Char) : (pieces ':' text).length ≤ text.count ':' + 1 := by
  have hsplit : ∀ more : List Char, (more.splitOn ':').length = more.count ':' + 1 := by
    intro more
    induction more with
    | nil => rfl
    | cons c more ih =>
      rw [List.splitOn_cons_eq_if_modifyHead, List.count_cons]
      by_cases hc : c = ':'
      · rw [if_pos (beq_iff_eq.mpr hc), if_pos (beq_iff_eq.mpr hc), List.length_cons, ih]
      · rw [if_neg fun h => hc (beq_iff_eq.mp h), if_neg fun h => hc (beq_iff_eq.mp h),
          List.length_modifyHead, ih]
  unfold pieces
  split
  · exact Nat.zero_le _
  · exact Nat.le_of_eq (hsplit text)

theorem overruns_count (h : Overruns address) : 8 < address.count ':' := by
  obtain ⟨left, right, ⟨rfl, -⟩, hover⟩ := h
  have hleft := length_pieces_le left
  have hright := length_pieces_le right
  unfold sides at hover
  simp only [List.count_append, List.count_cons_self]
  omega

theorem not_v6_of_rest (hfront : IsMappedPrefix front) (hrest : [':', ':'] <:+: rest) :
    ¬ ReadsV6 (front ++ rest) bytes := by
  obtain ⟨more, rfl⟩ := hfront.cons
  have hshort : ¬ [':', ':'] <:+: [] ++ [':'] := by
    intro hocc
    have hlen := hocc.length_le
    exact absurd hlen (by decide)
  have htext : ':' :: ':' :: more ++ rest = [] ++ ([':', ':'] ++ (more ++ rest)) := rfl
  exact not_readsV6_of_second htext hshort (List.infix_append_of_infix_right hrest)

theorem not_overruns_of_readsV6 (h : ReadsV6 address bytes) : ¬ Overruns address := by
  rintro ⟨left, right, hcut, hover⟩
  rcases readsV6_cases h with ⟨groups, rfl, hlen, hall, -⟩ | ⟨count, hcount, hgap⟩
  · refine (full_colon hall hlen).2 ?_
    rw [hcut.1]
    exact ⟨left, right, by simp⟩
  · obtain ⟨left', right', hcut', hsides, -⟩ := cutAt_of_gap hgap
    obtain ⟨rfl, rfl⟩ := hcut.unique hcut'
    omega

theorem not_raises_of_denotes (h : V4 (opened text) bytes ∨ V6 (opened text) bytes) :
    ¬ Raises text := by
  intro hraises
  rcases h with h | h
  · have hread := readsV4_of_v4 h
    cases hraises with
    | overruns _ hnone => exact hnone bytes hread
    | mapped hrest hraises =>
      generalize hopened : opened text = address at h
      cases h with
      | quad h => exact hrest.not_quad (hopened ▸ h)
      | mapped hfront h =>
        rw [hrest.unique ⟨_, hopened, hfront⟩] at hraises
        have := two_le_count_of_raises hraises
        rw [List.count_eq_zero.mpr (quad_plain h)] at this
        omega
  · cases hraises with
    | overruns hover _ => exact not_overruns_of_readsV6 (.inl h) hover
    | mapped hrest hraises =>
      obtain ⟨front, hopened, hfront⟩ := hrest
      rw [hopened] at h
      exact not_v6_of_rest hfront (raises_within hraises) (.inl h)

theorem reads_of_denotes (h : V4 (opened text) bytes ∨ V6 (opened text) bytes) :
    Reads text bytes := by
  rcases h with h | h
  · exact .inl (readsV4_of_v4 h)
  · exact .inr ⟨fun quad hquad => dot_notMem_of_readsV6 (.inl h) hquad.dot_mem, .inl h⟩

theorem opened_text (h : Readable spelling) : opened spelling.text = spelling.address := by
  have hchars := fun c hc => addressChar_facts (address_chars spelling (c := c) hc)
  unfold Spelling.text
  by_cases hbracketed : spelling.bracketed = true
  · rw [if_pos hbracketed]
    have hshape : Bracketed ('[' :: (spelling.address ++ ']' :: (spelling.portText ++ [])))
        spelling.address :=
      bracketed_of_shape (isPort_portText spelling) fun b hb => (by cases hb)
    rw [List.append_nil] at hshape
    exact opened_of_bracketed hshape (address_ne_nil spelling) fun c hc => (hchars c hc).2
  · rcases h with h | h
    · exact absurd h hbracketed
    · rw [if_neg hbracketed, h, List.append_nil]
      exact opened_of_head (head_ne_bracket fun c hc => address_chars spelling hc)

theorem ipToBytes_of_readable (h : Readable spelling) :
    ipToBytes spelling.text = .ok (some spelling.bytes) ∧ Reads spelling.text spelling.bytes := by
  have hdenotes : V4 (opened spelling.text) spelling.bytes ∨
      V6 (opened spelling.text) spelling.bytes := by
    rw [opened_text spelling h]
    exact spelling.denotes
  have hreads := reads_of_denotes hdenotes
  obtain ⟨read, hok, hall⟩ := ipToBytes_reads_iff (not_raises_of_denotes hdenotes)
  rw [hok, (hall _).mpr hreads]
  exact ⟨rfl, hreads⟩

theorem opened_of_chars {c : Char} (h : IsAddressChar c) : opened (c :: rest) = c :: rest :=
  opened_of_head fun hhead => (addressChar_facts h).1 (Option.some.inj hhead)

theorem not_reads_of_quad_port {digits : List Char} (h : Quad quad bytes) (hdigits : ':' ∉ digits) :
    ¬ Raises (quad ++ ':' :: digits) ∧ ∀ other, ¬ ReadsV4 (quad ++ ':' :: digits) other := by
  have hone : (quad ++ ':' :: digits).count ':' = 1 := by
    rw [List.count_append, List.count_eq_zero.mpr (quad_plain h), List.count_cons_self,
      List.count_eq_zero.mpr hdigits]
  refine ⟨fun hraises => ?_, fun other hread => ?_⟩
  · have := two_le_count_of_raises hraises
    omega
  · have hopened : opened (quad ++ ':' :: digits) = quad ++ ':' :: digits := by
      obtain ⟨c, rest, rfl⟩ := List.exists_cons_of_ne_nil h.ne_nil
      exact opened_of_chars ((V4.quad h).chars List.mem_cons_self)
    cases hread with
    | quad hread =>
      rw [hopened] at hread
      exact quad_plain hread (by simp)
    | mapped hrest _ =>
      obtain ⟨front, hsplit, hfront⟩ := hrest
      have htwo := two_le_count_of_mapped hfront
      rw [← hopened, hsplit, List.count_append] at hone
      omega

theorem not_reads_of_port {digits : List Char} (h : V4 address bytes) (hdigits : ':' ∉ digits) :
    ¬ Raises (address ++ ':' :: digits) ∧ ∀ other, ¬ Reads (address ++ ':' :: digits) other := by
  have hopened : opened (address ++ ':' :: digits) = address ++ ':' :: digits := by
    obtain ⟨c, rest, rfl⟩ := List.exists_cons_of_ne_nil (List.ne_nil_of_mem h.dot_mem)
    exact opened_of_chars (h.chars List.mem_cons_self)
  have hv6 : ∀ other, ¬ ReadsV6 (opened (address ++ ':' :: digits)) other := by
    intro other hread
    rw [hopened] at hread
    exact dot_notMem_of_readsV6 hread (List.mem_append_left _ h.dot_mem)
  cases h with
  | quad h =>
    obtain ⟨hraises, hv4⟩ := not_reads_of_quad_port h hdigits
    exact ⟨hraises, fun other hread => hread.elim (hv4 other) fun hread => hv6 other hread.2⟩
  | mapped hfront h =>
    rename_i front quad
    obtain ⟨hraises, hv4⟩ := not_reads_of_quad_port h hdigits
    have hrest : MappedRest (front ++ quad ++ ':' :: digits) (quad ++ ':' :: digits) :=
      ⟨front, by rw [hopened, List.append_assoc], hfront⟩
    have hnot : ∀ other, ¬ ReadsV4 (front ++ quad ++ ':' :: digits) other := by
      intro other hread
      cases hread with
      | quad hread => exact hrest.not_quad hread
      | mapped hrest' hread =>
        rw [hrest'.unique hrest] at hread
        exact hv4 other hread
    refine ⟨fun hraise => ?_,
      fun other hread => hread.elim (hnot other) fun hread => hv6 other hread.2⟩
    cases hraise with
    | overruns hover _ =>
      have hcount := overruns_count hover
      have hfew := List.count_le_length (a := ':') (l := front)
      rw [hfront.length_eq] at hfew
      rw [hopened, List.append_assoc, List.count_append, List.count_append,
        List.count_eq_zero.mpr (quad_plain h), List.count_cons_self,
        List.count_eq_zero.mpr hdigits] at hcount
      omega
    | mapped hrest' hraise =>
      rw [hrest'.unique hrest] at hraise
      exact hraises hraise

theorem ipToBytes_of_bare_port (h : ¬ Readable spelling) :
    ipToBytes spelling.text = .ok none := by
  unfold Readable at h
  rw [not_or, Bool.not_eq_true] at h
  obtain ⟨hbare, hport⟩ := h
  rcases portText_cases spelling with hnone | ⟨digits, hdigits, -, hall⟩
  · exact absurd hnone hport
  rcases bare_cases spelling hbare with hv4 | ⟨-, hnone⟩
  · have htext : spelling.text = spelling.address ++ ':' :: digits := by
      rw [Spelling.text, hbare, hdigits]
      rfl
    obtain ⟨hraises, hreads⟩ := not_reads_of_port hv4 (colon_notMem_of_digits hall)
    rw [htext]
    obtain ⟨read, hok, hread⟩ := ipToBytes_reads_iff hraises
    cases read with
    | none => exact hok
    | some bytes => exact absurd ((hread bytes).mp rfl) (hreads bytes)
  · exact absurd hnone hport

theorem ReadsV4.not_raises (h : ReadsV4 text bytes) : ¬ Raises text := by
  induction h with
  | quad h =>
    intro hraises
    cases hraises with
    | overruns _ hnone => exact hnone _ (.quad h)
    | mapped hrest _ => exact hrest.not_quad h
  | mapped hrest h ih =>
    intro hraises
    cases hraises with
    | overruns _ hnone => exact hnone _ (.mapped hrest h)
    | mapped hrest' hraises =>
      rw [hrest'.unique hrest] at hraises
      exact ih hraises

theorem ipToBytes_of_reads (h : Reads text bytes) : ipToBytes text = .ok (some bytes) := by
  have hraises : ¬ Raises text := by
    rcases h with h | ⟨-, h⟩
    · exact h.not_raises
    · intro hraises
      cases hraises with
      | overruns hover _ => exact not_overruns_of_readsV6 h hover
      | mapped hrest hraises =>
        obtain ⟨front, hopened, hfront⟩ := hrest
        rw [hopened] at h
        exact not_v6_of_rest hfront (raises_within hraises) h
  obtain ⟨read, hok, hall⟩ := ipToBytes_reads_iff hraises
  rw [hok, (hall bytes).mpr h]

example : (ipToBytes "10.0.0.1".toList).toOption = some (some [10, 0, 0, 1]) := by decide +kernel

end Read

/-! ## Two spellings with one key -/

/-- The text without a colon that a spelling comes down to: a quad, alone or bare behind the
lower-case `::ffff:`; or the first of one or two groups that stand bare behind it. -/
def HostOf (spelling : Spelling) (host : List Char) : Prop :=
  ':' ∉ host ∧ (spelling.address = host ∨ spelling.bracketed = false ∧
    (spelling.address = mappedPrefix ++ host ∨
      ∃ other, ':' ∉ other ∧ spelling.address = mappedPrefix ++ (host ++ ':' :: other)))

/-- The port that is not taken off: one behind a bare IPv4-mapped address in another case. -/
def lastingPort (spelling : Spelling) : List Char :=
  if spelling.bracketed ∨ mappedPrefix <+: spelling.address ∨ ':' ∉ spelling.address then []
  else spelling.portText

/-- Two spellings that come down to one host; or whose addresses are one text, of which the
lower-case `::ffff:` is taken off both or neither, with the same lasting port. -/
inductive Alike (spelling spelling' : Spelling) : Prop where
  | host {host : List Char} (h : HostOf spelling host) (h' : HostOf spelling' host)
  | text (haddress : spelling.address = spelling'.address)
      (hbrackets : mappedPrefix <+: spelling.address → spelling.bracketed = spelling'.bracketed)
      (hport : lastingPort spelling = lastingPort spelling')

section Alike

variable {host rest : List Char} {spelling spelling' : Spelling}

theorem kept_of_host (h : HostOf spelling host) : kept spelling = host := by
  obtain ⟨hplain, haddress | ⟨hbare, haddress | ⟨other, hother, haddress⟩⟩⟩ := h
  · have hbegins : ¬ mappedPrefix <+: host := fun hbegins =>
      hplain (hbegins.subset (List.mem_cons_self ..))
    rw [kept, haddress, keptBare, if_neg hbegins, if_neg hplain, ite_self]
  · rw [kept, hbare, if_neg Bool.false_ne_true, haddress, keptBare,
      if_pos (List.prefix_append _ _), List.drop_left, stub, List.count_eq_zero.mpr hplain]
    exact if_neg (by decide)
  · have hone : (host ++ ':' :: other).count ':' = 1 := by
      rw [List.count_append, List.count_eq_zero.mpr hplain, List.count_cons_self,
        List.count_eq_zero.mpr hother]
    have hfront := takeWhile_front hplain (.inr ⟨other, rfl⟩)
    rw [kept, hbare, if_neg Bool.false_ne_true, haddress, keptBare,
      if_pos (List.prefix_append _ _), List.drop_left, stub, if_pos hone, hfront]

/-- What is kept of a spelling: its host, the groups behind the prefix, or the whole address. -/
inductive Holds (spelling : Spelling) : Prop where
  | host {host : List Char} (h : HostOf spelling host)
  | groups {rest : List Char} (hbare : spelling.bracketed = false)
      (haddress : spelling.address = mappedPrefix ++ rest)
      (hdenotes : V6 (mappedPrefix ++ rest) spelling.bytes) (hcolon : ':' ∈ rest)
      (hkept : kept spelling = rest)
  | whole (hmapped : mappedPrefix <+: spelling.address → spelling.bracketed = true)
      (hcolon : ':' ∈ spelling.address)
      (hkept : kept spelling = spelling.address ++ lastingPort spelling)

theorem holds_behind_prefix (hbare : spelling.bracketed = false)
    (haddress : spelling.address = mappedPrefix ++ rest) : Holds spelling := by
  by_cases hplain : ':' ∉ rest
  · exact .host ⟨hplain, .inr ⟨hbare, .inl haddress⟩⟩
  have hmem := not_not.mp hplain
  by_cases hone : rest.count ':' = 1
  · obtain ⟨host, other, rfl, hhost⟩ := List.eq_append_cons_of_mem hmem
    rw [List.count_append, List.count_eq_zero.mpr hhost, List.count_cons_self] at hone
    have hother : ':' ∉ other := List.count_eq_zero.mp (by omega)
    exact .host ⟨hhost, .inr ⟨hbare, .inr ⟨other, hother, haddress⟩⟩⟩
  · refine .groups hbare haddress ?_ hmem ?_
    · rcases spelling.denotes with h | h
      · refine absurd hmem ?_
        rw [haddress] at h
        generalize htext : mappedPrefix ++ rest = text at h
        cases h with
        | quad h =>
          exact absurd (htext ▸ List.mem_append_left rest (List.mem_cons_self ..)) (quad_plain h)
        | mapped hfront h =>
          rw [(List.append_inj htext hfront.length_eq.symm).2]
          exact quad_plain h
      · exact haddress ▸ h
    · rw [kept, hbare, if_neg Bool.false_ne_true, haddress, keptBare,
        if_pos (List.prefix_append _ _), List.drop_left, stub]
      exact if_neg hone

theorem kept_whole (hmapped : mappedPrefix <+: spelling.address → spelling.bracketed = true)
    (hcolon : ':' ∈ spelling.address) :
    kept spelling = spelling.address ++ lastingPort spelling := by
  by_cases hbracketed : spelling.bracketed = true
  · rw [kept, if_pos hbracketed, lastingPort, if_pos (.inl hbracketed), List.append_nil]
  · have hbegins : ¬ mappedPrefix <+: spelling.address := fun h => hbracketed (hmapped h)
    have hlasts : ¬ (spelling.bracketed = true ∨ mappedPrefix <+: spelling.address ∨
        ':' ∉ spelling.address) := by
      rintro (h | h | h)
      · exact hbracketed h
      · exact hbegins h
      · exact h hcolon
    rw [kept, if_neg hbracketed, keptBare, if_neg hbegins, if_pos hcolon, lastingPort,
      if_neg hlasts]

theorem holds (spelling : Spelling) : Holds spelling := by
  by_cases hplain : ':' ∉ spelling.address
  · exact .host ⟨hplain, .inl rfl⟩
  have hcolon := not_not.mp hplain
  by_cases hbare : mappedPrefix <+: spelling.address → spelling.bracketed = true
  · exact .whole hbare hcolon (kept_whole hbare hcolon)
  · obtain ⟨⟨rest, hrest⟩, hbracketed⟩ := Classical.not_imp.mp hbare
    exact holds_behind_prefix (Bool.not_eq_true _ ▸ hbracketed) hrest.symm

theorem lastingPort_cases (spelling : Spelling) : lastingPort spelling = [] ∨
    lastingPort spelling = spelling.portText ∧ V4 spelling.address spelling.bytes := by
  unfold lastingPort
  split
  · exact .inl rfl
  · rename_i hlasts
    rcases bare_cases spelling (Bool.not_eq_true _ ▸ fun h => hlasts (.inl h)) with h | ⟨-, hnone⟩
    · exact .inr ⟨rfl, h⟩
    · exact .inl hnone

/-- Groups that stand behind the prefix are fewer than eight and have no `::`: they are no address
of their own. -/
theorem groups_ne_whole {bytes : Bytes} (hdenotes : V6 (mappedPrefix ++ rest) bytes)
    (hcolon : ':' ∈ spelling.address) : rest ≠ spelling.address ++ lastingPort spelling := by
  obtain ⟨c, more, hrest, hc⟩ := rest_of_v6 hdenotes
  have hfront : IsMappedPrefix mappedPrefix := by unfold IsMappedPrefix; decide
  rintro rfl
  rcases spelling.denotes with h | h
  · generalize spelling.address = address at *
    cases h with
    | quad h => exact quad_plain h hcolon
    | mapped hmapped h =>
      obtain ⟨tail, rfl⟩ := hmapped.cons
      exact hc (List.cons.inj hrest).1.symm
  · have hport : lastingPort spelling = [] := by
      rcases lastingPort_cases spelling with hnone | ⟨-, hv4⟩
      · exact hnone
      · exact absurd hv4.dot_mem (dot_notMem_of_readsV6 (.inl h))
    rw [hport, List.append_nil] at hdenotes
    rcases readsV6_cases (.inl h) with ⟨groups, hgroups, hlen, hall, -⟩ | ⟨count, -, hgap⟩
    · have htail : "ffff:".toList ++ spelling.address = joined ':' ("ffff".toList :: groups) := by
        obtain ⟨first, others, rfl⟩ := List.exists_cons_of_length_eq_add_one hlen
        rw [hgroups, joined_cons_cons]
        rfl
      have hmore : ∀ g ∈ "ffff".toList :: groups, IsGroup g :=
        List.forall_mem_cons.mpr ⟨by decide, hall⟩
      refine not_overruns_of_readsV6 (.inl hdenotes)
        ⟨[], "ffff:".toList ++ spelling.address, ⟨rfl, by decide, ?_⟩, ?_⟩
      · rw [htail]
        exact groups_not_within hmore
      · rw [htail, sides, pieces_joined (plain_of_groups hmore), List.length_cons, hlen]
        decide
    · exact not_v6_of_rest hfront (gap_within hgap) (.inl hdenotes)

/-- The parts of an address with a colon and the port that lasts behind it. -/
theorem address_parts (hcolon : ':' ∈ spelling.address) :
    (lastingPort spelling = [] ∧ '.' ∉ spelling.address) ∨
      ∃ front quad, spelling.address = front ++ quad ∧ front.length = 7 ∧ ':' ∉ quad ∧ '.' ∈ quad ∧
        (lastingPort spelling = [] ∨ ∃ digits, lastingPort spelling = ':' :: digits) := by
  rcases spelling.denotes with h | h
  · have hport : lastingPort spelling = [] ∨ ∃ digits, lastingPort spelling = ':' :: digits := by
      rcases lastingPort_cases spelling with hnone | ⟨hlasts, -⟩
      · exact .inl hnone
      · rw [hlasts]
        exact (portText_cases spelling).imp_right fun ⟨digits, hdigits, _⟩ => ⟨digits, hdigits⟩
    generalize spelling.address = address at *
    cases h with
    | quad h => exact absurd hcolon (quad_plain h)
    | mapped hfront h =>
      exact .inr ⟨_, _, rfl, hfront.length_eq, quad_plain h, h.dot_mem, hport⟩
  · have hdot := dot_notMem_of_readsV6 (.inl h)
    refine .inl ⟨?_, hdot⟩
    rcases lastingPort_cases spelling with hnone | ⟨-, hv4⟩
    · exact hnone
    · exact absurd hv4.dot_mem hdot

theorem address_eq_of_kept (hcolon : ':' ∈ spelling.address) (hcolon' : ':' ∈ spelling'.address)
    (h : spelling.address ++ lastingPort spelling = spelling'.address ++ lastingPort spelling') :
    spelling.address = spelling'.address ∧ lastingPort spelling = lastingPort spelling' := by
  rcases address_parts hcolon with ⟨hport, hdot⟩ | ⟨front, quad, hsplit, hlen, hquad, hdot, hport⟩ <;>
    rcases address_parts hcolon' with ⟨hport', hdot'⟩ |
      ⟨front', quad', hsplit', hlen', hquad', hdot', hport'⟩
  · rw [hport, hport', List.append_nil, List.append_nil] at h
    exact ⟨h, hport.trans hport'.symm⟩
  · rw [hport, List.append_nil] at h
    exact absurd (h ▸ by simp [hsplit', hdot']) hdot
  · rw [hport', List.append_nil] at h
    exact absurd (h ▸ by simp [hsplit, hdot]) hdot'
  · rw [hsplit, hsplit', List.append_assoc, List.append_assoc] at h
    obtain ⟨hfronts, hrest⟩ := List.append_inj h (hlen.trans hlen'.symm)
    have hquads : quad = quad' := by
      rw [← takeWhile_front hquad hport, hrest, takeWhile_front hquad' hport']
    rw [hquads] at hrest
    exact ⟨by rw [hsplit, hsplit', hfronts, hquads], List.append_cancel_left hrest⟩

/-- The same is kept of alike spellings, and of no others. -/
theorem kept_eq_iff : kept spelling = kept spelling' ↔ Alike spelling spelling' := by
  constructor
  · intro h
    cases holds spelling with
    | host hhost =>
      rw [kept_of_host hhost] at h
      cases holds spelling' with
      | host hhost' => exact .host hhost ((h.trans (kept_of_host hhost')) ▸ hhost')
      | groups _ _ _ hcolon hkept =>
        rw [hkept] at h
        exact absurd (h ▸ hcolon) hhost.1
      | whole _ hcolon hkept =>
        rw [hkept] at h
        exact absurd (h ▸ List.mem_append_left _ hcolon) hhost.1
    | groups hbare haddress hdenotes hcolon hkept =>
      rw [hkept] at h
      cases holds spelling' with
      | host hhost' => exact absurd ((h.trans (kept_of_host hhost')) ▸ hcolon) hhost'.1
      | groups hbare' haddress' _ _ hkept' =>
        rw [hkept'] at h
        have hsame : spelling.address = spelling'.address := by rw [haddress, haddress', h]
        have hport : lastingPort spelling = [] :=
          if_pos (.inr (.inl (haddress ▸ List.prefix_append _ _)))
        have hport' : lastingPort spelling' = [] :=
          if_pos (.inr (.inl (haddress' ▸ List.prefix_append _ _)))
        exact .text hsame (fun _ => hbare.trans hbare'.symm) (hport.trans hport'.symm)
      | whole _ hcolon' hkept' => exact absurd (h.trans hkept') (groups_ne_whole hdenotes hcolon')
    | whole hmapped hcolon hkept =>
      rw [hkept] at h
      cases holds spelling' with
      | host hhost' =>
        rw [kept_of_host hhost'] at h
        exact absurd (h ▸ List.mem_append_left _ hcolon) hhost'.1
      | groups _ _ hdenotes' _ hkept' =>
        exact absurd (h.trans hkept').symm (groups_ne_whole hdenotes' hcolon)
      | whole hmapped' hcolon' hkept' =>
        obtain ⟨haddress, hport⟩ := address_eq_of_kept hcolon hcolon' (h.trans hkept')
        exact .text haddress (fun hbegins => (hmapped hbegins).trans
          (hmapped' (haddress ▸ hbegins)).symm) hport
  · rintro (⟨h, h'⟩ | ⟨haddress, hbrackets, hport⟩)
    · rw [kept_of_host h, kept_of_host h']
    · by_cases hbegins : mappedPrefix <+: spelling.address
      · have hbegins' : mappedPrefix <+: spelling'.address := haddress ▸ hbegins
        rw [kept, kept, hbrackets hbegins, keptBare, if_pos hbegins, keptBare, if_pos hbegins',
          haddress]
      by_cases hplain : ':' ∉ spelling.address
      · rw [kept_of_host ⟨hplain, .inl rfl⟩, kept_of_host ⟨haddress ▸ hplain, .inl rfl⟩, haddress]
      · rw [kept_whole (fun h => absurd h hbegins) (not_not.mp hplain),
          kept_whole (fun h => absurd (haddress.symm ▸ h) hbegins) (haddress ▸ not_not.mp hplain),
          haddress, hport]

end Alike

/-! ## One caller, one bucket -/

section Bucket

variable {headers headers' : String → Option (List Char)} {options options' : ClientIpOptions}
  {networks : List Cidr} {chain : List (List Char)} (spelling spelling' : Spelling)

/-- The entry that decides a call: the socket's address; the entry that as many readable ones as
there are hops but one stand behind; or the first from the right that no trusted proxy covers. -/
inductive Decides (headers : String → Option (List Char)) (options : ClientIpOptions) :
    List Char → Prop where
  | socket {raw : List Char} (hstrategy : options.strategy = .socket)
      (haddress : options.socketAddress = some raw) : Decides headers options (trim raw)
  | counted {hops : Nat} {trustedProxies : Option (List (List Char))} {value raw : List Char}
      {older newer : List (List Char)}
      (hstrategy : options.strategy = .forwarded hops trustedProxies)
      (hcounted : ∀ proxy others, trustedProxies ≠ some (proxy :: others))
      (hheader : decidingHeader headers options.headerNames = some value)
      (hvalue : value.splitOn ',' = older ++ raw :: newer)
      (hnewer : (newer.filterMap normalise).length + 1 = hops) : Decides headers options (trim raw)
  | named {hops : Nat} {proxy : List Char} {others : List (List Char)} {value entry : List Char}
      {older skipped : List (List Char)}
      (hstrategy : options.strategy = .forwarded hops (some (proxy :: others)))
      (hheader : decidingHeader headers options.headerNames = some value)
      (hparse : ∀ text ∈ proxy :: others, ¬ Raises (cidrParts text).1)
      (hnetwork : ∃ text ∈ proxy :: others, ∃ network, Parses text network)
      (hvalue : entries value = older ++ entry :: skipped)
      (hskipped : ∀ trusted ∈ skipped, Trusted (proxy :: others) trusted)
      (hentry : ¬ Trusted (proxy :: others) entry) : Decides headers options entry

instance : Decidable (Readable spelling) := inferInstanceAs (Decidable (_ ∨ _))

/-- A call whose trusted proxies are named. -/
def Named (options : ClientIpOptions) : Prop :=
  ∃ hops proxy others, options.strategy = .forwarded hops (some (proxy :: others))

/-- The answer to a call that a spelling decides. Where the proxies are named, an entry that is not
read leaves the socket's address. -/
def answer (options : ClientIpOptions) (spelling : Spelling) : Option (List Char) :=
  match options.strategy with
  | .forwarded _ (some (_ :: _)) =>
    if Readable spelling then some (kept spelling) else options.socketAddress.bind normalise
  | _ => some (kept spelling)

theorem walk_skip {skipped rest : List (List Char)}
    (h : ∀ entry ∈ skipped, Covered networks entry) :
    walk networks (skipped ++ rest) = walk networks rest := by
  induction skipped with
  | nil => rfl
  | cons entry skipped ih =>
    obtain ⟨bytes, hread, hnetwork⟩ := h entry List.mem_cons_self
    rw [List.cons_append, walk, ipToBytes_of_reads hread]
    simp only [any_withinCidr.mpr hnetwork, if_true]
    exact ih fun other hother => h other (List.mem_cons_of_mem _ hother)

theorem searchHeaders_deciding {hops : Nat} {trustedProxies : Option (List (List Char))}
    {socket : Option (List Char)} {names : List String} {value : List Char}
    (h : decidingHeader headers names = some value) :
    searchHeaders headers hops trustedProxies socket names
      = (do return (← foundIn hops trustedProxies value).or socket) := by
  induction names with
  | nil => cases h
  | cons name names ih =>
    rw [decidingHeader, List.findSome?_cons] at h
    rw [searchHeaders]
    split
    · rename_i c text hheader
      rw [hheader] at h
      obtain rfl : c :: text = value := Option.some.inj h
      cases foundIn hops trustedProxies (c :: text) with
      | error raised => rfl
      | ok found =>
        cases found with
        | none => rfl
        | some address => rfl
    · rename_i hother
      refine ih ?_
      cases hheader : headers name with
      | none =>
        rw [hheader] at h
        exact h
      | some held =>
        cases held with
        | nil =>
          rw [hheader] at h
          exact h
        | cons c text => exact absurd hheader (hother c text)

theorem isSpace_of_addressChar {c : Char} (h : IsAddressChar c) : isSpace c = false := by
  have hrange : 46 ≤ c.toNat ∧ c.toNat ≤ 102 := by
    rcases h with rfl | rfl | h
    · decide
    · decide
    · simp only [isHexDigit, isDigit, Bool.or_eq_true, Bool.and_eq_true, decide_eq_true_eq,
        Char.le_def, UInt32.le_iff_toNat_le] at h
      have hvalues : (48 ≤ c.toNat ∧ c.toNat ≤ 57) ∨ (97 ≤ c.toNat ∧ c.toNat ≤ 102) ∨
          (65 ≤ c.toNat ∧ c.toNat ≤ 70) := or_assoc.mp h
      omega
  simp [isSpace]
  omega

theorem trim_text : trim spelling.text = spelling.text := by
  have haddress := fun c hc => isSpace_of_addressChar (address_chars spelling (c := c) hc)
  have hport : ∀ c ∈ spelling.portText, isSpace c = false := by
    intro c hc
    rcases portText_cases spelling with hnone | ⟨digits, hdigits, -, hall⟩
    · rw [hnone] at hc
      cases hc
    · rw [hdigits] at hc
      rcases List.mem_cons.mp hc with rfl | hc
      · decide
      · exact isDigit_not_isSpace (hall c hc)
  refine trim_of_no_space fun c hc => ?_
  unfold Spelling.text at hc
  split at hc
  · rcases List.mem_cons.mp hc with rfl | hc
    · decide
    · rcases List.mem_append.mp hc with hc | hc
      · exact haddress c hc
      · rcases List.mem_cons.mp hc with rfl | hc
        · decide
        · exact hport c hc
  · rcases List.mem_append.mp hc with hc | hc
    · exact haddress c hc
    · exact hport c hc

example : trim "\t[::ffff:7f00:1]:443 ".toList = "[::ffff:7f00:1]:443".toList := by decide +kernel

theorem text_ne_nil : spelling.text ≠ [] := by
  have hne := address_ne_nil spelling
  unfold Spelling.text
  split
  · exact List.cons_ne_nil _ _
  · exact List.append_ne_nil_of_left_ne_nil hne _

theorem normalise_of_trim {raw : List Char} (h : trim raw = spelling.text) :
    normalise raw = some (kept spelling) := by
  simp only [normalise, h, if_neg (text_ne_nil spelling), normaliseTrimmed_text]

example : normalise " ::ffff:7f00:1".toList = some "7f00".toList := by decide +kernel

theorem nthFromTheRight_deciding {value raw address : List Char} {older newer : List (List Char)}
    {hops : Nat} (hvalue : value.splitOn ',' = older ++ raw :: newer)
    (hread : normalise raw = some address)
    (hnewer : (newer.filterMap normalise).length + 1 = hops) :
    nthFromTheRight value hops = some address := by
  have hchain : readable value
      = older.filterMap normalise ++ address :: newer.filterMap normalise := by
    rw [readable, hvalue, List.filterMap_append, List.filterMap_cons, hread]
  have hlen : (older.filterMap normalise ++ address :: newer.filterMap normalise).length
      = (older.filterMap normalise).length + hops := by
    rw [List.length_append, List.length_cons, hnewer]
  have hle : ¬ (older.filterMap normalise).length + hops < hops := by omega
  simp only [nthFromTheRight, hchain, hlen, if_neg hle, Nat.add_sub_cancel]
  rw [List.getElem?_append_right (Nat.le_refl _), Nat.sub_self]
  rfl

/-- The walk along a chain ends at the entry that no trusted proxy covers. -/
theorem firstUntrustedHop_deciding {proxies : List (List Char)} {value : List Char}
    {older skipped : List (List Char)}
    (hparse : ∀ text ∈ proxies, ¬ Raises (cidrParts text).1)
    (hnetwork : ∃ text ∈ proxies, ∃ network, Parses text network)
    (hvalue : entries value = older ++ spelling.text :: skipped)
    (hskipped : ∀ trusted ∈ skipped, Trusted proxies trusted)
    (hentry : ¬ Trusted proxies spelling.text) : firstUntrustedHop value proxies
      = .ok (if Readable spelling then some (kept spelling) else none) := by
  rcases networksOf_cases proxies with ⟨⟨text, hmem, hraises⟩, -⟩ | ⟨-, networks, hok, hnetworks⟩
  · exact absurd hraises (hparse text hmem)
  have hcovered : ∀ entry, Covered networks entry ↔ Trusted proxies entry :=
    fun _ => covered_iff_trusted hnetworks
  have hne : entries value ≠ [] := by
    rw [hvalue]
    simp
  have hsome : networks ≠ [] := by
    obtain ⟨text, hmem, network, hparses⟩ := hnetwork
    exact List.ne_nil_of_mem ((hnetworks network).mpr ⟨text, hmem, hparses⟩)
  have hchain : (entries value).reverse = skipped.reverse ++ spelling.text :: older.reverse := by
    rw [hvalue]
    simp
  rw [firstUntrustedHop_eq hne hok, if_neg hsome, hchain,
    walk_skip fun entry hmem => (hcovered entry).mpr (hskipped entry (List.mem_reverse.mp hmem)),
    walk]
  by_cases hreadable : Readable spelling
  · obtain ⟨hread, hreads⟩ := ipToBytes_of_readable spelling hreadable
    have hout : networks.any (withinCidr spelling.bytes) = false := by
      rw [Bool.eq_false_iff]
      intro hany
      exact hentry ((hcovered _).mp ⟨spelling.bytes, hreads, any_withinCidr.mp hany⟩)
    rw [hread, if_pos hreadable, ← normalise_of_trim spelling (trim_text spelling)]
    simp only [hout]
    rfl
  · rw [ipToBytes_of_bare_port spelling hreadable, if_neg hreadable]

theorem clientIp_of_decides (h : Decides headers options spelling.text) :
    clientIp headers options = .ok (answer options spelling) := by
  generalize htext : spelling.text = entry at h
  cases h with
  | socket hstrategy haddress =>
    simp only [clientIp, answer, hstrategy, haddress, Option.bind_some]
    rw [normalise_of_trim spelling htext.symm]
  | counted hstrategy hcounted hheader hvalue hnewer =>
    rename_i hops trustedProxies value raw older newer
    have hread := normalise_of_trim spelling htext.symm
    have hfound : foundIn hops trustedProxies value = .ok (some (kept spelling)) := by
      have hnth := nthFromTheRight_deciding hvalue hread hnewer
      rcases trustedProxies with _ | (_ | ⟨proxy, others⟩)
      · simp only [foundIn, hnth]
      · simp only [foundIn, hnth]
      · exact absurd rfl (hcounted proxy others)
    have hanswer : answer options spelling = some (kept spelling) := by
      simp only [answer, hstrategy]
      rcases trustedProxies with _ | (_ | ⟨proxy, others⟩)
      · rfl
      · rfl
      · exact absurd rfl (hcounted proxy others)
    simp only [clientIp, hstrategy]
    rw [searchHeaders_deciding hheader, hfound, hanswer]
    rfl
  | named hstrategy hheader hparse hnetwork hvalue hskipped hentry =>
    rename_i hops proxy others value older skipped
    subst htext
    have hfound := firstUntrustedHop_deciding spelling hparse hnetwork hvalue hskipped hentry
    simp only [clientIp, answer, hstrategy]
    rw [searchHeaders_deciding hheader, foundIn, hfound]
    by_cases hreadable : Readable spelling
    · rw [if_pos hreadable, if_pos hreadable]
      rfl
    · rw [if_neg hreadable, if_neg hreadable]
      rfl

/-- The spelling that a call hears: the one that decides it, or the socket's where the proxies are
named and the deciding one is not read. -/
inductive Hears (options : ClientIpOptions) (spelling : Spelling) : Option Spelling → Prop where
  | entry (h : Named options → Readable spelling) : Hears options spelling (some spelling)
  | socket {raw : List Char} {other : Spelling} (hnamed : Named options)
      (h : ¬ Readable spelling) (haddress : options.socketAddress = some raw)
      (hraw : trim raw = other.text) : Hears options spelling (some other)
  | nobody (hnamed : Named options) (h : ¬ Readable spelling)
      (haddress : options.socketAddress = none) : Hears options spelling none

theorem answer_of_hears {heard : Option Spelling} (h : Hears options spelling heard) :
    answer options spelling = heard.map kept := by
  unfold answer
  cases h with
  | entry h =>
    split
    · rename_i hops proxy others hstrategy
      rw [if_pos (h ⟨hops, proxy, others, hstrategy⟩)]
      rfl
    · rfl
  | socket hnamed h haddress hraw =>
    obtain ⟨hops, proxy, others, hstrategy⟩ := hnamed
    simp only [hstrategy, if_neg h, haddress, Option.bind_some, Option.map_some]
    exact normalise_of_trim _ hraw
  | nobody hnamed h haddress =>
    obtain ⟨hops, proxy, others, hstrategy⟩ := hnamed
    simp only [hstrategy, if_neg h, haddress]
    rfl

end Bucket

/-! ## A caller with two buckets -/

theorem quad_ada : Quad "203.0.113.5".toList [203, 0, 113, 5] := by
  have h : Quad (joined '.' ["203".toList, "0".toList, "113".toList, "5".toList])
      (["203".toList, "0".toList, "113".toList, "5".toList].map octetByte) :=
    .octets rfl (by decide)
  exact h

theorem mapped_ada : V4 "::ffff:203.0.113.5".toList [203, 0, 113, 5] := by
  have h : V4 ("::ffff:".toList ++ "203.0.113.5".toList) [203, 0, 113, 5] :=
    .mapped (by unfold IsMappedPrefix; decide) quad_ada
  exact h

def ada : Spelling where
  address := "203.0.113.5".toList
  bytes := [203, 0, 113, 5]
  bracketed := false
  port := none
  denotes := .inl (.quad quad_ada)
  digits _ h := nomatch h
  bare _ h := absurd rfl h

/-- The address of `ada` with a port. -/
def adaWithPort : Spelling where
  address := "203.0.113.5".toList
  bytes := [203, 0, 113, 5]
  bracketed := false
  port := some "51234".toList
  denotes := .inl (.quad quad_ada)
  digits := by decide
  bare _ _ := .quad quad_ada

/-- The IPv4-mapped spelling of the address of `ada`, in brackets. -/
def adaMapped : Spelling where
  address := "::ffff:203.0.113.5".toList
  bytes := [203, 0, 113, 5]
  bracketed := true
  port := some "443".toList
  denotes := .inl mapped_ada
  digits := by decide
  bare h := nomatch h

def behindNothing (spelling : Spelling) : ClientIpOptions where
  strategy := .socket
  socketAddress := some spelling.text

theorem decides_socket (headers : String → Option (List Char)) (spelling : Spelling) :
    Decides headers (behindNothing spelling) spelling.text := by
  have h : Decides headers (behindNothing spelling) (trim spelling.text) := .socket rfl rfl
  rwa [trim_text] at h

theorem hears_behindNothing (spelling : Spelling) :
    Hears (behindNothing spelling) spelling (some spelling) :=
  .entry fun ⟨_, _, _, hstrategy⟩ => nomatch hstrategy

theorem hostOf_ada : HostOf ada "203.0.113.5".toList := ⟨by decide, .inl rfl⟩

end Auth
