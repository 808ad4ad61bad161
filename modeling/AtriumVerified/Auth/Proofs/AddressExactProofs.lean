import AtriumVerified.Auth.Proofs.AddressProofs

/-!
# When the address parser is exact

A text is read as four bytes when it is a dotted quad, or when a text that is read as four bytes
stands after the IPv4-mapped prefix, with brackets taken away at each level. Any other text is read
as IPv6, which raises when there are too many groups.
-/

namespace Auth

open IpAddress Js

variable {text address front rest : List Char} {bytes other : Bytes}

/-! ## The IPv4-mapped prefix -/

section Mapped

/-- What stands after the IPv4-mapped prefix of what is read of a text. -/
def MappedRest (text rest : List Char) : Prop :=
  ∃ front, opened text = front ++ rest ∧ IsMappedPrefix front

theorem length_mappedPrefix (h : IsMappedPrefix front) : front.length = mappedPrefix.length :=
  h.length_eq

theorem startsMapped_iff :
    startsMapped address = true ↔ ∃ front rest, address = front ++ rest ∧ IsMappedPrefix front := by
  unfold startsMapped
  rw [List.isPrefixOf_iff_prefix]
  constructor
  · rintro ⟨lower, hlower⟩
    obtain ⟨front, rest, rfl, hfront, -⟩ := List.map_eq_append_iff.mp hlower.symm
    exact ⟨front, rest, rfl, hfront⟩
  · rintro ⟨front, rest, rfl, hfront⟩
    exact ⟨rest.map Char.toLower, by rw [List.map_append, hfront]; rfl⟩

theorem MappedRest.eq_drop (h : MappedRest text rest) :
    rest = (opened text).drop mappedPrefix.length := by
  obtain ⟨front, hopened, hfront⟩ := h
  rw [hopened, ← length_mappedPrefix hfront, List.drop_left]

theorem MappedRest.unique {rest' : List Char} (h : MappedRest text rest)
    (h' : MappedRest text rest') : rest = rest' := by rw [h.eq_drop, h'.eq_drop]

theorem mappedRest_of_startsMapped (h : startsMapped (opened text) = true) :
    MappedRest text ((opened text).drop mappedPrefix.length) := by
  obtain ⟨front, rest, hopened, hfront⟩ := startsMapped_iff.mp h
  refine ⟨front, ?_, hfront⟩
  rw [hopened, ← length_mappedPrefix hfront, List.drop_left]

theorem MappedRest.startsMapped (h : MappedRest text rest) : startsMapped (opened text) = true := by
  obtain ⟨front, hopened, hfront⟩ := h
  exact startsMapped_iff.mpr ⟨front, rest, hopened, hfront⟩

theorem MappedRest.colon_mem (h : MappedRest text rest) : ':' ∈ opened text := by
  obtain ⟨front, hopened, hfront⟩ := h
  obtain ⟨more, rfl⟩ := hfront.cons
  rw [hopened]
  simp

theorem MappedRest.length_lt (h : MappedRest text rest) : rest.length < text.length := by
  have hopened := (opened_within text).length_le
  obtain ⟨front, hsplit, hfront⟩ := h
  obtain ⟨more, rfl⟩ := hfront.cons
  rw [hsplit, List.length_append, List.length_cons] at hopened
  omega

end Mapped

/-! ## One read -/

section Read

theorem readBytes_congr {fuel fuel' : Nat} (h : text.length < fuel) (h' : text.length < fuel') :
    readBytes fuel text = readBytes fuel' text := by
  induction fuel generalizing text fuel' with
  | zero => exact absurd h (Nat.not_lt_zero _)
  | succ fuel ih =>
    cases fuel' with
    | zero => exact absurd h' (Nat.not_lt_zero _)
    | succ fuel' =>
      rw [readBytes, readBytes]
      by_cases hmapped : startsMapped (opened text) = true
      · have hlt := (mappedRest_of_startsMapped hmapped).length_lt
        have hrest : readBytes fuel ((opened text).drop mappedPrefix.length)
            = readBytes fuel' ((opened text).drop mappedPrefix.length) :=
          ih (by omega) (by omega)
        simp only [readAddress, hmapped, if_true, hrest]
      · simp only [readAddress, hmapped]
        rfl

theorem ipToBytes_eq (text : List Char) : ipToBytes text = readAddress ipToBytes (opened text) := by
  rw [ipToBytes, readBytes]
  by_cases hmapped : startsMapped (opened text) = true
  · have hlt := (mappedRest_of_startsMapped hmapped).length_lt
    have hrest : readBytes text.length ((opened text).drop mappedPrefix.length)
        = ipToBytes ((opened text).drop mappedPrefix.length) :=
      readBytes_congr hlt (Nat.lt_succ_self _)
    simp only [readAddress, hmapped, if_true, hrest]
  · simp only [readAddress, hmapped]
    rfl

inductive ReadsV4 : List Char → Bytes → Prop where
  | quad {text : List Char} {bytes : Bytes} (h : Quad (opened text) bytes) : ReadsV4 text bytes
  | mapped {text rest : List Char} {bytes : Bytes} (hrest : MappedRest text rest)
      (h : ReadsV4 rest bytes) : ReadsV4 text bytes

/-- The texts that make the parser raise: one with more than eight groups beside its `::`, unless
it is read as four bytes, and one that has such a text after the IPv4-mapped prefix. -/
inductive Raises : List Char → Prop where
  | overruns {text : List Char} (h : Overruns (opened text))
      (hread : ∀ bytes, ¬ ReadsV4 text bytes) : Raises text
  | mapped {text rest : List Char} (hrest : MappedRest text rest) (h : Raises rest) : Raises text

def Reads (text : List Char) (bytes : Bytes) : Prop :=
  ReadsV4 text bytes ∨ (∀ quad, ¬ ReadsV4 text quad) ∧ ReadsV6 (opened text) bytes

theorem ReadsV4.length (h : ReadsV4 text bytes) : bytes.length = 4 := by
  induction h with
  | quad h => exact h.length_bytes
  | mapped _ _ ih => exact ih

theorem readsV6_length (h : ReadsV6 address bytes) : bytes.length = 16 := by
  rcases h with h | h
  · exact h.length_bytes
  · exact h.length_bytes (Nat.le_refl 8)

theorem reads_of_pattern {octets : List (List Char)} (h : ipv4Pattern (opened text) = some octets) :
    (∀ rest, ¬ MappedRest text rest) ∧ (∀ bytes, ¬ ReadsV6 (opened text) bytes) ∧
      ¬ Overruns (opened text) := by
  have hcolon := colon_notMem_of_ipv4Pattern h
  refine ⟨fun rest hrest => hcolon hrest.colon_mem,
    fun bytes hreads => hcolon (readsV6_colon hreads), fun hover => ?_⟩
  obtain ⟨left, right, hcut, -⟩ := hover
  exact hcolon hcut.colon_mem

theorem ipToBytes_v6 (hpattern : ipv4Pattern (opened text) = none)
    (hrest : ∀ rest, MappedRest text rest →
      ∃ read, ipToBytes rest = .ok read ∧ ∀ mapped, read = some mapped → mapped.length ≠ 4) :
    ipToBytes text = ipv6ToBytes (opened text) := by
  rw [ipToBytes_eq]
  by_cases hmapped : startsMapped (opened text) = true
  · obtain ⟨read, hread, hlength⟩ := hrest _ (mappedRest_of_startsMapped hmapped)
    simp only [readAddress, hpattern, hmapped, if_true, hread]
    cases read with
    | none => rfl
    | some mapped => exact if_neg (hlength mapped rfl)
  · simp only [readAddress, hpattern, hmapped]
    rfl

/-- What the parser makes of a text: it raises, or gives what the text is read as. -/
def Settled (text : List Char) : Prop :=
  (Raises text ∧ ipToBytes text = .error .invalidArrayLength) ∨
  (¬ Raises text ∧ ∃ read, ipToBytes text = .ok read ∧
    ∀ bytes, read = some bytes ↔ Reads text bytes)

theorem settled_of_v6 (hread : ipToBytes text = ipv6ToBytes (opened text))
    (hquad : ∀ bytes, ¬ ReadsV4 text bytes)
    (hrest : ∀ rest, MappedRest text rest → ¬ Raises rest) : Settled text := by
  by_cases hover : Overruns (opened text)
  · exact .inl ⟨.overruns hover hquad, by rw [hread, ipv6ToBytes_of_overruns hover]⟩
  · obtain ⟨read, hok, hreads⟩ := ipv6ToBytes_ok hover
    refine .inr ⟨fun hraises => ?_, read, by rw [hread, hok], fun bytes => ?_⟩
    · cases hraises with
      | overruns h _ => exact hover h
      | mapped hmapped h => exact hrest _ hmapped h
    · rw [hreads]
      constructor
      · intro h
        exact .inr ⟨hquad, h⟩
      · rintro (h | ⟨-, h⟩)
        · exact absurd h (hquad bytes)
        · exact h

/-- A text with the IPv4-mapped prefix is settled when what stands after it is. -/
theorem settled_of_rest (hpattern : ipv4Pattern (opened text) = none)
    (hquad : ∀ bytes, ¬ Quad (opened text) bytes) (hmapped : MappedRest text rest)
    (h : Settled rest) : Settled text := by
  have hstarts := hmapped.startsMapped
  have hdrop := hmapped.eq_drop
  rcases h with ⟨hraises, herror⟩ | ⟨hraises, read, hok, hreads⟩
  · refine .inl ⟨.mapped hmapped hraises, ?_⟩
    simp only [ipToBytes_eq text, readAddress, hpattern, hstarts, if_true, ← hdrop, herror]
  · by_cases hfour : ∃ bytes, read = some bytes ∧ bytes.length = 4
    · obtain ⟨bytes, rfl, hlen⟩ := hfour
      have hv4 : ReadsV4 rest bytes := by
        rcases (hreads bytes).mp rfl with h | ⟨-, h⟩
        · exact h
        · have := readsV6_length h
          omega
      have htext : ReadsV4 text bytes := .mapped hmapped hv4
      refine .inr ⟨fun hraise => ?_, some bytes, ?_, fun other => ?_⟩
      · cases hraise with
        | overruns _ hread => exact hread bytes htext
        | mapped hmapped' h =>
          rw [hmapped'.unique hmapped] at h
          exact hraises h
      · simp only [ipToBytes_eq text, readAddress, hpattern, hstarts, if_true, ← hdrop, hok, hlen]
      · constructor
        · rintro ⟨⟩
          exact .inl htext
        · rintro (hother | ⟨hnone, -⟩)
          · cases hother with
            | quad h => exact absurd h (hquad other)
            | mapped hmapped' h =>
              rw [hmapped'.unique hmapped] at h
              exact (hreads other).mpr (.inl h)
          · exact absurd htext (hnone bytes)
    · have hnot : ∀ mapped, read = some mapped → mapped.length ≠ 4 :=
        fun mapped hsome hlen => hfour ⟨mapped, hsome, hlen⟩
      refine settled_of_v6 (ipToBytes_v6 hpattern fun rest' hmapped' => ?_) (fun bytes hv4 => ?_)
        (fun rest' hmapped' => ?_)
      · rw [hmapped'.unique hmapped]
        exact ⟨read, hok, hnot⟩
      · cases hv4 with
        | quad h => exact hquad bytes h
        | mapped hmapped' h =>
          rw [hmapped'.unique hmapped] at h
          exact hnot bytes ((hreads bytes).mpr (.inl h)) h.length
      · rw [hmapped'.unique hmapped]
        exact hraises

/-- What the parser makes of every text. -/
theorem ipToBytes_cases (text : List Char) : Settled text := by
  induction hn : text.length using Nat.strong_induction_on generalizing text with
  | _ n ih =>
    subst hn
    cases hpattern : ipv4Pattern (opened text) with
    | some octets =>
      obtain ⟨hnoRest, hnoV6, hnoOver⟩ := reads_of_pattern hpattern
      right
      refine ⟨fun hraises => ?_, bytesOfOctets octets, ?_, fun bytes => ?_⟩
      · cases hraises with
        | overruns h _ => exact hnoOver h
        | mapped hrest _ => exact hnoRest _ hrest
      · simp only [ipToBytes_eq, readAddress, hpattern]
      · rw [bytesOfOctets_iff hpattern]
        constructor
        · intro hquad
          exact .inl (.quad hquad)
        · rintro (hreads | ⟨-, hreads⟩)
          · cases hreads with
            | quad h => exact h
            | mapped hrest _ => exact absurd hrest (hnoRest _)
          · exact absurd hreads (hnoV6 _)
    | none =>
      have hnoQuad : ∀ bytes, ¬ Quad (opened text) bytes := by
        intro bytes hquad
        obtain ⟨octets, hoctets⟩ := quad_pattern hquad
        rw [hpattern] at hoctets
        cases hoctets
      by_cases hmapped : ∃ rest, MappedRest text rest
      · obtain ⟨rest, hmapped⟩ := hmapped
        exact settled_of_rest hpattern hnoQuad hmapped (ih _ hmapped.length_lt rest rfl)
      · have hnoRest : ∀ rest, ¬ MappedRest text rest := fun rest h => hmapped ⟨rest, h⟩
        refine settled_of_v6 (ipToBytes_v6 hpattern fun rest h => absurd h (hnoRest rest))
          (fun bytes hv4 => ?_) (fun rest h => absurd h (hnoRest rest))
        cases hv4 with
        | quad h => exact hnoQuad bytes h
        | mapped hrest _ => exact hnoRest _ hrest

theorem ipToBytes_raises_iff :
    ipToBytes text = .error .invalidArrayLength ↔ Raises text := by
  rcases ipToBytes_cases text with ⟨hraises, herror⟩ | ⟨hraises, read, hok, -⟩
  · exact ⟨fun _ => hraises, fun _ => herror⟩
  · rw [hok]
    exact ⟨fun h => (by cases h), fun h => absurd h hraises⟩

theorem ipToBytes_reads_iff (h : ¬ Raises text) :
    ∃ read, ipToBytes text = .ok read ∧ ∀ bytes, read = some bytes ↔ Reads text bytes := by
  rcases ipToBytes_cases text with ⟨hraises, -⟩ | ⟨-, hread⟩
  · exact absurd hraises h
  · exact hread

end Read

/-! ## Exactness -/

section Exact

/-- The address parser is exact on a text: it returns four bytes when the text spells an IPv4
address and sixteen when it spells an IPv6 address, each time the bytes it denotes, and null
otherwise. -/
def Exact (text : List Char) : Prop :=
  ∃ read, ipToBytes text = .ok read ∧
    (∀ bytes, (read = some bytes ∧ bytes.length = 4) ↔ Spells V4 text bytes) ∧
    (∀ bytes, (read = some bytes ∧ bytes.length = 16) ↔ Spells V6 text bytes) ∧
    (read = none ↔ ∀ bytes, ¬ Spells V4 text bytes ∧ ¬ Spells V6 text bytes)

inductive Slips (text : List Char) : Prop where
  /-- Too many groups beside a `::`. -/
  | raises (h : Raises text)
  /-- A `::` that stands for no group. -/
  | eight {bytes : Bytes} (h : Gap 8 (opened text) bytes)
  /-- The IPv4-mapped prefix before brackets, or before another such prefix. -/
  | nested {rest : List Char} {bytes : Bytes} (hrest : MappedRest text rest)
      (h : ReadsV4 rest bytes) (hquad : ∀ quad, ¬ Quad rest quad)

theorem addressChar_facts {c : Char} (h : IsAddressChar c) :
    c ≠ '[' ∧ isLineTerminator c = false := by
  have hbracket : ¬ IsAddressChar '[' := by
    unfold IsAddressChar
    decide
  refine ⟨fun heq => hbracket (heq ▸ h), ?_⟩
  rw [Bool.eq_false_iff]
  intro hline
  simp only [isLineTerminator, Bool.or_eq_true, beq_iff_eq] at hline
  revert h
  unfold IsAddressChar
  rcases hline with ((rfl | rfl) | rfl) | rfl <;> decide

theorem spells_iff {denotes : List Char → Bytes → Prop}
    (hne : ∀ {address bytes}, denotes address bytes → address ≠ [])
    (hchars : ∀ {address bytes}, denotes address bytes → ∀ c ∈ address, IsAddressChar c) :
    Spells denotes text bytes ↔ denotes (opened text) bytes := by
  have hhead : ∀ {address bytes}, denotes address bytes → address.head? ≠ some '[' := by
    intro address bytes h hhead
    exact (addressChar_facts (hchars h _ (List.mem_of_mem_head? hhead))).1 rfl
  constructor
  · rintro (h | ⟨address, hbracketed, h⟩)
    · rwa [opened_of_head (hhead h)]
    · rwa [opened_of_bracketed hbracketed (hne h)
        fun c hc => (addressChar_facts (hchars h c hc)).2]
  · intro h
    by_cases hbracket : text.head? = some '['
    · exact .inr ⟨_, bracketed_of_opened hbracket (hhead h), h⟩
    · rw [opened_of_head hbracket] at h
      exact .inl h

theorem spells_v4 : Spells V4 text bytes ↔ V4 (opened text) bytes :=
  spells_iff (fun h => List.ne_nil_of_mem h.dot_mem) (fun h _ hc => h.chars hc)

theorem spells_v6 : Spells V6 text bytes ↔ V6 (opened text) bytes :=
  spells_iff (fun h => List.ne_nil_of_mem (readsV6_colon (.inl h)))
    (fun h _ hc => .inr (h.chars hc))

theorem dot_notMem_of_readsV6 (h : ReadsV6 address bytes) : '.' ∉ address := by
  intro hmem
  have hchars : '.' = ':' ∨ isHexDigit '.' = true := by
    rcases h with h | h
    · exact h.chars hmem
    · exact h.chars hmem
  revert hchars
  decide

theorem ReadsV4.dot_mem (h : ReadsV4 text bytes) : '.' ∈ opened text := by
  induction h with
  | quad h => exact h.dot_mem
  | mapped hrest _ ih =>
    obtain ⟨front, hopened, -⟩ := hrest
    rw [hopened]
    exact List.mem_append_right _ ((opened_within _).subset ih)

theorem opened_quad (h : Quad address bytes) : opened address = address := by
  refine opened_of_head fun hhead => ?_
  rcases h.chars (List.mem_of_mem_head? hhead) with hdot | hdigit
  · cases hdot
  · revert hdigit
    decide

theorem quad_unique (h : Quad address bytes) (h' : Quad address other) : bytes = other := by
  obtain ⟨octets, hoctets⟩ := quad_pattern h
  have hread := (bytesOfOctets_iff hoctets).mpr h
  rw [(bytesOfOctets_iff hoctets).mpr h'] at hread
  exact (Option.some.inj hread).symm

theorem MappedRest.not_quad (h : MappedRest text rest) : ¬ Quad (opened text) bytes := by
  intro hquad
  rcases hquad.chars h.colon_mem with hdot | hdigit
  · cases hdot
  · revert hdigit
    decide

theorem ReadsV4.unique (h : ReadsV4 text bytes) (h' : ReadsV4 text other) : bytes = other := by
  induction h with
  | quad h =>
    cases h' with
    | quad h' => exact quad_unique h h'
    | mapped hrest _ => exact absurd h hrest.not_quad
  | mapped hrest _ ih =>
    cases h' with
    | quad h' => exact absurd h' hrest.not_quad
    | mapped hrest' h' =>
      rw [hrest'.unique hrest] at h'
      exact ih h'

theorem readsV4_of_v4 (h : V4 (opened text) bytes) : ReadsV4 text bytes := by
  generalize hopened : opened text = address at h
  cases h with
  | quad h => exact .quad (hopened ▸ h)
  | mapped hfront h => exact .mapped ⟨_, hopened, hfront⟩ (.quad ((opened_quad h).symm ▸ h))

theorem v4_of_readsV4 (hslips : ¬ Slips text) (h : ReadsV4 text bytes) :
    V4 (opened text) bytes := by
  cases h with
  | quad h => exact .quad h
  | mapped hrest h =>
    rename_i rest
    by_cases hquad : ∃ quad, Quad rest quad
    · obtain ⟨quad, hquad⟩ := hquad
      have hread : ReadsV4 rest quad := .quad ((opened_quad hquad).symm ▸ hquad)
      rw [hread.unique h] at hquad
      obtain ⟨front, hopened, hfront⟩ := hrest
      rw [hopened]
      exact .mapped hfront hquad
    · exact absurd (.nested hrest h fun quad hq => hquad ⟨quad, hq⟩) hslips

theorem gap_unique {count count' : Nat} (h : Gap count address bytes)
    (h' : Gap count' address other) : count = count' := by
  obtain ⟨left, right, hcut, hcount, -⟩ := cutAt_of_gap h
  obtain ⟨left', right', hcut', hcount', -⟩ := cutAt_of_gap h'
  obtain ⟨rfl, rfl⟩ := hcut.unique hcut'
  rw [← hcount, hcount']

theorem not_v6_of_eight (h : Gap 8 address bytes) : ¬ V6 address other := by
  intro hv6
  cases hv6 with
  | full hall hlen => exact (full_colon hall hlen).2 (gap_within h)
  | gap hcount h' =>
    have := gap_unique h h'
    omega

theorem exact_of_not_slips (h : ¬ Slips text) : Exact text := by
  obtain ⟨read, hok, hreads⟩ := ipToBytes_reads_iff fun hraises => h (.raises hraises)
  have hv4 : ∀ bytes, (read = some bytes ∧ bytes.length = 4) ↔ V4 (opened text) bytes := by
    intro bytes
    constructor
    · rintro ⟨hread, hlen⟩
      rcases (hreads bytes).mp hread with hread | ⟨-, hread⟩
      · exact v4_of_readsV4 h hread
      · have := readsV6_length hread
        omega
    · intro hbytes
      exact ⟨(hreads bytes).mpr (.inl (readsV4_of_v4 hbytes)), hbytes.length_bytes⟩
  have hv6 : ∀ bytes, (read = some bytes ∧ bytes.length = 16) ↔ V6 (opened text) bytes := by
    intro bytes
    constructor
    · rintro ⟨hread, hlen⟩
      rcases (hreads bytes).mp hread with hread | ⟨-, hread | hread⟩
      · have := hread.length
        omega
      · exact hread
      · exact absurd (.eight hread) h
    · intro hbytes
      have hnone : ∀ quad, ¬ ReadsV4 text quad := fun quad hquad =>
        dot_notMem_of_readsV6 (.inl hbytes) hquad.dot_mem
      exact ⟨(hreads bytes).mpr (.inr ⟨hnone, .inl hbytes⟩), hbytes.length_bytes⟩
  refine ⟨read, hok, fun bytes => by rw [hv4, spells_v4], fun bytes => by rw [hv6, spells_v6], ?_⟩
  simp only [spells_v4, spells_v6]
  constructor
  · rintro rfl bytes
    exact ⟨fun hbytes => (by cases ((hv4 bytes).mpr hbytes).1),
      fun hbytes => (by cases ((hv6 bytes).mpr hbytes).1)⟩
  · intro hnone
    cases read with
    | none => rfl
    | some bytes =>
      rcases (hreads bytes).mp rfl with hread | ⟨-, hread⟩
      · exact absurd ((hv4 bytes).mp ⟨rfl, hread.length⟩) (hnone bytes).1
      · exact absurd ((hv6 bytes).mp ⟨rfl, readsV6_length hread⟩) (hnone bytes).2

theorem exact_iff_not_slips : Exact text ↔ ¬ Slips text := by
  refine ⟨fun hexact hslips => ?_, exact_of_not_slips⟩
  obtain ⟨read, hok, hv4, hv6, -⟩ := hexact
  have hraises : ¬ Raises text := by
    intro hraises
    rw [ipToBytes_raises_iff.mpr hraises] at hok
    cases hok
  obtain ⟨read', hok', hreads⟩ := ipToBytes_reads_iff hraises
  obtain rfl : read = read' := Except.ok.inj (hok.symm.trans hok')
  cases hslips with
  | raises h => exact hraises h
  | eight h =>
    have hnone : ∀ quad, ¬ ReadsV4 text quad := fun quad hquad =>
      dot_notMem_of_readsV6 (.inr h) hquad.dot_mem
    have hread := (hreads _).mpr (.inr ⟨hnone, .inr h⟩)
    have hspelled := (hv6 _).mp ⟨hread, h.length_bytes (Nat.le_refl 8)⟩
    exact not_v6_of_eight h (spells_v6.mp hspelled)
  | nested hrest h hquad =>
    have hread := (hreads _).mpr (.inl (.mapped hrest h))
    have hspelled := spells_v4.mp ((hv4 _).mp ⟨hread, h.length⟩)
    generalize hopened : opened text = address at hspelled
    cases hspelled with
    | quad hspelled => exact hrest.not_quad (hopened ▸ hspelled)
    | mapped hfront hspelled =>
      have hsame := MappedRest.unique ⟨_, hopened, hfront⟩ hrest
      exact hquad _ (hsame ▸ hspelled)

end Exact

end Auth
