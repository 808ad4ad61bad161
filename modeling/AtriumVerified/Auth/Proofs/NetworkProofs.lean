import AtriumVerified.Auth.Proofs.AddressExactProofs
import AtriumVerified.Auth.Proofs.ForwardedChainProofs

/-!
# What the trusted networks cover

`withinCidr` compares the first bits of two addresses of one length. The texts of networks are read
as their addresses are, and `clientIp` raises when it comes to a text that does.
-/

namespace Auth

open IpAddress Js

/-! ## The first bits -/

section Bits

def byteBits (byte : BitVec 8) : List Bool := (List.range 8).map byte.getMsbD

example : byteBits 0xA0 = [true, false, true, false, false, false, false, false] := by decide +kernel

theorem mask_getMsbD {take i : Nat} (htake : take ≤ 8) :
    (mask take).getMsbD i = decide (i < take) := by
  have hones : (0xff : BitVec 8) = BitVec.allOnes 8 := by decide
  unfold mask
  rw [hones]
  split
  · rename_i hfull
    rw [BitVec.getMsbD_allOnes, hfull]
  · rw [BitVec.getMsbD_shiftLeft, BitVec.getMsbD_allOnes, decide_eq_decide]
    omega

theorem masked_eq_iff {take : Nat} (htake : take ≤ 8) (byte other : BitVec 8) :
    byte &&& mask take = other &&& mask take ↔
      (byteBits byte).take take = (byteBits other).take take := by
  have hbits : ∀ b : BitVec 8, (byteBits b).take take = (List.range take).map b.getMsbD := by
    intro b
    rw [byteBits, ← List.map_take, List.take_range, Nat.min_eq_left htake]
  rw [hbits, hbits, List.map_inj_left]
  constructor
  · intro h i hi
    have hi := List.mem_range.mp hi
    have hbit := congrArg (fun b => BitVec.getMsbD b i) h
    simp only [BitVec.getMsbD_and, mask_getMsbD htake, hi, decide_true,
      Bool.and_true] at hbit
    exact hbit
  · intro h
    refine BitVec.eq_of_getMsbD_eq fun i _ => ?_
    rw [BitVec.getMsbD_and, BitVec.getMsbD_and, mask_getMsbD htake]
    by_cases hin : i < take
    · rw [h i (List.mem_range.mpr hin)]
    · simp [hin]

theorem bits_cons (byte : BitVec 8) (bytes : Bytes) :
    bits (byte :: bytes) = byteBits byte ++ bits bytes := rfl

theorem length_byteBits (byte : BitVec 8) : (byteBits byte).length = 8 := by
  rw [byteBits, List.length_map, List.length_range]

theorem take_bits_cons (count : Nat) (byte : BitVec 8) (bytes : Bytes) :
    (bits (byte :: bytes)).take count
      = (byteBits byte).take (if 8 ≤ count then 8 else count) ++ (bits bytes).take (count - 8) := by
  rw [bits_cons, List.take_append, length_byteBits]
  split
  · rename_i hfull
    rw [List.take_of_length_le (by rw [length_byteBits]; exact hfull),
      List.take_of_length_le (Nat.le_of_eq (length_byteBits byte))]
  · rfl

theorem agreeLoop_zero (address network : Bytes) : agreeLoop 0 address network = true := by
  cases address with
  | nil => rfl
  | cons byte address =>
    cases network with
    | nil => rfl
    | cons other network => exact if_pos rfl

theorem agreeLoop_iff {remaining : Nat} {address network : Bytes}
    (hlen : address.length = network.length) :
    agreeLoop remaining address network = true ↔
      (bits address).take remaining = (bits network).take remaining := by
  induction address generalizing remaining network with
  | nil =>
    obtain rfl := List.length_eq_zero_iff.mp hlen.symm
    simp [agreeLoop]
  | cons byte address ih =>
    cases network with
    | nil => cases hlen
    | cons other network =>
      by_cases hzero : remaining = 0
      · subst hzero
        simp [agreeLoop_zero]
      have htake : (if 8 ≤ remaining then 8 else remaining) ≤ 8 := by
        split <;> omega
      have hsame : ((byteBits byte).take (if 8 ≤ remaining then 8 else remaining)).length
          = ((byteBits other).take (if 8 ≤ remaining then 8 else remaining)).length := by
        rw [List.length_take, List.length_take, length_byteBits, length_byteBits]
      have hsplit :
          (bits (byte :: address)).take remaining = (bits (other :: network)).take remaining ↔
            byte &&& mask (if 8 ≤ remaining then 8 else remaining)
                = other &&& mask (if 8 ≤ remaining then 8 else remaining) ∧
              agreeLoop (remaining - 8) address network = true := by
        rw [masked_eq_iff htake, ih (Nat.succ.inj hlen), take_bits_cons, take_bits_cons]
        exact ⟨fun h => List.append_inj h hsame, fun h => by rw [h.1, h.2]⟩
      rw [hsplit]
      simp only [agreeLoop, if_neg hzero]
      by_cases hbyte : byte &&& mask (if 8 ≤ remaining then 8 else remaining)
          = other &&& mask (if 8 ≤ remaining then 8 else remaining)
      · rw [if_pos hbyte]
        exact ⟨fun h => ⟨hbyte, h⟩, fun h => h.2⟩
      · rw [if_neg hbyte]
        exact ⟨fun h => (by cases h), fun h => absurd h.1 hbyte⟩

theorem withinCidr_iff {address : Bytes} {network : Cidr} :
    withinCidr address network = true ↔ AgreeUpTo network.prefix_ address network.bytes := by
  unfold withinCidr AgreeUpTo
  by_cases hlen : address.length = network.bytes.length
  · rw [if_neg (not_not_intro hlen), agreeLoop_iff hlen]
    exact ⟨fun h => ⟨hlen, h⟩, fun h => h.2⟩
  · rw [if_pos hlen]
    exact ⟨fun h => (by cases h), fun h => absurd h.1 hlen⟩

end Bits

/-! ## The texts of networks -/

section Parse

variable {value : List Char} {network : Cidr} {proxies chain : List (List Char)}

def Parses (value : List Char) (network : Cidr) : Prop :=
  Reads (cidrParts value).1 network.bytes ∧
  match (cidrParts value).2 with
  | none => network.prefix_ = network.bytes.length * 8
  | some digits => (digits ≠ [] ∧ ∀ d ∈ digits, isDigit d = true) ∧
      numberOf digits ≤ network.bytes.length * 8 ∧ network.prefix_ = numberOf digits

theorem cidrOf_iff {suffix : Option (List Char)} {bytes : Bytes} :
    cidrOf suffix bytes = some network ↔ network.bytes = bytes ∧
      match suffix with
      | none => network.prefix_ = network.bytes.length * 8
      | some digits => (digits ≠ [] ∧ ∀ d ∈ digits, isDigit d = true) ∧
          numberOf digits ≤ network.bytes.length * 8 ∧ network.prefix_ = numberOf digits := by
  obtain ⟨held, prefix_⟩ := network
  cases suffix with
  | none =>
    simp only [cidrOf, Option.some.injEq, Cidr.mk.injEq]
    constructor
    · rintro ⟨rfl, rfl⟩
      exact ⟨rfl, rfl⟩
    · rintro ⟨rfl, rfl⟩
      exact ⟨rfl, rfl⟩
  | some digits =>
    simp only [cidrOf, List.all_eq_true]
    constructor
    · intro h
      split at h
      · rename_i hfit
        cases h
        exact ⟨rfl, hfit.1, hfit.2, rfl⟩
      · cases h
    · rintro ⟨rfl, hdigits, hfit, rfl⟩
      exact if_pos ⟨hdigits, hfit⟩

theorem parseCidr_cases (value : List Char) :
    (Raises (cidrParts value).1 ∧ parseCidr value = .error .invalidArrayLength) ∨
    (¬ Raises (cidrParts value).1 ∧ ∃ read, parseCidr value = .ok read ∧
      ∀ network, read = some network ↔ Parses value network) := by
  rcases ipToBytes_cases (cidrParts value).1 with ⟨hraises, herror⟩ | ⟨hraises, read, hok, hreads⟩
  · refine .inl ⟨hraises, ?_⟩
    rw [parseCidr, herror]
    rfl
  · refine .inr ⟨hraises, read.bind (cidrOf (cidrParts value).2), ?_, fun network => ?_⟩
    · rw [parseCidr, hok]
      rfl
    · rw [Option.bind_eq_some_iff]
      unfold Parses
      constructor
      · rintro ⟨bytes, hread, hcidr⟩
        obtain ⟨rfl, hsuffix⟩ := cidrOf_iff.mp hcidr
        exact ⟨(hreads _).mp hread, hsuffix⟩
      · rintro ⟨hread, hsuffix⟩
        exact ⟨network.bytes, (hreads _).mpr hread, cidrOf_iff.mpr ⟨rfl, hsuffix⟩⟩

/-- What becomes of a list of texts for networks. -/
theorem parsedEntries_cases (values : List (List Char)) :
    ((∃ value ∈ values, Raises (cidrParts value).1) ∧
      parsedEntries values = .error .invalidArrayLength) ∨
    ((∀ value ∈ values, ¬ Raises (cidrParts value).1) ∧
      ∃ parsed, parsedEntries values = .ok parsed ∧ ∀ value network, (value, network) ∈ parsed ↔ value ∈ values ∧ Parses value network) := by
  induction values with
  | nil =>
    refine .inr ⟨fun value hmem => (by cases hmem), [], rfl, fun value network => ?_⟩
    exact ⟨fun hmem => (by cases hmem), fun h => (by cases h.1)⟩
  | cons first rest ih =>
    rcases parseCidr_cases first with ⟨hraises, herror⟩ | ⟨hraises, read, hok, hparses⟩
    · refine .inl ⟨⟨first, List.mem_cons_self, hraises⟩, ?_⟩
      simp only [parsedEntries, herror]
      rfl
    · rcases ih with ⟨⟨value, hmem, hraise⟩, herror⟩ | ⟨hrest, parsed, hparsed, hall⟩
      · refine .inl ⟨⟨value, List.mem_cons_of_mem _ hmem, hraise⟩, ?_⟩
        simp only [parsedEntries, hok, herror]
        rfl
      · refine .inr ⟨fun value hmem => ?_,
          (read.map fun cidr => (first, cidr)).toList ++ parsed, ?_, fun value network => ?_⟩
        · rcases List.mem_cons.mp hmem with rfl | hmem
          · exact hraises
          · exact hrest value hmem
        · simp only [parsedEntries, hok, hparsed]
          rfl
        · have hfirst : (value, network) ∈ (read.map fun cidr => (first, cidr)).toList ↔
              value = first ∧ Parses first network := by
            rw [Option.mem_toList, Option.map_eq_some_iff]
            constructor
            · rintro ⟨cidr, hread, hpair⟩
              cases hpair
              exact ⟨rfl, (hparses _).mp hread⟩
            · rintro ⟨rfl, h⟩
              exact ⟨network, (hparses _).mpr h, rfl⟩
          rw [List.mem_append, hfirst, hall, List.mem_cons]
          constructor
          · rintro (⟨rfl, h⟩ | ⟨hmem, h⟩)
            · exact ⟨.inl rfl, h⟩
            · exact ⟨.inr hmem, h⟩
          · rintro ⟨rfl | hmem, h⟩
            · exact .inl ⟨rfl, h⟩
            · exact .inr ⟨hmem, h⟩

theorem networksOf_cases (proxies : List (List Char)) :
    ((∃ proxy ∈ proxies, Raises (cidrParts proxy).1) ∧
      networksOf proxies = .error .invalidArrayLength) ∨
    ((∀ proxy ∈ proxies, ¬ Raises (cidrParts proxy).1) ∧
      ∃ networks, networksOf proxies = .ok networks ∧ ∀ network, network ∈ networks ↔ ∃ proxy ∈ proxies, Parses proxy network) := by
  rcases parsedEntries_cases proxies with ⟨hraises, herror⟩ | ⟨hraises, parsed, hok, hall⟩
  · refine .inl ⟨hraises, ?_⟩
    simp only [networksOf, herror]
    rfl
  · refine .inr ⟨hraises, parsed.map Prod.snd, ?_, fun network => ?_⟩
    · simp only [networksOf, hok]
      rfl
    · rw [List.mem_map]
      constructor
      · rintro ⟨⟨proxy, _⟩, hpair, rfl⟩
        exact ⟨proxy, (hall _ _).mp hpair⟩
      · rintro ⟨proxy, hproxy, hparses⟩
        exact ⟨(proxy, network), (hall _ _).mpr ⟨hproxy, hparses⟩, rfl⟩

theorem parseCidr_ok_iff :
    (∃ read, parseCidr value = .ok read) ↔ ¬ Raises (cidrParts value).1 := by
  rcases parseCidr_cases value with ⟨hraises, herror⟩ | ⟨hraises, read, hok, -⟩
  · rw [herror]
    exact ⟨fun ⟨_, h⟩ => (by cases h), fun h => absurd hraises h⟩
  · exact ⟨fun _ => hraises, fun _ => ⟨read, hok⟩⟩

theorem parseTrustedProxies_ok_iff {raw : Option (List Char)} :
    (∃ read, parseTrustedProxies raw = .ok read) ↔
      ∀ entry ∈ entries (raw.getD []), ¬ Raises (cidrParts entry).1 := by
  rcases parsedEntries_cases (entries (raw.getD [])) with
    ⟨⟨value, hmem, hraise⟩, herror⟩ | ⟨hall, parsed, hok, -⟩
  · have hraised : parseTrustedProxies raw = .error .invalidArrayLength := by
      simp only [parseTrustedProxies, herror]
      rfl
    rw [hraised]
    exact ⟨fun ⟨_, h⟩ => (by cases h), fun h => absurd hraise (h value hmem)⟩
  · refine ⟨fun _ => hall, fun _ => ⟨parsed.map Prod.fst, ?_⟩⟩
    simp only [parseTrustedProxies, hok]
    rfl

/-! ## The walk along a chain -/

def Covered (networks : List Cidr) (entry : List Char) : Prop :=
  ∃ bytes, Reads entry bytes ∧ ∃ network ∈ networks, AgreeUpTo network.prefix_ bytes network.bytes

theorem any_withinCidr {networks : List Cidr} {bytes : Bytes} :
    networks.any (withinCidr bytes) = true ↔
      ∃ network ∈ networks, AgreeUpTo network.prefix_ bytes network.bytes := by
  rw [List.any_eq_true]
  simp only [withinCidr_iff]

/-- Past covered entries, a chain comes to a text that makes the parser raise. -/
def MeetsRaising (networks : List Cidr) (chain : List (List Char)) : Prop :=
  ∃ skipped entry older, chain = skipped ++ entry :: older ∧
    (∀ covered ∈ skipped, Covered networks covered) ∧ Raises entry

theorem meetsRaising_cons {networks : List Cidr} {entry : List Char} {older : List (List Char)} :
    MeetsRaising networks (entry :: older) ↔
      Raises entry ∨ (Covered networks entry ∧ MeetsRaising networks older) := by
  constructor
  · rintro ⟨skipped, found, rest, hchain, hcovered, hraises⟩
    cases skipped with
    | nil =>
      obtain ⟨rfl, -⟩ := List.cons.inj hchain
      exact .inl hraises
    | cons first skipped =>
      obtain ⟨rfl, holder⟩ := List.cons.inj hchain
      exact .inr ⟨hcovered _ List.mem_cons_self, skipped, found, rest, holder,
        fun covered hmem => hcovered covered (List.mem_cons_of_mem _ hmem), hraises⟩
  · rintro (hraises | ⟨hentry, skipped, found, rest, rfl, hcovered, hraises⟩)
    · exact ⟨[], entry, older, rfl, fun covered hmem => (by cases hmem), hraises⟩
    · refine ⟨entry :: skipped, found, rest, rfl, fun covered hmem => ?_, hraises⟩
      rcases List.mem_cons.mp hmem with rfl | hmem
      · exact hentry
      · exact hcovered covered hmem

theorem walk_ok_iff {networks : List Cidr} :
    (∃ read, walk networks chain = .ok read) ↔ ¬ MeetsRaising networks chain := by
  induction chain with
  | nil =>
    refine ⟨fun _ hmeets => ?_, fun _ => ⟨none, rfl⟩⟩
    obtain ⟨skipped, entry, older, hchain, -⟩ := hmeets
    cases skipped <;> cases hchain
  | cons entry older ih =>
    rw [meetsRaising_cons, walk]
    rcases ipToBytes_cases entry with ⟨hraises, herror⟩ | ⟨hraises, read, hok, hreads⟩
    · rw [herror]
      refine ⟨?_, fun h => absurd (.inl hraises) h⟩
      rintro ⟨read, h⟩
      cases h
    · rw [hok]
      cases read with
      | none =>
        refine ⟨fun _ hmeets => ?_, fun _ => ⟨none, rfl⟩⟩
        rcases hmeets with h | ⟨⟨bytes, hbytes, -⟩, -⟩
        · exact hraises h
        · cases (hreads bytes).mpr hbytes
      | some bytes =>
        have hcovered : Covered networks entry ↔ networks.any (withinCidr bytes) = true := by
          rw [any_withinCidr]
          constructor
          · rintro ⟨other, hother, hnetwork⟩
            obtain rfl := Option.some.inj ((hreads other).mpr hother)
            exact hnetwork
          · exact fun hnetwork => ⟨bytes, (hreads bytes).mp rfl, hnetwork⟩
        by_cases hany : networks.any (withinCidr bytes) = true
        · simp only [hany, if_true, ih]
          exact ⟨fun h hmeets => (hmeets.elim hraises fun hmeets => h hmeets.2),
            fun h hmeets => h (.inr ⟨hcovered.mpr hany, hmeets⟩)⟩
        · simp only [hany]
          exact ⟨fun _ hmeets => hmeets.elim hraises fun hmeets => hany (hcovered.mp hmeets.1),
            fun _ => ⟨_, rfl⟩⟩

end Parse

/-! ## The caller -/

section Caller

variable {headers : String → Option (List Char)} {options : ClientIpOptions} {value : List Char}
  {proxies : List (List Char)}

def Trusted (proxies : List (List Char)) (entry : List Char) : Prop :=
  ∃ bytes, Reads entry bytes ∧ ∃ proxy ∈ proxies, ∃ network, Parses proxy network ∧
    AgreeUpTo network.prefix_ bytes network.bytes

/-- The reading of a chain raises: the chain has an entry, and a proxy's text makes the parser
raise, or there is a network and, past the entries of trusted proxies, an entry that does. -/
def ChainRaises (proxies : List (List Char)) (value : List Char) : Prop :=
  entries value ≠ [] ∧
  ((∃ proxy ∈ proxies, Raises (cidrParts proxy).1) ∨
    ((∃ proxy ∈ proxies, ∃ network, Parses proxy network) ∧
      ∃ older entry skipped, entries value = older ++ entry :: skipped ∧
        (∀ trusted ∈ skipped, Trusted proxies trusted) ∧ Raises entry))

def decidingHeader (headers : String → Option (List Char)) (names : List String) :
    Option (List Char) :=
  names.findSome? fun name => (headers name).filter fun value => !value.isEmpty

/-- The call raises: the proxies are named, and the reading of the chain that decides raises. -/
def CallRaises (headers : String → Option (List Char)) (options : ClientIpOptions) : Prop :=
  ∃ hops proxy others value, options.strategy = .forwarded hops (some (proxy :: others)) ∧
    decidingHeader headers options.headerNames = some value ∧ ChainRaises (proxy :: others) value

theorem covered_iff_trusted {networks : List Cidr} {entry : List Char}
    (h : ∀ network, network ∈ networks ↔ ∃ proxy ∈ proxies, Parses proxy network) :
    Covered networks entry ↔ Trusted proxies entry := by
  constructor
  · rintro ⟨bytes, hbytes, network, hmem, hagree⟩
    obtain ⟨proxy, hproxy, hparses⟩ := (h network).mp hmem
    exact ⟨bytes, hbytes, proxy, hproxy, network, hparses, hagree⟩
  · rintro ⟨bytes, hbytes, proxy, hproxy, network, hparses, hagree⟩
    exact ⟨bytes, hbytes, network, (h network).mpr ⟨proxy, hproxy, hparses⟩, hagree⟩

theorem meetsRaising_reverse {networks : List Cidr} {chain : List (List Char)}
    (h : ∀ entry, Covered networks entry ↔ Trusted proxies entry) :
    MeetsRaising networks chain.reverse ↔
      ∃ older entry skipped, chain = older ++ entry :: skipped ∧
        (∀ trusted ∈ skipped, Trusted proxies trusted) ∧ Raises entry := by
  constructor
  · rintro ⟨skipped, entry, older, hchain, hcovered, hraises⟩
    refine ⟨older.reverse, entry, skipped.reverse, ?_, fun trusted hmem => ?_, hraises⟩
    · rw [← List.reverse_reverse chain, hchain]
      simp
    · exact (h trusted).mp (hcovered trusted (List.mem_reverse.mp hmem))
  · rintro ⟨older, entry, skipped, rfl, htrusted, hraises⟩
    refine ⟨skipped.reverse, entry, older.reverse, by simp, fun covered hmem => ?_, hraises⟩
    exact (h covered).mpr (htrusted covered (List.mem_reverse.mp hmem))

theorem firstUntrustedHop_eq {networks : List Cidr} (hempty : entries value ≠ [])
    (hok : networksOf proxies = .ok networks) : firstUntrustedHop value proxies =
      if networks = [] then .ok none else walk networks (entries value).reverse := by
  simp only [firstUntrustedHop, if_neg hempty, hok]
  rfl

theorem firstUntrustedHop_ok_iff :
    (∃ read, firstUntrustedHop value proxies = .ok read) ↔ ¬ ChainRaises proxies value := by
  by_cases hempty : entries value = []
  · refine ⟨fun _ hraises => hraises.1 hempty, fun _ => ⟨none, ?_⟩⟩
    simp only [firstUntrustedHop, if_pos hempty]
    rfl
  rcases networksOf_cases proxies with ⟨hraises, herror⟩ | ⟨hraises, networks, hok, hnetworks⟩
  · have hraised : firstUntrustedHop value proxies = .error .invalidArrayLength := by
      simp only [firstUntrustedHop, if_neg hempty, herror]
      rfl
    rw [hraised]
    refine ⟨?_, fun h => absurd ⟨hempty, .inl hraises⟩ h⟩
    rintro ⟨read, h⟩
    cases h
  · have hchain : ChainRaises proxies value ↔
        (∃ proxy ∈ proxies, ∃ network, Parses proxy network) ∧
          MeetsRaising networks (entries value).reverse := by
      rw [meetsRaising_reverse fun entry => covered_iff_trusted hnetworks]
      constructor
      · rintro ⟨-, ⟨proxy, hproxy, hraise⟩ | h⟩
        · exact absurd hraise (hraises proxy hproxy)
        · exact h
      · exact fun h => ⟨hempty, .inr h⟩
    rw [firstUntrustedHop_eq hempty hok, hchain]
    by_cases hnone : networks = []
    · rw [if_pos hnone]
      refine ⟨?_, fun _ => ⟨none, rfl⟩⟩
      rintro - ⟨⟨proxy, hproxy, network, hparses⟩, -⟩
      have hmem := (hnetworks network).mpr ⟨proxy, hproxy, hparses⟩
      rw [hnone] at hmem
      cases hmem
    · rw [if_neg hnone, walk_ok_iff]
      obtain ⟨network, hmem⟩ := List.exists_mem_of_ne_nil _ hnone
      obtain ⟨proxy, hproxy, hparses⟩ := (hnetworks network).mp hmem
      exact ⟨fun h hraise => h hraise.2,
        fun h hmeets => h ⟨⟨proxy, hproxy, network, hparses⟩, hmeets⟩⟩

theorem searchHeaders_ok_iff {hops : Nat} {trustedProxies : Option (List (List Char))}
    {socket : Option (List Char)} {names : List String} :
    (∃ read, searchHeaders headers hops trustedProxies socket names = .ok read) ↔
      ∀ value, decidingHeader headers names = some value →
        ∃ read, foundIn hops trustedProxies value = .ok read := by
  induction names with
  | nil => exact ⟨fun _ value h => (by cases h), fun _ => ⟨socket, rfl⟩⟩
  | cons name names ih =>
    have hskip : (headers name).filter (fun value => !value.isEmpty) = none →
        decidingHeader headers (name :: names) = decidingHeader headers names := by
      intro hnone
      rw [decidingHeader, List.findSome?_cons, hnone]
      rfl
    rw [searchHeaders]
    split
    · rename_i c text hheader
      have hdecides : decidingHeader headers (name :: names) = some (c :: text) := by
        rw [decidingHeader, List.findSome?_cons, hheader]
        rfl
      simp only [hdecides, Option.some.injEq, forall_eq']
      cases hfound : foundIn hops trustedProxies (c :: text) with
      | error raised =>
        constructor
        · rintro ⟨read, h⟩
          cases h
        · rintro ⟨read, h⟩
          cases h
      | ok found =>
        refine ⟨fun _ => ⟨found, rfl⟩, fun _ => ?_⟩
        cases found with
        | none => exact ⟨socket, rfl⟩
        | some address => exact ⟨some address, rfl⟩
    · rename_i hother
      have hnone : (headers name).filter (fun value => !value.isEmpty) = none := by
        cases hheader : headers name with
        | none => rfl
        | some value =>
          cases value with
          | nil => rfl
          | cons c text => exact absurd hheader (hother c text)
      rw [hskip hnone]
      exact ih

theorem clientIp_ok_iff :
    (∃ read, clientIp headers options = .ok read) ↔ ¬ CallRaises headers options := by
  unfold clientIp CallRaises
  cases options.strategy with
  | unconfigured =>
    exact ⟨fun _ ⟨_, _, _, _, h, _⟩ => (by cases h), fun _ => ⟨none, rfl⟩⟩
  | socket =>
    exact ⟨fun _ ⟨_, _, _, _, h, _⟩ => (by cases h), fun _ => ⟨_, rfl⟩⟩
  | forwarded hops trustedProxies =>
    simp only [searchHeaders_ok_iff]
    constructor
    · rintro hall ⟨hops', proxy, others, value, hstrategy, hheader, hraises⟩
      cases hstrategy
      exact firstUntrustedHop_ok_iff.mp (hall value hheader) hraises
    · intro hnot value hheader
      match trustedProxies, hnot with
      | some (proxy :: others), hnot =>
        exact firstUntrustedHop_ok_iff.mpr fun hraises =>
          hnot ⟨hops, proxy, others, value, rfl, hheader, hraises⟩
      | none, _ => exact ⟨_, rfl⟩
      | some [], _ => exact ⟨_, rfl⟩

end Caller

/-! ## Address parsing -/

/-- Address parsing is exact on every text that is of none of the three kinds, and on no other. The
calls that parse addresses return unless they come to a text that makes the parser raise, and a
network holds the addresses that agree with it in its first bits. -/
theorem address_parsing (text value : List Char) (raw : Option (List Char))
    (headers : String → Option (List Char)) (options : ClientIpOptions) (address : Bytes)
    (network : Cidr) :
    (Exact text ↔ ¬ Slips text) ∧
    ((∃ read, parseCidr value = .ok read) ↔ ¬ Raises (cidrParts value).1) ∧
    ((∃ read, parseTrustedProxies raw = .ok read) ↔
      ∀ entry ∈ entries (raw.getD []), ¬ Raises (cidrParts entry).1) ∧
    ((∃ read, clientIp headers options = .ok read) ↔ ¬ CallRaises headers options) ∧
    (withinCidr address network = true ↔ AgreeUpTo network.prefix_ address network.bytes) :=
  ⟨exact_iff_not_slips, parseCidr_ok_iff, parseTrustedProxies_ok_iff, clientIp_ok_iff, withinCidr_iff⟩

/-- An address with nine groups beside its `::` is not read as no address: it ends the call. -/
theorem nine_groups_raise :
    ¬ Exact "1:2:3:4:5:6:7:8::9".toList ∧
    clientIp (sent "1:2:3:4:5:6:7:8::9, 10.0.0.7".toList none) behindTen
      = .error .invalidArrayLength := by
  refine ⟨?_, by decide +kernel⟩
  rintro ⟨read, hok, -⟩
  have hraised : ipToBytes "1:2:3:4:5:6:7:8::9".toList = .error .invalidArrayLength := by
    decide +kernel
  rw [hraised] at hok
  cases hok

end Auth
