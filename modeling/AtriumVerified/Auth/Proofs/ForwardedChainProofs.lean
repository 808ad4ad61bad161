import AtriumVerified.Auth.ClientIp

/-!
# What a forwarded chain may decide

Under a forwarded strategy the caller's address is read off the end of the chain, which the proxies
in front have written. What the caller wrote before it, and any other header, changes nothing.
-/

namespace Auth

open IpAddress

/-! ## The entries that the proxies appended -/

/-- The values of the header when the proxies appended `appended` to it. -/
def Chained (appended value : List Char) : Prop :=
  value = appended ∨ ∃ written, value = written ++ ',' :: appended

/-- An entry that is a readable address outside all trusted networks. -/
def Untrusted (trustedProxies : List (List Char)) (entry : List Char) : Prop :=
  ∃ bytes, ipToBytes entry = .ok (some bytes) ∧
    ∀ proxy ∈ trustedProxies, ∀ network, parseCidr proxy = .ok (some network) →
      withinCidr bytes network = false

/-- What the proxies appended is enough to decide: as many readable entries as there are hops, or
with the proxies named an address outside them. -/
def Deciding (hops : Nat) (trustedProxies : Option (List (List Char))) (appended : List Char) :
    Prop :=
  match trustedProxies with
  | some (proxy :: others) => ∃ entry ∈ entries appended, Untrusted (proxy :: others) entry
  | _ => (readable appended).length = hops

variable {hops : Nat} {trustedProxies : Option (List (List Char))} {appended value : List Char}
  {networks : List Cidr}

theorem entries_append (written appended : List Char) :
    entries (written ++ ',' :: appended) = entries written ++ entries appended := by
  unfold entries
  rw [List.splitOn_append_cons_self, List.map_append, List.filter_append]

theorem readable_append (written appended : List Char) :
    readable (written ++ ',' :: appended) = readable written ++ readable appended := by
  unfold readable
  rw [List.splitOn_append_cons_self, List.filterMap_append]

theorem Chained.entries_eq (h : Chained appended value) :
    ∃ older, entries value = older ++ entries appended := by
  rcases h with rfl | ⟨written, rfl⟩
  · exact ⟨[], rfl⟩
  · exact ⟨entries written, entries_append written appended⟩

theorem Chained.readable_eq (h : Chained appended value) :
    ∃ older, readable value = older ++ readable appended := by
  rcases h with rfl | ⟨written, rfl⟩
  · exact ⟨[], rfl⟩
  · exact ⟨readable written, readable_append written appended⟩

/-! ## Counting from the right -/

theorem nthFromTheRight_chained (h : Chained appended value)
    (hlen : (readable appended).length = hops) :
    nthFromTheRight value hops = (readable appended)[0]? := by
  obtain ⟨older, hvalue⟩ := h.readable_eq
  have hle : ¬ (older ++ readable appended).length < hops := by
    rw [List.length_append]
    omega
  have hindex : (older ++ readable appended).length - hops = older.length := by
    rw [List.length_append]
    omega
  simp only [nthFromTheRight, hvalue, if_neg hle, hindex]
  rw [List.getElem?_append_right (Nat.le_refl _), Nat.sub_self]

theorem nthFromTheRight_zero (value : List Char) : nthFromTheRight value 0 = none := by
  simp only [nthFromTheRight, if_neg (Nat.not_lt_zero _), Nat.sub_zero]
  exact List.getElem?_eq_none (Nat.le_refl _)

/-! ## Walking past the proxies -/

theorem mem_parsedEntries {proxies : List (List Char)} {parsed : List (List Char × Cidr)}
    {pair : List Char × Cidr} (h : parsedEntries proxies = .ok parsed) (hmem : pair ∈ parsed) :
    pair.1 ∈ proxies ∧ parseCidr pair.1 = .ok (some pair.2) := by
  induction proxies generalizing parsed with
  | nil =>
    cases h
    cases hmem
  | cons entry rest ih =>
    cases hcidr : parseCidr entry with
    | error raised =>
      simp only [parsedEntries, hcidr] at h
      cases h
    | ok network =>
      cases hothers : parsedEntries rest with
      | error raised =>
        simp only [parsedEntries, hcidr, hothers] at h
        cases h
      | ok others =>
        simp only [parsedEntries, hcidr, hothers] at h
        cases h
        rcases List.mem_append.mp hmem with hmem | hmem
        · cases network with
          | none => cases hmem
          | some cidr =>
            rcases List.mem_singleton.mp hmem with rfl
            exact ⟨List.mem_cons_self, hcidr⟩
        · obtain ⟨hin, hparse⟩ := ih hothers hmem
          exact ⟨List.mem_cons_of_mem _ hin, hparse⟩

theorem mem_networksOf {proxies : List (List Char)} {network : Cidr}
    (h : networksOf proxies = .ok networks) (hmem : network ∈ networks) :
    ∃ proxy ∈ proxies, parseCidr proxy = .ok (some network) := by
  cases hparsed : parsedEntries proxies with
  | error raised =>
    simp only [networksOf, hparsed] at h
    cases h
  | ok parsed =>
    simp only [networksOf, hparsed] at h
    cases h
    obtain ⟨pair, hpair, rfl⟩ := List.mem_map.mp hmem
    exact ⟨pair.1, mem_parsedEntries hparsed hpair⟩

/-- The walk ends at an address outside the networks at the latest. -/
theorem walk_append {chain : List (List Char)} (older : List (List Char))
    (h : ∃ entry ∈ chain, ∃ bytes, ipToBytes entry = .ok (some bytes) ∧
      networks.any (withinCidr bytes) = false) :
    walk networks (chain ++ older) = walk networks chain := by
  induction chain with
  | nil =>
    obtain ⟨entry, hmem, -⟩ := h
    cases hmem
  | cons entry rest ih =>
    rw [List.cons_append, walk, walk]
    cases hread : ipToBytes entry with
    | error raised => rfl
    | ok read =>
      cases read with
      | none => rfl
      | some bytes =>
        by_cases htrusted : networks.any (withinCidr bytes) = true
        · have hrest : walk networks (rest ++ older) = walk networks rest := by
            obtain ⟨last, hmem, found, hlast, hout⟩ := h
            rcases List.mem_cons.mp hmem with rfl | hmem
            · rw [hread] at hlast
              cases hlast
              rw [htrusted] at hout
              cases hout
            · exact ih ⟨last, hmem, found, hlast, hout⟩
          simp only [htrusted, if_true, hrest]
        · simp only [Bool.not_eq_true] at htrusted
          simp only [htrusted]
          rfl

theorem firstUntrustedHop_chained {proxies : List (List Char)} (h : Chained appended value)
    (hout : ∃ entry ∈ entries appended, Untrusted proxies entry) :
    firstUntrustedHop value proxies = firstUntrustedHop appended proxies := by
  obtain ⟨older, hvalue⟩ := h.entries_eq
  obtain ⟨entry, hmem, bytes, hread, houtside⟩ := hout
  have hne : entries appended ≠ [] := List.ne_nil_of_mem hmem
  have hne' : older ++ entries appended ≠ [] := List.append_ne_nil_of_right_ne_nil _ hne
  simp only [firstUntrustedHop, hvalue, if_neg hne, if_neg hne']
  cases hnetworks : networksOf proxies with
  | error raised => rfl
  | ok networks =>
    have hnone : networks.any (withinCidr bytes) = false := by
      rw [List.any_eq_false]
      intro network hnetwork
      obtain ⟨proxy, hproxy, hparse⟩ := mem_networksOf hnetworks hnetwork
      rw [houtside proxy hproxy network hparse]
      exact Bool.false_ne_true
    have hwalk : walk networks ((entries appended).reverse ++ older.reverse)
        = walk networks (entries appended).reverse :=
      walk_append older.reverse ⟨entry, List.mem_reverse.mpr hmem, bytes, hread, hnone⟩
    rw [List.reverse_append]
    simp only [bind, Except.bind, hwalk]

/-! ## The header that decides -/

theorem foundIn_chained (h : Chained appended value)
    (hdeciding : Deciding hops trustedProxies appended) :
    foundIn hops trustedProxies value = foundIn hops trustedProxies appended := by
  have hself : Chained appended appended := .inl rfl
  match trustedProxies, hdeciding with
  | some (proxy :: others), hout => exact firstUntrustedHop_chained h hout
  | none, hlen =>
    simp only [foundIn]
    rw [nthFromTheRight_chained h hlen, nthFromTheRight_chained hself hlen]
  | some [], hlen =>
    simp only [foundIn]
    rw [nthFromTheRight_chained h hlen, nthFromTheRight_chained hself hlen]

theorem foundIn_zero (hnamed : ∀ proxy others, trustedProxies ≠ some (proxy :: others))
    (value : List Char) : foundIn 0 trustedProxies value = .ok none := by
  match trustedProxies, hnamed with
  | some (proxy :: others), hnamed => exact absurd rfl (hnamed proxy others)
  | none, hnamed => simp only [foundIn, nthFromTheRight_zero]
  | some [], hnamed => simp only [foundIn, nthFromTheRight_zero]

theorem searchHeaders_zero (hnamed : ∀ proxy others, trustedProxies ≠ some (proxy :: others))
    (headers : String → Option (List Char)) (socket : Option (List Char)) (names : List String) :
    searchHeaders headers 0 trustedProxies socket names = .ok socket := by
  induction names with
  | nil => rfl
  | cons name names ih =>
    rw [searchHeaders]
    split
    · rw [foundIn_zero hnamed]
      rfl
    · exact ih

theorem Deciding.ne_nil (h : Deciding hops trustedProxies []) :
    hops = 0 ∧ ∀ proxy others, trustedProxies ≠ some (proxy :: others) := by
  have hentries : entries [] = [] := by decide
  have hreadable : readable [] = [] := by decide
  match trustedProxies, h with
  | some (proxy :: others), hout =>
    obtain ⟨entry, hmem, -⟩ := hout
    rw [hentries] at hmem
    cases hmem
  | none, hlen =>
    rw [Deciding, hreadable] at hlen
    · exact ⟨hlen.symm, fun proxy others hsome => by cases hsome⟩
    · intro proxy others hsome
      cases hsome
  | some [], hlen =>
    rw [Deciding, hreadable] at hlen
    · exact ⟨hlen.symm, fun proxy others hsome => by cases hsome⟩
    · intro proxy others hsome
      cases hsome

theorem searchHeaders_chained {headers : String → Option (List Char)}
    {socket : Option (List Char)} {name : String} {names : List String}
    (hheader : headers name = some value) (h : Chained appended value)
    (hdeciding : Deciding hops trustedProxies appended) :
    searchHeaders headers hops trustedProxies socket (name :: names)
      = (do return (← foundIn hops trustedProxies appended).or socket) := by
  cases value with
  | nil =>
    have hempty : appended = [] := by
      rcases h with h | ⟨written, h⟩
      · exact h.symm
      · cases written <;> cases h
    subst hempty
    obtain ⟨rfl, hnamed⟩ := hdeciding.ne_nil
    rw [searchHeaders_zero hnamed, foundIn_zero hnamed]
    rfl
  | cons c text =>
    rw [searchHeaders, hheader]
    simp only [foundIn_chained h hdeciding]
    cases foundIn hops trustedProxies appended with
    | error raised => rfl
    | ok found =>
      cases found with
      | none => rfl
      | some address => rfl

/-- A caller cannot choose its own bucket: whatever it writes before what the proxies append, and
whatever it sends in the other headers, the address is the same. -/
theorem clientIp_of_appended {headers headers' : String → Option (List Char)}
    {options : ClientIpOptions} {value' : List Char}
    (hstrategy : options.strategy = .forwarded hops trustedProxies)
    (hnames : options.headerNames.head? = some "x-forwarded-for")
    (hdeciding : Deciding hops trustedProxies appended)
    (hheader : headers "x-forwarded-for" = some value) (h : Chained appended value)
    (hheader' : headers' "x-forwarded-for" = some value') (h' : Chained appended value') :
    clientIp headers options = clientIp headers' options := by
  obtain ⟨names, hsplit⟩ : ∃ names, options.headerNames = "x-forwarded-for" :: names := by
    cases hlist : options.headerNames with
    | nil =>
      rw [hlist] at hnames
      cases hnames
    | cons name names =>
      rw [hlist] at hnames
      cases hnames
      exact ⟨names, rfl⟩
  simp only [clientIp, hstrategy, hsplit]
  rw [searchHeaders_chained hheader h hdeciding, searchHeaders_chained hheader' h' hdeciding]

/-- A deployment behind the proxies of one network. -/
def behindTen : ClientIpOptions where
  strategy := .forwarded 1 (some ["10.0.0.0/8".toList])

/-- What its proxies appended for a caller at `203.0.113.5`. -/
def appendedByTen : List Char := " 203.0.113.5, 10.0.0.7".toList

/-- Headers with a chain, and with a second header when one is sent. -/
def sent (chain : List Char) (other : Option (List Char)) : String → Option (List Char)
  | "x-forwarded-for" => some chain
  | "x-real-ip" => other
  | _ => none

theorem deciding_appendedByTen :
    Deciding 1 (some ["10.0.0.0/8".toList]) appendedByTen := by
  refine ⟨"203.0.113.5".toList, by decide +kernel, [203, 0, 113, 5], by decide +kernel, ?_⟩
  intro proxy hproxy network hnetwork
  have hten : parseCidr "10.0.0.0/8".toList = .ok (some ⟨[10, 0, 0, 0], 8⟩) := by decide +kernel
  rw [List.mem_singleton.mp hproxy, hten] at hnetwork
  cases hnetwork
  decide +kernel

/-- An unreadable prefix and another header change nothing. -/
theorem clientIp_of_junk :
    clientIp (sent ("[1:2:3:4:5:6:7:8::9,,x".toList ++ ',' :: appendedByTen)
        (some "8.8.8.8".toList)) behindTen
      = clientIp (sent appendedByTen none) behindTen :=
  clientIp_of_appended rfl rfl deciding_appendedByTen rfl (.inr ⟨_, rfl⟩) rfl (.inl rfl)

example : clientIp (sent appendedByTen none) behindTen = .ok (some "203.0.113.5".toList) := by
  decide +kernel

end Auth
