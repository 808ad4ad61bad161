import AtriumVerified.Core.Attention
import AtriumVerified.Lib.Decimal

/-!
# Proofs: ids and reconciliation of attention items

The id of an item tells its user, its subject and its class apart, and every item that
`reconcileAttention` returns is either a computed one under the status it had in the store or a
stored one that was not computed again.
-/

namespace Core

/-! ## Ids -/

/-- What `escapeIdPart` puts for one character. -/
def escapeChar (c : Char) : List Char :=
  if c = '%' then "%25".toList else if c = ':' then "%3A".toList else [c]

theorem toList_escapeIdPart (value : String) :
    (escapeIdPart value).toList = value.toList.flatMap escapeChar := by
  unfold escapeIdPart replaceChar
  rw [String.toList_ofList, List.flatMap_assoc]
  congr 1
  funext c
  unfold escapeChar
  by_cases hpercent : c = '%'
  · subst hpercent
    rfl
  · by_cases hcolon : c = ':'
    · subst hcolon
      rfl
    · simp [hpercent, hcolon]

theorem escapeChar_cases (c : Char) : (c = '%' ∧ escapeChar c = ['%', '2', '5']) ∨
    (c = ':' ∧ escapeChar c = ['%', '3', 'A']) ∨
      (c ≠ '%' ∧ c ≠ ':' ∧ escapeChar c = [c]) := by
  unfold escapeChar
  by_cases hpercent : c = '%'
  · exact Or.inl ⟨hpercent, by rw [if_pos hpercent]; rfl⟩
  · rw [if_neg hpercent]
    by_cases hcolon : c = ':'
    · exact Or.inr (Or.inl ⟨hcolon, by rw [if_pos hcolon]; rfl⟩)
    · exact Or.inr (Or.inr ⟨hpercent, hcolon, if_neg hcolon⟩)

theorem escapeChar_append_inj {c d : Char} {x y : List Char}
    (h : escapeChar c ++ x = escapeChar d ++ y) : c = d ∧ x = y := by
  rcases escapeChar_cases c with ⟨hcp, hc⟩ | ⟨hcc, hc⟩ | ⟨hcp, -, hc⟩
  all_goals rcases escapeChar_cases d with ⟨hdp, hd⟩ | ⟨hdc, hd⟩ | ⟨hdp, -, hd⟩
  all_goals rw [hc, hd] at h
  all_goals simp only [List.cons_append, List.nil_append, List.cons.injEq] at h
  all_goals grind

theorem flatMap_escapeChar_inj {a b : List Char} (h : a.flatMap escapeChar = b.flatMap escapeChar) :
    a = b := by
  have hne (c : Char) (x : List Char) : escapeChar c ++ x ≠ [] := by
    rcases escapeChar_cases c with ⟨-, hc⟩ | ⟨-, hc⟩ | ⟨-, -, hc⟩
    all_goals simp [hc]
  induction a generalizing b with
  | nil =>
    cases b with
    | nil => rfl
    | cons d b => exact absurd h.symm (hne d _)
  | cons c a ih =>
    cases b with
    | nil => exact absurd h (hne c _)
    | cons d b =>
      rw [List.flatMap_cons, List.flatMap_cons] at h
      obtain ⟨rfl, hrest⟩ := escapeChar_append_inj h
      rw [ih hrest]

theorem escapeIdPart_inj {a b : String} (h : escapeIdPart a = escapeIdPart b) : a = b := by
  have hlist := congrArg String.toList h
  rw [toList_escapeIdPart, toList_escapeIdPart] at hlist
  exact String.toList_inj.mp (flatMap_escapeChar_inj hlist)

theorem colon_notMem_escapeIdPart (value : String) : ':' ∉ (escapeIdPart value).toList := by
  rw [toList_escapeIdPart, List.mem_flatMap]
  rintro ⟨c, -, hc⟩
  rcases escapeChar_cases c with ⟨-, he⟩ | ⟨-, he⟩ | ⟨-, hne, he⟩
  · rw [he] at hc
    exact absurd hc (by decide)
  · rw [he] at hc
    exact absurd hc (by decide)
  · rw [he, List.mem_singleton] at hc
    exact hne hc.symm

theorem AttentionSubjectKind.name_inj {a b : AttentionSubjectKind} (h : a.name = b.name) : a = b := by
  cases a <;> cases b <;> first | rfl | exact absurd h (by decide)

theorem AttentionClass.name_inj {a b : AttentionClass} (h : a.name = b.name) : a = b := by
  cases a <;> cases b <;> first | rfl | exact absurd h (by decide)

theorem AttentionSubjectKind.colon_notMem_name (kind : AttentionSubjectKind) :
    ':' ∉ kind.name.toList := by
  cases kind <;> decide

theorem colon_append_inj {a b x y : String} (ha : ':' ∉ a.toList) (hb : ':' ∉ b.toList)
    (h : a ++ ":" ++ x = b ++ ":" ++ y) : a = b ∧ x = y := by
  have hlist := congrArg String.toList h
  simp only [String.toList_append, List.append_assoc] at hlist
  obtain ⟨hab, hxy⟩ := Js.append_cons_inj ha hb hlist
  exact ⟨String.toList_inj.mp hab, String.toList_inj.mp hxy⟩

theorem attentionIdText_inj {user user' subject subject' : Id} {kind kind' : AttentionSubjectKind}
    {cls cls' : String}
    (h : attentionIdText user kind subject cls = attentionIdText user' kind' subject' cls') :
    user = user' ∧ kind = kind' ∧ subject = subject' ∧ cls = cls' := by
  have hassoc (u : Id) (k : AttentionSubjectKind) (s : Id) (c : String) :
      attentionIdText u k s c = "attn" ++ ":" ++ (escapeIdPart u ++ ":" ++ (k.name ++ ":" ++
        (escapeIdPart s ++ ":" ++ c))) := by
    unfold attentionIdText
    simp only [String.append_assoc]
    rfl
  rw [hassoc, hassoc] at h
  obtain ⟨-, h⟩ := colon_append_inj (by decide) (by decide) h
  obtain ⟨huser, h⟩ :=
    colon_append_inj (colon_notMem_escapeIdPart user) (colon_notMem_escapeIdPart user') h
  obtain ⟨hkind, h⟩ := colon_append_inj kind.colon_notMem_name kind'.colon_notMem_name h
  obtain ⟨hsubject, hcls⟩ :=
    colon_append_inj (colon_notMem_escapeIdPart subject) (colon_notMem_escapeIdPart subject') h
  exact ⟨escapeIdPart_inj huser, AttentionSubjectKind.name_inj hkind, escapeIdPart_inj hsubject, hcls⟩

theorem attentionItemId_inj {user user' subject subject' : Id} {kind kind' : AttentionSubjectKind}
    {cls cls' : AttentionClass}
    (h : attentionItemId user kind subject cls = attentionItemId user' kind' subject' cls') :
    user = user' ∧ kind = kind' ∧ subject = subject' ∧ cls = cls' := by
  have htext : attentionIdText user kind subject cls.name =
      attentionIdText user' kind' subject' cls'.name := h
  obtain ⟨huser, hkind, hsubject, hcls⟩ := attentionIdText_inj htext
  exact ⟨huser, hkind, hsubject, AttentionClass.name_inj hcls⟩

/-! ## Reconciling -/

theorem mem_sortAttention {items : List ComputedAttentionItem} {item : ComputedAttentionItem} :
    item ∈ sortAttention items ↔ item ∈ items :=
  List.mem_mergeSort

theorem mem_reconcileAttention {stored : List AttentionItem} {cycle : AttentionProjection}
    {item : ComputedAttentionItem} (h : item ∈ reconcileAttention stored cycle) :
    (∃ entry ∈ cycle.items, keepStatus stored entry = item) ∨
      ∃ entry ∈ stored, entry.id ∉ cycle.items.map (fun entry => entry.id) ∧
        concludeStored cycle entry = item := by
  unfold reconcileAttention at h
  dsimp only at h
  rw [mem_sortAttention, List.mem_append, List.mem_map, List.mem_map] at h
  rcases h with h | ⟨entry, hentry, heq⟩
  · exact Or.inl h
  · rw [List.mem_filter] at hentry
    refine Or.inr ⟨entry, hentry.1, ?_, heq⟩
    simpa using hentry.2

theorem concludeStored_status {cycle : AttentionProjection} {entry : AttentionItem}
    (h : entry.status ≠ .pending) : (concludeStored cycle entry).status = entry.status := by
  unfold concludeStored
  simp [h]

theorem storedById_mem {stored : List AttentionItem} {id : Id} {previous : AttentionItem}
    (h : storedById stored id = some previous) : previous ∈ stored ∧ previous.id = id := by
  unfold storedById at h
  exact ⟨List.mem_reverse.mp (List.mem_of_find?_eq_some h), by simpa using List.find?_some h⟩

theorem storedById_isSome {stored : List AttentionItem} {entry : AttentionItem}
    (h : entry ∈ stored) : ∃ previous, storedById stored entry.id = some previous := by
  unfold storedById
  rw [← Option.isSome_iff_exists, List.find?_isSome]
  exact ⟨entry, List.mem_reverse.mpr h, by simp⟩

theorem keepStatus_fields (stored : List AttentionItem) (entry : ComputedAttentionItem) :
    ∃ status, keepStatus stored entry = { entry with status } := by
  unfold keepStatus
  split
  · next previous _ => exact ⟨previous.status, rfl⟩
  · exact ⟨entry.status, rfl⟩

theorem keepStatus_status {stored : List AttentionItem} {entry : ComputedAttentionItem}
    {previous : AttentionItem} (h : storedById stored entry.id = some previous) :
    (keepStatus stored entry).status = previous.status := by
  unfold keepStatus
  rw [h]

end Core
