import AtriumVerified.Loop.Journal

/-!
# Proofs: the journal reopens to the state it was in

A snapshot of the reduced state is read back as that state, so the lines of the live file always
reduce to the state in memory, through any number of compactions and wherever the process crashes.
-/

namespace Loop

open Js

/-! ## Maps and sets that are written out -/

theorem entries_set_of_notMem {α : Type} {held : Js.Map Core.Id α} {key : Core.Id} (value : α)
    (h : key ∉ held.keys) : (held.set key value).entries = held.entries ++ [(key, value)] := by
  unfold Js.Map.set
  rw [dif_neg h]

theorem entries_foldl_set {α : Type} (entries : List (Core.Id × α)) (held : Js.Map Core.Id α)
    (h : (held.keys ++ entries.map Prod.fst).Nodup) :
    (entries.foldl (fun held entry => held.set entry.1 entry.2) held).entries =
      held.entries ++ entries := by
  induction entries generalizing held with
  | nil => rw [List.foldl_nil, List.append_nil]
  | cons entry rest ih =>
    have hnew : entry.1 ∉ held.keys := by
      intro hmem
      exact (List.nodup_append.mp h).2.2 _ hmem _ List.mem_cons_self rfl
    have hentries := entries_set_of_notMem entry.2 hnew
    have hkeys : (held.set entry.1 entry.2).keys = held.keys ++ [entry.1] := by
      unfold Js.Map.keys
      rw [hentries, List.map_append]
      rfl
    rw [List.foldl_cons, ih (held.set entry.1 entry.2), hentries, List.append_assoc]
    · rfl
    · rw [hkeys, List.append_assoc]
      exact h

theorem mapOf_entries {α : Type} (held : Js.Map Core.Id α) :
    JournalState.mapOf held.entries = held := by
  obtain ⟨entries, hnodup⟩ := held
  have hentries : (JournalState.mapOf entries).entries = entries :=
    entries_foldl_set entries Js.Map.empty hnodup
  unfold JournalState.mapOf at hentries ⊢
  generalize List.foldl _ Js.Map.empty entries = built at hentries ⊢
  obtain ⟨builtEntries, hbuilt⟩ := built
  cases hentries
  rfl

section Sets

variable {set : List Core.Id}

theorem nodup_addTo (h : set.Nodup) (element : Core.Id) :
    (JournalState.addTo set element).Nodup := by
  unfold JournalState.addTo
  split
  · exact h
  · next hnew =>
    refine List.nodup_append.mpr ⟨h, List.nodup_singleton _, ?_⟩
    rintro held hheld other hother rfl
    rw [List.mem_singleton.mp hother] at hheld
    exact hnew hheld

theorem nodup_foldl_addTo (elements : List Core.Id) (h : set.Nodup) :
    (elements.foldl JournalState.addTo set).Nodup := by
  induction elements generalizing set with
  | nil => exact h
  | cons element rest ih => exact ih (nodup_addTo h element)

theorem foldl_addTo (elements : List Core.Id) (h : (set ++ elements).Nodup) :
    elements.foldl JournalState.addTo set = set ++ elements := by
  induction elements generalizing set with
  | nil => rw [List.foldl_nil, List.append_nil]
  | cons element rest ih =>
    have hnew : element ∉ set := fun hmem =>
      (List.nodup_append.mp h).2.2 _ hmem _ List.mem_cons_self rfl
    rw [List.append_cons] at h
    rw [List.foldl_cons]
    unfold JournalState.addTo
    rw [if_neg hnew]
    exact (ih h).trans (List.append_cons _ _ _).symm

theorem setOf_of_nodup (h : set.Nodup) : JournalState.setOf set = set :=
  foldl_addTo set h

end Sets

/-! ## Snapshots -/

/-- The sets of every plan hold no element twice. -/
def JournalState.Proper (state : JournalState) : Prop :=
  ∀ entry ∈ state.plans.entries, entry.2.sessions.Nodup ∧ entry.2.terminal.Nodup

theorem loadSnapshot_serialize {state : JournalState} (h : state.Proper) :
    JournalState.loadSnapshot state.serialize = state := by
  obtain ⟨cursor, causes, plans, sessions⟩ := state
  have hplans : (plans.entries.map fun entry => (entry.1, ({ entry.2 with
      sessions := JournalState.setOf entry.2.sessions
      terminal := JournalState.setOf entry.2.terminal } : PlanState))) = plans.entries := by
    rw [← List.map_id plans.entries, List.map_map]
    refine List.map_congr_left fun entry hentry => ?_
    obtain ⟨hsessions, hterminal⟩ := h entry hentry
    show (entry.1, ({ entry.2 with
      sessions := JournalState.setOf entry.2.sessions
      terminal := JournalState.setOf entry.2.terminal } : PlanState)) = entry
    rw [setOf_of_nodup hsessions, setOf_of_nodup hterminal]
  show (⟨cursor, JournalState.mapOf causes.entries, JournalState.mapOf (plans.entries.map _),
    JournalState.mapOf sessions.entries⟩ : JournalState) = ⟨cursor, causes, plans, sessions⟩
  rw [hplans, mapOf_entries, mapOf_entries, mapOf_entries]

theorem mem_entries_set {α : Type} {held : Js.Map Core.Id α} {key : Core.Id} {value : α}
    {entry : Core.Id × α} (h : entry ∈ (held.set key value).entries) :
    entry ∈ held.entries ∨ entry = (key, value) := by
  unfold Js.Map.set at h
  split at h
  · obtain ⟨old, hold, hnew⟩ := List.mem_map.mp h
    unfold Js.Map.overwrite at hnew
    split at hnew
    · exact Or.inr hnew.symm
    · rw [hnew] at hold
      exact Or.inl hold
  · rcases List.mem_append.mp h with hold | hnew
    · exact Or.inl hold
    · exact Or.inr (List.mem_singleton.mp hnew)

theorem mem_entries_mapOf {α : Type} {entries : List (Core.Id × α)} {entry : Core.Id × α}
    (h : entry ∈ (JournalState.mapOf entries).entries) : entry ∈ entries := by
  have hall : ∀ (rest : List (Core.Id × α)) (held : Js.Map Core.Id α),
      entry ∈ (rest.foldl (fun held entry => held.set entry.1 entry.2) held).entries →
        entry ∈ held.entries ∨ entry ∈ rest := by
    intro rest
    induction rest with
    | nil => exact fun held hmem => Or.inl hmem
    | cons first rest ih =>
      intro held hmem
      rcases ih _ hmem with hset | hrest
      · rcases mem_entries_set hset with hheld | hfirst
        · exact Or.inl hheld
        · rw [hfirst]
          exact Or.inr List.mem_cons_self
      · exact Or.inr (List.mem_cons_of_mem _ hrest)
  rcases hall entries Js.Map.empty h with hnone | hmem
  · cases hnone
  · exact hmem

section Proper

variable {state : JournalState}

theorem proper_setPlan (h : state.Proper) {planId : Core.Id} {plan : PlanState}
    (hplan : plan.sessions.Nodup ∧ plan.terminal.Nodup) :
    ({ state with plans := state.plans.set planId plan } : JournalState).Proper := by
  intro entry hentry
  rcases mem_entries_set hentry with hold | rfl
  · exact h entry hold
  · exact hplan

theorem proper_ensurePlan (h : state.Proper) (planId : Core.Id) (cause : Option Core.Id) :
    (state.ensurePlan planId cause).Proper := by
  unfold JournalState.ensurePlan
  split
  · exact proper_setPlan h ⟨List.nodup_nil, List.nodup_nil⟩
  · next plan hplan =>
    split
    · exact proper_setPlan h (h _ (Js.Map.mem_of_get hplan))
    · exact h

theorem proper_modifyPlan (h : state.Proper) (planId : Core.Id) {change : PlanState → PlanState}
    (hchange : ∀ plan, plan.sessions.Nodup ∧ plan.terminal.Nodup →
      (change plan).sessions.Nodup ∧ (change plan).terminal.Nodup) :
    (state.modifyPlan planId change).Proper := by
  unfold JournalState.modifyPlan
  split
  · exact h
  · next plan hplan => exact proper_setPlan h (hchange plan (h _ (Js.Map.mem_of_get hplan)))

theorem proper_upsertCause (h : state.Proper) (cause : Core.Id) (routeClass : RouteClass)
    (step : OutcomeKind) (planId sessionId : Option Core.Id) (clientMessageId : Option String)
    (retried : Option Bool) :
    (state.upsertCause cause routeClass step planId sessionId clientMessageId retried).Proper :=
  h

theorem proper_recordDraw (h : state.Proper) (step : OutcomeKind) (cause planId : Core.Id)
    (retry : Option Bool) : (state.recordDraw step cause planId retry).Proper :=
  proper_ensurePlan (proper_upsertCause h cause .draw step (some planId) none none _) planId
    (some cause)

theorem proper_loadSnapshot (held : SnapshotState) : (JournalState.loadSnapshot held).Proper := by
  intro entry hentry
  obtain ⟨old, -, rfl⟩ := List.mem_map.mp (mem_entries_mapOf hentry)
  exact ⟨nodup_foldl_addTo _ List.nodup_nil, nodup_foldl_addTo _ List.nodup_nil⟩

theorem proper_apply (h : state.Proper) (outcome : Outcome) : (state.apply outcome).Proper := by
  cases outcome with
  | snapshot held => exact proper_loadSnapshot held
  | drawTaken cause planId retry => exact proper_recordDraw h .drawTaken cause planId (some retry)
  | drawRefused cause planId retry => exact proper_recordDraw h .drawRefused cause planId retry
  | fundedTerminal cause planId retry => exact proper_recordDraw h .fundedTerminal cause planId retry
  | sessionOpened cause sessionId planId =>
    have hensured := proper_ensurePlan (proper_upsertCause h cause .draw .drawTaken (some planId)
      none none none) planId (some cause)
    have hadded : ∀ plan : PlanState, plan.sessions.Nodup ∧ plan.terminal.Nodup →
        (JournalState.addTo plan.sessions sessionId).Nodup ∧ plan.terminal.Nodup :=
      fun plan hplan => ⟨nodup_addTo hplan.1 sessionId, hplan.2⟩
    exact proper_modifyPlan hensured planId hadded
  | sessionTerminal sessionId planId =>
    have hadded : ∀ plan : PlanState, plan.sessions.Nodup ∧ plan.terminal.Nodup →
        plan.sessions.Nodup ∧ (JournalState.addTo plan.terminal sessionId).Nodup :=
      fun plan hplan => ⟨hplan.1, nodup_addTo hplan.2 sessionId⟩
    exact proper_modifyPlan (proper_ensurePlan h planId none) planId hadded
  | planSettled planId =>
    have hkept : ∀ plan : PlanState, plan.sessions.Nodup ∧ plan.terminal.Nodup →
        plan.sessions.Nodup ∧ plan.terminal.Nodup := fun plan hplan => hplan
    exact proper_modifyPlan (proper_ensurePlan h planId none) planId hkept
  | _ => exact h

theorem proper_reduce (h : state.Proper) (record : JournalRecord) :
    (state.reduce record).Proper := by
  have hmoved : ({ state with cursor := max state.cursor record.roomSeq } : JournalState).Proper := h
  exact proper_apply hmoved record.outcome

end Proper

/-! ## Records -/

/-- A record that is behind its own position: the cursor of a snapshot is not above it. -/
def JournalRecord.Behind (record : JournalRecord) : Prop :=
  ∀ held, record.outcome = .snapshot held → held.cursor ≤ record.roomSeq

/-- Records that the schema admits, at positions that do not decrease. -/
structure Orderly (records : List JournalRecord) : Prop where
  ordered : records.Pairwise fun first second => first.roomSeq ≤ second.roomSeq
  admitted : ∀ record ∈ records, record.Admitted
  behind : ∀ record ∈ records, record.Behind

structure Fit (state : JournalState) (high : Nat) : Prop where
  proper : state.Proper
  cursor : state.cursor ≤ high
  safe : high ≤ maxSafeInteger

section Records

variable {state : JournalState} {high : Nat} {record : JournalRecord} {records : List JournalRecord}

theorem Orderly.tail (h : Orderly (record :: records)) : Orderly records :=
  ⟨(List.pairwise_cons.mp h.ordered).2, fun other hother => h.admitted other
    (List.mem_cons_of_mem _ hother), fun other hother => h.behind other
      (List.mem_cons_of_mem _ hother)⟩

/-- The cursor after a record that holds no snapshot is not below its position. -/
theorem cursor_apply (hbehind : record.Behind) (hcursor : state.cursor ≤ record.roomSeq) :
    (state.apply record.outcome).cursor ≤ record.roomSeq := by
  have hensure : ∀ (state : JournalState) planId cause,
      (state.ensurePlan planId cause).cursor = state.cursor := by
    intro state planId cause
    unfold JournalState.ensurePlan
    split
    · rfl
    · split
      · rfl
      · rfl
  have hmodify : ∀ (state : JournalState) planId change,
      (state.modifyPlan planId change).cursor = state.cursor := by
    intro state planId change
    unfold JournalState.modifyPlan
    split
    · rfl
    · rfl
  unfold JournalRecord.Behind at hbehind
  generalize record.outcome = outcome at hbehind
  cases outcome with
  | snapshot held => exact hbehind held rfl
  | drawTaken cause planId retry => exact (hensure _ planId (some cause)).trans_le hcursor
  | drawRefused cause planId retry => exact (hensure _ planId (some cause)).trans_le hcursor
  | fundedTerminal cause planId retry => exact (hensure _ planId (some cause)).trans_le hcursor
  | sessionOpened cause sessionId planId =>
    exact ((hmodify _ planId _).trans (hensure _ planId (some cause))).trans_le hcursor
  | sessionTerminal sessionId planId =>
    exact ((hmodify _ planId _).trans (hensure _ planId none)).trans_le hcursor
  | planSettled planId =>
    exact ((hmodify _ planId _).trans (hensure _ planId none)).trans_le hcursor
  | _ => exact hcursor

theorem Fit.reduce (h : Fit state high) (hadmitted : record.Admitted) (hbehind : record.Behind)
    (hhigh : high ≤ record.roomSeq) : Fit (state.reduce record) record.roomSeq :=
  ⟨proper_reduce h.proper record,
    cursor_apply hbehind (max_le (le_trans h.cursor hhigh) le_rfl), hadmitted.1⟩

theorem fit_initial : Fit .initial 0 := ⟨by rintro entry ⟨⟩, le_rfl, Nat.zero_le _⟩

def logLines (records : List JournalRecord) : List Json := records.map recordCodec.write

theorem replayRecords_append {lines : List Json} {next : JournalState} {reached : Nat}
    (later : List Json) (h : replayRecords state high lines = some (next, reached)) :
    replayRecords state high (lines ++ later) = replayRecords next reached later := by
  induction lines generalizing state high with
  | nil =>
    cases h
    rfl
  | cons line rest ih =>
    unfold replayRecords at h
    rw [List.cons_append]
    conv_lhs => unfold replayRecords
    cases hrecord : recordCodec.read line with
    | none =>
      rw [hrecord] at h
      cases h
    | some record =>
      rw [hrecord] at h
      simp only [Option.bind_eq_bind, Option.bind_some] at h ⊢
      split at h
      · cases h
      · next hforward =>
        rw [if_neg hforward]
        exact ih h

theorem replayRecords_write (hadmitted : record.Admitted) (hhigh : high ≤ record.roomSeq) :
    replayRecords state high [recordCodec.write record] =
      some (state.reduce record, record.roomSeq) := by
  have hread : recordCodec.read (recordCodec.write record) = some record :=
    recordCodec.read_write record hadmitted
  unfold replayRecords
  rw [hread]
  simp only [Option.bind_eq_bind, Option.bind_some]
  rw [if_neg (Nat.not_lt.mpr hhigh)]
  rfl

theorem reduce_snapshot (h : state.Proper) (held : JournalState) (roomSeq : Nat) :
    held.reduce ⟨roomSeq, .snapshot state.serialize⟩ = state :=
  loadSnapshot_serialize h

theorem replayRecords_snapshot (h : Fit state high) :
    replayRecords .initial 0
      [recordCodec.write ⟨state.cursor, .snapshot state.serialize⟩] = some (state, state.cursor) := by
  have hadmitted : (⟨state.cursor, .snapshot state.serialize⟩ : JournalRecord).Admitted :=
    ⟨le_trans h.cursor h.safe, le_trans h.cursor h.safe⟩
  rw [replayRecords_write hadmitted (Nat.zero_le _), reduce_snapshot h.proper]

theorem replayRecords_logLines (state : JournalState) (h : Orderly records)
    (hhigh : ∀ record ∈ records, high ≤ record.roomSeq) :
    ∃ reached, replayRecords state high (logLines records) =
      some (records.foldl JournalState.reduce state, reached) := by
  induction records generalizing state high with
  | nil => exact ⟨high, rfl⟩
  | cons record rest ih =>
    have hone : replayRecords state high [recordCodec.write record] =
        some (state.reduce record, record.roomSeq) :=
      replayRecords_write (h.admitted record List.mem_cons_self) (hhigh record List.mem_cons_self)
    obtain ⟨reached, hrest⟩ := ih (state.reduce record) h.tail
      (List.pairwise_cons.mp h.ordered).1
    exact ⟨reached, (replayRecords_append _ hone).trans hrest⟩

theorem fit_foldl (h : Fit state high) (horderly : Orderly records)
    (hhigh : ∀ record ∈ records, high ≤ record.roomSeq) :
    ∃ reached, Fit (records.foldl JournalState.reduce state) reached ∧ high ≤ reached ∧
      (reached = high ∨ ∃ record ∈ records, record.roomSeq = reached) := by
  induction records generalizing state high with
  | nil => exact ⟨high, h, le_rfl, Or.inl rfl⟩
  | cons record rest ih =>
    have hfit := h.reduce (horderly.admitted record List.mem_cons_self)
      (horderly.behind record List.mem_cons_self) (hhigh record List.mem_cons_self)
    obtain ⟨reached, hreached, hle, hlast⟩ := ih hfit horderly.tail
      (List.pairwise_cons.mp horderly.ordered).1
    refine ⟨reached, hreached, le_trans (hhigh record List.mem_cons_self) hle, Or.inr ?_⟩
    rcases hlast with rfl | ⟨other, hother, rfl⟩
    · exact ⟨record, List.mem_cons_self, rfl⟩
    · exact ⟨other, List.mem_cons_of_mem _ hother, rfl⟩

/-- A log may be cut anywhere: its beginning may be replaced by a snapshot of what it reduces to. -/
theorem replay_snapshot_tail {beginning tail : List JournalRecord} (h : Orderly (beginning ++ tail)) :
    ∃ reached later,
      replayRecords .initial 0 (logLines (beginning ++ tail)) =
        some ((beginning ++ tail).foldl JournalState.reduce .initial, reached) ∧
      replayRecords .initial 0 (recordCodec.write
          ⟨(beginning.foldl JournalState.reduce .initial).cursor,
            .snapshot (beginning.foldl JournalState.reduce .initial).serialize⟩ :: logLines tail) =
        some ((beginning ++ tail).foldl JournalState.reduce .initial, later) := by
  obtain ⟨reached, hlog⟩ := replayRecords_logLines .initial h fun record _ => Nat.zero_le record.roomSeq
  have hbeginning : Orderly beginning :=
    ⟨(List.pairwise_append.mp h.ordered).1,
      fun record hrecord => h.admitted record (List.mem_append_left _ hrecord),
      fun record hrecord => h.behind record (List.mem_append_left _ hrecord)⟩
  have htail : Orderly tail :=
    ⟨(List.pairwise_append.mp h.ordered).2.1,
      fun record hrecord => h.admitted record (List.mem_append_right _ hrecord),
      fun record hrecord => h.behind record (List.mem_append_right _ hrecord)⟩
  obtain ⟨high, hfit, -, hlast⟩ := fit_foldl fit_initial hbeginning fun _ _ => Nat.zero_le _
  have hbelow : ∀ record ∈ tail,
      (beginning.foldl JournalState.reduce .initial).cursor ≤ record.roomSeq := by
    intro record hrecord
    refine le_trans hfit.cursor ?_
    rcases hlast with rfl | ⟨other, hother, rfl⟩
    · exact Nat.zero_le _
    · exact (List.pairwise_append.mp h.ordered).2.2 other hother record hrecord
  obtain ⟨later, hlater⟩ := replayRecords_logLines
    (beginning.foldl JournalState.reduce .initial) htail hbelow
  refine ⟨reached, later, hlog, ?_⟩
  have hsnapshot := replayRecords_append (logLines tail) (replayRecords_snapshot hfit)
  rw [List.foldl_append]
  exact hsnapshot.trans hlater

end Records

/-! ## The files -/

def Resumes (roomId : String) (lines : List Json) (state : JournalState) (high : Nat) : Prop :=
  (lines = [] ∧ state = .initial) ∨ ∃ rest reached, lines = headerCodec.write roomId :: rest ∧
    replayRecords .initial 0 rest = some (state, reached) ∧ reached ≤ high

/-- An open journal holds the state, and has a file with a header. -/
def Mirrors (roomId : String) (disk : Disk) (state : JournalState) (journal : OutcomeJournal) : Prop :=
  journal.roomId = roomId ∧ journal.state = state ∧ disk.live.getD [] ≠ []

def Staged (roomId : String) (disk : Disk) (state : JournalState) : Stage → Prop
  | .closed => True
  | .opening lines | .opened lines => lines = disk.live.getD []
  | .idle journal | .compacting journal | .created journal => Mirrors roomId disk state journal
  | .headed journal => Mirrors roomId disk state journal ∧
      disk.compacting = some [headerCodec.write roomId]
  | .complete journal => Mirrors roomId disk state journal ∧
      disk.compacting = some [headerCodec.write roomId, journal.snapshotLine]
  | .refused => False

structure Kept (roomId : String) (journaling : Journaling) (state : JournalState) (high : Nat) :
    Prop where
  fit : Fit state high
  resumes : Resumes roomId (journaling.disk.live.getD []) state high
  staged : Staged roomId journaling.disk state journaling.stage

section Files

variable {roomId : String} {compactEvery : Number} {journaling : Journaling} {state : JournalState}
  {high : Nat}

theorem replay_of_resumes (hroom : roomId ≠ "") {lines : List Json}
    (h : Resumes roomId lines state high) (hlines : lines ≠ []) : replay roomId lines = some state := by
  rcases h with ⟨hempty, -⟩ | ⟨rest, reached, rfl, hrest, -⟩
  · exact absurd hempty hlines
  · have hheader : headerCodec.read (headerCodec.write roomId) = some roomId :=
      headerCodec.read_write roomId hroom
    unfold replay
    dsimp only
    rw [hheader]
    simp only [Option.bind_eq_bind, Option.bind_some]
    rw [if_neg (not_not.mpr rfl), hrest]
    rfl

theorem kept_start : Kept roomId .start .initial 0 :=
  ⟨fit_initial, Or.inl ⟨rfl, rfl⟩, trivial⟩

/-- One operation on the files changes nothing of what they hold. -/
theorem kept_advance (hroom : roomId ≠ "") (h : Kept roomId journaling state high) :
    Kept roomId (journaling.advance roomId compactEvery) state high := by
  obtain ⟨⟨live, temporary⟩, stage⟩ := journaling
  obtain ⟨hfit, hresumes, hstaged⟩ := h
  cases stage with
  | closed => exact ⟨hfit, hresumes, rfl⟩
  | opening lines => exact ⟨hfit, hresumes, hstaged⟩
  | opened lines =>
    unfold Journaling.advance
    dsimp only
    split
    · next hempty =>
      have hnone : live.getD [] = [] := hstaged.symm.trans hempty
      rcases hresumes with ⟨-, rfl⟩ | ⟨rest, reached, hlines, -⟩
      · refine ⟨hfit, Or.inr ⟨[], 0, ?_, rfl, Nat.zero_le _⟩, rfl, rfl, ?_⟩
        · dsimp only
          rw [hnone]
          rfl
        · dsimp only
          rw [hnone]
          exact List.cons_ne_nil _ _
      · exact absurd (hnone.symm.trans hlines) (List.cons_ne_nil _ _).symm
    · next hlines =>
      have hlive : live.getD [] ≠ [] := fun hempty => hlines (hstaged.trans hempty)
      have hreplay : replay roomId lines = some state := by
        rw [hstaged]
        exact replay_of_resumes hroom hresumes hlive
      rw [hreplay]
      exact ⟨hfit, hresumes, rfl, rfl, hlive⟩
  | idle journal => exact ⟨hfit, hresumes, hstaged⟩
  | compacting journal => exact ⟨hfit, hresumes, hstaged⟩
  | created journal =>
    obtain ⟨hroomId, hstate, hlive⟩ := hstaged
    refine ⟨hfit, hresumes, ⟨hroomId, hstate, hlive⟩, ?_⟩
    show some [headerCodec.write journal.roomId] = _
    rw [hroomId]
  | headed journal =>
    obtain ⟨hmirrors, htemporary⟩ := hstaged
    refine ⟨hfit, hresumes, hmirrors, ?_⟩
    show some (temporary.getD [] ++ [journal.snapshotLine]) = _
    have hheaded : temporary = some [headerCodec.write roomId] := htemporary
    rw [hheaded]
    rfl
  | complete journal =>
    obtain ⟨⟨hroomId, hstate, -⟩, htemporary⟩ := hstaged
    have hrenamed : temporary = some [headerCodec.write roomId, journal.snapshotLine] := htemporary
    refine ⟨hfit, Or.inr ⟨[journal.snapshotLine], state.cursor, ?_, ?_, hfit.cursor⟩, hroomId, hstate,
      ?_⟩
    · show temporary.getD [] = _
      rw [hrenamed]
      rfl
    · unfold OutcomeJournal.snapshotLine
      rw [hstate]
      exact replayRecords_snapshot hfit
    · show temporary.getD [] ≠ []
      rw [hrenamed]
      exact List.cons_ne_nil _ _
  | refused => exact hstaged.elim

/-- A record is written, and reduced. -/
theorem kept_record {record : JournalRecord} {journal : OutcomeJournal}
    (h : Kept roomId journaling state high) (hidle : journaling.stage = .idle journal)
    (hadmitted : record.Admitted) (hbehind : record.Behind) (hhigh : high ≤ record.roomSeq) :
    Kept roomId (journaling.record record) (state.reduce record) record.roomSeq := by
  obtain ⟨⟨live, temporary⟩, stage⟩ := journaling
  obtain ⟨hfit, hresumes, hstaged⟩ := h
  dsimp only at hidle
  cases hidle
  obtain ⟨hroomId, hstate, hlive⟩ := hstaged
  have hwritten : Resumes roomId (live.getD [] ++ [recordCodec.write record]) (state.reduce record)
      record.roomSeq := by
    rcases hresumes with ⟨hempty, -⟩ | ⟨rest, reached, hlines, hrest, hreached⟩
    · exact absurd hempty hlive
    · have hlines : live.getD [] = headerCodec.write roomId :: rest := hlines
      refine Or.inr ⟨rest ++ [recordCodec.write record], record.roomSeq, ?_, ?_, le_rfl⟩
      · rw [hlines, List.cons_append]
      · rw [replayRecords_append _ hrest]
        exact replayRecords_write hadmitted (le_trans hreached hhigh)
  have hmirrors : Mirrors roomId ⟨some (live.getD [] ++ [recordCodec.write record]), temporary⟩
      (state.reduce record) { journal with
        state := journal.state.reduce record
        appendsSinceCompaction := journal.appendsSinceCompaction + 1 } :=
    ⟨hroomId, by rw [hstate], List.append_ne_nil_of_right_ne_nil _ (List.cons_ne_nil _ _)⟩
  refine ⟨hfit.reduce hadmitted hbehind hhigh, hwritten, ?_⟩
  unfold Journaling.record
  dsimp only
  split
  · exact hmirrors
  · exact hmirrors

/-- A whole run keeps the files and the process agreed on what was recorded. -/
theorem kept_run (hroom : roomId ≠ "") {events : List FileEvent}
    (h : Kept roomId journaling state high)
    (horderly : Orderly (Journaling.recorded roomId compactEvery journaling events))
    (hhigh : ∀ record ∈ Journaling.recorded roomId compactEvery journaling events,
      high ≤ record.roomSeq) :
    ∃ reached, Kept roomId (journaling.run roomId compactEvery events)
      ((Journaling.recorded roomId compactEvery journaling events).foldl JournalState.reduce state)
      reached := by
  induction events generalizing journaling state high with
  | nil => exact ⟨high, h⟩
  | cons event rest ih =>
    cases event with
    | advance =>
      have hstep : Kept roomId (journaling.advance roomId compactEvery) state high :=
        kept_advance hroom h
      exact ih hstep horderly hhigh
    | crash =>
      have hstep : Kept roomId { journaling with stage := .closed } state high :=
        ⟨h.fit, h.resumes, trivial⟩
      exact ih hstep horderly hhigh
    | record record =>
      unfold Journaling.recorded at horderly hhigh ⊢
      cases hstage : journaling.stage with
      | idle journal =>
        rw [hstage] at horderly hhigh
        have hstep : Kept roomId (journaling.record record) (state.reduce record) record.roomSeq :=
          kept_record h hstage (horderly.admitted record List.mem_cons_self)
            (horderly.behind record List.mem_cons_self) (hhigh record List.mem_cons_self)
        exact ih hstep horderly.tail (List.pairwise_cons.mp horderly.ordered).1
      | _ =>
        have hstep : journaling.record record = journaling := by
          unfold Journaling.record
          rw [hstage]
        rw [hstage] at horderly hhigh
        have hkept : Kept roomId (journaling.record record) state high := by
          rw [hstep]
          exact h
        exact ih hkept horderly hhigh

theorem kept_inMemory {journal : OutcomeJournal} (h : Kept roomId journaling state high)
    (hmemory : journaling.inMemory = some journal) : journal.state = state := by
  have hstaged := h.staged
  unfold Journaling.inMemory at hmemory
  generalize journaling.stage = stage at hmemory hstaged
  cases stage with
  | idle held => cases hmemory; exact hstaged.2.1
  | compacting held => cases hmemory; exact hstaged.2.1
  | created held => cases hmemory; exact hstaged.2.1
  | headed held => cases hmemory; exact hstaged.1.2.1
  | complete held => cases hmemory; exact hstaged.1.2.1
  | closed => cases hmemory
  | opening lines => cases hmemory
  | opened lines => cases hmemory
  | refused => cases hmemory

theorem kept_reopen (hroom : roomId ≠ "") (h : Kept roomId journaling state high) :
    ∃ journal, (journaling.reopen roomId compactEvery).stage = .idle journal ∧
      journal.state = state := by
  have hclosed : Kept roomId { journaling with stage := .closed } state high :=
    ⟨h.fit, h.resumes, trivial⟩
  have hadvance : ∀ {held : Journaling}, Kept roomId held state high →
      Kept roomId (held.advance roomId compactEvery) state high := fun hheld => kept_advance hroom hheld
  have hopened : Kept roomId (journaling.reopen roomId compactEvery) state high :=
    hadvance (hadvance (hadvance hclosed))
  have hstaged := hopened.staged
  have hidle : ∃ journal, (journaling.reopen roomId compactEvery).stage = .idle journal ∨
      (journaling.reopen roomId compactEvery).stage = .refused ∧
        journal = (⟨roomId, compactEvery, 0, state⟩ : OutcomeJournal) := by
    unfold Journaling.reopen Journaling.run
    simp only [List.foldl_cons, List.foldl_nil, Journaling.step, Journaling.advance]
    split
    · exact ⟨_, Or.inl rfl⟩
    · split
      · exact ⟨_, Or.inl rfl⟩
      · exact ⟨_, Or.inr ⟨rfl, rfl⟩⟩
  obtain ⟨journal, hidle | ⟨hrefused, -⟩⟩ := hidle
  · refine ⟨journal, hidle, ?_⟩
    rw [hidle] at hstaged
    exact hstaged.2.1
  · rw [hrefused] at hstaged
    exact hstaged.elim

/-- Whatever was recorded in order, and wherever the process ended, the journal opens with the state of
all records; so does a log of which a beginning was replaced by its snapshot. -/
theorem journal_reopens (events : List FileEvent) (hroom : roomId ≠ "")
    (horderly : Orderly (Journaling.recorded roomId compactEvery .start events)) :
    (∃ journal, ((Journaling.start.run roomId compactEvery events).reopen roomId compactEvery).stage =
        .idle journal ∧
      journal.state = (Journaling.recorded roomId compactEvery .start events).foldl
        JournalState.reduce .initial) ∧
    (∀ journal, (Journaling.start.run roomId compactEvery events).inMemory = some journal →
      journal.state = (Journaling.recorded roomId compactEvery .start events).foldl
        JournalState.reduce .initial) ∧
    ∀ beginning tail, Journaling.recorded roomId compactEvery .start events = beginning ++ tail →
      ∃ reached later,
        replayRecords .initial 0 (logLines (beginning ++ tail)) =
          some ((beginning ++ tail).foldl JournalState.reduce .initial, reached) ∧
        replayRecords .initial 0 (recordCodec.write
            ⟨(beginning.foldl JournalState.reduce .initial).cursor,
              .snapshot (beginning.foldl JournalState.reduce .initial).serialize⟩ :: logLines tail) =
          some ((beginning ++ tail).foldl JournalState.reduce .initial, later) := by
  obtain ⟨reached, hkept⟩ := kept_run hroom kept_start horderly fun _ _ => Nat.zero_le _
  refine ⟨kept_reopen hroom hkept, fun journal => kept_inMemory hkept, ?_⟩
  intro beginning tail hsplit
  rw [hsplit] at horderly
  exact replay_snapshot_tail horderly

end Files

/-! ## Runs with a compaction -/

/-- The process opens its journal, records a plan and ends while it compacts; the next one records a
draw. -/
def interruptedCompaction : List FileEvent :=
  [.advance, .advance, .advance, .record ⟨1, .planRequested "m"⟩, .advance, .advance, .crash,
    .advance, .advance, .advance, .record ⟨2, .drawTaken "m" "p" false⟩]

theorem interrupted_compaction_recorded :
    Journaling.recorded "room" (.ofInt 1) .start interruptedCompaction =
      [⟨1, .planRequested "m"⟩, ⟨2, .drawTaken "m" "p" false⟩] := rfl

theorem interrupted_compaction_reopens :
    ∃ journal, ((Journaling.start.run "room" (.ofInt 1) interruptedCompaction).reopen "room"
        (.ofInt 1)).stage = .idle journal ∧
      journal.state = [⟨1, .planRequested "m"⟩, ⟨2, .drawTaken "m" "p" false⟩].foldl
        JournalState.reduce .initial := by
  have horderly : Orderly (Journaling.recorded "room" (.ofInt 1) .start interruptedCompaction) := by
    rw [interrupted_compaction_recorded]
    refine ⟨by decide, ?_, ?_⟩
    · intro record hrecord
      rcases List.mem_cons.mp hrecord with rfl | hrecord
      · exact ⟨by decide, trivial⟩
      · rw [List.mem_singleton.mp hrecord]
        exact ⟨by decide, trivial⟩
    · intro record hrecord held hheld
      rcases List.mem_cons.mp hrecord with rfl | hrecord
      · cases hheld
      · rw [List.mem_singleton.mp hrecord] at hheld
        cases hheld
  exact (journal_reopens interruptedCompaction (by decide) horderly).1

/-- A snapshot whose cursor is far ahead is recorded and compacted, and then the next position. -/
def snapshotAhead : List FileEvent :=
  [.advance, .advance, .advance, .record ⟨5, .snapshot ⟨100, [], [], []⟩⟩, .advance, .advance,
    .advance, .advance, .record ⟨6, .advance⟩, .crash]

/-- The positions do not decrease, and the journal does not open again. -/
theorem snapshot_ahead_refused :
    ((Journaling.recorded "room" (.ofInt 1) .start snapshotAhead).Pairwise
      fun first second => first.roomSeq ≤ second.roomSeq) ∧
    (∀ record ∈ Journaling.recorded "room" (.ofInt 1) .start snapshotAhead, record.Admitted) ∧
    ((Journaling.start.run "room" (.ofInt 1) snapshotAhead).reopen "room" (.ofInt 1)).stage =
      .refused := by
  have hrecorded : Journaling.recorded "room" (.ofInt 1) .start snapshotAhead =
      [⟨5, .snapshot ⟨100, [], [], []⟩⟩, ⟨6, .advance⟩] := rfl
  rw [hrecorded]
  refine ⟨by decide, ?_, rfl⟩
  intro record hrecord
  rcases List.mem_cons.mp hrecord with rfl | hrecord
  · exact ⟨by decide, show 100 ≤ maxSafeInteger by decide⟩
  · rw [List.mem_singleton.mp hrecord]
    exact ⟨by decide, trivial⟩

end Loop
