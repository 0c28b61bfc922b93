import EventLedger.AuditTrail
import EventLedger.JsonDecoder

/-!
# Audit queries

`list_audit` selects the newest entries of an account, or of all, and reads their details
back.  The Gateway's endpoint bounds the limit; the Account Service's does not, and SQLite
reads a negative limit as none and refuses one of more than 64 bits.  So the Gateway always
gets the newest entries and never more than it asked for, and the Account Service exactly
when its limit is one (`audit_newest_iff`).
-/
namespace EventLedger

open Program Service LabelledRun

/-! ## Queries -/

/-- A query that `/audit` of one of the services admits. -/
inductive AuditQuery where
  | gateway (account : Option String) (limit : ℤ) (bounds : 1 ≤ limit ∧ limit ≤ 1000)
  | accountService (account : Option String) (limit : ℤ)

/-- The account that is asked for. -/
def AuditQuery.account : AuditQuery → Option String
  | gateway account _ _ => account
  | accountService account _ => account

/-- The limit. -/
def AuditQuery.limit : AuditQuery → ℤ
  | gateway _ limit _ => limit
  | accountService _ limit => limit

/-- `list_audit`; `none` is an exception. -/
def listAuditEntries (loads : String → Option Json) (log : List AuditRow)
    (accountId : Option String) (limit : ℤ) : Option (List Json) :=
  (listAudit log accountId limit).bind fun rows => rows.mapM (·.toJson loads)

/-! ## What was recorded -/

/-- The row an entry is stored as, under its id. -/
def AuditEntry.row (id : ℕ) (entry : AuditEntry) : AuditRow :=
  { id := id, timestamp := entry.timestamp, service := entry.service, action := entry.action,
    outcome := entry.outcome, accountId := entry.accountId, eventId := entry.eventId,
    traceId := entry.traceId,
    detailJson := if entry.detail.isEmpty then none else some (Json.dumps (.obj entry.detail)) }

/-- The entry as it was recorded, under its id; an empty detail reads as null. -/
def AuditEntry.listed (id : ℕ) (entry : AuditEntry) : Json :=
  .obj [("id", .number (toString id)), ("timestamp", .str entry.timestamp),
    ("service", .str entry.service), ("action", .str entry.action),
    ("outcome", .str entry.outcome), ("account_id", entry.accountId.elim .null .str),
    ("event_id", entry.eventId.elim .null .str), ("trace_id", entry.traceId.elim .null .str),
    ("detail", if entry.detail.isEmpty then .null else .obj entry.detail)]

/-- The entry is one of the account's; without an account, every entry is. -/
def AuditEntry.Concerns (account : Option String) (entry : AuditEntry) : Prop :=
  account.all (fun a => entry.accountId = some a) = true

instance (account : Option String) : DecidablePred (AuditEntry.Concerns account) :=
  fun _ => inferInstanceAs (Decidable (_ = true))

/-- The entries of an account with their ids, oldest first; ids count all entries from one. -/
def numbered (entries : List AuditEntry) (account : Option String) : List (AuditEntry × ℕ) :=
  (entries.zipIdx 1).filter fun p => p.1.Concerns account

/-- The entries of an account as they were recorded, oldest first. -/
def recorded (entries : List AuditEntry) (account : Option String) : List Json :=
  (numbered entries account).map fun p => p.1.listed p.2

/-- The newest entries, newest first, as many as asked for at most. -/
def ShowsNewest (entries : List AuditEntry) (account : Option String) (limit : ℤ)
    (result : Option (List Json)) : Prop :=
  ∃ items, result = some items ∧ (items.length : ℤ) ≤ max limit 0 ∧
    items = (recorded entries account).reverse.take (max limit 0).toNat

/-! ## The log -/

theorem foldl_appendAudit (entries : List AuditEntry) (log : List AuditRow) :
    entries.foldl appendAudit log =
      log ++ (entries.zipIdx (log.length + 1)).map fun p => p.1.row p.2 := by
  induction entries generalizing log with
  | nil => exact (List.append_nil log).symm
  | cons entry entries ih =>
    rw [List.foldl_cons, ih, List.zipIdx_cons, List.map_cons, appendAudit, List.length_append,
      List.append_assoc]
    rfl

/-- Whatever a service does, its log is what has been appended one by one. -/
theorem AppendsOnly.recorded {Req Op : Type} {Ret : Op → Type} {Ans σ ε : Type}
    {V : Service Req Op Ret Ans σ ε} {logOf : σ → List AuditRow} {s t : State Req Op Ret Ans σ}
    {ls : List (Service.Label Req ε)} (h : AppendsOnly V logOf) (hrun : Run V.step s ls t)
    (hs : logOf s.store = []) :
    ∃ entries : List AuditEntry, logOf t.store = entries.foldl appendAudit [] := by
  refine Run.preserves (I := fun s => ∃ entries : List AuditEntry,
    logOf s.store = entries.foldl appendAudit []) ?_ hrun ⟨[], hs⟩
  rintro s a t ⟨entries, hentries⟩ hstep
  rcases h.step hstep with hlog | ⟨entry, hlog⟩
  · exact ⟨entries, hlog.trans hentries⟩
  · exact ⟨entries ++ [entry], by rw [hlog, hentries, List.foldl_concat]⟩

/-- A stored entry is listed as it was recorded. -/
theorem toJson_row {repr : String → Option String} {entry : AuditEntry}
    (h : (Json.obj entry.detail).Printed repr) (id : ℕ) :
    (entry.row id).toJson (Json.loads repr) = some (entry.listed id) := by
  by_cases hempty : entry.detail.isEmpty
  · simp only [AuditRow.toJson, AuditEntry.row, AuditEntry.listed, if_pos hempty]
    rfl
  · simp only [AuditRow.toJson, AuditEntry.row, AuditEntry.listed, if_neg hempty,
      if_neg (Json.dumps_obj_ne_empty entry.detail), Json.loads_dumps h]
    rfl

theorem mapM_map_eq_some {α β γ : Type} {f : α → Option β} {g : γ → β} {r : γ → α} {l : List γ}
    (h : ∀ c ∈ l, f (r c) = some (g c)) : (l.map r).mapM f = some (l.map g) := by
  induction l with
  | nil => rfl
  | cons c l ih =>
    rw [List.map_cons, List.mapM_cons, h c List.mem_cons_self,
      ih fun d hd => h d (List.mem_cons_of_mem c hd)]
    rfl

/-! ## The answers -/

section
variable {repr : String → Option String} {entries : List AuditEntry} {account : Option String}
  {limit : ℤ}

/-- The rows of an account are those of its entries. -/
theorem filter_log : ((entries.foldl appendAudit []).filter fun row =>
      account.all fun a => row.accountId = some a) =
    (numbered entries account).map fun p => p.1.row p.2 := by
  rw [foldl_appendAudit, List.nil_append, List.filter_map]
  refine congrArg (List.map _) (List.filter_congr fun p _ => ?_)
  exact Bool.decide_eq_true.symm

theorem mapM_rows (h : ∀ entry ∈ entries, (Json.obj entry.detail).Printed repr)
    {ps : List (AuditEntry × ℕ)} (hps : ps ⊆ numbered entries account) :
    (ps.map fun p => p.1.row p.2).mapM (·.toJson (Json.loads repr)) =
      some (ps.map fun p => p.1.listed p.2) := by
  refine mapM_map_eq_some fun p hp => toJson_row (h p.1 ?_) p.2
  exact List.fst_mem_of_mem_zipIdx (List.mem_of_mem_filter (hps hp))

/-- **What `list_audit` returns**, limit by limit. -/
theorem listAuditEntries_eq (h : ∀ entry ∈ entries, (Json.obj entry.detail).Printed repr) :
    listAuditEntries (Json.loads repr) (entries.foldl appendAudit []) account limit =
      if -2 ^ 63 ≤ limit ∧ limit < 2 ^ 63 then
        some (if limit < 0 then (recorded entries account).reverse
          else (recorded entries account).reverse.take limit.toNat)
      else none := by
  have hall : (numbered entries account).reverse ⊆ numbered entries account :=
    List.reverse_subset.mpr (List.Subset.refl _)
  rw [listAuditEntries, listAudit, sqliteInteger, filter_log]
  split
  · dsimp only [Option.bind_eq_bind, Option.bind_some, Option.pure_def]
    split
    · rw [← List.map_reverse, mapM_rows h hall, recorded, List.map_reverse]
    · rw [← List.map_reverse, ← List.map_take,
        mapM_rows h (List.Subset.trans (List.take_subset _ _) hall), recorded, List.map_take,
        List.map_reverse]
  · rfl

theorem recorded_eq_nil :
    recorded entries account = [] ↔ ∀ entry ∈ entries, ¬ entry.Concerns account := by
  rw [recorded, List.map_eq_nil_iff, numbered, List.filter_eq_nil_iff]
  constructor
  · intro h entry hentry
    rw [← List.zipIdx_map_fst 1 entries] at hentry
    obtain ⟨p, hp, rfl⟩ := List.mem_map.mp hentry
    simpa using h p hp
  · intro h p hp
    simpa using h p.1 (List.fst_mem_of_mem_zipIdx hp)

/-- What is asked for is shown when the limit is one, or when there is nothing to show. -/
theorem showsNewest_iff (h : ∀ entry ∈ entries, (Json.obj entry.detail).Printed repr) :
    ShowsNewest entries account limit
        (listAuditEntries (Json.loads repr) (entries.foldl appendAudit []) account limit) ↔
      0 ≤ limit ∧ limit < 2 ^ 63 ∨
        -2 ^ 63 ≤ limit ∧ limit < 0 ∧ ∀ entry ∈ entries, ¬ entry.Concerns account := by
  rw [listAuditEntries_eq h, ← recorded_eq_nil]
  by_cases hrange : -2 ^ 63 ≤ limit ∧ limit < 2 ^ 63
  · rw [if_pos hrange]
    by_cases hneg : limit < 0
    · -- a negative limit selects everything, and nothing was asked for
      rw [if_pos hneg, ShowsNewest, max_eq_right hneg.le, Int.toNat_zero, List.take_zero]
      constructor
      · rintro ⟨items, hitems, -, rfl⟩
        exact .inr ⟨hrange.1, hneg, List.reverse_eq_nil_iff.mp (Option.some.inj hitems)⟩
      · rintro (⟨hpos, -⟩ | ⟨-, -, hnil⟩)
        · exact absurd hneg (not_lt.mpr hpos)
        · exact ⟨[], by rw [hnil]; rfl, le_refl _, rfl⟩
    · have hpos : 0 ≤ limit := not_lt.mp hneg
      rw [if_neg hneg, ShowsNewest, max_eq_left hpos]
      refine iff_of_true ⟨_, rfl, ?_, rfl⟩ (.inl ⟨hpos, hrange.2⟩)
      have hlength := List.length_take_le limit.toNat (recorded entries account).reverse
      omega
  · rw [if_neg hrange]
    constructor
    · rintro ⟨items, ⟨⟩, -⟩
    · rintro (⟨hpos, hmax⟩ | ⟨hmin, hneg, -⟩)
      · exact absurd ⟨by omega, hmax⟩ hrange
      · exact absurd ⟨hmin, by omega⟩ hrange

/-- So does a service, in every run from an empty log, of what it has recorded by then. -/
theorem AppendsOnly.shows_newest {Req Op : Type} {Ret : Op → Type} {Ans σ ε : Type}
    {V : Service Req Op Ret Ans σ ε} {logOf : σ → List AuditRow} {s t : State Req Op Ret Ans σ}
    {ls : List (Service.Label Req ε)} (h : AppendsOnly V logOf) (hrun : Run V.step s ls t)
    (hs : logOf s.store = []) :
    ∃ entries, logOf t.store = entries.foldl appendAudit [] ∧
      ((∀ entry ∈ entries, (Json.obj entry.detail).Printed repr) → 0 ≤ limit → limit < 2 ^ 63 →
        ShowsNewest entries account limit
          (listAuditEntries (Json.loads repr) (logOf t.store) account limit)) := by
  obtain ⟨entries, hentries⟩ := h.recorded hrun hs
  refine ⟨entries, hentries, fun hprinted hpos hmax => ?_⟩
  rw [hentries]
  exact (showsNewest_iff hprinted).mpr (.inl ⟨hpos, hmax⟩)

end

/-- What an audit query returns when these entries have been recorded. -/
def AuditQuery.answer (q : AuditQuery) (repr : String → Option String)
    (entries : List AuditEntry) : Option (List Json) :=
  listAuditEntries (Json.loads repr) (entries.foldl appendAudit []) q.account q.limit

/-- **Audit queries.**  Whatever has been recorded, the Gateway shows the newest entries, as many as
asked for at most.  The Account Service does so exactly when the limit is neither negative nor of
more than 64 bits, or is a negative one and there is nothing to show. -/
theorem audit_newest_iff {repr : String → Option String} {entries : List AuditEntry}
    (h : ∀ entry ∈ entries, (Json.obj entry.detail).Printed repr) :
    (∀ account limit bounds, ShowsNewest entries account limit
      ((AuditQuery.gateway account limit bounds).answer repr entries)) ∧
    ∀ account limit, ShowsNewest entries account limit
        ((AuditQuery.accountService account limit).answer repr entries) ↔
      0 ≤ limit ∧ limit < 2 ^ 63 ∨
        -2 ^ 63 ≤ limit ∧ limit < 0 ∧ ∀ entry ∈ entries, ¬ entry.Concerns account := by
  refine ⟨fun account limit bounds => (showsNewest_iff h).mpr (.inl ⟨?_, ?_⟩),
    fun account limit => showsNewest_iff h⟩
  · exact le_trans zero_le_one bounds.1
  · exact lt_of_le_of_lt bounds.2 (by norm_num)

/-- Entries of two accounts, the first without a detail. -/
def sampleEntries : List AuditEntry :=
  [⟨"2026-01-01T00:00:00+00:00", "account-service", "TRANSACTION_APPLY", "APPLIED", some "acct-1",
    some "evt-1", some "abababababababababababababababab", []⟩,
   ⟨"2026-01-01T00:00:01+00:00", "account-service", "TRANSACTION_APPLY", "APPLIED", some "acct-2",
    some "evt-2", none, [("amount", .str "5.00")]⟩]

theorem sampleEntries_printed : ∀ entry ∈ sampleEntries,
    (Json.obj entry.detail).Printed fun literal => some literal := by
  intro entry hentry
  rcases List.mem_pair.mp hentry with rfl | rfl
  · exact ⟨List.nodup_nil, trivial⟩
  · exact ⟨List.nodup_singleton _, trivial, trivial⟩

theorem audit_newest_iff_sample : (AuditQuery.accountService none 1).answer
      (fun literal => some literal) sampleEntries =
    some [.obj [("id", .number "2"), ("timestamp", .str "2026-01-01T00:00:01+00:00"),
      ("service", .str "account-service"), ("action", .str "TRANSACTION_APPLY"),
      ("outcome", .str "APPLIED"), ("account_id", .str "acct-2"), ("event_id", .str "evt-2"),
      ("trace_id", .null), ("detail", .obj [("amount", .str "5.00")])]] := by
  obtain ⟨items, hitems, -, hnewest⟩ := ((audit_newest_iff sampleEntries_printed).2 none 1).mpr
    (.inl ⟨by norm_num, by norm_num⟩)
  rw [hitems, hnewest]
  rfl

/-- With a negative limit the Account Service shows everything, and with one of more than 64 bits it
raises. -/
theorem audit_newest_fails : ∃ entries : List AuditEntry,
    ¬ ShowsNewest entries none (-1) ((AuditQuery.accountService none (-1)).answer
      (fun literal => some literal) entries) ∧
    ¬ ShowsNewest entries none (2 ^ 63) ((AuditQuery.accountService none (2 ^ 63)).answer
      (fun literal => some literal) entries) := by
  refine ⟨sampleEntries, ?_, ?_⟩
  · intro h
    rcases (showsNewest_iff sampleEntries_printed).mp h with ⟨hpos, -⟩ | ⟨-, -, hnone⟩
    · omega
    · exact hnone _ List.mem_cons_self rfl
  · intro h
    rcases (showsNewest_iff sampleEntries_printed).mp h with ⟨-, hmax⟩ | ⟨-, hneg, -⟩
    · omega
    · omega

end EventLedger
